import Stencil.Engine
import Stencil.Proofs.Loader.Directory
import Stencil.Proofs.Text.Utf8

namespace Stencil

/-- What compiling a text comes to, whatever name the template gets. -/
def nodesOf (cs : List Char) : Except SyntaxError (List Node) :=
  compileStretch .page (.ofText cs)

theorem compile_mapError {ε : Type} (f : SyntaxError → ε) (cs : List Char) (name : String) :
    (compile (String.ofList cs) name).mapError f = ((nodesOf cs).mapError f).map (⟨·, name⟩) := by
  rw [compile, String.toList_ofList, ← nodesOf]
  cases nodesOf cs <;> rfl

section Ways

variable {d : Disk} {p : FilePath} {content : Bytes} {cs : List Char}

theorem readTemplate_of_read (read : d.read p = .ok content) (text : decodeUtf8 content = .ok cs) :
    Engine.readTemplate d p = ((nodesOf cs).mapError .invalid).map (⟨·, p.stem⟩) := by
  have opened : Engine.readTemplate d p = (compile (String.ofList cs) p.stem).mapError .invalid := by
    rw [Engine.readTemplate, read]
    change ((decodeUtf8 content).mapError _ >>= fun cs => _) = _
    rw [text]
    rfl
  rw [opened, compile_mapError]

theorem compileText_of_read (read : d.read p = .ok content) (text : decodeUtf8 content = .ok cs) (name : String) :
    compileText d p name = ((nodesOf (plainLineEnds cs)).mapError .invalid).map (⟨·, name⟩) := by
  have decoded : FileCharset.utf8.decode content = .ok cs := text
  rw [compileText, Disk.readText_of_read read, decoded]
  change (compile (String.ofList (plainLineEnds cs)) name).mapError SourceError.invalid = _
  rw [compile_mapError]

theorem occurrencesOfFile_of_read (read : d.read p = .ok content) (text : decodeUtf8 content = .ok cs) :
    occurrencesOfFile d p = ((nodesOf (plainLineEnds cs)).mapError .invalid).map Node.occurrencesIn := by
  rw [occurrencesOfFile, compileText_of_read read text]
  cases nodesOf (plainLineEnds cs) <;> rfl

theorem TemplateDirectory.load_of_text {t : TemplateDirectory} {name : String} {place : Place}
    (utf8 : t.charset = .utf8) (inside : t.place d.here name = .ok place)
    (stands : d.find? (.ofPlace place) = some (.file content)) (text : decodeUtf8 content = .ok cs) :
    t.load d name = ((nodesOf (plainLineEnds cs)).mapError .invalid).map (⟨·, name⟩) := by
  have decoded : t.charset.decode content = .ok cs := by
    rw [utf8]
    exact text
  rw [load_of_file inside stands, decoded]
  change compileNamed (String.ofList (plainLineEnds cs)) name = _
  rw [compileNamed, compile_mapError]

/-- A file that is text is compiled to the same nodes at the same places, or with the same error, by the loader over
its directory, alone, and for its texts to translate; and by an engine too, if it holds no carriage return. -/
theorem compile_file_alike (read : d.read p = .ok content) (text : decodeUtf8 content = .ok cs)
    {t : TemplateDirectory} {name : String} {place : Place} (utf8 : t.charset = .utf8)
    (inside : t.place d.here name = .ok place) (same : d.reach (.ofPlace place) = d.reach p) :
    ∃ compiled : Except SyntaxError (List Node),
      compileText d p p.stem = (compiled.mapError .invalid).map (⟨·, p.stem⟩) ∧
      t.load d name = (compiled.mapError .invalid).map (⟨·, name⟩) ∧
      occurrencesOfFile d p = (compiled.mapError .invalid).map Node.occurrencesIn ∧
      ('\r' ∉ cs → Engine.readTemplate d p = (compiled.mapError .invalid).map (⟨·, p.stem⟩)) := by
  have stands : d.find? (.ofPlace place) = some (.file content) := by
    rw [Disk.find?, same]
    exact Disk.read_eq_ok_iff.mp read
  refine ⟨nodesOf (plainLineEnds cs), compileText_of_read read text p.stem,
    TemplateDirectory.load_of_text utf8 inside stands text, occurrencesOfFile_of_read read text, fun plain => ?_⟩
  rw [readTemplate_of_read read text, plainLineEnds_eq_self_iff.mpr plain]

end Ways

/-- A text to translate on the second line of a file. -/
def linesDisk : Disk :=
  ⟨[(["w"], .directory), (["w", "a.tpl"], .file (encodeUtf8 "é\n$txt:\x7bk\x7d$".toList))], ["w"]⟩

theorem compile_file_alike_of_lines :
    let p : FilePath := ⟨.here, ["a.tpl"]⟩
    let cs := "é\n$txt:\x7bk\x7d$".toList
    linesDisk.read p = .ok (encodeUtf8 cs) ∧ decodeUtf8 (encodeUtf8 cs) = .ok cs ∧
      templatesHere.place linesDisk.here "a" = .ok ["w", "a.tpl"] ∧
      linesDisk.reach (.ofPlace ["w", "a.tpl"]) = linesDisk.reach p ∧ '\r' ∉ cs ∧
      ∃ compiled : Except SyntaxError (List Node),
        compileText linesDisk p "a" = (compiled.mapError .invalid).map (⟨·, "a"⟩) ∧
        templatesHere.load linesDisk "a" = (compiled.mapError .invalid).map (⟨·, "a"⟩) ∧
        occurrencesOfFile linesDisk p = (compiled.mapError .invalid).map Node.occurrencesIn ∧
        Engine.readTemplate linesDisk p = (compiled.mapError .invalid).map (⟨·, "a"⟩) := by
  intro p cs
  have read : linesDisk.read p = .ok (encodeUtf8 cs) := by rfl
  have text : decodeUtf8 (encodeUtf8 cs) = .ok cs := decodeUtf8_encodeUtf8 cs
  have inside : templatesHere.place linesDisk.here "a" = .ok ["w", "a.tpl"] := by rfl
  have same : linesDisk.reach (.ofPlace ["w", "a.tpl"]) = linesDisk.reach p := by rfl
  have plain : '\r' ∉ cs := by decide
  have stem : p.stem = "a" := by decide +kernel
  obtain ⟨compiled, alone, loaded, keys, engine⟩ := compile_file_alike read text rfl inside same
  rw [stem] at alone engine
  exact ⟨read, text, inside, same, plain, compiled, alone, loaded, keys, engine plain⟩

/-- A carriage return before a text to translate. -/
def returnDisk : Disk :=
  ⟨[(["w"], .directory), (["w", "a.tpl"], .file (encodeUtf8 "\r$txt:\x7bk\x7d$".toList))], ["w"]⟩

/-- A carriage return alone ends a line for all but the engine. -/
theorem compile_file_apart :
    (occurrencesOfFile returnDisk ⟨.here, ["a.tpl"]⟩).toOption = some [⟨"k", 2⟩] ∧
      (compileText returnDisk ⟨.here, ["a.tpl"]⟩ "a").toOption.map Template.occurrences = some [⟨"k", 2⟩] ∧
      (Engine.readTemplate returnDisk ⟨.here, ["a.tpl"]⟩).toOption.map Template.occurrences = some [⟨"k", 1⟩] := by
  decide +kernel

end Stencil
