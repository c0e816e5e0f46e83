import Stencil.Render.Diagnostic
import Stencil.Text.Json
import Stencil.Localization.Skeleton

namespace Stencil

def Diagnostic.json (d : Diagnostic) : String :=
  jsonObject [("kind", jsonText d.kind.name), ("message", jsonText d.message),
    ("target", jsonText d.target), ("line", jsonNumber d.mark.line),
    ("column", jsonNumber d.mark.column)]

/-- A run: what was filled in and by which rules, the text, and the reports. -/
def runJson (template locale domain text : String) (diagnostics : List Diagnostic) : String :=
  jsonObject [("template", jsonText template), ("locale", jsonText locale),
    ("domain", jsonText domain), ("text", jsonText text),
    ("diagnostics", jsonArray (diagnostics.map Diagnostic.json))]

def Reference.json (r : Reference) : String :=
  jsonObject [("file", jsonText r.file.text), ("key", jsonText r.key), ("line", jsonNumber r.line)]

def referencesJson (rs : List Reference) : String :=
  jsonArray (rs.map Reference.json)

end Stencil
