import Stencil.Proofs.Template.Printer

namespace Stencil

theorem readBraced_eq_ok_iff {c content after : Cursor} :
    readBraced c = .ok content after ↔ ∃ n, closingBrace 0 (c.advance 1).rest = some n ∧
      content = (c.advance 1).upTo n ∧ after = (c.advance 1).advance (n + 1) := by
  constructor
  · intro read
    unfold readBraced at read
    simp only at read
    split at read
    · cases read
    · rename_i n found
      cases read
      exact ⟨n, found, rfl, rfl⟩
  · rintro ⟨n, found, rfl, rfl⟩
    simp only [readBraced, found]

/-- The search for a closing brace passes over the text, with as many blocks open behind it as
before it. -/
def Transparent (b : List Char) : Prop :=
  ∀ (depth : Nat) (tail : List Char),
    closingBrace depth (b ++ tail) = (closingBrace depth tail).map (· + b.length)

namespace Transparent

variable {b d : List Char}

theorem nil : Transparent [] := by
  intro depth tail
  simp

theorem append (first : Transparent b) (second : Transparent d) : Transparent (b ++ d) := by
  intro depth tail
  rw [List.append_assoc, first, second, Option.map_map]
  congr 1
  funext n
  simp only [Function.comp_apply, List.length_append]
  omega

theorem char {c : Char} (unescaped : c ≠ '\\') (opens : c ≠ '\x7b') (closes : c ≠ '\x7d') :
    Transparent [c] := by
  intro depth tail
  rw [List.singleton_append, closingBrace.eq_def]
  split <;> simp_all

theorem escaped (c : Char) : Transparent ['\\', c] := by
  intro depth tail
  simp [closingBrace]

theorem inBraces (inside : Transparent b) : Transparent (braced b) := by
  intro depth tail
  have closed : closingBrace (depth + 1) (b ++ '\x7d' :: tail) =
      (closingBrace depth tail).map (· + (b.length + 1)) := by
    rw [inside, closingBrace, Option.map_map]
    congr 1
    funext n
    simp only [Function.comp_apply]
    omega
  have split : braced b ++ tail = '\x7b' :: (b ++ '\x7d' :: tail) := by
    simp [braced]
  rw [split, closingBrace, closed, Option.map_map]
  congr 1
  funext n
  simp only [Function.comp_apply, braced, List.length_append, List.length_cons,
    List.length_nil]
  omega

/-- A backslash hides the character behind it, but at most the one that ends the text. -/
theorem of_braceless {last : Char} (unescaped : last ≠ '\\') (ends : last ≠ '\x7b' ∧ last ≠ '\x7d') :
    ∀ b : List Char, (∀ c ∈ b, c ≠ '\x7b' ∧ c ≠ '\x7d') → Transparent (b ++ [last])
  | [], _ => char unescaped ends.1 ends.2
  | [c], braceless => by
    by_cases hides : c = '\\'
    · rw [hides]
      exact escaped last
    · have own := braceless c (List.mem_singleton.mpr rfl)
      exact (char hides own.1 own.2).append (char unescaped ends.1 ends.2)
  | c :: d :: b, braceless => by
    by_cases hides : c = '\\'
    · rw [hides]
      exact (escaped d).append
        (of_braceless unescaped ends b fun e found => braceless e (by simp [found]))
    · have own := braceless c List.mem_cons_self
      exact (char hides own.1 own.2).append
        (of_braceless unescaped ends (d :: b) fun e found => braceless e (List.mem_cons_of_mem _ found))

theorem of_chars : ∀ b : List Char,
    (∀ c ∈ b, c ≠ '\\' ∧ c ≠ '\x7b' ∧ c ≠ '\x7d') → Transparent b
  | [], _ => nil
  | c :: b, smooth => by
    obtain ⟨unescaped, opens, closes⟩ := smooth c List.mem_cons_self
    exact (char unescaped opens closes).append
      (of_chars b fun d found => smooth d (List.mem_cons_of_mem _ found))

/-- A directive without blocks, whatever backslashes it has: its last character is its delimiter. -/
theorem inDelimiters (braceless : ∀ c ∈ b, c ≠ '\x7b' ∧ c ≠ '\x7d') : Transparent (delimited b) := by
  refine of_braceless (by decide) (by decide) ('$' :: b) fun c found => ?_
  rcases List.mem_cons.mp found with rfl | inside
  · decide
  · exact braceless c inside

theorem escape {cs : List Char} (plain : '\\' ∉ cs) : Transparent (Region.block.escape cs) := by
  induction cs with
  | nil => exact nil
  | cons c cs ih =>
    rw [List.mem_cons, not_or] at plain
    have later := ih plain.2
    rw [Region.escape, List.flatMap_cons]
    refine append ?_ later
    split
    · exact escaped c
    · rename_i special
      simp only [Region.escapes, Bool.or_eq_true, beq_iff_eq, not_or] at special
      exact char (fun same => plain.1 same.symm) special.1.2 special.2

/-- The text up to the brace that is found closes the blocks that were open and those that it opens. The brace
itself stands behind it. -/
theorem of_closingBrace {depth n : Nat} {cs : List Char} (found : closingBrace depth cs = some n) :
    (∀ more tail, closingBrace (depth + more) (cs.take n ++ tail) =
        (closingBrace more tail).map (· + n)) ∧ ∃ rest, cs.drop n = '\x7d' :: rest := by
  have passed (o : Option Nat) (m k : Nat) : (o.map (· + m)).map (· + k) = o.map (· + (m + k)) := by
    rw [Option.map_map]
    congr 1
    funext i
    exact Nat.add_assoc i m k
  fun_induction closingBrace depth cs generalizing n with
  | case1 => cases found
  | case2 depth d cs ih =>
    obtain ⟨m, inner, rfl⟩ := Option.map_eq_some_iff.mp found
    refine ⟨fun more tail => ?_, (ih inner).2⟩
    rw [List.take_succ_cons, List.take_succ_cons, List.cons_append, List.cons_append, closingBrace,
      (ih inner).1, passed]
  | case3 depth cs ih =>
    obtain ⟨m, inner, rfl⟩ := Option.map_eq_some_iff.mp found
    refine ⟨fun more tail => ?_, (ih inner).2⟩
    rw [List.take_succ_cons, List.cons_append, closingBrace, Nat.add_right_comm, (ih inner).1, passed]
  | case4 cs =>
    cases found
    exact ⟨fun more tail => by simp, cs, rfl⟩
  | case5 cs depth ih =>
    obtain ⟨m, inner, rfl⟩ := Option.map_eq_some_iff.mp found
    refine ⟨fun more tail => ?_, (ih inner).2⟩
    rw [List.take_succ_cons, List.cons_append, Nat.succ_add, closingBrace, (ih inner).1, passed]
  | case6 depth d cs escape opens closes ih =>
    obtain ⟨m, inner, rfl⟩ := Option.map_eq_some_iff.mp found
    have unescaped : d ≠ '\\' := by
      rintro rfl
      cases cs with
      | nil => cases inner
      | cons e es => exact escape e es rfl rfl
    refine ⟨fun more tail => ?_, (ih inner).2⟩
    rw [List.take_succ_cons, List.cons_append, ← List.singleton_append,
      char unescaped opens closes, (ih inner).1, passed]
    rfl

/-- Text up to a closing brace opens as many blocks as it closes. -/
theorem take_closingBrace {n : Nat} {cs : List Char} (found : closingBrace 0 cs = some n) : Transparent (cs.take n) := by
  intro depth tail
  have length : (cs.take n).length = n := List.length_take_of_le (Nat.le_of_lt (closingBrace_lt found))
  have passes := (of_closingBrace found).1 depth tail
  rw [Nat.zero_add] at passes
  rw [passes, length]

/-- The content of a block opens as many blocks as it closes. -/
theorem of_content {c content after : Cursor} (read : Stencil.readBraced c = .ok content after) :
    Transparent content.rest := by
  obtain ⟨n, found, rfl, -⟩ := readBraced_eq_ok_iff.mp read
  exact take_closingBrace found

/-- What just fills a block is passed over wherever it stands. -/
theorem of_readBraced {content after : Cursor} (read : Stencil.readBraced (.ofText (braced b)) = .ok content after)
    (fills : content.rest = b) : Transparent b :=
  fills ▸ of_content read

/-- A block that holds transparent text ends at the brace behind that text. -/
theorem readBraced (inside : Transparent b) {c : Cursor} {tail : List Char}
    (next : c.rest = braced b ++ tail) :
    readBraced c = .ok ((c.advance 1).upTo b.length) ((c.advance 1).advance (b.length + 1)) := by
  have behind : (c.advance 1).rest = b ++ '\x7d' :: tail := by
    simp [next, braced]
  have found : closingBrace 0 (c.advance 1).rest = some b.length := by
    rw [behind, inside, closingBrace, Option.map_some, Nat.zero_add]
  simp only [Stencil.readBraced, found]

end Transparent

namespace Cursor

theorem advance_advance (c : Cursor) (m n : Nat) : (c.advance m).advance n = c.advance (m + n) := by
  have passed : c.rest.take (m + n) = c.rest.take m ++ (c.rest.drop m).take n := List.take_add
  simp only [advance, passed, List.drop_drop, List.length_append, Mark.past_append, Nat.add_assoc]

end Cursor

section Delimiter

variable {opened : Mark} {c : Cursor} {cs : List Char}

theorem toDelimiter_stop (next : c.rest = '$' :: cs) : toDelimiter opened c = .ok () c := by
  rw [toDelimiter.eq_def]
  split <;> rename_i left <;> rw [next] at left <;> cases left
  rename_i other _ _
  exact absurd rfl other

theorem toDelimiter_char {d : Char} (next : c.rest = d :: cs) (delimiter : d ≠ '$')
    (opens : d ≠ '\x7b') (closes : d ≠ '\x7d') :
    toDelimiter opened c = toDelimiter opened (c.advance 1) := by
  rw [toDelimiter.eq_def]
  split <;> rename_i left <;> rw [next] at left <;> cases left
  · exact absurd rfl delimiter
  · exact absurd rfl closes
  · exact absurd rfl opens

theorem toDelimiter_block {block after : Cursor} (next : c.rest = '\x7b' :: cs)
    (read : readBraced c = .ok block after) : toDelimiter opened c = toDelimiter opened after := by
  rw [toDelimiter.eq_def]
  split <;> rename_i left <;> rw [next] at left <;> cases left
  · split
    · rename_i same
      rw [read] at same
      cases same
      rfl
    · rename_i failed
      rw [read] at failed
      cases failed
  · rename_i _ _ other
    exact absurd rfl other

theorem toDelimiter_nil (done : c.rest = []) : toDelimiter opened c = .error ⟨.unterminated, opened⟩ c := by
  rw [toDelimiter.eq_def]
  split <;> rename_i left <;> rw [done] at left <;> cases left

theorem toDelimiter_close (next : c.rest = '\x7d' :: cs) :
    toDelimiter opened c = .error ⟨.unmatchedClose, c.mark⟩ c := by
  rw [toDelimiter.eq_def]
  split <;> rename_i left <;> rw [next] at left <;> cases left
  rename_i _ other _
  exact absurd rfl other

theorem toDelimiter_unmatched {e : SyntaxError} {stopped : Cursor} (next : c.rest = '\x7b' :: cs)
    (failed : readBraced c = .error e stopped) : toDelimiter opened c = .error e stopped := by
  rw [toDelimiter.eq_def]
  split <;> rename_i left <;> rw [next] at left <;> cases left
  · split
    · rename_i read
      rw [failed] at read
      cases read
    · rename_i same
      rw [failed] at same
      cases same
      rfl
  · rename_i _ _ other
    exact absurd rfl other

theorem Token.next_directive {r : Region} (next : c.rest = '$' :: cs) :
    Token.next r c = directiveToken c := by
  rw [Token.next, next]
  rfl

theorem Token.next_text {r : Region} {d : Char} (next : c.rest = d :: cs) (text : d ≠ '$') :
    Token.next r c = textToken r c := by
  rw [Token.next, next]
  split
  · contradiction
  · rename_i same
    cases same
    contradiction
  · rfl

end Delimiter

section Tokens

variable {r : Region} {c after : Cursor} {t : Token}

/-- The content of a directive is what stands up to the delimiter where the search for one ends. -/
theorem directiveToken_ok (read : directiveToken c = .ok t after) :
    ∃ stopped, toDelimiter c.mark (c.advance 1) = .ok () stopped ∧
      t = ⟨.directive, (c.advance 1).rest.take (stopped.offset - (c.advance 1).offset),
        (c.advance 1).offset, stopped.offset, c.mark⟩ ∧
      after = stopped.advance 1 := by
  unfold directiveToken at read
  simp only at read
  split at read
  · cases read
  · rename_i stopped closed
    cases read
    exact ⟨stopped, closed, rfl, rfl⟩

theorem Token.next_ok (read : Token.next r c = .ok t after) :
    c.rest = [] ∧ t = .eof c ∧ after = c ∨
      ∃ d cs, c.rest = d :: cs ∧
        (d = '$' ∧ directiveToken c = .ok t after ∨ d ≠ '$' ∧ textToken r c = .ok t after) := by
  cases left : c.rest with
  | nil =>
    rw [Token.next, left] at read
    cases read
    exact .inl ⟨rfl, rfl, rfl⟩
  | cons d cs =>
    refine .inr ⟨d, cs, rfl, ?_⟩
    by_cases opens : d = '$'
    · subst opens
      exact .inl ⟨rfl, (Token.next_directive left).symm.trans read⟩
    · exact .inr ⟨opens, (Token.next_text left opens).symm.trans read⟩

theorem tokenize_nil (done : c.rest = []) : tokenize r c = .ok [.eof c] := by
  rw [tokenize, dif_pos done]

/-- A stretch is cut into its first token and those of what is left behind it. -/
theorem tokenize_cons (more : c.rest ≠ []) :
    tokenize r c = match Token.next r c with
      | .ok t after => (tokenize r after).map (t :: ·)
      | .error e _ => .error e := by
  rw [tokenize, dif_neg more]
  split <;> rename_i read <;> rw [read]

end Tokens

/-- The search for a closing delimiter passes over the text. -/
def Crossable (b : List Char) : Prop :=
  ∀ (opened : Mark) (c : Cursor) (tail : List Char), c.rest = b ++ tail →
    toDelimiter opened c = toDelimiter opened (c.advance b.length)

namespace Crossable

variable {b d : List Char}

theorem append (first : Crossable b) (second : Crossable d) : Crossable (b ++ d) := by
  intro opened c tail next
  rw [List.append_assoc] at next
  have behind : (c.advance b.length).rest = d ++ tail := by
    rw [Cursor.advance_rest, next, List.drop_left]
  rw [first opened c _ next, second opened _ tail behind, Cursor.advance_advance,
    List.length_append]

theorem of_chars : ∀ b : List Char, (∀ c ∈ b, c ≠ '$' ∧ c ≠ '\x7b' ∧ c ≠ '\x7d') → Crossable b
  | [], _ => fun _ _ _ _ => rfl
  | d :: b, unspecial => by
    obtain ⟨delimiter, opens, closes⟩ := unspecial d List.mem_cons_self
    have single : Crossable [d] := fun _ _ _ next => toDelimiter_char next delimiter opens closes
    exact single.append (of_chars b fun c found => unspecial c (List.mem_cons_of_mem _ found))

theorem inBraces (inside : Transparent b) : Crossable (braced b) := by
  intro opened c tail next
  have length : (braced b).length = 1 + (b.length + 1) := by
    simp [braced, Nat.add_comm]
  have opens : c.rest = '\x7b' :: (b ++ '\x7d' :: tail) := by
    simp [next, braced]
  rw [toDelimiter_block opens (inside.readBraced next), length, Cursor.advance_advance]

/-- A directive whose content can be crossed is one token, and its value is that content. -/
theorem next (inside : Crossable b) {r : Region} {c : Cursor} {tail : List Char}
    (begins : c.rest = delimited b ++ tail) :
    ∃ t after, Token.next r c = .ok t after ∧ t.kind = .directive ∧ t.value = b ∧
      after.rest = tail := by
  have opens : c.rest = '$' :: (b ++ '$' :: tail) := by
    simp [begins, delimited]
  have content : (c.advance 1).rest = b ++ '$' :: tail := by
    simp [opens]
  have closes : ((c.advance 1).advance b.length).rest = '$' :: tail := by
    rw [Cursor.advance_rest, content, List.drop_left]
  have length : ((c.advance 1).advance b.length).offset - (c.advance 1).offset = b.length := by
    rw [Cursor.advance, content, List.take_left, Nat.add_sub_cancel_left]
  have found : toDelimiter c.mark (c.advance 1) = .ok () ((c.advance 1).advance b.length) := by
    rw [inside c.mark _ _ content, toDelimiter_stop closes]
  refine ⟨⟨.directive, b, (c.advance 1).offset, ((c.advance 1).advance b.length).offset, c.mark⟩,
    ((c.advance 1).advance b.length).advance 1, ?_, rfl, rfl, ?_⟩
  · rw [Token.next_directive opens]
    simp only [directiveToken, found, length]
    rw [content, List.take_left]
  · rw [Cursor.advance_rest, closes]
    rfl

end Crossable

/-- Reading literal text stops here: at a delimiter, or because nothing is left. -/
def StopsText (tail : List Char) : Prop :=
  tail = [] ∨ ∃ cs, tail = '$' :: cs

namespace Region

variable {r : Region}

theorem escapes_delimiter (r : Region) : r.escapes '$' := by
  cases r <;> rfl

theorem escape_cons (r : Region) (c : Char) (cs : List Char) :
    r.escape (c :: cs) = (if r.escapes c then ['\\', c] else [c]) ++ r.escape cs := rfl

theorem escape_eq_nil {cs : List Char} (none : r.escape cs = []) : cs = [] := by
  cases cs with
  | nil => rfl
  | cons c cs =>
    rw [escape_cons] at none
    split at none <;> cases none

/-- What has to be escaped stands behind its backslash, so escaped text begins with none of it. -/
theorem escapes_head_escape {cs ds : List Char} {d : Char} (first : r.escape cs = d :: ds) :
    r.escapes d = false := by
  cases cs with
  | nil => cases first
  | cons c cs =>
    rw [escape_cons] at first
    split at first
    · cases first
      cases r <;> rfl
    · rename_i ordinary
      cases first
      simpa using ordinary

/-- Escaped text is read up to its end and no further, unless its last backslash hides what follows. -/
theorem textLength_escape {cs tail : List Char} (ends : tail = [] ∨ cs.getLast? ≠ some '\\')
    (stops : StopsText tail) : r.textLength (r.escape cs ++ tail) = (r.escape cs).length := by
  induction cs with
  | nil =>
    rcases stops with rfl | ⟨ds, rfl⟩
    · rfl
    · cases ds <;> simp [escape, textLength]
  | cons c cs ih =>
    have later := ih (ends.imp_right fun shown last => shown (by rw [List.getLast?_cons, last]; rfl))
    rw [escape_cons]
    split
    · rename_i special
      simp only [List.cons_append, List.nil_append, textLength, special, later, List.length_cons]
      simp
    · rename_i ordinary
      have text : c ≠ '$' := fun same => ordinary (same ▸ r.escapes_delimiter)
      have single : r.textLength (c :: (r.escape cs ++ tail)) = r.textLength (r.escape cs ++ tail) + 1 := by
        cases rest : r.escape cs with
        | cons d ds => simp [textLength, text, escapes_head_escape rest]
        | nil =>
          rcases stops with rfl | ⟨ds, rfl⟩
          · simp [textLength, text]
          · obtain rfl : cs = [] := by
              cases cs with
              | nil => rfl
              | cons d cs =>
                rw [escape_cons] at rest
                split at rest <;> cases rest
            have literal : c ≠ '\\' := by simpa using ends
            simp [textLength, text, literal]
      rw [List.append_assoc, List.singleton_append, List.length_append, single, later]
      exact Nat.add_comm _ _

/-- Escapes are taken away again, also where backslashes stand for themselves. -/
theorem unescape_escape (r : Region) (cs : List Char) : r.unescape (r.escape cs) = cs := by
  induction cs with
  | nil => rfl
  | cons c cs ih =>
    rw [escape_cons]
    split
    · rename_i special
      simp [unescape, special, ih]
    · cases rest : r.escape cs with
      | nil =>
        rw [rest] at ih
        rw [← ih]
        rfl
      | cons d ds =>
        rw [rest] at ih
        simp [unescape, escapes_head_escape rest, ih]

/-- Escaped text is one token, and its value is the text itself. -/
theorem next_escape {cs tail : List Char} (nonempty : cs ≠ []) (ends : tail = [] ∨ cs.getLast? ≠ some '\\')
    (stops : StopsText tail) {c : Cursor} (begins : c.rest = r.escape cs ++ tail) :
    ∃ t after, Token.next r c = .ok t after ∧ t.kind = .text ∧ t.value = cs ∧ after.rest = tail := by
  have length : r.textLength c.rest = (r.escape cs).length := by
    rw [begins, textLength_escape ends stops]
  obtain ⟨d, ds, first, text⟩ : ∃ d ds, r.escape cs = d :: ds ∧ d ≠ '$' := by
    cases cs with
    | nil => contradiction
    | cons c cs =>
      rw [escape_cons]
      split
      · exact ⟨'\\', c :: r.escape cs, rfl, by decide⟩
      · rename_i ordinary
        exact ⟨c, r.escape cs, rfl, fun same => ordinary (same ▸ r.escapes_delimiter)⟩
  refine ⟨⟨.text, cs, c.offset, c.offset + r.textLength c.rest, c.mark⟩,
    c.advance (r.textLength c.rest), ?_, rfl, rfl, ?_⟩
  · have next : c.rest = d :: (ds ++ tail) := by
      rw [begins, first, List.cons_append]
    rw [Token.next_text next text]
    simp only [textToken]
    rw [length, begins, List.take_left, unescape_escape]
  · rw [Cursor.advance_rest, length, begins, List.drop_left]

end Region

end Stencil
