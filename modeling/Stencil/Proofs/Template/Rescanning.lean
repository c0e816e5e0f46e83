import Stencil.Proofs.Template.Heads
import Stencil.Proofs.Template.Matching
import Stencil.Proofs.Template.Operations

namespace Stencil

/-- The search for the closing delimiter, with the contents of the blocks that are skipped on the way. -/
def blocksToDelimiter (opened : Mark) (c : Cursor) : EStateM.Result SyntaxError Cursor (List Cursor) :=
  match _left : c.rest with
  | [] => .error ⟨.unterminated, opened⟩ c
  | '$' :: _ => .ok [] c
  | '\x7d' :: _ => .error ⟨.unmatchedClose, c.mark⟩ c
  | '\x7b' :: _ =>
    match _read : readBraced c with
    | .error e stopped => .error e stopped
    | .ok content after =>
      match blocksToDelimiter opened after with
      | .error e stopped => .error e stopped
      | .ok blocks stopped => .ok (content :: blocks) stopped
  | _ :: _ => blocksToDelimiter opened (c.advance 1)
termination_by c.rest.length
decreasing_by
  · exact (readBraced_shorter _read).2
  · simp [_left]

section Search

variable {opened : Mark} {c stopped after content : Cursor} {blocks : List Cursor} {cs : List Char}

/-- Without the blocks this is just the search for the delimiter, also where it fails. -/
theorem toDelimiter_of_blocks (opened : Mark) (c : Cursor) :
    (∀ blocks stopped, blocksToDelimiter opened c = .ok blocks stopped → toDelimiter opened c = .ok () stopped) ∧
      ∀ e stopped, blocksToDelimiter opened c = .error e stopped → toDelimiter opened c = .error e stopped := by
  fun_induction blocksToDelimiter opened c with
  | case1 c left =>
    rw [toDelimiter_nil left]
    exact ⟨nofun, by rintro _ _ ⟨⟩; rfl⟩
  | case2 c cs left =>
    rw [toDelimiter_stop left]
    exact ⟨by rintro _ _ ⟨⟩; rfl, nofun⟩
  | case3 c cs left =>
    rw [toDelimiter_close left]
    exact ⟨nofun, by rintro _ _ ⟨⟩; rfl⟩
  | case4 c cs left e stopped read =>
    rw [toDelimiter_unmatched left read]
    exact ⟨nofun, by rintro _ _ ⟨⟩; rfl⟩
  | case5 c cs left content after read e stopped failed ih =>
    rw [toDelimiter_block left read]
    exact ⟨nofun, by rintro _ _ ⟨⟩; exact ih.2 e stopped failed⟩
  | case6 c cs left content after read blocks stopped found ih =>
    rw [toDelimiter_block left read]
    exact ⟨by rintro _ _ ⟨⟩; exact ih.1 blocks stopped found, nofun⟩
  | case7 c d cs delimiter closes opens left ih =>
    rw [toDelimiter_char left (by simpa using delimiter) (by simpa using opens) (by simpa using closes)]
    exact ih

theorem exists_blocks (found : toDelimiter opened c = .ok () stopped) :
    ∃ blocks, blocksToDelimiter opened c = .ok blocks stopped := by
  obtain ⟨finds, fails⟩ := toDelimiter_of_blocks opened c
  cases ran : blocksToDelimiter opened c with
  | ok blocks last =>
    have same := finds blocks last ran
    rw [found] at same
    cases same
    exact ⟨blocks, rfl⟩
  | error e last =>
    have same := fails e last ran
    rw [found] at same
    cases same

theorem blocksToDelimiter_char {d : Char} (next : c.rest = d :: cs) (delimiter : d ≠ '$') (opens : d ≠ '\x7b')
    (closes : d ≠ '\x7d') : blocksToDelimiter opened c = blocksToDelimiter opened (c.advance 1) := by
  rw [blocksToDelimiter.eq_def]
  split <;> rename_i left <;> rw [next] at left <;> cases left
  · exact absurd rfl delimiter
  · exact absurd rfl closes
  · exact absurd rfl opens

/-- At an opening brace a block is read, and the search goes on behind it. -/
theorem blocksToDelimiter_block (next : c.rest = '\x7b' :: cs)
    (found : blocksToDelimiter opened c = .ok blocks stopped) :
    ∃ first others after, blocks = first :: others ∧ readBraced c = .ok first after ∧
      blocksToDelimiter opened after = .ok others stopped := by
  rw [blocksToDelimiter.eq_def] at found
  split at found <;> rename_i left <;> rw [next] at left <;> cases left
  · split at found
    · cases found
    · rename_i content after read
      split at found
      · cases found
      · rename_i others last rest
        cases found
        exact ⟨content, others, after, rfl, read, rest⟩
  · rename_i other
    exact absurd rfl other

end Search

section Lockstep

/-- The cursor sees the content of a directive up to the delimiter at `stopped`, and stands where the search for that
delimiter went by; from there on the search skipped `blocks`. -/
def Cursor.Meets (s : Cursor) (opened : Mark) (blocks : List Cursor) (stopped : Cursor) : Prop :=
  ∃ c : Cursor, s.offset = c.offset ∧ s.mark = c.mark ∧ c.rest = s.rest ++ stopped.rest ∧
    blocksToDelimiter opened c = .ok blocks stopped

variable {opened : Mark} {blocks : List Cursor} {c stopped s after : Cursor} {what : String} {k : Nat}

/-- Outside the blocks the search goes on from character to character. -/
theorem blocksToDelimiter_advance (within : k ≤ c.rest.length)
    (plain : ∀ b ∈ c.rest.take k, b ≠ '$' ∧ b ≠ '\x7b' ∧ b ≠ '\x7d') :
    blocksToDelimiter opened c = blocksToDelimiter opened (c.advance k) := by
  induction k generalizing c with
  | zero => rfl
  | succ k ih =>
    cases left : c.rest with
    | nil =>
      rw [left] at within
      cases within
    | cons b cs =>
      have behind : (c.advance 1).rest = cs := by rw [Cursor.advance_rest, left, List.drop_one, List.tail_cons]
      rw [left, List.take_succ_cons] at plain
      rw [left] at within
      obtain ⟨delimiter, opens, closes⟩ := plain b List.mem_cons_self
      rw [blocksToDelimiter_char left delimiter opens closes, Nat.add_comm, ← Cursor.advance_advance]
      refine ih (behind ▸ Nat.le_of_succ_le_succ within) fun d inside => ?_
      rw [behind] at inside
      exact plain d (List.mem_cons_of_mem _ inside)

namespace Cursor.Meets

theorem stop_eq (meets : s.Meets opened blocks stopped) : s.stop = stopped.offset := by
  obtain ⟨c, offset, -, rest, search⟩ := meets
  have ends := stop_toDelimiter ((toDelimiter_of_blocks opened c).1 blocks stopped search)
  rw [stop, stop, rest, List.length_append] at ends
  rw [stop]
  omega

theorem advance (meets : s.Meets opened blocks stopped) (within : k ≤ s.rest.length)
    (plain : ∀ b ∈ s.rest.take k, b ≠ '$' ∧ b ≠ '\x7b' ∧ b ≠ '\x7d') : (s.advance k).Meets opened blocks stopped := by
  obtain ⟨c, offset, mark, rest, search⟩ := meets
  have passed : c.rest.take k = s.rest.take k := by rw [rest, List.take_append_of_le_length within]
  have reaches : k ≤ c.rest.length := by
    rw [rest, List.length_append]
    omega
  refine ⟨c.advance k, ?_, ?_, ?_, ?_⟩
  · simp only [Cursor.advance, offset, passed]
  · simp only [Cursor.advance, mark, passed]
  · rw [advance_rest, advance_rest, rest, List.drop_append_of_le_length within]
  · rw [← blocksToDelimiter_advance reaches (passed ▸ plain), search]

theorem pastBlanks (meets : s.Meets opened blocks stopped) : s.pastBlanks.Meets opened blocks stopped := by
  refine meets.advance (List.takeWhile_prefix _).length_le fun b inside => ?_
  rw [take_length_takeWhile] at inside
  have blank : isBlank b = true := List.mem_takeWhile_imp inside
  refine ⟨?_, ?_, ?_⟩ <;> rintro rfl <;> cases blank

theorem behindWord (meets : s.Meets opened blocks stopped) :
    (s.advance (s.rest.takeWhile (!endsWord ·)).length).Meets opened blocks stopped := by
  refine meets.advance (List.takeWhile_prefix _).length_le fun b inside => ?_
  rw [take_length_takeWhile] at inside
  have letter : (!endsWord b) = true := List.mem_takeWhile_imp (p := (!endsWord ·)) inside
  refine ⟨?_, ?_, ?_⟩ <;> rintro rfl <;> cases letter

theorem nextWord {w : Word} (meets : s.Meets opened blocks stopped) (read : nextWord s = .ok w after) :
    after.Meets opened blocks stopped := by
  cases read
  exact meets.pastBlanks.behindWord

/-- At an opening brace the block is read that the search skipped there, and its closing brace is still in sight. -/
theorem readBraced (meets : s.Meets opened blocks stopped) (opens : s.peek 0 = some '\x7b') :
    ∃ first others after, blocks = first :: others ∧ readBraced s = .ok first after ∧
      after.offset = first.stop + 1 ∧ after.stop = s.stop := by
  rw [peek_eq_head?] at opens
  obtain ⟨cs, left⟩ := List.head?_eq_some_iff.mp opens
  obtain ⟨c, offset, mark, rest, search⟩ := meets
  have leftToo : c.rest = '\x7b' :: (cs ++ stopped.rest) := by rw [rest, left, List.cons_append]
  obtain ⟨first, others, mid, split, read, later⟩ := blocksToDelimiter_block leftToo search
  obtain ⟨-, content, begins, -⟩ := readBraced_between leftToo read
  obtain ⟨behind, tail⟩ := (toDelimiter_found ((toDelimiter_of_blocks opened mid).1 others stopped later)).2
  -- The delimiter stands behind the block, so all of the block is in the content of the directive.
  have inside : cs = first.rest ++ '\x7d' :: behind := by
    rw [← tail, ← List.cons_append, ← List.append_assoc] at content
    exact List.append_cancel_right content
  have whole : s.rest = braced first.rest ++ behind := by rw [left, inside, braced]; simp
  have block : (s.advance 1).upTo first.rest.length = first := by
    rw [begins]
    simp [Cursor.upTo, Cursor.advance, offset, mark, left, leftToo, inside]
  have readToo := (Transparent.of_content read).readBraced whole
  rw [block] at readToo
  refine ⟨first, others, _, split, readToo, ?_, ?_⟩
  · have start : first.offset = s.offset + 1 := by
      rw [← block]
      simp [Cursor.upTo, Cursor.advance, left]
    rw [stop, start]
    simp [Cursor.advance, left, inside, Nat.add_comm, Nat.add_left_comm]
  · rw [stop_advance, stop_advance]

end Cursor.Meets

/-- What comes of reading a block with its colon. -/
theorem readColonBlock_eq (what : String) (s : Cursor) :
    readColonBlock what s =
      if s.pastBlanks.peek 0 = some ':' then
        if (s.pastBlanks.advance 1).pastBlanks.peek 0 = some '\x7b' then readBraced (s.pastBlanks.advance 1).pastBlanks
        else .error ⟨.braceExpected what, (s.pastBlanks.advance 1).pastBlanks.mark⟩ (s.pastBlanks.advance 1).pastBlanks
      else .error ⟨.blockExpected what, s.pastBlanks.mark⟩ s.pastBlanks := by
  by_cases colon : s.pastBlanks.peek 0 = some ':'
  · have found : accept ':' s = .ok true (s.pastBlanks.advance 1) := by rw [accept_eq, if_pos colon]
    rw [readColonBlock, Scan.bind_of_ok found, if_pos colon]
    change (if (s.pastBlanks.advance 1).pastBlanks.peek 0 = some '\x7b' then _ else _ : Scan Cursor) _ = _
    split <;> rfl
  · have missing : accept ':' s = .ok false s.pastBlanks := by rw [accept_eq, if_neg colon]
    rw [readColonBlock, Scan.bind_of_ok missing, if_neg colon]
    rfl

/-- What asking for a block comes to in a directive whose content ends at `stop` and in which `blocks` were skipped: it
is told that the colon or the brace is missing, or the first of these blocks is answered and passed. -/
inductive Rescans (blocks : List Cursor) (stop : Nat) (what : String) : EStateM.Result SyntaxError Cursor Cursor → Prop
  | colonMissing {left : Cursor} (within : left.offset ≤ stop) :
      Rescans blocks stop what (.error ⟨.blockExpected what, left.mark⟩ left)
  | braceMissing {left : Cursor} (within : left.offset ≤ stop) :
      Rescans blocks stop what (.error ⟨.braceExpected what, left.mark⟩ left)
  | first {content after : Cursor} {others : List Cursor} (first : blocks = content :: others)
      (passed : after.offset = content.stop + 1) (within : after.offset ≤ stop) :
      Rescans blocks stop what (.ok content after)

theorem Cursor.offset_le_stop (s : Cursor) : s.offset ≤ s.stop := Nat.le_add_right _ _

/-- As long as only a word, blanks and a colon have been read, the next block of the directive is the first one that was
skipped in the search for its delimiter. -/
theorem Cursor.Meets.rescans (meets : s.Meets opened blocks stopped) (what : String) :
    Rescans blocks stopped.offset what (readColonBlock what s) := by
  have atColon := meets.pastBlanks
  rw [readColonBlock_eq]
  split
  · rename_i colon
    have behindColon : (s.pastBlanks.advance 1).Meets opened blocks stopped := by
      rw [peek_eq_head?] at colon
      obtain ⟨cs, left⟩ := List.head?_eq_some_iff.mp colon
      refine atColon.advance (by simp [left]) fun b inside => ?_
      rw [left, List.take_succ_cons, List.take_zero, List.mem_singleton] at inside
      rw [inside]
      decide
    have atBrace := behindColon.pastBlanks
    split
    · rename_i opens
      obtain ⟨first, others, after, split, read, passed, stays⟩ := atBrace.readBraced opens
      rw [read]
      exact .first split passed (atBrace.stop_eq ▸ stays ▸ after.offset_le_stop)
    · exact .braceMissing (atBrace.stop_eq ▸ Cursor.offset_le_stop _)
  · exact .colonMissing (atColon.stop_eq ▸ Cursor.offset_le_stop _)

end Lockstep

section Calls

/-- Where the operands of a keyword ask for a block, if they do. A template in place is asked for where a colon stands
in the place of a name. -/
def Keyword.blockCall? (k : Keyword) (behind : Cursor) : Option Cursor :=
  match k with
  | .map => if behind.pastBlanks.peek 0 = some ':' then some behind.pastBlanks else none
  | .join | .txt => some behind
  | .include | .apply | .cond => none

/-- The keyword of a directive that asks for a block, and the cursor with which it does. -/
def Token.blockCall? (t : Token) : Option (Keyword × Cursor) :=
  match nextWord t.content with
  | .ok w behind => (Keyword.ofWord? w.letters).bind fun k => (k.blockCall? behind).map (k, ·)
  | .error _ _ => none

variable (readBlock : String → Scan Cursor)

/-- Reads the operands of a directive with another way to read a block. -/
def readOperandsWith (inline : Inline) (mark : Mark) (k : Keyword) : Scan Item :=
  match k with
  | .map => do
    skipBlanks
    if (← get).peek 0 = some ':' then
      let block ← readBlock Keyword.map.word
      let body ← liftExcept (inline block)
      let items ← readPath Keyword.map.word mark
      return .node (.mapInline mark body items)
    else
      let name ← readName Keyword.map.word mark
      let items ← readPath Keyword.map.word mark
      return .node (.mapNamed mark name items)
  | .join => do
    let separator ← readBlock Keyword.join.word
    let items ← readPath Keyword.join.word mark
    return .node (.join mark (String.ofList (Region.block.unescape separator.rest)) items)
  | .txt => do
    let block ← readBlock Keyword.txt.word
    let key := String.ofList (Region.block.unescape block.rest)
    if key = "" then throw ⟨.emptyKey, mark⟩ else return .node (.txt mark key)
  | .include | .apply | .cond => readOperands inline mark k

/-- Reads a directive with another way to read a block. Without a keyword there is none. -/
def readItemWith (inline : Inline) (t : Token) : Scan Item := fun c =>
  match nextWord c with
  | .error e stopped => .error e stopped
  | .ok w behind =>
    match Keyword.ofWord? w.letters with
    | none => readItem inline t c
    | some k => EStateM.bind (readOperandsWith readBlock inline t.mark k) (fun item => do
        requireEnd k.word
        return item) behind

variable {readBlock : String → Scan Cursor} {inline : Inline} {t : Token} {mark : Mark} {k : Keyword}

theorem readOperandsWith_eq {behind : Cursor}
    (same : ∀ call, k.blockCall? behind = some call → readBlock k.word call = readColonBlock k.word call) :
    readOperandsWith readBlock inline mark k behind = readOperands inline mark k behind := by
  cases k with
  | «include» | apply | cond => rfl
  | map =>
    change (if behind.pastBlanks.peek 0 = some ':' then _ else _ : Scan Item) behind.pastBlanks =
      (if behind.pastBlanks.peek 0 = some ':' then _ else _ : Scan Item) behind.pastBlanks
    by_cases colon : behind.pastBlanks.peek 0 = some ':'
    · rw [if_pos colon, if_pos colon]
      exact Scan.bind_congr_at (same _ (if_pos colon)) _
    · rw [if_neg colon, if_neg colon]
  | join | txt =>
    rw [readOperandsWith, Scan.bind_congr_at (same behind rfl), readOperands, readLiteral, bind_assoc]
    rfl

/-- A directive asks for a block where `blockCall?` says and nowhere else. -/
theorem readItemWith_eq
    (same : ∀ k call, t.blockCall? = some (k, call) → readBlock k.word call = readColonBlock k.word call) :
    readItemWith readBlock inline t t.content = readItem inline t t.content := by
  obtain ⟨w, behind, word⟩ : ∃ w behind, nextWord t.content = .ok w behind := ⟨_, _, rfl⟩
  rw [readItemWith, word]
  dsimp only
  cases keyword : Keyword.ofWord? w.letters with
  | none => rfl
  | some k =>
    have asks (call : Cursor) (asked : k.blockCall? behind = some call) : t.blockCall? = some (k, call) := by
      rw [Token.blockCall?, word]
      dsimp only
      rw [keyword, Option.bind_some, asked]
      rfl
    rw [readItem, Scan.bind_of_ok word]
    simp only [keyword]
    exact Scan.bind_congr_at (readOperandsWith_eq fun call asked => same k call (asks call asked)) _

end Calls

section Moves

variable {r : Region} {c after : Cursor} {t : Token} {ts : List Token}

/-- A directive among the tokens of a stretch was read somewhere in the stretch, at a delimiter. -/
theorem exists_directiveToken (read : tokenize r c = .ok ts) (member : t ∈ ts) (directive : t.kind = .directive) :
    ∃ n cs after, (c.advance n).rest = '$' :: cs ∧ directiveToken (c.advance n) = .ok t after := by
  induction size : c.rest.length using Nat.strongRecOn generalizing c ts with
  | ind size ih =>
    subst size
    by_cases done : c.rest = []
    · rw [tokenize_nil done] at read
      cases read
      rw [List.mem_singleton.mp member] at directive
      cases directive
    · obtain ⟨u, after, us, first, rest, rfl, -⟩ := tokenize_first done read
      rcases List.mem_cons.mp member with rfl | later
      · rcases Token.next_ok first with ⟨none, -⟩ | ⟨d, cs, left, ⟨rfl, opened⟩ | ⟨-, text⟩⟩
        · exact absurd none done
        · exact ⟨0, cs, after, left, opened⟩
        · cases text
          cases directive
      · obtain ⟨m, rfl⟩ := next_moves first
        obtain ⟨n, cs, last, left, opened⟩ := ih _ (Token.next_shorter done first) rest later rfl
        rw [Cursor.advance_advance] at left opened
        exact ⟨m + n, cs, last, left, opened⟩

end Moves

section Directives

variable {c stopped after : Cursor} {t : Token} {cs : List Char} {blocks : List Cursor}

theorem offset_of_directiveToken (opens : c.rest = '$' :: cs) (read : directiveToken c = .ok t after) :
    t.offset = c.offset + 1 := by
  obtain ⟨stopped, -, rfl, -⟩ := directiveToken_ok read
  simp [Cursor.advance, opens]

/-- The content of a directive is where the search for its delimiter began. -/
theorem Token.content_meets (opens : c.rest = '$' :: cs) (read : directiveToken c = .ok t after) :
    ∃ blocks stopped, after = stopped.advance 1 ∧ blocksToDelimiter c.mark (c.advance 1) = .ok blocks stopped ∧
      t.stop = stopped.offset ∧ t.content.Meets c.mark blocks stopped := by
  obtain ⟨stopped, closed, rfl, rfl⟩ := directiveToken_ok read
  obtain ⟨blocks, search⟩ := exists_blocks closed
  obtain ⟨front, whole⟩ := (toDelimiter_found closed).2
  have length := offset_toDelimiter closed
  rw [← whole, List.length_append, Nat.add_sub_cancel] at length
  have value : (c.advance 1).rest.take (stopped.offset - (c.advance 1).offset) = front := by
    rw [length, ← whole, List.take_left]
  refine ⟨blocks, stopped, rfl, search, rfl, c.advance 1, rfl, ?_, ?_, search⟩
  · simp [Token.content, Cursor.advance, opens, Mark.next]
  · change _ = (c.advance 1).rest.take (stopped.offset - (c.advance 1).offset) ++ stopped.rest
    rw [value, whole]

theorem Token.meets_of_blockCall? {opened : Mark} {k : Keyword} {call : Cursor}
    (meets : t.content.Meets opened blocks stopped) (asked : t.blockCall? = some (k, call)) :
    call.Meets opened blocks stopped := by
  obtain ⟨w, behind, word⟩ : ∃ w behind, nextWord t.content = .ok w behind := ⟨_, _, rfl⟩
  have there := meets.nextWord word
  rw [Token.blockCall?, word] at asked
  obtain ⟨k', -, found⟩ := Option.bind_eq_some_iff.mp asked
  obtain ⟨call', asks, same⟩ := Option.map_eq_some_iff.mp found
  cases same
  cases k with
  | «include» | apply | cond => cases asks
  | map =>
    rw [Keyword.blockCall?] at asks
    split at asks <;> cases asks
    exact there.pastBlanks
  | join | txt =>
    cases asks
    exact there

end Directives

/-- The search for the delimiter behind a directive and the reading of its operands see the same blocks. Every directive
among the tokens is read where its opening delimiter stands in the stretch, and some blocks are skipped there. Its
operands ask for a block at one place at most, and there either the colon or the brace is found to be missing, or the
block is answered that was skipped first, with the same content at the same offset and place; so no brace is found to be
without a match, and the cursor does not get behind the end of the directive. -/
theorem tokenize_rescans {r : Region} {c : Cursor} {tokens : List Token} {t : Token}
    (read : tokenize r c = .ok tokens) (member : t ∈ tokens) (directive : t.kind = .directive) :
    let opening := c.advance (t.offset - 1 - c.offset)
    ∃ blocks stopped, directiveToken opening = .ok t (stopped.advance 1) ∧
      toDelimiter opening.mark (opening.advance 1) = .ok () stopped ∧
      blocksToDelimiter opening.mark (opening.advance 1) = .ok blocks stopped ∧
      (∀ (inline : Inline) (readBlock : String → Scan Cursor),
        (∀ k call, t.blockCall? = some (k, call) → readBlock k.word call = readColonBlock k.word call) →
          readItemWith readBlock inline t t.content = readItem inline t t.content) ∧
      ∀ k call, t.blockCall? = some (k, call) → Rescans blocks t.stop k.word (readColonBlock k.word call) := by
  intro opening
  obtain ⟨n, cs, after, left, opened⟩ := exists_directiveToken read member directive
  have same : opening = c.advance n := by
    have place := offset_of_directiveToken left opened
    have inside := congrArg List.length left
    rw [Cursor.advance_rest, List.length_drop, List.length_cons] at inside
    have begins : (c.advance n).offset = c.offset + n := by
      rw [Cursor.advance, List.length_take_of_le (by omega)]
    change c.advance (t.offset - 1 - c.offset) = c.advance n
    rw [place, begins, Nat.add_sub_cancel, Nat.add_sub_cancel_left]
  rw [same]
  obtain ⟨blocks, stopped, rfl, search, ends, meets⟩ := Token.content_meets left opened
  have found := (toDelimiter_of_blocks (c.advance n).mark ((c.advance n).advance 1)).1 blocks stopped search
  refine ⟨blocks, stopped, opened, found, search, fun inline readBlock => readItemWith_eq, fun k call asked => ?_⟩
  rw [ends]
  exact (Token.meets_of_blockCall? meets asked).rescans k.word

/-- A list gone through with a template in place that holds a directive and a hidden brace, and a block behind it. -/
def mapToken : Token :=
  ⟨.directive, "map :\n\x7bb\\\x7d\x7bc\x7d$d$\x7d\x7be\x7d f".toList, 2, 24, ⟨1, 2⟩⟩

theorem tokenize_rescans_of_mapToken :
    let c : Cursor := .ofText "é$map :\n\x7bb\\\x7d\x7bc\x7d$d$\x7d\x7be\x7d f$".toList
    let tokens : List Token := [⟨.text, ['é'], 0, 1, ⟨1, 1⟩⟩, mapToken, ⟨.eof, [], 25, 25, ⟨2, 18⟩⟩]
    let call : Cursor := ⟨":\n\x7bb\\\x7d\x7bc\x7d$d$\x7d\x7be\x7d f".toList, 6, ⟨1, 7⟩⟩
    let first : Cursor := ⟨"b\\\x7d\x7bc\x7d$d$".toList, 9, ⟨2, 2⟩⟩
    let after : Cursor := ⟨"\x7be\x7d f".toList, 19, ⟨2, 12⟩⟩
    tokenize .page c = .ok tokens ∧ mapToken ∈ tokens ∧ mapToken.kind = .directive ∧
      mapToken.blockCall? = some (.map, call) ∧ readColonBlock "map" call = .ok first after ∧
      ∃ others stopped, blocksToDelimiter ⟨1, 2⟩ (c.advance 2) = .ok (first :: others) stopped := by
  intro c tokens call first after
  have read : tokenize .page c = .ok tokens := by decide +kernel
  have member : mapToken ∈ tokens := by decide
  have asked : mapToken.blockCall? = some (.map, call) := by rfl
  have answered : readColonBlock "map" call = .ok first after := by rfl
  obtain ⟨blocks, stopped, -, -, search, -, answers⟩ := tokenize_rescans read member rfl
  have rescans : Rescans blocks 24 "map" (.ok first after) := answered ▸ answers .map call asked
  cases rescans with
  | @first _ _ others same => exact ⟨read, member, rfl, asked, answered, others, stopped, same ▸ search⟩

end Stencil
