import Stencil.Proofs.Failing
import Stencil.Proofs.Template.Stretch

namespace Stencil

variable {α β : Type} {P : SyntaxError → Prop} {inline inline' : Inline}

section Faults

/-- If the step fails, the error has the property. -/
def Scan.FailsAs (P : SyntaxError → Prop) (x : Scan α) : Prop :=
  ∀ c e stopped, x c = .error e stopped → P e

namespace Scan.FailsAs

theorem pure (a : α) : Scan.FailsAs P (Pure.pure a : Scan α) := nofun

theorem get : Scan.FailsAs P (MonadState.get : Scan Cursor) := nofun

theorem set (c : Cursor) : Scan.FailsAs P (MonadStateOf.set c : Scan PUnit) := nofun

theorem throw {e : SyntaxError} (holds : P e) : Scan.FailsAs P (MonadExcept.throw e : Scan α) := by
  rintro _ _ _ ⟨⟩
  exact holds

theorem bind {x : Scan α} {f : α → Scan β} (first : Scan.FailsAs P x) (second : ∀ a, Scan.FailsAs P (f a)) :
    Scan.FailsAs P (x >>= f) := by
  intro c e stopped failed
  cases ran : x c with
  | ok a after =>
    rw [Scan.bind_of_ok ran] at failed
    exact second a after e stopped failed
  | error e' after =>
    rw [Scan.bind_of_error ran] at failed
    cases failed
    exact first c _ _ ran

theorem lift {r : Except SyntaxError α} (fails : Stencil.FailsAs P r) : Scan.FailsAs P (liftExcept r : Scan α) := by
  intro c e stopped failed
  cases r with
  | ok a => cases failed
  | error e' =>
    cases failed
    exact fails _ rfl

end Scan.FailsAs

/-- A fault that a source can have: any but that of a token which no rule takes. -/
def SyntaxError.OfSource (e : SyntaxError) : Prop :=
  ∀ kind, e.fault ≠ .unexpectedToken kind

namespace Scan.FailsAs

theorem skipBlanks : Scan.FailsAs P skipBlanks := nofun

theorem nextWord : Scan.FailsAs P nextWord := nofun

theorem accept (expected : Char) : Scan.FailsAs P (accept expected) := by
  refine .bind .skipBlanks fun _ => .bind .get fun c => ?_
  split
  · exact .bind (.set _) fun _ => .pure true
  · exact .pure false

theorem readBraced : Scan.FailsAs SyntaxError.OfSource readBraced := by
  intro c e stopped failed
  unfold Stencil.readBraced at failed
  simp only at failed
  split at failed
  · cases failed
    exact nofun
  · cases failed

theorem readColonBlock (what : String) : Scan.FailsAs SyntaxError.OfSource (readColonBlock what) := by
  refine .bind (.accept ':') fun found => ?_
  split
  · refine .bind .skipBlanks fun _ => .bind .get fun c => ?_
    split
    · exact .readBraced
    · exact .throw nofun
  · exact .bind .get fun c => .throw nofun

theorem requireEnd (what : String) : Scan.FailsAs SyntaxError.OfSource (requireEnd what) := by
  refine .bind .skipBlanks fun _ => .bind .get fun c => ?_
  split
  · exact .pure ()
  · exact .throw nofun

theorem path (w : Word) : Stencil.FailsAs SyntaxError.OfSource w.path := by
  refine .mapM fun s _ => ?_
  unfold Word.segment
  split
  · exact .error nofun
  · split
    · exact .ok _
    · exact .error nofun

theorem readPath (what : String) (mark : Mark) : Scan.FailsAs SyntaxError.OfSource (readPath what mark) := by
  refine .bind .nextWord fun w => ?_
  split
  · exact .throw nofun
  · exact .lift (path w)

theorem readName (what : String) (mark : Mark) : Scan.FailsAs SyntaxError.OfSource (readName what mark) := by
  refine .bind .nextWord fun w => ?_
  split
  · exact .throw nofun
  · exact .pure _

theorem readLiteral (what : String) : Scan.FailsAs SyntaxError.OfSource (readLiteral what) :=
  .bind (.readColonBlock what) fun _ => .pure _

variable (inlines : ∀ block, Stencil.FailsAs SyntaxError.OfSource (inline block))

include inlines

theorem readOperands (mark : Mark) (k : Keyword) :
    Scan.FailsAs SyntaxError.OfSource (readOperands inline mark k) := by
  cases k with
  | «include» => exact .bind (.readName _ _) fun _ => .pure _
  | apply => exact .bind (.readPath _ _) fun _ => .bind (.readPath _ _) fun _ => .pure _
  | cond => exact .bind (.readPath _ _) fun _ => .pure _
  | map =>
    refine .bind .skipBlanks fun _ => .bind .get fun c => ?_
    split
    · refine .bind (.readColonBlock _) fun block => .bind (.lift (inlines block)) fun body => ?_
      exact .bind (.readPath _ _) fun _ => .pure _
    · exact .bind (.readName _ _) fun _ => .bind (.readPath _ _) fun _ => .pure _
  | join => exact .bind (.readLiteral _) fun _ => .bind (.readPath _ _) fun _ => .pure _
  | txt =>
    refine .bind (.readLiteral _) fun key => ?_
    split
    · exact .throw nofun
    · exact .pure _

theorem readItem (t : Token) : Scan.FailsAs SyntaxError.OfSource (readItem inline t) := by
  refine .bind .nextWord fun w => ?_
  split
  · exact .bind (.readOperands inlines _ _) fun _ => .bind (.requireEnd _) fun _ => .pure _
  · refine .bind .get fun c => ?_
    split
    · exact .throw nofun
    · exact .throw nofun
    · split
      · exact .throw nofun
      · refine .bind (.lift (path w)) fun _ => .bind .skipBlanks fun _ => .bind .get fun rest => ?_
        split
        · exact .pure _
        · exact .throw nofun

end Scan.FailsAs

/-- Of all tokens only the end token is one that no rule takes. -/
theorem Token.item_ofSource (inlines : ∀ block, FailsAs SyntaxError.OfSource (inline block)) {t : Token}
    (inside : t.kind ≠ .eof) : FailsAs SyntaxError.OfSource (t.item inline) := by
  unfold Token.item
  split
  · exact .ok _
  · contradiction
  · split
    · exact .ok _
    split
    · exact .ok _
    cases ran : readItem inline t t.content with
    | ok i after => exact .ok _
    | error e after => exact .error (Scan.FailsAs.readItem inlines t _ e after ran)

theorem Draft.add_ofSource (d : Draft) (mark : Mark) (i : Item) : FailsAs SyntaxError.OfSource (d.add mark i) := by
  obtain ⟨nodes, opened⟩ := d
  cases i with
  | node | openIf => exact .ok _
  | otherwise =>
    cases opened with
    | nil => exact .error nofun
    | cons top rest =>
      obtain ⟨before, place, condition, _ | body⟩ := top
      · exact .ok _
      · exact .error nofun
  | endIf =>
    cases opened with
    | nil => exact .error nofun
    | cons top rest => exact .ok _

theorem Draft.finish_ofSource (d : Draft) : FailsAs SyntaxError.OfSource d.finish := by
  obtain ⟨nodes, _ | ⟨top, rest⟩⟩ := d
  · exact .ok _
  · exact .error nofun

/-- The loop stops in front of the end token, so it reads no token that no rule takes. -/
theorem Draft.addTokens_ofSource (inlines : ∀ block, FailsAs SyntaxError.OfSource (inline block)) (d : Draft)
    (ts : List Token) : FailsAs SyntaxError.OfSource (d.addTokens inline ts) := by
  induction ts generalizing d with
  | nil => exact .ok d
  | cons t ts ih =>
    rw [Draft.addTokens]
    split
    · exact .ok d
    · rename_i inside
      refine .bind (Token.item_ofSource inlines inside) fun i _ => ?_
      exact .bind (d.add_ofSource t.mark i) fun d' _ => ih d'

theorem parse_ofSource (inlines : ∀ block, FailsAs SyntaxError.OfSource (inline block)) (ts : List Token) :
    FailsAs SyntaxError.OfSource (parse inline ts) :=
  .bind (Draft.addTokens_ofSource inlines _ ts) fun d _ => d.finish_ofSource

theorem toDelimiter_ofSource (opened : Mark) : Scan.FailsAs SyntaxError.OfSource (toDelimiter opened) := by
  intro c e stopped failed
  fun_induction toDelimiter opened c with
  | case1 | case3 =>
    cases failed
    rintro kind ⟨⟩
  | case2 => cases failed
  | case4 _ _ _ _ _ _ ih => exact ih failed
  | case5 c _ _ e' stopped' unread =>
    cases failed
    exact Scan.FailsAs.readBraced c _ _ unread
  | case6 _ _ _ _ _ _ _ ih => exact ih failed

theorem Token.next_ofSource (r : Region) : Scan.FailsAs SyntaxError.OfSource (Token.next r) := by
  intro c e stopped failed
  unfold Token.next at failed
  split at failed
  · cases failed
  · unfold directiveToken at failed
    simp only at failed
    split at failed
    · rename_i e' stopped' unread
      cases failed
      exact toDelimiter_ofSource _ _ _ _ unread
    · cases failed
  · cases failed

theorem tokenize_ofSource (r : Region) (c : Cursor) : FailsAs SyntaxError.OfSource (tokenize r c) := by
  fun_induction tokenize r c with
  | case1 => exact .ok _
  | case2 c _ e stopped failed => exact .error (Token.next_ofSource r c e stopped failed)
  | case3 _ _ _ _ _ ih => exact ih.map _

theorem compileStretch_ofSource (r : Region) (c : Cursor) : FailsAs SyntaxError.OfSource (compileStretch r c) := by
  fun_induction compileStretch r c with
  | case1 r c ih =>
    refine .bind (tokenize_ofSource r c) fun ts _ => parse_ofSource (fun block => ?_) ts
    split
    · rename_i shorter
      exact ih block shorter
    · refine .error ?_
      rintro kind ⟨⟩

end Faults

section Lengths

variable {r : Region} {c : Cursor} {ts : List Token}

/-- Whatever compiles shorter stretches right is enough to compile a stretch: no other block is met in it. -/
theorem compileStretch_of_shorter
    (inlines : ∀ block : Cursor, block.rest.length < c.rest.length → inline block = compileStretch .block block) :
    compileStretch r c = tokenize r c >>= parse inline := by
  rw [compileStretch_eq]
  cases ran : tokenize r c with
  | error e => rfl
  | ok ts =>
    have like : List.Forall₂ (Token.Like Eq) ts ts := List.forall₂_same.mpr fun t _ => ⟨rfl, rfl, rfl⟩
    refine Alike.eq (fun _ _ => Node.LikeAll.eq) (parse_alike .eq like ?_)
    intro t member directive b b' rest short mark
    have shorter : b'.rest.length < c.rest.length := rest ▸ Nat.lt_trans short (value_inside ran member directive).2
    rw [inlines b' shorter]
    exact Cursor.Like.compile_alike .eq (fun _ _ => rfl) ⟨rest, List.infix_rfl, mark⟩

/-- There are no more tokens than characters, the end token apart. -/
theorem length_tokenize (read : tokenize r c = .ok ts) : ts.length ≤ c.rest.length + 1 := by
  fun_induction tokenize r c generalizing ts with
  | case1 =>
    cases read
    exact Nat.le_add_left 1 _
  | case2 => cases read
  | case3 c more t after first ih =>
    cases rest : tokenize r after with
    | error e =>
      rw [rest] at read
      cases read
    | ok us =>
      rw [rest] at read
      cases read
      have later := ih rest
      have shorter := Token.next_shorter more first
      rw [List.length_cons]
      omega

end Lengths

section Turns

/-- How many conditionals are open. -/
def Draft.depth (d : Draft) : Nat := d.opened.length

/-- The token is read, and what it contributes is added. -/
def Draft.Takes (inline : Inline) (d : Draft) (t : Token) (d' : Draft) : Prop :=
  ∃ i, t.item inline = .ok i ∧ d.add t.mark i = .ok d'

/-- Tokens are taken until no more than `n` conditionals are open. -/
inductive Draft.ComesBack (inline : Inline) (n : Nat) : Draft → List Token → Draft → Prop
  | here {d : Draft} (back : d.depth ≤ n) : ComesBack inline n d [] d
  | takes {d mid d' : Draft} {t : Token} {ts : List Token} (deeper : n < d.depth) (first : d.Takes inline t mid)
      (rest : ComesBack inline n mid ts d') : ComesBack inline n d (t :: ts) d'

/-- A turn of the loop on the level of the draft: a token is taken and, if it opens a conditional, so are
those up to its end. -/
def Draft.Turn (inline : Inline) (d : Draft) (used : List Token) (d' : Draft) : Prop :=
  ∃ t ts mid, used = t :: ts ∧ d.Takes inline t mid ∧ ComesBack inline d.depth mid ts d'

/-- So many turns one behind the other. Where one of them closes the level, the next is on the level around it. -/
inductive Draft.Turns (inline : Inline) : Nat → Draft → List Token → Draft → Prop
  | none {d : Draft} : Turns inline 0 d [] d
  | more {n : Nat} {d mid d' : Draft} {used ts : List Token} (first : d.Turn inline used mid)
      (rest : Turns inline n mid ts d') : Turns inline (n + 1) d (used ++ ts) d'

/-- What comes of the tokens that are left: the loop over them, and its end. -/
def Draft.outcome (inline : Inline) (d : Draft) (ts : List Token) : Except SyntaxError (List Node) :=
  d.addTokens inline ts >>= Draft.finish

variable {d d' : Draft} {t : Token} {ts us : List Token} {n : Nat}

/-- One token opens or closes one conditional at most. -/
theorem Draft.Takes.depth (takes : d.Takes inline t d') : d'.depth ≤ d.depth + 1 ∧ d.depth ≤ d'.depth + 1 := by
  obtain ⟨i, -, added⟩ := takes
  obtain ⟨nodes, opened⟩ := d
  cases i with
  | node | openIf =>
    cases added
    simp only [Draft.depth, List.length_cons]
    omega
  | otherwise =>
    cases opened with
    | nil => cases added
    | cons top rest =>
      obtain ⟨before, mark, condition, _ | body⟩ := top <;> cases added
      simp only [Draft.depth, List.length_cons]
      omega
  | endIf =>
    cases opened with
    | nil => cases added
    | cons top rest =>
      cases added
      simp only [Draft.depth, List.length_cons]
      omega

theorem Draft.Takes.outcome (takes : d.Takes inline t d') (ts : List Token) :
    d.outcome inline (t :: ts) = d'.outcome inline ts := by
  obtain ⟨i, read, added⟩ := takes
  rw [Draft.outcome, Draft.addTokens_cons read, added]
  rfl

theorem Draft.outcome_last (last : t.kind = .eof) (d : Draft) (ts : List Token) :
    d.outcome inline (t :: ts) = d.finish := by
  rw [Draft.outcome, Draft.addTokens, if_pos last]
  rfl

/-- A token that is not the end is taken, or the loop fails at it. -/
theorem Draft.takes_or_fails (inside : t.kind ≠ .eof) (d : Draft) (ts : List Token) :
    (∃ d', d.Takes inline t d') ∨ ∃ e, d.outcome inline (t :: ts) = .error e := by
  cases read : t.item inline with
  | error e =>
    refine .inr ⟨e, ?_⟩
    rw [Draft.outcome, Draft.addTokens, if_neg inside, read]
    rfl
  | ok i =>
    cases added : d.add t.mark i with
    | error e =>
      refine .inr ⟨e, ?_⟩
      rw [Draft.outcome, Draft.addTokens_cons read, added]
      rfl
    | ok d' => exact .inl ⟨d', i, read, added⟩

/-- Where the tokens run out, a conditional that is still open is the fault. -/
theorem Draft.finish_fails (deeper : n < d.depth) : ∃ e, d.finish = .error e := by
  obtain ⟨nodes, _ | ⟨top, rest⟩⟩ := d
  · exact absurd deeper (Nat.not_lt_zero n)
  · exact ⟨_, rfl⟩

theorem Draft.ComesBack.outcome (comes : ComesBack inline n d us d') (ts : List Token) :
    d.outcome inline (us ++ ts) = d'.outcome inline ts := by
  induction comes with
  | here => rfl
  | takes _ first _ ih => rw [List.cons_append, first.outcome, ih]

/-- Behind the way back exactly `n` conditionals are open, unless fewer were open to begin with. -/
theorem Draft.ComesBack.depth (comes : ComesBack inline n d ts d') : d'.depth = min n d.depth := by
  induction comes with
  | here back => exact (Nat.min_eq_right back).symm
  | takes deeper first _ ih =>
    have step := first.depth
    omega

/-- What is opened deeper than `n` is closed again, or the loop fails. -/
theorem Draft.comesBack_or_fails (inline : Inline) (n : Nat) (d : Draft) (ts : List Token) :
    (∃ used rest d', ts = used ++ rest ∧ ComesBack inline n d used d') ∨ ∃ e, d.outcome inline ts = .error e := by
  induction ts generalizing d with
  | nil =>
    by_cases back : d.depth ≤ n
    · exact .inl ⟨[], [], d, rfl, .here back⟩
    · exact .inr (Draft.finish_fails (Nat.lt_of_not_le back))
  | cons t ts ih =>
    by_cases back : d.depth ≤ n
    · exact .inl ⟨[], t :: ts, d, rfl, .here back⟩
    have deeper := Nat.lt_of_not_le back
    by_cases last : t.kind = .eof
    · rw [Draft.outcome_last last]
      exact .inr (Draft.finish_fails deeper)
    · rcases Draft.takes_or_fails last d ts with ⟨mid, takes⟩ | failed
      · rw [takes.outcome ts]
        rcases ih mid with ⟨used, rest, d', split, comes⟩ | failed
        · exact .inl ⟨t :: used, rest, d', congrArg (t :: ·) split, .takes deeper takes comes⟩
        · exact .inr failed
      · exact .inr failed

namespace Draft.Turn

theorem used_pos (turn : d.Turn inline ts d') : 0 < ts.length := by
  obtain ⟨t, us, mid, rfl, -⟩ := turn
  exact Nat.succ_pos _

/-- A turn that leaves its level is that of the one token that closes it. -/
theorem depth (turn : d.Turn inline ts d') : d'.depth = d.depth ∨ ts.length = 1 ∧ d'.depth + 1 = d.depth := by
  obtain ⟨t, us, mid, rfl, takes, comes⟩ := turn
  have step := takes.depth
  have level := comes.depth
  cases comes with
  | here back =>
    rcases Nat.lt_or_ge d'.depth d.depth with closed | stays
    · exact .inr ⟨rfl, by omega⟩
    · exact .inl (by omega)
  | takes deeper => exact .inl (by omega)

theorem outcome (turn : d.Turn inline us d') (ts : List Token) :
    d.outcome inline (us ++ ts) = d'.outcome inline ts := by
  obtain ⟨t, us, mid, rfl, takes, comes⟩ := turn
  rw [List.cons_append, takes.outcome, comes.outcome]

end Draft.Turn

/-- The loop gets on: in front of a token that is not the end it makes a turn, or it fails. -/
theorem Draft.turn_or_fails (inline : Inline) (inside : t.kind ≠ .eof) (d : Draft) (ts : List Token) :
    (∃ used rest d', t :: ts = used ++ rest ∧ d.Turn inline used d') ∨
      ∃ e, d.outcome inline (t :: ts) = .error e := by
  rcases Draft.takes_or_fails inside d ts with ⟨mid, takes⟩ | failed
  · rw [takes.outcome ts]
    rcases Draft.comesBack_or_fails inline d.depth mid ts with ⟨used, rest, d', split, comes⟩ | failed
    · exact .inl ⟨t :: used, rest, d', congrArg (t :: ·) split, t, used, mid, rfl, takes, comes⟩
    · exact .inr failed
  · exact .inr failed

/-- No more turns are made than tokens are taken. -/
theorem Draft.Turns.le_length (turns : d.Turns inline n ts d') : n ≤ ts.length := by
  induction turns with
  | none => exact Nat.le_refl 0
  | more first _ ih =>
    have pos := first.used_pos
    rw [List.length_append]
    omega

theorem Draft.Turns.outcome (turns : d.Turns inline n us d') (ts : List Token) :
    d.outcome inline (us ++ ts) = d'.outcome inline ts := by
  induction turns with
  | none => rfl
  | more first _ ih => rw [List.append_assoc, first.outcome, ih]

/-- The loop is over: only the end is left, or no turn can be made and it fails. -/
def Draft.Stops (inline : Inline) (d : Draft) (ts : List Token) : Prop :=
  d.outcome inline ts = d.finish ∧ (∀ t ∈ ts.head?, t.kind = .eof) ∨
    (∃ e, d.outcome inline ts = .error e) ∧ ∀ used rest d', ts = used ++ rest → ¬ d.Turn inline used d'

/-- From any state on the loop makes turns until it is over. -/
theorem Draft.turns_to_end (inline : Inline) (d : Draft) (ts : List Token) :
    ∃ n used rest d', ts = used ++ rest ∧ d.Turns inline n used d' ∧ d'.Stops inline rest := by
  induction size : ts.length using Nat.strongRecOn generalizing d ts with
  | ind length ih =>
    cases ts with
    | nil => exact ⟨0, [], [], d, rfl, .none, .inl ⟨rfl, nofun⟩⟩
    | cons t us =>
      by_cases last : t.kind = .eof
      · refine ⟨0, [], t :: us, d, rfl, .none, .inl ⟨Draft.outcome_last last d us, ?_⟩⟩
        rintro _ ⟨⟩
        exact last
      by_cases possible : ∃ used rest mid, t :: us = used ++ rest ∧ d.Turn inline used mid
      · obtain ⟨used, rest, mid, split, turn⟩ := possible
        have shorter : rest.length < length := by
          have pos := turn.used_pos
          rw [← size, split, List.length_append]
          omega
        obtain ⟨n, more, left, d', splitToo, turns, stops⟩ := ih _ shorter mid rest rfl
        refine ⟨n + 1, used ++ more, left, d', ?_, .more turn turns, stops⟩
        rw [split, splitToo, List.append_assoc]
      · have failed := (Draft.turn_or_fails inline last d us).resolve_left possible
        refine ⟨0, [], t :: us, d, rfl, .none, .inr ⟨failed, fun used rest mid split turn => ?_⟩⟩
        exact possible ⟨used, rest, mid, split, turn⟩

end Turns

/-- Compiling a source ends, in a template or in a fault of the source. Each of the loops uses something up: a stretch
is compiled with blocks that are shorter than it; a token that is not the end takes a character at least; and on
every level the loop over the tokens, in front of a token that is not the end, takes a token at least and goes on
behind it on the same level or, if that closed a conditional, on the one around it, or else it fails. So it is over
after no more turns than there are tokens, and none of the tokens of a stretch is one that no rule takes. -/
theorem compile_ends :
    (∀ source name, (∃ t, compile source name = .ok t) ∨
      ∃ e, compile source name = .error e ∧ e.OfSource) ∧
    (∀ (r : Region) (c : Cursor) (inline : Inline),
      (∀ block : Cursor, block.rest.length < c.rest.length → inline block = compileStretch .block block) →
        compileStretch r c = tokenize r c >>= parse inline) ∧
    (∀ (r : Region) (c after : Cursor) (t : Token), c.rest ≠ [] → Token.next r c = .ok t after →
      t.kind ≠ .eof ∧ after.rest <:+ c.rest ∧ after.rest.length < c.rest.length) ∧
    (∀ (inline : Inline) (d : Draft) (t : Token) (ts : List Token), t.kind ≠ .eof →
      (∃ used rest d', t :: ts = used ++ rest ∧ rest.length < (t :: ts).length ∧ d.Turn inline used d' ∧
        (d'.depth = d.depth ∨ used.length = 1 ∧ d'.depth + 1 = d.depth) ∧
        d.outcome inline (t :: ts) = d'.outcome inline rest) ∨
      ∃ e, d.outcome inline (t :: ts) = .error e) ∧
    (∀ (r : Region) (c : Cursor) (tokens : List Token), tokenize r c = .ok tokens →
      tokens.length ≤ c.rest.length + 1 ∧
      (∃ n used rest d, tokens = used ++ rest ∧ n ≤ tokens.length ∧
        Draft.empty.Turns (compileStretch .block) n used d ∧ d.Stops (compileStretch .block) rest ∧
        compileStretch r c = d.outcome (compileStretch .block) rest) ∧
      FailsAs SyntaxError.OfSource (parse (compileStretch .block) tokens)) := by
  refine ⟨fun source name => ?_, fun r c inline => compileStretch_of_shorter, fun r c after t more read => ?_,
    fun inline d t ts inside => ?_, fun r c tokens read => ⟨length_tokenize read, ?_, ?_⟩⟩
  · have fails : FailsAs SyntaxError.OfSource (compile source name) :=
      .bind (compileStretch_ofSource _ _) fun ns _ => .ok _
    cases ran : compile source name with
    | error e => exact .inr ⟨e, rfl, fails e ran⟩
    | ok t => exact .inl ⟨t, rfl⟩
  · exact ⟨Token.next_inner more read, next_suffix read, Token.next_shorter more read⟩
  · refine (Draft.turn_or_fails inline inside d ts).imp_left ?_
    rintro ⟨used, rest, d', split, turn⟩
    have pos := turn.used_pos
    have shorter : rest.length < (t :: ts).length := by
      rw [split, List.length_append]
      omega
    exact ⟨used, rest, d', split, shorter, turn, turn.depth, split ▸ turn.outcome rest⟩
  · obtain ⟨n, used, rest, d, split, turns, stops⟩ :=
      Draft.turns_to_end (compileStretch .block) Draft.empty tokens
    have few : n ≤ tokens.length := by
      have taken := turns.le_length
      rw [split, List.length_append]
      omega
    have compiled : compileStretch r c = Draft.empty.outcome (compileStretch .block) tokens := by
      rw [compileStretch_eq, read]
      rfl
    refine ⟨n, used, rest, d, split, few, turns, stops, ?_⟩
    rw [compiled, split, turns.outcome]
  · exact parse_ofSource (fun block => compileStretch_ofSource .block block) tokens

end Stencil
