import Stencil.Template.Window
import Stencil.Proofs.Template.Descent
import Stencil.Proofs.Template.Operations

namespace Stencil

variable {α β γ δ : Type} {text : List Char} {stop : Nat}

namespace Window

/-- The stretch that is seen through a window. -/
def view (w : Window) : Cursor := .slice w.text w.position w.stop w.mark

variable {w : Window}

theorem peek_view (w : Window) (ahead : Nat) : w.view.peek ahead = w.peek ahead := by
  rw [Cursor.peek, view, Cursor.slice, List.getElem?_drop, List.getElem?_take, peek]
  by_cases inside : w.position + ahead < w.stop
  · rw [if_pos inside, if_neg (Nat.not_le.mpr inside)]
  · rw [if_neg inside, if_pos (Nat.not_lt.mp inside)]

theorem rest_of_none (ends : w.peek 0 = none) : w.view.rest = [] := by
  rw [← peek_view, Cursor.peek, List.getElem?_eq_none_iff] at ends
  exact List.eq_nil_of_length_eq_zero (Nat.le_zero.mp ends)

theorem view_step (w : Window) : w.step.view = w.view.advance 1 := by
  cases next : w.peek 0 with
  | none =>
    have stays : w.step = w := by rw [step, next]
    rw [stays, Cursor.advance, rest_of_none next]
    simp only [view, Cursor.slice, List.take_nil, List.drop_nil, List.length_nil, Nat.add_zero, Mark.past_nil]
    exact congrArg (Cursor.mk · _ _) (rest_of_none next)
  | some c =>
    have moves : w.step = { w with position := w.position + 1, mark := w.mark.next c } := by rw [step, next]
    rw [← peek_view, Cursor.peek] at next
    obtain ⟨cs, left⟩ : ∃ cs, w.view.rest = c :: cs := by
      rw [← List.head?_eq_getElem?] at next
      exact List.head?_eq_some_iff.mp next
    have behind : (w.text.take w.stop).drop (w.position + 1) = cs := by
      rw [← List.drop_drop]
      exact congrArg (List.drop 1) left
    rw [moves, Cursor.advance, left]
    simp only [view, Cursor.slice, behind, List.take_succ_cons, List.take_zero, List.length_singleton,
      List.drop_succ_cons, List.drop_zero, Mark.past_cons, Mark.past_nil]

theorem text_step (w : Window) : w.step.text = w.text := by
  unfold step
  split <;> rfl

theorem stop_step (w : Window) : w.step.stop = w.stop := by
  unfold step
  split <;> rfl

/-- The window is on the text, it ends at `stop`, and the stretch that is seen through it is that of the cursor. -/
structure Shows (text : List Char) (stop : Nat) (w : Window) (c : Cursor) : Prop where
  text_eq : w.text = text
  stop_eq : w.stop = stop
  view_eq : w.view = c

namespace Shows

variable {c : Cursor} (shows : w.Shows text stop c)

include shows

theorem step : w.step.Shows text stop (c.advance 1) :=
  ⟨w.text_step.trans shows.text_eq, w.stop_step.trans shows.stop_eq, shows.view_eq ▸ w.view_step⟩

theorem advance (n : Nat) : (w.advance n).Shows text stop (c.advance n) := by
  induction n generalizing w c with
  | zero => exact shows
  | succ n ih =>
    rw [Nat.add_comm, ← Cursor.advance_advance, Nat.add_comm]
    exact ih shows.step

theorem peek (ahead : Nat) : w.peek ahead = c.peek ahead := by
  rw [← shows.view_eq, peek_view]

theorem mark : w.mark = c.mark := congrArg Cursor.mark shows.view_eq

theorem offset : w.position = c.offset := congrArg Cursor.offset shows.view_eq

theorem rest : (text.take stop).drop w.position = c.rest := by
  rw [← shows.view_eq, ← shows.text_eq, ← shows.stop_eq]
  rfl

theorem left (bound : stop ≤ text.length) : w.left = c.rest.length := by
  rw [← shows.rest, List.length_drop, List.length_take, Nat.min_eq_left bound, Window.left, shows.stop_eq]

theorem atEnd (bound : stop ≤ text.length) : w.atEnd = c.atEnd := by
  rw [Window.atEnd, Cursor.atEnd, Bool.eq_iff_iff, decide_eq_true_iff, List.isEmpty_iff_length_eq_zero,
    ← shows.left bound, Window.left, Nat.sub_eq_zero_iff_le]

theorem rest_nil (ends : w.peek 0 = none) : c.rest = [] :=
  shows.view_eq ▸ rest_of_none ends

theorem rest_at {d : Char} {ahead : Nat} (there : w.peek ahead = some d) :
    c.rest.drop ahead = d :: (c.advance (ahead + 1)).rest := by
  rw [shows.peek, Cursor.peek] at there
  obtain ⟨inside, rfl⟩ := List.getElem?_eq_some_iff.mp there
  exact List.drop_eq_getElem_cons inside

theorem rest_cons {d : Char} (next : w.peek 0 = some d) : c.rest = d :: (c.advance 1).rest :=
  shows.rest_at next

end Shows
end Window

/-- What comes of a step in a text and of one in a stretch: related answers, or the same fault; and either way the
window that is left shows the cursor that is left. -/
def Matches (text : List Char) (stop : Nat) (R : α → β → Prop) :
    EStateM.Result SyntaxError Window α → EStateM.Result SyntaxError Cursor β → Prop
  | .ok a w, .ok b c => R a b ∧ w.Shows text stop c
  | .error e w, .error f c => e = f ∧ w.Shows text stop c
  | _, _ => False

/-- The content of a block is a range of the text, and the cursor over the content is over that range. -/
def IsRange (text : List Char) (b : Window) (c : Cursor) : Prop :=
  b.stop ≤ text.length ∧ b.Shows text b.stop c

section Loops

variable {w : Window} {c : Cursor}

theorem Window.Shows.passWhile (shows : w.Shows text stop c) (asked : Char → Bool) :
    (w.passWhile asked).Shows text stop (c.advance (c.rest.takeWhile asked).length) := by
  fun_induction Window.passWhile asked w generalizing c with
  | case1 w d next goes ih =>
    rw [shows.rest_cons next, List.takeWhile_cons_of_pos goes, List.length_cons, Nat.add_comm,
      ← Cursor.advance_advance]
    exact ih shows.step
  | case2 w d next stays =>
    rw [shows.rest_cons next, List.takeWhile_cons_of_neg stays]
    exact shows
  | case3 w ends =>
    rw [shows.rest_nil ends]
    exact shows

/-- The cursor at the brace that closes a block begun at `opened`, in which `depth` further blocks are open. -/
def Cursor.toClosing (opened : Mark) (depth : Nat) (c : Cursor) : EStateM.Result SyntaxError Cursor Unit :=
  match closingBrace depth c.rest with
  | none => .error ⟨.unmatchedOpen, opened⟩ c.finish
  | some n => .ok () (c.advance n)

/-- The search goes on behind the characters that it has passed. -/
theorem Cursor.toClosing_advance {opened : Mark} {depth further k : Nat}
    (passes : closingBrace depth c.rest = (closingBrace further (c.advance k).rest).map (· + k)) :
    c.toClosing opened depth = (c.advance k).toClosing opened further := by
  rw [toClosing, toClosing, passes]
  cases closingBrace further (c.advance k).rest with
  | none => rw [Option.map_none, finish_advance]
  | some n =>
    rw [Option.map_some, Nat.add_comm]
    exact congrArg (EStateM.Result.ok ()) (c.advance_advance k n).symm

theorem Window.Shows.toClosing (shows : w.Shows text stop c) (opened : Mark) (depth : Nat) :
    Matches text stop (fun _ _ => True) (w.toClosing opened depth) (c.toClosing opened depth) := by
  fun_induction Window.toClosing opened depth w generalizing c with
  | case1 depth w ends =>
    have done := shows.rest_nil ends
    rw [Cursor.toClosing, done, closingBrace, Cursor.finish_of_nil done]
    exact ⟨rfl, shows⟩
  | case2 depth w d next hides ih =>
    obtain ⟨rfl, more⟩ := hides
    obtain ⟨hidden, second⟩ := Option.isSome_iff_exists.mp more
    have left : c.rest = '\\' :: hidden :: (c.advance 2).rest := by
      rw [← shows.rest_at second]
      exact shows.rest_cons next
    have passes : closingBrace depth c.rest = (closingBrace depth (c.advance 2).rest).map (· + 2) := by
      rw [left, closingBrace]
    rw [Cursor.toClosing_advance passes]
    exact ih (shows.advance 2)
  | case3 depth w next _ ih =>
    have passes : closingBrace depth c.rest = (closingBrace (depth + 1) (c.advance 1).rest).map (· + 1) := by
      rw [shows.rest_cons next, closingBrace]
    rw [Cursor.toClosing_advance passes]
    exact ih shows.step
  | case4 w next =>
    rw [Cursor.toClosing, shows.rest_cons next, closingBrace]
    exact ⟨trivial, shows⟩
  | case5 w depth next _ _ ih =>
    have passes : closingBrace (depth + 1) c.rest = (closingBrace depth (c.advance 1).rest).map (· + 1) := by
      rw [shows.rest_cons next, closingBrace]
    rw [Cursor.toClosing_advance passes]
    exact ih shows.step
  | case6 depth w d next shown opens closes ih =>
    have left := shows.rest_cons next
    have passes : closingBrace depth c.rest = (closingBrace depth (c.advance 1).rest).map (· + 1) := by
      by_cases hides : d = '\\'
      · -- The backslash is the last character that the window reaches.
        have none : w.peek 1 = none := by simpa [hides] using shown
        have last : (c.advance 1).rest = [] := by
          rw [shows.peek, Cursor.peek, List.getElem?_eq_none_iff] at none
          exact List.drop_eq_nil_of_le none
        rw [left, last, hides]
        rfl
      · rw [left]
        exact Transparent.char hides opens closes depth _
    rw [Cursor.toClosing_advance passes]
    exact ih shows.step

section Passed

variable {v : Window} {n : Nat} (shows : w.Shows text stop c) (behind : v.Shows text stop (c.advance n))
  (within : n ≤ c.rest.length)

include shows behind within

theorem Window.Shows.position_eq : v.position = w.position + n := by
  rw [behind.offset, Cursor.advance, List.length_take_of_le within, shows.offset]

/-- What a window is moved over stands in the text between its two positions. -/
theorem Window.Shows.since : v.since w.position = c.rest.take n := by
  have length := congrArg List.length shows.rest
  rw [List.length_drop, List.length_take] at length
  rw [← shows.rest, Window.since, behind.text_eq, shows.position_eq behind within, List.drop_take, List.drop_take,
    List.take_take, Nat.add_sub_cancel_left, Nat.min_eq_left (by omega)]

end Passed

/-- What a window is moved over is a range of its text. -/
theorem Window.Shows.isRange {v : Window} {n : Nat} (shows : w.Shows text stop c) (bound : stop ≤ text.length)
    (behind : v.Shows text stop (c.advance n)) (within : n < c.rest.length) :
    IsRange text { w with stop := v.position } (c.upTo n) := by
  have length := congrArg List.length shows.rest
  rw [List.length_drop, List.length_take] at length
  have ends := shows.position_eq behind (Nat.le_of_lt within)
  have rest := shows.since behind (Nat.le_of_lt within)
  rw [Window.since, behind.text_eq] at rest
  refine ⟨?_, shows.text_eq, rfl, ?_⟩
  · change v.position ≤ text.length
    omega
  · rw [view, Cursor.slice, shows.text_eq, rest, Cursor.upTo, shows.offset, shows.mark]

theorem Window.Shows.readBraced (bound : stop ≤ text.length) (shows : w.Shows text stop c) :
    Matches text stop (IsRange text) (w.readBraced) (Stencil.readBraced c) := by
  have search := shows.step.toClosing w.mark 0
  unfold Stencil.readBraced Window.readBraced
  cases found : closingBrace 0 (c.advance 1).rest <;> cases ran : w.step.toClosing w.mark 0 <;>
    rw [Cursor.toClosing, found, ran] at search
  · exact search.elim
  · rw [shows.mark] at search
    simp only [found]
    exact search
  · obtain ⟨-, there⟩ := search
    simp only [found]
    refine ⟨shows.step.isRange bound there (closingBrace_lt found), ?_⟩
    rw [← Cursor.advance_advance]
    exact there.step
  · exact search.elim

end Loops

section Tokens

variable {r : Region} {w : Window} {c : Cursor}

/-- A character that stands for itself is one more of literal text. -/
theorem Region.textLength_char {d : Char} {cs : List Char} (text : d ≠ '$')
    (shown : d = '\\' → ∀ e, cs.head? = some e → r.escapes e = false) :
    r.textLength (d :: cs) = r.textLength cs + 1 := by
  cases cs with
  | nil => exact if_neg text
  | cons e cs =>
    have single : ¬(d = '\\' ∧ r.escapes e) := by
      rintro ⟨same, special⟩
      rw [shown same e rfl] at special
      cases special
    rw [textLength, if_neg text, if_neg single]

/-- An escape at the front of a window stands for the character behind the backslash. -/
theorem Window.escaped?_eq_some_iff {e : Char} :
    w.escaped? r = some e ↔ w.peek 0 = some '\\' ∧ w.peek 1 = some e ∧ r.escapes e := by
  constructor
  · intro stands
    unfold escaped? at stands
    split at stands
    · rename_i first second
      split at stands
      · rename_i hides
        cases stands
        exact ⟨hides.1 ▸ first, second, hides.2⟩
      · cases stands
    · cases stands
  · rintro ⟨first, second, special⟩
    rw [escaped?, first, second]
    exact if_pos ⟨rfl, special⟩

theorem Window.Shows.literal (shows : w.Shows text stop c) (r : Region) :
    r.Literal (c.rest.take (r.textLength c.rest)) (w.literal r).1 ∧
      (w.literal r).2.Shows text stop (c.advance (r.textLength c.rest)) := by
  fun_induction Window.literal r w generalizing c with
  | case1 w ends =>
    rw [shows.rest_nil ends]
    exact ⟨.nil, shows⟩
  | case2 w next =>
    have none : r.textLength c.rest = 0 := by
      rw [shows.rest_cons next]
      cases (c.advance 1).rest <;> rfl
    rw [none]
    exact ⟨.nil, shows⟩
  | case3 w d next shown e hides ih =>
    obtain ⟨first, second, special⟩ := escaped?_eq_some_iff.mp hides
    have left : c.rest = '\\' :: e :: (c.advance 2).rest := by
      rw [← shows.rest_at second]
      exact shows.rest_cons first
    have length : r.textLength c.rest = r.textLength (c.advance 2).rest + 2 := by
      rw [left, Region.textLength, if_neg (by decide), if_pos ⟨rfl, special⟩]
    obtain ⟨literal, there⟩ := ih (shows.advance 2)
    rw [length]
    refine ⟨?_, ?_⟩
    · rw [left, List.take_succ_cons, List.take_succ_cons]
      exact .escape special literal
    · rw [Nat.add_comm, ← Cursor.advance_advance]
      exact there
  | case4 w d next shown plain ih =>
    have left := shows.rest_cons next
    have single : d = '\\' → ∀ e, (c.advance 1).rest.head? = some e → r.escapes e = false := by
      rintro rfl e second
      rw [Cursor.advance_rest, List.head?_drop, ← Cursor.peek, ← shows.peek] at second
      refine Bool.eq_false_iff.mpr fun special => ?_
      rw [escaped?_eq_some_iff.mpr ⟨next, second, special⟩] at plain
      cases plain
    have length : r.textLength c.rest = r.textLength (c.advance 1).rest + 1 := by
      rw [left]
      exact Region.textLength_char shown single
    obtain ⟨literal, there⟩ := ih shows.step
    rw [length]
    refine ⟨?_, ?_⟩
    · rw [left, List.take_succ_cons]
      refine .char shown (fun same e first => single same e ?_) literal
      rw [List.head?_take] at first
      split at first
      · cases first
      · exact first
    · rw [Nat.add_comm, ← Cursor.advance_advance]
      exact there

theorem Window.Shows.textToken (shows : w.Shows text stop c) :
    Matches text stop Eq (w.textToken r) (Stencil.textToken r c) := by
  obtain ⟨literal, there⟩ := shows.literal r
  have length : (w.literal r).2.position = c.offset + r.textLength c.rest := by
    rw [there.offset, Cursor.advance, List.length_take_of_le (r.textLength_le _)]
  refine ⟨?_, there⟩
  rw [literal.unescape_eq, length, shows.offset, shows.mark]

theorem Window.Shows.toDelimiter (bound : stop ≤ text.length) (shows : w.Shows text stop c) (opened : Mark) :
    Matches text stop (fun _ _ => True) (w.toDelimiter opened) (Stencil.toDelimiter opened c) := by
  fun_induction Window.toDelimiter opened w generalizing c with
  | case1 w ends =>
    rw [toDelimiter_nil (shows.rest_nil ends)]
    exact ⟨rfl, shows⟩
  | case2 w next =>
    rw [toDelimiter_stop (shows.rest_cons next)]
    exact ⟨trivial, shows⟩
  | case3 w block after read next _ ih =>
    have step := shows.readBraced bound
    cases readToo : Stencil.readBraced c <;> rw [read, readToo] at step
    · rw [toDelimiter_block (shows.rest_cons next) readToo]
      exact ih step.2
    · exact step.elim
  | case4 w e stopped failed next =>
    have step := shows.readBraced bound
    cases failedToo : Stencil.readBraced c <;> rw [failed, failedToo] at step
    · exact step.elim
    · rw [toDelimiter_unmatched (shows.rest_cons next) failedToo]
      exact step
  | case5 w next =>
    rw [toDelimiter_close (shows.rest_cons next), shows.mark]
    exact ⟨rfl, shows⟩
  | case6 w d next delimiter opens closes ih =>
    rw [toDelimiter_char (shows.rest_cons next) delimiter opens closes]
    exact ih shows.step

theorem Window.Shows.directiveToken (bound : stop ≤ text.length) (shows : w.Shows text stop c) :
    Matches text stop Eq w.directiveToken (Stencil.directiveToken c) := by
  have search := shows.step.toDelimiter bound w.mark
  unfold Stencil.directiveToken Window.directiveToken
  cases ran : w.step.toDelimiter w.mark <;> cases ranToo : Stencil.toDelimiter c.mark (c.advance 1) <;>
    rw [ran, shows.mark, ranToo] at search
  · rename_i closing _ stopped
    obtain ⟨-, there⟩ := search
    obtain ⟨n, rfl⟩ := toDelimiter_moves ranToo
    obtain ⟨⟨cs, delimiter⟩, -⟩ := toDelimiter_found ranToo
    have within : n < (c.advance 1).rest.length := by
      by_contra beyond
      rw [Cursor.advance_rest, List.drop_of_length_le (Nat.not_lt.mp beyond)] at delimiter
      cases delimiter
    have passed : ((c.advance 1).advance n).offset = (c.advance 1).offset + n := by
      rw [Cursor.advance, List.length_take_of_le (Nat.le_of_lt within)]
    have value := shows.step.since there (Nat.le_of_lt within)
    simp only [ranToo]
    refine ⟨?_, there.step⟩
    rw [value, passed, Nat.add_sub_cancel_left, there.offset, passed, shows.step.offset, shows.mark]
  · exact search.elim
  · exact search.elim
  · simp only [ranToo]
    exact search

theorem Window.Shows.nextToken (bound : stop ≤ text.length) (shows : w.Shows text stop c) :
    Matches text stop Eq (w.nextToken r) (Token.next r c) := by
  rw [Window.nextToken]
  cases next : w.peek 0 with
  | none =>
    rw [Token.next, shows.rest_nil next, Window.eof, Token.eof, shows.offset, shows.mark]
    exact ⟨rfl, shows⟩
  | some d =>
    have left := shows.rest_cons next
    dsimp only
    split
    · rename_i opens
      rw [opens] at left
      rw [Token.next_directive left]
      exact shows.directiveToken bound
    · rename_i opens
      rw [Token.next_text left opens]
      exact shows.textToken

/-- Cut into tokens where it stands, a range of a text gives the tokens of the stretch. -/
theorem Window.Shows.tokenize (bound : stop ≤ text.length) (shows : w.Shows text stop c) :
    w.tokenize r = Stencil.tokenize r c := by
  fun_induction Window.tokenize r w generalizing c with
  | case1 w ends =>
    rw [tokenize_nil (shows.rest_nil ends), Window.eof, Token.eof, shows.offset, shows.mark]
  | case2 w d next e stopped failed =>
    have step := shows.nextToken (r := r) bound
    rw [tokenize_cons (shows.rest_cons next ▸ List.cons_ne_nil _ _)]
    cases failedToo : Token.next r c <;> rw [failed, failedToo] at step
    · exact step.elim
    · rw [step.1]
  | case3 w d next t after read ih =>
    have step := shows.nextToken (r := r) bound
    rw [tokenize_cons (shows.rest_cons next ▸ List.cons_ne_nil _ _)]
    cases readToo : Token.next r c <;> rw [read, readToo] at step
    · obtain ⟨rfl, there⟩ := step
      rw [ih there]
    · exact step.elim

end Tokens

/-- The step in a text does what the other one does in the stretch that is seen through a window. -/
def Refines (text : List Char) (stop : Nat) (R : α → β → Prop) (x : Window.Scan α) (y : Scan β) : Prop :=
  ∀ w c, w.Shows text stop c → Matches text stop R (x w) (y c)

namespace Refines

section Steps

variable {R : α → β → Prop} {S : γ → δ → Prop}

theorem pure {a : α} {b : β} (related : R a b) : Refines text stop R (pure a) (pure b) :=
  fun _ _ shows => ⟨related, shows⟩

theorem throw {fault : Fault} {m n : Mark} (same : m = n) :
    Refines text stop R (throw ⟨fault, m⟩ : Window.Scan α) (throw ⟨fault, n⟩ : Scan β) :=
  fun _ _ shows => ⟨congrArg (SyntaxError.mk fault) same, shows⟩

theorem get : Refines text stop (Window.Shows text stop) (get : Window.Scan Window) (get : Scan Cursor) :=
  fun _ _ shows => ⟨shows, shows⟩

theorem set {w : Window} {c : Cursor} (shows : w.Shows text stop c) :
    Refines text stop (fun _ _ => True) (set w : Window.Scan PUnit) (set c : Scan PUnit) :=
  fun _ _ _ => ⟨trivial, shows⟩

theorem lift {r s : Except SyntaxError α} (same : r = s) :
    Refines text stop Eq (liftExcept r : Window.Scan α) (liftExcept s : Scan α) := by
  subst same
  intro w c shows
  cases r
  · exact ⟨rfl, shows⟩
  · exact ⟨rfl, shows⟩

theorem bind {x : Window.Scan α} {y : Scan β} {f : α → Window.Scan γ} {g : β → Scan δ} (first : Refines text stop R x y)
    (second : ∀ a b, R a b → Refines text stop S (f a) (g b)) : Refines text stop S (x >>= f) (y >>= g) := by
  intro w c shows
  have step := first w c shows
  change Matches text stop S (EStateM.bind x f w) (EStateM.bind y g c)
  unfold EStateM.bind
  cases ran : x w <;> cases ranToo : y c <;> rw [ran, ranToo] at step
  · exact second _ _ step.1 _ _ step.2
  · exact step.elim
  · exact step.elim
  · exact step

theorem skipBlanks : Refines text stop (fun _ _ => True) Window.skipBlanks skipBlanks :=
  fun _ _ shows => ⟨trivial, shows.passWhile isBlank⟩

theorem nextWord : Refines text stop Eq Window.nextWord nextWord := by
  refine .bind .skipBlanks fun _ _ _ => .bind .get fun w c shows => ?_
  have behind := shows.passWhile (!endsWord ·)
  refine .bind (.set behind) fun _ _ _ => .pure ?_
  have front := List.takeWhile_prefix (l := c.rest) (!endsWord ·)
  rw [shows.since behind front.length_le, ← List.prefix_iff_eq_take.mp front, shows.mark]

theorem accept (expected : Char) : Refines text stop Eq (Window.accept expected) (accept expected) := by
  refine .bind .skipBlanks fun _ _ _ => .bind .get fun w c shows => ?_
  rw [shows.peek]
  split
  · exact .bind (.set shows.step) fun _ _ _ => .pure rfl
  · exact .pure rfl

end Steps

section Blocks

variable (bound : stop ≤ text.length)

include bound

theorem readBraced : Refines text stop (IsRange text) Window.readBraced readBraced :=
  fun _ _ shows => shows.readBraced bound

theorem readColonBlock (what : String) :
    Refines text stop (IsRange text) (Window.readColonBlock what) (readColonBlock what) := by
  refine .bind (.accept ':') fun found _ same => ?_
  subst same
  cases found with
  | true =>
    refine .bind .skipBlanks fun _ _ _ => .bind .get fun w c shows => ?_
    rw [shows.peek]
    split
    · exact .readBraced bound
    · exact .throw shows.mark
  | false => exact .bind .get fun w c shows => .throw shows.mark

theorem requireEnd (what : String) :
    Refines text stop (fun _ _ => True) (Window.requireEnd what) (requireEnd what) := by
  refine .bind .skipBlanks fun _ _ _ => .bind .get fun w c shows => ?_
  rw [shows.atEnd bound]
  split
  · exact .pure trivial
  · rw [shows.text_eq, shows.stop_eq, shows.rest]
    exact .throw shows.mark

omit bound in
theorem readPath (what : String) (mark : Mark) :
    Refines text stop Eq (Window.readPath what mark) (readPath what mark) := by
  refine .bind .nextWord fun word _ same => ?_
  subst same
  split
  · exact .throw rfl
  · exact .lift rfl

omit bound in
theorem readName (what : String) (mark : Mark) :
    Refines text stop Eq (Window.readName what mark) (readName what mark) := by
  refine .bind .nextWord fun word _ same => ?_
  subst same
  split
  · exact .throw rfl
  · exact .pure rfl

theorem readLiteral (what : String) : Refines text stop Eq (Window.readLiteral what) (readLiteral what) := by
  refine .bind (.readColonBlock bound what) fun b c range => .pure ?_
  rw [range.2.text_eq, range.2.rest]

variable {inside : Window.Inside} {inline : Inline} (same : ∀ b c, IsRange text b c → inside b = inline c)

include same

theorem readOperands (mark : Mark) (k : Keyword) :
    Refines text stop Eq (Window.readOperands inside mark k) (readOperands inline mark k) := by
  cases k with
  | «include» => exact .bind (.readName _ _) fun name _ same => .pure (same ▸ rfl)
  | apply =>
    refine .bind (.readPath _ _) fun func _ same => ?_
    exact .bind (.readPath _ _) fun arg _ sameToo => .pure (same ▸ sameToo ▸ rfl)
  | cond => exact .bind (.readPath _ _) fun condition _ same => .pure (same ▸ rfl)
  | map =>
    refine .bind .skipBlanks fun _ _ _ => .bind .get fun w c shows => ?_
    rw [shows.peek]
    split
    · refine .bind (.readColonBlock bound _) fun b c range => ?_
      refine .bind (.lift (same b c range)) fun body _ bodies => ?_
      exact .bind (.readPath _ _) fun items _ paths => .pure (bodies ▸ paths ▸ rfl)
    · refine .bind (.readName _ _) fun name _ names => ?_
      exact .bind (.readPath _ _) fun items _ paths => .pure (names ▸ paths ▸ rfl)
  | join =>
    refine .bind (.readLiteral bound _) fun separator _ same => ?_
    exact .bind (.readPath _ _) fun items _ sameToo => .pure (same ▸ sameToo ▸ rfl)
  | txt =>
    refine .bind (.readLiteral bound _) fun key _ same => ?_
    subst same
    split
    · exact .throw rfl
    · exact .pure rfl

theorem readItem (t : Token) : Refines text stop Eq (Window.readItem inside t) (readItem inline t) := by
  refine .bind .nextWord fun word _ words => ?_
  subst words
  cases Keyword.ofWord? word.letters with
  | some k =>
    refine .bind (.readOperands bound same t.mark k) fun item _ items => ?_
    exact .bind (.requireEnd bound _) fun _ _ _ => .pure items
  | none =>
    refine .bind .get fun w c shows => ?_
    rw [shows.peek]
    obtain ⟨letters, mark⟩ := word
    cases letters with
    | nil =>
      cases c.peek 0 with
      | none => exact .throw rfl
      | some d => exact .throw shows.mark
    | cons l ls =>
      dsimp only
      split
      · exact .throw rfl
      · refine .bind (.lift rfl) fun path _ paths => ?_
        refine .bind .skipBlanks fun _ _ _ => .bind .get fun v d left => ?_
        rw [left.atEnd bound]
        split
        · exact .pure (paths ▸ rfl)
        · exact .throw rfl

end Blocks

end Refines

/-- The same operations in a text. A block is answered as the stretch that is seen through its window. -/
def Operation.performIn : Operation → Window.Scan Answer
  | .advance count => do
    modify (·.advance count)
    return .nothing
  | .skipBlock => return .block (← Window.readBraced).view
  | .skipBlanks => do
    Window.skipBlanks
    return .nothing
  | .readWord => return .word (← Window.nextWord)
  | .accept expected => return .found (← Window.accept expected)
  | .readBlock what => return .block (← Window.readColonBlock what).view
  | .requireEnd what => do
    Window.requireEnd what
    return .nothing

/-- Whatever is asked of a window comes to what it comes to in the stretch that is seen through it, also where it
fails. -/
theorem Refines.perform (bound : stop ≤ text.length) (o : Operation) :
    Refines text stop Eq o.performIn o.perform := by
  have shown {b : Window} {c : Cursor} (range : IsRange text b c) : Answer.block b.view = .block c :=
    congrArg Answer.block range.2.view_eq
  cases o with
  | advance count => exact fun _ _ shows => ⟨rfl, shows.advance count⟩
  | skipBlock => exact .bind (.readBraced bound) fun _ _ range => .pure (shown range)
  | skipBlanks => exact .bind .skipBlanks fun _ _ _ => .pure rfl
  | readWord => exact .bind .nextWord fun _ _ same => .pure (congrArg Answer.word same)
  | accept expected => exact .bind (.accept expected) fun _ _ same => .pure (congrArg Answer.found same)
  | readBlock what => exact .bind (.readColonBlock bound what) fun _ _ range => .pure (shown range)
  | requireEnd what => exact .bind (.requireEnd bound what) fun _ _ _ => .pure rfl

section Compile

variable {r : Region} {w : Window} {c : Cursor} {inside : Window.Inside} {inline : Inline} {t : Token} {ts : List Token}

theorem IsRange.of_view (bound : w.stop ≤ w.text.length) : IsRange w.text w w.view :=
  ⟨bound, rfl, rfl, rfl⟩

/-- The content of a directive among the tokens is a range of the text. -/
theorem Tiles.isRange {low high : Nat} (tiles : Tiles r text low high ts) (bound : high ≤ text.length)
    (member : t ∈ ts) (directive : t.kind = .directive) : IsRange text (.ofDirective text t) t.content := by
  induction tiles with
  | last kind =>
    rw [List.mem_singleton.mp member, kind] at directive
    cases directive
  | text kind _ _ _ _ _ _ _ ih =>
    rcases List.mem_cons.mp member with rfl | later
    · rw [kind] at directive
      cases directive
    · exact ih bound later
  | directive _ _ ends _ _ _ value rest ih =>
    rcases List.mem_cons.mp member with rfl | later
    · have within := rest.le
      refine ⟨by simp only [Window.ofDirective]; omega, rfl, rfl, ?_⟩
      rw [Token.content, value]
      rfl
    · exact ih bound later

theorem IsRange.tokens (range : IsRange text w c) (read : tokenize r c = .ok ts) (member : t ∈ ts)
    (directive : t.kind = .directive) : IsRange text (.ofDirective text t) t.content := by
  obtain ⟨bound, shows⟩ := range
  by_cases done : c.rest = []
  · rw [tokenize_nil done] at read
    cases read
    rw [List.mem_singleton.mp member] at directive
    cases directive
  · have some : c.rest.length ≠ 0 := fun none => done (List.eq_nil_of_length_eq_zero none)
    rw [← shows.left bound, Window.left, shows.offset] at some
    have spans : c.Spans text w.stop := ⟨by rw [← shows.rest, shows.offset]; rfl, by omega, bound⟩
    exact (spans.tiles read).isRange bound member directive

section Parse

variable (same : ∀ b c, IsRange text b c → inside b = inline c)

include same

theorem Window.item_eq (range : t.kind = .directive → IsRange text (.ofDirective text t) t.content) :
    Window.item text inside t = t.item inline := by
  rw [Window.item, Token.item]
  cases directive : t.kind with
  | text | eof => rfl
  | directive =>
    obtain ⟨bound, shows⟩ := range directive
    have step := Refines.readItem bound same t _ _ shows
    cases ran : readItem inside t (.ofDirective text t) <;> cases ranToo : Stencil.readItem inline t t.content <;>
      rw [ran, ranToo] at step
    · rw [step.1]
    · exact step.elim
    · exact step.elim
    · rw [step.1]

theorem Window.addTokens_eq (d : Draft)
    (ranges : ∀ t ∈ ts, t.kind = .directive → IsRange text (.ofDirective text t) t.content) :
    Window.addTokens text inside d ts = d.addTokens inline ts := by
  induction ts generalizing d with
  | nil => rfl
  | cons t ts ih =>
    have later := fun d => ih d fun u member => ranges u (List.mem_cons_of_mem _ member)
    rw [Window.addTokens, Draft.addTokens, item_eq same (ranges t List.mem_cons_self)]
    simp only [later]

end Parse

/-- Compiled where it stands, a range of a text gives what the stretch compiles to. -/
theorem Window.compileNodes_eq (range : IsRange text w c) : w.compileNodes r = compileStretch r c := by
  fun_induction Window.compileNodes r w generalizing c with
  | case1 r w ih =>
    obtain ⟨bound, shows⟩ := range
    have same (b : Window) (d : Cursor) (inner : IsRange text b d) :
        (if _shorter : b.left < w.left then b.compileNodes .block else .error ⟨.unmatchedOpen, b.mark⟩) =
          if _shorter : d.rest.length < c.rest.length then compileStretch .block d
          else .error ⟨.unmatchedOpen, d.mark⟩ := by
      have shorter : d.rest.length < c.rest.length ↔ b.left < w.left := by
        rw [inner.2.left inner.1, shows.left bound]
      by_cases short : b.left < w.left
      · rw [dif_pos short, dif_pos (shorter.mpr short), ih b short inner]
      · rw [dif_neg short, dif_neg (mt shorter.mp short), inner.2.mark]
    rw [compileStretch, shows.tokenize bound, shows.text_eq]
    cases read : Stencil.tokenize r c with
    | error e => rfl
    | ok ts =>
      have ranges (t : Token) (member : t ∈ ts) := IsRange.tokens ⟨bound, shows⟩ read member
      exact congrArg (· >>= Draft.finish) (addTokens_eq same .empty ranges)

theorem compileRange_eq (w : Window) (within : w.stop ≤ w.text.length) : compileRange w = compileBlock w.view := by
  rw [compileRange, compileBlock, Window.compileNodes_eq (.of_view within)]

end Compile

end Stencil
