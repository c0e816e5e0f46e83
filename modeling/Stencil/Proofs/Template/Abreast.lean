import Stencil.Proofs.Template.Crossing
import Stencil.Proofs.Template.Likeness

namespace Stencil

variable {α β γ δ : Type} {M : Mark → Mark → Prop} {l : List Char}

/-- Related places stay related behind the same character. -/
def Steady (M : Mark → Mark → Prop) : Prop :=
  ∀ m n c, M m n → M (m.next c) (n.next c)

theorem Steady.eq : Steady Eq := by
  rintro m _ c rfl
  rfl

theorem Steady.anywhere : Steady fun _ _ => True :=
  fun _ _ _ _ => trivial

theorem Steady.past (steady : Steady M) {m n : Mark} (related : M m n) (cs : List Char) :
    M (m.past cs) (n.past cs) := by
  induction cs generalizing m n with
  | nil => exact related
  | cons c cs ih => exact ih (steady m n c related)

def SyntaxError.Like (M : Mark → Mark → Prop) (e f : SyntaxError) : Prop :=
  e.fault = f.fault ∧ M e.mark f.mark

/-- Both readings gave answers, which are related, or both failed in the same way. -/
def Alike (M : Mark → Mark → Prop) (R : α → β → Prop) :
    Except SyntaxError α → Except SyntaxError β → Prop
  | .ok a, .ok b => R a b
  | .error e, .error f => e.Like M f
  | _, _ => False

theorem Alike.bind {R : α → β → Prop} {S : γ → δ → Prop} {r : Except SyntaxError α}
    {s : Except SyntaxError β} {f : α → Except SyntaxError γ} {g : β → Except SyntaxError δ}
    (first : Alike M R r s) (second : ∀ a b, R a b → Alike M S (f a) (g b)) :
    Alike M S (r >>= f) (s >>= g) := by
  cases r <;> cases s
  · exact first
  · exact first.elim
  · exact first.elim
  · exact second _ _ first

theorem Alike.map {R : α → β → Prop} {S : γ → δ → Prop} {r : Except SyntaxError α}
    {s : Except SyntaxError β} {f : α → γ} {g : β → δ} (alike : Alike M R r s)
    (related : ∀ a b, R a b → S (f a) (g b)) : Alike M S (r.map f) (s.map g) := by
  cases r <;> cases s
  · exact alike
  · exact alike.elim
  · exact alike.elim
  · exact related _ _ alike

theorem Alike.of_ok {R : α → β → Prop} {a : α} {s : Except SyntaxError β} (alike : Alike M R (.ok a) s) :
    ∃ b, s = .ok b ∧ R a b := by
  cases s with
  | error e => exact alike.elim
  | ok b => exact ⟨b, rfl, alike⟩

theorem Alike.of_ok_right {R : α → β → Prop} {r : Except SyntaxError α} {b : β} (alike : Alike M R r (.ok b)) :
    ∃ a, r = .ok a ∧ R a b := by
  cases r with
  | error e => exact alike.elim
  | ok a => exact ⟨a, rfl, alike⟩

theorem Alike.eq {r s : Except SyntaxError α} {R : α → α → Prop} (same : ∀ a b, R a b → a = b)
    (alike : Alike Eq R r s) : r = s := by
  cases r <;> cases s
  · rename_i e f
    obtain ⟨fault, mark⟩ := e
    obtain ⟨fault', mark'⟩ := f
    obtain ⟨rfl, rfl⟩ := alike
    rfl
  · exact alike.elim
  · exact alike.elim
  · rw [same _ _ alike]

/-- Two cursors over the same piece of `l`, at related places. -/
structure Cursor.Like (M : Mark → Mark → Prop) (l : List Char) (c d : Cursor) : Prop where
  rest : c.rest = d.rest
  inside : c.rest <:+: l
  mark : M c.mark d.mark

namespace Cursor.Like

variable {c d : Cursor} (like : c.Like M l d)

include like

theorem advance (steady : Steady M) (n : Nat) : (c.advance n).Like M l (d.advance n) where
  rest := by rw [advance_rest, advance_rest, like.rest]
  inside := (List.drop_suffix n c.rest).isInfix.trans like.inside
  mark := by
    simp only [Cursor.advance, like.rest]
    exact steady.past like.mark _

theorem upTo (n : Nat) : (c.upTo n).Like M l (d.upTo n) where
  rest := by rw [upTo_rest, upTo_rest, like.rest]
  inside := (List.take_prefix n c.rest).isInfix.trans like.inside
  mark := like.mark

end Cursor.Like

/-- What comes of two steps: related answers at related places, or the same fault. -/
def Together (M : Mark → Mark → Prop) (l : List Char) (R : α → β → Prop) :
    EStateM.Result SyntaxError Cursor α → EStateM.Result SyntaxError Cursor β → Prop
  | .ok a c, .ok b d => R a b ∧ c.Like M l d
  | .error e _, .error f _ => e.Like M f
  | _, _ => False

/-- Two steps that keep readings of pieces of `l` side by side. -/
def Abreast (M : Mark → Mark → Prop) (l : List Char) (R : α → β → Prop) (x : Scan α) (y : Scan β) :
    Prop :=
  ∀ c d, c.Like M l d → Together M l R (x c) (y d)

namespace Abreast

theorem pure {R : α → β → Prop} {a : α} {b : β} (related : R a b) :
    Abreast M l R (pure a) (pure b) :=
  fun _ _ like => ⟨related, like⟩

theorem bind {R : α → β → Prop} {S : γ → δ → Prop} {x : Scan α} {y : Scan β} {f : α → Scan γ}
    {g : β → Scan δ} (first : Abreast M l R x y) (second : ∀ a b, R a b → Abreast M l S (f a) (g b)) :
    Abreast M l S (x >>= f) (y >>= g) := by
  intro c d like
  have step := first c d like
  cases ran : x c <;> cases ranToo : y d <;> rw [ran, ranToo] at step
  · rw [Scan.bind_of_ok ran, Scan.bind_of_ok ranToo]
    exact second _ _ step.1 _ _ step.2
  · exact step.elim
  · exact step.elim
  · rw [Scan.bind_of_error ran, Scan.bind_of_error ranToo]
    exact step

theorem throw {R : α → β → Prop} {fault : Fault} {m n : Mark} (related : M m n) :
    Abreast M l R (throw ⟨fault, m⟩ : Scan α) (throw ⟨fault, n⟩ : Scan β) :=
  fun _ _ _ => ⟨rfl, related⟩

theorem get : Abreast M l (Cursor.Like M l) (get : Scan Cursor) (get : Scan Cursor) :=
  fun _ _ like => ⟨like, like⟩

theorem set {c d : Cursor} (like : c.Like M l d) :
    Abreast M l (fun _ _ => True) (set c : Scan PUnit) (set d : Scan PUnit) :=
  fun _ _ _ => ⟨trivial, like⟩

theorem lift {R : α → β → Prop} {r : Except SyntaxError α} {s : Except SyntaxError β}
    (alike : Alike M R r s) : Abreast M l R (liftExcept r : Scan α) (liftExcept s : Scan β) := by
  intro c d like
  cases r <;> cases s
  · exact alike
  · exact alike.elim
  · exact alike.elim
  · exact ⟨alike, like⟩

section Steps

variable (steady : Steady M)

include steady

theorem skipBlanks : Abreast M l (fun _ _ => True) skipBlanks skipBlanks := by
  intro c d like
  refine ⟨trivial, ?_⟩
  change Cursor.Like M l _ (d.advance (d.rest.takeWhile isBlank).length)
  rw [← like.rest]
  exact like.advance steady _

theorem nextWord :
    Abreast M l (fun v w => v.letters = w.letters ∧ M v.mark w.mark) nextWord nextWord := by
  refine .bind (.skipBlanks steady) fun _ _ _ => .bind .get fun c d like => ?_
  rw [← like.rest]
  exact .bind (.set (like.advance steady _)) fun _ _ _ => .pure ⟨rfl, like.mark⟩

theorem accept (expected : Char) : Abreast M l Eq (accept expected) (accept expected) := by
  refine .bind (.skipBlanks steady) fun _ _ _ => .bind .get fun c d like => ?_
  rw [Cursor.peek, Cursor.peek, ← like.rest]
  split
  · exact .bind (.set (like.advance steady 1)) fun _ _ _ => .pure rfl
  · exact .pure rfl

/-- The content of a block is shorter than the text that the block stands in. -/
theorem readBraced :
    Abreast M l (fun b b' => b.Like M l b' ∧ b.rest.length < l.length) readBraced readBraced := by
  intro c d like
  have within := like.advance steady 1
  have same : closingBrace 0 (d.advance 1).rest = closingBrace 0 (c.advance 1).rest := by
    rw [within.rest]
  unfold Stencil.readBraced
  cases found : closingBrace 0 (c.advance 1).rest with
  | none =>
    simp only [same, found]
    exact ⟨rfl, like.mark⟩
  | some n =>
    have short := closingBrace_lt found
    have whole := within.inside.length_le
    have block : ((c.advance 1).upTo n).rest.length < l.length := by
      rw [Cursor.upTo_rest, List.length_take]
      omega
    simp only [same, found]
    exact ⟨⟨within.upTo n, block⟩, within.advance steady (n + 1)⟩

theorem readColonBlock (what : String) :
    Abreast M l (fun b b' => b.Like M l b' ∧ b.rest.length < l.length) (readColonBlock what)
      (readColonBlock what) := by
  refine .bind (.accept steady ':') fun found _ same => ?_
  subst same
  cases found with
  | true =>
    refine .bind (.skipBlanks steady) fun _ _ _ => .bind .get fun c d like => ?_
    rw [Cursor.peek, Cursor.peek, ← like.rest]
    split
    · exact .readBraced steady
    · exact .throw like.mark
  | false => exact .bind .get fun c d like => .throw like.mark

theorem requireEnd (what : String) :
    Abreast M l (fun _ _ => True) (requireEnd what) (requireEnd what) := by
  refine .bind (.skipBlanks steady) fun _ _ _ => .bind .get fun c d like => ?_
  rw [Cursor.atEnd, Cursor.atEnd, ← like.rest]
  split
  · exact .pure trivial
  · exact .throw like.mark

omit steady in
theorem path {v w : Word} (letters : v.letters = w.letters) (mark : M v.mark w.mark) :
    Alike M Eq v.path w.path := by
  obtain ⟨ls, m⟩ := v
  obtain ⟨_, n⟩ := w
  obtain rfl : ls = _ := letters
  rw [Word.path, Word.path]
  generalize segments ls = parts
  induction parts with
  | nil => exact rfl
  | cons s ss ih =>
    rw [List.mapM_cons, List.mapM_cons]
    have first : Alike M Eq (Word.segment ⟨ls, m⟩ s) (Word.segment ⟨ls, n⟩ s) := by
      unfold Word.segment
      split
      · exact ⟨rfl, mark⟩
      · split
        · exact rfl
        · exact ⟨rfl, mark⟩
    refine first.bind fun name _ same => ih.bind fun names _ sameToo => ?_
    rw [same, sameToo]
    exact rfl

theorem readPath (what : String) {m n : Mark} (related : M m n) :
    Abreast M l Eq (readPath what m) (readPath what n) := by
  refine .bind (.nextWord steady) fun v w ⟨letters, mark⟩ => ?_
  rw [← letters]
  split
  · exact .throw related
  · exact .lift (path letters mark)

theorem readName (what : String) {m n : Mark} (related : M m n) :
    Abreast M l Eq (readName what m) (readName what n) := by
  refine .bind (.nextWord steady) fun v w ⟨letters, mark⟩ => ?_
  rw [Word.text, Word.text, ← letters]
  split
  · exact .throw related
  · exact .pure rfl

theorem readLiteral (what : String) : Abreast M l Eq (readLiteral what) (readLiteral what) := by
  refine .bind (.readColonBlock steady what) fun b b' ⟨like, _⟩ => ?_
  rw [like.rest]
  exact .pure rfl

end Steps

end Abreast

section Items

def Item.Like (M : Mark → Mark → Prop) : Item → Item → Prop
  | .node m, .node n => m.Like M n
  | .openIf m p, .openIf n q => M m n ∧ p = q
  | .otherwise, .otherwise | .endIf, .endIf => True
  | _, _ => False

/-- Two ways to compile blocks that do the same to blocks shorter than `n`. -/
def Inline.Like (M : Mark → Mark → Prop) (n : Nat) (inline inline' : Inline) : Prop :=
  ∀ b b' : Cursor, b.rest = b'.rest → b.rest.length < n → M b.mark b'.mark →
    Alike M (Node.LikeAll M) (inline b) (inline' b')

def Token.Like (M : Mark → Mark → Prop) (t u : Token) : Prop :=
  t.kind = u.kind ∧ t.value = u.value ∧ M t.mark u.mark

variable {inline inline' : Inline} {m n : Mark} (steady : Steady M)

include steady

theorem Abreast.readOperands (inlines : inline.Like M l.length inline') (mark : M m n) (k : Keyword) :
    Abreast M l (Item.Like M) (readOperands inline m k) (readOperands inline' n k) := by
  cases k with
  | «include» =>
    refine .bind (.readName steady _ mark) fun name _ same => .pure ?_
    exact ⟨mark, same⟩
  | apply =>
    refine .bind (.readPath steady _ mark) fun func _ same => ?_
    refine .bind (.readPath steady _ mark) fun arg _ sameToo => .pure ?_
    exact ⟨mark, same, sameToo⟩
  | cond =>
    refine .bind (.readPath steady _ mark) fun condition _ same => .pure ?_
    exact ⟨mark, same⟩
  | map =>
    refine .bind (.skipBlanks steady) fun _ _ _ => .bind .get fun c d like => ?_
    rw [Cursor.peek, Cursor.peek, ← like.rest]
    split
    · refine .bind (.readColonBlock steady _) fun b b' ⟨block, shorter⟩ => ?_
      refine .bind (.lift (inlines b b' block.rest shorter block.mark)) fun body _ bodies => ?_
      refine .bind (.readPath steady _ mark) fun items _ same => .pure ?_
      exact ⟨mark, bodies, same⟩
    · refine .bind (.readName steady _ mark) fun name _ same => ?_
      refine .bind (.readPath steady _ mark) fun items _ sameToo => .pure ?_
      exact ⟨mark, same, sameToo⟩
  | join =>
    refine .bind (.readLiteral steady _) fun separator _ same => ?_
    refine .bind (.readPath steady _ mark) fun items _ sameToo => .pure ?_
    exact ⟨mark, same, sameToo⟩
  | txt =>
    refine .bind (.readLiteral steady _) fun key _ same => ?_
    subst same
    split
    · exact .throw mark
    · exact .pure ⟨mark, rfl⟩

theorem Abreast.readItem {t u : Token} (inlines : inline.Like M l.length inline') (like : t.Like M u) :
    Abreast M l (Item.Like M) (readItem inline t) (readItem inline' u) := by
  obtain ⟨-, value, mark⟩ := like
  refine .bind (.nextWord steady) fun v w ⟨letters, place⟩ => ?_
  simp only [← letters, Word.text, ← value]
  cases Keyword.ofWord? v.letters with
  | some k =>
    refine .bind (.readOperands steady inlines mark k) fun i j alike => ?_
    exact .bind (.requireEnd steady _) fun _ _ _ => .pure alike
  | none =>
    refine .bind .get fun c d here => ?_
    rw [Cursor.peek, Cursor.peek, ← here.rest]
    split
    · exact .throw mark
    · exact .throw here.mark
    · split
      · exact .throw mark
      · refine .bind (.lift (Abreast.path letters place)) fun path _ same => ?_
        refine .bind (.skipBlanks steady) fun _ _ _ => .bind .get fun c d left => ?_
        rw [Cursor.atEnd, Cursor.atEnd, ← left.rest]
        split
        · exact .pure ⟨mark, same⟩
        · exact .throw mark

theorem Token.item_alike {t u : Token} (like : t.Like M u)
    (inlines : t.kind = .directive → inline.Like M t.value.length inline') :
    Alike M (Item.Like M) (t.item inline) (u.item inline') := by
  obtain ⟨kind, value, mark⟩ := like
  unfold Token.item
  rw [← kind, ← value]
  split
  · exact rfl
  · exact ⟨rfl, mark⟩
  · rename_i directive
    split
    · trivial
    split
    · trivial
    have contents : t.content.Like M t.value u.content :=
      ⟨value, List.infix_rfl, steady _ _ '$' mark⟩
    have step := Abreast.readItem steady (inlines directive) ⟨kind, value, mark⟩ _ _ contents
    cases ran : Stencil.readItem inline t t.content <;>
      cases ranToo : Stencil.readItem inline' u u.content <;> rw [ran, ranToo] at step
    · exact step.1
    · exact step.elim
    · exact step.elim
    · exact step

end Items

section Tokens

variable {c d after : Cursor} {t : Token}

/-- The search for a delimiter does not change where the stretch ends. -/
theorem stop_toDelimiter {opened : Mark} (read : toDelimiter opened c = .ok () after) :
    after.stop = c.stop := by
  fun_induction toDelimiter opened c with
  | case1 | case3 | case5 => cases read
  | case2 => cases read; rfl
  | case4 c _ _ _ mid block ih =>
    have behind : mid.stop = c.stop := by
      obtain ⟨n, -, -, rfl⟩ := readBraced_eq_ok_iff.mp block
      rw [Cursor.stop_advance, Cursor.stop_advance]
    rw [ih read, behind]
  | case6 c _ _ _ _ _ _ ih => rw [ih read, Cursor.stop_advance]

theorem Abreast.toDelimiter (steady : Steady M) {m n : Mark} (opened : M m n) :
    Abreast M l (fun _ _ => True) (toDelimiter m) (toDelimiter n) := by
  intro c d like
  fun_induction Stencil.toDelimiter m c generalizing d with
  | case1 c done =>
    rw [toDelimiter_nil (like.rest ▸ done)]
    exact ⟨rfl, opened⟩
  | case2 c cs next =>
    rw [toDelimiter_stop (like.rest ▸ next)]
    exact ⟨trivial, like⟩
  | case3 c cs next =>
    rw [toDelimiter_close (like.rest ▸ next)]
    exact ⟨rfl, like.mark⟩
  | case4 c cs next block after read ih =>
    have step := Abreast.readBraced steady c d like
    cases readToo : Stencil.readBraced d <;> rw [read, readToo] at step
    · rw [toDelimiter_block (like.rest ▸ next) readToo]
      exact ih _ step.2
    · exact step.elim
  | case5 c cs next e stopped failed =>
    have step := Abreast.readBraced steady c d like
    cases failedToo : Stencil.readBraced d <;> rw [failed, failedToo] at step
    · exact step.elim
    · rw [toDelimiter_unmatched (like.rest ▸ next) failedToo]
      exact step
  | case6 c b cs delimiter closes opens next ih =>
    have moved : Stencil.toDelimiter n d = Stencil.toDelimiter n (d.advance 1) :=
      toDelimiter_char (like.rest ▸ next) delimiter opens closes
    rw [moved]
    exact ih _ (like.advance steady 1)

end Tokens

end Stencil
