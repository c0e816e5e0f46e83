import Stencil.Template.Equality
import Stencil.Template.Nesting
import Mathlib.Data.List.Forall2

namespace Stencil

mutual

/-- The same data, at places that are related. -/
def Node.Like (M : Mark → Mark → Prop) : Node → Node → Prop
  | .text a, .text b => a = b
  | .attr m p, .attr n q => M m n ∧ p = q
  | .include m a, .include n b => M m n ∧ a = b
  | .apply m f a, .apply n g b => M m n ∧ f = g ∧ a = b
  | .cond m p a x, .cond n q b y => M m n ∧ p = q ∧ Node.LikeAll M a b ∧ Node.LikeElse M x y
  | .mapNamed m a p, .mapNamed n b q => M m n ∧ a = b ∧ p = q
  | .mapInline m a p, .mapInline n b q => M m n ∧ Node.LikeAll M a b ∧ p = q
  | .join m s p, .join n t q => M m n ∧ s = t ∧ p = q
  | .txt m k, .txt n l => M m n ∧ k = l
  | _, _ => False

def Node.LikeAll (M : Mark → Mark → Prop) : List Node → List Node → Prop
  | [], [] => True
  | m :: ms, n :: ns => m.Like M n ∧ Node.LikeAll M ms ns
  | _, _ => False

def Node.LikeElse (M : Mark → Mark → Prop) : Option (List Node) → Option (List Node) → Prop
  | none, none => True
  | some a, some b => Node.LikeAll M a b
  | _, _ => False

end

variable {M : Mark → Mark → Prop}

theorem Node.likeAll_iff {ms ns : List Node} :
    Node.LikeAll M ms ns ↔ List.Forall₂ (Node.Like M) ms ns := by
  induction ms generalizing ns with
  | nil => cases ns <;> simp [Node.LikeAll]
  | cons m ms ih => cases ns <;> simp [Node.LikeAll, ih]

mutual

theorem Node.Like.refl (same : ∀ m, M m m) (n : Node) : n.Like M n := by
  cases n with
  | text => rfl
  | attr | «include» | txt => exact ⟨same _, rfl⟩
  | apply | mapNamed | join => exact ⟨same _, rfl, rfl⟩
  | cond mark condition body elseBody =>
    exact ⟨same mark, rfl, Node.LikeAll.refl same body, Node.LikeElse.refl same elseBody⟩
  | mapInline mark body items => exact ⟨same mark, Node.LikeAll.refl same body, rfl⟩

theorem Node.LikeAll.refl (same : ∀ m, M m m) (ns : List Node) : Node.LikeAll M ns ns := by
  cases ns with
  | nil => trivial
  | cons n ns => exact ⟨Node.Like.refl same n, Node.LikeAll.refl same ns⟩

theorem Node.LikeElse.refl (same : ∀ m, M m m) (x : Option (List Node)) : Node.LikeElse M x x := by
  cases x with
  | none => trivial
  | some ns => exact Node.LikeAll.refl same ns

end

mutual

theorem Node.Like.eq {m n : Node} (like : m.Like Eq n) : m = n := by
  cases m <;> cases n <;> simp only [Node.Like] at like
  case text.text => rw [like]
  case cond.cond =>
    obtain ⟨rfl, rfl, bodies, elses⟩ := like
    rw [Node.LikeAll.eq bodies, Node.LikeElse.eq elses]
  case mapInline.mapInline =>
    obtain ⟨rfl, bodies, rfl⟩ := like
    rw [Node.LikeAll.eq bodies]
  case attr.attr | include.include | txt.txt => rw [like.1, like.2]
  case apply.apply | mapNamed.mapNamed | join.join => rw [like.1, like.2.1, like.2.2]

theorem Node.LikeAll.eq {ms ns : List Node} (like : Node.LikeAll Eq ms ns) : ms = ns := by
  cases ms <;> cases ns <;> simp only [Node.LikeAll] at like
  case nil.nil => rfl
  case cons.cons => rw [Node.Like.eq like.1, Node.LikeAll.eq like.2]

theorem Node.LikeElse.eq {x y : Option (List Node)} (like : Node.LikeElse Eq x y) : x = y := by
  cases x <;> cases y <;> simp only [Node.LikeElse] at like
  case none.none => rfl
  case some.some => rw [Node.LikeAll.eq like]

end

mutual

theorem Node.Like.agrees {m n : Node} (like : m.Like M n) : m.agrees n = true := by
  cases m <;> cases n <;> simp only [Node.Like] at like
  case cond.cond => simp [Node.agrees, like.2.1, Node.LikeAll.agrees like.2.2.1, Node.LikeElse.agrees like.2.2.2]
  case mapInline.mapInline => simp [Node.agrees, Node.LikeAll.agrees like.2.1, like.2.2]
  all_goals simp [Node.agrees, like]

theorem Node.LikeAll.agrees {ms ns : List Node} (like : Node.LikeAll M ms ns) :
    Node.agreeAll ms ns = true := by
  cases ms <;> cases ns <;> simp only [Node.LikeAll] at like
  case nil.nil => rfl
  case cons.cons => simp [Node.agreeAll, Node.Like.agrees like.1, Node.LikeAll.agrees like.2]

theorem Node.LikeElse.agrees {x y : Option (List Node)} (like : Node.LikeElse M x y) :
    Node.agreeElse x y = true := by
  cases x <;> cases y <;> simp only [Node.LikeElse] at like
  case none.none => rfl
  case some.some => exact Node.LikeAll.agrees like

end

mutual

/-- Nodes that agree are alike, whatever their places. -/
theorem Node.Like.of_agrees {m n : Node} (agree : m.agrees n = true) : m.Like (fun _ _ => True) n := by
  cases m <;> cases n <;> simp only [Node.agrees, Bool.and_eq_true, beq_iff_eq, Bool.false_eq_true] at agree
  case text.text => exact agree
  case attr.attr | include.include | txt.txt => exact ⟨trivial, agree⟩
  case apply.apply | mapNamed.mapNamed | join.join => exact ⟨trivial, agree.1, agree.2⟩
  case cond.cond =>
    obtain ⟨⟨condition, bodies⟩, elses⟩ := agree
    exact ⟨trivial, condition, Node.LikeAll.of_agreeAll bodies, Node.LikeElse.of_agreeElse elses⟩
  case mapInline.mapInline => exact ⟨trivial, Node.LikeAll.of_agreeAll agree.1, agree.2⟩

theorem Node.LikeAll.of_agreeAll {ms ns : List Node} (agree : Node.agreeAll ms ns = true) :
    Node.LikeAll (fun _ _ => True) ms ns := by
  cases ms <;> cases ns <;> simp only [Node.agreeAll, Bool.and_eq_true, Bool.false_eq_true] at agree
  case nil.nil => trivial
  case cons.cons => exact ⟨Node.Like.of_agrees agree.1, Node.LikeAll.of_agreeAll agree.2⟩

theorem Node.LikeElse.of_agreeElse {x y : Option (List Node)} (agree : Node.agreeElse x y = true) :
    Node.LikeElse (fun _ _ => True) x y := by
  cases x <;> cases y <;> simp only [Node.agreeElse, Bool.false_eq_true] at agree
  case none.none => trivial
  case some.some => exact Node.LikeAll.of_agreeAll agree

end

end Stencil
