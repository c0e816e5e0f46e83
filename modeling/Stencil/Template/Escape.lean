namespace Stencil

/-- Where literal text stands: on the page itself or inside a block of a directive. -/
inductive Region where
  | page
  | block
deriving DecidableEq, Repr

namespace Region

def escapes : Region → Char → Bool
  | page, c => c == '$'
  | block, c => c == '$' || c == '\x7b' || c == '\x7d'

def unescape (r : Region) : List Char → List Char
  | [] => []
  | [c] => [c]
  | c :: d :: cs =>
    if c = '\\' ∧ r.escapes d then d :: r.unescape cs else c :: r.unescape (d :: cs)

/-- How many characters of literal text stand before the next delimiter, or before the end. -/
def textLength (r : Region) : List Char → Nat
  | [] => 0
  | [c] => if c = '$' then 0 else 1
  | c :: d :: cs =>
    if c = '$' then 0
    else if c = '\\' ∧ r.escapes d then r.textLength cs + 2
    else r.textLength (d :: cs) + 1

theorem textLength_pos (r : Region) {c : Char} (cs : List Char) (text : c ≠ '$') :
    0 < r.textLength (c :: cs) := by
  cases cs with
  | nil => simp [textLength, text]
  | cons d cs =>
    simp only [textLength, if_neg text]
    split <;> omega

theorem textLength_le (r : Region) (cs : List Char) : r.textLength cs ≤ cs.length := by
  fun_induction textLength r cs with
  | case1 => simp
  | case2 | case3 => simp
  | case4 => simp
  | case5 _ _ cs _ _ ih | case6 _ _ cs _ _ ih => simp only [List.length_cons] at *; omega

end Region

end Stencil
