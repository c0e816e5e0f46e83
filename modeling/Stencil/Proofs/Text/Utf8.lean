import Stencil.Text.Utf8
import Mathlib.Data.List.TakeWhile

namespace Stencil

section Bytes

/-- A byte behind the first one of a character, as a number. -/
theorem toNat_tail (m : Nat) : (UInt8.ofNat (128 + m % 64)).toNat = 128 + m % 64 := by
  have bits : m % 64 < 64 := Nat.mod_lt m (by decide)
  exact UInt8.toNat_ofNat_of_lt' (by change _ < 256; omega)

/-- All such bytes are in one range, which some first bytes narrow from below or from above. -/
theorem tail_between {first last : Prop} [Decidable first] [Decidable last] {low high : UInt8} {m : Nat}
    (above : first → low.toNat ≤ 128 + m % 64) (below : last → 128 + m % 64 ≤ high.toNat) :
    (if first then low else 0x80) ≤ .ofNat (128 + m % 64) ∧
      UInt8.ofNat (128 + m % 64) ≤ if last then high else 0xBF := by
  have bits : m % 64 < 64 := Nat.mod_lt m (by decide)
  rw [UInt8.le_iff_toNat_le, UInt8.le_iff_toNat_le, toNat_tail]
  constructor
  · split
    · exact above ‹first›
    · exact Nat.le_add_right 128 _
  · split
    · exact below ‹last›
    · change _ ≤ 191
      omega

theorem isContinuation_tail (m : Nat) : isContinuation (.ofNat (128 + m % 64)) = true := by
  have bits : m % 64 < 64 := Nat.mod_lt m (by decide)
  rw [isContinuation, Bool.and_eq_true, decide_eq_true_eq, decide_eq_true_eq, UInt8.le_iff_toNat_le,
    UInt8.lt_iff_toNat_lt, toNat_tail]
  exact ⟨Nat.le_add_right 128 _, by change _ < 192; omega⟩

theorem codeOf_cons_tail (lead m : Nat) (bs : Bytes) :
    codeOf lead (.ofNat (128 + m % 64) :: bs) = codeOf (64 * lead + m % 64) bs := by
  rw [codeOf, List.foldl_cons, toNat_tail, Nat.add_sub_cancel_left]
  rfl

theorem leadByte_two : ∀ n < 30, leadByte (.ofNat (0xC2 + n)) = some (1, n + 2, 0x80, 0xBF) := by
  decide +kernel

theorem leadByte_three : ∀ n < 16, leadByte (.ofNat (0xE0 + n)) =
    some (2, n, if n = 0 then 0xA0 else 0x80, if n = 13 then 0x9F else 0xBF) := by
  decide +kernel

theorem leadByte_four : ∀ n < 5, leadByte (.ofNat (0xF0 + n)) =
    some (3, n, if n = 0 then 0x90 else 0x80, if n = 4 then 0x8F else 0xBF) := by
  decide +kernel

theorem not_lt_of_leadByte {b : UInt8} {lead : Nat × Nat × UInt8 × UInt8} (first : leadByte b = some lead) :
    ¬ b < 128 := by
  intro ascii
  have early : b < 0xC2 := UInt8.lt_trans ascii (by decide)
  rw [leadByte, if_pos early] at first
  cases first

variable {b low high t : UInt8} {more : Bytes}

theorem continuing_of (inside : low ≤ t ∧ t ≤ high) (continues : more.all isContinuation = true) (bs : Bytes) :
    continuing low high (more.length + 1) (t :: more ++ bs) = more.length + 1 := by
  have all : more.takeWhile isContinuation = more := List.takeWhile_eq_self_iff.mpr (List.all_eq_true.mp continues)
  rw [continuing, List.cons_append, List.take_succ_cons, List.take_left]
  simp only [inside, decide_true, Bool.and_self, if_true, all]
  omega

theorem nextChar_of_leadByte {lead n : Nat} (first : leadByte b = some (more.length + 1, lead, low, high))
    (inside : low ≤ t ∧ t ≤ high) (continues : more.all isContinuation = true) (bits : codeOf lead (t :: more) = n)
    (bs : Bytes) : nextChar b (t :: more ++ bs) = .ok (Char.ofNat n, more.length + 1) := by
  have taken : (t :: more ++ bs).take (more.length + 1) = t :: more := by
    rw [List.cons_append, List.take_succ_cons, List.take_left]
  rw [nextChar, if_neg (not_lt_of_leadByte first), first]
  simp only [continuing_of inside continues, taken, bits, if_true]

end Bytes

section Characters

variable {n : Nat}

theorem nextChar_one (code : n < 0x80) (bs : Bytes) : nextChar (.ofNat n) bs = .ok (Char.ofNat n, 0) := by
  have byte : (UInt8.ofNat n).toNat = n := UInt8.toNat_ofNat_of_lt' (by change n < 256; omega)
  have ascii : UInt8.ofNat n < 128 := by
    rw [UInt8.lt_iff_toNat_lt, byte]
    exact code
  rw [nextChar, if_pos ascii, byte]

theorem nextChar_two (least : 0x80 ≤ n) (most : n < 0x800) (bs : Bytes) :
    nextChar (.ofNat (0xC0 + n / 64)) (.ofNat (128 + n % 64) :: bs) = .ok (Char.ofNat n, 1) := by
  have first : leadByte (.ofNat (0xC0 + n / 64)) = some (1, n / 64, 0x80, 0xBF) := by
    have known := leadByte_two (n / 64 - 2) (by omega)
    rwa [show 0xC2 + (n / 64 - 2) = 0xC0 + n / 64 by omega, show n / 64 - 2 + 2 = n / 64 by omega] at known
  have inside := @tail_between False False _ _ 0x80 0xBF n False.elim False.elim
  have bits : codeOf (n / 64) [.ofNat (128 + n % 64)] = n := by
    rw [codeOf_cons_tail, codeOf, List.foldl_nil]
    omega
  exact @nextChar_of_leadByte _ _ _ _ [] _ _ first inside rfl bits bs

/-- A surrogate would begin as some characters do; the bound of the second byte leaves it out. -/
theorem nextChar_three (least : 0x800 ≤ n) (most : n < 0x10000) (valid : n < 0xD800 ∨ 0xDFFF < n) (bs : Bytes) :
    nextChar (.ofNat (0xE0 + n / 4096)) (.ofNat (128 + n / 64 % 64) :: .ofNat (128 + n % 64) :: bs) =
      .ok (Char.ofNat n, 2) := by
  have first := leadByte_three (n / 4096) (by omega)
  have inside := @tail_between (n / 4096 = 0) (n / 4096 = 13) _ _ 0xA0 0x9F (n / 64)
    (fun _ => by change 160 ≤ _; omega) (fun _ => by change _ ≤ 159; omega)
  have bits : codeOf (n / 4096) [.ofNat (128 + n / 64 % 64), .ofNat (128 + n % 64)] = n := by
    rw [codeOf_cons_tail, codeOf_cons_tail, codeOf, List.foldl_nil]
    omega
  have continues : [UInt8.ofNat (128 + n % 64)].all isContinuation = true := by
    rw [List.all_cons, isContinuation_tail]
    rfl
  exact nextChar_of_leadByte first inside continues bits bs

theorem nextChar_four (least : 0x10000 ≤ n) (most : n < 0x110000) (bs : Bytes) :
    nextChar (.ofNat (0xF0 + n / 262144))
        (.ofNat (128 + n / 4096 % 64) :: .ofNat (128 + n / 64 % 64) :: .ofNat (128 + n % 64) :: bs) =
      .ok (Char.ofNat n, 3) := by
  have first := leadByte_four (n / 262144) (by omega)
  have inside := @tail_between (n / 262144 = 0) (n / 262144 = 4) _ _ 0x90 0x8F (n / 4096)
    (fun _ => by change 144 ≤ _; omega) (fun _ => by change _ ≤ 143; omega)
  have bits : codeOf (n / 262144)
      [.ofNat (128 + n / 4096 % 64), .ofNat (128 + n / 64 % 64), .ofNat (128 + n % 64)] = n := by
    rw [codeOf_cons_tail, codeOf_cons_tail, codeOf_cons_tail, codeOf, List.foldl_nil]
    omega
  have continues : [UInt8.ofNat (128 + n / 64 % 64), .ofNat (128 + n % 64)].all isContinuation = true := by
    rw [List.all_cons, List.all_cons, isContinuation_tail, isContinuation_tail]
    rfl
  exact nextChar_of_leadByte first inside continues bits bs

/-- Of the bytes of a character the first tells the others, and no byte behind them matters. -/
theorem nextChar_utf8Char (c : Char) :
    ∃ b more, utf8Char c = b :: more ∧ ∀ bs, nextChar b (more ++ bs) = .ok (c, more.length) := by
  have char : Char.ofNat c.toNat = c := Char.ofNat_toNat c
  have valid : c.toNat < 0xD800 ∨ 0xDFFF < c.toNat ∧ c.toNat < 0x110000 := c.valid
  rw [utf8Char]
  dsimp only
  split
  · rename_i one
    exact ⟨_, _, rfl, fun bs => by rw [List.nil_append, nextChar_one one, char]; rfl⟩
  split
  · rename_i more two
    exact ⟨_, _, rfl, fun bs => by rw [List.singleton_append, nextChar_two (by omega) two, char]; rfl⟩
  split
  · rename_i more three
    exact ⟨_, _, rfl, fun bs => (nextChar_three (by omega) three (by omega) bs).trans (by rw [char]; rfl)⟩
  · exact ⟨_, _, rfl, fun bs => (nextChar_four (by omega) (by omega) bs).trans (by rw [char]; rfl)⟩

end Characters

theorem decodeFrom_encodeUtf8 (cs : List Char) (position : Nat) : decodeFrom position (encodeUtf8 cs) = .ok cs := by
  induction cs generalizing position with
  | nil => rw [encodeUtf8, List.flatMap_nil, decodeFrom]
  | cons c cs ih =>
    obtain ⟨b, more, bytes, next⟩ := nextChar_utf8Char c
    have split : encodeUtf8 (c :: cs) = b :: (more ++ encodeUtf8 cs) := by
      rw [encodeUtf8, List.flatMap_cons, bytes, List.cons_append, ← encodeUtf8]
    rw [split, decodeFrom, next]
    dsimp only
    rw [List.drop_left, ih]
    rfl

/-- What is written is read back. -/
theorem decodeUtf8_encodeUtf8 (cs : List Char) : decodeUtf8 (encodeUtf8 cs) = .ok cs :=
  decodeFrom_encodeUtf8 cs 0

end Stencil
