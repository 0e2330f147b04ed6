import Mathlib.Algebra.Group.Nat.Defs
import Mathlib.Data.List.Lex
import Mathlib.Tactic.Common
import Mathlib.Tactic.Ring

/-! Numbers as byte strings of a fixed width, the highest byte first, so that the
order of the strings is the order of the numbers. -/

instance UInt8.linearOrder : LinearOrder UInt8 where
  le_refl := UInt8.le_refl
  le_trans := fun _ _ _ => UInt8.le_trans
  le_antisymm := fun _ _ => UInt8.le_antisymm
  le_total := UInt8.le_total
  lt_iff_le_not_ge := by
    intro left right
    rw [UInt8.lt_iff_toNat_lt, UInt8.le_iff_toNat_le, UInt8.le_iff_toNat_le]
    omega
  toDecidableLE := inferInstance
  toDecidableEq := inferInstance
  toDecidableLT := inferInstance

namespace BigEndian

/-- The bytes of a number below `256 ^ width`. -/
def bytes : Nat → Nat → List UInt8
  | 0, _ => []
  | width + 1, n => UInt8.ofNat (n / 256 ^ width) :: bytes width (n % 256 ^ width)

/-- The number that the bytes are. -/
def value (digits : List UInt8) : Nat :=
  digits.foldl (fun n digit => n * 256 + digit.toNat) 0

theorem toNat_first {width n : Nat} (hn : n < 256 ^ (width + 1)) :
    (UInt8.ofNat (n / 256 ^ width)).toNat = n / 256 ^ width := by
  apply UInt8.toNat_ofNat_of_lt
  rw [Nat.pow_succ] at hn
  exact Nat.div_lt_of_lt_mul hn

/-- Bytewise order is the order of the numbers. -/
theorem bytes_lt_bytes_iff {width n m : Nat} (hn : n < 256 ^ width) (hm : m < 256 ^ width) :
    bytes width n < bytes width m ↔ n < m := by
  induction width generalizing n m with
  | zero =>
    rw [Nat.pow_zero] at hn hm
    simp only [bytes, List.lt_irrefl, false_iff]
    omega
  | succ width ih =>
    have hpos : 0 < 256 ^ width := Nat.pow_pos (by decide)
    have htail := ih (Nat.mod_lt n hpos) (Nat.mod_lt m hpos)
    have hsplit : n < m ↔ n / 256 ^ width < m / 256 ^ width ∨
        n / 256 ^ width = m / 256 ^ width ∧ n % 256 ^ width < m % 256 ^ width := by
      have hdivn := Nat.div_add_mod n (256 ^ width)
      have hdivm := Nat.div_add_mod m (256 ^ width)
      have hmodn := Nat.mod_lt n hpos
      have hmodm := Nat.mod_lt m hpos
      constructor
      · intro hless
        obtain hquot | hquot | hquot := Nat.lt_trichotomy (n / 256 ^ width) (m / 256 ^ width)
        · exact .inl hquot
        · rw [hquot] at hdivn
          exact .inr ⟨hquot, by omega⟩
        · exact absurd (Nat.div_le_div_right hless.le) (not_le.mpr hquot)
      · rintro (hquot | ⟨hquot, hrest⟩)
        · exact Nat.lt_of_div_lt_div hquot
        · rw [hquot] at hdivn
          omega
    rw [bytes, bytes, List.cons_lt_cons_iff, htail, hsplit, UInt8.lt_iff_toNat_lt,
      ← UInt8.toNat_inj, toNat_first hn, toNat_first hm]

theorem length_bytes (width n : Nat) : (bytes width n).length = width := by
  induction width generalizing n with
  | zero => rfl
  | succ width ih => rw [bytes, List.length_cons, ih]

theorem foldl_value (digits : List UInt8) (n : Nat) :
    digits.foldl (fun n digit => n * 256 + digit.toNat) n =
      n * 256 ^ digits.length + value digits := by
  induction digits generalizing n with
  | nil => simp [value]
  | cons digit digits ih =>
    rw [value, List.foldl_cons, List.foldl_cons, ih, ih (0 * 256 + digit.toNat), List.length_cons,
      Nat.pow_succ]
    ring

theorem value_cons (digit : UInt8) (digits : List UInt8) :
    value (digit :: digits) = digit.toNat * 256 ^ digits.length + value digits := by
  rw [value, List.foldl_cons, foldl_value, Nat.zero_mul, Nat.zero_add]

theorem value_lt (digits : List UInt8) : value digits < 256 ^ digits.length := by
  induction digits with
  | nil => exact Nat.one_pos
  | cons digit digits ih =>
    have hdigit : digit.toNat + 1 ≤ 256 := digit.toNat_lt
    calc value (digit :: digits)
        = digit.toNat * 256 ^ digits.length + value digits := value_cons digit digits
      _ < (digit.toNat + 1) * 256 ^ digits.length := by
        rw [Nat.succ_mul]
        exact Nat.add_lt_add_left ih _
      _ ≤ 256 * 256 ^ digits.length := Nat.mul_le_mul_right _ hdigit
      _ = 256 ^ (digit :: digits).length := by rw [List.length_cons, Nat.pow_succ, Nat.mul_comm]

/-- What was written is read back. -/
theorem value_bytes {width n : Nat} (hn : n < 256 ^ width) : value (bytes width n) = n := by
  induction width generalizing n with
  | zero =>
    rw [Nat.pow_zero] at hn
    exact (Nat.lt_one_iff.mp hn).symm
  | succ width ih =>
    have hpos : 0 < 256 ^ width := Nat.pow_pos (by decide)
    rw [bytes, value_cons, length_bytes, ih (Nat.mod_lt n hpos), toNat_first hn]
    exact Nat.div_add_mod' n (256 ^ width)

/-- Every byte string is what its number is written as. -/
theorem bytes_value (digits : List UInt8) : bytes digits.length (value digits) = digits := by
  induction digits with
  | nil => rfl
  | cons digit digits ih =>
    have hlt := value_lt digits
    have hpos : 0 < 256 ^ digits.length := Nat.pow_pos (by decide)
    have hvalue := value_cons digit digits
    have hdiv : value (digit :: digits) / 256 ^ digits.length = digit.toNat := by
      rw [hvalue, Nat.mul_comm, Nat.mul_add_div hpos, Nat.div_eq_of_lt hlt, Nat.add_zero]
    have hmod : value (digit :: digits) % 256 ^ digits.length = value digits := by
      rw [hvalue, Nat.mul_comm, Nat.mul_add_mod, Nat.mod_eq_of_lt hlt]
    rw [List.length_cons, bytes, hdiv, hmod, ih, UInt8.ofNat_toNat]

theorem bytes_inj {width n m : Nat} (hn : n < 256 ^ width) (hm : m < 256 ^ width) :
    bytes width n = bytes width m ↔ n = m := by
  constructor
  · intro heq
    rw [← value_bytes hn, heq, value_bytes hm]
  · rintro rfl
    rfl

end BigEndian
