import Mathlib.Algebra.Order.Field.Rat
import Mathlib.Data.Nat.Digits.Defs
import Mathlib.Order.Compare
import Mathlib.Tactic.FieldSimp
import Mathlib.Tactic.IntervalCases
import Mathlib.Tactic.Linarith
import Mathlib.Tactic.Positivity
import Mathlib.Tactic.Ring

/-- A decimal number: an integer with a number of digits after the point. -/
structure Decimal where
  mantissa : Int
  scale : Nat
  deriving DecidableEq

namespace Decimal

/-- The rational number a decimal stands for. -/
def value (d : Decimal) : ℚ := d.mantissa / 10 ^ d.scale

/-- The mantissa of a decimal written with at least its own number of digits
after the point. -/
def mantissaAt (d : Decimal) (scale : Nat) : Int := d.mantissa * 10 ^ (scale - d.scale)

theorem value_eq_mantissaAt (d : Decimal) {scale : Nat} (hscale : d.scale ≤ scale) :
    d.value = d.mantissaAt scale / 10 ^ scale := by
  have hsplit : (10 : ℚ) ^ scale = 10 ^ (scale - d.scale) * 10 ^ d.scale := by
    rw [← pow_add, Nat.sub_add_cancel hscale]
  unfold value mantissaAt
  rw [hsplit]
  push_cast
  field_simp

def add (lhs rhs : Decimal) : Decimal :=
  let scale := max lhs.scale rhs.scale
  ⟨lhs.mantissaAt scale + rhs.mantissaAt scale, scale⟩

theorem value_add (lhs rhs : Decimal) : (lhs.add rhs).value = lhs.value + rhs.value := by
  rw [value_eq_mantissaAt lhs (le_max_left lhs.scale rhs.scale),
    value_eq_mantissaAt rhs (le_max_right lhs.scale rhs.scale)]
  unfold add value
  push_cast
  rw [add_div]

def neg (d : Decimal) : Decimal := ⟨-d.mantissa, d.scale⟩

theorem value_neg (d : Decimal) : d.neg.value = -d.value := by
  unfold neg value
  push_cast
  rw [neg_div]

def cmp (lhs rhs : Decimal) : Ordering :=
  let scale := max lhs.scale rhs.scale
  compare (lhs.mantissaAt scale) (rhs.mantissaAt scale)

theorem cmp_eq (lhs rhs : Decimal) : lhs.cmp rhs = compare lhs.value rhs.value := by
  rw [value_eq_mantissaAt lhs (le_max_left lhs.scale rhs.scale),
    value_eq_mantissaAt rhs (le_max_right lhs.scale rhs.scale)]
  unfold cmp
  have hmono : StrictMono (fun n : Int => (n : ℚ) / 10 ^ max lhs.scale rhs.scale) := by
    intro left right hlt
    have hcast : (left : ℚ) < right := by exact_mod_cast hlt
    exact (div_lt_div_iff_of_pos_right (by positivity)).mpr hcast
  rw [← cmp_eq_compare, ← cmp_eq_compare, ← hmono.cmp_map_eq]

/-- Drop the zeros at the end of the fraction. -/
def normalize (mantissa : Int) : Nat → Decimal
  | 0 => ⟨mantissa, 0⟩
  | scale + 1 =>
    if mantissa % 10 = 0 then normalize (mantissa / 10) scale else ⟨mantissa, scale + 1⟩

def normalized (d : Decimal) : Decimal := normalize d.mantissa d.scale

theorem value_normalize (mantissa : Int) (scale : Nat) :
    (normalize mantissa scale).value = value ⟨mantissa, scale⟩ := by
  induction scale generalizing mantissa with
  | zero => rfl
  | succ scale ih =>
    unfold normalize
    split
    · rename_i hmod
      have hdiv : mantissa = mantissa / 10 * 10 := by omega
      rw [ih]
      unfold value
      rw [pow_succ]
      conv_rhs => rw [hdiv]
      push_cast
      field_simp
    · rfl

theorem value_normalized (d : Decimal) : d.normalized.value = d.value :=
  value_normalize d.mantissa d.scale

def digitChar (digit : Nat) : Char := Char.ofNat (48 + digit)

def digitValue (c : Char) : Nat := c.toNat - 48

theorem isDigit_digitChar {digit : Nat} (hdigit : digit < 10) : (digitChar digit).isDigit := by
  interval_cases digit <;> decide

theorem digitValue_digitChar {digit : Nat} (hdigit : digit < 10) :
    digitValue (digitChar digit) = digit := by
  interval_cases digit <;> decide

/-- The digits of the absolute mantissa, lowest first, with at least one digit
before the point. -/
def digits (d : Decimal) : List Nat :=
  let digits := Nat.digits 10 d.mantissa.natAbs
  digits ++ List.replicate (d.scale + 1 - digits.length) 0

theorem ofDigits_digits (d : Decimal) : Nat.ofDigits 10 d.digits = d.mantissa.natAbs := by
  unfold digits
  rw [Nat.ofDigits_append_replicate_zero, Nat.ofDigits_digits]

theorem scale_lt_length_digits (d : Decimal) : d.scale < d.digits.length := by
  unfold digits
  rw [List.length_append, List.length_replicate]
  omega

theorem lt_ten_of_mem_digits {d : Decimal} {digit : Nat} (hmem : digit ∈ d.digits) :
    digit < 10 := by
  unfold digits at hmem
  rcases List.mem_append.mp hmem with hmem | hmem
  · exact Nat.digits_lt_base (by omega) hmem
  · have hzero := List.eq_of_mem_replicate hmem
    omega

/-- The text of a list of digits given lowest first. -/
def digitText (digits : List Nat) : List Char := digits.reverse.map digitChar

/-- The text of a decimal without its sign. -/
def unsignedText (d : Decimal) : List Char :=
  let fraction := digitText (d.digits.take d.scale)
  digitText (d.digits.drop d.scale) ++ if fraction = [] then [] else '.' :: fraction

def toString (d : Decimal) : String :=
  String.ofList (if d.mantissa < 0 then '-' :: d.unsignedText else d.unsignedText)

/-- Read a number without its sign: digits with at most one point among them. -/
def parseUnsigned (text : List Char) : Option (Nat × Nat) :=
  let lead := text.takeWhile (· ≠ '.')
  let trail := (text.dropWhile (· ≠ '.')).drop 1
  let digits := lead ++ trail
  if digits ≠ [] ∧ digits.all Char.isDigit then
    some (Nat.ofDigits 10 (digits.reverse.map digitValue), trail.length)
  else
    none

def parse (text : String) : Option Decimal :=
  match text.toList with
  | '-' :: rest => (parseUnsigned rest).map fun (magnitude, scale) => ⟨-magnitude, scale⟩
  | '+' :: rest => (parseUnsigned rest).map fun (magnitude, scale) => ⟨magnitude, scale⟩
  | rest => (parseUnsigned rest).map fun (magnitude, scale) => ⟨magnitude, scale⟩

theorem isDigit_of_mem_digitText {digits : List Nat} (hdigits : ∀ digit ∈ digits, digit < 10)
    {c : Char} (hmem : c ∈ digitText digits) : c.isDigit := by
  unfold digitText at hmem
  obtain ⟨digit, hdigit, rfl⟩ := List.mem_map.mp hmem
  exact isDigit_digitChar (hdigits digit (List.mem_reverse.mp hdigit))

theorem map_digitValue_digitText {digits : List Nat} (hdigits : ∀ digit ∈ digits, digit < 10) :
    (digitText digits).reverse.map digitValue = digits := by
  unfold digitText
  rw [← List.map_reverse, List.reverse_reverse, List.map_map]
  conv_rhs => rw [← List.map_id digits]
  apply List.map_congr_left
  intro digit hmem
  exact digitValue_digitChar (hdigits digit hmem)

theorem digitText_drop_append_take (d : Decimal) :
    digitText (d.digits.drop d.scale) ++ digitText (d.digits.take d.scale) =
      digitText d.digits := by
  unfold digitText
  rw [← List.map_append, ← List.reverse_append, List.take_append_drop]

theorem length_digitText_take (d : Decimal) :
    (digitText (d.digits.take d.scale)).length = d.scale := by
  have hlength := d.scale_lt_length_digits
  unfold digitText
  rw [List.length_map, List.length_reverse, List.length_take]
  omega

/-- The printed magnitude reads back as the magnitude and the scale. -/
theorem parseUnsigned_unsignedText (d : Decimal) :
    parseUnsigned d.unsignedText = some (d.mantissa.natAbs, d.scale) := by
  let lead := digitText (d.digits.drop d.scale)
  let fraction := digitText (d.digits.take d.scale)
  have hlead : ∀ c ∈ lead, decide (c ≠ '.') = true := by
    intro c hmem
    have hdigit := isDigit_of_mem_digitText
      (fun digit hdigit => lt_ten_of_mem_digits (List.mem_of_mem_drop hdigit)) hmem
    apply decide_eq_true
    rintro rfl
    exact absurd hdigit (by decide)
  have htake : d.unsignedText.takeWhile (· ≠ '.') = lead := by
    unfold unsignedText
    rw [List.takeWhile_append_of_pos hlead]
    split <;> simp [lead]
  have hdrop : (d.unsignedText.dropWhile (· ≠ '.')).drop 1 = fraction := by
    unfold unsignedText
    rw [List.dropWhile_append_of_pos hlead]
    split
    · rename_i hempty
      simpa [fraction] using hempty.symm
    · simp [fraction]
  have hdigits : lead ++ fraction = digitText d.digits := digitText_drop_append_take d
  have hnonempty : digitText d.digits ≠ [] := by
    have hlength := d.scale_lt_length_digits
    intro hempty
    have hzero := congrArg List.length hempty
    simp only [digitText, List.length_map, List.length_reverse, List.length_nil] at hzero
    omega
  have hall : (digitText d.digits).all Char.isDigit = true := by
    rw [List.all_eq_true]
    intro c hmem
    exact isDigit_of_mem_digitText (fun digit => lt_ten_of_mem_digits) hmem
  unfold parseUnsigned
  simp only [htake, hdrop, hdigits]
  rw [if_pos ⟨hnonempty, hall⟩, map_digitValue_digitText (fun digit => lt_ten_of_mem_digits),
    ofDigits_digits, length_digitText_take]

theorem unsignedText_eq_cons (d : Decimal) :
    ∃ c rest, d.unsignedText = c :: rest ∧ c.isDigit := by
  have hlength := d.scale_lt_length_digits
  unfold unsignedText
  cases hlead : digitText (d.digits.drop d.scale) with
  | nil =>
    have hzero := congrArg List.length hlead
    simp only [digitText, List.length_map, List.length_reverse, List.length_drop,
      List.length_nil] at hzero
    omega
  | cons c rest =>
    refine ⟨c, _, List.cons_append, ?_⟩
    apply isDigit_of_mem_digitText
      (fun digit hdigit => lt_ten_of_mem_digits (List.mem_of_mem_drop hdigit))
    rw [hlead]
    exact List.mem_cons_self

/-- A printed decimal parses back to itself. -/
theorem parse_toString (d : Decimal) : parse d.toString = some d := by
  have hunsigned := parseUnsigned_unsignedText d
  unfold parse toString
  rw [String.toList_ofList]
  by_cases hneg : d.mantissa < 0
  · have habs : -(d.mantissa.natAbs : Int) = d.mantissa := by omega
    simp only [hneg, ↓reduceIte, hunsigned, Option.map_some, habs]
  · have habs : (d.mantissa.natAbs : Int) = d.mantissa := by omega
    obtain ⟨c, rest, htext, hdigit⟩ := unsignedText_eq_cons d
    rw [if_neg hneg]
    split
    · rename_i tail htail
      rw [htext] at htail
      cases htail
      exact absurd hdigit (by decide)
    · rename_i tail htail
      rw [htext] at htail
      cases htail
      exact absurd hdigit (by decide)
    · simp only [hunsigned, Option.map_some, habs]

end Decimal
