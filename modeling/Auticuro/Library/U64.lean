import Mathlib.Algebra.Group.Nat.Defs
import Mathlib.Tactic.Common

/-! Machine arithmetic on natural numbers below `2 ^ 64`. -/

namespace U64

/-- The number of values, one more than the largest of them. -/
def size : Nat := 2 ^ 64

/-- Addition that wraps around. -/
def wrapping_add (lhs rhs : Nat) : Nat := (lhs + rhs) % size

/-- Addition, `none` where it overflows. -/
def checked_add (lhs rhs : Nat) : Option Nat :=
  if lhs + rhs < size then some (lhs + rhs) else none

/-- Subtraction, `none` where it underflows. -/
def checked_sub (lhs rhs : Nat) : Option Nat :=
  if rhs ≤ lhs then some (lhs - rhs) else none

variable {lhs rhs : Nat}

theorem wrapping_add_of_lt (hlt : lhs + rhs < size) : wrapping_add lhs rhs = lhs + rhs :=
  Nat.mod_eq_of_lt hlt

/-- A sum of two machine numbers that does not fit comes out below both. -/
theorem wrapping_add_of_le (hlhs : lhs < size) (hrhs : rhs < size) (hle : size ≤ lhs + rhs) :
    wrapping_add lhs rhs = lhs + rhs - size := by
  unfold wrapping_add
  rw [Nat.mod_eq_sub_mod hle, Nat.mod_eq_of_lt (by omega)]

/-- A sum that does not fit comes out below the number that is added to. -/
theorem wrapping_add_lt (hrhs : rhs < size) (hover : size ≤ lhs + rhs) :
    wrapping_add lhs rhs < lhs := by
  by_cases hlhs : lhs < size
  · rw [wrapping_add_of_le hlhs hrhs hover]
    omega
  · exact Nat.lt_of_lt_of_le (Nat.mod_lt _ (by decide)) (Nat.not_lt.mp hlhs)

theorem checked_add_eq_some_iff {lhs rhs sum : Nat} :
    checked_add lhs rhs = some sum ↔ lhs + rhs < size ∧ sum = lhs + rhs := by
  unfold checked_add
  split
  · rename_i hfits
    simp only [hfits, Option.some.injEq, true_and, eq_comm]
  · rename_i hover
    simp [hover]

theorem checked_sub_of_le (hle : rhs ≤ lhs) : checked_sub lhs rhs = some (lhs - rhs) :=
  if_pos hle

end U64
