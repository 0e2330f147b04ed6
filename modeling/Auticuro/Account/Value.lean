import Auticuro.Account.Spec
import Auticuro.Library.Finmap
import Mathlib.Tactic.Ring

open Exec

namespace firm_wallet

open errors balance_calculator balance_operation_servicepb

namespace balance_calculator

variable (B : BigDecimal) (value : B.Decimal → ℚ)

/-- The number that a text stands for, if it parses. -/
def BigDecimal.number (text : String) : Option ℚ :=
  (B.from_str text).toOption.map value

/-- The number that a text stands for, nothing if it does not parse. -/
def BigDecimal.amount (text : String) : ℚ :=
  (B.number value text).getD 0

variable {B value}

theorem BigDecimal.amount_of_number {text : String} {x : ℚ}
    (hnumber : B.number value text = some x) : B.amount value text = x := by
  simp [amount, hnumber]

theorem BalanceCalculator.parse_ok {text : String} {decimal : B.Decimal}
    (hparse : BalanceCalculator.parse B text = .ok decimal) :
    B.number value text = some (value decimal) := by
  unfold parse at hparse
  unfold BigDecimal.number
  split at hparse
  · rename_i hfrom
    cases hparse
    rw [hfrom]
    rfl
  · cases hparse

theorem BalanceCalculator.parse_of_number {text : String} {x : ℚ}
    (hnumber : B.number value text = some x) :
    ∃ decimal, BalanceCalculator.parse B text = .ok decimal ∧ value decimal = x := by
  unfold BigDecimal.number at hnumber
  unfold parse
  cases hfrom : B.from_str text with
  | error err =>
    rw [hfrom] at hnumber
    cases hnumber
  | ok decimal =>
    rw [hfrom] at hnumber
    exact ⟨decimal, rfl, Option.some.inj hnumber⟩

namespace BigDecimal.Exact

variable (hB : B.Exact value)
include hB

theorem number_to_string (decimal : B.Decimal) :
    B.number value (B.to_string decimal) = some (value decimal) := by
  obtain ⟨parsed, hparsed, hvalue⟩ := hB.from_str_to_string decimal
  simp [number, hparsed, Except.toOption, hvalue]

theorem number_zero : B.number value accountpb.Balance.ZERO = some 0 := by
  obtain ⟨zero, hzero, hvalue⟩ := hB.from_str_zero
  simp [number, accountpb.Balance.ZERO, hzero, Except.toOption, hvalue]

theorem add_ok {lhs rhs result : String} (hadd : BalanceCalculator.add B lhs rhs = .ok result) :
    ∃ x y, B.number value lhs = some x ∧ B.number value rhs = some y ∧
      B.number value result = some (x + y) := by
  unfold BalanceCalculator.add at hadd
  obtain ⟨x, hx, hadd⟩ := bind_eq_ok_iff.mp hadd
  obtain ⟨y, hy, hadd⟩ := bind_eq_ok_iff.mp hadd
  obtain rfl := pure_eq_ok_iff.mp hadd
  refine ⟨value x, value y, BalanceCalculator.parse_ok hx, BalanceCalculator.parse_ok hy, ?_⟩
  rw [hB.number_to_string, hB.value_normalized, hB.value_add]

theorem neg_ok {input result : String} (hneg : BalanceCalculator.neg B input = .ok result) :
    ∃ x, B.number value input = some x ∧ B.number value result = some (-x) := by
  unfold BalanceCalculator.neg at hneg
  obtain ⟨x, hx, hneg⟩ := bind_eq_ok_iff.mp hneg
  obtain rfl := pure_eq_ok_iff.mp hneg
  refine ⟨value x, BalanceCalculator.parse_ok hx, ?_⟩
  rw [hB.number_to_string, hB.value_neg]

theorem cmp_ok {lhs rhs : String} {ordering : Ordering}
    (hcmp : BalanceCalculator.cmp B lhs rhs = .ok ordering) :
    ∃ x y, B.number value lhs = some x ∧ B.number value rhs = some y ∧
      ordering = compare x y := by
  unfold BalanceCalculator.cmp at hcmp
  obtain ⟨x, hx, hcmp⟩ := bind_eq_ok_iff.mp hcmp
  obtain ⟨y, hy, hcmp⟩ := bind_eq_ok_iff.mp hcmp
  obtain rfl := pure_eq_ok_iff.mp hcmp
  exact ⟨value x, value y, BalanceCalculator.parse_ok hx, BalanceCalculator.parse_ok hy,
    hB.cmp_eq x y⟩

theorem cmp_of_number {lhs rhs : String} {x y : ℚ} (hx : B.number value lhs = some x)
    (hy : B.number value rhs = some y) :
    BalanceCalculator.cmp B lhs rhs = .ok (compare x y) := by
  obtain ⟨left, hleft, rfl⟩ := BalanceCalculator.parse_of_number hx
  obtain ⟨right, hright, rfl⟩ := BalanceCalculator.parse_of_number hy
  unfold BalanceCalculator.cmp
  rw [hleft, hright, ← hB.cmp_eq]
  rfl

end BigDecimal.Exact

end balance_calculator

namespace accountpb

variable (B : BigDecimal) (value : B.Decimal → ℚ)

/-- Equal balances, decimals compared by value. -/
structure Balance.Same (left right : Balance) : Prop where
  available : B.number value left.available = B.number value right.available
  reservations : ∀ reservation_id,
    (left.reservations.lookup reservation_id).map (B.number value) =
      (right.reservations.lookup reservation_id).map (B.number value)

/-- Nothing available and nothing reserved. -/
structure Balance.IsZero (balance : Balance) : Prop where
  available : B.number value balance.available = some 0
  reservations : balance.reservations = ∅

/-- What is available together with everything that is reserved. -/
def Balance.total (balance : Balance) : ℚ :=
  B.amount value balance.available + balance.reservations.sumValues (B.amount value)

/-- A number, possibly negative, is added to what is available. -/
structure Balance.Increase (prev curr : Balance) (amount : ℚ) : Prop where
  available : ∃ x, B.number value prev.available = some x ∧
    B.number value curr.available = some (x + amount)
  reservations : curr.reservations = prev.reservations

/-- An amount moves from the available balance into a new reservation. -/
structure Balance.Reserve (prev curr : Balance) (reservation_id amount : String) (reserved : ℚ) :
    Prop where
  requested : B.number value amount = some reserved
  positive : 0 < reserved
  available : ∃ x, B.number value prev.available = some x ∧
    B.number value curr.available = some (x - reserved)
  free : prev.reservations.lookup reservation_id = none
  reservations : curr.reservations = prev.reservations.insert reservation_id amount

/-- An amount moves from a reservation back into the available balance. What is
left of the reservation stays reserved; nothing is left as no reservation. -/
structure Balance.Release (prev curr : Balance) (reservation_id : String) (held released : ℚ) :
    Prop where
  available : ∃ x, B.number value prev.available = some x ∧
    B.number value curr.available = some (x + released)
  stored : ∃ stored, prev.reservations.lookup reservation_id = some stored ∧
    B.number value stored = some held
  remaining :
    (released = held ∧ curr.reservations = prev.reservations.erase reservation_id) ∨
    (released < held ∧ ∃ remained, B.number value remained = some (held - released) ∧
      curr.reservations = prev.reservations.insert reservation_id remained)

variable {B value}

theorem Balance.same_equivalence : Equivalence (Balance.Same B value) where
  refl := fun _ => ⟨rfl, fun _ => rfl⟩
  symm := fun hsame => ⟨hsame.available.symm, fun id => (hsame.reservations id).symm⟩
  trans := fun hleft hright => ⟨hleft.available.trans hright.available,
    fun id => (hleft.reservations id).trans (hright.reservations id)⟩

theorem Balance.initial_isZero (hB : B.Exact value) : Balance.initial.IsZero B value :=
  ⟨hB.number_zero, rfl⟩

theorem Balance.IsZero.same {left right : Balance} (hleft : left.IsZero B value)
    (hright : right.IsZero B value) : left.Same B value right := by
  refine ⟨hleft.available.trans hright.available.symm, ?_⟩
  rw [hleft.reservations, hright.reservations]
  exact fun _ => rfl

theorem Balance.IsZero.total {balance : Balance} (hzero : balance.IsZero B value) :
    balance.total B value = 0 := by
  simp [Balance.total, BigDecimal.amount_of_number hzero.available, hzero.reservations]

theorem Balance.Increase.same {prev curr : Balance} (hincrease : prev.Increase B value curr 0) :
    prev.Same B value curr := by
  obtain ⟨x, hprev, hcurr⟩ := hincrease.available
  refine ⟨?_, ?_⟩
  · rw [hprev, hcurr, add_zero]
  · rw [hincrease.reservations]
    exact fun _ => rfl

theorem Balance.Reserve.total {prev curr : Balance} {reservation_id amount : String} {reserved : ℚ}
    (hreserve : prev.Reserve B value curr reservation_id amount reserved) :
    curr.total B value = prev.total B value := by
  obtain ⟨x, hprev, hcurr⟩ := hreserve.available
  unfold Balance.total
  rw [hreserve.reservations, Finmap.sumValues_insert, hreserve.free,
    BigDecimal.amount_of_number hprev, BigDecimal.amount_of_number hcurr,
    BigDecimal.amount_of_number hreserve.requested, Option.elim_none]
  ring

theorem Balance.Release.total {prev curr : Balance} {reservation_id : String} {held released : ℚ}
    (hrelease : prev.Release B value curr reservation_id held released) :
    curr.total B value = prev.total B value := by
  obtain ⟨x, hprev, hcurr⟩ := hrelease.available
  obtain ⟨stored, hlookup, hheld⟩ := hrelease.stored
  unfold Balance.total
  rw [BigDecimal.amount_of_number hprev, BigDecimal.amount_of_number hcurr]
  obtain ⟨hall, hreservations⟩ | ⟨_, remained, hremained, hreservations⟩ := hrelease.remaining
  · rw [hreservations, Finmap.sumValues_erase, hlookup, Option.elim_some,
      BigDecimal.amount_of_number hheld, hall]
    ring
  · rw [hreservations, Finmap.sumValues_insert, hlookup, Option.elim_some,
      BigDecimal.amount_of_number hheld, BigDecimal.amount_of_number hremained]
    ring

namespace Account

variable (hB : B.Exact value) {self updated : Account} {reservation_id amount : String}
include hB

theorem assert_amount_gt_zero_ok (hpositive : Account.assert_amount_gt_zero B amount = .ok ()) :
    ∃ x, B.number value amount = some x ∧ 0 < x := by
  unfold assert_amount_gt_zero at hpositive
  obtain ⟨ordering, hcmp, hpositive⟩ := bind_eq_ok_iff.mp hpositive
  obtain ⟨x, y, hx, hy, rfl⟩ := hB.cmp_ok hcmp
  obtain rfl : y = 0 := by simpa using hy.symm.trans hB.number_zero
  refine ⟨x, hx, ?_⟩
  split at hpositive
  · cases hpositive
  · rename_i hnot
    rw [compare_lt_iff_lt, compare_eq_iff_eq, not_or, not_lt] at hnot
    exact lt_of_le_of_ne hnot.1 (Ne.symm hnot.2)

/-- A balance increase adds the amount and records the balances on both sides. -/
theorem increase_balance_by_value {change : BalanceChange}
    (hincrease : self.increase_balance_by B amount = .ok (updated, change)) :
    ∃ y, B.number value amount = some y ∧
      self.balance.Increase B value updated.balance y ∧
      change = ⟨self.account_id, self.balance, updated.balance⟩ := by
  obtain ⟨_, new_balance, hadd, _, hresult⟩ := increase_balance_by_ok_iff.mp hincrease
  cases hresult
  obtain ⟨x, y, hx, hy, hsum⟩ := hB.add_ok hadd
  exact ⟨y, hy, ⟨⟨x, hx, hsum⟩, rfl⟩, rfl⟩

theorem reserve_value (hreserve : self.reserve B reservation_id amount = .ok updated) :
    ∃ reserved, self.balance.Reserve B value updated.balance reservation_id amount reserved := by
  obtain ⟨hpositive, hfree, neg_amount, debited, change, hneg, hincrease, rfl⟩ :=
    reserve_ok hreserve
  obtain ⟨reserved, hamount, hreserved⟩ := assert_amount_gt_zero_ok hB hpositive
  obtain ⟨y, hy, ⟨⟨x, hx, hsum⟩, hreservations⟩, _⟩ := increase_balance_by_value hB hincrease
  obtain ⟨z, hz, hminus⟩ := hB.neg_ok hneg
  cases hz.symm.trans hamount
  cases hy.symm.trans hminus
  refine ⟨reserved, hamount, hreserved, ⟨x, hx, ?_⟩, hfree, ?_⟩
  · rw [sub_eq_add_neg]
    exact hsum
  · change Finmap.insert _ _ debited.balance.reservations = _
    rw [hreservations]

theorem release_all_value (hrelease : self.release_all B reservation_id = .ok updated) :
    ∃ held, self.balance.Release B value updated.balance reservation_id held held := by
  obtain ⟨stored, credited, change, hlookup, hincrease, rfl⟩ := release_all_ok hrelease
  obtain ⟨held, hheld, ⟨havailable, hreservations⟩, _⟩ := increase_balance_by_value hB hincrease
  refine ⟨held, havailable, ⟨stored, hlookup, hheld⟩, .inl ⟨rfl, ?_⟩⟩
  change Finmap.erase _ credited.balance.reservations = _
  rw [hreservations]

theorem partial_release_value
    (hrelease : self.partial_release B reservation_id amount = .ok updated) :
    ∃ held released, B.number value amount = some released ∧
      self.balance.Release B value updated.balance reservation_id held released := by
  obtain ⟨hpositive, stored, hlookup, hcases⟩ := partial_release_ok hrelease
  obtain ⟨released, hamount, _⟩ := assert_amount_gt_zero_ok hB hpositive
  obtain ⟨hcmp, hall⟩ | ⟨hcmp, credited, change, neg_amount, remained_amount, hincrease, hneg,
    hremained, rfl⟩ := hcases
  · obtain ⟨held, hrelease⟩ := release_all_value hB hall
    obtain ⟨x, y, hx, hy, heq⟩ := hB.cmp_ok hcmp
    obtain ⟨found, hfound, hheld⟩ := hrelease.stored
    cases hlookup.symm.trans hfound
    cases hx.symm.trans hamount
    cases hy.symm.trans hheld
    rw [eq_comm, compare_eq_iff_eq] at heq
    exact ⟨held, released, hamount, heq ▸ hrelease⟩
  · obtain ⟨x, held, hx, hheld, hless⟩ := hB.cmp_ok hcmp
    obtain ⟨y, hy, ⟨havailable, hreservations⟩, _⟩ := increase_balance_by_value hB hincrease
    obtain ⟨z, hz, hminus⟩ := hB.neg_ok hneg
    obtain ⟨u, v, hu, hv, hdifference⟩ := hB.add_ok hremained
    cases hx.symm.trans hamount
    cases hy.symm.trans hamount
    cases hz.symm.trans hamount
    cases hu.symm.trans hheld
    cases hv.symm.trans hminus
    rw [eq_comm, compare_lt_iff_lt] at hless
    refine ⟨held, released, hamount, havailable,
      ⟨stored, hlookup, hheld⟩, .inr ⟨hless, remained_amount, ?_, ?_⟩⟩
    · rw [sub_eq_add_neg]
      exact hdifference
    · change Finmap.insert _ _ credited.balance.reservations = _
      rw [hreservations]

/-- A release takes the requested amount off the reservation, or all of it when
no amount is given. -/
theorem release_value
    (hrelease : (if amount = "" then self.release_all B reservation_id
      else self.partial_release B reservation_id amount) = .ok updated) :
    ∃ held released, (if amount = "" then released = held
        else B.number value amount = some released) ∧
      self.balance.Release B value updated.balance reservation_id held released := by
  split at hrelease
  · rename_i hamount
    obtain ⟨held, hrelease⟩ := release_all_value hB hrelease
    exact ⟨held, held, by rw [if_pos hamount], hrelease⟩
  · rename_i hamount
    obtain ⟨held, released, hreleased, hrelease⟩ := partial_release_value hB hrelease
    exact ⟨held, released, by rwa [if_neg hamount], hrelease⟩

theorem delete_isZero (hdelete : self.delete B = .ok updated) : self.balance.IsZero B value := by
  obtain ⟨_, hreservations, hcmp, _⟩ := delete_ok hdelete
  obtain ⟨x, y, hx, hy, heq⟩ := hB.cmp_ok hcmp
  cases hy.symm.trans hB.number_zero
  rw [eq_comm, compare_eq_iff_eq] at heq
  exact ⟨heq ▸ hx, hreservations⟩

end Account

end accountpb

end firm_wallet
