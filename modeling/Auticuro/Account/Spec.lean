import Auticuro.Account
import Auticuro.Library.Exec

open Exec

namespace firm_wallet.accountpb

open errors balance_calculator balance_operation_servicepb

variable {B : BigDecimal}

theorem Account.assert_state_is_normal_ok_iff {self : Account} {done : Unit} :
    self.assert_state_is_normal = .ok done ↔ self.state = .Normal := by
  unfold assert_state_is_normal
  by_cases hstate : self.state = .Normal
  · simp [hstate]
  · simp [hstate]

theorem Account.validate_state_transition_ok_iff {self : Account} {target_state : AccountState}
    {done : Unit} :
    self.validate_state_transition target_state = .ok done ↔
      (self.state = .Normal ∧ (target_state = .Locked ∨ target_state = .Deleted)) ∨
      (self.state = .Locked ∧ target_state = .Normal) := by
  unfold validate_state_transition
  cases self.state <;> cases target_state <;> simp [LEGAL_TRANSITIONS, Option.filter]

/-- A successful balance increase: only the available balance changes, to the
printed sum, and the change records the balances on both sides of it. -/
theorem Account.increase_balance_by_ok_iff {self : Account} {amount : String}
    {result : Account × BalanceChange} :
    self.increase_balance_by B amount = .ok result ↔
      self.state = .Normal ∧ ∃ new_balance,
        BalanceCalculator.add B self.balance.available amount = .ok new_balance ∧
        self.validate_balance_limitation B new_balance = .ok () ∧
        result = (self.set_available new_balance,
          ⟨self.account_id, self.balance, (self.set_available new_balance).balance⟩) := by
  unfold increase_balance_by
  rw [bind_eq_ok_iff]
  constructor
  · rintro ⟨done, hnormal, hrest⟩
    obtain ⟨new_balance, hadd, hrest⟩ := bind_eq_ok_iff.mp hrest
    obtain ⟨⟨⟩, hlimit, hrest⟩ := bind_eq_ok_iff.mp hrest
    exact ⟨assert_state_is_normal_ok_iff.mp hnormal, new_balance, hadd, hlimit,
      (pure_eq_ok_iff.mp hrest).symm⟩
  · rintro ⟨hnormal, new_balance, hadd, hlimit, rfl⟩
    refine ⟨(), assert_state_is_normal_ok_iff.mpr hnormal, ?_⟩
    rw [bind_eq_ok_iff]
    refine ⟨new_balance, hadd, ?_⟩
    rw [bind_eq_ok_iff]
    exact ⟨(), hlimit, rfl⟩

variable {self updated : Account}

/-- A successful reservation debits the available balance like a balance
increase by the negated amount, under an id that was free. -/
theorem Account.reserve_ok {reservation_id amount : String}
    (hreserve : self.reserve B reservation_id amount = .ok updated) :
    Account.assert_amount_gt_zero B amount = .ok () ∧
      self.balance.reservations.lookup reservation_id = none ∧
      ∃ neg_amount debited change, BalanceCalculator.neg B amount = .ok neg_amount ∧
        self.increase_balance_by B neg_amount = .ok (debited, change) ∧
        updated = debited.insert_reservation reservation_id amount := by
  unfold reserve at hreserve
  obtain ⟨_, _, hreserve⟩ := bind_eq_ok_iff.mp hreserve
  obtain ⟨⟨⟩, hpositive, hreserve⟩ := bind_eq_ok_iff.mp hreserve
  split at hreserve
  · cases hreserve
  · rename_i hfree
    obtain ⟨neg_amount, hneg, hreserve⟩ := bind_eq_ok_iff.mp hreserve
    obtain ⟨⟨debited, change⟩, hincrease, hreserve⟩ := bind_eq_ok_iff.mp hreserve
    exact ⟨hpositive, by simpa using hfree, neg_amount, debited, change, hneg, hincrease,
      (pure_eq_ok_iff.mp hreserve).symm⟩

theorem Account.release_all_ok {reservation_id : String}
    (hrelease : self.release_all B reservation_id = .ok updated) :
    ∃ reservation_amount credited change,
      self.balance.reservations.lookup reservation_id = some reservation_amount ∧
      self.increase_balance_by B reservation_amount = .ok (credited, change) ∧
      updated = credited.remove_reservation reservation_id := by
  unfold release_all at hrelease
  obtain ⟨_, _, hrelease⟩ := bind_eq_ok_iff.mp hrelease
  obtain ⟨reservation_amount, hfound, hrelease⟩ := bind_eq_ok_iff.mp hrelease
  obtain ⟨⟨credited, change⟩, hincrease, hrelease⟩ := bind_eq_ok_iff.mp hrelease
  unfold assert_reservation_exists at hfound
  split at hfound
  · rename_i found hlookup
    cases hfound
    exact ⟨reservation_amount, credited, change, hlookup, hincrease,
      (pure_eq_ok_iff.mp hrelease).symm⟩
  · cases hfound

/-- A successful partial release compares not greater with the reservation.
On equality it releases all; otherwise it keeps the remainder. -/
theorem Account.partial_release_ok {reservation_id amount : String}
    (hrelease : self.partial_release B reservation_id amount = .ok updated) :
    Account.assert_amount_gt_zero B amount = .ok () ∧
      ∃ reservation_amount,
        self.balance.reservations.lookup reservation_id = some reservation_amount ∧
        ((BalanceCalculator.cmp B amount reservation_amount = .ok .eq ∧
            self.release_all B reservation_id = .ok updated) ∨
          (BalanceCalculator.cmp B amount reservation_amount = .ok .lt ∧
            ∃ credited change neg_amount remained_amount,
              self.increase_balance_by B amount = .ok (credited, change) ∧
              BalanceCalculator.neg B amount = .ok neg_amount ∧
              BalanceCalculator.add B reservation_amount neg_amount = .ok remained_amount ∧
              updated = credited.insert_reservation reservation_id remained_amount)) := by
  unfold partial_release at hrelease
  obtain ⟨_, _, hrelease⟩ := bind_eq_ok_iff.mp hrelease
  obtain ⟨⟨⟩, hpositive, hrelease⟩ := bind_eq_ok_iff.mp hrelease
  obtain ⟨reservation_amount, hfound, hrelease⟩ := bind_eq_ok_iff.mp hrelease
  obtain ⟨ordering, hcmp, hrelease⟩ := bind_eq_ok_iff.mp hrelease
  unfold assert_reservation_exists at hfound
  split at hfound
  · rename_i found hlookup
    cases hfound
    refine ⟨hpositive, reservation_amount, hlookup, ?_⟩
    cases ordering with
    | gt => cases hrelease
    | eq => exact .inl ⟨hcmp, hrelease⟩
    | lt =>
      obtain ⟨⟨credited, change⟩, hincrease, hrelease⟩ := bind_eq_ok_iff.mp hrelease
      obtain ⟨neg_amount, hneg, hrelease⟩ := bind_eq_ok_iff.mp hrelease
      obtain ⟨remained_amount, hremained, hrelease⟩ := bind_eq_ok_iff.mp hrelease
      exact .inr ⟨hcmp, credited, change, neg_amount, remained_amount, hincrease, hneg, hremained,
        (pure_eq_ok_iff.mp hrelease).symm⟩
  · cases hfound

theorem Account.lock_ok (hlock : self.lock = .ok updated) :
    self.state = .Normal ∧ updated = { self with state := .Locked } := by
  unfold lock at hlock
  obtain ⟨_, hvalid, hlock⟩ := bind_eq_ok_iff.mp hlock
  rw [validate_state_transition_ok_iff] at hvalid
  exact ⟨by simpa using hvalid, (pure_eq_ok_iff.mp hlock).symm⟩

theorem Account.unlock_ok (hunlock : self.unlock = .ok updated) :
    self.state = .Locked ∧ updated = { self with state := .Normal } := by
  unfold unlock at hunlock
  obtain ⟨_, hvalid, hunlock⟩ := bind_eq_ok_iff.mp hunlock
  rw [validate_state_transition_ok_iff] at hvalid
  exact ⟨by simpa using hvalid, (pure_eq_ok_iff.mp hunlock).symm⟩

theorem Account.delete_ok (hdelete : self.delete B = .ok updated) :
    self.state = .Normal ∧ self.balance.reservations = ∅ ∧
      BalanceCalculator.cmp B self.balance.available Balance.ZERO = .ok .eq ∧
      updated = { self with state := .Deleted } := by
  unfold delete at hdelete
  obtain ⟨_, hvalid, hdelete⟩ := bind_eq_ok_iff.mp hdelete
  obtain ⟨_, hzero, hdelete⟩ := bind_eq_ok_iff.mp hdelete
  rw [validate_state_transition_ok_iff] at hvalid
  unfold assert_balance_is_zero at hzero
  simp only at hzero
  split at hzero
  · rename_i hempty
    obtain ⟨ordering, hcmp, hzero⟩ := bind_eq_ok_iff.mp hzero
    split at hzero
    · rename_i heq
      rw [heq] at hcmp
      exact ⟨by simpa using hvalid, hempty, hcmp, (pure_eq_ok_iff.mp hdelete).symm⟩
    · cases hzero
  · cases hzero

end firm_wallet.accountpb
