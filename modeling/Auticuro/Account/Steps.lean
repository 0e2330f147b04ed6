import Auticuro.Account.Spec
import Auticuro.Internal

namespace firm_wallet.accountpb

open errors balance_calculator balance_operation_servicepb account_management_servicepb
open internal_servicepb

variable {B : BigDecimal}

/-- A balance operation: the account was Normal and still is, and only its
balance may differ. -/
structure Account.BalanceStep (prev curr : Account) : Prop where
  account_id : curr.account_id = prev.account_id
  config : curr.config = prev.config
  prev_normal : prev.state = .Normal
  curr_normal : curr.state = .Normal

variable {self updated : Account}

theorem Account.increase_balance_by_step {amount : String} {change : BalanceChange}
    (hincrease : self.increase_balance_by B amount = .ok (updated, change)) :
    self.BalanceStep updated := by
  obtain ⟨hnormal, new_balance, _, _, hresult⟩ := increase_balance_by_ok_iff.mp hincrease
  cases hresult
  exact ⟨rfl, rfl, hnormal, hnormal⟩

theorem Account.reserve_step {reservation_id amount : String}
    (hreserve : self.reserve B reservation_id amount = .ok updated) : self.BalanceStep updated := by
  obtain ⟨_, _, neg_amount, debited, change, _, hincrease, rfl⟩ := reserve_ok hreserve
  obtain ⟨hid, hconfig, hprev, hcurr⟩ := increase_balance_by_step hincrease
  exact ⟨hid, hconfig, hprev, hcurr⟩

theorem Account.release_all_step {reservation_id : String}
    (hrelease : self.release_all B reservation_id = .ok updated) : self.BalanceStep updated := by
  obtain ⟨reservation_amount, credited, change, _, hincrease, rfl⟩ := release_all_ok hrelease
  obtain ⟨hid, hconfig, hprev, hcurr⟩ := increase_balance_by_step hincrease
  exact ⟨hid, hconfig, hprev, hcurr⟩

theorem Account.partial_release_step {reservation_id amount : String}
    (hrelease : self.partial_release B reservation_id amount = .ok updated) :
    self.BalanceStep updated := by
  obtain ⟨_, reservation_amount, _, ⟨_, hall⟩ | ⟨_, credited, change, neg_amount, remained_amount,
    hincrease, _, _, rfl⟩⟩ := partial_release_ok hrelease
  · exact release_all_step hall
  · obtain ⟨hid, hconfig, hprev, hcurr⟩ := increase_balance_by_step hincrease
    exact ⟨hid, hconfig, hprev, hcurr⟩

theorem Account.release_step {reservation_id amount : String}
    (hrelease : (if amount = "" then self.release_all B reservation_id
      else self.partial_release B reservation_id amount) = .ok updated) :
    self.BalanceStep updated := by
  split at hrelease
  · exact release_all_step hrelease
  · exact partial_release_step hrelease

/-- A balance operation that succeeded. -/
inductive Account.Operated (B : BigDecimal) (prev curr : Account) : Prop where
  | increase {amount : String} {change : BalanceChange}
      (hincrease : prev.increase_balance_by B amount = .ok (curr, change))
  | reserve {reservation_id amount : String}
      (hreserve : prev.reserve B reservation_id amount = .ok curr)
  | release {reservation_id amount : String}
      (hrelease : (if amount = "" then prev.release_all B reservation_id
        else prev.partial_release B reservation_id amount) = .ok curr)

theorem Account.Operated.step {prev curr : Account} (hoperated : prev.Operated B curr) :
    prev.BalanceStep curr := by
  cases hoperated with
  | increase hincrease => exact increase_balance_by_step hincrease
  | reserve hreserve => exact reserve_step hreserve
  | release hrelease => exact release_step hrelease

/-- Every balance operation is a balance increase, up to the reservations. -/
theorem Account.Operated.increased {prev curr : Account} (hoperated : prev.Operated B curr) :
    ∃ amount credited change, prev.increase_balance_by B amount = .ok (credited, change) ∧
      curr.config = credited.config ∧ curr.balance.available = credited.balance.available := by
  cases hoperated with
  | @increase amount change hincrease => exact ⟨amount, curr, change, hincrease, rfl, rfl⟩
  | reserve hreserve =>
    obtain ⟨_, _, neg_amount, debited, change, _, hincrease, rfl⟩ := reserve_ok hreserve
    exact ⟨neg_amount, debited, change, hincrease, rfl, rfl⟩
  | @release reservation_id amount hrelease =>
    have hall : ∀ {updated : Account}, prev.release_all B reservation_id = .ok updated →
        ∃ amount credited change, prev.increase_balance_by B amount = .ok (credited, change) ∧
          updated.config = credited.config ∧
          updated.balance.available = credited.balance.available := by
      intro updated hall
      obtain ⟨stored, credited, change, _, hincrease, rfl⟩ := release_all_ok hall
      exact ⟨stored, credited, change, hincrease, rfl, rfl⟩
    split at hrelease
    · exact hall hrelease
    · obtain ⟨_, _, _, ⟨_, hequal⟩ | ⟨_, credited, change, _, _, hincrease, _, _, rfl⟩⟩ :=
        partial_release_ok hrelease
      · exact hall hequal
      · exact ⟨amount, credited, change, hincrease, rfl, rfl⟩

/-- What a successful command makes of the account under an id that it writes.
Only a balance operation or a creation works without an account. -/
inductive Account.Written (B : BigDecimal) (payload : CommandPayload) (prev : Option Account) :
    Account → Prop where
  | create (account_id : String) (hprev : prev = none) :
      Written B payload prev (Account.new account_id)
  | operate {found curr : Account} (hprev : prev.getD (Account.new found.account_id) = found)
      (hoperated : found.Operated B curr) : Written B payload prev curr
  | lock {account : Account} (hprev : prev = some account) (hnormal : account.state = .Normal) :
      Written B payload prev { account with state := .Locked }
  | unlock {account : Account} (hkind : payload.kind = .unlock_account)
      (hprev : prev = some account) (hlocked : account.state = .Locked) :
      Written B payload prev { account with state := .Normal }
  | delete {account : Account} (hprev : prev = some account)
      (hdelete : account.delete B = .ok { account with state := .Deleted }) :
      Written B payload prev { account with state := .Deleted }
  | configure {account : Account} {request : UpdateAccountConfigRequest}
      (hpayload : payload = .update_account_config_request request)
      (hnamed : account.account_id = request.get_header.account_id) (hprev : prev = some account) :
      Written B payload prev (account.set_balance_limit request.get_balance_limit)

/-- A balance changes only from Normal, and a state only from Normal or by an
UnlockAccount. -/
theorem Account.Written.transition {payload : CommandPayload} {account written : Account}
    (hwritten : Account.Written B payload (some account) written) :
    account.state = .Normal ∨ (written.balance = account.balance ∧
      (written.state = account.state ∨
        (payload.kind = .unlock_account ∧ account.state = .Locked ∧ written.state = .Normal))) := by
  cases hwritten with
  | create _ hprev => cases hprev
  | operate hprev hoperated =>
    rw [Option.getD_some] at hprev
    subst hprev
    exact .inl hoperated.step.prev_normal
  | lock hprev hnormal =>
    cases hprev
    exact .inl hnormal
  | unlock hkind hprev hlocked =>
    cases hprev
    exact .inr ⟨rfl, .inr ⟨hkind, hlocked, rfl⟩⟩
  | delete hprev hdelete =>
    cases hprev
    exact .inl (Account.delete_ok hdelete).1
  | configure _ _ hprev =>
    cases hprev
    exact .inr ⟨rfl, .inl rfl⟩

theorem Account.Written.kind_of_deleted {payload : CommandPayload} {account written : Account}
    (hwritten : Account.Written B payload (some account) written)
    (hdeleted : account.state = .Deleted) : payload.kind = .update_account_config := by
  cases hwritten with
  | create _ hprev => cases hprev
  | operate hprev hoperated =>
    rw [Option.getD_some] at hprev
    subst hprev
    cases hoperated.step.prev_normal.symm.trans hdeleted
  | lock hprev hnormal =>
    cases hprev
    cases hnormal.symm.trans hdeleted
  | unlock _ hprev hlocked =>
    cases hprev
    cases hlocked.symm.trans hdeleted
  | delete hprev hdelete =>
    cases hprev
    cases (Account.delete_ok hdelete).1.symm.trans hdeleted
  | configure hpayload => rw [hpayload]; rfl

end firm_wallet.accountpb
