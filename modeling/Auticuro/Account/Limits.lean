import Auticuro.Account.Steps
import Auticuro.Account.Value

open Exec

namespace firm_wallet.accountpb

open errors balance_calculator balance_operation_servicepb internal_servicepb

variable (B : BigDecimal) (value : B.Decimal → ℚ)

/-- A text lies within a limit, decimals compared by value. -/
def BalanceLimit.Admits (limit : BalanceLimit) (balance : String) : Prop :=
  ∃ lower available upper, B.number value limit.lower = some lower ∧
    B.number value balance = some available ∧ B.number value limit.upper = some upper ∧
    lower ≤ available ∧ available ≤ upper

/-- What is available lies within the limit of the account, if it has one. -/
def Account.WithinLimit (account : Account) : Prop :=
  ∀ limit, account.config.balance_limit = some limit →
    limit.Admits B value account.balance.available

variable {B value}

theorem Account.WithinLimit.of_no_limit {account : Account}
    (hnone : account.config.balance_limit = none) : account.WithinLimit B value := by
  intro limit hlimit
  cases hnone.symm.trans hlimit

theorem Account.WithinLimit.congr {left right : Account} (hleft : left.WithinLimit B value)
    (hconfig : right.config = left.config)
    (havailable : right.balance.available = left.balance.available) :
    right.WithinLimit B value := by
  intro limit hlimit
  rw [hconfig] at hlimit
  rw [havailable]
  exact hleft limit hlimit

/-- The check of the code decides the limit. -/
theorem Account.validate_balance_limitation_ok_iff (hB : B.Exact value) {self : Account}
    {balance : String} :
    self.validate_balance_limitation B balance = .ok () ↔
      ∀ limit, self.config.balance_limit = some limit → limit.Admits B value balance := by
  unfold validate_balance_limitation AccountConfig.has_balance_limit AccountConfig.get_balance_limit
  cases self.config.balance_limit with
  | none => simp
  | some limit =>
    simp only [Option.isSome_some, Bool.not_true, Bool.false_eq_true, if_false, Option.getD_some,
      Option.some.injEq, forall_eq']
    constructor
    · intro hvalid
      obtain ⟨to_upper, hupper, hvalid⟩ := bind_eq_ok_iff.mp hvalid
      obtain ⟨to_lower, hlower, hvalid⟩ := bind_eq_ok_iff.mp hvalid
      obtain ⟨available, upper, hbalance, hupperNumber, rfl⟩ := hB.cmp_ok hupper
      obtain ⟨other, lower, hother, hlowerNumber, rfl⟩ := hB.cmp_ok hlower
      cases hbalance.symm.trans hother
      split at hvalid
      · cases hvalid
      · rename_i hinside
        rw [compare_lt_iff_lt, compare_gt_iff_gt, not_or, not_lt, not_lt] at hinside
        exact ⟨lower, available, upper, hlowerNumber, hbalance, hupperNumber, hinside⟩
    · rintro ⟨lower, available, upper, hlower, hbalance, hupper, hinside⟩
      rw [hB.cmp_of_number hbalance hupper, hB.cmp_of_number hbalance hlower]
      change (if compare available lower = .lt ∨ compare available upper = .gt then _ else _) = _
      rw [if_neg]
      rwa [compare_lt_iff_lt, compare_gt_iff_gt, not_or, not_lt, not_lt]

variable (hB : B.Exact value)
include hB

/-- Every balance operation ends with a checked balance. -/
theorem Account.Operated.within {prev curr : Account} (hoperated : prev.Operated B curr) :
    curr.WithinLimit B value := by
  obtain ⟨amount, credited, change, hincrease, hconfig, havailable⟩ := hoperated.increased
  obtain ⟨_, new_balance, _, hvalid, hresult⟩ := increase_balance_by_ok_iff.mp hincrease
  cases hresult
  have hcredited : (prev.set_available new_balance).WithinLimit B value :=
    (validate_balance_limitation_ok_iff hB).mp hvalid
  exact hcredited.congr hconfig havailable

/-- Every command but UpdateAccountConfig leaves the account within its limit. -/
theorem Account.Written.within {payload : CommandPayload} {prev : Option Account}
    {written : Account} (hwritten : Account.Written B payload prev written)
    (hprev : ∀ account, prev = some account → account.WithinLimit B value)
    (hconfigure : ∀ account request, prev = some account →
      payload = .update_account_config_request request →
      account.account_id = request.get_header.account_id →
      (account.set_balance_limit request.get_balance_limit).WithinLimit B value) :
    written.WithinLimit B value := by
  cases hwritten with
  | create account_id _ => exact .of_no_limit rfl
  | operate _ hoperated => exact hoperated.within hB
  | lock hfound _ | unlock _ hfound _ | delete hfound _ => exact (hprev _ hfound).congr rfl rfl
  | configure hpayload hnamed hfound => exact hconfigure _ _ hfound hpayload hnamed

end firm_wallet.accountpb
