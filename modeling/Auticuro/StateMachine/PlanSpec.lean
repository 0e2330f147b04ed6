import Auticuro.Account.Spec
import Auticuro.StateMachine.Steps

open Exec

namespace firm_wallet

open accountpb commonpb errors balance_calculator balance_operation_servicepb
open account_management_servicepb internal_servicepb rocksdb_state

namespace internal_servicepb

/-- The accounts a command names. -/
def CommandPayload.account_ids : CommandPayload → List String
  | .transfer_request request =>
    [request.get_transfer_spec.from_account_id, request.get_transfer_spec.to_account_id]
  | .batch_balance_operation_request request =>
    request.balance_operation_spec.map BalanceOperationSpec.account_id
  | .reserve_request request => [request.account_id]
  | .release_request request => [request.account_id]
  | .create_account_request request => [request.get_header.account_id]
  | .delete_account_request request => [request.get_header.account_id]
  | .lock_account_request request => [request.get_header.account_id]
  | .unlock_account_request request => [request.get_header.account_id]
  | .update_account_config_request request => [request.get_header.account_id]

end internal_servicepb

namespace state_machine

variable {B : BigDecimal} {self : StateMachine} {plan : Plan}

theorem StateMachine.get_or_create_account_account_id (self : StateMachine) (account_id : String) :
    (self.get_or_create_account account_id).account_id = account_id := by
  unfold get_or_create_account
  cases hget : self.accounts.get account_id with
  | none => rfl
  | some account => exact AccountMap.account_id_of_get hget

theorem StateMachine.assert_account_exists_ok_iff {account_id : String} {account : Account} :
    self.assert_account_exists account_id = .ok account ↔
      self.accounts.get account_id = some account := by
  unfold assert_account_exists
  cases self.accounts.get account_id <;> simp

theorem StateMachine.plan_transfer_ok {request : TransferRequest}
    (hplan : self.plan B (.transfer_request request) = .ok plan) :
    ∃ neg_amount updated_from from_change updated_to to_change,
      (self.get_or_create_account request.get_transfer_spec.to_account_id).increase_balance_by B
        request.get_transfer_spec.amount = .ok (updated_to, to_change) ∧
      BalanceCalculator.neg B request.get_transfer_spec.amount = .ok neg_amount ∧
      (self.get_or_create_account request.get_transfer_spec.from_account_id).increase_balance_by B
        neg_amount = .ok (updated_from, from_change) ∧
      plan = ⟨[.update updated_to, .update updated_from], fun header =>
        .transfer_event ⟨header, request, from_change, to_change⟩⟩ := by
  simp only [StateMachine.plan] at hplan
  obtain ⟨_, _, hplan⟩ := bind_eq_ok_iff.mp hplan
  obtain ⟨⟨updated_to, to_change⟩, hto, hplan⟩ := bind_eq_ok_iff.mp hplan
  obtain ⟨neg_amount, hneg, hplan⟩ := bind_eq_ok_iff.mp hplan
  obtain ⟨⟨updated_from, from_change⟩, hfrom, hplan⟩ := bind_eq_ok_iff.mp hplan
  exact ⟨neg_amount, updated_from, from_change, updated_to, to_change, hto, hneg, hfrom,
    (pure_eq_ok_iff.mp hplan).symm⟩

theorem StateMachine.plan_batch_ok {request : BatchBalanceOperationRequest}
    (hplan : self.plan B (.batch_balance_operation_request request) = .ok plan) :
    ∃ results,
      List.Forall₂ (fun spec result =>
        (self.get_or_create_account spec.account_id).increase_balance_by B spec.amount =
          .ok result) request.balance_operation_spec results ∧
      plan = ⟨(results.map Prod.fst).map .update, fun header =>
        .batch_balance_operation_event ⟨header, request, results.map Prod.snd⟩⟩ := by
  simp only [StateMachine.plan] at hplan
  obtain ⟨results, hresults, hplan⟩ := bind_eq_ok_iff.mp hplan
  exact ⟨results, mapM_eq_ok_iff.mp hresults, (pure_eq_ok_iff.mp hplan).symm⟩

theorem StateMachine.plan_reserve_ok {request : ReserveRequest}
    (hplan : self.plan B (.reserve_request request) = .ok plan) :
    ∃ prev_account curr_account,
      self.accounts.get request.account_id = some prev_account ∧
      prev_account.reserve B request.reservation_id request.amount = .ok curr_account ∧
      plan = ⟨[.update curr_account], fun header =>
        .reserve_event ⟨header, request, prev_account.balance, curr_account.balance⟩⟩ := by
  simp only [StateMachine.plan] at hplan
  obtain ⟨prev_account, hexists, hplan⟩ := bind_eq_ok_iff.mp hplan
  obtain ⟨curr_account, hreserve, hplan⟩ := bind_eq_ok_iff.mp hplan
  exact ⟨prev_account, curr_account, assert_account_exists_ok_iff.mp hexists, hreserve,
    (pure_eq_ok_iff.mp hplan).symm⟩

theorem StateMachine.plan_release_ok {request : ReleaseRequest}
    (hplan : self.plan B (.release_request request) = .ok plan) :
    ∃ prev_account curr_account,
      self.accounts.get request.account_id = some prev_account ∧
      (if request.amount = "" then prev_account.release_all B request.reservation_id
        else prev_account.partial_release B request.reservation_id request.amount) =
          .ok curr_account ∧
      plan = ⟨[.update curr_account], fun header =>
        .release_event ⟨header, request, prev_account.balance, curr_account.balance⟩⟩ := by
  simp only [StateMachine.plan] at hplan
  obtain ⟨prev_account, hexists, hplan⟩ := bind_eq_ok_iff.mp hplan
  by_cases hamount : request.amount = ""
  · rw [if_pos hamount] at hplan
    obtain ⟨curr_account, hrelease, hplan⟩ := bind_eq_ok_iff.mp hplan
    exact ⟨prev_account, curr_account, assert_account_exists_ok_iff.mp hexists,
      by rw [if_pos hamount, hrelease], (pure_eq_ok_iff.mp hplan).symm⟩
  · rw [if_neg hamount] at hplan
    obtain ⟨curr_account, hrelease, hplan⟩ := bind_eq_ok_iff.mp hplan
    exact ⟨prev_account, curr_account, assert_account_exists_ok_iff.mp hexists,
      by rw [if_neg hamount, hrelease], (pure_eq_ok_iff.mp hplan).symm⟩

theorem StateMachine.plan_create_ok {request : CreateAccountRequest}
    (hplan : self.plan B (.create_account_request request) = .ok plan) :
    self.accounts.get request.get_header.account_id = none ∧
      plan = ⟨[.update (Account.new request.get_header.account_id)], fun header =>
        .account_created_event ⟨header, request, Account.new request.get_header.account_id⟩⟩ := by
  simp only [StateMachine.plan] at hplan
  split at hplan
  · cases hplan
  · rename_i habsent
    cases hplan
    exact ⟨by simpa [AccountMap.contains_key] using habsent, rfl⟩

theorem StateMachine.plan_delete_ok {request : DeleteAccountRequest}
    (hplan : self.plan B (.delete_account_request request) = .ok plan) :
    ∃ account updated_account,
      self.accounts.get request.get_header.account_id = some account ∧
      account.delete B = .ok updated_account ∧
      plan = ⟨[.delete updated_account], fun header =>
        .account_deleted_event ⟨header, request, updated_account⟩⟩ := by
  simp only [StateMachine.plan] at hplan
  obtain ⟨account, hexists, hplan⟩ := bind_eq_ok_iff.mp hplan
  obtain ⟨updated_account, hdelete, hplan⟩ := bind_eq_ok_iff.mp hplan
  exact ⟨account, updated_account, assert_account_exists_ok_iff.mp hexists, hdelete,
    (pure_eq_ok_iff.mp hplan).symm⟩

theorem StateMachine.plan_lock_ok {request : LockAccountRequest}
    (hplan : self.plan B (.lock_account_request request) = .ok plan) :
    ∃ account updated_account,
      self.accounts.get request.get_header.account_id = some account ∧
      account.lock = .ok updated_account ∧
      plan = ⟨[.update updated_account], fun header =>
        .account_locked_event ⟨header, request, updated_account⟩⟩ := by
  simp only [StateMachine.plan] at hplan
  obtain ⟨account, hexists, hplan⟩ := bind_eq_ok_iff.mp hplan
  obtain ⟨updated_account, hlock, hplan⟩ := bind_eq_ok_iff.mp hplan
  exact ⟨account, updated_account, assert_account_exists_ok_iff.mp hexists, hlock,
    (pure_eq_ok_iff.mp hplan).symm⟩

theorem StateMachine.plan_unlock_ok {request : UnlockAccountRequest}
    (hplan : self.plan B (.unlock_account_request request) = .ok plan) :
    ∃ account updated_account,
      self.accounts.get request.get_header.account_id = some account ∧
      account.unlock = .ok updated_account ∧
      plan = ⟨[.update updated_account], fun header =>
        .account_unlock_event ⟨header, request, updated_account⟩⟩ := by
  simp only [StateMachine.plan] at hplan
  obtain ⟨account, hexists, hplan⟩ := bind_eq_ok_iff.mp hplan
  obtain ⟨updated_account, hunlock, hplan⟩ := bind_eq_ok_iff.mp hplan
  exact ⟨account, updated_account, assert_account_exists_ok_iff.mp hexists, hunlock,
    (pure_eq_ok_iff.mp hplan).symm⟩

theorem StateMachine.plan_update_config_ok {request : UpdateAccountConfigRequest}
    (hplan : self.plan B (.update_account_config_request request) = .ok plan) :
    ∃ account,
      self.accounts.get request.get_header.account_id = some account ∧
      plan = ⟨[.update (account.set_balance_limit request.get_balance_limit)], fun header =>
        .account_config_update_event
          ⟨header, request, account.set_balance_limit request.get_balance_limit⟩⟩ := by
  simp only [StateMachine.plan] at hplan
  obtain ⟨account, hexists, hplan⟩ := bind_eq_ok_iff.mp hplan
  exact ⟨account, assert_account_exists_ok_iff.mp hexists, (pure_eq_ok_iff.mp hplan).symm⟩

end state_machine

end firm_wallet
