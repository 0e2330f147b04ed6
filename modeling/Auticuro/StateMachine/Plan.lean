import Auticuro.Library.Exec
import Auticuro.StateMachine.Handlers

open Exec

namespace firm_wallet.state_machine

open accountpb commonpb errors balance_calculator balance_operation_servicepb
open account_management_servicepb internal_servicepb rocksdb_state

/-- An account written back by `update_account` or by `delete_account`. -/
inductive AccountWrite where
  | update (account : Account)
  | delete (account : Account)

/-- What an accepted command does: the accounts it writes, in order, and the
payload of its event once the response header is known. -/
structure Plan where
  writes : List AccountWrite
  payload : ResponseHeader → EventPayload

variable (B : BigDecimal)

/-- Decide a command without touching the state. -/
def StateMachine.plan (self : StateMachine) : CommandPayload → GeneralResult Plan
  | .transfer_request request => do
    let transfer_spec := request.get_transfer_spec
    let from_account := self.get_or_create_account transfer_spec.from_account_id
    let to_account := self.get_or_create_account transfer_spec.to_account_id
    from_account.validate_asset_class_compatibility to_account
    let (updated_to_account, to_balance_change) ←
      to_account.increase_balance_by B transfer_spec.amount
    let neg_amount ← BalanceCalculator.neg B transfer_spec.amount
    let (updated_from_account, from_balance_change) ←
      from_account.increase_balance_by B neg_amount
    return ⟨[.update updated_to_account, .update updated_from_account], fun header =>
      .transfer_event ⟨header, request, from_balance_change, to_balance_change⟩⟩
  | .batch_balance_operation_request request => do
    let results ← self.increase_balances B request.balance_operation_spec
    return ⟨(results.map Prod.fst).map .update, fun header =>
      .batch_balance_operation_event ⟨header, request, results.map Prod.snd⟩⟩
  | .reserve_request request => do
    let prev_account ← self.assert_account_exists request.account_id
    let curr_account ← prev_account.reserve B request.reservation_id request.amount
    return ⟨[.update curr_account], fun header =>
      .reserve_event ⟨header, request, prev_account.balance, curr_account.balance⟩⟩
  | .release_request request => do
    let prev_account ← self.assert_account_exists request.account_id
    let curr_account ←
      if request.amount = "" then
        prev_account.release_all B request.reservation_id
      else
        prev_account.partial_release B request.reservation_id request.amount
    return ⟨[.update curr_account], fun header =>
      .release_event ⟨header, request, prev_account.balance, curr_account.balance⟩⟩
  | .create_account_request request =>
    let account_id := request.get_header.account_id
    if self.accounts.contains_key account_id then
      .error (.AccountManagementError (.AccountAlreadyExist account_id))
    else
      .ok ⟨[.update (Account.new account_id)], fun header =>
        .account_created_event ⟨header, request, Account.new account_id⟩⟩
  | .delete_account_request request => do
    let account ← self.assert_account_exists request.get_header.account_id
    let updated_account ← account.delete B
    return ⟨[.delete updated_account], fun header =>
      .account_deleted_event ⟨header, request, updated_account⟩⟩
  | .lock_account_request request => do
    let account ← self.assert_account_exists request.get_header.account_id
    let updated_account ← account.lock
    return ⟨[.update updated_account], fun header =>
      .account_locked_event ⟨header, request, updated_account⟩⟩
  | .unlock_account_request request => do
    let account ← self.assert_account_exists request.get_header.account_id
    let updated_account ← account.unlock
    return ⟨[.update updated_account], fun header =>
      .account_unlock_event ⟨header, request, updated_account⟩⟩
  | .update_account_config_request request => do
    let account ← self.assert_account_exists request.get_header.account_id
    let updated_account := account.set_balance_limit request.get_balance_limit
    return ⟨[.update updated_account], fun header =>
      .account_config_update_event ⟨header, request, updated_account⟩⟩

def Wallet.write_account (self : Wallet) : AccountWrite → Wallet
  | .update account => self.update_account account
  | .delete account => self.delete_account account

/-- Take the next sequence number and write the planned accounts. -/
def Wallet.commit (self : Wallet) (writes : List AccountWrite) : Wallet :=
  writes.foldl Wallet.write_account
    { self with statemachine :=
        { self.statemachine with last_seq_num := self.statemachine.last_seq_num + 1 } }

/-- Either refuse with the wallet as it is, or commit and report the event. -/
def Wallet.perform (self : Wallet) (log_index offset : Nat) :
    GeneralResult Plan → GeneralResult Event × Wallet
  | .error e => (.error e, self)
  | .ok plan =>
    let header := Response.build_header (self.statemachine.last_seq_num + 1) log_index offset
    (.ok { payload := plan.payload header }, self.commit plan.writes)

theorem Wallet.perform_bind {A : Type} (wallet : Wallet) (log_index offset : Nat)
    (x : GeneralResult A) (f : A → GeneralResult Plan) :
    wallet.perform log_index offset (x >>= f) =
      check x wallet (fun value => wallet.perform log_index offset (f value)) := by
  cases x <;> rfl

theorem exec_next_seq_num_bind {A : Type} (f : Nat → Handler A) (wallet : Wallet) :
    exec (next_seq_num >>= f) wallet =
      exec (f (wallet.statemachine.last_seq_num + 1)) (wallet.commit []) := rfl

theorem exec_update_account (account : Account) (wallet : Wallet) :
    exec (update_account account) wallet = (.ok (), wallet.update_account account) := rfl

theorem exec_forM_update_account (accounts : List Account) (wallet : Wallet) :
    exec (accounts.forM update_account) wallet =
      (.ok (), (accounts.map AccountWrite.update).foldl Wallet.write_account wallet) := by
  induction accounts generalizing wallet with
  | nil => rfl
  | cons account accounts ih =>
    change exec (update_account account >>= fun _ => accounts.forM update_account) wallet = _
    rw [exec_bind_of_ok (exec_update_account account wallet), ih]
    rfl

theorem handle_batch_balance_operation_eq_perform (request : BatchBalanceOperationRequest)
    (log_index offset : Nat) (wallet : Wallet) :
    exec (handle_batch_balance_operation B request log_index offset) wallet =
      wallet.perform log_index offset
        (wallet.statemachine.plan B (.batch_balance_operation_request request)) := by
  unfold handle_batch_balance_operation
  simp only [exec_get_bind, exec_lift_bind, StateMachine.plan, Wallet.perform_bind,
    exec_next_seq_num_bind]
  congr 1
  funext results
  rw [exec_bind_of_ok (exec_forM_update_account _ _)]
  rfl

theorem handle_release_eq_perform (request : ReleaseRequest) (log_index offset : Nat)
    (wallet : Wallet) :
    exec (handle_release B request log_index offset) wallet =
      wallet.perform log_index offset (wallet.statemachine.plan B (.release_request request)) := by
  unfold handle_release
  simp only [StateMachine.plan]
  by_cases hamount : request.amount = ""
  · simp only [hamount, ↓reduceIte, exec_get_bind, exec_lift_bind, Wallet.perform_bind]
    rfl
  · simp only [hamount, ↓reduceIte, exec_get_bind, exec_lift_bind, Wallet.perform_bind]
    rfl

/-- Every handler validates first and writes afterwards: it is its plan,
performed. In particular a handler that fails has written nothing. -/
theorem handle_payload_eq_perform (payload : CommandPayload) (log_index offset : Nat)
    (wallet : Wallet) :
    exec (handle_payload B payload log_index offset) wallet =
      wallet.perform log_index offset (wallet.statemachine.plan B payload) := by
  cases payload with
  | transfer_request request =>
    unfold handle_payload handle_transfer
    rw [exec_get_bind]
    simp only [exec_lift_bind, StateMachine.plan, Wallet.perform_bind]
    rfl
  | batch_balance_operation_request request =>
    exact handle_batch_balance_operation_eq_perform B request log_index offset wallet
  | reserve_request request =>
    unfold handle_payload handle_reserve
    simp only [exec_get_bind, exec_lift_bind, StateMachine.plan, Wallet.perform_bind]
    rfl
  | release_request request => exact handle_release_eq_perform B request log_index offset wallet
  | create_account_request request =>
    unfold handle_payload handle_create_account
    simp only [exec_get_bind, StateMachine.plan]
    split <;> rfl
  | delete_account_request request =>
    unfold handle_payload handle_delete_account
    simp only [exec_get_bind, exec_lift_bind, StateMachine.plan, Wallet.perform_bind]
    rfl
  | lock_account_request request =>
    unfold handle_payload handle_lock_account
    simp only [exec_get_bind, exec_lift_bind, StateMachine.plan, Wallet.perform_bind]
    rfl
  | unlock_account_request request =>
    unfold handle_payload handle_unlock_account
    simp only [exec_get_bind, exec_lift_bind, StateMachine.plan, Wallet.perform_bind]
    rfl
  | update_account_config_request request =>
    unfold handle_payload handle_update_account_config
    simp only [exec_get_bind, exec_lift_bind, StateMachine.plan, Wallet.perform_bind]
    rfl

end firm_wallet.state_machine
