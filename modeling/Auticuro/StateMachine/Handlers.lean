import Auticuro.StateMachine.State

namespace firm_wallet.state_machine

open accountpb errors balance_calculator balance_operation_servicepb account_management_servicepb
open internal_servicepb rocksdb_state

/-- A handler mutates the wallet in place: what it has written before it fails
stays written. -/
abbrev Handler (α : Type) := ExceptT GeneralError (StateM Wallet) α

/-- `self.last_seq_num += 1`, returning the new number. -/
def next_seq_num : Handler Nat := do
  modify fun wallet =>
    { wallet with statemachine :=
        { wallet.statemachine with last_seq_num := wallet.statemachine.last_seq_num + 1 } }
  return (← get).statemachine.last_seq_num

def update_account (account : Account) : Handler Unit :=
  modify (Wallet.update_account · account)

def delete_account (account : Account) : Handler Unit :=
  modify (Wallet.delete_account · account)

variable (B : BigDecimal)

def handle_transfer (request : TransferRequest) (log_index offset : Nat) : Handler Event := do
  let self := (← get).statemachine
  let transfer_spec := request.get_transfer_spec
  let amount := transfer_spec.amount
  let from_account := self.get_or_create_account transfer_spec.from_account_id
  let to_account := self.get_or_create_account transfer_spec.to_account_id
  from_account.validate_asset_class_compatibility to_account
  let (updated_to_account, to_balance_change) ← to_account.increase_balance_by B amount
  let neg_amount ← BalanceCalculator.neg B amount
  let (updated_from_account, from_balance_change) ← from_account.increase_balance_by B neg_amount
  let last_seq_num ← next_seq_num
  update_account updated_to_account
  update_account updated_from_account
  return TransferResponse.build_event last_seq_num log_index offset request
    from_balance_change to_balance_change

/-- The loop over the specs, which stops at the first failing one. Every
account is read from the state before the batch. -/
def StateMachine.increase_balances (self : StateMachine) (specs : List BalanceOperationSpec) :
    GeneralResult (List (Account × BalanceChange)) :=
  specs.mapM fun spec =>
    (self.get_or_create_account spec.account_id).increase_balance_by B spec.amount

def handle_batch_balance_operation (request : BatchBalanceOperationRequest)
    (log_index offset : Nat) : Handler Event := do
  let self := (← get).statemachine
  let results ← self.increase_balances B request.balance_operation_spec
  let updated_accounts := results.map Prod.fst
  let balance_changes := results.map Prod.snd
  let last_seq_num ← next_seq_num
  updated_accounts.forM update_account
  return BatchBalanceOperationResponse.build_event last_seq_num log_index offset request
    balance_changes

def handle_reserve (request : ReserveRequest) (log_index offset : Nat) : Handler Event := do
  let self := (← get).statemachine
  let prev_account ← self.assert_account_exists request.account_id
  let prev_balance := prev_account.balance
  let curr_account ← prev_account.reserve B request.reservation_id request.amount
  let curr_balance := curr_account.balance
  let last_seq_num ← next_seq_num
  update_account curr_account
  return ReserveResponse.build_event last_seq_num log_index offset request
    prev_balance curr_balance

def handle_release (request : ReleaseRequest) (log_index offset : Nat) : Handler Event := do
  let self := (← get).statemachine
  let prev_account ← self.assert_account_exists request.account_id
  let prev_balance := prev_account.balance
  let curr_account ←
    if request.amount = "" then
      prev_account.release_all B request.reservation_id
    else
      prev_account.partial_release B request.reservation_id request.amount
  let curr_balance := curr_account.balance
  let last_seq_num ← next_seq_num
  update_account curr_account
  return ReleaseResponse.build_event last_seq_num log_index offset request
    prev_balance curr_balance

def handle_create_account (request : CreateAccountRequest) (log_index offset : Nat) :
    Handler Event := do
  let self := (← get).statemachine
  let account_id := request.get_header.account_id
  if self.accounts.contains_key account_id then
    throw (.AccountManagementError (.AccountAlreadyExist account_id))
  let account := Account.new account_id
  let last_seq_num ← next_seq_num
  update_account account
  return CreateAccountResponse.build_event last_seq_num log_index offset request account

def handle_lock_account (request : LockAccountRequest) (log_index offset : Nat) :
    Handler Event := do
  let self := (← get).statemachine
  let account ← self.assert_account_exists request.get_header.account_id
  let updated_account ← account.lock
  let last_seq_num ← next_seq_num
  update_account updated_account
  return LockAccountResponse.build_event last_seq_num log_index offset request updated_account

def handle_unlock_account (request : UnlockAccountRequest) (log_index offset : Nat) :
    Handler Event := do
  let self := (← get).statemachine
  let account ← self.assert_account_exists request.get_header.account_id
  let updated_account ← account.unlock
  let last_seq_num ← next_seq_num
  update_account updated_account
  return UnlockAccountResponse.build_event last_seq_num log_index offset request updated_account

def handle_delete_account (request : DeleteAccountRequest) (log_index offset : Nat) :
    Handler Event := do
  let self := (← get).statemachine
  let account ← self.assert_account_exists request.get_header.account_id
  let updated_account ← account.delete B
  let last_seq_num ← next_seq_num
  delete_account updated_account
  return DeleteAccountResponse.build_event last_seq_num log_index offset request updated_account

/-- Unlike the other account operations, this one looks at neither the state
nor the balance of the account. -/
def handle_update_account_config (request : UpdateAccountConfigRequest) (log_index offset : Nat) :
    Handler Event := do
  let self := (← get).statemachine
  let account ← self.assert_account_exists request.get_header.account_id
  let updated_account := account.set_balance_limit request.get_balance_limit
  let last_seq_num ← next_seq_num
  update_account updated_account
  return UpdateAccountConfigResponse.build_event last_seq_num log_index offset request
    updated_account

/-- The dispatch of `handle_command` over the payload. -/
def handle_payload (payload : CommandPayload) (log_index offset : Nat) : Handler Event :=
  match payload with
  | .transfer_request request => handle_transfer B request log_index offset
  | .reserve_request request => handle_reserve B request log_index offset
  | .release_request request => handle_release B request log_index offset
  | .batch_balance_operation_request request =>
    handle_batch_balance_operation B request log_index offset
  | .create_account_request request => handle_create_account request log_index offset
  | .lock_account_request request => handle_lock_account request log_index offset
  | .unlock_account_request request => handle_unlock_account request log_index offset
  | .delete_account_request request => handle_delete_account B request log_index offset
  | .update_account_config_request request =>
    handle_update_account_config request log_index offset

end firm_wallet.state_machine
