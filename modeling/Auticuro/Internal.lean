import Auticuro.BalanceCalculator
import Auticuro.Protos.Events

namespace firm_wallet.internal_servicepb

open accountpb commonpb errors balance_operation_servicepb account_management_servicepb

/-- The `dedup_id` of the request is the id of the command. -/
def CommandPayload.command_id : CommandPayload → String
  | .transfer_request request => request.dedup_id
  | .batch_balance_operation_request request => request.dedup_id
  | .reserve_request request => request.dedup_id
  | .release_request request => request.dedup_id
  | .create_account_request request => request.get_header.dedup_id
  | .delete_account_request request => request.get_header.dedup_id
  | .lock_account_request request => request.get_header.dedup_id
  | .unlock_account_request request => request.get_header.dedup_id
  | .update_account_config_request request => request.get_header.dedup_id

def Command.build_header (command_id : String) (process_time_in_sec : Nat) : CommandHeader :=
  { command_id := command_id, process_time_in_sec := process_time_in_sec }

/-- The clock is a parameter. -/
def Command.from_payload (payload : CommandPayload) (process_time_in_sec : Nat) : Command :=
  { header := Command.build_header payload.command_id process_time_in_sec, payload := payload }

/-- The commands of a client, at time zero. -/
def createAccount (dedup_id account_id : String) : Command :=
  Command.from_payload
    (.create_account_request
      { header := some { dedup_id := dedup_id, account_id := account_id } }) 0

def creditAccount (dedup_id account_id amount : String) : Command :=
  Command.from_payload
    (.batch_balance_operation_request
      { dedup_id := dedup_id,
        balance_operation_spec := [{ account_id := account_id, amount := amount }] }) 0

def transferAmount (dedup_id from_account_id to_account_id amount : String) : Command :=
  Command.from_payload
    (.transfer_request
      { dedup_id := dedup_id,
        transfer_spec := some
          { from_account_id := from_account_id, to_account_id := to_account_id,
            amount := amount } }) 0

def reserveAmount (dedup_id account_id reservation_id amount : String) : Command :=
  Command.from_payload
    (.reserve_request
      { dedup_id := dedup_id, account_id := account_id, reservation_id := reservation_id,
        amount := amount }) 0

def releaseAmount (dedup_id account_id reservation_id amount : String) : Command :=
  Command.from_payload
    (.release_request
      { dedup_id := dedup_id, account_id := account_id, reservation_id := reservation_id,
        amount := amount }) 0

def deleteAccount (dedup_id account_id : String) : Command :=
  Command.from_payload
    (.delete_account_request
      { header := some { dedup_id := dedup_id, account_id := account_id } }) 0

def updateAccountConfig (dedup_id account_id upper : String) : Command :=
  Command.from_payload
    (.update_account_config_request
      { header := some { dedup_id := dedup_id, account_id := account_id },
        balance_limit := some { upper := upper } }) 0

def limitBalance (dedup_id account_id lower upper : String) : Command :=
  Command.from_payload
    (.update_account_config_request
      { header := some { dedup_id := dedup_id, account_id := account_id },
        balance_limit := some { lower := lower, upper := upper } }) 0

def lockAccount (dedup_id account_id : String) : Command :=
  Command.from_payload
    (.lock_account_request
      { header := some { dedup_id := dedup_id, account_id := account_id } }) 0

def unlockAccount (dedup_id account_id : String) : Command :=
  Command.from_payload
    (.unlock_account_request
      { header := some { dedup_id := dedup_id, account_id := account_id } }) 0

def Event.set_header (self : Event) (command_header : CommandHeader)
    (log_index offset seq_num : Nat) : Event :=
  { self with header :=
    { command_id := command_header.command_id,
      process_time_in_sec := command_header.process_time_in_sec,
      log_index := log_index, offset := offset, seq_num := seq_num } }

def Response.build_header (seq_num log_index offset : Nat) : ResponseHeader :=
  { seq_num := seq_num, log_index := log_index, offset := offset }

def TransferResponse.build_event (seq_num log_index offset : Nat) (request : TransferRequest)
    («from» «to» : BalanceChange) : Event :=
  { payload := .transfer_event
      { header := Response.build_header seq_num log_index offset, request := request,
        «from» := «from», «to» := «to» } }

def BatchBalanceOperationResponse.build_event (seq_num log_index offset : Nat)
    (request : BatchBalanceOperationRequest) (balance_changes : List BalanceChange) : Event :=
  { payload := .batch_balance_operation_event
      { header := Response.build_header seq_num log_index offset, request := request,
        balance_changes := balance_changes } }

def ReserveResponse.build_event (seq_num log_index offset : Nat) (request : ReserveRequest)
    (prev_balance curr_balance : Balance) : Event :=
  { payload := .reserve_event
      { header := Response.build_header seq_num log_index offset, request := request,
        prev_balance := prev_balance, curr_balance := curr_balance } }

def ReleaseResponse.build_event (seq_num log_index offset : Nat) (request : ReleaseRequest)
    (prev_balance curr_balance : Balance) : Event :=
  { payload := .release_event
      { header := Response.build_header seq_num log_index offset, request := request,
        prev_balance := prev_balance, curr_balance := curr_balance } }

/-- The body shared by the five account management responses; `wrap` is the
setter of the event message. -/
def AccountResponse.build_event {Request : Type}
    (wrap : AccountResponse Request → EventPayload) (seq_num log_index offset : Nat)
    (request : Request) (account : Account) : Event :=
  { payload := wrap
      { header := Response.build_header seq_num log_index offset, request := request,
        account := account } }

def CreateAccountResponse.build_event :=
  AccountResponse.build_event EventPayload.account_created_event

def LockAccountResponse.build_event :=
  AccountResponse.build_event EventPayload.account_locked_event

def UnlockAccountResponse.build_event :=
  AccountResponse.build_event EventPayload.account_unlock_event

def DeleteAccountResponse.build_event :=
  AccountResponse.build_event EventPayload.account_deleted_event

def UpdateAccountConfigResponse.build_event :=
  AccountResponse.build_event EventPayload.account_config_update_event

def assert_command_and_event_match (command : Command) (event : Event) : GeneralResult Event :=
  match command.payload, event.payload with
  | .transfer_request _, .transfer_event _
  | .batch_balance_operation_request _, .batch_balance_operation_event _
  | .reserve_request _, .reserve_event _
  | .release_request _, .release_event _
  | .create_account_request _, .account_created_event _
  | .lock_account_request _, .account_locked_event _
  | .unlock_account_request _, .account_unlock_event _
  | .delete_account_request _, .account_deleted_event _
  | .update_account_config_request _, .account_config_update_event _ => .ok event
  | _, _ => .error (.CommonError (.ConflictDedupId command.command_id))

/-- The nine kinds of commands, which are also the kinds of events. -/
inductive CommandKind where
  | transfer
  | batch_balance_operation
  | reserve
  | release
  | create_account
  | delete_account
  | lock_account
  | unlock_account
  | update_account_config
  deriving DecidableEq

def CommandPayload.kind : CommandPayload → CommandKind
  | .transfer_request _ => .transfer
  | .batch_balance_operation_request _ => .batch_balance_operation
  | .reserve_request _ => .reserve
  | .release_request _ => .release
  | .create_account_request _ => .create_account
  | .delete_account_request _ => .delete_account
  | .lock_account_request _ => .lock_account
  | .unlock_account_request _ => .unlock_account
  | .update_account_config_request _ => .update_account_config

/-- The kind of the command an event answers. -/
def EventPayload.kind : EventPayload → CommandKind
  | .transfer_event _ => .transfer
  | .batch_balance_operation_event _ => .batch_balance_operation
  | .reserve_event _ => .reserve
  | .release_event _ => .release
  | .account_created_event _ => .create_account
  | .account_deleted_event _ => .delete_account
  | .account_locked_event _ => .lock_account
  | .account_unlock_event _ => .unlock_account
  | .account_config_update_event _ => .update_account_config

/-- A stored event answers a command of its own kind and conflicts with every
other one, over all pairs of kinds. -/
theorem assert_command_and_event_match_eq (command : Command) (event : Event) :
    assert_command_and_event_match command event =
      if command.payload.kind = event.payload.kind then .ok event
      else .error (.CommonError (.ConflictDedupId command.command_id)) := by
  obtain ⟨header, request⟩ := command
  obtain ⟨event_header, response⟩ := event
  cases request <;> cases response <;> rfl

end firm_wallet.internal_servicepb
