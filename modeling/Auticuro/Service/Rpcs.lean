import Auticuro.Service

namespace firm_wallet

open accountpb errors internal_servicepb state_machine

namespace errors.errorpb

/-- What a reason is printed from, which the message holds as text. -/
inductive Reason where
  | BalanceOperationError (error : BalanceOperationError)
  | AccountManagementError (error : AccountManagementError)
  | CommonError (error : CommonError)
  | text (err : String)
  deriving DecidableEq

/-- The error of a response message. -/
inductive Error where
  | not_leader (message : String)
  | other_error (reason : Reason)
  deriving DecidableEq

end errors.errorpb

namespace errors

open errorpb

def is_not_leader_error (err : String) : Bool :=
  decide ("not_leader: Some(NotLeader".toList <:+: err.toList)

def CommonError.into_proto : CommonError → errorpb.Error
  | .MessageQueueError err =>
    if is_not_leader_error err then .not_leader err else .other_error (.text err)
  | error => .other_error (.CommonError error)

def GeneralError.into_proto : GeneralError → errorpb.Error
  | .BalanceOperationError error => .other_error (.BalanceOperationError error)
  | .AccountManagementError error => .other_error (.AccountManagementError error)
  | .CommonError error => error.into_proto

/-- The errors that the gateway may take for those of a node that does not lead. -/
def GeneralError.IsMessageQueueError : GeneralError → Prop
  | .CommonError (.MessageQueueError _) => True
  | _ => False

theorem GeneralError.into_proto_of_answer {error : GeneralError}
    (herror : ¬error.IsMessageQueueError) : ∃ reason, error.into_proto = .other_error reason := by
  cases error with
  | BalanceOperationError error | AccountManagementError error => exact ⟨_, rfl⟩
  | CommonError error =>
    cases error with
    | MessageQueueError err => exact absurd trivial herror
    | Timeout | ConflictDedupId dedup_id | DataNotReady requested available => exact ⟨_, rfl⟩

end errors

namespace internal_servicepb

open balance_operation_servicepb account_management_servicepb

/-- As every generated getter of a `oneof`, it gives the default message when
another one is set, which `none` stands for. -/
def EventPayload.get_transfer_event : EventPayload → Option TransferResponse
  | .transfer_event response => some response
  | _ => none

def EventPayload.get_batch_balance_operation_event :
    EventPayload → Option BatchBalanceOperationResponse
  | .batch_balance_operation_event response => some response
  | _ => none

def EventPayload.get_reserve_event : EventPayload → Option ReserveResponse
  | .reserve_event response => some response
  | _ => none

def EventPayload.get_release_event : EventPayload → Option ReleaseResponse
  | .release_event response => some response
  | _ => none

def EventPayload.get_account_created_event : EventPayload → Option CreateAccountResponse
  | .account_created_event response => some response
  | _ => none

def EventPayload.get_account_deleted_event : EventPayload → Option DeleteAccountResponse
  | .account_deleted_event response => some response
  | _ => none

def EventPayload.get_account_locked_event : EventPayload → Option LockAccountResponse
  | .account_locked_event response => some response
  | _ => none

def EventPayload.get_account_unlock_event : EventPayload → Option UnlockAccountResponse
  | .account_unlock_event response => some response
  | _ => none

def EventPayload.get_account_config_update_event :
    EventPayload → Option UpdateAccountConfigResponse
  | .account_config_update_event response => some response
  | _ => none

end internal_servicepb

namespace service

open balance_operation_servicepb account_management_servicepb

/-- A response message: its `error` and its other fields, which are those of the
default message if they are `none`. -/
structure Response (Message : Type) where
  message : Option Message := none
  error : Option errorpb.Error := none
  deriving DecidableEq

/-- What `send_payload` and then `wait_for_response` have given. -/
abbrev Outcome := Except String (GeneralResult Event)

namespace WalletService

/-- The body shared by the nine handlers of write requests, from the reply of the
queue on; `get_response` is the getter of the event they expect. -/
def respond {Message : Type} (get_response : EventPayload → Option Message) :
    Outcome → Response Message
  | .ok (.ok event) => { message := get_response event.payload }
  | .ok (.error err) => { error := some err.into_proto }
  | .error e => { error := some (CommonError.MessageQueueError e).into_proto }

def create_account := respond EventPayload.get_account_created_event
def lock_account := respond EventPayload.get_account_locked_event
def unlock_account := respond EventPayload.get_account_unlock_event
def delete_account := respond EventPayload.get_account_deleted_event
def update_account_config := respond EventPayload.get_account_config_update_event
def reserve := respond EventPayload.get_reserve_event
def release := respond EventPayload.get_release_event
def batch_balance_operation := respond EventPayload.get_batch_balance_operation_event
def transfer := respond EventPayload.get_transfer_event

end WalletService

/-- The response of one of the nine handlers. -/
inductive RpcResponse where
  | create_account (response : Response CreateAccountResponse)
  | lock_account (response : Response LockAccountResponse)
  | unlock_account (response : Response UnlockAccountResponse)
  | delete_account (response : Response DeleteAccountResponse)
  | update_account_config (response : Response UpdateAccountConfigResponse)
  | reserve (response : Response ReserveResponse)
  | release (response : Response ReleaseResponse)
  | batch_balance_operation (response : Response BatchBalanceOperationResponse)
  | transfer (response : Response TransferResponse)
  deriving DecidableEq

/-- Each request goes to the handler of its service method. -/
def WalletService.serve : CommandPayload → Outcome → RpcResponse
  | .create_account_request _, outcome => .create_account (create_account outcome)
  | .lock_account_request _, outcome => .lock_account (lock_account outcome)
  | .unlock_account_request _, outcome => .unlock_account (unlock_account outcome)
  | .delete_account_request _, outcome => .delete_account (delete_account outcome)
  | .update_account_config_request _, outcome =>
    .update_account_config (update_account_config outcome)
  | .reserve_request _, outcome => .reserve (reserve outcome)
  | .release_request _, outcome => .release (release outcome)
  | .batch_balance_operation_request _, outcome =>
    .batch_balance_operation (batch_balance_operation outcome)
  | .transfer_request _, outcome => .transfer (transfer outcome)

/-- The payload of the event that the fields of a response were taken from. -/
def RpcResponse.event_payload : RpcResponse → Option EventPayload
  | .create_account response => response.message.map .account_created_event
  | .lock_account response => response.message.map .account_locked_event
  | .unlock_account response => response.message.map .account_unlock_event
  | .delete_account response => response.message.map .account_deleted_event
  | .update_account_config response => response.message.map .account_config_update_event
  | .reserve response => response.message.map .reserve_event
  | .release response => response.message.map .release_event
  | .batch_balance_operation response => response.message.map .batch_balance_operation_event
  | .transfer response => response.message.map .transfer_event

def RpcResponse.error : RpcResponse → Option errorpb.Error
  | .create_account response => response.error
  | .lock_account response => response.error
  | .unlock_account response => response.error
  | .delete_account response => response.error
  | .update_account_config response => response.error
  | .reserve response => response.error
  | .release response => response.error
  | .batch_balance_operation response => response.error
  | .transfer response => response.error

/-- A handler that is given an event of another kind answers with the default
message and without an error. -/
theorem WalletService.serve_event (payload : CommandPayload) (event : Event) :
    (serve payload (.ok (.ok event))).event_payload =
      (if payload.kind = event.payload.kind then some event.payload else none) ∧
    (serve payload (.ok (.ok event))).error = none := by
  obtain ⟨_, found⟩ := event
  cases payload <;> cases found <;> exact ⟨rfl, rfl⟩

theorem WalletService.serve_error (payload : CommandPayload) (err : GeneralError) :
    (serve payload (.ok (.error err))).event_payload = none ∧
      (serve payload (.ok (.error err))).error = some err.into_proto := by
  cases payload <;> exact ⟨rfl, rfl⟩

/-- Requests of one kind go to one handler. -/
theorem WalletService.serve_congr {payload other : CommandPayload}
    (hkind : payload.kind = other.kind) (outcome : Outcome) :
    serve payload outcome = serve other outcome := by
  cases payload <;> cases other <;> first | rfl | cases hkind

theorem WalletService.serve_refused (payload : CommandPayload) (e : String) :
    (serve payload (.error e)).event_payload = none ∧
      (serve payload (.error e)).error =
        some (CommonError.MessageQueueError e).into_proto := by
  cases payload <;> exact ⟨rfl, rfl⟩

end service

namespace account_management_servicepb

structure GetAccountRequest where
  account_id : String := ""
  seq_num : Nat := 0

structure GetAccountResponse where
  account : Option Account := none
  seq_num : Nat := 0
  error : Option errorpb.Error := none

end account_management_servicepb

namespace balance_operation_servicepb

structure QueryBalanceRequest where
  account_id : String := ""
  seq_num : Nat := 0

structure QueryBalanceResponse where
  account_id : String := ""
  balance : Option Balance := none
  seq_num : Nat := 0
  error : Option errorpb.Error := none

end balance_operation_servicepb

namespace service.WalletService

open balance_operation_servicepb account_management_servicepb

/-- The state machine is the one under the read lock. -/
def get_account (guard : StateMachine) (request : GetAccountRequest) : GetAccountResponse :=
  if request.seq_num > guard.last_seq_num then
    { error := some
        (CommonError.DataNotReady request.seq_num guard.last_seq_num).into_proto }
  else
    match guard.accounts.get request.account_id with
    | some account => { seq_num := guard.last_seq_num, account := some account }
    | none =>
      { seq_num := guard.last_seq_num,
        error := some (.other_error
          (.AccountManagementError (.AccountNotExist request.account_id))) }

def query_balance (guard : StateMachine) (request : QueryBalanceRequest) :
    QueryBalanceResponse :=
  if request.seq_num > guard.last_seq_num then
    { account_id := request.account_id,
      error := some
        (CommonError.DataNotReady request.seq_num guard.last_seq_num).into_proto }
  else
    match guard.accounts.get request.account_id with
    | some account =>
      { account_id := request.account_id, seq_num := guard.last_seq_num,
        balance := some account.balance }
    | none =>
      { account_id := request.account_id, seq_num := guard.last_seq_num,
        error := some (.other_error
          (.BalanceOperationError (.AccountNotExist request.account_id))) }

end service.WalletService

end firm_wallet
