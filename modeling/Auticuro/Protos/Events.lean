import Auticuro.Protos.Requests

namespace firm_wallet

open accountpb

namespace commonpb

structure ResponseHeader where
  seq_num : Nat := 0
  log_index : Nat := 0
  offset : Nat := 0
  deriving DecidableEq

end commonpb

namespace balance_operation_servicepb

open commonpb

structure BalanceChange where
  account_id : String := ""
  prev_balance : Balance := {}
  curr_balance : Balance := {}
  deriving DecidableEq

structure TransferResponse where
  header : ResponseHeader
  request : TransferRequest
  «from» : BalanceChange
  «to» : BalanceChange
  deriving DecidableEq

structure BatchBalanceOperationResponse where
  header : ResponseHeader
  request : BatchBalanceOperationRequest
  balance_changes : List BalanceChange
  deriving DecidableEq

/-- The common shape of the reserve and release responses. -/
structure BalanceResponse (Request : Type) where
  header : ResponseHeader
  request : Request
  prev_balance : Balance
  curr_balance : Balance
  deriving DecidableEq

abbrev ReserveResponse := BalanceResponse ReserveRequest
abbrev ReleaseResponse := BalanceResponse ReleaseRequest

end balance_operation_servicepb

namespace account_management_servicepb

open commonpb

/-- The common shape of the five account management responses. -/
structure AccountResponse (Request : Type) where
  header : ResponseHeader
  request : Request
  account : Account
  deriving DecidableEq

abbrev CreateAccountResponse := AccountResponse CreateAccountRequest
abbrev DeleteAccountResponse := AccountResponse DeleteAccountRequest
abbrev LockAccountResponse := AccountResponse LockAccountRequest
abbrev UnlockAccountResponse := AccountResponse UnlockAccountRequest
abbrev UpdateAccountConfigResponse := AccountResponse UpdateAccountConfigRequest

end account_management_servicepb

namespace internal_servicepb

open commonpb balance_operation_servicepb account_management_servicepb

structure EventHeader where
  seq_num : Nat := 0
  log_index : Nat := 0
  offset : Nat := 0
  command_id : String := ""
  process_time_in_sec : Nat := 0
  deriving DecidableEq

/-- The `event` of an event payload; every event message holds one response. -/
inductive EventPayload where
  | transfer_event (response : TransferResponse)
  | batch_balance_operation_event (response : BatchBalanceOperationResponse)
  | reserve_event (response : ReserveResponse)
  | release_event (response : ReleaseResponse)
  | account_created_event (response : CreateAccountResponse)
  | account_deleted_event (response : DeleteAccountResponse)
  | account_locked_event (response : LockAccountResponse)
  | account_unlock_event (response : UnlockAccountResponse)
  | account_config_update_event (response : UpdateAccountConfigResponse)
  deriving DecidableEq

structure Event where
  header : EventHeader := {}
  payload : EventPayload
  deriving DecidableEq

/-- The header of the response an event carries. -/
def EventPayload.response_header : EventPayload → ResponseHeader
  | .transfer_event response => response.header
  | .batch_balance_operation_event response => response.header
  | .reserve_event response => response.header
  | .release_event response => response.header
  | .account_created_event response => response.header
  | .account_deleted_event response => response.header
  | .account_locked_event response => response.header
  | .account_unlock_event response => response.header
  | .account_config_update_event response => response.header

end internal_servicepb

end firm_wallet
