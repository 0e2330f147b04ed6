import Auticuro.Protos.Account

namespace firm_wallet

open accountpb

namespace balance_operation_servicepb

structure TransferSpec where
  amount : String := ""
  from_account_id : String := ""
  to_account_id : String := ""
  metadata : String := ""
  deriving DecidableEq

structure TransferRequest where
  dedup_id : String := ""
  transfer_spec : Option TransferSpec := none
  deriving DecidableEq

def TransferRequest.get_transfer_spec (self : TransferRequest) : TransferSpec :=
  self.transfer_spec.getD {}

structure BalanceOperationSpec where
  account_id : String := ""
  amount : String := ""
  deriving DecidableEq

structure BatchBalanceOperationRequest where
  dedup_id : String := ""
  balance_operation_spec : List BalanceOperationSpec := []
  deriving DecidableEq

structure ReserveRequest where
  dedup_id : String := ""
  reservation_id : String := ""
  account_id : String := ""
  amount : String := ""
  deriving DecidableEq

/-- An empty `amount` asks for all that remains of the reservation. -/
structure ReleaseRequest where
  dedup_id : String := ""
  reservation_id : String := ""
  amount : String := ""
  account_id : String := ""
  deriving DecidableEq

end balance_operation_servicepb

namespace account_management_servicepb

structure RequestHeader where
  dedup_id : String := ""
  account_id : String := ""
  deriving DecidableEq, Inhabited

structure CreateAccountRequest where
  header : Option RequestHeader := none
  account_config : Option AccountConfig := none
  deriving DecidableEq

structure DeleteAccountRequest where
  header : Option RequestHeader := none
  deriving DecidableEq

structure LockAccountRequest where
  header : Option RequestHeader := none
  deriving DecidableEq

structure UnlockAccountRequest where
  header : Option RequestHeader := none
  deriving DecidableEq

structure UpdateAccountConfigRequest where
  header : Option RequestHeader := none
  balance_limit : Option BalanceLimit := none
  deriving DecidableEq

def CreateAccountRequest.get_header (self : CreateAccountRequest) : RequestHeader :=
  self.header.getD {}

def DeleteAccountRequest.get_header (self : DeleteAccountRequest) : RequestHeader :=
  self.header.getD {}

def LockAccountRequest.get_header (self : LockAccountRequest) : RequestHeader :=
  self.header.getD {}

def UnlockAccountRequest.get_header (self : UnlockAccountRequest) : RequestHeader :=
  self.header.getD {}

def UpdateAccountConfigRequest.get_header (self : UpdateAccountConfigRequest) : RequestHeader :=
  self.header.getD {}

def UpdateAccountConfigRequest.get_balance_limit (self : UpdateAccountConfigRequest) :
    BalanceLimit :=
  self.balance_limit.getD {}

end account_management_servicepb

namespace internal_servicepb

open balance_operation_servicepb account_management_servicepb

structure CommandHeader where
  command_id : String := ""
  process_time_in_sec : Nat := 0
  deriving DecidableEq

/-- The `request` of a command payload. `Command::from_payload` is the only
producer of commands and always sets it. -/
inductive CommandPayload where
  | transfer_request (request : TransferRequest)
  | batch_balance_operation_request (request : BatchBalanceOperationRequest)
  | reserve_request (request : ReserveRequest)
  | release_request (request : ReleaseRequest)
  | create_account_request (request : CreateAccountRequest)
  | delete_account_request (request : DeleteAccountRequest)
  | lock_account_request (request : LockAccountRequest)
  | unlock_account_request (request : UnlockAccountRequest)
  | update_account_config_request (request : UpdateAccountConfigRequest)
  deriving DecidableEq

structure Command where
  header : CommandHeader := {}
  payload : CommandPayload
  deriving DecidableEq

def Command.command_id (self : Command) : String :=
  self.header.command_id

end internal_servicepb

end firm_wallet
