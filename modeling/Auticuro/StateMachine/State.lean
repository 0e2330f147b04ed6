import Auticuro.RocksdbState

namespace firm_wallet.state_machine

open accountpb errors internal_servicepb rocksdb_state

structure Position where
  log_index : Nat
  offset : Nat
  deriving DecidableEq

structure InflightEvent where
  position : Position
  event : GeneralResult Event

structure StateMachine where
  accounts : AccountMap
  applied_index : Nat
  last_seq_num : Nat
  seq_num_cache : Finmap fun _ : String => SequenceNumber
  event_cache : Finmap fun _ : SequenceNumber => Event
  rocksdb_state : RocksDBState

/-- The channel is the list of everything sent on it so far. The time of the
last flush is left to the caller of `should_flush`. -/
structure ApplyContext where
  batch_size : Nat
  wb : RocksWriteBatch
  to_be_deleted_account_ids : List String
  flushed_applied_index : Nat
  inflight_event_tx : List InflightEvent

/-- The state machine with the apply context its methods are called with. -/
structure Wallet where
  statemachine : StateMachine
  context : ApplyContext

def StateMachine.get_event (self : StateMachine) (seq_num : SequenceNumber) : Option Event :=
  match self.event_cache.lookup seq_num with
  | some event => some event
  | none => self.rocksdb_state.read_event_from_db seq_num

def StateMachine.get_seq_num (self : StateMachine) (command_id : String) :
    Option SequenceNumber :=
  match self.seq_num_cache.lookup command_id with
  | some seq_num => some seq_num
  | none => self.rocksdb_state.read_seq_num_from_db command_id

theorem StateMachine.get_event_eq_or (self : StateMachine) (seq_num : SequenceNumber) :
    self.get_event seq_num =
      (self.event_cache.lookup seq_num).or (self.rocksdb_state.events.lookup seq_num) := by
  unfold get_event RocksDBState.read_event_from_db
  cases self.event_cache.lookup seq_num <;> rfl

theorem StateMachine.get_seq_num_eq_or (self : StateMachine) (command_id : String) :
    self.get_seq_num command_id =
      (self.seq_num_cache.lookup command_id).or (self.rocksdb_state.dedup.lookup command_id) := by
  unfold get_seq_num RocksDBState.read_seq_num_from_db
  cases self.seq_num_cache.lookup command_id <;> rfl

def StateMachine.get_or_create_account (self : StateMachine) (account_id : String) : Account :=
  match self.accounts.get account_id with
  | none => Account.new account_id
  | some account => account

def StateMachine.assert_account_exists (self : StateMachine) (account_id : String) :
    GeneralResult Account :=
  match self.accounts.get account_id with
  | some account => .ok account
  | none => .error (.AccountManagementError (.AccountNotExist account_id))

/-- The `batch_size` is read from the environment. -/
def ApplyContext.new (batch_size applied_index : Nat) : ApplyContext :=
  { batch_size := batch_size, wb := [], to_be_deleted_account_ids := [],
    flushed_applied_index := applied_index, inflight_event_tx := [] }

def StateMachine.recover_from_db (batch_size : Nat) (rocksdb_state : RocksDBState) : Wallet :=
  let accounts := rocksdb_state.read_accounts_from_db
  let applied_index := rocksdb_state.read_hard_state_from_db .APPLIED_INDEX
  let persisted_last_seq_num := rocksdb_state.read_hard_state_from_db .PERSISTED_LAST_SEQ_NUM
  { statemachine :=
      { accounts := accounts, applied_index := applied_index,
        last_seq_num := persisted_last_seq_num, seq_num_cache := ∅, event_cache := ∅,
        rocksdb_state := rocksdb_state },
    context := ApplyContext.new batch_size applied_index }

def Wallet.send_event (self : Wallet) (position : Position) (event : GeneralResult Event) :
    Wallet :=
  { self with context :=
      { self.context with
        inflight_event_tx := self.context.inflight_event_tx ++ [⟨position, event⟩] } }

def Wallet.update_account (self : Wallet) (account : Account) : Wallet :=
  { statemachine :=
      { self.statemachine with accounts := self.statemachine.accounts.insert account },
    context := { self.context with wb := self.context.wb ++ [.put_account account] } }

/-- The deleted account goes back in memory and stays there as a tombstone
until the next flush. -/
def Wallet.delete_account (self : Wallet) (account : Account) : Wallet :=
  { statemachine :=
      { self.statemachine with accounts := self.statemachine.accounts.insert account },
    context :=
      { self.context with
        wb := self.context.wb ++ [.delete_account account.account_id],
        to_be_deleted_account_ids :=
          self.context.to_be_deleted_account_ids ++ [account.account_id] } }

def Wallet.update_seq_num_and_event (self : Wallet) (command_id : String) (event : Event) :
    Wallet :=
  let seq_num := self.statemachine.last_seq_num
  { statemachine :=
      { self.statemachine with
        seq_num_cache := self.statemachine.seq_num_cache.insert command_id seq_num,
        event_cache := self.statemachine.event_cache.insert seq_num event },
    context :=
      { self.context with
        wb := self.context.wb ++ [.put_seq_num command_id seq_num, .put_event seq_num event] } }

end firm_wallet.state_machine
