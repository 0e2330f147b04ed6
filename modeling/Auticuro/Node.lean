import Auticuro.Gc
import Auticuro.StateMachine.WriteBatch

open Run

namespace firm_wallet.node

open balance_calculator internal_servicepb rocksdb_state state_machine gc

/-- How far the duplicate check of a command has come. Each lookup in a cache
and each read from the database is a step of its own. -/
inductive CheckPhase where
  | start
  | seq_num_cache_missed
  | seq_num_found (seq_num : Nat)
  | event_cache_missed (seq_num : Nat)
  deriving DecidableEq

inductive CheckOutcome where
  | proceed (phase : CheckPhase)
  | duplicate (event : Event)
  | fresh
  | missing

/-- The next lookup of `maybe_handle_duplicate_command`. `missing` is where it
unwraps an event that is not there. -/
def check_step (statemachine : StateMachine) (command_id : String) : CheckPhase → CheckOutcome
  | .start =>
    match statemachine.seq_num_cache.lookup command_id with
    | some seq_num => .proceed (.seq_num_found seq_num)
    | none => .proceed .seq_num_cache_missed
  | .seq_num_cache_missed =>
    match statemachine.rocksdb_state.read_seq_num_from_db command_id with
    | some seq_num => .proceed (.seq_num_found seq_num)
    | none => .fresh
  | .seq_num_found seq_num =>
    match statemachine.event_cache.lookup seq_num with
    | some event => .duplicate event
    | none => .proceed (.event_cache_missed seq_num)
  | .event_cache_missed seq_num =>
    match statemachine.rocksdb_state.read_event_from_db seq_num with
    | some event => .duplicate event
    | none => .missing

/-- The apply thread holds the commands of the entry that are still to be
handled; the first of them is in its duplicate check. -/
inductive ApplyThread where
  | idle
  | applying (log_index : Nat) (pending : List (Command × Nat)) (phase : CheckPhase)
  | panicked
  deriving DecidableEq

inductive GcThread where
  | idle
  | collecting (from_seq_num next_first_seq_num : Nat)
  | panicked
  deriving DecidableEq

/-- A replica: the wallet, the thread that applies the log to it, and the
thread that collects old events from its database. -/
structure Node where
  wallet : Wallet
  apply_thread : ApplyThread
  gc_thread : GcThread

inductive Action where
  | receive (entry : Entry)
  | apply_step
  | flush
  | gc_step
  | crash
  deriving DecidableEq

namespace Node

def start_up (batch_size : Nat) (rocksdb_state : RocksDBState) : Node :=
  { wallet := StateMachine.recover_from_db batch_size rocksdb_state,
    apply_thread := .idle, gc_thread := .idle }

def db (self : Node) : RocksDBState :=
  self.wallet.statemachine.rocksdb_state

variable (B : BigDecimal)

/-- One step of the apply thread inside an entry. -/
def apply_step (self : Node) : Option Node :=
  match self.apply_thread with
  | .idle => none
  | .panicked => none
  | .applying log_index [] _ =>
    some { self with wallet := self.wallet.finish_entry log_index, apply_thread := .idle }
  | .applying log_index ((command, offset) :: pending) phase =>
    match check_step self.wallet.statemachine command.command_id phase with
    | .proceed next =>
      some { self with apply_thread := .applying log_index ((command, offset) :: pending) next }
    | .duplicate event =>
      some { self with
        wallet := self.wallet.send_event ⟨log_index, offset⟩
          (assert_command_and_event_match command event),
        apply_thread := .applying log_index pending .start }
    | .fresh =>
      some { self with
        wallet := self.wallet.handle_new_command B log_index offset command,
        apply_thread := .applying log_index pending .start }
    | .missing => some { self with apply_thread := .panicked }

def write_gc_batch (self : Node) (from_seq_num to_seq_num : Nat) : Node :=
  { self with wallet := { self.wallet with statemachine :=
    { self.wallet.statemachine with
      rocksdb_state := EventLogGCLoop.gc_batch from_seq_num to_seq_num self.db } } }

/-- One step of the collector: a poll, a batch, or the end of a collection. The
two hard states of a poll are read at once, which loses no interleaving since
only the collector writes the first of them. -/
def gc_step (config : EventLogGCConfig) (self : Node) : Node :=
  match self.gc_thread with
  | .panicked => self
  | .idle =>
    match EventLogGCLoop.should_gc config self.db.first_seq_num self.db.last_seq_num with
    | none => { self with gc_thread := .panicked }
    | some none => self
    | some (some next_first_seq_num) =>
      { self with gc_thread :=
        .collecting (EventLogGCLoop.gc_from self.db.first_seq_num) next_first_seq_num }
  | .collecting from_seq_num next_first_seq_num =>
    if from_seq_num < next_first_seq_num then
      let to_seq_num := EventLogGCLoop.batch_end config from_seq_num next_first_seq_num
      { self.write_gc_batch from_seq_num to_seq_num with
        gc_thread := .collecting to_seq_num next_first_seq_num }
    else
      { self with gc_thread := .idle }

/-- The interleavings of the two threads with restarts. The log delivers its
entries in order, a flush happens between entries, and a crash keeps nothing
but the database. There is no collector when it is not configured. -/
def step (config : Option EventLogGCConfig) (self : Node) : Action → Option Node
  | .receive entry =>
    if self.apply_thread = .idle ∧ self.wallet.statemachine.applied_index + 1 = entry.1 then
      some { self with apply_thread := .applying entry.1 entry.2.zipIdx .start }
    else
      none
  | .apply_step => self.apply_step B
  | .flush =>
    if self.apply_thread = .idle then
      self.wallet.flush.map fun wallet => { self with wallet := wallet }
    else
      none
  | .gc_step => config.map fun config => self.gc_step config
  | .crash => some (start_up self.wallet.context.batch_size self.db)

end Node

end firm_wallet.node
