import Auticuro.Node.Totals

open Run

namespace firm_wallet.node

open accountpb balance_calculator internal_servicepb rocksdb_state state_machine gc

/-- The event log as it would be if nothing were ever collected: an event for
every number given so far. A new number adds its event at the end, and a restart
takes back the events that were not persisted. -/
def record (history : List Event) (statemachine : StateMachine) : List Event :=
  if history.length < statemachine.last_seq_num then
    history ++ (statemachine.get_event statemachine.last_seq_num).toList
  else
    history.take statemachine.last_seq_num

/-- A node with the events of its run. -/
structure RecordedNode where
  replica : Node
  history : List Event

namespace RecordedNode

def start_up (batch_size : Nat) : RecordedNode :=
  { replica := Node.start_up batch_size RocksDBState.empty, history := [] }

def step (B : BigDecimal) (config : Option EventLogGCConfig) (self : RecordedNode)
    (action : Action) : Option RecordedNode :=
  (self.replica.step B config action).map fun next =>
    { replica := next, history := record self.history next.wallet.statemachine }

/-- The history has every number given so far, and what is stored under a number
is the event that the history has there. -/
structure Complete (history : List Event) (wallet : Wallet) : Prop where
  length : history.length = wallet.statemachine.last_seq_num
  stored : ∀ seq_num event, wallet.statemachine.get_event seq_num = some event →
    history[seq_num - 1]? = some event

end RecordedNode

variable {history : List Event}

theorem record_eq_self {statemachine : StateMachine}
    (hlength : history.length = statemachine.last_seq_num) :
    record history statemachine = history := by
  unfold record
  rw [if_neg (by omega), List.take_of_length_le (by omega)]

variable {wallet : Wallet}

theorem record_executed (hlength : history.length = wallet.statemachine.last_seq_num)
    (log_index offset : Nat) (command : Command) (plan : Plan) :
    record history (wallet.executed log_index offset command plan).statemachine =
      history ++ [plan.event command log_index offset (wallet.statemachine.last_seq_num + 1)] := by
  have hlast : (wallet.executed log_index offset command plan).statemachine.last_seq_num =
      wallet.statemachine.last_seq_num + 1 := rfl
  unfold record
  rw [hlast, if_pos (by omega), Wallet.executed_get_event, if_pos rfl]
  rfl

theorem record_restart (hlength : history.length = wallet.statemachine.last_seq_num)
    (hlog : wallet.statemachine.EventLog) (batch_size : Nat) :
    record history (StateMachine.recover_from_db batch_size
        wallet.statemachine.rocksdb_state).statemachine =
      history.take wallet.statemachine.rocksdb_state.last_seq_num := by
  have hlast : (StateMachine.recover_from_db batch_size
      wallet.statemachine.rocksdb_state).statemachine.last_seq_num =
        wallet.statemachine.rocksdb_state.last_seq_num := rfl
  have hle := hlog.last_le
  unfold record
  rw [hlast, if_neg (by omega)]

variable {B : BigDecimal} {value : B.Decimal → ℚ} {config : Option EventLogGCConfig}

theorem RecordedNode.Complete.start_up (batch_size : Nat) :
    RecordedNode.Complete [] (Node.start_up batch_size RocksDBState.empty).wallet := by
  have hempty := StateMachine.EventLog.recover_from_db batch_size RocksDBState.HoldsLog.empty
  refine ⟨rfl, ?_⟩
  intro seq_num event hevent
  obtain ⟨hlow, hhigh⟩ := hempty.bounds hevent
  exact absurd (le_trans hlow hhigh) (Nat.not_succ_le_zero 0)

/-- A new number adds its event. -/
theorem RecordedNode.Complete.executed (hhistory : RecordedNode.Complete history wallet)
    (log_index offset : Nat) (command : Command) (plan : Plan) :
    RecordedNode.Complete
      (record history (wallet.executed log_index offset command plan).statemachine)
      (wallet.executed log_index offset command plan) := by
  have hlength := hhistory.length
  rw [record_executed hlength]
  refine ⟨?_, ?_⟩
  · rw [List.length_append, hlength]
    rfl
  · intro seq_num event hevent
    rw [Wallet.executed_get_event] at hevent
    split at hevent
    · rename_i hnumber
      cases hevent
      rw [hnumber, Nat.add_sub_cancel, ← hlength]
      exact List.getElem?_concat_length
    · have hbefore := hhistory.stored seq_num event hevent
      rw [List.getElem?_append_left (List.getElem?_eq_some_iff.mp hbefore).1]
      exact hbefore

/-- The database has the events that a restart leaves in the history. -/
theorem RecordedNode.Complete.restart (hhistory : RecordedNode.Complete history wallet)
    (hlog : wallet.statemachine.EventLog) (batch_size : Nat) :
    RecordedNode.Complete
      (record history (StateMachine.recover_from_db batch_size
        wallet.statemachine.rocksdb_state).statemachine)
      (StateMachine.recover_from_db batch_size wallet.statemachine.rocksdb_state) := by
  have hlength := hhistory.length
  have hle := hlog.last_le
  rw [record_restart hlength hlog]
  refine ⟨?_, ?_⟩
  · rw [List.length_take, hlength]
    exact Nat.min_eq_left hle
  · intro seq_num event hevent
    rw [StateMachine.get_event_eq_or] at hevent
    have hpersisted : wallet.statemachine.rocksdb_state.events.lookup seq_num = some event := by
      simpa [StateMachine.recover_from_db] using hevent
    have hbounds := hlog.persisted.bounds hpersisted
    have huncached : wallet.statemachine.event_cache.lookup seq_num = none :=
      hlog.cached.eq_none_of_not_range (by omega)
    have hevent : wallet.statemachine.get_event seq_num = some event := by
      rw [StateMachine.get_event_eq_or, huncached, Option.none_or, hpersisted]
    rw [List.getElem?_take_of_lt (by omega)]
    exact hhistory.stored seq_num event hevent

/-- Every step keeps the history complete. -/
theorem WalletStep.complete {allowed : Command → Prop} {wallet next : Wallet}
    (hstep : WalletStep B allowed wallet next) (hmirrored : wallet.Mirrored)
    (hlog : wallet.statemachine.EventLog) (hhistory : RecordedNode.Complete history wallet) :
    RecordedNode.Complete (record history next.statemachine) next := by
  have hlength := hhistory.length
  cases hstep with
  | stay =>
    rw [record_eq_self hlength]
    exact hhistory
  | reply position event =>
    have hlast : history.length = (wallet.send_event position event).statemachine.last_seq_num :=
      hlength
    rw [record_eq_self hlast]
    exact ⟨hlast, hhistory.stored⟩
  | execute => exact hhistory.executed _ _ _ _
  | finish log_index =>
    have hlast : history.length = (wallet.finish_entry log_index).statemachine.last_seq_num :=
      hlength
    rw [record_eq_self hlast]
    exact ⟨hlast, hhistory.stored⟩
  | flush _ hflush =>
    have hstored := Wallet.flush_get_event hflush hmirrored
    have hlast : next.statemachine.last_seq_num = wallet.statemachine.last_seq_num := by
      obtain ⟨_, rfl⟩ := Wallet.flush_eq_some_iff.mp hflush
      rfl
    rw [record_eq_self (hlength.trans hlast.symm)]
    refine ⟨hlength.trans hlast.symm, ?_⟩
    intro seq_num event hevent
    rw [hstored] at hevent
    exact hhistory.stored seq_num event hevent
  | collect from_seq_num to_seq_num =>
    rw [record_eq_self (by exact hlength)]
    refine ⟨hlength, ?_⟩
    intro seq_num event hevent
    apply hhistory.stored seq_num event
    rw [StateMachine.get_event_eq_or, Option.or_eq_some_iff] at hevent ⊢
    obtain hcached | ⟨hcached, hpersisted⟩ := hevent
    · exact .inl hcached
    · exact .inr ⟨hcached, EventLogGCLoop.gc_batch_events_some hpersisted⟩
  | restart => exact hhistory.restart hlog _

/-- A property of the balance of an account and the history so far that holds of
the memory and of what a restart would read. -/
structure Recorded (Ledger : String → Balance → List Event → Prop) (history : List Event)
    (wallet : Wallet) : Prop where
  memory : ∀ account_id,
    Ledger account_id (wallet.statemachine.accounts.balance account_id) history
  persisted : ∀ account_id,
    Ledger account_id (wallet.statemachine.rocksdb_state.data.balance account_id)
      (history.take wallet.statemachine.rocksdb_state.last_seq_num)

section Recorded

variable (Ledger : String → Balance → List Event → Prop) (allowed : Command → Prop)
variable (hB : B.Exact value)
-- Balances are compared by value.
variable (hsame : ∀ account_id left right history, Balance.Same B value left right →
  Ledger account_id left history → Ledger account_id right history)
-- Executing a command carries the property over to the history with its event.
variable (hexecute : ∀ (statemachine : StateMachine) command plan event history account_id,
  allowed command → statemachine.plan B command.payload = .ok plan →
  (∃ header, event.payload = plan.payload header) →
  Ledger account_id (statemachine.accounts.balance account_id) history →
  Ledger account_id ((AccountMap.write statemachine.accounts plan.writes).balance account_id)
    (history ++ [event]))
include hB hsame hexecute

theorem WalletStep.recorded {wallet next : Wallet} (hstep : WalletStep B allowed wallet next)
    (hlog : wallet.statemachine.EventLog) (hdurable : wallet.Durable B value)
    (hlength : history.length = wallet.statemachine.last_seq_num)
    (hrecorded : Recorded Ledger history wallet) :
    Recorded Ledger (record history next.statemachine) next := by
  have hle := hlog.last_le
  cases hstep with
  | stay =>
    rw [record_eq_self hlength]
    exact hrecorded
  | reply position event =>
    rw [record_eq_self (by exact hlength)]
    exact ⟨hrecorded.memory, hrecorded.persisted⟩
  | @execute log_index offset command plan hallowed _ hplan =>
    rw [record_executed hlength]
    refine ⟨?_, ?_⟩
    · intro account_id
      exact hexecute wallet.statemachine command plan _ history account_id hallowed hplan
        ⟨_, rfl⟩ (hrecorded.memory account_id)
    · intro account_id
      have hpersisted := hrecorded.persisted account_id
      rw [← List.take_append_of_le_length (by omega)] at hpersisted
      exact hpersisted
  | finish log_index =>
    rw [record_eq_self (by exact hlength)]
    exact ⟨hrecorded.memory, hrecorded.persisted⟩
  | flush hsettled hflush =>
    have hbalances := hdurable.flush_same hB hflush
    obtain ⟨_, rfl⟩ := Wallet.flush_eq_some_iff.mp hflush
    rw [record_eq_self (by exact hlength)]
    refine ⟨?_, ?_⟩
    · intro account_id
      exact hsame account_id _ _ history (Balance.same_equivalence.symm (hbalances account_id))
        (hrecorded.memory account_id)
    · intro account_id
      change Ledger account_id (wallet.flushed_db.data.balance account_id)
        (history.take wallet.flushed_db.last_seq_num)
      rw [hsettled, ← hlength, List.take_length]
      exact hsame account_id _ _ history (hdurable.pending account_id)
        (hrecorded.memory account_id)
  | collect from_seq_num to_seq_num =>
    rw [record_eq_self (by exact hlength)]
    refine ⟨hrecorded.memory, ?_⟩
    intro account_id
    rw [EventLogGCLoop.gc_batch_data, EventLogGCLoop.gc_batch_last_seq_num]
    exact hrecorded.persisted account_id
  | restart =>
    rw [record_restart hlength hlog]
    refine ⟨hrecorded.persisted, ?_⟩
    intro account_id
    change Ledger account_id (wallet.statemachine.rocksdb_state.data.balance account_id)
      ((history.take _).take wallet.statemachine.rocksdb_state.last_seq_num)
    rw [List.take_take, Nat.min_self]
    exact hrecorded.persisted account_id

/-- The rule for such properties: they hold in every state that any interleaving
reaches in which the executed commands are allowed, and the history they are
about is the complete one. -/
theorem RecordedNode.recorded_of_run
    (hinitial : ∀ account_id, Ledger account_id Balance.initial []) {batch_size : Nat}
    {actions : List Action} {last : RecordedNode}
    (halong : Along (RecordedNode.step B config)
      (fun self action => ∀ command ∈ self.replica.executes B action, allowed command)
      (RecordedNode.start_up batch_size) actions)
    (hrun : run (RecordedNode.step B config) (RecordedNode.start_up batch_size) actions =
      some last) :
    RecordedNode.Complete last.history last.replica.wallet ∧
      Recorded Ledger last.history last.replica.wallet := by
  have hstep : ∀ (self : RecordedNode) (action : Action) (next : RecordedNode),
      (self.replica.Consistent ∧ self.replica.wallet.Durable B value ∧
        RecordedNode.Complete self.history self.replica.wallet ∧
        Recorded Ledger self.history self.replica.wallet) →
      (∀ command ∈ self.replica.executes B action, allowed command) →
      self.step B config action = some next →
      next.replica.Consistent ∧ next.replica.wallet.Durable B value ∧
        RecordedNode.Complete next.history next.replica.wallet ∧
        Recorded Ledger next.history next.replica.wallet := by
    rintro self action next ⟨hconsistent, hdurable, hcomplete, hrecorded⟩ hallowed hnext
    obtain ⟨node, hnode, rfl⟩ := Option.map_eq_some_iff.mp hnext
    have hwalletStep : WalletStep B allowed self.replica.wallet node.wallet :=
      hconsistent.wallet_step hallowed hnode
    exact ⟨hconsistent.step hnode, hwalletStep.durable hB hdurable,
      hwalletStep.complete hconsistent.mirrored hconsistent.log hcomplete,
      hwalletStep.recorded Ledger allowed hB hsame hexecute hconsistent.log hdurable
        hcomplete.length hrecorded⟩
  have hrecorded : Recorded Ledger [] (Node.start_up batch_size RocksDBState.empty).wallet :=
    ⟨hinitial, hinitial⟩
  exact (run_invariant_along hstep ⟨Node.Consistent.start_up batch_size RocksDBState.HoldsLog.empty,
    Wallet.Durable.recover_from_db batch_size RocksDBState.empty,
    RecordedNode.Complete.start_up batch_size, hrecorded⟩
    halong hrun).2.2

end Recorded

end firm_wallet.node
