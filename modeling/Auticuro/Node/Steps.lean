import Auticuro.Node

open Run

namespace firm_wallet.node

open balance_calculator internal_servicepb rocksdb_state state_machine gc

variable {B : BigDecimal} {config : Option EventLogGCConfig} {node next : Node}

/-- What each lookup of the duplicate check can find. -/
inductive CheckStep (statemachine : StateMachine) (command_id : String) :
    CheckPhase → CheckOutcome → Prop where
  | seq_num_cached {seq_num : Nat}
      (hcached : statemachine.seq_num_cache.lookup command_id = some seq_num) :
      CheckStep statemachine command_id .start (.proceed (.seq_num_found seq_num))
  | seq_num_not_cached (hcached : statemachine.seq_num_cache.lookup command_id = none) :
      CheckStep statemachine command_id .start (.proceed .seq_num_cache_missed)
  | seq_num_persisted {seq_num : Nat}
      (hread : statemachine.rocksdb_state.dedup.lookup command_id = some seq_num) :
      CheckStep statemachine command_id .seq_num_cache_missed (.proceed (.seq_num_found seq_num))
  | seq_num_absent (hread : statemachine.rocksdb_state.dedup.lookup command_id = none) :
      CheckStep statemachine command_id .seq_num_cache_missed .fresh
  | event_cached {seq_num : Nat} {event : Event}
      (hcached : statemachine.event_cache.lookup seq_num = some event) :
      CheckStep statemachine command_id (.seq_num_found seq_num) (.duplicate event)
  | event_not_cached {seq_num : Nat} (hcached : statemachine.event_cache.lookup seq_num = none) :
      CheckStep statemachine command_id (.seq_num_found seq_num)
        (.proceed (.event_cache_missed seq_num))
  | event_persisted {seq_num : Nat} {event : Event}
      (hread : statemachine.rocksdb_state.events.lookup seq_num = some event) :
      CheckStep statemachine command_id (.event_cache_missed seq_num) (.duplicate event)
  | event_absent {seq_num : Nat}
      (hread : statemachine.rocksdb_state.events.lookup seq_num = none) :
      CheckStep statemachine command_id (.event_cache_missed seq_num) .missing

theorem check_step_spec {statemachine : StateMachine} {command_id : String} {phase : CheckPhase}
    {outcome : CheckOutcome} (hcheck : check_step statemachine command_id phase = outcome) :
    CheckStep statemachine command_id phase outcome := by
  subst hcheck
  cases phase with
  | start =>
    cases hcached : statemachine.seq_num_cache.lookup command_id with
    | none =>
      simp only [check_step, hcached]
      exact .seq_num_not_cached hcached
    | some seq_num =>
      simp only [check_step, hcached]
      exact .seq_num_cached hcached
  | seq_num_cache_missed =>
    cases hread : statemachine.rocksdb_state.dedup.lookup command_id with
    | none =>
      simp only [check_step, RocksDBState.read_seq_num_from_db, hread]
      exact .seq_num_absent hread
    | some seq_num =>
      simp only [check_step, RocksDBState.read_seq_num_from_db, hread]
      exact .seq_num_persisted hread
  | seq_num_found seq_num =>
    cases hcached : statemachine.event_cache.lookup seq_num with
    | none =>
      simp only [check_step, hcached]
      exact .event_not_cached hcached
    | some event =>
      simp only [check_step, hcached]
      exact .event_cached hcached
  | event_cache_missed seq_num =>
    cases hread : statemachine.rocksdb_state.events.lookup seq_num with
    | none =>
      simp only [check_step, RocksDBState.read_event_from_db, hread]
      exact .event_absent hread
    | some event =>
      simp only [check_step, RocksDBState.read_event_from_db, hread]
      exact .event_persisted hread

theorem CheckStep.check_step_eq {statemachine : StateMachine} {command_id : String}
    {phase : CheckPhase} {outcome : CheckOutcome}
    (hcheck : CheckStep statemachine command_id phase outcome) :
    check_step statemachine command_id phase = outcome := by
  cases hcheck with
  | seq_num_cached hcached | seq_num_not_cached hcached => simp [check_step, hcached]
  | seq_num_persisted hread | seq_num_absent hread =>
    simp [check_step, RocksDBState.read_seq_num_from_db, hread]
  | event_cached hcached | event_not_cached hcached => simp [check_step, hcached]
  | event_persisted hread | event_absent hread =>
    simp [check_step, RocksDBState.read_event_from_db, hread]

/-- What a node can do in one step, with everything the step has checked. -/
inductive Node.Step (B : BigDecimal) (config : Option EventLogGCConfig) (node : Node) :
    Action → Node → Prop where
  | receive (entry : Entry) (hidle : node.apply_thread = .idle)
      (hindex : node.wallet.statemachine.applied_index + 1 = entry.1) :
      Node.Step B config node (.receive entry)
        { node with apply_thread := .applying entry.1 entry.2.zipIdx .start }
  | finish {log_index : Nat} {phase : CheckPhase}
      (hthread : node.apply_thread = .applying log_index [] phase) :
      Node.Step B config node .apply_step
        { node with wallet := node.wallet.finish_entry log_index, apply_thread := .idle }
  | proceed {log_index offset : Nat} {command : Command} {pending : List (Command × Nat)}
      {phase phase' : CheckPhase}
      (hthread : node.apply_thread = .applying log_index ((command, offset) :: pending) phase)
      (hcheck : CheckStep node.wallet.statemachine command.command_id phase (.proceed phase')) :
      Node.Step B config node .apply_step
        { node with apply_thread := .applying log_index ((command, offset) :: pending) phase' }
  | duplicate {log_index offset : Nat} {command : Command} {pending : List (Command × Nat)}
      {phase : CheckPhase} {event : Event}
      (hthread : node.apply_thread = .applying log_index ((command, offset) :: pending) phase)
      (hcheck : CheckStep node.wallet.statemachine command.command_id phase (.duplicate event)) :
      Node.Step B config node .apply_step
        { node with
          wallet := node.wallet.send_event ⟨log_index, offset⟩
            (assert_command_and_event_match command event),
          apply_thread := .applying log_index pending .start }
  | fresh {log_index offset : Nat} {command : Command} {pending : List (Command × Nat)}
      {phase : CheckPhase}
      (hthread : node.apply_thread = .applying log_index ((command, offset) :: pending) phase)
      (hcheck : CheckStep node.wallet.statemachine command.command_id phase .fresh) :
      Node.Step B config node .apply_step
        { node with
          wallet := node.wallet.handle_new_command B log_index offset command,
          apply_thread := .applying log_index pending .start }
  | missing {log_index offset : Nat} {command : Command} {pending : List (Command × Nat)}
      {phase : CheckPhase}
      (hthread : node.apply_thread = .applying log_index ((command, offset) :: pending) phase)
      (hcheck : CheckStep node.wallet.statemachine command.command_id phase .missing) :
      Node.Step B config node .apply_step { node with apply_thread := .panicked }
  | flush {wallet : Wallet} (hidle : node.apply_thread = .idle)
      (hflush : node.wallet.flush = some wallet) :
      Node.Step B config node .flush { node with wallet := wallet }
  | gc_stay (hconfig : config.isSome) : Node.Step B config node .gc_step node
  | gc_panic (hconfig : config.isSome) (hless : node.db.last_seq_num < node.db.first_seq_num) :
      Node.Step B config node .gc_step { node with gc_thread := .panicked }
  | gc_start {gc_config : EventLogGCConfig} (hconfig : config = some gc_config)
      (hcount : node.db.first_seq_num + gc_config.gc_count ≤ node.db.last_seq_num) :
      Node.Step B config node .gc_step
        { node with
          gc_thread := .collecting (max node.db.first_seq_num 1)
            (node.db.first_seq_num + gc_config.gc_count) }
  | gc_batch {gc_config : EventLogGCConfig} {from_seq_num next_first_seq_num to_seq_num : Nat}
      (hconfig : config = some gc_config)
      (hthread : node.gc_thread = .collecting from_seq_num next_first_seq_num)
      (hless : from_seq_num < next_first_seq_num)
      (hto : to_seq_num = EventLogGCLoop.batch_end gc_config from_seq_num next_first_seq_num) :
      Node.Step B config node .gc_step
        { node.write_gc_batch from_seq_num to_seq_num with
          gc_thread := .collecting to_seq_num next_first_seq_num }
  | gc_finish (hconfig : config.isSome) :
      Node.Step B config node .gc_step { node with gc_thread := .idle }
  | crash : Node.Step B config node .crash
      (Node.start_up node.wallet.context.batch_size node.db)

/-- The command in its duplicate check. -/
def ApplyThread.current : ApplyThread → Option Command
  | .applying _ ((command, _) :: _) _ => some command
  | _ => none

theorem Node.apply_step_spec (config : Option EventLogGCConfig)
    (hstep : node.apply_step B = some next) : node.Step B config .apply_step next := by
  unfold apply_step at hstep
  split at hstep
  · cases hstep
  · cases hstep
  · rename_i hthread
    cases hstep
    exact .finish hthread
  · rename_i hthread
    split at hstep
    · rename_i hcheck
      cases hstep
      exact .proceed hthread (check_step_spec hcheck)
    · rename_i hcheck
      cases hstep
      exact .duplicate hthread (check_step_spec hcheck)
    · rename_i hcheck
      cases hstep
      exact .fresh hthread (check_step_spec hcheck)
    · rename_i hcheck
      cases hstep
      exact .missing hthread (check_step_spec hcheck)

theorem Node.gc_step_spec (B : BigDecimal) (gc_config : EventLogGCConfig) (node : Node) :
    node.Step B (some gc_config) .gc_step (node.gc_step gc_config) := by
  unfold gc_step
  split
  · exact .gc_stay rfl
  · unfold EventLogGCLoop.should_gc
    by_cases hless : node.db.last_seq_num ≥ node.db.first_seq_num
    · by_cases hlimit : node.db.last_seq_num - node.db.first_seq_num < gc_config.count_limit
      · simp only [hless, hlimit, ↓reduceIte]
        exact .gc_stay rfl
      · simp only [hless, hlimit, ↓reduceIte]
        have hcount := gc_config.gc_count_le
        exact .gc_start rfl (by omega)
    · simp only [hless, ↓reduceIte]
      exact .gc_panic rfl (by omega)
  · rename_i hthread
    split
    · rename_i hless
      exact .gc_batch rfl hthread hless rfl
    · exact .gc_finish rfl

/-- Every step of the executable node is one of the listed ones. -/
theorem Node.step_spec {action : Action} (hstep : node.step B config action = some next) :
    node.Step B config action next := by
  cases action with
  | receive entry =>
    simp only [Node.step] at hstep
    split at hstep
    · rename_i hready
      cases hstep
      exact .receive entry hready.1 hready.2
    · cases hstep
  | apply_step => exact apply_step_spec config hstep
  | flush =>
    simp only [Node.step] at hstep
    split at hstep
    · rename_i hidle
      obtain ⟨wallet, hflush, rfl⟩ := Option.map_eq_some_iff.mp hstep
      exact .flush hidle hflush
    · cases hstep
  | gc_step =>
    obtain ⟨gc_config, rfl, rfl⟩ := Option.map_eq_some_iff.mp hstep
    exact gc_step_spec B gc_config node
  | crash =>
    cases hstep
    exact .crash

variable (B config)

/-- Uninterrupted, the duplicate check and the handling after it are
`handle_command`. -/
theorem Node.run_handle_command (node : Node) {log_index offset : Nat} {command : Command}
    {pending : List (Command × Nat)}
    (hthread : node.apply_thread = .applying log_index ((command, offset) :: pending) .start) :
    ∃ steps, run (Node.step B config) node (List.replicate steps .apply_step) =
      some (match node.wallet.handle_command B log_index offset command with
        | some wallet =>
          { node with wallet := wallet, apply_thread := .applying log_index pending .start }
        | none => { node with apply_thread := .panicked }) := by
  obtain ⟨wallet, thread, gc_thread⟩ := node
  cases hthread
  unfold Wallet.handle_command StateMachine.maybe_handle_duplicate_command
    StateMachine.get_seq_num StateMachine.get_event
  cases hcached : wallet.statemachine.seq_num_cache.lookup command.command_id with
  | some seq_num =>
    cases hevent : wallet.statemachine.event_cache.lookup seq_num with
    | some event =>
      refine ⟨2, ?_⟩
      simp [Node.step, apply_step, check_step, hcached, hevent]
    | none =>
      cases hread : wallet.statemachine.rocksdb_state.read_event_from_db seq_num with
      | some event | none =>
        refine ⟨3, ?_⟩
        simp [Node.step, apply_step, check_step, hcached, hevent, hread]
  | none =>
    cases hpersisted :
      wallet.statemachine.rocksdb_state.read_seq_num_from_db command.command_id with
    | none =>
      refine ⟨2, ?_⟩
      simp [Node.step, apply_step, check_step, hcached, hpersisted]
    | some seq_num =>
      cases hevent : wallet.statemachine.event_cache.lookup seq_num with
      | some event =>
        refine ⟨3, ?_⟩
        simp [Node.step, apply_step, check_step, hcached, hpersisted, hevent]
      | none =>
        cases hread : wallet.statemachine.rocksdb_state.read_event_from_db seq_num with
        | some event | none =>
          refine ⟨4, ?_⟩
          simp [Node.step, apply_step, check_step, hcached, hpersisted, hevent, hread]

theorem Node.run_handle_commands (node : Node) {log_index : Nat} {commands : List (Command × Nat)}
    {last : Wallet} (hthread : node.apply_thread = .applying log_index commands .start)
    (hcommands : node.wallet.handle_commands B log_index commands = some last) :
    ∃ steps, run (Node.step B config) node (List.replicate steps .apply_step) =
      some { node with wallet := last.finish_entry log_index, apply_thread := .idle } := by
  induction commands generalizing node with
  | nil =>
    cases hcommands
    refine ⟨1, ?_⟩
    simp [Node.step, apply_step, hthread]
  | cons item commands ih =>
    obtain ⟨command, offset⟩ := item
    obtain ⟨wallet, hhandle, hrest⟩ := run_cons_eq_some_iff.mp hcommands
    obtain ⟨first, hfirst⟩ := run_handle_command B config node hthread
    rw [hhandle] at hfirst
    obtain ⟨rest, hrun⟩ := ih
      { node with wallet := wallet, apply_thread := .applying log_index commands .start } rfl hrest
    refine ⟨first + rest, ?_⟩
    rw [List.replicate_add, run_append, hfirst]
    exact hrun

/-- Uninterrupted, taking an entry and stepping through it is `apply_entry`. -/
theorem Node.run_apply_entry (node : Node) (hidle : node.apply_thread = .idle) {entry : Entry}
    {last : Wallet} (hentry : node.wallet.apply_entry B entry = some last) :
    ∃ steps, run (Node.step B config) node (.receive entry :: List.replicate steps .apply_step) =
      some { node with wallet := last } := by
  obtain ⟨hindex, middle, hcommands, rfl⟩ := Wallet.apply_entry_eq_some_iff.mp hentry
  obtain ⟨steps, hrun⟩ := run_handle_commands B config
    { node with apply_thread := .applying entry.1 entry.2.zipIdx .start } rfl hcommands
  refine ⟨steps, ?_⟩
  have hreceive : node.step B config (.receive entry) =
      some { node with apply_thread := .applying entry.1 entry.2.zipIdx .start } := by
    simp [Node.step, hidle, hindex]
  rw [run_cons, hreceive, Option.bind_some, hrun, hidle]

/-- The end of a round of the apply loop, whatever time has passed, is a flush of the node
or no step at all; the assertion of the flush holds unless the batch size is zero. -/
theorem Node.run_maybe_flush (node : Node) (hidle : node.apply_thread = .idle)
    (hbatch_size : 0 < node.wallet.context.batch_size) (elapsed_ms : Nat) :
    ∃ wallet, node.wallet.maybe_flush elapsed_ms = some wallet ∧ ∃ actions ⊆ [Action.flush],
      run (Node.step B config) node actions = some { node with wallet := wallet } := by
  unfold Wallet.maybe_flush
  split
  · rename_i hflush
    have happlied : node.wallet.statemachine.applied_index >
        node.wallet.context.flushed_applied_index := by
      unfold Wallet.should_flush at hflush
      split at hflush
      · omega
      · exact (of_decide_eq_true hflush).1
    refine ⟨_, if_pos happlied, [.flush], List.Subset.refl _, ?_⟩
    simp [Node.step, hidle, Wallet.flush, happlied]
  · exact ⟨_, rfl, [], List.nil_subset _, rfl⟩

/-- A round of the apply loop is a run of the node. -/
theorem Node.run_round (node : Node) (hidle : node.apply_thread = .idle) {entries : List Entry}
    {applied : Wallet} (hentries : run (Wallet.apply_entry B) node.wallet entries = some applied)
    (hbatch_size : 0 < applied.context.batch_size) (elapsed_ms : Nat) :
    ∃ wallet actions, applied.maybe_flush elapsed_ms = some wallet ∧
      run (Node.step B config) node actions = some { node with wallet := wallet } := by
  induction entries generalizing node with
  | nil =>
    cases hentries
    obtain ⟨wallet, hflush, actions, -, hrun⟩ :=
      run_maybe_flush B config node hidle hbatch_size elapsed_ms
    exact ⟨wallet, actions, hflush, hrun⟩
  | cons entry entries ih =>
    obtain ⟨next, hentry, hrest⟩ := run_cons_eq_some_iff.mp hentries
    obtain ⟨steps, hsteps⟩ := run_apply_entry B config node hidle hentry
    obtain ⟨wallet, actions, hflush, hrun⟩ := ih { node with wallet := next } hidle hrest
    exact ⟨wallet, _, hflush, run_append_eq_some_iff.mpr ⟨_, hsteps, hrun⟩⟩

end firm_wallet.node
