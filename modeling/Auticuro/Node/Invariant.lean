import Auticuro.Node.Steps
import Auticuro.StateMachine.EventLog

open Run

namespace firm_wallet.node

open balance_calculator internal_servicepb rocksdb_state state_machine gc

/-- What holds of a node in every interleaving: the event log is in order, the
next flush would persist the last number, a command past its cache lookup is
not cached, and nothing is persisted below where the collector works. -/
structure Node.Consistent (node : Node) : Prop where
  mirrored : node.wallet.Mirrored
  log : node.wallet.statemachine.EventLog
  settled : node.apply_thread = .idle →
    (node.db.write_opt node.wallet.context.wb).last_seq_num = node.wallet.statemachine.last_seq_num
  not_cached : ∀ log_index command offset pending, node.apply_thread =
      .applying log_index ((command, offset) :: pending) .seq_num_cache_missed →
    node.wallet.statemachine.seq_num_cache.lookup command.command_id = none
  collecting : ∀ from_seq_num next_first_seq_num,
    node.gc_thread = .collecting from_seq_num next_first_seq_num →
      node.db.NothingBelow from_seq_num ∧ from_seq_num ≤ node.db.last_seq_num + 1 ∧
        next_first_seq_num ≤ node.db.last_seq_num
  gc_alive : node.gc_thread ≠ .panicked

theorem Node.write_gc_batch_get_event {node : Node} {from_seq_num to_seq_num seq_num : Nat}
    (hkept : ¬ (from_seq_num ≤ seq_num ∧ seq_num < to_seq_num)) :
    (node.write_gc_batch from_seq_num to_seq_num).wallet.statemachine.get_event seq_num =
      node.wallet.statemachine.get_event seq_num := by
  rw [StateMachine.get_event_eq_or, StateMachine.get_event_eq_or]
  congr 1
  exact (EventLogGCLoop.gc_batch_events _ _ _ _).trans (if_neg hkept)

namespace Node.Consistent

theorem start_up (batch_size : Nat) {db : RocksDBState} (hdb : db.HoldsLog) :
    (Node.start_up batch_size db).Consistent where
  mirrored := Wallet.Mirrored.recover_from_db batch_size db
  log := StateMachine.EventLog.recover_from_db batch_size hdb
  settled := fun _ => rfl
  not_cached := by
    intro log_index command offset pending hthread
    cases hthread
  collecting := by
    intro from_seq_num next_first_seq_num hthread
    cases hthread
  gc_alive := by
    intro hthread
    cases hthread

variable {B : BigDecimal} {node next : Node}

section

variable (hnode : node.Consistent)
include hnode

/-- The wallet after the duplicate check found nothing. -/
theorem handle_new_command (log_index offset : Nat) {command : Command}
    (hnew : node.wallet.statemachine.get_seq_num command.command_id = none) :
    (node.wallet.handle_new_command B log_index offset command).Mirrored ∧
      (node.wallet.handle_new_command B log_index offset command).statemachine.EventLog ∧
      (node.wallet.handle_new_command B log_index offset command).statemachine.rocksdb_state =
        node.db := by
  rw [Wallet.handle_new_command_eq]
  cases hplan : node.wallet.statemachine.plan B command.payload with
  | error e =>
    exact ⟨⟨hnode.mirrored.events, hnode.mirrored.dedup, hnode.mirrored.first_seq_num⟩,
      hnode.log, rfl⟩
  | ok plan =>
    exact ⟨hnode.mirrored.executed log_index offset command plan,
      hnode.log.executed hnew hplan, rfl⟩

/-- The two reads of the check together are `get_seq_num`. -/
theorem get_seq_num_of_fresh {log_index offset : Nat} {command : Command}
    {pending : List (Command × Nat)} {phase : CheckPhase}
    (hthread : node.apply_thread = .applying log_index ((command, offset) :: pending) phase)
    (hcheck : CheckStep node.wallet.statemachine command.command_id phase .fresh) :
    node.wallet.statemachine.get_seq_num command.command_id = none := by
  cases hcheck with
  | seq_num_absent hread =>
    have hcached := hnode.not_cached log_index command offset pending hthread
    rw [StateMachine.get_seq_num_eq_or, hcached, Option.none_or]
    exact hread

theorem flush (hidle : node.apply_thread = .idle) {wallet : Wallet}
    (hflush : node.wallet.flush = some wallet) : { node with wallet := wallet }.Consistent := by
  have hlog := hnode.log.flush hnode.mirrored (hnode.settled hidle) hflush
  have hsettled := hnode.settled hidle
  have hlast := hnode.log.last_le
  have hmirrored := Wallet.Mirrored.flush hflush
  obtain ⟨_, rfl⟩ := Wallet.flush_eq_some_iff.mp hflush
  refine ⟨hmirrored, hlog, ?_, ?_, ?_, hnode.gc_alive⟩
  · intro _
    exact hsettled
  · intro _ _ _ _ happlying
    cases hidle.symm.trans happlying
  · intro from_seq_num next_first_seq_num hthread
    obtain ⟨hbelow, hfrom, hnext⟩ := hnode.collecting from_seq_num next_first_seq_num hthread
    change RocksDBState.NothingBelow (node.db.write_opt node.wallet.context.wb) _ ∧
      _ ≤ RocksDBState.last_seq_num (node.db.write_opt node.wallet.context.wb) + 1 ∧
      _ ≤ RocksDBState.last_seq_num (node.db.write_opt node.wallet.context.wb)
    rw [hsettled]
    refine ⟨?_, le_trans hfrom (Nat.succ_le_succ hlast), le_trans hnext hlast⟩
    exact hnode.log.write_opt_nothingBelow hnode.mirrored hbelow hfrom

/-- Nothing is left below where the collector works, in the cache neither. -/
theorem get_event_below {from_seq_num next_first_seq_num seq_num : Nat}
    (hthread : node.gc_thread = .collecting from_seq_num next_first_seq_num)
    (hbelow : seq_num < from_seq_num) : node.wallet.statemachine.get_event seq_num = none := by
  obtain ⟨hnothing, hfrom, _⟩ := hnode.collecting from_seq_num next_first_seq_num hthread
  have hread : node.wallet.statemachine.rocksdb_state.events.lookup seq_num = none :=
    hnothing seq_num hbelow
  have hcached : node.wallet.statemachine.event_cache.lookup seq_num = none := by
    apply hnode.log.cached.eq_none_of_not_range
    change ¬ (node.db.last_seq_num + 1 ≤ _ ∧ _)
    omega
  rw [StateMachine.get_event_eq_or, hcached, hread, Option.none_or]

/-- A batch of the collector changes the front of the persisted log only. -/
theorem write_gc_batch {from_seq_num next_first_seq_num to_seq_num : Nat}
    (hthread : node.gc_thread = .collecting from_seq_num next_first_seq_num)
    (hto : to_seq_num ≤ next_first_seq_num) :
    { node.write_gc_batch from_seq_num to_seq_num with
      gc_thread := .collecting to_seq_num next_first_seq_num }.Consistent := by
  obtain ⟨hbelow, _, hnext⟩ := hnode.collecting from_seq_num next_first_seq_num hthread
  refine ⟨⟨hnode.mirrored.events, hnode.mirrored.dedup, hnode.mirrored.first_seq_num⟩, ?_, ?_,
    hnode.not_cached, ?_, ?_⟩
  · exact hnode.log.gc_batch hbelow (le_trans hto hnext)
  · intro hidle
    have hlast := EventLogGCLoop.gc_batch_hard_state from_seq_num to_seq_num node.db
      .PERSISTED_LAST_SEQ_NUM
    exact (RocksDBState.write_opt_last_seq_num_congr hlast _).trans (hnode.settled hidle)
  · rintro _ _ ⟨⟩
    change (EventLogGCLoop.gc_batch _ _ _).NothingBelow to_seq_num ∧
      to_seq_num ≤ (EventLogGCLoop.gc_batch _ _ _).last_seq_num + 1 ∧
      next_first_seq_num ≤ (EventLogGCLoop.gc_batch _ _ _).last_seq_num
    rw [EventLogGCLoop.gc_batch_last_seq_num]
    exact ⟨hbelow.gc_batch, by omega, hnext⟩
  · intro hpanicked
    cases hpanicked

/-- Changing the collector's place changes nothing else. -/
theorem set_gc_thread {gc_thread : GcThread} (hcollecting : ∀ from_seq_num next_first_seq_num,
      gc_thread = .collecting from_seq_num next_first_seq_num →
        node.db.NothingBelow from_seq_num ∧ from_seq_num ≤ node.db.last_seq_num + 1 ∧
          next_first_seq_num ≤ node.db.last_seq_num) (halive : gc_thread ≠ .panicked) :
    { node with gc_thread := gc_thread }.Consistent :=
  ⟨hnode.mirrored, hnode.log, hnode.settled, hnode.not_cached, hcollecting, halive⟩

/-- A step of the apply thread that touches neither caches nor batch. -/
theorem set_apply_thread {apply_thread : ApplyThread} (hidle : apply_thread ≠ .idle)
    (hnot_cached : ∀ log_index command offset pending,
      apply_thread = .applying log_index ((command, offset) :: pending) .seq_num_cache_missed →
        node.wallet.statemachine.seq_num_cache.lookup command.command_id = none) :
    { node with apply_thread := apply_thread }.Consistent :=
  ⟨hnode.mirrored, hnode.log, fun hthread => absurd hthread hidle, hnot_cached, hnode.collecting,
    hnode.gc_alive⟩

theorem step {config : Option EventLogGCConfig} {action : Action}
    (hstep : node.step B config action = some next) : next.Consistent := by
  cases Node.step_spec hstep with
  | receive entry =>
    apply hnode.set_apply_thread
    · intro hidle
      cases hidle
    · intro _ _ _ _ happlying
      injection happlying with _ _ hphase
      cases hphase
  | @finish log_index _ _ =>
    refine ⟨hnode.mirrored.finish_entry log_index, ?_, ?_, ?_, hnode.collecting, hnode.gc_alive⟩
    · exact ⟨hnode.log.persisted, hnode.log.cached, hnode.log.fresh, hnode.log.last_le⟩
    · intro _
      change RocksDBState.last_seq_num
        (node.db.write_opt (node.wallet.finish_entry log_index).context.wb) = _
      rw [Wallet.write_opt_finish_entry]
      rfl
    · intro _ _ _ _ hidle
      cases hidle
  | proceed hthread hcheck =>
    apply hnode.set_apply_thread
    · intro hidle
      cases hidle
    · intro _ _ _ _ happlying
      cases happlying
      cases hcheck with
      | seq_num_not_cached hcached => exact hcached
  | duplicate hthread hcheck =>
    refine ⟨⟨hnode.mirrored.events, hnode.mirrored.dedup, hnode.mirrored.first_seq_num⟩, ?_, ?_, ?_,
      hnode.collecting, hnode.gc_alive⟩
    · exact ⟨hnode.log.persisted, hnode.log.cached, hnode.log.fresh, hnode.log.last_le⟩
    · intro hidle
      cases hidle
    · intro _ _ _ _ happlying
      cases happlying
  | @fresh log_index offset _ _ _ hthread hcheck =>
    have hnew := hnode.get_seq_num_of_fresh hthread hcheck
    obtain ⟨hmirrored, hlog, hdb⟩ := hnode.handle_new_command (B := B) log_index offset hnew
    refine ⟨hmirrored, hlog, ?_, ?_, ?_, hnode.gc_alive⟩
    · intro hidle
      cases hidle
    · intro _ _ _ _ happlying
      cases happlying
    · intro from_seq_num next_first_seq_num hcollecting
      change RocksDBState.NothingBelow (StateMachine.rocksdb_state _) _ ∧
        _ ≤ RocksDBState.last_seq_num (StateMachine.rocksdb_state _) + 1 ∧
        _ ≤ RocksDBState.last_seq_num (StateMachine.rocksdb_state _)
      rw [hdb]
      exact hnode.collecting from_seq_num next_first_seq_num hcollecting
  | missing =>
    apply hnode.set_apply_thread
    · intro hidle
      cases hidle
    · intro _ _ _ _ happlying
      cases happlying
  | flush hidle hflush => exact hnode.flush hidle hflush
  | gc_stay => exact hnode
  | gc_panic _ hless =>
    have hfirst : node.db.first_seq_num ≤ node.db.last_seq_num := hnode.log.persisted.first_le
    omega
  | gc_start _ hcount =>
    apply hnode.set_gc_thread
    · rintro _ _ ⟨⟩
      exact ⟨hnode.log.persisted.nothingBelow_max, by omega, hcount⟩
    · intro hpanicked
      cases hpanicked
  | gc_batch _ hthread _ hto =>
    rw [hto]
    exact hnode.write_gc_batch hthread (EventLogGCLoop.batch_end_le _ _ _)
  | gc_finish =>
    apply hnode.set_gc_thread
    · intro _ _ hthread
      cases hthread
    · intro hpanicked
      cases hpanicked
  | crash => exact Consistent.start_up _ hnode.log.persisted

end

/-- Every interleaving keeps the node consistent. -/
theorem of_run {config : Option EventLogGCConfig} {batch_size : Nat} {actions : List Action}
    {last : Node}
    (hrun : run (Node.step B config) (Node.start_up batch_size RocksDBState.empty) actions =
      some last) : last.Consistent :=
  run_invariant (fun _ _ _ hnode hstep => hnode.step hstep)
    (Consistent.start_up batch_size RocksDBState.HoldsLog.empty) hrun

end Node.Consistent

end firm_wallet.node
