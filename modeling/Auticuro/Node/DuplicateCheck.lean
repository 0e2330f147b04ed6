import Auticuro.Node.Gapless

open Run

namespace firm_wallet.node

open balance_calculator internal_servicepb rocksdb_state state_machine gc

/-- The number that the duplicate check has found and whose event it has still
to read. -/
def ApplyThread.held : ApplyThread → Option Nat
  | .applying _ (_ :: _) (.seq_num_found seq_num) => some seq_num
  | .applying _ (_ :: _) (.event_cache_missed seq_num) => some seq_num
  | _ => none

/-- The next step of the collector deletes the event under this number. -/
def Node.collects (config : Option EventLogGCConfig) (self : Node) (seq_num : Nat) : Bool :=
  match config, self.gc_thread with
  | some gc_config, .collecting from_seq_num next_first_seq_num =>
    from_seq_num ≤ seq_num ∧
      seq_num < EventLogGCLoop.batch_end gc_config from_seq_num next_first_seq_num
  | _, _ => false

/-- The collector deletes no event whose number the duplicate check holds. -/
def Node.SparesHeld (config : Option EventLogGCConfig) (node : Node) (action : Action) : Prop :=
  action = .gc_step → node.apply_thread.held.all fun seq_num => !node.collects config seq_num

instance (config : Option EventLogGCConfig) (node : Node) (action : Action) :
    Decidable (node.SparesHeld config action) :=
  inferInstanceAs (Decidable (_ → _))

variable {B : BigDecimal} {config : Option EventLogGCConfig} {node next : Node}

/-- What the check relies on between its reads. -/
structure Node.CheckSafe (node : Node) : Prop where
  consistent : node.Consistent
  held : ∀ seq_num, node.apply_thread.held = some seq_num →
    (node.wallet.statemachine.get_event seq_num).isSome
  missed : ∀ log_index pending seq_num,
    node.apply_thread = .applying log_index pending (.event_cache_missed seq_num) →
      node.wallet.statemachine.event_cache.lookup seq_num = none
  running : node.apply_thread ≠ .panicked

/-- Outside of a check there is nothing to rely on. -/
theorem Node.CheckSafe.of_start (hnode : node.Consistent) {log_index : Nat}
    {pending : List (Command × Nat)}
    (hthread : node.apply_thread = .applying log_index pending .start) : node.CheckSafe where
  consistent := hnode
  held := by
    intro seq_num hheld
    rw [hthread] at hheld
    cases pending <;> cases hheld
  missed := by
    intro _ _ seq_num hmissed
    cases hthread.symm.trans hmissed
  running := by
    intro hpanicked
    cases hthread.symm.trans hpanicked

theorem Node.CheckSafe.of_idle (hnode : node.Consistent) (hthread : node.apply_thread = .idle) :
    node.CheckSafe where
  consistent := hnode
  held := by
    intro seq_num hheld
    rw [hthread] at hheld
    cases hheld
  missed := by
    intro _ _ seq_num hmissed
    cases hthread.symm.trans hmissed
  running := by
    intro hpanicked
    cases hthread.symm.trans hpanicked

variable {seq_num : Nat}

/-- A number that the check finds, in the cache or in the database, has an
event at that moment. -/
theorem Node.Consistent.get_event_isSome (hnode : node.Consistent) {command_id : String}
    (hfound : node.wallet.statemachine.get_seq_num command_id = some seq_num) :
    (node.wallet.statemachine.get_event seq_num).isSome := by
  obtain ⟨event, hevent, _⟩ := (hnode.log.index command_id seq_num).mp hfound
  rw [hevent]
  rfl

theorem Node.Consistent.get_seq_num_of_found (hnode : node.Consistent) {log_index offset : Nat}
    {command : Command} {pending : List (Command × Nat)} {phase : CheckPhase}
    (hthread : node.apply_thread = .applying log_index ((command, offset) :: pending) phase)
    (hcheck : CheckStep node.wallet.statemachine command.command_id phase
      (.proceed (.seq_num_found seq_num))) :
    node.wallet.statemachine.get_seq_num command.command_id = some seq_num := by
  rw [StateMachine.get_seq_num_eq_or]
  cases hcheck with
  | seq_num_cached hcached => rw [hcached, Option.some_or]
  | seq_num_persisted hread =>
    rw [hnode.not_cached log_index command offset pending hthread, Option.none_or]
    exact hread

/-- A check that goes on holds a number only if that has an event. -/
theorem Node.CheckSafe.proceed (hnode : node.CheckSafe) {log_index offset : Nat}
    {command : Command} {pending : List (Command × Nat)} {phase phase' : CheckPhase}
    (hthread : node.apply_thread = .applying log_index ((command, offset) :: pending) phase)
    (hcheck : CheckStep node.wallet.statemachine command.command_id phase (.proceed phase'))
    (hnext : { node with
      apply_thread := .applying log_index ((command, offset) :: pending) phase' }.Consistent) :
    { node with
      apply_thread := .applying log_index ((command, offset) :: pending) phase' }.CheckSafe := by
  refine ⟨hnext, ?_, ?_, ?_⟩
  · intro seq_num hheld
    change (node.wallet.statemachine.get_event seq_num).isSome
    cases phase' with
    | start | seq_num_cache_missed => cases hheld
    | seq_num_found found =>
      cases hheld
      exact hnode.consistent.get_event_isSome (hnode.consistent.get_seq_num_of_found hthread hcheck)
    | event_cache_missed found =>
      cases hheld
      cases hcheck with
      | event_not_cached => exact hnode.held seq_num (by rw [hthread]; rfl)
  · intro _ _ seq_num hmissed
    cases hmissed
    cases hcheck with
    | event_not_cached hcached => exact hcached
  · intro hpanicked
    cases hpanicked

variable {gc_config : EventLogGCConfig}

theorem Node.SparesHeld.not_collected (hspares : node.SparesHeld (some gc_config) .gc_step)
    {from_seq_num next_first_seq_num to_seq_num seq_num : Nat}
    (hthread : node.gc_thread = .collecting from_seq_num next_first_seq_num)
    (hto : to_seq_num = EventLogGCLoop.batch_end gc_config from_seq_num next_first_seq_num)
    (hheld : node.apply_thread.held = some seq_num) :
    ¬ (from_seq_num ≤ seq_num ∧ seq_num < to_seq_num) := by
  have hspared := hspares rfl
  simp only [hheld, Option.all_some, collects, hthread, ← hto, Bool.not_eq_true',
    decide_eq_false_iff_not] at hspared
  exact hspared

theorem Node.CheckSafe.gc_batch (hnode : node.CheckSafe)
    {from_seq_num next_first_seq_num to_seq_num : Nat}
    (hthread : node.gc_thread = .collecting from_seq_num next_first_seq_num)
    (hto : to_seq_num = EventLogGCLoop.batch_end gc_config from_seq_num next_first_seq_num)
    (hspares : node.SparesHeld (some gc_config) .gc_step)
    (hnext : { node.write_gc_batch from_seq_num to_seq_num with
      gc_thread := .collecting to_seq_num next_first_seq_num }.Consistent) :
    { node.write_gc_batch from_seq_num to_seq_num with
      gc_thread := .collecting to_seq_num next_first_seq_num }.CheckSafe := by
  refine ⟨hnext, ?_, hnode.missed, hnode.running⟩
  intro seq_num hheld
  change node.apply_thread.held = some seq_num at hheld
  have hkept := hspares.not_collected hthread hto hheld
  change (StateMachine.get_event
    (node.write_gc_batch from_seq_num to_seq_num).wallet.statemachine seq_num).isSome
  rw [write_gc_batch_get_event hkept]
  exact hnode.held seq_num hheld

theorem Node.CheckSafe.step {action : Action} (hnode : node.CheckSafe)
    (hspares : node.SparesHeld config action) (hstep : node.step B config action = some next) :
    next.CheckSafe := by
  have hconsistent := hnode.consistent.step hstep
  cases Node.step_spec hstep with
  | receive entry => exact CheckSafe.of_start hconsistent rfl
  | finish => exact CheckSafe.of_idle hconsistent rfl
  | proceed hthread hcheck => exact hnode.proceed hthread hcheck hconsistent
  | duplicate | fresh => exact CheckSafe.of_start hconsistent rfl
  | missing hthread hcheck =>
    exfalso
    cases hcheck with
    | @event_absent seq_num hread =>
      have hevent := hnode.held seq_num (by rw [hthread]; rfl)
      rw [StateMachine.get_event_eq_or, hread, hnode.missed _ _ seq_num hthread] at hevent
      cases hevent
  | flush hidle => exact CheckSafe.of_idle hconsistent hidle
  | gc_stay => exact hnode
  | gc_panic | gc_start => exact ⟨hconsistent, hnode.held, hnode.missed, hnode.running⟩
  | gc_batch hconfig hthread hless hto =>
    cases hconfig
    exact hnode.gc_batch hthread hto hspares hconsistent
  | gc_finish => exact ⟨hconsistent, hnode.held, hnode.missed, hnode.running⟩
  | crash => exact CheckSafe.of_idle hconsistent rfl

/-- A collected number is neither in the cache nor in the database. -/
theorem Node.CheckSafe.gone_of_collects (hnode : node.CheckSafe)
    (hcollects : node.collects (some gc_config) seq_num) :
    (node.gc_step gc_config).apply_thread = node.apply_thread ∧
      (node.gc_step gc_config).wallet.statemachine.event_cache.lookup seq_num = none ∧
      (node.gc_step gc_config).db.events.lookup seq_num = none := by
  unfold collects at hcollects
  split at hcollects
  · rename_i found from_seq_num next_first_seq_num hconfig hthread
    cases hconfig
    obtain ⟨hlow, hhigh⟩ : from_seq_num ≤ seq_num ∧
        seq_num < EventLogGCLoop.batch_end gc_config from_seq_num next_first_seq_num := by
      simpa using hcollects
    obtain ⟨_, _, hnext⟩ := hnode.consistent.collecting from_seq_num next_first_seq_num hthread
    have hto := EventLogGCLoop.batch_end_le gc_config from_seq_num next_first_seq_num
    have hless : from_seq_num < next_first_seq_num := by omega
    have hcached : node.wallet.statemachine.event_cache.lookup seq_num = none := by
      apply hnode.consistent.log.cached.eq_none_of_not_range
      change ¬ (node.db.last_seq_num + 1 ≤ seq_num ∧ _)
      omega
    unfold gc_step
    simp only [hthread, hless, ↓reduceIte]
    exact ⟨rfl, hcached, (EventLogGCLoop.gc_batch_events _ _ _ _).trans (if_pos ⟨hlow, hhigh⟩)⟩
  · cases hcollects

theorem ApplyThread.held_eq_some {apply_thread : ApplyThread}
    (hheld : apply_thread.held = some seq_num) :
    ∃ log_index command offset pending phase,
      apply_thread = .applying log_index ((command, offset) :: pending) phase ∧
      (phase = .seq_num_found seq_num ∨ phase = .event_cache_missed seq_num) := by
  unfold held at hheld
  split at hheld
  · cases hheld
    exact ⟨_, _, _, _, _, rfl, .inl rfl⟩
  · cases hheld
    exact ⟨_, _, _, _, _, rfl, .inr rfl⟩
  · cases hheld

/-- A batch that deletes the event under the held number makes the check
unwrap nothing. -/
theorem Node.CheckSafe.panics_of_collects (hnode : node.CheckSafe)
    (hheld : node.apply_thread.held = some seq_num)
    (hcollects : node.collects (some gc_config) seq_num) :
    ∃ steps, (run (Node.step B (some gc_config)) node
      (.gc_step :: List.replicate steps .apply_step)).map Node.apply_thread = some .panicked := by
  obtain ⟨hthread, hcached, hread⟩ := hnode.gone_of_collects hcollects
  obtain ⟨log_index, command, offset, pending, phase, happlying, hphase⟩ :=
    ApplyThread.held_eq_some hheld
  rw [happlying] at hthread
  unfold db at hread
  obtain rfl | rfl := hphase
  · refine ⟨2, ?_⟩
    simp [Node.step, apply_step, hthread, check_step, hcached,
      RocksDBState.read_event_from_db, hread]
  · refine ⟨1, ?_⟩
    simp [Node.step, apply_step, hthread, check_step, RocksDBState.read_event_from_db, hread]

/-- The duplicate check is safe as long as the collector never deletes the
event under the number that the check has just found: in every such
interleaving the number has an event whenever the check holds it, and the apply
thread does not panic. One batch that does delete it makes it panic. -/
theorem Node.duplicate_check_safe (B : BigDecimal) (config : Option EventLogGCConfig)
    (batch_size : Nat) (actions : List Action) (last : Node)
    (halong : Along (Node.step B config) (Node.SparesHeld config)
      (Node.start_up batch_size RocksDBState.empty) actions)
    (hrun : run (Node.step B config) (Node.start_up batch_size RocksDBState.empty) actions =
      some last) :
    last.apply_thread ≠ .panicked ∧
    (∀ seq_num, last.apply_thread.held = some seq_num →
      (last.wallet.statemachine.get_event seq_num).isSome) ∧
    ∀ gc_config seq_num, last.apply_thread.held = some seq_num →
      last.collects (some gc_config) seq_num →
      ∃ steps, (run (Node.step B (some gc_config)) last
        (.gc_step :: List.replicate steps .apply_step)).map Node.apply_thread =
          some .panicked := by
  have hstart : (Node.start_up batch_size RocksDBState.empty).CheckSafe :=
    CheckSafe.of_idle (Consistent.start_up batch_size RocksDBState.HoldsLog.empty) rfl
  have hlast : last.CheckSafe :=
    run_invariant_along (fun _ _ _ hnode hspares hnext => hnode.step hspares hnext)
      hstart halong hrun
  refine ⟨hlast.running, hlast.held, ?_⟩
  intro gc_config seq_num hheld hcollects
  exact hlast.panics_of_collects hheld hcollects

def eightCommands : List Command :=
  [creditAccount "1" "a" "5", createAccount "2" "b", createAccount "3" "c", createAccount "4" "d",
    createAccount "5" "e", createAccount "6" "f", createAccount "7" "g", createAccount "8" "h"]

/-- Eight commands are handled and flushed, and the collector decides to delete
the event of the first. -/
def collectingTrace : List Action :=
  .receive (6, eightCommands) :: List.replicate 17 .apply_step ++ [.flush, .gc_step]

theorem Node.duplicate_check_safe_other_number :
    ∃ last, run (Node.step plainDecimal (some quarterOfEight))
        (Node.start_up 100 RocksDBState.empty)
        (collectingTrace ++ [.receive (7, [createAccount "2" "b"]), .apply_step, .apply_step,
          .gc_step, .apply_step]) = some last ∧ last.apply_thread ≠ .panicked := by
  obtain ⟨last, hrun⟩ : ∃ last, run (Node.step plainDecimal (some quarterOfEight))
      (Node.start_up 100 RocksDBState.empty)
      (collectingTrace ++ [.receive (7, [createAccount "2" "b"]), .apply_step, .apply_step,
        .gc_step, .apply_step]) = some last :=
    Option.isSome_iff_exists.mp (by decide +kernel)
  exact ⟨last, hrun, (duplicate_check_safe plainDecimal (some quarterOfEight) 100 _ last
    (by decide +kernel) hrun).1⟩

/-- The first command is sent again; the collector deletes its event between
the read of its number and the read of the event. -/
theorem Node.duplicate_check_panics :
    (run (Node.step plainDecimal (some quarterOfEight)) (Node.start_up 100 RocksDBState.empty)
      (collectingTrace ++ [.receive (7, [creditAccount "1" "a" "5"]), .apply_step, .apply_step,
        .gc_step, .apply_step, .apply_step])).map Node.apply_thread = some .panicked := by
  decide +kernel

end firm_wallet.node
