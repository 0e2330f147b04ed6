import Auticuro.Decimal
import Auticuro.Node.Invariant

open Run

namespace firm_wallet

open balance_calculator errors internal_servicepb rocksdb_state state_machine gc

namespace state_machine

/-- In a state whose log is in order no command panics, and its reply says
whether it took a number: exactly the new commands that succeed do. -/
theorem Wallet.handle_command_last_seq_num (B : BigDecimal) {wallet : Wallet}
    (hlog : wallet.statemachine.EventLog) (log_index offset : Nat) (command : Command) :
    ∃ next reply, wallet.handle_command B log_index offset command = some next ∧
      next.context.inflight_event_tx =
        wallet.context.inflight_event_tx ++ [⟨⟨log_index, offset⟩, reply⟩] ∧
      next.statemachine.last_seq_num = wallet.statemachine.last_seq_num +
        if wallet.statemachine.get_seq_num command.command_id = none ∧ reply.isOk then 1
        else 0 := by
  cases hhandle : wallet.handle_command B log_index offset command with
  | none =>
    obtain ⟨seq_num, hseq, hevent⟩ := (handle_command_eq_none_iff B).mp hhandle
    obtain ⟨event, hfound, _⟩ := (hlog.index command.command_id seq_num).mp hseq
    rw [hevent] at hfound
    cases hfound
  | some next =>
    obtain ⟨seq_num, event, hseq, _, rfl⟩ | ⟨e, hseq, _, rfl⟩ | ⟨plan, hseq, _, rfl⟩ :=
      handle_command_cases B hhandle
    · refine ⟨_, _, rfl, rfl, ?_⟩
      simp [hseq, send_event]
    · refine ⟨_, _, rfl, rfl, ?_⟩
      simp [send_event, Except.isOk, Except.toBool]
    · refine ⟨_, _, rfl, rfl, ?_⟩
      simp [executed, hseq, Except.isOk, Except.toBool]

end state_machine

namespace node

/-- The numbers with an event are exactly those from the first one kept to the
last one given. -/
def Node.Gapless (node : Node) : Prop :=
  ∀ seq_num, (node.wallet.statemachine.get_event seq_num).isSome ↔
    max 1 node.db.first_seq_num ≤ seq_num ∧ seq_num ≤ node.wallet.statemachine.last_seq_num

/-- The end of the collector's next batch fits into a machine number. That of a
batch from 1 on need not: it comes out as 0, and nothing lies before 1. -/
def Node.batch_fits (config : Option EventLogGCConfig) (self : Node) : Bool :=
  match config, self.gc_thread with
  | some gc_config, .collecting from_seq_num next_first_seq_num =>
    from_seq_num < next_first_seq_num →
      from_seq_num ≤ 1 ∨ from_seq_num + gc_config.batch_size < U64.size
  | _, _ => true

def Node.BatchFits (config : Option EventLogGCConfig) (node : Node) (action : Action) : Prop :=
  action = .gc_step → node.batch_fits config

instance (config : Option EventLogGCConfig) (node : Node) (action : Action) :
    Decidable (node.BatchFits config action) :=
  inferInstanceAs (Decidable (_ → _))

variable {B : BigDecimal} {config : Option EventLogGCConfig} {node next : Node}

theorem Node.batch_fits_iff {gc_config : EventLogGCConfig} {from_seq_num next_first_seq_num : Nat}
    (hthread : node.gc_thread = .collecting from_seq_num next_first_seq_num)
    (hless : from_seq_num < next_first_seq_num) :
    node.batch_fits (some gc_config) ↔
      from_seq_num ≤ 1 ∨ from_seq_num + gc_config.batch_size < U64.size := by
  simp only [batch_fits, hthread, decide_eq_true_eq, hless, forall_const]

/-- The first persisted number is exact, and the collector works there. -/
structure Node.Exact (node : Node) : Prop where
  consistent : node.Consistent
  log : node.db.EventLog
  collecting : ∀ from_seq_num next_first_seq_num,
    node.gc_thread = .collecting from_seq_num next_first_seq_num →
      max 1 from_seq_num = max 1 node.db.first_seq_num

namespace Node.Exact

theorem start_up (batch_size : Nat) {db : RocksDBState} (hdb : db.EventLog) :
    (Node.start_up batch_size db).Exact where
  consistent := Consistent.start_up batch_size hdb.holds
  log := hdb
  collecting := by
    intro _ _ hthread
    cases hthread

theorem gapless (hnode : node.Exact) : node.Gapless := by
  intro seq_num
  have hfirst : node.db.first_seq_num ≤ node.db.last_seq_num := hnode.log.first_le
  have hwhole := hnode.consistent.log.whole_from
    (show max 1 node.db.first_seq_num ≤ node.db.last_seq_num + 1 by omega) hnode.log.segment
  rw [hwhole.range, Nat.lt_succ_iff]

/-- A batch whose end fits does not end below where it starts. -/
theorem gc_batch (hnode : node.Exact) {gc_config : EventLogGCConfig}
    {from_seq_num next_first_seq_num to_seq_num : Nat}
    (hthread : node.gc_thread = .collecting from_seq_num next_first_seq_num)
    (hless : from_seq_num < next_first_seq_num)
    (hto : to_seq_num = EventLogGCLoop.batch_end gc_config from_seq_num next_first_seq_num)
    (hfits : from_seq_num ≤ 1 ∨ from_seq_num + gc_config.batch_size < U64.size) :
    { node.write_gc_batch from_seq_num to_seq_num with
      gc_thread := .collecting to_seq_num next_first_seq_num }.Exact := by
  have hfirst := hnode.collecting from_seq_num next_first_seq_num hthread
  obtain ⟨_, _, hnext⟩ := hnode.consistent.collecting from_seq_num next_first_seq_num hthread
  have hle : to_seq_num ≤ next_first_seq_num :=
    hto ▸ EventLogGCLoop.batch_end_le gc_config from_seq_num next_first_seq_num
  have hforward : from_seq_num ≤ max 1 to_seq_num := by
    obtain hone | hsum := hfits
    · omega
    · rw [hto, EventLogGCLoop.batch_end, U64.wrapping_add_of_lt hsum]
      omega
  refine ⟨hnode.consistent.write_gc_batch hthread hle, ?_, ?_⟩
  · exact hnode.log.gc_batch hfirst hforward (le_trans hle hnext)
  · rintro _ _ ⟨⟩
    change _ = max 1 (EventLogGCLoop.gc_batch _ _ _).first_seq_num
    rw [EventLogGCLoop.gc_batch_first_seq_num]

theorem flush (hnode : node.Exact) (hidle : node.apply_thread = .idle) {wallet : Wallet}
    (hflush : node.wallet.flush = some wallet) : { node with wallet := wallet }.Exact := by
  have hconsistent := hnode.consistent.flush hidle hflush
  have hlog := hnode.consistent.log.write_opt_eventLog hnode.consistent.mirrored
    (hnode.consistent.settled hidle) hnode.log
  obtain ⟨_, rfl⟩ := Wallet.flush_eq_some_iff.mp hflush
  refine ⟨hconsistent, hlog, ?_⟩
  intro from_seq_num next_first_seq_num hthread
  change _ = max 1 (RocksDBState.first_seq_num (node.db.write_opt node.wallet.context.wb))
  rw [hnode.consistent.mirrored.write_opt_first_seq_num]
  exact hnode.collecting from_seq_num next_first_seq_num hthread

theorem step {action : Action} (hnode : node.Exact) (hfits : node.BatchFits config action)
    (hstep : node.step B config action = some next) : next.Exact := by
  have hconsistent := hnode.consistent.step hstep
  cases Node.step_spec hstep with
  | receive | finish | proceed | duplicate => exact ⟨hconsistent, hnode.log, hnode.collecting⟩
  | @fresh log_index offset _ _ _ hthread hcheck =>
    have hnew := hnode.consistent.get_seq_num_of_fresh hthread hcheck
    obtain ⟨_, _, hdb⟩ := hnode.consistent.handle_new_command (B := B) log_index offset hnew
    refine ⟨hconsistent, ?_, ?_⟩
    · change RocksDBState.EventLog (StateMachine.rocksdb_state _)
      rw [hdb]
      exact hnode.log
    · intro from_seq_num next_first_seq_num hcollecting
      change _ = max 1 (RocksDBState.first_seq_num (StateMachine.rocksdb_state _))
      rw [hdb]
      exact hnode.collecting from_seq_num next_first_seq_num hcollecting
  | missing => exact ⟨hconsistent, hnode.log, hnode.collecting⟩
  | flush hidle hflush => exact hnode.flush hidle hflush
  | gc_stay => exact hnode
  | gc_panic =>
    refine ⟨hconsistent, hnode.log, ?_⟩
    intro _ _ hthread
    cases hthread
  | gc_start =>
    refine ⟨hconsistent, hnode.log, ?_⟩
    rintro _ _ ⟨⟩
    change max 1 (max node.db.first_seq_num 1) = max 1 node.db.first_seq_num
    omega
  | gc_batch hconfig hthread hless hto =>
    cases hconfig
    exact hnode.gc_batch hthread hless hto ((batch_fits_iff hthread hless).mp (hfits rfl))
  | gc_finish =>
    refine ⟨hconsistent, hnode.log, ?_⟩
    intro _ _ hthread
    cases hthread
  | crash => exact start_up _ hnode.log

/-- Without the collector the first number is always exact. -/
theorem of_run {batch_size : Nat} {actions : List Action} {last : Node}
    (hrun : run (Node.step B none) (Node.start_up batch_size RocksDBState.empty) actions =
      some last) : last.Exact :=
  run_invariant (fun _ _ _ hnode hstep => hnode.step (fun _ => rfl) hstep)
    (start_up batch_size RocksDBState.EventLog.empty) hrun

end Node.Exact

/-- A batch whose end wraps around writes a first number below the events that
it starts with, and the number before these has no event. -/
theorem Node.Consistent.batch_fits_of_gapless (hnode : node.Consistent) {action : Action}
    (hsize : ∀ gc_config ∈ config, gc_config.batch_size < U64.size)
    (hstep : node.step B config action = some next) (hnext : next.Gapless) :
    node.BatchFits config action := by
  rintro rfl
  cases config with
  | none => cases hstep
  | some gc_config =>
    cases hthread : node.gc_thread with
    | idle | panicked => simp only [batch_fits, hthread]
    | collecting from_seq_num next_first_seq_num =>
      by_cases hless : from_seq_num < next_first_seq_num
      · refine (batch_fits_iff hthread hless).mpr ?_
        by_contra hover
        obtain ⟨_, hfrom, _⟩ := hnode.collecting from_seq_num next_first_seq_num hthread
        have hlast : node.db.last_seq_num ≤ node.wallet.statemachine.last_seq_num :=
          hnode.log.last_le
        have hback : EventLogGCLoop.batch_end gc_config from_seq_num next_first_seq_num <
            from_seq_num :=
          lt_of_le_of_lt (Nat.min_le_left _ _)
            (U64.wrapping_add_lt (hsize gc_config rfl) (by omega))
        simp only [Node.step, gc_step, hthread, hless, ↓reduceIte, Option.map_some,
          Option.some.injEq] at hstep
        subst hstep
        have hevent := (hnext (from_seq_num - 1)).mpr (by
          change max 1 (EventLogGCLoop.gc_batch _ _ _).first_seq_num ≤ _ ∧
            _ ≤ node.wallet.statemachine.last_seq_num
          rw [EventLogGCLoop.gc_batch_first_seq_num]
          omega)
        change (StateMachine.get_event (node.write_gc_batch _ _).wallet.statemachine _).isSome
          at hevent
        rw [write_gc_batch_get_event (by omega), hnode.get_event_below hthread (by omega)] at hevent
        cases hevent
      · simp [batch_fits, hthread, hless]

/-- The event log is gapless from the first persisted number on in every state
of a run, of the apply thread, the collector, flushes and restarts in any
interleaving, exactly when the end of no batch of the collector overflows. In
any case there is no gap above some number, each event carries its number, and a
command id leads to a number exactly if the event there is that command's. A
command raises the last number by one if it is new and succeeds, else by
nothing. -/
theorem Node.event_log_gapless_iff (B : BigDecimal) (config : Option EventLogGCConfig)
    (hsize : ∀ gc_config ∈ config, gc_config.batch_size < U64.size)
    (batch_size : Nat) (actions : List Action) (last : Node)
    (hrun : run (Node.step B config) (Node.start_up batch_size RocksDBState.empty) actions =
      some last) :
    (Throughout (Node.step B config)
        (fun node => ∀ seq_num, (node.wallet.statemachine.get_event seq_num).isSome ↔
          max 1 node.db.first_seq_num ≤ seq_num ∧
            seq_num ≤ node.wallet.statemachine.last_seq_num)
        (Node.start_up batch_size RocksDBState.empty) actions ↔
      Along (Node.step B config) (Node.BatchFits config)
        (Node.start_up batch_size RocksDBState.empty) actions) ∧
    (∃ first, max 1 last.db.first_seq_num ≤ first ∧
      ∀ seq_num, (last.wallet.statemachine.get_event seq_num).isSome ↔
        first ≤ seq_num ∧ seq_num ≤ last.wallet.statemachine.last_seq_num) ∧
    (∀ seq_num event, last.wallet.statemachine.get_event seq_num = some event →
      event.header.seq_num = seq_num ∧ event.payload.response_header.seq_num = seq_num) ∧
    (∀ command_id seq_num, last.wallet.statemachine.get_seq_num command_id = some seq_num ↔
      ∃ event, last.wallet.statemachine.get_event seq_num = some event ∧
        event.header.command_id = command_id) ∧
    ∀ log_index offset command, ∃ next reply,
      last.wallet.handle_command B log_index offset command = some next ∧
      next.context.inflight_event_tx =
        last.wallet.context.inflight_event_tx ++ [⟨⟨log_index, offset⟩, reply⟩] ∧
      next.statemachine.last_seq_num = last.wallet.statemachine.last_seq_num +
        if last.wallet.statemachine.get_seq_num command.command_id = none ∧ reply.isOk then 1
        else 0 := by
  have hlog := (Consistent.of_run hrun).log
  refine ⟨?_, ?_, fun _ _ hevent => hlog.valid hevent, hlog.index,
    Wallet.handle_command_last_seq_num B hlog⟩
  · exact throughout_iff_along (P := Node.Gapless)
      (fun _ (hnode : Node.Exact _) => hnode.gapless)
      (fun _ _ _ hnode hfits hstep => hnode.step hfits hstep)
      (fun _ _ _ hnode hstep hnext => hnode.consistent.batch_fits_of_gapless hsize hstep hnext)
      (Exact.start_up batch_size RocksDBState.EventLog.empty) hrun
  · obtain ⟨first, hpos, hfirst, hwhole⟩ := hlog.whole
    refine ⟨first, max_le hpos hfirst, ?_⟩
    intro seq_num
    rw [hwhole.range, Nat.lt_succ_iff]

/-- A collector that keeps eight events and takes a quarter of them at a time. -/
def quarterOfEight : EventLogGCConfig :=
  { count_limit := 8, batch_size := 200, gc_count := 2, gc_count_le := by decide }

/-- Eight commands of which the first is collected, two more, the first batch of
the next collection, and a restart. -/
def secondCollectionTrace : List Action :=
  .receive (6, (List.range 8).map fun n => createAccount (toString n) (toString n)) ::
    List.replicate 17 .apply_step ++ .flush :: List.replicate 4 .gc_step ++
    [.receive (7, [createAccount "8" "8", createAccount "9" "9"]), .apply_step, .apply_step,
      .apply_step, .apply_step, .apply_step, .flush, .gc_step, .gc_step, .crash]

theorem Node.event_log_gapless_iff_second_collection :
    ∃ last, run (Node.step plainDecimal (some quarterOfEight))
        (Node.start_up 100 RocksDBState.empty) secondCollectionTrace = some last ∧
      last.db.first_seq_num = 4 ∧
      ∀ seq_num, (last.wallet.statemachine.get_event seq_num).isSome ↔
        max 1 last.db.first_seq_num ≤ seq_num ∧
          seq_num ≤ last.wallet.statemachine.last_seq_num := by
  obtain ⟨last, hrun, hfirst⟩ :
      ∃ last ∈ run (Node.step plainDecimal (some quarterOfEight))
        (Node.start_up 100 RocksDBState.empty) secondCollectionTrace,
        last.db.first_seq_num = 4 := by
    decide +kernel
  refine ⟨last, hrun, hfirst, ?_⟩
  have hgapless := (event_log_gapless_iff plainDecimal (some quarterOfEight) (by decide) 100 _ last
    hrun).1.mpr (by decide +kernel)
  exact hgapless secondCollectionTrace last (List.prefix_rfl) hrun

/-- The same collector with the largest batch size. -/
def largestBatches : EventLogGCConfig :=
  { count_limit := 8, batch_size := U64.size - 1, gc_count := 2, gc_count_le := by decide }

/-- The first batch of the second collection starts at 2 and its end wraps around
to 1: after it the first persisted number is 1, which has no event any more. -/
theorem Node.first_seq_num_falls_behind :
    ∃ last, run (Node.step plainDecimal (some largestBatches))
        (Node.start_up 100 RocksDBState.empty) secondCollectionTrace = some last ∧
      last.db.first_seq_num = 1 ∧ last.wallet.statemachine.last_seq_num = 10 ∧
      last.wallet.statemachine.get_event 1 = none := by
  simp only [← Option.mem_def]
  decide +kernel

end node

end firm_wallet
