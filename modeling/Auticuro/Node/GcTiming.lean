import Auticuro.Node.DuplicateCheck
import Auticuro.StateMachine.Collected

open Run

namespace firm_wallet.node

open balance_calculator errors internal_servicepb rocksdb_state state_machine gc

/-- What an action takes from the log or the flush schedule. -/
def Action.input : Action → Option Input
  | .receive entry => some (.entry entry)
  | .flush => some .flush
  | _ => none

/-- The node does not crash, the collector spares the number that the check
holds, and a command in its check is not one of an event that the node has
already collected: if its id is in the database the node started from or was
answered with an event before, it still has a number. -/
def Node.Remembers (config : Option EventLogGCConfig) (db : RocksDBState) (node : Node)
    (action : Action) : Prop :=
  action ≠ .crash ∧ node.SparesHeld config action ∧
    (action = .apply_step → node.apply_thread.current.all fun command =>
      (db.dedup.lookup command.command_id).isSome ||
        node.wallet.has_emitted command.command_id →
      (node.wallet.statemachine.get_seq_num command.command_id).isSome)

instance (config : Option EventLogGCConfig) (db : RocksDBState) (node : Node) (action : Action) :
    Decidable (node.Remembers config db action) :=
  inferInstanceAs (Decidable (_ ∧ _ ∧ (_ → _)))

variable {B : BigDecimal} {config : Option EventLogGCConfig} {node next : Node}
variable {db : RocksDBState}

/-- What is left of the entry that the apply thread is in, done on a wallet. -/
def ApplyThread.rest (B : BigDecimal) (wallet : Wallet) : ApplyThread → Option Wallet
  | .idle => some wallet
  | .applying log_index pending _ =>
    (wallet.handle_commands B log_index pending).map (Wallet.finish_entry · log_index)
  | .panicked => none

/-- The node is on its way through the inputs like a wallet without a collector
that has taken the same inputs and has the rest of the current entry to do. -/
structure Node.Tracks (B : BigDecimal) (db : RocksDBState) (reached : Option Wallet)
    (node : Node) (reference : Wallet) : Prop where
  safe : node.CheckSafe
  held_seq_num : ∀ command seq_num, node.apply_thread.current = some command →
    node.apply_thread.held = some seq_num →
      node.wallet.statemachine.get_seq_num command.command_id = some seq_num
  follows : node.wallet.Follows reference
  knows : reference.KnowsOnly db
  reached : reached = node.apply_thread.rest B reference

theorem Node.Tracks.start_up (batch_size : Nat) (hdb : db.HoldsLog) :
    (Node.start_up batch_size db).Tracks B db (some (StateMachine.recover_from_db batch_size db))
      (StateMachine.recover_from_db batch_size db) where
  safe := CheckSafe.of_idle (Consistent.start_up batch_size hdb) rfl
  held_seq_num := by
    intro command seq_num hcurrent
    cases hcurrent
  follows := Wallet.Follows.refl _
  knows := Wallet.KnowsOnly.recover_from_db batch_size db
  reached := rfl

theorem ApplyThread.held_start (log_index : Nat) (pending : List (Command × Nat)) :
    (ApplyThread.applying log_index pending .start).held = none := by
  cases pending <;> rfl

variable {reached : Option Wallet} {reference : Wallet}

section

variable (htracks : node.Tracks B db reached reference)
include htracks

section Applying

variable {log_index offset : Nat} {pending : List (Command × Nat)} {command : Command}
  {phase : CheckPhase}
  (hthread : node.apply_thread = .applying log_index ((command, offset) :: pending) phase)
include hthread

/-- A known command: the reference answers it like the node does. -/
theorem Node.Tracks.duplicate {event : Event}
    (hcheck : CheckStep node.wallet.statemachine command.command_id phase (.duplicate event)) :
    reference.handle_command B log_index offset command =
      some (reference.send_event ⟨log_index, offset⟩
        (assert_command_and_event_match command event)) := by
  obtain ⟨seq_num, hheld, hevent⟩ : ∃ seq_num, node.apply_thread.held = some seq_num ∧
      node.wallet.statemachine.get_event seq_num = some event := by
    cases hcheck with
    | @event_cached seq_num _ hcached =>
      refine ⟨seq_num, by rw [hthread]; rfl, ?_⟩
      rw [StateMachine.get_event_eq_or, hcached, Option.some_or]
    | @event_persisted seq_num _ hread =>
      refine ⟨seq_num, by rw [hthread]; rfl, ?_⟩
      rw [StateMachine.get_event_eq_or, htracks.safe.missed _ _ seq_num hthread, Option.none_or]
      exact hread
  have hseq := htracks.held_seq_num command seq_num (by rw [hthread]; rfl) hheld
  unfold Wallet.handle_command StateMachine.maybe_handle_duplicate_command
  simp only [htracks.follows.get_seq_num hseq, htracks.follows.get_event hevent]

/-- A command that the node finds new is new for the reference. -/
theorem Node.Tracks.fresh (hremembers : node.Remembers config db .apply_step)
    (hcheck : CheckStep node.wallet.statemachine command.command_id phase .fresh) :
    reference.handle_command B log_index offset command =
      some (reference.handle_new_command B log_index offset command) := by
  have hnew := htracks.safe.consistent.get_seq_num_of_fresh hthread hcheck
  have hcurrent : node.apply_thread.current = some command := by
    rw [hthread]
    rfl
  have hforgotten := hremembers.2.2 rfl
  rw [hcurrent, Option.all_some, hnew] at hforgotten
  have hunknown : reference.statemachine.get_seq_num command.command_id = none := by
    cases hfound : reference.statemachine.get_seq_num command.command_id with
    | none => rfl
    | some seq_num =>
      have hknown := htracks.knows _ _ hfound
      have hemitted : reference.has_emitted command.command_id =
          node.wallet.has_emitted command.command_id := by
        unfold Wallet.has_emitted
        rw [htracks.follows.context]
      rw [hemitted] at hknown
      simp [hknown] at hforgotten
  unfold Wallet.handle_command StateMachine.maybe_handle_duplicate_command
  simp only [hunknown]

theorem Node.Tracks.proceed {phase' : CheckPhase}
    (hcheck : CheckStep node.wallet.statemachine command.command_id phase (.proceed phase'))
    (hsafe : { node with
      apply_thread := .applying log_index ((command, offset) :: pending) phase' }.CheckSafe) :
    { node with
      apply_thread := .applying log_index ((command, offset) :: pending) phase' }.Tracks B db
        reached reference := by
  refine ⟨hsafe, ?_, htracks.follows, htracks.knows, ?_⟩
  · intro current seq_num hcurrent hheld
    cases hcurrent
    change node.wallet.statemachine.get_seq_num command.command_id = some seq_num
    cases phase' with
    | start | seq_num_cache_missed => cases hheld
    | seq_num_found found =>
      cases hheld
      exact htracks.safe.consistent.get_seq_num_of_found hthread hcheck
    | event_cache_missed found =>
      cases hheld
      cases hcheck with
      | event_not_cached =>
        exact htracks.held_seq_num command seq_num (by rw [hthread]; rfl) (by rw [hthread]; rfl)
  · rw [htracks.reached, hthread]
    rfl

/-- After a command both go on with the rest of the entry. -/
theorem Node.Tracks.handled {wallet reference' : Wallet}
    (hhandle : reference.handle_command B log_index offset command = some reference')
    (hfollows : wallet.Follows reference') (hknows : reference'.KnowsOnly db)
    (hsafe : { node with
      wallet := wallet, apply_thread := .applying log_index pending .start }.CheckSafe) :
    { node with
      wallet := wallet, apply_thread := .applying log_index pending .start }.Tracks B db reached
        reference' := by
  refine ⟨hsafe, ?_, hfollows, hknows, ?_⟩
  · intro current seq_num _ hheld
    cases (ApplyThread.held_start log_index pending).symm.trans hheld
  · rw [htracks.reached, hthread]
    change ((reference.handle_command B log_index offset command).bind _).map _ = _
    rw [hhandle]
    rfl

end Applying

theorem Node.Tracks.gc_batch {gc_config : EventLogGCConfig}
    {from_seq_num next_first_seq_num to_seq_num : Nat}
    (hthread : node.gc_thread = .collecting from_seq_num next_first_seq_num)
    (hto : to_seq_num = EventLogGCLoop.batch_end gc_config from_seq_num next_first_seq_num)
    (hspares : node.SparesHeld (some gc_config) .gc_step)
    (hsafe : { node.write_gc_batch from_seq_num to_seq_num with
      gc_thread := .collecting to_seq_num next_first_seq_num }.CheckSafe) :
    { node.write_gc_batch from_seq_num to_seq_num with
      gc_thread := .collecting to_seq_num next_first_seq_num }.Tracks B db reached reference := by
  refine ⟨hsafe, ?_, ?_, htracks.knows, htracks.reached⟩
  · intro command seq_num hcurrent hheld
    have hkept := hspares.not_collected hthread hto hheld
    have hseq := htracks.held_seq_num command seq_num hcurrent hheld
    obtain ⟨event, hevent, hid⟩ :=
      (htracks.safe.consistent.log.index command.command_id seq_num).mp hseq
    rw [← write_gc_batch_get_event hkept] at hevent
    exact (hsafe.consistent.log.index command.command_id seq_num).mpr ⟨event, hevent, hid⟩
  · refine ⟨htracks.follows.statemachine, htracks.follows.context, ?_, ?_⟩
    · intro n event hevent
      exact htracks.follows.events n event (EventLogGCLoop.gc_batch_events_some hevent)
    · intro c n hdedup
      exact htracks.follows.dedup c n (EventLogGCLoop.gc_batch_dedup_some hdedup)

/-- One step of a node that remembers: the reference takes the same input. -/
theorem Node.Tracks.step {action : Action} (hremembers : node.Remembers config db action)
    (hstep : node.step B config action = some next) :
    ∃ reference', next.Tracks B db
      (match action.input with
        | some input => reached.bind (Wallet.apply_input B · input)
        | none => reached) reference' := by
  have hsafe := htracks.safe.step hremembers.2.1 hstep
  cases Node.step_spec hstep with
  | receive entry hidle hindex =>
    refine ⟨reference, hsafe, ?_, htracks.follows, htracks.knows, ?_⟩
    · intro command seq_num _ hheld
      cases (ApplyThread.held_start entry.1 entry.2.zipIdx).symm.trans hheld
    · have hreached := htracks.reached
      rw [hidle] at hreached
      change reached.bind (Wallet.apply_entry B · entry) = _
      rw [hreached]
      change reference.apply_entry B entry = _
      rw [Wallet.apply_entry_eq, if_pos]
      · rfl
      · rw [htracks.follows.statemachine]
        exact hindex
  | @finish log_index _ hthread =>
    refine ⟨reference.finish_entry log_index, hsafe, ?_, htracks.follows.finish_entry log_index,
      htracks.knows, ?_⟩
    · intro command seq_num hcurrent
      cases hcurrent
    · change reached = _
      rw [htracks.reached, hthread]
      rfl
  | proceed hthread hcheck => exact ⟨reference, htracks.proceed hthread hcheck hsafe⟩
  | duplicate hthread hcheck =>
    exact ⟨_, htracks.handled hthread (htracks.duplicate hthread hcheck)
      (htracks.follows.send_event _ _) (htracks.knows.send_event _ _) hsafe⟩
  | fresh hthread hcheck =>
    exact ⟨_, htracks.handled hthread (htracks.fresh hthread hremembers hcheck)
      (htracks.follows.handle_new_command _ _ _) (htracks.knows.handle_new_command _ _ _) hsafe⟩
  | missing => exact absurd rfl hsafe.running
  | flush hidle hflush =>
    have hmirrored := htracks.safe.consistent.mirrored
    obtain ⟨reference', hreference, hfollows⟩ := htracks.follows.flush hmirrored hflush
    refine ⟨reference', hsafe, ?_, hfollows,
      htracks.knows.flush (htracks.follows.mirrored hmirrored) hreference, ?_⟩
    · intro command seq_num hcurrent
      change node.apply_thread.current = _ at hcurrent
      rw [hidle] at hcurrent
      cases hcurrent
    · have hreached := htracks.reached
      rw [hidle] at hreached
      change reached.bind Wallet.flush = node.apply_thread.rest B reference'
      rw [hreached, hidle]
      exact hreference
  | gc_stay => exact ⟨reference, htracks⟩
  | gc_panic | gc_start =>
    exact ⟨reference, hsafe, htracks.held_seq_num, htracks.follows, htracks.knows, htracks.reached⟩
  | gc_batch hconfig hthread _ hto =>
    cases hconfig
    exact ⟨reference, htracks.gc_batch hthread hto hremembers.2.1 hsafe⟩
  | gc_finish =>
    exact ⟨reference, hsafe, htracks.held_seq_num, htracks.follows, htracks.knows, htracks.reached⟩
  | crash => exact absurd rfl hremembers.1

/-- A whole run of a node that remembers takes the reference through the
inputs of the run. -/
theorem Node.Tracks.run {actions : List Action} {last : Node}
    (halong : Along (Node.step B config) (Node.Remembers config db) node actions)
    (hrun : Run.run (Node.step B config) node actions = some last) :
    ∃ reference', last.Tracks B db
      (reached.bind (Run.run (Wallet.apply_input B) · (actions.filterMap Action.input)))
      reference' := by
  induction actions generalizing node reached reference with
  | nil =>
    cases hrun
    refine ⟨reference, ?_⟩
    cases reached with
    | none | some wallet => exact htracks
  | cons action actions ih =>
    obtain ⟨next, hnext, hrest⟩ := run_cons_eq_some_iff.mp hrun
    obtain ⟨reference', htracks'⟩ := htracks.step halong.1 hnext
    obtain ⟨last_reference, hlast⟩ := ih htracks' (halong.2 next hnext) hrest
    refine ⟨last_reference, ?_⟩
    cases hinput : action.input with
    | none =>
      rw [hinput] at hlast
      rw [List.filterMap_cons_none hinput]
      exact hlast
    | some input =>
      rw [hinput] at hlast
      rw [List.filterMap_cons_some hinput]
      cases reached with
      | none | some wallet => exact hlast

end

/-- A replica that remembers, and is done with its inputs, shows what the wallet
without a collector shows. -/
theorem Node.Tracks.run_start_up {batch_size : Nat} (hdb : db.HoldsLog) {actions : List Action}
    {last : Node}
    (halong : Along (Node.step B config) (Node.Remembers config db)
      (Node.start_up batch_size db) actions)
    (hrun : Run.run (Node.step B config) (Node.start_up batch_size db) actions = some last)
    (hidle : last.apply_thread = .idle) :
    ∃ reference, Run.run (Wallet.apply_input B) (StateMachine.recover_from_db batch_size db)
        (actions.filterMap Action.input) = some reference ∧ last.wallet.Follows reference := by
  obtain ⟨reference, hlast⟩ := (Tracks.start_up batch_size hdb).run halong hrun
  refine ⟨reference, ?_, hlast.follows⟩
  have hreached := hlast.reached
  rw [hidle] at hreached
  exact hreached

/-- The timing of event collection is unobservable as long as no replica
handles a command whose event it has already collected, or collects it during
the command's own duplicate check: two replicas that start from equal databases
and take the same entries and flushes, each with its own collector, have given
the same replies and have the same accounts and the same last number. -/
theorem Node.gc_timing_unobservable (B : BigDecimal) (batch_size : Nat) (db : RocksDBState)
    (hdb : db.HoldsLog) (left_config right_config : Option EventLogGCConfig)
    (left_actions right_actions : List Action) (left right : Node)
    (hinputs : left_actions.filterMap Action.input = right_actions.filterMap Action.input)
    (hleftAlong : Along (Node.step B left_config) (Node.Remembers left_config db)
      (Node.start_up batch_size db) left_actions)
    (hrightAlong : Along (Node.step B right_config) (Node.Remembers right_config db)
      (Node.start_up batch_size db) right_actions)
    (hleft : run (Node.step B left_config) (Node.start_up batch_size db) left_actions = some left)
    (hright : run (Node.step B right_config) (Node.start_up batch_size db) right_actions =
      some right)
    (hleftIdle : left.apply_thread = .idle) (hrightIdle : right.apply_thread = .idle) :
    left.wallet.context.inflight_event_tx = right.wallet.context.inflight_event_tx ∧
      left.wallet.statemachine.accounts = right.wallet.statemachine.accounts ∧
      left.wallet.statemachine.last_seq_num = right.wallet.statemachine.last_seq_num := by
  obtain ⟨leftReference, hleftRun, hleftFollows⟩ :=
    Tracks.run_start_up hdb hleftAlong hleft hleftIdle
  obtain ⟨rightReference, hrightRun, hrightFollows⟩ :=
    Tracks.run_start_up hdb hrightAlong hright hrightIdle
  rw [hinputs, hrightRun] at hleftRun
  cases hleftRun
  have hcontext := hleftFollows.context.symm.trans hrightFollows.context
  have hstatemachine := hleftFollows.statemachine.symm.trans hrightFollows.statemachine
  injection hstatemachine with haccounts _ hlast
  exact ⟨by rw [hcontext], haccounts, hlast⟩

/-- A replica that deletes the event of the first command before it takes the
next entry, in so many steps. -/
def earlyTrace (command : Command) (steps : Nat) : List Action :=
  collectingTrace ++ .gc_step :: .receive (7, [command]) :: List.replicate steps .apply_step

/-- A replica that takes the same entries and never collects. -/
def neverTrace (command : Command) (steps : Nat) : List Action :=
  .receive (6, eightCommands) :: List.replicate 17 .apply_step ++
    .flush :: .receive (7, [command]) :: List.replicate steps .apply_step

theorem Node.gc_timing_unobservable_remembered :
    ∃ left right,
      run (Node.step plainDecimal (some quarterOfEight)) (Node.start_up 100 RocksDBState.empty)
        (earlyTrace (createAccount "2" "b") 5) = some left ∧
      run (Node.step plainDecimal none) (Node.start_up 100 RocksDBState.empty)
        (neverTrace (createAccount "2" "b") 5) = some right ∧
      left.wallet.statemachine.accounts = right.wallet.statemachine.accounts := by
  obtain ⟨left, hleft⟩ : ∃ left, run (Node.step plainDecimal (some quarterOfEight))
      (Node.start_up 100 RocksDBState.empty) (earlyTrace (createAccount "2" "b") 5) = some left :=
    Option.isSome_iff_exists.mp (by decide)
  obtain ⟨right, hright⟩ : ∃ right, run (Node.step plainDecimal none)
      (Node.start_up 100 RocksDBState.empty) (neverTrace (createAccount "2" "b") 5) = some right :=
    Option.isSome_iff_exists.mp (by decide)
  have hleftIdle : (run (Node.step plainDecimal (some quarterOfEight))
      (Node.start_up 100 RocksDBState.empty) (earlyTrace (createAccount "2" "b") 5)).map
        Node.apply_thread = some .idle := by
    decide
  have hrightIdle : (run (Node.step plainDecimal none)
      (Node.start_up 100 RocksDBState.empty) (neverTrace (createAccount "2" "b") 5)).map
        Node.apply_thread = some .idle := by
    decide
  rw [hleft] at hleftIdle
  rw [hright] at hrightIdle
  exact ⟨left, right, hleft, hright,
    (gc_timing_unobservable plainDecimal 100 RocksDBState.empty RocksDBState.HoldsLog.empty
      (some quarterOfEight) none _ _ left right (by decide) (by decide) (by decide) hleft hright
      (Option.some.inj hleftIdle) (Option.some.inj hrightIdle)).2.1⟩

/-- A credit that is sent again is executed a second time by the replica that
has collected its event, and answered from the store by the other one. -/
theorem Node.gc_timing_doubles_credit :
    (earlyTrace (creditAccount "1" "a" "5") 3).filterMap Action.input =
        (neverTrace (creditAccount "1" "a" "5") 5).filterMap Action.input ∧
      (run (Node.step plainDecimal (some quarterOfEight)) (Node.start_up 100 RocksDBState.empty)
        (earlyTrace (creditAccount "1" "a" "5") 3)).map
          (fun node => (node.apply_thread, node.wallet.statemachine.last_seq_num)) =
            some (.idle, 9) ∧
      (run (Node.step plainDecimal (some quarterOfEight)) (Node.start_up 100 RocksDBState.empty)
        (neverTrace (creditAccount "1" "a" "5") 5)).map
          (fun node => (node.apply_thread, node.wallet.statemachine.last_seq_num)) =
            some (.idle, 8) := by
  decide +kernel

end firm_wallet.node
