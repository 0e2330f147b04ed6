import Auticuro.Node.DuplicateCheck
import Auticuro.Service

open Run

namespace firm_wallet.node

open balance_calculator errors internal_servicepb rocksdb_state state_machine gc service

/-- The commands of an entry with their positions. -/
def positioned (log_index : Nat) (commands : List (Command × Nat)) : List (Position × Command) :=
  commands.map fun item => (⟨log_index, item.2⟩, item.1)

def Action.commands : Action → List (Position × Command)
  | .receive entry => positioned entry.1 entry.2.zipIdx
  | _ => []

/-- The commands that are still to be answered. -/
def ApplyThread.unanswered : ApplyThread → List (Position × Command)
  | .applying log_index pending _ => positioned log_index pending
  | _ => []

/-- A reply at the position of a command that is an error or an event of it. -/
structure Answers (item : Position × Command) (reply : InflightEvent) : Prop where
  position : reply.position = item.1
  command_id : ∀ event, reply.event = .ok event → event.header.command_id = item.2.command_id

variable {B : BigDecimal} {config : Option EventLogGCConfig} {node next : Node} {action : Action}

/-- The event under the number that the duplicate check holds, if it is still
there, is one of the command in its check. -/
structure Node.HoldsOwn (node : Node) : Prop where
  consistent : node.Consistent
  held : ∀ command seq_num event, node.apply_thread.current = some command →
    node.apply_thread.held = some seq_num →
    node.wallet.statemachine.get_event seq_num = some event →
    event.header.command_id = command.command_id
  missed : ∀ log_index pending seq_num,
    node.apply_thread = .applying log_index pending (.event_cache_missed seq_num) →
      node.wallet.statemachine.event_cache.lookup seq_num = none

theorem Node.HoldsOwn.of_held_none (hnode : node.Consistent) (hheld : node.apply_thread.held = none)
    (hmissed : ∀ log_index pending seq_num,
      node.apply_thread ≠ .applying log_index pending (.event_cache_missed seq_num)) :
    node.HoldsOwn where
  consistent := hnode
  held := by
    intro _ seq_num _ _ hsome
    cases hheld.symm.trans hsome
  missed := fun log_index pending seq_num hthread =>
    absurd hthread (hmissed log_index pending seq_num)

theorem Node.HoldsOwn.of_start (hnode : node.Consistent) {log_index : Nat}
    {pending : List (Command × Nat)}
    (hthread : node.apply_thread = .applying log_index pending .start) : node.HoldsOwn := by
  apply Node.HoldsOwn.of_held_none hnode
  · rw [hthread]
    cases pending <;> rfl
  · intro _ _ seq_num hmissed
    cases hthread.symm.trans hmissed

theorem Node.HoldsOwn.of_not_applying (hnode : node.Consistent)
    (hthread : node.apply_thread = .idle ∨ node.apply_thread = .panicked) : node.HoldsOwn := by
  apply Node.HoldsOwn.of_held_none hnode
  · obtain hidle | hpanicked := hthread
    · rw [hidle]
      rfl
    · rw [hpanicked]
      rfl
  · intro log_index pending seq_num happlying
    rw [happlying] at hthread
    simp at hthread

theorem Node.HoldsOwn.proceed (hnode : node.HoldsOwn) {log_index offset : Nat}
    {command : Command} {pending : List (Command × Nat)} {phase phase' : CheckPhase}
    (hthread : node.apply_thread = .applying log_index ((command, offset) :: pending) phase)
    (hcheck : CheckStep node.wallet.statemachine command.command_id phase (.proceed phase'))
    (hnext : { node with
      apply_thread := .applying log_index ((command, offset) :: pending) phase' }.Consistent) :
    { node with
      apply_thread := .applying log_index ((command, offset) :: pending) phase' }.HoldsOwn := by
  refine ⟨hnext, ?_, ?_⟩
  · intro current seq_num event hcurrent hheld hevent
    cases hcurrent
    cases phase' with
    | start | seq_num_cache_missed => cases hheld
    | seq_num_found found =>
      cases hheld
      have hfound := hnode.consistent.get_seq_num_of_found hthread hcheck
      obtain ⟨other, hother, hid⟩ :=
        (hnode.consistent.log.index command.command_id seq_num).mp hfound
      cases hother.symm.trans hevent
      exact hid
    | event_cache_missed found =>
      cases hheld
      cases hcheck with
      | event_not_cached =>
        exact hnode.held command seq_num event (by rw [hthread]; rfl) (by rw [hthread]; rfl) hevent
  · intro _ _ seq_num hmissed
    cases hmissed
    cases hcheck with
    | event_not_cached hcached => exact hcached

theorem Node.HoldsOwn.gc_batch (hnode : node.HoldsOwn)
    {from_seq_num to_seq_num : Nat} {gc_thread : GcThread}
    (hnext : { node.write_gc_batch from_seq_num to_seq_num with
      gc_thread := gc_thread }.Consistent) :
    { node.write_gc_batch from_seq_num to_seq_num with gc_thread := gc_thread }.HoldsOwn := by
  refine ⟨hnext, ?_, hnode.missed⟩
  intro command seq_num event hcurrent hheld hevent
  refine hnode.held command seq_num event hcurrent hheld ?_
  rw [StateMachine.get_event_eq_or, Option.or_eq_some_iff] at hevent ⊢
  exact hevent.imp_right fun ⟨hcached, hread⟩ =>
    ⟨hcached, EventLogGCLoop.gc_batch_events_some hread⟩

theorem Node.HoldsOwn.step (hnode : node.HoldsOwn) (hstep : node.step B config action = some next) :
    next.HoldsOwn := by
  have hconsistent := hnode.consistent.step hstep
  cases Node.step_spec hstep with
  | receive entry => exact .of_start hconsistent rfl
  | finish => exact .of_not_applying hconsistent (.inl rfl)
  | proceed hthread hcheck => exact hnode.proceed hthread hcheck hconsistent
  | duplicate | fresh => exact .of_start hconsistent rfl
  | missing => exact .of_not_applying hconsistent (.inr rfl)
  | flush hidle => exact .of_not_applying hconsistent (.inl hidle)
  | gc_stay => exact hnode
  | gc_panic | gc_start => exact ⟨hconsistent, hnode.held, hnode.missed⟩
  | gc_batch => exact hnode.gc_batch hconsistent
  | gc_finish => exact ⟨hconsistent, hnode.held, hnode.missed⟩
  | crash => exact .of_not_applying hconsistent (.inl rfl)

/-- The event that ends a duplicate check is one of the command. -/
theorem Node.HoldsOwn.duplicate (hnode : node.HoldsOwn) {log_index offset : Nat}
    {command : Command} {pending : List (Command × Nat)} {phase : CheckPhase} {event : Event}
    (hthread : node.apply_thread = .applying log_index ((command, offset) :: pending) phase)
    (hcheck : CheckStep node.wallet.statemachine command.command_id phase (.duplicate event)) :
    event.header.command_id = command.command_id := by
  have hcurrent : node.apply_thread.current = some command := by
    rw [hthread]
    rfl
  cases hcheck with
  | @event_cached seq_num _ hcached =>
    refine hnode.held command seq_num event hcurrent (by rw [hthread]; rfl) ?_
    rw [StateMachine.get_event_eq_or, hcached, Option.some_or]
  | @event_persisted seq_num _ hread =>
    refine hnode.held command seq_num event hcurrent (by rw [hthread]; rfl) ?_
    rw [StateMachine.get_event_eq_or, hnode.missed _ _ seq_num hthread, Option.none_or]
    exact hread

/-- A new command is answered at its position, by an event of it if it is
accepted. -/
theorem Wallet.handle_new_command_answers (wallet : Wallet) (log_index offset : Nat)
    (command : Command) :
    ∃ reply, (wallet.handle_new_command B log_index offset command).context.inflight_event_tx =
        wallet.context.inflight_event_tx ++ [reply] ∧
      Answers (⟨log_index, offset⟩, command) reply := by
  rw [Wallet.handle_new_command_eq]
  cases wallet.statemachine.plan B command.payload with
  | error e =>
    refine ⟨⟨⟨log_index, offset⟩, .error e⟩, rfl, rfl, ?_⟩
    intro event hevent
    cases hevent
  | ok plan =>
    refine ⟨_, rfl, rfl, ?_⟩
    intro event hevent
    cases hevent
    rfl

/-- What a step sends: at most one reply, to the first command that is still to
be answered. -/
theorem Node.HoldsOwn.step_replies (hnode : node.HoldsOwn)
    (hstep : node.step B config action = some next) (hcrash : action ≠ .crash) :
    (next.wallet.context.inflight_event_tx = node.wallet.context.inflight_event_tx ∧
        (next.apply_thread.unanswered = node.apply_thread.unanswered ++ action.commands ∨
          (next.apply_thread = .panicked ∧ action.commands = []))) ∨
      (action.commands = [] ∧ ∃ item reply,
        node.apply_thread.unanswered = item :: next.apply_thread.unanswered ∧
        next.wallet.context.inflight_event_tx =
          node.wallet.context.inflight_event_tx ++ [reply] ∧ Answers item reply) := by
  cases Node.step_spec hstep with
  | receive entry hidle =>
    refine .inl ⟨rfl, .inl ?_⟩
    rw [hidle]
    rfl
  | finish hthread =>
    refine .inl ⟨rfl, .inl ?_⟩
    rw [hthread]
    rfl
  | proceed hthread =>
    refine .inl ⟨rfl, .inl ?_⟩
    rw [hthread]
    exact (List.append_nil _).symm
  | @duplicate log_index offset command pending phase event hthread hcheck =>
    refine .inr ⟨rfl, (⟨log_index, offset⟩, command), _, ?_, rfl, rfl, ?_⟩
    · rw [hthread]
      rfl
    · intro sent hsent
      obtain rfl : event = sent := by
        simp only [assert_command_and_event_match_eq] at hsent
        split at hsent
        · cases hsent
          rfl
        · cases hsent
      exact hnode.duplicate hthread hcheck
  | @fresh log_index offset command pending phase hthread hcheck =>
    obtain ⟨reply, hsent, hanswers⟩ :=
      Wallet.handle_new_command_answers (B := B) node.wallet log_index offset command
    refine .inr ⟨rfl, (⟨log_index, offset⟩, command), reply, ?_, hsent, hanswers⟩
    rw [hthread]
    rfl
  | missing => exact .inl ⟨rfl, .inr ⟨rfl, rfl⟩⟩
  | flush hidle hflush =>
    obtain ⟨_, rfl⟩ := Wallet.flush_eq_some_iff.mp hflush
    exact .inl ⟨rfl, .inl (List.append_nil _).symm⟩
  | crash => exact absurd rfl hcrash
  | _ => exact .inl ⟨rfl, .inl (List.append_nil _).symm⟩

theorem positioned_increasing (log_index : Nat) (commands : List Command) :
    ((positioned log_index commands.zipIdx).map Prod.fst).Pairwise (· < ·) := by
  have hoffsets : (positioned log_index commands.zipIdx).map Prod.fst =
      (List.range' 0 commands.length).map fun offset => ⟨log_index, offset⟩ := by
    rw [positioned, List.map_map, ← List.zipIdx_map_snd 0 commands, List.map_map]
    rfl
  have hrange : (List.range' 0 commands.length).Pairwise (· < ·) := List.pairwise_lt_range' ..
  rw [hoffsets, List.pairwise_map]
  refine hrange.imp ?_
  intro left right hless
  exact Position.lt_iff.mpr (.inr ⟨rfl, hless⟩)

theorem log_index_of_mem_positioned {log_index : Nat} {commands : List (Command × Nat)}
    {item : Position × Command} (hitem : item ∈ positioned log_index commands) :
    item.1.log_index = log_index := by
  obtain ⟨_, _, rfl⟩ := List.mem_map.mp hitem
  rfl

/-- How the commands received since the last restart stand to the replies sent
since then. -/
structure Node.Replied (received : List (Position × Command)) (node : Node) : Prop where
  holds_own : node.HoldsOwn
  replies : ∃ handled rest, received = handled ++ rest ∧
    List.Forall₂ Answers handled node.wallet.context.inflight_event_tx ∧
    (node.apply_thread ≠ .panicked → rest = node.apply_thread.unanswered)
  increasing : (received.map Prod.fst).Pairwise (· < ·)
  applied : node.apply_thread = .idle → ∀ item ∈ received,
    item.1.log_index ≤ node.wallet.statemachine.applied_index
  applying : ∀ log_index pending phase, node.apply_thread = .applying log_index pending phase →
    ∀ item ∈ received, item.1.log_index ≤ log_index

variable {received : List (Position × Command)}

theorem Node.Replied.start_up (batch_size : Nat) {db : RocksDBState} (hdb : db.HoldsLog) :
    (Node.start_up batch_size db).Replied [] where
  holds_own := .of_not_applying (Consistent.start_up batch_size hdb) (.inl rfl)
  replies := ⟨[], [], rfl, .nil, fun _ => rfl⟩
  increasing := .nil
  applied := by simp
  applying := by simp

/-- An entry that is received comes after all that were received before. -/
theorem Node.Replied.receive (hnode : node.Replied received) {entry : Entry}
    (hidle : node.apply_thread = .idle)
    (hindex : node.wallet.statemachine.applied_index + 1 = entry.1) :
    ((received ++ positioned entry.1 entry.2.zipIdx).map Prod.fst).Pairwise (· < ·) ∧
      ∀ item ∈ received ++ positioned entry.1 entry.2.zipIdx, item.1.log_index ≤ entry.1 := by
  have hbefore := hnode.applied hidle
  refine ⟨?_, ?_⟩
  · rw [List.map_append, List.pairwise_append]
    refine ⟨hnode.increasing, positioned_increasing entry.1 entry.2, ?_⟩
    intro left hleft right hright
    obtain ⟨before, hbeforeMem, rfl⟩ := List.mem_map.mp hleft
    obtain ⟨after, hafter, rfl⟩ := List.mem_map.mp hright
    have hless := hbefore before hbeforeMem
    have hequal := log_index_of_mem_positioned hafter
    exact Position.lt_iff.mpr (.inl (by omega))
  · intro item hitem
    obtain hitem | hitem := List.mem_append.mp hitem
    · have hless := hbefore item hitem
      omega
    · exact (log_index_of_mem_positioned hitem).le

theorem Node.Replied.log_of_applying (hnode : node.Replied received) {log_index : Nat}
    {pending pending' : List (Command × Nat)} {phase phase' : CheckPhase}
    (hthread : node.apply_thread = .applying log_index pending phase)
    (hnext : next.apply_thread = .applying log_index pending' phase') :
    (next.apply_thread = .idle → ∀ item ∈ received,
        item.1.log_index ≤ next.wallet.statemachine.applied_index) ∧
      ∀ log_index pending phase, next.apply_thread = .applying log_index pending phase →
        ∀ item ∈ received, item.1.log_index ≤ log_index := by
  refine ⟨?_, ?_⟩
  · intro hidle
    cases hnext.symm.trans hidle
  · intro _ _ _ happlying
    cases hnext.symm.trans happlying
    exact hnode.applying log_index pending phase hthread

theorem Node.Replied.step_log (hnode : node.Replied received)
    (hstep : node.step B config action = some next) (hcrash : action ≠ .crash) :
    ((received ++ action.commands).map Prod.fst).Pairwise (· < ·) ∧
      (next.apply_thread = .idle → ∀ item ∈ received ++ action.commands,
        item.1.log_index ≤ next.wallet.statemachine.applied_index) ∧
      ∀ log_index pending phase, next.apply_thread = .applying log_index pending phase →
        ∀ item ∈ received ++ action.commands, item.1.log_index ≤ log_index := by
  have hnone : received ++ Action.commands .apply_step = received := List.append_nil received
  cases Node.step_spec hstep with
  | receive entry hidle hindex =>
    obtain ⟨hincreasing, hbelow⟩ := hnode.receive hidle hindex
    refine ⟨hincreasing, ?_, ?_⟩
    · intro happlying
      cases happlying
    · rintro _ _ _ ⟨⟩
      exact hbelow
  | @finish log_index phase hthread =>
    simp only [Action.commands, List.append_nil]
    refine ⟨hnode.increasing, fun _ => hnode.applying log_index [] phase hthread, ?_⟩
    intro _ _ _ happlying
    cases happlying
  | proceed hthread | duplicate hthread | fresh hthread =>
    rw [hnone]
    exact ⟨hnode.increasing, hnode.log_of_applying hthread rfl⟩
  | missing =>
    simp only [Action.commands, List.append_nil]
    refine ⟨hnode.increasing, ?_, ?_⟩
    · intro hidle
      cases hidle
    · intro _ _ _ happlying
      cases happlying
  | flush hidle hflush =>
    obtain ⟨_, rfl⟩ := Wallet.flush_eq_some_iff.mp hflush
    simp only [Action.commands, List.append_nil]
    exact ⟨hnode.increasing, hnode.applied, hnode.applying⟩
  | crash => exact absurd rfl hcrash
  | _ =>
    simp only [Action.commands, List.append_nil]
    exact ⟨hnode.increasing, hnode.applied, hnode.applying⟩

theorem Node.panicked_of_step (hpanicked : node.apply_thread = .panicked)
    (hstep : node.step B config action = some next) (hcrash : action ≠ .crash) :
    next.apply_thread = .panicked := by
  cases Node.step_spec hstep with
  | receive _ hidle => cases hidle.symm.trans hpanicked
  | finish hthread | proceed hthread | duplicate hthread | fresh hthread =>
    cases hthread.symm.trans hpanicked
  | missing => rfl
  | flush hidle => cases hidle.symm.trans hpanicked
  | crash => exact absurd rfl hcrash
  | _ => exact hpanicked

theorem Node.Replied.step (hnode : node.Replied received)
    (hstep : node.step B config action = some next) (hcrash : action ≠ .crash) :
    next.Replied (received ++ action.commands) := by
  obtain ⟨hincreasing, happlied, happlying⟩ := hnode.step_log hstep hcrash
  refine ⟨hnode.holds_own.step hstep, ?_, hincreasing, happlied, happlying⟩
  obtain ⟨handled, rest, rfl, hanswers, hrest⟩ := hnode.replies
  obtain ⟨hsent, hunanswered⟩ | ⟨hcommands, item, reply, hunanswered, hsent, hanswer⟩ :=
    hnode.holds_own.step_replies hstep hcrash
  · refine ⟨handled, rest ++ action.commands, List.append_assoc .., ?_, ?_⟩
    · rw [hsent]
      exact hanswers
    · intro hrunning
      obtain hunanswered | ⟨hpanicked, _⟩ := hunanswered
      · rw [hunanswered, hrest fun hpanicked => hrunning (panicked_of_step hpanicked hstep hcrash)]
      · exact absurd hpanicked hrunning
  · have hrunning : node.apply_thread ≠ .panicked := by
      intro hpanicked
      rw [hpanicked] at hunanswered
      cases hunanswered
    refine ⟨handled ++ [item], next.apply_thread.unanswered, ?_, ?_, fun _ => rfl⟩
    · rw [hcommands, hrest hrunning, hunanswered, List.append_nil, List.append_assoc]
      rfl
    · rw [hsent]
      exact List.rel_append hanswers (.cons hanswer .nil)

theorem Node.Replied.run {actions : List Action} {last : Node} (hnode : node.Replied received)
    (hrun : Run.run (Node.step B config) node actions = some last) (hcrash : .crash ∉ actions) :
    last.Replied (received ++ actions.flatMap Action.commands) := by
  induction actions generalizing node received with
  | nil =>
    cases hrun
    rw [List.flatMap_nil, List.append_nil]
    exact hnode
  | cons action actions ih =>
    obtain ⟨next, hnext, hrest⟩ := run_cons_eq_some_iff.mp hrun
    rw [List.mem_cons, not_or] at hcrash
    rw [List.flatMap_cons, ← List.append_assoc]
    exact ih (hnode.step hnext (Ne.symm hcrash.1)) hrest hcrash.2

/-- The collector takes its steps while the duplicate check holds no number. -/
def Node.BetweenChecks (node : Node) (action : Action) : Prop :=
  action = .gc_step → node.apply_thread.held = none

instance (node : Node) (action : Action) : Decidable (node.BetweenChecks action) :=
  inferInstanceAs (Decidable (_ → _))

theorem Node.BetweenChecks.sparesHeld (hbetween : node.BetweenChecks action) :
    node.SparesHeld config action := by
  intro hgc
  rw [hbetween hgc]
  rfl

theorem Node.Replied.exactly_one (hnode : node.Replied received)
    (hidle : node.apply_thread = .idle) :
    List.Forall₂ Answers received node.wallet.context.inflight_event_tx := by
  obtain ⟨handled, rest, rfl, hanswers, hrest⟩ := hnode.replies
  have hnone : rest = [] := by
    rw [hrest (by rw [hidle]; simp), hidle]
    rfl
  rw [hnone, List.append_nil]
  exact hanswers

theorem forall₂_positions {handled : List (Position × Command)} {sent : List InflightEvent}
    (hanswers : List.Forall₂ Answers handled sent) :
    sent.map InflightEvent.position = handled.map Prod.fst := by
  refine Exec.map_eq_map_of_forall₂ ?_ hanswers
  intro item reply hanswer
  exact hanswer.position

theorem Node.Replied.sent_increasing (hnode : node.Replied received) :
    (node.wallet.context.inflight_event_tx.map InflightEvent.position).Pairwise (· < ·) := by
  have hincreasing := hnode.increasing
  obtain ⟨handled, rest, rfl, hanswers, _⟩ := hnode.replies
  rw [List.map_append, List.pairwise_append] at hincreasing
  rw [forall₂_positions hanswers]
  exact hincreasing.1

/-- The reply at the position of a command is one of that command. -/
theorem Node.Replied.reply_of_position (hnode : node.Replied received) {position : Position}
    {command : Command} (hreceived : (position, command) ∈ received) {reply : InflightEvent}
    (hsent : reply ∈ node.wallet.context.inflight_event_tx)
    (hposition : reply.position = position) :
    Answers (position, command) reply := by
  have hnodup : (received.map Prod.fst).Nodup := hnode.increasing.imp fun hless => ne_of_lt hless
  obtain ⟨handled, rest, rfl, hanswers, _⟩ := hnode.replies
  obtain ⟨item, hitem, hanswer⟩ := Exec.exists_input_of_mem hanswers hsent
  have hsame : item = (position, command) :=
    List.inj_on_of_nodup_map hnodup (List.mem_append_left rest hitem) hreceived
      (hanswer.position.symm.trans hposition)
  rw [← hsame]
  exact hanswer

/-- Every reply belongs to its command, from every restart on. The commands
received since then are answered in their order: there is one reply for each
command that has been handled, at its position and with its command id if it is
an event, and none for the others. Between entries every command has its reply.
The positions of the replies increase, a client never gets an event of another
command, and the apply thread never panics if the collector works between the
checks. -/
theorem Node.every_reply_belongs_to_its_command (B : BigDecimal)
    (config : Option EventLogGCConfig) (batch_size : Nat) (before actions : List Action)
    (origin last : Node)
    (hbefore : run (Node.step B config) (Node.start_up batch_size RocksDBState.empty) before =
      some origin)
    (hrun : run (Node.step B config) origin (.crash :: actions) = some last)
    (hcrash : .crash ∉ actions) :
    let received := actions.flatMap Action.commands
    let sent := last.wallet.context.inflight_event_tx
    (∃ handled rest, received = handled ++ rest ∧ List.Forall₂ Answers handled sent ∧
      (last.apply_thread ≠ .panicked → rest = last.apply_thread.unanswered)) ∧
    (last.apply_thread = .idle → List.Forall₂ Answers received sent) ∧
    (sent.map InflightEvent.position).Pairwise (· < ·) ∧
    (Along (Node.step B config) Node.BetweenChecks origin (.crash :: actions) →
      last.apply_thread ≠ .panicked) ∧
    ∀ position command, (position, command) ∈ received → ∀ reply,
      (reply ∈ sent ∧ reply.position = position ∨
        reply.event = .error (.CommonError .Timeout)) →
      WalletService.wait_for_response reply command.command_id ≠ none := by
  intro received sent
  have horigin := Consistent.of_run hbefore
  obtain ⟨start, hstart, hrest⟩ := run_cons_eq_some_iff.mp hrun
  have hconsistent := horigin.step hstart
  cases hstart
  have hlast : last.Replied received := by
    have hstarted : Node.Replied [] (Node.start_up origin.wallet.context.batch_size origin.db) :=
      .start_up _ horigin.log.persisted
    exact hstarted.run hrest hcrash
  refine ⟨hlast.replies, hlast.exactly_one, hlast.sent_increasing, ?_, ?_⟩
  · intro halong
    have hsafe : last.CheckSafe :=
      run_invariant_along
        (fun _ _ _ hnode hbetween hnext => hnode.step (BetweenChecks.sparesHeld hbetween) hnext)
        (CheckSafe.of_idle hconsistent rfl) (halong.2 _ rfl) hrest
    exact hsafe.running
  · intro position command hreceived reply hreply
    rw [Ne, WalletService.wait_for_response_eq_none_iff]
    rintro ⟨event, hevent, hid⟩
    obtain ⟨hsent, hposition⟩ | htimeout := hreply
    · exact hid ((hlast.reply_of_position hreceived hsent hposition).command_id event hevent)
    · cases htimeout.symm.trans hevent

/-- A duplicate in the same entry, one across entries, and an empty entry. -/
def repeatedTrace : List Action :=
  [.receive (6, [creditAccount "1" "a" "5", creditAccount "1" "a" "5"]),
    .apply_step, .apply_step, .apply_step, .apply_step, .apply_step, .flush,
    .receive (7, []), .apply_step, .receive (8, [creditAccount "1" "a" "5"]),
    .apply_step, .apply_step, .apply_step, .apply_step, .apply_step]

theorem Node.every_reply_belongs_to_its_command_repeated :
    ∃ last, run (Node.step plainDecimal none) (Node.start_up 100 RocksDBState.empty)
        (.crash :: repeatedTrace) = some last ∧ last.apply_thread = .idle ∧
      List.Forall₂ Answers (repeatedTrace.flatMap Action.commands)
        last.wallet.context.inflight_event_tx := by
  obtain ⟨last, hrun, hidle⟩ :
      ∃ last ∈ run (Node.step plainDecimal none) (Node.start_up 100 RocksDBState.empty)
        (.crash :: repeatedTrace), last.apply_thread = .idle := by
    decide +kernel
  have hreplies := every_reply_belongs_to_its_command plainDecimal none 100 [] repeatedTrace _ last
    rfl hrun (by decide)
  exact ⟨last, hrun, hidle, hreplies.2.1 hidle⟩

end firm_wallet.node
