import Auticuro.Ledger.FlushPoints
import Auticuro.Ledger.Replay
import Auticuro.Node.ExactlyOnce
import Auticuro.Node.Outcomes
import Auticuro.StateMachine.Recovery

open Run

namespace firm_wallet

open balance_calculator errors internal_servicepb rocksdb_state state_machine gc ledger

namespace ledger

/-- The ledger with replies from before its first one. -/
def Ledger.since (self : Ledger) (earlier : List InflightEvent) : Ledger :=
  { self with replies := earlier ++ self.replies }

theorem Ledger.reply_since (self : Ledger) (earlier : List InflightEvent) (position : Position)
    (result : GeneralResult Event) :
    (self.since earlier).reply position result = (self.reply position result).since earlier := by
  unfold Ledger.since Ledger.reply
  rw [List.append_assoc]

theorem Ledger.execute_since (self : Ledger) (earlier : List InflightEvent)
    (log_index offset : Nat) (command : Command) (plan : Plan) :
    (self.since earlier).execute log_index offset command plan =
      (self.execute log_index offset command plan).since earlier := by
  simp only [Ledger.since, Ledger.execute, List.append_assoc]
  rfl

/-- What a ledger does with a command does not depend on its replies. -/
theorem Ledger.handle_command_since (B : BigDecimal) (self : Ledger)
    (earlier : List InflightEvent) (log_index offset : Nat) (command : Command) :
    (self.since earlier).handle_command B log_index offset command =
      (self.handle_command B log_index offset command).map (Ledger.since · earlier) := by
  have hseq : (self.since earlier).seq_num_of = self.seq_num_of := rfl
  have haccounts : (self.since earlier).accounts = self.accounts := rfl
  unfold Ledger.handle_command
  rw [hseq, haccounts]
  cases self.seq_num_of command.command_id with
  | some seq_num =>
    change Option.map _ (self.event_at seq_num) = Option.map _ (Option.map _ _)
    rw [Option.map_map]
    exact congrArg (Option.map · _) (funext fun _ => self.reply_since earlier _ _)
  | none =>
    dsimp only
    cases (holding self.accounts).plan B command.payload with
    | error e => exact congrArg some (self.reply_since earlier _ _)
    | ok plan => exact congrArg some (self.execute_since earlier _ _ _ _)

end ledger

namespace state_machine

/-- The wallet is at this ledger; replies from before its start are not its own. -/
def Wallet.Shows (wallet : Wallet) (ledger : Ledger) : Prop :=
  ∃ earlier, ledger = wallet.view.since earlier

namespace Wallet.Shows

variable {B : BigDecimal} {wallet next : Wallet} {ledger : Ledger}

section

variable (hshows : wallet.Shows ledger)
include hshows

theorem handle_command {log_index offset : Nat} {command : Command}
    (havoid : wallet.AvoidsTombstones command)
    (hhandle : wallet.handle_command B log_index offset command = some next) :
    ∃ after, ledger.handle_command B log_index offset command = some after ∧ next.Shows after := by
  obtain ⟨earlier, rfl⟩ := hshows
  have hview : (wallet.handle_command B log_index offset command).map view =
      wallet.view.handle_command B log_index offset command := handle_command_view havoid
  rw [hhandle] at hview
  refine ⟨next.view.since earlier, ?_, earlier, rfl⟩
  rw [Ledger.handle_command_since, ← hview]
  rfl

theorem applied_index : ledger.applied_index = wallet.statemachine.applied_index := by
  obtain ⟨earlier, rfl⟩ := hshows
  rfl

theorem finish_entry (log_index : Nat) :
    (wallet.finish_entry log_index).Shows { ledger with applied_index := log_index } := by
  obtain ⟨earlier, rfl⟩ := hshows
  exact ⟨earlier, rfl⟩

theorem flush (hwallet : wallet.Mirrored) (hflush : wallet.flush = some next) :
    next.Shows ledger := by
  obtain ⟨earlier, rfl⟩ := hshows
  exact ⟨earlier, by rw [flush_view hwallet hflush]⟩

/-- Right after a flush the database is at the same ledger as the memory. -/
theorem recover (hwallet : wallet.Flushable) (hrecoverable : wallet.Recoverable)
    (hflush : wallet.flush = some next) (batch_size : Nat) :
    (StateMachine.recover_from_db batch_size next.statemachine.rocksdb_state).Shows ledger := by
  have hrecovered := recover_from_db_of_flush hrecoverable hflush batch_size
  have hlive : (StateMachine.recover_from_db batch_size next.statemachine.rocksdb_state).live =
      next.live := by
    change (StateMachine.recover_from_db _ _).statemachine.accounts = _
    rw [hrecovered]
    obtain ⟨_, rfl⟩ := flush_eq_some_iff.mp hflush
    rfl
  have hview : (StateMachine.recover_from_db batch_size next.statemachine.rocksdb_state).view =
      { next.view with replies := [] } := by
    unfold view
    rw [hlive, hrecovered]
    rfl
  obtain ⟨earlier, rfl⟩ := hshows.flush hwallet.mirrored hflush
  refine ⟨earlier ++ next.view.replies, ?_⟩
  rw [hview]
  unfold Ledger.since
  rw [List.append_nil]

end

end Wallet.Shows

end state_machine

namespace node

/-- The node takes the entries of the log, and no new command names an account
that the node has deleted since its last flush. -/
def Node.Replicates (log : Log) (node : Node) : Action → Prop
  | .receive entry => entry.2 = log entry.1
  | .apply_step => ∀ command ∈ node.apply_thread.current, node.wallet.AvoidsTombstones command
  | _ => True

instance (log : Log) (node : Node) (action : Action) : Decidable (node.Replicates log action) := by
  cases action <;> dsimp only [Node.Replicates] <;> infer_instance

/-- Where the apply thread is when the copy is there. -/
def ApplyThread.At (log : Log) (replay : Replay) : ApplyThread → Prop
  | .idle => replay.offset = 0
  | .applying log_index pending _ =>
    log_index = replay.position.log_index ∧ pending = (log log_index).zipIdx.drop replay.offset
  | .panicked => False

theorem zipIdx_drop_eq_cons {commands : List Command} {count offset : Nat} {command : Command}
    {pending : List (Command × Nat)}
    (hdrop : commands.zipIdx.drop count = (command, offset) :: pending) :
    commands[count]? = some command ∧ count = offset ∧
      pending = commands.zipIdx.drop (count + 1) := by
  have hhead : commands.zipIdx[count]? = some (command, offset) := by
    rw [← List.head?_drop, hdrop]
    rfl
  rw [List.getElem?_zipIdx, Nat.zero_add] at hhead
  obtain ⟨found, hfound, hitem⟩ := Option.map_eq_some_iff.mp hhead
  cases hitem
  refine ⟨hfound, rfl, ?_⟩
  rw [← List.tail_drop, hdrop]
  rfl

/-- In memory the node is at some moment of the one copy, and what a crash leaves
is another one, between two entries. -/
structure Node.Follows (B : BigDecimal) (log : Log) (node : Node) : Prop where
  own : node.HoldsOwn
  safe : node.CheckSafe
  flushable : node.wallet.Flushable
  data : node.wallet.flushed_db.data = node.wallet.live
  recoverable : node.apply_thread = .idle → node.wallet.Recoverable
  memory : ∃ ticks replay, Replay.after B log ticks = some replay ∧
    node.wallet.Shows replay.reached ∧ node.apply_thread.At log replay
  disk : ∃ ticks replay, Replay.after B log ticks = some replay ∧ replay.offset = 0 ∧
    (StateMachine.recover_from_db node.wallet.context.batch_size node.db).Shows replay.reached

namespace Node.Follows

variable {B : BigDecimal} {log : Log} {node next : Node}

theorem start_up (batch_size : Nat) {db : RocksDBState} (hdb : db.HoldsLog)
    (hdisk : ∃ ticks replay, Replay.after B log ticks = some replay ∧ replay.offset = 0 ∧
      (StateMachine.recover_from_db batch_size db).Shows replay.reached) :
    (Node.start_up batch_size db).Follows B log where
  own := .of_not_applying (.start_up batch_size hdb) (.inl rfl)
  safe := .of_idle (.start_up batch_size hdb) rfl
  flushable := .recover_from_db batch_size db
  data := rfl
  recoverable := fun _ => .recover_from_db batch_size db
  memory := by
    obtain ⟨ticks, replay, hafter, hoffset, hshows⟩ := hdisk
    exact ⟨ticks, replay, hafter, hshows, hoffset⟩
  disk := hdisk

theorem empty (batch_size : Nat) : (Node.start_up batch_size RocksDBState.empty).Follows B log := by
  have hview : Ledger.new = (StateMachine.recover_from_db batch_size RocksDBState.empty).view := rfl
  exact start_up batch_size .empty ⟨0, Replay.start, rfl, rfl, [], hview⟩

/-- One command: the copy handles it as the wallet does. -/
theorem handle_command (hnode : node.Follows B log) {log_index offset : Nat} {command : Command}
    {pending : List (Command × Nat)} {phase : CheckPhase} {wallet : Wallet}
    (hthread : node.apply_thread = .applying log_index ((command, offset) :: pending) phase)
    (havoid : node.wallet.AvoidsTombstones command)
    (hhandle : node.wallet.handle_command B log_index offset command = some wallet)
    (hnext : next = { node with
      wallet := wallet, apply_thread := .applying log_index pending .start })
    (hown : next.HoldsOwn) (hsafe : next.CheckSafe) : next.Follows B log := by
  subst hnext
  refine ⟨hown, hsafe, hnode.flushable.handle_command havoid.spares hhandle,
    Wallet.handle_command_data hnode.data havoid.spares hhandle, ?_, ?_, ?_⟩
  · rintro ⟨⟩
  · obtain ⟨ticks, replay, hafter, hshows, hat⟩ := hnode.memory
    rw [hthread] at hat
    obtain ⟨rfl, hpending⟩ := hat
    obtain ⟨hcommand, rfl, hrest⟩ := zipIdx_drop_eq_cons hpending.symm
    obtain ⟨after, hledger, hshows⟩ := hshows.handle_command havoid hhandle
    have hticks := Replay.Ticks.command hcommand hledger
    obtain ⟨_, happlied, _⟩ := (Replay.InOrder.after hafter).ordered.extends_of_handle
      (Nat.lt_succ_self _) hledger
    exact ⟨ticks + 1, _, hticks.after_succ hafter, hshows, congrArg (· + 1) happlied.symm, hrest⟩
  · have hdb : wallet.statemachine.rocksdb_state = node.db ∧
        wallet.context.batch_size = node.wallet.context.batch_size := by
      obtain ⟨_, _, _, _, rfl⟩ | ⟨_, _, _, rfl⟩ | ⟨_, _, _, rfl⟩ :=
        Wallet.handle_command_cases B hhandle
      all_goals exact ⟨rfl, rfl⟩
    change ∃ ticks replay, _ ∧ _ ∧
      (StateMachine.recover_from_db wallet.context.batch_size
        wallet.statemachine.rocksdb_state).Shows _
    rw [hdb.1, hdb.2]
    exact hnode.disk

theorem finish (hnode : node.Follows B log) {log_index : Nat} {phase : CheckPhase}
    (hthread : node.apply_thread = .applying log_index [] phase)
    (hnext : next = { node with
      wallet := node.wallet.finish_entry log_index, apply_thread := .idle })
    (hown : next.HoldsOwn) (hsafe : next.CheckSafe) : next.Follows B log := by
  subst hnext
  obtain ⟨ticks, replay, hafter, hshows, hat⟩ := hnode.memory
  rw [hthread] at hat
  obtain ⟨rfl, hpending⟩ := hat
  have hfinished : (log replay.position.log_index)[replay.offset]? = none := by
    have hlength := List.drop_eq_nil_iff.mp hpending.symm
    rw [List.length_zipIdx] at hlength
    exact List.getElem?_eq_none_iff.mpr hlength
  have hflushed : node.wallet.context.flushed_applied_index ≤ replay.position.log_index := by
    have happlied := hshows.applied_index
    have hle := hnode.flushable.flushed_le
    change _ ≤ replay.reached.applied_index + 1
    omega
  have hrecoverable := Wallet.finish_entry_recoverable replay.position.log_index hnode.data
  have hticks : Replay.Ticks B log replay _ := .finish hfinished
  exact ⟨hown, hsafe, hnode.flushable.finish_entry hflushed, hrecoverable.data,
    fun _ => hrecoverable, ⟨ticks + 1, _, hticks.after_succ hafter, hshows.finish_entry _, rfl⟩,
    hnode.disk⟩

/-- A flush brings the disk to where the memory is. -/
theorem flush (hnode : node.Follows B log) (hidle : node.apply_thread = .idle) {wallet : Wallet}
    (hflush : node.wallet.flush = some wallet)
    (hown : { node with wallet := wallet }.HoldsOwn)
    (hsafe : { node with wallet := wallet }.CheckSafe) :
    { node with wallet := wallet }.Follows B log := by
  have hrecoverable := hnode.recoverable hidle
  have hflushed := Wallet.flush_recoverable hrecoverable hflush
  obtain ⟨ticks, replay, hafter, hshows, hat⟩ := hnode.memory
  refine ⟨hown, hsafe, .flush hflush, hflushed.data, fun _ => hflushed, ?_, ?_⟩
  · exact ⟨ticks, replay, hafter, hshows.flush hnode.flushable.mirrored hflush, hat⟩
  · rw [hidle] at hat
    exact ⟨ticks, replay, hafter, hat, hshows.recover hnode.flushable hrecoverable hflush _⟩

/-- Inside an entry the apply thread may change its place as long as it is where
the copy is. -/
theorem set_apply_thread (hnode : node.Follows B log) {apply_thread : ApplyThread}
    (hbusy : apply_thread ≠ .idle)
    (hat : ∀ replay : Replay,
      replay.reached.applied_index = node.wallet.statemachine.applied_index →
      node.apply_thread.At log replay → apply_thread.At log replay)
    (hown : { node with apply_thread := apply_thread }.HoldsOwn)
    (hsafe : { node with apply_thread := apply_thread }.CheckSafe) :
    { node with apply_thread := apply_thread }.Follows B log := by
  obtain ⟨ticks, replay, hafter, hshows, hbefore⟩ := hnode.memory
  exact ⟨hown, hsafe, hnode.flushable, hnode.data, fun hidle => absurd hidle hbusy,
    ⟨ticks, replay, hafter, hshows, hat replay hshows.applied_index hbefore⟩, hnode.disk⟩

theorem spares_held_none (node : Node) (action : Action) : node.SparesHeld none action := by
  intro _
  rw [Option.all_eq_true]
  intro seq_num _
  rfl

theorem step {action : Action} (hnode : node.Follows B log)
    (hreplicates : node.Replicates log action) (hstep : node.step B none action = some next) :
    next.Follows B log := by
  have hown := hnode.own.step hstep
  have hsafe := hnode.safe.step (spares_held_none node action) hstep
  cases Node.step_spec hstep with
  | receive entry hidle hindex =>
    refine hnode.set_apply_thread (by simp) ?_ hown hsafe
    intro replay happlied hat
    rw [hidle] at hat
    refine ⟨?_, ?_⟩
    · exact hindex.symm.trans (congrArg (· + 1) happlied.symm)
    · rw [hat, List.drop_zero]
      exact congrArg (List.zipIdx · 0) hreplicates
  | finish hthread => exact hnode.finish hthread rfl hown hsafe
  | proceed hthread =>
    refine hnode.set_apply_thread (by simp) ?_ hown hsafe
    intro replay _ hat
    rw [hthread] at hat
    exact hat
  | @duplicate log_index offset command pending phase event hthread hcheck =>
    have havoid := hreplicates command (by rw [hthread]; rfl)
    refine hnode.handle_command hthread havoid ?_ rfl hown hsafe
    rw [assert_command_and_event_match_eq]
    exact hnode.own.consistent.duplicate_reply (hnode.own.duplicate_logged hthread hcheck) log_index
      offset (hnode.own.duplicate hthread hcheck)
  | @fresh log_index offset command pending phase hthread hcheck =>
    have havoid := hreplicates command (by rw [hthread]; rfl)
    have hnew := hnode.own.consistent.get_seq_num_of_fresh hthread hcheck
    refine hnode.handle_command hthread havoid ?_ rfl hown hsafe
    unfold Wallet.handle_command StateMachine.maybe_handle_duplicate_command
    simp only [hnew]
  | missing => exact absurd rfl hsafe.running
  | flush hidle hflush => exact hnode.flush hidle hflush hown hsafe
  | gc_stay hconfig | gc_panic hconfig | gc_start hconfig | gc_batch hconfig | gc_finish hconfig =>
    cases hconfig
  | crash => exact start_up _ hnode.own.consistent.log.persisted hnode.disk

theorem of_run {batch_size : Nat} {actions : List Action} {last : Node}
    (halong : Along (Node.step B none) (Node.Replicates log)
      (Node.start_up batch_size RocksDBState.empty) actions)
    (hrun : run (Node.step B none) (Node.start_up batch_size RocksDBState.empty) actions =
      some last) : last.Follows B log :=
  run_invariant_along (fun _ _ _ hnode hreplicates hstep => hnode.step hreplicates hstep)
    (empty batch_size) halong hrun

/-- The ledger a node is at, with the replies it has given. -/
theorem reached (hnode : node.Follows B log) :
    ∃ ticks replay, Replay.after B log ticks = some replay ∧
      replay.reached.applied_index = node.wallet.statemachine.applied_index ∧
      replay.reached.event_at = node.wallet.statemachine.get_event ∧
      ∀ reply ∈ node.wallet.context.inflight_event_tx, reply ∈ replay.reached.replies := by
  obtain ⟨ticks, replay, hafter, hshows, _⟩ := hnode.memory
  obtain ⟨earlier, hledger⟩ := hshows
  refine ⟨ticks, replay, hafter, by rw [hledger]; rfl, by rw [hledger]; rfl, ?_⟩
  intro reply hreply
  rw [hledger]
  exact List.mem_append_right earlier hreply

/-- Between two entries a node is at the ledger of the log so far. -/
theorem settled (hnode : node.Follows B log) (hidle : node.apply_thread = .idle) :
    ∃ ledger, Ledger.new.apply_log B (log.upto node.wallet.statemachine.applied_index) =
      some ledger ∧ node.wallet.Shows ledger := by
  obtain ⟨ticks, replay, hafter, hshows, hat⟩ := hnode.memory
  rw [hidle] at hat
  have hledger := Replay.apply_log_of_offset hafter hat
  rw [hshows.applied_index] at hledger
  exact ⟨replay.reached, hledger, hshows⟩

variable {left right : Node}

theorem replies_agree (hleft : left.Follows B log) (hright : right.Follows B log)
    {reply other : InflightEvent} (hreply : reply ∈ left.wallet.context.inflight_event_tx)
    (hother : other ∈ right.wallet.context.inflight_event_tx)
    (hposition : reply.position = other.position) : reply = other := by
  obtain ⟨left_ticks, left_replay, hleft_after, _, _, hleft_replies⟩ := hleft.reached
  obtain ⟨right_ticks, right_replay, hright_after, _, _, hright_replies⟩ := hright.reached
  have hreply := hleft_replies reply hreply
  have hother := hright_replies other hother
  obtain hextends | hextends := Replay.after_total hleft_after hright_after
  · exact (Replay.InOrder.after hleft_after).eq_of_position hreply
      (hextends.replies.subset hother) hposition
  · exact (Replay.InOrder.after hright_after).eq_of_position (hextends.replies.subset hreply)
      hother hposition

/-- A replica that has applied the entry of an event has the event. -/
theorem events_agree (hleft : left.Follows B log) (hright : right.Follows B log) {seq_num : Nat}
    {event : Event} (hevent : left.wallet.statemachine.get_event seq_num = some event)
    (happlied : event.header.log_index ≤ right.wallet.statemachine.applied_index) :
    right.wallet.statemachine.get_event seq_num = some event := by
  obtain ⟨left_ticks, left_replay, hleft_after, _, hleft_events, _⟩ := hleft.reached
  obtain ⟨right_ticks, right_replay, hright_after, hright_applied, hright_events, _⟩ :=
    hright.reached
  rw [← hleft_events] at hevent
  rw [← hright_events]
  obtain hextends | hextends := Replay.after_total hleft_after hright_after
  · obtain hevent | hnew := hextends.new_events seq_num event hevent
    · exact hevent
    · omega
  · exact hextends.events seq_num event hevent

/-- An event of a node is in the ledger of the log up to the entry of the event. -/
theorem event_of_log (hnode : node.Follows B log) {seq_num : Nat} {event : Event}
    (hevent : node.wallet.statemachine.get_event seq_num = some event) :
    ∃ ledger, Ledger.new.apply_log B (log.upto event.header.log_index) = some ledger ∧
      ledger.event_at seq_num = some event := by
  obtain ⟨ticks, replay, hafter, _, hevents, _⟩ := hnode.reached
  rw [← hevents] at hevent
  exact Replay.event_of_log hafter hevent

theorem replied (hnode : node.Follows B log) {reply : InflightEvent}
    (hreply : reply ∈ node.wallet.context.inflight_event_tx) {event : Event}
    (hevent : reply.event = .ok event) :
    node.wallet.statemachine.get_event event.header.seq_num = some event := by
  obtain ⟨ticks, replay, hafter, _, hevents, hreplies⟩ := hnode.reached
  rw [← hevents]
  exact (Replay.InOrder.after hafter).ordered.replied reply (hreplies reply hreply) event hevent

/-- In the whole cluster a command id has one event. -/
theorem event_unique (hleft : left.Follows B log) (hright : right.Follows B log)
    {seq_num other_num : Nat} {event other : Event}
    (hevent : left.wallet.statemachine.get_event seq_num = some event)
    (hother : right.wallet.statemachine.get_event other_num = some other)
    (hid : event.header.command_id = other.header.command_id) : event = other := by
  have hunique : ∀ {ledger : Ledger}, ledger.Ordered → ledger.event_at seq_num = some event →
      ledger.event_at other_num = some other → event = other := by
    intro ledger hordered hevent hother
    obtain rfl := hordered.events.eq_of_key_eq hevent hother hid
    exact Option.some.inj (hevent.symm.trans hother)
  obtain ⟨left_ticks, left_replay, hleft_after, _, hleft_events, _⟩ := hleft.reached
  obtain ⟨right_ticks, right_replay, hright_after, _, hright_events, _⟩ := hright.reached
  rw [← hleft_events] at hevent
  rw [← hright_events] at hother
  obtain hextends | hextends := Replay.after_total hleft_after hright_after
  · exact hunique (Replay.InOrder.after hleft_after).ordered hevent
      (hextends.events other_num other hother)
  · exact hunique (Replay.InOrder.after hright_after).ordered
      (hextends.events seq_num event hevent) hother

end Node.Follows

/-- The replicas are one ledger. Whatever entries are received, whenever they are
flushed and wherever they crash, two nodes over one log, neither of which takes a
new command that names an account it has deleted since its last flush, never
panic and are between entries at the ledger of the log up to their applied index.
They reply alike at each position, one that has applied the entry of an event has
the event, and at the same index they have the same accounts, numbers and
events. -/
theorem Node.replicas_are_one_ledger (B : BigDecimal) (log : Log)
    (left_batch_size right_batch_size : Nat) (left_actions right_actions : List Action)
    (left right : Node)
    (hleft_along : Along (Node.step B none) (Node.Replicates log)
      (Node.start_up left_batch_size RocksDBState.empty) left_actions)
    (hleft : run (Node.step B none) (Node.start_up left_batch_size RocksDBState.empty)
      left_actions = some left)
    (hright_along : Along (Node.step B none) (Node.Replicates log)
      (Node.start_up right_batch_size RocksDBState.empty) right_actions)
    (hright : run (Node.step B none) (Node.start_up right_batch_size RocksDBState.empty)
      right_actions = some right) :
    left.apply_thread ≠ .panicked ∧
    (left.apply_thread = .idle → ∃ ledger,
      Ledger.new.apply_log B (log.upto left.wallet.statemachine.applied_index) = some ledger ∧
        left.wallet.Shows ledger) ∧
    (∀ reply ∈ left.wallet.context.inflight_event_tx,
      ∀ other ∈ right.wallet.context.inflight_event_tx,
        reply.position = other.position → reply = other) ∧
    (∀ seq_num event, left.wallet.statemachine.get_event seq_num = some event →
      event.header.log_index ≤ right.wallet.statemachine.applied_index →
        right.wallet.statemachine.get_event seq_num = some event) ∧
    (left.apply_thread = .idle → right.apply_thread = .idle →
      left.wallet.statemachine.applied_index = right.wallet.statemachine.applied_index →
        { left.wallet.view with replies := [] } = { right.wallet.view with replies := [] }) := by
  have hleft := Follows.of_run hleft_along hleft
  have hright := Follows.of_run hright_along hright
  refine ⟨hleft.safe.running, hleft.settled, ?_, ?_, ?_⟩
  · intro reply hreply other hother hposition
    exact hleft.replies_agree hright hreply hother hposition
  · intro seq_num event hevent happlied
    exact hleft.events_agree hright hevent happlied
  · intro hleft_idle hright_idle happlied
    obtain ⟨ledger, hledger, earlier, hleft_view⟩ := hleft.settled hleft_idle
    obtain ⟨other, hother, before, hright_view⟩ := hright.settled hright_idle
    rw [happlied] at hledger
    cases hledger.symm.trans hother
    have hviews := hleft_view.symm.trans hright_view
    exact congrArg (fun ledger : Ledger => { ledger with replies := [] }) hviews

def creditLog : Log
  | 6 => [createAccount "1" "a"]
  | 7 => [creditAccount "2" "a" "5", createAccount "1" "a"]
  | _ => []

/-- One node flushes the first entry and crashes inside the second one. -/
def creditCrashTrace : List Action :=
  .receive (6, creditLog 6) :: List.replicate 3 .apply_step ++
    [.flush, .receive (7, creditLog 7)] ++ List.replicate 3 .apply_step ++
    [.crash, .receive (7, creditLog 7)] ++ List.replicate 7 .apply_step

/-- Another one goes on without a flush. -/
def creditTrace : List Action :=
  .receive (6, creditLog 6) :: List.replicate 3 .apply_step ++ [.receive (7, creditLog 7)] ++
    List.replicate 5 .apply_step

theorem Node.replicas_are_one_ledger_after_crash :
    ∃ left right,
      run (Node.step plainDecimal none) (Node.start_up 100 RocksDBState.empty) creditCrashTrace =
        some left ∧
      run (Node.step plainDecimal none) (Node.start_up 1 RocksDBState.empty) creditTrace =
        some right ∧
      left.wallet.statemachine.applied_index = 7 ∧
      { left.wallet.view with replies := [] } = { right.wallet.view with replies := [] } := by
  obtain ⟨left, hleft, right, hright, hleft_idle, hright_idle, hleft_applied, hright_applied⟩ :
      ∃ left ∈ run (Node.step plainDecimal none) (Node.start_up 100 RocksDBState.empty)
        creditCrashTrace,
      ∃ right ∈ run (Node.step plainDecimal none) (Node.start_up 1 RocksDBState.empty) creditTrace,
        left.apply_thread = .idle ∧ right.apply_thread = .idle ∧
        left.wallet.statemachine.applied_index = 7 ∧
        right.wallet.statemachine.applied_index = 7 := by
    decide +kernel
  obtain ⟨_, _, _, _, hsame⟩ := replicas_are_one_ledger plainDecimal creditLog 100 1
    creditCrashTrace creditTrace left right (by decide +kernel) hleft (by decide +kernel) hright
  exact ⟨left, right, hleft, hright, hleft_applied,
    hsame hleft_idle hright_idle (hleft_applied.trans hright_applied.symm)⟩

end node

end firm_wallet
