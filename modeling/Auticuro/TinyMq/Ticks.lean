import Auticuro.TinyMq.Poller
import Mathlib.Algebra.Order.Group.Multiset
import Mathlib.Data.Finset.Dedup
import Mathlib.Data.Finset.Erase
import Mathlib.Data.Finset.Insert
import Mathlib.Data.Multiset.Filter
import Mathlib.Tactic.Abel

open Run

namespace hologram_kv.poller

variable {M : Type}

def PeerMsg.ticked : PeerMsg → Option PeerTicks
  | .Tick tick => some tick
  | _ => none

/-- What the ticks of a peer depend on. -/
structure TickState where
  tick_registry : Finset PeerTicks
  tick_batch : List PeerTicks
  timers : List PeerTicks
  messages : List PeerMsg
  start_sent : Bool
  leader_unreachable : Bool

namespace TickState

/-- The ticks on their way: those that wait for a delay, those that wait in one, and those
in the mailbox. -/
def outstanding (self : TickState) : Multiset PeerTicks :=
  self.tick_batch + self.timers + self.messages.filterMap PeerMsg.ticked

/-- The start message was handled. -/
def Started (self : TickState) : Prop := self.start_sent = true ∧ .Start ∉ self.messages

instance Started.decidable (self : TickState) : Decidable self.Started :=
  inferInstanceAs (Decidable (_ ∧ _))

/-- The ticks on their way are those that are registered, each of them once. -/
structure Kept (ticks : TickState) : Prop where
  outstanding : ticks.outstanding = ticks.tick_registry.val
  started : ticks.Started → ∀ tick, tick ∈ ticks.tick_registry
  reachable : ticks.leader_unreachable = false

def schedule (self : TickState) (tick : PeerTicks) : TickState :=
  if tick ∈ self.tick_registry then
    self
  else
    { self with
      tick_registry := insert tick self.tick_registry
      tick_batch := self.tick_batch ++ [tick] }

def take (self : TickState) (tick : PeerTicks) (messages : List PeerMsg) : TickState :=
  { self with tick_registry := self.tick_registry.erase tick, messages := messages }

def flush (self : TickState) (tick : PeerTicks) : TickState :=
  { self with
    timers := self.timers ++ self.tick_batch.filter (· = tick)
    tick_batch := self.tick_batch.filter (· ≠ tick) }

variable {self : TickState} {tick : PeerTicks} {messages : List PeerMsg}

theorem tick_registry_schedule :
    (self.schedule tick).tick_registry = insert tick self.tick_registry := by
  unfold schedule
  split
  · next hregistered => rw [Finset.insert_eq_of_mem hregistered]
  · rfl

theorem outstanding_schedule (hself : self.outstanding = self.tick_registry.val) :
    (self.schedule tick).outstanding = (self.schedule tick).tick_registry.val := by
  unfold schedule
  split
  · exact hself
  · next hfree =>
    rw [Finset.insert_val_of_notMem hfree, ← hself]
    simp only [outstanding, ← Multiset.coe_add, ← Multiset.singleton_add, Multiset.coe_singleton]
    abel

theorem outstanding_take (hself : self.outstanding = self.tick_registry.val)
    (hmessages : self.messages = .Tick tick :: messages) :
    (self.take tick messages).outstanding = (self.take tick messages).tick_registry.val := by
  have hout : self.outstanding = tick ::ₘ (self.take tick messages).outstanding := by
    have hticked : PeerMsg.ticked (.Tick tick) = some tick := rfl
    simp only [outstanding, take, hmessages, List.filterMap_cons_some hticked,
      ← Multiset.cons_coe, Multiset.add_cons]
  simp only [take, Finset.erase_val, ← hself, hout, Multiset.erase_cons_head]

theorem outstanding_flush : (self.flush tick).outstanding = self.outstanding := by
  have hsplit := Multiset.filter_add_not (fun other => other = tick)
    (self.tick_batch : Multiset PeerTicks)
  simp only [Multiset.filter_coe] at hsplit
  simp only [outstanding, flush, ← Multiset.coe_add, ← hsplit, ne_eq]
  abel

@[simp] theorem messages_schedule : (self.schedule tick).messages = self.messages := by
  unfold schedule
  split <;> rfl

@[simp] theorem start_sent_schedule : (self.schedule tick).start_sent = self.start_sent := by
  unfold schedule
  split <;> rfl

@[simp] theorem leader_unreachable_schedule :
    (self.schedule tick).leader_unreachable = self.leader_unreachable := by
  unfold schedule
  split <;> rfl

/-- A tick that is registered is not scheduled again. -/
theorem schedule_schedule : (self.schedule tick).schedule tick = self.schedule tick := by
  have hregistered : tick ∈ (self.schedule tick).tick_registry := by
    rw [tick_registry_schedule]
    exact Finset.mem_insert_self _ _
  nth_rewrite 1 [schedule]
  exact if_pos hregistered

namespace Kept

section

variable (hself : self.Kept)
include hself

/-- Messages that are not ticks, with the start if it was not handled. -/
theorem receive {received : List PeerMsg}
    (hticked : received.filterMap PeerMsg.ticked = self.messages.filterMap PeerMsg.ticked)
    (hstart : .Start ∈ self.messages → .Start ∈ received) :
    TickState.Kept { self with messages := received } where
  outstanding := by
    simp only [TickState.outstanding, hticked]
    exact hself.outstanding
  started := fun hstarted => hself.started ⟨hstarted.1, fun hmem => hstarted.2 (hstart hmem)⟩
  reachable := hself.reachable

/-- A message is handled that is neither a tick nor the start. -/
theorem skip {msg : PeerMsg} (hmessages : self.messages = msg :: messages)
    (hticked : msg.ticked = none) (hstart : msg ≠ .Start) :
    TickState.Kept { self with messages := messages } := by
  refine hself.receive ?_ ?_
  · rw [hmessages, List.filterMap_cons_none hticked]
  · rw [hmessages]
    simp [hstart.symm]

/-- Messages are sent that are neither ticks nor the start. -/
theorem send {sent : List PeerMsg} (hticked : ∀ msg ∈ sent, msg.ticked = none) :
    TickState.Kept { self with messages := self.messages ++ sent } := by
  refine hself.receive ?_ fun hstart => List.mem_append_left _ hstart
  rw [List.filterMap_append, List.filterMap_eq_nil_iff.mpr hticked, List.append_nil]

theorem send_start :
    TickState.Kept { self with messages := self.messages ++ [.Start], start_sent := true } where
  outstanding := by
    simp only [TickState.outstanding, List.filterMap_append]
    exact (congrArg _ (congrArg _ (List.append_nil _))).trans hself.outstanding
  started := fun hstarted => absurd (List.mem_append_right _ (List.mem_singleton_self _)) hstarted.2
  reachable := hself.reachable

theorem schedule (tick : PeerTicks) : (self.schedule tick).Kept where
  outstanding := outstanding_schedule hself.outstanding
  started := by
    intro hstarted other
    simp only [Started, start_sent_schedule, messages_schedule] at hstarted
    rw [tick_registry_schedule]
    exact Finset.mem_insert_of_mem (hself.started hstarted other)
  reachable := leader_unreachable_schedule.trans hself.reachable

/-- A tick that is handled is registered again. -/
theorem take_schedule (hmessages : self.messages = .Tick tick :: messages) :
    ((self.take tick messages).schedule tick).Kept where
  outstanding := outstanding_schedule (outstanding_take hself.outstanding hmessages)
  started := by
    intro hstarted other
    simp only [Started, start_sent_schedule, messages_schedule] at hstarted
    have hbefore : self.Started := by
      refine ⟨hstarted.1, ?_⟩
      simpa [hmessages] using show .Start ∉ messages from hstarted.2
    have hregistered := hself.started hbefore other
    simp only [tick_registry_schedule, take, Finset.mem_insert, Finset.mem_erase]
    tauto
  reachable := leader_unreachable_schedule.trans hself.reachable

theorem flush (tick : PeerTicks) : (self.flush tick).Kept where
  outstanding := outstanding_flush.trans hself.outstanding
  started := hself.started
  reachable := hself.reachable

/-- A callback sends its tick. -/
theorem fire {index : Nat} (htick : self.timers[index]? = some tick) :
    TickState.Kept { self with
      timers := self.timers.eraseIdx index
      messages := self.messages ++ [.Tick tick] } where
  outstanding := by
    obtain ⟨hlt, rfl⟩ := List.getElem?_eq_some_iff.mp htick
    have htimers := Multiset.coe_eq_coe.mpr (List.getElem_cons_eraseIdx_perm hlt)
    rw [← hself.outstanding]
    simp only [TickState.outstanding, ← htimers, List.filterMap_append, ← Multiset.coe_add,
      ← Multiset.singleton_add, ← Multiset.cons_coe]
    change _ + _ + (_ + ({self.timers[index]} : Multiset PeerTicks)) = _
    abel
  started := fun hstarted => hself.started ⟨hstarted.1, fun hmem =>
    hstarted.2 (List.mem_append_left _ hmem)⟩
  reachable := hself.reachable

/-- The start registers every tick. -/
theorem start (hmessages : self.messages = .Start :: messages) :
    (({ self with messages := messages }.schedule .RAFT).schedule .RAFT_LOG_GC).Kept where
  outstanding := by
    refine outstanding_schedule (outstanding_schedule ?_)
    have hout := hself.outstanding
    simp only [TickState.outstanding, hmessages] at hout ⊢
    exact hout
  started := by
    intro _ other
    simp only [tick_registry_schedule, Finset.mem_insert]
    cases other <;> simp
  reachable := by
    simp only [leader_unreachable_schedule]
    exact hself.reachable

end

end Kept

end TickState

namespace Poller

def ticks (self : Poller M) : TickState where
  tick_registry := self.tick_registry
  tick_batch := self.poll_ctx.tick_batch
  timers := self.timers
  messages := self.messages
  start_sent := self.start_sent
  leader_unreachable := self.leader_unreachable

section Frame

variable (self : Poller M)

@[simp] theorem ticks_goto (point : Point M) : (self.goto point).ticks = self.ticks := rfl

@[simp] theorem ticks_set_has_ready (has_ready : Bool) :
    (self.set_has_ready has_ready).ticks = self.ticks := rfl

@[simp] theorem ticks_push_ready (collected : CollectedReady M) :
    (self.push_ready collected).ticks = self.ticks := rfl

@[simp] theorem ticks_send (messages : List M) : (self.send messages).ticks = self.ticks := by
  unfold send
  split <;> rfl

@[simp] theorem ticks_handle_raft_committed_entries (entries : List Entry) :
    (self.handle_raft_committed_entries entries).ticks = self.ticks := by
  unfold handle_raft_committed_entries
  split <;> rfl

@[simp] theorem ticks_set_commit_index (commit_index : Option Nat) :
    (self.set_commit_index commit_index).ticks = self.ticks := by
  cases commit_index <;> rfl

theorem ticks_save_kv : self.save_kv.ticks = self.ticks := by
  unfold save_kv
  split <;> rfl

@[simp] theorem ticks_post_raft_ready_append (collected : CollectedReady M) :
    (self.post_raft_ready_append collected).ticks = self.ticks := by
  simp only [post_raft_ready_append]
  split <;> rfl

theorem ticks_handle_raft_ready_append (codec : EnginesCodec) (ready : RaftReady M) :
    (self.handle_raft_ready_append codec ready).2.ticks = self.ticks := by
  change ((({ self with
    max_number := self.max_number + 1
    last_unpersisted_number := self.max_number + 1 } : Poller M).send
      ready.messages).handle_raft_committed_entries ready.committed_entries).ticks = self.ticks
  simp only [ticks_handle_raft_committed_entries, ticks_send]
  rfl

theorem ticks_schedule_tick (tick : PeerTicks) :
    (self.schedule_tick tick).ticks = self.ticks.schedule tick := by
  unfold schedule_tick TickState.schedule
  rw [apply_ite ticks]
  rfl

theorem ticks_flush_ticks :
    self.flush_ticks.ticks = (self.ticks.flush .RAFT).flush .RAFT_LOG_GC := rfl

end Frame

/-- Where ticks may wait for the next flush. -/
def Registers : Point M → Prop
  | .handle_msgs => True
  | .collect_ready => True
  | .flush_ticks => True
  | _ => False

/-- Ticks are neither lost nor doubled, and wait for the next flush only where it follows. -/
structure Ticking (poller : Poller M) : Prop where
  kept : poller.ticks.Kept
  flushed : ¬ Registers poller.point → poller.ticks.tick_batch = []

variable {codec : EnginesCodec} {raft_log_gc_count_limit : Nat} {self next : Poller M}

theorem ticks_on_tick (self : Poller M) (tick : PeerTicks) (raft : RaftAnswer M) :
    (self.on_tick raft_log_gc_count_limit tick raft).ticks =
      (self.ticks.take tick self.messages).schedule tick := by
  cases tick with
  | RAFT => exact ticks_schedule_tick _ .RAFT
  | RAFT_LOG_GC =>
    simp only [on_tick, on_raft_gc_log_tick, register_raft_gc_log_tick]
    split
    · exact ticks_schedule_tick _ .RAFT_LOG_GC
    · rw [ticks_schedule_tick, ticks_set_has_ready, ticks_schedule_tick,
        TickState.schedule_schedule]
      rfl

theorem point_handle_msg (self : Poller M) (raft : RaftAnswer M) (msg : PeerMsg) :
    (self.handle_msg raft_log_gc_count_limit raft msg).point = self.point := by
  obtain ⟨has_ready, registry, batch, heq⟩ := self.handle_msg_eq raft_log_gc_count_limit raft msg
  rw [heq]

theorem kept_handle_msg (hself : self.ticks.Kept) (raft : RaftAnswer M) {msg : PeerMsg}
    {peer_msg_buf : List PeerMsg} (hbuf : self.peer_msg_buf = msg :: peer_msg_buf) :
    (({ self with peer_msg_buf := peer_msg_buf } : Poller M).handle_msg raft_log_gc_count_limit
      raft msg).ticks.Kept := by
  have hmessages : self.ticks.messages = msg :: (peer_msg_buf ++ self.receiver) := by
    change self.peer_msg_buf ++ self.receiver = _
    rw [hbuf]
    rfl
  cases msg with
  | RaftMessage | RaftCommand | ApplyRes => exact hself.skip hmessages rfl (by simp)
  | Tick tick =>
    simp only [handle_msg, ticks_on_tick]
    exact hself.take_schedule hmessages
  | Start =>
    simp only [handle_msg, start, ticks_set_has_ready, register_raft_gc_log_tick,
      register_raft_base_tick, ticks_schedule_tick]
    exact hself.start hmessages

theorem kept_collect_ready (hself : self.ticks.Kept) (raft : RaftAnswer M) :
    (self.collect_ready codec raft).ticks.Kept := by
  simp only [collect_ready]
  split
  · rw [ticks_push_ready, apply_ite ticks, register_raft_gc_log_tick, ticks_schedule_tick,
      ticks_handle_raft_ready_append]
    split
    · exact hself.schedule .RAFT_LOG_GC
    · exact hself
  · exact hself

theorem ticks_handle_raft_ready_advance (self : Poller M) (number : Nat)
    (light_rd : LightReady M) :
    (self.handle_raft_ready_advance number light_rd).ticks = self.ticks := by
  simp only [handle_raft_ready_advance]
  split
  · rfl
  · simp

theorem ticks_post (self : Poller M) : self.post.ticks = self.ticks := by
  unfold post
  split
  · rfl
  · split
    · rfl
    · simp only [ticks_goto, ticks_post_raft_ready_append]
      rfl

/-- No leader is unreachable, so nothing is registered behind a ready. -/
theorem check_leader_eq (hself : self.ticks.Kept) : self.check_leader = self :=
  if_neg (Bool.eq_false_iff.mp hself.reachable)

theorem tick_batch_flush_ticks (self : Poller M) : self.flush_ticks.ticks.tick_batch = [] := by
  rw [ticks_flush_ticks]
  simp only [TickState.flush, List.filter_filter, List.filter_eq_nil_iff]
  intro tick _
  cases tick <;> decide

theorem messages_append (self : Poller M) (sent : List PeerMsg) :
    self.peer_msg_buf ++ (self.receiver ++ sent) = self.ticks.messages ++ sent :=
  (List.append_assoc _ _ _).symm

theorem kept_send (hself : self.ticks.Kept) {sent : List PeerMsg}
    (hticked : ∀ msg ∈ sent, msg.ticked = none) :
    TickState.Kept
      { self.ticks with messages := self.peer_msg_buf ++ (self.receiver ++ sent) } := by
  rw [messages_append]
  exact hself.send hticked

theorem Ticking.new (peer : CompactedPeer) (history : List (Event M)) :
    Ticking (Poller.new peer history) where
  kept := ⟨rfl, fun hstarted => absurd hstarted.1 Bool.false_ne_true, rfl⟩
  flushed := fun _ => rfl

/-- A step that registers no tick and follows none that may have. -/
theorem Ticking.of_ticks (hself : self.Ticking) {point : Point M} (hpoint : self.point = point)
    (hregisters : ¬ Registers point) (hticks : next.ticks = self.ticks) : next.Ticking := by
  subst hpoint
  refine ⟨?_, fun _ => ?_⟩
  · rw [hticks]
    exact hself.kept
  · rw [hticks]
    exact hself.flushed hregisters

theorem Ticking.step (hself : self.Ticking) {action : Action M}
    (hsteps : Steps codec raft_log_gc_count_limit self action next) : next.Ticking := by
  have ⟨hkept, hflushed⟩ := hself
  cases hsteps with
  | @send msg hmsg =>
    refine ⟨kept_send hkept ?_, hflushed⟩
    obtain rfl | rfl := hmsg <;> simp [PeerMsg.ticked]
  | start hsent =>
    refine ⟨?_, hflushed⟩
    change TickState.Kept { self.ticks with
      messages := self.peer_msg_buf ++ (self.receiver ++ _), start_sent := true }
    rw [messages_append]
    exact hkept.send_start
  | fire htick =>
    refine ⟨?_, hflushed⟩
    change TickState.Kept { self.ticks with
      timers := _, messages := self.peer_msg_buf ++ (self.receiver ++ _) }
    rw [messages_append]
    exact hkept.fire htick
  | apply hresults =>
    refine ⟨kept_send hkept ?_, hflushed⟩
    simp [PeerMsg.ticked]
  | collector haction hpeer => exact ⟨hkept, hflushed⟩
  | begin hpoint => exact hself.of_ticks hpoint not_false rfl
  | recv hpoint hreceiver =>
    refine ⟨?_, hflushed⟩
    change TickState.Kept { self.ticks with messages := self.peer_msg_buf ++ [_] ++ _ }
    rw [List.append_assoc, List.singleton_append, ← hreceiver]
    exact hkept
  | recv_end | handle_end => exact ⟨hkept, fun hregisters => absurd trivial hregisters⟩
  | handle_msg hpoint hbuf =>
    refine ⟨kept_handle_msg hkept _ hbuf, fun hregisters => absurd ?_ hregisters⟩
    rw [point_handle_msg, hpoint]
    trivial
  | collect_ready hpoint hanswers =>
    exact ⟨kept_collect_ready hkept _, fun hregisters => absurd trivial hregisters⟩
  | flush_ticks hpoint =>
    refine ⟨?_, fun _ => tick_batch_flush_ticks self⟩
    rw [ticks_goto, ticks_flush_ticks]
    exact (hkept.flush _).flush _
  | save_kv hpoint => exact hself.of_ticks hpoint not_false (ticks_save_kv self)
  | save_raft hpoint => exact hself.of_ticks hpoint not_false rfl
  | post hpoint => exact hself.of_ticks hpoint not_false (ticks_post self)
  | @advance raft collected hpoint hanswers =>
    have hticks := ticks_handle_raft_ready_advance self collected.number raft.light_ready
    rw [check_leader_eq (hticks ▸ hkept)]
    exact hself.of_ticks hpoint not_false hticks
  | restart hpeer => exact Ticking.new _ _

/-- Ticks are neither lost nor doubled, however the threads take turns and wherever the
process stops. A tick that is registered is on its way exactly once: it waits for a delay or
in one, or is in the mailbox; one that is not registered is not on its way. Once the start
message is handled that is every tick, forever. No tick waits over the end of a round. -/
theorem every_tick_is_on_its_way_once (codec : EnginesCodec) (raft_log_gc_count_limit : Nat)
    (peer : CompactedPeer) {actions : List (Action M)} {poller : Poller M}
    (hrun : run (step codec raft_log_gc_count_limit) (new peer []) actions = some poller) :
    (∀ tick, poller.ticks.outstanding.count tick = if tick ∈ poller.tick_registry then 1 else 0) ∧
      (poller.ticks.Started → ∀ tick, poller.ticks.outstanding.count tick = 1) ∧
      (poller.point = .begin → poller.poll_ctx.tick_batch = []) := by
  have hticking : poller.Ticking :=
    run_invariant (fun _ _ _ hself hstep => hself.step (steps hstep)) (Ticking.new peer []) hrun
  have hcount : ∀ tick, poller.ticks.outstanding.count tick =
      if tick ∈ poller.tick_registry then 1 else 0 := by
    intro tick
    rw [hticking.kept.outstanding]
    exact Multiset.count_eq_of_nodup poller.tick_registry.nodup
  refine ⟨hcount, fun hstarted tick => ?_, fun hpoint => hticking.flushed ?_⟩
  · rw [hcount]
    exact if_pos (hticking.kept.started hstarted tick)
  · rw [hpoint]
    exact not_false

/-- The start is handled and its ticks are flushed; the delay of the raft tick ends, and the
tick is handled in the next round. -/
def tickAgain : List (Action Nat) :=
  [.start, .poll {}, .poll {}, .poll {}, .poll {}, .poll {}, .poll {}, .poll {},
    .fire 0, .poll {}, .poll {}, .poll {}, .poll {}]

theorem every_tick_is_on_its_way_once_again :
    ∃ (peer : CompactedPeer) (poller : Poller Nat),
      run (step DurablePeer.plainEnginesCodec 10) (new peer []) tickAgain = some poller ∧
      poller.poll_ctx.tick_batch = [.RAFT] ∧ poller.timers = [.RAFT_LOG_GC] ∧
      ∀ tick, poller.ticks.outstanding.count tick = 1 := by
  obtain ⟨peer, -, poller, hrun, hbatch, htimers, hstarted⟩ :
      ∃ peer ∈ (CompactedPeer.start DurablePeer.plainEnginesCodec (Engines.bootstrap
        DurablePeer.plainEnginesCodec ⟨OrderedMap.empty, OrderedMap.empty⟩ 1) 1).toOption,
      ∃ poller ∈ run (step DurablePeer.plainEnginesCodec 10) (new peer []) tickAgain,
        poller.poll_ctx.tick_batch = [.RAFT] ∧ poller.timers = [.RAFT_LOG_GC] ∧
        poller.ticks.Started := by
    decide +kernel
  obtain ⟨-, hticks, -⟩ := every_tick_is_on_its_way_once _ _ peer hrun
  exact ⟨peer, poller, hrun, hbatch, htimers, hticks hstarted⟩

end Poller

end hologram_kv.poller
