import Auticuro.TinyMq.HeldLog
import Auticuro.TinyMq.ReadyPipeline

open Run

namespace hologram_kv

namespace CompactedPeer

/-- The ready that a step writes. -/
def Action.written : Action → Option Ready
  | .ready rd => some rd
  | _ => none

/-- The memory of a peer with other results to be handled. -/
theorem on_ready_result_results (peer : CompactedPeer) (results : List ApplyRes)
    (exec_results : List ExecResult) :
    ({ peer with results := results }).on_ready_result exec_results =
      { peer.on_ready_result exec_results with results := results } := by
  rw [on_ready_result_eq, on_ready_result_eq]

end CompactedPeer

namespace poller

variable {M : Type}

def PeerMsg.applied : PeerMsg → Option hologram_kv.ApplyRes
  | .ApplyRes res => some res
  | _ => none

def Event.ready : Event M → Option Ready
  | .saved ready => some ready.toReady
  | _ => none

namespace CollectedReady

/-- The memory follows readys that are written. -/
def follow (readys : List (CollectedReady M)) (storage : PeerStorage) : PeerStorage :=
  readys.foldl (fun storage collected => storage.post_ready collected.ctx) storage

variable (readys : List (CollectedReady M)) (storage : PeerStorage)

@[simp] theorem region_id_follow : (follow readys storage).region_id = storage.region_id := by
  induction readys generalizing storage with
  | nil => rfl
  | cons collected readys ih => exact ih _

@[simp] theorem raft_follow : (follow readys storage).raft = storage.raft := by
  induction readys generalizing storage with
  | nil => rfl
  | cons collected readys ih => exact ih _

/-- The databases change under the memory. -/
theorem follow_write (raft : RocksDB) :
    follow readys { storage with raft := raft } = { follow readys storage with raft := raft } := by
  induction readys generalizing storage with
  | nil => rfl
  | cons collected readys ih => exact ih (storage.post_ready collected.ctx)

end CollectedReady

namespace Poller

def unhandled (self : Poller M) : List ApplyRes := self.messages.filterMap PeerMsg.applied

/-- The readys that were saved in the life of the database. -/
def saved (self : Poller M) : List Ready := self.history.filterMap Event.ready

/-- The readys that are written and that the memory has not followed. -/
def written (self : Poller M) : List (CollectedReady M) :=
  match self.point with
  | .post => self.poll_ctx.ready_res
  | .advance _ => self.poll_ctx.ready_res
  | _ => []

/-- The peer as it is when the memory follows a ready at once, with the results that are
on their way. -/
def view (self : Poller M) : CompactedPeer :=
  { self.peer with
    storage := CollectedReady.follow self.written self.peer.storage
    results := self.unhandled }

variable {codec : EnginesCodec} {raft_log_gc_count_limit : Nat} {self next : Poller M}

/-- A step of the collector does not see the memory. -/
theorem collector_view {action : CompactedPeer.Action} {peer next : CompactedPeer}
    (haction : action.OfCollector) (hstep : peer.step codec action = some next)
    (readys : List (CollectedReady M)) (results : List ApplyRes) :
    CompactedPeer.step codec { peer with
        storage := CollectedReady.follow readys peer.storage, results := results } action =
      some { next with
        storage := CollectedReady.follow readys next.storage, results := results } := by
  obtain rfl | rfl | rfl | rfl := haction
  · obtain ⟨hidle, hrun⟩ := Option.ite_none_right_eq_some.mp hstep
    refine Option.ite_none_right_eq_some.mpr ⟨hidle, ?_⟩
    simp only [CompactedPeer.run] at hrun ⊢
    split at hrun
    · cases hrun
    · next task scheduled hscheduled =>
      rw [hscheduled]
      by_cases hless : (peer.tasks ++ [task]).length < MAX_GC_REGION_BATCH
      · cases (if_pos hless).symm.trans hrun
        exact if_pos hless
      · cases (if_neg hless).symm.trans hrun
        exact if_neg hless
  · obtain ⟨hidle, hflush⟩ := Option.ite_none_right_eq_some.mp hstep
    cases hflush
    exact Option.ite_none_right_eq_some.mpr ⟨hidle, rfl⟩
  · obtain ⟨hbatches, hgc⟩ := Option.ite_none_right_eq_some.mp hstep
    refine Option.ite_none_right_eq_some.mpr ⟨hbatches, ?_⟩
    simp only [CompactedPeer.gc, CollectedReady.raft_follow,
      CollectedReady.region_id_follow] at hgc ⊢
    split at hgc
    · cases hgc
    · next task flushing hflushing =>
      obtain ⟨written, hwritten, hsome⟩ := Option.bind_eq_some_iff.mp hgc
      cases hsome
      rw [hflushing]
      exact Option.bind_eq_some_iff.mpr ⟨written, hwritten, rfl⟩
  · obtain ⟨hallowed, hwrite⟩ := Option.ite_none_right_eq_some.mp hstep
    refine Option.ite_none_right_eq_some.mpr ⟨hallowed, ?_⟩
    simp only [CompactedPeer.write_batch] at hwrite ⊢
    split at hwrite
    · cases hwrite
    · next raft_wb batches hbatches =>
      cases hwrite
      rw [hbatches]
      simp only [CompactedPeer.write_opt, CollectedReady.raft_follow,
        CollectedReady.follow_write]

/-- The step of the poller is one that the peer makes, or several, or none, and the readys
of these are saved. -/
def Simulated (codec : EnginesCodec) (self next : Poller M) : Prop :=
  ∃ actions, run (CompactedPeer.step codec) self.view actions = some next.view ∧
    next.saved = self.saved ++ actions.filterMap CompactedPeer.Action.written

namespace Simulated

theorem of_view (hview : next.view = self.view) (hsaved : next.saved = self.saved) :
    Simulated codec self next := by
  refine ⟨[], ?_, ?_⟩
  · rw [hview]
    rfl
  · rw [hsaved]
    exact (List.append_nil _).symm

theorem silent (hpeer : next.peer = self.peer) (hwritten : next.written = self.written)
    (hmessages : next.unhandled = self.unhandled) (hsaved : next.saved = self.saved) :
    Simulated codec self next :=
  of_view (by simp only [view, hpeer, hwritten, hmessages]) hsaved

theorem single (action : CompactedPeer.Action)
    (hstep : self.view.step codec action = some next.view)
    (hsaved : next.saved = self.saved ++ action.written.toList) :
    Simulated codec self next := by
  refine ⟨[action], ?_, ?_⟩
  · rw [run_cons, hstep]
    rfl
  · rw [hsaved]
    cases action <;> rfl

end Simulated

/-- Other messages than results do not count. -/
theorem unhandled_append (self : Poller M) (sent : List PeerMsg) :
    (self.peer_msg_buf ++ (self.receiver ++ sent)).filterMap PeerMsg.applied =
      self.unhandled ++ sent.filterMap PeerMsg.applied := by
  simp only [unhandled, messages, List.filterMap_append, List.append_assoc]

theorem saved_append (self : Poller M) {events : List (Event M)} {messages : List M}
    (hevents : events = [] ∨ events = [.sent messages]) :
    (self.history ++ events).filterMap Event.ready = self.saved := by
  obtain rfl | rfl := hevents
  · rw [List.append_nil]
    rfl
  · rw [List.filterMap_append]
    exact List.append_nil _

/-- A message that is handled. -/
theorem simulated_handle_msg (raft : RaftAnswer M) {msg : PeerMsg} {peer_msg_buf : List PeerMsg}
    (hpoint : self.point = .handle_msgs) (hbuf : self.peer_msg_buf = msg :: peer_msg_buf) :
    Simulated codec self (({ self with peer_msg_buf := peer_msg_buf } : Poller M).handle_msg
      raft_log_gc_count_limit raft msg) := by
  obtain ⟨has_ready, registry, batch, heq⟩ := handle_msg_eq raft_log_gc_count_limit
    { self with peer_msg_buf := peer_msg_buf } raft msg
  have hunhandled : self.unhandled = (msg.applied.toList ++
      (peer_msg_buf ++ self.receiver).filterMap PeerMsg.applied) := by
    rw [unhandled, messages, hbuf]
    cases msg <;> rfl
  rw [heq]
  cases msg with
  | ApplyRes res =>
    have hview : self.view = { self.peer with results :=
        res :: (peer_msg_buf ++ self.receiver).filterMap PeerMsg.applied } := by
      simp only [view, written, hpoint, hunhandled]
      rfl
    refine .single .on_apply_res ?_ (List.append_nil _).symm
    rw [hview]
    refine congrArg some ?_
    simp only [view, written, hpoint, CompactedPeer.on_ready_result_results]
    rfl
  | _ => exact .silent rfl rfl hunhandled.symm rfl

/-- The batch of a ready is written: that is when the peer has made its step. -/
theorem simulated_save_raft {collected : CollectedReady M} (hpoint : self.point = .save_raft)
    (hcollected : Collected codec self.peer.storage self.poll_ctx self.last_unpersisted_number
      collected) :
    Simulated codec self (self.save_raft.goto .post) := by
  obtain ⟨hres, hbatch, happends, -, -⟩ := hcollected
  have hview : self.view = { self.peer with results := self.unhandled } := by
    simp only [view, written, hpoint]
    rfl
  have hnext : (self.save_raft.goto .post).view =
      ({ self.peer with results := self.unhandled } : CompactedPeer).on_ready codec
        collected.ready.toReady := by
    simp only [view, written, goto, save_raft, hres, CompactedPeer.on_ready, PeerStorage.on_ready,
      hbatch]
    rfl
  refine .single (.ready collected.ready.toReady) ?_ ?_
  · rw [hview, hnext]
    exact if_pos happends
  · simp only [saved, goto, save_raft, hres, List.filterMap_append]
    rfl

/-- Every step of the poller is simulated. -/
theorem simulated (hself : self.Pipelined codec) {action : Action M}
    (hsteps : Steps codec raft_log_gc_count_limit self action next) :
    Simulated codec self next := by
  obtain ⟨hkv, -, hindexed, hflight, -⟩ := hself
  cases hsteps with
  | send hmsg =>
    refine .silent rfl rfl ((self.unhandled_append _).trans ?_) rfl
    obtain rfl | rfl := hmsg <;> exact List.append_nil _
  | start | fire =>
    exact .silent rfl rfl ((self.unhandled_append _).trans (List.append_nil _)) rfl
  | @apply count results hresults =>
    refine .single (.poll (self.apply_rx.take count)) ?_ (List.append_nil _).symm
    have hallowed : self.view.Allowed (.poll (self.apply_rx.take count)) :=
      fun entries hentries => hindexed entries (List.mem_of_mem_take hentries)
    refine Option.ite_none_right_eq_some.mpr ⟨hallowed, ?_⟩
    refine Option.bind_eq_some_iff.mpr ⟨results, Exec.toOption_eq_some_iff.mpr hresults, ?_⟩
    have hunhandled := self.unhandled_append (results.map .ApplyRes)
    rw [List.filterMap_map, show PeerMsg.applied ∘ PeerMsg.ApplyRes = some from rfl,
      List.filterMap_some] at hunhandled
    refine congrArg some ?_
    simp only [view, CompactedPeer.end_poll, CollectedReady.region_id_follow]
    exact congrArg (fun results => ({ self.view with
      apply_state := _, kv := _, results := results } : CompactedPeer)) hunhandled.symm
  | collector haction hpeer =>
    refine .single _ (collector_view haction hpeer self.written self.unhandled) ?_
    obtain rfl | rfl | rfl | rfl := haction <;> exact (List.append_nil _).symm
  | begin hpoint | recv_end hpoint | handle_end hpoint =>
    exact .silent rfl (by simp only [written, hpoint, goto]) rfl rfl
  | recv hpoint hreceiver =>
    refine .silent rfl rfl ?_ rfl
    simp only [unhandled, messages, hreceiver, List.append_assoc, List.singleton_append]
  | handle_msg hpoint hbuf => exact simulated_handle_msg _ hpoint hbuf
  | @collect_ready raft hpoint hanswers =>
    cases hready : self.has_ready with
    | false =>
      rw [collect_ready_of_not_ready hready]
      exact .silent rfl (by simp only [written, hpoint, goto]) rfl rfl
    | true =>
      obtain ⟨registry, batch, events, tasks, hevents, htasks, heq⟩ :=
        collect_ready_eq codec self raft hready
      rw [heq]
      exact .silent rfl (by simp only [written, hpoint, goto]) rfl (self.saved_append hevents)
  | flush_ticks hpoint =>
    refine .silent rfl ?_ rfl rfl
    simp only [written, hpoint, goto]
    cases self.poll_ctx.has_ready <;> rfl
  | save_kv hpoint =>
    have hsame : self.save_kv = self := if_pos (List.isEmpty_iff.mpr hkv)
    rw [hsame]
    exact .silent rfl (by simp only [written, hpoint, goto]) rfl rfl
  | save_raft hpoint =>
    rw [hpoint] at hflight
    obtain ⟨collected, hcollected⟩ := hflight
    exact simulated_save_raft hpoint hcollected
  | post hpoint =>
    rw [hpoint] at hflight
    obtain ⟨-, hempty | ⟨collected, hres, hregion, -, -⟩⟩ := hflight
    · simp only [post, hempty]
      exact .silent rfl (by simp only [written, hpoint, goto, hempty]) rfl rfl
    · simp only [post, hres, hregion, ne_eq, not_true_eq_false, if_false]
      obtain ⟨events, hposted, hevents⟩ := post_raft_ready_append_eq
        { self with poll_ctx.ready_res := [] } collected
      rw [hposted]
      refine .of_view ?_ ?_
      · simp only [view, written, goto, hpoint, hres]
        rfl
      · obtain rfl | rfl := hevents
        · exact congrArg (List.filterMap Event.ready) (List.append_nil _)
        · exact List.filterMap_append.trans (List.append_nil _)
  | @advance raft collected hpoint hanswers =>
    rw [hpoint] at hflight
    obtain ⟨events, tasks, registry, batch, unreachable, hevents, htasks, heq⟩ :=
      self.advance_eq raft.light_ready hflight.2
    rw [heq]
    have hview : self.view = { self.peer with results := self.unhandled } := by
      simp only [view, written, hpoint, hflight.1.1]
      rfl
    have hsaved := self.saved_append hevents
    cases hcommit : raft.light_ready.commit_index with
    | none =>
      refine .of_view ?_ hsaved
      rw [hview]
      simp only [view, written, goto, hflight.1.1]
      rfl
    | some commit_index =>
      refine .single (.set_commit_index commit_index) ?_ (hsaved.trans (List.append_nil _).symm)
      rw [hview]
      simp only [view, written, goto, hflight.1.1]
      rfl
  | @restart kept_kv kept_raft peer hpeer =>
    refine .single (.restart kept_kv kept_raft) ?_ (List.append_nil _).symm
    obtain ⟨storage, hstorage, hnew⟩ := Option.bind_eq_some_iff.mp hpeer
    cases hnew
    refine Option.bind_eq_some_iff.mpr ⟨storage, ?_, rfl⟩
    simp only [view, CollectedReady.region_id_follow]
    exact hstorage

/-- A poller goes along with the peer that makes its steps at once: it is where the steps of
the peer have led, and the readys of these are saved. -/
structure GoesAlong (codec : EnginesCodec) (poller : Poller M)
    (actions : List CompactedPeer.Action) (peer : CompactedPeer) : Prop where
  pipelined : poller.Pipelined codec
  peer : peer = poller.view
  saved : actions.filterMap CompactedPeer.Action.written = poller.saved

theorem goes_along {first : CompactedPeer} (hfirst : first.results = [])
    {actions : List (Action M)} {poller : Poller M}
    (hrun : run (step codec raft_log_gc_count_limit) (new first []) actions = some poller) :
    ∃ more after, run (CompactedPeer.step codec) first more = some after ∧
      GoesAlong codec poller more after := by
  have hstart : GoesAlong codec (new first [] : Poller M) [] first := by
    refine ⟨Pipelined.new codec first .nil, ?_, rfl⟩
    change first = { first with results := [] }
    rw [← hfirst]
  refine run_goes_along (R := GoesAlong codec) ?_ hstart hrun
  rintro state past peer action next ⟨hpipelined, rfl, hsaved⟩ hstep
  obtain ⟨more, hmore, hnext⟩ := simulated hpipelined (steps hstep)
  refine ⟨more, next.view, hmore, hpipelined.step (steps hstep), rfl, ?_⟩
  rw [List.filterMap_append, hsaved, hnext]

theorem InFlight.length_le {storage : PeerStorage} {poll_ctx : PollContext M} {number : Nat}
    {history : List (Event M)} {point : Point M}
    (hflight : InFlight codec storage poll_ctx number history point) :
    poll_ctx.ready_res.length ≤ 1 := by
  have hidle : Idle poll_ctx → poll_ctx.ready_res.length ≤ 1 := fun hidle => by simp [hidle.1]
  have hcollected : (∃ collected, Collected codec storage poll_ctx number collected) →
      poll_ctx.ready_res.length ≤ 1 := by
    rintro ⟨collected, hcollected⟩
    simp [hcollected.ready_res]
  cases point with
  | begin => exact hidle hflight
  | handle_normal | handle_msgs | collect_ready | advance => exact hidle hflight.1
  | flush_ticks => exact hflight.elim (fun hnone => hidle hnone.1) fun hready => hcollected hready.2
  | save_kv | save_raft => exact hcollected hflight
  | post =>
    obtain ⟨-, hempty | ⟨collected, hwritten⟩⟩ := hflight
    · simp [hempty]
    · simp [hwritten.ready_res]

theorem results_of_start {engines : Engines} {region_id : Nat} {first : CompactedPeer}
    (hstart : CompactedPeer.start codec engines region_id = .ok first) : first.results = [] := by
  obtain ⟨storage, -, hok⟩ := Exec.bind_eq_ok_iff.mp hstart
  cases hok
  rfl

/-- The poll loop cuts what is done with a ready into pieces: it is collected with what the
storage is to become, its batch is written and synced, and then the memory follows and raft
is told. Between the pieces other threads apply entries, collect the log and send messages, and
the process may stop. Still the poller is always where a peer is that handles each ready and
each result at once; the readys of that peer are those that are saved, in their order. There
is never more than one ready on its way, and no assert on the readys fails. -/
theorem poll_loop_refines_peer (codec : EnginesCodec) (raft_log_gc_count_limit : Nat)
    {engines : Engines} {region_id : Nat} {first : CompactedPeer}
    (hstart : CompactedPeer.start codec engines region_id = .ok first)
    {actions : List (Action M)} {poller : Poller M}
    (hrun : run (step codec raft_log_gc_count_limit) (new first []) actions = some poller) :
    poller.panicked = false ∧ poller.poll_ctx.ready_res.length ≤ 1 ∧
      ∃ more, run (CompactedPeer.step codec) first more = some poller.view ∧
        more.filterMap CompactedPeer.Action.written = poller.saved := by
  obtain ⟨more, after, hmore, hpipelined, rfl, hsaved⟩ := goes_along (results_of_start hstart) hrun
  exact ⟨hpipelined.alive, hpipelined.in_flight.length_le, more, hmore, hsaved⟩

/-- A ready with an entry, a vote and a message that must wait for it, up to the point
where it is saved and the memory has not followed. -/
def saveEntry : List (Action Nat) :=
  let ready : RaftReady Nat :=
    { entries := [⟨6, 6, none⟩], hs := some ⟨6, 1, 5⟩, persisted_messages := [1] }
  [.send .RaftMessage, .poll {}, .poll {}, .poll {}, .poll { has_ready := true }, .poll {},
    .poll { ready := ready }, .poll {}, .poll {}, .poll {}]

theorem poll_loop_refines_peer_saved :
    ∃ (first : CompactedPeer) (poller : Poller Nat),
      run (step DurablePeer.plainEnginesCodec 10) (new first []) saveEntry = some poller ∧
      poller.peer.storage.last_index = 5 ∧ poller.view.storage.last_index = 6 ∧
      ∃ more, run (CompactedPeer.step DurablePeer.plainEnginesCodec) first more =
          some poller.view ∧
        more.filterMap CompactedPeer.Action.written = [⟨[⟨6, 6, none⟩], some ⟨6, 1, 5⟩⟩] := by
  obtain ⟨first, hfirst, poller, hrun, hmemory, hview, hsaved⟩ :
      ∃ first ∈ (CompactedPeer.start DurablePeer.plainEnginesCodec (Engines.bootstrap
        DurablePeer.plainEnginesCodec ⟨OrderedMap.empty, OrderedMap.empty⟩ 1) 1).toOption,
      ∃ poller ∈ run (step DurablePeer.plainEnginesCodec 10) (new first []) saveEntry,
        poller.peer.storage.last_index = 5 ∧ poller.view.storage.last_index = 6 ∧
        poller.saved = [⟨[⟨6, 6, none⟩], some ⟨6, 1, 5⟩⟩] := by
    decide +kernel
  obtain ⟨-, -, more, hmore, hreadys⟩ :=
    poll_loop_refines_peer _ _ (Exec.toOption_eq_some_iff.mp hfirst) hrun
  exact ⟨first, poller, hrun, hmemory, hview, more, hmore, hreadys.trans hsaved⟩

end Poller

end poller

end hologram_kv
