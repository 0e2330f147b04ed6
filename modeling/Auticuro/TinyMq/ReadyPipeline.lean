import Auticuro.TinyMq.Poller

namespace hologram_kv

namespace poller

variable {M : Type}

/-- Persisted messages are sent directly after their ready was saved. -/
def Ordered (history : List (Event M)) : Prop :=
  ∀ before ready, before ++ [.persisted ready] <+: history →
    before.getLast? = some (.saved ready)

namespace Ordered

variable {history : List (Event M)}

theorem nil : Ordered ([] : List (Event M)) := by
  intro before ready hprefix
  exact absurd (List.prefix_nil.mp hprefix) (by simp)

theorem append (hhistory : Ordered history) {event : Event M}
    (hevent : ∀ ready, event = .persisted ready → history.getLast? = some (.saved ready)) :
    Ordered (history ++ [event]) := by
  intro before ready hprefix
  obtain hall | hbefore := List.prefix_concat_iff.mp hprefix
  · obtain ⟨rfl, hlast⟩ := List.append_inj' hall rfl
    exact hevent ready (List.singleton_inj.mp hlast).symm
  · exact hhistory before ready hbefore

end Ordered

namespace Poller

variable {codec : EnginesCodec} {raft_log_gc_count_limit : Nat} {self next : Poller M}

/-- A step of the collector changes only the database under the memory. -/
theorem collector_storage {action : CompactedPeer.Action} {peer next : CompactedPeer}
    (haction : action.OfCollector) (hstep : peer.step codec action = some next) :
    next.storage = { peer.storage with raft := next.storage.raft } := by
  cases CompactedPeer.step_eq_some hstep with
  | run _ _ | run_flush _ _ | on_timeout _ | gc _ _ _ | write_batch _ => rfl
  | _ => simp [CompactedPeer.Action.OfCollector] at haction

/-- No ready is on its way. -/
def Idle (poll_ctx : PollContext M) : Prop := poll_ctx.ready_res = [] ∧ poll_ctx.raft_wb = []

/-- A ready is collected and not written: its batch waits, and the memory is as it was. -/
structure Collected (codec : EnginesCodec) (storage : PeerStorage) (poll_ctx : PollContext M)
    (number : Nat) (collected : CollectedReady M) : Prop where
  ready_res : poll_ctx.ready_res = [collected]
  batch : storage.handle_raft_ready codec.toRaftCodec [] collected.ready.toReady =
    (collected.ctx, poll_ctx.raft_wb)
  appends : collected.ready.toReady.Appends storage.truncated_index storage.last_index
  region_id : collected.region_id = storage.region_id
  number : collected.number = number

/-- A ready is written, and the memory has not followed. -/
structure Written (storage : PeerStorage) (poll_ctx : PollContext M) (number : Nat)
    (history : List (Event M)) (collected : CollectedReady M) : Prop where
  ready_res : poll_ctx.ready_res = [collected]
  region_id : collected.region_id = storage.region_id
  number : collected.number = number
  saved : history.getLast? = some (.saved collected.ready)

/-- At most one ready is on its way, and where. -/
def InFlight (codec : EnginesCodec) (storage : PeerStorage) (poll_ctx : PollContext M)
    (number : Nat) (history : List (Event M)) : Point M → Prop
  | .begin => Idle poll_ctx
  | .handle_normal => Idle poll_ctx ∧ poll_ctx.has_ready = false
  | .handle_msgs => Idle poll_ctx ∧ poll_ctx.has_ready = false
  | .collect_ready => Idle poll_ctx ∧ poll_ctx.has_ready = false
  | .flush_ticks => Idle poll_ctx ∧ poll_ctx.has_ready = false ∨
      poll_ctx.has_ready = true ∧ ∃ collected, Collected codec storage poll_ctx number collected
  | .save_kv => ∃ collected, Collected codec storage poll_ctx number collected
  | .save_raft => ∃ collected, Collected codec storage poll_ctx number collected
  | .post => poll_ctx.raft_wb = [] ∧ (poll_ctx.ready_res = [] ∨
      ∃ collected, Written storage poll_ctx number history collected)
  | .advance collected => Idle poll_ctx ∧ collected.number = number

/-- The database may change under the memory. -/
theorem InFlight.write {storage : PeerStorage} {poll_ctx : PollContext M} {number : Nat}
    {history : List (Event M)} {point : Point M}
    (hflight : InFlight codec storage poll_ctx number history point) (raft : RocksDB) :
    InFlight codec { storage with raft := raft } poll_ctx number history point := by
  have hcollected : ∀ {collected}, Collected codec storage poll_ctx number collected →
      Collected codec { storage with raft := raft } poll_ctx number collected :=
    fun hold => ⟨hold.ready_res, hold.batch, hold.appends, hold.region_id, hold.number⟩
  cases point with
  | flush_ticks => exact hflight.imp_right (And.imp_right (Exists.imp fun _ => hcollected))
  | save_kv | save_raft => exact hflight.imp fun _ => hcollected
  | post =>
    refine ⟨hflight.1, hflight.2.imp_right (Exists.imp fun _ hold => ?_)⟩
    exact ⟨hold.ready_res, hold.region_id, hold.number, hold.saved⟩
  | _ => exact hflight

/-- The readys go one by one through the poller, and their persisted messages are sent
once they are saved. The asserts of the poller hold. -/
structure Pipelined (codec : EnginesCodec) (poller : Poller M) : Prop where
  kv_wb : poller.poll_ctx.kv_wb = []
  alive : poller.panicked = false
  indexed : ∀ entries ∈ poller.apply_rx, Indexed entries
  in_flight : InFlight codec poller.peer.storage poller.poll_ctx poller.last_unpersisted_number
    poller.history poller.point
  ordered : Ordered poller.history

theorem Ordered.send {history events : List (Event M)} {messages : List M}
    (hhistory : Ordered history) (hevents : events = [] ∨ events = [.sent messages]) :
    Ordered (history ++ events) := by
  obtain rfl | rfl := hevents
  · rwa [List.append_nil]
  · exact hhistory.append (by simp)

theorem indexed_append {apply_rx tasks : List (List Entry)} {entries : List Entry}
    (hindexed : ∀ entries ∈ apply_rx, Indexed entries) (htasks : ∀ task ∈ tasks, task = entries)
    (hentries : Indexed entries) : ∀ entries ∈ apply_rx ++ tasks, Indexed entries := by
  intro task htask
  obtain hold | hnew := List.mem_append.mp htask
  · exact hindexed task hold
  · rw [htasks task hnew]
    exact hentries

theorem handle_raft_ready_append_eq (codec : EnginesCodec) (self : Poller M)
    (ready : RaftReady M) : ∃ events tasks,
      (events = [] ∨ events = [.sent ready.messages]) ∧
      (∀ task ∈ tasks, task = ready.committed_entries) ∧
      self.handle_raft_ready_append codec ready =
        (⟨self.peer.storage.region_id, (self.peer.storage.handle_raft_ready codec.toRaftCodec
            self.poll_ctx.raft_wb ready.toReady).1, self.max_number + 1, ready⟩,
          { self with
            max_number := self.max_number + 1
            last_unpersisted_number := self.max_number + 1
            apply_rx := self.apply_rx ++ tasks
            history := self.history ++ events
            poll_ctx.raft_wb := (self.peer.storage.handle_raft_ready codec.toRaftCodec
              self.poll_ctx.raft_wb ready.toReady).2 }) := by
  obtain ⟨events, hsend, hevents⟩ := send_eq { self with
    max_number := self.max_number + 1
    last_unpersisted_number := self.max_number + 1 } ready.messages
  obtain ⟨tasks, hcommit, htasks⟩ := handle_raft_committed_entries_eq { self with
    max_number := self.max_number + 1
    last_unpersisted_number := self.max_number + 1
    history := self.history ++ events } ready.committed_entries
  refine ⟨events, tasks, hevents, htasks, ?_⟩
  simp only [handle_raft_ready_append, hsend, hcommit]

/-- What a ready that is collected leaves: its batch and what the storage becomes, while
the storage is as it was. -/
theorem collect_ready_eq (codec : EnginesCodec) (self : Poller M) (raft : RaftAnswer M)
    (hready : self.has_ready = true) : ∃ registry batch events tasks,
      (events = [] ∨ events = [.sent raft.ready.messages]) ∧
      (∀ task ∈ tasks, task = raft.ready.committed_entries) ∧
      self.collect_ready codec raft =
        { self with
          max_number := self.max_number + 1
          last_unpersisted_number := self.max_number + 1
          has_ready := false
          tick_registry := registry
          apply_rx := self.apply_rx ++ tasks
          history := self.history ++ events
          poll_ctx := { self.poll_ctx with
            has_ready := true
            ready_res := self.poll_ctx.ready_res ++
              [⟨self.peer.storage.region_id, (self.peer.storage.handle_raft_ready codec.toRaftCodec
                self.poll_ctx.raft_wb raft.ready.toReady).1, self.max_number + 1, raft.ready⟩]
            raft_wb := (self.peer.storage.handle_raft_ready codec.toRaftCodec
              self.poll_ctx.raft_wb raft.ready.toReady).2
            tick_batch := batch } } := by
  obtain ⟨events, tasks, hevents, htasks, happend⟩ := handle_raft_ready_append_eq codec
    { self with has_ready := false, poll_ctx.has_ready := true } raft.ready
  simp only [collect_ready, hready, if_true, happend]
  split
  · obtain ⟨registry, batch, htick⟩ := schedule_tick_eq { self with
      has_ready := false
      max_number := self.max_number + 1
      last_unpersisted_number := self.max_number + 1
      apply_rx := self.apply_rx ++ tasks
      history := self.history ++ events
      poll_ctx := { self.poll_ctx with
        has_ready := true
        raft_wb := (self.peer.storage.handle_raft_ready codec.toRaftCodec
          self.poll_ctx.raft_wb raft.ready.toReady).2 } } .RAFT_LOG_GC
    refine ⟨registry, batch, events, tasks, hevents, htasks, ?_⟩
    rw [register_raft_gc_log_tick, htick]
    rfl
  · exact ⟨self.tick_registry, self.poll_ctx.tick_batch, events, tasks, hevents, htasks, rfl⟩

theorem post_raft_ready_append_eq (self : Poller M) (collected : CollectedReady M) : ∃ events,
    self.post_raft_ready_append collected =
      { self with
        peer := { self.peer with storage := self.peer.storage.post_ready collected.ctx }
        history := self.history ++ events } ∧
      (events = [] ∨ events = [.persisted collected.ready]) := by
  simp only [post_raft_ready_append]
  split
  · exact ⟨[], by rw [List.append_nil], .inl rfl⟩
  · exact ⟨_, rfl, .inr rfl⟩

theorem collect_ready_of_not_ready (hready : self.has_ready = false) (raft : RaftAnswer M) :
    self.collect_ready codec raft = self :=
  if_neg (Bool.eq_false_iff.mp hready)

/-- The commit index of a light ready, if it has one. -/
def commit (storage : PeerStorage) (commit_index : Option Nat) : PeerStorage :=
  (commit_index.map storage.set_commit_index).getD storage

theorem handle_raft_ready_advance_eq (self : Poller M) {number : Nat} (light_rd : LightReady M)
    (hnumber : number = self.last_unpersisted_number) : ∃ events tasks,
      (events = [] ∨ events = [.sent light_rd.messages]) ∧
      (∀ task ∈ tasks, task = light_rd.committed_entries) ∧
      self.handle_raft_ready_advance number light_rd =
        { self with
          peer := { self.peer with storage := commit self.peer.storage light_rd.commit_index }
          history := self.history ++ events
          apply_rx := self.apply_rx ++ tasks } := by
  have hcommit : self.set_commit_index light_rd.commit_index =
      { self with peer := { self.peer with
        storage := commit self.peer.storage light_rd.commit_index } } := by
    cases light_rd.commit_index <;> rfl
  obtain ⟨events, hsend, hevents⟩ := send_eq { self with
    peer := { self.peer with storage := commit self.peer.storage light_rd.commit_index } }
    light_rd.messages
  obtain ⟨tasks, hentries, htasks⟩ := handle_raft_committed_entries_eq { self with
    peer := { self.peer with storage := commit self.peer.storage light_rd.commit_index }
    history := self.history ++ events } light_rd.committed_entries
  refine ⟨events, tasks, hevents, htasks, ?_⟩
  simp only [handle_raft_ready_advance, hnumber, ne_eq, not_true_eq_false, if_false, hcommit,
    hsend, hentries]

theorem check_leader_frame (self : Poller M) : ∃ registry batch unreachable, self.check_leader =
    { self with
      leader_unreachable := unreachable
      tick_registry := registry
      poll_ctx.tick_batch := batch } := by
  unfold check_leader
  split
  · obtain ⟨registry, batch, heq⟩ := self.schedule_tick_eq .RAFT
    rw [register_raft_base_tick, heq]
    exact ⟨registry, batch, false, rfl⟩
  · exact ⟨self.tick_registry, self.poll_ctx.tick_batch, self.leader_unreachable, rfl⟩

/-- What the readys are advanced to leaves the poller without one. -/
theorem advance_eq (self : Poller M) {number : Nat} (light_rd : LightReady M)
    (hnumber : number = self.last_unpersisted_number) :
    ∃ events tasks registry batch unreachable,
      (events = [] ∨ events = [.sent light_rd.messages]) ∧
      (∀ task ∈ tasks, task = light_rd.committed_entries) ∧
      (self.handle_raft_ready_advance number light_rd).check_leader =
        { self with
          peer := { self.peer with storage := commit self.peer.storage light_rd.commit_index }
          history := self.history ++ events
          apply_rx := self.apply_rx ++ tasks
          leader_unreachable := unreachable
          tick_registry := registry
          poll_ctx.tick_batch := batch } := by
  obtain ⟨events, tasks, hevents, htasks, hadvance⟩ :=
    self.handle_raft_ready_advance_eq light_rd hnumber
  obtain ⟨registry, batch, unreachable, hleader⟩ :=
    check_leader_frame (self.handle_raft_ready_advance number light_rd)
  refine ⟨events, tasks, registry, batch, unreachable, hevents, htasks, ?_⟩
  rw [hleader, hadvance]

theorem Pipelined.new (codec : EnginesCodec) (peer : CompactedPeer) {history : List (Event M)}
    (hhistory : Ordered history) : Pipelined codec (Poller.new peer history) :=
  ⟨rfl, rfl, by rintro entries ⟨⟩, ⟨rfl, rfl⟩, hhistory⟩

theorem Pipelined.step (hself : self.Pipelined codec) {action : Action M}
    (hsteps : Steps codec raft_log_gc_count_limit self action next) : next.Pipelined codec := by
  obtain ⟨hkv, halive, hindexed, hflight, hordered⟩ := hself
  cases hsteps with
  | send | start | fire | recv => exact ⟨hkv, halive, hindexed, hflight, hordered⟩
  | apply hresults =>
    exact ⟨hkv, halive, fun entries hentries => hindexed entries (List.mem_of_mem_drop hentries),
      hflight, hordered⟩
  | collector haction hpeer =>
    refine ⟨hkv, halive, hindexed, ?_, hordered⟩
    rw [collector_storage haction hpeer]
    exact hflight.write _
  | begin hpoint =>
    rw [hpoint] at hflight
    exact ⟨hkv, halive, hindexed, ⟨hflight, rfl⟩, hordered⟩
  | recv_end hpoint | handle_end hpoint =>
    rw [hpoint] at hflight
    exact ⟨hkv, halive, hindexed, hflight, hordered⟩
  | @handle_msg raft msg peer_msg_buf hpoint hbuf =>
    rw [hpoint] at hflight
    obtain ⟨has_ready, registry, batch, heq⟩ := handle_msg_eq raft_log_gc_count_limit
      { self with peer_msg_buf := peer_msg_buf } raft msg
    rw [heq]
    refine ⟨hkv, halive, hindexed, ?_, hordered⟩
    simp only [hpoint]
    exact hflight
  | @collect_ready raft hpoint hanswers =>
    rw [hpoint] at hflight
    obtain ⟨⟨hres, hwb⟩, hnone⟩ := hflight
    cases hready : self.has_ready with
    | false =>
      rw [collect_ready_of_not_ready hready]
      exact ⟨hkv, halive, hindexed, .inl ⟨⟨hres, hwb⟩, hnone⟩, hordered⟩
    | true =>
      obtain ⟨registry, batch, events, tasks, hevents, htasks, heq⟩ :=
        collect_ready_eq codec self raft hready
      rw [heq, hres, hwb]
      exact ⟨hkv, halive, indexed_append hindexed htasks hanswers.2.2,
        .inr ⟨rfl, _, rfl, rfl, hanswers.1, rfl, rfl⟩, Ordered.send hordered hevents⟩
  | flush_ticks hpoint =>
    rw [hpoint] at hflight
    obtain ⟨hidle, hnone⟩ | ⟨hready, hcollected⟩ := hflight
    · rw [hnone]
      exact ⟨hkv, halive, hindexed, hidle, hordered⟩
    · obtain ⟨collected, hold⟩ := hcollected
      rw [hready]
      exact ⟨hkv, halive, hindexed, ⟨collected, ⟨hold.1, hold.2, hold.3, hold.4, hold.5⟩⟩, hordered⟩
  | save_kv hpoint =>
    rw [hpoint] at hflight
    have hsame : self.save_kv = self := if_pos (List.isEmpty_iff.mpr hkv)
    rw [hsame]
    exact ⟨hkv, halive, hindexed, hflight, hordered⟩
  | save_raft hpoint =>
    rw [hpoint] at hflight
    obtain ⟨collected, hres, hbatch, happends, hregion, hnumber⟩ := hflight
    have hsaved : self.save_raft.history = self.history ++ [.saved collected.ready] := by
      simp only [save_raft, hres]
      rfl
    refine ⟨hkv, halive, hindexed, ⟨rfl, .inr ⟨collected, hres, hregion, hnumber, ?_⟩⟩, ?_⟩
    · change self.save_raft.history.getLast? = _
      rw [hsaved, List.getLast?_concat]
    · change Ordered self.save_raft.history
      rw [hsaved]
      exact hordered.append (by simp)
  | post hpoint =>
    rw [hpoint] at hflight
    obtain ⟨hwb, hempty | ⟨collected, hres, hregion, hnumber, hsaved⟩⟩ := hflight
    · simp only [post, hempty]
      exact ⟨hkv, halive, hindexed, ⟨hempty, hwb⟩, hordered⟩
    · simp only [post, hres, hregion, ne_eq, not_true_eq_false, if_false]
      obtain ⟨events, hposted, hevents⟩ := post_raft_ready_append_eq
        { self with poll_ctx.ready_res := [] } collected
      rw [hposted]
      refine ⟨hkv, halive, hindexed, ⟨⟨rfl, hwb⟩, hnumber⟩, ?_⟩
      obtain rfl | rfl := hevents
      · exact (List.append_nil self.history).symm ▸ hordered
      · refine hordered.append ?_
        rintro ready hready
        cases hready
        exact hsaved
  | @advance raft collected hpoint hanswers =>
    rw [hpoint] at hflight
    obtain ⟨hidle, hnumber⟩ := hflight
    obtain ⟨events, tasks, registry, batch, unreachable, hevents, htasks, heq⟩ :=
      self.advance_eq raft.light_ready hnumber
    rw [heq]
    exact ⟨hkv, halive, indexed_append hindexed htasks hanswers.2, ⟨hidle.2, .inl hidle.1⟩,
      Ordered.send hordered hevents⟩
  | restart hpeer => exact Pipelined.new codec _ hordered

end Poller

end poller

end hologram_kv
