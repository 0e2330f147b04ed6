import Auticuro.TinyMq.HeldLog

namespace hologram_kv

/-- A raft database with the keys of a store and no entry behind the last index. -/
structure HoldsNoMore (region_id last_index : Nat) (raft : RocksDB) : Prop where
  keyed : keys.StoreKeys raft
  absent : ∀ index, last_index < index → index < U64.size →
    raft.get (keys.raft_log_key region_id index) = none

namespace HoldsNoMore

variable {region_id last_index : Nat} {raft : RocksDB}

theorem delete (hraft : HoldsNoMore region_id last_index raft) (key : Bytes) :
    HoldsNoMore region_id last_index (raft.write_op (.delete key)) where
  keyed := fun entry hentry => hraft.keyed entry (OrderedMap.mem_remove.mp hentry).1
  absent := fun index hlast hindex =>
    OrderedMap.get_remove_eq_none (hraft.absent index hlast hindex)

/-- A ready leaves nothing behind its last entry. -/
theorem on_ready {codec : RaftCodec} {storage : PeerStorage} {ready : Ready} {floor : Nat}
    (hraft : HoldsNoMore storage.region_id storage.last_index storage.raft)
    (hregion : storage.region_id < U64.size)
    (happends : ready.Appends floor storage.last_index)
    (hlast : storage.last_index + 1 < U64.size) :
    HoldsNoMore storage.region_id (storage.on_ready codec ready).last_index
      (storage.on_ready codec ready).raft where
  keyed := by
    obtain ⟨-, -, -, hwritten⟩ := storage.on_ready_eq codec ready
    rw [hwritten]
    refine RocksDB.storeKeys_write_opt (RocksDB.storeKeys_write_opt
      (RocksDB.storeKeys_write_opt hraft.keyed ?_) ?_) ?_
    · intro op hop
      obtain ⟨entry, hentry, rfl⟩ := List.mem_map.mp hop
      exact ⟨.raft_log storage.region_id entry.index,
        ⟨hregion, (happends.index_lt entry hentry).2⟩, rfl⟩
    · intro op hop
      obtain ⟨index, hindex, rfl⟩ := List.mem_map.mp hop
      rw [List.mem_range'_1] at hindex
      exact ⟨.raft_log storage.region_id index, ⟨hregion, by omega⟩, rfl⟩
    · intro op hop
      exact ⟨.raft_state storage.region_id, hregion, storage.key_of_mem_state_batch codec hop⟩
  absent := by
    intro index hbehind hindex
    rw [(storage.on_ready_eq codec ready).1] at hbehind
    exact PeerStorage.get_log_on_ready_eq_none codec happends hlast hbehind hindex
      fun hold => hraft.absent index hold hindex

end HoldsNoMore

namespace CompactedPeer

/-- Beside the log nothing is stored, and what is left of it before the end of the
tasks that were begun is in the batches that are not written yet. -/
structure Collects (region_id begun : Nat) (peer : CompactedPeer) : Prop where
  region_lt : region_id < U64.size
  raft : peer.raft.Durably RocksDB.write_op (HoldsNoMore region_id peer.storage.last_index)
  cleaned : ∀ index < begun, peer.storage.raft.get (keys.raft_log_key region_id index) ≠ none →
    WriteOp.delete (keys.raft_log_key region_id index) ∈ peer.batches.flatten

namespace Collects

variable {codec : EnginesCodec} {region_id : Nat} {state : RaftLocalState} {collected begun : Nat}
  {peer next : CompactedPeer}

section

variable (hheld : Held codec region_id state collected begun peer)
include hheld

section

variable (hpeer : Collects region_id begun peer)
include hpeer

theorem holds_no_more : HoldsNoMore region_id peer.storage.last_index peer.storage.raft := by
  rw [← hheld.raft_current]
  exact hpeer.raft.current

/-- Nothing is appended where the collector works. -/
theorem ready {ready : Ready}
    (happends : ready.Appends peer.storage.truncated_index peer.storage.last_index) :
    Collects region_id begun (peer.sync_ready codec ready) := by
  have hraft := hpeer.holds_no_more hheld
  have hregion := hpeer.region_lt
  have hlast : peer.storage.last_index + 1 < U64.size := by
    rw [hheld.last_index]
    exact hheld.last_lt
  have hbegun := hheld.begun_le
  have hcollected := hheld.collected_le
  have hsize := hheld.truncated_lt
  obtain rfl := hheld.region
  refine ⟨hregion, Wal.durably_durable (hraft.on_ready hregion happends hlast), ?_⟩
  intro index hindex hpresent
  refine hpeer.cleaned index hindex ?_
  have hread := PeerStorage.get_log_on_ready codec.toRaftCodec happends hlast
    (by omega : index < U64.size)
  rw [happends.latest_entry_eq_none (.inl (by omega))] at hread
  change (peer.storage.on_ready codec.toRaftCodec ready).raft.get _ ≠ none at hpresent
  rw [hread] at hpresent
  split at hpresent
  · exact absurd rfl hpresent
  · exact hpresent

/-- A task that is begun deletes what is left before its end. -/
theorem gc {task : GcTask} {flushing : List GcTask} (hflushing : peer.flushing = task :: flushing)
    (hbatches : peer.batches = []) :
    ∃ batches count,
      peer.storage.raft.gc region_id task.start_idx task.end_idx = .ok (batches, some count) ∧
        ∀ index < task.end_idx, peer.storage.raft.get (keys.raft_log_key region_id index) ≠ none →
          WriteOp.delete (keys.raft_log_key region_id index) ∈ batches.flatten := by
  have hqueue := queue_of_flushing hflushing
  have hmem : task ∈ peer.queue := by
    rw [hqueue]
    exact List.mem_cons_self
  have hqueued := hheld.queued
  rw [hqueue] at hqueued
  obtain ⟨hstart, hless, -⟩ := hqueued
  have hend := hheld.end_idx_le hmem
  have hsize := hheld.truncated_lt
  have hraft := hpeer.holds_no_more hheld
  have hstored : ∀ index, collected < index → index ≤ peer.storage.last_index →
      peer.storage.raft.get (keys.raft_log_key region_id index) ≠ none := by
    intro index hindex hle
    rw [hheld.last_index] at hle
    rw [hheld.holds_log.entries index hindex hle]
    exact Option.some_ne_none _
  obtain ⟨batches, count, hgc, hdeleted⟩ := RocksDB.gc_spec hraft.keyed hpeer.region_lt hstored
    hraft.absent (hheld.ahead task hmem) (hstart.trans_lt hless) (by omega)
  refine ⟨batches, count, hgc, fun index hindex hpresent => ?_⟩
  by_cases hbegun : index < begun
  · have hleft := hpeer.cleaned index hbegun hpresent
    rw [hbatches] at hleft
    cases hleft
  · exact hdeleted index (by omega) hindex hpresent

/-- What a batch leaves is in the batches behind it. -/
theorem write_opt {raft_wb : RocksWriteBatch} {batches : List RocksWriteBatch}
    (hbatches : peer.batches = raft_wb :: batches) :
    Collects region_id begun (peer.write_opt raft_wb batches) := by
  have hdeletes : ∀ op ∈ raft_wb, ∃ key, op = .delete key := by
    intro op hop
    have hall := hheld.batches op
    rw [hbatches, List.flatten_cons] at hall
    obtain ⟨index, -, rfl⟩ := hall (List.mem_append_left _ hop)
    exact ⟨_, rfl⟩
  refine ⟨hpeer.region_lt, hpeer.raft.write fun raft hraft op hop => ?_, ?_⟩
  · obtain ⟨key, rfl⟩ := hdeletes op hop
    exact hraft.delete key
  · intro index hindex hpresent
    change (peer.storage.raft.write_opt raft_wb).get _ ≠ none at hpresent
    rw [RocksDB.get_write_opt_deletes _ hdeletes] at hpresent
    split at hpresent
    · exact absurd rfl hpresent
    · next hkept =>
      have hleft := hpeer.cleaned index hindex hpresent
      rw [hbatches, List.flatten_cons] at hleft
      exact (List.mem_append.mp hleft).resolve_left hkept

end

end

end Collects

/-- What holds in every run of the peer of a region. -/
def Exact (codec : EnginesCodec) (region_id : Nat) (peer : CompactedPeer) : Prop :=
  ∃ state collected begun, Held codec region_id state collected begun peer ∧
    Collects region_id begun peer

namespace Exact

variable {codec : EnginesCodec} {region_id : Nat} {peer next : CompactedPeer}

/-- A region that is bootstrapped where there is no log of it. -/
theorem start (codec : EnginesCodec) {engines : Engines} (hregion : region_id < U64.size)
    (hkeys : keys.StoreKeys engines.raft)
    (hempty : ∀ index < U64.size, engines.raft.get (keys.raft_log_key region_id index) = none) :
    ∃ first, CompactedPeer.start codec (engines.bootstrap codec region_id) region_id = .ok first ∧
      Exact codec region_id first := by
  obtain ⟨storage, hstart, hfirst, -, -⟩ := Held.start codec engines region_id
  refine ⟨_, hstart, _, _, _, hfirst, hregion, ?_, ?_⟩
  · have hraft : HoldsNoMore region_id RAFT_INIT_LOG_INDEX
        (engines.bootstrap codec region_id).raft := by
      refine ⟨RocksDB.storeKeys_write_opt hkeys ?_, fun index _ hindex => ?_⟩
      · intro op hop
        rw [List.mem_singleton.mp hop]
        exact ⟨.raft_state region_id, hregion, rfl⟩
      · refine (RocksDB.get_write_opt _ ?_).trans (hempty index hindex)
        intro op hop
        rw [List.mem_singleton.mp hop]
        exact (keys.raft_log_key_lt_raft_state_key region_id index).ne
    rw [hfirst.last_index]
    exact Wal.durably_durable hraft
  · intro index hindex
    exact absurd hindex (Nat.not_lt_zero index)

theorem step {action : Action} (hpeer : Exact codec region_id peer)
    (hstep : peer.step codec action = some next) : Exact codec region_id next := by
  obtain ⟨state, collected, begun, hheld, hpeer⟩ := hpeer
  cases step_eq_some hstep with
  | ready happends =>
    obtain ⟨state, hnext⟩ := hheld.ready happends
    exact ⟨state, _, _, hnext, hpeer.ready hheld happends⟩
  | empty_ready => exact ⟨_, _, _, hheld, hpeer⟩
  | set_commit_index _ => exact ⟨_, _, _, { hheld with }, { hpeer with }⟩
  | poll hentries hresults =>
    exact ⟨_, _, _, hheld.end_poll hentries hresults, { hpeer with }⟩
  | on_apply_res hresults =>
    refine ⟨_, _, _, hheld.post_apply hresults, ?_⟩
    rw [on_ready_result_eq]
    exact { hpeer with }
  | run _ hscheduled => exact ⟨_, _, _, hheld.push_task hscheduled, { hpeer with }⟩
  | run_flush hidle hscheduled =>
    exact ⟨_, _, _, (hheld.push_task hscheduled).flush hidle, { hpeer with }⟩
  | on_timeout hidle => exact ⟨_, _, _, hheld.flush hidle, { hpeer with }⟩
  | gc hbatches hflushing hgc =>
    rw [hheld.region] at hgc
    obtain ⟨batches, count, hok, hleft⟩ := hpeer.gc hheld hflushing hbatches
    cases hgc.symm.trans hok
    exact ⟨_, _, _, hheld.gc_raft_log hflushing hgc, { hpeer with cleaned := hleft }⟩
  | write_batch hbatches =>
    exact ⟨_, _, _, hheld.write_opt hbatches, hpeer.write_opt hheld hbatches⟩
  | restart hnew =>
    rw [hheld.region] at hnew
    have hnext := hheld.restart hnew
    refine ⟨_, _, _, hnext, hpeer.region_lt, ?_, ?_⟩
    · rw [hnext.last_index, ← hheld.last_index]
      exact Wal.durably_durable (hpeer.raft _)
    · intro index hindex
      exact absurd hindex (Nat.not_lt_zero index)

end Exact

/-- The collection of the log is exact over whole runs, crashes included. When the
collector begins with a task, `gc` returns without an underflow. What it deletes are
entries of the region that are truncated, in memory and in whatever a crash leaves of
the kv database. When all tasks are done and there was one since the start, nothing is
left up to the truncated index of the last compaction that was handled. -/
theorem raft_log_gc_exact (codec : EnginesCodec) (engines : Engines) {region_id : Nat}
    (hregion : region_id < U64.size) (hkeys : keys.StoreKeys engines.raft)
    (hempty : ∀ index < U64.size, engines.raft.get (keys.raft_log_key region_id index) = none) :
    ∃ first, start codec (engines.bootstrap codec region_id) region_id = .ok first ∧
      ∀ actions peer, Run.run (step codec) first actions = some peer →
        (peer.batches = [] → ∀ task ∈ peer.flushing.head?, ∃ batches count,
          peer.storage.raft.gc region_id task.start_idx task.end_idx =
            .ok (batches, some count)) ∧
        (∀ op ∈ peer.batches.flatten, ∃ index,
          op = .delete (keys.raft_log_key region_id index) ∧
            index ≤ peer.storage.truncated_index ∧
            ∀ kept_kv, HoldsApplyState codec region_id (index ≤ ·.truncated_state.index)
              (peer.kv.crash RocksDB.write_op kept_kv)) ∧
        (peer.scheduled = [] → peer.tasks = [] → peer.flushing = [] → peer.batches = [] →
          0 < peer.flushed → ∀ result ∈ peer.handled, ∀ index ≤ result.compact_index,
            peer.storage.raft.get (keys.raft_log_key region_id index) = none) := by
  obtain ⟨first, hstart, hfirst⟩ := Exact.start codec hregion hkeys hempty
  refine ⟨first, hstart, fun actions peer hrun => ?_⟩
  obtain ⟨state, collected, begun, hheld, hpeer⟩ : Exact codec region_id peer :=
    Run.run_invariant (fun _ _ _ hpeer hstep => hpeer.step hstep) hfirst hrun
  refine ⟨fun hbatches task htask => ?_, fun op hop => ?_, ?_⟩
  · obtain ⟨flushing, hflushing⟩ := List.head?_eq_some_iff.mp htask
    obtain ⟨batches, count, hgc, -⟩ := hpeer.gc hheld hflushing hbatches
    exact ⟨batches, count, hgc⟩
  · obtain ⟨index, hindex, rfl⟩ := hheld.batches op hop
    refine ⟨index, rfl, hindex.trans hheld.collected_le, fun kept_kv => ?_⟩
    obtain ⟨recorded, hget, -, hle, -, -⟩ := hheld.kv kept_kv
    exact ⟨recorded, hget, hindex.trans hle⟩
  · intro hscheduled htasks hflushing hbatches hflushed result hresult index hindex
    have hqueue : peer.queue = [] := by
      unfold queue
      rw [hscheduled, htasks, hflushing]
      rfl
    have hqueued := hheld.queued
    rw [hqueue] at hqueued
    have hbegun := hheld.flushed hflushed
    obtain hzero | ⟨hcompacted, hhandled⟩ := hheld.compacted
    · exact absurd (hqueued.trans hzero) hbegun.ne'
    · rw [Option.mem_def.mp hresult] at hhandled
      have hlast : result.compact_index = peer.storage.truncated_index :=
        Option.some.inj hhandled
      by_contra hpresent
      have hleft := hpeer.cleaned index (by
        rw [show begun = peer.last_compacted_idx from hqueued, hcompacted]
        omega) hpresent
      rw [hbatches] at hleft
      cases hleft

/-- The log is compacted to 7 and collected, a crash loses one of the two deletions,
and a compaction to 9 is collected by a task that has no index to start from. -/
def collectedAgain : List Action :=
  let entries : List Entry :=
    [⟨6, 6, none⟩, ⟨7, 6, none⟩, ⟨8, 6, none⟩, ⟨9, 6, some ⟨{}, .admin_request (.CompactLog 7 6)⟩⟩]
  let later : List Entry := [⟨10, 6, some ⟨{}, .admin_request (.CompactLog 9 6)⟩⟩]
  [.ready ⟨entries, some ⟨6, 1, 9⟩⟩, .poll [entries], .on_apply_res, .run, .on_timeout, .gc,
    .write_batch, .restart 0 1, .ready ⟨later, some ⟨6, 1, 10⟩⟩, .poll [later], .on_apply_res,
    .run, .on_timeout, .gc, .write_batch]

theorem raft_log_gc_exact_collected_again :
    ∃ first last : CompactedPeer,
      Run.run (step DurablePeer.plainEnginesCodec) first collectedAgain = some last ∧
      last.handled.map ExecResult.compact_index = some 9 ∧
      ∀ index ≤ 9, last.storage.raft.get (keys.raft_log_key 1 index) = none := by
  have hkeys : keys.StoreKeys OrderedMap.empty := by rintro entry ⟨⟩
  obtain ⟨first, hstart, hruns⟩ := raft_log_gc_exact DurablePeer.plainEnginesCodec
    ⟨OrderedMap.empty, OrderedMap.empty⟩ (by decide : 1 < U64.size) hkeys fun _ _ => rfl
  have hreached : ∃ first ∈ (start DurablePeer.plainEnginesCodec (Engines.bootstrap
      DurablePeer.plainEnginesCodec ⟨OrderedMap.empty, OrderedMap.empty⟩ 1) 1).toOption,
      ∃ last ∈ Run.run (step DurablePeer.plainEnginesCodec) first collectedAgain,
        last.scheduled = [] ∧ last.tasks = [] ∧ last.flushing = [] ∧ last.batches = [] ∧
        last.flushed = 1 ∧ last.handled.map ExecResult.compact_index = some 9 := by
    decide +kernel
  rw [hstart] at hreached
  obtain ⟨_, ⟨⟩, last, hrun, hscheduled, htasks, hflushing, hbatches, hflushed, hhandled⟩ :=
    hreached
  obtain ⟨result, hresult, hindex⟩ := Option.map_eq_some_iff.mp hhandled
  obtain ⟨-, -, hnone⟩ := hruns collectedAgain last hrun
  refine ⟨first, last, hrun, hhandled, fun index hle => ?_⟩
  exact hnone hscheduled htasks hflushing hbatches (by rw [hflushed]; decide) result hresult index
    (by omega)

end CompactedPeer

end hologram_kv
