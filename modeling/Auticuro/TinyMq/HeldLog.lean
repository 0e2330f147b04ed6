import Auticuro.TinyMq.LogCollection

namespace hologram_kv

theorem ExecResult.index_truncated_state (result : ExecResult) :
    result.truncated_state.index = result.compact_index := by
  cases result
  rfl

/-- Tasks of which each starts where the one before it ends. -/
def Consecutive : Nat → List GcTask → Nat → Prop
  | first, [], last => first = last
  | first, task :: tasks, last =>
    task.start_idx = first ∧ first < task.end_idx ∧ Consecutive task.end_idx tasks last

namespace Consecutive

variable {first middle last : Nat} {tasks later : List GcTask}

theorem append (hfirst : Consecutive first tasks middle)
    (hlater : Consecutive middle later last) : Consecutive first (tasks ++ later) last := by
  induction tasks generalizing first with
  | nil =>
    cases hfirst
    exact hlater
  | cons task tasks ih => exact ⟨hfirst.1, hfirst.2.1, ih hfirst.2.2⟩

theorem end_idx_le (htasks : Consecutive first tasks last) :
    first ≤ last ∧ ∀ task ∈ tasks, first < task.end_idx ∧ task.end_idx ≤ last := by
  induction tasks generalizing first with
  | nil =>
    cases htasks
    exact ⟨le_rfl, by rintro task ⟨⟩⟩
  | cons task tasks ih =>
    obtain ⟨-, hless, hrest⟩ := htasks
    obtain ⟨hle, hall⟩ := ih hrest
    refine ⟨hless.le.trans hle, fun other hother => ?_⟩
    obtain rfl | hother := List.mem_cons.mp hother
    · exact ⟨hless, hle⟩
    · exact ⟨hless.trans (hall other hother).1, (hall other hother).2⟩

end Consecutive

/-- The tasks that are scheduled for results. -/
def gc_tasks : Nat → List ExecResult → List GcTask
  | _, [] => []
  | last_compacted_idx, result :: results =>
    ⟨last_compacted_idx, result.compact_index + 1⟩ :: gc_tasks (result.compact_index + 1) results

/-- Where the next task starts, behind results. -/
def compacted_to (last_compacted_idx : Nat) (results : List ExecResult) : Nat :=
  (results.getLast?.map fun result => result.compact_index + 1).getD last_compacted_idx

theorem compacted_to_cons (last_compacted_idx : Nat) (result : ExecResult)
    (results : List ExecResult) :
    compacted_to last_compacted_idx (result :: results) =
      compacted_to (result.compact_index + 1) results := by
  unfold compacted_to
  rw [List.getLast?_cons]
  cases results.getLast? with
  | none | some last => rfl

/-- Behind compactions the next task starts at the index behind the truncated one. -/
theorem Compacts.compacted_to_eq {first last : RaftTruncatedState} {results : List ExecResult}
    (hresults : Compacts first results last) (hne : results ≠ []) (last_compacted_idx : Nat) :
    compacted_to last_compacted_idx results = last.index + 1 ∧
      results.getLast?.map ExecResult.compact_index = some last.index := by
  induction results generalizing first last_compacted_idx with
  | nil => exact absurd rfl hne
  | cons result results ih =>
    rw [compacted_to_cons]
    cases results with
    | nil =>
      cases hresults.2
      rw [result.index_truncated_state]
      exact ⟨rfl, rfl⟩
    | cons other results =>
      rw [List.getLast?_cons_cons]
      exact ih hresults.2 (List.cons_ne_nil _ _) _

/-- The tasks for compactions continue where the last task ended. -/
theorem Compacts.consecutive_gc_tasks {first last : RaftTruncatedState} {results : List ExecResult}
    (hresults : Compacts first results last) {last_compacted_idx : Nat}
    (hle : last_compacted_idx ≤ first.index + 1) :
    Consecutive last_compacted_idx (gc_tasks last_compacted_idx results)
        (compacted_to last_compacted_idx results) ∧
      ∀ task ∈ gc_tasks last_compacted_idx results, first.index + 1 < task.end_idx := by
  induction results generalizing first last_compacted_idx with
  | nil => exact ⟨rfl, by rintro task ⟨⟩⟩
  | cons result results ih =>
    obtain ⟨hless, hrest⟩ := hresults
    have hindex := result.index_truncated_state
    obtain ⟨hchain, hends⟩ := ih hrest (by omega : result.compact_index + 1 ≤ _)
    have hforward : last_compacted_idx < result.compact_index + 1 := by omega
    rw [compacted_to_cons]
    refine ⟨⟨rfl, hforward, hchain⟩, fun task htask => ?_⟩
    obtain rfl | htask := List.mem_cons.mp htask
    · change first.index + 1 < result.compact_index + 1
      omega
    · have hend := hends task htask
      omega

namespace CompactedPeer

/-- Every result that is handled schedules a task. -/
theorem on_ready_result_eq (peer : CompactedPeer) (results : List ExecResult) :
    peer.on_ready_result results = { peer with
      scheduled := peer.scheduled ++ gc_tasks peer.last_compacted_idx results
      last_compacted_idx := compacted_to peer.last_compacted_idx results
      handled := results.getLast?.or peer.handled } := by
  unfold on_ready_result
  induction results generalizing peer with
  | nil => simp [gc_tasks, compacted_to]
  | cons result results ih =>
    obtain ⟨state, first_index⟩ := result
    rw [List.foldl_cons, ih, compacted_to_cons, List.getLast?_cons]
    simp only [on_ready_compact_log, gc_tasks, List.append_assoc, List.singleton_append]
    cases results.getLast? with
    | none | some last => rfl

/-- The tasks that are not begun, in order. -/
def queue (self : CompactedPeer) : List GcTask := self.flushing ++ self.tasks ++ self.scheduled

variable {task : GcTask}

theorem queue_of_flushing {peer : CompactedPeer} {flushing : List GcTask}
    (hflushing : peer.flushing = task :: flushing) :
    peer.queue = task :: (flushing ++ peer.tasks ++ peer.scheduled) := by
  unfold queue
  rw [hflushing]
  rfl

theorem queue_post_apply (peer : CompactedPeer) (res : ApplyRes) (results : List ApplyRes) :
    (({ peer with results := results }.on_ready_result res.exec_res).post_apply res).queue =
      peer.queue ++ gc_tasks peer.last_compacted_idx res.exec_res := by
  rw [on_ready_result_eq]
  exact (List.append_assoc _ _ _).symm

/-- Whatever a crash leaves of the raft database holds the log above what is
collected, and whatever it leaves of the kv database is truncated at least as far,
and as far as the tasks of the flush that goes on. The tasks in the queue go on from
those that were begun, up to what is truncated in memory. -/
structure Held (codec : EnginesCodec) (region_id : Nat) (state : RaftLocalState)
    (collected begun : Nat) (peer : CompactedPeer) : Prop where
  region : peer.storage.region_id = region_id
  raft : peer.raft.Durably RocksDB.write_op
    (HoldsLog codec.toRaftCodec region_id state peer.log collected)
  raft_current : peer.raft.current RocksDB.write_op = peer.storage.raft
  last_index : peer.storage.last_index = state.last_index
  last_lt : state.last_index + 1 < U64.size
  bounded : peer.apply_state.Bounded
  kv : peer.kv.Durably RocksDB.write_op (HoldsApplyState codec region_id fun recorded =>
    recorded.Bounded ∧ collected ≤ recorded.truncated_state.index ∧
      recorded.truncated_state.index ≤ peer.apply_state.truncated_state.index ∧
      ∀ task ∈ peer.flushing, task.end_idx ≤ recorded.truncated_state.index + 1)
  kv_current : (peer.kv.current RocksDB.write_op).get (keys.apply_state_key region_id) =
    some (codec.apply_state.write_to_bytes peer.apply_state)
  reported : Reported peer.storage.apply_state.truncated_state peer.results
    peer.apply_state.truncated_state
  collected_le : collected ≤ peer.storage.truncated_index
  queued : Consecutive begun peer.queue peer.last_compacted_idx
  ahead : ∀ task ∈ peer.queue, collected < task.end_idx
  compacted : peer.last_compacted_idx = 0 ∨
    peer.last_compacted_idx = peer.storage.truncated_index + 1 ∧
      peer.handled.map ExecResult.compact_index = some peer.storage.truncated_index
  begun_le : begun ≤ collected + 1
  flushed : 0 < peer.flushed → 0 < begun
  batches : ∀ op ∈ peer.batches.flatten, ∃ index ≤ collected,
    op = .delete (keys.raft_log_key region_id index)

namespace Held

variable {codec : EnginesCodec} {region_id : Nat} {state : RaftLocalState} {collected begun : Nat}
  {peer next : CompactedPeer}

section

variable (hpeer : Held codec region_id state collected begun peer)
include hpeer

theorem last_compacted_le : peer.last_compacted_idx ≤ peer.storage.truncated_index + 1 := by
  obtain hzero | ⟨heq, -⟩ := hpeer.compacted
  · omega
  · exact heq.le

theorem truncated_le : peer.storage.truncated_index ≤ peer.apply_state.truncated_state.index :=
  hpeer.reported.index_le

theorem truncated_lt : peer.storage.truncated_index + 1 < U64.size := by
  have htruncated := hpeer.truncated_le
  have happlied := hpeer.bounded.truncated_le
  have hsize := hpeer.bounded.applied_lt
  omega

theorem end_idx_le (htask : task ∈ peer.queue) : task.end_idx ≤ peer.storage.truncated_index + 1 :=
  (hpeer.queued.end_idx_le.2 task htask).2.trans hpeer.last_compacted_le

theorem holds_log :
    HoldsLog codec.toRaftCodec region_id state peer.log collected peer.storage.raft := by
  rw [← hpeer.raft_current]
  exact hpeer.raft.current

end

/-- A peer that was created from a log and an apply state. -/
theorem new {engines : Engines} {storage : PeerStorage} {log : Nat → Entry}
    {P : RaftApplyState → Prop}
    (hraft : HoldsLog codec.toRaftCodec region_id state log collected engines.raft)
    (hlast : state.last_index + 1 < U64.size)
    (hkv : HoldsApplyState codec region_id P engines.kv)
    (hP : ∀ recorded, P recorded →
      recorded.Bounded ∧ collected ≤ recorded.truncated_state.index)
    (hnew : PeerStorage.new codec engines region_id = .ok storage) (handled : Option ExecResult) :
    Held codec region_id state collected 0 (new engines storage log handled) := by
  obtain ⟨hdb, hregion, ⟨found, hstate, hindex⟩, happly, -⟩ := PeerStorage.new_eq_ok hnew
  obtain ⟨recorded, hget, hrecorded⟩ := hkv
  cases hraft.init_raft_state_eq.symm.trans hstate
  cases (init_apply_state_eq hget).symm.trans happly
  obtain ⟨hbounded, hcollected⟩ := hP _ hrecorded
  exact {
    region := hregion
    raft := Wal.durably_durable hraft
    raft_current := hdb.symm
    last_index := hindex
    last_lt := hlast
    bounded := hbounded
    kv := Wal.durably_durable ⟨_, hget, hbounded, hcollected, le_rfl, by rintro task ⟨⟩⟩
    kv_current := hget
    reported := rfl
    collected_le := hcollected
    queued := rfl
    ahead := by rintro task ⟨⟩
    compacted := .inl rfl
    begun_le := Nat.zero_le _
    flushed := fun hpos => absurd hpos (lt_irrefl 0)
    batches := by rintro op ⟨⟩ }

/-- The initial states are what the first start finds. -/
theorem start (codec : EnginesCodec) (engines : Engines) (region_id : Nat) :
    let engines := engines.bootstrap codec region_id
    ∃ storage, CompactedPeer.start codec engines region_id =
        .ok (CompactedPeer.new engines storage initial_log none) ∧
      Held codec region_id write_initial_raft_state RAFT_INIT_LOG_INDEX 0
        (CompactedPeer.new engines storage initial_log none) ∧
      storage.apply_state = write_initial_apply_state ∧
      storage.last_term = RAFT_INIT_LOG_TERM := by
  have hraft := HoldsLog.bootstrap codec engines region_id initial_log
  have hget := get_apply_state_bootstrap codec engines region_id
  obtain ⟨last_term, applied_index_term, hnew⟩ :=
    PeerStorage.new_eq hraft (.initial _) .initial le_rfl le_rfl hget
  have hfirst := new (P := (· = write_initial_apply_state)) hraft (by decide)
    ⟨_, hget, rfl⟩ (by rintro recorded rfl; exact ⟨⟨le_rfl, by decide⟩, le_rfl⟩) hnew none
  refine ⟨_, ?_, hfirst, rfl, ?_⟩
  · unfold CompactedPeer.start
    rw [hnew]
    rfl
  · obtain ⟨-, -, -, -, hterm⟩ := PeerStorage.new_eq_ok hnew
    cases hterm
    rfl

section

variable (hpeer : Held codec region_id state collected begun peer)
include hpeer

/-- The log is held after entries are appended, and the memory has its last index. -/
theorem ready {ready : Ready}
    (happends : ready.Appends peer.storage.truncated_index peer.storage.last_index) :
    ∃ state, Held codec region_id state collected begun (peer.sync_ready codec ready) := by
  obtain rfl := hpeer.region
  obtain ⟨hlast, happly, -, -⟩ := peer.storage.on_ready_eq codec.toRaftCodec ready
  have hlt : peer.storage.last_index + 1 < U64.size := by
    rw [hpeer.last_index]
    exact hpeer.last_lt
  obtain ⟨state', hget, hindex⟩ : ∃ state' : RaftLocalState,
      (peer.storage.on_ready codec.toRaftCodec ready).raft.get
          (keys.raft_state_key peer.storage.region_id) =
        some (codec.raft_state.write_to_bytes state') ∧
      (peer.storage.on_ready codec.toRaftCodec ready).last_index = state'.last_index := by
    have hget := peer.storage.get_state_on_ready codec.toRaftCodec ready
    split at hget
    · exact ⟨_, hget, rfl⟩
    · next hsame =>
      refine ⟨state, hget.trans hpeer.holds_log.raft_state, ?_⟩
      exact (congrArg RaftLocalState.last_index (not_not.mp hsame)).trans hpeer.last_index
  have hholds : HoldsLog codec.toRaftCodec peer.storage.region_id state'
      (DurablePeer.Consistent.log_on_ready peer.log ready) collected
      (peer.storage.on_ready codec.toRaftCodec ready).raft := by
    refine ⟨hget, fun index hcollected hle => ?_⟩
    rw [← hindex, hlast] at hle
    refine DurablePeer.Consistent.stored_on_ready happends hlt ?_ hcollected hle
    rw [hpeer.last_index]
    exact hpeer.holds_log.entries
  have hsame : (peer.sync_ready codec ready).storage.truncated_index =
      peer.storage.truncated_index := congrArg (·.truncated_state.index) happly
  refine ⟨state', ?_⟩
  exact { hpeer with
    region := rfl
    raft := Wal.durably_durable hholds
    raft_current := rfl
    last_index := hindex
    last_lt := by
      rw [← hindex, hlast]
      exact happends.last_index_lt hlt
    reported := by
      simp only [sync_ready, happly]
      exact hpeer.reported
    collected_le := hpeer.collected_le.trans hsame.ge
    compacted := by
      rw [hsame]
      exact hpeer.compacted }

/-- A round writes an apply state that is truncated further, if it has tasks. -/
theorem end_poll {tasks : List (List Entry)} {results : List ApplyRes}
    (hentries : ∀ entries ∈ tasks, ∀ entry ∈ entries, entry.index + 1 < U64.size)
    (hresults : peer.apply_state.poll tasks = .ok results) :
    Held codec region_id state collected begun (peer.end_poll codec results) := by
  obtain ⟨hreported, hbounded⟩ := RaftApplyState.poll_eq_ok hresults
  have hbounded := hbounded hpeer.bounded hentries
  have hforward := hreported.index_le
  have hcollected := hpeer.collected_le
  have htruncated := hpeer.truncated_le
  have hput := get_put_apply_state codec region_id
  have hkept : peer.kv.Durably RocksDB.write_op (HoldsApplyState codec region_id fun recorded =>
      recorded.Bounded ∧ collected ≤ recorded.truncated_state.index ∧
        recorded.truncated_state.index ≤
          (peer.apply_state.last_reported results).truncated_state.index ∧
        ∀ task ∈ peer.flushing, task.end_idx ≤ recorded.truncated_state.index + 1) := by
    refine hpeer.kv.imp fun kv => ?_
    rintro ⟨recorded, hget, hrecorded, hle, hlast, hflushing⟩
    exact ⟨recorded, hget, hrecorded, hle, hlast.trans hforward, hflushing⟩
  obtain rfl := hpeer.region
  unfold CompactedPeer.end_poll
  obtain ⟨hsame, rfl⟩ | ⟨res, hres, hlast, hstate⟩ :=
    peer.apply_state.last_reported_cases results
  · simp only [hsame, List.append_nil, List.getLast?_nil, Option.toList_none, List.map_nil,
      Wal.write]
    exact hpeer
  · have hres := hbounded res hres
    rw [hstate] at hreported hforward
    simp only [hlast, hstate, Option.toList_some, List.map_cons, List.map_nil] at hkept ⊢
    exact { hpeer with
      bounded := hres
      kv := by
        refine hkept.write fun kv _ op hop => ?_
        rw [List.mem_singleton.mp hop]
        refine ⟨res.apply_state, hput kv _, hres, by omega, le_rfl, fun task htask => ?_⟩
        have hend := hpeer.end_idx_le
          (List.mem_append_left _ (List.mem_append_left _ htask))
        omega
      kv_current := by
        rw [Wal.current_write]
        exact hput _ _
      reported := hpeer.reported.append hreported }

/-- A result schedules tasks up to the index that it truncates to. -/
theorem post_apply {res : ApplyRes} {results : List ApplyRes}
    (hresults : peer.results = res :: results) :
    Held codec region_id state collected begun
      (({ peer with results := results }.on_ready_result res.exec_res).post_apply res) := by
  have hqueue := peer.queue_post_apply res results
  rw [on_ready_result_eq] at hqueue ⊢
  have hreported := hpeer.reported
  rw [hresults] at hreported
  obtain ⟨hcompacts, hrest⟩ := hreported
  have hforward : peer.storage.truncated_index ≤ res.apply_state.truncated_state.index :=
    hcompacts.index_le
  have hcollected := hpeer.collected_le
  obtain ⟨hchain, hends⟩ := hcompacts.consecutive_gc_tasks hpeer.last_compacted_le
  exact { hpeer with
    reported := hrest
    collected_le := hcollected.trans hforward
    queued := by
      rw [hqueue]
      exact hpeer.queued.append hchain
    ahead := by
      rw [hqueue]
      intro task htask
      obtain htask | htask := List.mem_append.mp htask
      · exact hpeer.ahead task htask
      · have hend := hends task htask
        change peer.storage.truncated_index + 1 < task.end_idx at hend
        omega
    compacted := by
      by_cases hempty : res.exec_res = []
      · rw [hempty] at hcompacts ⊢
        have hsame : peer.storage.apply_state.truncated_state =
            res.apply_state.truncated_state := hcompacts
        change peer.last_compacted_idx = 0 ∨ peer.last_compacted_idx =
          res.apply_state.truncated_state.index + 1 ∧ peer.handled.map _ =
            some res.apply_state.truncated_state.index
        rw [← hsame]
        exact hpeer.compacted
      · obtain ⟨heq, hlast⟩ :=
          hcompacts.compacted_to_eq hempty peer.last_compacted_idx
        refine .inr ⟨heq, ?_⟩
        obtain ⟨result, hresult, -⟩ := Option.map_eq_some_iff.mp hlast
        change (res.exec_res.getLast?.or peer.handled).map _ = _
        rw [hresult] at hlast ⊢
        exact hlast }

/-- A flush syncs the kv database before anything is collected. -/
theorem flush (hidle : peer.Idle) : Held codec region_id state collected begun peer.flush := by
  have hcollected := hpeer.collected_le
  have htruncated := hpeer.truncated_le
  have hqueue : peer.flush.queue = peer.queue := by
    unfold CompactedPeer.flush queue
    rw [hidle.1]
    simp
  exact { hpeer with
    kv := by
      refine Wal.durably_durable ⟨peer.apply_state, hpeer.kv_current, hpeer.bounded, by omega,
        le_rfl, fun task htask => ?_⟩
      have hend := hpeer.end_idx_le (List.mem_append_left _ (List.mem_append_right _ htask))
      omega
    kv_current := hpeer.kv_current
    queued := by
      rw [hqueue]
      exact hpeer.queued
    ahead := by
      rw [hqueue]
      exact hpeer.ahead }

/-- A task that is taken from the channel stays in the queue. -/
theorem push_task {scheduled : List GcTask} (hscheduled : peer.scheduled = task :: scheduled) :
    Held codec region_id state collected begun (peer.push_task task scheduled) := by
  have hqueue : (peer.push_task task scheduled).queue = peer.queue := by
    unfold CompactedPeer.push_task queue
    rw [hscheduled]
    simp
  exact { hpeer with
    queued := by
      rw [hqueue]
      exact hpeer.queued
    ahead := by
      rw [hqueue]
      exact hpeer.ahead }

/-- What a task goes up to may be collected once it is begun. -/
theorem gc_raft_log {flushing : List GcTask} {batches : List RocksWriteBatch} {count : Option Nat}
    (hflushing : peer.flushing = task :: flushing)
    (hgc : peer.storage.raft.gc region_id task.start_idx task.end_idx = .ok (batches, count)) :
    Held codec region_id state (task.end_idx - 1) task.end_idx
      (peer.gc_raft_log flushing batches) := by
  have hqueue := queue_of_flushing hflushing
  have hmem : task ∈ peer.queue := by
    rw [hqueue]
    exact List.mem_cons_self
  have hahead := hpeer.ahead task hmem
  have hend := hpeer.end_idx_le hmem
  have hqueued := hpeer.queued
  rw [hqueue] at hqueued
  obtain ⟨-, -, hrest⟩ := hqueued
  exact { hpeer with
    raft := hpeer.raft.imp fun raft hraft => hraft.mono (by omega)
    kv := by
      refine hpeer.kv.imp fun kv => ?_
      rintro ⟨recorded, hget, hrecorded, hle, hlast, hflush⟩
      rw [hflushing] at hflush
      have htask := hflush task List.mem_cons_self
      exact ⟨recorded, hget, hrecorded, by omega, hlast,
        fun other hother => hflush other (List.mem_cons_of_mem _ hother)⟩
    collected_le := by
      change _ ≤ peer.storage.truncated_index
      omega
    queued := hrest
    ahead := by
      intro other hother
      have hless := (hrest.end_idx_le.2 other hother).1
      omega
    begun_le := by omega
    flushed := by
      intro
      omega
    batches := by
      intro op hop
      obtain ⟨index, hindex, rfl⟩ := RocksDB.gc_eq_ok hgc op hop
      exact ⟨index, by omega, rfl⟩ }

/-- The batches are written one after the other, and not synced. -/
theorem write_opt {raft_wb : RocksWriteBatch} {batches : List RocksWriteBatch}
    (hbatches : peer.batches = raft_wb :: batches) :
    Held codec region_id state collected begun (peer.write_opt raft_wb batches) := by
  have hall := hpeer.batches
  rw [hbatches, List.flatten_cons] at hall
  exact { hpeer with
    raft := by
      refine hpeer.raft.write fun raft hraft op hop => ?_
      obtain ⟨index, hindex, rfl⟩ := hall op (List.mem_append_left _ hop)
      exact hraft.delete hpeer.last_lt hindex
    raft_current := by
      unfold CompactedPeer.write_opt
      rw [Wal.current_write, hpeer.raft_current]
      rfl
    batches := fun op hop => hall op (List.mem_append_right _ hop) }

theorem restart {kept_kv kept_raft : Nat} {storage : PeerStorage}
    (hnew : PeerStorage.new codec (peer.crash kept_kv kept_raft) region_id = .ok storage) :
    Held codec region_id state collected 0
      (CompactedPeer.new (peer.crash kept_kv kept_raft) storage peer.log peer.handled) :=
  new (hpeer.raft kept_raft) hpeer.last_lt (hpeer.kv kept_kv)
    (fun _ hrecorded => ⟨hrecorded.1, hrecorded.2.1⟩) hnew peer.handled

theorem step {action : Action} (hsteps : Steps codec peer action next) :
    ∃ state collected begun, Held codec region_id state collected begun next := by
  cases hsteps with
  | ready happends =>
    obtain ⟨state, hnext⟩ := hpeer.ready happends
    exact ⟨state, collected, begun, hnext⟩
  | empty_ready => exact ⟨_, _, _, hpeer⟩
  | set_commit_index _ => exact ⟨_, _, _, { hpeer with }⟩
  | poll hentries hresults => exact ⟨_, _, _, hpeer.end_poll hentries hresults⟩
  | on_apply_res hresults => exact ⟨_, _, _, hpeer.post_apply hresults⟩
  | run _ hscheduled => exact ⟨_, _, _, hpeer.push_task hscheduled⟩
  | run_flush hidle hscheduled => exact ⟨_, _, _, (hpeer.push_task hscheduled).flush hidle⟩
  | on_timeout hidle => exact ⟨_, _, _, hpeer.flush hidle⟩
  | gc _ hflushing hgc =>
    rw [hpeer.region] at hgc
    exact ⟨_, _, _, hpeer.gc_raft_log hflushing hgc⟩
  | write_batch hbatches => exact ⟨_, _, _, hpeer.write_opt hbatches⟩
  | restart hnew =>
    rw [hpeer.region] at hnew
    exact ⟨_, _, _, hpeer.restart hnew⟩

end

end Held

end CompactedPeer

end hologram_kv
