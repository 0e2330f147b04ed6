import Auticuro.TinyMq.StartChecks
import Auticuro.TinyMq.Truncation

open Run

namespace hologram_kv

variable {Closure : Type}

theorem Protobuf.write_to_bytes_inj {M : Type} (codec : Protobuf M) {left right : M}
    (heq : codec.write_to_bytes left = codec.write_to_bytes right) : left = right := by
  have hread := congrArg codec.merge_from_bytes heq
  rw [codec.merge_write, codec.merge_write] at hread
  exact Option.some.inj hread

namespace RocksDB

variable {db : RocksDB} {region_id : Nat}

/-- The batches delete the indices of the loop, in order. -/
theorem flatten_gc_loop (region_id : Nat) (raft_wb : RocksWriteBatch) (indices : List Nat) :
    (gc_loop region_id raft_wb indices).flatten =
      raft_wb ++ indices.map fun idx => .delete (keys.raft_log_key region_id idx) := by
  induction indices generalizing raft_wb with
  | nil =>
    unfold gc_loop
    split
    · next hempty =>
      rw [List.isEmpty_iff.mp hempty]
      rfl
    · simp
  | cons idx indices ih =>
    rw [gc_loop]
    split
    · rw [List.flatten_cons, ih]
      simp
    · rw [ih]
      simp

/-- Deletions of what is at or above `start_idx`, where nothing is skipped. -/
theorem mem_flatten_gc_loop_iff {start_idx end_idx : Nat} {op : WriteOp} :
    op ∈ (gc_loop region_id [] (List.range' start_idx (end_idx - start_idx))).flatten ↔
      ∃ index, start_idx ≤ index ∧ index < end_idx ∧
        op = .delete (keys.raft_log_key region_id index) := by
  rw [flatten_gc_loop, List.nil_append, List.mem_map]
  constructor
  · rintro ⟨index, hindex, rfl⟩
    rw [List.mem_range'_1] at hindex
    exact ⟨index, by omega, by omega, rfl⟩
  · rintro ⟨index, hstart, hend, rfl⟩
    exact ⟨index, List.mem_range'_1.mpr (by omega), rfl⟩

/-- Whatever it finds, the collector deletes log entries of its region before the
end of its task. -/
theorem gc_eq_ok {start_idx end_idx : Nat} {batches : List RocksWriteBatch} {count : Option Nat}
    (hgc : db.gc region_id start_idx end_idx = .ok (batches, count)) :
    ∀ op ∈ batches.flatten, ∃ index < end_idx,
      op = .delete (keys.raft_log_key region_id index) := by
  unfold gc at hgc
  split at hgc
  · cases hgc
    rintro op ⟨⟩
  · obtain ⟨found, -, hrest⟩ := Exec.bind_eq_ok_iff.mp hgc
    cases found with
    | none =>
      cases hrest
      rintro op ⟨⟩
    | some first =>
      cases hrest
      intro op hop
      obtain ⟨index, -, hend, rfl⟩ := mem_flatten_gc_loop_iff.mp hop
      exact ⟨index, hend, rfl⟩

end RocksDB

namespace Replica

variable {replica next : Replica Closure}

theorem post_propose_eq_ok {p : Proposal Closure} {request : RaftCmdRequest}
    (hpropose : replica.post_propose p request = .ok next) :
    next.fsm = replica.fsm ∧ next.tasks = replica.tasks ∧
      next.last_applying_idx = replica.last_applying_idx := by
  obtain ⟨proposals, -, hok⟩ := Exec.bind_eq_ok_iff.mp hpropose
  cases hok
  exact ⟨rfl, rfl, rfl⟩

/-- Committed entries become a task. -/
theorem handle_raft_committed_entries_eq_ok {term : Nat} {entries : List Entry}
    (hcommit : replica.handle_raft_committed_entries term entries = .ok next) :
    next.fsm = replica.fsm ∧
      (∀ task ∈ next.tasks, task ∈ replica.tasks ∨ task.entries = entries) ∧
      next.last_applying_idx =
        (entries.getLast?.map Entry.index).getD replica.last_applying_idx := by
  unfold Replica.handle_raft_committed_entries at hcommit
  split at hcommit
  · next hnone =>
    cases hcommit
    rw [hnone]
    exact ⟨rfl, fun task htask => .inl htask, rfl⟩
  · next last hsome =>
    obtain ⟨⟨cbs, proposals, calls⟩, -, hok⟩ := Exec.bind_eq_ok_iff.mp hcommit
    cases hok
    rw [hsome]
    refine ⟨rfl, fun task htask => ?_, rfl⟩
    obtain hold | hnew := List.mem_append.mp htask
    · exact .inl hold
    · rw [List.mem_singleton.mp hnew]
      exact .inr rfl

theorem apply_task_eq_ok (happly : replica.apply_task = .ok next) :
    next = replica ∨ ∃ task tasks, replica.tasks = task :: tasks ∧ next.tasks = tasks ∧
      next.last_applying_idx = replica.last_applying_idx ∧
      replica.fsm.handle_apply task = .ok next.fsm := by
  unfold Replica.apply_task at happly
  split at happly
  · cases happly
    exact .inl rfl
  · next task tasks htasks =>
    obtain ⟨fsm, hfsm, hok⟩ := Exec.bind_eq_ok_iff.mp happly
    cases hok
    exact .inr ⟨task, tasks, htasks, rfl, rfl, hfsm⟩

end Replica

/-- A kv database that holds an apply state. -/
def HoldsApplyState (codec : EnginesCodec) (region_id : Nat) (P : RaftApplyState → Prop)
    (kv : RocksDB) : Prop :=
  ∃ state, kv.get (keys.apply_state_key region_id) =
    some (codec.apply_state.write_to_bytes state) ∧ P state

namespace DurablePeer

/-- Whatever a crash leaves of the raft database holds the persisted state and the
log above what is collected, and whatever it leaves of the kv database holds an
apply state that is truncated at least as far. Only what is truncated in the kv
database is collected, and once the collection goes on, in its synced part. -/
structure Consistent (codec : EnginesCodec) (region_id : Nat) (state : RaftLocalState)
    (log : Nat → Entry) (collected : Nat) (peer : DurablePeer Closure) : Prop where
  region : peer.storage.region_id = region_id
  raft : peer.raft.Durably RocksDB.write_op
    (HoldsLog codec.toRaftCodec peer.storage.region_id state log collected)
  raft_current : peer.raft.current RocksDB.write_op = peer.storage.raft
  valid : ValidLog state log
  last_index : peer.storage.last_index = state.last_index
  term : peer.storage.hard_state.term = state.hard_state.term
  commit_le : state.hard_state.commit ≤ peer.storage.commit_index
  committed_le : peer.committed_index ≤ state.last_index
  kv : peer.kv.Durably RocksDB.write_op
    (HoldsApplyState codec peer.storage.region_id fun recorded =>
      Recorded log peer.committed_index recorded ∧ collected ≤ recorded.truncated_state.index)
  kv_current : (peer.kv.current RocksDB.write_op).get
      (keys.apply_state_key peer.storage.region_id) =
    some (codec.apply_state.write_to_bytes peer.replica.fsm.ctx.kv)
  reports : peer.replica.fsm.Reports (Recorded log peer.committed_index)
  applied_le : peer.replica.fsm.delegate.apply_state.applied_index ≤
    peer.replica.last_applying_idx
  tasks : ∀ task ∈ peer.replica.tasks, ∀ entry ∈ task.entries,
    log entry.index = entry ∧ entry.index ≤ peer.replica.last_applying_idx
  gc_tasks : ∀ task ∈ peer.gc_tasks,
    task.end_idx ≤ peer.replica.fsm.ctx.kv.truncated_state.index + 1
  flushing : ∀ task ∈ peer.flushing, task.end_idx ≤ collected + 1
  batches : ∀ op ∈ peer.batches.flatten, ∃ index ≤ collected,
    op = .delete (keys.raft_log_key peer.storage.region_id index)

/-- A peer starts from a log and an apply state that was written. -/
theorem start_eq {codec : EnginesCodec} {engines : Engines} {region_id collected committed : Nat}
    {state : RaftLocalState} {log : Nat → Entry}
    (hraft : HoldsLog codec.toRaftCodec region_id state log collected engines.raft)
    (hvalid : ValidLog state log) (hinit : RAFT_INIT_LOG_INDEX ≤ committed)
    (hcommitted : committed ≤ state.last_index)
    (hkv : HoldsApplyState codec region_id (fun recorded =>
      Recorded log committed recorded ∧ collected ≤ recorded.truncated_state.index) engines.kv) :
    ∃ peer : DurablePeer Closure, start codec engines region_id = .ok peer ∧
      PeerStorage.new codec engines region_id = .ok peer.storage ∧
      peer.storage.applied_index ≤ peer.storage.commit_index ∧
      Consistent codec region_id state log collected peer := by
  obtain ⟨recorded, hget, hrecorded, hcollected⟩ := hkv
  obtain ⟨last_term, applied_index_term, hnew⟩ :=
    PeerStorage.new_eq hraft hvalid hrecorded hcollected hcommitted hget
  have happlied : recorded.applied_index ≤
      max state.hard_state.commit recorded.commit_index := by
    cases hrecorded with
    | initial => exact le_max_of_le_left hvalid.init_le
    | applied _ _ happlied => exact le_max_of_le_right happlied
  have hlast : max (max state.hard_state.commit recorded.commit_index) recorded.applied_index ≤
      state.last_index :=
    max_le (max_le hvalid.commit_le (hrecorded.commit_le.trans hcommitted))
      ((hrecorded.applied_le hinit).trans hcommitted)
  have hkeep : Recorded log
      (max (max state.hard_state.commit recorded.commit_index) recorded.applied_index)
      recorded :=
    hrecorded.imp (fun _ _ => rfl) (le_max_of_le_left (le_max_right _ _))
  refine ⟨new engines _, ?_, hnew, happlied, ?_⟩
  · unfold start
    rw [hnew]
    rfl
  · exact {
      region := rfl
      raft := Wal.durably_durable hraft
      raft_current := rfl
      valid := hvalid
      last_index := rfl
      term := rfl
      commit_le := le_max_left _ _
      committed_le := hlast
      kv := Wal.durably_durable ⟨recorded, hget, hkeep, hcollected⟩
      kv_current := hget
      reports := .start _ _ hkeep
      applied_le := le_rfl
      tasks := by rintro task ⟨⟩
      gc_tasks := by rintro task ⟨⟩
      flushing := by rintro task ⟨⟩
      batches := by rintro op ⟨⟩ }

namespace Consistent

variable {codec : EnginesCodec} {region_id : Nat} {state : RaftLocalState} {log : Nat → Entry}
  {collected : Nat} {peer next : DurablePeer Closure}

section

variable (hpeer : Consistent codec region_id state log collected peer)
include hpeer

theorem init_le : RAFT_INIT_LOG_INDEX ≤ peer.committed_index :=
  hpeer.valid.init_le.trans (hpeer.commit_le.trans (le_max_left _ _))

theorem holds_log :
    HoldsLog codec.toRaftCodec peer.storage.region_id state log collected peer.storage.raft := by
  rw [← hpeer.raft_current]
  exact hpeer.raft.current

/-- What is collected is truncated in the kv database. -/
theorem collected_le : collected ≤ peer.replica.fsm.ctx.kv.truncated_state.index := by
  obtain ⟨recorded, hget, -, hle⟩ := hpeer.kv.current
  rw [hpeer.kv_current] at hget
  rw [codec.apply_state.write_to_bytes_inj (Option.some.inj hget)]
  exact hle

theorem kv_imp {later : Nat → Entry} {committed : Nat}
    (himp : ∀ recorded, Recorded log peer.committed_index recorded →
      Recorded later committed recorded) :
    peer.kv.Durably RocksDB.write_op (HoldsApplyState codec peer.storage.region_id fun recorded =>
      Recorded later committed recorded ∧ collected ≤ recorded.truncated_state.index) :=
  hpeer.kv.imp fun _ ⟨recorded, hkv, hrecorded, hle⟩ =>
    ⟨recorded, hkv, himp recorded hrecorded, hle⟩

/-- The hard state of a ready is at least the one before, and its commit index is
one of the log. -/
theorem hard_state_on_ready {ready : Ready} (hallowed : peer.Allowed codec (.ready ready)) :
    let storage := peer.storage.on_ready codec.toRaftCodec ready
    storage.hard_state = ready.hs.getD peer.storage.hard_state ∧
      peer.storage.commit_index ≤ storage.commit_index ∧
      storage.commit_index ≤ storage.last_index ∧
      peer.storage.hard_state.term ≤ storage.hard_state.term ∧
      peer.committed_index ≤ storage.last_index := by
  obtain ⟨happends, hhs, -⟩ := hallowed
  obtain ⟨hlast, -, hhard, -⟩ := peer.storage.on_ready_eq codec.toRaftCodec ready
  have hfloor : peer.committed_index ≤ ready.last_index peer.storage.last_index := by
    apply happends.floor_le_last_index
    rw [hpeer.last_index]
    exact hpeer.committed_le
  have hhard := hhard (Nat.lt_of_lt_of_le (by decide) (hpeer.init_le.trans hfloor))
  rw [← hlast] at hhs hfloor
  have hcommit : (peer.storage.on_ready codec.toRaftCodec ready).commit_index =
      (ready.hs.getD peer.storage.hard_state).commit := congrArg HardState.commit hhard
  simp only [hhard, hcommit, true_and]
  cases hready : ready.hs with
  | none => exact ⟨le_rfl, (le_max_left _ _).trans hfloor, le_rfl, hfloor⟩
  | some hs =>
    obtain ⟨hcommit, hle, hterm⟩ := hhs hs hready
    exact ⟨hcommit, hle, hterm, hfloor⟩

/-- The persisted state follows the memory, but for the commit index. -/
theorem state_on_ready {ready : Ready} (hallowed : peer.Allowed codec (.ready ready)) :
    let storage := peer.storage.on_ready codec.toRaftCodec ready
    ∃ state : RaftLocalState, storage.raft.get (keys.raft_state_key peer.storage.region_id) =
        some (codec.raft_state.write_to_bytes state) ∧
      storage.last_index = state.last_index ∧
      storage.hard_state.term = state.hard_state.term ∧
      RAFT_INIT_LOG_INDEX ≤ state.hard_state.commit ∧
      state.hard_state.commit ≤ storage.commit_index := by
  obtain ⟨-, hcommit, -, -, -⟩ := hpeer.hard_state_on_ready hallowed
  have hget := peer.storage.get_state_on_ready codec.toRaftCodec ready
  have hinit := hpeer.valid.init_le
  split at hget
  · refine ⟨_, hget, rfl, rfl, ?_, le_rfl⟩
    exact hinit.trans (hpeer.commit_le.trans hcommit)
  · next hsame =>
    have hsame := not_not.mp hsame
    refine ⟨state, hget.trans hpeer.holds_log.raft_state, ?_, ?_, hinit, ?_⟩
    · exact (congrArg RaftLocalState.last_index hsame).trans hpeer.last_index
    · exact (congrArg (fun state => state.hard_state.term) hsame).trans hpeer.term
    · exact hpeer.commit_le.trans hcommit

end

/-- The log after a ready. -/
def log_on_ready (log : Nat → Entry) (ready : Ready) (index : Nat) : Entry :=
  (latest_entry ready.entries index).getD (log index)

theorem log_on_ready_of_le {ready : Ready} {floor last_index index : Nat}
    (happends : ready.Appends floor last_index) (hindex : index ≤ floor) :
    log_on_ready log ready index = log index := by
  unfold log_on_ready
  rw [happends.latest_entry_eq_none (.inl hindex)]
  rfl

/-- Entries that are appended are stored, and what they leave of the log is kept. -/
theorem stored_on_ready {codec : RaftCodec} {storage : PeerStorage} {ready : Ready} {floor : Nat}
    (happends : ready.Appends floor storage.last_index)
    (hlast : storage.last_index + 1 < U64.size)
    (hstored : ∀ index, collected < index → index ≤ storage.last_index →
      storage.raft.get (keys.raft_log_key storage.region_id index) =
        some (codec.entry.write_to_bytes (log index)))
    {index : Nat} (hcollected : collected < index)
    (hindex : index ≤ ready.last_index storage.last_index) :
    (storage.on_ready codec ready).raft.get (keys.raft_log_key storage.region_id index) =
      some (codec.entry.write_to_bytes (log_on_ready log ready index)) := by
  have hread := PeerStorage.get_log_on_ready_of_le codec happends hlast hindex
  unfold log_on_ready
  cases hentry : latest_entry ready.entries index with
  | some entry =>
    rw [hentry] at hread
    exact hread
  | none =>
    rw [hentry] at hread
    exact hread.trans
      (hstored index hcollected (happends.le_of_latest_entry_eq_none hindex hentry))

section

variable (hpeer : Consistent codec region_id state log collected peer)
include hpeer

/-- Above what is collected the log is stored, with the terms that the hard state
allows. -/
theorem entries_on_ready {ready : Ready} (hallowed : peer.Allowed codec (.ready ready))
    {index : Nat} (hindex : index ≤ (peer.storage.on_ready codec.toRaftCodec ready).last_index) :
    (collected < index →
      (peer.storage.on_ready codec.toRaftCodec ready).raft.get
          (keys.raft_log_key peer.storage.region_id index) =
        some (codec.entry.write_to_bytes (log_on_ready log ready index))) ∧
    (RAFT_INIT_LOG_INDEX < index → (log_on_ready log ready index).term ≤
      (peer.storage.on_ready codec.toRaftCodec ready).hard_state.term) := by
  obtain ⟨hhard, -, -, hterm, -⟩ := hpeer.hard_state_on_ready hallowed
  obtain ⟨happends, -, hterms⟩ := hallowed
  obtain ⟨hlast, -, -, -⟩ := peer.storage.on_ready_eq codec.toRaftCodec ready
  have hlt : peer.storage.last_index + 1 < U64.size := by
    rw [hpeer.last_index]
    exact hpeer.valid.last_lt
  rw [hlast] at hindex
  refine ⟨fun hcollected => ?_, fun hinit => ?_⟩
  · refine stored_on_ready happends hlt ?_ hcollected hindex
    rw [hpeer.last_index]
    exact hpeer.holds_log.entries
  · unfold log_on_ready
    cases hentry : latest_entry ready.entries index with
    | some entry =>
      rw [hhard]
      exact hterms entry (mem_of_latest_entry hentry)
    | none =>
      have hle := happends.le_of_latest_entry_eq_none hindex hentry
      rw [hpeer.last_index] at hle
      refine (hpeer.valid.terms index hinit hle).trans ?_
      rw [← hpeer.term]
      exact hterm

theorem ready {ready : Ready} (hallowed : peer.Allowed codec (.ready ready)) :
    ∃ state log, Consistent codec region_id state log collected (peer.on_ready codec ready) := by
  obtain ⟨-, hcommit, hcommitLast, -, hfloor⟩ := hpeer.hard_state_on_ready hallowed
  obtain ⟨state', hget, hlast, hterm, hinit, hcommitLe⟩ := hpeer.state_on_ready hallowed
  have hentries := fun index (hindex : index ≤ _) => hpeer.entries_on_ready hallowed hindex
  obtain ⟨happends, -, -⟩ := hallowed
  have hmono : peer.committed_index ≤ (peer.on_ready codec ready).committed_index :=
    max_le_max_right _ hcommit
  have hkeep : ∀ recorded, Recorded log peer.committed_index recorded →
      Recorded (log_on_ready log ready) (peer.on_ready codec ready).committed_index recorded :=
    fun recorded hrecorded => hrecorded.imp (fun index hindex => log_on_ready_of_le happends hindex)
      (hrecorded.commit_le.trans hmono)
  have hholds : HoldsLog codec.toRaftCodec peer.storage.region_id state' (log_on_ready log ready)
      collected (peer.storage.on_ready codec.toRaftCodec ready).raft := by
    refine ⟨hget, fun index hcollected hindex => ?_⟩
    rw [← hlast] at hindex
    exact (hentries index hindex).1 hcollected
  have hsize : state'.last_index + 1 < U64.size := by
    rw [← hlast, (peer.storage.on_ready_eq codec.toRaftCodec ready).1]
    apply happends.last_index_lt
    rw [hpeer.last_index]
    exact hpeer.valid.last_lt
  refine ⟨state', log_on_ready log ready, ?_⟩
  exact {
    region := hpeer.region
    raft := Wal.durably_durable hholds
    raft_current := rfl
    valid := by
      refine ⟨hinit, ?_, hsize, fun index hinit hindex => ?_⟩
      · rw [← hlast]
        exact hcommitLe.trans hcommitLast
      · rw [← hlast] at hindex
        rw [← hterm]
        exact (hentries index hindex).2 hinit
    last_index := hlast
    term := hterm
    commit_le := hcommitLe
    committed_le := by
      rw [← hlast]
      exact max_le hcommitLast ((le_max_right _ _).trans hfloor)
    kv := hpeer.kv_imp hkeep
    kv_current := hpeer.kv_current
    reports := hpeer.reports.imp hkeep
    applied_le := hpeer.applied_le
    tasks := by
      intro task htask entry hentry
      obtain ⟨hlog, hle⟩ := hpeer.tasks task htask entry hentry
      refine ⟨?_, hle⟩
      rw [log_on_ready_of_le happends (hle.trans (le_max_right _ _))]
      exact hlog
    gc_tasks := hpeer.gc_tasks
    flushing := hpeer.flushing
    batches := hpeer.batches }

theorem set_commit_index {commit : Nat} (hcommit : peer.storage.commit_index ≤ commit)
    (hlast : commit ≤ peer.storage.last_index) :
    Consistent codec region_id state log collected
      { peer with storage := peer.storage.set_commit_index commit } := by
  have hkeep : ∀ recorded, Recorded log peer.committed_index recorded →
      Recorded log (max commit peer.replica.last_applying_idx) recorded :=
    fun _ hrecorded => hrecorded.mono (max_le_max_right _ hcommit)
  rw [hpeer.last_index] at hlast
  exact { hpeer with
    commit_le := hpeer.commit_le.trans hcommit
    committed_le := max_le hlast ((le_max_right _ _).trans hpeer.committed_le)
    kv := hpeer.kv_imp hkeep
    reports := hpeer.reports.imp hkeep }

/-- Entries of the log are handed to the apply thread, behind those that were. -/
theorem handed {replica : Replica Closure} (hfsm : replica.fsm = peer.replica.fsm)
    (happlying : peer.replica.last_applying_idx ≤ replica.last_applying_idx)
    (hlast : replica.last_applying_idx ≤ state.last_index)
    (htasks : ∀ task ∈ replica.tasks, ∀ entry ∈ task.entries,
      log entry.index = entry ∧ entry.index ≤ replica.last_applying_idx) :
    Consistent codec region_id state log collected { peer with replica := replica } := by
  have hkeep : ∀ recorded, Recorded log peer.committed_index recorded →
      Recorded log (max peer.storage.commit_index replica.last_applying_idx) recorded :=
    fun _ hrecorded => hrecorded.mono (max_le_max_left _ happlying)
  exact { hpeer with
    committed_le := max_le ((le_max_left _ _).trans hpeer.committed_le) hlast
    kv := hpeer.kv_imp hkeep
    kv_current := by
      simp only [hfsm]
      exact hpeer.kv_current
    reports := by
      simp only [hfsm]
      exact hpeer.reports.imp hkeep
    applied_le := by
      simp only [hfsm]
      exact hpeer.applied_le.trans happlying
    tasks := htasks
    gc_tasks := by
      simp only [hfsm]
      exact hpeer.gc_tasks }

/-- What raft hands to the apply thread are entries of the log. -/
theorem log_eq_of_get_entry {entry : Entry}
    (happlying : peer.replica.last_applying_idx < entry.index)
    (hlast : entry.index ≤ peer.storage.last_index)
    (hget : peer.storage.raft.get_entry codec.entry peer.storage.region_id entry.index =
      .ok (some entry)) : log entry.index = entry := by
  have hcollected : collected < entry.index := by
    have hkv := hpeer.collected_le
    have hdelegate := hpeer.reports.kv_le
    have happlied := hpeer.reports.delegate.truncated_le
    have hle := hpeer.applied_le
    omega
  rw [hpeer.last_index] at hlast
  rw [hpeer.holds_log.get_entry hcollected hlast] at hget
  exact Option.some.inj (Except.ok.inj hget)

/-- The replica's actions that hand over what was proposed or committed. -/
theorem replica_commit {term : Nat} {entries : List Entry} {replica : Replica Closure}
    (hallowed : peer.Allowed codec (.replica (.commit term entries)))
    (hcommit : peer.replica.handle_raft_committed_entries term entries = .ok replica) :
    Consistent codec region_id state log collected { peer with replica := replica } := by
  obtain ⟨hindices, hstored⟩ := hallowed
  obtain ⟨hfsm, htasks, happlying⟩ := Replica.handle_raft_committed_entries_eq_ok hcommit
  have hbehind : ∀ entry ∈ entries, peer.replica.last_applying_idx < entry.index ∧
      entry.index ≤ peer.replica.last_applying_idx + entries.length := by
    intro entry hentry
    have hmem := List.mem_map_of_mem (f := Entry.index) hentry
    rw [hindices, List.mem_range'_1] at hmem
    omega
  have hreached : replica.last_applying_idx =
      peer.replica.last_applying_idx + entries.length := by
    rw [happlying]
    cases hlast : entries.getLast? with
    | none =>
      rw [List.getLast?_eq_none_iff.mp hlast]
      rfl
    | some last =>
      have hmap := congrArg List.getLast? hindices
      have hne : entries.length ≠ 0 := by
        rintro hzero
        rw [List.length_eq_zero_iff.mp hzero] at hlast
        cases hlast
      rw [List.getLast?_map, hlast, List.getLast?_range', if_neg hne] at hmap
      have hvalue := Option.some.inj hmap
      change last.index = _
      omega
  refine hpeer.handed hfsm (by omega) ?_ ?_
  · rw [happlying]
    cases hlast : entries.getLast? with
    | none => exact (le_max_right _ _).trans hpeer.committed_le
    | some last =>
      rw [← hpeer.last_index]
      exact (hstored last (List.mem_of_getLast? hlast)).1
  · intro task htask entry hentry
    obtain hold | hnew := htasks task htask
    · obtain ⟨hlog, hle⟩ := hpeer.tasks task hold entry hentry
      exact ⟨hlog, by omega⟩
    · rw [hnew] at hentry
      obtain ⟨hlt, hle⟩ := hbehind entry hentry
      obtain ⟨hlast, hget⟩ := hstored entry hentry
      exact ⟨hpeer.log_eq_of_get_entry hlt hlast hget, by omega⟩

/-- The apply state after a task has the commit state of the task's last entry. -/
theorem recorded_of_handle_apply {task : Apply Closure} (htask : task ∈ peer.replica.tasks)
    {fsm : ApplyFsm Closure} (happly : peer.replica.fsm.handle_apply task = .ok fsm) :
    Recorded log peer.committed_index fsm.delegate.apply_state ∧
      fsm.delegate.apply_state.applied_index ≤ peer.replica.last_applying_idx := by
  obtain ⟨last, results, hlast, hall, -⟩ := ApplyFsm.handle_apply_applies_all happly
  have hmem := List.mem_of_getLast? hlast
  obtain ⟨hlog, hle⟩ := hpeer.tasks task htask last hmem
  have happlied : fsm.delegate.apply_state.applied_index = last.index := by
    rw [hall.applied, hlast]
    rfl
  have hcommit : fsm.delegate.apply_state.commit_index = last.index := hall.commit_index
  have hterm : fsm.delegate.apply_state.commit_term = last.term := hall.commit_term
  have hforward : peer.replica.fsm.delegate.apply_state.truncated_state.index ≤
      fsm.delegate.apply_state.truncated_state.index := hall.forward
  obtain ⟨-, hbelow⟩ := hall.below hpeer.reports.delegate.truncated_le
  have hinit := hpeer.reports.delegate.init_le
  have hcommitted : peer.replica.last_applying_idx ≤ peer.committed_index := le_max_right _ _
  refine ⟨.applied (by omega) (hbelow (List.ne_nil_of_mem hmem)) (by omega) (by omega) ?_,
    by omega⟩
  rw [hcommit, hlog, hterm]

theorem replica_apply_task {replica : Replica Closure}
    (happly : peer.replica.apply_task = .ok replica) :
    Consistent codec region_id state log collected { peer with replica := replica } := by
  obtain rfl | ⟨task, tasks, htasks, hrest, happlying, hfsm⟩ := Replica.apply_task_eq_ok happly
  · exact hpeer
  · have hmem : task ∈ peer.replica.tasks := by
      rw [htasks]
      exact List.mem_cons_self
    obtain ⟨hrecorded, happlied⟩ := hpeer.recorded_of_handle_apply hmem hfsm
    obtain ⟨-, -, -, -, hkv, -⟩ := ApplyFsm.handle_apply_applies_all hfsm
    have hsame : max peer.storage.commit_index replica.last_applying_idx =
        peer.committed_index := by
      rw [happlying]
      rfl
    exact { hpeer with
      committed_le := hsame.le.trans hpeer.committed_le
      kv := by
        unfold committed_index
        simp only [hsame]
        exact hpeer.kv
      kv_current := by
        simp only [hkv]
        exact hpeer.kv_current
      reports := by
        unfold committed_index
        simp only [hsame]
        exact hpeer.reports.handle_apply hfsm hrecorded
      applied_le := happlied.trans happlying.ge
      tasks := by
        intro other hother
        rw [hrest] at hother
        rw [happlying]
        refine hpeer.tasks other ?_
        rw [htasks]
        exact List.mem_cons_of_mem _ hother
      gc_tasks := by
        simp only [hkv]
        exact hpeer.gc_tasks }

/-- At the end of a round the batch is written, not synced. -/
theorem replica_end_poll :
    Consistent codec region_id state log collected { peer with
      replica := { peer.replica with fsm := peer.replica.fsm.end_poll }
      kv := peer.kv.write (peer.kv_wb codec .end_poll) } := by
  have hput := get_put_apply_state codec peer.storage.region_id
  have hwrite : ∀ op ∈ peer.kv_wb codec .end_poll, ∃ recorded ∈ peer.replica.fsm.ctx.kv_wb,
      op = put_apply_state codec peer.storage.region_id recorded := by
    intro op hop
    simp only [kv_wb] at hop
    split at hop
    · obtain ⟨recorded, hrecorded, rfl⟩ := List.mem_map.mp hop
      exact ⟨recorded, Option.mem_toList.mp hrecorded, rfl⟩
    · cases hop
  have hcurrent : ((peer.kv.write (peer.kv_wb codec .end_poll)).current RocksDB.write_op).get
        (keys.apply_state_key peer.storage.region_id) =
      some (codec.apply_state.write_to_bytes peer.replica.fsm.end_poll.ctx.kv) ∧
      peer.replica.fsm.ctx.kv.truncated_state.index ≤
        peer.replica.fsm.end_poll.ctx.kv.truncated_state.index := by
    rw [Wal.current_write]
    simp only [kv_wb, ApplyFsm.end_poll, ApplyContext.flush]
    split
    · cases hwb : peer.replica.fsm.ctx.kv_wb with
      | none =>
        simp only [ApplyContext.write_to_db, hwb]
        exact ⟨hpeer.kv_current, le_rfl⟩
      | some recorded =>
        simp only [ApplyContext.write_to_db, hwb]
        exact ⟨hput _ recorded, hpeer.reports.kv_le_wb recorded hwb⟩
    · exact ⟨hpeer.kv_current, le_rfl⟩
  exact { hpeer with
    kv := by
      refine hpeer.kv.write fun kv _ op hop => ?_
      obtain ⟨recorded, hrecorded, rfl⟩ := hwrite op hop
      exact ⟨recorded, hput kv recorded, hpeer.reports.kv_wb recorded hrecorded,
        hpeer.collected_le.trans (hpeer.reports.kv_le_wb recorded hrecorded)⟩
    kv_current := hcurrent.1
    reports := hpeer.reports.end_poll
    gc_tasks := fun task htask =>
      (hpeer.gc_tasks task htask).trans (Nat.succ_le_succ hcurrent.2) }

theorem replica_step {action : Replica.Action Closure}
    (hallowed : peer.Allowed codec (.replica action))
    (hstep : peer.replica_step codec action = some next) :
    Consistent codec region_id state log collected next := by
  obtain ⟨replica, hreplica, hsome⟩ := Option.bind_eq_some_iff.mp hstep
  cases hsome
  have hreplica := Exec.toOption_eq_some_iff.mp hreplica
  have hsame : peer.kv.write [] = peer.kv := by
    unfold Wal.write
    rw [List.append_nil]
  cases action with
  | propose p request =>
    obtain ⟨hfsm, htasks, happlying⟩ := Replica.post_propose_eq_ok hreplica
    simp only [kv_wb, hsame]
    refine hpeer.handed hfsm happlying.ge ?_ ?_
    · rw [happlying]
      exact (le_max_right _ _).trans hpeer.committed_le
    · rw [htasks, happlying]
      exact hpeer.tasks
  | commit term entries =>
    simp only [kv_wb, hsame]
    exact hpeer.replica_commit hallowed hreplica
  | apply_task =>
    simp only [kv_wb, hsame]
    exact hpeer.replica_apply_task hreplica
  | end_poll =>
    cases hreplica
    exact hpeer.replica_end_poll

/-- The tasks for the collector go up to what is truncated in the kv database. -/
theorem on_apply_res (hres : peer.on_apply_res = some next) :
    Consistent codec region_id state log collected next := by
  obtain ⟨res, hnotified, hsome⟩ := Option.bind_eq_some_iff.mp hres
  cases hsome
  have hresults := hpeer.reports.notified res (List.mem_of_getElem? hnotified)
  obtain ⟨hscheduled, -⟩ : Consistent codec region_id state log collected
        (res.exec_res.foldl on_ready_compact_log peer) ∧
      (res.exec_res.foldl on_ready_compact_log peer).replica = peer.replica := by
    refine List.foldlRecOn (motive := fun scheduled : DurablePeer Closure =>
      Consistent codec region_id state log collected scheduled ∧ scheduled.replica = peer.replica)
      res.exec_res on_ready_compact_log ⟨hpeer, rfl⟩ ?_
    rintro scheduled ⟨hscheduled, hsame⟩ ⟨truncated, first⟩ hresult
    refine ⟨{ hscheduled with gc_tasks := ?_ }, hsame⟩
    intro task htask
    obtain hold | hnew := List.mem_append.mp htask
    · exact hscheduled.gc_tasks task hold
    · rw [List.mem_singleton.mp hnew]
      change truncated.index + 1 ≤ scheduled.replica.fsm.ctx.kv.truncated_state.index + 1
      rw [hsame]
      exact Nat.succ_le_succ (hresults _ hresult)
  exact { hscheduled with }

/-- A flush syncs the kv database before anything is collected. -/
theorem flush (hflush : peer.flush = some next) :
    ∃ collected, Consistent codec region_id state log collected next := by
  unfold DurablePeer.flush at hflush
  split at hflush
  · next hidle =>
    cases hflush
    have hkv : HoldsApplyState codec peer.storage.region_id (fun recorded =>
        Recorded log peer.committed_index recorded ∧
          peer.replica.fsm.ctx.kv.truncated_state.index ≤ recorded.truncated_state.index)
        (peer.kv.current RocksDB.write_op) :=
      ⟨_, hpeer.kv_current, hpeer.reports.kv, le_rfl⟩
    refine ⟨peer.replica.fsm.ctx.kv.truncated_state.index, ?_⟩
    exact { hpeer with
      raft := hpeer.raft.imp fun raft hraft => hraft.mono hpeer.collected_le
      kv := Wal.durably_durable hkv
      gc_tasks := by rintro task ⟨⟩
      flushing := hpeer.gc_tasks
      batches := by
        rw [hidle.2]
        rintro op ⟨⟩ }
  · cases hflush

theorem gc (hgc : peer.gc = some next) : Consistent codec region_id state log collected next := by
  unfold DurablePeer.gc at hgc
  split at hgc
  · next wb batches hbatches =>
    cases hgc
    have hdeletes := hpeer.batches
    rw [hbatches, List.flatten_cons] at hdeletes
    exact { hpeer with
      raft := by
        refine hpeer.raft.write fun raft hraft op hop => ?_
        obtain ⟨index, hindex, rfl⟩ := hdeletes op (List.mem_append_left _ hop)
        exact hraft.delete hpeer.valid.last_lt hindex
      raft_current := by
        rw [Wal.current_write, hpeer.raft_current]
        rfl
      batches := fun op hop => hdeletes op (List.mem_append_right _ hop) }
  · cases hgc
  · next task tasks _ htasks =>
    obtain ⟨⟨batches, count⟩, hbatches, hsome⟩ := Option.bind_eq_some_iff.mp hgc
    cases hsome
    have hflushing := hpeer.flushing
    rw [htasks] at hflushing
    have hend := hflushing task List.mem_cons_self
    exact { hpeer with
      flushing := fun other hother => hflushing other (List.mem_cons_of_mem _ hother)
      batches := by
        intro op hop
        obtain ⟨index, hless, rfl⟩ :=
          RocksDB.gc_eq_ok (Exec.toOption_eq_some_iff.mp hbatches) op hop
        exact ⟨index, by omega, rfl⟩ }

end

end Consistent

/-- What holds in every run of the peer of a region. -/
def Recoverable (codec : EnginesCodec) (region_id : Nat) (peer : DurablePeer Closure) : Prop :=
  ∃ state log collected, Consistent codec region_id state log collected peer

namespace Recoverable

variable {codec : EnginesCodec} {region_id : Nat} {peer next : DurablePeer Closure}

theorem bootstrap (codec : EnginesCodec) (engines : Engines) (region_id : Nat) :
    ∃ first : DurablePeer Closure,
      start codec (engines.bootstrap codec region_id) region_id = .ok first ∧
        Recoverable codec region_id first := by
  have hkv : HoldsApplyState codec region_id (fun recorded =>
      Recorded (fun _ => ⟨0, 0, none⟩) RAFT_INIT_LOG_INDEX recorded ∧
        RAFT_INIT_LOG_INDEX ≤ recorded.truncated_state.index)
      (engines.bootstrap codec region_id).kv :=
    ⟨_, get_apply_state_bootstrap codec engines region_id, .initial, le_rfl⟩
  obtain ⟨first, hstart, -, -, hfirst⟩ := start_eq (.bootstrap codec engines region_id _)
    (.initial _) le_rfl le_rfl hkv
  exact ⟨first, hstart, _, _, _, hfirst⟩

/-- Whatever a crash leaves, the peer starts again from it. -/
theorem restart (hpeer : Recoverable codec region_id peer) (kept_kv kept_raft : Nat) :
    ∃ restarted : DurablePeer Closure,
      start codec (peer.crash kept_kv kept_raft) region_id = .ok restarted ∧
      PeerStorage.new codec (peer.crash kept_kv kept_raft) region_id = .ok restarted.storage ∧
      restarted.storage.applied_index ≤ restarted.storage.commit_index ∧
      restarted.storage.commit_index ≤ restarted.storage.last_index ∧
      Recoverable codec region_id restarted := by
  obtain ⟨state, log, collected, hpeer⟩ := hpeer
  have hraft : HoldsLog codec.toRaftCodec region_id state log collected
      (peer.crash kept_kv kept_raft).raft := by
    rw [← hpeer.region]
    exact hpeer.raft kept_raft
  have hkv : HoldsApplyState codec region_id (fun recorded =>
      Recorded log peer.committed_index recorded ∧ collected ≤ recorded.truncated_state.index)
      (peer.crash kept_kv kept_raft).kv := by
    rw [← hpeer.region]
    exact hpeer.kv kept_kv
  obtain ⟨restarted, hstart, hnew, happlied, hrestarted⟩ :=
    start_eq hraft hpeer.valid hpeer.init_le hpeer.committed_le hkv
  refine ⟨restarted, hstart, hnew, happlied, ?_, state, log, collected, hrestarted⟩
  rw [hrestarted.last_index]
  exact (le_max_left _ _).trans hrestarted.committed_le

theorem step {action : Action Closure} (hpeer : Recoverable codec region_id peer)
    (hstep : peer.step codec action = some next) : Recoverable codec region_id next := by
  have hrestart := hpeer.restart
  obtain ⟨state, log, collected, hpeer⟩ := hpeer
  unfold DurablePeer.step at hstep
  split at hstep
  · next hallowed =>
    cases action with
    | ready ready =>
      cases hstep
      obtain ⟨state, log, hnext⟩ := hpeer.ready hallowed
      exact ⟨state, log, collected, hnext⟩
    | set_commit_index commit =>
      cases hstep
      exact ⟨state, log, collected, hpeer.set_commit_index hallowed.1 hallowed.2⟩
    | replica action => exact ⟨state, log, collected, hpeer.replica_step hallowed hstep⟩
    | on_apply_res => exact ⟨state, log, collected, hpeer.on_apply_res hstep⟩
    | flush =>
      obtain ⟨collected, hnext⟩ := hpeer.flush hstep
      exact ⟨state, log, collected, hnext⟩
    | gc => exact ⟨state, log, collected, hpeer.gc hstep⟩
    | restart kept_kv kept_raft =>
      obtain ⟨restarted, hstart, -, -, -, hnext⟩ := hrestart kept_kv kept_raft
      rw [hpeer.region] at hstep
      cases hstart.symm.trans (Exec.toOption_eq_some_iff.mp hstep)
      exact hnext
  · cases hstep

end Recoverable

/-- The databases of a bootstrapped peer always let it start again. In every run,
restarts included, and whatever a crash leaves of the unsynced writes, the storage
is created without a panic, with a commit index between the applied and the last
index. -/
theorem bootstrapped_peer_restarts (codec : EnginesCodec) (engines : Engines) (region_id : Nat) :
    ∃ first : DurablePeer Closure,
      start codec (engines.bootstrap codec region_id) region_id = .ok first ∧
        ∀ actions last, run (DurablePeer.step codec) first actions = some last →
          ∀ kept_kv kept_raft, ∃ storage,
            PeerStorage.new codec (last.crash kept_kv kept_raft) region_id = .ok storage ∧
              storage.applied_index ≤ storage.commit_index ∧
              storage.commit_index ≤ storage.last_index := by
  obtain ⟨first, hstart, hfirst⟩ : ∃ first : DurablePeer Closure, _ ∧ _ :=
    Recoverable.bootstrap codec engines region_id
  refine ⟨first, hstart, fun actions last hrun kept_kv kept_raft => ?_⟩
  have hlast : Recoverable codec region_id last :=
    run_invariant (fun _ _ _ hpeer hstep => hpeer.step hstep) hfirst hrun
  obtain ⟨restarted, -, hnew, happlied, hcommit, -⟩ := hlast.restart kept_kv kept_raft
  exact ⟨restarted.storage, hnew, happlied, hcommit⟩

def plainApplyState : PrefixCode RaftApplyState :=
  (PrefixCode.nat.pair (PrefixCode.nat.pair (PrefixCode.nat.pair
    (PrefixCode.nat.pair PrefixCode.nat)))).map
    (fun state => (state.applied_index, state.commit_index, state.commit_term,
      state.truncated_state.index, state.truncated_state.term))
    (fun parts => ⟨parts.1, parts.2.1, parts.2.2.1, ⟨parts.2.2.2.1, parts.2.2.2.2⟩⟩)
    (fun _ => rfl)

def plainEnginesCodec : EnginesCodec where
  toRaftCodec := RecordedStorage.plainRaftCodec
  apply_state :=
    { write_to_bytes := plainApplyState.write
      merge_from_bytes := plainApplyState.read
      merge_write := plainApplyState.read_write }

/-- Four entries of which the last compacts the log are committed in memory only,
applied and written; the kv database is synced and the log collected. -/
def compacted : List (Action Unit) :=
  let entries : List Entry :=
    [⟨6, 6, none⟩, ⟨7, 6, none⟩, ⟨8, 6, none⟩, ⟨9, 6, some ⟨{}, .admin_request (.CompactLog 7 6)⟩⟩]
  [.ready ⟨entries, some ⟨6, 1, 5⟩⟩, .set_commit_index 9, .replica (.commit 6 entries),
    .replica .apply_task, .replica .end_poll, .on_apply_res, .flush, .gc, .gc]

theorem bootstrapped_peer_restarts_compacted :
    ∃ (first last : DurablePeer Unit) (storage : PeerStorage),
      run (DurablePeer.step plainEnginesCodec) first compacted = some last ∧
      last.storage.truncated_index = 7 ∧ last.raft.unsynced.length = 2 ∧
      PeerStorage.new plainEnginesCodec (last.crash 0 1) 1 = .ok storage ∧
      storage.applied_index ≤ storage.commit_index ∧
      storage.commit_index ≤ storage.last_index := by
  obtain ⟨first, hstart, hruns⟩ :=
    bootstrapped_peer_restarts plainEnginesCodec ⟨OrderedMap.empty, OrderedMap.empty⟩ 1
  have hreached : ∃ first ∈ (start plainEnginesCodec (Engines.bootstrap plainEnginesCodec
      ⟨OrderedMap.empty, OrderedMap.empty⟩ 1) 1).toOption,
      ∃ last ∈ run (DurablePeer.step plainEnginesCodec) first compacted,
        last.storage.truncated_index = 7 ∧ last.raft.unsynced.length = 2 := by
    decide +kernel
  rw [hstart] at hreached
  obtain ⟨_, ⟨⟩, last, hrun, htruncated, hunsynced⟩ := hreached
  obtain ⟨storage, hnew, happlied, hcommit⟩ := hruns compacted last hrun 0 1
  exact ⟨first, last, storage, hrun, htruncated, hunsynced, hnew, happlied, hcommit⟩

end DurablePeer

end hologram_kv
