import Auticuro.TinyMq.ApplyRounds
import Auticuro.TinyMq.Restarts

namespace hologram_kv

def MAX_GC_REGION_BATCH : Nat := 128

/-- A peer whose log is compacted: the memory of the raft thread, the databases, the
apply state of the apply thread with the results that are not handled, and the
collector with its channel, its tasks, those of the flush that goes on and the
batches of the task that it works on. Beside that, what the log is, the last result
that was handled, and how many tasks were begun since the start. -/
structure CompactedPeer where
  storage : PeerStorage
  raft : Wal RocksDB WriteOp
  kv : Wal RocksDB WriteOp
  apply_state : RaftApplyState
  results : List ApplyRes := []
  last_compacted_idx : Nat := 0
  scheduled : List GcTask := []
  tasks : List GcTask := []
  flushing : List GcTask := []
  batches : List RocksWriteBatch := []
  log : Nat → Entry
  handled : Option ExecResult := none
  flushed : Nat := 0

namespace CompactedPeer

inductive Action where
  | ready (ready : Ready)
  /-- The commit index of a light ready, which is not persisted. -/
  | set_commit_index (commit : Nat)
  /-- A round of the apply thread. -/
  | poll (tasks : List (List Entry))
  | on_apply_res
  /-- The collector takes a task from its channel. -/
  | run
  | on_timeout
  /-- The collector begins with the next task of the flush. -/
  | gc
  | write_batch
  /-- The process stops, with so many of the unsynced writes on disk, and starts
  again. -/
  | restart (kept_kv kept_raft : Nat)
  deriving DecidableEq

variable (codec : EnginesCodec)

/-- A peer with a storage that was created from its databases. -/
def new (engines : Engines) (storage : PeerStorage) (log : Nat → Entry)
    (handled : Option ExecResult) : CompactedPeer where
  storage := storage
  raft := Wal.durable engines.raft
  kv := Wal.durable engines.kv
  apply_state := storage.apply_state
  log := log
  handled := handled

/-- What stands for the part of the log that no peer has. -/
def initial_log (_ : Nat) : Entry := ⟨RAFT_INIT_LOG_INDEX, RAFT_INIT_LOG_TERM, none⟩

def start (engines : Engines) (region_id : Nat) : Except StoragePanic CompactedPeer := do
  let storage ← PeerStorage.new codec engines region_id
  return new engines storage initial_log none

/-- What a crash leaves of the databases. -/
def crash (self : CompactedPeer) (kept_kv kept_raft : Nat) : Engines where
  kv := self.kv.crash RocksDB.write_op kept_kv
  raft := self.raft.crash RocksDB.write_op kept_raft

/-- The batch of a ready is written and synced, if there is something in it. -/
def on_ready (self : CompactedPeer) (ready : Ready) : CompactedPeer :=
  let (_, raft_wb) := self.storage.handle_raft_ready codec.toRaftCodec [] ready
  let storage := self.storage.on_ready codec.toRaftCodec ready
  { self with
    storage := storage
    raft := if raft_wb.isEmpty then self.raft else Wal.durable storage.raft
    log := DurablePeer.Consistent.log_on_ready self.log ready }

/-- A ready with a batch that is not empty. -/
def sync_ready (self : CompactedPeer) (ready : Ready) : CompactedPeer :=
  let storage := self.storage.on_ready codec.toRaftCodec ready
  { self with
    storage := storage
    raft := Wal.durable storage.raft
    log := DurablePeer.Consistent.log_on_ready self.log ready }

/-- At the end of a round the last apply state is written, not synced, and the
results are sent. -/
def end_poll (self : CompactedPeer) (results : List ApplyRes) : CompactedPeer :=
  { self with
    apply_state := self.apply_state.last_reported results
    kv := self.kv.write (results.getLast?.toList.map fun res =>
      put_apply_state codec self.storage.region_id res.apply_state)
    results := self.results ++ results }

def poll (self : CompactedPeer) (tasks : List (List Entry)) : Option CompactedPeer := do
  let results ← (self.apply_state.poll tasks).toOption
  return self.end_poll codec results

def on_ready_compact_log (self : CompactedPeer) (result : ExecResult) : CompactedPeer :=
  let (task, compact_to) := compact_log_task self.last_compacted_idx result
  { self with
    scheduled := self.scheduled ++ [task], last_compacted_idx := compact_to,
    handled := some result }

def on_ready_result (self : CompactedPeer) (exec_results : List ExecResult) : CompactedPeer :=
  exec_results.foldl on_ready_compact_log self

def post_apply (self : CompactedPeer) (res : ApplyRes) : CompactedPeer :=
  { self with
    storage := (self.storage.set_applied_state res.apply_state).set_applied_term
      res.applied_index_term }

/-- The raft thread takes the next result of the apply thread. -/
def on_apply_res (self : CompactedPeer) : Option CompactedPeer :=
  match self.results with
  | [] => none
  | res :: results =>
    some (({ self with results := results }.on_ready_result res.exec_res).post_apply res)

/-- A flush syncs the kv database and takes the tasks. -/
def flush (self : CompactedPeer) : CompactedPeer :=
  { self with kv := self.kv.sync RocksDB.write_op, tasks := [], flushing := self.tasks }

/-- The thread of the collector is not in a flush. -/
def Idle (self : CompactedPeer) : Prop := self.flushing = [] ∧ self.batches = []

def push_task (self : CompactedPeer) (task : GcTask) (scheduled : List GcTask) : CompactedPeer :=
  { self with scheduled := scheduled, tasks := self.tasks ++ [task] }

def run (self : CompactedPeer) : Option CompactedPeer :=
  match self.scheduled with
  | [] => none
  | task :: scheduled =>
    let self := self.push_task task scheduled
    if self.tasks.length < MAX_GC_REGION_BATCH then some self else some self.flush

def gc_raft_log (self : CompactedPeer) (flushing : List GcTask) (batches : List RocksWriteBatch) :
    CompactedPeer :=
  { self with flushing := flushing, batches := batches, flushed := self.flushed + 1 }

def gc (self : CompactedPeer) : Option CompactedPeer :=
  match self.flushing with
  | [] => none
  | task :: flushing => do
    let (batches, _) ← (self.storage.raft.gc self.storage.region_id task.start_idx
      task.end_idx).toOption
    return self.gc_raft_log flushing batches

/-- A batch of the collector is not synced. -/
def write_opt (self : CompactedPeer) (raft_wb : RocksWriteBatch)
    (batches : List RocksWriteBatch) : CompactedPeer :=
  { self with
    storage := { self.storage with raft := self.storage.raft.write_opt raft_wb }
    raft := self.raft.write raft_wb
    batches := batches }

def write_batch (self : CompactedPeer) : Option CompactedPeer :=
  match self.batches with
  | [] => none
  | raft_wb :: batches => some (self.write_opt raft_wb batches)

/-- The queues are lost, and the peer starts from what is left of the databases. -/
def restart (self : CompactedPeer) (kept_kv kept_raft : Nat) : Option CompactedPeer := do
  let engines := self.crash kept_kv kept_raft
  let storage ← (PeerStorage.new codec engines self.storage.region_id).toOption
  return new engines storage self.log self.handled

/-- Entries are appended above the truncated index. The index behind an applied one
is a machine number. The collector flushes one after the other, and of a flush the
tasks. -/
def Allowed (self : CompactedPeer) : Action → Prop
  | .ready ready => ready.Appends self.storage.truncated_index self.storage.last_index
  | .poll tasks => ∀ entries ∈ tasks, ∀ entry ∈ entries, entry.index + 1 < U64.size
  | .run => self.Idle
  | .on_timeout => self.Idle
  | .gc => self.batches = []
  | _ => True

instance Allowed.decidable (self : CompactedPeer) (action : Action) :
    Decidable (self.Allowed action) := by
  cases action <;> dsimp only [Allowed, Idle] <;> infer_instance

/-- A step of one of the threads; a panic ends the run. -/
def step (self : CompactedPeer) (action : Action) : Option CompactedPeer :=
  if self.Allowed action then
    match action with
    | .ready ready => some (self.on_ready codec ready)
    | .set_commit_index commit =>
      some { self with storage := self.storage.set_commit_index commit }
    | .poll tasks => self.poll codec tasks
    | .on_apply_res => self.on_apply_res
    | .run => self.run
    | .on_timeout => some self.flush
    | .gc => self.gc
    | .write_batch => self.write_batch
    | .restart kept_kv kept_raft => self.restart codec kept_kv kept_raft
  else
    none

/-- The steps by what they do. -/
inductive Steps (peer : CompactedPeer) : Action → CompactedPeer → Prop where
  | ready {ready : Ready}
      (happends : ready.Appends peer.storage.truncated_index peer.storage.last_index) :
      Steps peer (.ready ready) (peer.sync_ready codec ready)
  | empty_ready {ready : Ready} : Steps peer (.ready ready) peer
  | set_commit_index (commit : Nat) :
      Steps peer (.set_commit_index commit)
        { peer with storage := peer.storage.set_commit_index commit }
  | poll {tasks : List (List Entry)} {results : List ApplyRes}
      (hentries : ∀ entries ∈ tasks, ∀ entry ∈ entries, entry.index + 1 < U64.size)
      (hresults : peer.apply_state.poll tasks = .ok results) :
      Steps peer (.poll tasks) (peer.end_poll codec results)
  | on_apply_res {res : ApplyRes} {results : List ApplyRes}
      (hresults : peer.results = res :: results) :
      Steps peer .on_apply_res
        (({ peer with results := results }.on_ready_result res.exec_res).post_apply res)
  | run {task : GcTask} {scheduled : List GcTask} (hidle : peer.Idle)
      (hscheduled : peer.scheduled = task :: scheduled) :
      Steps peer .run (peer.push_task task scheduled)
  | run_flush {task : GcTask} {scheduled : List GcTask} (hidle : peer.Idle)
      (hscheduled : peer.scheduled = task :: scheduled) :
      Steps peer .run (peer.push_task task scheduled).flush
  | on_timeout (hidle : peer.Idle) : Steps peer .on_timeout peer.flush
  | gc {task : GcTask} {flushing : List GcTask} {batches : List RocksWriteBatch}
      {count : Option Nat} (hbatches : peer.batches = [])
      (hflushing : peer.flushing = task :: flushing)
      (hgc : peer.storage.raft.gc peer.storage.region_id task.start_idx task.end_idx =
        .ok (batches, count)) :
      Steps peer .gc (peer.gc_raft_log flushing batches)
  | write_batch {raft_wb : RocksWriteBatch} {batches : List RocksWriteBatch}
      (hbatches : peer.batches = raft_wb :: batches) :
      Steps peer .write_batch (peer.write_opt raft_wb batches)
  | restart {kept_kv kept_raft : Nat} {storage : PeerStorage}
      (hnew : PeerStorage.new codec (peer.crash kept_kv kept_raft) peer.storage.region_id =
        .ok storage) :
      Steps peer (.restart kept_kv kept_raft)
        (new (peer.crash kept_kv kept_raft) storage peer.log peer.handled)

variable {codec} {peer next : CompactedPeer}

/-- A ready with an empty batch changes nothing. -/
theorem on_ready_cases (codec : EnginesCodec) (peer : CompactedPeer) (ready : Ready) :
    peer.on_ready codec ready = peer ∨ peer.on_ready codec ready = peer.sync_ready codec ready := by
  unfold on_ready sync_ready
  simp only
  split
  · next hempty =>
    obtain ⟨hentries, hsame⟩ := peer.storage.on_ready_of_empty codec.toRaftCodec ready
      (List.isEmpty_iff.mp hempty)
    have hlog : DurablePeer.Consistent.log_on_ready peer.log ready = peer.log := by
      unfold DurablePeer.Consistent.log_on_ready
      rw [hentries]
      rfl
    rw [hsame, hlog]
    exact .inl rfl
  · exact .inr rfl

theorem run_eq_some (hidle : peer.Idle) (hrun : peer.run = some next) :
    Steps codec peer .run next := by
  unfold CompactedPeer.run at hrun
  split at hrun
  · cases hrun
  · next task scheduled hscheduled =>
    simp only at hrun
    split at hrun
    · cases hrun
      exact .run hidle hscheduled
    · cases hrun
      exact .run_flush hidle hscheduled

theorem step_eq_some {action : Action} (hstep : peer.step codec action = some next) :
    Steps codec peer action next := by
  unfold step at hstep
  split at hstep
  · next hallowed =>
    cases action with
    | ready ready =>
      cases hstep
      obtain hsame | hsynced := peer.on_ready_cases codec ready
      · rw [hsame]
        exact .empty_ready
      · rw [hsynced]
        exact .ready hallowed
    | set_commit_index commit =>
      cases hstep
      exact .set_commit_index commit
    | poll tasks =>
      obtain ⟨results, hresults, hsome⟩ := Option.bind_eq_some_iff.mp hstep
      cases hsome
      exact .poll hallowed (Exec.toOption_eq_some_iff.mp hresults)
    | on_apply_res =>
      simp only [on_apply_res] at hstep
      split at hstep
      · cases hstep
      · next res results hresults =>
        cases hstep
        exact .on_apply_res hresults
    | run => exact run_eq_some hallowed hstep
    | on_timeout =>
      cases hstep
      exact .on_timeout hallowed
    | gc =>
      simp only [gc] at hstep
      split at hstep
      · cases hstep
      · next task flushing hflushing =>
        obtain ⟨⟨batches, count⟩, hgc, hsome⟩ := Option.bind_eq_some_iff.mp hstep
        cases hsome
        exact .gc hallowed hflushing (Exec.toOption_eq_some_iff.mp hgc)
    | write_batch =>
      simp only [write_batch] at hstep
      split at hstep
      · cases hstep
      · next raft_wb batches hbatches =>
        cases hstep
        exact .write_batch hbatches
    | restart kept_kv kept_raft =>
      obtain ⟨storage, hnew, hsome⟩ := Option.bind_eq_some_iff.mp hstep
      cases hsome
      exact .restart (Exec.toOption_eq_some_iff.mp hnew)
  · cases hstep

end CompactedPeer

end hologram_kv
