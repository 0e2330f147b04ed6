import Auticuro.Library.Wal
import Auticuro.TinyMq.LogRefinement

namespace hologram_kv

variable {Closure : Type}

/-- The encodings of what is stored in the two databases. -/
structure EnginesCodec extends RaftCodec where
  apply_state : Protobuf RaftApplyState

structure Engines where
  kv : RocksDB
  raft : RocksDB

section Init

variable (codec : EnginesCodec) (engines : Engines) (region_id : Nat)

def init_raft_state : Except StoragePanic RaftLocalState := do
  let state ← (engines.raft.get_msg_cf codec.raft_state
    (keys.raft_state_key region_id)).mapError .engine
  match state with
  | some state => return state
  | none => .error .unreachable

def init_apply_state : Except StoragePanic RaftApplyState := do
  let state ← (engines.kv.get_msg_cf codec.apply_state
    (keys.apply_state_key region_id)).mapError .engine
  match state with
  | some state => return state
  | none => .error .unreachable

def init_last_term (raft_state : RaftLocalState) (apply_state : RaftApplyState) :
    Except StoragePanic Nat :=
  let last_idx := raft_state.last_index
  if last_idx = 0 then
    .ok 0
  else if last_idx = RAFT_INIT_LOG_INDEX then
    .ok RAFT_INIT_LOG_TERM
  else if last_idx = apply_state.truncated_state.index then
    .ok apply_state.truncated_state.term
  else if last_idx ≤ RAFT_INIT_LOG_INDEX then
    .error .last_below_init
  else do
    let entry ← (engines.raft.get_entry codec.entry region_id last_idx).mapError .engine
    match entry with
    | some entry => return entry.term
    | none => .error (.last_entry_lost last_idx)

def init_applied_index_term (apply_state : RaftApplyState) : Except StoragePanic Nat :=
  if apply_state.applied_index = RAFT_INIT_LOG_INDEX then
    .ok RAFT_INIT_LOG_TERM
  else if apply_state.applied_index = apply_state.truncated_state.index then
    .ok apply_state.truncated_state.term
  else do
    let entry ← (engines.raft.get_entry codec.entry region_id
      apply_state.applied_index).mapError .engine
    match entry with
    | some entry => return entry.term
    | none => .error (.applied_entry_lost apply_state.applied_index)

/-- The commit index of the raft state may be less than the recorded one; then it
is forwarded, if the entry is there. -/
def forward_commit_index (raft_state : RaftLocalState) (apply_state : RaftApplyState) :
    Except StoragePanic Nat :=
  let commit_index := raft_state.hard_state.commit
  let recorded_commit_index := apply_state.commit_index
  if commit_index < recorded_commit_index then do
    let entry ← (engines.raft.get_entry codec.entry region_id
      recorded_commit_index).mapError .engine
    if entry.all fun entry => entry.term ≠ apply_state.commit_term then
      .error (.commit_entry_lost apply_state.commit_term recorded_commit_index)
    else
      return recorded_commit_index
  else
    .ok commit_index

def validate_states (raft_state : RaftLocalState) (apply_state : RaftApplyState) :
    Except StoragePanic RaftLocalState := do
  let commit_index ← forward_commit_index codec engines region_id raft_state apply_state
  if commit_index < apply_state.applied_index then
    .error .applied_above_commit
  else if raft_state.last_index < commit_index then
    .error .commit_above_last
  else if raft_state.hard_state.term < apply_state.commit_term then
    .error .term_below_commit_term
  else
    return { raft_state with hard_state := { raft_state.hard_state with commit := commit_index } }

def PeerStorage.new : Except StoragePanic PeerStorage := do
  let raft_state ← init_raft_state codec engines region_id
  let apply_state ← init_apply_state codec engines region_id
  let raft_state ← validate_states codec engines region_id raft_state apply_state
  let last_term ← init_last_term codec engines region_id raft_state apply_state
  let applied_index_term ← init_applied_index_term codec engines region_id apply_state
  return {
    raft := engines.raft
    region_id := region_id
    raft_state := raft_state
    apply_state := apply_state
    applied_index_term := applied_index_term
    last_term := last_term }

def put_apply_state (apply_state : RaftApplyState) : WriteOp :=
  .put (keys.apply_state_key region_id) (codec.apply_state.write_to_bytes apply_state)

/-- `prepare_bootstrap_cluster`: both initial states are written and synced. -/
def Engines.bootstrap : Engines where
  kv := engines.kv.write_opt [put_apply_state codec region_id write_initial_apply_state]
  raft := engines.raft.write_opt [.put (keys.raft_state_key region_id)
    (codec.raft_state.write_to_bytes write_initial_raft_state)]

end Init

/-- Where `RocksEngine::gc` starts. Without an index that is the first key of the
log, if there is one. -/
def RocksDB.gc_start (db : RocksDB) (region_id start_idx : Nat) :
    Except StoragePanic (Option Nat) :=
  if start_idx = 0 then
    match db.entries.find? fun entry => keys.raft_log_key region_id 0 ≤ entry.1 with
    | none => .ok none
    | some (k, _) =>
      if keys.raft_log_prefix region_id <+: k then
        match keys.raft_log_index k with
        | some index => .ok (some index)
        | none => .error .key_length
      else
        .ok none
  else
    .ok (some start_idx)

/-- The loop of `RocksEngine::gc`, with the batches that it writes: one as soon as
it has 256 keys, and one for the rest. -/
def RocksDB.gc_loop (region_id : Nat) : RocksWriteBatch → List Nat → List RocksWriteBatch
  | raft_wb, [] => if raft_wb.isEmpty then [] else [raft_wb]
  | raft_wb, idx :: indices =>
    let raft_wb := raft_wb ++ [.delete (keys.raft_log_key region_id idx)]
    if 256 ≤ raft_wb.length then
      raft_wb :: gc_loop region_id [] indices
    else
      gc_loop region_id raft_wb indices

/-- `RocksEngine::gc`: the batches that it writes, and what it returns, `none` when
the subtraction underflows. -/
def RocksDB.gc (db : RocksDB) (region_id start_idx end_idx : Nat) :
    Except StoragePanic (List RocksWriteBatch × Option Nat) :=
  if end_idx ≤ start_idx then
    .ok ([], some 0)
  else do
    match ← db.gc_start region_id start_idx with
    | none => return ([], some 0)
    | some start_idx =>
      return (gc_loop region_id [] (List.range' start_idx (end_idx - start_idx)),
        U64.checked_sub end_idx start_idx)

/-- A peer over its databases: the memory of the raft thread, the two databases
with what is synced of them, the apply thread with the channel to it, and the
collector with the tasks that wait, those of the flush that goes on and the batches
of the task that it works on. -/
structure DurablePeer (Closure : Type) where
  storage : PeerStorage
  raft : Wal RocksDB WriteOp
  kv : Wal RocksDB WriteOp
  replica : Replica Closure
  handled : Nat := 0
  last_compacted_idx : Nat := 0
  gc_tasks : List GcTask := []
  flushing : List GcTask := []
  batches : List RocksWriteBatch := []

namespace DurablePeer

inductive Action (Closure : Type) where
  | ready (ready : Ready)
  /-- The commit index of a light ready, which is not persisted. -/
  | set_commit_index (commit : Nat)
  | replica (action : Replica.Action Closure)
  | on_apply_res
  /-- The collector syncs the kv database and takes its tasks. -/
  | flush
  /-- The collector begins with a task or writes its next batch. -/
  | gc
  /-- The process stops, with so many of the unsynced writes on disk, and starts
  again. -/
  | restart (kept_kv kept_raft : Nat)
  deriving DecidableEq

variable (codec : EnginesCodec)

/-- A peer with a storage that was created from its databases. -/
def new (engines : Engines) (storage : PeerStorage) : DurablePeer Closure where
  storage := storage
  raft := Wal.durable engines.raft
  kv := Wal.durable engines.kv
  replica := Replica.start storage.hard_state.term storage.applied_index_term storage.apply_state

def start (engines : Engines) (region_id : Nat) : Except StoragePanic (DurablePeer Closure) := do
  let storage ← PeerStorage.new codec engines region_id
  return new engines storage

/-- What a crash leaves of the databases. -/
def crash (self : DurablePeer Closure) (kept_kv kept_raft : Nat) : Engines where
  kv := self.kv.crash RocksDB.write_op kept_kv
  raft := self.raft.crash RocksDB.write_op kept_raft

/-- The batch of a ready is synced. -/
def on_ready (self : DurablePeer Closure) (ready : Ready) : DurablePeer Closure :=
  let storage := self.storage.on_ready codec.toRaftCodec ready
  { self with storage := storage, raft := Wal.durable storage.raft }

/-- The batch of the apply thread, which it writes at the end of a round. -/
def kv_wb (self : DurablePeer Closure) : Replica.Action Closure → RocksWriteBatch
  | .end_poll =>
    let ctx := self.replica.fsm.ctx
    if ctx.timer then
      ctx.kv_wb.toList.map (put_apply_state codec self.storage.region_id)
    else
      []
  | _ => []

def replica_step (self : DurablePeer Closure) (action : Replica.Action Closure) :
    Option (DurablePeer Closure) := do
  let replica ← (self.replica.step action).toOption
  return { self with replica := replica, kv := self.kv.write (self.kv_wb codec action) }

def on_ready_compact_log (self : DurablePeer Closure) (result : ExecResult) :
    DurablePeer Closure :=
  let (task, compact_to) := compact_log_task self.last_compacted_idx result
  { self with gc_tasks := self.gc_tasks ++ [task], last_compacted_idx := compact_to }

/-- The raft thread takes the next result of the apply thread. -/
def on_apply_res (self : DurablePeer Closure) : Option (DurablePeer Closure) := do
  let res ← self.replica.fsm.ctx.notified[self.handled]?
  let self := res.exec_res.foldl on_ready_compact_log self
  return { self with
    handled := self.handled + 1
    storage := (self.storage.set_applied_state res.apply_state).set_applied_term
      res.applied_index_term }

def flush (self : DurablePeer Closure) : Option (DurablePeer Closure) :=
  if self.flushing = [] ∧ self.batches = [] then
    some { self with
      kv := self.kv.sync RocksDB.write_op, gc_tasks := [], flushing := self.gc_tasks }
  else
    none

def gc (self : DurablePeer Closure) : Option (DurablePeer Closure) :=
  match self.batches, self.flushing with
  | wb :: batches, _ =>
    some { self with
      storage := { self.storage with raft := self.storage.raft.write_opt wb }
      raft := self.raft.write wb
      batches := batches }
  | [], [] => none
  | [], task :: tasks => do
    let (batches, _) ← (self.storage.raft.gc self.storage.region_id task.start_idx
      task.end_idx).toOption
    return { self with flushing := tasks, batches := batches }

/-- What the peer knows to be committed. -/
def committed_index (self : DurablePeer Closure) : Nat :=
  max self.storage.commit_index self.replica.last_applying_idx

/-- What raft guarantees. The entries of a ready stand above what is committed,
the commit index and the term do not go back, the commit index is one of the log,
and no entry has a later term than the hard state. What is handed to the apply
thread are the next entries of the log. -/
def Allowed (self : DurablePeer Closure) : Action Closure → Prop
  | .ready ready =>
    ready.Appends self.committed_index self.storage.last_index ∧
      (∀ hs ∈ ready.hs, self.storage.commit_index ≤ hs.commit ∧
        hs.commit ≤ ready.last_index self.storage.last_index ∧
        self.storage.hard_state.term ≤ hs.term) ∧
      ∀ entry ∈ ready.entries, entry.term ≤ (ready.hs.getD self.storage.hard_state).term
  | .set_commit_index commit =>
    self.storage.commit_index ≤ commit ∧ commit ≤ self.storage.last_index
  | .replica (.commit _ entries) =>
    entries.map Entry.index =
        List.range' (self.replica.last_applying_idx + 1) entries.length ∧
      ∀ entry ∈ entries, entry.index ≤ self.storage.last_index ∧
        self.storage.raft.get_entry codec.entry self.storage.region_id entry.index =
          .ok (some entry)
  | _ => True

instance Allowed.decidable (self : DurablePeer Closure) (action : Action Closure) :
    Decidable (self.Allowed codec action) := by
  unfold Allowed
  split <;> infer_instance

/-- A step of one of the threads; a panic ends the run. -/
def step (self : DurablePeer Closure) (action : Action Closure) : Option (DurablePeer Closure) :=
  if self.Allowed codec action then
    match action with
    | .ready ready => some (self.on_ready codec ready)
    | .set_commit_index commit =>
      some { self with storage := self.storage.set_commit_index commit }
    | .replica action => self.replica_step codec action
    | .on_apply_res => self.on_apply_res
    | .flush => self.flush
    | .gc => self.gc
    | .restart kept_kv kept_raft =>
      (start codec (self.crash kept_kv kept_raft) self.storage.region_id).toOption
  else
    none

end DurablePeer

end hologram_kv
