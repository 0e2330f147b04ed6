import Auticuro.Library.Run
import Auticuro.TinyMq.MessageQueueAdapter
import Auticuro.TinyMq.Peer
import Mathlib.Logic.Function.Basic

namespace hologram_kv

/-- The raft log in the database: each entry under its index. -/
abbrev RaftLog := Nat → Option Entry

namespace RocksEngine

def RAFT_LOG_MULTI_GET_CNT : Nat := 8

def append_impl (log : RaftLog) (entries : List Entry) : RaftLog :=
  entries.foldl (fun log entry => Function.update log entry.index (some entry)) log

/-- The keys from one index up to another are deleted. -/
def cut_logs (log : RaftLog) (from_index to_index : Nat) : RaftLog :=
  fun index => if from_index ≤ index ∧ index < to_index then none else log index

/-- The entries with indices from `low` up to `high`, in key order. An iterator
reads from one snapshot of the database. -/
def scan (log : RaftLog) (low high : Nat) : List Entry :=
  (List.range' low (high - low)).filterMap log

/-- The checks on the scanned entries: the first has the index that was asked
for, each other one the next index. -/
def check_scanned : Nat → List Entry → Except Panic (List Entry)
  | _, [] => .ok []
  | next_index, entry :: entries =>
    if entry.index = next_index then do
      let buf ← check_scanned (next_index + 1) entries
      return entry :: buf
    else
      .error (.FailedToFetch next_index)

/-- The second path of `fetch_entries_to`. A shortfall is logged, and the buffer
is cleared. -/
def fetch_by_scan (log : RaftLog) (low high : Nat) : Except Panic (List Entry) := do
  let buf ← check_scanned low (scan log low high)
  return if buf.length = high - low then buf else []

/-- The first key of the raft log. There is none above the last index. -/
def seek (log : RaftLog) (last_index : Nat) : Option Nat :=
  (List.range (last_index + 1)).find? fun index => (log index).isSome

end RocksEngine

/-- `Task::Gc`: the entries in `[start_idx, end_idx)` are to be deleted. -/
structure GcTask where
  start_idx : Nat
  end_idx : Nat
  deriving DecidableEq

/-- `on_ready_compact_log`: the task for the collector, and the next `last_compacted_idx`. -/
def compact_log_task (last_compacted_idx : Nat) : ExecResult → GcTask × Nat
  | .CompactLog state _ => (⟨last_compacted_idx, state.index + 1⟩, state.index + 1)

/-- One write batch of `RocksEngine::gc`, with what is left of the task. -/
def RocksEngine.gc_batch (log : RaftLog) (last_index : Nat) (task : GcTask) :
    RaftLog × Option GcTask :=
  if task.end_idx ≤ task.start_idx then
    (log, none)
  else
    match if task.start_idx = 0 then seek log last_index else some task.start_idx with
    | none => (log, none)
    | some start_idx =>
      let next_idx := min (start_idx + 256) task.end_idx
      (cut_logs log start_idx next_idx,
        if next_idx < task.end_idx then some ⟨next_idx, task.end_idx⟩ else none)

/-- Between two reads of the databases or two sends, `start_consuming` is in one
of these states. -/
inductive Phase (T : Type) where
  | Idle
  /-- In `get_range`, before it reads the apply state. -/
  | Checking (last : Nat)
  /-- In the first path of `fetch_entries_to`, with the entries read so far. -/
  | MultiGet (last : Nat) (buf : List Entry)
  /-- Before the second path of `fetch_entries_to`. -/
  | Scanning (last : Nat)
  | Sending (last : Nat) (entries : List (Nat × List T))
  | Panicked
  deriving DecidableEq

/-- The consumer, with what it has sent to the wallet. -/
structure LogConsumer (T : Type) where
  log_index : Nat
  phase : Phase T := .Idle
  sent : List (Nat × List T) := []
  deriving DecidableEq

namespace LogConsumer

variable {T : Type} (decode : Bytes → Option T)

def panic (self : LogConsumer T) : LogConsumer T := { self with phase := .Panicked }

/-- The loop over the entries; after it the consumer goes on behind the range. -/
def send (self : LogConsumer T) (last : Nat) : List (Nat × List T) → LogConsumer T
  | [] => { self with log_index := last + 1, phase := .Idle }
  | entries => { self with phase := .Sending last entries }

/-- The entries that `get_range` has fetched are parsed, all of them before the
first is sent. -/
def parse (self : LogConsumer T) (last : Nat) (buf : List Entry) : LogConsumer T :=
  match buf.mapM (parse_log_entry_to_proto decode) with
  | .ok entries => self.send last entries
  | .error _ => self.panic

/-- One read or one send of `start_consuming`. -/
def step (apply_state : RaftApplyState) (log : RaftLog) (self : LogConsumer T) : LogConsumer T :=
  match self.phase with
  | .Idle =>
    if self.log_index < first_index apply_state then
      self.panic
    else if apply_state.applied_index < self.log_index then
      self
    else
      { self with phase := .Checking (min (self.log_index + 1000) apply_state.applied_index) }
  | .Checking last =>
    if self.log_index < first_index apply_state ∨ apply_state.applied_index < last then
      self.panic
    else if last + 1 ≤ self.log_index then
      self.parse decode last []
    else if last + 1 - self.log_index ≤ RocksEngine.RAFT_LOG_MULTI_GET_CNT then
      { self with phase := .MultiGet last [] }
    else
      { self with phase := .Scanning last }
  | .MultiGet last buf =>
    let index := self.log_index + buf.length
    match log index with
    | none => self.panic
    | some entry =>
      if entry.index ≠ index then
        self.panic
      else if index < last then
        { self with phase := .MultiGet last (buf ++ [entry]) }
      else
        self.parse decode last (buf ++ [entry])
  | .Scanning last =>
    match RocksEngine.fetch_by_scan log self.log_index (last + 1) with
    | .ok buf => self.parse decode last buf
    | .error _ => self.panic
  | .Sending last [] => self.send last []
  | .Sending last (entry :: entries) =>
    { self with sent := self.sent ++ [entry] }.send last entries
  | .Panicked => self

end LogConsumer

/-- The threads of a node that read and write its raft log: the raft thread with
its copy of the apply state and the number of apply results it has taken, the
apply thread, the collector with its tasks, and the consumer. -/
structure LogStore (Closure T : Type) where
  log : RaftLog
  last_index : Nat
  apply : ApplyFsm Closure
  apply_state : RaftApplyState
  handled : Nat := 0
  last_compacted_idx : Nat := 0
  gc_tasks : List GcTask := []
  consumer : LogConsumer T

namespace LogStore

variable {Closure T : Type}

/-- A node that starts from its databases, with a consumer at an index. -/
def start (term applied_index_term : Nat) (apply_state : RaftApplyState) (entries : List Entry)
    (last_index log_index : Nat) : LogStore Closure T where
  log := RocksEngine.append_impl (fun _ => none) entries
  last_index := last_index
  apply := (Replica.start term applied_index_term apply_state).fsm
  apply_state := apply_state
  consumer := { log_index := log_index }

/-- What is left of a node when it stops are its databases. -/
def restart (store : LogStore Closure T) (term applied_index_term log_index : Nat) :
    LogStore Closure T where
  log := store.log
  last_index := store.last_index
  apply := (Replica.start term applied_index_term store.apply.ctx.kv).fsm
  apply_state := store.apply.ctx.kv
  consumer := { log_index := log_index }

/-- `PeerStorage::append`: what was appended after the entries and never
committed is deleted. -/
def append (store : LogStore Closure T) (entries : List Entry) : LogStore Closure T :=
  match entries.getLast? with
  | none => store
  | some last => { store with
      log := RocksEngine.cut_logs (RocksEngine.append_impl store.log entries) (last.index + 1)
        (store.last_index + 1)
      last_index := last.index }

def on_ready_compact_log (store : LogStore Closure T) (result : ExecResult) : LogStore Closure T :=
  let (task, compact_to) := compact_log_task store.last_compacted_idx result
  { store with gc_tasks := store.gc_tasks ++ [task], last_compacted_idx := compact_to }

@[simp] theorem on_ready_compact_log_apply (store : LogStore Closure T) (result : ExecResult) :
    (store.on_ready_compact_log result).apply = store.apply := rfl

/-- The raft thread takes the next result of the apply thread. -/
def on_apply_res (store : LogStore Closure T) : Option (LogStore Closure T) := do
  let res ← store.apply.ctx.notified[store.handled]?
  return res.exec_res.foldl on_ready_compact_log
    { store with handled := store.handled + 1, apply_state := res.apply_state }

/-- The collector writes its next batch. -/
def gc (store : LogStore Closure T) : Option (LogStore Closure T) :=
  match store.gc_tasks with
  | [] => none
  | task :: tasks =>
    let (log, rest) := RocksEngine.gc_batch store.log store.last_index task
    some { store with log := log, gc_tasks := rest.toList ++ tasks }

inductive Action (Closure : Type) where
  | append (entries : List Entry)
  | apply (task : Apply Closure)
  | end_poll
  | on_apply_res
  | gc
  | consume
  deriving DecidableEq

/-- What raft guarantees: it appends consecutive entries and does not overwrite
applied ones, and what it has the peer apply is in the log. -/
def Allowed (store : LogStore Closure T) : Action Closure → Prop
  | .append entries => ∃ first ∈ entries.head?,
    entries.map Entry.index = List.range' first.index entries.length ∧
      store.apply.delegate.apply_state.applied_index < first.index ∧
      first.index ≤ store.last_index + 1
  | .apply task => ∀ entry ∈ task.entries, entry.index ≤ store.last_index
  | _ => True

instance Allowed.decidable (store : LogStore Closure T) (action : Action Closure) :
    Decidable (store.Allowed action) := by
  cases action <;> dsimp only [Allowed] <;> infer_instance

variable (decode : Bytes → Option T)

/-- A step of one of the threads; a panic of the apply thread ends the run. -/
def step (store : LogStore Closure T) (action : Action Closure) : Option (LogStore Closure T) :=
  if store.Allowed action then
    match action with
    | .append entries => some (store.append entries)
    | .apply task => do
      let apply ← (store.apply.handle_apply task).toOption
      return { store with apply := apply }
    | .end_poll => some { store with apply := store.apply.end_poll }
    | .on_apply_res => store.on_apply_res
    | .gc => store.gc
    | .consume => some { store with
        consumer := store.consumer.step decode store.apply.ctx.kv store.log }
  else
    none

end LogStore

end hologram_kv
