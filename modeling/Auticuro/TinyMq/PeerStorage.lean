import Auticuro.TinyMq.RaftEngine

namespace hologram_kv

def raft.NO_LIMIT : Nat := u64_MAX

structure HardState where
  term : Nat
  vote : Nat
  commit : Nat
  deriving DecidableEq

structure RaftLocalState where
  hard_state : HardState
  last_index : Nat
  deriving DecidableEq

/-- The encodings of what is stored in the raft database. -/
structure RaftCodec where
  entry : EntryCodec
  raft_state : Protobuf RaftLocalState

def last_index (state : RaftLocalState) : Nat := state.last_index

/-- What raft hands to the storage. -/
structure Ready where
  entries : List Entry
  hs : Option HardState := none
  deriving DecidableEq

inductive StoragePanic where
  | low_above_high
  | low_truncated
  | high_above_last (low high last_index : Nat)
  /-- The state of a region that was never bootstrapped. -/
  | unreachable
  | commit_entry_lost (commit_term recorded_commit_index : Nat)
  | applied_above_commit
  | commit_above_last
  | term_below_commit_term
  | last_below_init
  | last_entry_lost (last_idx : Nat)
  | applied_entry_lost (applied_index : Nat)
  | key_length
  | engine (panic : Panic)
  deriving DecidableEq

structure PeerStorage where
  raft : RocksDB
  region_id : Nat
  raft_state : RaftLocalState
  apply_state : RaftApplyState
  applied_index_term : Nat
  last_term : Nat

structure InvokeContext where
  raft_state : RaftLocalState
  apply_state : RaftApplyState
  last_term : Nat
  has_new_entries : Bool

def InvokeContext.new (store : PeerStorage) : InvokeContext where
  raft_state := store.raft_state
  apply_state := store.apply_state
  last_term := store.last_term
  has_new_entries := false

/-- Last index 0 means that the peer was created from a raft message; then the hard
state is not persisted. -/
def InvokeContext.set_hard_state (self : InvokeContext) : Option HardState → InvokeContext
  | some hs =>
    if 0 < self.raft_state.last_index then
      { self with raft_state := { self.raft_state with hard_state := hs } }
    else
      self
  | none => self

def InvokeContext.save_raft_state_to (self : InvokeContext) (codec : RaftCodec)
    (region_id : Nat) (raft_wb : RocksWriteBatch) : RocksWriteBatch :=
  raft_wb ++ [.put (keys.raft_state_key region_id)
    (codec.raft_state.write_to_bytes self.raft_state)]

theorem InvokeContext.set_hard_state_eq (self : InvokeContext) (hs : Option HardState) :
    (self.set_hard_state hs).raft_state.last_index = self.raft_state.last_index ∧
      (self.set_hard_state hs).apply_state = self.apply_state ∧
      (0 < self.raft_state.last_index → (self.set_hard_state hs).raft_state.hard_state =
        hs.getD self.raft_state.hard_state) := by
  unfold set_hard_state
  split
  · split
    · exact ⟨rfl, rfl, fun _ => rfl⟩
    · next hzero => exact ⟨rfl, rfl, fun hpos => absurd hpos hzero⟩
  · exact ⟨rfl, rfl, fun _ => rfl⟩

namespace PeerStorage

def last_index (self : PeerStorage) : Nat := hologram_kv.last_index self.raft_state

def truncated_index (self : PeerStorage) : Nat := self.apply_state.truncated_state.index

def truncated_term (self : PeerStorage) : Nat := self.apply_state.truncated_state.term

def applied_index (self : PeerStorage) : Nat := self.apply_state.applied_index

def commit_index (self : PeerStorage) : Nat := self.raft_state.hard_state.commit

def hard_state (self : PeerStorage) : HardState := self.raft_state.hard_state

variable (codec : RaftCodec)

/-- The entries are written, and what was appended behind them before and never
committed is deleted. -/
def append (self : PeerStorage) (invoke_ctx : InvokeContext) (entries : List Entry)
    (raft_wb : RocksWriteBatch) : InvokeContext × RocksWriteBatch :=
  let prev_last_index := invoke_ctx.raft_state.last_index
  match entries.getLast? with
  | none => (invoke_ctx, raft_wb)
  | some last =>
    let raft_wb := RocksWriteBatch.append_impl codec.entry raft_wb self.region_id entries
    let raft_wb := RocksWriteBatch.cut_logs raft_wb self.region_id (last.index + 1)
      (prev_last_index + 1)
    ({ invoke_ctx with
        raft_state := { invoke_ctx.raft_state with last_index := last.index }
        last_term := last.term
        has_new_entries := true },
      raft_wb)

def handle_raft_ready (self : PeerStorage) (raft_wb : RocksWriteBatch) (ready : Ready) :
    InvokeContext × RocksWriteBatch :=
  let (ctx, raft_wb) := self.append codec (InvokeContext.new self) ready.entries raft_wb
  let ctx := ctx.set_hard_state ready.hs
  if ctx.raft_state ≠ self.raft_state then
    (ctx, ctx.save_raft_state_to codec self.region_id raft_wb)
  else
    (ctx, raft_wb)

/-- The memory follows once the batch is written. -/
def post_ready (self : PeerStorage) (ctx : InvokeContext) : PeerStorage :=
  { self with
    raft_state := ctx.raft_state
    apply_state := ctx.apply_state
    last_term := ctx.last_term }

/-- A ready is handled, its batch is written, and the memory follows. -/
def on_ready (self : PeerStorage) (ready : Ready) : PeerStorage :=
  let (ctx, raft_wb) := self.handle_raft_ready codec [] ready
  { self with raft := self.raft.write_opt raft_wb }.post_ready ctx

def set_applied_state (self : PeerStorage) (apply_state : RaftApplyState) : PeerStorage :=
  { self with apply_state := apply_state }

def set_applied_term (self : PeerStorage) (applied_index_term : Nat) : PeerStorage :=
  { self with applied_index_term := applied_index_term }

/-- The commit index of the memory goes ahead of the one in the database. -/
def set_commit_index (self : PeerStorage) (commit : Nat) : PeerStorage :=
  { self with raft_state := { self.raft_state with
    hard_state := { self.raft_state.hard_state with commit := commit } } }

def check_range (self : PeerStorage) (low high : Nat) : Except StoragePanic Unit :=
  if high < low then
    .error .low_above_high
  else if low ≤ self.truncated_index then
    .error .low_truncated
  else if self.last_index + 1 < high then
    .error (.high_above_last low high self.last_index)
  else
    .ok ()

def entries (self : PeerStorage) (low high max_size : Nat) :
    Except StoragePanic (List Entry) := do
  self.check_range low high
  if low = high then
    return []
  else
    let (ents, _) ← (self.raft.fetch_entries_to codec.entry self.region_id low high
      (some max_size) []).mapError .engine
    return ents

/-- The term of an entry, without reading it where it is known. -/
def term (self : PeerStorage) (idx : Nat) : Except StoragePanic Nat :=
  if idx = self.truncated_index then
    .ok self.truncated_term
  else do
    self.check_range idx (idx + 1)
    if self.truncated_term = self.last_term ∨ idx = self.last_index then
      return self.last_term
    else
      match ← self.entries codec idx (idx + 1) raft.NO_LIMIT with
      | [] => .error (.engine .SliceOutOfRange)
      | entry :: _ => return entry.term

/-- `RocksEngine::gc` on the log of the region. -/
def gc (self : PeerStorage) (from_index to_index : Nat) : PeerStorage :=
  { self with
    raft := self.raft.write_opt
      (RocksWriteBatch.cut_logs [] self.region_id from_index to_index) }

end PeerStorage

end hologram_kv
