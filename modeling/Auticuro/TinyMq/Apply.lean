import Auticuro.TinyMq.RaftCmd
import Mathlib.Algebra.Group.Nat.Defs

namespace hologram_kv

variable {Closure : Type}

structure RaftTruncatedState where
  index : Nat
  term : Nat
  deriving DecidableEq

structure RaftApplyState where
  applied_index : Nat
  commit_index : Nat
  commit_term : Nat
  truncated_state : RaftTruncatedState
  deriving DecidableEq

def first_index (state : RaftApplyState) : Nat := state.truncated_state.index + 1

def RAFT_INIT_LOG_TERM : Nat := 5

def RAFT_INIT_LOG_INDEX : Nat := 5

def write_initial_apply_state : RaftApplyState where
  applied_index := RAFT_INIT_LOG_INDEX
  commit_index := 0
  commit_term := 0
  truncated_state := { index := RAFT_INIT_LOG_INDEX, term := RAFT_INIT_LOG_TERM }

inductive ExecResult where
  | CompactLog (state : RaftTruncatedState) (first_index : Nat)
  deriving DecidableEq

structure ApplyRes where
  apply_state : RaftApplyState
  applied_index_term : Nat
  exec_res : List ExecResult
  deriving DecidableEq

structure PendingCmd (Closure : Type) where
  index : Nat
  term : Nat
  cb : Option (Callback Closure)
  deriving DecidableEq

def PendingCmd.new (index term : Nat) (cb : Callback Closure) : PendingCmd Closure :=
  { index := index, term := term, cb := some cb }

def PendingCmd.key (cmd : PendingCmd Closure) : ℕ ×ₗ ℕ := log_key cmd.term cmd.index

/-- `cmd.cb.take()`: the callback, and the command that is left to be dropped. -/
def PendingCmd.take (cmd : PendingCmd Closure) : Option (Callback Closure) × PendingCmd Closure :=
  (cmd.cb, { cmd with cb := none })

def PendingCmd.drop (cmd : PendingCmd Closure) : Except Panic Unit :=
  if cmd.cb.isSome then .error (.CallbackLeak cmd.index cmd.term) else .ok ()

def unwrap {T : Type} : Option T → Except Panic T
  | some value => .ok value
  | none => .error .Unwrap

def notify_stale_req (term : Nat) (cb : Callback Closure) : List (Call Closure) :=
  cb.invoke_with_response (cmd_resp.err_resp .StaleCommand term)

def notify_stale_command (term : Nat) (cmd : PendingCmd Closure) :
    Except Panic (List (Call Closure)) := do
  let (cb, cmd) := cmd.take
  let cb ← unwrap cb
  cmd.drop
  return notify_stale_req term cb

def u64_MAX : Nat := 2 ^ 64 - 1

/-- The loop over `pop_normal` that an empty entry runs: the front of the queue
is popped while it is not above `(term, index)`. -/
def PendingCmdQueue.clear_stale (index term : Nat) (resp : RaftCmdResponse) :
    List (PendingCmd Closure) → Except Panic (List (Call Closure) × List (PendingCmd Closure))
  | [] => .ok ([], [])
  | cmd :: normals =>
    if log_key term index < cmd.key then
      .ok ([], cmd :: normals)
    else do
      let (cb, cmd) := cmd.take
      cmd.drop
      let (batch, normals) ← PendingCmdQueue.clear_stale index term resp normals
      return (cb.toList.map (fun cb => (cb, resp)) ++ batch, normals)

/-- The loop over `pop_normal` that looks for the callback of an entry. -/
def PendingCmdQueue.find_pending (current_term index term : Nat) :
    List (PendingCmd Closure) →
      Except Panic (Option (Callback Closure) × List (PendingCmd Closure) × List (Call Closure))
  | [] => .ok (none, [], [])
  | head :: normals =>
    if log_key term index < head.key then
      .ok (none, head :: normals, [])
    else if head.term = term then
      if head.index = index then do
        let (cb, head) := head.take
        let cb ← unwrap cb
        head.drop
        return (some cb, normals, [])
      else
        .error (.UnexpectedCallback term head.index index)
    else do
      let stale ← notify_stale_command current_term head
      let (cb, normals, calls) ← PendingCmdQueue.find_pending current_term index term normals
      return (cb, normals, stale ++ calls)

def compact_raft_log (state : RaftApplyState) (compact_index compact_term : Nat) :
    Except Error RaftApplyState :=
  if compact_index ≤ state.truncated_state.index then
    .error (.Other "try to truncate compacted entries")
  else if state.applied_index < compact_index then
    .error (.Other ("compact index " ++ toString compact_index ++ " > applied index " ++
      toString state.applied_index))
  else
    .ok { state with truncated_state := ⟨compact_index, compact_term⟩ }

def exec_compact_log (state : RaftApplyState) (compact_index compact_term : Nat) :
    Except Error (RaftApplyState × Option ExecResult) :=
  if compact_index ≤ first_index state then
    .ok (state, none)
  else if compact_term = 0 then
    .error (.Other "command format is outdated, please upgrade leader")
  else do
    let compacted ← compact_raft_log state compact_index compact_term
    return (compacted, some (.CompactLog compacted.truncated_state (first_index state)))

/-- The response of a command: the uuid of the request is sent back. -/
def response_to (header : RaftRequestHeader) (resp : RaftCmdResponse) : RaftCmdResponse :=
  if header.uuid = [] then resp
  else { resp with header := { resp.header with uuid := header.uuid } }

def exec_admin_cmd (state : RaftApplyState) (header : RaftRequestHeader) :
    AdminRequest → Except Error (RaftCmdResponse × RaftApplyState × Option ExecResult)
  | .CompactLog compact_index compact_term => do
    let (state, exec_result) ← exec_compact_log state compact_index compact_term
    return (response_to header { admin_response := some .CompactLog }, state, exec_result)
  | .InvalidAdmin => .error (.Other "unsupported admin command type")

def handle_message_queue (index offset : Nat) : MessageQueueResponse :=
  { error := "OK", index := index, offset := offset }

def exec_request (index : Nat) : Request × Nat → Except Panic MessageQueueResponse
  | (.MessageQueue _, offset) => .ok (handle_message_queue index offset)
  | (.Invalid, _) => .error .Unreachable

def exec_write_cmd (index : Nat) (req : RaftCmdRequest) : Except Panic RaftCmdResponse := do
  let responses ← req.get_requests.zipIdx.mapM (exec_request index)
  return response_to req.header { responses := responses }

/-- An error of the command is part of the result; a panic is not. -/
def exec_raft_cmd (state : RaftApplyState) (index : Nat) (req : RaftCmdRequest) :
    Except Panic (Except Error (RaftCmdResponse × RaftApplyState × Option ExecResult)) :=
  match req.body with
  | .admin_request request => .ok (exec_admin_cmd state req.header request)
  | _ => do
    let resp ← exec_write_cmd index req
    return .ok (resp, state, none)

def apply_raft_cmd (state : RaftApplyState) (index : Nat) (req : RaftCmdRequest) :
    Except Panic (RaftCmdResponse × RaftApplyState × Option ExecResult) := do
  match ← exec_raft_cmd state index req with
  | .ok (resp, state, exec_result) =>
    return (resp, { state with applied_index := index }, exec_result)
  | .error err =>
    return (cmd_resp.new_error err, { state with applied_index := index }, none)

structure ApplyDelegate (Closure : Type) where
  term : Nat
  pending_cmds : List (PendingCmd Closure) := []
  apply_state : RaftApplyState
  applied_index_term : Nat
  last_flush_applied_index : Nat
  deriving DecidableEq

/-- The context of the apply thread, with what it has done to the outside:
the apply state in the database, the results sent to the peer and the
callbacks that ran. -/
structure ApplyContext (Closure : Type) where
  timer : Bool := false
  applied_batch : List (Call Closure) := []
  apply_res : List ApplyRes := []
  kv_wb : Option RaftApplyState := none
  kv : RaftApplyState
  notified : List ApplyRes := []
  invoked : List (Call Closure) := []
  deriving DecidableEq

structure Apply (Closure : Type) where
  term : Nat
  entries : List Entry
  cbs : List (Proposal Closure)
  deriving DecidableEq

/-- The two halves of the apply thread's state. -/
structure ApplyFsm (Closure : Type) where
  delegate : ApplyDelegate Closure
  ctx : ApplyContext Closure
  deriving DecidableEq

namespace ApplyFsm

def process_raft_cmd (fsm : ApplyFsm Closure) (index term : Nat) (cmd : RaftCmdRequest) :
    Except Panic (ApplyFsm Closure × Option ExecResult) :=
  if index = 0 then
    .error .ZeroIndex
  else do
    let delegate := fsm.delegate
    let (resp, apply_state, exec_result) ← apply_raft_cmd delegate.apply_state index cmd
    let resp := cmd_resp.bind_term resp delegate.term
    let (cmd_cb, pending_cmds, calls) ←
      PendingCmdQueue.find_pending delegate.term index term delegate.pending_cmds
    return (⟨{ delegate with
        pending_cmds := pending_cmds, apply_state := apply_state, applied_index_term := term },
      { fsm.ctx with
        applied_batch := fsm.ctx.applied_batch ++ cmd_cb.toList.map (fun cb => (cb, resp))
        invoked := fsm.ctx.invoked ++ calls }⟩, exec_result)

def handle_raft_entry_normal (fsm : ApplyFsm Closure) (entry : Entry) :
    Except Panic (ApplyFsm Closure × Option ExecResult) :=
  match entry.data with
  | some cmd => fsm.process_raft_cmd entry.index entry.term cmd
  | none =>
    if entry.term = 0 then
      .error .ZeroTerm
    else do
      let delegate := fsm.delegate
      let (batch, pending_cmds) ← PendingCmdQueue.clear_stale u64_MAX (entry.term - 1)
        (cmd_resp.err_resp .StaleCommand entry.term) delegate.pending_cmds
      return (⟨{ delegate with
          pending_cmds := pending_cmds
          apply_state := { delegate.apply_state with applied_index := entry.index }
          applied_index_term := entry.term },
        { fsm.ctx with applied_batch := fsm.ctx.applied_batch ++ batch }⟩, none)

/-- The loop over the committed entries of one task. -/
def apply_entries (fsm : ApplyFsm Closure) :
    List Entry → Except Panic (ApplyFsm Closure × List ExecResult)
  | [] => .ok (fsm, [])
  | entry :: entries =>
    if entry.index ≠ fsm.delegate.apply_state.applied_index + 1 then
      .error (.ExpectIndex (fsm.delegate.apply_state.applied_index + 1) entry.index)
    else do
      let (fsm, res) ← fsm.handle_raft_entry_normal entry
      let (fsm, results) ← fsm.apply_entries entries
      return (fsm, res.toList ++ results)

/-- The apply state goes into the write batch, the results wait to be sent. -/
def finish_for (fsm : ApplyFsm Closure) (results : List ExecResult) : ApplyFsm Closure :=
  { fsm with ctx :=
    { fsm.ctx with
      kv_wb := some fsm.delegate.apply_state
      apply_res := fsm.ctx.apply_res ++
        [⟨fsm.delegate.apply_state, fsm.delegate.applied_index_term, results⟩] } }

def handle_raft_committed_entries (fsm : ApplyFsm Closure) (entries : List Entry) :
    Except Panic (ApplyFsm Closure) := do
  let (fsm, results) ← fsm.apply_entries entries
  return fsm.finish_for results

def append_proposal (fsm : ApplyFsm Closure) (cbs : List (Proposal Closure)) : ApplyFsm Closure :=
  { fsm with delegate :=
    { fsm.delegate with
      pending_cmds := fsm.delegate.pending_cmds ++
        cbs.map (fun p => PendingCmd.new p.index p.term p.cb) } }

/-- The commit state of a task is the last of its entries. -/
def set_commit_state (fsm : ApplyFsm Closure) (term : Nat) (entry : Entry) :
    Except Panic (ApplyFsm Closure) :=
  let apply_state := fsm.delegate.apply_state
  if entry.index < apply_state.commit_index ∨ entry.term < apply_state.commit_term then
    .error .CommitStateJumpBackward
  else
    .ok { fsm with delegate :=
      { fsm.delegate with
        term := term
        apply_state :=
          { apply_state with commit_index := entry.index, commit_term := entry.term } } }

def handle_apply (fsm : ApplyFsm Closure) (apply : Apply Closure) :
    Except Panic (ApplyFsm Closure) :=
  match apply.entries.getLast? with
  | none => .error .Unreachable
  | some entry => do
    let fsm := { fsm with ctx := { fsm.ctx with timer := true } }
    let fsm ← fsm.set_commit_state apply.term entry
    (fsm.append_proposal apply.cbs).handle_raft_committed_entries apply.entries

end ApplyFsm

def ApplyContext.write_to_db (ctx : ApplyContext Closure) : ApplyContext Closure :=
  { ctx with
    kv := ctx.kv_wb.getD ctx.kv
    kv_wb := none
    invoked := ctx.invoked ++
      ctx.applied_batch.flatMap (fun call => call.1.invoke_with_response call.2)
    applied_batch := [] }

def ApplyContext.flush (ctx : ApplyContext Closure) : ApplyContext Closure :=
  if ctx.timer then
    let ctx := ctx.write_to_db
    { ctx with timer := false, notified := ctx.notified ++ ctx.apply_res, apply_res := [] }
  else
    ctx

/-- `ApplyPoller::end`, after the tasks of one round. -/
def ApplyFsm.end_poll (fsm : ApplyFsm Closure) : ApplyFsm Closure :=
  ⟨{ fsm.delegate with last_flush_applied_index := fsm.delegate.apply_state.applied_index },
    fsm.ctx.flush⟩

end hologram_kv
