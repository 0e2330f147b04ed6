import Auticuro.TinyMq.Peer
import Auticuro.TinyMq.Propose

namespace hologram_kv

/-- The closures in the callbacks of proposals: the closure of a client, or the
one that hands out the response of a combined command. The address tells
combined closures apart. -/
inductive Closure (Client : Type) where
  | client (cb : Client)
  | combined (address : Nat) (cbs : List (Callback Client × Nat))
  deriving DecidableEq

variable {Client : Type}

/-- The callback of a client as the callback of a proposal. -/
def Callback.of_client : Callback Client → Callback (Closure Client)
  | .None => .None
  | .Read read => .Read (.client read)
  | .Write cb => .Write (.client cb)

/-- The loop of a combined closure: each callback gets the header and, without
an error, the next slice of the responses. -/
def hand_out (resp : RaftCmdResponse) :
    Nat → List (Callback Client × Nat) → Except Panic (List (Call Client))
  | _, [] => .ok []
  | last_index, (cb, req_num) :: cbs =>
    let next_index := last_index + req_num
    if resp.header.error.isSome then do
      let calls ← hand_out resp next_index cbs
      return cb.invoke_with_response { header := resp.header } ++ calls
    else if resp.responses.length < next_index then
      .error .SliceOutOfRange
    else do
      let responses := (resp.responses.drop last_index).take req_num
      let calls ← hand_out resp next_index cbs
      return cb.invoke_with_response { header := resp.header, responses := responses } ++ calls

/-- The calls of client callbacks that come from a call of a proposal's
callback. -/
def client_calls : Call (Closure Client) → Except Panic (List (Call Client))
  | (.None, _) => .ok []
  | (.Read (.client read), resp) => .ok [(.Read read, resp)]
  | (.Write (.client cb), resp) => .ok [(.Write cb, resp)]
  | (.Read (.combined _ cbs), resp) => hand_out resp 0 cbs
  | (.Write (.combined _ cbs), resp) => hand_out resp 0 cbs

structure RaftCommand (Client : Type) where
  request : RaftCmdRequest
  callback : Callback Client
  deriving DecidableEq

/-- The data of a log entry: the command, with the commands that it stands for
remembered. -/
structure CommandData (Client : Type) where
  request : RaftCmdRequest
  commands : List (RaftCommand Client) := []
  deriving DecidableEq

def RAFT_ENTRY_MAX_SIZE : Nat := 8 * 1024 * 1024

/-- The commands that the builder holds are remembered, and the number of
closures it has built. -/
structure BatchRaftCmdRequestBuilder (Client : Type) where
  batch_req_size : Nat := 0
  request : Option RaftCmdRequest := none
  callbacks : List (Callback Client × Nat) := []
  held : List (RaftCommand Client) := []
  allocated : Nat := 0
  deriving DecidableEq

namespace BatchRaftCmdRequestBuilder

def is_message_queue : Request → Bool
  | .MessageQueue _ => true
  | .Invalid => false

/-- No request above 20% of the maximal size, only messages, and only one
header in a batch. -/
def can_batch (builder : BatchRaftCmdRequestBuilder Client) (req : RaftCmdRequest)
    (req_size : Nat) : Bool :=
  if req.get_requests = [] ∨ RAFT_ENTRY_MAX_SIZE < req_size * 5 then
    false
  else if req.get_requests.all is_message_queue then
    match builder.request with
    | some batch_req => batch_req.header = req.header
    | none => true
  else
    false

def add (builder : BatchRaftCmdRequestBuilder Client) (cmd : RaftCommand Client) (req_size : Nat) :
    BatchRaftCmdRequestBuilder Client :=
  { builder with
    request :=
      match builder.request with
      | some batch_req => some { batch_req with
          body := .requests (batch_req.get_requests ++ cmd.request.get_requests) }
      | none => some cmd.request
    callbacks := builder.callbacks ++ [(cmd.callback, cmd.request.get_requests.length)]
    batch_req_size := builder.batch_req_size + req_size
    held := builder.held ++ [cmd] }

def should_finish (builder : BatchRaftCmdRequestBuilder Client) : Bool :=
  match builder.request with
  | some batch_req =>
    decide (RAFT_ENTRY_MAX_SIZE * 2 < builder.batch_req_size * 5 ∨
      256 < batch_req.get_requests.length)
  | none => false

/-- The command to propose, and the empty builder. -/
def build (builder : BatchRaftCmdRequestBuilder Client) :
    Option (RaftCmdRequest × Callback (Closure Client)) × BatchRaftCmdRequestBuilder Client :=
  match builder.request with
  | none => (none, builder)
  | some req =>
    match builder.callbacks with
    | [(cb, _)] => (some (req, cb.of_client), { allocated := builder.allocated })
    | cbs =>
      (some (req, .Write (.combined builder.allocated cbs)), { allocated := builder.allocated + 1 })

end BatchRaftCmdRequestBuilder

def new_compact_log_request (self : PeerMeta) (compact_index compact_term : Nat) :
    RaftCmdRequest where
  header := { region_id := self.region_id, peer_id := self.peer_id, store_id := self.store_id }
  body := .admin_request (.CompactLog compact_index compact_term)

inductive PeerMsg (Client : Type) where
  | RaftCommand (cmd : RaftCommand Client)
  /-- A raft message, a tick, a result of the apply thread: the raft group goes
  to another state. -/
  | Raft (raft_group : RawNode (CommandData Client))
  /-- The tick at which a leader compacts its log. -/
  | CompactLog (compact_index compact_term : Nat)
  deriving DecidableEq

/-- The raft thread of a peer, with its replica. The commands it has received
are remembered, and for each call of `propose_raft_command` the commands that
it stands for and where raft has put it. -/
structure PeerFsm (Client : Type) where
  replica : Replica (Closure Client)
  raft_group : RawNode (CommandData Client)
  batch_req_builder : BatchRaftCmdRequestBuilder Client := {}
  rejected : List (Call (Closure Client)) := []
  received : List (RaftCommand Client) := []
  proposals : List (List (RaftCommand Client) × Option (ℕ ×ₗ ℕ)) := []
  deriving DecidableEq

namespace PeerFsm

/-- The callbacks that ran. -/
def invoked (fsm : PeerFsm Client) : List (Call (Closure Client)) :=
  fsm.rejected ++ fsm.replica.invoked

variable (compute_size : RaftCmdRequest → Nat) (self : PeerMeta)

/-- A command that is answered without being proposed. -/
def answer (fsm : PeerFsm Client) (commands : List (RaftCommand Client))
    (cb : Callback (Closure Client)) (resp : RaftCmdResponse) : PeerFsm Client :=
  { fsm with
    rejected := fsm.rejected ++ cb.invoke_with_response resp
    proposals := fsm.proposals ++ [(commands, none)] }

/-- The proposal of a command that raft has appended goes into the queue. -/
def propose_raft_command (fsm : PeerFsm Client) (commands : List (RaftCommand Client))
    (msg : RaftCmdRequest) (cb : Callback (Closure Client)) : Except Panic (PeerFsm Client) := do
  let (raft_group, outcome) ← propose_command self fsm.raft_group (compute_size msg) msg
    { request := msg, commands := commands }
  match outcome with
  | .Answered resp => return { fsm with raft_group := raft_group }.answer commands cb resp
  | .Proposed index =>
    let p : Proposal (Closure Client) := { index := index, term := raft_group.term, cb := cb }
    let replica ← fsm.replica.post_propose p msg
    return { fsm with
      replica := replica
      raft_group := raft_group
      proposals := fsm.proposals ++ [(commands, some p.key)] }

def propose_batch_raft_command (fsm : PeerFsm Client) : Except Panic (PeerFsm Client) :=
  match fsm.batch_req_builder.build with
  | (none, _) => .ok fsm
  | (some (req, cb), builder) =>
    { fsm with batch_req_builder := builder }.propose_raft_command compute_size self
      fsm.batch_req_builder.held req cb

/-- One round of the loop of `handle_msgs`. -/
def handle_msg (fsm : PeerFsm Client) : PeerMsg Client → Except Panic (PeerFsm Client)
  | .RaftCommand cmd => do
    let fsm := { fsm with received := fsm.received ++ [cmd] }
    let req_size := compute_size cmd.request
    if fsm.batch_req_builder.can_batch cmd.request req_size then
      let fsm := { fsm with batch_req_builder := fsm.batch_req_builder.add cmd req_size }
      if fsm.batch_req_builder.should_finish then
        fsm.propose_batch_raft_command compute_size self
      else
        return fsm
    else
      let fsm ← fsm.propose_batch_raft_command compute_size self
      fsm.propose_raft_command compute_size self [cmd] cmd.request cmd.callback.of_client
  | .Raft raft_group => .ok { fsm with raft_group := raft_group }
  | .CompactLog compact_index compact_term =>
    fsm.propose_raft_command compute_size self []
      (new_compact_log_request self compact_index compact_term) .None

def handle_msgs (fsm : PeerFsm Client) (msgs : List (PeerMsg Client)) :
    Except Panic (PeerFsm Client) := do
  let fsm ← msgs.foldlM (fun fsm msg => fsm.handle_msg compute_size self msg) fsm
  fsm.propose_batch_raft_command compute_size self

inductive Action (Client : Type) where
  /-- One message of `handle_msgs`. -/
  | msg (msg : PeerMsg Client)
  /-- The end of `handle_msgs`. -/
  | end_msgs
  | commit (term : Nat) (committed_entries : List Entry)
  | apply_task
  | end_poll
  deriving DecidableEq

/-- A step of the replica that makes no proposal. -/
def replica_step (fsm : PeerFsm Client) (action : Replica.Action (Closure Client)) :
    Except Panic (PeerFsm Client) := do
  let replica ← fsm.replica.step action
  return { fsm with replica := replica }

def step (fsm : PeerFsm Client) : Action Client → Except Panic (PeerFsm Client)
  | .msg msg => fsm.handle_msg compute_size self msg
  | .end_msgs => fsm.propose_batch_raft_command compute_size self
  | .commit term entries => fsm.replica_step (.commit term entries)
  | .apply_task => fsm.replica_step .apply_task
  | .end_poll => fsm.replica_step .end_poll

def try_step (fsm : PeerFsm Client) (action : Action Client) : Option (PeerFsm Client) :=
  (fsm.step compute_size self action).toOption

/-- The raft log of a leader ends above what the peer has proposed and above
what it knows to be committed. -/
def Leads (replica : Replica (Closure Client)) (raft_group : RawNode (CommandData Client)) : Prop :=
  raft_group.role = .Leader →
    (∀ p ∈ replica.proposed, p.1.key < log_key raft_group.term (raft_group.last_index + 1)) ∧
      ∀ entry ∈ replica.committed,
        entry.key < log_key raft_group.term (raft_group.last_index + 1)

instance Leads.decidable (replica : Replica (Closure Client))
    (raft_group : RawNode (CommandData Client)) :
    Decidable (Leads replica raft_group) :=
  inferInstanceAs (Decidable (_ → _))

/-- What raft and Rust guarantee: a callback is moved into one command, a leader
appends past what it has proposed and what is committed, and the guarantees of
committed entries. -/
def Guard (fsm : PeerFsm Client) : Action Client → Prop
  | .msg (.RaftCommand cmd) =>
    cmd.callback.is_none = false → ∀ other ∈ fsm.received, other.callback ≠ cmd.callback
  | .msg (.Raft raft_group) => Leads fsm.replica raft_group
  | .msg (.CompactLog _ _) => True
  | .end_msgs => True
  | .commit term entries => fsm.replica.Guard (.commit term entries) ∧
    (fsm.raft_group.role = .Leader → ∀ entry ∈ entries,
      entry.key < log_key fsm.raft_group.term (fsm.raft_group.last_index + 1))
  | .apply_task => True
  | .end_poll => True

instance Guard.decidable [DecidableEq Client] (fsm : PeerFsm Client) (action : Action Client) :
    Decidable (fsm.Guard action) := by
  unfold Guard
  split <;> infer_instance

/-- A peer that starts: nothing received, nothing proposed. -/
def start (raft_group : RawNode (CommandData Client)) (applied_index_term : Nat)
    (apply_state : RaftApplyState) : PeerFsm Client where
  replica := Replica.start raft_group.term applied_index_term apply_state
  raft_group := raft_group

end PeerFsm

end hologram_kv
