import Auticuro.Library.Exec
import Auticuro.TinyMq.RaftCmd

namespace hologram_kv

inductive Role where
  | Leader
  /-- A follower, or a candidate when it knows no leader. -/
  | Follower (leader_id : Option Nat)
  deriving DecidableEq

/-- A `MsgPropose` message to another node. -/
structure MsgPropose (Data : Type) where
  to_id : Nat
  data : Data
  deriving DecidableEq

/-- What the peer uses of `RawNode` of the `raft` crate: the log after an
offset, with the term of each entry, and the messages to be sent. -/
structure RawNode (Data : Type) where
  id : Nat
  term : Nat
  role : Role
  offset : Nat := 0
  log : List (Nat × Data) := []
  msgs : List (MsgPropose Data) := []
  deriving DecidableEq

namespace RawNode

variable {Data : Type}

def last_index (node : RawNode Data) : Nat := node.offset + node.log.length

def leader_id (node : RawNode Data) : Option Nat :=
  match node.role with
  | .Leader => some node.id
  | .Follower leader_id => leader_id

/-- A leader appends the entry, a follower sends it to the leader it knows. -/
def propose (node : RawNode Data) (data : Data) : Except Error (RawNode Data) :=
  match node.role with
  | .Leader => .ok { node with log := node.log ++ [(node.term, data)] }
  | .Follower (some leader_id) => .ok { node with msgs := node.msgs ++ [⟨leader_id, data⟩] }
  | .Follower none => .error .ProposalDropped

end RawNode

/-- What a peer knows of itself. -/
structure PeerMeta where
  region_id : Nat
  peer_id : Nat
  store_id : Nat
  deriving DecidableEq

namespace util

def check_store_id (req : RaftCmdRequest) (store_id : Nat) : Except Error Unit :=
  if req.header.store_id = store_id then .ok ()
  else .error (.StoreNotMatch req.header.store_id store_id)

def check_term (req : RaftCmdRequest) (term : Nat) : Except Error Unit :=
  if req.header.term = 0 ∨ term ≤ req.header.term + 1 then .ok () else .error .StaleCommand

def check_peer_id (req : RaftCmdRequest) (peer_id : Nat) : Except Error Unit :=
  if req.header.peer_id = peer_id then .ok ()
  else .error (.Other ("mismatch peer id " ++ toString req.header.peer_id ++ " != " ++
    toString peer_id))

end util

section Propose

variable {Data : Type} (self : PeerMeta) (raft_group : RawNode Data)

def execute_status_command (cmd_type : StatusCmdType) : Except Error RaftCmdResponse :=
  match cmd_type with
  | .InvalidStatus => .error (.Other "invalid status command!")
  | cmd_type =>
    .ok (cmd_resp.bind_term
      { status_response := some ⟨cmd_type, raft_group.leader_id⟩ } raft_group.term)

/-- The checks before a command is proposed. Whether the peer is the leader is
not among them. -/
def pre_propose_raft_command (msg : RaftCmdRequest) : Except Error (Option RaftCmdResponse) := do
  util.check_store_id msg self.store_id
  match msg.body with
  | .status_request cmd_type =>
    let resp ← execute_status_command raft_group cmd_type
    return some resp
  | _ =>
    util.check_peer_id msg self.peer_id
    util.check_term msg raft_group.term
    return none

/-- A normal command is proposed if it has requests, all of a known type. -/
def inspect (req : RaftCmdRequest) : Except Panic Unit :=
  match req.body with
  | .admin_request _ => .ok ()
  | _ =>
    if req.get_requests = [] ∨ .Invalid ∈ req.get_requests then .error .Unreachable else .ok ()

/-- The index of the proposal, or the error that the client gets. The proposal
is taken as dropped when the last index has not moved. -/
def propose_normal (size : Nat) (data : Data) : RawNode Data × Except Error Nat :=
  if 8 * 1024 * 1024 * 1024 < size then
    (raft_group, .error (.RaftEntryTooLarge self.region_id size))
  else
    let propose_index := raft_group.last_index + 1
    match raft_group.propose data with
    | .error err => (raft_group, .error err)
    | .ok raft_group =>
      if raft_group.last_index + 1 = propose_index then
        (raft_group, .error (.NotLeader self.region_id none))
      else
        (raft_group, .ok propose_index)

/-- What `propose_raft_command` does with a command. -/
inductive Outcome where
  | Answered (resp : RaftCmdResponse)
  | Proposed (index : Nat)
  deriving DecidableEq

/-- `propose_raft_command` up to the proposal queue. -/
def propose_command (size : Nat) (msg : RaftCmdRequest) (data : Data) :
    Except Panic (RawNode Data × Outcome) :=
  match pre_propose_raft_command self raft_group msg with
  | .ok (some resp) => .ok (raft_group, .Answered resp)
  | .error err => .ok (raft_group, .Answered (cmd_resp.new_error err))
  | .ok none => do
    let err_resp := cmd_resp.bind_term {} raft_group.term
    inspect msg
    match propose_normal self raft_group size data with
    | (raft_group, .error err) =>
      return (raft_group, .Answered (cmd_resp.bind_error err_resp err))
    | (raft_group, .ok index) => return (raft_group, .Proposed index)

variable {self raft_group} {raft_group' : RawNode Data} {size index : Nat} {data : Data}
variable {err : Error}

/-- What raft may have become when a proposal is not in its log: the same, or a
follower that sends the proposal to its leader. -/
inductive Kept (raft_group : RawNode Data) (data : Data) : RawNode Data → Option Error → Prop where
  | same (error : Option Error) : Kept raft_group data raft_group error
  | forwarded {leader_id : Nat} (hrole : raft_group.role = .Follower (some leader_id))
      (region_id : Nat) :
      Kept raft_group data { raft_group with msgs := raft_group.msgs ++ [⟨leader_id, data⟩] }
        (some (.NotLeader region_id none))

theorem Kept.same_log {error : Option Error} (hkept : Kept raft_group data raft_group' error) :
    raft_group'.role = raft_group.role ∧ raft_group'.term = raft_group.term ∧
      raft_group'.last_index = raft_group.last_index := by
  cases hkept <;> exact ⟨rfl, rfl, rfl⟩

theorem propose_normal_error
    (hpropose : propose_normal self raft_group size data = (raft_group', .error err)) :
    Kept raft_group data raft_group' (some err) := by
  unfold propose_normal RawNode.propose at hpropose
  split at hpropose
  · cases hpropose
    exact .same _
  · cases hrole : raft_group.role with
    | Leader => simp [hrole, RawNode.last_index] at hpropose
    | Follower leader_id =>
      cases leader_id with
      | none =>
        simp only [hrole] at hpropose
        cases hpropose
        exact .same _
      | some leader_id =>
        simp only [hrole, RawNode.last_index, if_true] at hpropose
        cases hpropose
        rw [← hrole]
        exact .forwarded hrole self.region_id

/-- Only a leader gets an index, and it is the index of a new entry. -/
theorem propose_normal_ok
    (hpropose : propose_normal self raft_group size data = (raft_group', .ok index)) :
    raft_group.role = .Leader ∧ index = raft_group.last_index + 1 ∧
      raft_group' = { raft_group with log := raft_group.log ++ [(raft_group.term, data)] } := by
  unfold propose_normal RawNode.propose at hpropose
  split at hpropose
  · cases hpropose
  · cases hrole : raft_group.role with
    | Leader =>
      simp [hrole, RawNode.last_index] at hpropose
      exact ⟨rfl, hpropose.2.symm, by rw [← hpropose.1]⟩
    | Follower leader_id =>
      cases leader_id with
      | none => simp [hrole] at hpropose
      | some leader_id => simp [hrole, RawNode.last_index] at hpropose

/-- Only a status request is answered without an error before it is proposed. -/
theorem pre_propose_some {msg : RaftCmdRequest} {resp : RaftCmdResponse}
    (hpre : pre_propose_raft_command self raft_group msg = .ok (some resp)) :
    resp.responses = [] ∧ msg.get_requests = [] := by
  obtain ⟨-, -, hpre⟩ := Exec.bind_eq_ok_iff.mp hpre
  split at hpre
  · next cmd_type hbody =>
    obtain ⟨status, hstatus, hpre⟩ := Exec.bind_eq_ok_iff.mp hpre
    cases hpre
    refine ⟨?_, ?_⟩
    · unfold execute_status_command at hstatus
      split at hstatus
      · cases hstatus
      · cases hstatus
        rw [cmd_resp.bind_term_responses]
    · unfold RaftCmdRequest.get_requests
      rw [hbody]
  · obtain ⟨-, -, hpre⟩ := Exec.bind_eq_ok_iff.mp hpre
    obtain ⟨-, -, hpre⟩ := Exec.bind_eq_ok_iff.mp hpre
    cases hpre

/-- A command that is answered is not in the log, and has no requests when it is
answered without an error. -/
theorem propose_command_answered {msg : RaftCmdRequest} {resp : RaftCmdResponse}
    (hpropose : propose_command self raft_group size msg data =
      .ok (raft_group', .Answered resp)) :
    Kept raft_group data raft_group' resp.header.error ∧
      (resp.header.error = none → resp.responses = [] ∧ msg.get_requests = []) := by
  unfold propose_command at hpropose
  split at hpropose
  · next answer hpre =>
    cases hpropose
    exact ⟨.same _, fun _ => pre_propose_some hpre⟩
  · cases hpropose
    refine ⟨.same _, ?_⟩
    intro hok
    cases hok
  · obtain ⟨-, -, hpropose⟩ := Exec.bind_eq_ok_iff.mp hpropose
    split at hpropose
    · next next_group err hnormal =>
      cases hpropose
      refine ⟨propose_normal_error hnormal, ?_⟩
      intro hok
      cases hok
    · cases hpropose

theorem propose_command_proposed {msg : RaftCmdRequest}
    (hpropose : propose_command self raft_group size msg data =
      .ok (raft_group', .Proposed index)) :
    raft_group.role = .Leader ∧ index = raft_group.last_index + 1 ∧
      raft_group' = { raft_group with log := raft_group.log ++ [(raft_group.term, data)] } := by
  unfold propose_command at hpropose
  split at hpropose
  · cases hpropose
  · cases hpropose
  · obtain ⟨-, -, hpropose⟩ := Exec.bind_eq_ok_iff.mp hpropose
    split at hpropose
    · cases hpropose
    · next next_group found hnormal =>
      cases hpropose
      exact propose_normal_ok hnormal

end Propose

end hologram_kv
