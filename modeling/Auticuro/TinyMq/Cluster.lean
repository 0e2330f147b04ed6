import Auticuro.Library.Run
import Auticuro.TinyMq.Batch
import Mathlib.Logic.Function.Basic

namespace hologram_kv

/-- The command that `send_payload` hands to the raft thread. The store id is
also taken as the id of the peer. -/
def MessageQueueAdapter.send_payload {Client : Type} (self : PeerMeta) (payload : Bytes)
    (cb : Client) : RaftCommand Client where
  request :=
    { header := { region_id := self.region_id, peer_id := self.store_id, store_id := self.store_id }
      body := .requests [.MessageQueue payload] }
  callback := .Write cb

def RaftCmdResponse.is_not_leader (resp : RaftCmdResponse) : Bool :=
  match resp.header.error with
  | some (.NotLeader _ _) => true
  | _ => false

namespace PeerFsm

variable {Client : Type}

/-- The callbacks of clients that were given the error `NotLeader`. -/
def refused (fsm : PeerFsm Client) : List (Callback Client) :=
  fsm.invoked.flatMap fun call =>
    match client_calls call with
    | .ok answers => (answers.filter fun answer => answer.2.is_not_leader).map Prod.fst
    | .error _ => []

/-- `Peer::step` with a `MsgPropose` message: raft proposes its entry. -/
def step_propose (fsm : PeerFsm Client) (data : CommandData Client) : PeerFsm Client :=
  match fsm.raft_group.propose data with
  | .ok raft_group => { fsm with raft_group := raft_group }
  | .error _ => fsm

/-- The messages of a `Ready` have been handed to the transport. -/
def take_messages (fsm : PeerFsm Client) : PeerFsm Client :=
  { fsm with raft_group := { fsm.raft_group with msgs := [] } }

end PeerFsm

/-- The peers of a raft group by their ids, with the proposals on their way
between them. The closures of `send_payload` are numbered, and what was ever in
a log is remembered. -/
structure Cluster where
  peers : Nat → PeerFsm Nat
  network : List (MsgPropose (CommandData Nat)) := []
  submitted : Nat := 0
  appended : List (CommandData Nat) := []

namespace Cluster

/-- The raft groups at the start of each peer, with the apply state that it
finds in its database. -/
def start (raft_groups : Nat → RawNode (CommandData Nat)) (applied_index_term : Nat → Nat)
    (apply_state : Nat → RaftApplyState) : Cluster where
  peers node := PeerFsm.start (raft_groups node) (applied_index_term node) (apply_state node)

def update (cluster : Cluster) (node : Nat) (fsm : PeerFsm Nat) : Cluster :=
  { cluster with
    peers := Function.update cluster.peers node fsm
    appended := cluster.appended ++ fsm.raft_group.log.map Prod.snd }

inductive Action where
  | send_payload (node : Nat) (payload : Bytes)
  /-- Any other step of a peer. -/
  | peer (node : Nat) (action : PeerFsm.Action Nat)
  /-- A peer sends the messages that raft has produced. -/
  | send (node : Nat)
  /-- A message on the network arrives. -/
  | deliver (position : Nat)
  deriving DecidableEq

/-- What raft does to a peer on its own. Elections and replication make no
proposals, and a log holds what was appended to some log. Only a leader compacts
its log. -/
def Allowed (cluster : Cluster) (fsm : PeerFsm Nat) : PeerFsm.Action Nat → Prop
  | .msg (.RaftCommand _) => False
  | .msg (.Raft raft_group) => raft_group.msgs = fsm.raft_group.msgs ∧
    ∀ entry ∈ raft_group.log, entry.2.commands = [] ∨ entry.2 ∈ cluster.appended
  | .msg (.CompactLog _ _) => fsm.raft_group.role = .Leader
  | _ => True

instance Allowed.decidable (cluster : Cluster) (fsm : PeerFsm Nat) (action : PeerFsm.Action Nat) :
    Decidable (cluster.Allowed fsm action) := by
  unfold Allowed
  split <;> infer_instance

section Step

variable (compute_size : RaftCmdRequest → Nat) (self : Nat → PeerMeta)

def peer_step (cluster : Cluster) (node : Nat) (action : PeerFsm.Action Nat) : Option Cluster := do
  let fsm ← (cluster.peers node).try_step compute_size (self node) action
  return cluster.update node fsm

def send (cluster : Cluster) (node : Nat) : Cluster :=
  let fsm := cluster.peers node
  { cluster with network := cluster.network ++ fsm.raft_group.msgs }.update node fsm.take_messages

def deliver (cluster : Cluster) (position : Nat) : Option Cluster := do
  let msg ← cluster.network[position]?
  let fsm := (cluster.peers msg.to_id).step_propose msg.data
  return { cluster with network := cluster.network.eraseIdx position }.update msg.to_id fsm

/-- A step that raft does not make is refused. -/
def step (cluster : Cluster) : Action → Option Cluster
  | .send_payload node payload => do
    let cmd := MessageQueueAdapter.send_payload (self node) payload cluster.submitted
    let next ← cluster.peer_step compute_size self node (.msg (.RaftCommand cmd))
    return { next with submitted := cluster.submitted + 1 }
  | .peer node action =>
    if cluster.Allowed (cluster.peers node) action ∧ (cluster.peers node).Guard action then
      cluster.peer_step compute_size self node action
    else
      none
  | .send node => some (cluster.send node)
  | .deliver position => cluster.deliver position

end Step

/-- A client that was told `NotLeader` has its command in no log, and it never
had. -/
def NotLeaderMeansNotLogged (cluster : Cluster) : Prop :=
  ∀ node, ∀ cb ∈ (cluster.peers node).refused, ∀ data : CommandData Nat,
    (data ∈ cluster.appended ∨
      ∃ other, ∃ entry ∈ (cluster.peers other).raft_group.log, entry.2 = data) →
    ∀ cmd ∈ data.commands, cmd.callback ≠ cb

/-- A forwarded proposal does not arrive at a leader. -/
def Unled (cluster : Cluster) : Action → Prop
  | .deliver position => ∀ msg ∈ cluster.network[position]?,
    (cluster.peers msg.to_id).raft_group.role ≠ .Leader
  | _ => True

instance Unled.decidable (cluster : Cluster) (action : Action) :
    Decidable (cluster.Unled action) := by
  cases action <;> dsimp only [Unled] <;> infer_instance

end Cluster

end hologram_kv
