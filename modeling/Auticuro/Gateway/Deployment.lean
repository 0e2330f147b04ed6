import Auticuro.Gateway.RaftCluster
import Auticuro.Server.Replicas

open Run
open gateway_framework.raft_cluster (Gateway Request)

namespace firm_wallet

open balance_calculator errors internal_servicepb rocksdb_state server service ledger

namespace service

def RpcResponse.success (self : RpcResponse) : Bool :=
  self.error.isNone

/-- Without an error the `unwrap` fails. -/
def RpcResponse.has_not_leader_error (self : RpcResponse) : Option Bool :=
  self.error.map fun error =>
    match error with
    | .not_leader _ => true
    | .other_error _ => false

/-- The condition under which the gateway returns a response. -/
def RpcResponse.is_returned (self : RpcResponse) : Option Bool :=
  if self.success then some true else self.has_not_leader_error.map (!·)

theorem RpcResponse.is_returned_eq_true {self : RpcResponse}
    (hreturned : self.is_returned = some true) (message : String) :
    self.error ≠ some (.not_leader message) := by
  intro herror
  simp [is_returned, success, has_not_leader_error, herror] at hreturned

end service

namespace deployment

/-- A call of the gateway: the generation and the node it was made with, how often
that node had crashed, and its task there. -/
structure Call where
  generation : Nat
  node : Nat
  epoch : Nat
  rpc : Nat
  deriving DecidableEq

/-- A write request of a client: the calls that have failed, the one that is under
way, and what the gateway has returned. -/
structure Client where
  payload : CommandPayload
  failed : List Call
  call : Option Call
  response : Option RpcResponse

/-- A replica, and how often it has crashed. -/
structure Member where
  server : Server
  epoch : Nat

/-- The gateway and the replicas that it calls by their number. -/
structure Deployment where
  gateway : Gateway Nat
  members : Nat → Member
  clients : Nat → Option Client

inductive Action where
  | arrive (request : Nat) (payload : CommandPayload)
  | gateway (action : gateway_framework.raft_cluster.Action)
  | send (request process_time_in_sec : Nat)
  | respond (request : Nat)
  | fail (request : Nat)
  | member (node : Nat) (action : server.Action)

/-- What a request does inside `get_or_reset_leader`, or when its future is
dropped. -/
def resets : gateway_framework.raft_cluster.Action → Bool
  | .arrive _ => false
  | .answered _ _ => false
  | _ => true

namespace Deployment

def new (batch_size : Nat) : Deployment where
  gateway := Gateway.new Nat
  members := fun _ => { server := Server.start_up batch_size RocksDBState.empty, epoch := 0 }
  clients := fun _ => none

def set_client (self : Deployment) (request : Nat) (client : Client) : Deployment :=
  { self with clients := Function.update self.clients request (some client) }

def set_member (self : Deployment) (node : Nat) (member : Member) : Deployment :=
  { self with members := Function.update self.members node member }

variable (B : BigDecimal) (node_addresses : List String) (connect : String → Nat)

/-- The call reaches the service of the leader. -/
def send (self : Deployment) (request process_time_in_sec : Nat) : Option Deployment :=
  match self.gateway.requests request, self.clients request with
  | some (.calling node generation), some ⟨payload, failed, none, response⟩ =>
    let member := self.members node
    (member.server.step B none (.call payload process_time_in_sec)).map fun server =>
      (self.set_member node { member with server := server }).set_client request
        ⟨payload, failed, some ⟨generation, node, member.epoch, member.server.rpcs.length⟩,
          response⟩
  | _, _ => none

/-- The call ends without a response that is returned. -/
def resend (self : Deployment) (request : Nat) (client : Client) : Option Deployment :=
  (self.gateway.step node_addresses connect (.answered request false)).map fun gateway =>
    { self.set_client request
        { client with failed := client.failed ++ client.call.toList, call := none } with
      gateway := gateway }

/-- The response of the task comes back, if the node has not crashed since. -/
def respond (self : Deployment) (request : Nat) : Option Deployment := do
  let client ← self.clients request
  let call ← client.call
  if (self.members call.node).epoch = call.epoch then
    let rpc ← (self.members call.node).server.rpcs[call.rpc]?
    let response ← rpc.response
    if ← response.is_returned then
      (self.gateway.step node_addresses connect (.answered request true)).map fun gateway =>
        { self.set_client request { client with response := some response } with
          gateway := gateway }
    else
      self.resend node_addresses connect request client
  else
    none

def step (self : Deployment) : Action → Option Deployment
  | .arrive request payload =>
    (self.gateway.step node_addresses connect (.arrive request)).map fun gateway =>
      { self.set_client request ⟨payload, [], none, none⟩ with gateway := gateway }
  | .gateway action =>
    if resets action then
      (self.gateway.step node_addresses connect action).map fun gateway =>
        { self with gateway := gateway }
    else
      none
  | .send request process_time_in_sec => self.send B request process_time_in_sec
  | .respond request => self.respond node_addresses connect request
  | .fail request =>
    (self.clients request).bind fun client => self.resend node_addresses connect request client
  | .member node action =>
    let member := self.members node
    (member.server.step B none action).map fun server =>
      self.set_member node
        { server := server,
          epoch :=
            match action with
            | .node .crash => member.epoch + 1
            | _ => member.epoch }

/-- What can happen in one step. -/
inductive Steps (self : Deployment) : Action → Deployment → Prop where
  | arrive {request : Nat} {payload : CommandPayload} {gateway : Gateway Nat}
      (hgateway : self.gateway.step node_addresses connect (.arrive request) = some gateway) :
      Steps self (.arrive request payload)
        { self.set_client request ⟨payload, [], none, none⟩ with gateway := gateway }
  | gateway {action : gateway_framework.raft_cluster.Action} {gateway : Gateway Nat}
      (hresets : resets action = true)
      (hgateway : self.gateway.step node_addresses connect action = some gateway) :
      Steps self (.gateway action) { self with gateway := gateway }
  | send {request process_time_in_sec node generation : Nat} {payload : CommandPayload}
      {failed : List Call} {response : Option RpcResponse} {server : Server}
      (hrequest : self.gateway.requests request = some (.calling node generation))
      (hclient : self.clients request = some ⟨payload, failed, none, response⟩)
      (hserver : (self.members node).server.step B none (.call payload process_time_in_sec) =
        some server) :
      Steps self (.send request process_time_in_sec)
        ((self.set_member node { self.members node with server := server }).set_client request
          ⟨payload, failed, some ⟨generation, node, (self.members node).epoch,
            (self.members node).server.rpcs.length⟩, response⟩)
  | returned {request : Nat} {client : Client} {call : Call} {rpc : Rpc} {response : RpcResponse}
      {gateway : Gateway Nat} (hclient : self.clients request = some client)
      (hcall : client.call = some call) (hepoch : (self.members call.node).epoch = call.epoch)
      (hrpc : (self.members call.node).server.rpcs[call.rpc]? = some rpc)
      (hresponse : rpc.response = some response) (hreturned : response.is_returned = some true)
      (hgateway : self.gateway.step node_addresses connect (.answered request true) =
        some gateway) :
      Steps self (.respond request)
        { self.set_client request { client with response := some response } with
          gateway := gateway }
  | resend {action : Action} {request : Nat} {client : Client} {gateway : Gateway Nat}
      (hclient : self.clients request = some client)
      (hgateway : self.gateway.step node_addresses connect (.answered request false) =
        some gateway) :
      Steps self action
        { self.set_client request
            { client with failed := client.failed ++ client.call.toList, call := none } with
          gateway := gateway }
  | crash {node : Nat} {server : Server}
      (hserver : (self.members node).server.step B none (.node .crash) = some server) :
      Steps self (.member node (.node .crash))
        (self.set_member node { server := server, epoch := (self.members node).epoch + 1 })
  | member {node : Nat} {action : server.Action} {server : Server}
      (hcrash : action ≠ .node .crash)
      (hserver : (self.members node).server.step B none action = some server) :
      Steps self (.member node action)
        (self.set_member node { self.members node with server := server })

variable {B node_addresses connect} {self after : Deployment}

theorem resend_spec {action : Action} {request : Nat} {client : Client}
    (hclient : self.clients request = some client)
    (hresend : self.resend node_addresses connect request client = some after) :
    Steps B node_addresses connect self action after := by
  obtain ⟨gateway, hgateway, rfl⟩ := Option.map_eq_some_iff.mp hresend
  exact .resend hclient hgateway

theorem respond_spec {request : Nat}
    (hrespond : self.respond node_addresses connect request = some after) :
    Steps B node_addresses connect self (.respond request) after := by
  obtain ⟨client, hclient, hrespond⟩ := Option.bind_eq_some_iff.mp hrespond
  obtain ⟨call, hcall, hrespond⟩ := Option.bind_eq_some_iff.mp hrespond
  split at hrespond
  · rename_i hepoch
    obtain ⟨rpc, hrpc, hrespond⟩ := Option.bind_eq_some_iff.mp hrespond
    obtain ⟨response, hresponse, hrespond⟩ := Option.bind_eq_some_iff.mp hrespond
    obtain ⟨returned, hreturned, hrespond⟩ := Option.bind_eq_some_iff.mp hrespond
    split at hrespond
    · rename_i htrue
      rw [htrue] at hreturned
      obtain ⟨gateway, hgateway, rfl⟩ := Option.map_eq_some_iff.mp hrespond
      exact .returned hclient hcall hepoch hrpc hresponse hreturned hgateway
    · exact resend_spec hclient hrespond
  · cases hrespond

theorem steps {action : Action} (hstep : self.step B node_addresses connect action = some after) :
    Steps B node_addresses connect self action after := by
  cases action with
  | arrive request payload =>
    obtain ⟨gateway, hgateway, rfl⟩ := Option.map_eq_some_iff.mp hstep
    exact .arrive hgateway
  | gateway action =>
    simp only [step] at hstep
    split at hstep
    · rename_i hresets
      obtain ⟨gateway, hgateway, rfl⟩ := Option.map_eq_some_iff.mp hstep
      exact .gateway hresets hgateway
    · cases hstep
  | send request process_time_in_sec =>
    simp only [step, send] at hstep
    split at hstep
    · rename_i hrequest hclient
      obtain ⟨server, hserver, rfl⟩ := Option.map_eq_some_iff.mp hstep
      exact .send hrequest hclient hserver
    · cases hstep
  | respond request => exact respond_spec hstep
  | fail request =>
    obtain ⟨client, hclient, hresend⟩ := Option.bind_eq_some_iff.mp hstep
    exact resend_spec hclient hresend
  | member node action =>
    obtain ⟨server, hserver, rfl⟩ := Option.map_eq_some_iff.mp hstep
    split
    · exact .crash hserver
    · rename_i hcrash
      exact .member hcrash hserver

/-- Every replica is one of the cluster of this log. -/
def Replicates (log : Log) (self : Deployment) : Action → Prop
  | .member node action => (self.members node).server.Replicates log action
  | _ => True

instance (log : Log) (self : Deployment) (action : Action) :
    Decidable (self.Replicates log action) := by
  cases action <;> dsimp only [Deployment.Replicates] <;> infer_instance

end Deployment

end deployment

end firm_wallet
