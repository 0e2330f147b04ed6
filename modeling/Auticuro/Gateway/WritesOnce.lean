import Auticuro.Gateway.Deployment
import Auticuro.Gateway.LeaderResets

open Run
open firm_wallet.balance_calculator firm_wallet.errors firm_wallet.internal_servicepb
open firm_wallet.rocksdb_state firm_wallet.server firm_wallet.service firm_wallet.ledger
open firm_wallet.deployment
open gateway_framework.raft_cluster (Gateway Request)

namespace gateway_framework.raft_cluster

variable {Node : Type}

/-- The least generation that the request can still be given. -/
def Request.least : Request Node → Nat
  | .waiting reset_leader_counter => reset_leader_counter
  | .probing reset_leader_counter _ _ => reset_leader_counter
  | .connecting reset_leader_counter _ _ _ => reset_leader_counter
  | .calling _ generation => generation
  | .gone => 0

/-- A request that has not called a node yet. -/
def Request.resetting : Request Node → Bool
  | .calling _ _ => false
  | .gone => false
  | _ => true

/-- How a request moves on while it resets the leader: it gets nearer to a node
of a generation that it has not failed with, or leaves. -/
inductive Request.Moves : Request Node → Request Node → Prop where
  | stay (state : Request Node) : Moves state state
  | reset {state next : Request Node} (hresetting : state.resetting = true)
      (hle : state.least ≤ next.least) : Moves state next
  | leave (state : Request Node) : Moves state .gone

namespace Gateway

variable {node_addresses : List String} {connect : String → Node} {self next : Gateway Node}

theorem moves_of_update {requests : Nat → Option (Request Node)} {request other : Nat}
    {state moved before : Request Node} (hrequest : requests request = some state)
    (hbefore : requests other = some before) (hmoves : state.Moves moved) :
    ∃ found, Function.update requests request (some moved) other = some found ∧
      before.Moves found := by
  by_cases hother : other = request
  · subst hother
    cases hrequest.symm.trans hbefore
    exact ⟨moved, Function.update_self .., hmoves⟩
  · exact ⟨before, (Function.update_of_ne hother ..).trans hbefore, .stay before⟩

/-- Inside `get_or_reset_leader` no request goes back. -/
theorem Consistent.resets_moves (hself : self.Consistent) {action : Action}
    (hresets : resets action = true)
    (hstep : self.step node_addresses connect action = some next) {request : Nat}
    {before : Request Node} (hbefore : self.requests request = some before) :
    ∃ found, next.requests request = some found ∧ before.Moves found := by
  cases action with
  | arrive | answered => cases hresets
  | lock current =>
    simp only [Gateway.step] at hstep
    split at hstep
    · rename_i counter hrequest hguard
      cases hstep
      change ∃ found, (self.get_or_reset_leader current counter).requests request = _ ∧ _
      unfold get_or_reset_leader
      split
      · split
        · rename_i hle
          exact moves_of_update hrequest hbefore (.reset rfl hle)
        · exact moves_of_update hrequest hbefore (.reset rfl le_rfl)
      · exact moves_of_update hrequest hbefore (.reset rfl le_rfl)
    · cases hstep
  | probed current answer =>
    simp only [Gateway.step] at hstep
    split at hstep
    · rename_i counter node_id begun hrequest
      cases hstep
      change ∃ found, (self.probe_node node_addresses current counter node_id begun
        answer).requests request = _ ∧ _
      unfold probe_node
      split
      · exact moves_of_update hrequest hbefore (.leave _)
      · split
        · exact moves_of_update hrequest hbefore (.reset rfl le_rfl)
        · split
          · exact moves_of_update hrequest hbefore (.leave _)
          · exact moves_of_update hrequest hbefore (.reset rfl le_rfl)
    · cases hstep
  | connected current =>
    simp only [Gateway.step] at hstep
    split at hstep
    · rename_i counter leader_id node_id begun hrequest
      split at hstep
      · cases hstep
        exact moves_of_update hrequest hbefore (.leave _)
      · cases hstep
        have hle := (hself.known current _ hrequest).2
        exact moves_of_update hrequest hbefore (.reset rfl hle)
    · cases hstep
  | dropped current =>
    simp only [Gateway.step] at hstep
    split at hstep
    · rename_i state hrequest
      cases hstep
      exact moves_of_update hrequest hbefore (.leave state)
    · cases hstep

theorem Consistent.of_step (hself : self.Consistent) {action : Action}
    (hstep : self.step node_addresses connect action = some next) : next.Consistent := by
  obtain ⟨after, hafter, rfl⟩ := step_spec hstep
  exact hself.step hafter

theorem arrive_spec {request : Nat}
    (hstep : self.step node_addresses connect (.arrive request) = some next) :
    next.requests = Function.update self.requests request (some (.waiting 0)) := by
  simp only [step] at hstep
  split at hstep
  · cases hstep
    rfl
  · cases hstep

theorem answered_spec {request : Nat} {accepted : Bool}
    (hstep : self.step node_addresses connect (.answered request accepted) = some next) :
    ∃ node generation, self.requests request = some (.calling node generation) ∧
      next.requests = Function.update self.requests request
        (some (if accepted then .gone else .waiting (generation + 1))) := by
  simp only [step] at hstep
  split at hstep
  · rename_i node generation hrequest
    refine ⟨node, generation, hrequest, ?_⟩
    split at hstep
    · rename_i haccepted
      cases hstep
      rw [if_pos haccepted]
      rfl
    · rename_i haccepted
      cases hstep
      rw [if_neg haccepted]
      rfl
  · cases hstep

end Gateway

end gateway_framework.raft_cluster

namespace firm_wallet.server

variable {B : BigDecimal} {self after : Server} {action : Action}

theorem Server.set_rpc_command {number other : Nat} {rpc found new : Rpc}
    (hrpc : self.rpcs[number]? = some rpc) (hcommand : new.command = rpc.command)
    (hfound : self.rpcs[other]? = some found) :
    ∃ kept, (self.set_rpc number new).rpcs[other]? = some kept ∧
      kept.command = found.command := by
  by_cases hother : number = other
  · subst hother
    cases hrpc.symm.trans hfound
    have hless := (List.getElem?_eq_some_iff.mp hrpc).1
    exact ⟨new, List.getElem?_set_self hless, hcommand⟩
  · exact ⟨found, (List.getElem?_set_ne hother).trans hfound, rfl⟩

/-- A task keeps its number and its command until a crash. -/
theorem Server.step_command (hcrash : action ≠ .node .crash)
    (hstep : self.step B none action = some after) {number : Nat} {rpc : Rpc}
    (hrpc : self.rpcs[number]? = some rpc) :
    ∃ kept, after.rpcs[number]? = some kept ∧ kept.command = rpc.command := by
  cases Server.steps hstep with
  | crash => exact absurd rfl hcrash
  | call payload process_time_in_sec =>
    have hless := (List.getElem?_eq_some_iff.mp hrpc).1
    exact ⟨rpc, (List.getElem?_append_left hless).trans hrpc, rfl⟩
  | refused hfound | accepted hfound | respond hfound => exact set_rpc_command hfound rfl hrpc
  | _ => exact ⟨rpc, hrpc, rfl⟩

theorem Server.call_rpc {payload : CommandPayload} {process_time_in_sec : Nat}
    (hstep : self.step B none (.call payload process_time_in_sec) = some after) :
    after.rpcs[self.rpcs.length]? =
      some { command := Command.from_payload payload process_time_in_sec } := by
  cases Server.steps hstep with
  | call => exact List.getElem?_concat_length

end firm_wallet.server

namespace firm_wallet.deployment

/-- The calls of a client in the order in which they were made. -/
def Client.calls (self : Client) : List Call :=
  self.failed ++ self.call.toList

/-- A task for a request of this client. -/
def Client.Asks (client : Client) (rpc : Rpc) : Prop :=
  ∃ process_time_in_sec, rpc.command = Command.from_payload client.payload process_time_in_sec

/-- A client and the state of its request in the gateway: every call was made with
a later generation than the one before, and the next one will be. -/
structure Client.At (client : Client) (state : Request Nat) : Prop where
  increasing : client.calls.Pairwise fun first second => first.generation < second.generation
  failed : state ≠ .gone → ∀ call ∈ client.failed, call.generation < state.least
  call : ∀ call, client.call = some call →
    state = .calling call.node call.generation ∨ state = .gone

/-- A call under way is a task of the node unless that has crashed. -/
def Client.Called (members : Nat → Member) (client : Client) : Prop :=
  ∀ call, client.call = some call → call.epoch ≤ (members call.node).epoch ∧
    (call.epoch = (members call.node).epoch →
      ∃ rpc, (members call.node).server.rpcs[call.rpc]? = some rpc ∧ client.Asks rpc)

/-- What was returned is a response of a replica to a request of this client. -/
def Client.Returned (B : BigDecimal) (log : Log) (client : Client) : Prop :=
  ∀ response, client.response = some response → response.is_returned = some true ∧
    ∃ (server : Server) (rpc : Rpc), server.Follows B log ∧ rpc ∈ server.rpcs ∧
      rpc.response = some response ∧ client.Asks rpc

structure Deployment.Sound (B : BigDecimal) (log : Log) (deployment : Deployment) : Prop where
  gateway : deployment.gateway.Consistent
  members : ∀ node, (deployment.members node).server.Follows B log
  at_state : ∀ request client, deployment.clients request = some client →
    ∃ state, deployment.gateway.requests request = some state ∧ client.At state
  called : ∀ request client, deployment.clients request = some client →
    client.Called deployment.members
  returned : ∀ request client, deployment.clients request = some client →
    client.Returned B log

namespace Client.At

variable {client : Client} {state next : Request Nat}

theorem new (payload : CommandPayload) : At ⟨payload, [], none, none⟩ (.waiting 0) where
  increasing := List.Pairwise.nil
  failed := by rintro _ call ⟨⟩
  call := by rintro call ⟨⟩

theorem moves (hclient : client.At state) (hmoves : state.Moves next) : client.At next := by
  cases hmoves with
  | stay => exact hclient
  | reset hresetting hle =>
    refine ⟨hclient.increasing, ?_, ?_⟩
    · intro _ call hcall
      refine lt_of_lt_of_le (hclient.failed ?_ call hcall) hle
      rintro rfl
      cases hresetting
    · intro call hcall
      obtain rfl | rfl := hclient.call call hcall <;> cases hresetting
  | leave => exact ⟨hclient.increasing, fun hgone => absurd rfl hgone, fun _ _ => .inr rfl⟩

theorem send {payload : CommandPayload} {failed : List Call} {response : Option RpcResponse}
    {node generation : Nat}
    (hclient : At ⟨payload, failed, none, response⟩ (.calling node generation))
    (epoch rpc : Nat) :
    At ⟨payload, failed, some ⟨generation, node, epoch, rpc⟩, response⟩
      (.calling node generation) where
  increasing := by
    have hfailed := hclient.increasing
    rw [Client.calls, Option.toList_none, List.append_nil] at hfailed
    refine List.pairwise_append.mpr ⟨hfailed, List.pairwise_singleton _ _, ?_⟩
    intro call hcall last hlast
    rw [List.mem_singleton.mp hlast]
    exact hclient.failed (by simp) call hcall
  failed := hclient.failed
  call := by
    rintro call ⟨⟩
    exact .inl rfl

theorem resend {node generation : Nat} (hclient : client.At (.calling node generation)) :
    At { client with failed := client.failed ++ client.call.toList, call := none }
      (.waiting (generation + 1)) where
  increasing := by
    change ((client.failed ++ client.call.toList) ++ []).Pairwise _
    rw [List.append_nil]
    exact hclient.increasing
  failed := by
    intro _ call hcall
    obtain hcall | hcall := List.mem_append.mp hcall
    · exact Nat.lt_succ_of_lt (hclient.failed (by simp) call hcall)
    · obtain hsame | hgone := hclient.call call (Option.mem_toList.mp hcall)
      · cases hsame
        exact Nat.lt_succ_self _
      · cases hgone
  call := by rintro call ⟨⟩

end Client.At

theorem Client.Called.set_member {members : Nat → Member} {client : Client}
    (hclient : client.Called members) (node : Nat) {member : Member}
    (hepoch : (members node).epoch ≤ member.epoch)
    (hkept : member.epoch = (members node).epoch → ∀ (number : Nat) (rpc : Rpc),
      (members node).server.rpcs[number]? = some rpc →
        ∃ kept, member.server.rpcs[number]? = some kept ∧ kept.command = rpc.command) :
    client.Called (Function.update members node member) := by
  intro call hcall
  obtain ⟨hle, hrpc⟩ := hclient call hcall
  by_cases hnode : call.node = node
  · subst hnode
    rw [Function.update_self]
    refine ⟨hle.trans hepoch, ?_⟩
    intro hsame
    have hbefore : member.epoch = (members call.node).epoch := by omega
    obtain ⟨rpc, hfound, process_time_in_sec, hcommand⟩ := hrpc (hsame.trans hbefore)
    obtain ⟨kept, hkept, hsame⟩ := hkept hbefore call.rpc rpc hfound
    exact ⟨kept, hkept, process_time_in_sec, hsame.trans hcommand⟩
  · rw [Function.update_of_ne hnode]
    exact ⟨hle, hrpc⟩

namespace Deployment.Sound

variable {B : BigDecimal} {log : Log} {node_addresses : List String} {connect : String → Nat}
variable {self after : Deployment}

theorem new (batch_size : Nat) : (Deployment.new batch_size).Sound B log where
  gateway := .new
  members := fun _ => ⟨.start_up batch_size .empty, .empty batch_size⟩
  at_state := by rintro request client ⟨⟩
  called := by rintro request client ⟨⟩
  returned := by rintro request client ⟨⟩

section

variable (hself : self.Sound B log)
include hself

/-- A step of the gateway for one client leaves the others where they are. -/
theorem set_client {request : Nat} {client : Client} {gateway : Gateway Nat}
    (hgateway : gateway.Consistent) {state : Request Nat}
    (hrequests : gateway.requests = Function.update self.gateway.requests request (some state))
    (hat : client.At state) (hcalled : client.Called self.members)
    (hreturned : client.Returned B log) :
    { self.set_client request client with gateway := gateway }.Sound B log := by
  have hcases : ∀ other found, Function.update self.clients request (some client) other =
      some found → (other = request ∧ found = client) ∨
        (other ≠ request ∧ self.clients other = some found) := by
    intro other found hfound
    rw [Function.update_apply] at hfound
    split at hfound
    · exact .inl ⟨‹_›, (Option.some.inj hfound).symm⟩
    · exact .inr ⟨‹_›, hfound⟩
  refine ⟨hgateway, hself.members, ?_, ?_, ?_⟩
  · intro other found hfound
    change ∃ state, gateway.requests other = some state ∧ _
    rw [hrequests]
    obtain ⟨rfl, rfl⟩ | ⟨hother, hbefore⟩ := hcases other found hfound
    · exact ⟨state, Function.update_self .., hat⟩
    · rw [Function.update_of_ne hother]
      exact hself.at_state other found hbefore
  · intro other found hfound
    obtain ⟨rfl, rfl⟩ | ⟨_, hbefore⟩ := hcases other found hfound
    · exact hcalled
    · exact hself.called other found hbefore
  · intro other found hfound
    obtain ⟨rfl, rfl⟩ | ⟨_, hbefore⟩ := hcases other found hfound
    · exact hreturned
    · exact hself.returned other found hbefore

/-- A step of one replica. -/
theorem set_member {node : Nat} {member : Member} (hmember : member.server.Follows B log)
    (hepoch : (self.members node).epoch ≤ member.epoch)
    (hkept : member.epoch = (self.members node).epoch → ∀ (number : Nat) (rpc : Rpc),
      (self.members node).server.rpcs[number]? = some rpc →
        ∃ kept, member.server.rpcs[number]? = some kept ∧ kept.command = rpc.command) :
    (self.set_member node member).Sound B log where
  gateway := hself.gateway
  members := by
    intro other
    change (Function.update self.members node member other).server.Follows B log
    by_cases hother : other = node
    · subst hother
      rw [Function.update_self]
      exact hmember
    · rw [Function.update_of_ne hother]
      exact hself.members other
  at_state := hself.at_state
  called := by
    intro request client hclient
    exact (hself.called request client hclient).set_member node hepoch hkept
  returned := hself.returned

/-- The state of a client whose call is under way. -/
theorem at_calling {request node generation : Nat} {client : Client}
    (hclient : self.clients request = some client)
    (hrequest : self.gateway.requests request = some (.calling node generation)) :
    client.At (.calling node generation) := by
  obtain ⟨state, hstate, hat⟩ := hself.at_state request client hclient
  cases hstate.symm.trans hrequest
  exact hat

theorem send {request process_time_in_sec node generation : Nat} {payload : CommandPayload}
    {failed : List Call} {response : Option RpcResponse} {server : Server}
    (hrequest : self.gateway.requests request = some (.calling node generation))
    (hclient : self.clients request = some ⟨payload, failed, none, response⟩)
    (hserver : (self.members node).server.step B none (.call payload process_time_in_sec) =
      some server) :
    ((self.set_member node { self.members node with server := server }).set_client request
      ⟨payload, failed, some ⟨generation, node, (self.members node).epoch,
        (self.members node).server.rpcs.length⟩, response⟩).Sound B log := by
  have hreplicates : (self.members node).server.Replicates log
      (.call payload process_time_in_sec) := trivial
  have hmember :
      (self.set_member node { self.members node with server := server }).Sound B log := by
    refine hself.set_member ((hself.members node).step hreplicates hserver) le_rfl ?_
    intro _ number rpc hrpc
    exact Server.step_command (by simp) hserver hrpc
  have hreturned : Client.Returned B log ⟨payload, failed, none, response⟩ :=
    hself.returned request _ hclient
  have hrequests : self.gateway.requests = Function.update self.gateway.requests request
      (some (.calling node generation)) := by
    rw [← hrequest, Function.update_eq_self]
  refine hmember.set_client hself.gateway hrequests
    ((hself.at_calling hclient hrequest).send _ _) ?_ hreturned
  intro call hcall
  cases hcall
  have hcalled : Function.update self.members node { self.members node with server := server }
      node = { self.members node with server := server } := Function.update_self ..
  change _ ≤ (Function.update self.members node _ node).epoch ∧
    (_ = (Function.update self.members node _ node).epoch →
      ∃ rpc, (Function.update self.members node _ node).server.rpcs[_]? = some rpc ∧ _)
  rw [hcalled]
  exact ⟨le_rfl, fun _ => ⟨_, Server.call_rpc hserver, process_time_in_sec, rfl⟩⟩

theorem step {action : Action} (hreplicates : self.Replicates log action)
    (hstep : self.step B node_addresses connect action = some after) : after.Sound B log := by
  cases Deployment.steps hstep with
  | arrive hgateway =>
    exact hself.set_client (hself.gateway.of_step hgateway) (Gateway.arrive_spec hgateway)
      (.new _) (by rintro call ⟨⟩) (by rintro response ⟨⟩)
  | gateway hresets hgateway =>
    refine ⟨hself.gateway.of_step hgateway, hself.members, ?_, hself.called, hself.returned⟩
    intro request client hclient
    obtain ⟨state, hstate, hat⟩ := hself.at_state request client hclient
    obtain ⟨found, hfound, hmoves⟩ := hself.gateway.resets_moves hresets hgateway hstate
    exact ⟨found, hfound, hat.moves hmoves⟩
  | send hrequest hclient hserver => exact hself.send hrequest hclient hserver
  | @returned request client call rpc response gateway hclient hcall hepoch hrpc hresponse
      hreturned hgateway =>
    obtain ⟨node, generation, hrequest, hrequests⟩ := Gateway.answered_spec hgateway
    have hat := (hself.at_calling hclient hrequest).moves (.leave _)
    refine hself.set_client (hself.gateway.of_step hgateway) hrequests
      ⟨hat.increasing, hat.failed, hat.call⟩ (hself.called request client hclient) ?_
    intro other hother
    cases hother
    obtain ⟨found, hfound, hasks⟩ := (hself.called request client hclient call hcall).2 hepoch.symm
    cases hrpc.symm.trans hfound
    exact ⟨hreturned, _, rpc, hself.members call.node, List.mem_of_getElem? hrpc, hresponse, hasks⟩
  | @resend _ request client gateway hclient hgateway =>
    obtain ⟨node, generation, hrequest, hrequests⟩ := Gateway.answered_spec hgateway
    exact hself.set_client (hself.gateway.of_step hgateway) hrequests
      (hself.at_calling hclient hrequest).resend (by rintro call ⟨⟩)
      (hself.returned request client hclient)
  | @crash node server hserver =>
    have hcrash : (self.members node).server.Replicates log (.node .crash) := hreplicates
    refine hself.set_member ((hself.members node).step hcrash hserver) (Nat.le_succ _) ?_
    intro hsame
    exact absurd hsame (Nat.succ_ne_self _)
  | @member node action server hcrash hserver =>
    refine hself.set_member ((hself.members node).step hreplicates hserver) le_rfl ?_
    intro _ number rpc hrpc
    exact Server.step_command hcrash hserver hrpc

end

theorem of_run {batch_size : Nat} {actions : List Action} {last : Deployment}
    (halong : Along (Deployment.step B node_addresses connect) (Deployment.Replicates log)
      (Deployment.new batch_size) actions)
    (hrun : run (Deployment.step B node_addresses connect) (Deployment.new batch_size) actions =
      some last) : last.Sound B log :=
  run_invariant_along (fun _ _ _ hself hreplicates hstep => hself.step hreplicates hstep)
    (new batch_size) halong hrun

end Deployment.Sound

/-- A response that the gateway returns has the fields of an event of the request,
or an error that is not the one of a node that does not lead. -/
theorem Client.Returned.outcome {B : BigDecimal} {log : Log} {client : Client}
    (hclient : client.Returned B log) {response : RpcResponse}
    (hresponse : client.response = some response) :
    (∃ reason, response.event_payload = none ∧ response.error = some (.other_error reason)) ∨
      (response.error = none ∧ response.event_payload.isSome) := by
  obtain ⟨hreturned, server, rpc, hserver, hrpc, hresponse, _⟩ := hclient response hresponse
  cases hserver.sound.settled hrpc hresponse with
  | event _ event _ _ _ _ _ hpayload herror => exact .inr ⟨herror, by rw [hpayload]; rfl⟩
  | failure reason _ hpayload herror => exact .inl ⟨reason, hpayload, herror⟩
  | refusal error _ hpayload herror =>
    have hother := RpcResponse.is_returned_eq_true hreturned error
    rw [herror] at hother
    refine .inl ⟨.text error, hpayload, herror.trans ?_⟩
    unfold CommonError.into_proto at hother ⊢
    by_cases hleader : is_not_leader_error error
    · simp [hleader] at hother
    · simp [hleader]

/-- Writes through the gateway take effect once. However often a request is sent
again, after failures of gRPC, after leader changes, to whatever replicas and with
the command any number of times in the log, each call is made with a later
generation, and what the gateway returns is an error other than that of a node that
does not lead, or the one event of the dedup id: the ledger of the log has it from its
entry on, every replica that has applied the entry has it, no replica has another one,
and all requests with the dedup id that succeed get this response. -/
theorem Deployment.writes_take_effect_once (B : BigDecimal) (log : Log)
    (node_addresses : List String) (connect : String → Nat) (batch_size : Nat)
    (actions : List Action) (last : Deployment)
    (halong : Along (Deployment.step B node_addresses connect) (Deployment.Replicates log)
      (Deployment.new batch_size) actions)
    (hrun : run (Deployment.step B node_addresses connect) (Deployment.new batch_size) actions =
      some last)
    (request : Nat) (client : Client) (hclient : last.clients request = some client) :
    (client.calls.Pairwise fun first second => first.generation < second.generation) ∧
    ∀ response, client.response = some response →
      (∃ reason, response.event_payload = none ∧ response.error = some (.other_error reason)) ∨
      ∃ event, response.error = none ∧ response.event_payload = some event.payload ∧
        event.header.command_id = client.payload.command_id ∧
        event.payload.kind = client.payload.kind ∧
        (∃ ledger, Ledger.new.apply_log B (log.upto event.header.log_index) = some ledger ∧
          ledger.event_at event.header.seq_num = some event) ∧
        (∀ node, event.header.log_index ≤
          (last.members node).server.node.wallet.statemachine.applied_index →
            (last.members node).server.node.wallet.statemachine.get_event event.header.seq_num =
              some event) ∧
        (∀ node seq_num found,
          (last.members node).server.node.wallet.statemachine.get_event seq_num = some found →
            found.header.command_id = client.payload.command_id → found = event) ∧
        ∀ other_request other other_response, last.clients other_request = some other →
          other.payload.command_id = client.payload.command_id →
          other.response = some other_response → other_response.event_payload.isSome →
            other_response = response := by
  have hlast := Sound.of_run halong hrun
  obtain ⟨state, _, hat⟩ := hlast.at_state request client hclient
  refine ⟨hat.increasing, ?_⟩
  intro response hresponse
  have hreturned := hlast.returned request client hclient
  obtain hfailure | ⟨herror, hsome⟩ := hreturned.outcome hresponse
  · exact .inl hfailure
  obtain ⟨payload, hpayload⟩ := Option.isSome_iff_exists.mp hsome
  obtain ⟨_, server, rpc, hserver, hrpc, hanswer, process_time_in_sec, hcommand⟩ :=
    hreturned response hresponse
  obtain ⟨event, rfl, hfulfils, hevent, _⟩ := hserver.event_of_response hrpc hanswer hpayload
  rw [hcommand] at hfulfils
  refine .inr ⟨event, herror, hpayload, hfulfils.1, hfulfils.2, hserver.node.event_of_log hevent,
    ?_, ?_, ?_⟩
  · intro node happlied
    exact hserver.node.events_agree (hlast.members node).node hevent happlied
  · intro node seq_num found hfound hid
    exact (hserver.node.event_unique (hlast.members node).node hevent hfound
      (hfulfils.1.trans hid.symm)).symm
  · intro other_request other other_response hother hid hother_response hother_some
    obtain ⟨other_payload, hother_payload⟩ := Option.isSome_iff_exists.mp hother_some
    obtain ⟨_, other_server, other_rpc, hother_server, hother_rpc, hother_answer, _,
      hother_command⟩ := hlast.returned other_request other hother other_response hother_response
    have hids : other_rpc.command.command_id = rpc.command.command_id := by
      rw [hcommand, hother_command]
      exact hid
    exact (hserver.same_response hother_server hrpc hother_rpc hids hanswer hpayload hother_answer
      hother_payload).1

def twoNodes : List String := ["1", "2"]

def nodeNumber (address : String) : Nat :=
  if address = "1" then 1 else 2

/-- The first call times out although its command is in the log; the second one
goes to another node. -/
def failoverTrace : List Action :=
  [.arrive 0 (creditAccount "1" "a" "5").payload, .gateway (.lock 0),
    .gateway (.probed 0 (some 1)), .gateway (.connected 0), .send 0 0,
    .member 1 (.accepted 0 ⟨6, 0⟩ 0), .fail 0, .gateway (.lock 0), .gateway (.probed 0 (some 2)),
    .gateway (.connected 0), .send 0 7, .member 2 (.accepted 0 ⟨7, 0⟩ 0),
    .member 2 (.node (.receive (6, resentLog 6)))] ++
    List.replicate 3 (.member 2 (.node .apply_step)) ++
    [.member 2 (.node (.receive (7, resentLog 7))), .member 2 (.node .apply_step),
      .member 2 (.node .apply_step), .member 2 (.broker 0), .member 2 (.broker 0),
      .member 2 (.respond 0), .respond 0]

theorem Deployment.writes_take_effect_once_after_failover :
    ∃ last client response event,
      run (Deployment.step plainDecimal twoNodes nodeNumber) (Deployment.new 100) failoverTrace =
        some last ∧
      last.clients 0 = some client ∧ client.calls.length = 2 ∧
      client.response = some response ∧ response.event_payload = some event.payload ∧
      (∃ ledger, Ledger.new.apply_log plainDecimal (resentLog.upto event.header.log_index) =
        some ledger ∧ ledger.event_at event.header.seq_num = some event) ∧
      ∀ node seq_num found,
        (last.members node).server.node.wallet.statemachine.get_event seq_num = some found →
          found.header.command_id = client.payload.command_id → found = event := by
  obtain ⟨last, hrun, client, hclient, response, hresponse, hcalls, hsome⟩ :
      ∃ last ∈ run (Deployment.step plainDecimal twoNodes nodeNumber) (Deployment.new 100)
        failoverTrace, ∃ client ∈ last.clients 0, ∃ response ∈ client.response,
        client.calls.length = 2 ∧ response.event_payload.isSome := by
    decide +kernel
  obtain ⟨_, houtcome⟩ := writes_take_effect_once plainDecimal resentLog twoNodes nodeNumber 100
    failoverTrace last (by decide +kernel) hrun 0 client hclient
  obtain ⟨_, hnone, _⟩ | ⟨event, _, hpayload, _, _, hledger, _, honly, _⟩ :=
    houtcome response hresponse
  · rw [hnone] at hsome
    cases hsome
  · exact ⟨last, client, response, event, hrun, hclient, hcalls, hresponse, hpayload, hledger,
      honly⟩

end firm_wallet.deployment
