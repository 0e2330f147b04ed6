import Auticuro.Node.Replicas
import Auticuro.Server.Answers

open Run

namespace firm_wallet

open balance_calculator errors internal_servicepb rocksdb_state state_machine gc ledger
open message_broker node service

namespace ledger

def Log.command_at (log : Log) (position : Position) : Option Command :=
  (log position.log_index)[position.offset]?

end ledger

namespace server

/-- The queue of this server keeps its contract with the log of the cluster, and
the server names no account it has deleted since its last flush. -/
def Server.Replicates (log : Log) (self : Server) : Action → Prop
  | .node action => self.node.Replicates log action
  | action => self.Delivers log.command_at action

instance (log : Log) (self : Server) (action : Action) : Decidable (self.Replicates log action) :=
  match action with
  | .node action => inferInstanceAs (Decidable (self.node.Replicates log action))
  | .accepted number position send_time =>
    inferInstanceAs (Decidable (self.Delivers log.command_at (.accepted number position send_time)))
  | .call _ _ | .refused _ _ | .respond _ | .broker _ => .isTrue trivial

/-- A server over the log of the cluster. -/
structure Server.Follows (B : BigDecimal) (log : Log) (server : Server) : Prop where
  sound : server.Sound log.command_at
  node : server.node.Follows B log

namespace Server.Follows

variable {B : BigDecimal} {log : Log} {self after : Server}

theorem delivers {action : Action} (hreplicates : self.Replicates log action) :
    self.Delivers log.command_at action := by
  cases action with
  | node action =>
    intro item hitem
    cases action with
    | receive entry =>
      obtain ⟨⟨command, offset⟩, hmem, rfl⟩ := List.mem_map.mp hitem
      have hcommand := List.mem_zipIdx_iff_getElem?.mp hmem
      rw [show entry.2 = log entry.1 from hreplicates] at hcommand
      exact hcommand
    | _ => cases hitem
  | _ => exact hreplicates

theorem step {action : Action} (hself : self.Follows B log)
    (hreplicates : self.Replicates log action) (hstep : self.step B none action = some after) :
    after.Follows B log := by
  refine ⟨hself.sound.step (delivers hreplicates) hstep, ?_⟩
  cases Server.steps hstep with
  | crash =>
    have hcrash : self.node.Replicates log .crash := trivial
    exact hself.node.step hcrash rfl
  | node _ hnode => exact hself.node.step hreplicates hnode
  | _ => exact hself.node

theorem of_run {batch_size : Nat} {actions : List Action} {last : Server}
    (halong : Along (Server.step B none) (Server.Replicates log)
      (Server.start_up batch_size RocksDBState.empty) actions)
    (hrun : run (Server.step B none) (Server.start_up batch_size RocksDBState.empty) actions =
      some last) : last.Follows B log :=
  run_invariant_along (fun _ _ _ hself hreplicates hstep => hself.step hreplicates hstep)
    ⟨.start_up batch_size .empty, .empty batch_size⟩ halong hrun

/-- The event of a response is in the log of the server that has answered. -/
theorem event_of_response (hself : self.Follows B log) {rpc : Rpc} {response : RpcResponse}
    {payload : EventPayload} (hrpc : rpc ∈ self.rpcs) (hresponse : rpc.response = some response)
    (hpayload : response.event_payload = some payload) :
    ∃ event, event.payload = payload ∧ Fulfils rpc.command (.ok event) ∧
      self.node.wallet.statemachine.get_event event.header.seq_num = some event ∧
      response = WalletService.serve rpc.command.payload (.ok (.ok event)) := by
  obtain ⟨_, event, hsent, hsame, hfulfils, hserve⟩ :=
    hself.sound.event_of_payload hrpc hresponse hpayload
  exact ⟨event, hsame, hfulfils, hself.node.replied hsent rfl, hserve⟩

variable {left right : Server} {first second : Rpc}

/-- Requests with one dedup id get one response, on whatever servers. -/
theorem same_response (hleft : left.Follows B log) (hright : right.Follows B log)
    (hfirst : first ∈ left.rpcs) (hsecond : second ∈ right.rpcs)
    (hid : second.command.command_id = first.command.command_id)
    {response other : RpcResponse} {payload other_payload : EventPayload}
    (hresponse : first.response = some response)
    (hpayload : response.event_payload = some payload) (hother : second.response = some other)
    (hother_payload : other.event_payload = some other_payload) :
    other = response ∧ second.command.payload.kind = first.command.payload.kind := by
  obtain ⟨event, _, hfulfils, hevent, rfl⟩ := hleft.event_of_response hfirst hresponse hpayload
  obtain ⟨found, _, hfound_fulfils, hfound, rfl⟩ :=
    hright.event_of_response hsecond hother hother_payload
  obtain rfl : event = found := by
    refine hleft.node.event_unique hright.node hevent hfound ?_
    exact hfulfils.1.trans (hid.symm.trans hfound_fulfils.1.symm)
  have hkind := hfound_fulfils.2.symm.trans hfulfils.2
  exact ⟨WalletService.serve_congr hkind _, hkind⟩

end Server.Follows

/-- Answers hold on every replica. Take a write request that one server has
answered with an event, which is in the log of events of that server, and any server
of the cluster at any time, this one after crashes among them. Once it has applied the
entry of the event it has the event, no other event has the dedup id there, and every
request with the dedup id that it answers with an event gets the same response and is
of the same kind. -/
theorem Server.answers_hold_on_every_replica (B : BigDecimal) (log : Log)
    (left_batch_size right_batch_size : Nat) (left_actions right_actions : List Action)
    (left right : Server)
    (hleft_along : Along (Server.step B none) (Server.Replicates log)
      (Server.start_up left_batch_size RocksDBState.empty) left_actions)
    (hleft : run (Server.step B none) (Server.start_up left_batch_size RocksDBState.empty)
      left_actions = some left)
    (hright_along : Along (Server.step B none) (Server.Replicates log)
      (Server.start_up right_batch_size RocksDBState.empty) right_actions)
    (hright : run (Server.step B none) (Server.start_up right_batch_size RocksDBState.empty)
      right_actions = some right)
    (first : Rpc) (hfirst : first ∈ left.rpcs) (response : RpcResponse) (payload : EventPayload)
    (hresponse : first.response = some response)
    (hpayload : response.event_payload = some payload) :
    ∃ event, event.payload = payload ∧ event.header.command_id = first.command.command_id ∧
      left.node.wallet.statemachine.get_event event.header.seq_num = some event ∧
      (event.header.log_index ≤ right.node.wallet.statemachine.applied_index →
        right.node.wallet.statemachine.get_event event.header.seq_num = some event) ∧
      (∀ seq_num found, right.node.wallet.statemachine.get_event seq_num = some found →
        found.header.command_id = first.command.command_id → found = event) ∧
      ∀ second ∈ right.rpcs, second.command.command_id = first.command.command_id →
        ∀ other other_payload, second.response = some other →
          other.event_payload = some other_payload →
          other = response ∧ second.command.payload.kind = first.command.payload.kind := by
  have hleft := Follows.of_run hleft_along hleft
  have hright := Follows.of_run hright_along hright
  obtain ⟨event, hsame, hfulfils, hevent, _⟩ := hleft.event_of_response hfirst hresponse hpayload
  refine ⟨event, hsame, hfulfils.1, hevent, hleft.node.events_agree hright.node hevent, ?_, ?_⟩
  · intro seq_num found hfound hid
    exact (hleft.node.event_unique hright.node hevent hfound (hfulfils.1.trans hid.symm)).symm
  · intro second hsecond hid other other_payload hother hother_payload
    exact hleft.same_response hright hfirst hsecond hid hresponse hpayload hother hother_payload

def resentLog : Log
  | 6 => [creditAccount "1" "a" "5"]
  | 7 => [Command.from_payload (creditAccount "1" "a" "5").payload 7]
  | _ => []

/-- A server answers a request. -/
def answeredTrace : List Action :=
  [.call (creditAccount "1" "a" "5").payload 0, .accepted 0 ⟨6, 0⟩ 0,
    .node (.receive (6, resentLog 6)), .node .apply_step, .node .apply_step, .broker 0, .broker 0,
    .respond 0]

/-- Another server has flushed the event and restarted when the request is sent
again. -/
def resentTrace : List Action :=
  .node (.receive (6, resentLog 6)) :: List.replicate 3 (.node .apply_step) ++
    [.node .flush, .node .crash, .call (creditAccount "1" "a" "5").payload 7,
      .accepted 0 ⟨7, 0⟩ 0, .node (.receive (7, resentLog 7))] ++
    List.replicate 4 (.node .apply_step) ++ [.broker 0, .broker 0, .respond 0]

/-- The response of a request, if it has the fields of an event. -/
def Rpc.succeeded (self : Rpc) : Bool :=
  (self.response.bind RpcResponse.event_payload).isSome

theorem Server.answers_hold_on_every_replica_resent :
    ∃ left right first second event,
      run (Server.step plainDecimal none) (Server.start_up 100 RocksDBState.empty) answeredTrace =
        some left ∧
      run (Server.step plainDecimal none) (Server.start_up 100 RocksDBState.empty) resentTrace =
        some right ∧
      left.rpcs[0]? = some first ∧ right.rpcs[0]? = some second ∧ first.succeeded ∧
      left.node.wallet.statemachine.get_event event.header.seq_num = some event ∧
      second.response = first.response := by
  obtain ⟨left, hleft, right, hright, first, hfirst, second, hsecond, hid, hfirst_succeeded,
      hsecond_succeeded⟩ :
      ∃ left ∈ run (Server.step plainDecimal none) (Server.start_up 100 RocksDBState.empty)
        answeredTrace,
      ∃ right ∈ run (Server.step plainDecimal none) (Server.start_up 100 RocksDBState.empty)
        resentTrace,
      ∃ first ∈ left.rpcs[0]?, ∃ second ∈ right.rpcs[0]?,
        second.command.command_id = first.command.command_id ∧ first.succeeded ∧
          second.succeeded := by
    decide +kernel
  obtain ⟨payload, hpayload⟩ := Option.isSome_iff_exists.mp hfirst_succeeded
  obtain ⟨response, hresponse, hpayload⟩ := Option.bind_eq_some_iff.mp hpayload
  obtain ⟨other_payload, hother⟩ := Option.isSome_iff_exists.mp hsecond_succeeded
  obtain ⟨other, hother, hother_payload⟩ := Option.bind_eq_some_iff.mp hother
  obtain ⟨event, _, _, hevent, _, _, hsame⟩ := answers_hold_on_every_replica plainDecimal resentLog
    100 100 answeredTrace resentTrace left right (by decide +kernel) hleft (by decide +kernel)
    hright first (List.mem_of_getElem? hfirst) response payload hresponse hpayload
  obtain ⟨rfl, _⟩ :=
    hsame second (List.mem_of_getElem? hsecond) hid other other_payload hother hother_payload
  exact ⟨left, right, first, second, event, hleft, hright, hfirst, hsecond, hfirst_succeeded,
    hevent, hother.trans hresponse.symm⟩

end server

end firm_wallet
