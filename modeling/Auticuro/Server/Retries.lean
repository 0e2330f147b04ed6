import Auticuro.Node.ExactlyOnce
import Auticuro.Server.Answers

open Run

namespace firm_wallet.server

open balance_calculator errors internal_servicepb rocksdb_state state_machine gc message_broker
open node service

/-- The log of events still has each event that the node has replied with. -/
structure Server.Remembers (log : Position → Option Command) (server : Server) : Prop where
  sound : server.Sound log
  logged : ∀ reply ∈ server.node.wallet.context.inflight_event_tx,
    Logged server.node.wallet.statemachine reply.event

namespace Server.Remembers

variable {B : BigDecimal} {log : Position → Option Command} {self after : Server}

theorem start_up (batch_size : Nat) {db : RocksDBState} (hdb : db.HoldsLog) :
    (Server.start_up batch_size db).Remembers log :=
  ⟨.start_up batch_size hdb, by rintro reply ⟨⟩⟩

theorem forward (hself : self.Remembers log) {action : node.Action} {next : Node}
    (hcrash : action ≠ .crash) (hnode : self.node.step B none action = some next) :
    ∀ reply ∈ next.wallet.context.inflight_event_tx,
      Logged next.wallet.statemachine reply.event := by
  obtain ⟨received, hreplied⟩ := hself.sound.node
  obtain ⟨sent, htx, hsent⟩ := hreplied.holds_own.step_sends hnode hcrash
  intro reply hreply
  rw [htx] at hreply
  obtain hbefore | hreply := List.mem_append.mp hreply
  · intro event hevent
    have hlogged := hself.logged reply hbefore event hevent
    exact hreplied.holds_own.consistent.step_get_event hcrash hnode hlogged
  · obtain ⟨command, _, _, hlogged⟩ := hsent reply hreply
    exact hlogged

theorem step {action : Action} (hself : self.Remembers log)
    (hdelivers : self.Delivers log action) (hstep : self.step B none action = some after) :
    after.Remembers log := by
  refine ⟨hself.sound.step hdelivers hstep, ?_⟩
  cases Server.steps hstep with
  | crash => rintro reply ⟨⟩
  | node hcrash hnode => exact hself.forward hcrash hnode
  | _ => exact hself.logged

theorem of_run {batch_size : Nat} {actions : List Action} {last : Server}
    (halong : Along (Server.step B none) (Server.Delivers log)
      (Server.start_up batch_size RocksDBState.empty) actions)
    (hrun : run (Server.step B none) (Server.start_up batch_size RocksDBState.empty) actions =
      some last) : last.Remembers log :=
  run_invariant_along (fun _ _ _ hself hdelivers hstep => hself.step hdelivers hstep)
    (start_up batch_size .empty) halong hrun

end Server.Remembers

/-- Retries get the same answer. Without the collector and until the next crash,
all requests with one dedup id that are answered with an event are answered with
the same fields, in whatever order, at whatever positions and however often the
request is in the log; so a request of another kind never succeeds with that id.
The event is in the log of events, and it is the only one with the id. -/
theorem Server.retries_get_the_same_answer (B : BigDecimal) (batch_size : Nat)
    (log : Position → Option Command) (actions : List Action) (last : Server)
    (halong : Along (Server.step B none) (Server.Delivers log)
      (Server.start_up batch_size RocksDBState.empty) actions)
    (hrun : run (Server.step B none) (Server.start_up batch_size RocksDBState.empty) actions =
      some last)
    (first second : Rpc) (hfirst : first ∈ last.rpcs) (hsecond : second ∈ last.rpcs)
    (hid : first.command.command_id = second.command.command_id)
    (first_response second_response : RpcResponse)
    (hfirst_response : first.response = some first_response)
    (hsecond_response : second.response = some second_response)
    (first_payload second_payload : EventPayload)
    (hfirst_payload : first_response.event_payload = some first_payload)
    (hsecond_payload : second_response.event_payload = some second_payload) :
    first_response = second_response ∧
    first.command.payload.kind = second.command.payload.kind ∧
    ∃ event, event.payload = first_payload ∧
      event.header.command_id = first.command.command_id ∧
      last.node.wallet.statemachine.get_event event.header.seq_num = some event ∧
      ∀ seq_num found, last.node.wallet.statemachine.get_event seq_num = some found →
        found.header.command_id = first.command.command_id → found = event := by
  have hlast := Remembers.of_run halong hrun
  obtain ⟨_, event, hsent, rfl, hfulfils, rfl⟩ :=
    hlast.sound.event_of_payload hfirst hfirst_response hfirst_payload
  obtain ⟨_, other, hother, rfl, hother_fulfils, rfl⟩ :=
    hlast.sound.event_of_payload hsecond hsecond_response hsecond_payload
  obtain ⟨received, hreplied⟩ := hlast.sound.node
  have hlog := hreplied.holds_own.consistent.log
  have hevent := hlast.logged _ hsent event rfl
  have honly : ∀ seq_num found,
      last.node.wallet.statemachine.get_event seq_num = some found →
      found.header.command_id = first.command.command_id → found = event := by
    intro seq_num found hfound hsame
    obtain rfl := hlog.eq_of_command_id_eq hfound hevent (hsame.trans hfulfils.1.symm)
    exact Option.some.inj (hfound.symm.trans hevent)
  obtain rfl : other = event :=
    honly _ other (hlast.logged _ hother other rfl) (hother_fulfils.1.trans hid.symm)
  have hkind := hfulfils.2.symm.trans hother_fulfils.2
  exact ⟨WalletService.serve_congr hkind _, hkind, other, rfl, hfulfils.1, hevent, honly⟩

/-- A request is sent twice, and the second time it is in the log before the first
has been answered. -/
def retryTrace : List Action :=
  [.call (creditAccount "1" "a" "5").payload 0, .accepted 0 ⟨6, 0⟩ 0,
    .call (creditAccount "1" "a" "5").payload 7, .accepted 1 ⟨6, 1⟩ 0,
    .node (.receive (6, [creditAccount "1" "a" "5", retried])), .node .apply_step,
    .node .apply_step, .node .apply_step, .node .apply_step, .broker 0, .broker 0, .respond 1,
    .respond 0]
where
  retried : Command := Command.from_payload (creditAccount "1" "a" "5").payload 7

def retryLog (position : Position) : Option Command :=
  if position = ⟨6, 0⟩ then some (creditAccount "1" "a" "5")
  else if position = ⟨6, 1⟩ then some retryTrace.retried
  else none

/-- The responses of two requests with one id. -/
def bothAnswered (first second : Rpc) : Bool :=
  first.command.command_id = second.command.command_id &&
    (first.response.bind RpcResponse.event_payload).isSome &&
    (second.response.bind RpcResponse.event_payload).isSome

theorem Server.retries_get_the_same_answer_in_one_entry :
    ∃ last first second, run (Server.step plainDecimal none)
        (Server.start_up 100 RocksDBState.empty) retryTrace = some last ∧
      last.rpcs[0]? = some first ∧ last.rpcs[1]? = some second ∧
      bothAnswered first second ∧ first.response = second.response ∧
      ∃ event, last.node.wallet.statemachine.get_event event.header.seq_num = some event ∧
        event.header.command_id = first.command.command_id := by
  obtain ⟨last, hrun, first, hfirst, second, hsecond, hboth⟩ :
      ∃ last ∈ run (Server.step plainDecimal none) (Server.start_up 100 RocksDBState.empty)
        retryTrace, ∃ first ∈ last.rpcs[0]?, ∃ second ∈ last.rpcs[1]?,
        bothAnswered first second := by
    decide +kernel
  have hparts := hboth
  simp only [bothAnswered, Bool.and_eq_true, decide_eq_true_eq, Option.isSome_iff_exists,
    Option.bind_eq_some_iff] at hparts
  obtain ⟨⟨hid, first_payload, first_response, hfirst_response, hfirst_payload⟩, second_payload,
    second_response, hsecond_response, hsecond_payload⟩ := hparts
  obtain ⟨hsame, _, event, _, hcommand_id, hevent, _⟩ := retries_get_the_same_answer plainDecimal
    100 retryLog retryTrace last (by decide +kernel) hrun first second
    (List.mem_of_getElem? hfirst) (List.mem_of_getElem? hsecond) hid first_response
    second_response hfirst_response hsecond_response first_payload second_payload hfirst_payload
    hsecond_payload
  refine ⟨last, first, second, hrun, hfirst, hsecond, hboth, ?_, event, hevent, hcommand_id⟩
  rw [hfirst_response, hsecond_response, hsame]

end firm_wallet.server
