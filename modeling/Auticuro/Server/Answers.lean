import Auticuro.Server

open Run

namespace firm_wallet

open balance_calculator errors internal_servicepb rocksdb_state state_machine gc message_broker
open node service

namespace service

theorem WalletService.wait_for_response_eq_some {inflight_event : InflightEvent}
    {command_id : String} {event : GeneralResult Event}
    (hown : WalletService.wait_for_response inflight_event command_id = some event) :
    event = inflight_event.event := by
  unfold wait_for_response at hown
  cases hevent : inflight_event.event with
  | error error =>
    rw [hevent] at hown
    exact (Option.some.inj hown).symm
  | ok found =>
    simp only [hevent] at hown
    split at hown
    · cases hown
    · exact (Option.some.inj hown).symm

end service

namespace message_broker

theorem MessageBroker.register_events (broker : MessageBroker) (events : List InflightEvent) :
    events.foldl (fun broker event => broker.step (.register_event event)) broker =
      { broker with inflight_event_rx := broker.inflight_event_rx ++ events } := by
  induction events generalizing broker with
  | nil => simp
  | cons event events ih =>
    rw [List.foldl_cons, ih]
    simp [MessageBroker.step]

theorem MessageBroker.Matches.register_events {broker : MessageBroker}
    {requests : List InflightRequest} {events sent : List InflightEvent}
    (hbroker : broker.Matches requests events) :
    (sent.foldl (fun broker event => broker.step (.register_event event)) broker).Matches
      requests (events ++ sent) := by
  rw [MessageBroker.register_events]
  refine ⟨hbroker.requests, ?_, hbroker.joined, hbroker.timed_out, hbroker.keyed,
    hbroker.disjoint⟩
  rw [← List.append_assoc]
  exact hbroker.events.append_right sent

/-- What has been answered was registered, with its event or with a timeout. -/
theorem MessageBroker.Matches.answer {broker : MessageBroker} {requests : List InflightRequest}
    {events : List InflightEvent} (hbroker : broker.Matches requests events)
    {answer : InflightRequest × InflightEvent} (hanswer : answer ∈ broker.answered) :
    answer.1 ∈ requests ∧ answer.2.position = answer.1.position ∧
      (answer.2 ∈ events ∨ answer.2.event = .error (.CommonError .Timeout)) := by
  have hrequest : answer.1 ∈ requests := by
    refine hbroker.requests.subset ?_
    rw [List.append_assoc]
    exact List.mem_append_left _ (List.mem_map_of_mem hanswer)
  refine ⟨hrequest, ?_⟩
  obtain hjoined | htimed_out := List.mem_append.mp hanswer
  · refine ⟨hbroker.joined answer hjoined, .inl (hbroker.events.subset ?_)⟩
    simp only [List.append_assoc]
    exact List.mem_append_left _ (List.mem_map_of_mem hjoined)
  · rw [hbroker.timed_out answer htimed_out]
    exact ⟨rfl, .inr rfl⟩

end message_broker

namespace server

/-- The registered requests are those of the tasks that have a position. -/
structure Registered (rpcs : List Rpc) (requests : List InflightRequest) : Prop where
  positions : (requests.map InflightRequest.position).Nodup
  rpc : ∀ request ∈ requests, ∃ rpc, rpcs[request.resp_to]? = some rpc ∧
    rpc.position = some request.position
  request : ∀ (number : Nat) (rpc : Rpc) position, rpcs[number]? = some rpc →
    rpc.position = some position →
    ∃ request ∈ requests, request.resp_to = number ∧ request.position = position

/-- Where the response of a task comes from. -/
def Rpc.Answered (sent : List InflightEvent) (rpc : Rpc) (response : RpcResponse) : Prop :=
  match rpc.position with
  | none => ∃ error, response = WalletService.serve rpc.command.payload (.error error)
  | some position => ∃ event, response = WalletService.serve rpc.command.payload (.ok event) ∧
    (⟨position, event⟩ ∈ sent ∨ event = .error (.CommonError .Timeout))

variable {response : RpcResponse}

theorem Rpc.Answered.mono {rpc : Rpc} {sent more : List InflightEvent}
    (hanswered : rpc.Answered sent response) : rpc.Answered (sent ++ more) response := by
  unfold Rpc.Answered at hanswered ⊢
  split
  · rename_i hposition
    rw [hposition] at hanswered
    exact hanswered
  · rename_i position hposition
    rw [hposition] at hanswered
    obtain ⟨event, hresponse, hevent⟩ := hanswered
    exact ⟨event, hresponse, hevent.imp_left (List.mem_append_left more)⟩

/-- What holds in every state: the process runs, each reply of the node answers
the command that the log has at its position, and each response is that of the
reply at the position of its task. -/
structure Server.Sound (log : Position → Option Command) (server : Server) : Prop where
  running : server.exited = false
  node : ∃ received, server.node.Replied received
  pending : ∀ item ∈ server.node.apply_thread.unanswered, log item.1 = some item.2
  sent : ∀ reply ∈ server.node.wallet.context.inflight_event_tx, ∃ command,
    log reply.position = some command ∧ Fulfils command reply.event
  numbered : ∀ reply ∈ server.node.wallet.context.inflight_event_tx, ∀ event,
    reply.event = .ok event → event.payload.response_header.seq_num ≤
      server.node.wallet.statemachine.last_seq_num
  broker : ∃ requests, Registered server.rpcs requests ∧
    server.broker.Matches requests server.node.wallet.context.inflight_event_tx
  placed : ∀ rpc ∈ server.rpcs, ∀ position, rpc.position = some position →
    log position = some rpc.command
  answered : ∀ rpc ∈ server.rpcs, ∀ response, rpc.response = some response →
    rpc.Answered server.node.wallet.context.inflight_event_tx response

namespace Registered

variable {rpcs : List Rpc} {requests : List InflightRequest} {number : Nat} {rpc other : Rpc}

theorem append (hregistered : Registered rpcs requests) (hposition : rpc.position = none) :
    Registered (rpcs ++ [rpc]) requests where
  positions := hregistered.positions
  rpc := by
    intro request hrequest
    obtain ⟨found, hfound, hplaced⟩ := hregistered.rpc request hrequest
    have hlength := (List.getElem?_eq_some_iff.mp hfound).1
    exact ⟨found, by rw [List.getElem?_append_left hlength]; exact hfound, hplaced⟩
  request := by
    intro number found position hfound hplaced
    rw [List.getElem?_append] at hfound
    split at hfound
    · exact hregistered.request number found position hfound hplaced
    · obtain rfl := List.mem_singleton.mp (List.mem_of_getElem? hfound)
      cases hposition.symm.trans hplaced

/-- A task moves on at its position. -/
theorem set (hregistered : Registered rpcs requests) (hrpc : rpcs[number]? = some rpc)
    (hposition : other.position = rpc.position) : Registered (rpcs.set number other) requests where
  positions := hregistered.positions
  rpc := by
    intro request hrequest
    obtain ⟨found, hfound, hplaced⟩ := hregistered.rpc request hrequest
    by_cases hnumber : number = request.resp_to
    · subst hnumber
      cases hrpc.symm.trans hfound
      have hlength := (List.getElem?_eq_some_iff.mp hrpc).1
      exact ⟨other, List.getElem?_set_self hlength, hposition.trans hplaced⟩
    · exact ⟨found, by rw [List.getElem?_set_ne hnumber]; exact hfound, hplaced⟩
  request := by
    intro index found position hfound hplaced
    by_cases hnumber : number = index
    · subst hnumber
      have hlength := (List.getElem?_eq_some_iff.mp hrpc).1
      rw [List.getElem?_set_self hlength] at hfound
      cases hfound
      exact hregistered.request number rpc position hrpc (hposition.symm.trans hplaced)
    · rw [List.getElem?_set_ne hnumber] at hfound
      exact hregistered.request index found position hfound hplaced

/-- A task gets a position that no other task has, and registers its request. -/
theorem register (hregistered : Registered rpcs requests) {command : Command}
    {position : Position} (send_time : Nat)
    (hrpc : rpcs[number]? = some ⟨command, none, none⟩)
    (hfresh : ∀ rpc ∈ rpcs, rpc.position ≠ some position) :
    Registered (rpcs.set number ⟨command, some position, none⟩)
      (requests ++ [⟨position, number, send_time⟩]) := by
  have hlength := (List.getElem?_eq_some_iff.mp hrpc).1
  refine ⟨?_, ?_, ?_⟩
  · rw [List.map_append, List.nodup_append]
    refine ⟨hregistered.positions, List.nodup_singleton _, ?_⟩
    rintro taken htaken _ hnew rfl
    obtain ⟨request, hrequest, rfl⟩ := List.mem_map.mp htaken
    obtain ⟨found, hfound, hplaced⟩ := hregistered.rpc request hrequest
    refine hfresh found (List.mem_of_getElem? hfound) ?_
    rw [hplaced, List.mem_singleton.mp hnew]
  · intro request hrequest
    obtain hrequest | hrequest := List.mem_append.mp hrequest
    · obtain ⟨found, hfound, hplaced⟩ := hregistered.rpc request hrequest
      have hnumber : number ≠ request.resp_to := by
        rintro rfl
        cases hrpc.symm.trans hfound
        cases hplaced
      exact ⟨found, by rw [List.getElem?_set_ne hnumber]; exact hfound, hplaced⟩
    · rw [List.mem_singleton.mp hrequest]
      exact ⟨_, List.getElem?_set_self hlength, rfl⟩
  · intro index found place hfound hplaced
    by_cases hnumber : number = index
    · subst hnumber
      rw [List.getElem?_set_self hlength] at hfound
      cases hfound
      cases hplaced
      exact ⟨_, List.mem_append_right _ List.mem_cons_self, rfl, rfl⟩
    · rw [List.getElem?_set_ne hnumber] at hfound
      obtain ⟨request, hrequest, hsame⟩ := hregistered.request index found place hfound hplaced
      exact ⟨request, List.mem_append_left _ hrequest, hsame⟩

end Registered

namespace Server.Sound

variable {log : Position → Option Command} {self after : Server}

theorem start_up (batch_size : Nat) {db : RocksDBState} (hdb : db.HoldsLog) :
    (Server.start_up batch_size db).Sound log where
  running := rfl
  node := ⟨[], .start_up batch_size hdb⟩
  pending := by rintro item ⟨⟩
  sent := by rintro reply ⟨⟩
  numbered := by rintro reply ⟨⟩
  broker := ⟨[], ⟨List.nodup_nil, by simp, by rintro number rpc position ⟨⟩⟩, .new⟩
  placed := by rintro rpc ⟨⟩
  answered := by rintro rpc ⟨⟩

section

variable (hself : self.Sound log)
include hself

/-- The tasks and their requests change. -/
theorem set_rpcs {rpcs : List Rpc} {broker : MessageBroker}
    (hbroker : ∃ requests, Registered rpcs requests ∧
      broker.Matches requests self.node.wallet.context.inflight_event_tx)
    (hrpcs : ∀ rpc ∈ rpcs, rpc ∈ self.rpcs ∨
      (∀ position, rpc.position = some position → log position = some rpc.command) ∧
      ∀ response, rpc.response = some response →
        rpc.Answered self.node.wallet.context.inflight_event_tx response) :
    { self with rpcs := rpcs, broker := broker }.Sound log where
  running := hself.running
  node := hself.node
  pending := hself.pending
  sent := hself.sent
  numbered := hself.numbered
  broker := hbroker
  placed := fun rpc hrpc => (hrpcs rpc hrpc).elim (hself.placed rpc) And.left
  answered := fun rpc hrpc => (hrpcs rpc hrpc).elim (hself.answered rpc) And.right

theorem call (command : Command) :
    { self with rpcs := self.rpcs ++ [({ command := command } : Rpc)] }.Sound log := by
  obtain ⟨requests, hregistered, hmatches⟩ := hself.broker
  refine hself.set_rpcs ⟨requests, hregistered.append rfl, hmatches⟩ fun rpc hrpc => ?_
  refine (List.mem_append.mp hrpc).imp_right fun hnew => ?_
  rw [List.mem_singleton.mp hnew]
  exact ⟨by rintro position ⟨⟩, by rintro response ⟨⟩⟩

/-- A task is answered. -/
theorem answer_rpc {number : Nat} {rpc : Rpc} (hrpc : self.rpcs[number]? = some rpc)
    (hanswered : rpc.Answered self.node.wallet.context.inflight_event_tx response) :
    (self.set_rpc number { rpc with response := some response }).Sound log := by
  obtain ⟨requests, hregistered, hmatches⟩ := hself.broker
  refine hself.set_rpcs ⟨requests, hregistered.set hrpc rfl, hmatches⟩ fun found hfound => ?_
  refine (List.mem_or_eq_of_mem_set hfound).imp_right ?_
  rintro rfl
  refine ⟨hself.placed rpc (List.mem_of_getElem? hrpc), ?_⟩
  rintro other ⟨⟩
  exact hanswered

theorem accepted {number : Nat} {position : Position} {send_time : Nat} {command : Command}
    (hrpc : self.rpcs[number]? = some ⟨command, none, none⟩)
    (hdelivers : self.Delivers log (.accepted number position send_time)) :
    { self.set_rpc number ⟨command, some position, none⟩ with
      broker := self.broker.step
        (.register_request ⟨position, number, send_time⟩) }.Sound log := by
  obtain ⟨requests, hregistered, hmatches⟩ := hself.broker
  refine hself.set_rpcs ⟨_, hregistered.register send_time hrpc hdelivers.2, ?_⟩
    fun found hfound => ?_
  · refine ⟨?_, hmatches.events, hmatches.joined, hmatches.timed_out, hmatches.keyed,
      hmatches.disjoint⟩
    change (_ ++ (self.broker.inflight_request_rx ++ [_])).Perm _
    rw [← List.append_assoc]
    exact hmatches.requests.append_right _
  · refine (List.mem_or_eq_of_mem_set hfound).imp_right ?_
    rintro rfl
    refine ⟨?_, by rintro response ⟨⟩⟩
    rintro place ⟨⟩
    exact hdelivers.1 ⟨command, none, none⟩ hrpc

/-- The channel of a task holds the reply at the position of the task, or a
timeout. -/
theorem channel {answer : InflightRequest × InflightEvent} (hanswer : answer ∈ self.broker.answered)
    {rpc : Rpc} {position : Position} (hrpc : self.rpcs[answer.1.resp_to]? = some rpc)
    (hposition : rpc.position = some position) :
    ⟨position, answer.2.event⟩ ∈ self.node.wallet.context.inflight_event_tx ∨
      answer.2.event = .error (.CommonError .Timeout) := by
  obtain ⟨requests, hregistered, hmatches⟩ := hself.broker
  obtain ⟨hrequest, hsame, hevent⟩ := hmatches.answer hanswer
  obtain ⟨found, hfound, hplaced⟩ := hregistered.rpc answer.1 hrequest
  cases hrpc.symm.trans hfound
  cases hposition.symm.trans hplaced
  rw [← hsame]
  exact hevent

/-- A reply at the position of a task is an answer to its command. -/
theorem fulfils {rpc : Rpc} {position : Position} {event : GeneralResult Event}
    (hrpc : rpc ∈ self.rpcs) (hposition : rpc.position = some position)
    (hevent : ⟨position, event⟩ ∈ self.node.wallet.context.inflight_event_tx ∨
      event = .error (.CommonError .Timeout)) : Fulfils rpc.command event := by
  obtain hsent | rfl := hevent
  · obtain ⟨command, hlog, hfulfils⟩ := hself.sent _ hsent
    cases (hself.placed rpc hrpc position hposition).symm.trans hlog
    exact hfulfils
  · exact not_false

end

variable {B : BigDecimal} {config : Option EventLogGCConfig}

theorem forward (hself : self.Sound log) {action : node.Action} {next : Node}
    (hcrash : action ≠ .crash) (hnode : self.node.step B config action = some next)
    (hdelivers : self.Delivers log (.node action)) : (self.forward next).Sound log := by
  obtain ⟨received, hreplied⟩ := hself.node
  have hholds := hreplied.holds_own
  obtain ⟨sent, htx, hsent⟩ := hholds.step_sends hnode hcrash
  have hnext := hreplied.step hnode hcrash
  have hnew : next.wallet.context.inflight_event_tx.drop
      self.node.wallet.context.inflight_event_tx.length = sent := by
    rw [htx, List.drop_left]
  refine ⟨hself.running, ⟨_, hnext⟩, ?_, ?_, ?_, ?_, hself.placed, ?_⟩
  · intro item hitem
    obtain hbefore | hreceived := hholds.step_unanswered hnode hcrash hitem
    · exact hself.pending item hbefore
    · exact hdelivers item hreceived
  · intro reply hreply
    change reply ∈ next.wallet.context.inflight_event_tx at hreply
    rw [htx] at hreply
    obtain hbefore | hreply := List.mem_append.mp hreply
    · exact hself.sent reply hbefore
    · obtain ⟨command, hcommand, hfulfils, _⟩ := hsent reply hreply
      exact ⟨command, hself.pending _ hcommand, hfulfils⟩
  · intro reply hreply event hevent
    change reply ∈ next.wallet.context.inflight_event_tx at hreply
    rw [htx] at hreply
    obtain hbefore | hreply := List.mem_append.mp hreply
    · exact (hself.numbered reply hbefore event hevent).trans
        (Node.step_last_seq_num hnode hcrash)
    · obtain ⟨command, _, _, hlogged⟩ := hsent reply hreply
      have hlog := hnext.holds_own.consistent.log
      have hfound := hlogged event hevent
      rw [(hlog.valid hfound).2]
      exact (hlog.bounds hfound).2
  · obtain ⟨requests, hregistered, hmatches⟩ := hself.broker
    refine ⟨requests, hregistered, ?_⟩
    change (List.foldl _ self.broker (List.drop _ _)).Matches requests
      next.wallet.context.inflight_event_tx
    rw [hnew, htx]
    exact hmatches.register_events
  · intro rpc hrpc response hresponse
    change rpc.Answered next.wallet.context.inflight_event_tx response
    rw [htx]
    exact (hself.answered rpc hrpc response hresponse).mono

theorem broker_step (hself : self.Sound log) (now : Nat) :
    { self with broker := self.broker.step (.advance now) }.Sound log := by
  obtain ⟨received, hreplied⟩ := hself.node
  obtain ⟨requests, hregistered, hmatches⟩ := hself.broker
  have hevents : (self.node.wallet.context.inflight_event_tx.map InflightEvent.position).Nodup :=
    hreplied.sent_increasing.imp fun hless => ne_of_lt hless
  exact ⟨hself.running, hself.node, hself.pending, hself.sent, hself.numbered,
    ⟨requests, hregistered, hmatches.advance hregistered.positions hevents now⟩, hself.placed,
    hself.answered⟩

theorem step {action : Action} (hself : self.Sound log) (hdelivers : self.Delivers log action)
    (hstep : self.step B config action = some after) : after.Sound log := by
  cases Server.steps hstep with
  | crash =>
    obtain ⟨received, hreplied⟩ := hself.node
    exact start_up _ hreplied.holds_own.consistent.log.persisted
  | call payload process_time_in_sec => exact hself.call _
  | refused hrpc => exact hself.answer_rpc hrpc ⟨_, rfl⟩
  | accepted hrpc => exact hself.accepted hrpc hdelivers
  | exit hrpc hanswer hnumber hother =>
    subst hnumber
    have hevent := hself.channel hanswer hrpc rfl
    have hfulfils := hself.fulfils (List.mem_of_getElem? hrpc) rfl hevent
    obtain ⟨event, hok, hid⟩ := WalletService.wait_for_response_eq_none_iff.mp hother
    rw [hok] at hfulfils
    exact absurd hfulfils.1 hid
  | respond hrpc hanswer hnumber hown =>
    subst hnumber
    rw [WalletService.wait_for_response_eq_some hown]
    exact hself.answer_rpc hrpc ⟨_, rfl, hself.channel hanswer hrpc rfl⟩
  | node hcrash hnode => exact hself.forward hcrash hnode hdelivers
  | broker now => exact hself.broker_step now

theorem of_run {batch_size : Nat} {actions : List Action} {last : Server}
    (halong : Along (Server.step B config) (Server.Delivers log)
      (Server.start_up batch_size RocksDBState.empty) actions)
    (hrun : run (Server.step B config) (Server.start_up batch_size RocksDBState.empty) actions =
      some last) : last.Sound log :=
  run_invariant_along (fun _ _ _ hself hdelivers hstep => hself.step hdelivers hstep)
    (start_up batch_size .empty) halong hrun

end Server.Sound

/-- The ways in which a task is answered: by the event that the node replied with at
its position, of its command and of its kind, with the fields of that event; by an
error of the wallet, once it has a position; and otherwise by the error of the queue. -/
inductive Rpc.Settled (replies : List InflightEvent) (rpc : Rpc) (response : RpcResponse) :
    Prop where
  | event (position : Position) (event : Event) (hposition : rpc.position = some position)
      (hsent : ⟨position, .ok event⟩ ∈ replies)
      (hid : event.header.command_id = rpc.command.command_id)
      (hkind : event.payload.kind = rpc.command.payload.kind)
      (hserve : response = WalletService.serve rpc.command.payload (.ok (.ok event)))
      (hpayload : response.event_payload = some event.payload) (herror : response.error = none)
  | failure (reason : errorpb.Reason) (hposition : rpc.position.isSome)
      (hpayload : response.event_payload = none)
      (herror : response.error = some (.other_error reason))
  | refusal (error : String) (hposition : rpc.position = none)
      (hpayload : response.event_payload = none)
      (herror : response.error = some (CommonError.MessageQueueError error).into_proto)

namespace Server.Sound

variable {log : Position → Option Command} {self : Server}

theorem settled (hself : self.Sound log) {rpc : Rpc} (hrpc : rpc ∈ self.rpcs)
    (hresponse : rpc.response = some response) :
    rpc.Settled self.node.wallet.context.inflight_event_tx response := by
  have hanswered := hself.answered rpc hrpc response hresponse
  unfold Rpc.Answered at hanswered
  split at hanswered
  · rename_i hposition
    obtain ⟨error, rfl⟩ := hanswered
    obtain ⟨hpayload, herror⟩ := WalletService.serve_refused rpc.command.payload error
    exact .refusal error hposition hpayload herror
  · rename_i position hposition
    obtain ⟨result, rfl, hresult⟩ := hanswered
    have hfulfils := hself.fulfils hrpc hposition hresult
    cases result with
    | ok event =>
      obtain ⟨hpayload, herror⟩ := WalletService.serve_event rpc.command.payload event
      rw [if_pos hfulfils.2.symm] at hpayload
      have hsent := hresult.resolve_right nofun
      exact .event position event hposition hsent hfulfils.1 hfulfils.2 rfl hpayload herror
    | error error =>
      obtain ⟨hpayload, herror⟩ := WalletService.serve_error rpc.command.payload error
      obtain ⟨reason, hreason⟩ := GeneralError.into_proto_of_answer hfulfils
      exact .failure reason (by rw [hposition]; rfl) hpayload (by rw [herror, hreason])

/-- The event that the fields of a response were taken from. -/
theorem event_of_payload (hself : self.Sound log) {rpc : Rpc} {payload : EventPayload}
    (hrpc : rpc ∈ self.rpcs) (hresponse : rpc.response = some response)
    (hpayload : response.event_payload = some payload) :
    ∃ position event, ⟨position, .ok event⟩ ∈ self.node.wallet.context.inflight_event_tx ∧
      event.payload = payload ∧ Fulfils rpc.command (.ok event) ∧
      response = WalletService.serve rpc.command.payload (.ok (.ok event)) := by
  cases hself.settled hrpc hresponse with
  | event position event _ hsent hid hkind hserve hevent =>
    exact ⟨position, event, hsent, Option.some.inj (hevent.symm.trans hpayload), ⟨hid, hkind⟩,
      hserve⟩
  | failure _ _ hnone | refusal _ _ hnone => cases hnone.symm.trans hpayload

end Server.Sound

/-- An account is created and credited by two requests of one log entry. The reply
to the second comes before its position is known. -/
def createAndCredit : List Command :=
  [createAccount "1" "a", creditAccount "2" "a" "5"]

def createAndCreditLog (position : Position) : Option Command :=
  if position.log_index = 6 then createAndCredit[position.offset]? else none

def createAndCreditTrace : List Action :=
  [.call (createAccount "1" "a").payload 0, .call (creditAccount "2" "a" "5").payload 0,
    .accepted 0 ⟨6, 0⟩ 0, .node (.receive (6, createAndCredit)), .node .apply_step,
    .node .apply_step, .node .apply_step, .node .apply_step, .node .apply_step,
    .broker 0, .broker 0, .respond 0, .accepted 1 ⟨6, 1⟩ 0, .broker 0, .broker 0, .broker 0,
    .respond 1]

/-- Clients read their writes: from the response of a write request on, until the
next crash, a query that asks for the sequence number of that response, or for an
earlier one, is never told that the data is not ready; it is answered from a state
that is at least as new. -/
theorem Server.clients_read_their_writes (B : BigDecimal) (config : Option EventLogGCConfig)
    (batch_size : Nat) (log : Position → Option Command) (actions : List Action) (last : Server)
    (halong : Along (Server.step B config) (Server.Delivers log)
      (Server.start_up batch_size RocksDBState.empty) actions)
    (hrun : run (Server.step B config) (Server.start_up batch_size RocksDBState.empty) actions =
      some last)
    (rpc : Rpc) (response : RpcResponse) (payload : EventPayload) (hrpc : rpc ∈ last.rpcs)
    (hresponse : rpc.response = some response)
    (hpayload : response.event_payload = some payload) (account_id : String) (seq_num : Nat)
    (hseq_num : seq_num ≤ payload.response_header.seq_num) :
    let statemachine := last.node.wallet.statemachine
    let account := WalletService.get_account statemachine ⟨account_id, seq_num⟩
    let balance := WalletService.query_balance statemachine ⟨account_id, seq_num⟩
    payload.response_header.seq_num ≤ account.seq_num ∧
    account.account = statemachine.accounts.get account_id ∧
    payload.response_header.seq_num ≤ balance.seq_num ∧
    balance.balance = (statemachine.accounts.get account_id).map (·.balance) := by
  intro statemachine account balance
  have hlast := Sound.of_run halong hrun
  obtain ⟨position, event, hsent, rfl, _⟩ := hlast.event_of_payload hrpc hresponse hpayload
  have hnumbered : event.payload.response_header.seq_num ≤ statemachine.last_seq_num :=
    hlast.numbered _ hsent event rfl
  have hready : ¬ seq_num > statemachine.last_seq_num := by omega
  simp only [account, balance, WalletService.get_account, WalletService.query_balance,
    if_neg hready]
  cases statemachine.accounts.get account_id with
  | none | some found => exact ⟨hnumbered, rfl, hnumbered, rfl⟩

theorem Server.clients_read_their_writes_after_credit :
    ∃ last, run (Server.step plainDecimal none) (Server.start_up 100 RocksDBState.empty)
        createAndCreditTrace = some last ∧
      ∃ payload : EventPayload, payload.response_header.seq_num = 2 ∧
        payload.response_header.seq_num ≤
          (WalletService.query_balance last.node.wallet.statemachine ⟨"a", 2⟩).seq_num := by
  obtain ⟨last, hrun, rpc, hrpc, response, hresponse, payload, hpayload, htwo⟩ :
      ∃ last ∈ run (Server.step plainDecimal none) (Server.start_up 100 RocksDBState.empty)
        createAndCreditTrace, ∃ rpc ∈ last.rpcs, ∃ response ∈ rpc.response,
        ∃ payload ∈ response.event_payload, payload.response_header.seq_num = 2 := by
    decide +kernel
  obtain ⟨_, _, hbalance, _⟩ := clients_read_their_writes plainDecimal none 100
    createAndCreditLog createAndCreditTrace last (by decide +kernel) hrun rpc response payload hrpc
    hresponse hpayload "a" 2 htwo.ge
  exact ⟨last, hrun, payload, htwo, hbalance⟩

end server

end firm_wallet
