import Auticuro.Node.Outcomes
import Auticuro.MessageBroker.Matching

open Run

namespace firm_wallet.server

open balance_calculator errors internal_servicepb rocksdb_state state_machine gc message_broker
open node service

/-- The task of a write request: its command, the position that `send_payload` has
given it, and its response. -/
structure Rpc where
  command : Command
  position : Option Position := none
  response : Option RpcResponse := none

/-- The threads that `start_wallet` starts: the apply loop with the collector, the
broker, and the tasks of the gRPC server. The number of a task is that of the
oneshot channel it waits on. `exited` is set by `process::exit`. -/
structure Server where
  node : Node
  broker : MessageBroker
  rpcs : List Rpc
  exited : Bool

inductive Action where
  | call (payload : CommandPayload) (process_time_in_sec : Nat)
  | refused (rpc : Nat) (error : String)
  | accepted (rpc : Nat) (position : Position) (send_time : Nat)
  | respond (rpc : Nat)
  | node (action : node.Action)
  | broker (now : Nat)

namespace Server

def start_up (batch_size : Nat) (db : RocksDBState) : Server where
  node := Node.start_up batch_size db
  broker := MessageBroker.new
  rpcs := []
  exited := false

def set_rpc (self : Server) (number : Nat) (rpc : Rpc) : Server :=
  { self with rpcs := self.rpcs.set number rpc }

/-- `send_payload` has failed. -/
def refused (self : Server) (number : Nat) (error : String) : Option Server :=
  match self.rpcs[number]? with
  | some ⟨command, none, none⟩ =>
    some (self.set_rpc number
      ⟨command, none, some (WalletService.serve command.payload (.error error))⟩)
  | _ => none

/-- `send_payload` has given a position, and the request is registered. -/
def accepted (self : Server) (number : Nat) (position : Position) (send_time : Nat) :
    Option Server :=
  match self.rpcs[number]? with
  | some ⟨command, none, none⟩ =>
    some { self.set_rpc number ⟨command, some position, none⟩ with
      broker := self.broker.step (.register_request ⟨position, number, send_time⟩) }
  | _ => none

/-- The oneshot channel of the task has its event. -/
def respond (self : Server) (number : Nat) : Option Server :=
  match self.rpcs[number]?,
      self.broker.answered.find? (fun answer => answer.1.resp_to = number) with
  | some ⟨command, some position, none⟩, some (_, inflight_event) =>
    match WalletService.wait_for_response inflight_event command.command_id with
    | none => some { self with exited := true }
    | some event =>
      some (self.set_rpc number
        ⟨command, some position, some (WalletService.serve command.payload (.ok event))⟩)
  | _, _ => none

/-- The events that a step of the node has sent come out at the broker. -/
def forward (self : Server) (next : Node) : Server :=
  let sent := next.wallet.context.inflight_event_tx.drop
    self.node.wallet.context.inflight_event_tx.length
  { self with
    node := next,
    broker := sent.foldl (fun broker event => broker.step (.register_event event)) self.broker }

/-- A crash ends all tasks; nothing else happens once the process has exited. -/
def step (B : BigDecimal) (config : Option EventLogGCConfig) (self : Server) :
    Action → Option Server
  | .node .crash => some (start_up self.node.wallet.context.batch_size self.node.db)
  | action =>
    if self.exited then none
    else
      match action with
      | .call payload process_time_in_sec =>
        some { self with
          rpcs := self.rpcs ++ [{ command := Command.from_payload payload process_time_in_sec }] }
      | .refused number error => self.refused number error
      | .accepted number position send_time => self.accepted number position send_time
      | .respond number => self.respond number
      | .node action => (self.node.step B config action).map self.forward
      | .broker now => some { self with broker := self.broker.step (.advance now) }

/-- What a server can do in one step. -/
inductive Steps (B : BigDecimal) (config : Option EventLogGCConfig) (self : Server) :
    Action → Server → Prop where
  | crash : Steps B config self (.node .crash)
      (start_up self.node.wallet.context.batch_size self.node.db)
  | call (payload : CommandPayload) (process_time_in_sec : Nat) :
      Steps B config self (.call payload process_time_in_sec)
        { self with
          rpcs := self.rpcs ++ [{ command := Command.from_payload payload process_time_in_sec }] }
  | refused {number : Nat} {error : String} {command : Command}
      (hrpc : self.rpcs[number]? = some ⟨command, none, none⟩) :
      Steps B config self (.refused number error) (self.set_rpc number
        ⟨command, none, some (WalletService.serve command.payload (.error error))⟩)
  | accepted {number : Nat} {position : Position} {send_time : Nat} {command : Command}
      (hrpc : self.rpcs[number]? = some ⟨command, none, none⟩) :
      Steps B config self (.accepted number position send_time)
        { self.set_rpc number ⟨command, some position, none⟩ with
          broker := self.broker.step (.register_request ⟨position, number, send_time⟩) }
  | exit {number : Nat} {command : Command} {position : Position}
      {answer : InflightRequest × InflightEvent}
      (hrpc : self.rpcs[number]? = some ⟨command, some position, none⟩)
      (hanswer : answer ∈ self.broker.answered) (hnumber : answer.1.resp_to = number)
      (hother : WalletService.wait_for_response answer.2 command.command_id = none) :
      Steps B config self (.respond number) { self with exited := true }
  | respond {number : Nat} {command : Command} {position : Position}
      {answer : InflightRequest × InflightEvent} {event : GeneralResult Event}
      (hrpc : self.rpcs[number]? = some ⟨command, some position, none⟩)
      (hanswer : answer ∈ self.broker.answered) (hnumber : answer.1.resp_to = number)
      (hown : WalletService.wait_for_response answer.2 command.command_id = some event) :
      Steps B config self (.respond number) (self.set_rpc number
        ⟨command, some position, some (WalletService.serve command.payload (.ok event))⟩)
  | node {action : node.Action} {next : Node} (hcrash : action ≠ .crash)
      (hnode : self.node.step B config action = some next) :
      Steps B config self (.node action) (self.forward next)
  | broker (now : Nat) :
      Steps B config self (.broker now) { self with broker := self.broker.step (.advance now) }

variable {B : BigDecimal} {config : Option EventLogGCConfig} {self after : Server}

theorem respond_spec {number : Nat} (hrespond : self.respond number = some after) :
    Steps B config self (.respond number) after := by
  unfold respond at hrespond
  split at hrespond
  · rename_i command position request inflight_event hrpc hfound
    have hanswer := List.mem_of_find?_eq_some hfound
    have hnumber : request.resp_to = number := by simpa using List.find?_some hfound
    split at hrespond
    · rename_i hother
      cases hrespond
      exact .exit hrpc hanswer hnumber hother
    · rename_i event hown
      cases hrespond
      exact .respond hrpc hanswer hnumber hown
  · cases hrespond

theorem steps {action : Action} (hstep : self.step B config action = some after) :
    Steps B config self action after := by
  unfold step at hstep
  split at hstep
  · cases hstep
    exact .crash
  · rename_i hcrash
    split at hstep
    · cases hstep
    · cases action with
      | call payload process_time_in_sec =>
        cases hstep
        exact .call payload process_time_in_sec
      | refused number error =>
        simp only [refused] at hstep
        split at hstep
        · rename_i hrpc
          cases hstep
          exact .refused hrpc
        · cases hstep
      | accepted number position send_time =>
        simp only [accepted] at hstep
        split at hstep
        · rename_i hrpc
          cases hstep
          exact .accepted hrpc
        · cases hstep
      | respond number => exact respond_spec hstep
      | node action =>
        obtain ⟨next, hnode, rfl⟩ := Option.map_eq_some_iff.mp hstep
        exact .node (fun hsame => hcrash (congrArg Action.node hsame)) hnode
      | broker now =>
        cases hstep
        exact .broker now

/-- The queue keeps its contract: the position it gives a request holds the
command of that request and is given to no other one, and the entries it delivers
are those of the log. -/
def Delivers (log : Position → Option Command) (self : Server) : Action → Prop
  | .accepted number position _ =>
    (∀ rpc ∈ self.rpcs[number]?, log position = some rpc.command) ∧
      ∀ rpc ∈ self.rpcs, rpc.position ≠ some position
  | .node action => ∀ item ∈ action.commands, log item.1 = some item.2
  | _ => True

instance (log : Position → Option Command) (self : Server) (action : Action) :
    Decidable (self.Delivers log action) := by
  cases action <;> dsimp only [Delivers] <;> infer_instance

end Server

end firm_wallet.server
