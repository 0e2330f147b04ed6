import Auticuro.Library.OrderedMap
import Auticuro.StateMachine.State
import Mathlib.Data.Prod.Lex

namespace firm_wallet

open errors state_machine

namespace state_machine

def Position.toLexPair (position : Position) : Nat ×ₗ Nat :=
  toLex (position.log_index, position.offset)

theorem Position.toLexPair_injective : Function.Injective Position.toLexPair := by
  intro left right hpair
  cases left
  cases right
  cases hpair
  rfl

/-- The derived order of the source: by log index, then by offset. -/
instance : LinearOrder Position := LinearOrder.lift' Position.toLexPair Position.toLexPair_injective

theorem Position.lt_iff {left right : Position} :
    left < right ↔ left.log_index < right.log_index ∨
      (left.log_index = right.log_index ∧ left.offset < right.offset) :=
  Prod.Lex.lt_iff

end state_machine

namespace message_broker

/-- The sending half of a oneshot channel, by the number of its channel. -/
abbrev Sender := Nat

/-- Times are in milliseconds. -/
structure InflightRequest where
  position : Position
  resp_to : Sender
  send_time : Nat
  deriving DecidableEq

/-- The next thing that the main loop does. -/
inductive Stage where
  | join_requests
  | join_events
  | gc_events
  | gc_requests
  deriving DecidableEq

/-- The channels hold what has been registered and not received yet. The last
three fields record what has left the broker: the events it has sent to
requests that they belong to, the timeouts it has sent, and the events it has
dropped. -/
structure MessageBroker where
  inflight_requests : OrderedMap Position (Nat × Sender)
  inflight_events : OrderedMap Position InflightEvent
  inflight_request_rx : List InflightRequest
  inflight_event_rx : List InflightEvent
  stage : Stage
  joined : List (InflightRequest × InflightEvent)
  timed_out : List (InflightRequest × InflightEvent)
  dropped : List InflightEvent

/-- What a receiver gives at once, and what it keeps. Registrations during the
batch are those before its last `try_recv`. -/
def batch_recv {T : Type} (rx : List T) (max_count : Nat) : List T × List T :=
  (rx.take max_count, rx.drop max_count)

namespace MessageBroker

def new : MessageBroker where
  inflight_requests := .empty
  inflight_events := .empty
  inflight_request_rx := []
  inflight_event_rx := []
  stage := .join_requests
  joined := []
  timed_out := []
  dropped := []

def register_inflight_event (self : MessageBroker) (inflight_event : InflightEvent) :
    MessageBroker :=
  { self with
    inflight_events := self.inflight_events.insert inflight_event.position inflight_event }

def register_inflight_request (self : MessageBroker) (inflight_request : InflightRequest) :
    MessageBroker :=
  { self with
    inflight_requests := self.inflight_requests.insert inflight_request.position
      (inflight_request.send_time, inflight_request.resp_to) }

/-- The body of the loop over the received requests. -/
def join_request (self : MessageBroker) (inflight_request : InflightRequest) : MessageBroker :=
  match self.inflight_events.get inflight_request.position with
  | some inflight_event =>
    { self with
      inflight_events := self.inflight_events.remove inflight_request.position,
      joined := self.joined ++ [(inflight_request, inflight_event)] }
  | none => self.register_inflight_request inflight_request

/-- The body of the loop over the received events. -/
def join_event (self : MessageBroker) (inflight_event : InflightEvent) : MessageBroker :=
  match self.inflight_requests.get inflight_event.position with
  | some (send_time, sender) =>
    { self with
      inflight_requests := self.inflight_requests.remove inflight_event.position,
      joined := self.joined ++ [(⟨inflight_event.position, sender, send_time⟩, inflight_event)] }
  | none => self.register_inflight_event inflight_event

def event_gc_limit : Nat := 10000

def gc_inflight_events (self : MessageBroker) : MessageBroker :=
  let (popped, inflight_events) :=
    self.inflight_events.pop_while fun entries => event_gc_limit < entries.length
  { self with
    inflight_events := inflight_events, dropped := self.dropped ++ popped.map Prod.snd }

def max_timeout_ms : Nat := 1000

/-- The first request has waited for its time. -/
def first_expired (now : Nat) : List (Position × (Nat × Sender)) → Bool
  | [] => false
  | (_, (send_time, _)) :: _ => !(now - send_time < max_timeout_ms)

/-- The answer to a request that has waited too long. -/
def timeout (entry : Position × (Nat × Sender)) : InflightRequest × InflightEvent :=
  (⟨entry.1, entry.2.2, entry.2.1⟩, ⟨entry.1, .error (.CommonError .Timeout)⟩)

def gc_inflight_requests (self : MessageBroker) (now : Nat) : MessageBroker :=
  let (popped, inflight_requests) := self.inflight_requests.pop_while (first_expired now)
  { self with
    inflight_requests := inflight_requests, timed_out := self.timed_out ++ popped.map timeout }

/-- The next stage of the main loop, at a time. -/
def advance (self : MessageBroker) (now : Nat) : MessageBroker :=
  match self.stage with
  | .join_requests =>
    let (inflight_requests, rest) := batch_recv self.inflight_request_rx 1000
    { inflight_requests.foldl join_request { self with inflight_request_rx := rest } with
      stage := .join_events }
  | .join_events =>
    let (inflight_events, rest) := batch_recv self.inflight_event_rx 1000
    { inflight_events.foldl join_event { self with inflight_event_rx := rest } with
      stage := .gc_events }
  | .gc_events => { self.gc_inflight_events with stage := .gc_requests }
  | .gc_requests => { self.gc_inflight_requests now with stage := .join_requests }

inductive Action where
  | register_request (inflight_request : InflightRequest)
  | register_event (inflight_event : InflightEvent)
  | advance (now : Nat)

/-- The threads that register requests and events run next to the main loop. -/
def step (self : MessageBroker) : Action → MessageBroker
  | .register_request inflight_request =>
    { self with inflight_request_rx := self.inflight_request_rx ++ [inflight_request] }
  | .register_event inflight_event =>
    { self with inflight_event_rx := self.inflight_event_rx ++ [inflight_event] }
  | .advance now => self.advance now

end MessageBroker

end message_broker

end firm_wallet
