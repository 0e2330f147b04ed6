import Auticuro.Library.Run
import Mathlib.Logic.Function.Basic

namespace gateway_framework.raft_cluster

def INITIAL_LEADER : Nat := 1

structure Inner (Node : Type) where
  reset_leader_counter : Nat
  leader_node : Option Node
  next_probe_node : Nat

def Inner.new (Node : Type) : Inner Node :=
  { reset_leader_counter := 0, leader_node := none, next_probe_node := INITIAL_LEADER }

/-- Where a request of the gateway is in its loop. It carries its own copy of
the counter, and while it resets the leader the time at which its current probe
began. -/
inductive Request (Node : Type) where
  | waiting (reset_leader_counter : Nat)
  | probing (reset_leader_counter node_id begun : Nat)
  | connecting (reset_leader_counter leader_id node_id begun : Nat)
  | calling (leader_node : Node) (reset_leader_counter : Nat)
  | gone

/-- A node that `get_or_reset_leader` returned, with the counter it was called
with and the time at which the probe that found the node began. -/
structure Returned (Node : Type) where
  reset_leader_counter : Nat
  leader_node : Node
  generation : Nat
  begun : Nat
  deriving DecidableEq

/-- What the code does not keep: the time, when the probe of the cached node
began, when each generation was first handed out, the counters of the requests
that advanced the generation, and what was returned. -/
structure History (Node : Type) where
  time : Nat
  leader_begun : Nat
  handed_out : Nat → Option Nat
  advanced : List Nat
  returned : List (Returned Node)

structure Gateway (Node : Type) where
  inner : Inner Node
  -- the request that holds the mutex
  guard : Option Nat
  requests : Nat → Option (Request Node)
  history : History Node

inductive Action where
  | arrive (request : Nat)
  | lock (request : Nat)
  | probed (request : Nat) (answer : Option Nat)
  | connected (request : Nat)
  | answered (request : Nat) (accepted : Bool)
  | dropped (request : Nat)
  deriving DecidableEq

namespace Gateway

variable {Node : Type}

def new (Node : Type) : Gateway Node where
  inner := Inner.new Node
  guard := none
  requests := fun _ => none
  history :=
    { time := 0, leader_begun := 0, handed_out := fun _ => none, advanced := [], returned := [] }

def set_request (self : Gateway Node) (request : Nat) (state : Request Node) : Gateway Node :=
  { self with requests := Function.update self.requests request (some state) }

def tick (self : Gateway Node) : Gateway Node :=
  { self with history := { self.history with time := self.history.time + 1 } }

/-- `get_or_reset_leader` returns and its guard is dropped. -/
def hand_out (self : Gateway Node) (request reset_leader_counter : Nat) (leader_node : Node) :
    Gateway Node :=
  let generation := self.inner.reset_leader_counter
  { inner := self.inner
    guard := none
    requests := Function.update self.requests request (some (.calling leader_node generation))
    history :=
      { self.history with
        handed_out := Function.update self.history.handed_out generation
          (self.history.handed_out generation <|> some self.history.time)
        returned := self.history.returned ++
          [⟨reset_leader_counter, leader_node, generation, self.history.leader_begun⟩] } }

/-- The future of a request is dropped, or panics, and releases the mutex. -/
def leave (self : Gateway Node) (request : Nat) : Gateway Node :=
  { self.set_request request .gone with
    guard := if self.guard = some request then none else self.guard }

/-- What `get_or_reset_leader` does once it has the mutex, up to its next wait. -/
def get_or_reset_leader (self : Gateway Node) (request reset_leader_counter : Nat) :
    Gateway Node :=
  match self.inner.leader_node with
  | some leader_node =>
    if reset_leader_counter ≤ self.inner.reset_leader_counter then
      self.hand_out request reset_leader_counter leader_node
    else
      advance
  | none => advance
where
  advance : Gateway Node :=
    { inner :=
        { self.inner with reset_leader_counter := self.inner.reset_leader_counter + 1 }
      guard := some request
      requests := Function.update self.requests request
        (some (.probing reset_leader_counter self.inner.next_probe_node self.history.time))
      history :=
        { self.history with advanced := self.history.advanced ++ [reset_leader_counter] } }

/-- The end of `reset_leader`: the node is cached and returned. -/
def install (self : Gateway Node) (request reset_leader_counter node_id begun : Nat)
    (leader_node : Node) : Gateway Node :=
  hand_out
    { self with
      inner := { self.inner with leader_node := some leader_node, next_probe_node := node_id }
      history := { self.history with leader_begun := begun } }
    request reset_leader_counter leader_node

variable (node_addresses : List String) (connect : String → Node)

/-- A probe of `reset_leader` ends. An answer without a leader is an error. -/
def probe_node (self : Gateway Node) (request reset_leader_counter node_id begun : Nat)
    (answer : Option Nat) : Gateway Node :=
  match node_addresses[node_id - 1]? with
  | none => self.leave request
  | some _ =>
    match answer.filter (0 < ·) with
    | none =>
      self.set_request request (.probing reset_leader_counter
        (node_id % node_addresses.length + 1) self.history.time)
    | some leader_id =>
      if node_addresses.length < leader_id then
        self.leave request
      else
        self.set_request request (.connecting reset_leader_counter leader_id node_id begun)

/-- The interleavings of the requests, which wait for the mutex, for a probe, for
a connection and for the node they call, and can be dropped at each wait. -/
def step (self : Gateway Node) : Action → Option (Gateway Node)
  | .arrive request =>
    match self.requests request with
    | none => some (self.set_request request (.waiting 0)).tick
    | some _ => none
  | .lock request =>
    match self.requests request, self.guard with
    | some (.waiting reset_leader_counter), none =>
      some (self.get_or_reset_leader request reset_leader_counter).tick
    | _, _ => none
  | .probed request answer =>
    match self.requests request with
    | some (.probing reset_leader_counter node_id begun) =>
      some (self.probe_node node_addresses request reset_leader_counter node_id begun answer).tick
    | _ => none
  | .connected request =>
    match self.requests request with
    | some (.connecting reset_leader_counter leader_id node_id begun) =>
      match node_addresses[leader_id - 1]? with
      | none => some (self.leave request).tick
      | some address =>
        some (self.install request reset_leader_counter node_id begun (connect address)).tick
    | _ => none
  | .answered request accepted =>
    match self.requests request with
    | some (.calling _ reset_leader_counter) =>
      if accepted then
        some (self.set_request request .gone).tick
      else
        some (self.set_request request (.waiting (reset_leader_counter + 1))).tick
    | _ => none
  | .dropped request =>
    match self.requests request with
    | some _ => some (self.leave request).tick
    | none => none

/-- The request that resets the leader leaves without a result: its future is
dropped, or it panics on what a probe reports. -/
def abandons (self : Gateway Node) : Action → Bool
  | .dropped request => self.guard = some request
  | .probed request answer =>
    match self.requests request with
    | some (.probing _ node_id _) =>
      node_addresses[node_id - 1]?.isNone ||
        answer.any fun leader_id => node_addresses.length < leader_id
    | _ => false
  | .connected request =>
    match self.requests request with
    | some (.connecting _ leader_id _ _) => node_addresses[leader_id - 1]?.isNone
    | _ => false
  | _ => false

/-- What a step can do. A request that holds the mutex leaves without a result
only when the reset is abandoned. -/
inductive Step (self : Gateway Node) (abandoned : Prop) : Gateway Node → Prop where
  | arrive {request : Nat} (hnew : self.requests request = none) :
      Step self abandoned (self.set_request request (.waiting 0))
  | cached {request reset_leader_counter : Nat} {leader_node : Node}
      (hrequest : self.requests request = some (.waiting reset_leader_counter))
      (hguard : self.guard = none) (hnode : self.inner.leader_node = some leader_node)
      (hle : reset_leader_counter ≤ self.inner.reset_leader_counter) :
      Step self abandoned (self.hand_out request reset_leader_counter leader_node)
  | advance {request reset_leader_counter : Nat}
      (hrequest : self.requests request = some (.waiting reset_leader_counter))
      (hguard : self.guard = none)
      (hold : self.inner.leader_node = none ∨
        self.inner.reset_leader_counter < reset_leader_counter) :
      Step self abandoned (get_or_reset_leader.advance self request reset_leader_counter)
  | probe_again {request reset_leader_counter node_id begun : Nat} (next_node_id : Nat)
      (hrequest : self.requests request = some (.probing reset_leader_counter node_id begun)) :
      Step self abandoned (self.set_request request
        (.probing reset_leader_counter next_node_id self.history.time))
  | found {request reset_leader_counter node_id begun : Nat} (leader_id : Nat)
      (hrequest : self.requests request = some (.probing reset_leader_counter node_id begun)) :
      Step self abandoned (self.set_request request
        (.connecting reset_leader_counter leader_id node_id begun))
  | install {request reset_leader_counter leader_id node_id begun : Nat} (leader_node : Node)
      (hrequest : self.requests request =
        some (.connecting reset_leader_counter leader_id node_id begun)) :
      Step self abandoned (self.install request reset_leader_counter node_id begun leader_node)
  | accepted {request generation : Nat} {leader_node : Node}
      (hrequest : self.requests request = some (.calling leader_node generation)) :
      Step self abandoned (self.set_request request .gone)
  | failed {request generation : Nat} {leader_node : Node}
      (hrequest : self.requests request = some (.calling leader_node generation)) :
      Step self abandoned (self.set_request request (.waiting (generation + 1)))
  | leave {request : Nat} (habandoned : self.guard = some request → abandoned) :
      Step self abandoned (self.leave request)

theorem get_or_reset_leader_spec {self : Gateway Node} {abandoned : Prop}
    {request reset_leader_counter : Nat}
    (hrequest : self.requests request = some (.waiting reset_leader_counter))
    (hguard : self.guard = none) :
    Step self abandoned (self.get_or_reset_leader request reset_leader_counter) := by
  unfold get_or_reset_leader
  split
  · rename_i leader_node hnode
    split
    · rename_i hle
      exact .cached hrequest hguard hnode hle
    · rename_i hlt
      exact .advance hrequest hguard (.inr (Nat.lt_of_not_le hlt))
  · rename_i hnone
    exact .advance hrequest hguard (.inl hnone)

theorem probe_node_spec {self : Gateway Node}
    {request reset_leader_counter node_id begun : Nat} (answer : Option Nat)
    (hrequest : self.requests request = some (.probing reset_leader_counter node_id begun)) :
    Step self (self.abandons node_addresses (.probed request answer) = true)
      (self.probe_node node_addresses request reset_leader_counter node_id begun answer) := by
  have habandons : self.abandons node_addresses (.probed request answer) =
      (node_addresses[node_id - 1]?.isNone ||
        answer.any fun leader_id => node_addresses.length < leader_id) := by
    simp only [abandons, hrequest]
  rw [habandons]
  unfold probe_node
  split
  · rename_i hnone
    exact .leave fun _ => by rw [hnone]; rfl
  · split
    · exact .probe_again _ hrequest
    · rename_i leader_id hanswer
      split
      · rename_i hout
        obtain ⟨rfl, -⟩ := Option.filter_eq_some_iff.mp hanswer
        exact .leave fun _ => by simp [hout]
      · exact .found leader_id hrequest

variable {node_addresses connect}

/-- Every step is one of the transitions. -/
theorem step_spec {self next : Gateway Node} {action : Action}
    (hstep : self.step node_addresses connect action = some next) :
    ∃ after, Step self (self.abandons node_addresses action = true) after ∧
      next = after.tick := by
  cases action with
  | arrive request =>
    simp only [step] at hstep
    split at hstep
    · rename_i hnew
      cases hstep
      exact ⟨_, .arrive hnew, rfl⟩
    · cases hstep
  | lock request =>
    simp only [step] at hstep
    split at hstep
    · rename_i hrequest hguard
      cases hstep
      exact ⟨_, get_or_reset_leader_spec hrequest hguard, rfl⟩
    · cases hstep
  | probed request answer =>
    simp only [step] at hstep
    split at hstep
    · rename_i hrequest
      cases hstep
      exact ⟨_, probe_node_spec node_addresses answer hrequest, rfl⟩
    · cases hstep
  | connected request =>
    simp only [step] at hstep
    split at hstep
    · rename_i hrequest
      split at hstep
      · rename_i hnone
        cases hstep
        exact ⟨_, .leave fun _ => by simp [abandons, hrequest, hnone], rfl⟩
      · cases hstep
        exact ⟨_, .install _ hrequest, rfl⟩
    · cases hstep
  | answered request accepted =>
    simp only [step] at hstep
    split at hstep
    · rename_i hrequest
      split at hstep
      · cases hstep
        exact ⟨_, .accepted hrequest, rfl⟩
      · cases hstep
        exact ⟨_, .failed hrequest, rfl⟩
    · cases hstep
  | dropped request =>
    simp only [step] at hstep
    split at hstep
    · cases hstep
      exact ⟨_, .leave fun hguard => by simp [abandons, hguard], rfl⟩
    · cases hstep

end Gateway

end gateway_framework.raft_cluster
