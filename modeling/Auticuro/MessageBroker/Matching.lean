import Auticuro.MessageBroker
import Mathlib.Data.List.Perm.Basic

namespace firm_wallet.message_broker

open errors state_machine

/-- The request that an entry of the map stands for. -/
def waiting_request (entry : Position × (Nat × Sender)) : InflightRequest :=
  ⟨entry.1, entry.2.2, entry.2.1⟩

namespace MessageBroker

def Action.requests : Action → List InflightRequest
  | .register_request inflight_request => [inflight_request]
  | _ => []

def Action.events : Action → List InflightEvent
  | .register_event inflight_event => [inflight_event]
  | _ => []

def answered (self : MessageBroker) : List (InflightRequest × InflightEvent) :=
  self.joined ++ self.timed_out

def waiting_requests (self : MessageBroker) : List InflightRequest :=
  self.inflight_requests.entries.map waiting_request

def waiting_events (self : MessageBroker) : List InflightEvent :=
  self.inflight_events.entries.map Prod.snd

/-- Where the registered requests and events are. Nothing is lost: a request is
answered, waiting or not received yet, and an event is delivered, dropped,
waiting or not received yet. -/
structure Matches (requests : List InflightRequest) (events : List InflightEvent)
    (broker : MessageBroker) : Prop where
  requests : (broker.answered.map Prod.fst ++ broker.waiting_requests ++
    broker.inflight_request_rx).Perm requests
  events : (broker.joined.map Prod.snd ++ broker.dropped ++ broker.waiting_events ++
    broker.inflight_event_rx).Perm events
  joined : ∀ answer ∈ broker.joined, answer.2.position = answer.1.position
  timed_out : ∀ answer ∈ broker.timed_out,
    answer.2 = ⟨answer.1.position, .error (.CommonError .Timeout)⟩
  keyed : ∀ entry ∈ broker.inflight_events.entries, entry.2.position = entry.1
  disjoint : ∀ position, broker.inflight_requests.get position = none ∨
    broker.inflight_events.get position = none

variable {requests : List InflightRequest} {events : List InflightEvent} {self : MessageBroker}

theorem Matches.new : Matches [] [] MessageBroker.new where
  requests := .nil
  events := .nil
  joined := by simp [MessageBroker.new]
  timed_out := by simp [MessageBroker.new]
  keyed := by simp [MessageBroker.new, OrderedMap.empty]
  disjoint := fun _ => .inl rfl

/-- A request that is received is at a new position. -/
theorem Matches.request_absent (hself : self.Matches requests events)
    (hrequests : (requests.map InflightRequest.position).Nodup) {received : InflightRequest}
    (hreceived : received ∈ self.inflight_request_rx) :
    self.inflight_requests.get received.position = none := by
  have hnodup := (hself.requests.map InflightRequest.position).nodup_iff.mpr hrequests
  rw [List.map_append, List.nodup_append] at hnodup
  rw [OrderedMap.get_eq_none_iff]
  intro entry hentry hposition
  refine hnodup.2.2 entry.1 ?_ received.position (List.mem_map_of_mem hreceived) hposition
  rw [List.map_append, List.mem_append]
  exact .inr (List.mem_map.mpr ⟨waiting_request entry, List.mem_map_of_mem hentry, rfl⟩)

theorem Matches.event_absent (hself : self.Matches requests events)
    (hevents : (events.map InflightEvent.position).Nodup) {received : InflightEvent}
    (hreceived : received ∈ self.inflight_event_rx) :
    self.inflight_events.get received.position = none := by
  have hnodup := (hself.events.map InflightEvent.position).nodup_iff.mpr hevents
  rw [List.map_append, List.nodup_append] at hnodup
  rw [OrderedMap.get_eq_none_iff]
  intro entry hentry hposition
  refine hnodup.2.2 entry.2.position ?_ received.position (List.mem_map_of_mem hreceived)
    ((hself.keyed entry hentry).trans hposition)
  rw [List.map_append, List.mem_append]
  exact .inr (List.mem_map_of_mem (List.mem_map_of_mem hentry))

theorem join_request_set_rx (self : MessageBroker) (received : InflightRequest)
    (rest : List InflightRequest) :
    MessageBroker.join_request { self with inflight_request_rx := rest } received =
      { self.join_request received with inflight_request_rx := rest } := by
  simp only [MessageBroker.join_request]
  cases self.inflight_events.get received.position <;> rfl

theorem join_event_set_rx (self : MessageBroker) (received : InflightEvent)
    (rest : List InflightEvent) :
    MessageBroker.join_event { self with inflight_event_rx := rest } received =
      { self.join_event received with inflight_event_rx := rest } := by
  simp only [MessageBroker.join_event]
  cases self.inflight_requests.get received.position <;> rfl

section Join

variable (hrequests : (requests.map InflightRequest.position).Nodup)
variable (hevents : (events.map InflightEvent.position).Nodup)

include hrequests in
theorem Matches.join_request {received : InflightRequest} {rest : List InflightRequest}
    (hself : { self with inflight_request_rx := received :: rest }.Matches requests events) :
    { self.join_request received with inflight_request_rx := rest }.Matches requests events := by
  classical
  have habsent : self.inflight_requests.get received.position = none :=
    hself.request_absent hrequests List.mem_cons_self
  obtain ⟨hrequestsPerm, heventsPerm, hjoined, htimed_out, hkeyed, hdisjoint⟩ := hself
  unfold MessageBroker.join_request
  cases hget : self.inflight_events.get received.position with
  | some event =>
    have hremoved := (OrderedMap.remove_perm hget).map Prod.snd
    have hposition := hkeyed _ (OrderedMap.get_eq_some_iff.mp hget)
    refine ⟨?_, ?_, ?_, htimed_out, ?_, ?_⟩
    · rw [List.perm_iff_count] at hrequestsPerm ⊢
      intro request
      have hcount := hrequestsPerm request
      simp only [answered, waiting_requests, List.map_append, List.map_cons, List.map_nil,
        List.count_append, List.count_cons, List.count_nil] at hcount ⊢
      omega
    · rw [List.perm_iff_count] at heventsPerm hremoved ⊢
      intro event
      have hcount := heventsPerm event
      have hcountRemoved := hremoved event
      simp only [waiting_events, List.map_append, List.map_cons, List.map_nil, List.count_append,
        List.count_cons, List.count_nil] at hcount hcountRemoved ⊢
      omega
    · intro answer hanswer
      obtain hanswer | hanswer := List.mem_append.mp hanswer
      · exact hjoined answer hanswer
      · rw [List.mem_singleton.mp hanswer]
        exact hposition
    · intro entry hentry
      exact hkeyed entry (OrderedMap.mem_remove.mp hentry).1
    · intro position
      exact (hdisjoint position).imp_right OrderedMap.get_remove_eq_none
  | none =>
    have hinserted : (self.register_inflight_request received).waiting_requests.Perm
        (received :: self.waiting_requests) :=
      (OrderedMap.insert_perm habsent).map waiting_request
    refine ⟨?_, heventsPerm, hjoined, htimed_out, hkeyed, ?_⟩
    · rw [List.perm_iff_count] at hrequestsPerm hinserted ⊢
      intro request
      have hcount := hrequestsPerm request
      have hcountInserted := hinserted request
      simp only [waiting_requests, register_inflight_request, answered, List.map_append,
        List.count_append, List.count_cons] at hcount hcountInserted ⊢
      omega
    · intro position
      by_cases hsame : position = received.position
      · rw [hsame]
        exact .inr hget
      · exact (hdisjoint position).imp_left (OrderedMap.get_insert_eq_none hsame)

include hevents in
theorem Matches.join_event {received : InflightEvent} {rest : List InflightEvent}
    (hself : { self with inflight_event_rx := received :: rest }.Matches requests events) :
    { self.join_event received with inflight_event_rx := rest }.Matches requests events := by
  classical
  have habsent : self.inflight_events.get received.position = none :=
    hself.event_absent hevents List.mem_cons_self
  obtain ⟨hrequestsPerm, heventsPerm, hjoined, htimed_out, hkeyed, hdisjoint⟩ := hself
  unfold MessageBroker.join_event
  cases hget : self.inflight_requests.get received.position with
  | some waiting =>
    have hremoved := (OrderedMap.remove_perm hget).map waiting_request
    refine ⟨?_, ?_, ?_, htimed_out, hkeyed, ?_⟩
    · rw [List.perm_iff_count] at hrequestsPerm hremoved ⊢
      intro request
      have hcount := hrequestsPerm request
      have hcountRemoved := hremoved request
      simp only [waiting_requests, waiting_request, answered, List.map_append, List.map_cons,
        List.map_nil, List.count_append, List.count_cons, List.count_nil]
        at hcount hcountRemoved ⊢
      omega
    · rw [List.perm_iff_count] at heventsPerm ⊢
      intro event
      have hcount := heventsPerm event
      simp only [waiting_events, List.map_append, List.map_cons, List.map_nil, List.count_append,
        List.count_cons, List.count_nil] at hcount ⊢
      omega
    · intro answer hanswer
      obtain hanswer | hanswer := List.mem_append.mp hanswer
      · exact hjoined answer hanswer
      · rw [List.mem_singleton.mp hanswer]
    · intro position
      exact (hdisjoint position).imp_left OrderedMap.get_remove_eq_none
  | none =>
    have hinserted : (self.register_inflight_event received).waiting_events.Perm
        (received :: self.waiting_events) :=
      (OrderedMap.insert_perm habsent).map Prod.snd
    refine ⟨hrequestsPerm, ?_, hjoined, htimed_out, ?_, ?_⟩
    · rw [List.perm_iff_count] at heventsPerm hinserted ⊢
      intro event
      have hcount := heventsPerm event
      have hcountInserted := hinserted event
      simp only [waiting_events, register_inflight_event, List.count_append,
        List.count_cons] at hcount hcountInserted ⊢
      omega
    · intro entry hentry
      obtain rfl | hentry := (OrderedMap.mem_insert habsent).mp hentry
      · rfl
      · exact hkeyed entry hentry
    · intro position
      by_cases hsame : position = received.position
      · rw [hsame]
        exact .inl hget
      · exact (hdisjoint position).imp_right (OrderedMap.get_insert_eq_none hsame)

include hrequests in
theorem Matches.join_request_batch {batch rest : List InflightRequest}
    (hself : { self with inflight_request_rx := batch ++ rest }.Matches requests events) :
    (batch.foldl MessageBroker.join_request { self with inflight_request_rx := rest }).Matches
      requests events := by
  induction batch generalizing self with
  | nil => exact hself
  | cons received batch ih =>
    rw [List.foldl_cons, join_request_set_rx]
    exact ih (hself.join_request hrequests)

include hevents in
theorem Matches.join_event_batch {batch rest : List InflightEvent}
    (hself : { self with inflight_event_rx := batch ++ rest }.Matches requests events) :
    (batch.foldl MessageBroker.join_event { self with inflight_event_rx := rest }).Matches
      requests events := by
  induction batch generalizing self with
  | nil => exact hself
  | cons received batch ih =>
    rw [List.foldl_cons, join_event_set_rx]
    exact ih (hself.join_event hevents)

end Join

section

variable (hself : self.Matches requests events)
include hself

theorem Matches.gc_inflight_events : self.gc_inflight_events.Matches requests events := by
  have hsplit := OrderedMap.pop_while_append
    (fun entries => event_gc_limit < entries.length) self.inflight_events
  refine ⟨hself.requests, ?_, hself.joined, hself.timed_out, ?_, ?_⟩
  · have hevents := hself.events
    unfold waiting_events at hevents
    rw [← hsplit, List.map_append] at hevents
    simp only [MessageBroker.gc_inflight_events, waiting_events]
    simpa only [List.append_assoc] using hevents
  · intro entry hentry
    exact hself.keyed entry (OrderedMap.mem_of_mem_pop_while hentry)
  · intro position
    exact (hself.disjoint position).imp_right (OrderedMap.get_pop_while_eq_none _)

theorem Matches.gc_inflight_requests (now : Nat) :
    (self.gc_inflight_requests now).Matches requests events := by
  classical
  have hsplit := OrderedMap.pop_while_append (first_expired now) self.inflight_requests
  refine ⟨?_, hself.events, hself.joined, ?_, hself.keyed, ?_⟩
  · have hrequests := hself.requests
    unfold waiting_requests at hrequests
    rw [← hsplit, List.map_append] at hrequests
    have hpopped : (List.map timeout (self.inflight_requests.pop_while (first_expired now)).1).map
          Prod.fst =
        (self.inflight_requests.pop_while (first_expired now)).1.map waiting_request := by
      rw [List.map_map]
      rfl
    simp only [MessageBroker.gc_inflight_requests, waiting_requests, answered, List.map_append,
      hpopped] at hrequests ⊢
    simpa only [List.append_assoc] using hrequests
  · intro answer hanswer
    obtain hanswer | hanswer := List.mem_append.mp hanswer
    · exact hself.timed_out answer hanswer
    · obtain ⟨entry, _, rfl⟩ := List.mem_map.mp hanswer
      rfl
  · intro position
    exact (hself.disjoint position).imp_left (OrderedMap.get_pop_while_eq_none _)

theorem Matches.advance (hrequests : (requests.map InflightRequest.position).Nodup)
    (hevents : (events.map InflightEvent.position).Nodup) (now : Nat) :
    (self.advance now).Matches requests events := by
  have hstage : ∀ {broker : MessageBroker} (stage : Stage), broker.Matches requests events →
      { broker with stage := stage }.Matches requests events :=
    fun _ hbroker => ⟨hbroker.requests, hbroker.events, hbroker.joined, hbroker.timed_out,
      hbroker.keyed, hbroker.disjoint⟩
  unfold MessageBroker.advance
  split
  · refine hstage .join_events (Matches.join_request_batch hrequests ?_)
    rw [List.take_append_drop]
    exact hself
  · refine hstage .gc_events (Matches.join_event_batch hevents ?_)
    rw [List.take_append_drop]
    exact hself
  · exact hstage .gc_requests hself.gc_inflight_events
  · exact hstage .join_requests (hself.gc_inflight_requests now)

theorem Matches.step {action : Action}
    (hrequests : ((requests ++ action.requests).map InflightRequest.position).Nodup)
    (hevents : ((events ++ action.events).map InflightEvent.position).Nodup) :
    (self.step action).Matches (requests ++ action.requests) (events ++ action.events) := by
  cases action with
  | register_request received =>
    rw [show events ++ Action.events (.register_request received) = events from
      List.append_nil events]
    refine ⟨?_, hself.events, hself.joined, hself.timed_out, hself.keyed, hself.disjoint⟩
    change (_ ++ (self.inflight_request_rx ++ [received])).Perm _
    rw [← List.append_assoc]
    exact hself.requests.append_right [received]
  | register_event received =>
    rw [show requests ++ Action.requests (.register_event received) = requests from
      List.append_nil requests]
    refine ⟨hself.requests, ?_, hself.joined, hself.timed_out, hself.keyed, hself.disjoint⟩
    change (_ ++ (self.inflight_event_rx ++ [received])).Perm _
    rw [← List.append_assoc]
    exact hself.events.append_right [received]
  | advance now =>
    simp only [Action.requests, Action.events, List.append_nil] at hrequests hevents ⊢
    exact hself.advance hrequests hevents now

end

/-- A registered request or event is where the broker says as long as no
position is registered twice on one side. -/
theorem Matches.run {actions : List Action}
    (hrequests : ((actions.flatMap Action.requests).map InflightRequest.position).Nodup)
    (hevents : ((actions.flatMap Action.events).map InflightEvent.position).Nodup) :
    (actions.foldl MessageBroker.step MessageBroker.new).Matches
      (actions.flatMap Action.requests) (actions.flatMap Action.events) := by
  induction actions using List.reverseRecOn with
  | nil => exact .new
  | append_singleton actions action ih =>
    rw [List.flatMap_append, List.flatMap_singleton] at hrequests hevents ⊢
    rw [List.flatMap_append, List.flatMap_singleton, List.foldl_concat]
    have hfirst := hrequests
    have hsecond := hevents
    rw [List.map_append] at hfirst hsecond
    exact (ih hfirst.of_append_left hsecond.of_append_left).step hrequests hevents

/-- Neither a drop nor a timeout. -/
structure KeepsLogs (before after : MessageBroker) : Prop where
  dropped : after.dropped = before.dropped
  timed_out : after.timed_out = before.timed_out

theorem KeepsLogs.foldl {T : Type} {join : MessageBroker → T → MessageBroker}
    (hjoin : ∀ broker item, KeepsLogs broker (join broker item)) (batch : List T)
    (self : MessageBroker) : KeepsLogs self (batch.foldl join self) := by
  induction batch generalizing self with
  | nil => exact ⟨rfl, rfl⟩
  | cons item batch ih =>
    obtain ⟨hdropped, htimed_out⟩ := hjoin self item
    obtain ⟨hdroppedRest, htimed_outRest⟩ := ih (join self item)
    exact ⟨hdroppedRest.trans hdropped, htimed_outRest.trans htimed_out⟩

theorem KeepsLogs.join_request (self : MessageBroker) (received : InflightRequest) :
    KeepsLogs self (self.join_request received) := by
  unfold MessageBroker.join_request
  split <;> exact ⟨rfl, rfl⟩

theorem KeepsLogs.join_event (self : MessageBroker) (received : InflightEvent) :
    KeepsLogs self (self.join_event received) := by
  unfold MessageBroker.join_event
  split <;> exact ⟨rfl, rfl⟩

/-- Events are dropped by one stage only, and timeouts are made by another. -/
theorem step_logs (self : MessageBroker) (action : Action) :
    KeepsLogs self (self.step action) ∨
      ∃ now, action = .advance now ∧
        ((self.stage = .gc_events ∧ (self.step action).timed_out = self.timed_out) ∨
          (self.stage = .gc_requests ∧ (self.step action).dropped = self.dropped)) := by
  cases action with
  | register_request received | register_event received => exact .inl ⟨rfl, rfl⟩
  | advance now =>
    cases hstage : self.stage with
    | join_requests =>
      left
      simp only [MessageBroker.step, MessageBroker.advance, hstage]
      exact ⟨(KeepsLogs.foldl KeepsLogs.join_request _ _).dropped,
        (KeepsLogs.foldl KeepsLogs.join_request _ _).timed_out⟩
    | join_events =>
      left
      simp only [MessageBroker.step, MessageBroker.advance, hstage]
      exact ⟨(KeepsLogs.foldl KeepsLogs.join_event _ _).dropped,
        (KeepsLogs.foldl KeepsLogs.join_event _ _).timed_out⟩
    | gc_events =>
      refine .inr ⟨now, rfl, .inl ⟨rfl, ?_⟩⟩
      simp only [MessageBroker.step, MessageBroker.advance, hstage]
      rfl
    | gc_requests =>
      refine .inr ⟨now, rfl, .inr ⟨rfl, ?_⟩⟩
      simp only [MessageBroker.step, MessageBroker.advance, hstage]
      rfl

/-- Response matching, in every state of every run in which no position is
registered twice on one side. No position waits on both sides. Every request is
answered, waiting or still in its channel, and so no request is answered twice;
an answer is the registered event of the position, or a timeout. Every event is
delivered, dropped, waiting or still in its channel, and so none is delivered
twice. Only the collection of events drops any, and it keeps the greatest. -/
theorem response_matching (actions : List Action)
    (hrequests : ((actions.flatMap Action.requests).map InflightRequest.position).Nodup)
    (hevents : ((actions.flatMap Action.events).map InflightEvent.position).Nodup) :
    let last := actions.foldl MessageBroker.step MessageBroker.new
    (∀ position, last.inflight_requests.get position = none ∨
      last.inflight_events.get position = none) ∧
    (last.answered.map Prod.fst ++ last.waiting_requests ++ last.inflight_request_rx).Perm
      (actions.flatMap Action.requests) ∧
    (last.answered.map fun answer => answer.1.position).Nodup ∧
    (∀ answer ∈ last.joined, answer.2.position = answer.1.position ∧
      answer.2 ∈ actions.flatMap Action.events) ∧
    (∀ answer ∈ last.timed_out,
      answer.2 = ⟨answer.1.position, .error (.CommonError .Timeout)⟩) ∧
    (last.joined.map Prod.snd ++ last.dropped ++ last.waiting_events ++
      last.inflight_event_rx).Perm (actions.flatMap Action.events) ∧
    (last.joined.map fun answer => answer.2.position).Nodup ∧
    (∀ action, (last.step action).timed_out ≠ last.timed_out →
      last.stage = .gc_requests ∧ ∃ now, action = .advance now) ∧
    (∀ action, (last.step action).dropped ≠ last.dropped →
      last.stage = .gc_events ∧ ∃ now, action = .advance now) ∧
    last.gc_inflight_events.inflight_events.len = min last.inflight_events.len 10000 ∧
    ∃ popped, last.gc_inflight_events.dropped = last.dropped ++ popped.map Prod.snd ∧
      popped ++ last.gc_inflight_events.inflight_events.entries = last.inflight_events.entries ∧
      ∀ gone ∈ popped, ∀ kept ∈ last.gc_inflight_events.inflight_events.entries,
        gone.1 < kept.1 := by
  intro last
  have hlast : last.Matches _ _ := Matches.run hrequests hevents
  have hanswered := (hlast.requests.map InflightRequest.position).nodup_iff.mpr hrequests
  have hdelivered := (hlast.events.map InflightEvent.position).nodup_iff.mpr hevents
  rw [List.append_assoc, List.map_append, List.map_map] at hanswered
  rw [List.append_assoc, List.append_assoc, List.map_append, List.map_map] at hdelivered
  refine ⟨hlast.disjoint, hlast.requests, hanswered.of_append_left, ?_, hlast.timed_out,
    hlast.events, hdelivered.of_append_left, ?_, ?_, OrderedMap.pop_while_len event_gc_limit _,
    _, rfl, OrderedMap.pop_while_append _ _, ?_⟩
  · intro answer hanswer
    refine ⟨hlast.joined answer hanswer, hlast.events.subset ?_⟩
    simp only [List.append_assoc]
    exact List.mem_append_left _ (List.mem_map_of_mem hanswer)
  · intro action htimed_out
    obtain ⟨_, hkept⟩ | ⟨now, rfl, ⟨_, hkept⟩ | ⟨hstage, _⟩⟩ := step_logs last action
    · exact absurd hkept htimed_out
    · exact absurd hkept htimed_out
    · exact ⟨hstage, now, rfl⟩
  · intro action hdropped
    obtain ⟨hkept, _⟩ | ⟨now, rfl, ⟨hstage, _⟩ | ⟨_, hkept⟩⟩ := step_logs last action
    · exact absurd hkept hdropped
    · exact ⟨hstage, now, rfl⟩
    · exact absurd hkept hdropped
  · intro gone hgone kept hkept
    exact OrderedMap.lt_of_mem_pop_while hgone hkept

/-- A reply that comes in time, and one that comes late. -/
def lateReplyTrace : List Action :=
  [.register_request ⟨⟨6, 0⟩, 1, 0⟩, .register_request ⟨⟨6, 1⟩, 2, 0⟩,
    .register_event ⟨⟨6, 0⟩, .error (.CommonError (.ConflictDedupId "1"))⟩,
    .advance 0, .advance 0, .advance 0, .advance 1000,
    .register_event ⟨⟨6, 1⟩, .error (.CommonError (.ConflictDedupId "2"))⟩,
    .advance 1001, .advance 1001, .advance 1001, .advance 1001]

theorem response_matching_late_reply :
    let last := lateReplyTrace.foldl MessageBroker.step MessageBroker.new
    last.answered.length = 2 ∧ last.waiting_events.length = 1 ∧
      (last.answered.map fun answer => answer.1.position).Nodup := by
  intro last
  obtain ⟨_, _, hanswered, _⟩ := response_matching lateReplyTrace (by decide) (by decide)
  exact ⟨by decide, by decide, hanswered⟩

end MessageBroker

end firm_wallet.message_broker
