import Auticuro.Gateway.RaftCluster
import Mathlib.Data.List.Nodup

open Run

namespace gateway_framework.raft_cluster

variable {Node : Type}

/-- The counter of a request that resets the leader and when its probe began. -/
def Request.reset : Request Node → Option (Nat × Nat)
  | .probing reset_leader_counter _ begun => some (reset_leader_counter, begun)
  | .connecting reset_leader_counter _ _ begun => some (reset_leader_counter, begun)
  | _ => none

/-- A counter other than 0 was set when a call to the generation before it had
failed, so that generation has been handed out. -/
def Failed (handed_out : Nat → Option Nat) (reset_leader_counter : Nat) : Prop :=
  reset_leader_counter ≠ 0 → (handed_out (reset_leader_counter - 1)).isSome

/-- What a request knows has been handed out. -/
def Request.Known (handed_out : Nat → Option Nat) (generation : Nat) : Request Node → Prop
  | .waiting reset_leader_counter => Failed handed_out reset_leader_counter
  | .probing reset_leader_counter _ _ =>
    Failed handed_out reset_leader_counter ∧ reset_leader_counter ≤ generation
  | .connecting reset_leader_counter _ _ _ =>
    Failed handed_out reset_leader_counter ∧ reset_leader_counter ≤ generation
  | .calling _ reset_leader_counter => (handed_out reset_leader_counter).isSome
  | .gone => True

theorem Request.Known.mono {before after : Nat → Option Nat} {generation next : Nat}
    (hafter : ∀ g, (before g).isSome → (after g).isSome) (hle : generation ≤ next)
    {state : Request Node} (hknown : state.Known before generation) :
    state.Known after next := by
  cases state with
  | waiting => exact fun hcounter => hafter _ (hknown hcounter)
  | probing | connecting =>
    exact ⟨fun hcounter => hafter _ (hknown.1 hcounter), Nat.le_trans hknown.2 hle⟩
  | calling => exact hafter _ hknown
  | gone => trivial

namespace Gateway

/-- After an update every request is the updated one or one that was there. -/
theorem update_cases {requests : Nat → Option (Request Node)} {request other : Nat}
    {state found : Request Node}
    (hfound : Function.update requests request (some state) other = some found) :
    (other = request ∧ found = state) ∨ (other ≠ request ∧ requests other = some found) := by
  by_cases hother : other = request
  · subst hother
    rw [Function.update_self] at hfound
    exact .inl ⟨rfl, (Option.some.inj hfound).symm⟩
  · rw [Function.update_of_ne hother] at hfound
    exact .inr ⟨hother, hfound⟩

/-- The first time a generation is handed out stays. -/
theorem handed_out_cases {handed_out : Nat → Option Nat} {generation time other first : Nat}
    (hfirst : Function.update handed_out generation (handed_out generation <|> some time) other =
      some first) :
    handed_out other = some first ∨ (other = generation ∧ first = time) := by
  by_cases hother : other = generation
  · subst hother
    rw [Function.update_self] at hfirst
    cases hbefore : handed_out other with
    | none =>
      rw [hbefore] at hfirst
      exact .inr ⟨rfl, (Option.some.inj hfirst).symm⟩
    | some before =>
      rw [hbefore] at hfirst
      exact .inl hfirst
  · rw [Function.update_of_ne hother] at hfirst
    exact .inl hfirst

theorem handed_out_of_some {handed_out : Nat → Option Nat} {other first : Nat}
    (generation time : Nat) (hfirst : handed_out other = some first) :
    Function.update handed_out generation (handed_out generation <|> some time) other =
      some first := by
  by_cases hother : other = generation
  · subst hother
    rw [Function.update_self, hfirst]
    rfl
  · rw [Function.update_of_ne hother, hfirst]

theorem handed_out_isSome {handed_out : Nat → Option Nat} (generation time other : Nat)
    (hother : (handed_out other).isSome) :
    (Function.update handed_out generation (handed_out generation <|> some time)
      other).isSome := by
  obtain ⟨first, hfirst⟩ := Option.isSome_iff_exists.mp hother
  rw [handed_out_of_some generation time hfirst]
  rfl

/-- What holds in every run, also when resets are abandoned. -/
structure Consistent (gateway : Gateway Node) : Prop where
  guard : ∀ request state, gateway.requests request = some state → state.reset.isSome →
    gateway.guard = some request
  handed_out : ∀ generation first, gateway.history.handed_out generation = some first →
    first < gateway.history.time ∧ generation ≤ gateway.inner.reset_leader_counter
  uncached : gateway.inner.leader_node = none →
    ∀ generation, gateway.history.handed_out generation = none
  known : ∀ request state, gateway.requests request = some state →
    state.Known gateway.history.handed_out gateway.inner.reset_leader_counter
  advanced_le : ∀ counter ∈ gateway.history.advanced,
    counter ≤ gateway.inner.reset_leader_counter
  advanced_once : (gateway.history.advanced.filter (· ≠ 0)).Nodup
  returned : ∀ result ∈ gateway.history.returned,
    result.reset_leader_counter ≤ result.generation

namespace Consistent

variable {self : Gateway Node}

theorem new : (Gateway.new Node).Consistent where
  guard := by
    intro _ _ hrequest
    cases hrequest
  handed_out := by
    intro _ _ hfirst
    cases hfirst
  uncached := fun _ _ => rfl
  known := by
    intro _ _ hrequest
    cases hrequest
  advanced_le := by
    intro _ hcounter
    cases hcounter
  advanced_once := List.nodup_nil
  returned := by
    intro _ hresult
    cases hresult

section

variable (hself : self.Consistent)
include hself

theorem failed_le {reset_leader_counter : Nat}
    (hfailed : Failed self.history.handed_out reset_leader_counter) :
    reset_leader_counter ≤ self.inner.reset_leader_counter + 1 := by
  by_cases hcounter : reset_leader_counter = 0
  · omega
  · obtain ⟨first, hfirst⟩ := Option.isSome_iff_exists.mp (hfailed hcounter)
    have hle := (hself.handed_out _ _ hfirst).2
    omega

/-- A request moves on within its loop. -/
theorem set_request (request : Nat) {state : Request Node}
    (hreset : state.reset.isSome → self.guard = some request)
    (hknown : state.Known self.history.handed_out self.inner.reset_leader_counter) :
    (self.set_request request state).tick.Consistent where
  guard := by
    intro other found hfound hresetting
    obtain ⟨rfl, rfl⟩ | ⟨-, hbefore⟩ := update_cases hfound
    · exact hreset hresetting
    · exact hself.guard other found hbefore hresetting
  handed_out := by
    intro generation first hfirst
    obtain ⟨hlt, hle⟩ := hself.handed_out generation first hfirst
    exact ⟨Nat.lt_succ_of_lt hlt, hle⟩
  uncached := hself.uncached
  known := by
    intro other found hfound
    obtain ⟨rfl, rfl⟩ | ⟨-, hbefore⟩ := update_cases hfound
    · exact hknown
    · exact hself.known other found hbefore
  advanced_le := hself.advanced_le
  advanced_once := hself.advanced_once
  returned := hself.returned

theorem leave (request : Nat) : (self.leave request).tick.Consistent := by
  have hgone : (self.set_request request .gone).tick.Consistent :=
    hself.set_request request (fun hreset => by cases hreset) trivial
  refine ⟨?_, hgone.handed_out, hgone.uncached, hgone.known, hgone.advanced_le,
    hgone.advanced_once, hgone.returned⟩
  intro other found hfound hresetting
  obtain ⟨rfl, rfl⟩ | ⟨hother, hbefore⟩ := update_cases hfound
  · cases hresetting
  · have hguard := hself.guard other found hbefore hresetting
    have hheld : self.guard ≠ some request := by
      rw [hguard]
      exact fun hsame => hother (Option.some.inj hsame)
    change (if self.guard = some request then none else self.guard) = some other
    rw [if_neg hheld, hguard]

theorem advance {request reset_leader_counter : Nat}
    (hrequest : self.requests request = some (.waiting reset_leader_counter))
    (hguard : self.guard = none)
    (hold : self.inner.leader_node = none ∨
      self.inner.reset_leader_counter < reset_leader_counter) :
    (get_or_reset_leader.advance self request reset_leader_counter).tick.Consistent := by
  have hfailed : Failed self.history.handed_out reset_leader_counter :=
    hself.known request _ hrequest
  have hle := hself.failed_le hfailed
  refine ⟨?_, ?_, hself.uncached, ?_, ?_, ?_, hself.returned⟩
  · intro other found hfound hresetting
    obtain ⟨rfl, rfl⟩ | ⟨-, hbefore⟩ := update_cases hfound
    · rfl
    · have hheld := hself.guard other found hbefore hresetting
      rw [hguard] at hheld
      cases hheld
  · intro generation first hfirst
    obtain ⟨hlt, hgeneration⟩ := hself.handed_out generation first hfirst
    exact ⟨Nat.lt_succ_of_lt hlt, Nat.le_succ_of_le hgeneration⟩
  · intro other found hfound
    obtain ⟨rfl, rfl⟩ | ⟨-, hbefore⟩ := update_cases hfound
    · exact ⟨hfailed, hle⟩
    · exact (hself.known other found hbefore).mono (fun _ => id) (Nat.le_succ _)
  · intro counter hcounter
    obtain hbefore | hnew := List.mem_append.mp hcounter
    · exact Nat.le_succ_of_le (hself.advanced_le counter hbefore)
    · rw [List.mem_singleton.mp hnew]
      exact hle
  · change ((self.history.advanced ++ [reset_leader_counter]).filter (· ≠ 0)).Nodup
    rw [List.filter_append]
    refine List.nodup_append.mpr ⟨hself.advanced_once, (List.nodup_singleton _).filter _, ?_⟩
    rintro counter hbefore other hnew rfl
    obtain ⟨hnew, hnonzero⟩ := List.mem_filter.mp hnew
    obtain rfl := List.mem_singleton.mp hnew
    have hless := hself.advanced_le counter (List.mem_filter.mp hbefore).1
    -- a request that failed has seen a node, so the counter was behind its own
    obtain huncached | hlater := hold
    · have hhanded := hfailed (of_decide_eq_true hnonzero)
      rw [hself.uncached huncached] at hhanded
      cases hhanded
    · omega

/-- The holder of the mutex, or a request that finds a node, is given it. -/
theorem hand_out {request reset_leader_counter : Nat} {leader_node : Node}
    (hnode : self.inner.leader_node = some leader_node)
    (hguard : ∀ other, self.guard = some other → other = request)
    (hle : reset_leader_counter ≤ self.inner.reset_leader_counter) :
    (self.hand_out request reset_leader_counter leader_node).tick.Consistent := by
  refine ⟨?_, ?_, ?_, ?_, hself.advanced_le, hself.advanced_once, ?_⟩
  · intro other found hfound hresetting
    obtain ⟨rfl, rfl⟩ | ⟨hother, hbefore⟩ := update_cases hfound
    · cases hresetting
    · exact absurd (hguard other (hself.guard other found hbefore hresetting)) hother
  · intro generation first hfirst
    obtain hbefore | ⟨rfl, rfl⟩ := handed_out_cases hfirst
    · obtain ⟨hlt, hgeneration⟩ := hself.handed_out generation first hbefore
      exact ⟨Nat.lt_succ_of_lt hlt, hgeneration⟩
    · exact ⟨Nat.lt_succ_self _, Nat.le_refl _⟩
  · intro hnone
    cases hnode.symm.trans hnone
  · intro other found hfound
    obtain ⟨rfl, rfl⟩ | ⟨-, hbefore⟩ := update_cases hfound
    · change Option.isSome (Function.update self.history.handed_out
        self.inner.reset_leader_counter _ self.inner.reset_leader_counter) = true
      rw [Function.update_self]
      cases self.history.handed_out self.inner.reset_leader_counter with
      | none | some first => rfl
    · exact (hself.known other found hbefore).mono
        (fun g => handed_out_isSome _ _ g) (Nat.le_refl _)
  · intro result hresult
    obtain hbefore | hnew := List.mem_append.mp hresult
    · exact hself.returned result hbefore
    · rw [List.mem_singleton.mp hnew]
      exact hle

/-- The state in which `reset_leader` returns, before it returns. -/
theorem cache (leader_node : Node) (node_id begun : Nat) :
    Consistent { self with
      inner := { self.inner with leader_node := some leader_node, next_probe_node := node_id }
      history := { self.history with leader_begun := begun } } where
  guard := hself.guard
  handed_out := hself.handed_out
  uncached := by
    intro hnone
    cases hnone
  known := hself.known
  advanced_le := hself.advanced_le
  advanced_once := hself.advanced_once
  returned := hself.returned

theorem step {abandoned : Prop} {after : Gateway Node} (hstep : Step self abandoned after) :
    after.tick.Consistent := by
  cases hstep with
  | arrive =>
    exact hself.set_request _ (fun hreset => by cases hreset) (fun hzero => absurd rfl hzero)
  | cached hrequest hguard hnode hle =>
    refine hself.hand_out hnode ?_ hle
    intro other hother
    cases hguard.symm.trans hother
  | advance hrequest hguard hold => exact hself.advance hrequest hguard hold
  | probe_again next_node_id hrequest | found leader_id hrequest =>
    have hknown := hself.known _ _ hrequest
    exact hself.set_request _ (fun _ => hself.guard _ _ hrequest rfl) hknown
  | @install request _ _ node_id begun leader_node hrequest =>
    have hheld := hself.guard _ _ hrequest rfl
    refine (hself.cache leader_node node_id begun).hand_out rfl ?_ (hself.known _ _ hrequest).2
    intro other hother
    exact Option.some.inj (hother.symm.trans hheld)
  | accepted => exact hself.set_request _ (fun hreset => by cases hreset) trivial
  | failed hrequest =>
    refine hself.set_request _ (fun hreset => by cases hreset) ?_
    intro _
    exact hself.known _ _ hrequest
  | leave => exact hself.leave _

end

end Consistent

/-- The node was found by a probe that began after the generation with which the
request had failed was first handed out. -/
def FreshResult (handed_out : Nat → Option Nat) (result : Returned Node) : Prop :=
  result.reset_leader_counter ≠ 0 → ∃ first,
    handed_out (result.reset_leader_counter - 1) = some first ∧ first < result.begun

/-- The cached node is newer than every generation before the current one, and
the probe of a reset newer than every generation so far. -/
structure Fresh (gateway : Gateway Node) : Prop where
  cached : gateway.guard = none → gateway.inner.leader_node ≠ none →
    ∀ generation first, gateway.history.handed_out generation = some first →
      generation < gateway.inner.reset_leader_counter → first < gateway.history.leader_begun
  resetting : ∀ request state reset_leader_counter begun,
    gateway.requests request = some state →
    state.reset = some (reset_leader_counter, begun) →
    ∀ generation first, gateway.history.handed_out generation = some first →
      generation < gateway.inner.reset_leader_counter ∧ first < begun
  returned : ∀ result ∈ gateway.history.returned,
    FreshResult gateway.history.handed_out result

namespace Fresh

variable {self : Gateway Node}

theorem new : (Gateway.new Node).Fresh where
  cached := fun _ hcached => absurd rfl hcached
  resetting := by
    intro _ _ _ _ hrequest
    cases hrequest
  returned := by
    intro _ hresult
    cases hresult

theorem set_request (hself : self.Fresh) (request : Nat) {state : Request Node}
    (hreset : ∀ reset_leader_counter begun, state.reset = some (reset_leader_counter, begun) →
      ∀ generation first, self.history.handed_out generation = some first →
        generation < self.inner.reset_leader_counter ∧ first < begun) :
    (self.set_request request state).tick.Fresh where
  cached := hself.cached
  resetting := by
    intro other found reset_leader_counter begun hfound hresetting
    obtain ⟨rfl, rfl⟩ | ⟨-, hbefore⟩ := update_cases hfound
    · exact hreset reset_leader_counter begun hresetting
    · exact hself.resetting other found reset_leader_counter begun hbefore hresetting
  returned := hself.returned

/-- A request leaves. When it held the mutex no node is cached yet. -/
theorem leave (hself : self.Fresh) {request : Nat}
    (hkept : self.guard = some request → self.inner.leader_node = none) :
    (self.leave request).tick.Fresh := by
  have hgone : (self.set_request request .gone).tick.Fresh :=
    hself.set_request request (fun _ _ hreset => by cases hreset)
  refine ⟨?_, hgone.resetting, hgone.returned⟩
  intro hguard hcached
  change (if self.guard = some request then none else self.guard) = none at hguard
  split at hguard
  · rename_i hheld
    exact absurd (hkept hheld) hcached
  · exact hself.cached hguard hcached

theorem advance (hself : self.Fresh) (hconsistent : self.Consistent)
    {request : Nat} (reset_leader_counter : Nat) (hguard : self.guard = none) :
    (get_or_reset_leader.advance self request reset_leader_counter).tick.Fresh where
  cached := by
    intro hnone
    cases hnone
  resetting := by
    intro other found counter begun hfound hresetting generation first hfirst
    obtain ⟨rfl, rfl⟩ | ⟨-, hbefore⟩ := update_cases hfound
    · cases hresetting
      obtain ⟨hlt, hle⟩ := hconsistent.handed_out generation first hfirst
      exact ⟨Nat.lt_succ_of_le hle, hlt⟩
    · have hheld := hconsistent.guard other found hbefore (by rw [hresetting]; rfl)
      rw [hguard] at hheld
      cases hheld
  returned := hself.returned

/-- A node that is newer than every generation before the current one is handed
out. -/
theorem hand_out {request reset_leader_counter : Nat} {leader_node : Node}
    (hconsistent : self.Consistent)
    (hguard : ∀ other, self.guard = some other → other = request)
    (hnewer : ∀ generation first, self.history.handed_out generation = some first →
      generation < self.inner.reset_leader_counter → first < self.history.leader_begun)
    (hreturned : ∀ result ∈ self.history.returned,
      FreshResult self.history.handed_out result)
    (hfailed : Failed self.history.handed_out reset_leader_counter)
    (hle : reset_leader_counter ≤ self.inner.reset_leader_counter) :
    (self.hand_out request reset_leader_counter leader_node).tick.Fresh := by
  refine ⟨?_, ?_, ?_⟩
  · intro _ _ generation first hfirst hless
    obtain hbefore | ⟨rfl, -⟩ := handed_out_cases hfirst
    · exact hnewer generation first hbefore hless
    · exact absurd hless (Nat.lt_irrefl _)
  · intro other found counter begun hfound hresetting
    obtain ⟨rfl, rfl⟩ | ⟨hother, hbefore⟩ := update_cases hfound
    · cases hresetting
    · have hheld := hconsistent.guard other found hbefore (by rw [hresetting]; rfl)
      exact absurd (hguard other hheld) hother
  · intro result hresult hnonzero
    obtain hbefore | hnew := List.mem_append.mp hresult
    · obtain ⟨first, hfirst, hless⟩ := hreturned result hbefore hnonzero
      exact ⟨first, handed_out_of_some _ _ hfirst, hless⟩
    · rw [List.mem_singleton.mp hnew] at hnonzero ⊢
      obtain ⟨first, hfirst⟩ := Option.isSome_iff_exists.mp (hfailed hnonzero)
      refine ⟨first, handed_out_of_some _ _ hfirst, ?_⟩
      refine hnewer _ first hfirst ?_
      change reset_leader_counter ≠ 0 at hnonzero
      omega

theorem step {abandoned : Prop} {after : Gateway Node} (hself : self.Fresh)
    (hconsistent : self.Consistent)
    (hkept : abandoned → self.inner.leader_node = none)
    (hstep : Step self abandoned after) : after.tick.Fresh := by
  cases hstep with
  | arrive => exact hself.set_request _ (fun _ _ hreset => by cases hreset)
  | cached hrequest hguard hnode hle =>
    refine hand_out hconsistent ?_ ?_ hself.returned (hconsistent.known _ _ hrequest) hle
    · intro other hother
      cases hguard.symm.trans hother
    · refine hself.cached hguard ?_
      rw [hnode]
      exact Option.some_ne_none _
  | advance hrequest hguard => exact hself.advance hconsistent _ hguard
  | probe_again next_node_id hrequest =>
    refine hself.set_request _ ?_
    rintro _ _ ⟨⟩ generation first hfirst
    have hbefore := hself.resetting _ _ _ _ hrequest rfl generation first hfirst
    exact ⟨hbefore.1, (hconsistent.handed_out generation first hfirst).1⟩
  | found leader_id hrequest =>
    refine hself.set_request _ ?_
    rintro _ _ ⟨⟩
    exact hself.resetting _ _ _ _ hrequest rfl
  | @install request _ _ node_id begun leader_node hrequest =>
    have hheld := hconsistent.guard _ _ hrequest rfl
    obtain ⟨hfailed, hle⟩ := hconsistent.known _ _ hrequest
    refine hand_out (hconsistent.cache leader_node node_id begun) ?_ ?_ hself.returned hfailed hle
    · intro other hother
      exact Option.some.inj (hother.symm.trans hheld)
    · intro generation first hfirst _
      exact (hself.resetting _ _ _ _ hrequest rfl generation first hfirst).2
  | accepted | failed => exact hself.set_request _ (fun _ _ hreset => by cases hreset)
  | leave habandoned => exact hself.leave fun hguard => hkept (habandoned hguard)

end Fresh

variable (node_addresses : List String) (connect : String → Node)

/-- In every run a generation whose node failed is advanced at most once, and a
request that failed is given a later generation. When no reset is abandoned
while a node is cached, the node it is given is fresh. -/
theorem leader_resets_single_flight_and_fresh (actions : List Action) (last : Gateway Node)
    (hrun : run (step node_addresses connect) (Gateway.new Node) actions = some last) :
    (last.history.advanced.filter (· ≠ 0)).Nodup ∧
      (∀ result ∈ last.history.returned, result.reset_leader_counter ≠ 0 →
        result.reset_leader_counter - 1 < result.generation) ∧
      (Along (step node_addresses connect)
          (fun self action =>
            self.abandons node_addresses action = true → self.inner.leader_node = none)
          (Gateway.new Node) actions →
        ∀ result ∈ last.history.returned, FreshResult last.history.handed_out result) := by
  have hconsistent : last.Consistent := by
    refine run_invariant ?_ Consistent.new hrun
    intro self action next hself hnext
    obtain ⟨after, hstep, rfl⟩ := step_spec hnext
    exact hself.step hstep
  refine ⟨hconsistent.advanced_once, ?_, ?_⟩
  · intro result hresult hnonzero
    have hle := hconsistent.returned result hresult
    omega
  · intro halong
    have hkeep : ∀ (self : Gateway Node) (action : Action) (next : Gateway Node),
        self.Consistent ∧ self.Fresh →
        (self.abandons node_addresses action = true → self.inner.leader_node = none) →
        self.step node_addresses connect action = some next → next.Consistent ∧ next.Fresh := by
      rintro self action next ⟨hself, hfresh⟩ hkept hnext
      obtain ⟨after, hstep, rfl⟩ := step_spec hnext
      exact ⟨hself.step hstep, hfresh.step hself hkept hstep⟩
    exact (run_invariant_along hkeep ⟨Consistent.new, Fresh.new⟩ halong hrun).2.returned

/-- Request 0 gets the first generation and fails. Request 1 fails with it too,
and one of them resets the leader. -/
def resetAfterFailure : List Action :=
  [.arrive 0, .arrive 1, .lock 0, .probed 0 (some 1), .connected 0, .lock 1, .answered 0 false,
    .answered 1 false, .lock 0, .probed 0 (some 2), .connected 0, .lock 1]

theorem leader_resets_single_flight_and_fresh_two_requests :
    ∃ last : Gateway String,
      run (step ["n1", "n2"] id) (Gateway.new String) resetAfterFailure = some last ∧
        last.history.returned.map (fun result => (result.leader_node, result.generation)) =
          [("n1", 1), ("n1", 1), ("n2", 2), ("n2", 2)] ∧
        ∀ result ∈ last.history.returned, FreshResult last.history.handed_out result := by
  refine ⟨_, rfl, by decide, ?_⟩
  refine (leader_resets_single_flight_and_fresh ["n1", "n2"] id resetAfterFailure _ rfl).2.2 ?_
  decide

/-- The same with the future of request 0 dropped during its reset: request 1 is
given the node that it failed with, under a new generation. -/
def droppedReset : List Action :=
  [.arrive 0, .arrive 1, .lock 0, .probed 0 (some 1), .connected 0, .lock 1, .answered 0 false,
    .answered 1 false, .lock 0, .dropped 0, .lock 1]

theorem dropped_reset_returns_failed_node :
    ∃ last : Gateway String,
      run (step ["n1", "n2"] id) (Gateway.new String) droppedReset = some last ∧
        ∃ result ∈ last.history.returned, result.reset_leader_counter = 2 ∧
          result.leader_node = "n1" ∧ result.generation = 2 ∧
          ¬FreshResult last.history.handed_out result := by
  refine ⟨_, rfl, ⟨2, "n1", 2, 2⟩, by decide, rfl, rfl, rfl, ?_⟩
  intro hfresh
  obtain ⟨first, hfirst, hless⟩ := hfresh (by decide)
  -- the cached node was probed at 2, and generation 1 first handed out at 4
  change some 4 = some first at hfirst
  cases hfirst
  exact absurd hless (by decide)

end Gateway

end gateway_framework.raft_cluster
