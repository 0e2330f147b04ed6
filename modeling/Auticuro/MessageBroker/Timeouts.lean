import Auticuro.MessageBroker

namespace firm_wallet.message_broker.MessageBroker

open errors state_machine

/-- The request has waited for its time. -/
def Expired (now : Nat) (entry : Position × (Nat × Sender)) : Prop :=
  max_timeout_ms ≤ now - entry.2.1

instance (now : Nat) : DecidablePred (Expired now) :=
  fun _ => inferInstanceAs (Decidable (_ ≤ _))

/-- What the sweep is for: the requests that are left have not expired, those
that are gone have, and each of these has been sent one timeout. -/
structure Swept (now : Nat) (before after : MessageBroker) : Prop where
  kept : ∀ entry ∈ after.inflight_requests.entries, entry ∈ before.inflight_requests.entries
  remaining : ∀ entry ∈ after.inflight_requests.entries, ¬Expired now entry
  removed : ∀ entry ∈ before.inflight_requests.entries,
    entry ∉ after.inflight_requests.entries → Expired now entry
  answered : ∃ swept : List (Position × (Nat × Sender)),
    after.timed_out = before.timed_out ++ swept.map timeout ∧ swept.Nodup ∧
    ∀ entry, entry ∈ swept ↔ entry ∈ before.inflight_requests.entries ∧
      entry ∉ after.inflight_requests.entries

variable (self : MessageBroker) (now : Nat) {entry : Position × (Nat × Sender)}

theorem first_expired_cons {entries : List (Position × (Nat × Sender))} :
    first_expired now (entry :: entries) = true ↔ Expired now entry := by
  obtain ⟨position, send_time, sender⟩ := entry
  simp [first_expired, Expired]

theorem expired_of_popped
    (hentry : entry ∈ (self.inflight_requests.pop_while (first_expired now)).1) :
    Expired now entry := by
  obtain ⟨rest, hfirst⟩ := OrderedMap.condition_of_mem_pop_while hentry
  exact (first_expired_cons now).mp hfirst

/-- The sweep removes exactly the requests that it pops. -/
theorem mem_popped_iff :
    entry ∈ (self.inflight_requests.pop_while (first_expired now)).1 ↔
      entry ∈ self.inflight_requests.entries ∧
        entry ∉ (self.gc_inflight_requests now).inflight_requests.entries := by
  have happend := OrderedMap.pop_while_append (first_expired now) self.inflight_requests
  constructor
  · intro hpopped
    refine ⟨?_, ?_⟩
    · rw [← happend]
      exact List.mem_append_left _ hpopped
    · intro hkept
      exact lt_irrefl _ (OrderedMap.lt_of_mem_pop_while hpopped hkept)
  · rintro ⟨hentry, hgone⟩
    rw [← happend] at hentry
    exact (List.mem_append.mp hentry).resolve_right hgone

/-- At or below everything that is left there is a request, also left, that has
not expired. -/
theorem exists_unexpired_below
    (hentry : entry ∈ (self.gc_inflight_requests now).inflight_requests.entries) :
    ∃ first ∈ (self.gc_inflight_requests now).inflight_requests.entries,
      ¬Expired now first ∧ (entry = first ∨ first.1 < entry.1) := by
  obtain hempty | hstop :=
    OrderedMap.pop_while_stops (first_expired now) self.inflight_requests
  · exact absurd (hempty ▸ hentry) List.not_mem_nil
  · change first_expired now (self.gc_inflight_requests now).inflight_requests.entries =
      false at hstop
    have hsorted := (self.gc_inflight_requests now).inflight_requests.sorted
    cases hrest : (self.gc_inflight_requests now).inflight_requests.entries with
    | nil => exact absurd (hrest ▸ hentry) List.not_mem_nil
    | cons first rest =>
      rw [hrest] at hentry hstop hsorted
      refine ⟨first, List.mem_cons_self, ?_, ?_⟩
      · intro hexpired
        rw [(first_expired_cons now).mpr hexpired] at hstop
        cases hstop
      · obtain rfl | hentry := List.mem_cons.mp hentry
        · exact .inl rfl
        · exact .inr ((List.pairwise_cons.mp hsorted).1 entry hentry)

/-- The loop stops at the first request in the order of the positions that has
not expired. It leaves no expired request behind if and only if every request
below an expired one has expired too. -/
theorem gc_inflight_requests_sweeps_iff (self : MessageBroker) (now : Nat) :
    Swept now self (self.gc_inflight_requests now) ↔
      ∀ lower ∈ self.inflight_requests.entries, ∀ higher ∈ self.inflight_requests.entries,
        lower.1 < higher.1 → Expired now higher → Expired now lower := by
  have hkept : ∀ entry ∈ (self.gc_inflight_requests now).inflight_requests.entries,
      entry ∈ self.inflight_requests.entries := fun _ => OrderedMap.mem_of_mem_pop_while
  constructor
  · intro hswept lower hlower higher hhigher hless hexpired
    have hgone : higher ∉ (self.gc_inflight_requests now).inflight_requests.entries :=
      fun hleft => hswept.remaining higher hleft hexpired
    apply hswept.removed lower hlower
    intro hleft
    have hpopped := (mem_popped_iff self now).mpr ⟨hhigher, hgone⟩
    exact lt_asymm hless (OrderedMap.lt_of_mem_pop_while hpopped hleft)
  · intro hordered
    refine ⟨hkept, ?_, ?_, ?_⟩
    · intro entry hentry hexpired
      obtain ⟨first, hfirst, hunexpired, rfl | hless⟩ := exists_unexpired_below self now hentry
      · exact hunexpired hexpired
      · exact hunexpired (hordered first (hkept first hfirst) entry (hkept entry hentry)
          hless hexpired)
    · intro entry hentry hgone
      exact expired_of_popped self now ((mem_popped_iff self now).mpr ⟨hentry, hgone⟩)
    · refine ⟨(self.inflight_requests.pop_while (first_expired now)).1, rfl, ?_, ?_⟩
      · have hnodup := self.inflight_requests.entries_nodup
        rw [← OrderedMap.pop_while_append (first_expired now)] at hnodup
        exact hnodup.of_append_left
      · intro entry
        exact mem_popped_iff self now

/-- A request at position (1, 0) that is registered after one at (2, 0). -/
def lateRegistration : MessageBroker :=
  (MessageBroker.new.register_inflight_request ⟨⟨2, 0⟩, 1, 0⟩).register_inflight_request
    ⟨⟨1, 0⟩, 2, 900⟩

theorem gc_inflight_requests_misses_expired :
    ∃ entry ∈ (lateRegistration.gc_inflight_requests 1500).inflight_requests.entries,
      Expired 1500 entry := by
  refine ⟨(⟨2, 0⟩, (0, 1)), ?_, ?_⟩
  · decide
  · decide

end firm_wallet.message_broker.MessageBroker
