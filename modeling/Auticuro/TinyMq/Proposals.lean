import Auticuro.Library.Exec
import Auticuro.TinyMq.Peer
import Mathlib.Data.List.Nodup
import Mathlib.Data.List.Perm.Basic

namespace hologram_kv

variable {Closure : Type}

/-- The callbacks that a list of proposals owes an answer. -/
def owed (proposals : List (Proposal Closure)) : List (Callback Closure) :=
  (proposals.map Proposal.cb).filter (fun cb => !cb.is_none)

@[simp] theorem owed_append (first second : List (Proposal Closure)) :
    owed (first ++ second) = owed first ++ owed second := by
  simp [owed]

theorem mem_owed {proposals : List (Proposal Closure)} {cb : Callback Closure} :
    cb ∈ owed proposals ↔ (∃ p ∈ proposals, p.cb = cb) ∧ cb.is_none = false := by
  simp [owed, List.mem_filter]

/-- Proposals whose callbacks are all different are told apart by them. -/
theorem eq_of_owed_nodup {proposals : List (Proposal Closure)} (hnodup : (owed proposals).Nodup)
    {p q : Proposal Closure} (hp : p ∈ proposals) (hq : q ∈ proposals)
    (hnone : p.cb.is_none = false) (hcb : p.cb = q.cb) : p = q := by
  unfold owed at hnodup
  rw [List.filter_map] at hnodup
  refine List.inj_on_of_nodup_map hnodup ?_ ?_ hcb
  · simp [hp, hnone]
  · simp [hq, ← hcb, hnone]

theorem invoke_with_response_fst (cb : Callback Closure) (resp : RaftCmdResponse) :
    (cb.invoke_with_response resp).map Prod.fst = [cb].filter (fun cb => !cb.is_none) := by
  unfold Callback.invoke_with_response
  cases hnone : cb.is_none <;> simp [hnone]

theorem mem_invoke_with_response {cb : Callback Closure} {resp : RaftCmdResponse}
    {call : Call Closure} (hcall : call ∈ cb.invoke_with_response resp) : call = (cb, resp) := by
  unfold Callback.invoke_with_response at hcall
  split at hcall
  · cases hcall
  · exact List.mem_singleton.mp hcall

theorem mem_notify_stale_req {term : Nat} {cb : Callback Closure} {call : Call Closure}
    (hcall : call ∈ notify_stale_req term cb) :
    call.1 = cb ∧ call.2.header.error = some .StaleCommand := by
  rw [mem_invoke_with_response hcall]
  exact ⟨rfl, cmd_resp.err_resp_error _ _⟩

/-- The calls that tell a list of proposals that they are stale. -/
def stale_calls (term : Nat) (stale : List (Proposal Closure)) : List (Call Closure) :=
  stale.flatMap (fun p => notify_stale_req term p.cb)

theorem stale_calls_fst (term : Nat) (stale : List (Proposal Closure)) :
    (stale_calls term stale).map Prod.fst = owed stale := by
  induction stale with
  | nil => rfl
  | cons p stale ih =>
    have hhead : (notify_stale_req term p.cb).map Prod.fst = owed [p] :=
      invoke_with_response_fst p.cb _
    calc (stale_calls term (p :: stale)).map Prod.fst
        = (notify_stale_req term p.cb).map Prod.fst ++ (stale_calls term stale).map Prod.fst := by
          simp [stale_calls]
      _ = owed ([p] ++ stale) := by rw [hhead, ih, owed_append]

/-- A queue in the order of its keys. -/
abbrev ProposalQueue.Sorted (queue : List (Proposal Closure)) : Prop :=
  queue.Pairwise (fun p later => p.key < later.key)

/-- How an entry of the log splits a queue: the proposals of lower terms, the
proposal of the entry, and the proposals above the entry. -/
structure ProposalQueue.Split (term index : Nat) (queue stale : List (Proposal Closure))
    (found : Option (Proposal Closure)) (rest : List (Proposal Closure)) : Prop where
  queue : queue = stale ++ (found.toList ++ rest)
  stale : ∀ p ∈ stale, p.term < term
  found : ∀ p ∈ found, p.key = log_key term index
  rest : ∀ p ∈ rest, log_key term index < p.key

/-- When no proposal in the term of the entry is below the entry, the search
does not panic and splits the queue. -/
theorem ProposalQueue.find_proposal_spec {term index : Nat} (current_term : Nat)
    {queue : List (Proposal Closure)} (hsorted : ProposalQueue.Sorted queue)
    (hbelow : ∀ p ∈ queue, p.term = term → index ≤ p.index) :
    ∃ stale found rest, ProposalQueue.Split term index queue stale found rest ∧
      ProposalQueue.find_proposal current_term term index queue =
        .ok (found.filter (fun p => !p.cb.is_none), rest, stale_calls current_term stale) := by
  induction queue with
  | nil => exact ⟨[], none, [], ⟨rfl, by simp, by simp, by simp⟩, rfl⟩
  | cons p queue ih =>
    obtain ⟨hlater, hsorted⟩ := List.pairwise_cons.mp hsorted
    unfold ProposalQueue.find_proposal
    by_cases habove : log_key term index < p.key
    · refine ⟨[], none, p :: queue, ⟨rfl, by simp, by simp, ?_⟩, by rw [if_pos habove]; rfl⟩
      intro q hq
      obtain rfl | hq := List.mem_cons.mp hq
      · exact habove
      · exact habove.trans (hlater q hq)
    · have hle : log_key p.term p.index ≤ log_key term index := not_lt.mp habove
      rw [if_neg habove]
      by_cases hterm : p.term = term
      · have hindex : p.index = index := by
          have hge := hbelow p List.mem_cons_self hterm
          rw [log_key_le_iff] at hle
          omega
        have hkey : p.key = log_key term index := by rw [Proposal.key, hterm, hindex]
        refine ⟨[], some p, queue, ⟨rfl, by simp, ?_, ?_⟩, ?_⟩
        · rintro q ⟨⟩
          exact hkey
        · intro q hq
          rw [← hkey]
          exact hlater q hq
        · rw [if_pos hterm, if_pos hindex]
          cases hnone : p.cb.is_none <;> simp [hnone, stale_calls, Option.filter]
      · have hlower : p.term < term := by
          rw [log_key_le_iff] at hle
          omega
        obtain ⟨stale, found, rest, hsplit, hfind⟩ :=
          ih hsorted (fun q hq => hbelow q (List.mem_cons_of_mem _ hq))
        refine ⟨p :: stale, found, rest,
          ⟨by rw [hsplit.queue]; rfl, ?_, hsplit.found, hsplit.rest⟩, ?_⟩
        · intro q hq
          obtain rfl | hq := List.mem_cons.mp hq
          · exact hlower
          · exact hsplit.stale q hq
        · rw [if_neg hterm, hfind]
          rfl

/-- The proposals that go to the apply thread with the committed entries: each
stands at the place of its entry, and the entry is not empty. -/
inductive Matched : List (Proposal Closure) → List Entry → Prop where
  | nil : Matched [] []
  | skip {cbs : List (Proposal Closure)} {entry : Entry} {entries : List Entry}
      (hlater : ∀ p ∈ cbs, entry.key < p.key) (hrest : Matched cbs entries) :
      Matched cbs (entry :: entries)
  | found {p : Proposal Closure} {cbs : List (Proposal Closure)} {entry : Entry}
      {entries : List Entry} (hkey : p.key = entry.key) (hdata : entry.data.isSome)
      (hrest : Matched cbs entries) : Matched (p :: cbs) (entry :: entries)

theorem Matched.exists_entry {cbs : List (Proposal Closure)} {entries : List Entry}
    (hmatched : Matched cbs entries) {p : Proposal Closure} (hp : p ∈ cbs) :
    ∃ entry ∈ entries, entry.key = p.key := by
  induction hmatched with
  | nil => cases hp
  | skip _ _ ih =>
    obtain ⟨entry, hentry, hkey⟩ := ih hp
    exact ⟨entry, List.mem_cons_of_mem _ hentry, hkey⟩
  | @found _ _ entry _ hkey _ _ ih =>
    obtain rfl | hp := List.mem_cons.mp hp
    · exact ⟨entry, List.mem_cons_self, hkey.symm⟩
    · obtain ⟨entry, hentry, hkey⟩ := ih hp
      exact ⟨entry, List.mem_cons_of_mem _ hentry, hkey⟩

/-- What the search for the proposals of committed entries does to the queue. -/
structure ProposalQueue.Searched (queue : List (Proposal Closure)) (entries : List Entry)
    (cbs rest : List (Proposal Closure)) (calls : List (Call Closure)) : Prop where
  accounted : (calls.map Prod.fst ++ (cbs.map Proposal.cb ++ owed rest)).Perm (owed queue)
  suffix : rest <:+ queue
  above : ∀ p ∈ rest, ∀ entry ∈ entries, entry.key < p.key
  cbs : ∀ p ∈ cbs, p ∈ queue
  stale : ∀ call ∈ calls, call.2.header.error = some .StaleCommand ∧
    ∃ p ∈ queue, p.cb = call.1 ∧ (∃ entry ∈ entries, p.key < entry.key) ∧
      ∀ entry ∈ entries, entry.key ≠ p.key

/-- Entries in the order of the log. -/
abbrev InLogOrder (entries : List Entry) : Prop :=
  entries.Pairwise (fun entry later => entry.term ≤ later.term ∧ entry.index < later.index)

theorem Entry.key_lt_key {entry later : Entry}
    (horder : entry.term ≤ later.term ∧ entry.index < later.index) : entry.key < later.key := by
  unfold Entry.key
  rw [log_key_lt_iff]
  omega

section Searched

variable {entry : Entry} {entries : List Entry} {queue stale rest : List (Proposal Closure)}
variable {found : Option (Proposal Closure)}

theorem ProposalQueue.Split.stale_lt
    (hsplit : ProposalQueue.Split entry.term entry.index queue stale found rest)
    {p : Proposal Closure} (hp : p ∈ stale) : p.key < entry.key := by
  unfold Proposal.key Entry.key
  exact log_key_lt_iff.mpr (.inl (hsplit.stale p hp))

theorem ProposalQueue.Split.suffix {term index : Nat}
    (hsplit : ProposalQueue.Split term index queue stale found rest) : rest <:+ queue :=
  ⟨stale ++ found.toList, by rw [hsplit.queue, List.append_assoc]⟩

/-- The search for one entry, then the search for the later ones. -/
theorem ProposalQueue.Searched.cons {cbs last : List (Proposal Closure)}
    {calls : List (Call Closure)} (current_term : Nat)
    (hsplit : ProposalQueue.Split entry.term entry.index queue stale found rest)
    (horder : InLogOrder (entry :: entries))
    (hrest : ProposalQueue.Searched rest entries cbs last calls) :
    ProposalQueue.Searched queue (entry :: entries)
      ((found.filter (fun p => !p.cb.is_none)).toList ++ cbs) last
      (stale_calls current_term stale ++ calls) := by
  obtain ⟨hlater, -⟩ := List.pairwise_cons.mp horder
  refine ⟨?_, hrest.suffix.trans hsplit.suffix, ?_, ?_, ?_⟩
  · have hfound : (found.filter (fun p => !p.cb.is_none)).toList.map Proposal.cb =
        owed found.toList := by
      cases found with
      | none => rfl
      | some p => cases hnone : p.cb.is_none <;> simp [owed, hnone]
    rw [hsplit.queue, owed_append, owed_append, List.map_append, stale_calls_fst,
      List.map_append, hfound, List.append_assoc, List.append_assoc]
    refine List.Perm.append_left _ ?_
    calc (calls.map Prod.fst ++ (owed found.toList ++ (cbs.map Proposal.cb ++ owed last))).Perm
          (owed found.toList ++ (calls.map Prod.fst ++ (cbs.map Proposal.cb ++ owed last))) :=
          List.perm_append_comm_assoc _ _ _
      _ |>.Perm (owed found.toList ++ owed rest) := hrest.accounted.append_left _
  · intro p hp other hother
    obtain rfl | hother := List.mem_cons.mp hother
    · exact hsplit.rest p (hrest.suffix.subset hp)
    · exact hrest.above p hp other hother
  · intro p hp
    obtain hp | hp := List.mem_append.mp hp
    · have hpfound : p ∈ found.toList := by
        rw [Option.mem_toList, Option.filter_eq_some_iff] at hp
        exact Option.mem_toList.mpr hp.1
      rw [hsplit.queue]
      exact List.mem_append_right _ (List.mem_append_left _ hpfound)
    · exact hsplit.suffix.subset (hrest.cbs p hp)
  · intro call hcall
    obtain hcall | hcall := List.mem_append.mp hcall
    · obtain ⟨p, hp, hcall⟩ := List.mem_flatMap.mp hcall
      obtain ⟨hcb, herror⟩ := mem_notify_stale_req hcall
      have hlt := hsplit.stale_lt hp
      refine ⟨herror, p, ?_, hcb.symm, ⟨entry, List.mem_cons_self, hlt⟩, ?_⟩
      · rw [hsplit.queue]
        exact List.mem_append_left _ hp
      · intro other hother
        obtain rfl | hother := List.mem_cons.mp hother
        · exact hlt.ne'
        · exact (hlt.trans (Entry.key_lt_key (hlater other hother))).ne'
    · obtain ⟨herror, p, hp, hcb, ⟨above, habove, hlt⟩, hne⟩ := hrest.stale call hcall
      refine ⟨herror, p, hsplit.suffix.subset hp, hcb,
        ⟨above, List.mem_cons_of_mem _ habove, hlt⟩, ?_⟩
      intro other hother
      obtain rfl | hother := List.mem_cons.mp hother
      · exact (hsplit.rest p hp).ne
      · exact hne other hother

end Searched

/-- When the proposals in the term of an entry are committed before it, the
search for the proposals of the entries does not panic, and what it finds
matches the entries. -/
theorem ProposalQueue.find_proposals_spec (current_term : Nat) {queue : List (Proposal Closure)}
    {entries : List Entry} (hsorted : ProposalQueue.Sorted queue) (horder : InLogOrder entries)
    (hmatching : ∀ entry ∈ entries, ∀ p ∈ queue, p.term = entry.term → p.index < entry.index →
      ∃ earlier ∈ entries, earlier.key = p.key)
    (hdata : ∀ entry ∈ entries, ∀ p ∈ queue, p.key = entry.key → entry.data.isSome) :
    ∃ cbs rest calls, ProposalQueue.Searched queue entries cbs rest calls ∧
      Matched cbs entries ∧
      ProposalQueue.find_proposals current_term queue entries = .ok (cbs, rest, calls) := by
  induction entries generalizing queue with
  | nil =>
    refine ⟨[], queue, [], ⟨.refl _, List.suffix_rfl, by simp, by simp, by simp⟩, .nil, rfl⟩
  | cons entry entries ih =>
    obtain ⟨hlater, hrestOrder⟩ := List.pairwise_cons.mp horder
    -- a proposal below the entry would be committed with or after it
    have hbelow : ∀ p ∈ queue, p.term = entry.term → entry.index ≤ p.index := by
      intro p hp hterm
      by_contra hindex
      obtain ⟨earlier, hearlier, hkey⟩ :=
        hmatching entry List.mem_cons_self p hp hterm (by omega)
      have hsame := (log_key_inj.mp hkey).2
      obtain rfl | hearlier := List.mem_cons.mp hearlier
      · omega
      · have := (hlater earlier hearlier).2
        omega
    obtain ⟨stale, found, rest, hsplit, hfind⟩ :=
      ProposalQueue.find_proposal_spec current_term hsorted hbelow
    have hsub := hsplit.suffix.subset
    have hrestMatching : ∀ other ∈ entries, ∀ p ∈ rest, p.term = other.term →
        p.index < other.index → ∃ earlier ∈ entries, earlier.key = p.key := by
      intro other hother p hp hterm hindex
      obtain ⟨earlier, hearlier, hkey⟩ :=
        hmatching other (List.mem_cons_of_mem _ hother) p (hsub hp) hterm hindex
      obtain rfl | hearlier := List.mem_cons.mp hearlier
      · exact absurd hkey (hsplit.rest p hp).ne
      · exact ⟨earlier, hearlier, hkey⟩
    obtain ⟨cbs, last, calls, hsearched, hmatched, hfinds⟩ :=
      ih (hsorted.sublist hsplit.suffix.sublist) hrestOrder hrestMatching
        (fun other hother p hp => hdata other (List.mem_cons_of_mem _ hother) p (hsub hp))
    refine ⟨_, last, _, hsearched.cons current_term hsplit horder, ?_, ?_⟩
    · have habove : ∀ p ∈ cbs, entry.key < p.key := fun p hp => hsplit.rest p (hsearched.cbs p hp)
      cases hfound : found.filter (fun p => !p.cb.is_none) with
      | none => exact hmatched.skip habove
      | some p =>
        have hp : p ∈ found := (Option.filter_eq_some_iff.mp hfound).1
        have hkey : p.key = entry.key := hsplit.found p hp
        have hqueue : p ∈ queue := by
          rw [hsplit.queue]
          exact List.mem_append_right _ (List.mem_append_left _ (Option.mem_toList.mpr hp))
        exact hmatched.found hkey (hdata entry List.mem_cons_self p hqueue hkey)
    · unfold ProposalQueue.find_proposals
      simp only [hfind, Exec.ok_bind, hfinds]
      rfl

end hologram_kv
