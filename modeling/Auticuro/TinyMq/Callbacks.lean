import Auticuro.Library.Run
import Auticuro.TinyMq.Pending
import Mathlib.Data.List.Pairwise

namespace hologram_kv

variable {Closure : Type} {entries : List Entry}

/-- In the log a higher index is a higher key. -/
theorem InLogOrder.key_lt (horder : InLogOrder entries) {entry later : Entry}
    (hentry : entry ∈ entries) (hlater : later ∈ entries) (hindex : entry.index < later.index) :
    entry.key < later.key := by
  refine List.Pairwise.forall_of_forall_of_flip
    (R := fun entry later => entry.index < later.index → entry.key < later.key)
    ?_ ?_ ?_ hentry hlater hindex
  · intro entry _ hlt
    exact absurd hlt (lt_irrefl _)
  · refine horder.imp ?_
    intro entry later hpair _
    exact Entry.key_lt_key hpair
  · refine horder.imp ?_
    intro entry later hpair hback
    exact absurd hback (not_lt.mpr hpair.2.le)

theorem InLogOrder.eq_of_index_eq (horder : InLogOrder entries) {entry later : Entry}
    (hentry : entry ∈ entries) (hlater : later ∈ entries) (hindex : entry.index = later.index) :
    entry = later := by
  have hindices : (entries.map Entry.index).Nodup :=
    List.pairwise_map.mpr (horder.imp fun hpair => hpair.2.ne)
  exact List.inj_on_of_nodup_map hindices hentry hlater hindex

theorem InLogOrder.index_le_last (horder : InLogOrder entries) {entry last : Entry}
    (hlast : entries.getLast? = some last) (hentry : entry ∈ entries) :
    entry.index ≤ last.index := by
  obtain ⟨first, rfl⟩ := List.getLast?_eq_some_iff.mp hlast
  obtain hentry | hentry := List.mem_append.mp hentry
  · have hpair := (List.pairwise_append.mp horder).2.2 entry hentry last (by simp)
    omega
  · rw [List.mem_singleton.mp hentry]

namespace Replica

/-- A response that is true of a proposal: it comes from executing the entry at
the term and index of the proposal, or the log has passed them without it. -/
def Answered (committed : List Entry) (p : Proposal Closure) (resp : RaftCmdResponse) : Prop :=
  (∃ entry ∈ committed, entry.key = p.key ∧ entry.Executed resp) ∨
    resp.header.error = some .StaleCommand ∧ (∃ entry ∈ committed, p.key < entry.key) ∧
      ∀ entry ∈ committed, entry.key ≠ p.key

variable {p : Proposal Closure}

theorem Answered.append {committed entries : List Entry} {resp : RaftCmdResponse}
    (horder : InLogOrder (committed ++ entries)) (hanswered : Answered committed p resp) :
    Answered (committed ++ entries) p resp := by
  rcases hanswered with ⟨entry, hentry, hexecuted⟩ | ⟨herror, ⟨above, habove, hlt⟩, hne⟩
  · exact .inl ⟨entry, List.mem_append_left _ hentry, hexecuted⟩
  · refine .inr ⟨herror, ⟨above, List.mem_append_left _ habove, hlt⟩, ?_⟩
    intro entry hentry
    obtain hentry | hentry := List.mem_append.mp hentry
    · exact hne entry hentry
    · have hlater := (List.pairwise_append.mp horder).2.2 above habove entry hentry
      exact (hlt.trans (Entry.key_lt_key hlater)).ne'

/-- Where the proposals and their callbacks are, and what the log has passed. -/
structure Inv (replica : Replica Closure) : Prop where
  increasing : replica.proposed.Pairwise (fun p later => p.1.key < later.1.key)
  moved : (owed (replica.proposed.map Prod.fst)).Nodup
  same : ∀ entry ∈ replica.committed, ∀ p ∈ replica.proposed, p.1.key = entry.key →
    entry.data = some p.2
  order : InLogOrder replica.committed
  handed : ∀ entry ∈ replica.committed, entry.index ≤ replica.last_applying_idx
  queued : replica.proposals <:+ replica.proposed.map Prod.fst
  above : ∀ p ∈ replica.proposals, ∀ entry ∈ replica.committed, entry.key < p.key
  matched : ∀ task ∈ replica.tasks, Matched task.cbs task.entries
  scheduled : ∀ task ∈ replica.tasks, ∀ p ∈ task.cbs, p ∈ replica.proposed.map Prod.fst
  remaining : replica.tasks.flatMap Apply.entries <:+ replica.committed
  ahead : ∀ entry ∈ replica.tasks.flatMap Apply.entries,
    replica.fsm.delegate.apply_state.applied_index < entry.index
  pending : replica.fsm.delegate.pending_cmds = []
  applied : replica.fsm.delegate.apply_state.applied_index ≤ replica.last_applying_idx
  flushed : replica.fsm.delegate.last_flush_applied_index ≤
    replica.fsm.delegate.apply_state.applied_index
  timer : replica.fsm.ctx.timer = false → replica.fsm.ctx.applied_batch = []
  batch : ∀ call ∈ replica.fsm.ctx.applied_batch, ∃ p ∈ replica.proposed, p.1.cb = call.1 ∧
    ∃ entry ∈ replica.committed, entry.key = p.1.key ∧ entry.Executed call.2 ∧
      replica.fsm.delegate.last_flush_applied_index < entry.index
  answered : ∀ call ∈ replica.invoked, ∃ p ∈ replica.proposed, p.1.cb = call.1 ∧
    Answered replica.committed p.1 call.2
  accounted : (replica.invoked.map Prod.fst ++ (replica.fsm.ctx.applied_batch.map Prod.fst ++
    (replica.tasks.flatMap (fun task => task.cbs.map Proposal.cb) ++ owed replica.proposals))).Perm
      (owed (replica.proposed.map Prod.fst))

theorem Inv.start (term applied_index_term : Nat) (apply_state : RaftApplyState) :
    (Replica.start term applied_index_term apply_state : Replica Closure).Inv where
  increasing := .nil
  moved := .nil
  same := by simp [Replica.start]
  order := .nil
  handed := by simp [Replica.start]
  queued := List.suffix_rfl
  above := by simp [Replica.start]
  matched := by simp [Replica.start]
  scheduled := by simp [Replica.start]
  remaining := List.suffix_rfl
  ahead := by simp [Replica.start]
  pending := rfl
  applied := le_rfl
  flushed := le_rfl
  timer := fun _ => rfl
  batch := by simp [Replica.start]
  answered := by simp [Replica.start, invoked]
  accounted := .refl _

variable {replica : Replica Closure}

theorem Inv.push_eq (hinv : replica.Inv) (hguard : replica.ProposeGuard p) :
    ProposalQueue.push replica.proposals p = .ok (replica.proposals ++ [p]) := by
  unfold ProposalQueue.push
  cases hback : replica.proposals.getLast? with
  | none =>
    rw [List.getLast?_eq_none_iff] at hback
    rw [hback]
    rfl
  | some back =>
    have hmem := hinv.queued.subset (List.mem_of_getLast? hback)
    obtain ⟨other, hother, rfl⟩ := List.mem_map.mp hmem
    exact if_pos (hguard.increasing other hother)

theorem Inv.post_propose (request : RaftCmdRequest) (hinv : replica.Inv)
    (hguard : replica.ProposeGuard p) :
    { replica with
      proposals := replica.proposals ++ [p]
      proposed := replica.proposed ++ [(p, request)] }.Inv := by
  have hmap : (replica.proposed ++ [(p, request)]).map Prod.fst =
      replica.proposed.map Prod.fst ++ [p] := by simp
  have hsub : ∀ {other}, other ∈ replica.proposed → other ∈ replica.proposed ++ [(p, request)] :=
    List.mem_append_left _
  refine ⟨?_, ?_, ?_, hinv.order, hinv.handed, ?_, ?_, hinv.matched, ?_, hinv.remaining,
    hinv.ahead, hinv.pending, hinv.applied, hinv.flushed, hinv.timer, ?_, ?_, ?_⟩
  · refine List.pairwise_append.mpr ⟨hinv.increasing, List.pairwise_singleton _ _, ?_⟩
    intro other hother last hlast
    rw [List.mem_singleton.mp hlast]
    exact hguard.increasing other hother
  · rw [hmap, owed_append, List.nodup_append]
    refine ⟨hinv.moved, ?_, ?_⟩
    · cases hnone : p.cb.is_none <;> simp [owed, hnone]
    · intro cb hcb other hother heq
      obtain ⟨⟨earlier, hearlier, rfl⟩, hnone⟩ := mem_owed.mp hcb
      obtain ⟨⟨last, hlast, rfl⟩, -⟩ := mem_owed.mp hother
      obtain ⟨pair, hpair, rfl⟩ := List.mem_map.mp hearlier
      rw [List.mem_singleton.mp hlast] at heq
      rw [heq] at hnone
      exact hguard.moved hnone pair hpair heq
  · intro entry hentry other hother hkey
    obtain hother | hother := List.mem_append.mp hother
    · exact hinv.same entry hentry other hother hkey
    · rw [List.mem_singleton.mp hother] at hkey
      exact absurd hkey (hguard.uncommitted entry hentry).ne'
  · rw [hmap]
    obtain ⟨first, hfirst⟩ := hinv.queued
    exact ⟨first, by rw [← hfirst, List.append_assoc]⟩
  · intro other hother entry hentry
    obtain hother | hother := List.mem_append.mp hother
    · exact hinv.above other hother entry hentry
    · rw [List.mem_singleton.mp hother]
      exact hguard.uncommitted entry hentry
  · intro task htask other hother
    rw [hmap]
    exact List.mem_append_left _ (hinv.scheduled task htask other hother)
  · intro call hcall
    obtain ⟨other, hother, hrest⟩ := hinv.batch call hcall
    exact ⟨other, hsub hother, hrest⟩
  · intro call hcall
    obtain ⟨other, hother, hrest⟩ := hinv.answered call hcall
    exact ⟨other, hsub hother, hrest⟩
  · rw [hmap, owed_append, owed_append]
    have hperm := hinv.accounted.append_right (owed [p])
    simp only [List.append_assoc] at hperm
    exact hperm

theorem CommitGuard.lt_index (hguard : replica.CommitGuard entries) {entry : Entry}
    (hentry : entry ∈ entries) : replica.last_applying_idx < entry.index := by
  have hmem : entry.index ∈ entries.map Entry.index := List.mem_map_of_mem hentry
  rw [hguard.consecutive, List.mem_range'_1] at hmem
  omega

section

variable (hinv : replica.Inv)
include hinv

/-- What raft guarantees puts the entries after the log so far. -/
theorem Inv.order_append (hguard : replica.CommitGuard entries) :
    InLogOrder (replica.committed ++ entries) := by
  have hindices : entries.Pairwise (fun entry later => entry.index < later.index) := by
    have hrange : (List.range' (replica.last_applying_idx + 1) entries.length).Pairwise (· < ·) :=
      List.pairwise_lt_range' ..
    rw [← hguard.consecutive] at hrange
    exact List.pairwise_map.mp hrange
  obtain ⟨-, hlater, hcross⟩ := List.pairwise_append.mp hguard.terms
  refine List.pairwise_append.mpr ⟨hinv.order, hlater.and hindices, ?_⟩
  intro entry hentry later hlater
  have hhanded := hinv.handed entry hentry
  have hindex := hguard.lt_index hlater
  exact ⟨hcross entry hentry later hlater, by omega⟩

theorem Inv.proposed_of_queued (hp : p ∈ replica.proposals) :
    ∃ request, (p, request) ∈ replica.proposed := by
  obtain ⟨pair, hpair, rfl⟩ := List.mem_map.mp (hinv.queued.subset hp)
  exact ⟨pair.2, hpair⟩

theorem Inv.searched (term : Nat) (hguard : replica.CommitGuard entries) :
    ∃ cbs rest calls, ProposalQueue.Searched replica.proposals entries cbs rest calls ∧
      Matched cbs entries ∧
      ProposalQueue.find_proposals term replica.proposals entries = .ok (cbs, rest, calls) := by
  refine ProposalQueue.find_proposals_spec term ?_
    (List.pairwise_append.mp (hinv.order_append hguard)).2.1 ?_ ?_
  · have hsorted : ProposalQueue.Sorted (replica.proposed.map Prod.fst) :=
      List.pairwise_map.mpr hinv.increasing
    exact hsorted.sublist hinv.queued.sublist
  · intro entry hentry p hp hterm hindex
    obtain ⟨request, hproposed⟩ := hinv.proposed_of_queued hp
    obtain ⟨earlier, hearlier, hkey⟩ := hguard.matching entry hentry _ hproposed hterm hindex
    obtain hearlier | hearlier := List.mem_append.mp hearlier
    · exact absurd hkey (hinv.above p hp earlier hearlier).ne
    · exact ⟨earlier, hearlier, hkey⟩
  · intro entry hentry p hp hkey
    obtain ⟨request, hproposed⟩ := hinv.proposed_of_queued hp
    rw [hguard.same entry hentry _ hproposed hkey]
    rfl

/-- What the search drops as stale is stale in the longer log. -/
theorem Inv.stale_answered {cbs rest : List (Proposal Closure)} {calls : List (Call Closure)}
    (hsearched : ProposalQueue.Searched replica.proposals entries cbs rest calls)
    {call : Call Closure} (hcall : call ∈ calls) :
    ∃ p ∈ replica.proposed, p.1.cb = call.1 ∧
      Answered (replica.committed ++ entries) p.1 call.2 := by
  obtain ⟨herror, p, hp, hcb, ⟨above, habove, hlt⟩, hne⟩ := hsearched.stale call hcall
  obtain ⟨request, hproposed⟩ := hinv.proposed_of_queued hp
  refine ⟨(p, request), hproposed, hcb,
    .inr ⟨herror, ⟨above, List.mem_append_right _ habove, hlt⟩, ?_⟩⟩
  intro entry hentry
  obtain hentry | hentry := List.mem_append.mp hentry
  · exact (hinv.above p hp entry hentry).ne
  · exact hne entry hentry

theorem Inv.commit {term : Nat} {last_entry : Entry} {cbs rest : List (Proposal Closure)}
    {calls : List (Call Closure)} (hguard : replica.CommitGuard entries)
    (hlast : entries.getLast? = some last_entry)
    (hsearched : ProposalQueue.Searched replica.proposals entries cbs rest calls)
    (hmatched : Matched cbs entries) :
    { replica with
      proposals := rest
      last_applying_idx := last_entry.index
      tasks := replica.tasks ++ [(⟨term, entries, cbs⟩ : Apply Closure)]
      notified_stale := replica.notified_stale ++ calls
      committed := replica.committed ++ entries }.Inv := by
  classical
  have horder := hinv.order_append hguard
  have hhanded : ∀ entry ∈ replica.committed ++ entries, entry.index ≤ last_entry.index := by
    intro entry hentry
    refine horder.index_le_last ?_ hentry
    rw [List.getLast?_append, hlast]
    rfl
  have hahead : ∀ entry ∈ entries,
      replica.fsm.delegate.apply_state.applied_index < entry.index := by
    intro entry hentry
    have hindex := hguard.lt_index hentry
    have happlied := hinv.applied
    omega
  have hlastMem : last_entry ∈ entries := List.mem_of_getLast? hlast
  have hflat : (replica.tasks ++ [(⟨term, entries, cbs⟩ : Apply Closure)]).flatMap Apply.entries =
      replica.tasks.flatMap Apply.entries ++ entries := by simp
  refine ⟨hinv.increasing, hinv.moved, ?_, horder, hhanded, hsearched.suffix.trans hinv.queued,
    ?_, ?_, ?_, ?_, ?_, hinv.pending, (hahead last_entry hlastMem).le, hinv.flushed, hinv.timer,
    ?_, ?_, ?_⟩
  · intro entry hentry p hp hkey
    obtain hentry | hentry := List.mem_append.mp hentry
    · exact hinv.same entry hentry p hp hkey
    · exact hguard.same entry hentry p hp hkey
  · intro p hp entry hentry
    obtain hentry | hentry := List.mem_append.mp hentry
    · exact hinv.above p (hsearched.suffix.subset hp) entry hentry
    · exact hsearched.above p hp entry hentry
  · intro task htask
    obtain htask | htask := List.mem_append.mp htask
    · exact hinv.matched task htask
    · rw [List.mem_singleton.mp htask]
      exact hmatched
  · intro task htask p hp
    obtain htask | htask := List.mem_append.mp htask
    · exact hinv.scheduled task htask p hp
    · rw [List.mem_singleton.mp htask] at hp
      exact hinv.queued.subset (hsearched.cbs p hp)
  · rw [hflat]
    obtain ⟨first, hfirst⟩ := hinv.remaining
    exact ⟨first, by rw [← hfirst, List.append_assoc]⟩
  · intro entry hentry
    rw [hflat] at hentry
    obtain hentry | hentry := List.mem_append.mp hentry
    · exact hinv.ahead entry hentry
    · exact hahead entry hentry
  · intro call hcall
    obtain ⟨p, hp, hcb, entry, hentry, hrest⟩ := hinv.batch call hcall
    exact ⟨p, hp, hcb, entry, List.mem_append_left _ hentry, hrest⟩
  · intro call hcall
    have hold : ∀ call ∈ replica.invoked, ∃ p ∈ replica.proposed, p.1.cb = call.1 ∧
        Answered (replica.committed ++ entries) p.1 call.2 := by
      intro call hcall
      obtain ⟨p, hp, hcb, hanswered⟩ := hinv.answered call hcall
      exact ⟨p, hp, hcb, hanswered.append horder⟩
    obtain hcall | hcall := List.mem_append.mp hcall
    · obtain hcall | hcall := List.mem_append.mp hcall
      · exact hold call (List.mem_append_left _ hcall)
      · exact hinv.stale_answered hsearched hcall
    · exact hold call (List.mem_append_right _ hcall)
  · have hbefore := hinv.accounted
    have hsearch := hsearched.accounted
    rw [List.perm_iff_count] at hbefore hsearch ⊢
    intro cb
    have hcount := hbefore cb
    have hcountSearch := hsearch cb
    simp only [invoked, List.map_append, List.flatMap_append, List.flatMap_cons, List.flatMap_nil,
      List.append_nil, List.count_append] at hcount hcountSearch ⊢
    omega

theorem Inv.apply_task {task : Apply Closure} {tasks : List (Apply Closure)}
    {before after : ApplyFsm Closure} (htasks : replica.tasks = task :: tasks)
    (hbefore : before = { replica.fsm with ctx := { replica.fsm.ctx with timer := true } })
    (happlied : ApplyFsm.Applied task.entries task.cbs before after) :
    { replica with tasks := tasks, fsm := after }.Inv := by
  classical
  subst hbefore
  have hflat : replica.tasks.flatMap Apply.entries =
      task.entries ++ tasks.flatMap Apply.entries := by rw [htasks, List.flatMap_cons]
  have hremaining := hinv.remaining
  rw [hflat] at hremaining
  have hahead := hinv.ahead
  rw [hflat] at hahead
  have horder := List.pairwise_append.mp (hinv.order.sublist hremaining.sublist)
  have hsub : ∀ {other}, other ∈ tasks → other ∈ replica.tasks := by
    intro other hother
    rw [htasks]
    exact List.mem_cons_of_mem _ hother
  have htask : task ∈ replica.tasks := by
    rw [htasks]
    exact List.mem_cons_self
  obtain ⟨batch, hbatch, hresponses⟩ := happlied.batch
  refine ⟨hinv.increasing, hinv.moved, hinv.same, hinv.order, hinv.handed, hinv.queued, hinv.above,
    fun other hother => hinv.matched other (hsub hother),
    fun other hother => hinv.scheduled other (hsub hother), ?_, ?_, happlied.pending, ?_, ?_, ?_,
    ?_, ?_, ?_⟩
  · exact (List.suffix_append _ _).trans hremaining
  · intro entry hentry
    refine happlied.reached entry.index (hahead entry (List.mem_append_right _ hentry)) ?_
    intro earlier hearlier
    exact (horder.2.2 earlier hearlier entry hentry).2
  · have hreached := happlied.reached (replica.last_applying_idx + 1)
      (Nat.lt_succ_of_le hinv.applied) ?_
    · exact Nat.le_of_lt_succ hreached
    · intro entry hentry
      exact Nat.lt_succ_of_le
        (hinv.handed entry (hremaining.subset (List.mem_append_left _ hentry)))
  · rw [happlied.flushed]
    exact hinv.flushed.trans happlied.advanced
  · intro htimer
    rw [happlied.timer] at htimer
    cases htimer
  · intro call hcall
    rw [happlied.flushed]
    rw [hbatch] at hcall
    obtain hcall | hcall := List.mem_append.mp hcall
    · exact hinv.batch call hcall
    · obtain ⟨p, hp, hcb, entry, hentry, hkey, hexecuted⟩ :=
        Exec.exists_input_of_mem hresponses hcall
      obtain ⟨pair, hpair, rfl⟩ := List.mem_map.mp (hinv.scheduled task htask p hp)
      have hindex := hahead entry (List.mem_append_left _ hentry)
      exact ⟨pair, hpair, hcb.symm, entry, hremaining.subset (List.mem_append_left _ hentry), hkey,
        hexecuted, hinv.flushed.trans_lt hindex⟩
  · intro call hcall
    unfold invoked at hcall
    rw [happlied.invoked] at hcall
    exact hinv.answered call hcall
  · have hcbs : batch.map Prod.fst = task.cbs.map Proposal.cb :=
      Exec.map_eq_map_of_forall₂ (fun _ _ hresponse => hresponse.1) hresponses
    have hbefore := hinv.accounted
    rw [List.perm_iff_count] at hbefore ⊢
    intro cb
    have hcount := hbefore cb
    simp only [invoked, htasks, happlied.invoked, hbatch, hcbs, List.map_append, List.flatMap_cons,
      List.count_append] at hcount ⊢
    omega

/-- A callback that waits for the next write is not `None`. -/
theorem Inv.invoke_batch :
    replica.fsm.ctx.applied_batch.flatMap (fun call => call.1.invoke_with_response call.2) =
      replica.fsm.ctx.applied_batch := by
  have hcalls : ∀ call ∈ replica.fsm.ctx.applied_batch,
      call.1.invoke_with_response call.2 = [call] := by
    intro call hcall
    have hmem : call.1 ∈ owed (replica.proposed.map Prod.fst) := by
      refine hinv.accounted.subset (List.mem_append_right _ (List.mem_append_left _ ?_))
      exact List.mem_map_of_mem hcall
    simp [Callback.invoke_with_response, (mem_owed.mp hmem).2]
  rw [List.flatMap_congr hcalls, List.flatMap_singleton']

theorem Inv.end_poll : { replica with fsm := replica.fsm.end_poll }.Inv := by
  cases htimer : replica.fsm.ctx.timer with
  | false =>
    have hempty := hinv.timer htimer
    have hctx : replica.fsm.end_poll.ctx = replica.fsm.ctx := by
      simp [ApplyFsm.end_poll, ApplyContext.flush, htimer]
    refine ⟨hinv.increasing, hinv.moved, hinv.same, hinv.order, hinv.handed, hinv.queued,
      hinv.above, hinv.matched, hinv.scheduled, hinv.remaining, hinv.ahead, hinv.pending,
      hinv.applied, le_rfl, ?_, ?_, ?_, ?_⟩
    · rw [hctx]
      exact hinv.timer
    · rw [hctx, hempty]
      simp
    · unfold invoked
      rw [hctx]
      exact hinv.answered
    · unfold invoked
      rw [hctx]
      exact hinv.accounted
  | true =>
    have hinvoked : replica.fsm.end_poll.ctx.invoked =
        replica.fsm.ctx.invoked ++ replica.fsm.ctx.applied_batch := by
      simp only [ApplyFsm.end_poll, ApplyContext.flush, htimer, if_true, ApplyContext.write_to_db,
        hinv.invoke_batch]
    have hbatch : replica.fsm.end_poll.ctx.applied_batch = [] := by
      simp [ApplyFsm.end_poll, ApplyContext.flush, htimer, ApplyContext.write_to_db]
    refine ⟨hinv.increasing, hinv.moved, hinv.same, hinv.order, hinv.handed, hinv.queued,
      hinv.above, hinv.matched, hinv.scheduled, hinv.remaining, hinv.ahead, hinv.pending,
      hinv.applied, le_rfl, fun _ => hbatch, ?_, ?_, ?_⟩
    · rw [hbatch]
      simp
    · intro call hcall
      unfold invoked at hcall
      rw [hinvoked, ← List.append_assoc] at hcall
      obtain hcall | hcall := List.mem_append.mp hcall
      · exact hinv.answered call hcall
      · obtain ⟨p, hp, hcb, entry, hentry, hkey, hexecuted, -⟩ := hinv.batch call hcall
        exact ⟨p, hp, hcb, .inl ⟨entry, hentry, hkey, hexecuted⟩⟩
    · have hbefore := hinv.accounted
      simp only [invoked, hinvoked, hbatch, List.map_append, List.map_nil, List.nil_append,
        List.append_assoc] at hbefore ⊢
      exact hbefore

theorem Inv.post_propose_eq (request : RaftCmdRequest) (hguard : replica.ProposeGuard p) :
    replica.post_propose p request = .ok { replica with
      proposals := replica.proposals ++ [p]
      proposed := replica.proposed ++ [(p, request)] } := by
  unfold Replica.post_propose
  rw [hinv.push_eq hguard]
  rfl

theorem Inv.post_propose_ensures (request : RaftCmdRequest) (hguard : replica.ProposeGuard p) :
    Exec.Ensures Panic.IsCallbackPanic Replica.Inv (replica.post_propose p request) := by
  rw [hinv.post_propose_eq request hguard]
  exact hinv.post_propose request hguard

theorem Inv.commit_ensures (term : Nat) (hguard : replica.CommitGuard entries) :
    Exec.Ensures Panic.IsCallbackPanic Replica.Inv
      (replica.handle_raft_committed_entries term entries) := by
  unfold handle_raft_committed_entries
  cases hlast : entries.getLast? with
  | none => exact hinv
  | some last_entry =>
    obtain ⟨cbs, rest, calls, hsearched, hmatched, hfind⟩ := hinv.searched term hguard
    simp only [hfind, Exec.ok_bind]
    exact hinv.commit hguard hlast hsearched hmatched

theorem Inv.apply_task_ensures :
    Exec.Ensures Panic.IsCallbackPanic Replica.Inv replica.apply_task := by
  unfold Replica.apply_task
  cases htasks : replica.tasks with
  | nil => exact hinv
  | cons task tasks =>
    have hmatched : Matched task.cbs task.entries := by
      refine hinv.matched task ?_
      rw [htasks]
      exact List.mem_cons_self
    refine (ApplyFsm.handle_apply_ensures hmatched hinv.pending).bind ?_
    rintro after ⟨before, hbefore, happlied⟩
    exact hinv.apply_task htasks hbefore happlied

/-- A guarded step keeps the invariant and does not panic about a callback. -/
theorem Inv.step {action : Action Closure} (hguard : replica.Guard action) :
    Exec.Ensures Panic.IsCallbackPanic Replica.Inv (replica.step action) := by
  cases action with
  | propose p request => exact hinv.post_propose_ensures request hguard
  | commit term entries => exact hinv.commit_ensures term hguard
  | apply_task => exact hinv.apply_task_ensures
  | end_poll => exact hinv.end_poll

/-- A proposal that the written log has reached is not waiting anywhere. -/
theorem Inv.fired {p : Proposal Closure × RaftCmdRequest} {entry : Entry}
    (hp : p ∈ replica.proposed) (hnone : p.1.cb.is_none = false)
    (hentry : entry ∈ replica.committed)
    (hflushed : entry.index ≤ replica.fsm.delegate.last_flush_applied_index)
    (hkey : p.1.key ≤ entry.key) : p.1.cb ∈ replica.invoked.map Prod.fst := by
  have hmem : p.1 ∈ replica.proposed.map Prod.fst := List.mem_map_of_mem hp
  have howed : p.1.cb ∈ owed (replica.proposed.map Prod.fst) :=
    mem_owed.mpr ⟨⟨p.1, hmem, rfl⟩, hnone⟩
  have heq : ∀ {q : Proposal Closure}, q ∈ replica.proposed.map Prod.fst → q.cb = p.1.cb →
      q = p.1 := fun hq hcb => (eq_of_owed_nodup hinv.moved hmem hq hnone hcb.symm).symm
  -- its entry would be above the written log
  have hreached : ∀ later ∈ replica.committed, later.key = p.1.key →
      later.index ≤ replica.fsm.delegate.last_flush_applied_index := by
    intro later hlater hlaterKey
    by_contra hindex
    have hlt := hinv.order.key_lt hentry hlater (hflushed.trans_lt (not_le.mp hindex))
    rw [hlaterKey] at hlt
    exact absurd hkey (not_le.mpr hlt)
  have hplaces := hinv.accounted.symm.subset howed
  obtain hinvoked | hplaces := List.mem_append.mp hplaces
  · exact hinvoked
  obtain hbatch | hplaces := List.mem_append.mp hplaces
  · exfalso
    obtain ⟨call, hcall, hcallCb⟩ := List.mem_map.mp hbatch
    obtain ⟨q, hq, hcb, later, hlater, hlaterKey, -, hindex⟩ := hinv.batch call hcall
    have hsame := heq (List.mem_map_of_mem hq) (hcb.trans hcallCb)
    rw [hsame] at hlaterKey
    exact absurd (hreached later hlater hlaterKey) (not_le.mpr hindex)
  obtain htasks | hqueued := List.mem_append.mp hplaces
  · exfalso
    obtain ⟨task, htask, hcbs⟩ := List.mem_flatMap.mp htasks
    obtain ⟨q, hq, hcb⟩ := List.mem_map.mp hcbs
    have hsame := heq (hinv.scheduled task htask q hq) hcb
    obtain ⟨later, hlater, hlaterKey⟩ := (hinv.matched task htask).exists_entry hq
    rw [hsame] at hlaterKey
    have hremaining : later ∈ replica.tasks.flatMap Apply.entries :=
      List.mem_flatMap.mpr ⟨task, htask, hlater⟩
    have hindex := hinv.ahead later hremaining
    have hle := hreached later (hinv.remaining.subset hremaining) hlaterKey
    have hflush := hinv.flushed
    omega
  · exfalso
    obtain ⟨⟨q, hq, hcb⟩, -⟩ := mem_owed.mp hqueued
    have habove := hinv.above q hq entry hentry
    rw [heq (hinv.queued.subset hq) hcb] at habove
    exact absurd hkey (not_le.mpr habove)

end

/-- The callbacks of the proposals fire exactly once and truthfully. -/
structure CallbacksFireOnce (replica : Replica Closure) : Prop where
  /-- No callback runs twice. -/
  once : (replica.invoked.map Prod.fst).Nodup
  /-- A callback gets the response of the entry that is committed at exactly the
  term and index of its proposal, which is a success unless the command is an
  administrator command; otherwise nothing is committed there and it gets
  `StaleCommand`. -/
  truthful : ∀ call ∈ replica.invoked, ∃ p ∈ replica.proposed, p.1.cb = call.1 ∧
    ((∃ entry ∈ replica.committed, entry.key = p.1.key ∧ entry.data = some p.2 ∧
        entry.Executed call.2 ∧
        ((∀ request, p.2.body ≠ .admin_request request) → call.2.header.error = none)) ∨
      call.2.header.error = some .StaleCommand ∧
        ∀ entry ∈ replica.committed, entry.key ≠ p.1.key)
  /-- Once an entry at or above a proposal is applied and written, the callback
  of the proposal has run. -/
  fired : ∀ p ∈ replica.proposed, p.1.cb.is_none = false → ∀ entry ∈ replica.committed,
    entry.index ≤ replica.fsm.delegate.last_flush_applied_index → p.1.key ≤ entry.key →
      p.1.cb ∈ replica.invoked.map Prod.fst
  /-- No next step panics about a callback. -/
  no_panic : ∀ action, replica.Guard action →
    Exec.Avoids Panic.IsCallbackPanic (replica.step action)

theorem Inv.callbacks_fire_once (hinv : replica.Inv) : replica.CallbacksFireOnce where
  once := (hinv.accounted.nodup_iff.mpr hinv.moved).of_append_left
  truthful := by
    intro call hcall
    obtain ⟨p, hp, hcb, ⟨entry, hentry, hkey, hexecuted⟩ | ⟨herror, -, hne⟩⟩ :=
      hinv.answered call hcall
    · have hdata := hinv.same entry hentry p hp hkey.symm
      refine ⟨p, hp, hcb, .inl ⟨entry, hentry, hkey, hdata, hexecuted, ?_⟩⟩
      intro hbody
      rcases hexecuted.responds hdata with hresponds | ⟨⟨request, hadmin⟩, -⟩
      · exact hresponds.error
      · exact absurd hadmin (hbody request)
    · exact ⟨p, hp, hcb, .inr ⟨herror, hne⟩⟩
  fired := fun _ hp hnone _ hentry => hinv.fired hp hnone hentry
  no_panic := fun _ hguard => (hinv.step hguard).avoids

/-- A step of the machine; a panic ends the run. -/
def try_step (replica : Replica Closure) (action : Action Closure) : Option (Replica Closure) :=
  (replica.step action).toOption

theorem Inv.try_step {action : Action Closure} {next : Replica Closure} (hinv : replica.Inv)
    (hguard : replica.Guard action) (hstep : replica.try_step action = some next) : next.Inv :=
  (hinv.step hguard).of_ok (Exec.toOption_eq_some_iff.mp hstep)

theorem Inv.run {start reached : Replica Closure} {actions : List (Action Closure)}
    (hinv : start.Inv) (hguard : Run.Along Replica.try_step Replica.Guard start actions)
    (hrun : Run.run Replica.try_step start actions = some reached) : reached.Inv :=
  Run.run_invariant_along (fun _ _ _ hinv hguard hstep => hinv.try_step hguard hstep)
    hinv hguard hrun

/-- In every state of every run of a peer, over any number of terms, in which
raft keeps its guarantees. -/
theorem proposal_callbacks_fire_once (term applied_index_term : Nat) (apply_state : RaftApplyState)
    {actions : List (Action Closure)} {reached : Replica Closure}
    (hguard : Run.Along Replica.try_step Replica.Guard
      (Replica.start term applied_index_term apply_state) actions)
    (hrun : Run.run Replica.try_step (Replica.start term applied_index_term apply_state) actions =
      some reached) : reached.CallbacksFireOnce :=
  ((Inv.start term applied_index_term apply_state).run hguard hrun).callbacks_fire_once

def one_message (payload : Bytes) : RaftCmdRequest := { body := .requests [.MessageQueue payload] }

/-- A leader of term 6 proposes two commands and loses its leadership; the
leader of term 7 overwrites the second one. -/
def overwritten : List (Action Nat) :=
  [.propose { index := 6, term := 6, cb := .Write 0 } (one_message [1]),
    .propose { index := 7, term := 6, cb := .Write 1 } (one_message [2]),
    .commit 7 [⟨6, 6, some (one_message [1])⟩, ⟨7, 7, none⟩], .apply_task, .end_poll]

theorem proposal_callbacks_fire_once_overwritten :
    ∃ reached, Run.run Replica.try_step (Replica.start 6 5 write_initial_apply_state) overwritten =
        some reached ∧
      reached.invoked.map (fun call => (call.1, call.2.header.error)) =
        [(.Write 1, some .StaleCommand), (.Write 0, none)] ∧
      reached.CallbacksFireOnce := by
  have hguard : Run.Along Replica.try_step Replica.Guard
      (Replica.start 6 5 write_initial_apply_state) overwritten := by decide +kernel
  obtain ⟨reached, hrun, hinvoked⟩ :
      ∃ reached ∈ Run.run Replica.try_step (Replica.start 6 5 write_initial_apply_state)
        overwritten, reached.invoked.map (fun call => (call.1, call.2.header.error)) =
          [(.Write 1, some .StaleCommand), (.Write 0, none)] := by
    decide +kernel
  exact ⟨reached, hrun, hinvoked,
    proposal_callbacks_fire_once 6 5 write_initial_apply_state hguard hrun⟩

end Replica

end hologram_kv
