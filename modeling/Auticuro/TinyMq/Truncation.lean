import Auticuro.TinyMq.ApplyState

namespace hologram_kv

variable {Closure : Type}

namespace ApplyFsm

variable {fsm next : ApplyFsm Closure}

/-- What the entries of a task do to the apply state, with the results that are
reported for them. -/
structure AppliesAll (state : RaftApplyState) (entries : List Entry) (next : RaftApplyState)
    (results : List ExecResult) : Prop where
  applied : next.applied_index = (entries.getLast?.map Entry.index).getD state.applied_index
  commit_index : next.commit_index = state.commit_index
  commit_term : next.commit_term = state.commit_term
  forward : state.truncated_state.index ≤ next.truncated_state.index
  results : ∀ result ∈ results, result.compact_index ≤ next.truncated_state.index
  origin : next.truncated_state.index = state.truncated_state.index ∨
    ∃ entry ∈ entries, entry.compact_index = some next.truncated_state.index
  below : state.truncated_state.index ≤ state.applied_index →
    next.truncated_state.index ≤ next.applied_index ∧
      (entries ≠ [] → next.truncated_state.index < next.applied_index)

namespace AppliesAll

variable {state middle last : RaftApplyState} {entry : Entry} {entries : List Entry}
  {res : Option ExecResult} {results : List ExecResult}

theorem nil (state : RaftApplyState) : AppliesAll state [] state [] where
  applied := rfl
  commit_index := rfl
  commit_term := rfl
  forward := le_rfl
  results := by rintro result ⟨⟩
  origin := .inl rfl
  below := fun hle => ⟨hle, fun hne => absurd rfl hne⟩

theorem applied_of_nil (hall : AppliesAll middle [] last results) :
    last.applied_index = middle.applied_index ∧
      last.truncated_state.index = middle.truncated_state.index := by
  refine ⟨hall.applied, ?_⟩
  obtain hsame | ⟨entry, hentry, -⟩ := hall.origin
  · exact hsame
  · cases hentry

theorem cons (hadvances : Advances state entry middle res)
    (hnext : entry.index = state.applied_index + 1)
    (hall : AppliesAll middle entries last results) :
    AppliesAll state (entry :: entries) last (res.toList ++ results) where
  applied := by
    rw [hall.applied, hadvances.applied, List.getLast?_cons]
    cases entries.getLast? with
    | none | some other => rfl
  commit_index := hall.commit_index.trans hadvances.commit_index
  commit_term := hall.commit_term.trans hadvances.commit_term
  forward := hadvances.forward.trans hall.forward
  results := by
    intro result hresult
    obtain hresult | hresult := List.mem_append.mp hresult
    · obtain ⟨rfl, -⟩ | ⟨result', rfl, -, hindex, -, -⟩ := hadvances.truncated
      · cases hresult
      · rw [List.mem_singleton.mp hresult, ← hindex]
        exact hall.forward
    · exact hall.results result hresult
  origin := by
    obtain hsame | ⟨other, hother, hcompact⟩ := hall.origin
    · rw [hsame]
      obtain ⟨-, hkept⟩ | ⟨result, -, hcompact, hindex, -, -⟩ := hadvances.truncated
      · rw [hkept]
        exact .inl rfl
      · rw [hindex]
        exact .inr ⟨entry, List.mem_cons_self, hcompact⟩
    · exact .inr ⟨other, List.mem_cons_of_mem _ hother, hcompact⟩
  below := by
    intro hle
    have hlt := hadvances.below hnext hle
    obtain ⟨hle', hlt'⟩ := hall.below hlt.le
    refine ⟨hle', fun _ => ?_⟩
    by_cases hempty : entries = []
    · subst hempty
      obtain ⟨happlied, htruncated⟩ := hall.applied_of_nil
      rw [happlied, htruncated]
      exact hlt
    · exact hlt' hempty

end AppliesAll

theorem apply_entries_applies_all {entries : List Entry} {results : List ExecResult}
    (happly : fsm.apply_entries entries = .ok (next, results)) :
    AppliesAll fsm.delegate.apply_state entries next.delegate.apply_state results ∧
      next.ctx.kv = fsm.ctx.kv ∧ next.ctx.kv_wb = fsm.ctx.kv_wb ∧
      next.ctx.apply_res = fsm.ctx.apply_res ∧ next.ctx.notified = fsm.ctx.notified := by
  induction entries generalizing fsm results with
  | nil =>
    cases happly
    exact ⟨.nil _, rfl, rfl, rfl, rfl⟩
  | cons entry entries ih =>
    obtain ⟨hnext, middle, res, later, hhandle, hlater, rfl⟩ := apply_entries_cons_eq_ok happly
    obtain ⟨hadvances, hkv, hwb, hres, hnotified⟩ := handle_raft_entry_normal_advances hhandle
    obtain ⟨hall, hkv', hwb', hres', hnotified'⟩ := ih hlater
    exact ⟨.cons hadvances hnext hall, hkv'.trans hkv, hwb'.trans hwb, hres'.trans hres,
      hnotified'.trans hnotified⟩

/-- A task sets the commit state to its last entry, applies its entries, puts the
apply state into the write batch and reports what it has compacted. -/
theorem handle_apply_applies_all {apply : Apply Closure}
    (happly : fsm.handle_apply apply = .ok next) :
    ∃ last results, apply.entries.getLast? = some last ∧
      AppliesAll
        { fsm.delegate.apply_state with commit_index := last.index, commit_term := last.term }
        apply.entries next.delegate.apply_state results ∧
      next.ctx.kv = fsm.ctx.kv ∧ next.ctx.kv_wb = some next.delegate.apply_state ∧
      next.ctx.notified = fsm.ctx.notified ∧
      next.ctx.apply_res = fsm.ctx.apply_res ++
        [⟨next.delegate.apply_state, next.delegate.applied_index_term, results⟩] := by
  unfold ApplyFsm.handle_apply at happly
  split at happly
  · cases happly
  · next last hlast =>
    obtain ⟨committed, hcommitted, hrest⟩ := Exec.bind_eq_ok_iff.mp happly
    simp only [set_commit_state] at hcommitted
    split at hcommitted
    · cases hcommitted
    · cases hcommitted
      obtain ⟨⟨reached, results⟩, hentries, hok⟩ := Exec.bind_eq_ok_iff.mp hrest
      cases hok
      obtain ⟨hall, hkv, -, hres, hnotified⟩ := apply_entries_applies_all hentries
      refine ⟨last, results, hlast, hall, hkv, rfl, hnotified, ?_⟩
      simp only [finish_for, hres]
      rfl

/-- What the apply thread has written, has in its batch and works on. A compaction
is in the batch before its result waits to be sent, and written before the result
is sent. -/
structure Reports (P : RaftApplyState → Prop) (fsm : ApplyFsm Closure) : Prop where
  kv : P fsm.ctx.kv
  kv_wb : ∀ state ∈ fsm.ctx.kv_wb, P state
  delegate : P fsm.delegate.apply_state
  kv_le_wb : ∀ state ∈ fsm.ctx.kv_wb,
    fsm.ctx.kv.truncated_state.index ≤ state.truncated_state.index
  wb_le : ∀ state ∈ fsm.ctx.kv_wb,
    state.truncated_state.index ≤ fsm.delegate.apply_state.truncated_state.index
  kv_le : fsm.ctx.kv.truncated_state.index ≤ fsm.delegate.apply_state.truncated_state.index
  apply_res : ∀ res ∈ fsm.ctx.apply_res, ∀ result ∈ res.exec_res,
    ∃ state ∈ fsm.ctx.kv_wb, result.compact_index ≤ state.truncated_state.index
  notified : ∀ res ∈ fsm.ctx.notified, ∀ result ∈ res.exec_res,
    result.compact_index ≤ fsm.ctx.kv.truncated_state.index
  reported : ∀ res ∈ fsm.ctx.notified ++ fsm.ctx.apply_res, P res.apply_state

namespace Reports

variable {P Q : RaftApplyState → Prop}

theorem start (term applied_index_term : Nat) {apply_state : RaftApplyState}
    (hstate : P apply_state) :
    (Replica.start term applied_index_term apply_state : Replica Closure).fsm.Reports P where
  kv := hstate
  kv_wb := by rintro state ⟨⟩
  delegate := hstate
  kv_le_wb := by rintro state ⟨⟩
  wb_le := by rintro state ⟨⟩
  kv_le := le_rfl
  apply_res := by rintro res ⟨⟩
  notified := by rintro res ⟨⟩
  reported := by rintro res ⟨⟩

theorem imp (hreports : fsm.Reports P) (himp : ∀ state, P state → Q state) : fsm.Reports Q :=
  { hreports with
    kv := himp _ hreports.kv
    kv_wb := fun state hstate => himp state (hreports.kv_wb state hstate)
    delegate := himp _ hreports.delegate
    reported := fun res hres => himp _ (hreports.reported res hres) }

theorem handle_apply {apply : Apply Closure} (hreports : fsm.Reports P)
    (happly : fsm.handle_apply apply = .ok next) (hnext : P next.delegate.apply_state) :
    next.Reports P := by
  obtain ⟨last, results, -, hall, hkv, hwb, hnotified, hres⟩ := handle_apply_applies_all happly
  have hforward : fsm.delegate.apply_state.truncated_state.index ≤
      next.delegate.apply_state.truncated_state.index := hall.forward
  refine ⟨?_, ?_, hnext, ?_, ?_, ?_, ?_, ?_, ?_⟩
  · rw [hkv]
    exact hreports.kv
  · rw [hwb]
    rintro state ⟨⟩
    exact hnext
  · rw [hwb, hkv]
    rintro state ⟨⟩
    exact hreports.kv_le.trans hforward
  · rw [hwb]
    rintro state ⟨⟩
    exact le_rfl
  · rw [hkv]
    exact hreports.kv_le.trans hforward
  · rw [hres, hwb]
    intro res hmem result hresult
    refine ⟨_, rfl, ?_⟩
    obtain hmem | hmem := List.mem_append.mp hmem
    · obtain ⟨state, hstate, hle⟩ := hreports.apply_res res hmem result hresult
      exact hle.trans ((hreports.wb_le state hstate).trans hforward)
    · rw [List.mem_singleton.mp hmem] at hresult
      exact hall.results result hresult
  · rw [hnotified, hkv]
    exact hreports.notified
  · rw [hnotified, hres, ← List.append_assoc]
    intro res hmem
    obtain hmem | hmem := List.mem_append.mp hmem
    · exact hreports.reported res hmem
    · rw [List.mem_singleton.mp hmem]
      exact hnext

theorem end_poll (hreports : fsm.Reports P) : fsm.end_poll.Reports P := by
  have hempty : ∀ {R : RaftApplyState → Prop},
      ∀ state ∈ (none : Option RaftApplyState), R state := by
    rintro R state ⟨⟩
  have hreported : ∀ res ∈ (fsm.ctx.notified ++ fsm.ctx.apply_res) ++ [], P res.apply_state := by
    rw [List.append_nil]
    exact hreports.reported
  unfold ApplyFsm.end_poll ApplyContext.flush
  split
  · cases hwb : fsm.ctx.kv_wb with
    | none =>
      simp only [ApplyContext.write_to_db, hwb, Option.getD_none]
      refine ⟨hreports.kv, hempty, hreports.delegate, hempty, hempty, hreports.kv_le, ?_, ?_,
        hreported⟩
      · rintro res ⟨⟩
      · intro res hmem result hresult
        obtain hmem | hmem := List.mem_append.mp hmem
        · exact hreports.notified res hmem result hresult
        · obtain ⟨state, hstate, -⟩ := hreports.apply_res res hmem result hresult
          rw [hwb] at hstate
          cases hstate
    | some state =>
      simp only [ApplyContext.write_to_db, hwb, Option.getD_some]
      refine ⟨hreports.kv_wb state hwb, hempty, hreports.delegate, hempty, hempty,
        hreports.wb_le state hwb, ?_, ?_, hreported⟩
      · rintro res ⟨⟩
      · intro res hmem result hresult
        obtain hmem | hmem := List.mem_append.mp hmem
        · exact (hreports.notified res hmem result hresult).trans (hreports.kv_le_wb state hwb)
        · obtain ⟨other, hother, hle⟩ := hreports.apply_res res hmem result hresult
          cases hwb.symm.trans hother
          exact hle
  · exact ⟨hreports.kv, hreports.kv_wb, hreports.delegate, hreports.kv_le_wb, hreports.wb_le,
      hreports.kv_le, hreports.apply_res, hreports.notified, hreports.reported⟩

end Reports

end ApplyFsm

end hologram_kv
