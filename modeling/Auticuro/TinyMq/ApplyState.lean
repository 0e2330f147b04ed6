import Auticuro.Library.Exec
import Auticuro.TinyMq.Peer

namespace hologram_kv

variable {Closure : Type}

/-- The index up to which the entry compacts the log. -/
def Entry.compact_index (entry : Entry) : Option Nat :=
  match entry.data.map RaftCmdRequest.body with
  | some (.admin_request (.CompactLog compact_index _)) => some compact_index
  | _ => none

def ExecResult.compact_index : ExecResult → Nat
  | .CompactLog state _ => state.index

/-- What an entry does to the apply state: it moves the applied index and, as a
compaction, the truncated index to an applied one. -/
inductive Applies (state : RaftApplyState) (entry : Entry) :
    RaftApplyState → Option ExecResult → Prop where
  | other {next : RaftApplyState} (happlied : next.applied_index = entry.index)
      (htruncated : next.truncated_state = state.truncated_state) : Applies state entry next none
  | compact {next : RaftApplyState} {res : ExecResult} (happlied : next.applied_index = entry.index)
      (hentry : entry.compact_index = some res.compact_index)
      (hindex : next.truncated_state.index = res.compact_index)
      (hle : res.compact_index ≤ state.applied_index) : Applies state entry next (some res)

/-- An entry moves the applied index to its own and leaves the commit state; a
compaction moves the truncated index forward to an applied one. -/
structure Advances (state : RaftApplyState) (entry : Entry) (next : RaftApplyState)
    (res : Option ExecResult) : Prop where
  applied : next.applied_index = entry.index
  commit_index : next.commit_index = state.commit_index
  commit_term : next.commit_term = state.commit_term
  truncated : (res = none ∧ next.truncated_state = state.truncated_state) ∨
    ∃ result, res = some result ∧ entry.compact_index = some result.compact_index ∧
      next.truncated_state.index = result.compact_index ∧
      state.truncated_state.index < result.compact_index ∧
      result.compact_index ≤ state.applied_index

namespace Advances

variable {state next : RaftApplyState} {entry : Entry} {res : Option ExecResult}

theorem applies (hadvances : Advances state entry next res) : Applies state entry next res := by
  obtain ⟨rfl, hsame⟩ | ⟨result, rfl, hentry, hindex, -, hle⟩ := hadvances.truncated
  · exact .other hadvances.applied hsame
  · exact .compact hadvances.applied hentry hindex hle

theorem forward (hadvances : Advances state entry next res) :
    state.truncated_state.index ≤ next.truncated_state.index := by
  obtain ⟨-, hsame⟩ | ⟨result, -, -, hindex, hlt, -⟩ := hadvances.truncated
  · rw [hsame]
  · rw [hindex]
    exact hlt.le

theorem below (hadvances : Advances state entry next res)
    (hnext : entry.index = state.applied_index + 1)
    (hle : state.truncated_state.index ≤ state.applied_index) :
    next.truncated_state.index < next.applied_index := by
  have happlied := hadvances.applied
  obtain ⟨-, hsame⟩ | ⟨result, -, -, hindex, -, happlied⟩ := hadvances.truncated
  · rw [hsame]
    omega
  · omega

end Advances

/-- A compaction is refused, has nothing to do, or goes to an applied index. -/
theorem exec_compact_log_cases (state : RaftApplyState) (compact_index compact_term : Nat) :
    (∃ message, exec_compact_log state compact_index compact_term = .error (.Other message)) ∨
      exec_compact_log state compact_index compact_term = .ok (state, none) ∨
      compact_index ≤ state.applied_index ∧
        exec_compact_log state compact_index compact_term =
          .ok ({ state with truncated_state := ⟨compact_index, compact_term⟩ },
            some (.CompactLog ⟨compact_index, compact_term⟩ (first_index state))) := by
  unfold exec_compact_log compact_raft_log
  split
  · exact .inr (.inl rfl)
  · split
    · exact .inl ⟨_, rfl⟩
    · split
      · exact .inl ⟨_, rfl⟩
      · split
        · exact .inl ⟨_, rfl⟩
        · next hle => exact .inr (.inr ⟨not_lt.mp hle, rfl⟩)

/-- A command is an administrator command, which may fail, or its requests are
answered. It is applied at its index in any case. -/
theorem apply_raft_cmd_cases {state next : RaftApplyState} {index : Nat} {cmd : RaftCmdRequest}
    {resp : RaftCmdResponse} {res : Option ExecResult}
    (happly : apply_raft_cmd state index cmd = .ok (resp, next, res)) :
    (∃ request, cmd.body = .admin_request request ∧
        ((∃ err, exec_admin_cmd state cmd.header request = .error err ∧
            resp = cmd_resp.new_error err ∧ next = { state with applied_index := index } ∧
            res = none) ∨
          ∃ executed, exec_admin_cmd state cmd.header request = .ok (resp, executed, res) ∧
            next = { executed with applied_index := index })) ∨
      exec_write_cmd index cmd = .ok resp ∧ next = { state with applied_index := index } ∧
        res = none := by
  obtain ⟨executed, hexecuted, hrest⟩ := Exec.bind_eq_ok_iff.mp happly
  unfold exec_raft_cmd at hexecuted
  split at hexecuted
  · next request hbody =>
    cases hexecuted
    refine .inl ⟨request, hbody, ?_⟩
    cases hadmin : exec_admin_cmd state cmd.header request with
    | error err =>
      rw [hadmin] at hrest
      cases hrest
      exact .inl ⟨err, rfl, rfl, rfl, rfl⟩
    | ok executed =>
      rw [hadmin] at hrest
      cases hrest
      exact .inr ⟨executed.2.1, rfl, rfl⟩
  · obtain ⟨written, hwritten, hok⟩ := Exec.bind_eq_ok_iff.mp hexecuted
    cases hok
    cases hrest
    exact .inr ⟨hwritten, rfl, rfl⟩

theorem compact_raft_log_eq_ok {state next : RaftApplyState} {compact_index compact_term : Nat}
    (hcompact : compact_raft_log state compact_index compact_term = .ok next) :
    next = { state with truncated_state := ⟨compact_index, compact_term⟩ } ∧
      state.truncated_state.index < compact_index ∧ compact_index ≤ state.applied_index := by
  unfold compact_raft_log at hcompact
  split at hcompact
  · cases hcompact
  · next htruncated =>
    split at hcompact
    · cases hcompact
    · next happlied =>
      cases hcompact
      exact ⟨rfl, not_le.mp htruncated, not_lt.mp happlied⟩

theorem exec_compact_log_eq_ok {state next : RaftApplyState} {compact_index compact_term : Nat}
    {res : Option ExecResult}
    (hexec : exec_compact_log state compact_index compact_term = .ok (next, res)) :
    (next = state ∧ res = none) ∨
      (compact_raft_log state compact_index compact_term = .ok next ∧
        res = some (.CompactLog next.truncated_state (first_index state))) := by
  unfold exec_compact_log at hexec
  split at hexec
  · cases hexec
    exact .inl ⟨rfl, rfl⟩
  · split at hexec
    · cases hexec
    · obtain ⟨compacted, hcompact, hok⟩ := Exec.bind_eq_ok_iff.mp hexec
      cases hok
      exact .inr ⟨hcompact, rfl⟩

/-- A command moves the applied index only, unless it compacts the log: then the
truncated state is the one that the command names, further on and applied. -/
theorem apply_raft_cmd_truncates {state next : RaftApplyState} {entry : Entry}
    {cmd : RaftCmdRequest} {resp : RaftCmdResponse} {res : Option ExecResult}
    (hdata : entry.data = some cmd)
    (happly : apply_raft_cmd state entry.index cmd = .ok (resp, next, res)) :
    (res = none ∧ next = { state with applied_index := entry.index }) ∨
      ∃ truncated, entry.compact_index = some truncated.index ∧
        res = some (.CompactLog truncated (first_index state)) ∧
        next = { state with applied_index := entry.index, truncated_state := truncated } ∧
        state.truncated_state.index < truncated.index ∧ truncated.index ≤ state.applied_index := by
  obtain ⟨request, hbody, ⟨err, -, -, rfl, rfl⟩ | ⟨executed, hadmin, rfl⟩⟩ | ⟨-, rfl, rfl⟩ :=
    apply_raft_cmd_cases happly
  · exact .inl ⟨rfl, rfl⟩
  · cases request with
    | InvalidAdmin => cases hadmin
    | CompactLog compact_index compact_term =>
      obtain ⟨⟨compacted, result⟩, hexec, hok⟩ := Exec.bind_eq_ok_iff.mp hadmin
      cases hok
      obtain ⟨rfl, rfl⟩ | ⟨hcompact, rfl⟩ := exec_compact_log_eq_ok hexec
      · exact .inl ⟨rfl, rfl⟩
      · obtain ⟨rfl, hforward, hle⟩ := compact_raft_log_eq_ok hcompact
        refine .inr ⟨⟨compact_index, compact_term⟩, ?_, rfl, rfl, hforward, hle⟩
        simp [Entry.compact_index, hdata, hbody]
  · exact .inl ⟨rfl, rfl⟩

theorem apply_raft_cmd_advances {state next : RaftApplyState} {entry : Entry}
    {cmd : RaftCmdRequest} {resp : RaftCmdResponse} {res : Option ExecResult}
    (hdata : entry.data = some cmd)
    (happly : apply_raft_cmd state entry.index cmd = .ok (resp, next, res)) :
    Advances state entry next res := by
  obtain ⟨rfl, rfl⟩ | ⟨truncated, hcompact, rfl, rfl, hforward, hle⟩ :=
    apply_raft_cmd_truncates hdata happly
  · exact ⟨rfl, rfl, rfl, .inl ⟨rfl, rfl⟩⟩
  · exact ⟨rfl, rfl, rfl, .inr ⟨_, rfl, hcompact, rfl, hforward, hle⟩⟩

namespace ApplyFsm

/-- What the apply thread has written and reported is not ahead of what it has
applied, and every truncated index is an allowed one. -/
structure Consistent (allowed : Nat → Prop) (fsm : ApplyFsm Closure) : Prop where
  kv : fsm.ctx.kv.applied_index ≤ fsm.delegate.apply_state.applied_index
  kv_wb : ∀ state ∈ fsm.ctx.kv_wb,
    state.applied_index ≤ fsm.delegate.apply_state.applied_index
  results : ∀ res ∈ fsm.ctx.apply_res ++ fsm.ctx.notified, ∀ result ∈ res.exec_res,
    result.compact_index ≤ fsm.delegate.apply_state.applied_index
  truncated : allowed fsm.delegate.apply_state.truncated_state.index
  truncated_wb : ∀ state ∈ fsm.ctx.kv_wb, allowed state.truncated_state.index
  truncated_kv : allowed fsm.ctx.kv.truncated_state.index

variable {allowed : Nat → Prop} {fsm next : ApplyFsm Closure} {entry : Entry}

theorem Consistent.start (term applied_index_term : Nat) {apply_state : RaftApplyState}
    (hallowed : allowed apply_state.truncated_state.index) :
    (Replica.start term applied_index_term apply_state : Replica Closure).fsm.Consistent
      allowed where
  kv := le_rfl
  kv_wb := by simp [Replica.start]
  results := by simp [Replica.start]
  truncated := hallowed
  truncated_wb := by simp [Replica.start]
  truncated_kv := hallowed

/-- Handling an entry writes nothing and reports nothing. -/
theorem handle_raft_entry_normal_advances {res : Option ExecResult}
    (hhandle : fsm.handle_raft_entry_normal entry = .ok (next, res)) :
    Advances fsm.delegate.apply_state entry next.delegate.apply_state res ∧
      next.ctx.kv = fsm.ctx.kv ∧ next.ctx.kv_wb = fsm.ctx.kv_wb ∧
      next.ctx.apply_res = fsm.ctx.apply_res ∧ next.ctx.notified = fsm.ctx.notified := by
  unfold handle_raft_entry_normal at hhandle
  split at hhandle
  · next cmd hdata =>
    unfold process_raft_cmd at hhandle
    split at hhandle
    · cases hhandle
    · obtain ⟨⟨resp, state, result⟩, happly, hrest⟩ := Exec.bind_eq_ok_iff.mp hhandle
      obtain ⟨⟨cb, pending, calls⟩, -, hok⟩ := Exec.bind_eq_ok_iff.mp hrest
      cases hok
      exact ⟨apply_raft_cmd_advances hdata happly, rfl, rfl, rfl, rfl⟩
  · split at hhandle
    · cases hhandle
    · obtain ⟨⟨batch, pending⟩, -, hok⟩ := Exec.bind_eq_ok_iff.mp hhandle
      cases hok
      exact ⟨⟨rfl, rfl, rfl, .inl ⟨rfl, rfl⟩⟩, rfl, rfl, rfl, rfl⟩

theorem apply_entries_cons_eq_ok {entries : List Entry} {results : List ExecResult}
    (happly : fsm.apply_entries (entry :: entries) = .ok (next, results)) :
    entry.index = fsm.delegate.apply_state.applied_index + 1 ∧
      ∃ middle res later, fsm.handle_raft_entry_normal entry = .ok (middle, res) ∧
        middle.apply_entries entries = .ok (next, later) ∧ results = res.toList ++ later := by
  unfold ApplyFsm.apply_entries at happly
  split at happly
  · cases happly
  · next hindex =>
    obtain ⟨⟨middle, res⟩, hhandle, hrest⟩ := Exec.bind_eq_ok_iff.mp happly
    obtain ⟨⟨last, later⟩, hlater, hok⟩ := Exec.bind_eq_ok_iff.mp hrest
    cases hok
    exact ⟨not_not.mp hindex, middle, res, later, hhandle, hlater, rfl⟩

/-- The applied index of the thread moves forward to an entry of the task. -/
structure Moves (entries : List Entry) (fsm next : ApplyFsm Closure) : Prop where
  forward : fsm.delegate.apply_state.applied_index ≤ next.delegate.apply_state.applied_index
  reached : next.delegate.apply_state.applied_index = fsm.delegate.apply_state.applied_index ∨
    ∃ entry ∈ entries, next.delegate.apply_state.applied_index = entry.index

section

variable (hconsistent : fsm.Consistent allowed)
include hconsistent

theorem Consistent.apply_entries {entries : List Entry} {results : List ExecResult}
    (hallowed : ∀ entry ∈ entries, ∀ compact_index ∈ entry.compact_index, allowed compact_index)
    (happly : fsm.apply_entries entries = .ok (next, results)) :
    next.Consistent allowed ∧ Moves entries fsm next ∧
      ∀ result ∈ results, result.compact_index ≤ next.delegate.apply_state.applied_index := by
  induction entries generalizing fsm results with
  | nil =>
    cases happly
    exact ⟨hconsistent, ⟨le_rfl, .inl rfl⟩, fun _ hresult => by cases hresult⟩
  | cons entry entries ih =>
    obtain ⟨hindex, middle, res, later, hhandle, hlater, rfl⟩ := apply_entries_cons_eq_ok happly
    obtain ⟨hadvances, hkv, hwb, hres, hnotified⟩ := handle_raft_entry_normal_advances hhandle
    have happlies := hadvances.applies
    have happlied := hadvances.applied
    have hstep : fsm.delegate.apply_state.applied_index ≤
        middle.delegate.apply_state.applied_index := by omega
    have htruncated : allowed middle.delegate.apply_state.truncated_state.index := by
      cases happlies with
      | other _ htruncated =>
        rw [htruncated]
        exact hconsistent.truncated
      | compact _ hentry hcompact _ =>
        rw [hcompact]
        exact hallowed entry List.mem_cons_self _ hentry
    have hmiddle : middle.Consistent allowed := by
      refine ⟨?_, ?_, ?_, htruncated, ?_, ?_⟩
      · rw [hkv]
        exact hconsistent.kv.trans hstep
      · rw [hwb]
        exact fun state hstate => (hconsistent.kv_wb state hstate).trans hstep
      · rw [hres, hnotified]
        exact fun res hres result hresult =>
          (hconsistent.results res hres result hresult).trans hstep
      · rw [hwb]
        exact hconsistent.truncated_wb
      · rw [hkv]
        exact hconsistent.truncated_kv
    obtain ⟨hlast, hmoves, hresults⟩ := ih hmiddle
      (fun other hother => hallowed other (List.mem_cons_of_mem _ hother)) hlater
    refine ⟨hlast, ⟨hstep.trans hmoves.forward, ?_⟩, ?_⟩
    · obtain hsame | ⟨other, hother, hreached⟩ := hmoves.reached
      · exact .inr ⟨entry, List.mem_cons_self, hsame.trans happlied⟩
      · exact .inr ⟨other, List.mem_cons_of_mem _ hother, hreached⟩
    · intro result hresult
      obtain hresult | hresult := List.mem_append.mp hresult
      · cases happlies with
        | other _ _ => cases hresult
        | compact _ _ _ hle =>
          rw [List.mem_singleton.mp hresult]
          exact hle.trans (hstep.trans hmoves.forward)
      · exact hresults result hresult

theorem Consistent.handle_apply {apply : Apply Closure}
    (hallowed : ∀ entry ∈ apply.entries, ∀ compact_index ∈ entry.compact_index,
      allowed compact_index) (happly : fsm.handle_apply apply = .ok next) :
    next.Consistent allowed ∧ Moves apply.entries fsm next := by
  unfold ApplyFsm.handle_apply at happly
  split at happly
  · cases happly
  · next last hlast =>
    obtain ⟨committed, hcommitted, hrest⟩ := Exec.bind_eq_ok_iff.mp happly
    simp only [set_commit_state] at hcommitted
    split at hcommitted
    · cases hcommitted
    · cases hcommitted
      obtain ⟨⟨reached, results⟩, hentries, hok⟩ := Exec.bind_eq_ok_iff.mp hrest
      cases hok
      have hready : ((({ fsm with
          delegate := { fsm.delegate with
            term := apply.term
            apply_state := { fsm.delegate.apply_state with
              commit_index := last.index, commit_term := last.term } }
          ctx := { fsm.ctx with timer := true } } : ApplyFsm Closure).append_proposal
            apply.cbs).Consistent allowed) :=
        ⟨hconsistent.kv, hconsistent.kv_wb, hconsistent.results, hconsistent.truncated,
          hconsistent.truncated_wb, hconsistent.truncated_kv⟩
      obtain ⟨hreached, hmoves, hresults⟩ := hready.apply_entries hallowed hentries
      refine ⟨⟨hreached.kv, ?_, ?_, hreached.truncated, ?_, hreached.truncated_kv⟩,
        hmoves.forward, hmoves.reached⟩
      · rintro state ⟨⟩
        exact le_rfl
      · intro res hres result hresult
        have hold := hreached.results
        simp only [finish_for, List.mem_append, List.mem_singleton] at hres hold
        obtain (hres | rfl) | hres := hres
        · exact hold res (.inl hres) result hresult
        · exact hresults result hresult
        · exact hold res (.inr hres) result hresult
      · rintro state ⟨⟩
        exact hreached.truncated

theorem Consistent.end_poll : fsm.end_poll.Consistent allowed := by
  unfold ApplyFsm.end_poll ApplyContext.flush
  split
  · have hempty : ∀ {P : RaftApplyState → Prop},
        ∀ state ∈ (none : Option RaftApplyState), P state :=
      fun _ hstate => by cases hstate
    refine ⟨?_, hempty, ?_, hconsistent.truncated, hempty, ?_⟩
    · cases hwb : fsm.ctx.kv_wb with
      | none => simpa [ApplyContext.write_to_db, hwb] using hconsistent.kv
      | some state => simpa [ApplyContext.write_to_db, hwb] using hconsistent.kv_wb state hwb
    · intro res hres result hresult
      refine hconsistent.results res ?_ result hresult
      simp only [ApplyContext.write_to_db, List.nil_append, List.mem_append] at hres ⊢
      exact hres.symm
    · cases hwb : fsm.ctx.kv_wb with
      | none => simpa [ApplyContext.write_to_db, hwb] using hconsistent.truncated_kv
      | some state => simpa [ApplyContext.write_to_db, hwb] using hconsistent.truncated_wb state hwb
  · exact ⟨hconsistent.kv, hconsistent.kv_wb, hconsistent.results, hconsistent.truncated,
      hconsistent.truncated_wb, hconsistent.truncated_kv⟩

theorem Consistent.mono {wider : Nat → Prop} (hwider : ∀ index, allowed index → wider index) :
    fsm.Consistent wider :=
  ⟨hconsistent.kv, hconsistent.kv_wb, hconsistent.results, hwider _ hconsistent.truncated,
    fun state hstate => hwider _ (hconsistent.truncated_wb state hstate),
    hwider _ hconsistent.truncated_kv⟩

end

end ApplyFsm

end hologram_kv
