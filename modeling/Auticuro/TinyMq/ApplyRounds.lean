import Auticuro.Library.U64
import Auticuro.TinyMq.Truncation

namespace hologram_kv

variable {Closure : Type}

def ExecResult.truncated_state : ExecResult → RaftTruncatedState
  | .CompactLog state _ => state

namespace RaftApplyState

/-- What the apply thread does with an entry, as far as the apply state and the
result for the raft thread are concerned. -/
def handle_raft_entry_normal (state : RaftApplyState) (entry : Entry) :
    Except Panic (RaftApplyState × Option ExecResult) :=
  match entry.data with
  | some cmd => do
    let (_, state, res) ← apply_raft_cmd state entry.index cmd
    return (state, res)
  | none => .ok ({ state with applied_index := entry.index }, none)

def apply_entries (state : RaftApplyState) :
    List Entry → Except Panic (RaftApplyState × List ExecResult)
  | [] => .ok (state, [])
  | entry :: entries =>
    if entry.index ≠ state.applied_index + 1 then
      .error (.ExpectIndex (state.applied_index + 1) entry.index)
    else do
      let (state, res) ← state.handle_raft_entry_normal entry
      let (state, results) ← state.apply_entries entries
      return (state, res.toList ++ results)

/-- One task, with the result that is reported for it. -/
def handle_apply (state : RaftApplyState) (entries : List Entry) : Except Panic ApplyRes :=
  match entries.getLast? with
  | none => .error .Unreachable
  | some entry =>
    if entry.index < state.commit_index ∨ entry.term < state.commit_term then
      .error .CommitStateJumpBackward
    else do
      let (state, results) ← { state with
        commit_index := entry.index, commit_term := entry.term }.apply_entries entries
      return ⟨state, entry.term, results⟩

/-- The tasks of one round. -/
def poll (state : RaftApplyState) : List (List Entry) → Except Panic (List ApplyRes)
  | [] => .ok []
  | entries :: tasks => do
    let res ← state.handle_apply entries
    let results ← res.apply_state.poll tasks
    return res :: results

end RaftApplyState

namespace ApplyFsm

variable {fsm next : ApplyFsm Closure}

theorem handle_raft_entry_normal_state {entry : Entry} {res : Option ExecResult}
    (hhandle : fsm.handle_raft_entry_normal entry = .ok (next, res)) :
    fsm.delegate.apply_state.handle_raft_entry_normal entry =
        .ok (next.delegate.apply_state, res) ∧
      next.delegate.applied_index_term = entry.term := by
  unfold RaftApplyState.handle_raft_entry_normal
  unfold ApplyFsm.handle_raft_entry_normal at hhandle
  cases hdata : entry.data with
  | some cmd =>
    simp only [hdata, process_raft_cmd] at hhandle
    split at hhandle
    · cases hhandle
    · obtain ⟨⟨resp, state, result⟩, happly, hrest⟩ := Exec.bind_eq_ok_iff.mp hhandle
      obtain ⟨⟨cb, pending, calls⟩, -, hok⟩ := Exec.bind_eq_ok_iff.mp hrest
      cases hok
      refine ⟨?_, rfl⟩
      simp only [happly]
      rfl
  | none =>
    simp only [hdata] at hhandle
    split at hhandle
    · cases hhandle
    · obtain ⟨⟨batch, pending⟩, -, hok⟩ := Exec.bind_eq_ok_iff.mp hhandle
      cases hok
      exact ⟨rfl, rfl⟩

theorem apply_entries_state {entries : List Entry} {results : List ExecResult}
    (happly : fsm.apply_entries entries = .ok (next, results)) :
    fsm.delegate.apply_state.apply_entries entries = .ok (next.delegate.apply_state, results) ∧
      next.delegate.applied_index_term =
        (entries.getLast?.map Entry.term).getD fsm.delegate.applied_index_term := by
  induction entries generalizing fsm results with
  | nil =>
    cases happly
    exact ⟨rfl, rfl⟩
  | cons entry entries ih =>
    obtain ⟨hnext, middle, res, later, hhandle, hlater, rfl⟩ := apply_entries_cons_eq_ok happly
    obtain ⟨hstate, hterm⟩ := handle_raft_entry_normal_state hhandle
    obtain ⟨hrest, hlast⟩ := ih hlater
    refine ⟨?_, ?_⟩
    · rw [RaftApplyState.apply_entries, if_neg (not_not.mpr hnext), hstate, Exec.ok_bind]
      simp only [hrest]
      rfl
    · rw [hlast, hterm, List.getLast?_cons]
      cases entries.getLast? with
      | none | some other => rfl

/-- The apply thread puts the apply state into its batch and reports the result
that the task has by the apply state alone. -/
theorem handle_apply_state {apply : Apply Closure} (happly : fsm.handle_apply apply = .ok next) :
    ∃ res, fsm.delegate.apply_state.handle_apply apply.entries = .ok res ∧
      next.delegate.apply_state = res.apply_state ∧ next.ctx.kv_wb = some res.apply_state ∧
      next.ctx.apply_res = fsm.ctx.apply_res ++ [res] := by
  unfold ApplyFsm.handle_apply at happly
  unfold RaftApplyState.handle_apply
  cases hlast : apply.entries.getLast? with
  | none =>
    rw [hlast] at happly
    cases happly
  | some last =>
    simp only [hlast] at happly ⊢
    obtain ⟨committed, hcommitted, hrest⟩ := Exec.bind_eq_ok_iff.mp happly
    simp only [set_commit_state] at hcommitted
    split at hcommitted
    · cases hcommitted
    · next hforward =>
      cases hcommitted
      obtain ⟨⟨reached, results⟩, hentries, hok⟩ := Exec.bind_eq_ok_iff.mp hrest
      cases hok
      obtain ⟨hstate, hterm⟩ := apply_entries_state hentries
      obtain ⟨-, -, -, hres, -⟩ := apply_entries_applies_all hentries
      rw [hlast] at hterm
      refine ⟨⟨reached.delegate.apply_state, last.term, results⟩, ?_, rfl, rfl, ?_⟩
      · rw [if_neg hforward]
        change RaftApplyState.apply_entries { fsm.delegate.apply_state with
          commit_index := last.index, commit_term := last.term } apply.entries = _ at hstate
        rw [hstate]
        rfl
      · simp only [finish_for, hres, hterm]
        rfl

end ApplyFsm

/-- The truncated state goes through the results one after the other, each further
than the one before. -/
def Compacts : RaftTruncatedState → List ExecResult → RaftTruncatedState → Prop
  | first, [], last => first = last
  | first, result :: results, last =>
    first.index < result.truncated_state.index ∧ Compacts result.truncated_state results last

namespace Compacts

variable {first middle last : RaftTruncatedState} {results later : List ExecResult}

theorem append (hfirst : Compacts first results middle) (hlater : Compacts middle later last) :
    Compacts first (results ++ later) last := by
  induction results generalizing first with
  | nil =>
    cases hfirst
    exact hlater
  | cons result results ih => exact ⟨hfirst.1, ih hfirst.2⟩

theorem index_le (hresults : Compacts first results last) : first.index ≤ last.index := by
  induction results generalizing first with
  | nil =>
    cases hresults
    exact le_rfl
  | cons result results ih => exact hresults.1.le.trans (ih hresults.2)

/-- The last truncated state is one that was reported, if any was. -/
theorem last_cases (hresults : Compacts first results last) :
    last = first ∨ ∃ result ∈ results, last = result.truncated_state := by
  induction results generalizing first with
  | nil =>
    cases hresults
    exact .inl rfl
  | cons result results ih =>
    obtain hsame | ⟨other, hother, hlast⟩ := ih hresults.2
    · exact .inr ⟨result, List.mem_cons_self, hsame⟩
    · exact .inr ⟨other, List.mem_cons_of_mem _ hother, hlast⟩

end Compacts

/-- The results of tasks, each from the truncated state where the one before ends. -/
def Reported : RaftTruncatedState → List ApplyRes → RaftTruncatedState → Prop
  | first, [], last => first = last
  | first, res :: results, last =>
    Compacts first res.exec_res res.apply_state.truncated_state ∧
      Reported res.apply_state.truncated_state results last

namespace Reported

variable {first middle last : RaftTruncatedState} {results later : List ApplyRes}

theorem append (hfirst : Reported first results middle) (hlater : Reported middle later last) :
    Reported first (results ++ later) last := by
  induction results generalizing first with
  | nil =>
    cases hfirst
    exact hlater
  | cons res results ih => exact ⟨hfirst.1, ih hfirst.2⟩

theorem index_le (hresults : Reported first results last) : first.index ≤ last.index := by
  induction results generalizing first with
  | nil =>
    cases hresults
    exact le_rfl
  | cons res results ih => exact hresults.1.index_le.trans (ih hresults.2)

theorem index_between (hresults : Reported first results last) {res : ApplyRes}
    (hres : res ∈ results) :
    first.index ≤ res.apply_state.truncated_state.index ∧
      res.apply_state.truncated_state.index ≤ last.index := by
  induction results generalizing first with
  | nil => cases hres
  | cons other results ih =>
    obtain ⟨hfirst, hrest⟩ := hresults
    obtain rfl | hres := List.mem_cons.mp hres
    · exact ⟨hfirst.index_le, hrest.index_le⟩
    · exact ⟨hfirst.index_le.trans (ih hrest hres).1, (ih hrest hres).2⟩

/-- What is reported as truncated was so before, or by a compaction. -/
theorem truncated_state_cases (hresults : Reported first results last) {res : ApplyRes}
    (hres : res ∈ results) :
    res.apply_state.truncated_state = first ∨ ∃ other ∈ results, ∃ result ∈ other.exec_res,
      res.apply_state.truncated_state = result.truncated_state := by
  induction results generalizing first with
  | nil => cases hres
  | cons head results ih =>
    obtain ⟨hfirst, hrest⟩ := hresults
    have hhead : head.apply_state.truncated_state = first ∨
        ∃ other ∈ head :: results, ∃ result ∈ other.exec_res,
          head.apply_state.truncated_state = result.truncated_state := by
      obtain hsame | ⟨result, hresult, hlast⟩ := hfirst.last_cases
      · exact .inl hsame
      · exact .inr ⟨head, List.mem_cons_self, result, hresult, hlast⟩
    obtain rfl | hres := List.mem_cons.mp hres
    · exact hhead
    · obtain hsame | ⟨other, hother, hresult⟩ := ih hrest hres
      · rw [hsame]
        exact hhead
      · exact .inr ⟨other, List.mem_cons_of_mem _ hother, hresult⟩

end Reported

/-- What is truncated is applied, and the next index is a machine number. -/
structure RaftApplyState.Bounded (state : RaftApplyState) : Prop where
  truncated_le : state.truncated_state.index ≤ state.applied_index
  applied_lt : state.applied_index + 1 < U64.size

namespace RaftApplyState

variable {state next : RaftApplyState}

/-- What entries do to the apply state: the results that are reported for them carry
the truncated state forward. -/
structure Rounds (state : RaftApplyState) (entries : List Entry) (next : RaftApplyState)
    (results : List ExecResult) : Prop where
  compacts : Compacts state.truncated_state results next.truncated_state
  bounded : state.Bounded → (∀ entry ∈ entries, entry.index + 1 < U64.size) → next.Bounded

theorem handle_raft_entry_normal_eq_ok {entry : Entry} {res : Option ExecResult}
    (hnext : entry.index = state.applied_index + 1)
    (hhandle : state.handle_raft_entry_normal entry = .ok (next, res)) :
    Rounds state [entry] next res.toList := by
  have hcases : (res = none ∧ next = { state with applied_index := entry.index }) ∨
      ∃ truncated, entry.compact_index = some truncated.index ∧
        res = some (.CompactLog truncated (first_index state)) ∧
        next = { state with applied_index := entry.index, truncated_state := truncated } ∧
        state.truncated_state.index < truncated.index ∧
        truncated.index ≤ state.applied_index := by
    unfold handle_raft_entry_normal at hhandle
    split at hhandle
    · next cmd hdata =>
      obtain ⟨⟨resp, applied, result⟩, happly, hok⟩ := Exec.bind_eq_ok_iff.mp hhandle
      cases hok
      exact apply_raft_cmd_truncates hdata happly
    · cases hhandle
      exact .inl ⟨rfl, rfl⟩
  obtain ⟨rfl, rfl⟩ | ⟨truncated, -, rfl, rfl, hforward, hle⟩ := hcases
  · refine ⟨rfl, fun hstate hentries => ⟨?_, hentries entry List.mem_cons_self⟩⟩
    have hle := hstate.truncated_le
    change state.truncated_state.index ≤ entry.index
    omega
  · refine ⟨⟨hforward, rfl⟩, fun hstate hentries => ⟨?_, hentries entry List.mem_cons_self⟩⟩
    change truncated.index ≤ entry.index
    omega

theorem Rounds.append {middle : RaftApplyState} {first second : List Entry}
    {results later : List ExecResult} (hfirst : Rounds state first middle results)
    (hsecond : Rounds middle second next later) :
    Rounds state (first ++ second) next (results ++ later) where
  compacts := hfirst.compacts.append hsecond.compacts
  bounded := by
    intro hstate hentries
    exact hsecond.bounded
      (hfirst.bounded hstate fun entry hentry => hentries entry (List.mem_append_left _ hentry))
      fun entry hentry => hentries entry (List.mem_append_right _ hentry)

theorem apply_entries_eq_ok {entries : List Entry} {results : List ExecResult}
    (happly : state.apply_entries entries = .ok (next, results)) :
    Rounds state entries next results := by
  induction entries generalizing state results with
  | nil =>
    cases happly
    exact ⟨rfl, fun hstate _ => hstate⟩
  | cons entry entries ih =>
    rw [apply_entries] at happly
    split at happly
    · cases happly
    · next hnext =>
      obtain ⟨⟨middle, res⟩, hhandle, hrest⟩ := Exec.bind_eq_ok_iff.mp happly
      obtain ⟨⟨last, later⟩, hlater, hok⟩ := Exec.bind_eq_ok_iff.mp hrest
      cases hok
      exact (handle_raft_entry_normal_eq_ok (not_not.mp hnext) hhandle).append (ih hlater)

theorem handle_apply_eq_ok {entries : List Entry} {res : ApplyRes}
    (happly : state.handle_apply entries = .ok res) :
    Rounds state entries res.apply_state res.exec_res := by
  unfold handle_apply at happly
  split at happly
  · cases happly
  · next last hlast =>
    split at happly
    · cases happly
    · obtain ⟨⟨reached, results⟩, hentries, hok⟩ := Exec.bind_eq_ok_iff.mp happly
      cases hok
      have hrounds := apply_entries_eq_ok hentries
      exact ⟨hrounds.compacts, fun hstate =>
        hrounds.bounded ⟨hstate.truncated_le, hstate.applied_lt⟩⟩

/-- The apply state after the tasks of a round. -/
def last_reported (state : RaftApplyState) (results : List ApplyRes) : RaftApplyState :=
  (results.getLast?.map ApplyRes.apply_state).getD state

theorem last_reported_cons (state : RaftApplyState) (res : ApplyRes) (results : List ApplyRes) :
    state.last_reported (res :: results) = res.apply_state.last_reported results := by
  unfold last_reported
  rw [List.getLast?_cons]
  cases results.getLast? with
  | none | some last => rfl

theorem last_reported_cases (state : RaftApplyState) (results : List ApplyRes) :
    state.last_reported results = state ∧ results = [] ∨
      ∃ res ∈ results, results.getLast? = some res ∧
        state.last_reported results = res.apply_state := by
  unfold last_reported
  cases hlast : results.getLast? with
  | none => exact .inl ⟨rfl, List.getLast?_eq_none_iff.mp hlast⟩
  | some res => exact .inr ⟨res, List.mem_of_getLast? hlast, rfl, rfl⟩

/-- A round carries the truncated state forward from result to result. -/
theorem poll_eq_ok {tasks : List (List Entry)} {results : List ApplyRes}
    (hpoll : state.poll tasks = .ok results) :
    Reported state.truncated_state results (state.last_reported results).truncated_state ∧
      (state.Bounded → (∀ entries ∈ tasks, ∀ entry ∈ entries, entry.index + 1 < U64.size) →
        ∀ res ∈ results, res.apply_state.Bounded) := by
  induction tasks generalizing state results with
  | nil =>
    cases hpoll
    refine ⟨rfl, fun _ _ => ?_⟩
    rintro res ⟨⟩
  | cons entries tasks ih =>
    obtain ⟨res, hres, hrest⟩ := Exec.bind_eq_ok_iff.mp hpoll
    obtain ⟨later, hlater, hok⟩ := Exec.bind_eq_ok_iff.mp hrest
    cases hok
    have hrounds := handle_apply_eq_ok hres
    obtain ⟨hreported, hbounded⟩ := ih hlater
    refine ⟨?_, fun hstate hentries other hother => ?_⟩
    · rw [last_reported_cons]
      exact ⟨hrounds.compacts, hreported⟩
    · have hres := hrounds.bounded hstate (hentries entries List.mem_cons_self)
      obtain rfl | hother := List.mem_cons.mp hother
      · exact hres
      · exact hbounded hres (fun entries' hentries' =>
          hentries entries' (List.mem_cons_of_mem _ hentries')) other hother

end RaftApplyState

end hologram_kv
