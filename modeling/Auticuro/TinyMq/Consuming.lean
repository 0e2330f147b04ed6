import Auticuro.TinyMq.ApplyState
import Auticuro.TinyMq.StoredLog

namespace hologram_kv

theorem parse_log_entry_to_proto_index {T : Type} {decode : Bytes → Option T} {entry : Entry}
    {parsed : Nat × List T} (hparse : parse_log_entry_to_proto decode entry = .ok parsed) :
    parsed.1 = entry.index := by
  unfold parse_log_entry_to_proto at hparse
  split at hparse
  · cases hparse
    rfl
  · obtain ⟨messages, -, hok⟩ := Exec.bind_eq_ok_iff.mp hparse
    cases hok
    rfl

namespace LogConsumer

variable {T : Type}

/-- The consumer has sent the entries below an index, and the rest of its state
is what comes next. What it reads is not ahead of what is applied. -/
def Follows (start applied : Nat) (self : LogConsumer T) : Phase T → Prop
  | .Idle => self.log_index = start + self.sent.length
  | .Checking last => self.log_index = start + self.sent.length ∧ self.log_index ≤ last ∧
    last ≤ applied
  | .MultiGet last buf => self.log_index = start + self.sent.length ∧
    buf.map Entry.index = List.range' self.log_index buf.length ∧
    self.log_index + buf.length ≤ last
  | .Scanning last => self.log_index = start + self.sent.length ∧ self.log_index ≤ last ∧
    last ≤ applied
  | .Sending last entries => self.log_index ≤ start + self.sent.length ∧
    entries.map Prod.fst = List.range' (start + self.sent.length) entries.length ∧
    start + self.sent.length + entries.length = last + 1
  | .Panicked => self.log_index ≤ start + self.sent.length

/-- The indices that were sent have no gap and no repetition, and the consumer
has not moved past an index that was not sent. -/
structure InOrder (start : Nat) (consumer : LogConsumer T) : Prop where
  sent : consumer.sent.map Prod.fst = List.range' start consumer.sent.length
  log_index : consumer.log_index ≤ start + consumer.sent.length

structure Inv (start applied : Nat) (consumer : LogConsumer T) : Prop where
  sent : consumer.sent.map Prod.fst = List.range' start consumer.sent.length
  phase : consumer.Follows start applied consumer.phase

variable {start applied : Nat} {self : LogConsumer T} {decode : Bytes → Option T}

theorem Inv.in_order (hinv : self.Inv start applied) : self.InOrder start := by
  refine ⟨hinv.sent, ?_⟩
  have hphase := hinv.phase
  cases hcase : self.phase <;> simp only [hcase, Follows] at hphase <;> omega

theorem Follows.mono {later : Nat} {phase : Phase T} (hphase : self.Follows start applied phase)
    (hle : applied ≤ later) : self.Follows start later phase := by
  cases phase with
  | Checking last | Scanning last => exact ⟨hphase.1, hphase.2.1, hphase.2.2.trans hle⟩
  | Idle | MultiGet last buf | Sending last entries | Panicked => exact hphase

theorem Inv.mono {later : Nat} (hinv : self.Inv start applied) (hle : applied ≤ later) :
    self.Inv start later :=
  ⟨hinv.sent, hinv.phase.mono hle⟩

section

variable (horder : self.InOrder start)
include horder

theorem InOrder.panic : self.panic.Inv start applied :=
  ⟨horder.sent, horder.log_index⟩

theorem InOrder.send {last : Nat} {entries : List (Nat × List T)}
    (hentries : entries.map Prod.fst = List.range' (start + self.sent.length) entries.length)
    (hlast : start + self.sent.length + entries.length = last + 1) :
    (self.send last entries).Inv start applied := by
  cases entries with
  | nil => exact ⟨horder.sent, hlast.symm⟩
  | cons entry entries => exact ⟨horder.sent, horder.log_index, hentries, hlast⟩

/-- The next of the entries that wait to be sent. -/
theorem InOrder.send_next {last : Nat} {entry : Nat × List T} {entries : List (Nat × List T)}
    (hentries : (entry :: entries).map Prod.fst =
      List.range' (start + self.sent.length) (entries.length + 1))
    (hlast : start + self.sent.length + (entries.length + 1) = last + 1) :
    (({ self with sent := self.sent ++ [entry] } : LogConsumer T).send last entries).Inv
      start applied := by
  rw [List.map_cons, List.range'_succ, List.cons.injEq] at hentries
  have hlength : (self.sent ++ [entry]).length = self.sent.length + 1 := by simp
  have hsent : ({ self with sent := self.sent ++ [entry] } : LogConsumer T).InOrder start := by
    refine ⟨?_, ?_⟩
    · change (self.sent ++ [entry]).map Prod.fst = _
      rw [List.map_append, horder.sent, hlength, List.range'_concat, List.map_singleton,
        hentries.1, Nat.one_mul]
    · change self.log_index ≤ start + (self.sent ++ [entry]).length
      have hindex := horder.log_index
      omega
  refine hsent.send ?_ ?_
  · change entries.map Prod.fst =
      List.range' (start + (self.sent ++ [entry]).length) entries.length
    rw [hlength, ← Nat.add_assoc]
    exact hentries.2
  · change start + (self.sent ++ [entry]).length + entries.length = last + 1
    omega

theorem InOrder.parse {last : Nat} {buf : List Entry}
    (hindex : self.log_index = start + self.sent.length)
    (hbuf : buf.map Entry.index = List.range' self.log_index buf.length)
    (hlast : self.log_index + buf.length = last + 1) :
    (self.parse decode last buf).Inv start applied := by
  unfold LogConsumer.parse
  split
  · next entries hentries =>
    rw [Exec.mapM_eq_ok_iff] at hentries
    have hlength : entries.length = buf.length := hentries.length_eq.symm
    have hfst : entries.map Prod.fst = buf.map Entry.index := by
      refine Exec.map_eq_map_of_forall₂ ?_ hentries
      intro entry parsed hparse
      exact parse_log_entry_to_proto_index hparse
    refine horder.send ?_ (by omega)
    rw [hfst, hbuf, hindex, hlength]
  · exact horder.panic

end

/-- A step keeps the order, unless a scan finds nothing of its range. -/
theorem Inv.step {apply_state : RaftApplyState} {log : RaftLog} {first last_index : Nat}
    (hinv : self.Inv start applied) (hstored : Stored log first last_index)
    (happly : apply_state.applied_index ≤ applied) (happlied : applied ≤ last_index)
    (hpresent : ∀ last, self.phase = .Scanning last →
      ∃ index ∈ List.range' self.log_index (last + 1 - self.log_index), (log index).isSome) :
    (self.step decode apply_state log).Inv start applied := by
  have horder := hinv.in_order
  have hphase := hinv.phase
  unfold LogConsumer.step
  cases hcase : self.phase with
  | Idle =>
    rw [hcase] at hphase
    simp only
    split
    · exact horder.panic
    · split
      · exact hinv
      · refine ⟨hinv.sent, hphase, ?_, ?_⟩
        · change self.log_index ≤ min (self.log_index + 1000) apply_state.applied_index
          omega
        · omega
  | Checking last =>
    rw [hcase] at hphase
    obtain ⟨hindex, hlast, hle⟩ := hphase
    simp only
    split
    · exact horder.panic
    · rw [if_neg (by omega)]
      split
      · exact ⟨hinv.sent, hindex, rfl, hlast⟩
      · exact ⟨hinv.sent, hindex, hlast, hle⟩
  | MultiGet last buf =>
    rw [hcase] at hphase
    obtain ⟨hindex, hbuf, hlast⟩ := hphase
    simp only
    split
    · exact horder.panic
    · next entry hentry =>
      split
      · exact horder.panic
      · next hkeyed =>
        have hkeyed := not_not.mp hkeyed
        have hmore : (buf ++ [entry]).map Entry.index =
            List.range' self.log_index (buf ++ [entry]).length := by
          rw [List.map_append, hbuf, List.length_append, List.length_singleton,
            List.range'_concat, List.map_singleton, hkeyed, Nat.one_mul]
        have hlength : (buf ++ [entry]).length = buf.length + 1 := by simp
        split
        · refine ⟨hinv.sent, hindex, hmore, ?_⟩
          rw [hlength]
          change self.log_index + (buf.length + 1) ≤ last
          omega
        · exact horder.parse hindex hmore (by omega)
  | Scanning last =>
    rw [hcase] at hphase
    obtain ⟨hindex, hlast, hle⟩ := hphase
    obtain ⟨index, hrange, hsome⟩ := hpresent last hcase
    rw [List.mem_range'_1] at hrange
    have hstart := (hstored.range index).mp hsome
    simp only
    by_cases hfirst : first ≤ self.log_index
    · obtain ⟨buf, hfetch, hbuf⟩ :=
        hstored.fetch_complete hfirst (by omega : self.log_index ≤ last + 1) (by omega)
      have hlength : buf.length = last + 1 - self.log_index := by
        have hlength := congrArg List.length hbuf
        rwa [List.length_map, List.length_range'] at hlength
      rw [hfetch]
      refine horder.parse hindex ?_ (by omega)
      rw [hbuf, hlength]
    · obtain ⟨panic, hfetch⟩ := hstored.fetch_gap (not_le.mp hfirst)
        (by omega : first < last + 1) (by omega)
      rw [hfetch]
      exact horder.panic
  | Sending last entries =>
    rw [hcase] at hphase
    obtain ⟨hindex, hentries, hlast⟩ := hphase
    cases entries with
    | nil => exact horder.send hentries hlast
    | cons entry entries => exact horder.send_next hentries hlast
  | Panicked => exact hinv

/-- A scan that finds nothing of its range moves past it. -/
theorem Inv.step_deleted {apply_state : RaftApplyState} {log : RaftLog} {last : Nat}
    (hinv : self.Inv start applied) (hcase : self.phase = .Scanning last)
    (hdeleted : ∀ index ∈ List.range' self.log_index (last + 1 - self.log_index),
      log index = none) :
    ¬ (self.step decode apply_state log).InOrder start := by
  have hphase := hinv.phase
  rw [hcase] at hphase
  obtain ⟨hindex, hlast, -⟩ := hphase
  have hscan : RocksEngine.scan log self.log_index (last + 1) = [] :=
    List.filterMap_eq_nil_iff.mpr hdeleted
  have hfetch : RocksEngine.fetch_by_scan log self.log_index (last + 1) = .ok [] := by
    simp only [RocksEngine.fetch_by_scan, hscan, RocksEngine.check_scanned, Exec.ok_bind]
    split <;> rfl
  intro horder
  have hle := horder.log_index
  simp only [LogConsumer.step, hcase, hfetch] at hle
  change last + 1 ≤ start + self.sent.length at hle
  omega

end LogConsumer

namespace LogStore

variable {Closure T : Type}

/-- The tasks of the collector: each starts where the one before it ends, and
the next one will start where the last one ends. -/
def Queued : Nat → List GcTask → Nat → Prop
  | first, [], last_compacted_idx => last_compacted_idx ≤ first
  | first, task :: tasks, last_compacted_idx =>
    task.start_idx ≤ first ∧ Queued task.end_idx tasks last_compacted_idx

theorem Queued.mono {first later last_compacted_idx : Nat} {tasks : List GcTask}
    (hqueued : Queued first tasks last_compacted_idx) (hle : first ≤ later) :
    Queued later tasks last_compacted_idx := by
  cases tasks with
  | nil => exact le_trans hqueued hle
  | cons task tasks => exact ⟨hqueued.1.trans hle, hqueued.2⟩

theorem Queued.append {first last_compacted_idx : Nat} {tasks : List GcTask}
    (hqueued : Queued first tasks last_compacted_idx) (compact_to : Nat) :
    Queued first (tasks ++ [⟨last_compacted_idx, compact_to⟩]) compact_to := by
  induction tasks generalizing first with
  | nil => exact ⟨hqueued, le_rfl⟩
  | cons task tasks ih => exact ⟨hqueued.1, ih hqueued.2⟩

/-- A write batch of the collector deletes applied entries from the front of the
log. -/
theorem gc_batch_stored {log : RaftLog} {first applied last_index last_compacted_idx : Nat}
    {task : GcTask} {tasks : List GcTask} (hstored : Stored log first last_index)
    (hfirst : first ≤ applied + 1) (happlied : applied ≤ last_index)
    (hend : task.end_idx ≤ applied + 1)
    (hqueued : Queued first (task :: tasks) last_compacted_idx) :
    ∃ next_first ≤ applied + 1,
      Stored (RocksEngine.gc_batch log last_index task).1 next_first last_index ∧
      Queued next_first ((RocksEngine.gc_batch log last_index task).2.toList ++ tasks)
        last_compacted_idx := by
  obtain ⟨hstart, hrest⟩ := hqueued
  unfold RocksEngine.gc_batch
  split
  · next hempty => exact ⟨first, hfirst, hstored, hrest.mono (by omega)⟩
  · next hless =>
    split
    · next hseek =>
      split at hseek
      · have hgone := hstored.seek_eq_none hseek
        exact ⟨first, hfirst, hstored, hrest.mono (by omega)⟩
      · cases hseek
    · next start_idx hseek =>
      have hle : start_idx ≤ first := by
        split at hseek
        · exact (hstored.seek_eq_some hseek).le
        · cases hseek
          exact hstart
      refine ⟨max first (min (start_idx + 256) task.end_idx), by omega, hstored.cut hle, ?_⟩
      simp only
      split
      · exact ⟨le_max_right _ _, hrest⟩
      · exact hrest.mono (by omega)

theorem gc_batch_end_idx {log : RaftLog} {last_index : Nat} {task rest : GcTask}
    (hrest : rest ∈ (RocksEngine.gc_batch log last_index task).2) :
    rest.end_idx = task.end_idx := by
  unfold RocksEngine.gc_batch at hrest
  split at hrest
  · cases hrest
  · split at hrest
    · cases hrest
    · simp only at hrest
      split at hrest
      · cases hrest
        rfl
      · cases hrest

/-- The log of a node has no gap, the collector deletes what is applied, and
the consumer is in order. -/
structure Inv (origin : Nat) (store : LogStore Closure T) : Prop where
  consistent : store.apply.Consistent (fun _ => True)
  applied : store.apply.delegate.apply_state.applied_index ≤ store.last_index
  log : ∃ first ≤ store.apply.delegate.apply_state.applied_index + 1,
    Stored store.log first store.last_index ∧
      Queued first store.gc_tasks store.last_compacted_idx
  tasks : ∀ task ∈ store.gc_tasks,
    task.end_idx ≤ store.apply.delegate.apply_state.applied_index + 1
  consumer : store.consumer.Inv origin store.apply.delegate.apply_state.applied_index

/-- A scan that starts finds an entry of its range. -/
def Found (store : LogStore Closure T) : Phase T → Prop
  | .Scanning last => ∃ index ∈
    List.range' store.consumer.log_index (last + 1 - store.consumer.log_index),
      (store.log index).isSome
  | _ => True

def Present (store : LogStore Closure T) : Action Closure → Prop
  | .consume => store.Found store.consumer.phase
  | _ => True

instance Found.decidable (store : LogStore Closure T) (phase : Phase T) :
    Decidable (store.Found phase) := by
  cases phase <;> dsimp only [Found] <;> infer_instance

instance Present.decidable (store : LogStore Closure T) : ∀ action, Decidable (store.Present action)
  | .consume => Found.decidable store store.consumer.phase
  | .append _ | .apply _ | .end_poll | .on_apply_res | .gc => .isTrue trivial

variable {origin : Nat} {store next : LogStore Closure T} {decode : Bytes → Option T}

section

variable (hinv : store.Inv origin)
include hinv

theorem Inv.append {entries : List Entry} (hallowed : store.Allowed (.append entries)) :
    (store.append entries).Inv origin := by
  obtain ⟨head, hhead, hentries, happlied, hnext⟩ := hallowed
  obtain ⟨first, hfirst, hstored, hqueued⟩ := hinv.log
  have hnonempty : entries ≠ [] := by
    rintro rfl
    cases hhead
  have hlength := List.length_pos_of_ne_nil hnonempty
  obtain ⟨last, hlast⟩ := Option.isSome_iff_exists.mp (List.getLast?_isSome.mpr hnonempty)
  have hindex : last.index = head.index + entries.length - 1 := by
    have hmap := congrArg List.getLast? hentries
    rw [List.getLast?_map, hlast, List.getLast?_range', if_neg hlength.ne'] at hmap
    have hmap := Option.some.inj hmap
    omega
  have hsucc : last.index + 1 = head.index + entries.length := by omega
  have hcut := hstored.append hentries (by omega) hnext hlength
  simp only [LogStore.append, hlast]
  refine ⟨hinv.consistent, ?_, ⟨first, hfirst, ?_, hqueued⟩, hinv.tasks, hinv.consumer⟩
  · change store.apply.delegate.apply_state.applied_index ≤ last.index
    omega
  · change Stored (RocksEngine.cut_logs _ (last.index + 1) _) first last.index
    rw [hsucc, hindex]
    exact hcut

theorem Inv.apply {task : Apply Closure} {apply : ApplyFsm Closure}
    (hallowed : store.Allowed (.apply task)) (happly : store.apply.handle_apply task = .ok apply) :
    ({ store with apply := apply } : LogStore Closure T).Inv origin := by
  obtain ⟨hconsistent, hforward, hreached⟩ :=
    hinv.consistent.handle_apply (fun _ _ _ _ => trivial) happly
  obtain ⟨first, hfirst, hlog⟩ := hinv.log
  have hbound : first ≤ apply.delegate.apply_state.applied_index + 1 := by omega
  refine ⟨hconsistent, ?_, ⟨first, hbound, hlog⟩, ?_, hinv.consumer.mono hforward⟩
  · obtain hsame | ⟨entry, hentry, hindex⟩ := hreached
    · rw [hsame]
      exact hinv.applied
    · rw [hindex]
      exact hallowed entry hentry
  · intro other hother
    have hend := hinv.tasks other hother
    change other.end_idx ≤ apply.delegate.apply_state.applied_index + 1
    omega

theorem Inv.end_poll :
    ({ store with apply := store.apply.end_poll } : LogStore Closure T).Inv origin :=
  ⟨hinv.consistent.end_poll, hinv.applied, hinv.log, hinv.tasks, hinv.consumer⟩

theorem Inv.on_ready_compact_log {result : ExecResult}
    (hresult : result.compact_index ≤ store.apply.delegate.apply_state.applied_index) :
    (store.on_ready_compact_log result).Inv origin := by
  obtain ⟨first, hfirst, hstored, hqueued⟩ := hinv.log
  cases result with
  | CompactLog state first_index =>
    refine ⟨hinv.consistent, hinv.applied, ⟨first, hfirst, hstored, hqueued.append _⟩, ?_,
      hinv.consumer⟩
    intro task htask
    obtain htask | htask := List.mem_append.mp htask
    · exact hinv.tasks task htask
    · rw [List.mem_singleton.mp htask]
      exact Nat.succ_le_succ hresult

theorem Inv.on_ready_results {results : List ExecResult} (hresults : ∀ result ∈ results,
      result.compact_index ≤ store.apply.delegate.apply_state.applied_index) :
    (results.foldl LogStore.on_ready_compact_log store).Inv origin := by
  induction results generalizing store with
  | nil => exact hinv
  | cons result results ih =>
    refine ih (hinv.on_ready_compact_log (hresults result List.mem_cons_self)) ?_
    intro later hlater
    rw [on_ready_compact_log_apply]
    exact hresults later (List.mem_cons_of_mem _ hlater)

theorem Inv.on_apply_res (hstep : store.on_apply_res = some next) : next.Inv origin := by
  obtain ⟨res, hres, hnext⟩ := Option.bind_eq_some_iff.mp hstep
  cases hnext
  have htaken : ({ store with
      handled := store.handled + 1, apply_state := res.apply_state } : LogStore Closure T).Inv
        origin :=
    ⟨hinv.consistent, hinv.applied, hinv.log, hinv.tasks, hinv.consumer⟩
  refine htaken.on_ready_results ?_
  intro result hresult
  exact hinv.consistent.results res (List.mem_append_right _ (List.mem_of_getElem? hres))
    result hresult

theorem Inv.gc (hstep : store.gc = some next) : next.Inv origin := by
  obtain ⟨first, hfirst, hstored, hqueued⟩ := hinv.log
  have htasks := hinv.tasks
  unfold LogStore.gc at hstep
  split at hstep
  · cases hstep
  · next task tasks hcase =>
    obtain rfl := Option.some.inj hstep
    rw [hcase] at hqueued htasks
    obtain ⟨next_first, hbound, hcut, hrest⟩ := gc_batch_stored hstored hfirst hinv.applied
      (htasks task List.mem_cons_self) hqueued
    refine ⟨hinv.consistent, hinv.applied, ⟨next_first, hbound, hcut, hrest⟩, ?_, hinv.consumer⟩
    intro other hother
    obtain hother | hother := List.mem_append.mp hother
    · rw [gc_batch_end_idx (Option.mem_toList.mp hother)]
      exact htasks task List.mem_cons_self
    · exact htasks other (List.mem_cons_of_mem _ hother)

theorem Inv.consume (hpresent : store.Present .consume) :
    ({ store with consumer := store.consumer.step decode store.apply.ctx.kv store.log } :
      LogStore Closure T).Inv origin := by
  obtain ⟨first, hfirst, hstored, hqueued⟩ := hinv.log
  refine ⟨hinv.consistent, hinv.applied, hinv.log, hinv.tasks, ?_⟩
  refine hinv.consumer.step hstored hinv.consistent.kv hinv.applied ?_
  intro last hphase
  unfold Present at hpresent
  rw [hphase] at hpresent
  exact hpresent

theorem Inv.step {action : Action Closure} (hpresent : store.Present action)
    (hstep : store.step decode action = some next) : next.Inv origin := by
  unfold LogStore.step at hstep
  split at hstep
  swap
  · cases hstep
  · next hallowed =>
    cases action with
    | append entries =>
      cases hstep
      exact hinv.append hallowed
    | apply task =>
      obtain ⟨apply, happly, hnext⟩ := Option.bind_eq_some_iff.mp hstep
      cases hnext
      exact hinv.apply hallowed (Exec.toOption_eq_some_iff.mp happly)
    | end_poll =>
      cases hstep
      exact hinv.end_poll
    | on_apply_res => exact hinv.on_apply_res hstep
    | gc => exact hinv.gc hstep
    | consume =>
      cases hstep
      exact hinv.consume hpresent

/-- When a scan finds nothing of its range, the consumer skips the range. -/
theorem Inv.present_of_in_order {action : Action Closure}
    (hstep : store.step decode action = some next) (hnext : next.consumer.InOrder origin) :
    store.Present action := by
  cases action with
  | consume =>
    cases hstep
    by_contra habsent
    unfold Present at habsent
    cases hphase : store.consumer.phase with
    | Scanning last =>
      rw [hphase] at habsent
      refine hinv.consumer.step_deleted hphase ?_ hnext
      intro index hindex
      rw [← Option.not_isSome_iff_eq_none]
      intro hsome
      exact habsent ⟨index, hindex, hsome⟩
    | Idle | Checking last | MultiGet last buf | Sending last entries | Panicked =>
      exact habsent (by rw [hphase]; exact trivial)
  | append entries | apply task | end_poll | on_apply_res | gc => exact trivial

end

theorem Inv.start (term applied_index_term : Nat) {apply_state : RaftApplyState}
    {entries : List Entry} {first last_index : Nat} (log_index : Nat)
    (hentries : entries.map Entry.index = List.range' first entries.length)
    (hlast : first + entries.length = last_index + 1)
    (hfirst : first ≤ apply_state.applied_index + 1)
    (happlied : apply_state.applied_index ≤ last_index) :
    (LogStore.start term applied_index_term apply_state entries last_index log_index :
      LogStore Closure T).Inv log_index where
  consistent := .start term applied_index_term trivial
  applied := happlied
  log := ⟨first, hfirst, .of_entries hentries hlast, Nat.zero_le _⟩
  tasks := by simp [LogStore.start]
  consumer := ⟨rfl, rfl⟩

/-- In every run of the threads of a node, the consumer sends the entries from
its start without a gap and without a repetition, and moves past nothing,
exactly when no scan finds its whole range deleted. -/
theorem log_consumer_in_order (decode : Bytes → Option T) (term applied_index_term : Nat)
    {apply_state : RaftApplyState} {entries : List Entry} {first last_index : Nat} (log_index : Nat)
    (hentries : entries.map Entry.index = List.range' first entries.length)
    (hlast : first + entries.length = last_index + 1)
    (hfirst : first ≤ apply_state.applied_index + 1)
    (happlied : apply_state.applied_index ≤ last_index)
    {actions : List (Action Closure)} {reached : LogStore Closure T}
    (hrun : Run.run (LogStore.step decode) (LogStore.start term applied_index_term apply_state
      entries last_index log_index) actions = some reached) :
    Run.Throughout (LogStore.step decode) (fun store => store.consumer.InOrder log_index)
        (LogStore.start term applied_index_term apply_state entries last_index log_index) actions ↔
      Run.Along (LogStore.step decode) Present
        (LogStore.start term applied_index_term apply_state entries last_index log_index)
        actions := by
  have hinit : (LogStore.start term applied_index_term apply_state entries last_index log_index :
      LogStore Closure T).Inv log_index :=
    .start term applied_index_term log_index hentries hlast hfirst happlied
  refine Run.throughout_iff_along (fun _ hinv => hinv.consumer.in_order) ?_ ?_ hinit hrun
  · intro state action next hinv hpresent hstep
    exact hinv.step hpresent hstep
  · intro state action next hinv hstep hnext
    exact hinv.present_of_in_order hstep hnext

/-- A log in which entry 107 compacts the first ten entries and one more. -/
def compactedLog : List Entry :=
  (List.range' 6 101).map (fun index => ⟨index, 6, none⟩) ++
    [⟨107, 6, some { body := .admin_request (.CompactLog 16 6) }⟩]

/-- A node that has applied eleven entries of the log; none is consumed yet. -/
def elevenApplied : LogStore Nat Bytes :=
  LogStore.start 6 6 ⟨16, 16, 6, ⟨5, 5⟩⟩ compactedLog 107 6

/-- The consumer has checked the range from 6 to 16 when the rest of the log is
applied and the collector deletes the range. -/
def deletedRange : List (Action Nat) :=
  [.consume, .consume, .apply ⟨6, compactedLog.drop 11, []⟩, .end_poll, .on_apply_res, .gc,
    .consume]

theorem deleted_range_skipped :
    ((Run.run (LogStore.step some) elevenApplied deletedRange).any fun store =>
      store.consumer = { log_index := 17, phase := .Idle, sent := [] }) = true := by
  decide +kernel

/-- The collector comes after the consumer has read the range. -/
def readRange : List (Action Nat) :=
  [.consume, .consume, .apply ⟨6, compactedLog.drop 11, []⟩, .end_poll, .on_apply_res, .consume,
    .gc] ++ List.replicate 11 .consume

theorem log_consumer_in_order_read :
    ∃ store, Run.run (LogStore.step some) elevenApplied readRange = some store ∧
      store.consumer.log_index = 17 ∧ store.consumer.sent.length = 11 ∧
      store.consumer.InOrder 6 := by
  have hpresent : Run.Along (LogStore.step some) Present elevenApplied readRange := by
    decide +kernel
  obtain ⟨store, hrun, hindex, hsent⟩ :
      ∃ store ∈ Run.run (LogStore.step some) elevenApplied readRange,
        store.consumer.log_index = 17 ∧ store.consumer.sent.length = 11 := by
    decide +kernel
  have hthroughout := (log_consumer_in_order some 6 6 6 (by decide) rfl (by decide) (by decide)
    hrun).mpr hpresent
  exact ⟨store, hrun, hindex, hsent, hthroughout readRange store List.prefix_rfl hrun⟩

end LogStore

end hologram_kv
