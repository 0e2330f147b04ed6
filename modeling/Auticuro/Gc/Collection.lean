import Auticuro.Node.Gapless

open Run

namespace firm_wallet.gc.EventLogGCLoop

open balance_calculator internal_servicepb rocksdb_state node

/-- The loop of `gc`, with the database after each of its batches. `none` is a
loop that needs more rounds. -/
def gc_loop (config : EventLogGCConfig) (next_first_seq_num : Nat) :
    Nat → Nat → RocksDBState → Option (List RocksDBState)
  | 0, _, _ => none
  | rounds + 1, from_seq_num, db =>
    if from_seq_num < next_first_seq_num then
      let to_seq_num := batch_end config from_seq_num next_first_seq_num
      let db := gc_batch from_seq_num to_seq_num db
      (gc_loop config next_first_seq_num rounds to_seq_num db).map (db :: ·)
    else
      some []

set_option linter.dupNamespace false in
def gc (config : EventLogGCConfig) (first_seq_num next_first_seq_num rounds : Nat)
    (db : RocksDBState) : Option (List RocksDBState) :=
  gc_loop config next_first_seq_num rounds (gc_from first_seq_num) db

/-- The events below a number are gone with their dedup entries, all others are
still there, and the number is the first one stored. -/
structure Collected (before : RocksDBState) (next_first_seq_num : Nat)
    (after : RocksDBState) : Prop where
  first_seq_num : after.first_seq_num = next_first_seq_num
  last_seq_num : after.last_seq_num = before.last_seq_num
  events : ∀ seq_num, after.events.lookup seq_num =
    if next_first_seq_num ≤ seq_num then before.events.lookup seq_num else none
  dedup : ∀ command_id, after.dedup.lookup command_id =
    (before.dedup.lookup command_id).filter fun seq_num => next_first_seq_num ≤ seq_num

/-- The collection ends, the log is consistent after each of its batches, and in
the end exactly what was announced is collected. -/
def Collects (config : EventLogGCConfig) (db : RocksDBState) (next_first_seq_num : Nat) : Prop :=
  ∃ rounds batches, gc config db.first_seq_num next_first_seq_num rounds db = some batches ∧
    (∀ state ∈ batches, state.EventLog) ∧
    Collected db next_first_seq_num (batches.getLast?.getD db)

variable {config : EventLogGCConfig} {db : RocksDBState} {from_seq_num next_first_seq_num : Nat}

theorem Collected.trans {before middle after : RocksDBState} {reached next_first_seq_num : Nat}
    (hfirst : Collected before reached middle) (hrest : Collected middle next_first_seq_num after)
    (hle : reached ≤ next_first_seq_num) : Collected before next_first_seq_num after where
  first_seq_num := hrest.first_seq_num
  last_seq_num := hrest.last_seq_num.trans hfirst.last_seq_num
  events := by
    intro seq_num
    rw [hrest.events, hfirst.events]
    split
    · rw [if_pos (by omega)]
    · rfl
  dedup := by
    intro command_id
    rw [hrest.dedup, hfirst.dedup, Option.filter_filter]
    congr 1
    funext seq_num
    simp only [← Bool.decide_and, decide_eq_decide]
    omega

/-- In a consistent log the events decide what the dedup table holds. -/
theorem Collected.of_logs {before after : RocksDBState} (hbefore : before.EventLog)
    (hafter : after.EventLog) (hlast : after.last_seq_num = before.last_seq_num)
    (hevents : ∀ seq_num, after.events.lookup seq_num =
      if after.first_seq_num ≤ seq_num then before.events.lookup seq_num else none) :
    Collected before after.first_seq_num after where
  first_seq_num := rfl
  last_seq_num := hlast
  events := hevents
  dedup := by
    intro command_id
    apply Option.ext
    intro seq_num
    rw [hafter.segment.index, Option.filter_eq_some_iff, hbefore.segment.index]
    simp only [hevents, decide_eq_true_eq]
    constructor
    · rintro ⟨event, hevent, hid⟩
      split at hevent
      · rename_i hle
        exact ⟨⟨event, hevent, hid⟩, hle⟩
      · cases hevent
    · rintro ⟨⟨event, hevent, hid⟩, hle⟩
      exact ⟨event, by rw [if_pos hle, hevent], hid⟩

theorem gc_from_eq (first_seq_num : Nat) : gc_from first_seq_num = max 1 first_seq_num :=
  Nat.max_comm _ _

theorem gc_from_of_pos {first_seq_num : Nat} (hpos : 0 < first_seq_num) :
    gc_from first_seq_num = first_seq_num :=
  Nat.max_eq_left hpos

theorem gc_from_pos (first_seq_num : Nat) : 0 < gc_from first_seq_num :=
  lt_of_lt_of_le Nat.one_pos (Nat.le_max_right _ _)

/-- A batch that starts with the first stored event collects up to its end. -/
theorem gc_batch_collected (hdb : db.EventLog) (hfrom : gc_from db.first_seq_num = from_seq_num)
    (to_seq_num : Nat) (hle : from_seq_num ≤ to_seq_num) (hto : to_seq_num ≤ db.last_seq_num) :
    (gc_batch from_seq_num to_seq_num db).EventLog ∧
      Collected db to_seq_num (gc_batch from_seq_num to_seq_num db) := by
  have hstart : from_seq_num = max 1 db.first_seq_num := by
    rw [← hfrom, gc_from_eq]
  subst hstart
  have hlog : (gc_batch (max 1 db.first_seq_num) to_seq_num db).EventLog :=
    hdb.gc_batch (by omega) (by omega) hto
  refine ⟨hlog, ?_⟩
  have hcollected := Collected.of_logs hdb hlog gc_batch_last_seq_num ?_
  · rwa [gc_batch_first_seq_num] at hcollected
  · intro seq_num
    rw [gc_batch_events, gc_batch_first_seq_num]
    by_cases hkept : to_seq_num ≤ seq_num
    · rw [if_neg (by omega), if_pos hkept]
    · rw [if_neg hkept]
      by_cases hlow : max 1 db.first_seq_num ≤ seq_num
      · rw [if_pos ⟨hlow, not_le.mp hkept⟩]
      · rw [if_neg fun hrange => hlow hrange.1]
        exact hdb.segment.eq_none_of_not_range fun hrange => hlow hrange.1

/-- No batch of the collection computes an end beyond the machine's numbers. -/
def NoOverflow (config : EventLogGCConfig) (from_seq_num next_first_seq_num : Nat) : Prop :=
  ∀ batch, from_seq_num + batch * config.batch_size < next_first_seq_num →
    from_seq_num + batch * config.batch_size + config.batch_size < U64.size

theorem NoOverflow.next (hfits : NoOverflow config from_seq_num next_first_seq_num) :
    NoOverflow config (from_seq_num + config.batch_size) next_first_seq_num := by
  intro batch hless
  have hsucc := hfits (batch + 1)
  rw [Nat.succ_mul] at hsucc
  have hsame : from_seq_num + (batch * config.batch_size + config.batch_size) =
      from_seq_num + config.batch_size + batch * config.batch_size := by omega
  rw [hsame] at hsucc
  exact hsucc hless

theorem NoOverflow.of_next (hsum : from_seq_num + config.batch_size < U64.size)
    (hnext : from_seq_num + config.batch_size < next_first_seq_num →
      NoOverflow config (from_seq_num + config.batch_size) next_first_seq_num) :
    NoOverflow config from_seq_num next_first_seq_num := by
  intro batch hless
  cases batch with
  | zero =>
    rw [Nat.zero_mul]
    exact hsum
  | succ batch =>
    have hsame : from_seq_num + (batch + 1) * config.batch_size =
        from_seq_num + config.batch_size + batch * config.batch_size := by
      rw [Nat.succ_mul]
      omega
    rw [hsame] at hless ⊢
    exact hnext (by omega) batch hless

/-- Where nothing is left to collect the loop ends at once. -/
theorem gc_loop_done (hdone : ¬from_seq_num < next_first_seq_num) (rounds : Nat) :
    gc_loop config next_first_seq_num (rounds + 1) from_seq_num db = some [] := by
  rw [gc_loop, if_neg hdone]

theorem gc_loop_step (hless : from_seq_num < next_first_seq_num) (rounds : Nat) :
    gc_loop config next_first_seq_num (rounds + 1) from_seq_num db =
      (gc_loop config next_first_seq_num rounds (batch_end config from_seq_num next_first_seq_num)
        (gc_batch from_seq_num (batch_end config from_seq_num next_first_seq_num) db)).map
        (gc_batch from_seq_num (batch_end config from_seq_num next_first_seq_num) db :: ·) := by
  rw [gc_loop, if_pos hless]

/-- A log in which nothing below its first number is to be collected. -/
theorem Collected.refl (hdb : db.EventLog) : Collected db db.first_seq_num db := by
  refine Collected.of_logs hdb hdb rfl ?_
  intro seq_num
  split
  · rfl
  · rename_i hlow
    exact hdb.segment.eq_none_of_not_range (by omega)

/-- A collection that starts at the first stored event, with batches that are
not empty and do not overflow, runs to its end. -/
theorem gc_loop_collects (hbatch : 0 < config.batch_size) (hdb : db.EventLog)
    (hfrom : gc_from db.first_seq_num = from_seq_num)
    (hstart : from_seq_num < next_first_seq_num ∨ db.first_seq_num = next_first_seq_num)
    (hlast : next_first_seq_num ≤ db.last_seq_num)
    (hfits : NoOverflow config from_seq_num next_first_seq_num) :
    ∃ rounds batches, gc_loop config next_first_seq_num rounds from_seq_num db = some batches ∧
      (∀ state ∈ batches, state.EventLog) ∧
      Collected db next_first_seq_num (batches.getLast?.getD db) := by
  -- the distance to the end decreases with every batch
  generalize hdistance : next_first_seq_num - from_seq_num = distance
  induction distance using Nat.strong_induction_on generalizing from_seq_num db with
  | h distance ih =>
    by_cases hless : from_seq_num < next_first_seq_num
    · have hpos : 0 < from_seq_num := hfrom ▸ gc_from_pos db.first_seq_num
      have hsum : from_seq_num + config.batch_size < U64.size := by
        have hzero := hfits 0
        rw [Nat.zero_mul] at hzero
        exact hzero hless
      have hend : batch_end config from_seq_num next_first_seq_num =
          min (from_seq_num + config.batch_size) next_first_seq_num := by
        rw [batch_end, U64.wrapping_add_of_lt hsum]
      have hnext : NoOverflow config (batch_end config from_seq_num next_first_seq_num)
          next_first_seq_num := by
        by_cases hclipped : from_seq_num + config.batch_size ≤ next_first_seq_num
        · rw [hend, Nat.min_eq_left hclipped]
          exact hfits.next
        · intro batch hbelow
          omega
      obtain ⟨hlog, hcollected⟩ := gc_batch_collected hdb hfrom
        (batch_end config from_seq_num next_first_seq_num) (by omega) (by omega)
      have hfirst := hcollected.first_seq_num
      obtain ⟨rounds, batches, hrun, hlogs, hrest⟩ := ih
        (next_first_seq_num - batch_end config from_seq_num next_first_seq_num) (by omega) hlog
        (by rw [hfirst]; exact gc_from_of_pos (by omega)) (by omega)
        (by rw [hcollected.last_seq_num]; exact hlast) hnext rfl
      refine ⟨rounds + 1, _ :: batches, by rw [gc_loop_step hless, hrun]; rfl, ?_, ?_⟩
      · intro state hstate
        obtain rfl | hstate := List.mem_cons.mp hstate
        · exact hlog
        · exact hlogs state hstate
      · rw [List.getLast?_cons, Option.getD_some]
        exact hcollected.trans hrest (by omega)
    · obtain hless' | rfl := hstart
      · exact absurd hless' hless
      · refine ⟨1, [], gc_loop_done hless 0, ?_, Collected.refl hdb⟩
        intro state hstate
        cases hstate

/-- Empty batches are written again and again. -/
theorem gc_loop_empty_batch (hbatch : config.batch_size = 0) (hfrom : from_seq_num < U64.size)
    (hless : from_seq_num < next_first_seq_num) (rounds : Nat) :
    gc_loop config next_first_seq_num rounds from_seq_num db = none := by
  induction rounds generalizing db with
  | zero => rfl
  | succ rounds ih =>
    have hend : batch_end config from_seq_num next_first_seq_num = from_seq_num := by
      rw [batch_end, hbatch, U64.wrapping_add_of_lt (by omega)]
      omega
    rw [gc_loop_step hless, hend, ih]
    rfl

/-- The log is not consistent when its first number falls below its events. -/
theorem gc_batch_back (hdb : db.EventLog) (hfrom : gc_from db.first_seq_num = from_seq_num)
    {to_seq_num : Nat} (hback : to_seq_num < from_seq_num)
    (hlast : from_seq_num ≤ db.last_seq_num)
    (hlog : (gc_batch from_seq_num to_seq_num db).EventLog) : from_seq_num = 1 := by
  by_contra hne
  have hpos := gc_from_pos db.first_seq_num
  have hrange := (hlog.segment.range (from_seq_num - 1)).mpr (by
    rw [gc_batch_first_seq_num, gc_batch_last_seq_num]
    omega)
  rw [gc_batch_events, if_neg (by omega)] at hrange
  have hevent := (hdb.segment.range (from_seq_num - 1)).mp hrange
  have hstart : from_seq_num = max 1 db.first_seq_num := by
    rw [← hfrom, gc_from_eq]
  omega

/-- A collection that ends with a consistent log after each batch has not
overflowed, except from the first number by the largest batch size. -/
theorem noOverflow_of_gc_loop {rounds : Nat} {batches : List RocksDBState}
    (hsize : config.batch_size < U64.size) (hdb : db.EventLog)
    (hfrom : gc_from db.first_seq_num = from_seq_num)
    (hlast : next_first_seq_num ≤ db.last_seq_num) (hmax : db.last_seq_num < U64.size)
    (hless : from_seq_num < next_first_seq_num)
    (hrun : gc_loop config next_first_seq_num rounds from_seq_num db = some batches)
    (hlogs : ∀ state ∈ batches, state.EventLog) :
    NoOverflow config from_seq_num next_first_seq_num ∨
      from_seq_num = 1 ∧ config.batch_size = U64.size - 1 := by
  induction rounds generalizing from_seq_num db batches with
  | zero => cases hrun
  | succ rounds ih =>
    have hpos : 0 < from_seq_num := hfrom ▸ gc_from_pos db.first_seq_num
    have hbatch : config.batch_size ≠ 0 := by
      intro hzero
      rw [gc_loop_empty_batch hzero (by omega) hless] at hrun
      cases hrun
    rw [gc_loop_step hless] at hrun
    obtain ⟨rest, hrest, rfl⟩ := Option.map_eq_some_iff.mp hrun
    have hlog := hlogs _ List.mem_cons_self
    by_cases hsum : from_seq_num + config.batch_size < U64.size
    · refine .inl ?_
      have hend : batch_end config from_seq_num next_first_seq_num =
          min (from_seq_num + config.batch_size) next_first_seq_num := by
        rw [batch_end, U64.wrapping_add_of_lt hsum]
      refine NoOverflow.of_next hsum fun hclipped => ?_
      rw [Nat.min_eq_left hclipped.le] at hend
      rw [hend] at hlog hrest hlogs
      have hcollected := (gc_batch_collected hdb hfrom (from_seq_num + config.batch_size)
        (by omega) (by omega)).2
      have hnext := ih hlog
        (by rw [hcollected.first_seq_num]; exact gc_from_of_pos (by omega))
        (by rw [hcollected.last_seq_num]; exact hlast)
        (by rw [hcollected.last_seq_num]; exact hmax) hclipped hrest
        fun state hstate => hlogs state (List.mem_cons_of_mem _ hstate)
      exact hnext.resolve_right (by omega)
    · have hend : batch_end config from_seq_num next_first_seq_num =
          from_seq_num + config.batch_size - U64.size := by
        rw [batch_end, U64.wrapping_add_of_le (by omega) hsize (by omega)]
        omega
      have hone := gc_batch_back hdb hfrom (by omega) (by omega) hlog
      exact .inr ⟨hone, by omega⟩

/-- The configuration of a collection that does what is announced: there is
nothing to collect, or the collection does not start where it ends, its batches
are not empty and no sum of the loop overflows. The largest batch size is
harmless from the first number on, where the sum comes out as 0. -/
def Sound (config : EventLogGCConfig) (first_seq_num next_first_seq_num : Nat) : Prop :=
  next_first_seq_num = first_seq_num ∨
    gc_from first_seq_num < next_first_seq_num ∧ 0 < config.batch_size ∧
      (NoOverflow config (gc_from first_seq_num) next_first_seq_num ∨
        gc_from first_seq_num = 1 ∧ config.batch_size = U64.size - 1)

theorem gc_batch_zero (hzero : db.events.lookup 0 = none) {to_seq_num : Nat}
    (hto : 0 < to_seq_num) : gc_batch 0 to_seq_num db = gc_batch 1 to_seq_num db := by
  have hscan : scan db 0 to_seq_num = scan db 1 to_seq_num := by
    unfold scan
    obtain ⟨count, rfl⟩ := Nat.exists_eq_add_of_lt hto
    simp only [Nat.zero_add, Nat.sub_zero, Nat.add_sub_cancel, List.range'_succ]
    rw [List.filterMap_cons_none (by rw [hzero]; rfl)]
  unfold gc_batch
  rw [hscan]

/-- Writing 0 as the first number where the log starts with 1 changes nothing
else. -/
theorem gc_batch_to_zero (hdb : db.EventLog) (hfrom : gc_from db.first_seq_num = 1) :
    (gc_batch 1 0 db).EventLog ∧ Collected db 0 (gc_batch 1 0 db) := by
  have hstart : max 1 db.first_seq_num = 1 := by
    rw [← gc_from_eq, hfrom]
  have hevents : ∀ seq_num, (gc_batch 1 0 db).events.lookup seq_num =
      db.events.lookup seq_num := by
    intro seq_num
    rw [gc_batch_events, if_neg (by omega)]
  have hlog : (gc_batch 1 0 db).EventLog :=
    hdb.gc_batch hstart.symm (le_refl _) (Nat.zero_le _)
  have hcollected := Collected.of_logs hdb hlog gc_batch_last_seq_num fun seq_num => by
    rw [hevents, gc_batch_first_seq_num, if_pos (Nat.zero_le _)]
  rw [gc_batch_first_seq_num] at hcollected
  exact ⟨hlog, hcollected⟩

/-- The largest batch size: the first batch ends at 0, the second one covers
everything. -/
theorem collects_largest_batch (hdb : db.EventLog) (hfrom : gc_from db.first_seq_num = 1)
    (hsize : config.batch_size = U64.size - 1) (hless : 1 < next_first_seq_num)
    (hlast : next_first_seq_num ≤ db.last_seq_num) (hmax : db.last_seq_num < U64.size) :
    Collects config db next_first_seq_num := by
  have hone : batch_end config 1 next_first_seq_num = 0 := by
    rw [batch_end, hsize, U64.wrapping_add_of_le (by omega) (by omega) (by omega)]
    omega
  have hzero : batch_end config 0 next_first_seq_num = next_first_seq_num := by
    rw [batch_end, hsize, U64.wrapping_add_of_lt (by omega)]
    omega
  obtain ⟨hlog, hcollected⟩ := gc_batch_to_zero hdb hfrom
  have hmissing : (gc_batch 1 0 db).events.lookup 0 = none :=
    hlog.segment.eq_none_of_not_range (by omega)
  have hfirst : gc_from (gc_batch 1 0 db).first_seq_num = 1 := by
    rw [gc_batch_first_seq_num]
    rfl
  obtain ⟨hlogs, hrest⟩ := gc_batch_collected hlog hfirst next_first_seq_num hless.le
    (by rw [gc_batch_last_seq_num]; exact hlast)
  refine ⟨3, [gc_batch 1 0 db, gc_batch 1 next_first_seq_num (gc_batch 1 0 db)], ?_, ?_, ?_⟩
  · rw [gc, hfrom, gc_loop_step hless, hone, gc_loop_step (by omega), hzero,
      gc_batch_zero hmissing (by omega), gc_loop_done (lt_irrefl _)]
    rfl
  · simp only [List.mem_cons, List.not_mem_nil, or_false, forall_eq_or_imp, forall_eq]
    exact ⟨hlog, hlogs⟩
  · exact hcollected.trans hrest (Nat.zero_le _)

/-- `should_gc` announces a number between the two that are stored. -/
theorem should_gc_bounds {first_seq_num last_seq_num : Nat}
    (hshould : should_gc config first_seq_num last_seq_num = some (some next_first_seq_num)) :
    first_seq_num ≤ next_first_seq_num ∧ next_first_seq_num ≤ last_seq_num := by
  unfold should_gc at hshould
  have hcount := config.gc_count_le
  split at hshould
  · split at hshould
    · cases hshould
    · cases hshould
      omega
  · cases hshould

/-- On a consistent log, what `should_gc` announces is what `gc` does if and
only if the configuration is sound for the two numbers. -/
theorem gc_does_what_should_gc_announces_iff (config : EventLogGCConfig) (db : RocksDBState)
    (next_first_seq_num : Nat) (hdb : db.EventLog) (hsize : config.batch_size < U64.size)
    (hmax : db.last_seq_num < U64.size)
    (hshould : should_gc config db.first_seq_num db.last_seq_num =
      some (some next_first_seq_num)) :
    Collects config db next_first_seq_num ↔
      Sound config db.first_seq_num next_first_seq_num := by
  obtain ⟨hle, hlast⟩ := should_gc_bounds hshould
  constructor
  · rintro ⟨rounds, batches, hrun, hlogs, hcollected⟩
    by_cases hless : gc_from db.first_seq_num < next_first_seq_num
    · refine .inr ⟨hless, ?_, noOverflow_of_gc_loop hsize hdb rfl hlast hmax hless hrun hlogs⟩
      by_contra hzero
      rw [gc, gc_loop_empty_batch (by omega) (by omega) hless] at hrun
      cases hrun
    · -- without a batch the first number stays what it was
      cases rounds with
      | zero => cases hrun
      | succ rounds =>
        rw [gc, gc_loop_done hless] at hrun
        cases hrun
        exact .inl hcollected.first_seq_num.symm
  · rintro (rfl | ⟨hless, hbatch, hfits | ⟨hone, hlargest⟩⟩)
    · refine ⟨1, [], ?_, ?_, Collected.refl hdb⟩
      · have hle := gc_from_eq db.first_seq_num
        exact gc_loop_done (by omega) 0
      · intro state hstate
        cases hstate
    · exact gc_loop_collects hbatch hdb rfl (.inl hless) hlast hfits
    · exact collects_largest_batch hdb hone hlargest (by omega) hlast hmax

/-- One entry that creates some accounts, applied and flushed. -/
def createTrace (count : Nat) : List Action :=
  .receive (6, (List.range count).map fun n => createAccount (toString n) (toString n)) ::
    (List.replicate (2 * count + 1) .apply_step ++ [.flush])

/-- A quarter of twelve events, in batches of one. -/
def smallBatches : EventLogGCConfig where
  count_limit := 12
  batch_size := 1
  gc_count := 3
  gc_count_le := by decide

theorem gc_does_what_should_gc_announces_small_batches :
    ∃ last, run (Node.step plainDecimal none) (Node.start_up 100 RocksDBState.empty)
        (createTrace 12) = some last ∧
      should_gc smallBatches last.db.first_seq_num last.db.last_seq_num = some (some 3) ∧
      Collects smallBatches last.db 3 := by
  obtain ⟨last, hrun, hfirst, hlast⟩ :
      ∃ last ∈ run (Node.step plainDecimal none) (Node.start_up 100 RocksDBState.empty)
        (createTrace 12), last.db.first_seq_num = 0 ∧ last.db.last_seq_num = 12 := by
    decide +kernel
  have hshould : should_gc smallBatches last.db.first_seq_num last.db.last_seq_num =
      some (some 3) := by
    rw [hfirst, hlast]
    rfl
  refine ⟨last, hrun, hshould, ?_⟩
  refine (gc_does_what_should_gc_announces_iff smallBatches last.db 3
    (Node.Exact.of_run hrun).log (by decide) (by rw [hlast]; decide)
    hshould).mpr ?_
  rw [hfirst]
  refine .inr ⟨by decide, by decide, .inl ?_⟩
  intro batch hless
  have hsize : 100 < U64.size := by decide
  simp only [smallBatches] at hless ⊢
  omega

/-- A quarter of four events. -/
def singleEvent : EventLogGCConfig where
  count_limit := 4
  batch_size := 200
  gc_count := 1
  gc_count_le := by decide

/-- On a database of which nothing was collected yet, the number 1 is announced
and no batch is written. -/
theorem gc_writes_nothing_on_fresh_log :
    ∃ last, run (Node.step plainDecimal none) (Node.start_up 100 RocksDBState.empty)
        (createTrace 4) = some last ∧ last.db.EventLog ∧
      should_gc singleEvent last.db.first_seq_num last.db.last_seq_num = some (some 1) ∧
      gc singleEvent last.db.first_seq_num 1 1 last.db = some [] ∧
      last.db.first_seq_num = 0 ∧ ¬Collects singleEvent last.db 1 := by
  obtain ⟨last, hrun, hfirst, hlast⟩ :
      ∃ last ∈ run (Node.step plainDecimal none) (Node.start_up 100 RocksDBState.empty)
        (createTrace 4), last.db.first_seq_num = 0 ∧ last.db.last_seq_num = 4 := by
    decide +kernel
  refine ⟨last, hrun, (Node.Exact.of_run hrun).log, ?_, ?_, hfirst, ?_⟩
  · rw [hfirst, hlast]
    rfl
  · rw [hfirst]
    rfl
  · rintro ⟨rounds, batches, hgc, -, hcollected⟩
    rw [hfirst, gc] at hgc
    cases rounds with
    | zero => cases hgc
    | succ rounds =>
      rw [gc_loop_done (by decide)] at hgc
      cases hgc
      have hone : last.db.first_seq_num = 1 := hcollected.first_seq_num
      omega

end firm_wallet.gc.EventLogGCLoop
