import Auticuro.Library.U64
import Auticuro.RocksdbState

namespace firm_wallet.gc

open internal_servicepb rocksdb_state

/-- The number of events collected at once is `count_limit` times a percentage
of at most 0.25, as a float product cut down to an integer. The polling
interval is left to the scheduling of the collector. -/
structure EventLogGCConfig where
  count_limit : Nat
  batch_size : Nat
  gc_count : Nat
  gc_count_le : gc_count ≤ count_limit

namespace EventLogGCLoop

/-- The next first sequence number if there is something to collect. The outer
`none` is the failed assertion. -/
def should_gc (config : EventLogGCConfig) (first_seq_num last_seq_num : Nat) :
    Option (Option Nat) :=
  if last_seq_num ≥ first_seq_num then
    if last_seq_num - first_seq_num < config.count_limit then
      some none
    else
      some (some (first_seq_num + config.gc_count))
  else
    none

/-- Where `gc` starts: real events are numbered from the default plus one. -/
def gc_from (first_seq_num : Nat) : Nat :=
  max first_seq_num (HardStateKind.PERSISTED_FIRST_SEQ_NUM.default_value + 1)

/-- Where the batch that starts at `from_seq_num` ends, as the machine computes
it: the sum wraps around. -/
def batch_end (config : EventLogGCConfig) (from_seq_num next_first_seq_num : Nat) : Nat :=
  min (U64.wrapping_add from_seq_num config.batch_size) next_first_seq_num

theorem batch_end_le (config : EventLogGCConfig) (from_seq_num next_first_seq_num : Nat) :
    batch_end config from_seq_num next_first_seq_num ≤ next_first_seq_num :=
  Nat.min_le_right _ _

/-- The events with numbers in `[from, to)`, in key order. -/
def scan (db : RocksDBState) (from_seq_num to_seq_num : Nat) : List (Nat × Event) :=
  (List.range' from_seq_num (to_seq_num - from_seq_num)).filterMap fun seq_num =>
    (db.events.lookup seq_num).map fun event => (seq_num, event)

/-- The deletions for the scanned events: the event and its dedup entry. -/
def deletions (scanned : List (Nat × Event)) : RocksWriteBatch :=
  scanned.flatMap fun item =>
    [.delete_event item.1, .delete_seq_num item.2.header.command_id]

def gc_batch (from_seq_num to_seq_num : Nat) (db : RocksDBState) : RocksDBState :=
  db.write_opt (deletions (scan db from_seq_num to_seq_num) ++
    [.put_hard_state .PERSISTED_FIRST_SEQ_NUM to_seq_num])

variable {seq_num : Nat}

theorem mem_scan_iff {db : RocksDBState} {from_seq_num to_seq_num : Nat} {event : Event} :
    (seq_num, event) ∈ scan db from_seq_num to_seq_num ↔
      from_seq_num ≤ seq_num ∧ seq_num < to_seq_num ∧ db.events.lookup seq_num = some event := by
  unfold scan
  rw [List.mem_filterMap]
  constructor
  · rintro ⟨n, hn, hevent⟩
    obtain ⟨hlow, hhigh⟩ := List.mem_range'_1.mp hn
    obtain ⟨found, hfound, hpair⟩ := Option.map_eq_some_iff.mp hevent
    cases hpair
    exact ⟨hlow, by omega, hfound⟩
  · rintro ⟨hlow, hhigh, hevent⟩
    refine ⟨seq_num, List.mem_range'_1.mpr ⟨hlow, by omega⟩, ?_⟩
    rw [hevent, Option.map_some]

/-- The deletions touch nothing but events and dedup entries. -/
theorem write_opt_deletions (db : RocksDBState) (scanned : List (Nat × Event)) :
    (db.write_opt (deletions scanned)).data = db.data ∧
      (db.write_opt (deletions scanned)).hard_state = db.hard_state ∧
      (∀ seq_num, (db.write_opt (deletions scanned)).events.lookup seq_num =
        if seq_num ∈ scanned.map Prod.fst then none else db.events.lookup seq_num) ∧
      ∀ command_id, (db.write_opt (deletions scanned)).dedup.lookup command_id =
        if command_id ∈ scanned.map (fun item => item.2.header.command_id) then none
        else db.dedup.lookup command_id := by
  induction scanned generalizing db with
  | nil => simp [deletions, RocksDBState.write_opt]
  | cons item scanned ih =>
    obtain ⟨hdata, hhard, hevents, hdedup⟩ := ih
      { db with
        events := db.events.erase item.1,
        dedup := db.dedup.erase item.2.header.command_id }
    refine ⟨hdata, hhard, ?_, ?_⟩
    · intro seq_num
      refine (hevents seq_num).trans ?_
      rw [Finmap.lookup_erase_eq_ite, List.map_cons]
      by_cases hitem : seq_num = item.1
      · simp [hitem]
      · simp only [hitem, List.mem_cons, false_or, ↓reduceIte]
    · intro command_id
      refine (hdedup command_id).trans ?_
      rw [Finmap.lookup_erase_eq_ite, List.map_cons]
      by_cases hitem : command_id = item.2.header.command_id
      · simp [hitem]
      · simp only [hitem, List.mem_cons, false_or, ↓reduceIte]

section Batch

variable (from_seq_num to_seq_num : Nat) (db : RocksDBState)

theorem gc_batch_eq :
    gc_batch from_seq_num to_seq_num db =
      { db.write_opt (deletions (scan db from_seq_num to_seq_num)) with
        hard_state := fun kind =>
          if kind = .PERSISTED_FIRST_SEQ_NUM then some to_seq_num else db.hard_state kind } := by
  obtain ⟨_, hhard, _, _⟩ := write_opt_deletions db (scan db from_seq_num to_seq_num)
  unfold gc_batch
  rw [RocksDBState.write_opt_append, ← hhard]
  rfl

theorem gc_batch_data : (gc_batch from_seq_num to_seq_num db).data = db.data := by
  rw [gc_batch_eq]
  exact (write_opt_deletions db _).1

theorem gc_batch_hard_state (kind : HardStateKind) :
    (gc_batch from_seq_num to_seq_num db).hard_state kind =
      if kind = .PERSISTED_FIRST_SEQ_NUM then some to_seq_num else db.hard_state kind := by
  rw [gc_batch_eq]

theorem gc_batch_events (seq_num : Nat) :
    (gc_batch from_seq_num to_seq_num db).events.lookup seq_num =
      if from_seq_num ≤ seq_num ∧ seq_num < to_seq_num then none
      else db.events.lookup seq_num := by
  rw [gc_batch_eq]
  refine ((write_opt_deletions db _).2.2.1 seq_num).trans ?_
  by_cases hrange : from_seq_num ≤ seq_num ∧ seq_num < to_seq_num
  · rw [if_pos hrange]
    cases hevent : db.events.lookup seq_num with
    | none => simp
    | some event =>
      rw [if_pos]
      exact List.mem_map.mpr ⟨(seq_num, event), mem_scan_iff.mpr ⟨hrange.1, hrange.2, hevent⟩, rfl⟩
  · rw [if_neg hrange, if_neg]
    intro hmem
    obtain ⟨⟨n, event⟩, hscan, rfl⟩ := List.mem_map.mp hmem
    obtain ⟨hlow, hhigh, _⟩ := mem_scan_iff.mp hscan
    exact hrange ⟨hlow, hhigh⟩

variable {from_seq_num to_seq_num db}

theorem gc_batch_dedup_gone {event : Event} (hlow : from_seq_num ≤ seq_num)
    (hhigh : seq_num < to_seq_num) (hevent : db.events.lookup seq_num = some event) :
    (gc_batch from_seq_num to_seq_num db).dedup.lookup event.header.command_id = none := by
  rw [gc_batch_eq]
  refine ((write_opt_deletions db _).2.2.2 _).trans ?_
  rw [if_pos]
  exact List.mem_map.mpr ⟨(seq_num, event), mem_scan_iff.mpr ⟨hlow, hhigh, hevent⟩, rfl⟩

theorem gc_batch_dedup_kept {command_id : String}
    (hkept : ∀ seq_num event, from_seq_num ≤ seq_num → seq_num < to_seq_num →
      db.events.lookup seq_num = some event → event.header.command_id ≠ command_id) :
    (gc_batch from_seq_num to_seq_num db).dedup.lookup command_id =
      db.dedup.lookup command_id := by
  rw [gc_batch_eq]
  refine ((write_opt_deletions db _).2.2.2 _).trans ?_
  rw [if_neg]
  intro hmem
  obtain ⟨⟨seq_num, event⟩, hscan, hid⟩ := List.mem_map.mp hmem
  obtain ⟨hlow, hhigh, hevent⟩ := mem_scan_iff.mp hscan
  exact hkept seq_num event hlow hhigh hevent hid

/-- The collector adds no event. -/
theorem gc_batch_events_some {event : Event}
    (hevent : (gc_batch from_seq_num to_seq_num db).events.lookup seq_num = some event) :
    db.events.lookup seq_num = some event := by
  rw [gc_batch_events] at hevent
  split at hevent
  · cases hevent
  · exact hevent

/-- The collector adds no dedup entry. -/
theorem gc_batch_dedup_some {command_id : String}
    (hdedup : (gc_batch from_seq_num to_seq_num db).dedup.lookup command_id = some seq_num) :
    db.dedup.lookup command_id = some seq_num := by
  rw [gc_batch_eq] at hdedup
  have hkept := (write_opt_deletions db (scan db from_seq_num to_seq_num)).2.2.2 command_id
  rw [hkept] at hdedup
  split at hdedup
  · cases hdedup
  · exact hdedup

theorem gc_batch_first_seq_num :
    (gc_batch from_seq_num to_seq_num db).first_seq_num = to_seq_num := by
  unfold RocksDBState.first_seq_num RocksDBState.read_hard_state_from_db
  rw [gc_batch_hard_state]
  rfl

theorem gc_batch_last_seq_num :
    (gc_batch from_seq_num to_seq_num db).last_seq_num = db.last_seq_num := by
  unfold RocksDBState.last_seq_num RocksDBState.read_hard_state_from_db
  rw [gc_batch_hard_state]
  rfl

end Batch

end EventLogGCLoop

end firm_wallet.gc
