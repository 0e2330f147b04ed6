import Auticuro.TinyMq.FetchPaths

open Run

namespace hologram_kv

def write_initial_raft_state : RaftLocalState where
  hard_state := { term := RAFT_INIT_LOG_TERM, vote := 0, commit := RAFT_INIT_LOG_INDEX }
  last_index := RAFT_INIT_LOG_INDEX

/-- A storage with the readys that it has handled. -/
structure RecordedStorage where
  storage : PeerStorage
  readys : List Ready

namespace RecordedStorage

inductive Action where
  | ready (ready : Ready)
  /-- An apply result with a new truncated state. -/
  | compact (apply_state : RaftApplyState)
  /-- A batch of the collector. -/
  | gc (from_index to_index : Nat)
  deriving DecidableEq

/-- The entries of a ready are consecutive and extend the log or overwrite a
suffix of it, a compaction truncates what is in the log, and the collector
deletes what is truncated. The index behind the last one is a machine number. -/
def Allowed (self : RecordedStorage) : Action → Prop
  | .ready ready => ready.Appends self.storage.truncated_index self.storage.last_index
  | .compact apply_state =>
    self.storage.truncated_index ≤ apply_state.truncated_state.index ∧
      apply_state.truncated_state.index ≤ self.storage.last_index
  | .gc _ to_index => to_index ≤ self.storage.truncated_index + 1

instance Allowed.decidable (self : RecordedStorage) : ∀ action, Decidable (self.Allowed action)
  | .ready ready => inferInstanceAs (Decidable (ready.Appends _ _))
  | .compact _ => inferInstanceAs (Decidable (_ ∧ _))
  | .gc _ _ => inferInstanceAs (Decidable (_ ≤ _))

def step (codec : RaftCodec) (self : RecordedStorage) (action : Action) :
    Option RecordedStorage :=
  if self.Allowed action then
    match action with
    | .ready ready =>
      some { storage := self.storage.on_ready codec ready, readys := self.readys ++ [ready] }
    | .compact apply_state =>
      some { self with storage := self.storage.set_applied_state apply_state }
    | .gc from_index to_index =>
      some { self with storage := self.storage.gc from_index to_index }
  else
    none

/-- The storage of a region that was bootstrapped in a database. -/
def bootstrap (raft : RocksDB) (region_id : Nat) : RecordedStorage where
  storage :=
    { raft := raft
      region_id := region_id
      raft_state := write_initial_raft_state
      apply_state := write_initial_apply_state
      applied_index_term := RAFT_INIT_LOG_TERM
      last_term := RAFT_INIT_LOG_TERM }
  readys := []

/-- The keys in the range of the region's log are log keys. -/
def Keyed (raft : RocksDB) (region_id : Nat) : Prop :=
  ∀ entry ∈ raft.entries, keys.raft_log_key region_id 0 ≤ entry.1 →
    entry.1 < keys.raft_state_key region_id →
    ∃ index < U64.size, entry.1 = keys.raft_log_key region_id index

/-- What the storage holds above the truncated index. -/
structure Consistent (codec : RaftCodec) (recorded : RecordedStorage) : Prop where
  truncated_le : recorded.storage.truncated_index ≤ recorded.storage.last_index
  last_lt : recorded.storage.last_index + 1 < U64.size
  last_index : recorded.storage.last_index =
    ((last_entry recorded.readys).map Entry.index).getD RAFT_INIT_LOG_INDEX
  last_term : recorded.storage.last_term =
    ((last_entry recorded.readys).map Entry.term).getD RAFT_INIT_LOG_TERM
  keyed : Keyed recorded.storage.raft recorded.storage.region_id
  stored : ∀ index, recorded.storage.truncated_index < index →
    index ≤ recorded.storage.last_index →
    ∃ entry, latest recorded.readys index = some entry ∧ entry.index = index ∧
      recorded.storage.raft.get (keys.raft_log_key recorded.storage.region_id index) =
        some (codec.entry.write_to_bytes entry)
  absent : ∀ index, recorded.storage.last_index < index → index < U64.size →
    recorded.storage.raft.get (keys.raft_log_key recorded.storage.region_id index) = none

end RecordedStorage

namespace RecordedStorage

variable {codec : RaftCodec} {recorded next : RecordedStorage} {raft : RocksDB} {region_id : Nat}

/-- Keys outside the range of the log, and log keys, can be written. -/
theorem Keyed.write_opt (hkeyed : Keyed raft region_id) {wb : RocksWriteBatch}
    (hwb : ∀ key value, WriteOp.put key value ∈ wb → key = keys.raft_state_key region_id ∨
      ∃ index < U64.size, key = keys.raft_log_key region_id index) :
    Keyed (raft.write_opt wb) region_id := by
  intro entry hentry hlow hhigh
  obtain hbefore | hput := RocksDB.mem_write_opt hentry
  · exact hkeyed entry hbefore hlow hhigh
  · obtain hstate | hlog := hwb _ _ hput
    · exact absurd hhigh (by rw [hstate]; exact lt_irrefl _)
    · exact hlog

theorem Keyed.onlyLogKeys {region_id low high : Nat} (hkeyed : Keyed raft region_id)
    (hlow : low < U64.size) : keys.OnlyLogKeys raft region_id low high := by
  intro entry hentry hstart hend
  have hzero : keys.raft_log_key region_id 0 ≤ keys.raft_log_key region_id low :=
    (keys.raft_log_key_le_iff region_id (by decide) hlow).mpr (Nat.zero_le _)
  exact hkeyed entry hentry (hzero.trans hstart)
    (hend.trans (keys.raft_log_key_lt_raft_state_key region_id high))

theorem Keyed.cut_logs (hkeyed : Keyed raft region_id) (from_index to_index : Nat) :
    Keyed (raft.write_opt (RocksWriteBatch.cut_logs [] region_id from_index to_index))
      region_id := by
  apply hkeyed.write_opt
  intro key value hput
  obtain ⟨_, _, hop⟩ := List.mem_map.mp hput
  cases hop

theorem Keyed.append_impl (hkeyed : Keyed raft region_id) {entries : List Entry}
    (hsize : ∀ entry ∈ entries, entry.index < U64.size) :
    Keyed (raft.write_opt (RocksWriteBatch.append_impl codec.entry [] region_id entries))
      region_id := by
  apply hkeyed.write_opt
  intro key value hput
  obtain ⟨entry, hentry, hop⟩ := List.mem_map.mp hput
  injection hop with hkey
  exact .inr ⟨entry.index, hsize entry hentry, hkey.symm⟩

namespace Consistent

theorem bootstrap (hempty : ∀ entry ∈ raft.entries, keys.raft_log_key region_id 0 ≤ entry.1 →
      ¬entry.1 < keys.raft_state_key region_id) :
    Consistent codec (RecordedStorage.bootstrap raft region_id) where
  truncated_le := le_rfl
  last_lt := by
    change RAFT_INIT_LOG_INDEX + 1 < U64.size
    decide
  last_index := rfl
  last_term := rfl
  keyed := fun entry hentry hlow hhigh => absurd hhigh (hempty entry hentry hlow)
  stored := by
    intro index hlow hhigh
    exact absurd (lt_of_lt_of_le hlow hhigh) (lt_irrefl _)
  absent := by
    intro index _ hindex
    rw [OrderedMap.get_eq_none_iff]
    rintro entry hentry hkey
    refine hempty entry hentry ?_ ?_
    · rw [hkey]
      exact (keys.raft_log_key_le_iff region_id (by decide) hindex).mpr (Nat.zero_le _)
    · rw [hkey]
      exact keys.raft_log_key_lt_raft_state_key region_id index

section

variable (hrecorded : Consistent codec recorded)
include hrecorded

/-- Entries that extend the log or overwrite a suffix of it. -/
theorem ready {ready : Ready}
    (happends : ready.Appends recorded.storage.truncated_index recorded.storage.last_index) :
    Consistent codec ⟨recorded.storage.on_ready codec ready, recorded.readys ++ [ready]⟩ := by
  obtain ⟨hlast, happly, -, hraft⟩ := recorded.storage.on_ready_eq codec ready
  have hsame : (recorded.storage.on_ready codec ready).truncated_index =
      recorded.storage.truncated_index := by
    unfold PeerStorage.truncated_index
    rw [happly]
  have hlastLt := hrecorded.last_lt
  have hsize := happends.last_index_lt hlastLt
  refine ⟨?_, ?_, ?_, ?_, ?_, ?_, ?_⟩
  · rw [hsame, hlast]
    exact happends.floor_le_last_index hrecorded.truncated_le
  · rw [hlast]
    exact hsize
  · rw [hlast, Ready.last_index, hrecorded.last_index, last_entry_append, Option.map_or,
      Option.getD_or]
  · rw [PeerStorage.last_term_on_ready, hrecorded.last_term, last_entry_append, Option.map_or,
      Option.getD_or]
  · rw [hraft]
    refine ((hrecorded.keyed.append_impl ?_).cut_logs _ _).write_opt ?_
    · exact fun entry hentry => (happends.index_lt entry hentry).2
    · intro key value hput
      exact .inl (recorded.storage.key_of_mem_state_batch codec hput)
  · intro index hlow hhigh
    rw [hsame] at hlow
    rw [hlast] at hhigh
    have hread := PeerStorage.get_log_on_ready_of_le codec happends hlastLt hhigh
    rw [latest_append]
    cases hentry : latest_entry ready.entries index with
    | some entry =>
      refine ⟨entry, rfl, index_of_latest_entry hentry, ?_⟩
      rw [hentry] at hread
      exact hread
    | none =>
      rw [hentry] at hread
      obtain ⟨entry, hold, hindex, hstored⟩ := hrecorded.stored index hlow
        (happends.le_of_latest_entry_eq_none hhigh hentry)
      exact ⟨entry, hold, hindex, hread.trans hstored⟩
  · intro index hlow hindex
    rw [hlast] at hlow
    exact PeerStorage.get_log_on_ready_eq_none codec happends hlastLt hlow hindex
      fun hbehind => hrecorded.absent index hbehind hindex

theorem step {action : Action} (hstep : recorded.step codec action = some next) :
    Consistent codec next := by
  unfold RecordedStorage.step at hstep
  split at hstep
  · rename_i hallowed
    cases action with
    | ready ready =>
      cases hstep
      exact hrecorded.ready hallowed
    | compact apply_state =>
      cases hstep
      obtain ⟨hle, hlast⟩ := hallowed
      refine ⟨hlast, hrecorded.last_lt, hrecorded.last_index, hrecorded.last_term, hrecorded.keyed,
        ?_, hrecorded.absent⟩
      intro index hlow hhigh
      exact hrecorded.stored index (lt_of_le_of_lt hle hlow) hhigh
    | gc from_index to_index =>
      cases hstep
      have hto : to_index ≤ recorded.storage.truncated_index + 1 := hallowed
      have hle := hrecorded.truncated_le
      have hlt := hrecorded.last_lt
      refine ⟨hle, hlt, hrecorded.last_index, hrecorded.last_term,
        hrecorded.keyed.cut_logs _ _, ?_, ?_⟩
      · intro index hlow hhigh
        change recorded.storage.truncated_index < index at hlow
        change index ≤ recorded.storage.last_index at hhigh
        obtain ⟨entry, hentry, hindex, hget⟩ := hrecorded.stored index hlow hhigh
        refine ⟨entry, hentry, hindex, ?_⟩
        refine (RocksDB.get_cut_logs _ (by omega) (by omega)).trans ?_
        rw [if_neg (by omega)]
        exact hget
      · intro index hlow hindex
        refine (RocksDB.get_cut_logs _ (by omega) hindex).trans ?_
        split
        · rfl
        · exact hrecorded.absent index hlow hindex
  · cases hstep

/-- The slice of the logical log between two indices. -/
theorem slice {low count : Nat} (hlow : recorded.storage.truncated_index < low)
    (hhigh : low + count ≤ recorded.storage.last_index + 1) :
    ((List.range' low count).filterMap (latest recorded.readys)).map Entry.index =
        List.range' low count ∧
      ∀ entry ∈ (List.range' low count).filterMap (latest recorded.readys),
        recorded.storage.raft.get
            (keys.raft_log_key recorded.storage.region_id entry.index) =
          some (codec.entry.write_to_bytes entry) := by
  induction count generalizing low with
  | zero =>
    refine ⟨rfl, ?_⟩
    intro entry hentry
    cases hentry
  | succ count ih =>
    obtain ⟨entry, hlatest, hindex, hget⟩ := hrecorded.stored low hlow (by omega)
    obtain ⟨hindices, hstored⟩ := ih (Nat.lt_succ_of_lt hlow) (by omega)
    rw [List.range'_succ, List.filterMap_cons_some hlatest]
    refine ⟨?_, ?_⟩
    · rw [List.map_cons, hindex, hindices]
    · intro other hother
      obtain rfl | hother := List.mem_cons.mp hother
      · rw [hindex]
        exact hget
      · exact hstored other hother

/-- A read of an admitted range is the slice, cut by size. -/
theorem entries_eq {low high : Nat} (hlow : recorded.storage.truncated_index < low)
    (hle : low ≤ high) (hhigh : high ≤ recorded.storage.last_index + 1) (max_size : Nat) :
    recorded.storage.entries codec low high max_size =
      .ok (cut_by_size codec.entry.compute_size max_size 0
        ((List.range' low (high - low)).filterMap (latest recorded.readys))) := by
  obtain ⟨hindices, hstored⟩ := hrecorded.slice hlow
    (by omega : low + (high - low) ≤ recorded.storage.last_index + 1)
  have hsize := hrecorded.last_lt
  refine PeerStorage.entries_eq hindices hstored (fun _ => ⟨?_, by omega, ?_⟩) hlow hle hhigh
    max_size
  · exact hrecorded.keyed.onlyLogKeys (by omega)
  · intro entry hentry
    have hindex := List.mem_map_of_mem (f := Entry.index) hentry
    rw [hindices, List.mem_range'_1] at hindex
    exact codec.entry.compute_size_pos (by omega)

end

end Consistent

/-- The stored log is the logical log: it ends with the last entry of the latest
ready with entries, above the truncated index there is a key for each index up to
there and no other, the value under it is the entry of the latest ready that
contained it, and a read of an admitted range is the slice of it, cut by size. -/
structure RefinesLog (codec : RaftCodec) (recorded : RecordedStorage) : Prop where
  last_index : recorded.storage.last_index =
    ((last_entry recorded.readys).map Entry.index).getD RAFT_INIT_LOG_INDEX
  last_term : recorded.storage.last_term =
    ((last_entry recorded.readys).map Entry.term).getD RAFT_INIT_LOG_TERM
  log_keys : ∀ entry ∈ recorded.storage.raft.entries,
    keys.raft_log_key recorded.storage.region_id (recorded.storage.truncated_index + 1) ≤
        entry.1 →
      entry.1 < keys.raft_state_key recorded.storage.region_id →
      ∃ index, recorded.storage.truncated_index < index ∧
        index ≤ recorded.storage.last_index ∧
        entry.1 = keys.raft_log_key recorded.storage.region_id index
  values : ∀ index, recorded.storage.truncated_index < index →
    index ≤ recorded.storage.last_index →
    ∃ entry, latest recorded.readys index = some entry ∧ entry.index = index ∧
      recorded.storage.raft.get (keys.raft_log_key recorded.storage.region_id index) =
        some (codec.entry.write_to_bytes entry)
  reads : ∀ low high max_size, recorded.storage.truncated_index < low → low ≤ high →
    high ≤ recorded.storage.last_index + 1 →
    recorded.storage.entries codec low high max_size =
      .ok (cut_by_size codec.entry.compute_size max_size 0
        ((List.range' low (high - low)).filterMap (latest recorded.readys)))

theorem Consistent.refines (hrecorded : Consistent codec recorded) :
    RefinesLog codec recorded where
  last_index := hrecorded.last_index
  last_term := hrecorded.last_term
  log_keys := by
    intro entry hentry hlow hhigh
    have hsize := hrecorded.last_lt
    have hle := hrecorded.truncated_le
    have hzero : keys.raft_log_key recorded.storage.region_id 0 ≤ entry.1 := by
      refine le_trans ?_ hlow
      exact (keys.raft_log_key_le_iff _ (by decide) (by omega)).mpr (Nat.zero_le _)
    obtain ⟨index, hindex, hkey⟩ := hrecorded.keyed entry hentry hzero hhigh
    rw [hkey] at hlow
    have htruncated := (keys.raft_log_key_le_iff _ (by omega) hindex).mp hlow
    refine ⟨index, htruncated, ?_, hkey⟩
    by_contra hlast
    have hnone := hrecorded.absent index (not_le.mp hlast) hindex
    rw [← hkey] at hnone
    exact OrderedMap.get_eq_none_iff.mp hnone entry hentry rfl
  values := hrecorded.stored
  reads := fun _ _ max_size hlow hle hhigh => hrecorded.entries_eq hlow hle hhigh max_size

/-- In every run of readys, compactions and collections after the bootstrap of a
region the stored log is the logical log. -/
theorem stored_log_refines (codec : RaftCodec) (raft : RocksDB) (region_id : Nat)
    (hempty : ∀ entry ∈ raft.entries, keys.raft_log_key region_id 0 ≤ entry.1 →
      ¬entry.1 < keys.raft_state_key region_id)
    (actions : List Action) (last : RecordedStorage)
    (hrun : run (RecordedStorage.step codec) (RecordedStorage.bootstrap raft region_id) actions =
      some last) :
    RefinesLog codec last := by
  have hlast : Consistent codec last :=
    run_invariant (fun _ _ _ hrecorded hstep => hrecorded.step hstep)
      (Consistent.bootstrap hempty) hrun
  exact hlast.refines

/-- A state that is written as its three numbers and its last index. -/
def plainRaftState : PrefixCode RaftLocalState :=
  (PrefixCode.nat.pair (PrefixCode.nat.pair (PrefixCode.nat.pair PrefixCode.nat))).map
    (fun state => (state.hard_state.term, state.hard_state.vote, state.hard_state.commit,
      state.last_index))
    (fun parts => ⟨⟨parts.1, parts.2.1, parts.2.2.1⟩, parts.2.2.2⟩)
    (fun _ => rfl)

def plainRaftCodec : RaftCodec where
  entry := plainCodec
  raft_state :=
    { write_to_bytes := plainRaftState.write
      merge_from_bytes := plainRaftState.read
      merge_write := plainRaftState.read_write }

/-- Four entries, of which the last three are overwritten by one; the first is
compacted and collected. -/
def overwritten : List Action :=
  [.ready ⟨[⟨6, 6, none⟩, ⟨7, 6, none⟩, ⟨8, 6, none⟩, ⟨9, 6, none⟩], none⟩,
    .ready ⟨[⟨7, 7, none⟩], some ⟨7, 1, 6⟩⟩,
    .compact { write_initial_apply_state with applied_index := 7, truncated_state := ⟨6, 6⟩ },
    .gc 0 7]

theorem stored_log_refines_overwritten :
    ∃ last, run (RecordedStorage.step plainRaftCodec)
        (RecordedStorage.bootstrap OrderedMap.empty 1) overwritten = some last ∧
      last.storage.last_index = 7 ∧ last.storage.truncated_index = 6 ∧
      last.storage.entries plainRaftCodec 7 8 0 = .ok [⟨7, 7, none⟩] ∧
      RefinesLog plainRaftCodec last := by
  obtain ⟨last, hrun, hindex, htruncated, hlatest⟩ :
      ∃ last ∈ run (RecordedStorage.step plainRaftCodec)
        (RecordedStorage.bootstrap OrderedMap.empty 1) overwritten,
        last.storage.last_index = 7 ∧ last.storage.truncated_index = 6 ∧
        latest last.readys 7 = some ⟨7, 7, none⟩ := by
    decide +kernel
  have hrefines := stored_log_refines plainRaftCodec OrderedMap.empty 1
    (fun _ hentry => by cases hentry) overwritten last hrun
  refine ⟨last, hrun, hindex, htruncated, ?_, hrefines⟩
  rw [hrefines.reads 7 8 0 (by omega) (by omega) (by omega)]
  simp [hlatest, cut_by_size]

end RecordedStorage

end hologram_kv
