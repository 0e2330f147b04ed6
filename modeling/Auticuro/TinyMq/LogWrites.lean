import Auticuro.TinyMq.KeyCodec
import Auticuro.TinyMq.PeerStorage

namespace hologram_kv

/-- The last of the entries with an index. -/
def latest_entry (entries : List Entry) (index : Nat) : Option Entry :=
  entries.reverse.find? fun entry => entry.index = index

/-- The entry with an index from the latest ready that contained it. -/
def latest (readys : List Ready) (index : Nat) : Option Entry :=
  latest_entry (readys.flatMap Ready.entries) index

/-- The last entry of the latest ready that has entries. -/
def last_entry (readys : List Ready) : Option Entry :=
  readys.reverse.findSome? fun ready => ready.entries.getLast?

theorem last_entry_append (readys : List Ready) (ready : Ready) :
    last_entry (readys ++ [ready]) = ready.entries.getLast?.or (last_entry readys) := by
  unfold last_entry
  rw [List.reverse_append, List.findSome?_append]
  simp

theorem latest_entry_append (first second : List Entry) (index : Nat) :
    latest_entry (first ++ second) index =
      (latest_entry second index).or (latest_entry first index) := by
  unfold latest_entry
  rw [List.reverse_append, List.find?_append]

theorem latest_entry_cons (entry : Entry) (entries : List Entry) (index : Nat) :
    latest_entry (entry :: entries) index =
      (latest_entry entries index).or (if entry.index = index then some entry else none) := by
  rw [← List.singleton_append, latest_entry_append]
  congr 1
  by_cases hindex : entry.index = index
  · simp [latest_entry, hindex]
  · simp [latest_entry, hindex]

theorem latest_append (readys : List Ready) (ready : Ready) (index : Nat) :
    latest (readys ++ [ready]) index =
      (latest_entry ready.entries index).or (latest readys index) := by
  unfold latest
  rw [List.flatMap_append, latest_entry_append]
  simp

variable {entries : List Entry}

theorem index_of_latest_entry {index : Nat} {entry : Entry}
    (hentry : latest_entry entries index = some entry) : entry.index = index := by
  simpa using List.find?_some hentry

theorem latest_entry_of_getLast? {last : Entry} (hlast : entries.getLast? = some last) :
    latest_entry entries last.index = some last := by
  unfold latest_entry
  rw [← List.head?_reverse] at hlast
  obtain ⟨rest, hrest⟩ := List.head?_eq_some_iff.mp hlast
  rw [hrest]
  exact List.find?_cons_of_pos (decide_eq_true rfl)

theorem mem_of_latest_entry {index : Nat} {entry : Entry}
    (hentry : latest_entry entries index = some entry) : entry ∈ entries :=
  List.mem_reverse.mp (List.mem_of_find?_eq_some hentry)

/-- Consecutive entries have one for each index of their range. -/
theorem latest_entry_range {first : Nat}
    (hentries : entries.map Entry.index = List.range' first entries.length) (index : Nat) :
    (latest_entry entries index).isSome ↔ first ≤ index ∧ index < first + entries.length := by
  rw [← List.mem_range'_1, ← hentries]
  unfold latest_entry
  rw [List.find?_isSome]
  simp [List.mem_map]

/-- The last index once the entries of a ready are appended. -/
def Ready.last_index (ready : Ready) (last_index : Nat) : Nat :=
  (ready.entries.getLast?.map Entry.index).getD last_index

/-- The entries of a ready are consecutive, stand above a floor and extend a log
or overwrite a suffix of it. The index behind them is a machine number. -/
def Ready.Appends (ready : Ready) (floor last_index : Nat) : Prop :=
  ∀ first ∈ ready.entries.head?,
    ready.entries.map Entry.index = List.range' first.index ready.entries.length ∧
      floor < first.index ∧ first.index ≤ last_index + 1 ∧
      first.index + ready.entries.length < U64.size

instance Ready.Appends.decidable (ready : Ready) (floor last_index : Nat) :
    Decidable (ready.Appends floor last_index) :=
  inferInstanceAs (Decidable (∀ first ∈ _, _))

namespace Ready.Appends

variable {ready : Ready} {floor last_index : Nat}

section

variable (happends : ready.Appends floor last_index)
include happends

/-- Without entries nothing happens; else the entries reach from the first index
to the last. -/
theorem cases :
    (ready.entries = [] ∧ ready.last_index last_index = last_index) ∨
      ∃ first, ready.entries.map Entry.index = List.range' first ready.entries.length ∧
        floor < first ∧ first ≤ last_index + 1 ∧ first ≤ ready.last_index last_index ∧
        ready.last_index last_index + 1 = first + ready.entries.length ∧
        ready.last_index last_index + 1 < U64.size := by
  cases hhead : ready.entries.head? with
  | none =>
    have hempty := List.head?_eq_none_iff.mp hhead
    refine .inl ⟨hempty, ?_⟩
    unfold Ready.last_index
    rw [hempty]
    rfl
  | some first =>
    obtain ⟨hindices, hfloor, hnext, hsize⟩ := happends first hhead
    have hlength : 0 < ready.entries.length := by
      rw [List.length_pos_iff_exists_mem]
      exact ⟨first, List.mem_of_head? hhead⟩
    have hend : ready.last_index last_index + 1 = first.index + ready.entries.length := by
      have hmap := congrArg List.getLast? hindices
      rw [List.getLast?_map, List.getLast?_range', if_neg (by omega)] at hmap
      unfold Ready.last_index
      rw [hmap, Option.getD_some]
      omega
    exact .inr ⟨first.index, hindices, hfloor, hnext, by omega, hend, by omega⟩

theorem index_lt : ∀ entry ∈ ready.entries, floor < entry.index ∧ entry.index < U64.size := by
  intro entry hentry
  obtain ⟨hempty, -⟩ | ⟨first, hindices, hfloor, -, -, hend, hsize⟩ := happends.cases
  · rw [hempty] at hentry
    cases hentry
  · have hmem := List.mem_map_of_mem (f := Entry.index) hentry
    rw [hindices, List.mem_range'_1] at hmem
    omega

theorem floor_le_last_index (hfloor : floor ≤ last_index) :
    floor ≤ ready.last_index last_index := by
  obtain ⟨-, hsame⟩ | ⟨first, -, hless, -, hfirst, -, -⟩ := happends.cases
  · rw [hsame]
    exact hfloor
  · exact hless.le.trans hfirst

theorem last_index_lt (hlast : last_index + 1 < U64.size) :
    ready.last_index last_index + 1 < U64.size := by
  obtain ⟨-, hsame⟩ | ⟨first, -, -, -, -, -, hsize⟩ := happends.cases
  · rw [hsame]
    exact hlast
  · exact hsize

/-- Below the floor and behind the last index there is no entry of the ready. -/
theorem latest_entry_eq_none {index : Nat}
    (hindex : index ≤ floor ∨ ready.last_index last_index < index) :
    latest_entry ready.entries index = none := by
  obtain ⟨hempty, -⟩ | ⟨first, hindices, hfloor, -, -, hend, -⟩ := happends.cases
  · rw [hempty]
    rfl
  · rw [← Option.not_isSome_iff_eq_none, latest_entry_range hindices]
    omega

/-- What the entries of a ready leave of the log was in it before. -/
theorem le_of_latest_entry_eq_none {index : Nat} (hindex : index ≤ ready.last_index last_index)
    (hnone : latest_entry ready.entries index = none) : index ≤ last_index := by
  obtain ⟨-, hsame⟩ | ⟨first, hindices, -, hnext, -, hend, -⟩ := happends.cases
  · rwa [hsame] at hindex
  · rw [← Option.not_isSome_iff_eq_none, latest_entry_range hindices] at hnone
    omega

end

end Ready.Appends

namespace RocksDB

variable {codec : EntryCodec} {region_id : Nat}

theorem write_opt_append (db : RocksDB) (first second : RocksWriteBatch) :
    db.write_opt (first ++ second) = (db.write_opt first).write_opt second :=
  List.foldl_append

theorem get_write_op (db : RocksDB) {op : WriteOp} {query : Bytes} (hne : query ≠ op.key) :
    (db.write_op op).get query = db.get query := by
  cases op with
  | put key value => exact (OrderedMap.get_insert db key value query).trans (if_neg hne)
  | delete key => exact (OrderedMap.get_remove db key query).trans (if_neg hne)

variable {wb : RocksWriteBatch}

/-- A batch leaves the keys alone that it does not name. -/
theorem get_write_opt (db : RocksDB) {query : Bytes} (hwb : ∀ op ∈ wb, query ≠ op.key) :
    (db.write_opt wb).get query = db.get query := by
  induction wb generalizing db with
  | nil => rfl
  | cons op wb ih =>
    refine (ih (db.write_op op) fun op hop => hwb op (List.mem_cons_of_mem _ hop)).trans ?_
    exact db.get_write_op (hwb op List.mem_cons_self)

/-- Appended entries are found under their indices. -/
theorem get_append_impl (db : RocksDB) (hsize : ∀ entry ∈ entries, entry.index < U64.size)
    {index : Nat} (hindex : index < U64.size) :
    (db.write_opt (RocksWriteBatch.append_impl codec [] region_id entries)).get
        (keys.raft_log_key region_id index) =
      ((latest_entry entries index).map codec.write_to_bytes).or
        (db.get (keys.raft_log_key region_id index)) := by
  induction entries generalizing db with
  | nil => rfl
  | cons entry entries ih =>
    have htail := ih (db.insert (keys.raft_log_key region_id entry.index)
      (codec.write_to_bytes entry)) fun other hother => hsize other (List.mem_cons_of_mem _ hother)
    have hkey : keys.raft_log_key region_id index = keys.raft_log_key region_id entry.index ↔
        entry.index = index := by
      constructor
      · intro heq
        exact (keys.raft_log_key_inj region_id hindex (hsize entry List.mem_cons_self) heq).symm
      · rintro rfl
        rfl
    rw [latest_entry_cons]
    change (RocksDB.write_opt _ _).get _ = _ at htail ⊢
    refine htail.trans ?_
    rw [OrderedMap.get_insert]
    simp only [hkey]
    cases latest_entry entries index with
    | some found => rfl
    | none =>
      by_cases hentry : entry.index = index
      · simp [hentry]
      · simp [hentry]

/-- Deleted indices are gone. -/
theorem get_cut_logs (db : RocksDB) {from_index to_index index : Nat}
    (hto : to_index ≤ U64.size) (hindex : index < U64.size) :
    (db.write_opt (RocksWriteBatch.cut_logs [] region_id from_index to_index)).get
        (keys.raft_log_key region_id index) =
      if from_index ≤ index ∧ index < to_index then none
      else db.get (keys.raft_log_key region_id index) := by
  have hloop : ∀ count start (db : RocksDB), start + count ≤ U64.size →
      (db.write_opt ((List.range' start count).map fun index =>
        WriteOp.delete (keys.raft_log_key region_id index))).get
          (keys.raft_log_key region_id index) =
        if start ≤ index ∧ index < start + count then none
        else db.get (keys.raft_log_key region_id index) := by
    intro count
    induction count with
    | zero =>
      intro start db _
      rw [if_neg (by omega)]
      rfl
    | succ count ih =>
      intro start db hle
      have htail := ih (start + 1) (db.remove (keys.raft_log_key region_id start)) (by omega)
      have hkey : keys.raft_log_key region_id index = keys.raft_log_key region_id start ↔
          index = start := by
        constructor
        · exact keys.raft_log_key_inj region_id hindex (by omega)
        · rintro rfl
          rfl
      rw [List.range'_succ]
      refine htail.trans ?_
      rw [OrderedMap.get_remove]
      simp only [hkey]
      by_cases hstart : index = start
      · rw [if_neg (by omega), if_pos hstart, if_pos (by omega)]
      · by_cases hrange : start + 1 ≤ index ∧ index < start + 1 + count
        · rw [if_pos hrange, if_pos (by omega)]
        · rw [if_neg hrange, if_neg hstart, if_neg (by omega)]
  have hrun := hloop (to_index - from_index) from_index db
  by_cases hle : from_index ≤ to_index
  · refine (hrun (by omega)).trans ?_
    have hend : from_index + (to_index - from_index) = to_index := by omega
    rw [hend]
  · have hempty : to_index - from_index = 0 := by omega
    unfold RocksWriteBatch.cut_logs
    rw [hempty, if_neg (by omega)]
    rfl

/-- After a batch of deletions its keys are gone. -/
theorem get_write_opt_deletes (db : RocksDB) (hwb : ∀ op ∈ wb, ∃ key, op = .delete key)
    (query : Bytes) :
    (db.write_opt wb).get query =
      if WriteOp.delete query ∈ wb then none else db.get query := by
  induction wb generalizing db with
  | nil => rfl
  | cons op wb ih =>
    obtain ⟨key, rfl⟩ := hwb op List.mem_cons_self
    refine (ih (db.remove key) fun op hop => hwb op (List.mem_cons_of_mem _ hop)).trans ?_
    rw [OrderedMap.get_remove]
    simp only [List.mem_cons, WriteOp.delete.injEq]
    by_cases hkey : query = key
    · simp [hkey]
    · simp [hkey]

/-- What is found under a key stands in the batch or was there before. -/
theorem mem_write_opt {db : RocksDB} {entry : Bytes × Bytes}
    (hentry : entry ∈ (db.write_opt wb).entries) :
    entry ∈ db.entries ∨ WriteOp.put entry.1 entry.2 ∈ wb := by
  induction wb generalizing db with
  | nil => exact .inl hentry
  | cons op wb ih =>
    obtain hbefore | hput := ih hentry
    · cases op with
      | put key value =>
        obtain rfl | ⟨hold, -⟩ := OrderedMap.mem_insert_iff.mp hbefore
        · exact .inr List.mem_cons_self
        · exact .inl hold
      | delete key => exact .inl (OrderedMap.mem_remove.mp hbefore).1
    · exact .inr (List.mem_cons_of_mem _ hput)

/-- A store writes only keys of a store. -/
theorem storeKeys_write_opt {db : RocksDB} (hdb : keys.StoreKeys db)
    (hwb : ∀ op ∈ wb, ∃ key : keys.StoreKey, key.Valid ∧ op.key = key.encode) :
    keys.StoreKeys (db.write_opt wb) := by
  intro entry hentry
  obtain hbefore | hput := mem_write_opt hentry
  · exact hdb entry hbefore
  · exact hwb _ hput

/-- An entry as it stands in the database. -/
def log_pair (codec : EntryCodec) (region_id : Nat) (entry : Entry) : Bytes × Bytes :=
  (keys.raft_log_key region_id entry.index, codec.write_to_bytes entry)

end RocksDB

namespace PeerStorage

variable (codec : RaftCodec) (self : PeerStorage) (ready : Ready)

/-- The state is written if it changed. -/
def state_batch (raft_state : RaftLocalState) : RocksWriteBatch :=
  if raft_state ≠ self.raft_state then
    [.put (keys.raft_state_key self.region_id) (codec.raft_state.write_to_bytes raft_state)]
  else
    []

theorem key_of_mem_state_batch {raft_state : RaftLocalState} {op : WriteOp}
    (hop : op ∈ self.state_batch codec raft_state) :
    op.key = keys.raft_state_key self.region_id := by
  unfold state_batch at hop
  split at hop
  · rw [List.mem_singleton.mp hop]
    rfl
  · cases hop

/-- The entries of a ready are written, and what was behind them is deleted. -/
theorem append_eq :
    let appended := self.append codec (InvokeContext.new self) ready.entries []
    appended.1.raft_state =
        { self.raft_state with last_index := ready.last_index self.last_index } ∧
      appended.1.apply_state = self.apply_state ∧
      appended.2 = RocksWriteBatch.append_impl codec.entry [] self.region_id ready.entries ++
        RocksWriteBatch.cut_logs [] self.region_id (ready.last_index self.last_index + 1)
          (self.last_index + 1) := by
  unfold append Ready.last_index
  cases hlast : ready.entries.getLast? with
  | none =>
    rw [List.getLast?_eq_none_iff.mp hlast]
    refine ⟨rfl, rfl, ?_⟩
    simp [RocksWriteBatch.append_impl, RocksWriteBatch.cut_logs]
  | some last => exact ⟨rfl, rfl, rfl⟩

theorem on_ready_eq :
    (self.on_ready codec ready).last_index = ready.last_index self.last_index ∧
      (self.on_ready codec ready).apply_state = self.apply_state ∧
      (0 < ready.last_index self.last_index →
        (self.on_ready codec ready).hard_state = ready.hs.getD self.hard_state) ∧
      (self.on_ready codec ready).raft =
        ((self.raft.write_opt (RocksWriteBatch.append_impl codec.entry [] self.region_id
          ready.entries)).write_opt (RocksWriteBatch.cut_logs [] self.region_id
            (ready.last_index self.last_index + 1) (self.last_index + 1))).write_opt
          (self.state_batch codec (self.on_ready codec ready).raft_state) := by
  obtain ⟨hstate, happly, hwb⟩ := self.append_eq codec ready
  obtain ⟨hlast, hsame, hhard⟩ := (self.append codec (InvokeContext.new self) ready.entries
    []).1.set_hard_state_eq ready.hs
  rw [hstate] at hlast hhard
  rw [happly] at hsame
  unfold on_ready handle_raft_ready post_ready
  simp only [hwb]
  unfold state_batch
  split
  · refine ⟨hlast, hsame, hhard, ?_⟩
    rw [InvokeContext.save_raft_state_to, RocksDB.write_opt_append, RocksDB.write_opt_append]
  · refine ⟨hlast, hsame, hhard, ?_⟩
    rw [RocksDB.write_opt_append]
    rfl

/-- The last term is that of the last entry. -/
theorem last_term_on_ready :
    (self.on_ready codec ready).last_term =
      (ready.entries.getLast?.map Entry.term).getD self.last_term := by
  have hhard : ∀ ctx : InvokeContext, (ctx.set_hard_state ready.hs).last_term = ctx.last_term := by
    intro ctx
    unfold InvokeContext.set_hard_state
    split
    · split <;> rfl
    · rfl
  have hready : (self.on_ready codec ready).last_term =
      (self.append codec (InvokeContext.new self) ready.entries []).1.last_term := by
    unfold on_ready handle_raft_ready post_ready
    simp only
    split
    · exact hhard _
    · exact hhard _
  rw [hready, append]
  cases ready.entries.getLast? with
  | none | some last => rfl

/-- A ready with an empty batch has no entries and leaves the memory as it is. -/
theorem on_ready_of_empty (hempty : (self.handle_raft_ready codec [] ready).2 = []) :
    ready.entries = [] ∧ self.on_ready codec ready = self := by
  obtain ⟨-, -, hwb⟩ := self.append_eq codec ready
  have hbatch := hempty
  unfold handle_raft_ready at hbatch
  simp only at hbatch
  split at hbatch
  · exact absurd hbatch (List.append_ne_nil_of_right_ne_nil _ (List.cons_ne_nil _ _))
  · next hsame =>
    rw [hwb] at hbatch
    have hentries : ready.entries = [] :=
      List.map_eq_nil_iff.mp (List.append_eq_nil_iff.mp hbatch).1
    have hterm := self.last_term_on_ready codec ready
    obtain ⟨-, happly, -, -⟩ := self.on_ready_eq codec ready
    have hstate : (self.on_ready codec ready).raft_state = self.raft_state := by
      unfold on_ready handle_raft_ready
      simp only [if_neg hsame]
      exact not_not.mp hsame
    have hraft : (self.on_ready codec ready).raft = self.raft := by
      change self.raft.write_opt (self.handle_raft_ready codec [] ready).2 = self.raft
      rw [hempty]
      rfl
    rw [hentries] at hterm
    refine ⟨hentries, ?_⟩
    calc self.on_ready codec ready
        = { self with
            raft := (self.on_ready codec ready).raft
            raft_state := (self.on_ready codec ready).raft_state
            apply_state := (self.on_ready codec ready).apply_state
            last_term := (self.on_ready codec ready).last_term } := rfl
      _ = self := by
        rw [hraft, hstate, happly, hterm]
        rfl

/-- The state in the database is the one in memory, or neither has changed. -/
theorem get_state_on_ready :
    (self.on_ready codec ready).raft.get (keys.raft_state_key self.region_id) =
      if (self.on_ready codec ready).raft_state ≠ self.raft_state then
        some (codec.raft_state.write_to_bytes (self.on_ready codec ready).raft_state)
      else
        self.raft.get (keys.raft_state_key self.region_id) := by
  obtain ⟨-, -, -, hraft⟩ := self.on_ready_eq codec ready
  have hlog : (((self.raft.write_opt (RocksWriteBatch.append_impl codec.entry [] self.region_id
      ready.entries)).write_opt (RocksWriteBatch.cut_logs [] self.region_id
        (ready.last_index self.last_index + 1) (self.last_index + 1))).get
          (keys.raft_state_key self.region_id)) =
      self.raft.get (keys.raft_state_key self.region_id) := by
    rw [RocksDB.get_write_opt, RocksDB.get_write_opt]
    · intro op hop
      obtain ⟨entry, -, rfl⟩ := List.mem_map.mp hop
      exact (keys.raft_log_key_lt_raft_state_key self.region_id entry.index).ne'
    · intro op hop
      obtain ⟨index, -, rfl⟩ := List.mem_map.mp hop
      exact (keys.raft_log_key_lt_raft_state_key self.region_id index).ne'
  rw [hraft]
  unfold state_batch
  split
  · change (OrderedMap.insert _ _ _).get _ = _
    rw [OrderedMap.get_insert, if_pos rfl]
  · exact hlog

variable {self ready}

/-- The log after a ready: its entries, nothing up to the old end, and else what
was there. -/
theorem get_log_on_ready {floor index : Nat} (happends : ready.Appends floor self.last_index)
    (hlast : self.last_index + 1 < U64.size) (hindex : index < U64.size) :
    (self.on_ready codec ready).raft.get (keys.raft_log_key self.region_id index) =
      if ready.last_index self.last_index + 1 ≤ index ∧ index < self.last_index + 1 then none
      else ((latest_entry ready.entries index).map codec.entry.write_to_bytes).or
        (self.raft.get (keys.raft_log_key self.region_id index)) := by
  obtain ⟨-, -, -, hraft⟩ := self.on_ready_eq codec ready
  rw [hraft, RocksDB.get_write_opt, RocksDB.get_cut_logs _ hlast.le hindex,
    RocksDB.get_append_impl _ (fun entry hentry => (happends.index_lt entry hentry).2) hindex]
  intro op hop
  rw [self.key_of_mem_state_batch codec hop]
  exact (keys.raft_log_key_lt_raft_state_key self.region_id index).ne

section OnReady

variable {floor index : Nat} (happends : ready.Appends floor self.last_index)
  (hlast : self.last_index + 1 < U64.size)
include happends hlast

/-- Up to the last index: the entries of the ready, and else what was there. -/
theorem get_log_on_ready_of_le (hindex : index ≤ ready.last_index self.last_index) :
    (self.on_ready codec ready).raft.get (keys.raft_log_key self.region_id index) =
      ((latest_entry ready.entries index).map codec.entry.write_to_bytes).or
        (self.raft.get (keys.raft_log_key self.region_id index)) := by
  have hsize := happends.last_index_lt hlast
  rw [get_log_on_ready codec happends hlast (by omega), if_neg (by omega)]

/-- Behind the last index there is nothing, if there was nothing behind the old one. -/
theorem get_log_on_ready_eq_none (hbehind : ready.last_index self.last_index < index)
    (hindex : index < U64.size)
    (habsent : self.last_index < index →
      self.raft.get (keys.raft_log_key self.region_id index) = none) :
    (self.on_ready codec ready).raft.get (keys.raft_log_key self.region_id index) = none := by
  rw [get_log_on_ready codec happends hlast hindex]
  split
  · rfl
  · rw [happends.latest_entry_eq_none (.inr hbehind)]
    exact habsent (by omega)

end OnReady

theorem check_range_eq_ok {low high : Nat} (htruncated : self.truncated_index < low)
    (hle : low ≤ high) (hlast : high ≤ self.last_index + 1) :
    self.check_range low high = .ok () := by
  unfold check_range
  rw [if_neg (by omega), if_neg (by omega), if_neg (by omega)]

end PeerStorage

end hologram_kv
