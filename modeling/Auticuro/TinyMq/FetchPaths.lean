import Auticuro.TinyMq.LogWrites

namespace hologram_kv

/-- Entries from the front, at least one, that reach a size with the last of them
or are all there are. -/
structure ShortestReaching (size : Entry → Nat) (limit : Nat) (entries taken : List Entry) :
    Prop where
  begins : taken <+: entries
  ne_nil : taken ≠ []
  reaches : taken = entries ∨ limit ≤ (taken.map size).sum
  shortest : ∀ shorter, shorter <+: taken → shorter ≠ [] → shorter ≠ taken →
    (shorter.map size).sum < limit

theorem ShortestReaching.unique {size : Entry → Nat} {limit : Nat} {entries left right : List Entry}
    (hleft : ShortestReaching size limit entries left)
    (hright : ShortestReaching size limit entries right) : left = right := by
  -- of two such parts the shorter one reaches the limit, or is everything
  have hshorter : ∀ {left right : List Entry}, ShortestReaching size limit entries left →
      ShortestReaching size limit entries right → left <+: right → left = right := by
    intro left right hleft hright hbegins
    by_contra hne
    have hless := hright.shortest left hbegins hleft.ne_nil hne
    obtain hall | hreaches := hleft.reaches
    · rw [hall] at hbegins hne
      exact hne (hbegins.eq_of_length (Nat.le_antisymm hbegins.length_le hright.begins.length_le))
    · exact absurd hreaches (not_le.mpr hless)
  obtain hbegins | hbegins := List.prefix_or_prefix_of_prefix hleft.begins hright.begins
  · exact hshorter hleft hright hbegins
  · exact (hshorter hright hleft hbegins).symm

section CutBySize

variable {size : Entry → Nat} {max_size total_size : Nat} {entries : List Entry}

theorem cut_by_size_begins (size : Entry → Nat) (max_size total_size : Nat)
    (entries : List Entry) : cut_by_size size max_size total_size entries <+: entries := by
  induction entries generalizing total_size with
  | nil => exact List.nil_prefix
  | cons entry entries ih =>
    rw [cut_by_size]
    split
    · exact List.nil_prefix
    · exact List.cons_prefix_cons.mpr ⟨rfl, ih _⟩

/-- The cut falls where the size is reached. -/
theorem cut_by_size_reaches (size : Entry → Nat) (max_size total_size : Nat)
    (entries : List Entry) :
    cut_by_size size max_size total_size entries = entries ∨
      max_size ≤ total_size + ((cut_by_size size max_size total_size entries).map size).sum := by
  induction entries generalizing total_size with
  | nil => exact .inl rfl
  | cons entry entries ih =>
    rw [cut_by_size]
    split
    · rename_i hfull
      exact .inr (Nat.le_add_right_of_le hfull.2)
    · rw [List.map_cons, List.sum_cons, ← Nat.add_assoc, List.cons.injEq]
      obtain hall | hsize := ih (total_size + size entry)
      · exact .inl ⟨rfl, hall⟩
      · exact .inr hsize

/-- Before the last entry that is taken the size is not reached. -/
theorem cut_by_size_shortest (hsize : ∀ entry ∈ entries, 0 < size entry) {shorter : List Entry}
    (hbegins : shorter <+: cut_by_size size max_size total_size entries)
    (hne : shorter ≠ cut_by_size size max_size total_size entries)
    (hpos : 0 < total_size + (shorter.map size).sum) :
    total_size + (shorter.map size).sum < max_size := by
  induction entries generalizing total_size shorter with
  | nil => exact absurd (List.prefix_nil.mp hbegins) hne
  | cons entry entries ih =>
    rw [cut_by_size] at hbegins hne
    split at hbegins
    · rename_i hfull
      rw [if_pos hfull] at hne
      exact absurd (List.prefix_nil.mp hbegins) hne
    · rename_i hmore
      rw [if_neg hmore] at hne
      cases shorter with
      | nil =>
        rw [List.map_nil, List.sum_nil, Nat.add_zero] at hpos ⊢
        omega
      | cons first shorter =>
        obtain ⟨rfl, hrest⟩ := List.cons_prefix_cons.mp hbegins
        rw [List.map_cons, List.sum_cons, ← Nat.add_assoc] at hpos ⊢
        refine ih (fun other hother => hsize other (List.mem_cons_of_mem _ hother)) hrest ?_ hpos
        intro heq
        exact hne (by rw [heq])

theorem cut_by_size_shortestReaching (hne : entries ≠ [])
    (hsize : ∀ entry ∈ entries, 0 < size entry) :
    ShortestReaching size max_size entries (cut_by_size size max_size 0 entries) where
  begins := cut_by_size_begins size max_size 0 entries
  ne_nil := by
    cases entries with
    | nil => exact absurd rfl hne
    | cons entry entries => simp [cut_by_size]
  reaches := by
    have hreaches := cut_by_size_reaches size max_size 0 entries
    rwa [Nat.zero_add] at hreaches
  shortest := by
    intro shorter hbegins hshorter hproper
    have hpos : 0 < (shorter.map size).sum := by
      cases shorter with
      | nil => exact absurd rfl hshorter
      | cons first shorter =>
        have hmem : first ∈ entries :=
          (cut_by_size_begins size max_size 0 entries).subset (hbegins.subset List.mem_cons_self)
        rw [List.map_cons, List.sum_cons]
        exact Nat.add_pos_left (hsize first hmem) _
    have hless := cut_by_size_shortest hsize hbegins hproper (by rwa [Nat.zero_add])
    rwa [Nat.zero_add] at hless

end CutBySize

/-- The variables once more entries are pushed. -/
def Fetch.push (size : Entry → Nat) (fetch : Fetch) (entries : List Entry) : Fetch where
  buf := fetch.buf ++ entries
  total_size := fetch.total_size + (entries.map size).sum
  count := fetch.count + entries.length

theorem Fetch.push_nil (size : Entry → Nat) (fetch : Fetch) : fetch.push size [] = fetch := by
  simp [push]

theorem Fetch.push_cons (size : Entry → Nat) (fetch : Fetch) (entry : Entry)
    (entries : List Entry) :
    fetch.push size (entry :: entries) =
      push size ⟨fetch.buf ++ [entry], fetch.total_size + size entry, fetch.count + 1⟩ entries := by
  unfold push
  rw [List.map_cons, List.sum_cons, List.length_cons, List.append_assoc, List.singleton_append]
  congr 1
  · exact (Nat.add_assoc _ _ _).symm
  · change fetch.count + (entries.length + 1) = fetch.count + 1 + entries.length
    omega

section Paths

variable {codec : EntryCodec} {region_id : Nat} {db : RocksDB} {entries : List Entry}

/-- The point lookups push the entries that are stored, cut by size. -/
theorem multi_get_loop_eq {index : Nat} (max_size : Nat) (fetch : Fetch)
    (hentries : entries.map Entry.index = List.range' index entries.length)
    (hstored : ∀ entry ∈ entries,
      db.get (keys.raft_log_key region_id entry.index) = some (codec.write_to_bytes entry)) :
    db.multi_get_loop codec region_id max_size entries.length index fetch =
      .ok (fetch.push codec.compute_size
        (cut_by_size codec.compute_size max_size fetch.total_size entries)) := by
  induction entries generalizing index fetch with
  | nil =>
    rw [cut_by_size, Fetch.push_nil]
    rfl
  | cons entry entries ih =>
    rw [List.map_cons, List.length_cons, List.range'_succ, List.cons.injEq] at hentries
    obtain ⟨hindex, hrest⟩ := hentries
    have hget := hstored entry List.mem_cons_self
    rw [hindex] at hget
    rw [List.length_cons, RocksDB.multi_get_loop, cut_by_size]
    split
    · rw [Fetch.push_nil]
    · simp only [hget, codec.merge_write, unwrap, Exec.ok_bind, hindex, if_true]
      rw [Fetch.push_cons]
      exact ih _ hrest fun other hother => hstored other (List.mem_cons_of_mem _ hother)

theorem scan_impl_cons {S : Type} {f : S → Bytes → Bytes → Except Panic (S × Bool)}
    {state next : S} {remained : Bool} {p : Bytes × Bytes}
    (hcall : f state p.1 p.2 = .ok (next, remained)) (pairs : List (Bytes × Bytes)) :
    RocksDB.scan_impl f state (p :: pairs) =
      if remained then RocksDB.scan_impl f next pairs else .ok next := by
  rw [RocksDB.scan_impl, hcall]
  rfl

/-- The callback takes the next entry. -/
theorem fetch_callback_eq (max_size : Nat) {low : Nat} {fetch : ScanFetch} {value : Bytes}
    {entry : Entry}
    (hread : codec.merge_from_bytes value = some entry)
    (hfirst : fetch.check_compacted = true → fetch.next_index = low)
    (hindex : entry.index = fetch.next_index) (key : Bytes) :
    RocksDB.fetch_callback codec low max_size fetch key value = .ok ({
      check_compacted := false
      next_index := fetch.next_index + 1
      buf := fetch.buf ++ [entry]
      total_size := fetch.total_size + value.length
      count := fetch.count + 1 }, decide (fetch.total_size + value.length < max_size)) := by
  have hlow : ¬(fetch.check_compacted = true ∧ entry.index ≠ low) := by
    rintro ⟨hcheck, hne⟩
    exact hne (hindex.trans (hfirst hcheck))
  have hnext : ¬(¬fetch.check_compacted = true ∧ entry.index ≠ fetch.next_index) := by
    rintro ⟨-, hne⟩
    exact hne hindex
  unfold RocksDB.fetch_callback
  rw [hread, unwrap, Exec.ok_bind, if_neg hlow, if_neg hnext]
  rfl

/-- The scan pushes the entries whose pairs it meets, cut by size. -/
theorem scan_impl_fetch_eq (region_id low max_size : Nat) (fetch : ScanFetch)
    (hentries : entries.map Entry.index = List.range' fetch.next_index entries.length)
    (hsize : ∀ entry ∈ entries, 0 < codec.compute_size entry)
    (hfirst : fetch.check_compacted = true → fetch.next_index = low)
    (hmore : fetch.total_size = 0 ∨ fetch.total_size < max_size) :
    ∃ after : ScanFetch, RocksDB.scan_impl (RocksDB.fetch_callback codec low max_size) fetch
        (entries.map (RocksDB.log_pair codec region_id)) = .ok after ∧
      after.toFetch = fetch.toFetch.push codec.compute_size
        (cut_by_size codec.compute_size max_size fetch.total_size entries) := by
  induction entries generalizing fetch with
  | nil =>
    refine ⟨fetch, rfl, ?_⟩
    rw [cut_by_size, Fetch.push_nil]
  | cons entry entries ih =>
    rw [List.map_cons, List.length_cons, List.range'_succ, List.cons.injEq] at hentries
    obtain ⟨hindex, hrest⟩ := hentries
    have hpos := hsize entry List.mem_cons_self
    have hcall := fetch_callback_eq max_size (codec.merge_write entry) hfirst hindex
      (keys.raft_log_key region_id entry.index)
    have htake : ¬(0 < fetch.total_size ∧ max_size ≤ fetch.total_size) := by omega
    have hscan := scan_impl_cons (p := RocksDB.log_pair codec region_id entry) hcall
      (entries.map (RocksDB.log_pair codec region_id))
    rw [cut_by_size, if_neg htake, Fetch.push_cons, List.map_cons, hscan]
    by_cases hless : fetch.total_size + (codec.write_to_bytes entry).length < max_size
    · rw [if_pos (decide_eq_true hless)]
      exact ih _ hrest (fun other hother => hsize other (List.mem_cons_of_mem _ hother))
        (fun hcheck => by cases hcheck) (.inr hless)
    · rw [if_neg (by simpa using hless)]
      refine ⟨_, rfl, ?_⟩
      -- the next entry, if there is one, is not looked at
      have hstop : cut_by_size codec.compute_size max_size
          (fetch.total_size + codec.compute_size entry) entries = [] := by
        cases entries with
        | nil => rfl
        | cons next entries => rw [cut_by_size, if_pos ⟨by omega, not_lt.mp hless⟩]
      rw [hstop, Fetch.push_nil]
      rfl

/-- Between two log keys with all their entries the scan meets the entries. -/
theorem iterator_opt_eq_log_pairs {low high : Nat} (hdb : keys.OnlyLogKeys db region_id low high)
    (hlow : low < U64.size) (hhigh : high < U64.size)
    (hentries : entries.map Entry.index = List.range' low (high - low))
    (hstored : ∀ entry ∈ entries,
      db.get (keys.raft_log_key region_id entry.index) = some (codec.write_to_bytes entry)) :
    db.iterator_opt (keys.raft_log_key region_id low) (keys.raft_log_key region_id high) =
      entries.map (RocksDB.log_pair codec region_id) := by
  rw [keys.iterator_opt_raft_log hdb hlow hhigh, ← hentries, List.filterMap_map]
  have hpairs : ∀ entry ∈ entries,
      (db.get (keys.raft_log_key region_id entry.index)).map (fun value =>
        (keys.raft_log_key region_id entry.index, value)) =
          some (RocksDB.log_pair codec region_id entry) := by
    intro entry hentry
    rw [hstored entry hentry]
    rfl
  refine (List.filterMap_congr hpairs).trans ?_
  exact congrFun (List.filterMap_eq_map (f := RocksDB.log_pair codec region_id)) entries

section Range

variable {low high : Nat} (hentries : entries.map Entry.index = List.range' low (high - low))
  (hstored : ∀ entry ∈ entries,
    db.get (keys.raft_log_key region_id entry.index) = some (codec.write_to_bytes entry))
include hentries

theorem length_eq_of_range : entries.length = high - low := by
  have hcount := congrArg List.length hentries
  rwa [List.length_map, List.length_range'] at hcount

include hstored

theorem fetch_by_multi_get_eq (max_size : Nat) (buf : List Entry) :
    db.fetch_by_multi_get codec region_id low high max_size buf =
      .ok (buf ++ cut_by_size codec.compute_size max_size 0 entries,
        (cut_by_size codec.compute_size max_size 0 entries).length) := by
  have hlength := length_eq_of_range hentries
  rw [← hlength] at hentries
  unfold RocksDB.fetch_by_multi_get
  rw [← hlength, multi_get_loop_eq max_size { buf := buf } hentries hstored, Exec.ok_bind]
  exact congrArg (fun count => Except.ok (buf ++ _, count)) (Nat.zero_add _)

theorem fetch_by_scan_eq (hdb : keys.OnlyLogKeys db region_id low high) (hlow : low < U64.size)
    (hhigh : high < U64.size) (hsize : ∀ entry ∈ entries, 0 < codec.compute_size entry)
    (max_size : Nat) (buf : List Entry) :
    db.fetch_by_scan codec region_id low high max_size buf =
      .ok (buf ++ cut_by_size codec.compute_size max_size 0 entries,
        (cut_by_size codec.compute_size max_size 0 entries).length) := by
  have hlength := length_eq_of_range hentries
  unfold RocksDB.fetch_by_scan
  rw [iterator_opt_eq_log_pairs hdb hlow hhigh hentries hstored]
  rw [← hlength] at hentries
  obtain ⟨after, hafter, hfetch⟩ := scan_impl_fetch_eq region_id low max_size
    { buf := buf, next_index := low } hentries hsize (fun _ => rfl) (.inl rfl)
  have hreaches := cut_by_size_reaches codec.compute_size max_size 0 entries
  change after.toFetch = Fetch.push codec.compute_size { buf := buf }
    (cut_by_size codec.compute_size max_size 0 entries) at hfetch
  generalize cut_by_size codec.compute_size max_size 0 entries = taken at hfetch hreaches ⊢
  have henough : after.count = high - low ∨ max_size ≤ after.total_size := by
    rw [hfetch, Fetch.push, ← hlength]
    obtain rfl | hsize := hreaches
    · exact .inl (Nat.zero_add _)
    · exact .inr hsize
  rw [hafter, Exec.ok_bind, if_pos henough, hfetch]
  exact congrArg (fun count => Except.ok (buf ++ taken, count)) (Nat.zero_add _)

/-- Either path appends the entries of the range, cut by size. -/
theorem fetch_entries_to_eq (hless : low < high)
    (hscan : RocksEngine.RAFT_LOG_MULTI_GET_CNT < high - low →
      keys.OnlyLogKeys db region_id low high ∧ high < U64.size ∧
        ∀ entry ∈ entries, 0 < codec.compute_size entry)
    (max_size : Option Nat) (buf : List Entry) :
    db.fetch_entries_to codec region_id low high max_size buf =
      .ok (buf ++ cut_by_size codec.compute_size (max_size.getD RocksDB.usize_MAX) 0 entries,
        (cut_by_size codec.compute_size (max_size.getD RocksDB.usize_MAX) 0 entries).length) := by
  unfold RocksDB.fetch_entries_to
  rw [if_neg (not_le.mpr hless)]
  split
  · exact fetch_by_multi_get_eq hentries hstored _ buf
  · rename_i hlong
    obtain ⟨hdb, hhigh, hsize⟩ := hscan (not_le.mp hlong)
    exact fetch_by_scan_eq hentries hstored hdb (hless.trans hhigh) hhigh hsize _ buf

end Range

/-- The storage reads the entries of an admitted range, cut by size. -/
theorem PeerStorage.entries_eq {codec : RaftCodec} {storage : PeerStorage} {low high : Nat}
    (hentries : entries.map Entry.index = List.range' low (high - low))
    (hstored : ∀ entry ∈ entries, storage.raft.get (keys.raft_log_key storage.region_id
      entry.index) = some (codec.entry.write_to_bytes entry))
    (hscan : RocksEngine.RAFT_LOG_MULTI_GET_CNT < high - low →
      keys.OnlyLogKeys storage.raft storage.region_id low high ∧ high < U64.size ∧
        ∀ entry ∈ entries, 0 < codec.entry.compute_size entry)
    (hlow : storage.truncated_index < low) (hle : low ≤ high)
    (hhigh : high ≤ storage.last_index + 1) (max_size : Nat) :
    storage.entries codec low high max_size =
      .ok (cut_by_size codec.entry.compute_size max_size 0 entries) := by
  unfold PeerStorage.entries
  rw [PeerStorage.check_range_eq_ok hlow hle hhigh, Exec.ok_bind]
  by_cases hsame : low = high
  · rw [if_pos hsame]
    rw [hsame, Nat.sub_self] at hentries
    rw [List.map_eq_nil_iff.mp hentries]
    rfl
  · rw [if_neg hsame, fetch_entries_to_eq hentries hstored (by omega) hscan]
    rfl

end Paths

/-- Both paths append the shortest part of the range that reaches the limit, or
all of it, and return its length. Without a limit all is taken. -/
theorem fetch_paths_agree {codec : EntryCodec} {db : RocksDB} {region_id low high : Nat}
    {entries : List Entry} (hdb : keys.StoreKeys db) (hregion : region_id < U64.size)
    (hlow : low < high) (hhigh : high < U64.size)
    (hentries : entries.map Entry.index = List.range' low (high - low))
    (hstored : ∀ entry ∈ entries,
      db.get (keys.raft_log_key region_id entry.index) = some (codec.write_to_bytes entry))
    (hencoded : ∀ entry ∈ entries, codec.write_to_bytes entry ≠ [])
    (max_size : Option Nat) (buf : List Entry) :
    let limit := max_size.getD RocksDB.usize_MAX
    ∃ taken, (∀ other, ShortestReaching codec.compute_size limit entries other ↔ other = taken) ∧
      db.fetch_by_multi_get codec region_id low high limit buf =
        .ok (buf ++ taken, taken.length) ∧
      db.fetch_by_scan codec region_id low high limit buf = .ok (buf ++ taken, taken.length) ∧
      db.fetch_entries_to codec region_id low high max_size buf =
        .ok (buf ++ taken, taken.length) ∧
      (max_size = none → (entries.map codec.compute_size).sum < RocksDB.usize_MAX →
        taken = entries) := by
  intro limit
  have hnil : entries ≠ [] := by
    apply List.ne_nil_of_length_pos
    rw [length_eq_of_range hentries]
    omega
  have hsize : ∀ entry ∈ entries, 0 < codec.compute_size entry := by
    intro entry hentry
    exact List.length_pos_of_ne_nil (hencoded entry hentry)
  have hshortest : ShortestReaching codec.compute_size limit entries
      (cut_by_size codec.compute_size limit 0 entries) := cut_by_size_shortestReaching hnil hsize
  have hkeys := hdb.onlyLogKeys hregion (hlow.trans hhigh) hhigh
  refine ⟨_, ?_, fetch_by_multi_get_eq hentries hstored limit buf,
    fetch_by_scan_eq hentries hstored hkeys (hlow.trans hhigh) hhigh hsize limit buf,
    fetch_entries_to_eq hentries hstored hlow (fun _ => ⟨hkeys, hhigh, hsize⟩) max_size buf, ?_⟩
  · intro other
    constructor
    · intro hother
      exact hother.unique hshortest
    · rintro rfl
      exact hshortest
  · rintro rfl hfits
    obtain hall | hreaches := hshortest.reaches
    · exact hall
    · obtain ⟨rest, hrest⟩ := hshortest.begins
      rw [← hrest, List.map_append, List.sum_append] at hfits
      exact absurd (Nat.le_add_right_of_le hreaches) (not_le.mpr hfits)

/-- A log that begins at index 0. -/
def threeEntries : List Entry := [⟨0, 1, none⟩, ⟨1, 1, none⟩, ⟨2, 1, none⟩]

def threeEntriesDb : RocksDB :=
  RocksDB.write_opt .empty (RocksWriteBatch.append_impl plainCodec [] 5 threeEntries)

theorem threeEntriesDb_storeKeys : keys.StoreKeys threeEntriesDb := by
  apply RocksDB.storeKeys_write_opt
  · intro entry hentry
    cases hentry
  · intro op hop
    obtain ⟨entry, hentry, rfl⟩ := List.mem_map.mp hop
    have hindex : ∀ entry ∈ threeEntries, entry.index < U64.size := by decide
    exact ⟨.raft_log 5 entry.index, ⟨by decide, hindex entry hentry⟩, rfl⟩

theorem fetch_paths_agree_three :
    ∃ taken, (∀ other, ShortestReaching plainCodec.compute_size 0 threeEntries other ↔
        other = taken) ∧
      threeEntriesDb.fetch_by_multi_get plainCodec 5 0 3 0 [] = .ok (taken, taken.length) ∧
      threeEntriesDb.fetch_by_scan plainCodec 5 0 3 0 [] = .ok (taken, taken.length) := by
  have hindices : threeEntries.map Entry.index = List.range' 0 (3 - 0) := rfl
  have hstored : ∀ entry ∈ threeEntries, threeEntriesDb.get
      (keys.raft_log_key 5 entry.index) = some (plainCodec.write_to_bytes entry) := by
    decide +kernel
  have hencoded : ∀ entry ∈ threeEntries, plainCodec.write_to_bytes entry ≠ [] := by
    decide +kernel
  obtain ⟨taken, htaken, hmulti, hscan, -, -⟩ := fetch_paths_agree threeEntriesDb_storeKeys
    (by decide) (by decide) (by decide) hindices hstored hencoded (some 0) []
  exact ⟨taken, htaken, hmulti, hscan⟩

end hologram_kv
