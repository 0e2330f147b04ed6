import Auticuro.TinyMq.LogCollection
import Auticuro.TinyMq.StoredLog

namespace hologram_kv

/-- The database holds the log of a region: under the key of each index its entry, encoded. -/
structure RocksDB.HoldsEntries (codec : EntryCodec) (region_id : Nat) (log : RaftLog)
    (db : RocksDB) : Prop where
  get : ∀ index < U64.size,
    db.get (keys.raft_log_key region_id index) = (log index).map codec.write_to_bytes
  keyed : ∀ index entry, log index = some entry → entry.index = index ∧ index < U64.size

theorem RocksEngine.cut_logs_of_le (log : RaftLog) {from_index to_index : Nat}
    (hle : to_index ≤ from_index) : cut_logs log from_index to_index = log := by
  funext index
  exact if_neg (by omega)

namespace RocksDB

variable {region_id : Nat}

/-- The loop writes a batch once it is full or there is no more index. -/
theorem gc_loop_append {raft_wb : RocksWriteBatch} {batch indices : List Nat} (hne : batch ≠ [])
    (hle : raft_wb.length + batch.length ≤ 256)
    (hfull : raft_wb.length + batch.length = 256 ∨ indices = []) :
    gc_loop region_id raft_wb (batch ++ indices) =
      (raft_wb ++ batch.map fun idx => .delete (keys.raft_log_key region_id idx)) ::
        gc_loop region_id [] indices := by
  induction batch generalizing raft_wb with
  | nil => exact absurd rfl hne
  | cons idx batch ih =>
    rw [List.length_cons] at hle hfull
    have hlength : (raft_wb ++ [WriteOp.delete (keys.raft_log_key region_id idx)]).length =
        raft_wb.length + 1 := List.length_append
    rw [List.cons_append, gc_loop, hlength]
    split
    · obtain rfl := List.length_eq_zero_iff.mp (by omega : batch.length = 0)
      rfl
    · cases batch with
      | nil =>
        obtain rfl := hfull.resolve_left (by rw [List.length_nil]; omega)
        simp [gc_loop]
      | cons other batch =>
        rw [ih (by simp) (by omega) (hfull.imp_left fun hcount => by omega)]
        simp

theorem gc_loop_range_of_le {start_idx end_idx : Nat} (hle : end_idx ≤ start_idx) :
    gc_loop region_id [] (List.range' start_idx (end_idx - start_idx)) = [] := by
  rw [Nat.sub_eq_zero_of_le hle]
  rfl

theorem gc_loop_range {start_idx end_idx : Nat} (hless : start_idx < end_idx) :
    gc_loop region_id [] (List.range' start_idx (end_idx - start_idx)) =
      RocksWriteBatch.cut_logs [] region_id start_idx (min (start_idx + 256) end_idx) ::
        gc_loop region_id [] (List.range' (min (start_idx + 256) end_idx)
          (end_idx - min (start_idx + 256) end_idx)) := by
  obtain ⟨next_idx, hnext⟩ : ∃ next_idx, next_idx = min (start_idx + 256) end_idx := ⟨_, rfl⟩
  have hbatch : start_idx + (next_idx - start_idx) = next_idx := by omega
  have hrange : List.range' start_idx (end_idx - start_idx) =
      List.range' start_idx (next_idx - start_idx) ++
        List.range' next_idx (end_idx - next_idx) := by
    rw [show end_idx - start_idx = (next_idx - start_idx) + (end_idx - next_idx) by omega,
      ← List.range'_append_1, hbatch]
  rw [← hnext, hrange, gc_loop_append]
  · rfl
  · rw [Ne, List.range'_eq_nil_iff]
    omega
  · rw [List.length_nil, List.length_range']
    omega
  · rw [List.length_nil, List.length_range', List.range'_eq_nil_iff]
    omega

end RocksDB

namespace RocksDB.HoldsEntries

variable {codec : EntryCodec} {region_id : Nat} {log : RaftLog} {db : RocksDB}

section

variable (hdb : db.HoldsEntries codec region_id log)
include hdb

theorem append_impl {entries : List Entry} (hentries : ∀ entry ∈ entries, entry.index < U64.size) :
    (db.write_opt (RocksWriteBatch.append_impl codec [] region_id entries)).HoldsEntries codec
      region_id (RocksEngine.append_impl log entries) where
  get := by
    intro index hindex
    rw [get_append_impl db hentries hindex, hdb.get index hindex, RocksEngine.append_impl_eq_or,
      Option.map_or]
  keyed := by
    intro index entry hentry
    rw [RocksEngine.append_impl_eq_or] at hentry
    obtain hentry | ⟨-, hentry⟩ := Option.or_eq_some_iff.mp hentry
    · have hindex := index_of_latest_entry hentry
      exact ⟨hindex, hindex ▸ hentries entry (mem_of_latest_entry hentry)⟩
    · exact hdb.keyed index entry hentry

theorem cut_logs (from_index : Nat) {to_index : Nat} (hto : to_index ≤ U64.size) :
    (db.write_opt (RocksWriteBatch.cut_logs [] region_id from_index to_index)).HoldsEntries codec
      region_id (RocksEngine.cut_logs log from_index to_index) where
  get := by
    intro index hindex
    rw [get_cut_logs db hto hindex, RocksEngine.cut_logs, hdb.get index hindex]
    split
    · rfl
    · rfl
  keyed := by
    intro index entry hentry
    rw [RocksEngine.cut_logs] at hentry
    split at hentry
    · cases hentry
    · exact hdb.keyed index entry hentry

theorem eq_none_iff {index : Nat} (hindex : index < U64.size) :
    db.get (keys.raft_log_key region_id index) = none ↔ log index = none := by
  rw [hdb.get index hindex, Option.map_eq_none_iff]

end

section Collection

variable (hdb : db.HoldsEntries codec region_id log) (hkeys : keys.StoreKeys db)
  (hregion : region_id < U64.size) {last_index : Nat}
  (hlast : ∀ index, last_index < index → log index = none)
include hdb hkeys hregion hlast

/-- The first key of the log is the one that the seek finds. -/
theorem gc_start_eq (start_idx : Nat) :
    db.gc_start region_id start_idx =
      .ok (if start_idx = 0 then RocksEngine.seek log last_index else some start_idx) := by
  by_cases hzero : start_idx = 0
  · subst hzero
    rw [if_pos rfl]
    obtain ⟨hstart, hnone⟩ | ⟨first, hfirst, hstart, hfound, hnone⟩ := gc_start_zero hkeys hregion
    · have hempty : RocksEngine.seek log last_index = none := by
        refine List.find?_range_eq_none.mpr fun index _ => ?_
        cases hentry : log index with
        | none => rfl
        | some entry =>
          have hindex := (hdb.keyed index entry hentry).2
          cases hentry.symm.trans ((hdb.eq_none_iff hindex).mp (hnone index hindex))
      rw [hstart, hempty]
    · have hseek : RocksEngine.seek log last_index = some first := by
        rw [Ne, hdb.eq_none_iff hfirst] at hfound
        refine List.find?_range_eq_some.mpr ⟨Option.isSome_iff_ne_none.mpr hfound, ?_, ?_⟩
        · rw [List.mem_range]
          by_contra hbehind
          exact hfound (hlast first (by omega))
        · intro index hless
          rw [(hdb.eq_none_iff (hless.trans hfirst)).mp (hnone index hless)]
          rfl
      rw [hstart, hseek]
  · rw [if_neg hzero]
    exact if_neg hzero

/-- The first batch of a task does to the log what one step of the collector does, and the
other batches are those of what is left of the task. -/
theorem gc {task : GcTask} (hend : task.end_idx ≤ U64.size) {batches : List RocksWriteBatch}
    {count : Option Nat}
    (hgc : db.gc region_id task.start_idx task.end_idx = .ok (batches, count)) :
    (db.write_opt (batches.head?.getD [])).HoldsEntries codec region_id
        (RocksEngine.gc_batch log last_index task).1 ∧
      batches.tail = match (RocksEngine.gc_batch log last_index task).2 with
        | none => []
        | some rest =>
          gc_loop region_id [] (List.range' rest.start_idx (rest.end_idx - rest.start_idx)) := by
  unfold RocksDB.gc at hgc
  unfold RocksEngine.gc_batch
  split at hgc
  · next hdone =>
    cases hgc
    rw [if_pos hdone]
    exact ⟨hdb, rfl⟩
  · next hmore =>
    rw [hdb.gc_start_eq hkeys hregion hlast, Exec.ok_bind] at hgc
    rw [if_neg hmore]
    generalize (if task.start_idx = 0 then RocksEngine.seek log last_index
      else some task.start_idx) = found at hgc ⊢
    cases found with
    | none =>
      cases hgc
      exact ⟨hdb, rfl⟩
    | some start_idx =>
      cases hgc
      dsimp only
      by_cases hless : start_idx < task.end_idx
      · rw [gc_loop_range hless]
        refine ⟨hdb.cut_logs _ (by omega), ?_⟩
        split
        · next hrest =>
          split at hrest
          · cases hrest
          · exact gc_loop_range_of_le (by omega)
        · next rest hrest =>
          split at hrest
          · cases hrest
            rfl
          · cases hrest
      · rw [gc_loop_range_of_le (not_lt.mp hless), if_neg (by omega),
          RocksEngine.cut_logs_of_le log (by omega)]
        exact ⟨hdb, rfl⟩

end Collection

section Fetching

theorem check_scanned_eq_ok {entries buf : List Entry} {next_index : Nat}
    (hchecked : RocksEngine.check_scanned next_index entries = .ok buf) : buf = entries := by
  induction entries generalizing next_index buf with
  | nil =>
    cases hchecked
    rfl
  | cons entry entries ih =>
    rw [RocksEngine.check_scanned] at hchecked
    split at hchecked
    · obtain ⟨rest, hrest, hok⟩ := Exec.bind_eq_ok_iff.mp hchecked
      cases hok
      rw [ih hrest]
    · cases hchecked

/-- An entry with another index than the next one stops the scan. -/
theorem fetch_callback_eq_error (max_size : Nat) {low : Nat} {fetch : ScanFetch} {value : Bytes}
    {entry : Entry} (hread : codec.merge_from_bytes value = some entry)
    (hfirst : fetch.check_compacted = true → fetch.next_index = low)
    (hindex : entry.index ≠ fetch.next_index) (key : Bytes) :
    ∃ panic, RocksDB.fetch_callback codec low max_size fetch key value = .error panic := by
  unfold RocksDB.fetch_callback
  rw [hread, unwrap, Exec.ok_bind]
  by_cases hcheck : fetch.check_compacted = true
  · rw [if_pos ⟨hcheck, hfirst hcheck ▸ hindex⟩]
    exact ⟨_, rfl⟩
  · rw [if_neg (hcheck ·.1), if_pos ⟨hcheck, hindex⟩]
    exact ⟨_, rfl⟩

/-- Below the maximum size the scan makes the checks of `check_scanned`. -/
theorem scan_impl_check_scanned (region_id low : Nat) {max_size : Nat} (fetch : ScanFetch)
    {entries : List Entry}
    (hfirst : fetch.check_compacted = true → fetch.next_index = low)
    (hsize : fetch.total_size + (entries.map codec.compute_size).sum < max_size) :
    (RocksDB.scan_impl (RocksDB.fetch_callback codec low max_size) fetch
        (entries.map (RocksDB.log_pair codec region_id))).toOption.map ScanFetch.toFetch =
      (RocksEngine.check_scanned fetch.next_index entries).toOption.map
        (fetch.toFetch.push codec.compute_size) := by
  induction entries generalizing fetch with
  | nil => exact congrArg some (Fetch.push_nil _ _).symm
  | cons entry entries ih =>
    rw [List.map_cons, List.sum_cons] at hsize
    rw [List.map_cons, RocksEngine.check_scanned]
    by_cases hindex : entry.index = fetch.next_index
    · have hcall := fetch_callback_eq max_size (codec.merge_write entry) hfirst hindex
        (keys.raft_log_key region_id entry.index)
      have hless : fetch.total_size + (codec.write_to_bytes entry).length < max_size :=
        (Nat.le_add_right _ _).trans_lt (by rwa [Nat.add_assoc])
      rw [scan_impl_cons (p := RocksDB.log_pair codec region_id entry) hcall,
        if_pos (decide_eq_true hless), if_pos hindex]
      refine (ih _ (fun hcheck => by cases hcheck) (by rwa [Nat.add_assoc])).trans ?_
      cases RocksEngine.check_scanned (fetch.next_index + 1) entries with
      | error panic => rfl
      | ok buf => exact congrArg some (Fetch.push_cons _ _ _ _).symm
    · obtain ⟨panic, herror⟩ := fetch_callback_eq_error max_size (codec.merge_write entry) hfirst
        hindex (keys.raft_log_key region_id entry.index)
      rw [if_neg hindex, RocksDB.scan_impl]
      exact congrArg (Option.map _) (congrArg Except.toOption (congrArg (· >>= _) herror))

variable (hdb : db.HoldsEntries codec region_id log)
include hdb

/-- A scan meets the entries of the log. -/
theorem iterator_opt_eq {low high : Nat} (honly : keys.OnlyLogKeys db region_id low high)
    (hlow : low < U64.size) (hhigh : high < U64.size) :
    db.iterator_opt (keys.raft_log_key region_id low) (keys.raft_log_key region_id high) =
      (RocksEngine.scan log low high).map (RocksDB.log_pair codec region_id) := by
  rw [keys.iterator_opt_raft_log honly hlow hhigh, RocksEngine.scan, List.map_filterMap]
  refine List.filterMap_congr fun index hindex => ?_
  rw [List.mem_range'_1] at hindex
  rw [hdb.get index (by omega), Option.map_map]
  cases hentry : log index with
  | none => rfl
  | some entry =>
    rw [Option.map_some, Option.map_some, RocksDB.log_pair, (hdb.keyed index entry hentry).1]
    rfl

/-- Of entries below the maximum size both scans fetch the same, or both panic. -/
theorem fetch_by_scan {low high max_size : Nat} (honly : keys.OnlyLogKeys db region_id low high)
    (hlow : low < U64.size) (hhigh : high < U64.size)
    (hsize : ((RocksEngine.scan log low high).map codec.compute_size).sum < max_size) :
    (db.fetch_by_scan codec region_id low high max_size []).toOption.map Prod.fst =
      (RocksEngine.fetch_by_scan log low high).toOption := by
  have hscans := scan_impl_check_scanned region_id low { buf := [], next_index := low }
    (fun _ => rfl) (by rwa [Nat.zero_add])
  unfold RocksDB.fetch_by_scan RocksEngine.fetch_by_scan
  rw [hdb.iterator_opt_eq honly hlow hhigh]
  generalize RocksDB.scan_impl _ _ _ = scanned at hscans ⊢
  cases hchecked : RocksEngine.check_scanned low (RocksEngine.scan log low high) with
  | error panic =>
    rw [hchecked] at hscans
    cases scanned with
    | error panic => rfl
    | ok fetch => cases hscans
  | ok buf =>
    rw [hchecked] at hscans
    cases scanned with
    | error panic => cases hscans
    | ok fetch =>
      have hfetch : fetch.toFetch = Fetch.push codec.compute_size { buf := [] } buf :=
        Option.some.inj hscans
      have hcount : fetch.count = high - low ∨ max_size ≤ fetch.total_size ↔
          buf.length = high - low := by
        rw [hfetch, Fetch.push, check_scanned_eq_ok hchecked, Nat.zero_add, Nat.zero_add]
        exact or_iff_left (not_le.mpr hsize)
      rw [Exec.ok_bind, Exec.ok_bind]
      simp only [hcount]
      split
      · exact congrArg some (congrArg Fetch.buf hfetch)
      · rfl

/-- The point lookups read the entries of the log one by one. -/
theorem multi_get_loop {count index max_size : Nat} (fetch : Fetch)
    (hend : index + count ≤ U64.size)
    (hsize : fetch.total_size + (((List.range' index count).filterMap log).map
      codec.compute_size).sum < max_size) :
    (db.multi_get_loop codec region_id max_size count index fetch).toOption.map Fetch.buf =
      ((List.range' index count).mapM log).map (fetch.buf ++ ·) := by
  induction count generalizing index fetch with
  | zero => simp [RocksDB.multi_get_loop]
  | succ count ih =>
    rw [RocksDB.multi_get_loop, if_neg (by omega), hdb.get index (by omega), List.range'_succ,
      List.mapM_cons]
    cases hentry : log index with
    | none => rfl
    | some entry =>
      rw [List.range'_succ, List.filterMap_cons_some hentry, List.map_cons, List.sum_cons] at hsize
      simp only [Option.map_some, codec.merge_write, unwrap, Exec.ok_bind,
        (hdb.keyed index entry hentry).1, if_true]
      refine (ih _ (by omega) (by rwa [Nat.add_assoc])).trans ?_
      cases (List.range' (index + 1) count).mapM log with
      | none => rfl
      | some entries => exact congrArg some (List.append_assoc _ _ _)

theorem fetch_by_multi_get {low high max_size : Nat} (hle : low ≤ high) (hhigh : high ≤ U64.size)
    (hsize : ((RocksEngine.scan log low high).map codec.compute_size).sum < max_size) :
    (db.fetch_by_multi_get codec region_id low high max_size []).toOption.map Prod.fst =
      (List.range' low (high - low)).mapM log := by
  have hloop := hdb.multi_get_loop { buf := [] } (by omega : low + (high - low) ≤ _)
    (by rwa [Nat.zero_add])
  simp only [List.nil_append, Option.map_id'] at hloop
  rw [← hloop, RocksDB.fetch_by_multi_get]
  cases db.multi_get_loop codec region_id max_size (high - low) low { buf := [] } with
  | error panic | ok fetch => rfl

end Fetching

/-- What a ready does to the database is what an append does to the log. -/
theorem on_ready {codec : RaftCodec} {storage : PeerStorage} {Closure T : Type}
    {store : LogStore Closure T}
    (hdb : storage.raft.HoldsEntries codec.entry storage.region_id store.log)
    (hlast : storage.last_index = store.last_index) (hsize : storage.last_index < U64.size)
    {ready : Ready} (hentries : ∀ entry ∈ ready.entries, entry.index < U64.size) :
    (storage.on_ready codec ready).last_index = (store.append ready.entries).last_index ∧
      (storage.on_ready codec ready).raft.HoldsEntries codec.entry storage.region_id
        (store.append ready.entries).log := by
  obtain ⟨hindex, -, -, hraft⟩ := storage.on_ready_eq codec ready
  have happended :=
    (hdb.append_impl hentries).cut_logs (ready.last_index storage.last_index + 1) hsize
  have hsame : store.append ready.entries = { store with
      log := RocksEngine.cut_logs (RocksEngine.append_impl store.log ready.entries)
        (ready.last_index storage.last_index + 1) (storage.last_index + 1)
      last_index := ready.last_index storage.last_index } := by
    unfold LogStore.append Ready.last_index
    cases hentries : ready.entries.getLast? with
    | none =>
      simp only [Option.map_none, Option.getD_none, List.getLast?_eq_none_iff.mp hentries,
        RocksEngine.cut_logs_of_le _ le_rfl, hlast]
      rfl
    | some last =>
      rw [hlast]
      rfl
  rw [hsame, hraft]
  refine ⟨hindex, ?_, happended.keyed⟩
  intro index hsmall
  rw [get_write_opt]
  · exact happended.get index hsmall
  · intro op hop
    rw [storage.key_of_mem_state_batch codec hop]
    exact (keys.raft_log_key_lt_raft_state_key storage.region_id index).ne

end RocksDB.HoldsEntries

end hologram_kv
