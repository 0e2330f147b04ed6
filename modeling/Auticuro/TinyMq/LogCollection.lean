import Auticuro.TinyMq.CompactedPeer

namespace hologram_kv

namespace RocksDB

variable {db : RocksDB} {region_id : Nat}

/-- Without an index the collector starts at the first entry that is there. -/
theorem gc_start_zero (hdb : keys.StoreKeys db) (hregion : region_id < U64.size) :
    (db.gc_start region_id 0 = .ok none ∧
        ∀ index < U64.size, db.get (keys.raft_log_key region_id index) = none) ∨
      ∃ first < U64.size, db.gc_start region_id 0 = .ok (some first) ∧
        db.get (keys.raft_log_key region_id first) ≠ none ∧
        ∀ index < first, db.get (keys.raft_log_key region_id index) = none := by
  have hzero : ∀ {index}, index < U64.size →
      keys.raft_log_key region_id 0 ≤ keys.raft_log_key region_id index :=
    fun hindex => (keys.raft_log_key_le_iff region_id (by decide) hindex).mpr (Nat.zero_le _)
  unfold gc_start
  rw [if_pos rfl]
  cases hfind : db.entries.find? fun entry => keys.raft_log_key region_id 0 ≤ entry.1 with
  | none =>
    refine .inl ⟨rfl, fun index hindex => OrderedMap.get_eq_none_iff.mpr ?_⟩
    rintro entry hentry hkey
    have hbefore := List.find?_eq_none.mp hfind entry hentry
    rw [decide_eq_true_eq, hkey] at hbefore
    exact hbefore (hzero hindex)
  | some found =>
    obtain ⟨k, value⟩ := found
    obtain ⟨hmem, hlower, hleast⟩ := OrderedMap.find?_le_eq_some hfind
    obtain ⟨key, hvalid, hkey⟩ := hdb _ hmem
    change k = key.encode at hkey
    have hstarts := keys.StoreKey.starts_with_iff hvalid hregion
    rw [← hkey] at hstarts
    by_cases hlog : ∃ log_index, key = .raft_log region_id log_index
    · obtain ⟨first, rfl⟩ := hlog
      change k = keys.raft_log_key region_id first at hkey
      subst hkey
      refine .inr ⟨first, hvalid.2, ?_, ?_, ?_⟩
      · simp only [if_pos (hstarts.mpr ⟨first, rfl⟩),
          keys.raft_log_index_raft_log_key region_id hvalid.2]
      · rw [OrderedMap.get_eq_some_iff.mpr hmem]
        exact Option.some_ne_none value
      · intro index hless
        have hindex := hless.trans hvalid.2
        refine OrderedMap.get_eq_none_iff.mpr fun entry hentry hkey => ?_
        have hle := hleast entry hentry (by rw [hkey]; exact hzero hindex)
        rw [hkey, keys.raft_log_key_le_iff region_id hvalid.2 hindex] at hle
        omega
    · refine .inl ⟨by simp only [if_neg (hstarts.not.mpr hlog)], fun index hindex => ?_⟩
      refine OrderedMap.get_eq_none_iff.mpr fun entry hentry hother => ?_
      have hle := hleast entry hentry (by rw [hother]; exact hzero hindex)
      rw [hother, hkey] at hle
      rw [hkey] at hlower
      obtain heq | hless := hle.eq_or_lt
      · have hsame : k = (keys.StoreKey.raft_log region_id index).encode := hkey.trans heq
        have hvalid : (keys.StoreKey.raft_log region_id index).Valid := ⟨hregion, hindex⟩
        rw [hsame, keys.StoreKey.starts_with_iff hvalid hregion] at hstarts
        exact hlog (hstarts.mp ⟨index, rfl⟩)
      · obtain ⟨log_index, -, -, hraft⟩ :=
          (keys.StoreKey.encode_between_iff hvalid hregion (by decide) hindex).mp ⟨hlower, hless⟩
        exact hlog ⟨log_index, hraft⟩

theorem gc_eq_of_gc_start {start_idx end_idx first : Nat} (hless : start_idx < end_idx)
    (hstart : db.gc_start region_id start_idx = .ok (some first)) (hle : first ≤ end_idx) :
    db.gc region_id start_idx end_idx =
      .ok (gc_loop region_id [] (List.range' first (end_idx - first)), some (end_idx - first)) := by
  unfold gc
  rw [if_neg (not_le.mpr hless), hstart, ← U64.checked_sub_of_le hle]
  rfl

/-- In a log that has every entry above `collected` up to the last one, a task that
reaches further deletes everything that is there before its end. -/
theorem gc_spec (hdb : keys.StoreKeys db) (hregion : region_id < U64.size)
    {collected last_index start_idx end_idx : Nat}
    (hstored : ∀ index, collected < index → index ≤ last_index →
      db.get (keys.raft_log_key region_id index) ≠ none)
    (habsent : ∀ index, last_index < index → index < U64.size →
      db.get (keys.raft_log_key region_id index) = none)
    (hahead : collected < end_idx) (hless : start_idx < end_idx) (hend : end_idx < U64.size) :
    ∃ batches count, db.gc region_id start_idx end_idx = .ok (batches, some count) ∧
      ∀ index, start_idx ≤ index → index < end_idx →
        db.get (keys.raft_log_key region_id index) ≠ none →
        WriteOp.delete (keys.raft_log_key region_id index) ∈ batches.flatten := by
  by_cases hzero : start_idx = 0
  · subst hzero
    obtain ⟨hstart, hnone⟩ | ⟨first, hfirst, hstart, hfound, hnone⟩ := gc_start_zero hdb hregion
    · refine ⟨[], 0, ?_, fun index _ hindex hpresent => ?_⟩
      · unfold gc
        rw [if_neg (not_le.mpr hless), hstart]
        rfl
      · exact absurd (hnone index (by omega)) hpresent
    · have hlast : first ≤ last_index := by
        by_contra hbehind
        exact hfound (habsent first (not_le.mp hbehind) hfirst)
      have hle : first ≤ collected + 1 := by
        by_contra hbehind
        exact hstored (collected + 1) (by omega) (by omega) (hnone _ (by omega))
      refine ⟨_, _, gc_eq_of_gc_start hless hstart (by omega), fun index _ hindex hpresent => ?_⟩
      refine mem_flatten_gc_loop_iff.mpr ⟨index, ?_, hindex, rfl⟩
      by_contra hbefore
      exact hpresent (hnone index (not_le.mp hbefore))
  · have hstart : db.gc_start region_id start_idx = .ok (some start_idx) := if_neg hzero
    refine ⟨_, _, gc_eq_of_gc_start hless hstart hless.le, fun index hindex hbefore _ => ?_⟩
    exact mem_flatten_gc_loop_iff.mpr ⟨index, hindex, hbefore, rfl⟩

end RocksDB

end hologram_kv
