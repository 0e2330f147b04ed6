import Auticuro.TinyMq.LogWrites

namespace hologram_kv

/-- The log holds the entries from one index to another, without a gap. -/
structure Stored (log : RaftLog) (first last : Nat) : Prop where
  range : ∀ index, (log index).isSome ↔ first ≤ index ∧ index ≤ last
  keyed : ∀ index entry, log index = some entry → entry.index = index

theorem RocksEngine.append_impl_eq_or (log : RaftLog) (entries : List Entry) (index : Nat) :
    append_impl log entries index = (latest_entry entries index).or (log index) := by
  induction entries generalizing log with
  | nil => rfl
  | cons entry entries ih =>
    rw [latest_entry_cons, Option.or_assoc]
    refine (ih _).trans (congrArg _ ?_)
    by_cases hindex : entry.index = index
    · simp [hindex]
    · simp [hindex, Function.update_of_ne (Ne.symm hindex)]

namespace Stored

open RocksEngine

variable {log : RaftLog} {first last : Nat}

theorem exists_entry (hstored : Stored log first last) {index : Nat} (hfirst : first ≤ index)
    (hlast : index ≤ last) : ∃ entry, log index = some entry ∧ entry.index = index := by
  obtain ⟨entry, hentry⟩ := Option.isSome_iff_exists.mp ((hstored.range index).mpr ⟨hfirst, hlast⟩)
  exact ⟨entry, hentry, hstored.keyed index entry hentry⟩

variable {entries : List Entry}

/-- Consecutive entries are written at their indices and nowhere else. -/
theorem append_impl_range {log : RaftLog} {next : Nat}
    (hentries : entries.map Entry.index = List.range' next entries.length) (index : Nat) :
    (¬ (next ≤ index ∧ index < next + entries.length) ∧
        append_impl log entries index = log index) ∨
      (next ≤ index ∧ index < next + entries.length) ∧
        ∃ entry, entry.index = index ∧ append_impl log entries index = some entry := by
  rw [append_impl_eq_or, ← latest_entry_range hentries]
  cases hentry : latest_entry entries index with
  | none => exact .inl ⟨Bool.false_ne_true, rfl⟩
  | some entry => exact .inr ⟨rfl, entry, index_of_latest_entry hentry, rfl⟩

theorem of_entries (hentries : entries.map Entry.index = List.range' first entries.length)
    (hlast : first + entries.length = last + 1) :
    Stored (append_impl (fun _ => none) entries) first last where
  range := by
    intro index
    obtain ⟨hnot, heq⟩ | ⟨hrange, entry, -, heq⟩ := append_impl_range hentries index
    · rw [heq, Option.isSome_none]
      simp only [Bool.false_eq_true, false_iff]
      omega
    · rw [heq, Option.isSome_some]
      simp only [true_iff]
      omega
  keyed := by
    intro index entry hentry
    obtain ⟨-, heq⟩ | ⟨-, found, hindex, heq⟩ := append_impl_range hentries index
    · rw [heq] at hentry
      cases hentry
    · rw [heq] at hentry
      cases hentry
      exact hindex

section

variable (hstored : Stored log first last)
include hstored

/-- New entries replace what was behind their first index. -/
theorem append {next : Nat} (hentries : entries.map Entry.index = List.range' next entries.length)
    (hfirst : first ≤ next) (hnext : next ≤ last + 1) (hnonempty : 0 < entries.length) :
    Stored (cut_logs (append_impl log entries) (next + entries.length) (last + 1)) first
      (next + entries.length - 1) where
  range := by
    intro index
    have hold := hstored.range index
    unfold cut_logs
    obtain ⟨hnot, heq⟩ | ⟨hrange, entry, -, heq⟩ := append_impl_range hentries index
    · split
      · simp only [Option.isSome_none, Bool.false_eq_true, false_iff]
        omega
      · rw [heq, hold]
        omega
    · rw [if_neg (by omega), heq, Option.isSome_some]
      simp only [true_iff]
      omega
  keyed := by
    intro index entry hentry
    unfold cut_logs at hentry
    split at hentry
    · cases hentry
    · obtain ⟨-, heq⟩ | ⟨-, found, hindex, heq⟩ := append_impl_range hentries index
      · rw [heq] at hentry
        exact hstored.keyed index entry hentry
      · rw [heq] at hentry
        cases hentry
        exact hindex

/-- Deleting from the front leaves a log without a gap. -/
theorem cut {from_index to_index : Nat} (hfrom : from_index ≤ first) :
    Stored (cut_logs log from_index to_index) (max first to_index) last where
  range := by
    intro index
    have hold := hstored.range index
    unfold cut_logs
    split
    · simp only [Option.isSome_none, Bool.false_eq_true, false_iff]
      omega
    · rw [hold]
      omega
  keyed := by
    intro index entry hentry
    unfold cut_logs at hentry
    split at hentry
    · cases hentry
    · exact hstored.keyed index entry hentry

theorem seek_eq_some {start_idx : Nat} (hseek : seek log last = some start_idx) :
    start_idx = first := by
  obtain ⟨hsome, -, hbefore⟩ := List.find?_range_eq_some.mp hseek
  have hstart := (hstored.range start_idx).mp hsome
  by_contra hne
  have hnone := hbefore first (by omega)
  rw [(hstored.range first).mpr ⟨le_rfl, by omega⟩] at hnone
  cases hnone

theorem seek_eq_none (hseek : seek log last = none) : last < first := by
  by_contra hle
  have hmem : first ∈ List.range (last + 1) := List.mem_range.mpr (by omega)
  have hnone := List.find?_eq_none.mp hseek first hmem
  exact hnone ((hstored.range first).mpr ⟨le_rfl, not_lt.mp hle⟩)

end

theorem check_scanned_eq {next_index : Nat}
    (hentries : entries.map Entry.index = List.range' next_index entries.length) :
    check_scanned next_index entries = .ok entries := by
  induction entries generalizing next_index with
  | nil => rfl
  | cons entry entries ih =>
    rw [List.map_cons, List.length_cons, List.range'_succ, List.cons.injEq] at hentries
    rw [check_scanned, if_pos hentries.1, ih hentries.2]
    rfl

theorem filterMap_range' (hstored : Stored log first last) {low count : Nat} (hfirst : first ≤ low)
    (hlast : low + count ≤ last + 1) :
    ((List.range' low count).filterMap log).map Entry.index = List.range' low count := by
  induction count generalizing low with
  | zero => rfl
  | succ count ih =>
    obtain ⟨entry, hentry, hindex⟩ := hstored.exists_entry hfirst (by omega : low ≤ last)
    rw [List.range'_succ, List.filterMap_cons_some hentry, List.map_cons, hindex,
      ih (by omega) (by omega)]

/-- A range of which nothing is deleted is fetched. -/
theorem fetch_complete (hstored : Stored log first last) {low high : Nat} (hfirst : first ≤ low)
    (hlow : low ≤ high) (hhigh : high ≤ last + 1) :
    ∃ buf, fetch_by_scan log low high = .ok buf ∧
      buf.map Entry.index = List.range' low (high - low) := by
  have hrange := hstored.filterMap_range' hfirst (by omega : low + (high - low) ≤ last + 1)
  have hlength : (scan log low high).length = high - low := by
    have hlength := congrArg List.length hrange
    rwa [List.length_map, List.length_range'] at hlength
  refine ⟨scan log low high, ?_, hrange⟩
  have hchecked : check_scanned low (scan log low high) = .ok (scan log low high) := by
    apply check_scanned_eq
    rw [hlength]
    exact hrange
  simp only [fetch_by_scan, hchecked, Exec.ok_bind, hlength, if_true]
  rfl

/-- When the front of a range is deleted and its end is not, the fetch panics. -/
theorem fetch_gap (hstored : Stored log first last) {low high : Nat} (hlow : low < first)
    (hfirst : first < high) (hlast : first ≤ last) :
    ∃ panic, fetch_by_scan log low high = .error panic := by
  have hscan : ∀ entry ∈ scan log low high, entry.index ≠ low := by
    intro entry hentry
    obtain ⟨index, -, hindex⟩ := List.mem_filterMap.mp hentry
    have hrange := (hstored.range index).mp (by rw [hindex]; rfl)
    have hkeyed := hstored.keyed index entry hindex
    omega
  have hnonempty : scan log low high ≠ [] := by
    obtain ⟨entry, hentry, -⟩ := hstored.exists_entry le_rfl hlast
    apply List.ne_nil_of_mem
    exact List.mem_filterMap.mpr ⟨first, List.mem_range'_1.mpr (by omega), hentry⟩
  cases hentries : scan log low high with
  | nil => exact absurd hentries hnonempty
  | cons entry entries =>
    have hne := hscan entry (by rw [hentries]; exact List.mem_cons_self)
    refine ⟨.FailedToFetch low, ?_⟩
    simp only [fetch_by_scan, hentries, check_scanned, if_neg hne]
    rfl

end Stored

end hologram_kv
