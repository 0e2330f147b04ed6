import Mathlib.Tactic.Common

variable {E K : Type}

/-- A run of numbered entries without gaps, with an index that finds each entry
by its key: the numbers in use are `first` up to but not including `next`. -/
structure Segment (key : E → K) (valid : Nat → E → Prop) (entries : Nat → Option E)
    (index : K → Option Nat) (first next : Nat) : Prop where
  range : ∀ n, (entries n).isSome ↔ first ≤ n ∧ n < next
  valid : ∀ n entry, entries n = some entry → valid n entry
  index : ∀ k n, index k = some n ↔ ∃ entry, entries n = some entry ∧ key entry = k

namespace Segment

variable {key : E → K} {valid : Nat → E → Prop} {entries entries' : Nat → Option E}
variable {index index' : K → Option Nat} {first middle next : Nat}

theorem empty (hentries : ∀ n, entries n = none) (hindex : ∀ k, index k = none) :
    Segment key valid entries index first first where
  range := by
    intro n
    rw [hentries]
    simp only [Option.isSome_none, Bool.false_eq_true, false_iff]
    omega
  valid := by
    intro n entry hentry
    rw [hentries] at hentry
    cases hentry
  index := by
    intro k n
    simp [hentries, hindex]

section

variable (hsegment : Segment key valid entries index first next)
include hsegment

theorem lt_next {n : Nat} {entry : E} (hentry : entries n = some entry) : first ≤ n ∧ n < next :=
  (hsegment.range n).mp (by simp [hentry])

theorem eq_none_of_not_range {n : Nat} (hout : ¬ (first ≤ n ∧ n < next)) : entries n = none := by
  rw [← hsegment.range n] at hout
  simpa using hout

/-- Different numbers hold entries with different keys. -/
theorem eq_of_key_eq {n m : Nat} {left right : E} (hleft : entries n = some left)
    (hright : entries m = some right) (hkey : key left = key right) : n = m := by
  have hn := (hsegment.index (key right) n).mpr ⟨left, hleft, hkey⟩
  have hm := (hsegment.index (key right) m).mpr ⟨right, hright, rfl⟩
  rw [hn] at hm
  cases hm
  rfl

/-- An entry under a new key goes at the end. -/
theorem append [DecidableEq K] (hle : first ≤ next) (entry : E) (hvalid : valid next entry)
    (hnew : index (key entry) = none)
    (hentries : ∀ n, entries' n = if n = next then some entry else entries n)
    (hindex : ∀ k, index' k = if k = key entry then some next else index k) :
    Segment key valid entries' index' first (next + 1) where
  range := by
    intro n
    rw [hentries]
    split
    · simp
      omega
    · rw [hsegment.range]
      omega
  valid := by
    intro n found hfound
    rw [hentries] at hfound
    split at hfound
    · cases hfound
      rename_i hn
      exact hn ▸ hvalid
    · exact hsegment.valid n found hfound
  index := by
    intro k n
    have hout : entries next = none := hsegment.eq_none_of_not_range (by omega)
    have hfresh : ∀ m found, entries m = some found → key found ≠ key entry := by
      intro m found hfound hkey
      have hknown := (hsegment.index (key entry) m).mpr ⟨found, hfound, hkey⟩
      rw [hnew] at hknown
      cases hknown
    rw [hindex, hentries]
    by_cases hk : k = key entry
    · rw [if_pos hk]
      constructor
      · rintro ⟨⟩
        exact ⟨entry, by simp, hk.symm⟩
      · rintro ⟨found, hfound, hkey⟩
        split at hfound
        · rename_i hn
          rw [hn]
        · exact absurd (hkey.trans hk) (hfresh n found hfound)
    · rw [if_neg hk, hsegment.index]
      constructor
      · rintro ⟨found, hfound, hkey⟩
        refine ⟨found, ?_, hkey⟩
        rw [if_neg, hfound]
        rintro rfl
        rw [hout] at hfound
        cases hfound
      · rintro ⟨found, hfound, hkey⟩
        split at hfound
        · cases hfound
          exact absurd hkey.symm hk
        · exact ⟨found, hfound, hkey⟩

/-- Dropping the entries from `start` to `stop`, and their keys, leaves the rest
when there is nothing below `start`. -/
theorem drop {start stop : Nat} (hbelow : ∀ n, n < start → entries n = none)
    (hentries : ∀ n, entries' n = if start ≤ n ∧ n < stop then none else entries n)
    (hgone : ∀ n entry, start ≤ n → n < stop → entries n = some entry → index' (key entry) = none)
    (hkept : ∀ k, (∀ n entry, start ≤ n → n < stop → entries n = some entry → key entry ≠ k) →
      index' k = index k) :
    Segment key valid entries' index' (max first stop) next where
  range := by
    intro n
    rw [hentries]
    split
    · simp only [Option.isSome_none, Bool.false_eq_true, false_iff]
      omega
    · rename_i hout
      have hrange := hsegment.range n
      by_cases hlow : n < start
      · rw [hbelow n hlow] at hrange ⊢
        simp only [Option.isSome_none, Bool.false_eq_true, false_iff] at hrange ⊢
        omega
      · rw [hrange]
        omega
  valid := by
    intro n entry hentry
    rw [hentries] at hentry
    split at hentry
    · cases hentry
    · exact hsegment.valid n entry hentry
  index := by
    intro k n
    by_cases hdropped : ∃ m entry, start ≤ m ∧ m < stop ∧ entries m = some entry ∧ key entry = k
    · obtain ⟨m, entry, hlow, hhigh, hentry, rfl⟩ := hdropped
      rw [hgone m entry hlow hhigh hentry]
      simp only [reduceCtorEq, false_iff]
      rintro ⟨found, hfound, hkey⟩
      rw [hentries] at hfound
      split at hfound
      · cases hfound
      · have heq := hsegment.eq_of_key_eq hfound hentry hkey
        omega
    · have hsame : index' k = index k := by
        apply hkept
        intro m entry hlow hhigh hentry hkey
        exact hdropped ⟨m, entry, hlow, hhigh, hentry, hkey⟩
      rw [hsame, hsegment.index]
      constructor
      · rintro ⟨found, hfound, hkey⟩
        refine ⟨found, ?_, hkey⟩
        rw [hentries, if_neg, hfound]
        rintro ⟨hlow, hhigh⟩
        exact hdropped ⟨n, found, hlow, hhigh, hfound, hkey⟩
      · rintro ⟨found, hfound, hkey⟩
        rw [hentries] at hfound
        split at hfound
        · cases hfound
        · exact ⟨found, hfound, hkey⟩

end

/-- Two segments that meet and share no key are one, read from the newer one
first. -/
theorem join {older newer : Nat → Option E} {olderIndex newerIndex : K → Option Nat}
    (holder : Segment key valid older olderIndex first middle)
    (hnewer : Segment key valid newer newerIndex middle next) (hfirst : first ≤ middle)
    (hnext : middle ≤ next)
    (hdisjoint : ∀ k n, newerIndex k = some n → olderIndex k = none)
    (hentries : ∀ n, entries n = (newer n).or (older n))
    (hindex : ∀ k, index k = (newerIndex k).or (olderIndex k)) :
    Segment key valid entries index first next where
  range := by
    intro n
    rw [hentries, Option.isSome_or, Bool.or_eq_true, hnewer.range, holder.range]
    omega
  valid := by
    intro n entry hentry
    rw [hentries, Option.or_eq_some_iff] at hentry
    obtain hentry | ⟨_, hentry⟩ := hentry
    · exact hnewer.valid n entry hentry
    · exact holder.valid n entry hentry
  index := by
    intro k n
    rw [hindex, Option.or_eq_some_iff, hnewer.index, holder.index]
    constructor
    · rintro (⟨entry, hentry, hkey⟩ | ⟨_, entry, hentry, hkey⟩)
      · exact ⟨entry, by rw [hentries, hentry, Option.some_or], hkey⟩
      · have hbelow := (holder.lt_next hentry).2
        have hnone : newer n = none := hnewer.eq_none_of_not_range (by omega)
        exact ⟨entry, by rw [hentries, hnone, hentry, Option.none_or], hkey⟩
    · rintro ⟨entry, hentry, hkey⟩
      rw [hentries, Option.or_eq_some_iff] at hentry
      obtain hentry | ⟨_, hentry⟩ := hentry
      · exact .inl ⟨entry, hentry, hkey⟩
      · refine .inr ⟨?_, entry, hentry, hkey⟩
        have hold := (holder.index k n).mpr ⟨entry, hentry, hkey⟩
        cases hnew : newerIndex k with
        | none => rfl
        | some m =>
          rw [hdisjoint k m hnew] at hold
          cases hold

end Segment
