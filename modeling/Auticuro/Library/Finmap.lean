import Mathlib.Data.Finmap
import Mathlib.Algebra.BigOperators.Group.Finset.Basic
import Mathlib.Algebra.BigOperators.Ring.Finset
import Mathlib.Tactic.Abel

namespace Finmap

variable {K V M : Type} [DecidableEq K]

theorem lookup_insert_eq_ite (m : Finmap fun _ : K => V) (k query : K) (v : V) :
    (m.insert k v).lookup query = if query = k then some v else m.lookup query := by
  by_cases hquery : query = k
  · subst hquery
    rw [if_pos rfl, lookup_insert]
  · rw [if_neg hquery, lookup_insert_of_ne _ hquery]

theorem lookup_erase_eq_ite (m : Finmap fun _ : K => V) (k query : K) :
    (m.erase k).lookup query = if query = k then none else m.lookup query := by
  by_cases hquery : query = k
  · subst hquery
    rw [if_pos rfl, lookup_erase]
  · rw [if_neg hquery, lookup_erase_ne hquery]

/-- The sum of a weight over the values of a finite map. -/
def sumValues [AddCommMonoid M] (weight : V → M) (m : Finmap fun _ : K => V) : M :=
  ∑ k ∈ m.keys, (m.lookup k).elim 0 weight

@[simp] theorem sumValues_empty [AddCommMonoid M] (weight : V → M) :
    sumValues weight (∅ : Finmap fun _ : K => V) = 0 := by
  simp [sumValues]

/-- Any finite set covering the keys computes the sum: a missing key weighs
nothing. -/
theorem sumValues_eq_sum_of_subset [AddCommMonoid M] (weight : V → M)
    (m : Finmap fun _ : K => V) {cover : Finset K} (hcover : m.keys ⊆ cover) :
    sumValues weight m = ∑ k ∈ cover, (m.lookup k).elim 0 weight := by
  apply Finset.sum_subset hcover
  intro k _ hmissing
  have hlookup : m.lookup k = none := by
    rw [lookup_eq_none]
    simpa only [mem_keys] using hmissing
  rw [hlookup]
  rfl

/-- Two maps that agree away from one key have sums that differ by the weight
of that key. This covers insertion, replacement and removal at once. -/
theorem sumValues_change [AddCommGroup M] (weight : V → M)
    (before after : Finmap fun _ : K => V) (k : K)
    (hframe : ∀ query, query ≠ k → after.lookup query = before.lookup query) :
    sumValues weight after - (after.lookup k).elim 0 weight =
      sumValues weight before - (before.lookup k).elim 0 weight := by
  let cover : Finset K := Insert.insert k (after.keys ∪ before.keys)
  have hmem : k ∈ cover := Finset.mem_insert_self _ _
  have hafter : after.keys ⊆ cover :=
    Finset.subset_union_left.trans (Finset.subset_insert _ _)
  have hbefore : before.keys ⊆ cover :=
    Finset.subset_union_right.trans (Finset.subset_insert _ _)
  rw [sumValues_eq_sum_of_subset weight after hafter,
    sumValues_eq_sum_of_subset weight before hbefore,
    ← Finset.add_sum_erase cover _ hmem, ← Finset.add_sum_erase cover _ hmem]
  have hrest : ∑ query ∈ cover.erase k, (after.lookup query).elim 0 weight =
      ∑ query ∈ cover.erase k, (before.lookup query).elim 0 weight := by
    apply Finset.sum_congr rfl
    intro query hquery
    rw [hframe query (Finset.ne_of_mem_erase hquery)]
  rw [hrest]
  abel

theorem sumValues_insert [AddCommGroup M] (weight : V → M)
    (m : Finmap fun _ : K => V) (k : K) (v : V) :
    sumValues weight (m.insert k v) =
      sumValues weight m - (m.lookup k).elim 0 weight + weight v := by
  have hchange := sumValues_change weight m (m.insert k v) k
    (fun query hquery => lookup_insert_of_ne _ hquery)
  rw [lookup_insert] at hchange
  rw [← hchange, Option.elim_some]
  abel

theorem sumValues_erase [AddCommGroup M] (weight : V → M)
    (m : Finmap fun _ : K => V) (k : K) :
    sumValues weight (m.erase k) = sumValues weight m - (m.lookup k).elim 0 weight := by
  have hchange := sumValues_change weight m (m.erase k) k
    (fun query hquery => lookup_erase_ne hquery)
  rw [lookup_erase] at hchange
  rw [← hchange, Option.elim_none, sub_zero]

end Finmap
