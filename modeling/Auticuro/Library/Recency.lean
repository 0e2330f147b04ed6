import Mathlib.Data.List.Nodup
import Mathlib.Tactic.Common

/-! Entries by the time of their last use, the last used first. -/

namespace Recency

variable {K V : Type} [DecidableEq K]

def keys (entries : List (K × V)) : List K := entries.map Prod.fst

def get (key : K) (entries : List (K × V)) : Option V :=
  (entries.find? fun entry => entry.1 = key).map Prod.snd

def without (key : K) (entries : List (K × V)) : List (K × V) :=
  entries.filter fun entry => entry.1 ≠ key

/-- A use of a key. -/
def promote (key : K) (entries : List (K × V)) : List (K × V) :=
  match get key entries with
  | some value => (key, value) :: without key entries
  | none => entries

def update (key : K) (f : V → V) (entries : List (K × V)) : List (K × V) :=
  entries.map fun entry => if entry.1 = key then (entry.1, f entry.2) else entry

/-- A new key takes the place of the one that was not used for the longest time. -/
def insert (capacity : Nat) (key : K) (value : V) (entries : List (K × V)) : List (K × V) :=
  if key ∈ keys entries then
    (key, value) :: without key entries
  else if capacity ≤ entries.length then
    (key, value) :: entries.dropLast
  else
    (key, value) :: entries

variable {key : K} {value : V} {entries left right : List (K × V)}

theorem get_eq_none (habsent : key ∉ keys entries) : get key entries = none := by
  unfold get
  rw [Option.map_eq_none_iff, List.find?_eq_none]
  intro entry hentry heq
  exact habsent (List.mem_map.mpr ⟨entry, hentry, of_decide_eq_true heq⟩)

theorem without_eq_self (habsent : key ∉ keys entries) : without key entries = entries := by
  unfold without
  rw [List.filter_eq_self]
  intro entry hentry
  refine decide_eq_true fun heq => habsent (List.mem_map.mpr ⟨entry, hentry, heq⟩)

section Split

variable (hnodup : (keys (left ++ (key, value) :: right)).Nodup)
include hnodup

omit [DecidableEq K] in
theorem not_mem_keys : key ∉ keys left ∧ key ∉ keys right := by
  unfold keys at hnodup
  rw [List.map_append, List.map_cons, List.nodup_middle, List.nodup_cons, List.mem_append,
    not_or] at hnodup
  exact hnodup.1

theorem get_split : get key (left ++ (key, value) :: right) = some value := by
  obtain ⟨hleft, -⟩ := not_mem_keys hnodup
  have hnone : left.find? (fun entry => entry.1 = key) = none :=
    Option.map_eq_none_iff.mp (get_eq_none hleft)
  unfold get
  rw [List.find?_append, hnone, Option.none_or, List.find?_cons_of_pos (by simp)]
  rfl

theorem without_split : without key (left ++ (key, value) :: right) = left ++ right := by
  obtain ⟨hleft, hright⟩ := not_mem_keys hnodup
  have hcons : without key ((key, value) :: right) = without key right :=
    List.filter_cons_of_neg (by simp)
  rw [without, List.filter_append]
  change without key left ++ without key ((key, value) :: right) = _
  rw [hcons, without_eq_self hleft, without_eq_self hright]

theorem promote_split :
    promote key (left ++ (key, value) :: right) = (key, value) :: (left ++ right) := by
  unfold promote
  rw [get_split hnodup, without_split hnodup]

theorem update_split (f : V → V) :
    update key f (left ++ (key, value) :: right) = left ++ (key, f value) :: right := by
  obtain ⟨hleft, hright⟩ := not_mem_keys hnodup
  have hsame : ∀ rest : List (K × V), key ∉ keys rest → update key f rest = rest := by
    intro rest habsent
    unfold update
    rw [List.map_congr_left (g := id), List.map_id]
    intro entry hentry
    exact if_neg fun heq => habsent (List.mem_map.mpr ⟨entry, hentry, heq⟩)
  unfold update
  rw [List.map_append, List.map_cons, if_pos rfl]
  exact congrArg₂ (· ++ (key, f value) :: ·) (hsame left hleft) (hsame right hright)

theorem insert_split (capacity : Nat) (other : V) :
    insert capacity key other (left ++ (key, value) :: right) =
      (key, other) :: (left ++ right) := by
  unfold insert
  rw [if_pos (by simp [keys]), without_split hnodup]

end Split

end Recency
