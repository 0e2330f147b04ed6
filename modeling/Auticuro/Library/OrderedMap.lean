import Mathlib.Data.List.Nodup
import Mathlib.Order.Lattice
import Mathlib.Tactic.Common

/-- A finite map that lists its entries by increasing key. -/
structure OrderedMap (K V : Type) [LinearOrder K] where
  entries : List (K × V)
  sorted : entries.Pairwise fun left right => left.1 < right.1

namespace OrderedMap

variable {K V : Type} [LinearOrder K]

def empty : OrderedMap K V := ⟨[], .nil⟩

def len (self : OrderedMap K V) : Nat := self.entries.length

def get (self : OrderedMap K V) (key : K) : Option V :=
  (self.entries.find? fun entry => entry.1 = key).map Prod.snd

def remove (self : OrderedMap K V) (key : K) : OrderedMap K V :=
  ⟨self.entries.filter fun entry => entry.1 ≠ key, self.sorted.filter _⟩

def insert (self : OrderedMap K V) (key : K) (value : V) : OrderedMap K V where
  entries := (self.entries.filter fun entry => entry.1 < key) ++
    (key, value) :: self.entries.filter fun entry => key < entry.1
  sorted := by
    have hsorted := self.sorted
    rw [List.pairwise_append, List.pairwise_cons]
    refine ⟨hsorted.filter _, ⟨?_, hsorted.filter _⟩, ?_⟩
    · intro entry hentry
      simpa using (List.mem_filter.mp hentry).2
    · intro left hleft right hright
      have hless : left.1 < key := by simpa using (List.mem_filter.mp hleft).2
      obtain rfl | hright := List.mem_cons.mp hright
      · exact hless
      · have hgreater : key < right.1 := by simpa using (List.mem_filter.mp hright).2
        exact lt_trans hless hgreater

/-- Take entries off the front while the condition on the map holds. -/
def pop_while (condition : List (K × V) → Bool) (self : OrderedMap K V) :
    List (K × V) × OrderedMap K V :=
  go self.entries self.sorted
where
  go : (entries : List (K × V)) → (entries.Pairwise fun left right => left.1 < right.1) →
      List (K × V) × OrderedMap K V
    | [], sorted => ([], ⟨[], sorted⟩)
    | entry :: entries, sorted =>
      if condition (entry :: entries) then
        let (popped, rest) := go entries sorted.of_cons
        (entry :: popped, rest)
      else
        ([], ⟨entry :: entries, sorted⟩)

variable {self : OrderedMap K V} {key : K} {value : V}

theorem keys_nodup (self : OrderedMap K V) : (self.entries.map Prod.fst).Nodup := by
  rw [List.Nodup, List.pairwise_map]
  exact self.sorted.imp fun hless => ne_of_lt hless

theorem entry_unique {left right : K × V} (hleft : left ∈ self.entries)
    (hright : right ∈ self.entries) (hkey : left.1 = right.1) : left = right :=
  List.inj_on_of_nodup_map self.keys_nodup hleft hright hkey

theorem get_eq_some_iff : self.get key = some value ↔ (key, value) ∈ self.entries := by
  unfold get
  rw [Option.map_eq_some_iff]
  constructor
  · rintro ⟨⟨found, _⟩, hfind, rfl⟩
    have hkey : found = key := by simpa using List.find?_some hfind
    rw [← hkey]
    exact List.mem_of_find?_eq_some hfind
  · intro hmem
    cases hfind : self.entries.find? fun entry => entry.1 = key with
    | none =>
      rw [List.find?_eq_none] at hfind
      exact absurd (decide_eq_true rfl) (hfind _ hmem)
    | some found =>
      have hkey : found.1 = key := by simpa using List.find?_some hfind
      have hentry := entry_unique (List.mem_of_find?_eq_some hfind) hmem hkey
      exact ⟨found, rfl, congrArg Prod.snd hentry⟩

theorem get_eq_none_iff : self.get key = none ↔ ∀ entry ∈ self.entries, entry.1 ≠ key := by
  unfold get
  rw [Option.map_eq_none_iff, List.find?_eq_none]
  simp

variable {entry : K × V}

theorem mem_remove : entry ∈ (self.remove key).entries ↔ entry ∈ self.entries ∧ entry.1 ≠ key := by
  simp [remove]

theorem mem_insert_iff :
    entry ∈ (self.insert key value).entries ↔
      entry = (key, value) ∨ (entry ∈ self.entries ∧ entry.1 ≠ key) := by
  simp only [insert, List.mem_append, List.mem_cons, List.mem_filter, decide_eq_true_eq]
  constructor
  · rintro (⟨hmem, hless⟩ | rfl | ⟨hmem, hgreater⟩)
    · exact .inr ⟨hmem, ne_of_lt hless⟩
    · exact .inl rfl
    · exact .inr ⟨hmem, ne_of_gt hgreater⟩
  · rintro (rfl | ⟨hmem, hne⟩)
    · exact .inr (.inl rfl)
    · obtain hless | hgreater := lt_or_gt_of_ne hne
      · exact .inl ⟨hmem, hless⟩
      · exact .inr (.inr ⟨hmem, hgreater⟩)

theorem get_insert (self : OrderedMap K V) (key : K) (value : V) (query : K) :
    (self.insert key value).get query = if query = key then some value else self.get query := by
  apply Option.ext
  intro found
  rw [get_eq_some_iff, mem_insert_iff, Prod.mk.injEq]
  split
  · rename_i hquery
    simp [hquery, eq_comm]
  · rename_i hquery
    simp [hquery, get_eq_some_iff]

theorem get_remove (self : OrderedMap K V) (key query : K) :
    (self.remove key).get query = if query = key then none else self.get query := by
  apply Option.ext
  intro found
  rw [get_eq_some_iff, mem_remove]
  split
  · rename_i hquery
    simp [hquery]
  · rename_i hquery
    simp [hquery, get_eq_some_iff]

theorem mem_insert (habsent : self.get key = none) :
    entry ∈ (self.insert key value).entries ↔ entry = (key, value) ∨ entry ∈ self.entries := by
  have hother : entry ∈ self.entries → entry.1 ≠ key := get_eq_none_iff.mp habsent entry
  rw [mem_insert_iff, and_iff_left_of_imp hother]

theorem get_remove_eq_none {query : K} (hquery : self.get query = none) :
    (self.remove key).get query = none := by
  rw [get_remove, hquery, ite_self]

theorem get_insert_eq_none {query : K} (hne : query ≠ key) (hquery : self.get query = none) :
    (self.insert key value).get query = none := by
  rw [get_insert, if_neg hne, hquery]

theorem entries_nodup (self : OrderedMap K V) : self.entries.Nodup :=
  self.keys_nodup.of_map _

/-- Under a new key an entry is added. -/
theorem insert_perm (habsent : self.get key = none) :
    (self.insert key value).entries.Perm ((key, value) :: self.entries) := by
  have hnew : (key, value) ∉ self.entries := by
    intro hmem
    exact get_eq_none_iff.mp habsent _ hmem rfl
  rw [List.perm_ext_iff_of_nodup (entries_nodup _) (self.entries_nodup.cons hnew)]
  intro entry
  rw [mem_insert habsent, List.mem_cons]

/-- Under a key that is there an entry is taken away. -/
theorem remove_perm (hget : self.get key = some value) :
    self.entries.Perm ((key, value) :: (self.remove key).entries) := by
  have hmem := get_eq_some_iff.mp hget
  have hgone : (key, value) ∉ (self.remove key).entries := by
    rw [mem_remove]
    exact fun hboth => hboth.2 rfl
  rw [List.perm_ext_iff_of_nodup self.entries_nodup ((entries_nodup _).cons hgone)]
  intro entry
  rw [List.mem_cons, mem_remove]
  constructor
  · intro hentry
    by_cases hkey : entry.1 = key
    · exact .inl (entry_unique hentry hmem hkey)
    · exact .inr ⟨hentry, hkey⟩
  · rintro (rfl | ⟨hentry, _⟩)
    · exact hmem
    · exact hentry

/-- The popped entries come before those that are left. -/
theorem pop_while_append (condition : List (K × V) → Bool) (self : OrderedMap K V) :
    (self.pop_while condition).1 ++ (self.pop_while condition).2.entries = self.entries := by
  obtain ⟨entries, sorted⟩ := self
  induction entries with
  | nil => rfl
  | cons entry entries ih =>
    unfold pop_while pop_while.go
    split
    · exact congrArg (entry :: ·) (ih sorted.of_cons)
    · rfl

theorem mem_of_mem_pop_while {condition : List (K × V) → Bool}
    (hentry : entry ∈ (self.pop_while condition).2.entries) : entry ∈ self.entries := by
  rw [← pop_while_append condition self]
  exact List.mem_append_right _ hentry

theorem get_pop_while_eq_none (condition : List (K × V) → Bool) (hquery : self.get key = none) :
    (self.pop_while condition).2.get key = none := by
  rw [get_eq_none_iff] at hquery ⊢
  intro entry hentry
  exact hquery entry (mem_of_mem_pop_while hentry)

theorem pop_while_len (limit : Nat) (self : OrderedMap K V) :
    (self.pop_while fun entries => limit < entries.length).2.len = min self.len limit := by
  obtain ⟨entries, sorted⟩ := self
  induction entries with
  | nil => simp [pop_while, pop_while.go, len]
  | cons entry entries ih =>
    have hrest := ih sorted.of_cons
    unfold pop_while at hrest ⊢
    unfold pop_while.go
    split
    · rename_i hlong
      simp only [decide_eq_true_eq, List.length_cons] at hlong
      simp only [len, List.length_cons] at hrest ⊢
      omega
    · rename_i hshort
      simp only [decide_eq_true_eq, List.length_cons] at hshort
      simp only [len, List.length_cons]
      omega

theorem lt_of_mem_pop_while {condition : List (K × V) → Bool} {popped kept : K × V}
    (hpopped : popped ∈ (self.pop_while condition).1)
    (hkept : kept ∈ (self.pop_while condition).2.entries) : popped.1 < kept.1 := by
  have hsorted := self.sorted
  rw [← pop_while_append condition self, List.pairwise_append] at hsorted
  exact hsorted.2.2 popped hpopped kept hkept

/-- An entry is popped when the condition holds with it in front. -/
theorem condition_of_mem_pop_while {condition : List (K × V) → Bool}
    (hentry : entry ∈ (self.pop_while condition).1) : ∃ rest, condition (entry :: rest) = true := by
  obtain ⟨entries, sorted⟩ := self
  induction entries with
  | nil => cases hentry
  | cons first entries ih =>
    unfold pop_while pop_while.go at hentry
    split at hentry
    · rename_i hfirst
      obtain rfl | hentry := List.mem_cons.mp hentry
      · exact ⟨entries, hfirst⟩
      · exact ih sorted.of_cons hentry
    · cases hentry

/-- Popping stops where the condition fails or nothing is left. -/
theorem pop_while_stops (condition : List (K × V) → Bool) (self : OrderedMap K V) :
    (self.pop_while condition).2.entries = [] ∨
      condition (self.pop_while condition).2.entries = false := by
  obtain ⟨entries, sorted⟩ := self
  induction entries with
  | nil => exact .inl rfl
  | cons entry entries ih =>
    unfold pop_while pop_while.go
    split
    · exact ih sorted.of_cons
    · rename_i hentry
      exact .inr (Bool.not_eq_true _ ▸ hentry)

/-- A part of the entries is the sorted list that has the same members. -/
theorem filter_eq_of_mem_iff {condition : K × V → Bool} {entries : List (K × V)}
    (hsorted : entries.Pairwise fun left right => left.1 < right.1)
    (hmem : ∀ entry, entry ∈ entries ↔ entry ∈ self.entries ∧ condition entry = true) :
    self.entries.filter condition = entries := by
  have hfilter := self.sorted.filter condition
  have hnodup : ∀ {list : List (K × V)},
      (list.Pairwise fun left right => left.1 < right.1) → list.Nodup := by
    intro list hlist
    exact hlist.imp fun hless heq => absurd (congrArg Prod.fst heq) (ne_of_lt hless)
  have hperm : (self.entries.filter condition).Perm entries := by
    rw [List.perm_ext_iff_of_nodup (hnodup hfilter) (hnodup hsorted)]
    intro entry
    rw [List.mem_filter, hmem]
  refine hperm.eq_of_pairwise ?_ hfilter hsorted
  intro left right _ _ hless hgreater
  exact absurd hgreater (lt_asymm hless)

/-- The entries whose keys number a range are met in the order of the numbers. -/
theorem filter_eq_filterMap_range {condition : K × V → Bool} {key : Nat → K} {low high : Nat}
    (hkey : ∀ n m, n < m → m < high → key n < key m)
    (hrange : ∀ entry ∈ self.entries,
      (condition entry = true ↔ ∃ n, low ≤ n ∧ n < high ∧ entry.1 = key n)) :
    self.entries.filter condition =
      (List.range' low (high - low)).filterMap fun n =>
        (self.get (key n)).map fun value => (key n, value) := by
  apply filter_eq_of_mem_iff
  · have hnumbers : (List.range' low (high - low)).Pairwise (· < ·) := List.pairwise_lt_range'
    rw [List.pairwise_filterMap]
    refine hnumbers.imp_of_mem ?_
    intro n m _ hm hless left hleft right hright
    obtain ⟨_, -, rfl⟩ := Option.map_eq_some_iff.mp hleft
    obtain ⟨_, -, rfl⟩ := Option.map_eq_some_iff.mp hright
    rw [List.mem_range'_1] at hm
    exact hkey n m hless (by omega)
  · intro entry
    simp only [List.mem_filterMap, List.mem_range'_1, Option.map_eq_some_iff, get_eq_some_iff]
    constructor
    · rintro ⟨n, hn, value, hmem, rfl⟩
      exact ⟨hmem, (hrange _ hmem).mpr ⟨n, hn.1, by omega, rfl⟩⟩
    · rintro ⟨hmem, hcondition⟩
      obtain ⟨n, hlow, hhigh, hentry⟩ := (hrange entry hmem).mp hcondition
      refine ⟨n, ⟨hlow, by omega⟩, entry.2, ?_, ?_⟩
      · rw [← hentry]
        exact hmem
      · rw [← hentry]

/-- The keys of such entries are those of the numbers that are there. -/
theorem map_fst_filterMap_get (self : OrderedMap K V) (key : Nat → K) (numbers : List Nat) :
    (numbers.filterMap fun n => (self.get (key n)).map fun value => (key n, value)).map Prod.fst =
      (numbers.filter fun n => (self.get (key n)).isSome).map key := by
  induction numbers with
  | nil => rfl
  | cons n numbers ih =>
    cases hget : self.get (key n) with
    | none | some value => simp [hget, ih]

/-- Seeking from a key finds the first entry that is not before it. -/
theorem find?_le_eq_some {lower : K}
    (hfind : (self.entries.find? fun entry => lower ≤ entry.1) = some entry) :
    entry ∈ self.entries ∧ lower ≤ entry.1 ∧
      ∀ other ∈ self.entries, lower ≤ other.1 → entry.1 ≤ other.1 := by
  obtain ⟨hlower, before, behind, hentries, hbefore⟩ := List.find?_eq_some_iff_append.mp hfind
  have hsorted := self.sorted
  rw [hentries, List.pairwise_append, List.pairwise_cons] at hsorted
  refine ⟨List.mem_of_find?_eq_some hfind, of_decide_eq_true hlower, ?_⟩
  intro other hother hle
  rw [hentries] at hother
  obtain hother | hother := List.mem_append.mp hother
  · have hless := hbefore other hother
    simp [hle] at hless
  · obtain rfl | hother := List.mem_cons.mp hother
    · exact le_rfl
    · exact (hsorted.2.1.1 other hother).le

end OrderedMap
