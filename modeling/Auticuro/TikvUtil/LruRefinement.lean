import Auticuro.Library.Recency
import Auticuro.Library.Run
import Auticuro.TikvUtil.Lru

open LinkedList

namespace tikv_util.lru

variable {K V : Type}

namespace Trace

variable {self : Trace K} {left right cells : List (Nat × K)} {record : Nat} {key : K}

/-- The trace has these records, and its memory nothing else. -/
def Keeps (self : Trace K) (cells : List (Nat × K)) : Prop :=
  Holds self.memory self.head self.tail cells []

theorem new_eq (sample_mask : Nat) :
    ∃ trace : Trace K, new sample_mask = some trace ∧ trace.Keeps [] ∧ trace.tick = 0 ∧
      trace.sample_mask = sample_mask := by
  obtain ⟨memory, hmemory⟩ : ∃ memory,
      memory = ((Memory.empty.alloc ⟨1, 1, none⟩).2.alloc (⟨1, 1, none⟩ : Record K)).2 := ⟨_, rfl⟩
  have hfresh : memory.fresh = 4 := by rw [hmemory]; rfl
  have hrecords : ∀ address, memory.records address ≠ none ↔ address ∈ [2, 3] := by
    intro address
    rw [hmemory]
    by_cases htail : address = 3
    · simp [htail, Memory.alloc, Memory.empty, Memory.write_records]
    · by_cases hhead : address = 2
      · simp [hhead, Memory.alloc, Memory.empty, Memory.write_records]
      · simp [htail, hhead, Memory.alloc, Memory.empty, Memory.write_records]
  have hhead := (hrecords 2).mpr (by simp)
  have htail := (hrecords 3).mpr (by simp)
  have hlink : suture memory 2 3 = some (memory.linked 2 3) := Memory.link_eq hhead htail
  refine ⟨⟨memory.linked 2 3, 2, 3, 0, sample_mask⟩, ?_, ?_, rfl, rfl⟩
  · rw [hmemory] at hlink ⊢
    unfold new
    exact congrArg (Option.bind · _) hlink
  · exact {
      chain := by
        change [2, 3].IsChain _
        rw [List.isChain_cons_cons]
        exact ⟨Adjacent.linked_self hhead htail, .singleton 3⟩
      nodup := by simp [addresses]
      keyed := by rintro cell ⟨⟩
      allocated := by
        intro address
        rw [Ne, Memory.linked_eq_none_iff]
        exact hrecords address
      fresh := by
        intro address haddress
        change address ∈ [2, 3] at haddress
        change address < memory.fresh
        rw [hfresh]
        simp at haddress
        omega }

theorem promote_eq (hkeeps : self.Keeps (left ++ (record, key) :: right)) :
    ∃ memory, self.promote record = some { self with memory := memory } ∧
      { self with memory := memory }.Keeps ((record, key) :: (left ++ right)) := by
  obtain ⟨detached, hdetached, hspare, hkey⟩ := hkeeps.unlink
  obtain ⟨memory, hmemory, hholds⟩ := hspare.push_front hkey
  refine ⟨memory, ?_, hholds⟩
  simp [promote, cut_out, hdetached, hmemory]

theorem delete_eq (hkeeps : self.Keeps (left ++ (record, key) :: right)) :
    ∃ memory, self.delete record = some { self with memory := memory } ∧
      { self with memory := memory }.Keeps (left ++ right) := by
  obtain ⟨detached, hdetached, hspare, hkey⟩ := hkeeps.unlink
  obtain ⟨freed, memory, hmemory, -, hholds⟩ := hspare.free hkey
  refine ⟨memory, ?_, hholds⟩
  simp [delete, cut_out, hdetached, hmemory]

theorem create_eq (hkeeps : self.Keeps cells) (key : K) :
    ∃ record memory, self.create key = some (record, { self with memory := memory }) ∧
      { self with memory := memory }.Keeps ((record, key) :: cells) := by
  obtain ⟨memory, hmemory, hholds⟩ := hkeeps.insert_front key
  refine ⟨_, memory, ?_, hholds⟩
  simp [create, hmemory]

/-- The record before the tail is the last one. -/
theorem records_tail (hkeeps : self.Keeps (left ++ [(record, key)])) :
    ∃ tail, self.memory.records self.tail = some tail ∧ tail.prev = record := by
  obtain ⟨-, -, before, behind, -, hbehind, -, hadjacent⟩ := hkeeps.neighbours
  cases hbehind
  exact Option.map_eq_some_iff.mp hadjacent.2

theorem reuse_tail_eq {old_key : K} (hkeeps : self.Keeps (left ++ [(record, old_key)])) (key : K) :
    ∃ memory, self.reuse_tail key = some (old_key, record, { self with memory := memory }) ∧
      { self with memory := memory }.Keeps ((record, key) :: left) := by
  obtain ⟨tail, htail, hprev⟩ := records_tail hkeeps
  obtain ⟨detached, hdetached, hspare, hkey⟩ := hkeeps.unlink
  obtain ⟨pushed, hpushed, hfront⟩ := hspare.push_front hkey
  rw [List.append_nil] at hfront
  obtain ⟨memory, hmemory, hholds⟩ := hfront.set_key key
  obtain ⟨reused, hreused, hold⟩ :=
    Option.map_eq_some_iff.mp (hfront.keyed (record, old_key) List.mem_cons_self)
  refine ⟨memory, ?_, hholds⟩
  simp [reuse_tail, cut_out, htail, hprev, hdetached, hpushed, hreused, hold, hmemory]

theorem remove_tail_eq {old_key : K} (hkeeps : self.Keeps (left ++ [(record, old_key)])) :
    ∃ memory, self.remove_tail = some (old_key, { self with memory := memory }) ∧
      { self with memory := memory }.Keeps left := by
  obtain ⟨tail, htail, hprev⟩ := records_tail hkeeps
  obtain ⟨detached, hdetached, hspare, hkey⟩ := hkeeps.unlink
  rw [List.append_nil] at hspare
  obtain ⟨freed, memory, hmemory, hold, hholds⟩ := hspare.free hkey
  refine ⟨memory, ?_, hholds⟩
  simp [remove_tail, cut_out, htail, hprev, hdetached, hmemory, hold]

theorem clear_eq (hkeeps : self.Keeps cells) :
    ∃ memory, self.clear = some { self with memory := memory } ∧
      { self with memory := memory }.Keeps [] := by
  obtain ⟨head, freed, memory, hhead, hfreed, hlink, hholds⟩ := hkeeps.clear
  refine ⟨memory, ?_, hholds⟩
  simp [clear, suture, hhead, hfreed, hlink]

end Trace

/-- The cache as what it is for: the entries by their last use. -/
structure LruSpec (K V : Type) where
  entries : List (K × V)
  capacity : Nat
  tick : Nat
  sample_mask : Nat

inductive Operation (K V : Type) where
  | insert (key : K) (value : V)
  | remove (key : K)
  | get (key : K)
  | get_mut (key : K) (f : V → V)
  | resize (new_cap : Nat)
  | clear

variable [DecidableEq K]

namespace LruSpec

def with_capacity_and_sample (capacity sample_mask : Nat) : LruSpec K V where
  entries := []
  capacity := if capacity = 0 then 1 else capacity
  tick := 0
  sample_mask := sample_mask

/-- A hit counts as a use when it is sampled. -/
def hit (self : LruSpec K V) (key : K) : LruSpec K V :=
  let tick := U64.wrapping_add self.tick 1
  { self with
    tick := tick
    entries := if tick &&& self.sample_mask = 0 then Recency.promote key self.entries
      else self.entries }

/-- A step with its answer. -/
def step (self : LruSpec K V) : Operation K V → LruSpec K V × Option V
  | .insert key value =>
    ({ self with entries := Recency.insert self.capacity key value self.entries }, none)
  | .remove key =>
    ({ self with entries := Recency.without key self.entries }, Recency.get key self.entries)
  | .get key =>
    match Recency.get key self.entries with
    | some value => (self.hit key, some value)
    | none => (self, none)
  | .get_mut key f =>
    match Recency.get key self.entries with
    | some value =>
      ({ self.hit key with entries := Recency.update key f (self.hit key).entries }, some value)
    | none => (self, none)
  | .resize new_cap =>
    let new_cap := if new_cap = 0 then 1 else new_cap
    ({ self with entries := self.entries.take new_cap, capacity := new_cap }, none)
  | .clear => ({ self with entries := [] }, none)

end LruSpec

namespace LruCache

def step (self : LruCache K V CountTracker) :
    Operation K V → Option (LruCache K V CountTracker × Option V)
  | .insert key value => (self.insert key value).map (·, none)
  | .remove key => self.remove key
  | .get key => self.get key
  | .get_mut key f => self.get_mut key f
  | .resize new_cap => (self.resize new_cap).map (·, none)
  | .clear => self.clear.map (·, none)

end LruCache

/-- The map has an entry for each cell, with the address of its record. -/
def Indexes (map : Finmap fun _ : K => ValueEntry V) (cells : List (Nat × K × V)) : Prop :=
  ∀ key entry, map.lookup key = some entry ↔ (entry.record, key, entry.value) ∈ cells

namespace Indexes

variable {map other : Finmap fun _ : K => ValueEntry V} {cells left right : List (Nat × K × V)}
  {key : K} {value : V} {record : Nat}

theorem congr (hindexes : Indexes map cells) (hmap : ∀ key, other.lookup key = map.lookup key)
    {later : List (Nat × K × V)} (hcells : ∀ cell, cell ∈ later ↔ cell ∈ cells) :
    Indexes other later := by
  intro key entry
  rw [hmap, hcells]
  exact hindexes key entry

theorem lookup_eq_none (hindexes : Indexes map cells) :
    map.lookup key = none ↔ key ∉ cells.map fun cell => cell.2.1 := by
  constructor
  · intro hnone hmem
    obtain ⟨⟨record, key, value⟩, hcell, rfl⟩ := List.mem_map.mp hmem
    have hsome := (hindexes key ⟨value, record⟩).mpr hcell
    cases hnone.symm.trans hsome
  · intro habsent
    by_contra hpresent
    obtain ⟨entry, hentry⟩ := Option.ne_none_iff_exists'.mp hpresent
    exact habsent (List.mem_map.mpr ⟨_, (hindexes key entry).mp hentry, rfl⟩)

theorem insert (hindexes : Indexes map cells) (habsent : key ∉ cells.map fun cell => cell.2.1) :
    Indexes (map.insert key ⟨value, record⟩) ((record, key, value) :: cells) := by
  intro query entry
  rw [Finmap.lookup_insert_eq_ite, List.mem_cons]
  split
  · next heq =>
    subst heq
    constructor
    · intro hentry
      cases hentry
      exact .inl rfl
    · rintro (heq | hmem)
      · cases heq
        rfl
      · exact absurd (List.mem_map.mpr ⟨_, hmem, rfl⟩) habsent
  · next hne =>
    rw [hindexes]
    constructor
    · exact .inr
    · rintro (heq | hmem)
      · cases heq
        exact absurd rfl hne
      · exact hmem

theorem erase (hindexes : Indexes map (left ++ (record, key, value) :: right))
    (hnodup : ((left ++ (record, key, value) :: right).map fun cell => cell.2.1).Nodup) :
    Indexes (map.erase key) (left ++ right) := by
  rw [List.map_append, List.map_cons, List.nodup_middle, List.nodup_cons, ← List.map_append]
    at hnodup
  intro query entry
  rw [Finmap.lookup_erase_eq_ite]
  split
  · next heq =>
    subst heq
    constructor
    · rintro ⟨⟩
    · intro hmem
      exact absurd (List.mem_map.mpr ⟨_, hmem, rfl⟩) hnodup.1
  · next hne =>
    rw [hindexes]
    simp only [List.mem_append, List.mem_cons]
    constructor
    · rintro (hmem | heq | hmem)
      · exact .inl hmem
      · cases heq
        exact absurd rfl hne
      · exact .inr hmem
    · rintro (hmem | hmem)
      · exact .inl hmem
      · exact .inr (.inr hmem)

/-- An entry changes its value and moves. -/
theorem replace (hindexes : Indexes map (left ++ (record, key, value) :: right))
    (hnodup : ((left ++ (record, key, value) :: right).map fun cell => cell.2.1).Nodup)
    (next : V) :
    Indexes (map.insert key ⟨next, record⟩) ((record, key, next) :: (left ++ right)) := by
  have habsent := hnodup
  rw [List.map_append, List.map_cons, List.nodup_middle, List.nodup_cons, ← List.map_append]
    at habsent
  refine ((hindexes.erase hnodup).insert habsent.1).congr (fun query => ?_) fun _ => Iff.rfl
  simp only [Finmap.lookup_insert_eq_ite, Finmap.lookup_erase_eq_ite]
  split
  · rfl
  · rfl

end Indexes

/-- The cells stand for the entries of the specification in its order: the trace has
their records, and the map finds them. -/
structure Represents (cache : LruCache K V CountTracker) (spec : LruSpec K V)
    (cells : List (Nat × K × V)) : Prop where
  trace : cache.trace.Keeps (cells.map fun cell => (cell.1, cell.2.1))
  indexes : Indexes cache.map cells
  entries : spec.entries = cells.map Prod.snd
  nodup : (cells.map fun cell => cell.2.1).Nodup
  count : cache.size_policy.count = cells.length
  bounded : cells.length ≤ spec.capacity
  positive : 0 < spec.capacity
  capacity : cache.capacity = spec.capacity
  tick : cache.trace.tick = spec.tick
  sample_mask : cache.trace.sample_mask = spec.sample_mask

namespace Represents

variable {cache : LruCache K V CountTracker} {spec : LruSpec K V}
  {cells left right : List (Nat × K × V)} {key : K} {value : V} {record : Nat}
  {entry : ValueEntry V}

section

variable (hrep : Represents cache spec cells)
include hrep

theorem keys_entries : Recency.keys spec.entries = cells.map fun cell => cell.2.1 := by
  rw [hrep.entries, Recency.keys, List.map_map]
  rfl

theorem nodup_keys : (Recency.keys spec.entries).Nodup := by
  rw [hrep.keys_entries]
  exact hrep.nodup

theorem length_entries : spec.entries.length = cells.length := by
  rw [hrep.entries, List.length_map]

theorem len_eq : cache.len = cells.length := by
  have hkeys : cache.map.keys = (cells.map fun cell => cell.2.1).toFinset := by
    ext key
    rw [Finmap.mem_keys, List.mem_toFinset, ← not_iff_not, ← hrep.indexes.lookup_eq_none,
      Finmap.lookup_eq_none]
  unfold LruCache.len
  rw [hkeys, List.toFinset_card_of_nodup hrep.nodup, List.length_map]

theorem split (hentry : cache.map.lookup key = some entry) :
    ∃ left right, cells = left ++ (entry.record, key, entry.value) :: right :=
  List.append_of_mem ((hrep.indexes key entry).mp hentry)

end

section

variable (hrep : Represents cache spec (left ++ (record, key, value) :: right))
include hrep

/-- The entries on both sides of one that the map finds. -/
theorem entries_split : spec.entries = left.map Prod.snd ++ (key, value) :: right.map Prod.snd := by
  rw [hrep.entries, List.map_append, List.map_cons]

theorem nodup_split :
    key ∉ ((left ++ right).map fun cell => cell.2.1) ∧
      ((left ++ right).map fun cell => cell.2.1).Nodup := by
  have hnodup := hrep.nodup
  rwa [List.map_append, List.map_cons, List.nodup_middle, List.nodup_cons, ← List.map_append]
    at hnodup

theorem nodup_entries :
    (Recency.keys (left.map Prod.snd ++ (key, value) :: right.map Prod.snd)).Nodup := by
  rw [← hrep.entries_split]
  exact hrep.nodup_keys

theorem count_pos : 1 ≤ cache.size_policy.count := by
  rw [hrep.count, List.length_append, List.length_cons]
  omega

end

/-- Other entries in the same room. -/
theorem change (hrep : Represents cache spec cells) {memory : Memory K}
    {map : Finmap fun _ : K => ValueEntry V} {count : Nat} {later : List (Nat × K × V)}
    {entries : List (K × V)}
    (htrace : Trace.Keeps { cache.trace with memory := memory }
      (later.map fun cell => (cell.1, cell.2.1)))
    (hindexes : Indexes map later) (hentries : entries = later.map Prod.snd)
    (hnodup : (later.map fun cell => cell.2.1).Nodup) (hcount : count = later.length)
    (hbounded : later.length ≤ spec.capacity) :
    Represents
      { cache with
        map := map, trace := { cache.trace with memory := memory }, size_policy := ⟨count⟩ }
      { spec with entries := entries } later where
  trace := htrace
  indexes := hindexes
  entries := hentries
  nodup := hnodup
  count := hcount
  bounded := hbounded
  positive := hrep.positive
  capacity := hrep.capacity
  tick := hrep.tick
  sample_mask := hrep.sample_mask

theorem get_eq (hrep : Represents cache spec cells) (key : K) :
    (cache.map.lookup key).map ValueEntry.value = Recency.get key spec.entries := by
  cases hentry : cache.map.lookup key with
  | none =>
    rw [Recency.get_eq_none]
    · rfl
    · rw [hrep.keys_entries]
      exact hrep.indexes.lookup_eq_none.mp hentry
  | some entry =>
    obtain ⟨left, right, rfl⟩ := hrep.split hentry
    rw [hrep.entries_split, Recency.get_split hrep.nodup_entries]
    rfl

theorem with_capacity_and_sample (capacity sample_mask : Nat) :
    ∃ cache : LruCache K V CountTracker,
      LruCache.with_capacity_and_sample capacity sample_mask = some cache ∧
      Represents cache (LruSpec.with_capacity_and_sample capacity sample_mask) [] := by
  obtain ⟨trace, htrace, hkeeps, htick, hmask⟩ := Trace.new_eq (K := K) sample_mask
  refine ⟨⟨∅, trace, if capacity = 0 then 1 else capacity, ⟨0⟩⟩, ?_, ?_⟩
  · simp [LruCache.with_capacity_and_sample, LruCache.with_capacity_sample_and_trace, htrace]
  · exact {
      trace := hkeeps
      indexes := by
        intro key entry
        simp
      entries := rfl
      nodup := .nil
      count := rfl
      bounded := Nat.zero_le _
      positive := by
        unfold LruSpec.with_capacity_and_sample
        dsimp only
        split
        · exact Nat.one_pos
        · exact Nat.pos_of_ne_zero ‹_›
      capacity := rfl
      tick := htick
      sample_mask := hmask }

theorem clear (hrep : Represents cache spec cells) :
    ∃ next, cache.clear = some next ∧ Represents next { spec with entries := [] } [] := by
  obtain ⟨memory, hclear, hkeeps⟩ := Trace.clear_eq hrep.trace
  refine ⟨⟨∅, { cache.trace with memory := memory }, cache.capacity, ⟨0⟩⟩, ?_, ?_⟩
  · unfold LruCache.clear
    rw [hclear]
    rfl
  · refine hrep.change hkeeps (fun key entry => ?_) rfl .nil rfl (Nat.zero_le _)
    simp

section

variable (hrep : Represents cache spec (left ++ (record, key, value) :: right))
include hrep

theorem remove :
    ∃ memory, cache.trace.delete record = some { cache.trace with memory := memory } ∧
      Represents
        { cache with
          map := cache.map.erase key
          trace := { cache.trace with memory := memory }
          size_policy := ⟨cache.size_policy.count - 1⟩ }
        { spec with entries := Recency.without key spec.entries } (left ++ right) := by
  have hkeeps := hrep.trace
  rw [List.map_append, List.map_cons] at hkeeps
  obtain ⟨memory, hdelete, hafter⟩ := Trace.delete_eq hkeeps
  rw [← List.map_append] at hafter
  have hlength : (left ++ (record, key, value) :: right).length = (left ++ right).length + 1 := by
    simp only [List.length_append, List.length_cons]
    omega
  have hbounded := hrep.bounded
  have hcount := hrep.count
  rw [hlength] at hbounded hcount
  refine ⟨memory, hdelete, hrep.change hafter (hrep.indexes.erase hrep.nodup) ?_
    hrep.nodup_split.2 (by omega) (Nat.le_of_succ_le hbounded)⟩
  rw [hrep.entries_split, List.map_append]
  exact Recency.without_split hrep.nodup_entries

/-- What a hit may do to the order. -/
theorem promote :
    ∃ memory, cache.trace.promote record = some { cache.trace with memory := memory } ∧
      Represents { cache with trace := { cache.trace with memory := memory } }
        { spec with entries := Recency.promote key spec.entries }
        ((record, key, value) :: (left ++ right)) := by
  have hkeeps := hrep.trace
  rw [List.map_append, List.map_cons] at hkeeps
  obtain ⟨memory, hpromote, hafter⟩ := Trace.promote_eq hkeeps
  rw [← List.map_append] at hafter
  have hperm : ((record, key, value) :: (left ++ right)).Perm
      (left ++ (record, key, value) :: right) := List.perm_middle.symm
  refine ⟨memory, hpromote, hrep.change hafter
    (hrep.indexes.congr (fun _ => rfl) fun _ => hperm.mem_iff) ?_
    (((hperm.map _).nodup_iff).mpr hrep.nodup) (hrep.count.trans hperm.length_eq.symm)
    (hperm.length_eq.le.trans hrep.bounded)⟩
  rw [hrep.entries_split, List.map_cons, List.map_append]
  exact Recency.promote_split hrep.nodup_entries

/-- A value changes where it is. -/
theorem update (f : V → V) :
    Represents { cache with map := cache.map.insert key ⟨f value, record⟩ }
      { spec with entries := Recency.update key f spec.entries }
      (left ++ (record, key, f value) :: right) := by
  have hlength : (left ++ (record, key, f value) :: right).length =
      (left ++ (record, key, value) :: right).length := by
    rw [List.length_append, List.length_append, List.length_cons, List.length_cons]
  refine hrep.change ?_ ((hrep.indexes.replace hrep.nodup (f value)).congr (fun _ => rfl)
    fun _ => List.perm_middle.mem_iff) ?_ ?_ (hrep.count.trans hlength.symm)
    (hlength.le.trans hrep.bounded)
  · have hkeeps := hrep.trace
    rwa [List.map_append, List.map_cons] at hkeeps ⊢
  · rw [hrep.entries_split, List.map_append, List.map_cons]
    exact Recency.update_split hrep.nodup_entries f
  · have hbefore := hrep.nodup
    rwa [List.map_append, List.map_cons] at hbefore ⊢

end

theorem advance_tick (hrep : Represents cache spec cells) :
    Represents
      { cache with trace := { cache.trace with tick := U64.wrapping_add cache.trace.tick 1 } }
      { spec with tick := U64.wrapping_add spec.tick 1 } cells where
  trace := hrep.trace
  indexes := hrep.indexes
  entries := hrep.entries
  nodup := hrep.nodup
  count := hrep.count
  bounded := hrep.bounded
  positive := hrep.positive
  capacity := hrep.capacity
  tick := by rw [hrep.tick]
  sample_mask := hrep.sample_mask

theorem maybe_promote (hrep : Represents cache spec cells)
    (hentry : cache.map.lookup key = some entry) :
    ∃ trace cells, cache.trace.maybe_promote entry.record = some trace ∧
      Represents { cache with trace := trace } (spec.hit key) cells := by
  have hsampled : U64.wrapping_add cache.trace.tick 1 &&& cache.trace.sample_mask = 0 ↔
      U64.wrapping_add spec.tick 1 &&& spec.sample_mask = 0 := by
    rw [hrep.tick, hrep.sample_mask]
  unfold Trace.maybe_promote LruSpec.hit
  dsimp only
  by_cases hpromoted : U64.wrapping_add spec.tick 1 &&& spec.sample_mask = 0
  · obtain ⟨left, right, rfl⟩ := hrep.split hentry
    obtain ⟨memory, hpromote, hafter⟩ := hrep.advance_tick.promote
    rw [if_pos (hsampled.mpr hpromoted), if_pos hpromoted]
    exact ⟨_, _, hpromote, hafter⟩
  · rw [if_neg (fun hzero => hpromoted (hsampled.mp hzero)), if_neg hpromoted]
    exact ⟨_, _, rfl, hrep.advance_tick⟩

theorem insert_present (hrep : Represents cache spec (left ++ (record, key, value) :: right))
    (other : V) :
    ∃ memory, cache.trace.promote record = some { cache.trace with memory := memory } ∧
      Represents
        { cache with
          map := cache.map.insert key ⟨other, record⟩
          trace := { cache.trace with memory := memory }
          size_policy := ⟨cache.size_policy.count - 1 + 1⟩ }
        { spec with entries := Recency.insert spec.capacity key other spec.entries }
        ((record, key, other) :: (left ++ right)) := by
  obtain ⟨memory, hpromote, hmoved⟩ := hrep.promote
  rw [← List.nil_append ((record, key, value) :: (left ++ right))] at hmoved
  have hafter := hmoved.update fun _ => other
  refine ⟨memory, hpromote, hrep.change hafter.trace hafter.indexes ?_ hafter.nodup
    ((Nat.sub_add_cancel hrep.count_pos).trans hafter.count) hafter.bounded⟩
  rw [hrep.entries_split, List.map_cons, List.map_append]
  exact Recency.insert_split hrep.nodup_entries spec.capacity other

theorem insert_vacant (hrep : Represents cache spec cells)
    (habsent : key ∉ cells.map fun cell => cell.2.1) (hroom : cells.length < spec.capacity)
    (value : V) :
    ∃ record memory,
      cache.trace.create key = some (record, { cache.trace with memory := memory }) ∧
      Represents
        { cache with
          map := cache.map.insert key ⟨value, record⟩
          trace := { cache.trace with memory := memory }
          size_policy := ⟨cache.size_policy.count + 1⟩ }
        { spec with entries := Recency.insert spec.capacity key value spec.entries }
        ((record, key, value) :: cells) := by
  obtain ⟨record, memory, hcreate, hafter⟩ := Trace.create_eq hrep.trace key
  refine ⟨record, memory, hcreate, hrep.change hafter (hrep.indexes.insert habsent) ?_
    (List.nodup_cons.mpr ⟨habsent, hrep.nodup⟩) (congrArg (· + 1) hrep.count) hroom⟩
  rw [← hrep.length_entries] at hroom
  rw [← hrep.keys_entries] at habsent
  rw [List.map_cons, ← hrep.entries]
  unfold Recency.insert
  rw [if_neg habsent, if_neg (Nat.not_le.mpr hroom)]

/-- The entry that was not used for the longest time makes place: its record is reused, and
its key is removed from the map after the new one was added. -/
theorem insert_full {old_key : K} {old : V}
    (hrep : Represents cache spec (left ++ [(record, old_key, old)]))
    (habsent : key ∉ (left ++ [(record, old_key, old)]).map fun cell => cell.2.1)
    (hfull : spec.capacity ≤ (left ++ [(record, old_key, old)]).length) (value : V) :
    ∃ memory,
      cache.trace.reuse_tail key =
        some (old_key, record, { cache.trace with memory := memory }) ∧
      (cache.map.insert key ⟨value, record⟩).lookup old_key = some ⟨old, record⟩ ∧
      Represents
        { cache with
          map := (cache.map.insert key ⟨value, record⟩).erase old_key
          trace := { cache.trace with memory := memory }
          size_policy := ⟨cache.size_policy.count + 1 - 1⟩ }
        { spec with entries := Recency.insert spec.capacity key value spec.entries }
        ((record, key, value) :: left) := by
  have hkeeps := hrep.trace
  rw [List.map_append] at hkeeps
  obtain ⟨memory, hreuse, hafter⟩ := Trace.reuse_tail_eq hkeeps key
  have hinserted : Indexes (cache.map.insert key ⟨value, record⟩)
      ((record, key, value) :: (left ++ [(record, old_key, old)])) := hrep.indexes.insert habsent
  have hnodup : (((record, key, value) :: (left ++ [(record, old_key, old)])).map
      fun cell => cell.2.1).Nodup := List.nodup_cons.mpr ⟨habsent, hrep.nodup⟩
  rw [← List.cons_append] at hinserted hnodup
  have herased := hinserted.erase hnodup
  rw [List.append_nil] at herased
  have hcount := hrep.count
  have hbounded := hrep.bounded
  rw [List.length_append] at hcount hbounded
  refine ⟨memory, hreuse, (hinserted old_key ⟨old, record⟩).mpr (by simp),
    hrep.change hafter herased ?_ ?_ hcount hbounded⟩
  · rw [← hrep.length_entries] at hfull
    rw [← hrep.keys_entries] at habsent
    unfold Recency.insert
    rw [if_neg habsent, if_pos hfull, hrep.entries, List.map_append, List.map_cons,
      List.map_nil, List.dropLast_concat, List.map_cons]
  · exact hnodup.sublist (((List.sublist_append_left left _).cons_cons _).map _)

theorem insert (hrep : Represents cache spec cells) (key : K) (value : V) :
    ∃ next cells, cache.insert key value = some next ∧
      Represents next
        { spec with entries := Recency.insert spec.capacity key value spec.entries } cells := by
  unfold LruCache.insert
  cases hentry : cache.map.lookup key with
  | some entry =>
    obtain ⟨left, right, rfl⟩ := hrep.split hentry
    obtain ⟨memory, hpromote, hafter⟩ := hrep.insert_present value
    refine ⟨_, _, ?_, hafter⟩
    simp [SizePolicy.on_remove, SizePolicy.on_insert, U64.checked_sub_of_le hrep.count_pos,
      hpromote]
  | none =>
    have habsent := hrep.indexes.lookup_eq_none.mp hentry
    have hsize : cache.size = cells.length := hrep.count
    dsimp only
    rw [hsize, hrep.capacity]
    by_cases hfull : spec.capacity ≤ cells.length
    · rw [if_pos hfull]
      obtain hnil | ⟨left, ⟨record, old_key, old⟩, rfl⟩ := List.eq_nil_or_concat' cells
      · have hpositive := hrep.positive
        rw [hnil, List.length_nil] at hfull
        omega
      · obtain ⟨memory, hreuse, hlookup, hafter⟩ := hrep.insert_full habsent hfull value
        refine ⟨_, _, ?_, hafter⟩
        simp [hreuse, LruCache.remove_old_key, hlookup, SizePolicy.on_remove,
          SizePolicy.on_insert, U64.checked_sub_of_le, hrep.capacity]
    · rw [if_neg hfull]
      obtain ⟨record, memory, hcreate, hafter⟩ :=
        hrep.insert_vacant habsent (Nat.not_le.mp hfull) value
      refine ⟨_, _, ?_, hafter⟩
      simp [hcreate, LruCache.remove_old_key, SizePolicy.on_insert, hrep.capacity]

/-- One round of the loop of `resize`. -/
theorem remove_tail {old_key : K} {old : V}
    (hrep : Represents cache spec (left ++ [(record, old_key, old)])) :
    ∃ memory,
      cache.trace.remove_tail = some (old_key, { cache.trace with memory := memory }) ∧
      Represents
        { cache with
          map := cache.map.erase old_key
          trace := { cache.trace with memory := memory }
          size_policy := ⟨cache.size_policy.count - 1⟩ }
        { spec with entries := left.map Prod.snd } left := by
  have hkeeps := hrep.trace
  rw [List.map_append] at hkeeps
  obtain ⟨memory, hremove, hafter⟩ := Trace.remove_tail_eq hkeeps
  have herased := hrep.indexes.erase hrep.nodup
  rw [List.append_nil] at herased
  have hbounded := hrep.bounded
  have hcount := hrep.count
  rw [List.length_append, List.length_singleton] at hbounded hcount
  exact ⟨memory, hremove, hrep.change hafter herased rfl
    (hrep.nodup.sublist ((List.sublist_append_left left _).map _)) (by omega) (by omega)⟩

theorem remove_tails (hrep : Represents cache spec cells) {count : Nat}
    (hcount : count ≤ cells.length) :
    ∃ next, LruCache.remove_tails count cache = some next ∧
      Represents next
        { spec with entries := (cells.take (cells.length - count)).map Prod.snd }
        (cells.take (cells.length - count)) := by
  induction count generalizing cache spec cells with
  | zero =>
    refine ⟨cache, rfl, ?_⟩
    rw [Nat.sub_zero, List.take_length, ← hrep.entries]
    exact hrep
  | succ count ih =>
    obtain rfl | ⟨left, ⟨record, old_key, old⟩, rfl⟩ := List.eq_nil_or_concat' cells
    · cases hcount
    · obtain ⟨memory, hremove, hround⟩ := hrep.remove_tail
      have hentry := (hrep.indexes old_key ⟨old, record⟩).mpr (by simp)
      rw [List.length_append, List.length_singleton] at hcount ⊢
      obtain ⟨next, hnext, hafter⟩ := ih hround (Nat.le_of_succ_le_succ hcount)
      rw [Nat.add_sub_add_right, List.take_append_of_le_length (by omega)]
      refine ⟨next, ?_, hafter⟩
      rw [← hnext]
      simp [LruCache.remove_tails, hremove, hentry, SizePolicy.on_remove,
        U64.checked_sub_of_le hrep.count_pos]

theorem resize (hrep : Represents cache spec cells) (new_cap : Nat) :
    ∃ next cells, cache.resize new_cap = some next ∧
      Represents next (spec.step (.resize new_cap)).1 cells := by
  obtain ⟨capacity, hcapacity⟩ : ∃ capacity, capacity = if new_cap = 0 then 1 else new_cap :=
    ⟨_, rfl⟩
  have hpositive : 0 < capacity := by
    rw [hcapacity]
    split
    · exact Nat.one_pos
    · exact Nat.pos_of_ne_zero ‹_›
  -- The loop leaves as many entries as the new capacity allows.
  have hloop : ∃ next, (if capacity < cache.capacity ∧ capacity < cache.len then
        LruCache.remove_tails (cache.len - capacity) cache else some cache) = some next ∧
      Represents next { spec with entries := (cells.take capacity).map Prod.snd }
        (cells.take capacity) := by
    rw [hrep.len_eq, hrep.capacity]
    by_cases hshrink : capacity < spec.capacity ∧ capacity < cells.length
    · rw [if_pos hshrink]
      obtain ⟨next, hnext, hafter⟩ := hrep.remove_tails (Nat.sub_le cells.length capacity)
      rw [Nat.sub_sub_self hshrink.2.le] at hafter
      exact ⟨next, hnext, hafter⟩
    · have hfits : cells.length ≤ capacity := by
        have hbounded := hrep.bounded
        omega
      rw [if_neg hshrink, List.take_of_length_le hfits, ← hrep.entries]
      exact ⟨cache, rfl, hrep⟩
  obtain ⟨next, hnext, hafter⟩ := hloop
  refine ⟨{ next with capacity := capacity }, cells.take capacity, ?_, ?_⟩
  · unfold LruCache.resize
    dsimp only
    rw [← hcapacity, hnext]
    rfl
  · unfold LruSpec.step
    dsimp only
    rw [← hcapacity]
    exact {
      trace := hafter.trace
      indexes := hafter.indexes
      entries := by rw [hrep.entries, List.map_take]
      nodup := hafter.nodup
      count := hafter.count
      bounded := by simp
      positive := hpositive
      capacity := rfl
      tick := hafter.tick
      sample_mask := hafter.sample_mask }

theorem step (hrep : Represents cache spec cells) (operation : Operation K V) :
    ∃ next cells, cache.step operation = some (next, (spec.step operation).2) ∧
      Represents next (spec.step operation).1 cells := by
  cases operation with
  | insert key value =>
    obtain ⟨next, cells, hnext, hafter⟩ := hrep.insert key value
    exact ⟨next, cells, congrArg (Option.map (·, none)) hnext, hafter⟩
  | resize new_cap =>
    obtain ⟨next, cells, hnext, hafter⟩ := hrep.resize new_cap
    exact ⟨next, cells, congrArg (Option.map (·, none)) hnext, hafter⟩
  | clear =>
    obtain ⟨next, hnext, hafter⟩ := hrep.clear
    exact ⟨next, [], congrArg (Option.map (·, none)) hnext, hafter⟩
  | remove key =>
    have hget := hrep.get_eq key
    unfold LruCache.step LruSpec.step LruCache.remove
    dsimp only
    rw [← hget]
    cases hentry : cache.map.lookup key with
    | none =>
      have habsent := hrep.indexes.lookup_eq_none.mp hentry
      rw [← hrep.keys_entries] at habsent
      rw [Recency.without_eq_self habsent]
      exact ⟨cache, cells, rfl, hrep⟩
    | some entry =>
      obtain ⟨left, right, rfl⟩ := hrep.split hentry
      obtain ⟨memory, hdelete, hafter⟩ := hrep.remove
      refine ⟨_, _, ?_, hafter⟩
      simp [hdelete, SizePolicy.on_remove, U64.checked_sub_of_le hrep.count_pos]
  | get key =>
    have hget := hrep.get_eq key
    unfold LruCache.step LruSpec.step LruCache.get
    dsimp only
    rw [← hget]
    cases hentry : cache.map.lookup key with
    | none => exact ⟨cache, cells, rfl, hrep⟩
    | some entry =>
      obtain ⟨trace, cells, hpromote, hafter⟩ := hrep.maybe_promote hentry
      refine ⟨_, _, ?_, hafter⟩
      simp [hpromote]
  | get_mut key f =>
    have hget := hrep.get_eq key
    unfold LruCache.step LruSpec.step LruCache.get_mut
    dsimp only
    rw [← hget]
    cases hentry : cache.map.lookup key with
    | none => exact ⟨cache, cells, rfl, hrep⟩
    | some entry =>
      obtain ⟨trace, cells, hpromote, hhit⟩ := hrep.maybe_promote hentry
      obtain ⟨left, right, rfl⟩ := hhit.split hentry
      refine ⟨_, _, ?_, hhit.update f⟩
      simp [hpromote]

end Represents

/-- Every run of the cache goes through: no pointer is followed to a record that was freed,
no record is freed twice, no key of the trace is missing in the map and the count does
not underflow. The answers and the contents are those of the list of entries by their
last use, of which there are never more than the capacity, and the memory has the
record of each entry, in this order, and nothing else. -/
theorem lru_cache_refines_recency (capacity sample_mask : Nat)
    (operations : List (Operation K V)) :
    ∃ start last : LruCache K V CountTracker, ∃ cells,
      LruCache.with_capacity_and_sample capacity sample_mask = some start ∧
      Run.run (Run.answering LruCache.step) (start, []) operations =
        some (last, (operations.foldl (Run.answered LruSpec.step)
          (LruSpec.with_capacity_and_sample capacity sample_mask, [])).2) ∧
      let spec := (operations.foldl (Run.answered LruSpec.step)
        (LruSpec.with_capacity_and_sample capacity sample_mask, [])).1
      last.len = spec.entries.length ∧ last.size = spec.entries.length ∧
      spec.entries.length ≤ last.capacity ∧ (Recency.keys spec.entries).Nodup ∧
      (∀ key, (last.map.lookup key).map ValueEntry.value = Recency.get key spec.entries) ∧
      last.trace.Keeps cells ∧ cells.map Prod.snd = Recency.keys spec.entries ∧
      ∀ key entry, last.map.lookup key = some entry → (entry.record, key) ∈ cells := by
  obtain ⟨start, hstart, hinit⟩ :=
    Represents.with_capacity_and_sample (K := K) (V := V) capacity sample_mask
  have hstep : ∀ cache spec (operation : Operation K V), (∃ cells, Represents cache spec cells) →
      ∃ next, cache.step operation = some (next, (spec.step operation).2) ∧
        ∃ cells, Represents next (spec.step operation).1 cells := by
    rintro cache spec operation ⟨cells, hrep⟩
    obtain ⟨next, after, hnext, hafter⟩ := hrep.step operation
    exact ⟨next, hnext, after, hafter⟩
  obtain ⟨last, hlast, cells, hrep⟩ := Run.run_answers hstep ⟨[], hinit⟩ operations
  refine ⟨start, last, cells.map fun cell => (cell.1, cell.2.1), hstart, hlast, ?_, ?_, ?_,
    hrep.nodup_keys, hrep.get_eq, hrep.trace, ?_, ?_⟩
  · rw [hrep.len_eq, hrep.length_entries]
  · rw [hrep.length_entries]
    exact hrep.count
  · rw [hrep.length_entries, hrep.capacity]
    exact hrep.bounded
  · rw [hrep.keys_entries, List.map_map]
    rfl
  · intro key entry hentry
    exact List.mem_map.mpr ⟨_, (hrep.indexes key entry).mp hentry, rfl⟩

/-- A cache as it comes out of its operations. -/
def LruCache.Valid (cache : LruCache K V CountTracker) : Prop :=
  ∃ spec cells, Represents cache spec cells

/-- The value of a key, without a use of it. -/
def LruCache.peek (cache : LruCache K V CountTracker) (key : K) : Option V :=
  (cache.map.lookup key).map ValueEntry.value

namespace LruCache.Valid

variable {cache : LruCache K V CountTracker} {key : K}

theorem with_capacity_and_sample (capacity sample_mask : Nat) :
    ∃ cache : LruCache K V CountTracker,
      LruCache.with_capacity_and_sample capacity sample_mask = some cache ∧ cache.Valid ∧
      ∀ key, cache.peek key = none := by
  obtain ⟨cache, hcache, hrep⟩ :=
    Represents.with_capacity_and_sample (K := K) (V := V) capacity sample_mask
  refine ⟨cache, hcache, ⟨_, _, hrep⟩, fun key => ?_⟩
  exact hrep.get_eq key

theorem get_mut (hvalid : cache.Valid) (key : K) (f : V → V) :
    ∃ next, cache.get_mut key f = some (next, cache.peek key) ∧ next.Valid ∧
      ∀ other, next.peek other =
        if other = key then (cache.peek key).map f else cache.peek other := by
  obtain ⟨spec, cells, hrep⟩ := hvalid
  unfold LruCache.get_mut LruCache.peek
  cases hentry : cache.map.lookup key with
  | none =>
    refine ⟨cache, rfl, ⟨spec, cells, hrep⟩, fun other => ?_⟩
    split
    · next heq =>
      subst heq
      rw [hentry]
      rfl
    · rfl
  | some entry =>
    obtain ⟨trace, cells, hpromote, hhit⟩ := hrep.maybe_promote hentry
    obtain ⟨left, right, rfl⟩ := hhit.split hentry
    refine ⟨_, ?_, ⟨_, _, hhit.update f⟩, fun other => ?_⟩
    · simp [hpromote]
    · rw [Finmap.lookup_insert_eq_ite]
      split
      · rfl
      · rfl

/-- Room for what the cache has is room enough. -/
theorem resize (hvalid : cache.Valid) {new_cap : Nat} (hroom : cache.len ≤ new_cap)
    (hpositive : 0 < new_cap) :
    ∃ next, cache.resize new_cap = some next ∧ next.Valid ∧ next.capacity = new_cap ∧
      next.map = cache.map := by
  obtain ⟨spec, cells, hrep⟩ := hvalid
  obtain ⟨next, after, hnext, hafter⟩ := hrep.resize new_cap
  have hcap : (if new_cap = 0 then 1 else new_cap) = new_cap := if_neg hpositive.ne'
  have hresize : cache.resize new_cap = some { cache with capacity := new_cap } := by
    unfold LruCache.resize
    dsimp only
    rw [hcap, if_neg (fun hshrink => Nat.not_lt.mpr hroom hshrink.2)]
    rfl
  cases hnext.symm.trans hresize
  exact ⟨_, hresize, ⟨_, _, hafter⟩, rfl, rfl⟩

/-- Below its capacity a cache evicts nothing. -/
theorem insert (hvalid : cache.Valid) (habsent : cache.peek key = none)
    (hroom : cache.len < cache.capacity) (value : V) :
    ∃ next, cache.insert key value = some next ∧ next.Valid ∧
      ∀ other, next.peek other = if other = key then some value else cache.peek other := by
  obtain ⟨spec, cells, hrep⟩ := hvalid
  have hentry : cache.map.lookup key = none := Option.map_eq_none_iff.mp habsent
  have hmissing := hrep.indexes.lookup_eq_none.mp hentry
  rw [hrep.len_eq, hrep.capacity] at hroom
  obtain ⟨record, memory, hcreate, hafter⟩ := hrep.insert_vacant hmissing hroom value
  have hsize : cache.size = cells.length := hrep.count
  refine ⟨_, ?_, ⟨_, _, hafter⟩, fun other => ?_⟩
  · unfold LruCache.insert
    rw [hentry]
    dsimp only
    rw [hsize, if_neg (by rw [hrep.capacity]; exact Nat.not_le.mpr hroom)]
    simp [hcreate, LruCache.remove_old_key, SizePolicy.on_insert]
  · unfold LruCache.peek
    rw [Finmap.lookup_insert_eq_ite]
    split
    · rfl
    · rfl

end LruCache.Valid

end tikv_util.lru
