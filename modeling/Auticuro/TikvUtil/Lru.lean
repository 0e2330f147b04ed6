import Auticuro.Library.Finmap
import Auticuro.Library.LinkedList
import Auticuro.Library.U64

open LinkedList

namespace tikv_util.lru

variable {K V T : Type}

/-- The records of the keys, the last used first, between two that have no key. -/
structure Trace (K : Type) where
  memory : Memory K
  head : Nat
  tail : Nat
  tick : Nat
  sample_mask : Nat

def suture (memory : Memory K) (leading following : Nat) : Option (Memory K) :=
  memory.link leading following

def cut_out (memory : Memory K) (record : Nat) : Option (Memory K) :=
  memory.unlink record

namespace Trace

/-- The addresses that the records are created with are never read. -/
def new (sample_mask : Nat) : Option (Trace K) := do
  let (head, memory) := Memory.empty.alloc ⟨1, 1, none⟩
  let (tail, memory) := memory.alloc ⟨1, 1, none⟩
  let memory ← suture memory head tail
  return ⟨memory, head, tail, 0, sample_mask⟩

/-- The record is sutured to the one behind the head, and the head to the record. -/
def promote (self : Trace K) (record : Nat) : Option (Trace K) := do
  let memory ← cut_out self.memory record
  let memory ← memory.push_front self.head record
  return { self with memory := memory }

def maybe_promote (self : Trace K) (record : Nat) : Option (Trace K) :=
  let self := { self with tick := U64.wrapping_add self.tick 1 }
  if self.tick &&& self.sample_mask = 0 then self.promote record else some self

def delete (self : Trace K) (record : Nat) : Option (Trace K) := do
  let memory ← cut_out self.memory record
  let (_, memory) ← memory.free record
  return { self with memory := memory }

def create (self : Trace K) (key : K) : Option (Nat × Trace K) := do
  let (record, memory) ← self.memory.insert_front self.head key
  return (record, { self with memory := memory })

def reuse_tail (self : Trace K) (key : K) : Option (K × Nat × Trace K) := do
  let tail ← self.memory.records self.tail
  let memory ← cut_out self.memory tail.prev
  let memory ← memory.push_front self.head tail.prev
  let record ← memory.records tail.prev
  let old_key ← record.key
  let memory ← memory.modify tail.prev fun record => { record with key := some key }
  return (old_key, tail.prev, { self with memory := memory })

def clear (self : Trace K) : Option (Trace K) := do
  let head ← self.memory.records self.head
  let memory ← Memory.free_until self.tail self.memory.fresh self.memory head.next
  let memory ← suture memory self.head self.tail
  return { self with memory := memory }

def remove_tail (self : Trace K) : Option (K × Trace K) := do
  let tail ← self.memory.records self.tail
  let memory ← cut_out self.memory tail.prev
  let (record, memory) ← memory.free tail.prev
  let key ← record.key
  return (key, { self with memory := memory })

end Trace

class SizePolicy (K V T : Type) where
  current : T → Nat
  on_insert : T → K → V → T
  on_remove : T → K → V → Option T
  on_reset : T → Nat → T

structure CountTracker where
  count : Nat

/-- The count must not go below zero. -/
instance : SizePolicy K V CountTracker where
  current := CountTracker.count
  on_insert self _ _ := ⟨self.count + 1⟩
  on_remove self _ _ := (U64.checked_sub self.count 1).map CountTracker.mk
  on_reset _ val := ⟨val⟩

structure ValueEntry (V : Type) where
  value : V
  record : Nat

structure LruCache (K V T : Type) where
  map : Finmap fun _ : K => ValueEntry V
  trace : Trace K
  capacity : Nat
  size_policy : T

namespace LruCache

def with_capacity_sample_and_trace (capacity sample_mask : Nat) (size_policy : T) :
    Option (LruCache K V T) := do
  let trace ← Trace.new sample_mask
  return ⟨∅, trace, if capacity = 0 then 1 else capacity, size_policy⟩

def with_capacity_and_sample (capacity sample_mask : Nat) : Option (LruCache K V CountTracker) :=
  with_capacity_sample_and_trace capacity sample_mask ⟨0⟩

def with_capacity (capacity : Nat) : Option (LruCache K V CountTracker) :=
  with_capacity_and_sample capacity 0

def len (self : LruCache K V T) : Nat := self.map.keys.card

variable [SizePolicy K V T]

def size (self : LruCache K V T) : Nat := SizePolicy.current (K := K) (V := V) self.size_policy

def clear (self : LruCache K V T) : Option (LruCache K V T) := do
  let trace ← self.trace.clear
  return { self with
    map := ∅
    trace := trace
    size_policy := SizePolicy.on_reset (K := K) (V := V) self.size_policy 0 }

variable [DecidableEq K]

/-- The loop of `resize`: so many entries are removed from the tail. -/
def remove_tails : Nat → LruCache K V T → Option (LruCache K V T)
  | 0, self => some self
  | count + 1, self => do
    let (key, trace) ← self.trace.remove_tail
    let entry ← self.map.lookup key
    let size_policy ← SizePolicy.on_remove self.size_policy key entry.value
    remove_tails count { self with
      map := self.map.erase key, trace := trace, size_policy := size_policy }

def resize (self : LruCache K V T) (new_cap : Nat) : Option (LruCache K V T) :=
  let new_cap := if new_cap = 0 then 1 else new_cap
  let shrunk :=
    if new_cap < self.capacity ∧ new_cap < self.len then
      remove_tails (self.len - new_cap) self
    else
      some self
  shrunk.map fun self => { self with capacity := new_cap }

/-- The end of `insert`: the key of the record that was reused is removed. -/
def remove_old_key (self : LruCache K V T) : Option K → Option (LruCache K V T)
  | none => some self
  | some old_key => do
    let entry ← self.map.lookup old_key
    let size_policy ← SizePolicy.on_remove self.size_policy old_key entry.value
    return { self with map := self.map.erase old_key, size_policy := size_policy }

def insert (self : LruCache K V T) (key : K) (value : V) : Option (LruCache K V T) :=
  match self.map.lookup key with
  | some entry => do
    let size_policy ← SizePolicy.on_remove self.size_policy key entry.value
    let size_policy := SizePolicy.on_insert size_policy key value
    let trace ← self.trace.promote entry.record
    return { self with
      map := self.map.insert key { entry with value := value }
      trace := trace
      size_policy := size_policy }
  | none => do
    let (old_key, record, trace) ←
      if self.capacity ≤ self.size then do
        let (old_key, record, trace) ← self.trace.reuse_tail key
        pure (some old_key, record, trace)
      else do
        let (record, trace) ← self.trace.create key
        pure (none, record, trace)
    remove_old_key { self with
      map := self.map.insert key ⟨value, record⟩
      trace := trace
      size_policy := SizePolicy.on_insert self.size_policy key value } old_key

def remove (self : LruCache K V T) (key : K) : Option (LruCache K V T × Option V) :=
  match self.map.lookup key with
  | some entry => do
    let trace ← self.trace.delete entry.record
    let size_policy ← SizePolicy.on_remove self.size_policy key entry.value
    return ({ self with
      map := self.map.erase key, trace := trace, size_policy := size_policy }, some entry.value)
  | none => some (self, none)

/-- The caller may change the value that it is given. -/
def get_mut (self : LruCache K V T) (key : K) (f : V → V) :
    Option (LruCache K V T × Option V) :=
  match self.map.lookup key with
  | some entry => do
    let trace ← self.trace.maybe_promote entry.record
    return ({ self with
      map := self.map.insert key { entry with value := f entry.value }
      trace := trace }, some entry.value)
  | none => some (self, none)

def get (self : LruCache K V T) (key : K) : Option (LruCache K V T × Option V) :=
  match self.map.lookup key with
  | some entry => do
    let trace ← self.trace.maybe_promote entry.record
    return ({ self with trace := trace }, some entry.value)
  | none => some (self, none)

end LruCache

end tikv_util.lru
