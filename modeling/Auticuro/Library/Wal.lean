import Mathlib.Tactic.Common

/-- A store with a write-ahead log: what is on disk for certain, and the writes
since, which a crash may lose from some point on. -/
structure Wal (S W : Type) where
  synced : S
  unsynced : List W
  deriving DecidableEq

namespace Wal

variable {S W : Type}

/-- A store in which everything is on disk. -/
def durable (state : S) : Wal S W := ⟨state, []⟩

/-- Writes that are not waited for. -/
def write (self : Wal S W) (writes : List W) : Wal S W :=
  { self with unsynced := self.unsynced ++ writes }

variable (apply : S → W → S)

/-- What a reader sees. -/
def current (self : Wal S W) : S := self.unsynced.foldl apply self.synced

def sync (self : Wal S W) : Wal S W := durable (self.current apply)

/-- What a crash leaves when some of the writes have reached the disk. -/
def crash (self : Wal S W) (kept : Nat) : S :=
  (self.unsynced.take kept).foldl apply self.synced

/-- A property of everything that a crash can leave. -/
def Durably (P : S → Prop) (self : Wal S W) : Prop := ∀ kept, P (self.crash apply kept)

variable {apply} {P Q : S → Prop} {self : Wal S W}

theorem current_write (writes : List W) :
    (self.write writes).current apply = writes.foldl apply (self.current apply) :=
  List.foldl_append

theorem durably_durable {state : S} (hstate : P state) :
    Durably apply P (durable state : Wal S W) := by
  intro kept
  unfold crash durable
  rw [List.take_nil]
  exact hstate

namespace Durably

theorem imp (hself : Durably apply P self) (himp : ∀ state, P state → Q state) :
    Durably apply Q self :=
  fun kept => himp _ (hself kept)

/-- Nothing is lost when every write reaches the disk. -/
theorem current (hself : Durably apply P self) : P (self.current apply) := by
  have hall := hself self.unsynced.length
  unfold crash at hall
  rwa [List.take_length] at hall

/-- What each write keeps is not lost by a crash between them. -/
theorem write (hself : Durably apply P self) {writes : List W}
    (hwrite : ∀ state, P state → ∀ operation ∈ writes, P (apply state operation)) :
    Durably apply P (self.write writes) := by
  intro kept
  unfold crash Wal.write
  rw [List.take_append, List.foldl_append]
  refine List.foldlRecOn _ apply (hself kept) ?_
  intro state hstate operation hoperation
  exact hwrite state hstate operation (List.mem_of_mem_take hoperation)

end Durably

end Wal
