import Auticuro.Account
import Auticuro.Internal
import Auticuro.Library.Finmap

namespace firm_wallet.rocksdb_state

open accountpb internal_servicepb

/-- A map of accounts in which every account stands under its own id. Both the
memory and the `data_key` range of the database are such maps, because an
account is only ever written under `account.account_id()`. -/
structure AccountMap where
  map : Finmap fun _ : String => Account
  keyed : ∀ account_id account, map.lookup account_id = some account →
    account.account_id = account_id

namespace AccountMap

def empty : AccountMap where
  map := ∅
  keyed := by
    intro account_id account hlookup
    rw [Finmap.lookup_empty] at hlookup
    cases hlookup

def get (self : AccountMap) (account_id : String) : Option Account :=
  self.map.lookup account_id

def contains_key (self : AccountMap) (account_id : String) : Bool :=
  (self.get account_id).isSome

def insert (self : AccountMap) (account : Account) : AccountMap where
  map := self.map.insert account.account_id account
  keyed := by
    intro account_id found hlookup
    rw [Finmap.lookup_insert_eq_ite] at hlookup
    split at hlookup
    · cases hlookup
      symm
      assumption
    · exact self.keyed account_id found hlookup

def remove (self : AccountMap) (account_id : String) : AccountMap where
  map := self.map.erase account_id
  keyed := by
    intro query found hlookup
    rw [Finmap.lookup_erase_eq_ite] at hlookup
    split at hlookup
    · cases hlookup
    · exact self.keyed query found hlookup

@[ext] theorem ext_get {left right : AccountMap}
    (hget : ∀ account_id, left.get account_id = right.get account_id) : left = right := by
  obtain ⟨left, _⟩ := left
  obtain ⟨right, _⟩ := right
  have heq : left = right := Finmap.ext_lookup hget
  subst heq
  rfl

@[simp] theorem get_empty (account_id : String) : empty.get account_id = none :=
  Finmap.lookup_empty account_id

theorem get_insert (self : AccountMap) (account : Account) (account_id : String) :
    (self.insert account).get account_id =
      if account_id = account.account_id then some account else self.get account_id :=
  Finmap.lookup_insert_eq_ite _ _ _ _

theorem get_remove (self : AccountMap) (removed account_id : String) :
    (self.remove removed).get account_id =
      if account_id = removed then none else self.get account_id :=
  Finmap.lookup_erase_eq_ite _ _ _

theorem account_id_of_get {self : AccountMap} {account_id : String} {account : Account}
    (hget : self.get account_id = some account) : account.account_id = account_id :=
  self.keyed account_id account hget

end AccountMap

abbrev SequenceNumber := Nat

inductive HardStateKind where
  | APPLIED_INDEX
  | PERSISTED_LAST_SEQ_NUM
  | PERSISTED_FIRST_SEQ_NUM
  deriving DecidableEq

def HardStateKind.default_value : HardStateKind → Nat
  | .APPLIED_INDEX => 5
  | .PERSISTED_LAST_SEQ_NUM => 0
  | .PERSISTED_FIRST_SEQ_NUM => 0

/-- The wallet's database, one field for each of the key ranges it uses:
`data_key`, `dedup_key`, `event_key` and the hard-state keys. -/
structure RocksDBState where
  data : AccountMap
  dedup : Finmap fun _ : String => SequenceNumber
  events : Finmap fun _ : SequenceNumber => Event
  hard_state : HardStateKind → Option Nat

namespace RocksDBState

def empty : RocksDBState :=
  { data := AccountMap.empty, dedup := ∅, events := ∅, hard_state := fun _ => none }

def read_hard_state_from_db (self : RocksDBState) (hard_state_kind : HardStateKind) : Nat :=
  match self.hard_state hard_state_kind with
  | some value => value
  | none => hard_state_kind.default_value

def first_seq_num (self : RocksDBState) : Nat :=
  self.read_hard_state_from_db .PERSISTED_FIRST_SEQ_NUM

def last_seq_num (self : RocksDBState) : Nat :=
  self.read_hard_state_from_db .PERSISTED_LAST_SEQ_NUM

def read_event_from_db (self : RocksDBState) (seq_num : SequenceNumber) : Option Event :=
  self.events.lookup seq_num

def read_seq_num_from_db (self : RocksDBState) (command_id : String) : Option SequenceNumber :=
  self.dedup.lookup command_id

def read_accounts_from_db (self : RocksDBState) : AccountMap :=
  self.data

end RocksDBState

/-- One `put` or `delete` of a write batch, by the key range it addresses. -/
inductive WriteOp where
  | put_account (account : Account)
  | delete_account (account_id : String)
  | put_seq_num (command_id : String) (seq_num : SequenceNumber)
  | delete_seq_num (command_id : String)
  | put_event (seq_num : SequenceNumber) (event : Event)
  | delete_event (seq_num : SequenceNumber)
  | put_hard_state (hard_state_kind : HardStateKind) (value : Nat)

def WriteOp.write (db : RocksDBState) : WriteOp → RocksDBState
  | .put_account account => { db with data := db.data.insert account }
  | .delete_account account_id => { db with data := db.data.remove account_id }
  | .put_seq_num command_id seq_num => { db with dedup := db.dedup.insert command_id seq_num }
  | .delete_seq_num command_id => { db with dedup := db.dedup.erase command_id }
  | .put_event seq_num event => { db with events := db.events.insert seq_num event }
  | .delete_event seq_num => { db with events := db.events.erase seq_num }
  | .put_hard_state hard_state_kind value =>
    { db with hard_state := fun kind =>
      if kind = hard_state_kind then some value else db.hard_state kind }

abbrev RocksWriteBatch := List WriteOp

/-- Writing a batch applies its operations in order, as one atomic step. -/
def RocksDBState.write_opt (db : RocksDBState) (wb : RocksWriteBatch) : RocksDBState :=
  wb.foldl WriteOp.write db

theorem RocksDBState.write_opt_append (db : RocksDBState) (first second : RocksWriteBatch) :
    db.write_opt (first ++ second) = (db.write_opt first).write_opt second := by
  simp only [write_opt, List.foldl_append]

/-- What a batch leaves under a hard-state key depends on that key alone. -/
theorem RocksDBState.write_opt_hard_state_congr {left right : RocksDBState} {kind : HardStateKind}
    (hkind : left.hard_state kind = right.hard_state kind) (wb : RocksWriteBatch) :
    (left.write_opt wb).hard_state kind = (right.write_opt wb).hard_state kind := by
  induction wb generalizing left right with
  | nil => exact hkind
  | cons op wb ih =>
    apply ih
    cases op with
    | put_hard_state written value =>
      change (if kind = written then some value else left.hard_state kind) =
        if kind = written then some value else right.hard_state kind
      rw [hkind]
    | _ => exact hkind

/-- What a batch leaves of the accounts depends on the accounts alone. -/
theorem RocksDBState.write_opt_data_congr {left right : RocksDBState}
    (hdata : left.data = right.data) (wb : RocksWriteBatch) :
    (left.write_opt wb).data = (right.write_opt wb).data := by
  induction wb generalizing left right with
  | nil => exact hdata
  | cons op wb ih =>
    apply ih
    cases op with
    | put_account account =>
      change left.data.insert account = right.data.insert account
      rw [hdata]
    | delete_account account_id =>
      change left.data.remove account_id = right.data.remove account_id
      rw [hdata]
    | _ => exact hdata

theorem RocksDBState.write_opt_last_seq_num_congr {left right : RocksDBState}
    (hlast : left.hard_state .PERSISTED_LAST_SEQ_NUM = right.hard_state .PERSISTED_LAST_SEQ_NUM)
    (wb : RocksWriteBatch) :
    (left.write_opt wb).last_seq_num = (right.write_opt wb).last_seq_num := by
  unfold last_seq_num read_hard_state_from_db
  rw [write_opt_hard_state_congr hlast]

end firm_wallet.rocksdb_state
