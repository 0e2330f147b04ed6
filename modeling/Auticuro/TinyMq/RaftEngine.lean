import Auticuro.Library.OrderedMap
import Auticuro.Library.PrefixCode
import Auticuro.TinyMq.Keys
import Auticuro.TinyMq.LogConsumer

namespace hologram_kv

/-- How messages of a type are written to bytes and read back. -/
structure Protobuf (M : Type) where
  write_to_bytes : M → Bytes
  merge_from_bytes : Bytes → Option M
  merge_write : ∀ message, merge_from_bytes (write_to_bytes message) = some message

/-- The encoding of the entries. An index other than 0 takes room. -/
structure EntryCodec extends Protobuf Entry where
  write_ne_nil : ∀ entry : Entry, entry.index ≠ 0 → write_to_bytes entry ≠ []

/-- The encoded size of an entry. -/
def EntryCodec.compute_size (codec : EntryCodec) (entry : Entry) : Nat :=
  (codec.write_to_bytes entry).length

theorem EntryCodec.compute_size_pos (codec : EntryCodec) {entry : Entry}
    (hindex : entry.index ≠ 0) : 0 < codec.compute_size entry :=
  List.length_pos_of_ne_nil (codec.write_ne_nil entry hindex)

section PlainCodec

open PrefixCode

def plainHeader : PrefixCode RaftRequestHeader :=
  (nat.pair (nat.pair (nat.pair (byte.list.pair nat)))).map
    (fun header => (header.region_id, header.peer_id, header.store_id, header.uuid, header.term))
    (fun parts => ⟨parts.1, parts.2.1, parts.2.2.1, parts.2.2.2.1, parts.2.2.2.2⟩)
    (fun _ => rfl)

def plainRequest : PrefixCode Request :=
  (byte.list.sum unit).map
    (fun
      | .MessageQueue payload => .inl payload
      | .Invalid => .inr ())
    (fun
      | .inl payload => .MessageQueue payload
      | .inr _ => .Invalid)
    (fun request => by cases request <;> rfl)

def plainAdminRequest : PrefixCode AdminRequest :=
  ((nat.pair nat).sum unit).map
    (fun
      | .CompactLog compact_index compact_term => .inl (compact_index, compact_term)
      | .InvalidAdmin => .inr ())
    (fun
      | .inl parts => .CompactLog parts.1 parts.2
      | .inr _ => .InvalidAdmin)
    (fun request => by cases request <;> rfl)

def plainStatus : PrefixCode StatusCmdType :=
  (unit.sum (unit.sum unit)).map
    (fun
      | .InvalidStatus => .inl ()
      | .RegionLeader => .inr (.inl ())
      | .RegionDetail => .inr (.inr ()))
    (fun
      | .inl _ => .InvalidStatus
      | .inr (.inl _) => .RegionLeader
      | .inr (.inr _) => .RegionDetail)
    (fun status => by cases status <;> rfl)

def plainBody : PrefixCode RaftCmdBody :=
  (plainRequest.list.sum (plainAdminRequest.sum plainStatus)).map
    (fun
      | .requests requests => .inl requests
      | .admin_request request => .inr (.inl request)
      | .status_request cmd_type => .inr (.inr cmd_type))
    (fun
      | .inl requests => .requests requests
      | .inr (.inl request) => .admin_request request
      | .inr (.inr cmd_type) => .status_request cmd_type)
    (fun body => by cases body <;> rfl)

def plainEntry : PrefixCode Entry :=
  (nat.pair (nat.pair ((plainHeader.pair plainBody).sum unit))).map
    (fun entry => (entry.index, entry.term,
      match entry.data with
      | some request => .inl (request.header, request.body)
      | none => .inr ()))
    (fun parts => ⟨parts.1, parts.2.1,
      match parts.2.2 with
      | .inl request => some ⟨request.1, request.2⟩
      | .inr _ => none⟩)
    (fun entry => by
      obtain ⟨index, term, data⟩ := entry
      cases data <;> rfl)

/-- An encoding in which every number is written with as many bytes as it says. -/
def plainCodec : EntryCodec where
  write_to_bytes := plainEntry.write
  merge_from_bytes := plainEntry.read
  merge_write := plainEntry.read_write
  write_ne_nil := by
    intro entry hindex hnil
    obtain ⟨index, hsucc⟩ := Nat.exists_eq_succ_of_ne_zero hindex
    change (List.replicate entry.index 1 ++ [0]) ++ _ = [] at hnil
    rw [hsucc] at hnil
    cases hnil

end PlainCodec

/-- A database: its keys in bytewise order. -/
abbrev RocksDB := OrderedMap Bytes Bytes

inductive WriteOp where
  | put (key value : Bytes)
  | delete (key : Bytes)
  deriving DecidableEq

def WriteOp.key : WriteOp → Bytes
  | .put key _ => key
  | .delete key => key

abbrev RocksWriteBatch := List WriteOp

/-- The variables of `fetch_entries_to` that both paths update. -/
structure Fetch where
  buf : List Entry
  total_size : Nat := 0
  count : Nat := 0
  deriving DecidableEq

/-- The variables that the callback of the scan updates. -/
structure ScanFetch extends Fetch where
  check_compacted : Bool := true
  next_index : Nat

namespace RocksDB

def write_op (db : RocksDB) : WriteOp → RocksDB
  | .put key value => db.insert key value
  | .delete key => db.remove key

/-- The operations of a batch take effect in order and together. -/
def write_opt (db : RocksDB) (wb : RocksWriteBatch) : RocksDB :=
  wb.foldl write_op db

/-- The pairs that an iterator with bounds meets: its keys from one up to another. -/
def iterator_opt (db : RocksDB) (start_key end_key : Bytes) : List (Bytes × Bytes) :=
  db.entries.filter fun entry => start_key ≤ entry.1 ∧ entry.1 < end_key

/-- The callback is called with the pairs in order, until it asks to stop. -/
def scan_impl {S : Type} (f : S → Bytes → Bytes → Except Panic (S × Bool)) :
    S → List (Bytes × Bytes) → Except Panic S
  | state, [] => .ok state
  | state, (key, value) :: pairs => do
    let (state, remained) ← f state key value
    if remained then scan_impl f state pairs else return state

def get_msg_cf {M : Type} (codec : Protobuf M) (db : RocksDB) (key : Bytes) :
    Except Panic (Option M) :=
  match db.get key with
  | some value => do
    let m ← unwrap (codec.merge_from_bytes value)
    return some m
  | none => .ok none

variable (codec : EntryCodec)

def get_entry (db : RocksDB) (region_id index : Nat) : Except Panic (Option Entry) :=
  db.get_msg_cf codec.toProtobuf (keys.raft_log_key region_id index)

/-- The loop over the indices from one on, for so many of them. -/
def multi_get_loop (db : RocksDB) (region_id max_size : Nat) :
    Nat → Nat → Fetch → Except Panic Fetch
  | 0, _, fetch => .ok fetch
  | left + 1, i, fetch =>
    if 0 < fetch.total_size ∧ max_size ≤ fetch.total_size then
      .ok fetch
    else
      match db.get (keys.raft_log_key region_id i) with
      | none => .error (.FailedToFetch i)
      | some v => do
        let entry ← unwrap (codec.merge_from_bytes v)
        if entry.index = i then
          multi_get_loop db region_id max_size left (i + 1)
            { buf := fetch.buf ++ [entry]
              total_size := fetch.total_size + v.length
              count := fetch.count + 1 }
        else
          .error (.ExpectIndex i entry.index)

/-- The path of a short range. -/
def fetch_by_multi_get (db : RocksDB) (region_id low high max_size : Nat) (buf : List Entry) :
    Except Panic (List Entry × Nat) := do
  let fetch ← multi_get_loop codec db region_id max_size (high - low) low { buf := buf }
  return (fetch.buf, fetch.count)

def fetch_callback (low max_size : Nat) (fetch : ScanFetch) (_key value : Bytes) :
    Except Panic (ScanFetch × Bool) := do
  let entry ← unwrap (codec.merge_from_bytes value)
  if fetch.check_compacted ∧ entry.index ≠ low then
    .error (.FailedToFetch low)
  else if ¬fetch.check_compacted ∧ entry.index ≠ fetch.next_index then
    .error (.ExpectIndex fetch.next_index entry.index)
  else
    let total_size := fetch.total_size + value.length
    return ({
      check_compacted := false
      next_index := fetch.next_index + 1
      buf := fetch.buf ++ [entry]
      total_size := total_size
      count := fetch.count + 1 }, total_size < max_size)

/-- The path of a long range. When the scan fell short the buffer is cleared, with
what it held before. -/
def fetch_by_scan (db : RocksDB) (region_id low high max_size : Nat) (buf : List Entry) :
    Except Panic (List Entry × Nat) := do
  let fetch ← scan_impl (fetch_callback codec low max_size) { buf := buf, next_index := low }
    (db.iterator_opt (keys.raft_log_key region_id low) (keys.raft_log_key region_id high))
  return if fetch.count = high - low ∨ max_size ≤ fetch.total_size then
    (fetch.buf, fetch.count)
  else
    ([], 0)

/-- `usize::MAX`. -/
def usize_MAX : Nat := U64.size - 1

/-- `fetch_entries_to` with its buffer: what is in it afterwards, and the number
that is returned. -/
def fetch_entries_to (db : RocksDB) (region_id low high : Nat) (max_size : Option Nat)
    (buf : List Entry) : Except Panic (List Entry × Nat) :=
  if high ≤ low then
    .ok (buf, 0)
  else if high - low ≤ RocksEngine.RAFT_LOG_MULTI_GET_CNT then
    fetch_by_multi_get codec db region_id low high (max_size.getD usize_MAX) buf
  else
    fetch_by_scan codec db region_id low high (max_size.getD usize_MAX) buf

end RocksDB

namespace RocksWriteBatch

variable (codec : EntryCodec)

def append_impl (wb : RocksWriteBatch) (region_id : Nat) (entries : List Entry) :
    RocksWriteBatch :=
  wb ++ entries.map fun entry =>
    .put (keys.raft_log_key region_id entry.index) (codec.write_to_bytes entry)

def cut_logs (wb : RocksWriteBatch) (region_id from_index to_index : Nat) : RocksWriteBatch :=
  wb ++ (List.range' from_index (to_index - from_index)).map fun index =>
    .delete (keys.raft_log_key region_id index)

end RocksWriteBatch

/-- Entries are taken as long as the ones before them have less than the maximum
size, and the first one always. -/
def cut_by_size (size : Entry → Nat) (max_size : Nat) : Nat → List Entry → List Entry
  | _, [] => []
  | total_size, entry :: entries =>
    if 0 < total_size ∧ max_size ≤ total_size then
      []
    else
      entry :: cut_by_size size max_size (total_size + size entry) entries

/-- What was written is read back. -/
theorem get_msg_cf_of_get {M : Type} {codec : Protobuf M} {db : RocksDB} {key : Bytes}
    {message : M} (hget : db.get key = some (codec.write_to_bytes message)) :
    db.get_msg_cf codec key = .ok (some message) := by
  unfold RocksDB.get_msg_cf
  rw [hget]
  simp only [codec.merge_write]
  rfl

end hologram_kv
