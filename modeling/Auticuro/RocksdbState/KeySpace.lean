import Auticuro.RocksdbState
import Auticuro.TinyMq.KeyCodec

/-! The records of the wallet share one key space with the order of bytes. -/

open hologram_kv hologram_kv.keys

namespace firm_wallet.rocksdb_state

def HardStateKind.key : HardStateKind → String
  | .APPLIED_INDEX => "applied_index"
  | .PERSISTED_LAST_SEQ_NUM => "last_seq_num"
  | .PERSISTED_FIRST_SEQ_NUM => "first_seq_num"

def SequenceNumber.to_bytes (seq_num : SequenceNumber) : Bytes := write_u64 seq_num

/-- The number in eight bytes; `none` is the failed assertion. -/
def SequenceNumber.from_bytes (bytes : Bytes) : Option SequenceNumber :=
  if bytes.length = 8 then some (BigEndian.value bytes) else none

/-- `str::as_bytes`. -/
def as_bytes (text : String) : Bytes := text.toUTF8.data.toList

/-- `String::from_utf8`. -/
def from_utf8 (bytes : Bytes) : Option String := String.fromUTF8? ⟨⟨bytes⟩⟩

/-- What `read_accounts_from_db` meets: the ids with the values under their keys.
`none` is a panic. -/
def scan_accounts (db : RocksDB) : Option (List (String × Bytes)) :=
  (db.iterator_opt DATA_MIN_KEY DATA_MAX_KEY).mapM fun pair => do
    let account_id ← (origin_data_key pair.1).bind from_utf8
    return (account_id, pair.2)

/-- The keys of the wallet's records. -/
inductive WalletKey where
  | data (account_id : String)
  | dedup (command_id : String)
  | event (seq_num : SequenceNumber)
  | hard_state (hard_state_kind : HardStateKind)

namespace WalletKey

def encode : WalletKey → Bytes
  | data account_id => data_key (as_bytes account_id)
  | dedup command_id => dedup_key (as_bytes command_id)
  | event seq_num => event_key (SequenceNumber.to_bytes seq_num)
  | hard_state hard_state_kind => as_bytes hard_state_kind.key

/-- A sequence number has 64 bits. -/
def Valid : WalletKey → Prop
  | event seq_num => seq_num < U64.size
  | _ => True

end WalletKey

/-- The keys of a database are keys of records. -/
def WalletKeys (db : RocksDB) : Prop :=
  ∀ entry ∈ db.entries, ∃ key : WalletKey, key.Valid ∧ entry.1 = key.encode

theorem as_bytes_inj {left right : String} (heq : as_bytes left = as_bytes right) :
    left = right := by
  apply String.toByteArray_inj.mp
  exact ByteArray.ext (Array.toList_inj.mp heq)

theorem from_utf8_as_bytes (text : String) : from_utf8 (as_bytes text) = some text := by
  unfold from_utf8 String.fromUTF8?
  exact dif_pos text.isValidUTF8

theorem origin_data_key_data_key (key : Bytes) : origin_data_key (data_key key) = some key := by
  have hvalid : validate_data_key (data_key key) = true :=
    List.isPrefixOf_iff_prefix.mpr (List.prefix_append _ _)
  rw [origin_data_key, if_pos hvalid, data_key, List.drop_left]

theorem SequenceNumber.from_bytes_to_bytes {seq_num : SequenceNumber}
    (hseq : seq_num < U64.size) : from_bytes (to_bytes seq_num) = some seq_num := by
  rw [from_bytes, to_bytes, if_pos (length_write_u64 seq_num), write_u64,
    BigEndian.value_bytes hseq]

namespace WalletKey

/-- Which record a key is of: the first byte tells the kinds apart, and the rest
is the id or the number. -/
def decode : Bytes → Option WalletKey
  | [] => none
  | first :: rest =>
    if first = DATA_PREFIX then
      (from_utf8 rest).map data
    else if first = DEDUP_PREFIX then
      (from_utf8 rest).map dedup
    else if first = EVENT_PREFIX then
      (SequenceNumber.from_bytes rest).map event
    else
      ([.APPLIED_INDEX, .PERSISTED_LAST_SEQ_NUM, .PERSISTED_FIRST_SEQ_NUM].find?
        fun hard_state_kind => as_bytes hard_state_kind.key = first :: rest).map hard_state

theorem decode_encode {key : WalletKey} (hkey : key.Valid) : decode key.encode = some key := by
  cases key with
  | data account_id =>
    change decode (DATA_PREFIX :: as_bytes account_id) = _
    rw [decode, if_pos rfl, from_utf8_as_bytes, Option.map_some]
  | dedup command_id =>
    change decode (DEDUP_PREFIX :: as_bytes command_id) = _
    rw [decode, if_neg (by decide), if_pos rfl, from_utf8_as_bytes, Option.map_some]
  | event seq_num =>
    change decode (EVENT_PREFIX :: SequenceNumber.to_bytes seq_num) = _
    rw [decode, if_neg (by decide), if_neg (by decide), if_pos rfl,
      SequenceNumber.from_bytes_to_bytes hkey, Option.map_some]
  | hard_state kind => cases kind <;> rfl

/-- Different records have different keys. -/
theorem encode_inj {left right : WalletKey} (hleft : left.Valid) (hright : right.Valid)
    (heq : left.encode = right.encode) : left = right := by
  have hdecode := decode_encode hleft
  rw [heq, decode_encode hright] at hdecode
  exact (Option.some.inj hdecode).symm

end WalletKey

/-- The keys from one byte up to the next are those that begin with the byte. -/
theorem byte_range_iff {first : UInt8} (hfirst : first < first + 1) (key : Bytes) :
    ([first] ≤ key ∧ key < [first + 1]) ↔ ∃ rest, key = first :: rest := by
  have hnext : (first + 1).toNat = first.toNat + 1 := by
    have hsum := UInt8.toNat_add first 1
    rw [UInt8.lt_iff_toNat_lt] at hfirst
    have hone : (1 : UInt8).toNat = 1 := rfl
    omega
  cases key with
  | nil => simp
  | cons byte rest =>
    rw [← not_lt, List.cons_lt_cons_iff, List.cons_lt_cons_iff]
    simp only [List.not_lt_nil, and_false, or_false, UInt8.lt_iff_toNat_lt, hnext, List.cons.injEq,
      exists_and_left, exists_eq', and_true, ← UInt8.toNat_inj]
    omega

namespace WalletKey

/-- Between the bounds of the accounts there are only accounts. -/
theorem data_range_iff {key : WalletKey} (hkey : key.Valid) :
    (DATA_MIN_KEY ≤ key.encode ∧ key.encode < DATA_MAX_KEY) ↔
      ∃ account_id, key = data account_id := by
  refine (byte_range_iff (by decide) key.encode).trans ?_
  constructor
  · rintro ⟨rest, hrest⟩
    have hdecode := decode_encode hkey
    rw [hrest, decode, if_pos rfl] at hdecode
    obtain ⟨account_id, -, hdata⟩ := Option.map_eq_some_iff.mp hdecode
    exact ⟨account_id, hdata.symm⟩
  · rintro ⟨account_id, rfl⟩
    exact ⟨as_bytes account_id, rfl⟩

theorem event_lt_event_iff {left right : SequenceNumber} (hleft : left < U64.size)
    (hright : right < U64.size) : (event left).encode < (event right).encode ↔ left < right :=
  append_lt_append_iff.trans (BigEndian.bytes_lt_bytes_iff hleft hright)

/-- Between two events there are only the events in between. -/
theorem event_range_iff {key : WalletKey} (hkey : key.Valid) {low high : SequenceNumber}
    (hlow : low < U64.size) (hhigh : high < U64.size) :
    ((event low).encode ≤ key.encode ∧ key.encode < (event high).encode) ↔
      ∃ seq_num, low ≤ seq_num ∧ seq_num < high ∧ key = event seq_num := by
  constructor
  · rintro ⟨hstart, hend⟩
    have hbegins : ∀ seq_num, [EVENT_PREFIX] ≤ (event seq_num).encode ∧
        (event seq_num).encode < [EVENT_PREFIX + 1] := by
      intro seq_num
      exact (byte_range_iff (by decide) _).mpr ⟨SequenceNumber.to_bytes seq_num, rfl⟩
    obtain ⟨rest, hrest⟩ := (byte_range_iff (by decide) key.encode).mp
      ⟨(hbegins low).1.trans hstart, hend.trans (hbegins high).2⟩
    have hdecode := decode_encode hkey
    rw [hrest, decode, if_neg (by decide), if_neg (by decide), if_pos rfl] at hdecode
    obtain ⟨seq_num, -, rfl⟩ := Option.map_eq_some_iff.mp hdecode
    rw [← not_lt, event_lt_event_iff hkey hlow, not_lt] at hstart
    rw [event_lt_event_iff hkey hhigh] at hend
    exact ⟨seq_num, hstart, hend, rfl⟩
  · rintro ⟨seq_num, hstart, hend, rfl⟩
    rw [← not_lt, event_lt_event_iff hkey hlow, event_lt_event_iff hkey hhigh]
    exact ⟨not_lt.mpr hstart, hend⟩

end WalletKey

section Scans

variable {db : RocksDB} (hdb : WalletKeys db)
include hdb

theorem mem_iterator_data_iff (pair : Bytes × Bytes) :
    pair ∈ db.iterator_opt DATA_MIN_KEY DATA_MAX_KEY ↔
      ∃ account_id, pair.1 = data_key (as_bytes account_id) ∧ db.get pair.1 = some pair.2 := by
  unfold RocksDB.iterator_opt
  rw [List.mem_filter, decide_eq_true_eq, OrderedMap.get_eq_some_iff]
  constructor
  · rintro ⟨hpair, hrange⟩
    obtain ⟨key, hkey, hencode⟩ := hdb pair hpair
    rw [hencode, WalletKey.data_range_iff hkey] at hrange
    obtain ⟨account_id, rfl⟩ := hrange
    exact ⟨account_id, hencode, hpair⟩
  · rintro ⟨account_id, hkey, hpair⟩
    refine ⟨hpair, ?_⟩
    rw [hkey]
    have hvalid : (WalletKey.data account_id).Valid := trivial
    exact (WalletKey.data_range_iff hvalid).mpr ⟨account_id, rfl⟩

/-- The scan of the accounts gives back the ids. -/
theorem scan_accounts_eq :
    ∃ records, scan_accounts db = some records ∧
      db.iterator_opt DATA_MIN_KEY DATA_MAX_KEY =
        records.map fun record => (data_key (as_bytes record.1), record.2) := by
  have hpairs : ∀ pair ∈ db.iterator_opt DATA_MIN_KEY DATA_MAX_KEY,
      ∃ account_id, pair.1 = data_key (as_bytes account_id) := by
    intro pair hpair
    obtain ⟨account_id, hkey, -⟩ := (mem_iterator_data_iff hdb pair).mp hpair
    exact ⟨account_id, hkey⟩
  unfold scan_accounts
  generalize db.iterator_opt DATA_MIN_KEY DATA_MAX_KEY = pairs at hpairs
  induction pairs with
  | nil => exact ⟨[], rfl, rfl⟩
  | cons pair pairs ih =>
    obtain ⟨records, hscan, hrecords⟩ :=
      ih fun pair hpair => hpairs pair (List.mem_cons_of_mem _ hpair)
    obtain ⟨account_id, hkey⟩ := hpairs pair List.mem_cons_self
    refine ⟨(account_id, pair.2) :: records, ?_, ?_⟩
    · rw [List.mapM_cons, hscan, hkey, origin_data_key_data_key, Option.bind_some,
        from_utf8_as_bytes]
      rfl
    · rw [List.map_cons, ← hrecords, ← hkey]

/-- Each account is met once, with what is stored under its key. -/
theorem scan_accounts_spec :
    ∃ records, scan_accounts db = some records ∧ (records.map Prod.fst).Nodup ∧
      ∀ account_id value, (account_id, value) ∈ records ↔
        db.get (data_key (as_bytes account_id)) = some value := by
  obtain ⟨records, hscan, hpairs⟩ := scan_accounts_eq hdb
  refine ⟨records, hscan, ?_, ?_⟩
  · have hkeys : ((db.iterator_opt DATA_MIN_KEY DATA_MAX_KEY).map Prod.fst).Nodup :=
      db.keys_nodup.sublist (List.filter_sublist.map _)
    rw [hpairs, List.map_map] at hkeys
    have hids : ((records.map Prod.fst).map fun account_id =>
        data_key (as_bytes account_id)).Nodup := by
      rw [List.map_map]
      exact hkeys
    exact hids.of_map _
  · intro account_id value
    have hmem := mem_iterator_data_iff hdb (data_key (as_bytes account_id), value)
    rw [hpairs, List.mem_map] at hmem
    constructor
    · intro hrecord
      obtain ⟨-, -, hget⟩ := hmem.mp ⟨(account_id, value), hrecord, rfl⟩
      exact hget
    · intro hget
      obtain ⟨⟨other, found⟩, hrecord, heq⟩ := hmem.mpr ⟨account_id, rfl, hget⟩
      obtain ⟨hkey, rfl⟩ := Prod.mk.inj heq
      rwa [← as_bytes_inj (List.append_cancel_left hkey)]

/-- The scan between two events meets the events in between, in order. -/
theorem iterator_event_eq {low high : SequenceNumber} (hlow : low < U64.size)
    (hhigh : high < U64.size) :
    db.iterator_opt (event_key (SequenceNumber.to_bytes low))
        (event_key (SequenceNumber.to_bytes high)) =
      (List.range' low (high - low)).filterMap fun seq_num =>
        (db.get (event_key (SequenceNumber.to_bytes seq_num))).map fun value =>
          (event_key (SequenceNumber.to_bytes seq_num), value) := by
  unfold RocksDB.iterator_opt
  apply OrderedMap.filter_eq_filterMap_range
  · intro left right hless hright
    exact (WalletKey.event_lt_event_iff (hless.trans (hright.trans hhigh))
      (hright.trans hhigh)).mpr hless
  · intro entry hentry
    rw [decide_eq_true_eq]
    constructor
    · intro hrange
      obtain ⟨key, hkey, hencode⟩ := hdb entry hentry
      rw [hencode] at hrange
      obtain ⟨seq_num, hstart, hend, rfl⟩ := (WalletKey.event_range_iff hkey hlow hhigh).mp hrange
      exact ⟨seq_num, hstart, hend, hencode⟩
    · rintro ⟨seq_num, hstart, hend, hencode⟩
      rw [hencode]
      have hvalid : (WalletKey.event seq_num).Valid := lt_trans hend hhigh
      exact (WalletKey.event_range_iff hvalid hlow hhigh).mpr ⟨seq_num, hstart, hend, rfl⟩

end Scans

/-- The key space of the wallet: different records have different keys, a scan
over the accounts or over a range of events meets these and nothing else, and the
ids and numbers are read back. -/
theorem wallet_key_space :
    (∀ left right : WalletKey, left.Valid → right.Valid →
      (left.encode = right.encode ↔ left = right)) ∧
      (∀ account_id, origin_data_key (data_key (as_bytes account_id)) =
          some (as_bytes account_id) ∧
        from_utf8 (as_bytes account_id) = some account_id) ∧
      (∀ seq_num < U64.size,
        SequenceNumber.from_bytes (SequenceNumber.to_bytes seq_num) = some seq_num) ∧
      ∀ db, WalletKeys db →
        (∃ records, scan_accounts db = some records ∧ (records.map Prod.fst).Nodup ∧
          ∀ account_id value, (account_id, value) ∈ records ↔
            db.get (data_key (as_bytes account_id)) = some value) ∧
        ∀ low < U64.size, ∀ high < U64.size,
          db.iterator_opt (event_key (SequenceNumber.to_bytes low))
              (event_key (SequenceNumber.to_bytes high)) =
            (List.range' low (high - low)).filterMap fun seq_num =>
              (db.get (event_key (SequenceNumber.to_bytes seq_num))).map fun value =>
                (event_key (SequenceNumber.to_bytes seq_num), value) := by
  refine ⟨?_, ?_, ?_, ?_⟩
  · intro left right hleft hright
    exact ⟨WalletKey.encode_inj hleft hright, congrArg WalletKey.encode⟩
  · intro account_id
    exact ⟨origin_data_key_data_key _, from_utf8_as_bytes account_id⟩
  · intro seq_num hseq
    exact SequenceNumber.from_bytes_to_bytes hseq
  · intro db hdb
    exact ⟨scan_accounts_spec hdb, fun low hlow high hhigh => iterator_event_eq hdb hlow hhigh⟩

end firm_wallet.rocksdb_state
