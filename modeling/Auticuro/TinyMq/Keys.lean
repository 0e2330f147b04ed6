import Auticuro.Library.BigEndian
import Auticuro.Library.U64
import Auticuro.TinyMq.RaftCmd

namespace hologram_kv.keys

def LOCAL_PREFIX : UInt8 := 0x01

/-- `b'z'`. -/
def DATA_PREFIX : UInt8 := 122

def DATA_PREFIX_KEY : Bytes := [DATA_PREFIX]

def DATA_MIN_KEY : Bytes := [DATA_PREFIX]

def DATA_MAX_KEY : Bytes := [DATA_PREFIX + 1]

/-- `b'y'`. -/
def DEDUP_PREFIX : UInt8 := 121

def DEDUP_PREFIX_KEY : Bytes := [DEDUP_PREFIX]

/-- `b'x'`. -/
def EVENT_PREFIX : UInt8 := 120

def EVENT_PREFIX_KEY : Bytes := [EVENT_PREFIX]

def STORE_IDENT_KEY : Bytes := [LOCAL_PREFIX, 0x01]

def REGION_RAFT_PREFIX : UInt8 := 0x02

def REGION_RAFT_PREFIX_KEY : Bytes := [LOCAL_PREFIX, REGION_RAFT_PREFIX]

def REGION_META_PREFIX : UInt8 := 0x03

def REGION_META_PREFIX_KEY : Bytes := [LOCAL_PREFIX, REGION_META_PREFIX]

def RAFT_LOG_SUFFIX : UInt8 := 0x01

def RAFT_STATE_SUFFIX : UInt8 := 0x02

def APPLY_STATE_SUFFIX : UInt8 := 0x03

def REGION_STATE_SUFFIX : UInt8 := 0x01

/-- `BigEndian::write_u64`. -/
def write_u64 (n : Nat) : Bytes := BigEndian.bytes 8 n

def make_region_prefix (region_id : Nat) (suffix : UInt8) : Bytes :=
  REGION_RAFT_PREFIX_KEY ++ write_u64 region_id ++ [suffix]

def make_region_key (region_id : Nat) (suffix : UInt8) (sub_id : Nat) : Bytes :=
  REGION_RAFT_PREFIX_KEY ++ write_u64 region_id ++ [suffix] ++ write_u64 sub_id

def raft_log_key (region_id log_index : Nat) : Bytes :=
  make_region_key region_id RAFT_LOG_SUFFIX log_index

def raft_state_key (region_id : Nat) : Bytes :=
  make_region_prefix region_id RAFT_STATE_SUFFIX

def apply_state_key (region_id : Nat) : Bytes :=
  make_region_prefix region_id APPLY_STATE_SUFFIX

def raft_log_prefix (region_id : Nat) : Bytes :=
  make_region_prefix region_id RAFT_LOG_SUFFIX

/-- The log index in a key; `none` is the panic at a key of another length. -/
def raft_log_index (key : Bytes) : Option Nat :=
  if key.length = 19 then some (BigEndian.value (key.drop 11)) else none

/-- The region and the log index in a key; `none` is the panic at any other key. -/
def decode_raft_log_key (key : Bytes) : Option (Nat × Nat) :=
  if key.length ≠ 19 ∨ ¬REGION_RAFT_PREFIX_KEY.isPrefixOf key ∨
      key[10]? ≠ some RAFT_LOG_SUFFIX then
    none
  else
    some (BigEndian.value ((key.drop 2).take 8), BigEndian.value (key.drop 11))

def validate_data_key (key : Bytes) : Bool := DATA_PREFIX_KEY.isPrefixOf key

def data_key (key : Bytes) : Bytes := DATA_PREFIX_KEY ++ key

/-- The key behind the first byte; `none` is the failed assertion. -/
def origin_data_key (key : Bytes) : Option Bytes :=
  if validate_data_key key then some (key.drop DATA_PREFIX_KEY.length) else none

def dedup_key (key : Bytes) : Bytes := DEDUP_PREFIX_KEY ++ key

def event_key (key : Bytes) : Bytes := EVENT_PREFIX_KEY ++ key

def make_region_meta_key (region_id : Nat) (suffix : UInt8) : Bytes :=
  REGION_META_PREFIX_KEY ++ write_u64 region_id ++ [suffix]

def region_state_key (region_id : Nat) : Bytes :=
  make_region_meta_key region_id REGION_STATE_SUFFIX

theorem append_lt_append_iff {common left right : Bytes} :
    common ++ left < common ++ right ↔ left < right := by
  induction common with
  | nil => rfl
  | cons byte common ih =>
    rw [List.cons_append, List.cons_append, List.cons_lt_cons_iff, ih]
    simp

theorem raft_log_key_lt_iff (region_id : Nat) {left right : Nat} (hleft : left < U64.size)
    (hright : right < U64.size) :
    raft_log_key region_id left < raft_log_key region_id right ↔ left < right := by
  unfold raft_log_key make_region_key
  rw [append_lt_append_iff]
  exact BigEndian.bytes_lt_bytes_iff hleft hright

theorem raft_log_key_le_iff (region_id : Nat) {left right : Nat} (hleft : left < U64.size)
    (hright : right < U64.size) :
    raft_log_key region_id left ≤ raft_log_key region_id right ↔ left ≤ right := by
  rw [← not_lt, raft_log_key_lt_iff region_id hright hleft, not_lt]

theorem raft_log_key_inj (region_id : Nat) {left right : Nat} (hleft : left < U64.size)
    (hright : right < U64.size)
    (heq : raft_log_key region_id left = raft_log_key region_id right) : left = right := by
  have hle := (raft_log_key_le_iff region_id hleft hright).mp heq.le
  have hge := (raft_log_key_le_iff region_id hright hleft).mp heq.ge
  omega

/-- The state of a region stands behind its log. -/
theorem raft_log_key_lt_raft_state_key (region_id log_index : Nat) :
    raft_log_key region_id log_index < raft_state_key region_id := by
  unfold raft_log_key raft_state_key make_region_key make_region_prefix
  rw [List.append_assoc _ [RAFT_LOG_SUFFIX], append_lt_append_iff, List.singleton_append,
    List.cons_lt_cons_iff]
  exact .inl (by decide)

end hologram_kv.keys
