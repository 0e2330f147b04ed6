import Auticuro.TinyMq.RaftEngine

/-! The keys of the raft engine: what is encoded is decoded, and byte order is the
order of regions and indices. -/

namespace hologram_kv.keys

/-- Behind parts of one length the rest decides only where the parts agree. -/
theorem append_lt_append_iff_of_length_eq {left right leftRest rightRest : Bytes}
    (hlength : left.length = right.length) :
    left ++ leftRest < right ++ rightRest ↔
      left < right ∨ left = right ∧ leftRest < rightRest := by
  induction left generalizing right with
  | nil =>
    rw [List.eq_nil_of_length_eq_zero hlength.symm]
    simp
  | cons first left ih =>
    cases right with
    | nil => cases hlength
    | cons second right =>
      rw [List.length_cons, List.length_cons, Nat.succ_inj] at hlength
      rw [List.cons_append, List.cons_append, List.cons_lt_cons_iff, List.cons_lt_cons_iff,
        ih hlength, List.cons.injEq]
      tauto

theorem append_lt_append_of_lt {left right : Bytes} (hless : left < right)
    (hlength : left.length = right.length) (leftRest rightRest : Bytes) :
    left ++ leftRest < right ++ rightRest :=
  (append_lt_append_iff_of_length_eq hlength).mpr (.inl hless)

theorem length_write_u64 (n : Nat) : (write_u64 n).length = 8 := BigEndian.length_bytes 8 n

section Decode

variable {region_id log_index : Nat} {key : Bytes}

/-- A log key by the parts that the decoders read. -/
theorem raft_log_key_parts (region_id log_index : Nat) :
    (raft_log_key region_id log_index).length = 19 ∧
      REGION_RAFT_PREFIX_KEY.isPrefixOf (raft_log_key region_id log_index) ∧
      (raft_log_key region_id log_index)[10]? = some RAFT_LOG_SUFFIX ∧
      ((raft_log_key region_id log_index).drop 2).take 8 = write_u64 region_id ∧
      (raft_log_key region_id log_index).drop 11 = write_u64 log_index := by
  have hregion := length_write_u64 region_id
  have hindex := length_write_u64 log_index
  have hkey : raft_log_key region_id log_index = LOCAL_PREFIX :: REGION_RAFT_PREFIX ::
      (write_u64 region_id ++ RAFT_LOG_SUFFIX :: write_u64 log_index) := by
    simp [raft_log_key, make_region_key, REGION_RAFT_PREFIX_KEY]
  rw [hkey]
  refine ⟨?_, ?_, ?_, ?_, ?_⟩
  · simp [hregion, hindex]
  · simp [REGION_RAFT_PREFIX_KEY]
  · simp [hregion]
  · rw [List.drop_succ_cons, List.drop_succ_cons, List.drop_zero, List.take_left' hregion]
  · simp [List.drop_append, hregion]

theorem decode_raft_log_key_raft_log_key (hregion : region_id < U64.size)
    (hindex : log_index < U64.size) :
    decode_raft_log_key (raft_log_key region_id log_index) = some (region_id, log_index) := by
  obtain ⟨hlength, hbegins, hsuffix, hfirst, hsecond⟩ := raft_log_key_parts region_id log_index
  have haccepted : ¬((raft_log_key region_id log_index).length ≠ 19 ∨
      ¬REGION_RAFT_PREFIX_KEY.isPrefixOf (raft_log_key region_id log_index) ∨
      (raft_log_key region_id log_index)[10]? ≠ some RAFT_LOG_SUFFIX) := by
    rw [not_or, not_or, not_not, not_not, not_not]
    exact ⟨hlength, hbegins, hsuffix⟩
  rw [decode_raft_log_key, if_neg haccepted, hfirst, hsecond, write_u64, write_u64,
    BigEndian.value_bytes hregion, BigEndian.value_bytes hindex]

theorem raft_log_index_raft_log_key (region_id : Nat) (hindex : log_index < U64.size) :
    raft_log_index (raft_log_key region_id log_index) = some log_index := by
  obtain ⟨hlength, -, -, -, hsecond⟩ := raft_log_key_parts region_id log_index
  rw [raft_log_index, if_pos hlength, hsecond, write_u64, BigEndian.value_bytes hindex]

/-- Eight bytes are a number of 64 bits, written. -/
theorem write_u64_value (digits : Bytes) (hlength : digits.length = 8) :
    BigEndian.value digits < U64.size ∧ write_u64 (BigEndian.value digits) = digits := by
  have hlt := BigEndian.value_lt digits
  have hbytes := BigEndian.bytes_value digits
  rw [hlength] at hlt hbytes
  exact ⟨hlt, hbytes⟩

/-- What the decoder accepts is a log key. -/
theorem eq_raft_log_key_of_decode
    (hdecode : decode_raft_log_key key = some (region_id, log_index)) :
    region_id < U64.size ∧ log_index < U64.size ∧ key = raft_log_key region_id log_index := by
  unfold decode_raft_log_key at hdecode
  split at hdecode
  · cases hdecode
  · rename_i haccepted
    rw [not_or, not_or, not_not, not_not, not_not] at haccepted
    obtain ⟨hlength, hbegins, hsuffix⟩ := haccepted
    obtain ⟨rest, rfl⟩ := List.isPrefixOf_iff_prefix.mp hbegins
    have hrest : rest.length = 17 := by
      simp only [REGION_RAFT_PREFIX_KEY, List.length_append, List.length_cons,
        List.length_nil] at hlength
      omega
    have hsplit : rest = rest.take 8 ++ RAFT_LOG_SUFFIX :: rest.drop 9 := by
      have hbyte : rest[8]? = some RAFT_LOG_SUFFIX := hsuffix
      have hdrop := List.drop_eq_getElem?_toList_append (l := rest) (i := 8)
      rw [hbyte] at hdrop
      exact (List.take_append_drop 8 rest).symm.trans (congrArg (rest.take 8 ++ ·) hdrop)
    obtain ⟨hregion, hregionBytes⟩ := write_u64_value (rest.take 8) (by simp [hrest])
    obtain ⟨hindex, hindexBytes⟩ := write_u64_value (rest.drop 9) (by simp [hrest])
    cases hdecode
    refine ⟨hregion, hindex, ?_⟩
    rw [raft_log_key, make_region_key, List.append_assoc, List.append_assoc]
    change _ = REGION_RAFT_PREFIX_KEY ++ (write_u64 (BigEndian.value (rest.take 8)) ++
      RAFT_LOG_SUFFIX :: write_u64 (BigEndian.value (rest.drop 9)))
    rw [hregionBytes, hindexBytes, ← hsplit]

end Decode

section Order

variable {region_id other : Nat} (hregion : region_id < U64.size) (hother : other < U64.size)
include hregion hother

/-- Keys of regions are ordered by the region, and within it by what follows. -/
theorem region_lt_region_iff {rest otherRest : Bytes} :
    REGION_RAFT_PREFIX_KEY ++ write_u64 region_id ++ rest <
        REGION_RAFT_PREFIX_KEY ++ write_u64 other ++ otherRest ↔
      region_id < other ∨ region_id = other ∧ rest < otherRest := by
  have hlength : (write_u64 region_id).length = (write_u64 other).length := by
    rw [length_write_u64, length_write_u64]
  rw [List.append_assoc, List.append_assoc, append_lt_append_iff,
    append_lt_append_iff_of_length_eq hlength, write_u64, write_u64,
    BigEndian.bytes_lt_bytes_iff hregion hother, BigEndian.bytes_inj hregion hother]

theorem raft_log_key_lt_raft_log_key_iff {log_index otherIndex : Nat}
    (hindex : log_index < U64.size) (hotherIndex : otherIndex < U64.size) :
    raft_log_key region_id log_index < raft_log_key other otherIndex ↔
      region_id < other ∨ region_id = other ∧ log_index < otherIndex := by
  unfold raft_log_key make_region_key
  rw [List.append_assoc _ [RAFT_LOG_SUFFIX], List.append_assoc _ [RAFT_LOG_SUFFIX],
    region_lt_region_iff hregion hother, append_lt_append_iff, write_u64, write_u64,
    BigEndian.bytes_lt_bytes_iff hindex hotherIndex]

/-- A state of a region stands behind the log of the region and before the logs
of the next. -/
theorem state_lt_raft_log_key_iff {suffix : UInt8} (hsuffix : RAFT_LOG_SUFFIX < suffix)
    (log_index : Nat) :
    make_region_prefix region_id suffix < raft_log_key other log_index ↔ region_id < other := by
  unfold make_region_prefix raft_log_key make_region_key
  rw [List.append_assoc _ [RAFT_LOG_SUFFIX], region_lt_region_iff hregion hother]
  have hbehind : ¬[suffix] < [RAFT_LOG_SUFFIX] ++ write_u64 log_index := by
    rw [List.singleton_append, List.cons_lt_cons_iff]
    simp [hsuffix.not_gt, hsuffix.ne']
  constructor
  · rintro (hless | ⟨-, hrest⟩)
    · exact hless
    · exact absurd hrest hbehind
  · exact .inl

end Order

/-- The keys under which a store keeps its identity, its regions and their logs. -/
inductive StoreKey where
  | store_ident
  | raft_log (region_id log_index : Nat)
  | raft_state (region_id : Nat)
  | apply_state (region_id : Nat)
  | region_state (region_id : Nat)

namespace StoreKey

def encode : StoreKey → Bytes
  | store_ident => STORE_IDENT_KEY
  | raft_log region_id log_index => raft_log_key region_id log_index
  | raft_state region_id => raft_state_key region_id
  | apply_state region_id => apply_state_key region_id
  | region_state region_id => region_state_key region_id

/-- The numbers in a key have 64 bits. -/
def Valid : StoreKey → Prop
  | store_ident => True
  | raft_log region_id log_index => region_id < U64.size ∧ log_index < U64.size
  | raft_state region_id => region_id < U64.size
  | apply_state region_id => region_id < U64.size
  | region_state region_id => region_id < U64.size

/-- Between two log keys of a region there are only log keys of the region. -/
theorem encode_between_iff {key : StoreKey} (hkey : key.Valid) {region_id low high : Nat}
    (hregion : region_id < U64.size) (hlow : low < U64.size) (hhigh : high < U64.size) :
    (raft_log_key region_id low ≤ key.encode ∧ key.encode < raft_log_key region_id high) ↔
      ∃ log_index, low ≤ log_index ∧ log_index < high ∧ key = raft_log region_id log_index := by
  have hstate : ∀ {other : Nat} {suffix : UInt8}, other < U64.size → RAFT_LOG_SUFFIX < suffix →
      ¬(raft_log_key region_id low ≤ make_region_prefix other suffix ∧
        make_region_prefix other suffix < raft_log_key region_id high) := by
    intro other suffix hother hsuffix
    rw [← not_lt, state_lt_raft_log_key_iff hother hregion hsuffix,
      state_lt_raft_log_key_iff hother hregion hsuffix]
    exact fun hboth => hboth.1 hboth.2
  cases key with
  | store_ident =>
    simp only [reduceCtorEq, and_false, exists_false, iff_false]
    rintro ⟨hstart, -⟩
    refine absurd hstart (not_le.mpr ?_)
    unfold raft_log_key make_region_key
    rw [List.append_assoc, List.append_assoc]
    have hfirst : STORE_IDENT_KEY < REGION_RAFT_PREFIX_KEY := by decide
    exact append_lt_append_of_lt hfirst rfl [] _
  | raft_log other log_index =>
    obtain ⟨hother, hindex⟩ := hkey
    rw [encode, ← not_lt, raft_log_key_lt_raft_log_key_iff hother hregion hindex hlow,
      raft_log_key_lt_raft_log_key_iff hother hregion hindex hhigh]
    simp only [raft_log.injEq]
    constructor
    · rintro ⟨hstart, hend⟩
      exact ⟨log_index, by omega, by omega, by omega, rfl⟩
    · rintro ⟨index, hstart, hend, rfl, rfl⟩
      omega
  | raft_state other | apply_state other =>
    simp only [reduceCtorEq, and_false, exists_false, iff_false]
    exact hstate hkey (by decide)
  | region_state other =>
    simp only [reduceCtorEq, and_false, exists_false, iff_false]
    rintro ⟨-, hend⟩
    refine absurd hend (not_lt.mpr (le_of_lt ?_))
    have hfirst : REGION_RAFT_PREFIX_KEY < REGION_META_PREFIX_KEY := by decide
    rw [encode, region_state_key, make_region_meta_key, raft_log_key, make_region_key,
      List.append_assoc, List.append_assoc, List.append_assoc]
    exact append_lt_append_of_lt hfirst rfl _ _

/-- Only the log keys of a region start like them. -/
theorem starts_with_iff {key : StoreKey} (hkey : key.Valid) {region_id : Nat}
    (hregion : region_id < U64.size) :
    raft_log_prefix region_id <+: key.encode ↔
      ∃ log_index, key = raft_log region_id log_index := by
  have hstarts {other : Nat} {rest : Bytes} (hother : other < U64.size) :
      raft_log_prefix region_id <+: REGION_RAFT_PREFIX_KEY ++ write_u64 other ++ rest ↔
        region_id = other ∧ [RAFT_LOG_SUFFIX] <+: rest := by
    have hlength : (write_u64 region_id).length = (write_u64 other).length := by
      rw [length_write_u64, length_write_u64]
    unfold raft_log_prefix make_region_prefix
    rw [List.append_assoc, List.append_assoc, List.prefix_append_right_inj]
    constructor
    · rintro ⟨behind, heq⟩
      rw [List.append_assoc] at heq
      obtain ⟨hsame, hrest⟩ := List.append_inj heq hlength
      exact ⟨(BigEndian.bytes_inj hregion hother).mp hsame, behind, hrest⟩
    · rintro ⟨rfl, hrest⟩
      exact (List.prefix_append_right_inj _).mpr hrest
  cases key with
  | store_ident =>
    simp only [reduceCtorEq, exists_false, iff_false]
    intro hstart
    have hlength := hstart.length_le
    simp [encode, make_region_prefix, raft_log_prefix, length_write_u64,
      STORE_IDENT_KEY] at hlength
  | raft_log other log_index =>
    rw [encode, raft_log_key, make_region_key, List.append_assoc _ [RAFT_LOG_SUFFIX],
      hstarts hkey.1]
    simp [eq_comm]
  | raft_state other =>
    simp only [reduceCtorEq, exists_false, iff_false]
    rw [encode, raft_state_key, make_region_prefix, hstarts hkey]
    rintro ⟨-, hrest⟩
    revert hrest
    decide
  | apply_state other =>
    simp only [reduceCtorEq, exists_false, iff_false]
    rw [encode, apply_state_key, make_region_prefix, hstarts hkey]
    rintro ⟨-, hrest⟩
    revert hrest
    decide
  | region_state other =>
    simp only [reduceCtorEq, exists_false, iff_false]
    rintro ⟨rest, heq⟩
    simp [encode, make_region_prefix, raft_log_prefix, region_state_key, make_region_meta_key,
      REGION_RAFT_PREFIX_KEY, REGION_META_PREFIX_KEY, REGION_RAFT_PREFIX,
      REGION_META_PREFIX] at heq

end StoreKey

/-- The keys of a database are keys of a store. -/
def StoreKeys (db : RocksDB) : Prop :=
  ∀ entry ∈ db.entries, ∃ key : StoreKey, key.Valid ∧ entry.1 = key.encode

/-- What stands between two log keys of a region are log keys of it. -/
def OnlyLogKeys (db : RocksDB) (region_id low high : Nat) : Prop :=
  ∀ entry ∈ db.entries, raft_log_key region_id low ≤ entry.1 →
    entry.1 < raft_log_key region_id high →
    ∃ log_index < U64.size, entry.1 = raft_log_key region_id log_index

theorem StoreKeys.onlyLogKeys {db : RocksDB} (hdb : StoreKeys db) {region_id low high : Nat}
    (hregion : region_id < U64.size) (hlow : low < U64.size) (hhigh : high < U64.size) :
    OnlyLogKeys db region_id low high := by
  intro entry hentry hstart hend
  obtain ⟨key, hvalid, hkey⟩ := hdb entry hentry
  rw [hkey] at hstart hend ⊢
  obtain ⟨log_index, _, hless, rfl⟩ :=
    (StoreKey.encode_between_iff hvalid hregion hlow hhigh).mp ⟨hstart, hend⟩
  exact ⟨log_index, hless.trans hhigh, rfl⟩

/-- A scan between two log keys of a region meets the stored indices, in order. -/
theorem iterator_opt_raft_log {db : RocksDB} {region_id low high : Nat}
    (hdb : OnlyLogKeys db region_id low high) (hlow : low < U64.size) (hhigh : high < U64.size) :
    db.iterator_opt (raft_log_key region_id low) (raft_log_key region_id high) =
      (List.range' low (high - low)).filterMap fun log_index =>
        (db.get (raft_log_key region_id log_index)).map fun value =>
          (raft_log_key region_id log_index, value) := by
  unfold RocksDB.iterator_opt
  apply OrderedMap.filter_eq_filterMap_range
  · intro left right hless hright
    exact (raft_log_key_lt_iff region_id (by omega) (by omega)).mpr hless
  · intro entry hentry
    rw [decide_eq_true_eq]
    constructor
    · rintro ⟨hstart, hend⟩
      obtain ⟨log_index, hindex, hkey⟩ := hdb entry hentry hstart hend
      rw [hkey] at hstart hend
      exact ⟨log_index, (raft_log_key_le_iff region_id hlow hindex).mp hstart,
        (raft_log_key_lt_iff region_id hindex hhigh).mp hend, hkey⟩
    · rintro ⟨log_index, hstart, hend, hkey⟩
      rw [hkey]
      exact ⟨(raft_log_key_le_iff region_id hlow (by omega)).mpr hstart,
        (raft_log_key_lt_iff region_id (by omega) hhigh).mpr hend⟩

/-- The codec of the log keys: the decoders undo the encoder, only its keys are
accepted, byte order is the order of region and index, and nothing else stands
between two log keys of a region. -/
theorem raft_log_key_codec :
    (∀ region_id < U64.size, ∀ log_index < U64.size,
      decode_raft_log_key (raft_log_key region_id log_index) = some (region_id, log_index) ∧
        raft_log_index (raft_log_key region_id log_index) = some log_index) ∧
      (∀ key, (decode_raft_log_key key).isSome ↔
        ∃ region_id < U64.size, ∃ log_index < U64.size,
          key = raft_log_key region_id log_index) ∧
      (∀ region_id < U64.size, ∀ log_index < U64.size, ∀ other < U64.size,
        ∀ otherIndex < U64.size,
          (raft_log_key region_id log_index < raft_log_key other otherIndex ↔
            toLex (region_id, log_index) < toLex (other, otherIndex))) ∧
      ∀ region_id < U64.size, ∀ low < U64.size, ∀ high < U64.size,
        (∀ key : StoreKey, key.Valid →
          ((raft_log_key region_id low ≤ key.encode ∧ key.encode < raft_log_key region_id high) ↔
            ∃ index, low ≤ index ∧ index < high ∧ key = .raft_log region_id index)) ∧
        ∀ db, StoreKeys db →
          (db.iterator_opt (raft_log_key region_id low)
              (raft_log_key region_id high)).map Prod.fst =
            ((List.range' low (high - low)).filter fun index =>
              (db.get (raft_log_key region_id index)).isSome).map (raft_log_key region_id) := by
  refine ⟨?_, ?_, ?_, ?_⟩
  · intro region_id hregion log_index hindex
    exact ⟨decode_raft_log_key_raft_log_key hregion hindex,
      raft_log_index_raft_log_key region_id hindex⟩
  · intro key
    constructor
    · intro haccepted
      obtain ⟨⟨region_id, log_index⟩, hdecode⟩ := Option.isSome_iff_exists.mp haccepted
      obtain ⟨hregion, hindex, hkey⟩ := eq_raft_log_key_of_decode hdecode
      exact ⟨region_id, hregion, log_index, hindex, hkey⟩
    · rintro ⟨region_id, hregion, log_index, hindex, rfl⟩
      rw [decode_raft_log_key_raft_log_key hregion hindex]
      rfl
  · intro region_id hregion log_index hindex other hother otherIndex hotherIndex
    rw [raft_log_key_lt_raft_log_key_iff hregion hother hindex hotherIndex, Prod.Lex.toLex_lt_toLex]
  · intro region_id hregion low hlow high hhigh
    refine ⟨?_, ?_⟩
    · intro key hkey
      exact StoreKey.encode_between_iff hkey hregion hlow hhigh
    · intro db hdb
      rw [iterator_opt_raft_log (hdb.onlyLogKeys hregion hlow hhigh) hlow hhigh]
      exact OrderedMap.map_fst_filterMap_get db (raft_log_key region_id) _

end hologram_kv.keys
