import Auticuro.TinyMq.PeerRecovery

namespace hologram_kv

/-- A raft database that holds a state, and a log above an index. -/
structure HoldsLog (codec : RaftCodec) (region_id : Nat) (state : RaftLocalState)
    (log : Nat → Entry) (collected : Nat) (raft : RocksDB) : Prop where
  raft_state : raft.get (keys.raft_state_key region_id) =
    some (codec.raft_state.write_to_bytes state)
  entries : ∀ index, collected < index → index ≤ state.last_index →
    raft.get (keys.raft_log_key region_id index) =
      some (codec.entry.write_to_bytes (log index))

/-- A log is held above a later index, too. -/
theorem HoldsLog.mono {codec : RaftCodec} {region_id collected later : Nat}
    {state : RaftLocalState} {log : Nat → Entry} {raft : RocksDB}
    (hraft : HoldsLog codec region_id state log collected raft) (hle : collected ≤ later) :
    HoldsLog codec region_id state log later raft :=
  ⟨hraft.raft_state, fun index hindex => hraft.entries index (hle.trans_lt hindex)⟩

/-- Deletions up to where the log is held. -/
theorem HoldsLog.delete {codec : RaftCodec} {region_id collected index : Nat}
    {state : RaftLocalState} {log : Nat → Entry} {raft : RocksDB}
    (hraft : HoldsLog codec region_id state log collected raft)
    (hlast : state.last_index + 1 < U64.size) (hindex : index ≤ collected) :
    HoldsLog codec region_id state log collected
      (raft.write_op (.delete (keys.raft_log_key region_id index))) := by
  refine ⟨?_, fun other hother hle => ?_⟩
  · refine (raft.get_write_op ?_).trans hraft.raft_state
    exact (keys.raft_log_key_lt_raft_state_key region_id index).ne'
  · refine (raft.get_write_op ?_).trans (hraft.entries other hother hle)
    intro hkey
    have hsame := keys.raft_log_key_inj region_id (by omega) (by omega) hkey
    omega

/-- A state that can be persisted with a log. -/
structure ValidLog (state : RaftLocalState) (log : Nat → Entry) : Prop where
  init_le : RAFT_INIT_LOG_INDEX ≤ state.hard_state.commit
  commit_le : state.hard_state.commit ≤ state.last_index
  last_lt : state.last_index + 1 < U64.size
  terms : ∀ index, RAFT_INIT_LOG_INDEX < index → index ≤ state.last_index →
    (log index).term ≤ state.hard_state.term

/-- An apply state that is written: the initial one, or one whose commit state is
that of a committed entry of the log. -/
inductive Recorded (log : Nat → Entry) (committed : Nat) : RaftApplyState → Prop where
  | initial : Recorded log committed write_initial_apply_state
  | applied {state : RaftApplyState}
      (hinit : RAFT_INIT_LOG_INDEX ≤ state.truncated_state.index)
      (htruncated : state.truncated_state.index < state.applied_index)
      (happlied : state.applied_index ≤ state.commit_index)
      (hcommit : state.commit_index ≤ committed)
      (hterm : (log state.commit_index).term = state.commit_term) :
      Recorded log committed state

namespace Recorded

variable {log : Nat → Entry} {committed : Nat} {state : RaftApplyState}

section

variable (hrecorded : Recorded log committed state)
include hrecorded

theorem init_le : RAFT_INIT_LOG_INDEX ≤ state.truncated_state.index := by
  cases hrecorded with
  | initial => exact le_rfl
  | applied hinit => exact hinit

theorem truncated_le : state.truncated_state.index ≤ state.applied_index := by
  cases hrecorded with
  | initial => exact le_rfl
  | applied _ htruncated => exact htruncated.le

theorem applied_le (hinit : RAFT_INIT_LOG_INDEX ≤ committed) : state.applied_index ≤ committed := by
  cases hrecorded with
  | initial => exact hinit
  | applied _ _ happlied hcommit => exact happlied.trans hcommit

theorem commit_le : state.commit_index ≤ committed := by
  cases hrecorded with
  | initial => exact Nat.zero_le _
  | applied _ _ _ hcommit => exact hcommit

/-- The log may change above what is committed, and more may be committed. -/
theorem imp {later : Nat → Entry} {committed' : Nat}
    (hlog : ∀ index ≤ committed, later index = log index)
    (hcommit : state.commit_index ≤ committed') : Recorded later committed' state := by
  cases hrecorded with
  | initial => exact .initial
  | applied hinit htruncated happlied hle hterm =>
    refine .applied hinit htruncated happlied hcommit ?_
    rw [hlog _ hle]
    exact hterm

theorem mono {committed' : Nat} (hle : committed ≤ committed') : Recorded log committed' state :=
  hrecorded.imp (fun _ _ => rfl) (hrecorded.commit_le.trans hle)

end

end Recorded

theorem HoldsLog.init_raft_state_eq {codec : EnginesCodec} {engines : Engines}
    {region_id collected : Nat} {state : RaftLocalState} {log : Nat → Entry}
    (hraft : HoldsLog codec.toRaftCodec region_id state log collected engines.raft) :
    init_raft_state codec engines region_id = .ok state := by
  unfold init_raft_state
  rw [get_msg_cf_of_get hraft.raft_state]
  rfl

theorem init_apply_state_eq {codec : EnginesCodec} {engines : Engines} {region_id : Nat}
    {apply_state : RaftApplyState} (hkv : engines.kv.get (keys.apply_state_key region_id) =
      some (codec.apply_state.write_to_bytes apply_state)) :
    init_apply_state codec engines region_id = .ok apply_state := by
  unfold init_apply_state
  rw [get_msg_cf_of_get hkv]
  rfl

theorem get_put_apply_state (codec : EnginesCodec) (region_id : Nat) (kv : RocksDB)
    (apply_state : RaftApplyState) :
    (kv.write_op (put_apply_state codec region_id apply_state)).get
        (keys.apply_state_key region_id) =
      some (codec.apply_state.write_to_bytes apply_state) :=
  (OrderedMap.get_insert kv _ _ _).trans (if_pos rfl)

section Bootstrap

variable (codec : EnginesCodec) (engines : Engines) (region_id : Nat) (log : Nat → Entry)

/-- A bootstrapped region has no log, up to the index that stands for its begin. -/
theorem HoldsLog.bootstrap :
    HoldsLog codec.toRaftCodec region_id write_initial_raft_state log RAFT_INIT_LOG_INDEX
      (engines.bootstrap codec region_id).raft := by
  refine ⟨(OrderedMap.get_insert _ _ _ _).trans (if_pos rfl), fun index hinit hlast => ?_⟩
  exact absurd hlast (not_le.mpr hinit)

theorem get_apply_state_bootstrap :
    (engines.bootstrap codec region_id).kv.get (keys.apply_state_key region_id) =
      some (codec.apply_state.write_to_bytes write_initial_apply_state) :=
  get_put_apply_state codec region_id engines.kv write_initial_apply_state

theorem ValidLog.initial : ValidLog write_initial_raft_state log :=
  ⟨le_rfl, le_rfl, by decide, fun _ hinit hlast => absurd hlast (not_le.mpr hinit)⟩

end Bootstrap

/-- What a storage that was created took from the databases. -/
theorem PeerStorage.new_eq_ok {codec : EnginesCodec} {engines : Engines} {region_id : Nat}
    {storage : PeerStorage} (hnew : PeerStorage.new codec engines region_id = .ok storage) :
    storage.raft = engines.raft ∧ storage.region_id = region_id ∧
      (∃ state, init_raft_state codec engines region_id = .ok state ∧
        storage.last_index = state.last_index) ∧
      init_apply_state codec engines region_id = .ok storage.apply_state ∧
      init_last_term codec engines region_id storage.raft_state storage.apply_state =
        .ok storage.last_term := by
  obtain ⟨state, hstate, hrest⟩ := Exec.bind_eq_ok_iff.mp hnew
  obtain ⟨apply_state, happly, hrest⟩ := Exec.bind_eq_ok_iff.mp hrest
  obtain ⟨validated, hvalidated, hrest⟩ := Exec.bind_eq_ok_iff.mp hrest
  obtain ⟨last_term, hlast, hrest⟩ := Exec.bind_eq_ok_iff.mp hrest
  obtain ⟨applied_index_term, -, hok⟩ := Exec.bind_eq_ok_iff.mp hrest
  cases hok
  refine ⟨rfl, rfl, ⟨state, hstate, ?_⟩, happly, hlast⟩
  obtain ⟨commit, -, hrest⟩ := Exec.bind_eq_ok_iff.mp hvalidated
  -- the commit index is all that validation changes
  split at hrest
  · cases hrest
  · split at hrest
    · cases hrest
    · split at hrest
      · cases hrest
      · cases hrest
        rfl

section New

variable {codec : EnginesCodec} {engines : Engines} {region_id collected : Nat}
  {state : RaftLocalState} {log : Nat → Entry}

theorem HoldsLog.get_entry {raft : RocksDB} {index : Nat}
    (hraft : HoldsLog codec.toRaftCodec region_id state log collected raft)
    (hcollected : collected < index) (hindex : index ≤ state.last_index) :
    raft.get_entry codec.entry region_id index = .ok (some (log index)) :=
  get_msg_cf_of_get (hraft.entries index hcollected hindex)

variable {apply_state : RaftApplyState} {committed : Nat}
  (hraft : HoldsLog codec.toRaftCodec region_id state log collected engines.raft)
  (hvalid : ValidLog state log) (hrecorded : Recorded log committed apply_state)
  (hcollected : collected ≤ apply_state.truncated_state.index)
  (hcommitted : committed ≤ state.last_index)
include hraft hrecorded hcollected hcommitted

/-- The entry at the recorded commit index is there. -/
theorem forward_commit_index_eq :
    forward_commit_index codec engines region_id state apply_state =
      .ok (max state.hard_state.commit apply_state.commit_index) := by
  unfold forward_commit_index
  by_cases hless : state.hard_state.commit < apply_state.commit_index
  · cases hrecorded with
    | initial => exact absurd hless (Nat.not_lt_zero _)
    | applied _ htruncated happlied hcommit hterm =>
      have hentry := hraft.get_entry (by omega : collected < apply_state.commit_index)
        (hcommit.trans hcommitted)
      simp only [if_pos hless, hentry, max_eq_right hless.le]
      change (if decide ((log apply_state.commit_index).term ≠ apply_state.commit_term) = true
        then _ else _) = _
      rw [if_neg (by simp [hterm])]
      rfl
  · simp only [if_neg hless, max_eq_left (not_lt.mp hless)]

include hvalid in
theorem validate_states_eq :
    validate_states codec engines region_id state apply_state =
      .ok { state with hard_state := { state.hard_state with
        commit := max state.hard_state.commit apply_state.commit_index } } := by
  have happlied : apply_state.applied_index ≤
      max state.hard_state.commit apply_state.commit_index := by
    cases hrecorded with
    | initial => exact le_max_of_le_left hvalid.init_le
    | applied _ _ happlied => exact le_max_of_le_right happlied
  have hlast : max state.hard_state.commit apply_state.commit_index ≤ state.last_index :=
    max_le hvalid.commit_le (hrecorded.commit_le.trans hcommitted)
  have hterm : apply_state.commit_term ≤ state.hard_state.term := by
    cases hrecorded with
    | initial => exact Nat.zero_le _
    | applied hinit htruncated happlied hcommit hterm =>
      rw [← hterm]
      exact hvalid.terms _ (by omega) (hcommit.trans hcommitted)
  unfold validate_states
  rw [forward_commit_index_eq hraft hrecorded hcollected hcommitted, Exec.ok_bind,
    if_neg (not_lt.mpr happlied), if_neg (not_lt.mpr hlast), if_neg (not_lt.mpr hterm)]
  rfl

include hvalid in
/-- The last entry is there, unless it is known without. -/
theorem init_last_term_eq (commit : Nat) :
    ∃ last_term, init_last_term codec engines region_id
      { state with hard_state := { state.hard_state with commit := commit } } apply_state =
        .ok last_term := by
  have hinit := hvalid.init_le
  have hle := hvalid.commit_le
  unfold init_last_term
  simp only
  split
  · exact ⟨_, rfl⟩
  · split
    · exact ⟨_, rfl⟩
    · split
      · exact ⟨_, rfl⟩
      · next hzero hfirst htruncated =>
        have happlied : apply_state.truncated_state.index ≤ state.last_index := by
          cases hrecorded with
          | initial => exact hinit.trans hle
          | applied _ htruncated happlied hcommit => omega
        rw [if_neg (by omega), hraft.get_entry (by omega) le_rfl]
        exact ⟨_, rfl⟩

/-- The entry at the applied index is there, unless it is known without. -/
theorem init_applied_index_term_eq :
    ∃ applied_index_term, init_applied_index_term codec engines region_id apply_state =
      .ok applied_index_term := by
  unfold init_applied_index_term
  split
  · exact ⟨_, rfl⟩
  · next hfirst =>
    cases hrecorded with
    | initial => exact absurd rfl hfirst
    | applied _ htruncated happlied hcommit =>
      rw [if_neg htruncated.ne', hraft.get_entry (by omega) (by omega)]
      exact ⟨_, rfl⟩

include hvalid in
/-- A storage that is created from a log and an apply state that was written. -/
theorem PeerStorage.new_eq (hkv : engines.kv.get (keys.apply_state_key region_id) =
      some (codec.apply_state.write_to_bytes apply_state)) :
    ∃ last_term applied_index_term, PeerStorage.new codec engines region_id = .ok {
      raft := engines.raft
      region_id := region_id
      raft_state := { state with hard_state := { state.hard_state with
        commit := max state.hard_state.commit apply_state.commit_index } }
      apply_state := apply_state
      applied_index_term := applied_index_term
      last_term := last_term } := by
  obtain ⟨last_term, hlast⟩ := init_last_term_eq hraft hvalid hrecorded hcollected hcommitted
    (max state.hard_state.commit apply_state.commit_index)
  obtain ⟨applied_index_term, happlied⟩ :=
    init_applied_index_term_eq hraft hrecorded hcollected hcommitted
  refine ⟨last_term, applied_index_term, ?_⟩
  have hstate := hraft.init_raft_state_eq
  have happly := init_apply_state_eq hkv
  unfold PeerStorage.new
  rw [hstate, Exec.ok_bind, happly, Exec.ok_bind,
    validate_states_eq hraft hvalid hrecorded hcollected hcommitted, Exec.ok_bind, hlast,
    Exec.ok_bind, happlied]
  rfl

end New

end hologram_kv
