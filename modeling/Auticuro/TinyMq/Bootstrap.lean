import Auticuro.TinyMq.Restarts

/-! The first start of a store: its writes, and what a kill between them leaves. -/

namespace hologram_kv

def INVALID_ID : Nat := 0

def INIT_EPOCH_VER : Nat := 1

def INIT_EPOCH_CONF_VER : Nat := 1

namespace metapb

inductive PeerRole where
  | Voter
  | Learner
  | IncomingVoter
  | DemotingVoter
  deriving DecidableEq

structure Peer where
  id : Nat
  store_id : Nat
  role : PeerRole
  deriving DecidableEq

structure RegionEpoch where
  conf_ver : Nat
  version : Nat
  deriving DecidableEq

structure Region where
  id : Nat
  start_key : Bytes
  end_key : Bytes
  region_epoch : RegionEpoch
  peers : List Peer
  deriving DecidableEq

end metapb

structure StoreIdent where
  cluster_id : Nat
  store_id : Nat
  deriving DecidableEq

structure RegionLocalState where
  region : metapb.Region
  deriving DecidableEq

/-- The encodings of what a store keeps. -/
structure StoreCodec extends EnginesCodec where
  store_ident : Protobuf StoreIdent
  region_state : Protobuf RegionLocalState

def find_peer (region : metapb.Region) (store_id : Nat) : Option metapb.Peer :=
  region.peers.find? fun peer => peer.store_id = store_id

def new_peer (store_id peer_id : Nat) : metapb.Peer := ⟨peer_id, store_id, .Voter⟩

/-- A region of peers that are given by store and id. -/
def initial_region (region_id : Nat) (peers : List (Nat × Nat)) : metapb.Region where
  id := region_id
  start_key := []
  end_key := []
  region_epoch := ⟨INIT_EPOCH_CONF_VER, INIT_EPOCH_VER⟩
  peers := peers.map fun peer => new_peer peer.1 peer.2

/-- The databases of a store before its first start. -/
structure Engines.Fresh (engines : Engines) : Prop where
  store_ident : engines.kv.get keys.STORE_IDENT_KEY = none
  region_state : engines.kv.get (keys.region_state_key 1) = none
  raft_state : engines.raft.get (keys.raft_state_key 1) = none

/-- A batch that is on disk before anything else happens. -/
inductive DurableWrite where
  | kv (wb : RocksWriteBatch)
  | raft (wb : RocksWriteBatch)

def Engines.write_durably (self : Engines) : DurableWrite → Engines
  | .kv wb => { self with kv := self.kv.write_opt wb }
  | .raft wb => { self with raft := self.raft.write_opt wb }

def bootstrap_store (codec : StoreCodec) (cluster_id store_id : Nat) : List DurableWrite :=
  [.kv [.put keys.STORE_IDENT_KEY (codec.store_ident.write_to_bytes ⟨cluster_id, store_id⟩)]]

def prepare_bootstrap_cluster (codec : StoreCodec) (region : metapb.Region) :
    List DurableWrite :=
  [.kv [.put (keys.region_state_key region.id) (codec.region_state.write_to_bytes ⟨region⟩),
      put_apply_state codec.toEnginesCodec region.id write_initial_apply_state],
    .raft [.put (keys.raft_state_key region.id)
      (codec.raft_state.write_to_bytes write_initial_raft_state)]]

inductive StartPanic where
  | cluster_id_mismatch (ident_cluster_id cluster_id : Nat)
  | invalid_store_ident (ident : StoreIdent)
  /-- The `unwrap` of the region state. -/
  | no_region_state
  /-- No peer of the region is on the store. -/
  | unreachable
  | invalid_peer_id
  | storage (panic : StoragePanic)
  | engine (panic : Panic)
  deriving DecidableEq

/-- The peer of a region on a store, by its storage. -/
def PeerFsm.create (codec : EnginesCodec) (store_id : Nat) (engines : Engines)
    (region : metapb.Region) : Except StartPanic PeerStorage :=
  match find_peer region store_id with
  | none => .error .unreachable
  | some peer =>
    if peer.id = INVALID_ID then
      .error .invalid_peer_id
    else
      (PeerStorage.new codec engines region.id).mapError .storage

/-- The region with the one id there is, and its peer. -/
def RaftPollerBuilder.init (codec : StoreCodec) (engines : Engines) (store_id : Nat) :
    Except StartPanic PeerStorage := do
  let local_state ← (engines.kv.get_msg_cf codec.region_state
    (keys.region_state_key 1)).mapError .engine
  match local_state with
  | none => .error .no_region_state
  | some local_state =>
    PeerFsm.create codec.toEnginesCodec store_id engines local_state.region

theorem RaftPollerBuilder.init_of_region {codec : StoreCodec} {engines : Engines}
    {region : metapb.Region} (hregion : engines.kv.get (keys.region_state_key 1) =
      some (codec.region_state.write_to_bytes ⟨region⟩)) (store_id : Nat) :
    init codec engines store_id = PeerFsm.create codec.toEnginesCodec store_id engines region := by
  unfold init
  rw [get_msg_cf_of_get hregion]
  rfl

namespace node

structure Node where
  cluster_id : Nat
  cluster_size : Nat
  store_id : Nat

namespace Node

variable (self : Node) (codec : StoreCodec)

/-- The store id, or `INVALID_ID` for a store that is not bootstrapped. -/
def check_store (engines : Engines) : Except StartPanic Nat := do
  let res ← (engines.kv.get_msg_cf codec.store_ident keys.STORE_IDENT_KEY).mapError .engine
  match res with
  | none => return INVALID_ID
  | some ident =>
    if ident.cluster_id ≠ self.cluster_id then
      .error (.cluster_id_mismatch ident.cluster_id self.cluster_id)
    else if ident.store_id ≠ self.store_id then
      .error (.invalid_store_ident ident)
    else
      return self.store_id

/-- The region of a cluster: store and peer `i` for each `i` up to its size. -/
def first_region : metapb.Region :=
  initial_region 1 ((List.range' 1 self.cluster_size).map fun i => (i, i))

def bootstrap_writes : List DurableWrite :=
  bootstrap_store codec self.cluster_id self.store_id ++
    prepare_bootstrap_cluster codec self.first_region

/-- The writes that are made, one after the other. -/
def try_bootstrap_store (engines : Engines) : Except StartPanic (List DurableWrite) := do
  let store_id ← self.check_store codec engines
  return if store_id = INVALID_ID then self.bootstrap_writes codec else []

/-- A start that is killed after so many of its writes. -/
def killed_start (engines : Engines) (count : Nat) : Except StartPanic Engines := do
  let writes ← self.try_bootstrap_store codec engines
  return (writes.take count).foldl Engines.write_durably engines

/-- A start that is not killed. -/
def start (engines : Engines) : Except StartPanic Engines := do
  let writes ← self.try_bootstrap_store codec engines
  return writes.foldl Engines.write_durably engines

def killed_starts (engines : Engines) (counts : List Nat) : Except StartPanic Engines :=
  counts.foldlM (self.killed_start codec) engines

end Node

/-- All that a bootstrapped store has. -/
structure Bootstrapped (node : Node) (codec : StoreCodec) (engines : Engines) : Prop where
  store_ident : engines.kv.get keys.STORE_IDENT_KEY =
    some (codec.store_ident.write_to_bytes ⟨node.cluster_id, node.store_id⟩)
  region_state : engines.kv.get (keys.region_state_key 1) =
    some (codec.region_state.write_to_bytes ⟨node.first_region⟩)
  apply_state : engines.kv.get (keys.apply_state_key 1) =
    some (codec.apply_state.write_to_bytes write_initial_apply_state)
  raft_state : engines.raft.get (keys.raft_state_key 1) =
    some (codec.raft_state.write_to_bytes write_initial_raft_state)

namespace Node

variable {self : Node} {codec : StoreCodec} {engines : Engines}

/-- A store without an identity is bootstrapped. -/
theorem try_bootstrap_store_of_none (hnone : engines.kv.get keys.STORE_IDENT_KEY = none) :
    self.try_bootstrap_store codec engines = .ok (self.bootstrap_writes codec) := by
  unfold try_bootstrap_store check_store RocksDB.get_msg_cf
  rw [hnone]
  rfl

/-- A store with its identity is not looked at further. -/
theorem try_bootstrap_store_of_ident (hident : engines.kv.get keys.STORE_IDENT_KEY =
      some (codec.store_ident.write_to_bytes ⟨self.cluster_id, self.store_id⟩)) :
    self.try_bootstrap_store codec engines =
      .ok (if self.store_id = INVALID_ID then self.bootstrap_writes codec else []) := by
  unfold try_bootstrap_store check_store
  rw [get_msg_cf_of_get hident]
  simp only [Except.mapError, Exec.ok_bind, ne_eq, not_true_eq_false, if_false]
  rfl

/-- What so many of the writes leave. -/
def after_writes (self : Node) (codec : StoreCodec) (engines : Engines) (count : Nat) : Engines :=
  ((self.bootstrap_writes codec).take count).foldl Engines.write_durably engines

variable {count : Nat}

theorem after_writes_of_le (engines : Engines) (hcount : 3 ≤ count) :
    self.after_writes codec engines count = self.after_writes codec engines 3 := by
  unfold after_writes
  rw [List.take_of_length_le hcount]
  rfl

theorem kv_after_one (self : Node) (codec : StoreCodec) (engines : Engines) :
    (self.after_writes codec engines 1).kv = engines.kv.insert keys.STORE_IDENT_KEY
      (codec.store_ident.write_to_bytes ⟨self.cluster_id, self.store_id⟩) := rfl

theorem kv_after_two (self : Node) (codec : StoreCodec) (engines : Engines) :
    (self.after_writes codec engines 2).kv =
      ((self.after_writes codec engines 1).kv.insert (keys.region_state_key 1)
        (codec.region_state.write_to_bytes ⟨self.first_region⟩)).insert (keys.apply_state_key 1)
          (codec.apply_state.write_to_bytes write_initial_apply_state) := rfl

theorem raft_after_three (self : Node) (codec : StoreCodec) (engines : Engines) :
    (self.after_writes codec engines 3).raft = engines.raft.insert (keys.raft_state_key 1)
      (codec.raft_state.write_to_bytes write_initial_raft_state) := rfl

/-- The kv database is complete with the second write. -/
theorem get_kv_after_two (self : Node) (codec : StoreCodec) (engines : Engines) :
    (self.after_writes codec engines 2).kv.get keys.STORE_IDENT_KEY =
        some (codec.store_ident.write_to_bytes ⟨self.cluster_id, self.store_id⟩) ∧
      (self.after_writes codec engines 2).kv.get (keys.region_state_key 1) =
        some (codec.region_state.write_to_bytes ⟨self.first_region⟩) ∧
      (self.after_writes codec engines 2).kv.get (keys.apply_state_key 1) =
        some (codec.apply_state.write_to_bytes write_initial_apply_state) := by
  rw [kv_after_two, kv_after_one]
  refine ⟨?_, ?_, ?_⟩
  · rw [OrderedMap.get_insert, if_neg (by decide), OrderedMap.get_insert, if_neg (by decide),
      OrderedMap.get_insert, if_pos rfl]
  · rw [OrderedMap.get_insert, if_neg (by decide), OrderedMap.get_insert, if_pos rfl]
  · rw [OrderedMap.get_insert, if_pos rfl]

theorem bootstrapped_after_writes (self : Node) (codec : StoreCodec) (engines : Engines)
    (hcount : 3 ≤ count) : Bootstrapped self codec (self.after_writes codec engines count) := by
  obtain ⟨hident, hregion, happly⟩ := self.get_kv_after_two codec engines
  rw [after_writes_of_le engines hcount]
  refine ⟨hident, hregion, happly, ?_⟩
  rw [raft_after_three, OrderedMap.get_insert, if_pos rfl]

/-- The identity is the first write. -/
theorem get_ident_after_writes (engines : Engines) (hcount : 0 < count) :
    (self.after_writes codec engines count).kv.get keys.STORE_IDENT_KEY =
      some (codec.store_ident.write_to_bytes ⟨self.cluster_id, self.store_id⟩) := by
  obtain rfl | rfl | hall : count = 1 ∨ count = 2 ∨ 3 ≤ count := by omega
  · rw [kv_after_one, OrderedMap.get_insert, if_pos rfl]
  · exact (self.get_kv_after_two codec engines).1
  · exact (self.bootstrapped_after_writes codec engines hall).store_ident

/-- After the first write the region is missing, after the second the raft state. -/
theorem missing_after_writes (self : Node) (codec : StoreCodec) (hfresh : engines.Fresh)
    (hpos : 0 < count) (hcount : count < 3) :
    (self.after_writes codec engines count).kv.get (keys.region_state_key 1) = none ∨
      (self.after_writes codec engines count).kv.get (keys.region_state_key 1) =
          some (codec.region_state.write_to_bytes ⟨self.first_region⟩) ∧
        (self.after_writes codec engines count).raft.get (keys.raft_state_key 1) = none := by
  obtain rfl | rfl : count = 1 ∨ count = 2 := by omega
  · rw [kv_after_one, OrderedMap.get_insert, if_neg (by decide)]
    exact .inl hfresh.region_state
  · exact .inr ⟨(self.get_kv_after_two codec engines).2.1, hfresh.raft_state⟩

/-- In both cases the peer is not created. -/
theorem init_after_writes (hfresh : engines.Fresh) (hpos : 0 < count) (hcount : count < 3)
    (store_id : Nat) :
    ∃ panic, RaftPollerBuilder.init codec (self.after_writes codec engines count) store_id =
      .error panic := by
  obtain hregion | ⟨hregion, hraft⟩ :=
    self.missing_after_writes codec hfresh hpos hcount
  · refine ⟨.no_region_state, ?_⟩
    unfold RaftPollerBuilder.init RocksDB.get_msg_cf
    rw [hregion]
    rfl
  · have hnew : PeerStorage.new codec.toEnginesCodec (self.after_writes codec engines count) 1 =
        .error .unreachable := by
      unfold PeerStorage.new init_raft_state RocksDB.get_msg_cf
      rw [hraft]
      rfl
    rw [RaftPollerBuilder.init_of_region hregion, PeerFsm.create]
    cases find_peer self.first_region store_id with
    | none => exact ⟨_, rfl⟩
    | some peer =>
      simp only
      split
      · exact ⟨_, rfl⟩
      · change ∃ panic, (PeerStorage.new codec.toEnginesCodec
          (self.after_writes codec engines count) 1).mapError _ = Except.error panic
        rw [hnew]
        exact ⟨_, rfl⟩

end Node

namespace Bootstrapped

variable {node : Node} {codec : StoreCodec} {engines : Engines}

/-- The storage of a bootstrapped store is created. -/
theorem new_eq (hstore : Bootstrapped node codec engines) :
    ∃ storage, PeerStorage.new codec.toEnginesCodec engines 1 = .ok storage := by
  have hraft : HoldsLog codec.toRaftCodec 1 write_initial_raft_state (fun _ => ⟨0, 0, none⟩)
      RAFT_INIT_LOG_INDEX engines.raft := by
    refine ⟨hstore.raft_state, fun index hinit hlast => ?_⟩
    exact absurd hlast (not_le.mpr hinit)
  have hvalid : ValidLog write_initial_raft_state fun _ => ⟨0, 0, none⟩ :=
    ⟨le_rfl, le_rfl, by decide, fun index _ _ => Nat.zero_le _⟩
  have hrecorded : Recorded (fun _ => ⟨0, 0, none⟩) RAFT_INIT_LOG_INDEX
      write_initial_apply_state := .initial
  obtain ⟨last_term, applied_index_term, hnew⟩ :=
    PeerStorage.new_eq hraft hvalid hrecorded le_rfl le_rfl hstore.apply_state
  exact ⟨_, hnew⟩

end Bootstrapped

/-- The peer of a store that is in the cluster. -/
theorem Node.find_peer_first_region (self : Node) (hfirst : 1 ≤ self.store_id)
    (hlast : self.store_id ≤ self.cluster_size) :
    find_peer self.first_region self.store_id = some (new_peer self.store_id self.store_id) := by
  have hfind : (List.range' 1 self.cluster_size).find? (fun i => i = self.store_id) =
      some self.store_id := by
    rw [List.find?_range'_eq_some]
    refine ⟨decide_eq_true rfl, List.mem_range'_1.mpr ⟨hfirst, by omega⟩, ?_⟩
    intro i _ hless
    simp [hless.ne]
  unfold find_peer first_region initial_region
  rw [List.find?_map, List.find?_map]
  change Option.map _ (Option.map _
    ((List.range' 1 self.cluster_size).find? fun i => i = self.store_id)) = _
  rw [hfind]
  rfl

/-- A store of the cluster that is bootstrapped starts. -/
theorem Bootstrapped.init_eq {node : Node} {codec : StoreCodec} {engines : Engines}
    (hstore : Bootstrapped node codec engines) (hfirst : 1 ≤ node.store_id)
    (hlast : node.store_id ≤ node.cluster_size) :
    ∃ storage, RaftPollerBuilder.init codec engines node.store_id = .ok storage := by
  obtain ⟨storage, hnew⟩ := hstore.new_eq
  refine ⟨storage, ?_⟩
  have hid : (new_peer node.store_id node.store_id).id ≠ INVALID_ID := by
    change node.store_id ≠ 0
    omega
  rw [RaftPollerBuilder.init_of_region hstore.region_state, PeerFsm.create,
    node.find_peer_first_region hfirst hlast]
  simp only [if_neg hid]
  change (PeerStorage.new codec.toEnginesCodec engines 1).mapError _ = _
  rw [hnew]
  rfl

namespace Node

variable {self : Node} {codec : StoreCodec} {engines : Engines}

section Ident

variable (hident : engines.kv.get keys.STORE_IDENT_KEY =
    some (codec.store_ident.write_to_bytes ⟨self.cluster_id, self.store_id⟩))
  (hid : self.store_id ≠ INVALID_ID)
include hident hid

/-- Once there is an identity, no start writes anything. -/
theorem killed_start_of_ident (count : Nat) :
    self.killed_start codec engines count = .ok engines := by
  unfold killed_start
  rw [try_bootstrap_store_of_ident hident, if_neg hid, Exec.ok_bind, List.take_nil]
  rfl

theorem start_of_ident : self.start codec engines = .ok engines := by
  unfold start
  rw [try_bootstrap_store_of_ident hident, if_neg hid]
  rfl

theorem killed_starts_of_ident (counts : List Nat) :
    self.killed_starts codec engines counts = .ok engines := by
  induction counts with
  | nil => rfl
  | cons count counts ih =>
    unfold killed_starts
    rw [List.foldlM_cons, killed_start_of_ident hident hid, Exec.ok_bind]
    exact ih

end Ident

/-- The first start that writes decides what is there. -/
theorem killed_starts_of_none (hnone : engines.kv.get keys.STORE_IDENT_KEY = none)
    (hid : self.store_id ≠ INVALID_ID) (counts : List Nat) :
    self.killed_starts codec engines counts =
      .ok (self.after_writes codec engines ((counts.find? (0 < ·)).getD 0)) := by
  induction counts with
  | nil => rfl
  | cons count counts ih =>
    have hfirst : self.killed_start codec engines count =
        .ok (self.after_writes codec engines count) := by
      unfold killed_start
      rw [try_bootstrap_store_of_none hnone]
      rfl
    unfold killed_starts
    rw [List.foldlM_cons, hfirst, Exec.ok_bind]
    by_cases hcount : 0 < count
    · have hfind : (count :: counts).find? (0 < ·) = some count :=
        List.find?_cons_of_pos (by simpa using hcount)
      rw [hfind]
      exact killed_starts_of_ident (get_ident_after_writes engines hcount) hid counts
    · rw [List.find?_cons_of_neg (by simpa using hcount), Nat.eq_zero_of_not_pos hcount]
      exact ih

/-- A store with the id that stands for no store is bootstrapped at every start. -/
theorem killed_starts_of_invalid (hid : self.store_id = INVALID_ID) (counts : List Nat)
    (hwritten : self.try_bootstrap_store codec engines = .ok (self.bootstrap_writes codec)) :
    ∃ killed, self.killed_starts codec engines counts = .ok killed ∧
      self.try_bootstrap_store codec killed = .ok (self.bootstrap_writes codec) := by
  induction counts generalizing engines with
  | nil => exact ⟨engines, rfl, hwritten⟩
  | cons count counts ih =>
    have hfirst : self.killed_start codec engines count =
        .ok (self.after_writes codec engines count) := by
      unfold killed_start
      rw [hwritten]
      rfl
    have hagain : self.try_bootstrap_store codec (self.after_writes codec engines count) =
        .ok (self.bootstrap_writes codec) := by
      by_cases hcount : 0 < count
      · rw [try_bootstrap_store_of_ident (get_ident_after_writes engines hcount), if_pos hid]
      · rw [Nat.eq_zero_of_not_pos hcount]
        exact hwritten
    obtain ⟨killed, hkilled, hlast⟩ := ih hagain
    refine ⟨killed, ?_, hlast⟩
    unfold killed_starts
    rw [List.foldlM_cons, hfirst, Exec.ok_bind]
    exact hkilled

/-- The first start that wrote anything made all its writes, or the store has the
id that stands for none. -/
def Uncut (self : Node) (counts : List Nat) : Prop :=
  self.store_id = INVALID_ID ∨ ∀ count ∈ counts.find? (0 < ·), 3 ≤ count

instance Uncut.decidable (self : Node) (counts : List Nat) : Decidable (self.Uncut counts) :=
  inferInstanceAs (Decidable (_ ∨ ∀ count ∈ _, _))

theorem start_of_writes
    (hwrites : self.try_bootstrap_store codec engines = .ok (self.bootstrap_writes codec)) :
    self.start codec engines = .ok (self.after_writes codec engines 3) := by
  unfold start
  rw [hwrites]
  rfl

/-- What a start that is not killed leaves. -/
theorem start_after_killed_starts (self : Node) (codec : StoreCodec) (hfresh : engines.Fresh)
    (counts : List Nat) :
    ∃ last, (self.killed_starts codec engines counts >>= self.start codec) = .ok last ∧
      (self.Uncut counts → Bootstrapped self codec last) ∧
      (¬self.Uncut counts → ∃ count, 0 < count ∧ count < 3 ∧
        last = self.after_writes codec engines count) := by
  by_cases hid : self.store_id = INVALID_ID
  · obtain ⟨killed, hkilled, hwrites⟩ :=
      killed_starts_of_invalid hid counts (try_bootstrap_store_of_none hfresh.store_ident)
    rw [hkilled, Exec.ok_bind, start_of_writes hwrites]
    refine ⟨_, rfl, fun _ => self.bootstrapped_after_writes codec killed le_rfl, fun hcut => ?_⟩
    exact absurd (.inl hid) hcut
  · rw [killed_starts_of_none hfresh.store_ident hid, Exec.ok_bind]
    cases hfirst : counts.find? (0 < ·) with
    | none =>
      have hwrites : self.try_bootstrap_store codec (self.after_writes codec engines 0) =
          .ok (self.bootstrap_writes codec) := try_bootstrap_store_of_none hfresh.store_ident
      rw [Option.getD_none, start_of_writes hwrites]
      refine ⟨_, rfl, fun _ => self.bootstrapped_after_writes codec _ le_rfl, fun hcut => ?_⟩
      refine absurd (.inr fun count hcount => ?_) hcut
      rw [hfirst] at hcount
      cases hcount
    | some count =>
      have hpos : 0 < count := by simpa using List.find?_some hfirst
      rw [Option.getD_some, start_of_ident (get_ident_after_writes engines hpos) hid]
      refine ⟨_, rfl, fun huncut => ?_, fun hcut => ⟨count, hpos, ?_, rfl⟩⟩
      · exact self.bootstrapped_after_writes codec engines (huncut.resolve_left hid count hfirst)
      · by_contra hless
        refine hcut (.inr fun other hother => ?_)
        rw [hfirst] at hother
        cases hother
        exact not_lt.mp hless

/-- A start that is not killed leaves a bootstrapped store, which is then found,
exactly when no start before it was cut short between its first and its last write.
Else no start succeeds. -/
theorem start_bootstraps_iff (self : Node) (codec : StoreCodec) (hfresh : engines.Fresh)
    (counts : List Nat) :
    ∃ last, (self.killed_starts codec engines counts >>= self.start codec) = .ok last ∧
      (Bootstrapped self codec last ↔ self.Uncut counts) ∧
      (self.Uncut counts →
        (∃ storage, PeerStorage.new codec.toEnginesCodec last 1 = .ok storage) ∧
        (1 ≤ self.store_id → self.store_id ≤ self.cluster_size →
          ∃ storage, RaftPollerBuilder.init codec last self.store_id = .ok storage)) ∧
      (¬self.Uncut counts →
        ∃ panic, RaftPollerBuilder.init codec last self.store_id = .error panic) := by
  obtain ⟨last, hstart, huncut, hcut⟩ := self.start_after_killed_starts codec hfresh counts
  refine ⟨last, hstart, ⟨fun hlast => ?_, huncut⟩, fun h => ?_, fun h => ?_⟩
  · by_contra h
    obtain ⟨count, hpos, hless, rfl⟩ := hcut h
    obtain hregion | ⟨-, hraft⟩ :=
      self.missing_after_writes codec hfresh hpos hless
    · rw [hlast.region_state] at hregion
      cases hregion
    · rw [hlast.raft_state] at hraft
      cases hraft
  · exact ⟨(huncut h).new_eq, (huncut h).init_eq⟩
  · obtain ⟨count, hpos, hless, rfl⟩ := hcut h
    exact init_after_writes hfresh hpos hless self.store_id

section Plain

open PrefixCode

def plainPeer : PrefixCode metapb.Peer :=
  (nat.pair (nat.pair nat)).map
    (fun peer => (peer.id, peer.store_id,
      match peer.role with
      | .Voter => 0
      | .Learner => 1
      | .IncomingVoter => 2
      | .DemotingVoter => 3))
    (fun parts => ⟨parts.1, parts.2.1,
      match parts.2.2 with
      | 0 => .Voter
      | 1 => .Learner
      | 2 => .IncomingVoter
      | _ => .DemotingVoter⟩)
    (fun peer => by
      obtain ⟨id, store_id, role⟩ := peer
      cases role <;> rfl)

def plainRegion : PrefixCode metapb.Region :=
  (nat.pair (byte.list.pair (byte.list.pair (nat.pair (nat.pair plainPeer.list))))).map
    (fun region => (region.id, region.start_key, region.end_key, region.region_epoch.conf_ver,
      region.region_epoch.version, region.peers))
    (fun parts => ⟨parts.1, parts.2.1, parts.2.2.1, ⟨parts.2.2.2.1, parts.2.2.2.2.1⟩,
      parts.2.2.2.2.2⟩)
    (fun _ => rfl)

def plainIdent : PrefixCode StoreIdent :=
  (nat.pair nat).map (fun ident => (ident.cluster_id, ident.store_id))
    (fun parts => ⟨parts.1, parts.2⟩) (fun _ => rfl)

def plainStoreCodec : StoreCodec where
  toEnginesCodec := DurablePeer.plainEnginesCodec
  store_ident :=
    { write_to_bytes := plainIdent.write
      merge_from_bytes := plainIdent.read
      merge_write := plainIdent.read_write }
  region_state :=
    { write_to_bytes := fun state => plainRegion.write state.region
      merge_from_bytes := fun bytes => (plainRegion.read bytes).map RegionLocalState.mk
      merge_write := by
        intro state
        rw [plainRegion.read_write]
        rfl }

end Plain

/-- The first of three stores. -/
def firstOfThree : Node := ⟨1, 3, 1⟩

def emptyEngines : Engines := ⟨.empty, .empty⟩

theorem emptyEngines_fresh : emptyEngines.Fresh := ⟨rfl, rfl, rfl⟩

theorem start_bootstraps_after_full_start :
    ∃ last, (firstOfThree.killed_starts plainStoreCodec emptyEngines [0, 3, 1] >>=
        firstOfThree.start plainStoreCodec) = .ok last ∧
      Bootstrapped firstOfThree plainStoreCodec last ∧
      ∃ storage, RaftPollerBuilder.init plainStoreCodec last 1 = .ok storage := by
  have huncut : firstOfThree.Uncut [0, 3, 1] := by decide
  obtain ⟨last, hstart, hlast, hfound, -⟩ :=
    firstOfThree.start_bootstraps_iff plainStoreCodec emptyEngines_fresh [0, 3, 1]
  exact ⟨last, hstart, hlast.mpr huncut, (hfound huncut).2 (by decide) (by decide)⟩

/-- A start is killed after its first write, or after its second; the next one
finds the identity and leaves the store as it is. -/
theorem killed_start_leaves_store_incomplete :
    (∃ last, (firstOfThree.killed_starts plainStoreCodec emptyEngines [1] >>=
        firstOfThree.start plainStoreCodec) = .ok last ∧
      last.kv.get (keys.region_state_key 1) = none ∧
      RaftPollerBuilder.init plainStoreCodec last 1 = .error .no_region_state) ∧
    ∃ last, (firstOfThree.killed_starts plainStoreCodec emptyEngines [2] >>=
        firstOfThree.start plainStoreCodec) = .ok last ∧
      last.raft.get (keys.raft_state_key 1) = none ∧
      RaftPollerBuilder.init plainStoreCodec last 1 = .error (.storage .unreachable) := by
  exact ⟨⟨_, rfl, rfl, rfl⟩, ⟨_, rfl, rfl, rfl⟩⟩

end Node

end node

end hologram_kv
