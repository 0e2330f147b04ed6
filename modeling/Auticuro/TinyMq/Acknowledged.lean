import Auticuro.TinyMq.ReadyRefinement

open Run

namespace hologram_kv

/-- What a peer of a raft group may not forget: its term, its vote and its log. -/
structure PersistentState where
  term : Nat
  vote : Nat
  last_index : Nat
  log : Nat → Entry

namespace PersistentState

def initial : PersistentState where
  term := write_initial_raft_state.hard_state.term
  vote := write_initial_raft_state.hard_state.vote
  last_index := write_initial_raft_state.last_index
  log := CompactedPeer.initial_log

def on_ready (self : PersistentState) (ready : Ready) : PersistentState where
  term := (ready.hs.map HardState.term).getD self.term
  vote := (ready.hs.map HardState.vote).getD self.vote
  last_index := ready.last_index self.last_index
  log := DurablePeer.Consistent.log_on_ready self.log ready

/-- A raft state agrees, in all but the commit index. -/
structure Matches (persistent : PersistentState) (state : RaftLocalState) : Prop where
  term : state.hard_state.term = persistent.term
  vote : state.hard_state.vote = persistent.vote
  last_index : state.last_index = persistent.last_index

variable {persistent other : PersistentState} {state : RaftLocalState}

theorem Matches.of_same (hstate : persistent.Matches state) {later : RaftLocalState}
    (hpersistent : persistent.Matches later) (hother : other.Matches later) :
    other.Matches state where
  term := (hstate.term.trans hpersistent.term.symm).trans hother.term
  vote := (hstate.vote.trans hpersistent.vote.symm).trans hother.vote
  last_index := (hstate.last_index.trans hpersistent.last_index.symm).trans hother.last_index

/-- The memory follows a ready as the persistent state does. -/
theorem Matches.on_ready (codec : RaftCodec) {storage : PeerStorage} {ready : Ready}
    (hmemory : persistent.Matches storage.raft_state)
    (hlast : 0 < (persistent.on_ready ready).last_index) :
    (persistent.on_ready ready).Matches (storage.on_ready codec ready).raft_state := by
  obtain ⟨hindex, -, hhard, -⟩ := storage.on_ready_eq codec ready
  have hsame : ready.last_index storage.last_index = (persistent.on_ready ready).last_index :=
    congrArg ready.last_index hmemory.last_index
  have hstate := hhard (hsame ▸ hlast)
  refine ⟨?_, ?_, hindex.trans hsame⟩
  · change (storage.on_ready codec ready).hard_state.term = _
    rw [hstate]
    cases hhs : ready.hs with
    | none => simpa [PersistentState.on_ready, PeerStorage.hard_state, hhs] using hmemory.term
    | some hs => simp [PersistentState.on_ready, hhs]
  · change (storage.on_ready codec ready).hard_state.vote = _
    rw [hstate]
    cases hhs : ready.hs with
    | none => simpa [PersistentState.on_ready, PeerStorage.hard_state, hhs] using hmemory.vote
    | some hs => simp [PersistentState.on_ready, hhs]

theorem last_index_pos (hpos : 0 < persistent.last_index) {ready : Ready} {floor : Nat}
    (happends : ready.Appends floor persistent.last_index) :
    0 < (persistent.on_ready ready).last_index := by
  change 0 < ready.last_index persistent.last_index
  obtain ⟨-, hsame⟩ | ⟨first, -, hfloor, -, hle, -, -⟩ := happends.cases
  · omega
  · omega

end PersistentState

/-- Validation changes only the commit index of the state that a start has read. -/
theorem PeerStorage.matches_of_new {codec : EnginesCodec} {engines : Engines} {region_id : Nat}
    {storage : PeerStorage} (hnew : PeerStorage.new codec engines region_id = .ok storage)
    {state : RaftLocalState} (hstate : init_raft_state codec engines region_id = .ok state)
    {persistent : PersistentState} (hmatches : persistent.Matches state) :
    persistent.Matches storage.raft_state := by
  obtain ⟨found, hfound, hrest⟩ := Exec.bind_eq_ok_iff.mp hnew
  cases hstate.symm.trans hfound
  obtain ⟨apply_state, -, hrest⟩ := Exec.bind_eq_ok_iff.mp hrest
  obtain ⟨validated, hvalidated, hrest⟩ := Exec.bind_eq_ok_iff.mp hrest
  obtain ⟨last_term, -, hrest⟩ := Exec.bind_eq_ok_iff.mp hrest
  obtain ⟨applied_index_term, -, hok⟩ := Exec.bind_eq_ok_iff.mp hrest
  cases hok
  obtain ⟨commit, -, hrest⟩ := Exec.bind_eq_ok_iff.mp hvalidated
  split at hrest
  · cases hrest
  · split at hrest
    · cases hrest
    · split at hrest
      · cases hrest
      · cases hrest
        exact ⟨hmatches.term, hmatches.vote, hmatches.last_index⟩

namespace CompactedPeer

/-- A peer remembers in the memory and in whatever a crash leaves of the databases. -/
structure Remembers (codec : EnginesCodec) (region_id : Nat) (persistent : PersistentState)
    (peer : CompactedPeer) : Prop where
  held : ∃ state collected begun, Held codec region_id state collected begun peer ∧
    persistent.Matches state
  memory : persistent.Matches peer.storage.raft_state
  log : peer.log = persistent.log
  positive : 0 < persistent.last_index

namespace Remembers

variable {codec : EnginesCodec} {region_id : Nat} {persistent : PersistentState}
  {peer next : CompactedPeer}

section

variable (hpeer : Remembers codec region_id persistent peer)
include hpeer

/-- What was saved of a ready is what the memory becomes, or what was saved before. -/
theorem ready {ready : Ready}
    (happends : ready.Appends peer.storage.truncated_index peer.storage.last_index) :
    Remembers codec region_id (persistent.on_ready ready) (peer.on_ready codec ready) := by
  obtain ⟨⟨state, collected, begun, hheld, hstate⟩, hmemory, hlog, hpos⟩ := hpeer
  have hindex : peer.storage.last_index = persistent.last_index := hmemory.last_index
  have hlast := PersistentState.last_index_pos hpos (hindex ▸ happends)
  have hnext := hmemory.on_ready codec.toRaftCodec hlast
  refine ⟨?_, hnext, congrArg (DurablePeer.Consistent.log_on_ready · ready) hlog, hlast⟩
  obtain hsame | hsynced := peer.on_ready_cases codec ready
  · have hstorage : peer.storage.on_ready codec.toRaftCodec ready = peer.storage :=
      congrArg CompactedPeer.storage hsame
    rw [hstorage] at hnext
    rw [hsame]
    exact ⟨state, collected, begun, hheld, hstate.of_same hmemory hnext⟩
  · obtain ⟨saved, hsaved⟩ := hheld.ready happends
    rw [hsynced]
    refine ⟨saved, collected, begun, hsaved, ?_⟩
    -- the state in the database is the one that was written, or the one before
    have hget := peer.storage.get_state_on_ready codec.toRaftCodec ready
    rw [hheld.region] at hget
    have hfound := hsaved.holds_log.raft_state.symm.trans hget
    split at hfound
    · rw [codec.raft_state.write_to_bytes_inj (Option.some.inj hfound)]
      exact hnext
    · next hunchanged =>
      rw [not_not.mp hunchanged] at hnext
      rw [hheld.holds_log.raft_state] at hfound
      rw [codec.raft_state.write_to_bytes_inj (Option.some.inj hfound)]
      exact hstate.of_same hmemory hnext

/-- The steps that leave the term, the vote and the log. -/
theorem of_held
    (hheld : ∀ {state collected begun}, Held codec region_id state collected begun peer →
      ∃ collected begun, Held codec region_id state collected begun next)
    (hmemory : persistent.Matches peer.storage.raft_state →
      persistent.Matches next.storage.raft_state) (hlog : next.log = peer.log) :
    Remembers codec region_id persistent next := by
  obtain ⟨⟨state, collected, begun, hbefore, hstate⟩, hmatches, hsame, hpos⟩ := hpeer
  obtain ⟨collected', begun', hafter⟩ := hheld hbefore
  exact ⟨⟨state, collected', begun', hafter, hstate⟩, hmemory hmatches, hlog.trans hsame, hpos⟩

theorem step {action : Action} (hstep : peer.step codec action = some next) :
    Remembers codec region_id (action.written.toList.foldl PersistentState.on_ready persistent)
      next := by
  cases CompactedPeer.step_eq_some hstep with
  | ready happends =>
    obtain ⟨-, heq⟩ := Option.ite_none_right_eq_some.mp hstep
    rw [← Option.some.inj heq]
    exact hpeer.ready happends
  | empty_ready =>
    obtain ⟨happends, heq⟩ := Option.ite_none_right_eq_some.mp hstep
    rw [← Option.some.inj heq]
    exact hpeer.ready happends
  | set_commit_index commit =>
    refine hpeer.of_held (fun hheld => ⟨_, _, { hheld with }⟩) (fun hmemory => ?_) rfl
    exact ⟨hmemory.term, hmemory.vote, hmemory.last_index⟩
  | poll hentries hresults =>
    exact hpeer.of_held (fun hheld => ⟨_, _, hheld.end_poll hentries hresults⟩) id rfl
  | on_apply_res hresults =>
    refine hpeer.of_held (fun hheld => ⟨_, _, hheld.post_apply hresults⟩) ?_ ?_
    · rw [on_ready_result_eq]
      exact id
    · rw [on_ready_result_eq]
      rfl
  | run _ hscheduled =>
    exact hpeer.of_held (fun hheld => ⟨_, _, hheld.push_task hscheduled⟩) id rfl
  | run_flush hidle hscheduled =>
    exact hpeer.of_held (fun hheld => ⟨_, _, (hheld.push_task hscheduled).flush hidle⟩) id rfl
  | on_timeout hidle => exact hpeer.of_held (fun hheld => ⟨_, _, hheld.flush hidle⟩) id rfl
  | gc _ hflushing hgc =>
    refine hpeer.of_held (fun hheld => ?_) id rfl
    rw [hheld.region] at hgc
    exact ⟨_, _, hheld.gc_raft_log hflushing hgc⟩
  | write_batch hbatches =>
    exact hpeer.of_held (fun hheld => ⟨_, _, hheld.write_opt hbatches⟩) id rfl
  | restart hnew =>
    obtain ⟨⟨state, collected, begun, hheld, hstate⟩, -, hlog, hpos⟩ := hpeer
    rw [hheld.region] at hnew
    refine ⟨⟨state, _, _, hheld.restart hnew, hstate⟩, ?_, hlog, hpos⟩
    exact PeerStorage.matches_of_new hnew (hheld.raft _).init_raft_state_eq hstate

end

theorem start (codec : EnginesCodec) (engines : Engines) (region_id : Nat) :
    ∃ first, CompactedPeer.start codec (engines.bootstrap codec region_id) region_id = .ok first ∧
      Remembers codec region_id .initial first := by
  obtain ⟨storage, hstart, hheld, -, -⟩ := Held.start codec engines region_id
  have hinitial : PersistentState.initial.Matches write_initial_raft_state := ⟨rfl, rfl, rfl⟩
  obtain ⟨created, hnew, hok⟩ := Exec.bind_eq_ok_iff.mp hstart
  cases hok
  refine ⟨_, hstart, ⟨⟨_, _, _, hheld, hinitial⟩, ?_, rfl, by decide⟩⟩
  have hraft := HoldsLog.bootstrap codec engines region_id initial_log
  exact PeerStorage.matches_of_new hnew hraft.init_raft_state_eq hinitial

/-- The readys of a run are remembered at its end. -/
theorem run {persistent : PersistentState} (hpeer : Remembers codec region_id persistent peer)
    {actions : List Action} (hrun : Run.run (CompactedPeer.step codec) peer actions = some next) :
    Remembers codec region_id
      ((actions.filterMap Action.written).foldl PersistentState.on_ready persistent) next := by
  refine run_history (fun past peer => Remembers codec region_id
    ((past.filterMap Action.written).foldl PersistentState.on_ready persistent) peer)
    (fun past peer action next hpast hstep => ?_) hpeer hrun
  have hnext := hpast.step hstep
  rw [← List.foldl_append] at hnext
  rw [List.filterMap_append]
  cases action <;> exact hnext

end Remembers

end CompactedPeer

namespace poller.Poller

variable {M : Type}

end poller.Poller

end hologram_kv
