import Auticuro.TinyMq.HeldLog

namespace hologram_kv

open DurablePeer.Consistent (log_on_ready log_on_ready_of_le)

/-- A truncated state that is one of the log, up to an index. -/
structure RaftTruncatedState.Matches (log : Nat → Entry) (bound : Nat)
    (truncated : RaftTruncatedState) : Prop where
  init_le : RAFT_INIT_LOG_INDEX ≤ truncated.index
  le_bound : truncated.index ≤ bound
  term : (log truncated.index).term = truncated.term

namespace RaftTruncatedState.Matches

variable {log later : Nat → Entry} {bound further : Nat} {truncated : RaftTruncatedState}

theorem mono (hmatches : truncated.Matches log bound) (hle : bound ≤ further) :
    truncated.Matches log further :=
  { hmatches with le_bound := hmatches.le_bound.trans hle }

/-- The log may change above the index. -/
theorem congr (hmatches : truncated.Matches log bound)
    (hlog : ∀ index ≤ bound, later index = log index) : truncated.Matches later bound :=
  { hmatches with
    term := by
      rw [hlog _ hmatches.le_bound]
      exact hmatches.term }

end RaftTruncatedState.Matches

/-- The term of the last entry, read or known, is that of the log. -/
theorem init_last_term_eq_term {codec : EnginesCodec} {engines : Engines}
    {region_id collected last_term : Nat} {state raft_state : RaftLocalState}
    {apply_state : RaftApplyState} {log : Nat → Entry}
    (hraft : HoldsLog codec.toRaftCodec region_id state log collected engines.raft)
    (hlast : raft_state.last_index = state.last_index)
    (hcollected : collected ≤ apply_state.truncated_state.index)
    (hmatches : apply_state.truncated_state.Matches log state.last_index)
    (hbase : (log RAFT_INIT_LOG_INDEX).term = RAFT_INIT_LOG_TERM)
    (hterm : init_last_term codec engines region_id raft_state apply_state = .ok last_term) :
    last_term = (log state.last_index).term := by
  have hinit := hmatches.init_le
  have hle := hmatches.le_bound
  unfold init_last_term at hterm
  simp only [hlast] at hterm
  split at hterm
  · next hzero =>
    rw [hzero] at hle
    exact absurd (hinit.trans hle) (by decide)
  · split at hterm
    · next hfirst =>
      cases hterm
      rw [hfirst]
      exact hbase.symm
    · split at hterm
      · next htruncated =>
        cases hterm
        rw [htruncated]
        exact hmatches.term.symm
      · split at hterm
        · cases hterm
        · rw [hraft.get_entry (by omega) le_rfl] at hterm
          cases hterm
          rfl

namespace CompactedPeer

variable (codec : EnginesCodec)

/-- The compactions that are carried out in a round. -/
def compactions (self : CompactedPeer) (tasks : List (List Entry)) : List RaftTruncatedState :=
  ((self.apply_state.poll tasks).toOption.getD []).flatMap fun res =>
    res.exec_res.map ExecResult.truncated_state

/-- What raft guarantees. What the apply thread has truncated is committed, and no
ready overwrites it. The terms do not go back along the log, from there on. A
compaction is at an entry of the log and has its term. -/
def RaftTerms (self : CompactedPeer) : Action → Prop
  | .ready ready =>
    ready.Appends self.apply_state.truncated_state.index self.storage.last_index ∧
      ∀ high ≤ ready.last_index self.storage.last_index, ∀ low ≤ high,
        self.apply_state.truncated_state.index ≤ low →
        (log_on_ready self.log ready low).term ≤ (log_on_ready self.log ready high).term
  | .poll tasks => ∀ truncated ∈ self.compactions tasks,
    truncated.index ≤ self.storage.last_index ∧
      (self.log truncated.index).term = truncated.term
  | _ => True

instance RaftTerms.decidable (self : CompactedPeer) : ∀ action, Decidable (self.RaftTerms action)
  | .ready _ => inferInstanceAs (Decidable (_ ∧ ∀ high ≤ _, ∀ low ≤ high, _ → _))
  | .poll _ => inferInstanceAs (Decidable (∀ truncated ∈ _, _))
  | .set_commit_index _ | .on_apply_res | .run | .on_timeout | .gc | .write_batch
  | .restart _ _ => .isTrue trivial

/-- The terms that are kept apart from the log are those of the log: the last one, and
that of the truncated index in memory, in the results on their way and in whatever a
crash leaves of the kv database. -/
structure Termed (region_id : Nat) (peer : CompactedPeer) : Prop where
  indices : ∀ index, RAFT_INIT_LOG_INDEX < index → index ≤ peer.storage.last_index →
    (peer.log index).index = index
  base : (peer.log RAFT_INIT_LOG_INDEX).term = RAFT_INIT_LOG_TERM
  ordered : ∀ low high, RAFT_INIT_LOG_INDEX ≤ low → low ≤ high →
    high ≤ peer.storage.last_index → (peer.log low).term ≤ (peer.log high).term
  last_term : peer.storage.last_term = (peer.log peer.storage.last_index).term
  truncated_le : peer.apply_state.truncated_state.index ≤ peer.storage.last_index
  truncated : peer.apply_state.truncated_state.Matches peer.log
    peer.apply_state.truncated_state.index
  storage : peer.storage.apply_state.truncated_state.Matches peer.log
    peer.apply_state.truncated_state.index
  results : ∀ res ∈ peer.results, res.apply_state.truncated_state.Matches peer.log
    peer.apply_state.truncated_state.index
  kv : peer.kv.Durably RocksDB.write_op (HoldsApplyState codec region_id fun recorded =>
    recorded.truncated_state.Matches peer.log peer.apply_state.truncated_state.index)

namespace Termed

variable {codec} {region_id : Nat} {state : RaftLocalState} {collected begun : Nat}
  {peer next : CompactedPeer}

section

variable (hpeer : Termed codec region_id peer)
include hpeer

/-- The last term after a ready. -/
theorem last_term_on_ready (ready : Ready) :
    (peer.storage.on_ready codec.toRaftCodec ready).last_term =
      (log_on_ready peer.log ready (ready.last_index peer.storage.last_index)).term := by
  rw [PeerStorage.last_term_on_ready]
  unfold log_on_ready Ready.last_index
  cases hlast : ready.entries.getLast? with
  | none =>
    rw [List.getLast?_eq_none_iff.mp hlast]
    exact hpeer.last_term
  | some last =>
    change last.term = ((latest_entry ready.entries last.index).getD _).term
    rw [latest_entry_of_getLast? hlast]
    rfl

theorem ready {ready : Ready} (hterms : peer.RaftTerms (.ready ready)) :
    Termed codec region_id (peer.sync_ready codec ready) := by
  obtain ⟨happends, hordered⟩ := hterms
  obtain ⟨hlast, happly, -, -⟩ := peer.storage.on_ready_eq codec.toRaftCodec ready
  have hkept : ∀ index ≤ peer.apply_state.truncated_state.index,
      log_on_ready peer.log ready index = peer.log index :=
    fun index hindex => log_on_ready_of_le happends hindex
  have hinit := hpeer.truncated.init_le
  have hfloor := happends.floor_le_last_index hpeer.truncated_le
  have hindex : (peer.sync_ready codec ready).storage.last_index =
      ready.last_index peer.storage.last_index := hlast
  refine ⟨?_, ?_, ?_, ?_, ?_, hpeer.truncated.congr hkept, ?_, ?_, ?_⟩
  · intro index hbase hle
    rw [hindex] at hle
    change (log_on_ready peer.log ready index).index = index
    unfold log_on_ready
    cases hentry : latest_entry ready.entries index with
    | some entry => exact index_of_latest_entry hentry
    | none =>
      exact hpeer.indices index hbase (happends.le_of_latest_entry_eq_none hle hentry)
  · change (log_on_ready peer.log ready _).term = _
    rw [hkept _ hinit]
    exact hpeer.base
  · intro low high hbase hle hhigh
    rw [hindex] at hhigh
    change (log_on_ready peer.log ready low).term ≤ (log_on_ready peer.log ready high).term
    -- what is truncated is ordered as before, and the rest by what raft guarantees
    by_cases hlow : peer.apply_state.truncated_state.index ≤ low
    · exact hordered high hhigh low hle hlow
    · rw [hkept low (by omega)]
      by_cases hbelow : high ≤ peer.apply_state.truncated_state.index
      · rw [hkept high hbelow]
        exact hpeer.ordered low high hbase hle (hbelow.trans hpeer.truncated_le)
      · refine (hpeer.ordered low _ hbase (by omega) hpeer.truncated_le).trans ?_
        rw [← hkept _ le_rfl]
        exact hordered high hhigh _ (by omega) le_rfl
  · rw [hindex]
    exact hpeer.last_term_on_ready ready
  · rw [hindex]
    exact hfloor
  · have hsame : (peer.sync_ready codec ready).storage.apply_state =
        peer.storage.apply_state := happly
    rw [hsame]
    exact hpeer.storage.congr hkept
  · exact fun res hres => (hpeer.results res hres).congr hkept
  · refine hpeer.kv.imp fun kv => ?_
    rintro ⟨recorded, hget, hmatches⟩
    exact ⟨recorded, hget, hmatches.congr hkept⟩

/-- What a round reports as truncated is one of the log. -/
theorem reported {tasks : List (List Entry)} {results : List ApplyRes}
    (hresults : peer.apply_state.poll tasks = .ok results) (hterms : peer.RaftTerms (.poll tasks)) :
    ∀ res ∈ results, res.apply_state.truncated_state.index ≤ peer.storage.last_index ∧
      res.apply_state.truncated_state.Matches peer.log
        (peer.apply_state.last_reported results).truncated_state.index := by
  obtain ⟨hreported, -⟩ := RaftApplyState.poll_eq_ok hresults
  intro res hres
  obtain ⟨hforward, hle⟩ := hreported.index_between hres
  have hinit := hpeer.truncated.init_le.trans hforward
  obtain hsame | ⟨other, hother, result, hresult, hcompacted⟩ :=
    hreported.truncated_state_cases hres
  · rw [hsame] at hinit hle ⊢
    exact ⟨hpeer.truncated_le, hinit, hle, hpeer.truncated.term⟩
  · obtain ⟨hlast, hterm⟩ := hterms result.truncated_state (by
      unfold compactions
      rw [hresults]
      exact List.mem_flatMap.mpr ⟨other, hother, List.mem_map_of_mem hresult⟩)
    rw [hcompacted] at hinit hle ⊢
    exact ⟨hlast, hinit, hle, hterm⟩

theorem end_poll (hregion : peer.storage.region_id = region_id) {tasks : List (List Entry)}
    {results : List ApplyRes} (hresults : peer.apply_state.poll tasks = .ok results)
    (hterms : peer.RaftTerms (.poll tasks)) :
    Termed codec region_id (peer.end_poll codec results) := by
  have hmatches := hpeer.reported hresults hterms
  have hforward := (RaftApplyState.poll_eq_ok hresults).1.index_le
  have hlast : (peer.apply_state.last_reported results).truncated_state.index ≤
        peer.storage.last_index ∧
      (peer.apply_state.last_reported results).truncated_state.Matches peer.log
        (peer.apply_state.last_reported results).truncated_state.index := by
    obtain ⟨hsame, -⟩ | ⟨res, hres, -, hstate⟩ := peer.apply_state.last_reported_cases results
    · rw [hsame]
      exact ⟨hpeer.truncated_le, hpeer.truncated⟩
    · have hres := hmatches res hres
      rw [hstate] at hres ⊢
      exact hres
  exact { hpeer with
    truncated_le := hlast.1
    truncated := hlast.2
    storage := hpeer.storage.mono hforward
    results := by
      intro res hres
      obtain hres | hres := List.mem_append.mp hres
      · exact (hpeer.results res hres).mono hforward
      · exact (hmatches res hres).2
    kv := by
      have hkept : peer.kv.Durably RocksDB.write_op (HoldsApplyState codec region_id
          fun recorded => recorded.truncated_state.Matches peer.log
            (peer.apply_state.last_reported results).truncated_state.index) := by
        refine hpeer.kv.imp fun kv => ?_
        rintro ⟨recorded, hget, hrecorded⟩
        exact ⟨recorded, hget, hrecorded.mono hforward⟩
      refine hkept.write fun kv _ op hop => ?_
      obtain ⟨res, hres, rfl⟩ := List.mem_map.mp hop
      have hmem := List.mem_of_getLast? (Option.mem_toList.mp hres)
      rw [hregion]
      exact ⟨res.apply_state, get_put_apply_state codec region_id kv _, (hmatches res hmem).2⟩ }

theorem post_apply {res : ApplyRes} {results : List ApplyRes}
    (hresults : peer.results = res :: results) :
    Termed codec region_id
      (({ peer with results := results }.on_ready_result res.exec_res).post_apply res) := by
  have hmatches := hpeer.results
  rw [hresults] at hmatches
  rw [on_ready_result_eq]
  exact { hpeer with
    storage := hmatches res List.mem_cons_self
    results := fun other hother => hmatches other (List.mem_cons_of_mem _ hother) }

section

variable (hheld : Held codec region_id state collected begun peer)
include hheld

theorem flush : Termed codec region_id peer.flush :=
  { hpeer with
    kv := Wal.durably_durable ⟨peer.apply_state, hheld.kv_current, hpeer.truncated⟩ }

/-- The terms that a start takes from the databases. -/
theorem restart {kept_kv kept_raft : Nat} {storage : PeerStorage}
    (hnew : PeerStorage.new codec (peer.crash kept_kv kept_raft) region_id = .ok storage) :
    Termed codec region_id
      (new (peer.crash kept_kv kept_raft) storage peer.log peer.handled) := by
  have hnext := hheld.restart hnew
  obtain ⟨recorded, hget, hmatches⟩ := hpeer.kv kept_kv
  obtain ⟨-, -, -, happly, hterm⟩ := PeerStorage.new_eq_ok hnew
  cases (init_apply_state_eq hget).symm.trans happly
  have hlast : storage.last_index = peer.storage.last_index :=
    hnext.last_index.trans hheld.last_index.symm
  have hindex : storage.last_index = state.last_index := hnext.last_index
  have hle := hmatches.le_bound.trans hpeer.truncated_le
  have hbound := hle
  rw [hheld.last_index] at hbound
  have hown : storage.apply_state.truncated_state.Matches peer.log
      storage.apply_state.truncated_state.index :=
    { hmatches with le_bound := le_rfl }
  exact {
    indices := by
      change ∀ index, _ → index ≤ storage.last_index → _
      rw [hlast]
      exact hpeer.indices
    base := hpeer.base
    ordered := by
      change ∀ low high, _ → _ → high ≤ storage.last_index → _
      rw [hlast]
      exact hpeer.ordered
    last_term := by
      change storage.last_term = (peer.log storage.last_index).term
      rw [hindex]
      exact init_last_term_eq_term (hheld.raft kept_raft) hindex hnext.collected_le
        (hown.mono hbound) hpeer.base hterm
    truncated_le := hle.trans hlast.ge
    truncated := hown
    storage := hown
    results := by rintro res ⟨⟩
    kv := Wal.durably_durable ⟨_, hget, hown⟩ }

theorem step {action : Action} (hterms : peer.RaftTerms action)
    (hsteps : Steps codec peer action next) : Termed codec region_id next := by
  cases hsteps with
  | ready _ => exact hpeer.ready hterms
  | empty_ready => exact hpeer
  | set_commit_index _ => exact { hpeer with }
  | poll _ hresults => exact hpeer.end_poll hheld.region hresults hterms
  | on_apply_res hresults => exact hpeer.post_apply hresults
  | run _ _ => exact { hpeer with }
  | @run_flush task scheduled _ hscheduled =>
    have hpushed : Termed codec region_id (peer.push_task task scheduled) := { hpeer with }
    exact hpushed.flush (hheld.push_task hscheduled)
  | on_timeout _ => exact hpeer.flush hheld
  | gc _ _ _ | write_batch _ => exact { hpeer with }
  | restart hnew =>
    rw [hheld.region] at hnew
    exact hpeer.restart hheld hnew

/-- Above the truncated index the entries of the log can be read. -/
theorem entries_eq {idx : Nat} (htruncated : peer.storage.truncated_index < idx)
    (hlast : idx ≤ peer.storage.last_index) :
    peer.storage.check_range idx (idx + 1) = .ok () ∧
      peer.storage.entries codec.toRaftCodec idx (idx + 1) raft.NO_LIMIT = .ok [peer.log idx] := by
  have hrange : peer.storage.check_range idx (idx + 1) = .ok () :=
    PeerStorage.check_range_eq_ok htruncated (Nat.le_succ idx) (Nat.succ_le_succ hlast)
  have hinit : RAFT_INIT_LOG_INDEX ≤ peer.storage.truncated_index := hpeer.storage.init_le
  have hindex := hpeer.indices idx (by omega) hlast
  have hcollected := hheld.collected_le
  have hstored := hheld.holds_log.entries idx (by omega) (hheld.last_index ▸ hlast)
  have hindices : [peer.log idx].map Entry.index = List.range' idx (idx + 1 - idx) := by
    rw [List.map_singleton, hindex, Nat.succ_sub (le_refl idx), Nat.sub_self]
    rfl
  refine ⟨hrange, ?_⟩
  refine (PeerStorage.entries_eq hindices ?_ ?_ htruncated (Nat.le_succ idx)
    (Nat.succ_le_succ hlast) raft.NO_LIMIT).trans (by simp [cut_by_size])
  · intro entry hentry
    rw [List.mem_singleton.mp hentry, hindex, hheld.region]
    exact hstored
  · intro hlong
    exact absurd hlong (by rw [Nat.succ_sub (le_refl idx), Nat.sub_self]; decide)

end

/-- Between equal terms all terms are equal. -/
theorem term_of_eq (hsame : peer.storage.truncated_term = peer.storage.last_term) {idx : Nat}
    (htruncated : peer.storage.truncated_index ≤ idx) (hlast : idx ≤ peer.storage.last_index) :
    peer.storage.last_term = (peer.log idx).term := by
  have hinit : RAFT_INIT_LOG_INDEX ≤ peer.storage.truncated_index := hpeer.storage.init_le
  have hlow := hpeer.ordered _ _ hinit htruncated hlast
  have hhigh := hpeer.ordered _ _ (hinit.trans htruncated) hlast le_rfl
  have hfirst : (peer.log peer.storage.truncated_index).term = peer.storage.truncated_term :=
    hpeer.storage.term
  have hterm := hpeer.last_term
  omega

theorem term_eq (hheld : Held codec region_id state collected begun peer) {idx : Nat}
    (htruncated : peer.storage.truncated_index ≤ idx) (hlast : idx ≤ peer.storage.last_index) :
    peer.storage.term codec.toRaftCodec idx = .ok (peer.log idx).term := by
  unfold PeerStorage.term
  by_cases hfirst : idx = peer.storage.truncated_index
  · rw [if_pos hfirst, hfirst]
    exact congrArg Except.ok hpeer.storage.term.symm
  · obtain ⟨hrange, hentries⟩ := hpeer.entries_eq hheld (by omega) hlast
    rw [if_neg hfirst, hrange, Exec.ok_bind]
    split
    · next hknown =>
      obtain hsame | rfl := hknown
      · rw [hpeer.term_of_eq hsame htruncated hlast]
        rfl
      · rw [hpeer.last_term]
        rfl
    · rw [hentries]
      rfl

end

end Termed

/-- What holds in every run of the peer of a region. -/
def KnowsTerms (codec : EnginesCodec) (region_id : Nat) (peer : CompactedPeer) : Prop :=
  ∃ state collected begun, Held codec region_id state collected begun peer ∧
    Termed codec region_id peer

namespace KnowsTerms

theorem start (codec : EnginesCodec) (engines : Engines) (region_id : Nat) :
    ∃ first, CompactedPeer.start codec (engines.bootstrap codec region_id) region_id = .ok first ∧
      KnowsTerms codec region_id first := by
  obtain ⟨storage, hstart, hheld, hstate, hterm⟩ := Held.start codec engines region_id
  have hlast : storage.last_index = RAFT_INIT_LOG_INDEX := hheld.last_index
  have hmatches : storage.apply_state.truncated_state.Matches initial_log
      storage.apply_state.truncated_state.index := by
    rw [hstate]
    exact ⟨le_rfl, le_rfl, rfl⟩
  refine ⟨_, hstart, _, _, _, hheld, ?_⟩
  exact {
    indices := by
      intro index hinit hle
      exact absurd (hle.trans hlast.le) (not_le.mpr hinit)
    base := rfl
    ordered := fun _ _ _ _ _ => le_rfl
    last_term := hterm
    truncated_le := by
      change storage.apply_state.truncated_state.index ≤ storage.last_index
      rw [hstate, hlast]
      exact le_rfl
    truncated := hmatches
    storage := hmatches
    results := by rintro res ⟨⟩
    kv := Wal.durably_durable ⟨_, hheld.kv_current, hmatches⟩ }

theorem step {codec : EnginesCodec} {region_id : Nat} {peer next : CompactedPeer} {action : Action}
    (hpeer : KnowsTerms codec region_id peer) (hterms : peer.RaftTerms action)
    (hstep : peer.step codec action = some next) : KnowsTerms codec region_id next := by
  obtain ⟨state, collected, begun, hheld, hpeer⟩ := hpeer
  have hsteps := step_eq_some hstep
  obtain ⟨state, collected, begun, hnext⟩ := hheld.step hsteps
  exact ⟨state, collected, begun, hnext, hpeer.step hheld hterms hsteps⟩

end KnowsTerms

/-- The term of an index is that of the log, also where it is not read. In every run
from a bootstrapped region, with the terms that raft guarantees, `term` answers for
every index from the truncated one to the last one with the term of the log. Where the
truncated and the last term are equal, that is what reading the entry gives. -/
theorem term_shortcut_exact (codec : EnginesCodec) (engines : Engines) (region_id : Nat) :
    ∃ first, start codec (engines.bootstrap codec region_id) region_id = .ok first ∧
      ∀ actions peer, Run.Along (step codec) RaftTerms first actions →
        Run.run (step codec) first actions = some peer →
          (∀ idx, peer.storage.truncated_index ≤ idx → idx ≤ peer.storage.last_index →
            peer.storage.term codec.toRaftCodec idx = .ok (peer.log idx).term) ∧
          ∀ idx, peer.storage.truncated_index < idx → idx ≤ peer.storage.last_index →
            peer.storage.entries codec.toRaftCodec idx (idx + 1) raft.NO_LIMIT =
                .ok [peer.log idx] ∧
              (peer.storage.truncated_term = peer.storage.last_term →
                peer.storage.last_term = (peer.log idx).term) := by
  obtain ⟨first, hstart, hfirst⟩ := KnowsTerms.start codec engines region_id
  refine ⟨first, hstart, fun actions peer halong hrun => ?_⟩
  obtain ⟨state, collected, begun, hheld, hpeer⟩ : KnowsTerms codec region_id peer :=
    Run.run_invariant_along (fun _ _ _ hpeer hterms hstep => hpeer.step hterms hstep) hfirst
      halong hrun
  refine ⟨fun idx htruncated hlast => hpeer.term_eq hheld htruncated hlast, ?_⟩
  intro idx htruncated hlast
  exact ⟨(hpeer.entries_eq hheld htruncated hlast).2,
    fun hsame => hpeer.term_of_eq hsame htruncated.le hlast⟩

/-- Entries of term 6 and 7 are appended, the end of them is overwritten by a shorter one
of term 8, the log is compacted and collected, and the peer starts again and appends. -/
def overwritten : List Action :=
  let entries : List Entry := [⟨6, 6, none⟩, ⟨7, 6, none⟩, ⟨8, 7, none⟩, ⟨9, 7, none⟩]
  let compaction : List Entry := [⟨8, 8, some ⟨{}, .admin_request (.CompactLog 7 6)⟩⟩]
  [.ready ⟨entries, some ⟨7, 1, 7⟩⟩, .poll [entries.take 2],
    .ready ⟨compaction, some ⟨8, 1, 8⟩⟩, .poll [compaction], .on_apply_res, .on_apply_res, .run,
    .on_timeout, .gc, .write_batch, .restart 0 0, .ready ⟨[⟨9, 8, none⟩], none⟩]

/-- The log is compacted once more, now up to an entry of the last term. -/
def compactedToLastTerm : List Action :=
  let compaction : Entry := ⟨10, 8, some ⟨{}, .admin_request (.CompactLog 9 8)⟩⟩
  [.ready ⟨[compaction], some ⟨8, 1, 10⟩⟩, .poll [[⟨9, 8, none⟩, compaction]], .on_apply_res]

theorem term_shortcut_exact_overwritten :
    ∃ first last later : CompactedPeer,
      Run.run (step DurablePeer.plainEnginesCodec) first overwritten = some last ∧
      last.storage.truncated_index = 7 ∧ last.storage.last_index = 9 ∧
      last.storage.term RecordedStorage.plainRaftCodec 8 = .ok (last.log 8).term ∧
      Run.run (step DurablePeer.plainEnginesCodec) last compactedToLastTerm = some later ∧
      later.storage.truncated_term = later.storage.last_term ∧
      later.storage.term RecordedStorage.plainRaftCodec 10 = .ok (later.log 10).term := by
  obtain ⟨first, hstart, hruns⟩ := term_shortcut_exact DurablePeer.plainEnginesCodec
    ⟨OrderedMap.empty, OrderedMap.empty⟩ 1
  have hreached : ∃ first ∈ (start DurablePeer.plainEnginesCodec (Engines.bootstrap
      DurablePeer.plainEnginesCodec ⟨OrderedMap.empty, OrderedMap.empty⟩ 1) 1).toOption,
      ∃ last ∈ Run.run (step DurablePeer.plainEnginesCodec) first overwritten,
      ∃ later ∈ Run.run (step DurablePeer.plainEnginesCodec) last compactedToLastTerm,
        Run.Along (step DurablePeer.plainEnginesCodec) RaftTerms first
          (overwritten ++ compactedToLastTerm) ∧
        last.storage.truncated_index = 7 ∧ last.storage.last_index = 9 ∧
        later.storage.truncated_index = 9 ∧ later.storage.last_index = 10 ∧
        later.storage.truncated_term = later.storage.last_term := by
    decide +kernel
  rw [hstart] at hreached
  obtain ⟨_, ⟨⟩, last, hrun, later, hlater_run, halong, htruncated, hindex, hlater_truncated,
    hlater_index, hsame⟩ := hreached
  obtain ⟨hterm, -⟩ := hruns overwritten last (Run.along_append halong hrun).1 hrun
  obtain ⟨hlater_term, -⟩ := hruns (overwritten ++ compactedToLastTerm) later halong
    (Run.run_append_eq_some_iff.mpr ⟨last, hrun, hlater_run⟩)
  exact ⟨first, last, later, hrun, htruncated, hindex, hterm 8 (by omega) (by omega), hlater_run,
    hsame, hlater_term 10 (by omega) (by omega)⟩

end CompactedPeer

end hologram_kv
