import Auticuro.TinyMq.CompactingGroup

open Run

namespace hologram_kv

variable {n : Nat} {Closure : Type}

theorem replicated_idx_le (last_idx : Nat) (matched : List Nat) :
    replicated_idx last_idx matched ≤ last_idx ∧
      ∀ index ∈ matched, replicated_idx last_idx matched ≤ index := by
  unfold replicated_idx
  induction matched generalizing last_idx with
  | nil => exact ⟨le_rfl, fun _ hindex => by cases hindex⟩
  | cons first matched ih =>
    obtain ⟨hfirst, hrest⟩ := ih (min last_idx first)
    refine ⟨hfirst.trans (min_le_left _ _), fun index hindex => ?_⟩
    obtain rfl | hindex := List.mem_cons.mp hindex
    · exact hfirst.trans (min_le_right _ _)
    · exact hrest index hindex

theorem Entry.compact_index_eq (entry : Entry) :
    entry.compact_index = entry.compaction.map Prod.fst := by
  unfold Entry.compact_index Entry.compaction
  cases entry.data.map RaftCmdRequest.body with
  | none => rfl
  | some body =>
    cases body with
    | admin_request request => cases request <;> rfl
    | requests requests | status_request cmd_type => rfl

/-- A compaction up to an applied index does not fail. -/
theorem exec_compact_log_ok {state : RaftApplyState} {compact_index compact_term : Nat}
    (happlied : compact_index ≤ state.applied_index) (hterm : 0 < compact_term) :
    ∃ executed, exec_compact_log state compact_index compact_term = .ok executed := by
  unfold exec_compact_log
  split
  · exact ⟨_, rfl⟩
  · next hfirst =>
    unfold first_index at hfirst
    unfold compact_raft_log
    rw [if_neg hterm.ne', if_neg (by omega), if_neg (by omega)]
    exact ⟨_, rfl⟩

theorem ApplyFsm.apply_entries_applied_index {fsm next : ApplyFsm Closure} {entries : List Entry}
    {results : List ExecResult} (happly : fsm.apply_entries entries = .ok (next, results)) :
    next.delegate.apply_state.applied_index =
      fsm.delegate.apply_state.applied_index + entries.length := by
  induction entries generalizing fsm results with
  | nil =>
    cases happly
    rfl
  | cons entry entries ih =>
    obtain ⟨hnext, middle, res, later, hhandle, hlater, -⟩ := apply_entries_cons_eq_ok happly
    rw [ih hlater, (handle_raft_entry_normal_advances hhandle).1.applied, hnext,
      List.length_cons]
    omega

namespace CompactingGroup

/-- All peers have acknowledged the log of a term's leader up to the index. -/
def Acknowledged (raft : ReplicatedLog.Cluster n Entry) (term index : Nat) : Prop :=
  RAFT_INIT_LOG_INDEX < index ∧ ∀ peer, index ≤ RAFT_INIT_LOG_INDEX + raft.acked term peer

/-- As a compaction the entry names a term and an index before its own that all peers
have acknowledged in the term of the entry. -/
def CompactsAcknowledged (raft : ReplicatedLog.Cluster n Entry) (entry : Entry) : Prop :=
  ∀ compact_index compact_term, entry.compaction = some (compact_index, compact_term) →
    Acknowledged raft entry.term compact_index ∧ compact_index < entry.index ∧ 0 < compact_term

variable {entry : Entry}

theorem CompactsAcknowledged.mono {raft next : ReplicatedLog.Cluster n Entry}
    {leader : ReplicatedLog.Leader n Entry} (hgrows : raft.Grows next)
    (hleader : raft.leaders entry.term = some leader) (hentry : CompactsAcknowledged raft entry) :
    CompactsAcknowledged next entry := by
  intro compact_index compact_term hcompaction
  obtain ⟨⟨hinit, hacked⟩, hrest⟩ := hentry compact_index compact_term hcompaction
  refine ⟨⟨hinit, fun peer => (hacked peer).trans ?_⟩, hrest⟩
  exact Nat.add_le_add_left (hgrows.acked entry.term leader hleader peer) _

/-- The truncated index of a peer is the initial one, or a committed entry of its
terms has compacted the log up to it. -/
structure TruncatedBy (raft : ReplicatedLog.Cluster n Entry) (peer : Fin n)
    (state : RaftApplyState) : Prop where
  init_le : RAFT_INIT_LOG_INDEX ≤ state.truncated_state.index
  below : state.truncated_state.index < state.applied_index ∨
    state.truncated_state.index = RAFT_INIT_LOG_INDEX ∧
      state.applied_index = RAFT_INIT_LOG_INDEX
  origin : state.truncated_state.index = RAFT_INIT_LOG_INDEX ∨
    ∃ entry ∈ raft.committed, entry.term ≤ (raft.nodes peer).term ∧
      entry.compact_index = some state.truncated_state.index

variable {peer : Fin n}

theorem TruncatedBy.mono {raft next : ReplicatedLog.Cluster n Entry} {state : RaftApplyState}
    (hgrows : raft.Grows next) (hstate : TruncatedBy raft peer state) :
    TruncatedBy next peer state := by
  refine ⟨hstate.init_le, hstate.below, hstate.origin.imp_right ?_⟩
  rintro ⟨entry, hentry, hterm, hcompact⟩
  exact ⟨entry, hgrows.committed.subset hentry, hterm.trans (hgrows.terms peer), hcompact⟩

/-- The raft group is valid, the entries carry their indices, a leader's compactions
go up to what all peers have acknowledged to it, and the peers truncate their logs
by committed compactions. -/
structure Sound (group : CompactingGroup n Closure) : Prop where
  valid : group.raft.Valid Entry.term
  indexed : ∀ term leader, group.raft.leaders term = some leader →
    ∀ position entry, leader.log[position]? = some entry →
      entry.index = RAFT_INIT_LOG_INDEX + position + 1
  compactions : ∀ term leader, group.raft.leaders term = some leader →
    ∀ entry ∈ leader.log, entry.term = term → CompactsAcknowledged group.raft entry
  reports : ∀ peer, (group.peers peer).fsm.Reports (TruncatedBy group.raft peer)
  apply_state : ∀ peer, TruncatedBy group.raft peer (group.peers peer).apply_state

namespace Sound

variable {group next : CompactingGroup n Closure}

theorem start : (CompactingGroup.start : CompactingGroup n Closure).Sound := by
  have hinitial : ∀ peer : Fin n,
      TruncatedBy (.start RAFT_INIT_LOG_TERM) peer write_initial_apply_state :=
    fun peer => ⟨le_rfl, .inr ⟨rfl, rfl⟩, .inl rfl⟩
  refine ⟨.start _ _, ?_, ?_, fun peer => .start _ _ (hinitial peer), hinitial⟩
  · intro term leader hleader
    cases hleader
  · intro term leader hleader
    cases hleader

/-- What holds of the entries of leaders holds of those of any log. -/
theorem entry_of_log (hsound : group.Sound) {log : List Entry}
    (hlog : group.raft.Matches Entry.term log) {position : Nat}
    (hentry : log[position]? = some entry) :
    entry.index = RAFT_INIT_LOG_INDEX + position + 1 ∧ CompactsAcknowledged group.raft entry := by
  obtain ⟨leader, hleader, -, hget⟩ := hlog.leader_has hentry
  exact ⟨hsound.indexed _ leader hleader position entry hget,
    hsound.compactions _ leader hleader entry (List.mem_of_getElem? hget) rfl⟩

theorem index_term_pos (hsound : group.Sound) {term idx : Nat}
    {leader : ReplicatedLog.Leader n Entry} (hleader : group.raft.leaders term = some leader)
    (hinit : RAFT_INIT_LOG_INDEX < idx) (hlast : idx ≤ log_last_index leader.log) :
    0 < get_index_term leader.log idx := by
  unfold log_last_index at hlast
  have hposition : idx - (RAFT_INIT_LOG_INDEX + 1) < leader.log.length := by omega
  have hget := List.getElem?_eq_getElem hposition
  obtain ⟨other, hother, -⟩ := (hsound.valid.leader_matches term leader hleader).leader_has hget
  rw [get_index_term, hget]
  exact (hsound.valid.leader_terms _ other hother).1

section Raft

variable {reached : ReplicatedLog.Cluster n Entry} {action : ReplicatedLog.Action n Entry}
  (hsound : group.Sound) (hstep : ReplicatedLog.Cluster.Step Entry.term group.raft action reached)
  (hpropose : ∀ peer entry leader, action = .propose peer entry →
    group.raft.leaders (group.raft.nodes peer).term = some leader →
    entry.index = log_last_index leader.log + 1 ∧ CompactsAcknowledged group.raft entry)
include hsound hstep hpropose

theorem indexed_raft {term position : Nat} {successor : ReplicatedLog.Leader n Entry}
    (hsuccessor : reached.leaders term = some successor)
    (hentry : successor.log[position]? = some entry) :
    entry.index = RAFT_INIT_LOG_INDEX + position + 1 := by
  obtain hold | ⟨peer, leader, proposed, haction, rfl, hleader, rfl⟩ | ⟨peer, -, rfl⟩ :=
    hstep.leaders hsuccessor
  · exact hsound.indexed term successor hold position entry hentry
  · obtain hless | hge := Nat.lt_or_ge position leader.log.length
    · rw [List.getElem?_append_left hless] at hentry
      exact hsound.indexed _ leader hleader position entry hentry
    · obtain ⟨hindex, -⟩ := hpropose peer proposed leader haction hleader
      rw [List.getElem?_append_right hge, List.getElem?_singleton] at hentry
      split at hentry
      · cases hentry
        unfold log_last_index at hindex
        omega
      · cases hentry
  · exact (hsound.entry_of_log (hsound.valid.node_matches peer) hentry).1

theorem compactions_raft {successor : ReplicatedLog.Leader n Entry}
    (hsuccessor : reached.leaders entry.term = some successor) (hentry : entry ∈ successor.log) :
    CompactsAcknowledged reached entry := by
  have hgrows := hstep.grows
  obtain hold | ⟨peer, leader, proposed, haction, hterm, hleader, rfl⟩ | ⟨peer, hless, rfl⟩ :=
    hstep.leaders hsuccessor
  · exact (hsound.compactions _ successor hold entry hentry rfl).mono hgrows hold
  · refine CompactsAcknowledged.mono hgrows hleader ?_
    obtain hentry | hentry := List.mem_append.mp hentry
    · exact hsound.compactions _ leader hleader entry hentry rfl
    · obtain rfl := List.mem_singleton.mp hentry
      rw [← hterm] at hleader
      exact (hpropose peer entry leader haction hleader).2
  · -- the entries of a new leader's log are of earlier terms
    have hle := hsound.valid.node_terms peer entry hentry
    omega

/-- A step of raft. An entry that is proposed has the next index, and as a
compaction it goes up to what all peers have acknowledged. -/
theorem raft : ({ group with raft := reached } : CompactingGroup n Closure).Sound where
  valid := hsound.valid.step hstep
  indexed := fun _ _ hsuccessor _ _ hentry =>
    hsound.indexed_raft hstep hpropose hsuccessor hentry
  compactions := by
    rintro _ successor hsuccessor entry hentry rfl
    exact hsound.compactions_raft hstep hpropose hsuccessor hentry
  reports := fun peer => (hsound.reports peer).imp fun _ => .mono hstep.grows
  apply_state := fun peer => (hsound.apply_state peer).mono hstep.grows

end Raft

section

variable (hsound : group.Sound)
include hsound

/-- A leader compacts its log up to an index that all peers have acknowledged. -/
theorem compact_idx_acknowledged {raft_log_gc_count_limit compact_idx : Nat} {matched : Fin n → Nat}
    (hmatched : ∀ other, matched other ≤
      RAFT_INIT_LOG_INDEX + group.raft.acked (group.raft.nodes peer).term other)
    (htick : on_raft_gc_log_tick raft_log_gc_count_limit
      (first_index (group.peers peer).apply_state)
      (log_last_index (group.raft.nodes peer).log) (List.ofFn matched) = some compact_idx) :
    Acknowledged group.raft (group.raft.nodes peer).term compact_idx := by
  obtain ⟨hreplicated, hindex⟩ := on_raft_gc_log_tick_eq_some htick
  refine ⟨?_, fun other => ?_⟩
  · have hle := (hsound.apply_state peer).init_le
    unfold first_index at hindex
    omega
  · have hle := (replicated_idx_le (log_last_index (group.raft.nodes peer).log)
      (List.ofFn matched)).2 (matched other) (List.mem_ofFn.mpr ⟨other, rfl⟩)
    have hother := hmatched other
    omega

/-- The leader proposes to compact the log up to an index of it. -/
theorem gc_log_tick {compact_idx : Nat} {peer_meta : PeerMeta}
    {leader : ReplicatedLog.Leader n Entry} {raft : ReplicatedLog.Cluster n Entry}
    (hleader : group.raft.leaders (group.raft.nodes peer).term = some leader)
    (hacked : Acknowledged group.raft (group.raft.nodes peer).term compact_idx)
    (hraft : ReplicatedLog.Cluster.Step Entry.term group.raft (.propose peer
      (compact_log_entry leader (group.raft.nodes peer).term compact_idx peer_meta)) raft) :
    ({ group with raft := raft } : CompactingGroup n Closure).Sound := by
  have hlast : compact_idx ≤ log_last_index leader.log := by
    have hle := hsound.valid.acked_le _ leader peer hleader
    have hpeer := hacked.2 peer
    unfold log_last_index
    omega
  refine hsound.raft hraft ?_
  rintro _ _ leader' ⟨⟩ hleader'
  cases hleader.symm.trans hleader'
  refine ⟨rfl, ?_⟩
  rintro _ _ ⟨⟩
  exact ⟨hacked, Nat.lt_succ_of_le hlast, hsound.index_term_pos hleader hacked.1 hlast⟩

/-- The tasks that a peer gets hold committed entries of its terms. -/
theorem mem_of_allowed {task : Apply Closure} (hallowed : group.Allowed (.apply peer task))
    (hentry : entry ∈ task.entries) :
    entry ∈ group.raft.committed ∧ entry.term ≤ (group.raft.nodes peer).term := by
  obtain ⟨hentries, hcommitted⟩ := hallowed
  rw [hentries, List.take_drop] at hentry
  have htake := List.mem_of_mem_drop hentry
  exact ⟨hcommitted.subset htake, hsound.valid.node_terms peer entry (List.mem_of_mem_take htake)⟩

theorem update {state : CompactingPeer Closure}
    (hreports : state.fsm.Reports (TruncatedBy group.raft peer))
    (hstate : TruncatedBy group.raft peer state.apply_state) : (group.update peer state).Sound where
  valid := hsound.valid
  indexed := hsound.indexed
  compactions := hsound.compactions
  reports := (Function.forall_update_iff group.peers
    fun other (state : CompactingPeer Closure) =>
      state.fsm.Reports (TruncatedBy group.raft other)).mpr
    ⟨hreports, fun other _ => hsound.reports other⟩
  apply_state := (Function.forall_update_iff group.peers
    fun other (state : CompactingPeer Closure) =>
      TruncatedBy group.raft other state.apply_state).mpr
    ⟨hstate, fun other _ => hsound.apply_state other⟩

theorem apply {task : Apply Closure} {fsm : ApplyFsm Closure}
    (hallowed : group.Allowed (.apply peer task))
    (happly : (group.peers peer).fsm.handle_apply task = .ok fsm) :
    (group.update peer { group.peers peer with fsm := fsm }).Sound := by
  have hbefore := (hsound.reports peer).delegate
  obtain ⟨last, results, hlast, hall, -⟩ := ApplyFsm.handle_apply_applies_all happly
  have hle : (group.peers peer).truncated_index ≤ (group.peers peer).applied_index := by
    obtain hlt | ⟨htruncated, happlied⟩ := hbefore.below
    · exact hlt.le
    · exact (htruncated.trans happlied.symm).le
  have hstate : TruncatedBy group.raft peer fsm.delegate.apply_state := by
    refine ⟨hbefore.init_le.trans hall.forward, .inl ((hall.below hle).2 ?_), ?_⟩
    · rintro hempty
      rw [hempty] at hlast
      cases hlast
    · obtain hsame | ⟨entry, hentry, hcompact⟩ := hall.origin
      · rw [hsame]
        exact hbefore.origin
      · obtain ⟨hcommitted, hterm⟩ := hsound.mem_of_allowed hallowed hentry
        exact .inr ⟨entry, hcommitted, hterm, hcompact⟩
  exact hsound.update ((hsound.reports peer).handle_apply happly hstate) (hsound.apply_state peer)

theorem step {action : Action n Closure} (hstep : Step group action next) : next.Sound := by
  cases hstep with
  | raft hallowed hraft =>
    refine hsound.raft hraft ?_
    rintro peer entry leader rfl hleader
    refine ⟨hallowed.2 leader hleader, fun compact_index compact_term hcompaction => ?_⟩
    cases hallowed.1.symm.trans hcompaction
  | gc_log_tick hmatched hleader htick hraft =>
    exact hsound.gc_log_tick hleader (hsound.compact_idx_acknowledged hmatched htick) hraft
  | apply hallowed happly => exact hsound.apply hallowed happly
  | @end_poll peer => exact hsound.update (hsound.reports peer).end_poll (hsound.apply_state peer)
  | @on_apply_res peer res hres =>
    refine hsound.update (hsound.reports peer) ((hsound.reports peer).reported res ?_)
    exact List.mem_append_left _ hres
  | @restart peer applied_index_term =>
    have hkv := (hsound.reports peer).kv
    exact hsound.update (.start _ _ hkv) hkv

/-- What a peer has truncated is held by all peers, and by the leader of the peer's
term. -/
theorem truncated_held {state : RaftApplyState} (hstate : TruncatedBy group.raft peer state) :
    ∃ truncated, truncated.length = state.truncated_state.index - RAFT_INIT_LOG_INDEX ∧
      truncated <+: group.raft.committed ∧
      (∀ other, truncated <+: (group.raft.nodes other).log) ∧
      ∀ leader, group.raft.leaders (group.raft.nodes peer).term = some leader →
        truncated <+: leader.log := by
  obtain hinit | ⟨entry, hentry, hterm, hcompact⟩ := hstate.origin
  · refine ⟨[], ?_, List.nil_prefix, fun _ => List.nil_prefix, fun _ _ => List.nil_prefix⟩
    rw [hinit, Nat.sub_self, List.length_nil]
  · obtain ⟨position, hposition⟩ := List.mem_iff_getElem?.mp hentry
    obtain ⟨hindex, hcompactions⟩ := hsound.entry_of_log hsound.valid.committed_matches hposition
    obtain ⟨leader, hleader, hbegins, hget⟩ := hsound.valid.committed_matches.leader_has hposition
    rw [entry.compact_index_eq] at hcompact
    obtain ⟨⟨compact_index, compact_term⟩, hcompaction, hsame⟩ := Option.map_eq_some_iff.mp hcompact
    obtain ⟨⟨-, hacked⟩, hless, -⟩ := hcompactions compact_index compact_term hcompaction
    obtain rfl : compact_index = state.truncated_state.index := hsame
    have hlength := List.getElem?_eq_some_iff.mp hposition
    generalize hcount : state.truncated_state.index - RAFT_INIT_LOG_INDEX = count
    have hle : count ≤ position := by omega
    obtain ⟨hnodes, hleaders⟩ := hsound.valid.acked_by_all hleader fun node => by
      have hnode := hacked node
      change count ≤ _
      omega
    have htake : leader.log.take count = group.raft.committed.take count := by
      obtain ⟨hlt, -⟩ := hlength
      have hlong : count ≤ (group.raft.committed.take (position + 1)).length := by
        rw [List.length_take]
        omega
      rw [← ReplicatedLog.Cluster.take_eq_take_of_le_length hbegins hlong, List.take_take,
        min_eq_left (by omega)]
    refine ⟨leader.log.take count, ?_, ?_, hnodes, fun own hown => ?_⟩
    · obtain ⟨hlt, -⟩ := List.getElem?_eq_some_iff.mp hget
      rw [List.length_take]
      omega
    · rw [htake]
      exact List.take_prefix _ _
    · obtain hearlier | hterm := Nat.lt_or_eq_of_le hterm
      · exact hleaders _ own hearlier hown
      · rw [hterm, hown] at hleader
        cases hleader
        exact List.take_prefix _ _

/-- When its turn comes, a compaction goes up to an applied index. -/
theorem executes {task : Apply Closure} (hallowed : group.Allowed (.apply peer task))
    {before after : List Entry} (hsplit : task.entries = before ++ entry :: after)
    {begun reached : ApplyFsm Closure} {results : List ExecResult}
    (hbegin : (group.peers peer).fsm.begin_apply task = .ok begun)
    (happly : begun.apply_entries before = .ok (reached, results))
    {compact_index compact_term : Nat}
    (hcompaction : entry.compaction = some (compact_index, compact_term)) :
    ∃ executed, exec_compact_log reached.delegate.apply_state compact_index compact_term =
      .ok executed := by
  have happlied := ApplyFsm.apply_entries_applied_index happly
  rw [ApplyFsm.begin_apply_eq_ok hbegin] at happlied
  have hinit : RAFT_INIT_LOG_INDEX ≤ (group.peers peer).applied_index := by
    have hstate := (hsound.reports peer).delegate
    obtain hlt | ⟨-, happlied⟩ := hstate.below
    · exact hstate.init_le.trans hlt.le
    · exact happlied.ge
  have hposition : (group.raft.nodes peer).log[(group.peers peer).applied_index -
      RAFT_INIT_LOG_INDEX + before.length]? = some entry := by
    have hget : task.entries[before.length]? = some entry := by
      rw [hsplit, List.getElem?_append_right le_rfl, Nat.sub_self, List.getElem?_cons_zero]
    have hlt := (List.getElem?_eq_some_iff.mp hget).1
    rwa [hallowed.1, List.getElem?_take_of_lt hlt, List.getElem?_drop] at hget
  obtain ⟨hindex, hcompactions⟩ :=
    hsound.entry_of_log (hsound.valid.node_matches peer) hposition
  obtain ⟨-, hless, hterm⟩ := hcompactions compact_index compact_term hcompaction
  refine exec_compact_log_ok ?_ hterm
  unfold CompactingPeer.applied_index at hindex hinit
  omega

end

end Sound

/-- No peer fails to execute a compaction of a task that it gets. A peer has
truncated less than it has applied, once it has applied an entry, and all peers
hold what it has truncated as a part of the committed log. What the leader of a
term has truncated in its storage is the beginning of the logs of all peers. -/
structure SnapshotFree (group : CompactingGroup n Closure) : Prop where
  executes : ∀ peer task, group.Allowed (.apply peer task) →
    ∀ before entry after, task.entries = before ++ entry :: after →
    ∀ begun reached results, (group.peers peer).fsm.begin_apply task = .ok begun →
      begun.apply_entries before = .ok (reached, results) →
    ∀ compact_index compact_term, entry.compaction = some (compact_index, compact_term) →
      ∃ executed, exec_compact_log reached.delegate.apply_state compact_index compact_term =
        .ok executed
  below : ∀ peer, (group.peers peer).truncated_index ≤ (group.peers peer).applied_index ∧
    ((group.peers peer).applied_index ≠ RAFT_INIT_LOG_INDEX →
      (group.peers peer).truncated_index < (group.peers peer).applied_index)
  persisted : ∀ peer other,
    (group.peers peer).truncated_index ≤ log_last_index group.raft.committed ∧
      group.raft.committed.take ((group.peers peer).truncated_index - RAFT_INIT_LOG_INDEX) <+:
        (group.raft.nodes other).log
  leader : ∀ term leader, group.raft.leaders term = some leader →
    (group.raft.nodes leader.node).term = term →
    ∀ other, leader.log.take ((group.peers leader.node).apply_state.truncated_state.index -
      RAFT_INIT_LOG_INDEX) <+: (group.raft.nodes other).log

theorem Sound.snapshot_free {group : CompactingGroup n Closure} (hsound : group.Sound) :
    group.SnapshotFree where
  executes := fun _ _ hallowed _ _ _ hsplit _ _ _ hbegin happly _ _ hcompaction =>
    hsound.executes hallowed hsplit hbegin happly hcompaction
  below := by
    intro peer
    obtain hlt | ⟨htruncated, happlied⟩ := (hsound.reports peer).delegate.below
    · exact ⟨hlt.le, fun _ => hlt⟩
    · exact ⟨(htruncated.trans happlied.symm).le, fun hne => absurd happlied hne⟩
  persisted := by
    intro peer other
    obtain ⟨truncated, hlength, hcommitted, hnodes, -⟩ :=
      hsound.truncated_held (hsound.reports peer).delegate
    refine ⟨?_, ?_⟩
    · have hle := hcommitted.length_le
      unfold log_last_index CompactingPeer.truncated_index
      omega
    · unfold CompactingPeer.truncated_index
      rw [← hlength, ← List.prefix_iff_eq_take.mp hcommitted]
      exact hnodes other
  leader := by
    rintro _ leader hleader rfl other
    obtain ⟨truncated, hlength, -, hnodes, hleaders⟩ :=
      hsound.truncated_held (hsound.apply_state leader.node)
    rw [← hlength, ← List.prefix_iff_eq_take.mp (hleaders leader hleader)]
    exact hnodes other

/-- The process of the peer is not started again. -/
def Action.KeepsRunning (peer : Fin n) : Action n Closure → Prop
  | .restart other _ => other ≠ peer
  | _ => True

theorem peers_update (group : CompactingGroup n Closure) (peer other : Fin n)
    (state : CompactingPeer Closure) :
    (group.update peer state).peers other = if other = peer then state else group.peers other :=
  Function.update_apply _ _ _ _

theorem truncated_index_update_le {group : CompactingGroup n Closure} {peer other : Fin n}
    {state : CompactingPeer Closure}
    (hstate : other = peer → (group.peers peer).truncated_index ≤ state.truncated_index) :
    (group.peers peer).truncated_index ≤
      ((group.update other state).peers peer).truncated_index := by
  rw [peers_update]
  split
  · next hother => exact hstate hother.symm
  · exact le_rfl

theorem step_truncated_index {group next : CompactingGroup n Closure} {action : Action n Closure}
    (hstep : Step group action next) (hkeeps : action.KeepsRunning peer) :
    (group.peers peer).truncated_index ≤ (next.peers peer).truncated_index := by
  cases hstep with
  | raft hallowed hraft | gc_log_tick hmatched hleader htick hraft => exact le_rfl
  | apply hallowed happly =>
    obtain ⟨last, results, -, hall, -⟩ := ApplyFsm.handle_apply_applies_all happly
    refine truncated_index_update_le ?_
    rintro rfl
    exact hall.forward
  | end_poll | on_apply_res hres =>
    refine truncated_index_update_le ?_
    rintro rfl
    exact le_rfl
  | restart => exact truncated_index_update_le fun hother => absurd hother hkeeps

theorem run_truncated_index {group next : CompactingGroup n Closure}
    {actions : List (Action n Closure)} (hkeeps : ∀ action ∈ actions, action.KeepsRunning peer)
    (hrun : run step group actions = some next) :
    (group.peers peer).truncated_index ≤ (next.peers peer).truncated_index := by
  induction actions generalizing group with
  | nil =>
    cases hrun
    exact le_rfl
  | cons action actions ih =>
    obtain ⟨middle, hstep, hrest⟩ := run_cons_eq_some_iff.mp hrun
    obtain ⟨hfirst, hlater⟩ := List.forall_mem_cons.mp hkeeps
    exact (step_truncated_index (step_spec hstep) hfirst).trans (ih hlater hrest)

/-- Compactions never need a snapshot, and the truncated index of a peer does not go
back while its process runs. -/
theorem compaction_needs_no_snapshot {actions : List (Action n Closure)}
    {group : CompactingGroup n Closure} (hrun : run step start actions = some group) :
    group.SnapshotFree ∧
      ∀ peer later next, (∀ action ∈ later, action.KeepsRunning peer) →
        run step group later = some next →
        (group.peers peer).truncated_index ≤ (next.peers peer).truncated_index := by
  have hsound : group.Sound :=
    run_invariant (fun _ _ _ hsound hstep => hsound.step (step_spec hstep)) .start hrun
  exact ⟨hsound.snapshot_free, fun _ _ _ hkeeps hlater => run_truncated_index hkeeps hlater⟩

/-- The commands of a leader of two peers, which they apply. -/
def written : List Entry :=
  (List.range 11).map fun position => ⟨RAFT_INIT_LOG_INDEX + position + 1, 6, none⟩

/-- Eleven entries reach both peers, and the leader proposes to compact the log. -/
def compacting : List (Action 2 Unit) :=
  let compaction : Entry :=
    ⟨17, 6, some (new_compact_log_request ⟨1, 1, 1⟩ 7 6)⟩
  let applied : Apply Unit := ⟨6, written ++ [compaction], []⟩
  .raft (.campaign 0 6) :: written.map (fun entry => .raft (.propose 0 entry)) ++
  [.raft (.append 0 6 11), .raft (.append 1 6 11),
    .gc_log_tick 0 10 (fun _ => 16) ⟨1, 1, 1⟩,
    .raft (.append 0 6 12), .raft (.append 1 6 12), .raft (.commit 6 12),
    .apply 0 applied, .end_poll 0, .on_apply_res 0, .apply 1 applied]

theorem compaction_needs_no_snapshot_compacted :
    ∃ group, run step start compacting = some group ∧
      (∀ peer, (group.peers peer).truncated_index = 7) ∧
      (group.peers 0).apply_state.truncated_state.index = 7 ∧ group.SnapshotFree := by
  obtain ⟨group, hgroup, hpeers, hstate⟩ : ∃ group ∈ run step start compacting,
      (∀ peer, (group.peers peer).truncated_index = 7) ∧
        (group.peers 0).apply_state.truncated_state.index = 7 := by
    decide +kernel
  exact ⟨group, hgroup, hpeers, hstate, (compaction_needs_no_snapshot hgroup).1⟩

/-- A group that was bootstrapped has truncated all that it has applied. -/
theorem bootstrapped_truncated_not_below_applied :
    ¬ ∀ (actions : List (Action 1 Unit)) (group : CompactingGroup 1 Unit),
      run step start actions = some group →
      ∀ peer, (group.peers peer).truncated_index < (group.peers peer).applied_index := by
  intro hbelow
  exact lt_irrefl _ (hbelow [] start rfl 0)

end CompactingGroup

end hologram_kv
