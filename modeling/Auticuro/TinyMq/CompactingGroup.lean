import Auticuro.Library.ReplicatedLog
import Auticuro.TinyMq.Batch
import Auticuro.TinyMq.Truncation

namespace hologram_kv

variable {n : Nat} {Closure : Type}

/-- The index and the term up to which the entry compacts the log. -/
def Entry.compaction (entry : Entry) : Option (Nat × Nat) :=
  match entry.data.map RaftCmdRequest.body with
  | some (.admin_request (.CompactLog compact_index compact_term)) =>
    some (compact_index, compact_term)
  | _ => none

/-- The index of the last entry of a log that begins behind the initial index. -/
def log_last_index (log : List Entry) : Nat := RAFT_INIT_LOG_INDEX + log.length

/-- The term of the entry with an index. -/
def get_index_term (log : List Entry) (idx : Nat) : Nat :=
  (log[idx - (RAFT_INIT_LOG_INDEX + 1)]?.map Entry.term).getD 0

/-- The entry with which a leader proposes to compact its log. -/
def compact_log_entry (leader : ReplicatedLog.Leader n Entry) (term compact_idx : Nat)
    (peer_meta : PeerMeta) : Entry where
  index := log_last_index leader.log + 1
  term := term
  data := some (new_compact_log_request peer_meta compact_idx
    (get_index_term leader.log compact_idx))

/-- The part of `handle_apply` before its entries are applied. -/
def ApplyFsm.begin_apply (fsm : ApplyFsm Closure) (apply : Apply Closure) :
    Except Panic (ApplyFsm Closure) :=
  match apply.entries.getLast? with
  | none => .error .Unreachable
  | some entry => do
    let fsm := { fsm with ctx := { fsm.ctx with timer := true } }
    let fsm ← fsm.set_commit_state apply.term entry
    return fsm.append_proposal apply.cbs

theorem ApplyFsm.handle_apply_eq (fsm : ApplyFsm Closure) (apply : Apply Closure) :
    fsm.handle_apply apply =
      fsm.begin_apply apply >>= fun fsm => fsm.handle_raft_committed_entries apply.entries := by
  unfold handle_apply begin_apply
  cases apply.entries.getLast? with
  | none => rfl
  | some last =>
    simp only [bind_assoc, pure_bind]

/-- Before the entries of a task are applied, the applied index is where it was. -/
theorem ApplyFsm.begin_apply_eq_ok {fsm begun : ApplyFsm Closure} {apply : Apply Closure}
    (hbegin : fsm.begin_apply apply = .ok begun) :
    begun.delegate.apply_state.applied_index = fsm.delegate.apply_state.applied_index := by
  unfold begin_apply at hbegin
  split at hbegin
  · cases hbegin
  · obtain ⟨committed, hcommitted, hok⟩ := Exec.bind_eq_ok_iff.mp hbegin
    cases hok
    simp only [set_commit_state] at hcommitted
    split at hcommitted
    · cases hcommitted
    · cases hcommitted
      rfl

/-- What a peer has to do with the compaction of its log: the apply thread, and the
raft thread's copy of the apply state with the number of results it has taken. -/
structure CompactingPeer (Closure : Type) where
  fsm : ApplyFsm Closure
  apply_state : RaftApplyState
  handled : Nat := 0

namespace CompactingPeer

/-- A peer that starts from an apply state in the database. -/
def start (term applied_index_term : Nat) (apply_state : RaftApplyState) :
    CompactingPeer Closure where
  fsm := (Replica.start term applied_index_term apply_state).fsm
  apply_state := apply_state

def applied_index (self : CompactingPeer Closure) : Nat :=
  self.fsm.delegate.apply_state.applied_index

def truncated_index (self : CompactingPeer Closure) : Nat :=
  self.fsm.delegate.apply_state.truncated_state.index

/-- The raft thread takes the next result of the apply thread. -/
def on_apply_res (self : CompactingPeer Closure) : Option (CompactingPeer Closure) := do
  let res ← self.fsm.ctx.notified[self.handled]?
  return { self with apply_state := res.apply_state, handled := self.handled + 1 }

end CompactingPeer

/-- A raft group: the replicated log, and the peers that apply and compact it. The
logs of the group are whole; what is compacted is in the apply states. -/
structure CompactingGroup (n : Nat) (Closure : Type) where
  raft : ReplicatedLog.Cluster n Entry
  peers : Fin n → CompactingPeer Closure

namespace CompactingGroup

inductive Action (n : Nat) (Closure : Type) where
  /-- A step of raft. The proposals among these are no compactions. -/
  | raft (action : ReplicatedLog.Action n Entry)
  /-- The tick of a leader, with the limit and the matched indices of the peers. -/
  | gc_log_tick (peer : Fin n) (raft_log_gc_count_limit : Nat) (matched : Fin n → Nat)
      (peer_meta : PeerMeta)
  | apply (peer : Fin n) (task : Apply Closure)
  | end_poll (peer : Fin n)
  | on_apply_res (peer : Fin n)
  /-- The process of a peer starts again, from the apply state in its database. -/
  | restart (peer : Fin n) (applied_index_term : Nat)

/-- A group that was bootstrapped. -/
def start : CompactingGroup n Closure where
  raft := ReplicatedLog.Cluster.start RAFT_INIT_LOG_TERM
  peers _ := .start RAFT_INIT_LOG_TERM RAFT_INIT_LOG_TERM write_initial_apply_state

variable (self : CompactingGroup n Closure)

def update (peer : Fin n) (state : CompactingPeer Closure) : CompactingGroup n Closure :=
  { self with peers := Function.update self.peers peer state }

/-- What raft guarantees. Entries are proposed with the next index, the matched
index of a peer in the leader's term counts what the peer has acknowledged in it,
and what is applied are the next entries of the peer's log, which are committed. -/
def Allowed : Action n Closure → Prop
  | .raft (.propose peer entry) => entry.compaction = none ∧
    ∀ leader ∈ self.raft.leaders (self.raft.nodes peer).term,
      entry.index = log_last_index leader.log + 1
  | .gc_log_tick peer _ matched _ =>
    (∃ leader ∈ self.raft.leaders (self.raft.nodes peer).term, leader.node = peer) ∧
      ∀ other, matched other ≤
        RAFT_INIT_LOG_INDEX + self.raft.acked (self.raft.nodes peer).term other
  | .apply peer task =>
    let applied := (self.peers peer).applied_index - RAFT_INIT_LOG_INDEX
    let log := (self.raft.nodes peer).log
    task.entries = (log.drop applied).take task.entries.length ∧
      log.take (applied + task.entries.length) <+: self.raft.committed
  | _ => True

instance Allowed.decidable (action : Action n Closure) : Decidable (self.Allowed action) := by
  unfold Allowed
  split <;> infer_instance

/-- The leader proposes a compaction if enough is replicated. -/
def gc_log_tick (peer : Fin n) (raft_log_gc_count_limit : Nat) (matched : Fin n → Nat)
    (peer_meta : PeerMeta) : Option (CompactingGroup n Closure) := do
  let leader ← self.raft.leaders (self.raft.nodes peer).term
  let compact_idx ← on_raft_gc_log_tick raft_log_gc_count_limit
    (first_index (self.peers peer).apply_state) (log_last_index (self.raft.nodes peer).log)
    (List.ofFn matched)
  let raft ← self.raft.step Entry.term (.propose peer
    (compact_log_entry leader (self.raft.nodes peer).term compact_idx peer_meta))
  return { self with raft := raft }

def step (action : Action n Closure) : Option (CompactingGroup n Closure) :=
  if self.Allowed action then
    match action with
    | .raft action => do
      let raft ← self.raft.step Entry.term action
      return { self with raft := raft }
    | .gc_log_tick peer raft_log_gc_count_limit matched peer_meta =>
      self.gc_log_tick peer raft_log_gc_count_limit matched peer_meta
    | .apply peer task => do
      let fsm ← ((self.peers peer).fsm.handle_apply task).toOption
      return self.update peer { self.peers peer with fsm := fsm }
    | .end_poll peer =>
      some (self.update peer { self.peers peer with fsm := (self.peers peer).fsm.end_poll })
    | .on_apply_res peer => do
      let state ← (self.peers peer).on_apply_res
      return self.update peer state
    | .restart peer applied_index_term =>
      some (self.update peer (.start (self.raft.nodes peer).term applied_index_term
        (self.peers peer).fsm.ctx.kv))
  else
    none

/-- What an action does, and what it needs. -/
inductive Step (group : CompactingGroup n Closure) :
    Action n Closure → CompactingGroup n Closure → Prop where
  | raft {action : ReplicatedLog.Action n Entry} {raft : ReplicatedLog.Cluster n Entry}
      (hallowed : group.Allowed (.raft action))
      (hraft : ReplicatedLog.Cluster.Step Entry.term group.raft action raft) :
      Step group (.raft action) { group with raft := raft }
  | gc_log_tick {peer : Fin n} {raft_log_gc_count_limit compact_idx : Nat} {matched : Fin n → Nat}
      {peer_meta : PeerMeta} {leader : ReplicatedLog.Leader n Entry}
      {raft : ReplicatedLog.Cluster n Entry}
      (hmatched : ∀ other, matched other ≤
        RAFT_INIT_LOG_INDEX + group.raft.acked (group.raft.nodes peer).term other)
      (hleader : group.raft.leaders (group.raft.nodes peer).term = some leader)
      (htick : on_raft_gc_log_tick raft_log_gc_count_limit
        (first_index (group.peers peer).apply_state)
        (log_last_index (group.raft.nodes peer).log) (List.ofFn matched) = some compact_idx)
      (hraft : ReplicatedLog.Cluster.Step Entry.term group.raft (.propose peer
        (compact_log_entry leader (group.raft.nodes peer).term compact_idx peer_meta)) raft) :
      Step group (.gc_log_tick peer raft_log_gc_count_limit matched peer_meta)
        { group with raft := raft }
  | apply {peer : Fin n} {task : Apply Closure} {fsm : ApplyFsm Closure}
      (hallowed : group.Allowed (.apply peer task))
      (happly : (group.peers peer).fsm.handle_apply task = .ok fsm) :
      Step group (.apply peer task) (group.update peer { group.peers peer with fsm := fsm })
  | end_poll {peer : Fin n} :
      Step group (.end_poll peer)
        (group.update peer { group.peers peer with fsm := (group.peers peer).fsm.end_poll })
  | on_apply_res {peer : Fin n} {res : ApplyRes}
      (hres : res ∈ (group.peers peer).fsm.ctx.notified) :
      Step group (.on_apply_res peer) (group.update peer { group.peers peer with
        apply_state := res.apply_state, handled := (group.peers peer).handled + 1 })
  | restart {peer : Fin n} {applied_index_term : Nat} :
      Step group (.restart peer applied_index_term)
        (group.update peer (.start (group.raft.nodes peer).term applied_index_term
          (group.peers peer).fsm.ctx.kv))

theorem step_spec {group next : CompactingGroup n Closure} {action : Action n Closure}
    (hstep : group.step action = some next) : Step group action next := by
  unfold step at hstep
  split at hstep
  case isFalse => cases hstep
  case isTrue hallowed =>
    cases action with
    | raft action =>
      obtain ⟨raft, hraft, hok⟩ := Option.bind_eq_some_iff.mp hstep
      cases hok
      exact .raft hallowed (ReplicatedLog.Cluster.step_spec hraft)
    | gc_log_tick peer raft_log_gc_count_limit matched peer_meta =>
      unfold CompactingGroup.gc_log_tick at hstep
      obtain ⟨leader, hleader, hrest⟩ := Option.bind_eq_some_iff.mp hstep
      obtain ⟨compact_idx, htick, hrest⟩ := Option.bind_eq_some_iff.mp hrest
      obtain ⟨raft, hraft, hok⟩ := Option.bind_eq_some_iff.mp hrest
      cases hok
      exact .gc_log_tick hallowed.2 hleader htick (ReplicatedLog.Cluster.step_spec hraft)
    | apply peer task =>
      obtain ⟨fsm, happly, hok⟩ := Option.bind_eq_some_iff.mp hstep
      cases hok
      exact .apply hallowed (Exec.toOption_eq_some_iff.mp happly)
    | end_poll peer =>
      cases hstep
      exact .end_poll
    | on_apply_res peer =>
      obtain ⟨state, htaken, hok⟩ := Option.bind_eq_some_iff.mp hstep
      cases hok
      obtain ⟨res, hres, hstate⟩ := Option.bind_eq_some_iff.mp htaken
      cases hstate
      exact .on_apply_res (List.mem_of_getElem? hres)
    | restart peer applied_index_term =>
      cases hstep
      exact .restart

end CompactingGroup

end hologram_kv
