import Auticuro.TinyMq.Apply

namespace hologram_kv

variable {Closure : Type}

namespace ProposalQueue

/-- The loop over `pop`: the front of the queue is popped while it is not above
`(term, index)`. The proposals of lower terms are told that they are stale. -/
def find_proposal (current_term term index : Nat) :
    List (Proposal Closure) →
      Except Panic (Option (Proposal Closure) × List (Proposal Closure) × List (Call Closure))
  | [] => .ok (none, [], [])
  | p :: queue =>
    if log_key term index < p.key then
      .ok (none, p :: queue, [])
    else if p.term = term then
      if p.index = index then
        .ok (if p.cb.is_none then none else some p, queue, [])
      else
        .error (.UnexpectedCallback term p.index index)
    else do
      let (found, queue, calls) ← find_proposal current_term term index queue
      return (found, queue, notify_stale_req current_term p.cb ++ calls)

/-- The proposals of the committed entries, in the order of the entries. -/
def find_proposals (current_term : Nat) (queue : List (Proposal Closure)) :
    List Entry →
      Except Panic (List (Proposal Closure) × List (Proposal Closure) × List (Call Closure))
  | [] => .ok ([], queue, [])
  | entry :: entries => do
    let (found, queue, calls) ← find_proposal current_term entry.term entry.index queue
    let (cbs, queue, later) ← find_proposals current_term queue entries
    return (found.toList ++ cbs, queue, calls ++ later)

def push (queue : List (Proposal Closure)) (p : Proposal Closure) :
    Except Panic (List (Proposal Closure)) :=
  match queue.getLast? with
  | some back => if back.key < p.key then .ok (queue ++ [p]) else .error .ProposalOrder
  | none => .ok [p]

end ProposalQueue

/-- One peer of the raft group: the raft thread with its proposals and the
callbacks it ran, the channel to the apply thread, and the apply thread. What
the peer proposed and what raft gave it as committed is remembered. -/
structure Replica (Closure : Type) where
  proposals : List (Proposal Closure) := []
  last_applying_idx : Nat
  tasks : List (Apply Closure) := []
  fsm : ApplyFsm Closure
  notified_stale : List (Call Closure) := []
  proposed : List (Proposal Closure × RaftCmdRequest) := []
  committed : List Entry := []
  deriving DecidableEq

namespace Replica

/-- The callbacks that ran on either thread. -/
def invoked (replica : Replica Closure) : List (Call Closure) :=
  replica.notified_stale ++ replica.fsm.ctx.invoked

/-- A peer that starts from an apply state in the database. -/
def start (term applied_index_term : Nat) (apply_state : RaftApplyState) : Replica Closure where
  last_applying_idx := apply_state.applied_index
  fsm :=
    { delegate :=
        { term := term, apply_state := apply_state, applied_index_term := applied_index_term,
          last_flush_applied_index := apply_state.applied_index }
      ctx := { kv := apply_state } }

/-- `post_propose`, once raft has appended the command to its log. -/
def post_propose (replica : Replica Closure) (p : Proposal Closure) (request : RaftCmdRequest) :
    Except Panic (Replica Closure) := do
  let proposals ← ProposalQueue.push replica.proposals p
  return { replica with proposals := proposals, proposed := replica.proposed ++ [(p, request)] }

def handle_raft_committed_entries (replica : Replica Closure) (term : Nat)
    (committed_entries : List Entry) : Except Panic (Replica Closure) :=
  match committed_entries.getLast? with
  | none => .ok replica
  | some last_entry => do
    let (cbs, proposals, calls) ←
      ProposalQueue.find_proposals term replica.proposals committed_entries
    return { replica with
      proposals := proposals
      last_applying_idx := last_entry.index
      tasks := replica.tasks ++ [⟨term, committed_entries, cbs⟩]
      notified_stale := replica.notified_stale ++ calls
      committed := replica.committed ++ committed_entries }

/-- The apply thread handles the next task, if there is one. -/
def apply_task (replica : Replica Closure) : Except Panic (Replica Closure) :=
  match replica.tasks with
  | [] => .ok replica
  | task :: tasks => do
    let fsm ← replica.fsm.handle_apply task
    return { replica with tasks := tasks, fsm := fsm }

inductive Action (Closure : Type) where
  /-- Raft accepts a command at the peer's term and the next index. -/
  | propose (p : Proposal Closure) (request : RaftCmdRequest)
  /-- Raft hands over entries that it has committed. -/
  | commit (term : Nat) (committed_entries : List Entry)
  | apply_task
  | end_poll
  deriving DecidableEq

def step (replica : Replica Closure) : Action Closure → Except Panic (Replica Closure)
  | .propose p request => replica.post_propose p request
  | .commit term committed_entries => replica.handle_raft_committed_entries term committed_entries
  | .apply_task => replica.apply_task
  | .end_poll => .ok { replica with fsm := replica.fsm.end_poll }

/-- Committing, applying and writing make no proposals. -/
theorem step_eq_ok {replica next : Replica Closure} {action : Action Closure}
    (hstep : replica.step action = .ok next) :
    next.proposed = replica.proposed ++
        (match action with | .propose p request => [(p, request)] | _ => []) ∧
      next.committed = replica.committed ++
        (match action with | .commit _ entries => entries | _ => []) := by
  cases action with
  | propose p request =>
    simp only [step, post_propose] at hstep
    cases hpush : ProposalQueue.push replica.proposals p with
    | error panic =>
      rw [hpush] at hstep
      cases hstep
    | ok proposals =>
      rw [hpush] at hstep
      cases hstep
      simp
  | commit term entries =>
    simp only [step, handle_raft_committed_entries] at hstep
    cases hlast : entries.getLast? with
    | none =>
      rw [List.getLast?_eq_none_iff] at hlast
      subst hlast
      cases hstep
      simp
    | some last_entry =>
      simp only [hlast] at hstep
      cases hfind : ProposalQueue.find_proposals term replica.proposals entries with
      | error panic =>
        rw [hfind] at hstep
        cases hstep
      | ok found =>
        rw [hfind] at hstep
        cases hstep
        simp
  | apply_task =>
    simp only [step, apply_task] at hstep
    cases htasks : replica.tasks with
    | nil =>
      rw [htasks] at hstep
      cases hstep
      simp
    | cons task tasks =>
      simp only [htasks] at hstep
      cases happly : replica.fsm.handle_apply task with
      | error panic =>
        rw [happly] at hstep
        cases hstep
      | ok fsm =>
        rw [happly] at hstep
        cases hstep
        simp
  | end_poll =>
    cases hstep
    simp

/-- What raft and Rust guarantee of a proposal. A peer proposes past its earlier
proposals and past what it knows to be committed, and a callback is moved into
one proposal only. -/
@[mk_iff]
structure ProposeGuard (replica : Replica Closure) (p : Proposal Closure) : Prop where
  increasing : ∀ other ∈ replica.proposed, other.1.key < p.key
  uncommitted : ∀ entry ∈ replica.committed, entry.key < p.key
  moved : p.cb.is_none = false → ∀ other ∈ replica.proposed, other.1.cb ≠ p.cb

/-- What raft guarantees of committed entries: consecutive indices, terms that
do not decrease, one entry for one term and index, and the proposals of the
peer in the term of an entry committed before it. -/
@[mk_iff]
structure CommitGuard (replica : Replica Closure) (entries : List Entry) : Prop where
  consecutive : entries.map Entry.index =
    List.range' (replica.last_applying_idx + 1) entries.length
  terms : (replica.committed ++ entries).Pairwise (fun entry later => entry.term ≤ later.term)
  same : ∀ entry ∈ entries, ∀ p ∈ replica.proposed, p.1.key = entry.key → entry.data = some p.2
  matching : ∀ entry ∈ entries, ∀ p ∈ replica.proposed, p.1.term = entry.term →
    p.1.index < entry.index → ∃ earlier ∈ replica.committed ++ entries, earlier.key = p.1.key

def Guard (replica : Replica Closure) : Action Closure → Prop
  | .propose p _ => replica.ProposeGuard p
  | .commit _ entries => replica.CommitGuard entries
  | .apply_task => True
  | .end_poll => True

instance Guard.decidable [DecidableEq Closure] (replica : Replica Closure) :
    ∀ action, Decidable (replica.Guard action)
  | .propose p _ => decidable_of_iff _ (proposeGuard_iff replica p).symm
  | .commit _ entries => decidable_of_iff _ (commitGuard_iff replica entries).symm
  | .apply_task | .end_poll => .isTrue trivial

end Replica

/-- The smallest matched index of the peers of the group. -/
def replicated_idx (last_idx : Nat) (matched : List Nat) : Nat :=
  matched.foldl min last_idx

/-- The index up to which a leader proposes to compact the log at a tick. -/
def on_raft_gc_log_tick (raft_log_gc_count_limit first_idx last_idx : Nat) (matched : List Nat) :
    Option Nat :=
  if replicated_idx last_idx matched < first_idx then
    none
  else if replicated_idx last_idx matched - first_idx < raft_log_gc_count_limit then
    none
  else
    some (first_idx + raft_log_gc_count_limit / 10)

theorem on_raft_gc_log_tick_eq_some {raft_log_gc_count_limit first_idx last_idx compact_idx : Nat}
    {matched : List Nat}
    (htick : on_raft_gc_log_tick raft_log_gc_count_limit first_idx last_idx matched =
      some compact_idx) :
    first_idx + raft_log_gc_count_limit ≤ replicated_idx last_idx matched ∧
      compact_idx = first_idx + raft_log_gc_count_limit / 10 := by
  unfold on_raft_gc_log_tick at htick
  split at htick
  · cases htick
  · split at htick
    · cases htick
    · cases htick
      exact ⟨by omega, rfl⟩

end hologram_kv
