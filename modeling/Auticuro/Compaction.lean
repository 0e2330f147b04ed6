import Auticuro.Node.Progress
import Auticuro.TinyMq.ApplyState
import Auticuro.TinyMq.LogConsumer

open hologram_kv

namespace firm_wallet.raft_group

open balance_calculator internal_servicepb rocksdb_state gc node

/-- A process of the service: its raft log and its wallet, with the number of
entries that the wallet has taken from the consumer. -/
structure Member (Closure : Type) where
  log : LogStore Closure Command
  wallet : Node
  received : Nat := 0

/-- A raft group of `n` members, with the compactions proposed so far. -/
structure RaftGroup (n : Nat) (Closure : Type) where
  members : Fin n → Member Closure
  proposed : List Nat := []

inductive Action (n : Nat) (Closure : Type) where
  /-- The tick of a leader, with the matched indices of the peers. -/
  | gc_log_tick (peer : Fin n) (matched : List Nat)
  | log (peer : Fin n) (action : LogStore.Action Closure)
  /-- The wallet takes the next entry from the consumer. -/
  | receive (peer : Fin n)
  | wallet (peer : Fin n) (action : node.Action)
  | restart (peer : Fin n) (term applied_index_term : Nat)
  deriving DecidableEq

variable {n : Nat} {Closure : Type}

namespace Member

/-- A member that starts with a new region and an empty wallet. -/
def start (batch_size term : Nat) : Member Closure :=
  let wallet := Node.start_up batch_size RocksDBState.empty
  { log := LogStore.start term RAFT_INIT_LOG_TERM write_initial_apply_state [] RAFT_INIT_LOG_INDEX
      (wallet.stored_applied_index + 1)
    wallet := wallet }

variable (B : BigDecimal) (config : Option EventLogGCConfig)

def receive (self : Member Closure) : Option (Member Closure) := do
  let entry ← self.log.consumer.sent[self.received]?
  let wallet ← self.wallet.step B config (.receive entry)
  return { self with wallet := wallet, received := self.received + 1 }

/-- The steps of the wallet's own threads. -/
def wallet_step (self : Member Closure) : node.Action → Option (Member Closure)
  | .receive _ => none
  | .crash => none
  | action => do
    let wallet ← self.wallet.step B config action
    return { self with wallet := wallet }

/-- After a restart the wallet consumes from behind its stored index on. -/
def restart (self : Member Closure) (term applied_index_term : Nat) : Option (Member Closure) := do
  let wallet ← self.wallet.step B config .crash
  return {
    log := self.log.restart term applied_index_term (wallet.stored_applied_index + 1)
    wallet := wallet }

end Member

namespace RaftGroup

def start (batch_size term : Nat) : RaftGroup n Closure where
  members _ := Member.start batch_size term

def update (group : RaftGroup n Closure) (peer : Fin n) (member : Member Closure) :
    RaftGroup n Closure :=
  { group with members := Function.update group.members peer member }

/-- What raft guarantees: a compaction that is applied was proposed. -/
def Allowed (group : RaftGroup n Closure) : LogStore.Action Closure → Prop
  | .apply task => ∀ entry ∈ task.entries, ∀ compact_index ∈ entry.compact_index,
    compact_index ∈ group.proposed
  | _ => True

instance Allowed.decidable (group : RaftGroup n Closure) :
    ∀ action, Decidable (group.Allowed action)
  | .apply _ => inferInstanceAs (Decidable (∀ entry ∈ _, _))
  | .append _ | .end_poll | .on_apply_res | .gc | .consume => .isTrue trivial

variable (B : BigDecimal) (config : Option EventLogGCConfig) (decode : Bytes → Option Command)
variable (raft_log_gc_count_limit : Nat)

def step (group : RaftGroup n Closure) : Action n Closure → Option (RaftGroup n Closure)
  | .gc_log_tick peer matched => do
    let log := (group.members peer).log
    let compact_idx ← on_raft_gc_log_tick raft_log_gc_count_limit (first_index log.apply_state)
      log.last_index matched
    return { group with proposed := group.proposed ++ [compact_idx] }
  | .log peer action =>
    if group.Allowed action then do
      let member := group.members peer
      let log ← member.log.step decode action
      return group.update peer { member with log := log }
    else
      none
  | .receive peer => do
    let member ← (group.members peer).receive B config
    return group.update peer member
  | .wallet peer action => do
    let member ← (group.members peer).wallet_step B config action
    return group.update peer member
  | .restart peer term applied_index_term => do
    let member ← (group.members peer).restart B config term applied_index_term
    return group.update peer member

/-- The log of a member is not compacted behind the index that its wallet has
stored, so that the entry from which a restart consumes is still there. -/
structure CompactsBehindWallets (group : RaftGroup n Closure) : Prop where
  truncated : ∀ peer,
    (group.members peer).log.apply.delegate.apply_state.truncated_state.index ≤
      (group.members peer).wallet.stored_applied_index
  resumes : ∀ peer, first_index (group.members peer).log.apply.ctx.kv ≤
    (group.members peer).wallet.stored_applied_index + 1

/-- When a tick proposes a compaction, every wallet has stored the index it
compacts to. -/
def WalletsCaughtUp (group : RaftGroup n Closure) : Action n Closure → Prop
  | .gc_log_tick peer matched =>
    let log := (group.members peer).log
    first_index log.apply_state + raft_log_gc_count_limit ≤
        replicated_idx log.last_index matched →
      ∀ other, first_index log.apply_state + raft_log_gc_count_limit / 10 ≤
        (group.members other).wallet.stored_applied_index
  | _ => True

instance WalletsCaughtUp.decidable (group : RaftGroup n Closure) (action : Action n Closure) :
    Decidable (group.WalletsCaughtUp raft_log_gc_count_limit action) := by
  cases action <;> dsimp only [WalletsCaughtUp] <;> infer_instance

end RaftGroup

end firm_wallet.raft_group
