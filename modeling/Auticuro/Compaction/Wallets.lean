import Auticuro.Compaction
import Auticuro.Decimal

open firm_wallet.balance_calculator firm_wallet.internal_servicepb firm_wallet.rocksdb_state
open firm_wallet.gc firm_wallet.node hologram_kv

namespace hologram_kv.LogStore

variable {Closure T : Type} {store next : LogStore Closure T} {decode : Bytes → Option T}
variable {allowed : Nat → Prop}

theorem on_ready_results_apply (results : List ExecResult) (store : LogStore Closure T) :
    (results.foldl on_ready_compact_log store).apply = store.apply := by
  induction results generalizing store with
  | nil => rfl
  | cons result results ih => rw [List.foldl_cons, ih, on_ready_compact_log_apply]

/-- Only the apply thread changes its state. -/
theorem step_consistent {action : Action Closure} (hconsistent : store.apply.Consistent allowed)
    (hallowed : ∀ task, action = .apply task → ∀ entry ∈ task.entries,
      ∀ compact_index ∈ entry.compact_index, allowed compact_index)
    (hstep : store.step decode action = some next) : next.apply.Consistent allowed := by
  unfold LogStore.step at hstep
  split at hstep
  swap
  · cases hstep
  · cases action with
    | append entries =>
      cases hstep
      unfold LogStore.append
      split <;> exact hconsistent
    | apply task =>
      obtain ⟨apply, happly, hnext⟩ := Option.bind_eq_some_iff.mp hstep
      cases hnext
      exact (hconsistent.handle_apply (hallowed task rfl)
        (Exec.toOption_eq_some_iff.mp happly)).1
    | end_poll =>
      cases hstep
      exact hconsistent.end_poll
    | on_apply_res =>
      obtain ⟨res, -, hnext⟩ := Option.bind_eq_some_iff.mp hstep
      cases hnext
      rw [on_ready_results_apply]
      exact hconsistent
    | gc =>
      simp only [LogStore.gc] at hstep
      split at hstep
      · cases hstep
      · rw [← Option.some.inj hstep]
        exact hconsistent
    | consume =>
      cases hstep
      exact hconsistent

end hologram_kv.LogStore

namespace firm_wallet.raft_group

variable {n : Nat} {Closure : Type} {B : BigDecimal} {config : Option EventLogGCConfig}

namespace Member

/-- A member has truncated its log at most up to the index in its wallet. -/
structure Inv (member : Member Closure) : Prop where
  log : member.log.apply.Consistent (fun index => index ≤ member.wallet.stored_applied_index)
  wallet : member.wallet.Progress

variable {member next : Member Closure}

theorem Inv.start (batch_size term : Nat) :
    (Member.start batch_size term : Member Closure).Inv where
  log := .start term RAFT_INIT_LOG_TERM le_rfl
  wallet := .start_up batch_size RocksDBState.empty

/-- A step of the wallet does not move its stored index back. -/
theorem Inv.set_wallet (hinv : member.Inv) {action : node.Action} {wallet : Node}
    (hstep : member.wallet.step B config action = some wallet) (received : Nat) :
    Inv { member with wallet := wallet, received := received } ∧
      member.wallet.stored_applied_index ≤ wallet.stored_applied_index := by
  obtain ⟨hprogress, hle⟩ := hinv.wallet.step hstep
  exact ⟨⟨hinv.log.mono fun _ hindex => hindex.trans hle, hprogress⟩, hle⟩

theorem Inv.receive (hinv : member.Inv) (hstep : member.receive B config = some next) :
    next.Inv ∧ member.wallet.stored_applied_index ≤ next.wallet.stored_applied_index := by
  obtain ⟨entry, -, hrest⟩ := Option.bind_eq_some_iff.mp hstep
  obtain ⟨wallet, hwallet, hnext⟩ := Option.bind_eq_some_iff.mp hrest
  cases hnext
  exact hinv.set_wallet hwallet _

theorem Inv.wallet_step (hinv : member.Inv) {action : node.Action}
    (hstep : member.wallet_step B config action = some next) :
    next.Inv ∧ member.wallet.stored_applied_index ≤ next.wallet.stored_applied_index := by
  unfold Member.wallet_step at hstep
  split at hstep
  · cases hstep
  · cases hstep
  · obtain ⟨wallet, hwallet, hnext⟩ := Option.bind_eq_some_iff.mp hstep
    cases hnext
    exact hinv.set_wallet hwallet _

theorem Inv.restart (hinv : member.Inv) {term applied_index_term : Nat}
    (hstep : member.restart B config term applied_index_term = some next) :
    next.Inv ∧ member.wallet.stored_applied_index ≤ next.wallet.stored_applied_index := by
  unfold Member.restart at hstep
  obtain ⟨wallet, hwallet, hnext⟩ := Option.bind_eq_some_iff.mp hstep
  cases hnext
  obtain ⟨hprogress, hle⟩ := hinv.wallet.step hwallet
  exact ⟨⟨.start term applied_index_term (hinv.log.truncated_kv.trans hle), hprogress⟩, hle⟩

end Member

namespace RaftGroup

/-- Every member keeps its log behind its wallet, and nothing is proposed that
would not. -/
structure Inv (group : RaftGroup n Closure) : Prop where
  members : ∀ peer, (group.members peer).Inv
  proposed : ∀ compact_index ∈ group.proposed, ∀ peer,
    compact_index ≤ (group.members peer).wallet.stored_applied_index

variable {group next : RaftGroup n Closure} {decode : Bytes → Option Command}
variable {raft_log_gc_count_limit : Nat}

theorem Inv.compacts_behind_wallets (hinv : group.Inv) : group.CompactsBehindWallets where
  truncated peer := (hinv.members peer).log.truncated
  resumes peer := Nat.succ_le_succ (hinv.members peer).log.truncated_kv

theorem Inv.start (batch_size term : Nat) :
    (RaftGroup.start batch_size term : RaftGroup n Closure).Inv :=
  ⟨fun _ => Member.Inv.start batch_size term, fun _ hindex => by cases hindex⟩

theorem Inv.update (hinv : group.Inv) {peer : Fin n} {member : Member Closure}
    (hmember : member.Inv ∧
      (group.members peer).wallet.stored_applied_index ≤ member.wallet.stored_applied_index) :
    (group.update peer member).Inv := by
  refine ⟨?_, ?_⟩
  · refine (Function.forall_update_iff group.members (fun _ after => after.Inv)).mpr ?_
    exact ⟨hmember.1, fun other _ => hinv.members other⟩
  · intro compact_index hindex
    refine (Function.forall_update_iff group.members
      (fun _ after => compact_index ≤ after.wallet.stored_applied_index)).mpr ?_
    exact ⟨(hinv.proposed compact_index hindex peer).trans hmember.2,
      fun other _ => hinv.proposed compact_index hindex other⟩

theorem Inv.step {action : Action n Closure} (hinv : group.Inv)
    (hcaught : group.WalletsCaughtUp raft_log_gc_count_limit action)
    (hstep : group.step B config decode raft_log_gc_count_limit action = some next) : next.Inv := by
  cases action with
  | gc_log_tick peer matched =>
    obtain ⟨compact_idx, htick, hnext⟩ := Option.bind_eq_some_iff.mp hstep
    cases hnext
    obtain ⟨hreplicated, rfl⟩ := on_raft_gc_log_tick_eq_some htick
    refine ⟨hinv.members, ?_⟩
    intro compact_index hindex
    obtain hindex | hindex := List.mem_append.mp hindex
    · exact hinv.proposed compact_index hindex
    · rw [List.mem_singleton.mp hindex]
      exact hcaught hreplicated
  | log peer action =>
    simp only [RaftGroup.step] at hstep
    split at hstep
    · next hallowed =>
      obtain ⟨log, hlog, hnext⟩ := Option.bind_eq_some_iff.mp hstep
      cases hnext
      refine hinv.update ⟨⟨LogStore.step_consistent (hinv.members peer).log ?_ hlog,
        (hinv.members peer).wallet⟩, le_rfl⟩
      rintro task rfl entry hentry compact_index hindex
      exact hinv.proposed compact_index (hallowed entry hentry compact_index hindex) peer
    · cases hstep
  | receive peer =>
    obtain ⟨member, hmember, hnext⟩ := Option.bind_eq_some_iff.mp hstep
    cases hnext
    exact hinv.update ((hinv.members peer).receive hmember)
  | wallet peer action =>
    obtain ⟨member, hmember, hnext⟩ := Option.bind_eq_some_iff.mp hstep
    cases hnext
    exact hinv.update ((hinv.members peer).wallet_step hmember)
  | restart peer term applied_index_term =>
    simp only [RaftGroup.step] at hstep
    obtain ⟨member, hmember, hnext⟩ := Option.bind_eq_some_iff.mp hstep
    cases hnext
    exact hinv.update ((hinv.members peer).restart hmember)

/-- In every run in which a tick proposes a compaction only up to what every
wallet has stored, no log is compacted behind its wallet. -/
theorem compaction_stays_behind_wallets (B : BigDecimal) (config : Option EventLogGCConfig)
    (decode : Bytes → Option Command) (raft_log_gc_count_limit batch_size term : Nat)
    {actions : List (Action n Closure)} {reached : RaftGroup n Closure}
    (hcaught : Run.Along (RaftGroup.step B config decode raft_log_gc_count_limit)
      (RaftGroup.WalletsCaughtUp raft_log_gc_count_limit) (RaftGroup.start batch_size term) actions)
    (hrun : Run.run (RaftGroup.step B config decode raft_log_gc_count_limit)
      (RaftGroup.start batch_size term) actions = some reached) :
    reached.CompactsBehindWallets := by
  have hinv : reached.Inv := by
    refine Run.run_invariant_along ?_ (Inv.start batch_size term) hcaught hrun
    intro state action next hinv hcaught hstep
    exact hinv.step hcaught hstep
  exact hinv.compacts_behind_wallets

/-- A log of eleven entries. -/
def elevenEntries : List Entry :=
  (List.range' 6 11).map fun index => ⟨index, 6, none⟩

def compaction : Entry :=
  ⟨17, 6, some { body := .admin_request (.CompactLog 7 6) }⟩

/-- The single member of a group appends and applies entries. -/
def applied (entries : List Entry) : List (Action 1 Nat) :=
  [.log 0 (.append entries), .log 0 (.apply ⟨6, entries, []⟩), .log 0 .end_poll,
    .log 0 .on_apply_res]

/-- The member compacts its log before its wallet has stored anything, and
starts again. -/
def walletBehind : List (Action 1 Nat) :=
  applied elevenEntries ++ [.gc_log_tick 0 [16]] ++ applied [compaction] ++
    [.restart 0 6 6, .log 0 .consume]

theorem compaction_outruns_wallet :
    ∃ group, Run.run (RaftGroup.step plainDecimal none (fun _ => none) 10)
        (RaftGroup.start 100 6) walletBehind = some group ∧
      ¬ group.CompactsBehindWallets ∧ (group.members 0).log.consumer.phase = .Panicked := by
  obtain ⟨group, hrun, hbehind, hpanicked⟩ :
      ∃ group ∈ Run.run (RaftGroup.step plainDecimal none (fun _ => none) 10)
        (RaftGroup.start 100 6) walletBehind,
        (group.members 0).wallet.stored_applied_index <
          (group.members 0).log.apply.delegate.apply_state.truncated_state.index ∧
        (group.members 0).log.consumer.phase = .Panicked := by
    decide +kernel
  exact ⟨group, hrun, fun hcompacts => absurd (hcompacts.truncated 0) hbehind.not_ge, hpanicked⟩

/-- The wallet stores the first two entries before the tick. -/
def walletAhead : List (Action 1 Nat) :=
  applied elevenEntries ++ List.replicate 5 (.log 0 .consume) ++
    [.receive 0, .wallet 0 .apply_step, .receive 0, .wallet 0 .apply_step, .wallet 0 .flush,
      .gc_log_tick 0 [16]] ++ applied [compaction]

theorem compaction_stays_behind_wallets_ahead :
    ∃ group, Run.run (RaftGroup.step plainDecimal none (fun _ => none) 10)
        (RaftGroup.start 100 6) walletAhead = some group ∧
      (group.members 0).log.apply.delegate.apply_state.truncated_state.index = 7 ∧
      group.CompactsBehindWallets := by
  have hcaught : Run.Along (RaftGroup.step plainDecimal none (fun _ => none) 10)
      (RaftGroup.WalletsCaughtUp 10) (RaftGroup.start 100 6) walletAhead := by
    decide +kernel
  obtain ⟨group, hrun, htruncated⟩ :
      ∃ group ∈ Run.run (RaftGroup.step plainDecimal none (fun _ => none) 10)
        (RaftGroup.start 100 6) walletAhead,
        (group.members 0).log.apply.delegate.apply_state.truncated_state.index = 7 := by
    decide +kernel
  exact ⟨group, hrun, htruncated,
    compaction_stays_behind_wallets plainDecimal none (fun _ => none) 10 100 6 hcaught hrun⟩

end RaftGroup

end firm_wallet.raft_group
