import Auticuro.Node.WalletSteps
import Auticuro.StateMachine.EveryAccount

open Run

namespace firm_wallet.node

open accountpb balance_calculator internal_servicepb rocksdb_state state_machine gc

variable {B : BigDecimal} {config : Option EventLogGCConfig} {P : Account → Prop}

/-- A property of every account is kept by a step that keeps it for the
accounts that an executed command writes. -/
theorem WalletStep.every_account {allowed : Command → Prop} {wallet next : Wallet}
    (hwritten : ∀ command written, allowed command →
      Account.Written B command.payload
        (wallet.statemachine.accounts.get written.account_id) written → P written)
    (hstep : WalletStep B allowed wallet next) (hwallet : wallet.EveryAccount P) :
    next.EveryAccount P := by
  cases hstep with
  | stay => exact hwallet
  | reply position event => exact ⟨hwallet.memory, hwallet.database, hwallet.pending⟩
  | execute hallowed _ hplan =>
    refine hwallet.executed fun write hwrite => ?_
    exact hwritten _ _ hallowed (StateMachine.plan_writes_written hplan hwrite)
  | finish log_index => exact hwallet.finish_entry log_index
  | flush _ hflush => exact hwallet.flush hflush
  | collect from_seq_num to_seq_num =>
    exact hwallet.write_gc_batch (EventLogGCLoop.gc_batch_data _ _ _)
  | restart => exact Wallet.EveryAccount.recover_from_db hwallet.database _

/-- A property that every write keeps holds of every account in every state
that a node reaches. -/
theorem Node.every_account_of_run
    (hkeep : ∀ payload prev written, (∀ account, prev = some account → P account) →
      Account.Written B payload prev written → P written)
    {batch_size : Nat} {actions : List Action} {last : Node}
    (hrun : run (Node.step B config) (Node.start_up batch_size RocksDBState.empty) actions =
      some last) : last.wallet.EveryAccount P := by
  have hempty : RocksDBState.empty.data.Every P := AccountMap.Every.empty P
  have hstep : ∀ (node : Node) (action : Action) (next : Node),
      (node.Consistent ∧ node.wallet.EveryAccount P) → node.step B config action = some next →
      next.Consistent ∧ next.wallet.EveryAccount P := by
    rintro node action next ⟨hnode, hwallet⟩ hnext
    have hwalletStep : WalletStep B (fun _ => True) node.wallet next.wallet :=
      hnode.wallet_step (fun _ _ => trivial) hnext
    refine ⟨hnode.step hnext, hwalletStep.every_account ?_ hwallet⟩
    intro command written _ hwritten
    exact hkeep _ _ written (fun account hget => hwallet.memory _ account hget) hwritten
  exact (run_invariant hstep ⟨Consistent.start_up batch_size RocksDBState.HoldsLog.empty,
    Wallet.EveryAccount.recover_from_db hempty batch_size⟩ hrun).2

/-- The command an action accepts is one that the guard allows. -/
def Node.AcceptsOnly (B : BigDecimal) (guard : Wallet → Command → Prop) (node : Node)
    (action : Action) : Prop :=
  ∀ command ∈ node.accepts B action, guard node.wallet command

instance (guard : Wallet → Command → Prop) [∀ wallet command, Decidable (guard wallet command)]
    (node : Node) (action : Action) : Decidable (node.AcceptsOnly B guard action) :=
  inferInstanceAs (Decidable (∀ command ∈ node.accepts B action, guard node.wallet command))

/-- Every account has a property throughout a run exactly when the commands
that are accepted in it meet the guard, provided that the guard keeps the
property and that a command without it breaks it. -/
theorem Node.every_account_iff_accepts {guard : Wallet → Command → Prop}
    (hkeep : ∀ wallet command written, wallet.EveryAccount P → guard wallet command →
      Account.Written B command.payload
        (wallet.statemachine.accounts.get written.account_id) written → P written)
    (hneeded : ∀ wallet command plan, wallet.statemachine.plan B command.payload = .ok plan →
      (AccountMap.write wallet.statemachine.accounts plan.writes).Every P → guard wallet command)
    {batch_size : Nat} {actions : List Action} {last : Node}
    (hrun : run (Node.step B config) (Node.start_up batch_size RocksDBState.empty) actions =
      some last) :
    Throughout (Node.step B config) (fun node => node.wallet.statemachine.accounts.Every P)
        (Node.start_up batch_size RocksDBState.empty) actions ↔
      Along (Node.step B config) (Node.AcceptsOnly B guard)
        (Node.start_up batch_size RocksDBState.empty) actions := by
  have hempty : RocksDBState.empty.data.Every P := AccountMap.Every.empty P
  refine throughout_iff_along
    (fun node (hnode : node.Consistent ∧ node.wallet.EveryAccount P) => hnode.2.memory) ?_ ?_
    ⟨Consistent.start_up batch_size RocksDBState.HoldsLog.empty,
      Wallet.EveryAccount.recover_from_db hempty batch_size⟩ hrun
  · rintro node action next ⟨hnode, hwallet⟩ hguard hnext
    have hstep : WalletStep B (guard node.wallet) node.wallet next.wallet :=
      hnode.accepted_wallet_step hguard hnext
    refine ⟨hnode.step hnext, hstep.every_account ?_ hwallet⟩
    exact fun command written hallowed => hkeep node.wallet command written hwallet hallowed
  · rintro node action next ⟨hnode, _⟩ hnext hafter command haccepts
    obtain ⟨_, _, log_index, offset, plan, _, hplan, hwallet⟩ :=
      hnode.accepts_step haccepts hnext
    rw [hwallet] at hafter
    exact hneeded node.wallet command plan hplan hafter

end firm_wallet.node
