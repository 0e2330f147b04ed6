import Auticuro.Node.WalletSteps
import Auticuro.StateMachine.DurableBalances

open Run

namespace firm_wallet

open accountpb balance_calculator internal_servicepb rocksdb_state state_machine gc

namespace rocksdb_state

variable (B : BigDecimal) (value : B.Decimal → ℚ)

/-- What an account holds, available and reserved; a missing account holds
nothing. -/
def AccountMap.total (self : AccountMap) (account_id : String) : ℚ :=
  (self.get account_id).elim 0 fun account => account.balance.total B value

variable {B value}

theorem AccountMap.total_eq (hB : B.Exact value) (accounts : AccountMap) (account_id : String) :
    accounts.total B value account_id = (accounts.balance account_id).total B value := by
  unfold total balance
  cases accounts.get account_id with
  | none => exact (Balance.initial_isZero hB).total.symm
  | some account => rfl

end rocksdb_state

namespace state_machine

variable {B : BigDecimal} {value : B.Decimal → ℚ} {self : StateMachine} {plan : Plan}

/-- Every command that is neither a transfer nor a batch keeps the totals. -/
theorem StateMachine.plan_total (hB : B.Exact value) {payload : CommandPayload}
    (hplan : self.plan B payload = .ok plan) (htransfer : payload.kind ≠ .transfer)
    (hbatch : payload.kind ≠ .batch_balance_operation) (account_id : String) :
    ((AccountMap.write self.accounts plan.writes).balance account_id).total B value =
      (self.accounts.balance account_id).total B value := by
  by_cases hreserve : payload.kind = .reserve
  · cases payload with
    | reserve_request request =>
      obtain ⟨curr, reserved, hvalue, hwritten, _⟩ := plan_reserve_balance hB hplan
      rw [hwritten]
      split
      · rename_i hid
        rw [hid, hvalue.total]
      · rfl
    | _ => cases hreserve
  by_cases hrelease : payload.kind = .release
  · cases payload with
    | release_request request =>
      obtain ⟨curr, held, released, _, hvalue, hwritten, _⟩ := plan_release_balance hB hplan
      rw [hwritten]
      split
      · rename_i hid
        rw [hid, hvalue.total]
      · rfl
    | _ => cases hrelease
  rw [plan_management_balance hplan (by simp [htransfer, hbatch, hreserve, hrelease])]

/-- A command leaves the accounts it does not name as they are. -/
theorem StateMachine.plan_get_of_not_named {payload : CommandPayload}
    (hplan : self.plan B payload = .ok plan) {account_id : String}
    (hnamed : account_id ∉ payload.account_ids) :
    (AccountMap.write self.accounts plan.writes).get account_id =
      self.accounts.get account_id := by
  have hlast : AccountWrite.last account_id plan.writes = none := by
    apply AccountWrite.last_eq_none
    rintro write hwrite rfl
    exact hnamed (plan_writes_named hplan write hwrite)
  rw [AccountMap.get_write, hlast, Option.none_or]

end state_machine

namespace node

variable {B : BigDecimal} {value : B.Decimal → ℚ} {config : Option EventLogGCConfig}

theorem WalletStep.durable (hB : B.Exact value) {allowed : Command → Prop} {wallet next : Wallet}
    (hstep : WalletStep B allowed wallet next) (hwallet : wallet.Durable B value) :
    next.Durable B value := by
  cases hstep with
  | stay => exact hwallet
  | reply position event => exact ⟨hwallet.tombstones, hwallet.pending⟩
  | execute _ _ hplan => exact hwallet.executed hplan hB
  | finish log_index => exact hwallet.finish_entry log_index
  | flush _ hflush => exact hwallet.flush hB hflush
  | collect from_seq_num to_seq_num =>
    exact hwallet.write_gc_batch (EventLogGCLoop.gc_batch_data _ _ _)
  | restart => exact Wallet.Durable.recover_from_db _ _

theorem Node.durable_of_run (hB : B.Exact value) {batch_size : Nat} {actions : List Action}
    {last : Node}
    (hrun : run (Node.step B config) (Node.start_up batch_size RocksDBState.empty) actions =
      some last) : last.wallet.Durable B value := by
  have hstep : ∀ (node : Node) (action : Action) (next : Node),
      (node.Consistent ∧ node.wallet.Durable B value) → node.step B config action = some next →
      next.Consistent ∧ next.wallet.Durable B value := by
    rintro node action next ⟨hnode, hwallet⟩ hnext
    have hwalletStep : WalletStep B (fun _ => True) node.wallet next.wallet :=
      hnode.wallet_step (fun _ _ => trivial) hnext
    exact ⟨hnode.step hnext, hwalletStep.durable hB hwallet⟩
  exact (run_invariant hstep ⟨Consistent.start_up batch_size RocksDBState.HoldsLog.empty,
    Wallet.Durable.recover_from_db batch_size RocksDBState.empty⟩ hrun).2

/-- Only transfers and batches move money. In every state that any interleaving
reaches, a command of another kind keeps the total of every account and leaves
the accounts it does not name as they are, and so does a flush with the
accounts it does not remove. -/
theorem Node.only_transfers_and_batches_move_money (B : BigDecimal) (value : B.Decimal → ℚ)
    (hB : B.Exact value) (config : Option EventLogGCConfig) (batch_size : Nat)
    (actions : List Action) (last : Node)
    (hrun : run (Node.step B config) (Node.start_up batch_size RocksDBState.empty) actions =
      some last) :
    (∀ log_index offset command next,
      last.wallet.handle_command B log_index offset command = some next →
      command.payload.kind ≠ .transfer → command.payload.kind ≠ .batch_balance_operation →
      (∀ account_id, next.statemachine.accounts.total B value account_id =
        last.wallet.statemachine.accounts.total B value account_id) ∧
      ∀ account_id, account_id ∉ command.payload.account_ids →
        next.statemachine.accounts.get account_id =
          last.wallet.statemachine.accounts.get account_id) ∧
    ∀ next, last.wallet.flush = some next →
      (∀ account_id, next.statemachine.accounts.total B value account_id =
        last.wallet.statemachine.accounts.total B value account_id) ∧
      ∀ account_id, account_id ∉ last.wallet.context.to_be_deleted_account_ids →
        next.statemachine.accounts.get account_id =
          last.wallet.statemachine.accounts.get account_id := by
  have hdurable := durable_of_run hB hrun
  refine ⟨?_, ?_⟩
  · intro log_index offset command next hhandle htransfer hbatch
    obtain ⟨_, _, _, _, rfl⟩ | ⟨_, _, _, rfl⟩ | ⟨plan, _, hplan, rfl⟩ :=
      Wallet.handle_command_cases B hhandle
    · exact ⟨fun _ => rfl, fun _ _ => rfl⟩
    · exact ⟨fun _ => rfl, fun _ _ => rfl⟩
    · refine ⟨?_, ?_⟩
      · intro account_id
        rw [AccountMap.total_eq hB, AccountMap.total_eq hB]
        exact StateMachine.plan_total hB hplan htransfer hbatch account_id
      · intro account_id hnamed
        exact StateMachine.plan_get_of_not_named hplan hnamed
  · intro next hflush
    refine ⟨?_, ?_⟩
    · intro account_id
      rw [AccountMap.total_eq hB, AccountMap.total_eq hB]
      obtain heq | ⟨hnext, hprev⟩ := hdurable.flush_balance hB hflush account_id
      · rw [heq]
      · rw [hnext.total, hprev.total]
    · intro account_id hkept
      obtain ⟨_, rfl⟩ := Wallet.flush_eq_some_iff.mp hflush
      change AccountMap.get (List.foldl _ _ _) account_id = _
      rw [AccountMap.get_foldl_remove, if_neg hkept]

/-- An account with something on it, and another one that is deleted. -/
def deletedTrace : List Action :=
  [.receive (6, [creditAccount "1" "a" "5", createAccount "2" "b", deleteAccount "3" "b"]),
    .apply_step, .apply_step, .apply_step, .apply_step, .apply_step, .apply_step, .apply_step]

theorem Node.only_transfers_and_batches_move_money_reserve :
    ∃ last reserved flushed, run (Node.step plainDecimal none)
        (Node.start_up 100 RocksDBState.empty) deletedTrace = some last ∧
      last.wallet.handle_command plainDecimal 7 0 (reserveAmount "4" "a" "r" "2.50") =
        some reserved ∧
      last.wallet.flush = some flushed ∧
      reserved.statemachine.accounts.total plainDecimal plainValue "a" =
        last.wallet.statemachine.accounts.total plainDecimal plainValue "a" ∧
      flushed.statemachine.accounts.total plainDecimal plainValue "b" =
        last.wallet.statemachine.accounts.total plainDecimal plainValue "b" := by
  have hlast : ((run (Node.step plainDecimal none) (Node.start_up 100 RocksDBState.empty)
      deletedTrace).all fun last =>
        (last.wallet.handle_command plainDecimal 7 0 (reserveAmount "4" "a" "r" "2.50")).isSome &&
          last.wallet.flush.isSome) = true := by
    decide +kernel
  obtain ⟨last, hrun⟩ : ∃ last, run (Node.step plainDecimal none)
      (Node.start_up 100 RocksDBState.empty) deletedTrace = some last :=
    Option.isSome_iff_exists.mp (by decide +kernel)
  rw [hrun, Option.all_some, Bool.and_eq_true] at hlast
  obtain ⟨reserved, hreserved⟩ := Option.isSome_iff_exists.mp hlast.1
  obtain ⟨flushed, hflushed⟩ := Option.isSome_iff_exists.mp hlast.2
  obtain ⟨hcommand, hflush⟩ := only_transfers_and_batches_move_money plainDecimal plainValue
    plainDecimal_exact none 100 deletedTrace last hrun
  exact ⟨last, reserved, flushed, hrun, hreserved, hflushed,
    (hcommand 7 0 _ reserved hreserved (by decide) (by decide)).1 "a",
    (hflush flushed hflushed).1 "b"⟩

end node

end firm_wallet
