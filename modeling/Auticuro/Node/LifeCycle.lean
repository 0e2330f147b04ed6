import Auticuro.Node.Accounts
import Auticuro.Node.Totals

open Run

namespace firm_wallet

open accountpb balance_calculator internal_servicepb rocksdb_state state_machine gc

namespace accountpb

variable {B : BigDecimal} {value : B.Decimal → ℚ}

/-- What a command writes as Deleted holds nothing. -/
theorem Account.Written.zero_of_deleted (hB : B.Exact value) {payload : CommandPayload}
    {prev : Option Account} {written : Account} (hwritten : Account.Written B payload prev written)
    (hprev : ∀ account, prev = some account → account.state = .Deleted →
      account.balance.IsZero B value)
    (hdeleted : written.state = .Deleted) : written.balance.IsZero B value := by
  cases hwritten with
  | operate _ hoperated => cases hoperated.step.curr_normal.symm.trans hdeleted
  | @delete account _ hdelete =>
    have hzero : account.balance.IsZero B value := Account.delete_isZero hB hdelete
    exact hzero
  | @configure account _ _ _ hfound => exact hprev account hfound hdeleted
  | _ => cases hdeleted

end accountpb

namespace node

def Node.account (self : Node) (account_id : String) : Option Account :=
  self.wallet.statemachine.accounts.get account_id

/-- The action accepts a command of which the account is a party. -/
def Node.AcceptsFor (B : BigDecimal) (node : Node) (action : Action) (account_id : String)
    (P : CommandPayload → Prop) : Prop :=
  ∃ command ∈ node.accepts B action, account_id ∈ command.payload.account_ids ∧ P command.payload

/-- What may happen to the account under an id in one step without a crash. -/
structure LifeCycleStep (B : BigDecimal) (node : Node) (action : Action) (next : Node)
    (account_id : String) : Prop where
  changed : ∀ account changed, node.account account_id = some account →
    next.account account_id = some changed → changed.balance ≠ account.balance →
      account.state = .Normal ∧ node.AcceptsFor B action account_id fun _ => True
  created : ∀ created, node.account account_id = none → next.account account_id = some created →
    node.AcceptsFor B action account_id fun _ => True
  removed : ∀ account, node.account account_id = some account → next.account account_id = none →
    account.state = .Deleted ∧ action = .flush
  locked : ∀ account, node.account account_id = some account → account.state = .Locked →
    ∃ changed, next.account account_id = some changed ∧ (changed.state = .Locked ∨
      (changed.state = .Normal ∧
        node.AcceptsFor B action account_id fun payload => payload.kind = .unlock_account))
  deleted : ∀ account, node.account account_id = some account → account.state = .Deleted →
    (∃ changed, next.account account_id = some changed ∧ changed.state = .Deleted) ∨
      (next.account account_id = none ∧ action = .flush)

variable {B : BigDecimal} {value : B.Decimal → ℚ} {config : Option EventLogGCConfig}
variable {node next : Node} {action : Action} {account_id : String}

theorem LifeCycleStep.same (hsame : next.account account_id = node.account account_id) :
    LifeCycleStep B node action next account_id where
  changed := by
    intro account changed hget hnext hbalance
    rw [hsame, hget] at hnext
    cases hnext
    exact absurd rfl hbalance
  created := by
    intro created hnone hsome
    rw [hsame, hnone] at hsome
    cases hsome
  removed := by
    intro account hget hnone
    rw [hsame, hget] at hnone
    cases hnone
  locked := fun account hget hlocked => ⟨account, hsame.trans hget, .inl hlocked⟩
  deleted := fun account hget hdeleted => .inl ⟨account, hsame.trans hget, hdeleted⟩

theorem LifeCycleStep.written {command : Command} {written : Account}
    (haccepts : command ∈ node.accepts B action)
    (hnamed : account_id ∈ command.payload.account_ids)
    (hnext : next.account account_id = some written)
    (hwritten : Account.Written B command.payload (node.account account_id) written) :
    LifeCycleStep B node action next account_id where
  changed := by
    intro account changed hget hchanged hbalance
    cases hnext.symm.trans hchanged
    rw [hget] at hwritten
    obtain hnormal | ⟨hsame, _⟩ := hwritten.transition
    · exact ⟨hnormal, command, haccepts, hnamed, trivial⟩
    · exact absurd hsame hbalance
  created := fun _ _ _ => ⟨command, haccepts, hnamed, trivial⟩
  removed := by
    intro account _ hnone
    cases hnone.symm.trans hnext
  locked := by
    intro account hget hlocked
    rw [hget] at hwritten
    refine ⟨written, hnext, ?_⟩
    obtain hnormal | ⟨_, hstate | ⟨hkind, _, hunlocked⟩⟩ := hwritten.transition
    · cases hnormal.symm.trans hlocked
    · exact .inl (hstate.trans hlocked)
    · exact .inr ⟨hunlocked, command, haccepts, hnamed, hkind⟩
  deleted := by
    intro account hget hdeleted
    rw [hget] at hwritten
    refine .inl ⟨written, hnext, ?_⟩
    obtain hnormal | ⟨_, hstate | ⟨_, hlocked, _⟩⟩ := hwritten.transition
    · cases hnormal.symm.trans hdeleted
    · exact hstate.trans hdeleted
    · cases hlocked.symm.trans hdeleted

theorem LifeCycleStep.removal {account : Account} (hget : node.account account_id = some account)
    (hdeleted : account.state = .Deleted) (hnone : next.account account_id = none) :
    LifeCycleStep B node .flush next account_id where
  changed := by
    intro _ changed _ hchanged
    cases hnone.symm.trans hchanged
  created := by
    intro created _ hcreated
    cases hnone.symm.trans hcreated
  removed := by
    intro other hother _
    cases hget.symm.trans hother
    exact ⟨hdeleted, rfl⟩
  locked := by
    intro other hother hlocked
    cases hget.symm.trans hother
    cases hdeleted.symm.trans hlocked
  deleted := fun _ _ _ => .inr ⟨hnone, rfl⟩

/-- Every step but a crash respects the life cycle of every account. -/
theorem Node.life_cycle_step (hdurable : node.wallet.Durable B value)
    (hstep : node.step B config action = some next) (hcrash : action ≠ .crash)
    (account_id : String) :
    LifeCycleStep B node action next account_id := by
  cases Node.step_spec hstep with
  | @fresh log_index offset command pending phase hthread hcheck =>
    cases hplan : node.wallet.statemachine.plan B command.payload with
    | error e =>
      apply LifeCycleStep.same
      change (node.wallet.handle_new_command B log_index offset
        command).statemachine.accounts.get account_id = _
      rw [Wallet.handle_new_command_eq, hplan]
      rfl
    | ok plan =>
      have haccepts : command ∈ node.accepts B .apply_step := by
        rw [Node.accepts_of_fresh hthread hcheck, hplan]
        rfl
      have hget : Node.account
          { node with
            wallet := node.wallet.handle_new_command B log_index offset command,
            apply_thread := .applying log_index pending .start } account_id =
          (AccountWrite.last account_id plan.writes).or (node.account account_id) := by
        change (node.wallet.handle_new_command B log_index offset
          command).statemachine.accounts.get account_id = _
        rw [Wallet.handle_new_command_eq, hplan]
        exact AccountMap.get_write _ _ _
      cases hlast : AccountWrite.last account_id plan.writes with
      | none =>
        rw [hlast, Option.none_or] at hget
        exact .same hget
      | some written =>
        obtain ⟨hnamed, hwritten⟩ := StateMachine.plan_last_written hplan hlast
        rw [hlast, Option.some_or] at hget
        exact .written haccepts hnamed hget hwritten
  | flush hidle hflush =>
    obtain ⟨_, rfl⟩ := Wallet.flush_eq_some_iff.mp hflush
    by_cases htombstone : account_id ∈ node.wallet.context.to_be_deleted_account_ids
    · obtain ⟨account, hget, hdeleted, _⟩ := hdurable.tombstones account_id htombstone
      refine .removal hget hdeleted ?_
      exact (AccountMap.get_foldl_remove _ _ _).trans (if_pos htombstone)
    · apply LifeCycleStep.same
      exact (AccountMap.get_foldl_remove _ _ _).trans (if_neg htombstone)
  | crash => exact absurd rfl hcrash
  | _ => exact .same rfl

/-- A Deleted account stays Deleted until a flush removes it. -/
theorem Node.run_deleted (hB : B.Exact value) (hdurable : node.wallet.Durable B value)
    (hnode : node.Consistent) {actions : List Action} {last : Node}
    (hrun : run (Node.step B config) node actions = some last) (hcrash : .crash ∉ actions)
    {account : Account} (hget : node.account account_id = some account)
    (hdeleted : account.state = .Deleted) :
    (∃ changed, last.account account_id = some changed ∧ changed.state = .Deleted) ∨
      ∃ first second reached, actions = first ++ .flush :: second ∧
        run (Node.step B config) node (first ++ [.flush]) = some reached ∧
        reached.account account_id = none := by
  induction actions generalizing node account with
  | nil =>
    cases hrun
    exact .inl ⟨account, hget, hdeleted⟩
  | cons action actions ih =>
    obtain ⟨next, hnext, hrest⟩ := run_cons_eq_some_iff.mp hrun
    rw [List.mem_cons, not_or] at hcrash
    have hstep := life_cycle_step hdurable hnext (Ne.symm hcrash.1) account_id
    obtain ⟨changed, hchanged, hstill⟩ | ⟨hnone, rfl⟩ := hstep.deleted account hget hdeleted
    · have hwallet : WalletStep B (fun _ => True) node.wallet next.wallet :=
        hnode.wallet_step (fun _ _ => trivial) hnext
      obtain hlast | ⟨first, second, reached, rfl, hreached, habsent⟩ :=
        ih (hwallet.durable hB hdurable) (hnode.step hnext) hrest hcrash.2 hchanged hstill
      · exact .inl hlast
      · refine .inr ⟨action :: first, second, reached, rfl, ?_, habsent⟩
        rw [List.cons_append, run_cons, hnext]
        exact hreached
    · refine .inr ⟨[], actions, next, rfl, ?_, hnone⟩
      rw [List.nil_append, run_cons, hnext]
      rfl

/-- The life cycle of an account, from every state that any interleaving of
commands, flushes, collections and restarts reaches: what is available or
reserved changes only by a command that is accepted while the account is
Normal or missing, only an UnlockAccount changes the state of a Locked account,
a Deleted account stays Deleted until a flush removes it, and it holds nothing. -/
theorem Node.account_life_cycle (B : BigDecimal) (value : B.Decimal → ℚ) (hB : B.Exact value)
    (config : Option EventLogGCConfig) (batch_size : Nat) (actions : List Action) (node : Node)
    (hrun : run (Node.step B config) (Node.start_up batch_size RocksDBState.empty) actions =
      some node) (account_id : String) :
    (∀ action next, node.step B config action = some next → action ≠ .crash →
      LifeCycleStep B node action next account_id) ∧
    (∀ account, node.account account_id = some account → account.state = .Deleted →
      account.balance.IsZero B value) ∧
    ∀ account more last, node.account account_id = some account → account.state = .Deleted →
      run (Node.step B config) node more = some last → .crash ∉ more →
      (∃ changed, last.account account_id = some changed ∧ changed.state = .Deleted) ∨
        ∃ first second reached, more = first ++ .flush :: second ∧
          run (Node.step B config) node (first ++ [.flush]) = some reached ∧
          reached.account account_id = none := by
  have hdurable := durable_of_run hB hrun
  have hnode := Consistent.of_run hrun
  refine ⟨?_, ?_, ?_⟩
  · intro action next hstep hcrash
    exact life_cycle_step hdurable hstep hcrash account_id
  · have hevery : node.wallet.EveryAccount fun account =>
        account.state = .Deleted → account.balance.IsZero B value :=
      every_account_of_run (fun payload prev written hprev hwritten =>
        Account.Written.zero_of_deleted hB hwritten hprev) hrun
    exact fun account hget => hevery.memory account_id account hget
  · intro account more last hget hdeleted hmore hcrash
    exact run_deleted hB hdurable hnode hmore hcrash hget hdeleted

/-- An account that is locked, unlocked and deleted. -/
def lifeCycleTrace : List Action :=
  [.receive (6, [createAccount "1" "a", lockAccount "2" "a", unlockAccount "3" "a",
      deleteAccount "4" "a"]),
    .apply_step, .apply_step, .apply_step, .apply_step, .apply_step, .apply_step, .apply_step,
    .apply_step, .apply_step]

theorem Node.account_life_cycle_deleted :
    ∃ node account next, run (Node.step plainDecimal none) (Node.start_up 100 RocksDBState.empty)
        lifeCycleTrace = some node ∧ node.account "a" = some account ∧ account.state = .Deleted ∧
      node.step plainDecimal none .flush = some next ∧
      account.balance.IsZero plainDecimal plainValue ∧
      LifeCycleStep plainDecimal node .flush next "a" := by
  obtain ⟨node, hrun, account, hget, next, hnext, hdeleted⟩ :
      ∃ node ∈ run (Node.step plainDecimal none) (Node.start_up 100 RocksDBState.empty)
        lifeCycleTrace, ∃ account ∈ node.account "a",
        ∃ _ ∈ node.step plainDecimal none .flush, account.state = .Deleted := by
    decide +kernel
  obtain ⟨hstep, hzero, _⟩ := account_life_cycle plainDecimal plainValue plainDecimal_exact none 100
    lifeCycleTrace node hrun "a"
  exact ⟨node, account, next, hrun, hget, hdeleted, hnext, hzero account hget hdeleted,
    hstep .flush next hnext (by decide)⟩

end node

end firm_wallet
