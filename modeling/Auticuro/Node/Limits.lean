import Auticuro.Account.Limits
import Auticuro.Node.Accounts

open Exec Run

namespace firm_wallet

open accountpb balance_calculator internal_servicepb account_management_servicepb rocksdb_state
open state_machine gc

namespace state_machine

/-- The documented check before an UpdateAccountConfig, which the handler does
not make: the available balance of the account lies within the limit that the
request asks for. -/
def Wallet.config_pre_check (B : BigDecimal) (self : Wallet) (command : Command) : Bool :=
  match command.payload with
  | .update_account_config_request request =>
    (self.statemachine.accounts.get request.get_header.account_id).all fun account =>
      ((account.set_balance_limit request.get_balance_limit).validate_balance_limitation B
        account.balance.available).isOk
  | _ => true

variable {B : BigDecimal} {value : B.Decimal → ℚ} {wallet : Wallet} {command : Command}
variable {request : UpdateAccountConfigRequest} {account : Account}

/-- With the check the account is within its new limit, without it it is not. -/
theorem Wallet.config_pre_check_iff (hB : B.Exact value)
    (hpayload : command.payload = .update_account_config_request request)
    (hget : wallet.statemachine.accounts.get request.get_header.account_id = some account) :
    wallet.config_pre_check B command = true ↔
      (account.set_balance_limit request.get_balance_limit).WithinLimit B value := by
  have hvalid : (account.set_balance_limit request.get_balance_limit).validate_balance_limitation B
        account.balance.available = .ok () ↔
      (account.set_balance_limit request.get_balance_limit).WithinLimit B value :=
    Account.validate_balance_limitation_ok_iff hB
  unfold config_pre_check
  rw [hpayload]
  simp only [hget, Option.all_some, isOk_iff]
  constructor
  · rintro ⟨⟨⟩, hchecked⟩
    exact hvalid.mp hchecked
  · intro hwithin
    exact ⟨(), hvalid.mpr hwithin⟩

theorem Wallet.config_pre_check_keeps (hB : B.Exact value) {written : Account}
    (hwallet : wallet.EveryAccount (Account.WithinLimit B value))
    (hcheck : wallet.config_pre_check B command = true)
    (hwritten : Account.Written B command.payload
      (wallet.statemachine.accounts.get written.account_id) written) :
    written.WithinLimit B value := by
  refine hwritten.within hB (fun account hget => hwallet.memory _ account hget) ?_
  intro account request hget hpayload hnamed
  have hid := AccountMap.account_id_of_get hget
  rw [← hid, hnamed] at hget
  exact (config_pre_check_iff hB hpayload hget).mp hcheck

theorem Wallet.config_pre_check_needed (hB : B.Exact value) {plan : Plan}
    (hplan : wallet.statemachine.plan B command.payload = .ok plan)
    (hafter : (AccountMap.write wallet.statemachine.accounts plan.writes).Every
      (Account.WithinLimit B value)) : wallet.config_pre_check B command = true := by
  cases hpayload : command.payload with
  | update_account_config_request request =>
    rw [hpayload] at hplan
    obtain ⟨account, hget, hwithin⟩ := AccountMap.Every.configured hplan hafter
    exact (config_pre_check_iff hB hpayload hget).mpr hwithin
  | _ => simp [config_pre_check, hpayload]

end state_machine

namespace node

/-- Balance limits hold in every state of a run exactly when every
UpdateAccountConfig that is accepted in it passes the documented check: every
account with a limit has its available balance within it, by value. -/
theorem Node.balance_limits_hold (B : BigDecimal) (value : B.Decimal → ℚ) (hB : B.Exact value)
    (config : Option EventLogGCConfig) (batch_size : Nat) (actions : List Action) (last : Node)
    (hrun : run (Node.step B config) (Node.start_up batch_size RocksDBState.empty) actions =
      some last) :
    Throughout (Node.step B config)
        (fun node => ∀ account_id account limit,
          node.wallet.statemachine.accounts.get account_id = some account →
          account.config.balance_limit = some limit →
          limit.Admits B value account.balance.available)
        (Node.start_up batch_size RocksDBState.empty) actions ↔
      Along (Node.step B config)
        (Node.AcceptsOnly B fun wallet command => wallet.config_pre_check B command)
        (Node.start_up batch_size RocksDBState.empty) actions := by
  rw [← every_account_iff_accepts (P := Account.WithinLimit B value)
    (fun _ _ _ hwallet hcheck hwritten =>
      Wallet.config_pre_check_keeps hB hwallet hcheck hwritten)
    (fun _ _ _ hplan hafter => Wallet.config_pre_check_needed hB hplan hafter) hrun]
  constructor
  · intro hlimits first reached hprefix hreached account_id account hget limit hlimit
    exact hlimits first reached hprefix hreached account_id account limit hget hlimit
  · intro hlimits first reached hprefix hreached account_id account limit hget hlimit
    exact hlimits first reached hprefix hreached account_id account hget limit hlimit

/-- A credit up to the limit and one beyond it, which is refused. -/
def limitedTrace : List Action :=
  [.receive (6, [creditAccount "1" "a" "5", limitBalance "2" "a" "0" "10.0",
      creditAccount "3" "a" "5.0", creditAccount "4" "a" "4.5"]),
    .apply_step, .apply_step, .apply_step, .apply_step, .apply_step, .apply_step, .apply_step,
    .apply_step, .apply_step]

theorem Node.balance_limits_hold_limited :
    ∃ last, run (Node.step plainDecimal none) (Node.start_up 100 RocksDBState.empty) limitedTrace =
        some last ∧
      Throughout (Node.step plainDecimal none)
        (fun node => ∀ account_id account limit,
          node.wallet.statemachine.accounts.get account_id = some account →
          account.config.balance_limit = some limit →
          limit.Admits plainDecimal plainValue account.balance.available)
        (Node.start_up 100 RocksDBState.empty) limitedTrace := by
  obtain ⟨last, hrun⟩ : ∃ last, run (Node.step plainDecimal none)
      (Node.start_up 100 RocksDBState.empty) limitedTrace = some last :=
    Option.isSome_iff_exists.mp (by decide +kernel)
  refine ⟨last, hrun, ?_⟩
  exact (balance_limits_hold plainDecimal plainValue plainDecimal_exact none 100 limitedTrace last
    hrun).mpr (by decide +kernel)

/-- A limit of 10 for an account that holds 100. -/
def lateLimitTrace : List Action :=
  [.receive (6, [creditAccount "1" "a" "100", limitBalance "2" "a" "0" "10"]),
    .apply_step, .apply_step, .apply_step, .apply_step]

theorem Node.late_limit_not_held :
    ∃ last account,
      run (Node.step plainDecimal none) (Node.start_up 100 RocksDBState.empty) lateLimitTrace =
        some last ∧
      last.wallet.statemachine.accounts.get "a" = some account ∧
      account.balance.available = "100" ∧
      account.config.balance_limit = some { lower := "0", upper := "10" } ∧
      ¬ BalanceLimit.Admits plainDecimal plainValue { lower := "0", upper := "10" } "100" := by
  obtain ⟨last, hrun, account, hget, havailable, hlimit, hrefused⟩ :
      ∃ last ∈ run (Node.step plainDecimal none) (Node.start_up 100 RocksDBState.empty)
        lateLimitTrace, ∃ account ∈ last.wallet.statemachine.accounts.get "a",
        account.balance.available = "100" ∧
        account.config.balance_limit = some { lower := "0", upper := "10" } ∧
        account.validate_balance_limitation plainDecimal "100" ≠ .ok () := by
    decide +kernel
  refine ⟨last, account, hrun, hget, havailable, hlimit, ?_⟩
  intro hadmits
  refine hrefused ((Account.validate_balance_limitation_ok_iff plainDecimal_exact).mpr ?_)
  intro limit hconfig
  cases hlimit.symm.trans hconfig
  exact hadmits

end node

end firm_wallet
