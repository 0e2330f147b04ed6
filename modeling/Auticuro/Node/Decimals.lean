import Auticuro.Account.Parses
import Auticuro.Node.Accounts

open Exec Run

namespace firm_wallet

open accountpb balance_calculator internal_servicepb balance_operation_servicepb
open account_management_servicepb errors rocksdb_state state_machine gc

namespace internal_servicepb

/-- The amounts that a command itself gives. A release without an amount
releases what is reserved. -/
def CommandPayload.amounts : CommandPayload → List String
  | .transfer_request request => [request.get_transfer_spec.amount]
  | .batch_balance_operation_request request =>
    request.balance_operation_spec.map BalanceOperationSpec.amount
  | .reserve_request request => [request.amount]
  | .release_request request => if request.amount = "" then [] else [request.amount]
  | _ => []

/-- The bounds of the limit that a command stores, if it stores one. -/
def CommandPayload.limit_bounds : CommandPayload → List String
  | .update_account_config_request request =>
    [request.get_balance_limit.lower, request.get_balance_limit.upper]
  | _ => []

end internal_servicepb

namespace state_machine

variable {B : BigDecimal} {value : B.Decimal → ℚ} {self : StateMachine} {payload : CommandPayload}

theorem StateMachine.assert_account_exists_avoids (self : StateMachine) (account_id : String) :
    Avoids GeneralError.IsParseError (self.assert_account_exists account_id) := by
  unfold assert_account_exists
  split
  · exact .ok _
  · exact .error not_false

section Avoids

variable (hB : B.Exact value) (haccounts : self.accounts.Every (Account.Parses B))
include hB haccounts

theorem StateMachine.get_or_create_account_parses (account_id : String) :
    (self.get_or_create_account account_id).Parses B := by
  unfold get_or_create_account
  cases hget : self.accounts.get account_id with
  | none => exact .new hB account_id
  | some account => exact haccounts account_id account hget

/-- While every stored decimal parses, a command fails to parse only an amount
of its own. -/
theorem StateMachine.plan_avoids (hamounts : ∀ amount ∈ payload.amounts, B.parses amount = true) :
    Avoids GeneralError.IsParseError (self.plan B payload) := by
  have hexists : ∀ {account_id : String} {account : Account},
      self.assert_account_exists account_id = .ok account → account.Parses B :=
    fun hfound => haccounts _ _ (assert_account_exists_ok_iff.mp hfound)
  have hcreated := fun account_id => self.get_or_create_account_parses hB haccounts account_id
  cases payload with
  | transfer_request request =>
    have hamount := hamounts _ List.mem_cons_self
    refine Avoids.bind ?_ fun _ _ => ?_
    · unfold Account.validate_asset_class_compatibility
      simp only
      split
      · exact .error not_false
      · exact .ok ()
    refine ((hcreated _).increase_balance_by hB hamount).bind fun _ _ => ?_
    refine (BalanceCalculator.neg_avoids hamount).bind fun neg_amount hneg => ?_
    refine ((hcreated _).increase_balance_by hB (hB.parses_neg hneg)).bind fun _ _ => ?_
    exact .ok _
  | batch_balance_operation_request request =>
    refine Avoids.bind (Avoids.mapM fun spec hspec => ?_) fun _ _ => .ok _
    exact (hcreated _).increase_balance_by hB (hamounts _ (List.mem_map_of_mem hspec))
  | reserve_request request =>
    have hamount := hamounts _ List.mem_cons_self
    refine (self.assert_account_exists_avoids _).bind fun account hfound => ?_
    exact ((hexists hfound).reserve hB hamount).bind fun _ _ => .ok _
  | release_request request =>
    refine (self.assert_account_exists_avoids _).bind fun account hfound => ?_
    simp only [CommandPayload.amounts] at hamounts
    simp only
    split
    · exact ((hexists hfound).release_all hB _).bind fun _ _ => .ok _
    · rename_i hamount
      rw [if_neg hamount] at hamounts
      have hparses := hamounts _ List.mem_cons_self
      exact ((hexists hfound).partial_release hB hparses).bind fun _ _ => .ok _
  | create_account_request request =>
    simp only [StateMachine.plan]
    split
    · exact .error not_false
    · exact .ok _
  | delete_account_request request =>
    refine (self.assert_account_exists_avoids _).bind fun account hfound => ?_
    exact ((hexists hfound).delete hB).bind fun _ _ => .ok _
  | lock_account_request request =>
    refine (self.assert_account_exists_avoids _).bind fun account _ => ?_
    refine Avoids.bind ?_ fun _ _ => .ok _
    exact (account.validate_state_transition_avoids .Locked).bind fun _ _ => .ok _
  | unlock_account_request request =>
    refine (self.assert_account_exists_avoids _).bind fun account _ => ?_
    refine Avoids.bind ?_ fun _ _ => .ok _
    exact (account.validate_state_transition_avoids .Normal).bind fun _ _ => .ok _
  | update_account_config_request request =>
    exact (self.assert_account_exists_avoids _).bind fun _ _ => .ok _

end Avoids

theorem StateMachine.limit_bounds_parse {plan : Plan}
    (hplan : self.plan B payload = .ok plan)
    (hafter : (AccountMap.write self.accounts plan.writes).Every (Account.Parses B)) :
    ∀ bound ∈ payload.limit_bounds, B.parses bound = true := by
  cases payload with
  | update_account_config_request request =>
    obtain ⟨account, _, hparses⟩ := AccountMap.Every.configured hplan hafter
    obtain ⟨hlower, hupper⟩ := hparses.limit request.get_balance_limit rfl
    intro bound hbound
    simp only [CommandPayload.limit_bounds, List.mem_cons, List.not_mem_nil, or_false] at hbound
    rcases hbound with rfl | rfl
    · exact hlower
    · exact hupper
  | _ =>
    intro bound hbound
    cases hbound

/-- While every stored decimal parses, no handler reports a parse error for a
command whose own amounts parse. -/
theorem Wallet.handle_payload_ne_parse_error {wallet : Wallet} (hB : B.Exact value)
    (haccounts : wallet.statemachine.accounts.Every (Account.Parses B))
    (hamounts : ∀ amount ∈ payload.amounts, B.parses amount = true) (log_index offset : Nat)
    (number : String) (details : ParseBigDecimalError) :
    (exec (handle_payload B payload log_index offset) wallet).1 ≠
      .error (.BalanceOperationError (.ParseError number details)) := by
  have havoids := StateMachine.plan_avoids hB haccounts hamounts
  rw [handle_payload_eq_perform]
  cases hplan : wallet.statemachine.plan B payload with
  | ok plan => simp [Wallet.perform]
  | error refusal =>
    intro hrefusal
    cases hrefusal
    exact havoids _ hplan trivial

end state_machine

namespace node

/-- In a run in which both bounds of every limit that an accepted
UpdateAccountConfig stores parse, and in no other run, the following holds in
every state: every decimal of every account parses, and no command whose own
amounts parse fails with a parse error. -/
theorem Node.stored_decimals_parse (B : BigDecimal) (value : B.Decimal → ℚ) (hB : B.Exact value)
    (config : Option EventLogGCConfig) (batch_size : Nat) (actions : List Action) (last : Node)
    (hrun : run (Node.step B config) (Node.start_up batch_size RocksDBState.empty) actions =
      some last) :
    Throughout (Node.step B config)
        (fun node =>
          (∀ account_id account, node.wallet.statemachine.accounts.get account_id = some account →
            account.Parses B) ∧
          ∀ payload, (∀ amount ∈ payload.amounts, B.parses amount = true) →
            ∀ log_index offset number details,
              (exec (handle_payload B payload log_index offset) node.wallet).1 ≠
                .error (.BalanceOperationError (.ParseError number details)))
        (Node.start_up batch_size RocksDBState.empty) actions ↔
      Along (Node.step B config)
        (Node.AcceptsOnly B fun _ command =>
          ∀ bound ∈ command.payload.limit_bounds, B.parses bound = true)
        (Node.start_up batch_size RocksDBState.empty) actions := by
  rw [← every_account_iff_accepts (P := Account.Parses B) ?_ ?_ hrun]
  · constructor
    · intro hthroughout first reached hprefix hreached
      exact (hthroughout first reached hprefix hreached).1
    · intro hevery first reached hprefix hreached
      have haccounts := hevery first reached hprefix hreached
      refine ⟨haccounts, ?_⟩
      intro payload hamounts log_index offset number details
      exact Wallet.handle_payload_ne_parse_error hB haccounts hamounts log_index offset number
        details
  · intro wallet command written hwallet hbounds hwritten
    refine hwritten.parses hB (fun account hget => hwallet.memory _ account hget) ?_
    intro request hpayload
    rw [hpayload] at hbounds
    exact ⟨hbounds _ List.mem_cons_self, hbounds _ (List.mem_cons_of_mem _ List.mem_cons_self)⟩
  · intro wallet command plan hplan hafter
    exact StateMachine.limit_bounds_parse hplan hafter

/-- A limit with two bounds, and a release that compares with it. -/
def boundedTrace : List Action :=
  [.receive (6, [creditAccount "1" "a" "5", limitBalance "2" "a" "-1" "10.0",
      reserveAmount "3" "a" "r" "2.5"]),
    .apply_step, .apply_step, .apply_step, .apply_step, .apply_step, .apply_step, .apply_step]

theorem Node.stored_decimals_parse_bounded :
    ∃ last, run (Node.step plainDecimal none) (Node.start_up 100 RocksDBState.empty) boundedTrace =
        some last ∧
      ∀ number details,
        (exec (handle_payload plainDecimal (releaseAmount "4" "a" "r" "0.50").payload 7 0)
          last.wallet).1 ≠ .error (.BalanceOperationError (.ParseError number details)) := by
  obtain ⟨last, hrun⟩ : ∃ last, run (Node.step plainDecimal none)
      (Node.start_up 100 RocksDBState.empty) boundedTrace = some last :=
    Option.isSome_iff_exists.mp (by decide +kernel)
  have hparse := (stored_decimals_parse plainDecimal plainValue plainDecimal_exact none 100
    boundedTrace last hrun).mpr (by decide +kernel)
  exact ⟨last, hrun, (hparse boundedTrace last (List.prefix_refl _) hrun).2 _ (by decide) 7 0⟩

/-- A limit with only a lower bound, as a client may send it. -/
def lowerBoundTrace : List Action :=
  [.receive (6, [createAccount "1" "a", limitBalance "2" "a" "10" ""]),
    .apply_step, .apply_step, .apply_step, .apply_step, .apply_step]

theorem Node.lower_bound_only_blocks_credit :
    ∃ last account,
      run (Node.step plainDecimal none) (Node.start_up 100 RocksDBState.empty) lowerBoundTrace =
        some last ∧
      last.wallet.statemachine.accounts.get "a" = some account ∧
      account.config.balance_limit = some { lower := "10", upper := "" } ∧
      plainDecimal.parses "" = false ∧ plainDecimal.parses "100" = true ∧
      (exec (handle_payload plainDecimal (creditAccount "3" "a" "100").payload 7 0)
        last.wallet).1 =
          .error (.BalanceOperationError (.ParseError "" ⟨"Failed to parse empty string"⟩)) := by
  obtain ⟨last, hrun, account, hget, hlimit, hcredit⟩ :
      ∃ last ∈ run (Node.step plainDecimal none) (Node.start_up 100 RocksDBState.empty)
        lowerBoundTrace, ∃ account ∈ last.wallet.statemachine.accounts.get "a",
        account.config.balance_limit = some { lower := "10", upper := "" } ∧
        (exec (handle_payload plainDecimal (creditAccount "3" "a" "100").payload 7 0)
          last.wallet).1 =
            .error (.BalanceOperationError (.ParseError "" ⟨"Failed to parse empty string"⟩)) := by
    decide +kernel
  exact ⟨last, account, hrun, hget, hlimit, by decide, by decide, hcredit⟩

end node

end firm_wallet
