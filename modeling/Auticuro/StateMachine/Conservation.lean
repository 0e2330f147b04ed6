import Auticuro.StateMachine.Atomicity
import Auticuro.StateMachine.Balances
import Mathlib.Tactic.Linarith

open Exec

namespace firm_wallet

open accountpb errors balance_calculator balance_operation_servicepb internal_servicepb
open rocksdb_state

namespace rocksdb_state

variable (B : BigDecimal) (value : B.Decimal → ℚ)

/-- What an account has available; a missing account has nothing. -/
def AccountMap.available (self : AccountMap) (account_id : String) : ℚ :=
  (self.get account_id).elim 0 fun account => B.amount value account.balance.available

/-- What all accounts together have available. -/
def AccountMap.total_available (self : AccountMap) : ℚ :=
  self.map.sumValues fun account => B.amount value account.balance.available

variable {B value}

theorem AccountMap.available_eq (hB : B.Exact value) (accounts : AccountMap)
    (account_id : String) :
    accounts.available B value account_id =
      B.amount value (accounts.balance account_id).available := by
  unfold available balance
  cases accounts.get account_id with
  | none => exact (BigDecimal.amount_of_number hB.number_zero).symm
  | some account => rfl

/-- Writing an account moves the total by what is replaced under its id. -/
theorem AccountMap.total_available_insert (accounts : AccountMap) (account : Account) :
    (accounts.insert account).total_available B value =
      accounts.total_available B value - accounts.available B value account.account_id +
        B.amount value account.balance.available :=
  Finmap.sumValues_insert _ _ _ _

theorem AccountMap.available_insert (accounts : AccountMap) (account : Account)
    (account_id : String) :
    (accounts.insert account).available B value account_id =
      if account_id = account.account_id then B.amount value account.balance.available
      else accounts.available B value account_id := by
  unfold available
  rw [get_insert]
  split
  · rfl
  · rfl

end rocksdb_state

namespace state_machine

variable {B : BigDecimal} {value : B.Decimal → ℚ}

/-- A handler that succeeds has written the accounts of its plan. -/
theorem handle_payload_ok (payload : CommandPayload) {log_index offset : Nat}
    {wallet next : Wallet} {event : Event}
    (hexec : exec (handle_payload B payload log_index offset) wallet = (.ok event, next)) :
    ∃ plan, wallet.statemachine.plan B payload = .ok plan ∧
      next.statemachine.accounts =
        AccountMap.write wallet.statemachine.accounts plan.writes := by
  rw [handle_payload_eq_perform] at hexec
  unfold Wallet.perform at hexec
  cases hplan : wallet.statemachine.plan B payload with
  | error e => simp [hplan] at hexec
  | ok plan =>
    simp only [hplan, Prod.mk.injEq] at hexec
    refine ⟨plan, rfl, ?_⟩
    rw [← hexec.2, Wallet.commit, foldl_write_account]

variable (B value) in
/-- A transfer moves its amount from one account to the other and nothing else. -/
structure TransferMoves (spec : TransferSpec) (prev next : AccountMap) : Prop where
  total : next.total_available B value = prev.total_available B value
  others : ∀ account_id, account_id ≠ spec.from_account_id → account_id ≠ spec.to_account_id →
    next.get account_id = prev.get account_id
  moved : spec.from_account_id ≠ spec.to_account_id →
    next.available B value spec.from_account_id =
      prev.available B value spec.from_account_id - B.amount value spec.amount ∧
    next.available B value spec.to_account_id =
      prev.available B value spec.to_account_id + B.amount value spec.amount

/-- The two accounts that a transfer writes, the credited one first. Both start
from what was there before the transfer. -/
structure TransferWrites (B : BigDecimal) (value : B.Decimal → ℚ) (spec : TransferSpec)
    (prev : AccountMap) (updated_to updated_from : Account) : Prop where
  to_id : updated_to.account_id = spec.to_account_id
  from_id : updated_from.account_id = spec.from_account_id
  credited : B.amount value updated_to.balance.available =
    prev.available B value spec.to_account_id + B.amount value spec.amount
  debited : B.amount value updated_from.balance.available =
    prev.available B value spec.from_account_id - B.amount value spec.amount

theorem handle_transfer_writes (hB : B.Exact value) {request : TransferRequest}
    {log_index offset : Nat} {wallet next : Wallet} {event : Event}
    (hexec : exec (handle_transfer B request log_index offset) wallet = (.ok event, next)) :
    ∃ updated_to updated_from,
      TransferWrites B value request.get_transfer_spec wallet.statemachine.accounts
        updated_to updated_from ∧
      next.statemachine.accounts =
        (wallet.statemachine.accounts.insert updated_to).insert updated_from := by
  obtain ⟨plan, hplan, haccounts⟩ := handle_payload_ok (.transfer_request request) hexec
  obtain ⟨neg_amount, updated_from, from_change, updated_to, to_change, hto, hneg, hfrom, rfl⟩ :=
    StateMachine.plan_transfer_ok hplan
  refine ⟨updated_to, updated_from, ?_, haccounts⟩
  obtain ⟨htoId, x, hamount, hcredit, -⟩ := StateMachine.increase_balance_by_balance hB hto
  obtain ⟨hfromId, y, hminus, hdebit, -⟩ := StateMachine.increase_balance_by_balance hB hfrom
  obtain ⟨z, hz, hnegated⟩ := hB.neg_ok hneg
  cases hz.symm.trans hamount
  cases hminus.symm.trans hnegated
  obtain ⟨to_prev, hto_prev, hto_curr⟩ := hcredit.available
  obtain ⟨from_prev, hfrom_prev, hfrom_curr⟩ := hdebit.available
  refine ⟨htoId, hfromId, ?_, ?_⟩
  · rw [AccountMap.available_eq hB, BigDecimal.amount_of_number hto_prev,
      BigDecimal.amount_of_number hto_curr, BigDecimal.amount_of_number hamount]
  · rw [AccountMap.available_eq hB, BigDecimal.amount_of_number hfrom_prev,
      BigDecimal.amount_of_number hfrom_curr, BigDecimal.amount_of_number hamount, sub_eq_add_neg]

/-- With two accounts the amount leaves one and enters the other. With one
account the credit is overwritten by the debit. -/
theorem TransferWrites.moves_iff {spec : TransferSpec} {prev : AccountMap}
    {updated_to updated_from : Account}
    (hwrites : TransferWrites B value spec prev updated_to updated_from) :
    TransferMoves B value spec prev ((prev.insert updated_to).insert updated_from) ↔
      spec.from_account_id ≠ spec.to_account_id ∨ B.amount value spec.amount = 0 := by
  have htotal : ((prev.insert updated_to).insert updated_from).total_available B value =
      prev.total_available B value -
        if spec.from_account_id = spec.to_account_id then B.amount value spec.amount else 0 := by
    rw [AccountMap.total_available_insert, AccountMap.total_available_insert,
      AccountMap.available_insert, hwrites.to_id, hwrites.from_id, hwrites.credited,
      hwrites.debited]
    split
    · rename_i hsame
      rw [hsame]
      ring
    · ring
  have hothers : ∀ account_id, account_id ≠ spec.from_account_id →
      account_id ≠ spec.to_account_id →
      ((prev.insert updated_to).insert updated_from).get account_id = prev.get account_id := by
    intro account_id hfrom hto
    rw [AccountMap.get_insert, AccountMap.get_insert, hwrites.to_id, hwrites.from_id,
      if_neg hfrom, if_neg hto]
  constructor
  · intro hmoves
    by_contra hnot
    obtain ⟨hsame, hamount⟩ := not_or.mp hnot
    rw [hmoves.total, if_pos (not_not.mp hsame)] at htotal
    exact hamount (by linarith)
  · intro hcond
    refine ⟨?_, hothers, ?_⟩
    · rw [htotal]
      obtain hne | hzero := hcond
      · rw [if_neg hne, sub_zero]
      · rw [hzero, ite_self, sub_zero]
    · intro hne
      refine ⟨?_, ?_⟩
      · rw [AccountMap.available_insert, hwrites.from_id, if_pos rfl, hwrites.debited]
      · rw [AccountMap.available_insert, AccountMap.available_insert, hwrites.to_id,
          hwrites.from_id, if_neg (Ne.symm hne), if_pos rfl, hwrites.credited]

/-- A transfer that succeeds conserves the money if and only if it names two
accounts or moves nothing. -/
theorem handle_transfer_conserves_iff (B : BigDecimal) (value : B.Decimal → ℚ)
    (hB : B.Exact value) (request : TransferRequest) (log_index offset : Nat)
    (wallet next : Wallet) (event : Event)
    (hexec : exec (handle_transfer B request log_index offset) wallet = (.ok event, next)) :
    TransferMoves B value request.get_transfer_spec wallet.statemachine.accounts
        next.statemachine.accounts ↔
      request.get_transfer_spec.from_account_id ≠ request.get_transfer_spec.to_account_id ∨
        B.amount value request.get_transfer_spec.amount = 0 := by
  obtain ⟨updated_to, updated_from, hwrites, haccounts⟩ := handle_transfer_writes hB hexec
  rw [haccounts]
  exact hwrites.moves_iff

/-- A transfer between accounts that do not exist yet. -/
def transferRequest (from_account_id to_account_id amount : String) : TransferRequest :=
  { transfer_spec := some
      { amount := amount, from_account_id := from_account_id, to_account_id := to_account_id } }

theorem handle_transfer_conserves_two_accounts :
    ∃ event next, exec (handle_transfer plainDecimal (transferRequest "a" "b" "5") 6 0)
        (StateMachine.recover_from_db 100 RocksDBState.empty) = (.ok event, next) ∧
      TransferMoves plainDecimal plainValue (transferRequest "a" "b" "5").get_transfer_spec
        AccountMap.empty next.statemachine.accounts := by
  refine ⟨_, _, rfl, ?_⟩
  refine (handle_transfer_conserves_iff plainDecimal plainValue plainDecimal_exact
    (transferRequest "a" "b" "5") 6 0 (StateMachine.recover_from_db 100 RocksDBState.empty) _ _
    rfl).mpr ?_
  exact .inl (by decide)

/-- The account that a transfer to itself creates is short of the amount. -/
theorem handle_transfer_to_itself_loses_money :
    ∃ event next, exec (handle_transfer plainDecimal (transferRequest "a" "a" "5") 6 0)
        (StateMachine.recover_from_db 100 RocksDBState.empty) = (.ok event, next) ∧
      next.statemachine.accounts.total_available plainDecimal plainValue = -5 ∧
      AccountMap.empty.total_available plainDecimal plainValue = 0 := by
  refine ⟨_, _, rfl, ?_, ?_⟩
  · decide +kernel
  · decide +kernel

variable (B value) in
/-- The amounts of the specs that name an account, in order. -/
def spec_amounts (account_id : String) (specs : List BalanceOperationSpec) : List ℚ :=
  (specs.filter fun spec => spec.account_id = account_id).map fun spec =>
    B.amount value spec.amount

theorem spec_amounts_cons (account_id : String) (spec : BalanceOperationSpec)
    (specs : List BalanceOperationSpec) :
    spec_amounts B value account_id (spec :: specs) =
      if spec.account_id = account_id then
        B.amount value spec.amount :: spec_amounts B value account_id specs
      else spec_amounts B value account_id specs := by
  unfold spec_amounts
  by_cases hid : spec.account_id = account_id
  · simp [hid]
  · simp [hid]

variable (B value) in
/-- The specs are applied one after the other: every account has gone up by the
sum of its amounts, and nothing else about any account has changed. A missing
account counts as the one that would be created. -/
structure BatchApplies (specs : List BalanceOperationSpec) (prev next : StateMachine) : Prop where
  available : ∀ account_id, next.accounts.available B value account_id =
    prev.accounts.available B value account_id + (spec_amounts B value account_id specs).sum
  reservations : ∀ account_id, (next.get_or_create_account account_id).balance.reservations =
    (prev.get_or_create_account account_id).balance.reservations
  config : ∀ account_id, (next.get_or_create_account account_id).config =
    (prev.get_or_create_account account_id).config
  state : ∀ account_id, (next.get_or_create_account account_id).state =
    (prev.get_or_create_account account_id).state

variable (B value) in
/-- An account written by one spec of a batch: only its available balance has
changed, by the amount of that spec. -/
structure SpecApplied (prev : StateMachine) (account_id : String) (updated : Account)
    (amount : ℚ) : Prop where
  available : B.amount value updated.balance.available =
    prev.accounts.available B value account_id + amount
  reservations : updated.balance.reservations =
    (prev.get_or_create_account account_id).balance.reservations
  config : updated.config = (prev.get_or_create_account account_id).config
  state : updated.state = (prev.get_or_create_account account_id).state

theorem SpecApplied.of_increase (hB : B.Exact value) {self : StateMachine}
    {spec : BalanceOperationSpec} {updated : Account} {change : BalanceChange}
    (hincrease : (self.get_or_create_account spec.account_id).increase_balance_by B spec.amount =
      .ok (updated, change)) :
    updated.account_id = spec.account_id ∧
      SpecApplied B value self spec.account_id updated (B.amount value spec.amount) := by
  obtain ⟨hid, x, hamount, hvalue, -⟩ := StateMachine.increase_balance_by_balance hB hincrease
  obtain ⟨y, hprev, hcurr⟩ := hvalue.available
  have hstep := Account.increase_balance_by_step hincrease
  refine ⟨hid, ?_, ?_, hstep.config, hstep.curr_normal.trans hstep.prev_normal.symm⟩
  · rw [AccountMap.available_eq hB, BigDecimal.amount_of_number hprev,
      BigDecimal.amount_of_number hcurr, BigDecimal.amount_of_number hamount]
  · rw [hvalue.reservations, StateMachine.get_or_create_account_balance]

/-- Of all specs that name an account the last one decides what is written. -/
theorem increase_balances_last (hB : B.Exact value) {self : StateMachine}
    {specs : List BalanceOperationSpec} {results : List (Account × BalanceChange)}
    (hresults : List.Forall₂ (fun spec result =>
      (self.get_or_create_account spec.account_id).increase_balance_by B spec.amount =
        .ok result) specs results) (account_id : String) :
    (AccountWrite.last account_id ((results.map Prod.fst).map .update) = none ∧
        spec_amounts B value account_id specs = []) ∨
      ∃ updated amount,
        AccountWrite.last account_id ((results.map Prod.fst).map .update) = some updated ∧
        (spec_amounts B value account_id specs).getLast? = some amount ∧
        SpecApplied B value self account_id updated amount := by
  induction hresults with
  | nil => exact .inl ⟨rfl, rfl⟩
  | @cons spec result specs results hincrease _ ih =>
    obtain ⟨updated, change⟩ := result
    obtain ⟨hid, happlied⟩ := SpecApplied.of_increase hB hincrease
    simp only [List.map_cons]
    rw [AccountWrite.last_cons, spec_amounts_cons]
    simp only [AccountWrite.account, hid]
    obtain ⟨hlast, hnone⟩ | ⟨later, amount, hlast, hamount, hlater⟩ := ih
    · rw [hlast, hnone, Option.none_or]
      by_cases hnamed : account_id = spec.account_id
      · subst hnamed
        exact .inr ⟨updated, B.amount value spec.amount, by simp, by simp, happlied⟩
      · exact .inl ⟨if_neg hnamed, if_neg (Ne.symm hnamed)⟩
    · refine .inr ⟨later, amount, by rw [hlast, Option.some_or], ?_, hlater⟩
      split
      · rw [List.getLast?_cons, hamount, Option.getD_some]
      · exact hamount

/-- What a batch that succeeds makes of an account: the amounts before the last
one that names it are lost. -/
theorem handle_batch_balance_operation_account (hB : B.Exact value)
    {request : BatchBalanceOperationRequest} {log_index offset : Nat} {wallet next : Wallet}
    {event : Event}
    (hexec : exec (handle_batch_balance_operation B request log_index offset) wallet =
      (.ok event, next)) (account_id : String) :
    SpecApplied B value wallet.statemachine account_id
      (next.statemachine.get_or_create_account account_id)
      ((spec_amounts B value account_id request.balance_operation_spec).sum -
        (spec_amounts B value account_id request.balance_operation_spec).dropLast.sum) := by
  obtain ⟨plan, hplan, haccounts⟩ :=
    handle_payload_ok (.batch_balance_operation_request request) hexec
  obtain ⟨results, hresults, rfl⟩ := StateMachine.plan_batch_ok hplan
  unfold StateMachine.get_or_create_account
  rw [haccounts, AccountMap.get_write]
  obtain ⟨hlast, hnone⟩ | ⟨updated, amount, hlast, hamount, happlied⟩ :=
    increase_balances_last hB hresults account_id
  · rw [hlast, hnone, Option.none_or]
    change SpecApplied B value _ account_id
      (wallet.statemachine.get_or_create_account account_id) _
    refine ⟨?_, rfl, rfl, rfl⟩
    rw [AccountMap.available_eq hB, ← StateMachine.get_or_create_account_balance]
    simp
  · rw [hlast, Option.some_or]
    have hsum := List.dropLast_append_getLast? amount hamount
    rw [← hsum, List.sum_append, List.dropLast_concat, List.sum_singleton, add_sub_cancel_left]
    exact happlied

/-- A batch that fails changes nothing. One that succeeds is the sequential
application of its specs if and only if, for every account, the amounts before
the last one that names it add up to nothing. -/
theorem handle_batch_balance_operation_sequential_iff (B : BigDecimal) (value : B.Decimal → ℚ)
    (hB : B.Exact value) (request : BatchBalanceOperationRequest) (log_index offset : Nat)
    (wallet next : Wallet) (result : GeneralResult Event)
    (hexec : exec (handle_batch_balance_operation B request log_index offset) wallet =
      (result, next)) :
    (∀ err, result = .error err → next = wallet) ∧
      ∀ event, result = .ok event →
        (BatchApplies B value request.balance_operation_spec wallet.statemachine
            next.statemachine ↔
          ∀ account_id,
            (spec_amounts B value account_id request.balance_operation_spec).dropLast.sum = 0) := by
  refine ⟨?_, ?_⟩
  · rintro err rfl
    have hpayload : exec (handle_payload B (.batch_balance_operation_request request)
        log_index offset) wallet = (.error err, next) := hexec
    exact handle_payload_error_unchanged B hpayload
  · rintro event rfl
    have haccount := handle_batch_balance_operation_account hB hexec
    have havailable : ∀ account_id, next.statemachine.accounts.available B value account_id =
        B.amount value
          (next.statemachine.get_or_create_account account_id).balance.available := by
      intro account_id
      rw [AccountMap.available_eq hB, StateMachine.get_or_create_account_balance]
    constructor
    · intro happlies account_id
      have happlied := happlies.available account_id
      rw [havailable, (haccount account_id).available] at happlied
      linarith
    · intro hcond
      refine ⟨?_, fun account_id => (haccount account_id).reservations,
        fun account_id => (haccount account_id).config,
        fun account_id => (haccount account_id).state⟩
      intro account_id
      rw [havailable, (haccount account_id).available, hcond account_id, sub_zero]

def batchRequest (specs : List (String × String)) : BatchBalanceOperationRequest :=
  { balance_operation_spec := specs.map fun spec =>
      { account_id := spec.1, amount := spec.2 } }

theorem handle_batch_balance_operation_sequential_two_accounts :
    ∃ event next,
      exec (handle_batch_balance_operation plainDecimal
          (batchRequest [("a", "5"), ("b", "-1.50")]) 6 0)
        (StateMachine.recover_from_db 100 RocksDBState.empty) = (.ok event, next) ∧
      BatchApplies plainDecimal plainValue
        (batchRequest [("a", "5"), ("b", "-1.50")]).balance_operation_spec
        (StateMachine.recover_from_db 100 RocksDBState.empty).statemachine next.statemachine := by
  refine ⟨_, _, rfl, ?_⟩
  refine ((handle_batch_balance_operation_sequential_iff plainDecimal plainValue
    plainDecimal_exact (batchRequest [("a", "5"), ("b", "-1.50")]) 6 0
    (StateMachine.recover_from_db 100 RocksDBState.empty) _ _ rfl).2 _ rfl).mpr ?_
  intro account_id
  by_cases ha : "a" = account_id
  · subst ha
    decide
  · by_cases hb : "b" = account_id
    · subst hb
      decide
    · simp [spec_amounts, batchRequest, ha, hb]

/-- Two credits of one account in a batch: only the second one arrives. -/
theorem handle_batch_balance_operation_loses_repeated :
    ∃ event next,
      exec (handle_batch_balance_operation plainDecimal
          (batchRequest [("a", "5"), ("a", "3")]) 6 0)
        (StateMachine.recover_from_db 100 RocksDBState.empty) = (.ok event, next) ∧
      next.statemachine.accounts.available plainDecimal plainValue "a" = 3 ∧
      (spec_amounts plainDecimal plainValue "a"
        (batchRequest [("a", "5"), ("a", "3")]).balance_operation_spec).sum = 8 := by
  refine ⟨_, _, rfl, ?_, ?_⟩
  · decide +kernel
  · decide +kernel

end state_machine

end firm_wallet
