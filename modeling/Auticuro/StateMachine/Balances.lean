import Auticuro.Account.Value
import Auticuro.StateMachine.Tombstones

open Exec

namespace firm_wallet

open accountpb errors balance_calculator balance_operation_servicepb internal_servicepb
open rocksdb_state

namespace rocksdb_state

/-- The balance under an account id; a missing account has the balance it would
be created with. -/
def AccountMap.balance (self : AccountMap) (account_id : String) : Balance :=
  (self.get account_id).elim Balance.initial Account.balance

theorem AccountMap.balance_of_get {accounts : AccountMap} {account_id : String} {account : Account}
    (hget : accounts.get account_id = some account) :
    accounts.balance account_id = account.balance := by
  simp [balance, hget]

theorem AccountMap.balance_of_missing {accounts : AccountMap} {account_id : String}
    (hget : accounts.get account_id = none) : accounts.balance account_id = Balance.initial := by
  simp [balance, hget]

end rocksdb_state

namespace balance_operation_servicepb

/-- The balance under an account id once the changes are made in order. -/
def BalanceChange.final (account_id : String) (balance : Balance) (changes : List BalanceChange) :
    Balance :=
  changes.foldl (fun balance change =>
    if account_id = change.account_id then change.curr_balance else balance) balance

theorem BalanceChange.final_cons (account_id : String) (balance : Balance)
    (change : BalanceChange) (changes : List BalanceChange) :
    BalanceChange.final account_id balance (change :: changes) =
      BalanceChange.final account_id
        (if account_id = change.account_id then change.curr_balance else balance) changes := rfl

theorem BalanceChange.final_induction {account_id : String} {balance : Balance}
    {changes : List BalanceChange} {P : Balance → Prop} (hbalance : P balance)
    (hchanges : ∀ change ∈ changes, account_id = change.account_id → P change.curr_balance) :
    P (BalanceChange.final account_id balance changes) := by
  induction changes generalizing balance with
  | nil => exact hbalance
  | cons change changes ih =>
    have hrest := fun other hmem => hchanges other (List.mem_cons_of_mem change hmem)
    rw [BalanceChange.final_cons]
    refine ih ?_ hrest
    split
    · rename_i hid
      exact hchanges change List.mem_cons_self hid
    · exact hbalance

end balance_operation_servicepb

namespace state_machine

theorem StateMachine.get_or_create_account_balance (self : StateMachine) (account_id : String) :
    (self.get_or_create_account account_id).balance = self.accounts.balance account_id := by
  unfold get_or_create_account AccountMap.balance
  cases self.accounts.get account_id <;> rfl

theorem AccountMap.balance_write (accounts : AccountMap) (writes : List AccountWrite)
    (account_id : String) :
    (AccountMap.write accounts writes).balance account_id =
      (AccountWrite.last account_id writes).elim (accounts.balance account_id) Account.balance := by
  unfold AccountMap.balance
  rw [AccountMap.get_write]
  cases AccountWrite.last account_id writes <;> rfl

theorem AccountMap.balance_write_singleton (accounts : AccountMap) (write : AccountWrite)
    (account_id : String) :
    (AccountMap.write accounts [write]).balance account_id =
      if account_id = write.account.account_id then write.account.balance
      else accounts.balance account_id := by
  rw [AccountMap.balance_write, AccountWrite.last_cons]
  split
  · rfl
  · rfl

variable {accounts : AccountMap}

/-- Writing an account back with the balance it had changes no balance. -/
theorem AccountMap.balance_write_of_same {write : AccountWrite}
    (hsame : accounts.balance write.account.account_id = write.account.balance)
    (account_id : String) :
    (AccountMap.write accounts [write]).balance account_id = accounts.balance account_id := by
  rw [AccountMap.balance_write_singleton]
  split
  · rename_i hid
    rw [hid, hsame]
  · rfl

theorem AccountMap.balance_write_kept {named : String} {account : Account} {write : AccountWrite}
    (hget : accounts.get named = some account) (hid : write.account.account_id = account.account_id)
    (hbalance : write.account.balance = account.balance) (account_id : String) :
    (AccountMap.write accounts [write]).balance account_id = accounts.balance account_id := by
  apply AccountMap.balance_write_of_same
  rw [hid, AccountMap.account_id_of_get hget, AccountMap.balance_of_get hget, hbalance]

variable {B : BigDecimal} {value : B.Decimal → ℚ} {self : StateMachine} {plan : Plan}

/-- The account management commands change no balance. -/
theorem StateMachine.plan_management_balance {payload : CommandPayload}
    (hplan : self.plan B payload = .ok plan)
    (hkind : payload.kind ∉ [.transfer, .batch_balance_operation, .reserve, .release])
    (account_id : String) :
    (AccountMap.write self.accounts plan.writes).balance account_id =
      self.accounts.balance account_id := by
  cases payload with
  | transfer_request request | batch_balance_operation_request request | reserve_request request
  | release_request request => simp [CommandPayload.kind] at hkind
  | create_account_request request =>
    obtain ⟨habsent, rfl⟩ := plan_create_ok hplan
    refine AccountMap.balance_write_of_same ?_ account_id
    exact AccountMap.balance_of_missing habsent
  | delete_account_request request =>
    obtain ⟨account, updated_account, hget, hdelete, rfl⟩ := plan_delete_ok hplan
    obtain ⟨_, _, _, rfl⟩ := Account.delete_ok hdelete
    exact AccountMap.balance_write_kept hget rfl rfl account_id
  | lock_account_request request =>
    obtain ⟨account, updated_account, hget, hlock, rfl⟩ := plan_lock_ok hplan
    obtain ⟨_, rfl⟩ := Account.lock_ok hlock
    exact AccountMap.balance_write_kept hget rfl rfl account_id
  | unlock_account_request request =>
    obtain ⟨account, updated_account, hget, hunlock, rfl⟩ := plan_unlock_ok hplan
    obtain ⟨_, rfl⟩ := Account.unlock_ok hunlock
    exact AccountMap.balance_write_kept hget rfl rfl account_id
  | update_account_config_request request =>
    obtain ⟨account, hget, rfl⟩ := plan_update_config_ok hplan
    exact AccountMap.balance_write_kept hget rfl rfl account_id

/-- The balances after an account that was found is written back updated. -/
theorem AccountMap.balance_write_update {named : String} {account updated : Account}
    (hget : accounts.get named = some account) (hid : updated.account_id = account.account_id)
    (account_id : String) :
    (AccountMap.write accounts [.update updated]).balance account_id =
      if account_id = named then updated.balance else accounts.balance account_id := by
  rw [AccountMap.balance_write_singleton]
  change (if account_id = updated.account_id then updated.balance else _) = _
  rw [hid, AccountMap.account_id_of_get hget]

section BalanceOperations

variable (hB : B.Exact value)
include hB

theorem StateMachine.plan_reserve_balance {request : ReserveRequest}
    (hplan : self.plan B (.reserve_request request) = .ok plan) :
    ∃ curr reserved,
      (self.accounts.balance request.account_id).Reserve B value curr request.reservation_id
        request.amount reserved ∧
      (∀ account_id, (AccountMap.write self.accounts plan.writes).balance account_id =
        if account_id = request.account_id then curr else self.accounts.balance account_id) ∧
      ∀ header, plan.payload header = .reserve_event
        ⟨header, request, self.accounts.balance request.account_id, curr⟩ := by
  obtain ⟨prev_account, curr_account, hget, hreserve, rfl⟩ := plan_reserve_ok hplan
  obtain ⟨reserved, hvalue⟩ := Account.reserve_value hB hreserve
  rw [AccountMap.balance_of_get hget]
  exact ⟨curr_account.balance, reserved, hvalue,
    AccountMap.balance_write_update hget (Account.reserve_step hreserve).account_id,
    fun _ => rfl⟩

theorem StateMachine.plan_release_balance {request : ReleaseRequest}
    (hplan : self.plan B (.release_request request) = .ok plan) :
    ∃ curr held released,
      (if request.amount = "" then released = held
        else B.number value request.amount = some released) ∧
      (self.accounts.balance request.account_id).Release B value curr request.reservation_id
        held released ∧
      (∀ account_id, (AccountMap.write self.accounts plan.writes).balance account_id =
        if account_id = request.account_id then curr else self.accounts.balance account_id) ∧
      ∀ header, plan.payload header = .release_event
        ⟨header, request, self.accounts.balance request.account_id, curr⟩ := by
  obtain ⟨prev_account, curr_account, hget, hrelease, rfl⟩ := plan_release_ok hplan
  obtain ⟨held, released, hamount, hvalue⟩ := Account.release_value hB hrelease
  rw [AccountMap.balance_of_get hget]
  exact ⟨curr_account.balance, held, released, hamount, hvalue,
    AccountMap.balance_write_update hget (Account.release_step hrelease).account_id,
    fun _ => rfl⟩

/-- One leg of a transfer or one operation of a batch. -/
theorem StateMachine.increase_balance_by_balance {account_id amount : String} {updated : Account}
    {change : BalanceChange}
    (hincrease : (self.get_or_create_account account_id).increase_balance_by B amount =
      .ok (updated, change)) :
    updated.account_id = account_id ∧ ∃ x, B.number value amount = some x ∧
      (self.accounts.balance account_id).Increase B value updated.balance x ∧
      change = ⟨account_id, self.accounts.balance account_id, updated.balance⟩ := by
  obtain ⟨x, hamount, hvalue, hchange⟩ := Account.increase_balance_by_value hB hincrease
  have hid := (Account.increase_balance_by_step hincrease).account_id
  rw [get_or_create_account_account_id] at hchange hid
  rw [get_or_create_account_balance] at hvalue hchange
  exact ⟨hid, x, hamount, hvalue, hchange⟩

/-- A transfer writes the credited account first and the debited one over it,
and both legs start from the balances before the command. -/
theorem StateMachine.plan_transfer_balance {request : TransferRequest}
    (hplan : self.plan B (.transfer_request request) = .ok plan) :
    ∃ x from_curr to_curr, B.number value request.get_transfer_spec.amount = some x ∧
      (self.accounts.balance request.get_transfer_spec.from_account_id).Increase B value
        from_curr (-x) ∧
      (self.accounts.balance request.get_transfer_spec.to_account_id).Increase B value to_curr x ∧
      (∀ account_id, (AccountMap.write self.accounts plan.writes).balance account_id =
        if account_id = request.get_transfer_spec.from_account_id then from_curr
        else if account_id = request.get_transfer_spec.to_account_id then to_curr
        else self.accounts.balance account_id) ∧
      ∀ header, plan.payload header = .transfer_event ⟨header, request,
        ⟨request.get_transfer_spec.from_account_id,
          self.accounts.balance request.get_transfer_spec.from_account_id, from_curr⟩,
        ⟨request.get_transfer_spec.to_account_id,
          self.accounts.balance request.get_transfer_spec.to_account_id, to_curr⟩⟩ := by
  obtain ⟨neg_amount, updated_from, from_change, updated_to, to_change, hto, hneg, hfrom, rfl⟩ :=
    plan_transfer_ok hplan
  obtain ⟨htoId, x, hamount, hcredit, rfl⟩ := increase_balance_by_balance hB hto
  obtain ⟨hfromId, y, hminus, hdebit, rfl⟩ := increase_balance_by_balance hB hfrom
  obtain ⟨z, hz, hnegated⟩ := hB.neg_ok hneg
  cases hz.symm.trans hamount
  cases hminus.symm.trans hnegated
  refine ⟨x, updated_from.balance, updated_to.balance, hamount, hdebit, hcredit, ?_, fun _ => rfl⟩
  intro account_id
  rw [AccountMap.balance_write, AccountWrite.last_cons, AccountWrite.last_cons]
  simp only [AccountWrite.account, AccountWrite.last, hfromId, htoId, Option.none_or]
  split
  · rfl
  · split
    · rfl
    · rfl

theorem StateMachine.increase_balances_final {specs : List BalanceOperationSpec}
    {results : List (Account × BalanceChange)}
    (hresults : List.Forall₂ (fun spec result =>
      (self.get_or_create_account spec.account_id).increase_balance_by B spec.amount =
        .ok result) specs results) (account_id : String) (balance : Balance) :
    (AccountWrite.last account_id ((results.map Prod.fst).map .update)).elim balance
        Account.balance =
      BalanceChange.final account_id balance (results.map Prod.snd) := by
  induction hresults generalizing balance with
  | nil => rfl
  | @cons spec result specs results hincrease _ ih =>
    obtain ⟨updated, change⟩ := result
    obtain ⟨hid, x, _, _, rfl⟩ := increase_balance_by_balance hB hincrease
    simp only [List.map_cons]
    rw [BalanceChange.final_cons, ← ih, AccountWrite.last_cons]
    simp only [AccountWrite.account, hid]
    cases AccountWrite.last account_id ((results.map Prod.fst).map AccountWrite.update) with
    | none =>
      split
      · rfl
      · rfl
    | some account => rfl

/-- The operations of a batch all start from the balances before the command,
and the accounts are written in the order of the operations. -/
theorem StateMachine.plan_batch_balance {request : BatchBalanceOperationRequest}
    (hplan : self.plan B (.batch_balance_operation_request request) = .ok plan) :
    ∃ changes : List BalanceChange,
      List.Forall₂ (fun spec change => change.account_id = spec.account_id ∧
        change.prev_balance = self.accounts.balance spec.account_id ∧
        ∃ x, B.number value spec.amount = some x ∧
          change.prev_balance.Increase B value change.curr_balance x)
        request.balance_operation_spec changes ∧
      (∀ account_id, (AccountMap.write self.accounts plan.writes).balance account_id =
        BalanceChange.final account_id (self.accounts.balance account_id) changes) ∧
      ∀ header, plan.payload header =
        .batch_balance_operation_event ⟨header, request, changes⟩ := by
  obtain ⟨results, hresults, rfl⟩ := plan_batch_ok hplan
  refine ⟨results.map Prod.snd, ?_, ?_, fun _ => rfl⟩
  · rw [List.forall₂_map_right_iff]
    refine hresults.imp ?_
    rintro spec ⟨updated, change⟩ hincrease
    obtain ⟨_, x, hamount, hvalue, rfl⟩ := increase_balance_by_balance hB hincrease
    exact ⟨rfl, rfl, x, hamount, hvalue⟩
  · intro account_id
    rw [AccountMap.balance_write]
    exact increase_balances_final hB hresults account_id _

end BalanceOperations

end state_machine

end firm_wallet
