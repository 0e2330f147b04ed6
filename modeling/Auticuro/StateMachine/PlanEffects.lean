import Auticuro.Account.Steps
import Auticuro.StateMachine.PlanSpec

open Exec

namespace firm_wallet.state_machine

open accountpb commonpb errors balance_calculator balance_operation_servicepb
open account_management_servicepb internal_servicepb rocksdb_state

/-- The account that a list of writes leaves under an id, if it writes it. -/
def AccountWrite.last (account_id : String) : List AccountWrite → Option Account
  | [] => none
  | write :: writes =>
    (AccountWrite.last account_id writes).or
      (if account_id = write.account.account_id then some write.account else none)

theorem AccountWrite.last_cons (account_id : String) (write : AccountWrite)
    (writes : List AccountWrite) :
    AccountWrite.last account_id (write :: writes) =
      (AccountWrite.last account_id writes).or
        (if account_id = write.account.account_id then some write.account else none) := rfl

theorem AccountMap.get_write (accounts : AccountMap) (writes : List AccountWrite)
    (account_id : String) :
    (AccountMap.write accounts writes).get account_id =
      (AccountWrite.last account_id writes).or (accounts.get account_id) := by
  induction writes generalizing accounts with
  | nil => rfl
  | cons write writes ih =>
    change (AccountMap.write (accounts.insert write.account) writes).get account_id = _
    rw [ih, AccountMap.get_insert, AccountWrite.last_cons, Option.or_assoc]
    by_cases hid : account_id = write.account.account_id
    · rw [if_pos hid, if_pos hid, Option.some_or]
    · rw [if_neg hid, if_neg hid, Option.none_or]

theorem AccountWrite.last_eq_none {writes : List AccountWrite} {account_id : String}
    (hother : ∀ write ∈ writes, write.account.account_id ≠ account_id) :
    AccountWrite.last account_id writes = none := by
  induction writes with
  | nil => rfl
  | cons write writes ih =>
    have hrest := ih (fun other hmem => hother other (List.mem_cons_of_mem _ hmem))
    rw [AccountWrite.last_cons, hrest, Option.none_or,
      if_neg (hother write List.mem_cons_self).symm]

theorem AccountWrite.exists_of_last {writes : List AccountWrite} {account_id : String}
    {account : Account} (hlast : AccountWrite.last account_id writes = some account) :
    ∃ write ∈ writes, write.account = account ∧ account.account_id = account_id := by
  induction writes with
  | nil => cases hlast
  | cons write writes ih =>
    rw [AccountWrite.last_cons, Option.or_eq_some_iff] at hlast
    obtain hlast | ⟨_, hhead⟩ := hlast
    · obtain ⟨found, hmem, hfound⟩ := ih hlast
      exact ⟨found, List.mem_cons_of_mem _ hmem, hfound⟩
    · split at hhead
      · rename_i hid
        cases hhead
        exact ⟨write, List.mem_cons_self, rfl, hid.symm⟩
      · cases hhead

variable {B : BigDecimal} {self : StateMachine} {plan : Plan} {payload : CommandPayload}

/-- A command writes only the accounts it names. -/
theorem StateMachine.plan_writes_named (hplan : self.plan B payload = .ok plan) :
    ∀ write ∈ plan.writes, write.account.account_id ∈ payload.account_ids := by
  cases payload with
  | transfer_request request =>
    obtain ⟨neg_amount, updated_from, from_change, updated_to, to_change, hto, _, hfrom, rfl⟩ :=
      plan_transfer_ok hplan
    have htoId := (Account.increase_balance_by_step hto).account_id
    have hfromId := (Account.increase_balance_by_step hfrom).account_id
    rw [get_or_create_account_account_id] at htoId hfromId
    simp [AccountWrite.account, CommandPayload.account_ids, htoId, hfromId]
  | batch_balance_operation_request request =>
    obtain ⟨results, hresults, rfl⟩ := plan_batch_ok hplan
    intro write hwrite
    obtain ⟨account, haccount, rfl⟩ := List.mem_map.mp hwrite
    obtain ⟨result, hresult, rfl⟩ := List.mem_map.mp haccount
    obtain ⟨spec, hspec, hincrease⟩ := exists_input_of_mem hresults hresult
    have hid := (Account.increase_balance_by_step hincrease).account_id
    rw [get_or_create_account_account_id] at hid
    exact List.mem_map.mpr ⟨spec, hspec, hid.symm⟩
  | reserve_request request =>
    obtain ⟨prev_account, curr_account, hget, hreserve, rfl⟩ := plan_reserve_ok hplan
    have hid := (Account.reserve_step hreserve).account_id
    rw [AccountMap.account_id_of_get hget] at hid
    simp [AccountWrite.account, CommandPayload.account_ids, hid]
  | release_request request =>
    obtain ⟨prev_account, curr_account, hget, hrelease, rfl⟩ := plan_release_ok hplan
    have hid := (Account.release_step hrelease).account_id
    rw [AccountMap.account_id_of_get hget] at hid
    simp [AccountWrite.account, CommandPayload.account_ids, hid]
  | create_account_request request =>
    obtain ⟨_, rfl⟩ := plan_create_ok hplan
    simp [AccountWrite.account, CommandPayload.account_ids, Account.new]
  | delete_account_request request =>
    obtain ⟨account, updated_account, hget, hdelete, rfl⟩ := plan_delete_ok hplan
    obtain ⟨_, _, _, rfl⟩ := Account.delete_ok hdelete
    simp [AccountWrite.account, CommandPayload.account_ids, AccountMap.account_id_of_get hget]
  | lock_account_request request =>
    obtain ⟨account, updated_account, hget, hlock, rfl⟩ := plan_lock_ok hplan
    obtain ⟨_, rfl⟩ := Account.lock_ok hlock
    simp [AccountWrite.account, CommandPayload.account_ids, AccountMap.account_id_of_get hget]
  | unlock_account_request request =>
    obtain ⟨account, updated_account, hget, hunlock, rfl⟩ := plan_unlock_ok hplan
    obtain ⟨_, rfl⟩ := Account.unlock_ok hunlock
    simp [AccountWrite.account, CommandPayload.account_ids, AccountMap.account_id_of_get hget]
  | update_account_config_request request =>
    obtain ⟨account, hget, rfl⟩ := plan_update_config_ok hplan
    simp [AccountWrite.account, CommandPayload.account_ids, Account.set_balance_limit,
      AccountMap.account_id_of_get hget]

/-- A command either only updates accounts, or it deletes the one it names,
which was Normal and is now Deleted with the same balance. -/
theorem StateMachine.plan_writes_cases (hplan : self.plan B payload = .ok plan) :
    (∃ accounts : List Account, plan.writes = accounts.map AccountWrite.update) ∨
      ∃ account, self.accounts.get account.account_id = some account ∧
        account.delete B = .ok { account with state := .Deleted } ∧
        plan.writes = [.delete { account with state := .Deleted }] := by
  cases payload with
  | transfer_request request =>
    obtain ⟨neg_amount, updated_from, from_change, updated_to, to_change, _, _, _, rfl⟩ :=
      plan_transfer_ok hplan
    exact .inl ⟨[updated_to, updated_from], rfl⟩
  | batch_balance_operation_request request =>
    obtain ⟨results, _, rfl⟩ := plan_batch_ok hplan
    exact .inl ⟨results.map Prod.fst, rfl⟩
  | reserve_request request =>
    obtain ⟨prev_account, curr_account, _, _, rfl⟩ := plan_reserve_ok hplan
    exact .inl ⟨[curr_account], rfl⟩
  | release_request request =>
    obtain ⟨prev_account, curr_account, _, _, rfl⟩ := plan_release_ok hplan
    exact .inl ⟨[curr_account], rfl⟩
  | create_account_request request =>
    obtain ⟨_, rfl⟩ := plan_create_ok hplan
    exact .inl ⟨[_], rfl⟩
  | delete_account_request request =>
    obtain ⟨account, updated_account, hget, hdelete, rfl⟩ := plan_delete_ok hplan
    obtain ⟨_, _, _, rfl⟩ := Account.delete_ok hdelete
    refine .inr ⟨account, ?_, hdelete, rfl⟩
    rw [AccountMap.account_id_of_get hget, hget]
  | lock_account_request request =>
    obtain ⟨account, updated_account, _, _, rfl⟩ := plan_lock_ok hplan
    exact .inl ⟨[updated_account], rfl⟩
  | unlock_account_request request =>
    obtain ⟨account, updated_account, _, _, rfl⟩ := plan_unlock_ok hplan
    exact .inl ⟨[updated_account], rfl⟩
  | update_account_config_request request =>
    obtain ⟨account, _, rfl⟩ := plan_update_config_ok hplan
    exact .inl ⟨[_], rfl⟩

/-- What is under the id of an account that a balance operation was asked for. -/
theorem StateMachine.operate_written {account_id amount : String} {updated : Account}
    {change : BalanceChange}
    (hincrease : (self.get_or_create_account account_id).increase_balance_by B amount =
      .ok (updated, change)) :
    Account.Written B payload (self.accounts.get updated.account_id) updated := by
  have hid := (Account.increase_balance_by_step hincrease).account_id
  rw [get_or_create_account_account_id] at hid
  refine .operate ?_ (.increase hincrease)
  rw [hid, get_or_create_account_account_id]
  unfold get_or_create_account
  cases self.accounts.get account_id <;> rfl

/-- Every account a command writes comes from the account under its id. -/
theorem StateMachine.plan_writes_written (hplan : self.plan B payload = .ok plan)
    {write : AccountWrite} (hwrite : write ∈ plan.writes) :
    Account.Written B payload (self.accounts.get write.account.account_id) write.account := by
  cases payload with
  | transfer_request request =>
    obtain ⟨neg_amount, updated_from, from_change, updated_to, to_change, hto, _, hfrom, rfl⟩ :=
      plan_transfer_ok hplan
    obtain rfl | rfl : write = .update updated_to ∨ write = .update updated_from := by
      simpa using hwrite
    · exact operate_written hto
    · exact operate_written hfrom
  | batch_balance_operation_request request =>
    obtain ⟨results, hresults, rfl⟩ := plan_batch_ok hplan
    obtain ⟨updated, hupdated, rfl⟩ := List.mem_map.mp hwrite
    obtain ⟨result, hresult, rfl⟩ := List.mem_map.mp hupdated
    obtain ⟨spec, _, hincrease⟩ := exists_input_of_mem hresults hresult
    exact operate_written hincrease
  | reserve_request request =>
    obtain ⟨prev_account, curr_account, hprev, hreserve, rfl⟩ := plan_reserve_ok hplan
    obtain rfl := List.mem_singleton.mp hwrite
    change Account.Written B _ (self.accounts.get curr_account.account_id) curr_account
    rw [(Account.reserve_step hreserve).account_id, AccountMap.account_id_of_get hprev, hprev]
    exact .operate rfl (.reserve hreserve)
  | release_request request =>
    obtain ⟨prev_account, curr_account, hprev, hrelease, rfl⟩ := plan_release_ok hplan
    obtain rfl := List.mem_singleton.mp hwrite
    change Account.Written B _ (self.accounts.get curr_account.account_id) curr_account
    rw [(Account.release_step hrelease).account_id, AccountMap.account_id_of_get hprev, hprev]
    exact .operate rfl (.release hrelease)
  | create_account_request request =>
    obtain ⟨habsent, rfl⟩ := plan_create_ok hplan
    obtain rfl := List.mem_singleton.mp hwrite
    exact .create _ habsent
  | delete_account_request request =>
    obtain ⟨prev, updated, hprev, hdelete, rfl⟩ := plan_delete_ok hplan
    obtain ⟨_, _, _, rfl⟩ := Account.delete_ok hdelete
    obtain rfl := List.mem_singleton.mp hwrite
    refine .delete ?_ hdelete
    change self.accounts.get prev.account_id = some prev
    rw [AccountMap.account_id_of_get hprev, hprev]
  | lock_account_request request =>
    obtain ⟨prev, updated, hprev, hlock, rfl⟩ := plan_lock_ok hplan
    obtain ⟨hnormal, rfl⟩ := Account.lock_ok hlock
    obtain rfl := List.mem_singleton.mp hwrite
    refine .lock ?_ hnormal
    change self.accounts.get prev.account_id = some prev
    rw [AccountMap.account_id_of_get hprev, hprev]
  | unlock_account_request request =>
    obtain ⟨prev, updated, hprev, hunlock, rfl⟩ := plan_unlock_ok hplan
    obtain ⟨hlocked, rfl⟩ := Account.unlock_ok hunlock
    obtain rfl := List.mem_singleton.mp hwrite
    refine .unlock rfl ?_ hlocked
    change self.accounts.get prev.account_id = some prev
    rw [AccountMap.account_id_of_get hprev, hprev]
  | update_account_config_request request =>
    obtain ⟨prev, hprev, rfl⟩ := plan_update_config_ok hplan
    obtain rfl := List.mem_singleton.mp hwrite
    refine .configure rfl (AccountMap.account_id_of_get hprev) ?_
    change self.accounts.get prev.account_id = some prev
    rw [AccountMap.account_id_of_get hprev, hprev]

/-- The account that a command leaves under an id it writes. -/
theorem StateMachine.plan_last_written (hplan : self.plan B payload = .ok plan)
    {account_id : String} {written : Account}
    (hlast : AccountWrite.last account_id plan.writes = some written) :
    account_id ∈ payload.account_ids ∧
      Account.Written B payload (self.accounts.get account_id) written := by
  obtain ⟨write, hwrite, rfl, rfl⟩ := AccountWrite.exists_of_last hlast
  exact ⟨plan_writes_named hplan write hwrite, plan_writes_written hplan hwrite⟩

/-- Only UpdateAccountConfig writes an account that is in state Deleted. -/
theorem StateMachine.plan_writes_deleted (hplan : self.plan B payload = .ok plan)
    {write : AccountWrite} (hwrite : write ∈ plan.writes) {account : Account}
    (hget : self.accounts.get write.account.account_id = some account)
    (hdeleted : account.state = .Deleted) : payload.kind = .update_account_config := by
  have hwritten := plan_writes_written hplan hwrite
  rw [hget] at hwritten
  exact hwritten.kind_of_deleted hdeleted

theorem AccountWrite.tombstones_map_update (accounts : List Account) :
    AccountWrite.tombstones (accounts.map AccountWrite.update) = [] := by
  induction accounts with
  | nil => rfl
  | cons account accounts ih => exact ih

private theorem StateMachine.increase_balances_congr {left right : StateMachine}
    {specs : List BalanceOperationSpec}
    (hagree : ∀ spec ∈ specs, left.accounts.get spec.account_id =
      right.accounts.get spec.account_id) :
    left.increase_balances B specs = right.increase_balances B specs := by
  unfold increase_balances
  induction specs with
  | nil => rfl
  | cons spec specs ih =>
    rw [List.mapM_cons, List.mapM_cons,
      ih (fun other hmem => hagree other (List.mem_cons_of_mem _ hmem))]
    unfold get_or_create_account
    rw [hagree spec List.mem_cons_self]

/-- What a command does depends only on the accounts it names. -/
theorem StateMachine.plan_congr {left right : StateMachine}
    (hagree : ∀ account_id ∈ payload.account_ids,
      left.accounts.get account_id = right.accounts.get account_id) :
    left.plan B payload = right.plan B payload := by
  cases payload with
  | transfer_request request =>
    have hfrom := hagree request.get_transfer_spec.from_account_id
      (by simp [CommandPayload.account_ids])
    have hto := hagree request.get_transfer_spec.to_account_id
      (by simp [CommandPayload.account_ids])
    simp only [StateMachine.plan, get_or_create_account, hfrom, hto]
  | batch_balance_operation_request request =>
    have hspecs : left.increase_balances B request.balance_operation_spec =
        right.increase_balances B request.balance_operation_spec := by
      apply increase_balances_congr
      intro spec hspec
      exact hagree spec.account_id (List.mem_map.mpr ⟨spec, hspec, rfl⟩)
    simp only [StateMachine.plan, hspecs]
  | reserve_request request | release_request request =>
    have hget := hagree request.account_id (by simp [CommandPayload.account_ids])
    simp only [StateMachine.plan, assert_account_exists, hget]
  | create_account_request request =>
    have hget := hagree request.get_header.account_id (by simp [CommandPayload.account_ids])
    have hcontains : left.accounts.contains_key request.get_header.account_id =
        right.accounts.contains_key request.get_header.account_id := by
      unfold AccountMap.contains_key
      rw [hget]
    simp only [StateMachine.plan, hcontains]
  | delete_account_request request | lock_account_request request | unlock_account_request request
  | update_account_config_request request =>
    have hget := hagree request.get_header.account_id (by simp [CommandPayload.account_ids])
    simp only [StateMachine.plan, assert_account_exists, hget]

end firm_wallet.state_machine
