import Auticuro.StateMachine.DurableBalances

namespace firm_wallet

open accountpb balance_calculator internal_servicepb account_management_servicepb rocksdb_state

namespace rocksdb_state

/-- A property of every account in a map. -/
def AccountMap.Every (P : Account → Prop) (self : AccountMap) : Prop :=
  ∀ account_id account, self.get account_id = some account → P account

theorem AccountMap.Every.empty (P : Account → Prop) : AccountMap.empty.Every P := by
  intro account_id account hget
  rw [get_empty] at hget
  cases hget

theorem AccountMap.Every.insert {P : Account → Prop} {accounts : AccountMap} {account : Account}
    (haccounts : accounts.Every P) (haccount : P account) : (accounts.insert account).Every P := by
  intro account_id found hget
  rw [get_insert] at hget
  split at hget
  · cases hget
    exact haccount
  · exact haccounts account_id found hget

theorem AccountMap.Every.remove {P : Account → Prop} {accounts : AccountMap}
    (haccounts : accounts.Every P) (removed : String) : (accounts.remove removed).Every P := by
  intro account_id found hget
  rw [get_remove] at hget
  split at hget
  · cases hget
  · exact haccounts account_id found hget

end rocksdb_state

namespace state_machine

variable {P : Account → Prop} {accounts : AccountMap}

theorem AccountMap.Every.write {writes : List AccountWrite} (haccounts : accounts.Every P)
    (hwrites : ∀ write ∈ writes, P write.account) :
    (AccountMap.write accounts writes).Every P := by
  induction writes generalizing accounts with
  | nil => exact haccounts
  | cons write writes ih =>
    have hhead := hwrites write List.mem_cons_self
    exact ih (haccounts.insert hhead) fun other hmem =>
      hwrites other (List.mem_cons_of_mem _ hmem)

theorem AccountMap.Every.persist {writes : List AccountWrite} (haccounts : accounts.Every P)
    (hwrites : ∀ write ∈ writes, P write.account) :
    (writes.foldl AccountMap.persist accounts).Every P := by
  induction writes generalizing accounts with
  | nil => exact haccounts
  | cons write writes ih =>
    have hhead := hwrites write List.mem_cons_self
    have hrest : ∀ other ∈ writes, P other.account := fun other hmem =>
      hwrites other (List.mem_cons_of_mem _ hmem)
    cases write with
    | update account => exact ih (haccounts.insert hhead) hrest
    | delete account => exact ih (haccounts.remove account.account_id) hrest

theorem AccountMap.Every.remove_all (haccounts : accounts.Every P) (removed : List String) :
    (removed.foldl AccountMap.remove accounts).Every P := by
  intro account_id account hget
  rw [AccountMap.get_foldl_remove] at hget
  split at hget
  · cases hget
  · exact haccounts account_id account hget

/-- After an UpdateAccountConfig the account it names is among the accounts,
with the limit of the request. -/
theorem AccountMap.Every.configured {B : BigDecimal} {self : StateMachine} {plan : Plan}
    {request : UpdateAccountConfigRequest}
    (hplan : self.plan B (.update_account_config_request request) = .ok plan)
    (hafter : (AccountMap.write self.accounts plan.writes).Every P) :
    ∃ account, self.accounts.get request.get_header.account_id = some account ∧
      P (account.set_balance_limit request.get_balance_limit) := by
  obtain ⟨account, hget, rfl⟩ := StateMachine.plan_update_config_ok hplan
  refine ⟨account, hget, hafter account.account_id _ ?_⟩
  rw [AccountMap.get_write]
  simp [AccountWrite.last, AccountWrite.account, Account.set_balance_limit]

/-- A property of every account that is in memory, that a restart would
recover, or that a restart after the next flush would. -/
structure Wallet.EveryAccount (P : Account → Prop) (wallet : Wallet) : Prop where
  memory : wallet.statemachine.accounts.Every P
  database : wallet.statemachine.rocksdb_state.data.Every P
  pending : wallet.flushed_db.data.Every P

namespace Wallet.EveryAccount

variable {wallet next : Wallet}

theorem recover_from_db {db : RocksDBState} (hdb : db.data.Every P) (batch_size : Nat) :
    (StateMachine.recover_from_db batch_size db).EveryAccount P :=
  ⟨hdb, hdb, hdb⟩

section

variable (hwallet : wallet.EveryAccount P)
include hwallet

theorem executed {log_index offset : Nat} {command : Command} {plan : Plan}
    (hwrites : ∀ write ∈ plan.writes, P write.account) :
    (wallet.executed log_index offset command plan).EveryAccount P where
  memory := AccountMap.Every.write hwallet.memory hwrites
  database := hwallet.database
  pending := by
    rw [executed_flushed_data]
    exact AccountMap.Every.persist hwallet.pending hwrites

theorem finish_entry (log_index : Nat) :
    (wallet.finish_entry log_index).EveryAccount P where
  memory := hwallet.memory
  database := hwallet.database
  pending := by
    unfold flushed_db
    rw [write_opt_finish_entry]
    exact hwallet.pending

theorem write_gc_batch {db : RocksDBState}
    (hdata : db.data = wallet.statemachine.rocksdb_state.data) :
    { wallet with
      statemachine := { wallet.statemachine with rocksdb_state := db } }.EveryAccount P where
  memory := hwallet.memory
  database := by
    rw [hdata]
    exact hwallet.database
  pending := by
    unfold flushed_db
    rw [RocksDBState.write_opt_data_congr hdata]
    exact hwallet.pending

theorem flush (hflush : wallet.flush = some next) : next.EveryAccount P := by
  obtain ⟨_, rfl⟩ := flush_eq_some_iff.mp hflush
  exact ⟨AccountMap.Every.remove_all hwallet.memory _, hwallet.pending, hwallet.pending⟩

end

end Wallet.EveryAccount

end state_machine

end firm_wallet
