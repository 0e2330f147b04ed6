import Auticuro.StateMachine.Balances
import Auticuro.StateMachine.Recovery

namespace firm_wallet.state_machine

open accountpb balance_calculator internal_servicepb rocksdb_state

theorem Wallet.executed_flushed_data (self : Wallet) (log_index offset : Nat) (command : Command)
    (plan : Plan) :
    (self.executed log_index offset command plan).flushed_db.data =
      plan.writes.foldl AccountMap.persist self.flushed_db.data := by
  unfold flushed_db
  rw [write_opt_executed]
  rfl

variable (B : BigDecimal) (value : B.Decimal → ℚ)

/-- Nothing is lost when the tombstones go and when the pending batch is all
that is left: every account deleted since the last flush is still there in
state Deleted with nothing on it, and the batch holds the balances of the
memory. -/
structure Wallet.Durable (wallet : Wallet) : Prop where
  tombstones : ∀ account_id ∈ wallet.context.to_be_deleted_account_ids, ∃ account,
    wallet.statemachine.accounts.get account_id = some account ∧ account.state = .Deleted ∧
      account.balance.IsZero B value
  pending : ∀ account_id, (wallet.statemachine.accounts.balance account_id).Same B value
    (wallet.flushed_db.data.balance account_id)

variable {B value}

section Executed

variable {wallet : Wallet} {log_index offset : Nat} {command : Command} {plan : Plan}
variable (hplan : wallet.statemachine.plan B command.payload = .ok plan)
include hplan

/-- A write to a Deleted account leaves it Deleted and its balance as it is. -/
theorem Wallet.write_deleted {account_id : String} {account written : Account}
    (hget : wallet.statemachine.accounts.get account_id = some account)
    (hdeleted : account.state = .Deleted)
    (hlast : AccountWrite.last account_id plan.writes = some written) :
    written.state = .Deleted ∧ written.balance = account.balance := by
  obtain ⟨_, hwritten⟩ := StateMachine.plan_last_written hplan hlast
  rw [hget] at hwritten
  obtain hnormal | ⟨hbalance, hstate | ⟨_, hlocked, _⟩⟩ := hwritten.transition
  · cases hnormal.symm.trans hdeleted
  · exact ⟨hstate.trans hdeleted, hbalance⟩
  · cases hlocked.symm.trans hdeleted

variable (hB : B.Exact value) (hwallet : wallet.Durable B value)
include hB hwallet

theorem Wallet.Durable.executed_tombstones {account_id : String}
    (hmem : account_id ∈
      (wallet.executed log_index offset command plan).context.to_be_deleted_account_ids) :
    ∃ account, (wallet.executed log_index offset command plan).statemachine.accounts.get
      account_id = some account ∧ account.state = .Deleted ∧ account.balance.IsZero B value := by
  change ∃ account, (AccountMap.write _ plan.writes).get account_id = _ ∧ _
  rw [AccountMap.get_write]
  obtain hmem | hmem := List.mem_append.mp hmem
  · obtain ⟨account, hget, hdeleted, hzero⟩ := hwallet.tombstones account_id hmem
    cases hlast : AccountWrite.last account_id plan.writes with
    | none => exact ⟨account, hget, hdeleted, hzero⟩
    | some written =>
      obtain ⟨hstate, hbalance⟩ := write_deleted hplan hget hdeleted hlast
      exact ⟨written, rfl, hstate, hbalance ▸ hzero⟩
  · obtain ⟨updated, hwrites⟩ | ⟨deleted, _, hdelete, hwrites⟩ :=
      StateMachine.plan_writes_cases hplan
    · rw [hwrites, AccountWrite.tombstones_map_update] at hmem
      cases hmem
    · rw [hwrites] at hmem ⊢
      have hid : account_id = deleted.account_id := by
        simpa [AccountWrite.tombstones] using hmem
      have hzero : deleted.balance.IsZero B value := Account.delete_isZero hB hdelete
      refine ⟨{ deleted with state := .Deleted }, ?_, rfl, hzero⟩
      simp [AccountWrite.last, AccountWrite.account, hid]

theorem Wallet.Durable.executed_pending (account_id : String) :
    ((wallet.executed log_index offset command plan).statemachine.accounts.balance
      account_id).Same B value
        ((wallet.executed log_index offset command plan).flushed_db.data.balance account_id) := by
  have hpending := hwallet.pending account_id
  rw [executed_flushed_data]
  change ((AccountMap.write wallet.statemachine.accounts plan.writes).balance account_id).Same
    B value _
  obtain ⟨updated, hwrites⟩ | ⟨deleted, hget, hdelete, hwrites⟩ :=
    StateMachine.plan_writes_cases hplan
  · rw [AccountMap.balance_write, hwrites]
    unfold AccountMap.balance
    rw [AccountMap.get_foldl_persist_update]
    cases AccountWrite.last account_id (updated.map AccountWrite.update) with
    | none => exact hpending
    | some account => exact Balance.same_equivalence.refl _
  · rw [hwrites, AccountMap.balance_write_singleton]
    unfold AccountMap.balance
    change Balance.Same B value (if account_id = deleted.account_id then deleted.balance else _)
      (((wallet.flushed_db.data.remove deleted.account_id).get account_id).elim _ _)
    rw [AccountMap.get_remove]
    by_cases hid : account_id = deleted.account_id
    · rw [if_pos hid, if_pos hid]
      exact (Account.delete_isZero hB hdelete).same (Balance.initial_isZero hB)
    · rw [if_neg hid, if_neg hid]
      exact hpending

theorem Wallet.Durable.executed :
    (wallet.executed log_index offset command plan).Durable B value :=
  ⟨fun _ hmem => hwallet.executed_tombstones hplan hB hmem,
    hwallet.executed_pending hplan hB⟩

end Executed

namespace Wallet.Durable

theorem recover_from_db (batch_size : Nat) (db : RocksDBState) :
    (StateMachine.recover_from_db batch_size db).Durable B value where
  tombstones := by
    intro account_id hmem
    cases hmem
  pending := fun _ => Balance.same_equivalence.refl _

theorem finish_entry {wallet : Wallet} (hwallet : wallet.Durable B value) (log_index : Nat) :
    (wallet.finish_entry log_index).Durable B value where
  tombstones := hwallet.tombstones
  pending := by
    unfold flushed_db
    rw [write_opt_finish_entry]
    exact hwallet.pending

/-- A batch of the collector is about other keys. -/
theorem write_gc_batch {wallet : Wallet} (hwallet : wallet.Durable B value) {db : RocksDBState}
    (hdata : db.data = wallet.statemachine.rocksdb_state.data) :
    { wallet with
      statemachine := { wallet.statemachine with rocksdb_state := db } }.Durable B value where
  tombstones := hwallet.tombstones
  pending := by
    intro account_id
    unfold flushed_db
    rw [RocksDBState.write_opt_data_congr hdata]
    exact hwallet.pending account_id

/-- A flush takes only accounts away that hold nothing. -/
theorem flush_balance {wallet next : Wallet} (hwallet : wallet.Durable B value)
    (hB : B.Exact value) (hflush : wallet.flush = some next) (account_id : String) :
    next.statemachine.accounts.balance account_id =
        wallet.statemachine.accounts.balance account_id ∨
      ((next.statemachine.accounts.balance account_id).IsZero B value ∧
        (wallet.statemachine.accounts.balance account_id).IsZero B value) := by
  obtain ⟨_, rfl⟩ := flush_eq_some_iff.mp hflush
  by_cases hmem : account_id ∈ wallet.context.to_be_deleted_account_ids
  · obtain ⟨account, hget, _, hzero⟩ := hwallet.tombstones account_id hmem
    refine .inr ⟨?_, ?_⟩
    · change (AccountMap.balance (List.foldl _ _ _) account_id).IsZero B value
      rw [AccountMap.balance_of_missing]
      · exact Balance.initial_isZero hB
      · rw [AccountMap.get_foldl_remove, if_pos hmem]
    · rw [AccountMap.balance_of_get hget]
      exact hzero
  · left
    change AccountMap.balance (List.foldl _ _ _) account_id = _
    unfold AccountMap.balance
    rw [AccountMap.get_foldl_remove, if_neg hmem]

theorem flush_same {wallet next : Wallet} (hwallet : wallet.Durable B value)
    (hB : B.Exact value) (hflush : wallet.flush = some next) (account_id : String) :
    (next.statemachine.accounts.balance account_id).Same B value
      (wallet.statemachine.accounts.balance account_id) := by
  obtain heq | ⟨hnext, hprev⟩ := hwallet.flush_balance hB hflush account_id
  · rw [heq]
    exact Balance.same_equivalence.refl _
  · exact hnext.same hprev

theorem flush {wallet next : Wallet} (hwallet : wallet.Durable B value)
    (hB : B.Exact value) (hflush : wallet.flush = some next) : next.Durable B value := by
  have hsame := hwallet.flush_same hB hflush
  obtain ⟨_, rfl⟩ := flush_eq_some_iff.mp hflush
  refine ⟨?_, ?_⟩
  · intro account_id hmem
    cases hmem
  · intro account_id
    exact Balance.same_equivalence.trans (hsame account_id) (hwallet.pending account_id)

end Wallet.Durable

end firm_wallet.state_machine
