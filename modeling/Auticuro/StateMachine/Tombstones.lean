import Auticuro.StateMachine.PlanEffects
import Auticuro.StateMachine.WriteBatch

namespace firm_wallet.state_machine

open accountpb balance_calculator internal_servicepb rocksdb_state

/-- The accounts without the tombstones. -/
def Wallet.live (self : Wallet) : AccountMap :=
  self.context.to_be_deleted_account_ids.foldl AccountMap.remove self.statemachine.accounts

theorem Wallet.get_live (self : Wallet) (account_id : String) :
    self.live.get account_id =
      if account_id ∈ self.context.to_be_deleted_account_ids then none
      else self.statemachine.accounts.get account_id :=
  AccountMap.get_foldl_remove _ _ _

theorem AccountMap.get_foldl_persist_update (accounts : AccountMap) (updated : List Account)
    (account_id : String) :
    ((updated.map AccountWrite.update).foldl AccountMap.persist accounts).get account_id =
      (AccountWrite.last account_id (updated.map .update)).or (accounts.get account_id) := by
  rw [← AccountMap.get_write]
  unfold AccountMap.write
  rw [List.map_map, List.foldl_map, List.foldl_map]
  rfl

variable (B : BigDecimal)

/-- If the command is executed, it writes no account deleted since the last
flush. -/
def Wallet.SparesTombstones (wallet : Wallet) (command : Command) : Prop :=
  ∀ plan, wallet.statemachine.get_seq_num command.command_id = none →
    wallet.statemachine.plan B command.payload = .ok plan →
    ∀ write ∈ plan.writes, write.account.account_id ∉ wallet.context.to_be_deleted_account_ids

variable {B}

section Executed

variable {wallet : Wallet} {log_index offset : Nat} {command : Command} {plan : Plan}
variable (hplan : wallet.statemachine.plan B command.payload = .ok plan)
variable (hspare : ∀ write ∈ plan.writes,
  write.account.account_id ∉ wallet.context.to_be_deleted_account_ids)

include hspare in
private theorem last_eq_none_of_tombstone {account_id : String}
    (htombstone : account_id ∈ wallet.context.to_be_deleted_account_ids) :
    AccountWrite.last account_id plan.writes = none := by
  apply AccountWrite.last_eq_none
  rintro write hwrite rfl
  exact hspare write hwrite htombstone

include hplan hspare

/-- Writing the planned accounts and then dropping the tombstones is writing
them durably to the accounts without tombstones. -/
theorem Wallet.executed_live :
    (wallet.executed log_index offset command plan).live =
      plan.writes.foldl AccountMap.persist wallet.live := by
  ext1 account_id
  rw [get_live]
  change (if account_id ∈ wallet.context.to_be_deleted_account_ids ++
    AccountWrite.tombstones plan.writes then none
    else (AccountMap.write wallet.statemachine.accounts plan.writes).get account_id) = _
  rw [AccountMap.get_write]
  obtain ⟨updated, hwrites⟩ | ⟨account, _, _, hwrites⟩ := StateMachine.plan_writes_cases hplan
  · rw [hwrites, AccountMap.get_foldl_persist_update, AccountWrite.tombstones_map_update,
      List.append_nil, get_live]
    split
    · rename_i htombstone
      rw [← hwrites, last_eq_none_of_tombstone hspare htombstone]
      rfl
    · rfl
  · rw [hwrites]
    change _ = (wallet.live.remove account.account_id).get account_id
    rw [AccountMap.get_remove, get_live, AccountWrite.last_cons]
    by_cases hid : account_id = account.account_id
    · simp [AccountWrite.tombstones, hid]
    · simp [AccountWrite.tombstones, AccountWrite.account, AccountWrite.last, hid]

theorem Wallet.executed_tombstone_deleted
    (htombstones : ∀ account_id ∈ wallet.context.to_be_deleted_account_ids,
      ∃ account, wallet.statemachine.accounts.get account_id = some account ∧
        account.state = .Deleted) {account_id : String}
    (hmem : account_id ∈
      (wallet.executed log_index offset command plan).context.to_be_deleted_account_ids) :
    ∃ account, (wallet.executed log_index offset command plan).statemachine.accounts.get
      account_id = some account ∧ account.state = .Deleted := by
  change ∃ account, (AccountMap.write _ plan.writes).get account_id = _ ∧ _
  rw [AccountMap.get_write]
  obtain hmem | hmem := List.mem_append.mp hmem
  · rw [last_eq_none_of_tombstone hspare hmem, Option.none_or]
    exact htombstones account_id hmem
  · obtain ⟨updated, hwrites⟩ | ⟨deleted, _, _, hwrites⟩ := StateMachine.plan_writes_cases hplan
    · rw [hwrites, AccountWrite.tombstones_map_update] at hmem
      cases hmem
    · rw [hwrites] at hmem ⊢
      have hid : account_id = deleted.account_id := by
        simpa [AccountWrite.tombstones] using hmem
      refine ⟨{ deleted with state := .Deleted }, ?_, rfl⟩
      simp [AccountWrite.last, AccountWrite.account, hid]

end Executed

/-- What holds of a wallet whose executed commands spared the tombstones. -/
structure Wallet.Flushable (wallet : Wallet) : Prop where
  mirrored : wallet.Mirrored
  flushed_le : wallet.context.flushed_applied_index ≤ wallet.statemachine.applied_index
  tombstone_deleted : ∀ account_id ∈ wallet.context.to_be_deleted_account_ids,
    ∃ account, wallet.statemachine.accounts.get account_id = some account ∧
      account.state = .Deleted

namespace Wallet.Flushable

theorem recover_from_db (batch_size : Nat) (db : RocksDBState) :
    (StateMachine.recover_from_db batch_size db).Flushable where
  mirrored := Mirrored.recover_from_db batch_size db
  flushed_le := le_refl _
  tombstone_deleted := by
    intro account_id hmem
    cases hmem

theorem handle_command {wallet next : Wallet} {log_index offset : Nat} {command : Command}
    (hwallet : wallet.Flushable) (hspare : wallet.SparesTombstones B command)
    (hhandle : wallet.handle_command B log_index offset command = some next) :
    next.Flushable := by
  have hmirrored := hwallet.mirrored.handle_command hhandle
  obtain ⟨_, _, _, _, rfl⟩ | ⟨_, _, _, rfl⟩ | ⟨plan, hseq, hplan, rfl⟩ :=
    handle_command_cases B hhandle
  · exact ⟨hmirrored, hwallet.flushed_le, hwallet.tombstone_deleted⟩
  · exact ⟨hmirrored, hwallet.flushed_le, hwallet.tombstone_deleted⟩
  · refine ⟨hmirrored, hwallet.flushed_le, ?_⟩
    intro account_id hmem
    exact executed_tombstone_deleted hplan (hspare plan hseq hplan) hwallet.tombstone_deleted hmem

theorem finish_entry {wallet : Wallet} {log_index : Nat} (hwallet : wallet.Flushable)
    (hflushed : wallet.context.flushed_applied_index ≤ log_index) :
    (wallet.finish_entry log_index).Flushable :=
  ⟨hwallet.mirrored.finish_entry log_index, hflushed, hwallet.tombstone_deleted⟩

theorem flush {wallet next : Wallet} (hflush : wallet.flush = some next) : next.Flushable := by
  have hmirrored := Mirrored.flush hflush
  obtain ⟨_, rfl⟩ := flush_eq_some_iff.mp hflush
  exact ⟨hmirrored, le_refl _, fun _ hmem => by cases hmem⟩

/-- The invariant rule for schedules that spare the tombstones, with a further
property `Inv` of the wallet next to `Flushable`. -/
theorem apply_scheduled {guard : Wallet → Command → Prop} (Inv Mid : Wallet → Prop)
    (hguard : ∀ wallet command, wallet.Flushable → guard wallet command →
      wallet.SparesTombstones B command)
    (henter : ∀ wallet, Inv wallet → Mid wallet)
    (hcommand : ∀ wallet log_index offset command next, wallet.Flushable → Mid wallet →
      wallet.SparesTombstones B command →
      wallet.handle_command B log_index offset command = some next → Mid next)
    (hfinish : ∀ wallet log_index, Mid wallet → Inv (wallet.finish_entry log_index))
    (hflush : ∀ wallet next, wallet.Flushable → Inv wallet → wallet.flush = some next → Inv next)
    {wallet next : Wallet} {item : ScheduledEntry} (hwallet : wallet.Flushable)
    (hinv : Inv wallet) (halong : wallet.EntryAlong B guard item.1)
    (hnext : wallet.apply_scheduled B item = some next) : next.Flushable ∧ Inv next := by
  refine apply_scheduled_invariant (fun wallet => wallet.Flushable ∧ Inv wallet)
    (fun log_index wallet => wallet.Flushable ∧ Mid wallet ∧
      wallet.context.flushed_applied_index ≤ log_index)
    ?_ ?_ ?_ ?_ ⟨hwallet, hinv⟩ halong hnext
  · rintro wallet ⟨hwallet, hinv⟩
    have hflushed := hwallet.flushed_le
    exact ⟨hwallet, henter wallet hinv, by omega⟩
  · rintro wallet log_index offset command next ⟨hwallet, hmid, hflushed⟩ hcommandGuard hhandle
    have hspare := hguard wallet command hwallet hcommandGuard
    refine ⟨hwallet.handle_command hspare hhandle,
      hcommand wallet log_index offset command next hwallet hmid hspare hhandle, ?_⟩
    rw [(handle_command_indices hhandle).2]
    exact hflushed
  · rintro wallet log_index ⟨hwallet, hmid, hflushed⟩
    exact ⟨hwallet.finish_entry hflushed, hfinish wallet log_index hmid⟩
  · rintro wallet next ⟨hwallet, hinv⟩ hnext
    exact ⟨Flushable.flush hnext, hflush wallet next hwallet hinv hnext⟩

end Wallet.Flushable

end firm_wallet.state_machine
