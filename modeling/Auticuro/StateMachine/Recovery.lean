import Auticuro.Decimal
import Auticuro.StateMachine.Tombstones

open Run

namespace firm_wallet.state_machine

open accountpb balance_calculator account_management_servicepb internal_servicepb rocksdb_state

/-- A new UpdateAccountConfig names no account that is in state Deleted. -/
def Wallet.ConfiguresNoDeleted (wallet : Wallet) (command : Command) : Prop :=
  wallet.statemachine.get_seq_num command.command_id = none →
    command.payload.kind = .update_account_config →
    ∀ account_id ∈ command.payload.account_ids,
      ((wallet.statemachine.accounts.get account_id).all fun account => account.state ≠ .Deleted)

instance (wallet : Wallet) (command : Command) : Decidable (wallet.ConfiguresNoDeleted command) :=
  inferInstanceAs (Decidable (_ → _ → _))

variable {B : BigDecimal}

/-- Tombstones are Deleted, so that only UpdateAccountConfig could write one. -/
theorem Wallet.ConfiguresNoDeleted.spares {wallet : Wallet} {command : Command}
    (hwallet : wallet.Flushable) (hconfigures : wallet.ConfiguresNoDeleted command) :
    wallet.SparesTombstones B command := by
  intro plan hseq hplan write hwrite htombstone
  obtain ⟨account, hget, hdeleted⟩ := hwallet.tombstone_deleted _ htombstone
  have hkind := StateMachine.plan_writes_deleted hplan hwrite hget hdeleted
  have hnamed := StateMachine.plan_writes_named hplan write hwrite
  have hkept := hconfigures hseq hkind _ hnamed
  simp [hget, hdeleted] at hkept

/-- The database that the next flush leaves. -/
def Wallet.flushed_db (self : Wallet) : RocksDBState :=
  self.statemachine.rocksdb_state.write_opt self.context.wb

/-- The next flush would leave the accounts that exist, the applied index and
the last sequence number in the database. -/
structure Wallet.Recoverable (wallet : Wallet) : Prop where
  data : wallet.flushed_db.data = wallet.live
  applied_index : wallet.flushed_db.read_hard_state_from_db .APPLIED_INDEX =
    wallet.statemachine.applied_index
  last_seq_num : wallet.flushed_db.read_hard_state_from_db .PERSISTED_LAST_SEQ_NUM =
    wallet.statemachine.last_seq_num

theorem Wallet.Recoverable.recover_from_db (batch_size : Nat) (db : RocksDBState) :
    (StateMachine.recover_from_db batch_size db).Recoverable :=
  ⟨rfl, rfl, rfl⟩

variable {wallet next : Wallet}

theorem Wallet.handle_command_data {log_index offset : Nat} {command : Command}
    (hdata : wallet.flushed_db.data = wallet.live) (hspare : wallet.SparesTombstones B command)
    (hhandle : wallet.handle_command B log_index offset command = some next) :
    next.flushed_db.data = next.live := by
  obtain ⟨_, _, _, _, rfl⟩ | ⟨_, _, _, rfl⟩ | ⟨plan, hseq, hplan, rfl⟩ :=
    handle_command_cases B hhandle
  · exact hdata
  · exact hdata
  · rw [executed_live hplan (hspare plan hseq hplan), ← hdata]
    unfold flushed_db
    rw [write_opt_executed]
    rfl

theorem Wallet.finish_entry_recoverable {wallet : Wallet} (log_index : Nat)
    (hdata : wallet.flushed_db.data = wallet.live) :
    (wallet.finish_entry log_index).Recoverable := by
  have hdb : (wallet.finish_entry log_index).flushed_db = _ :=
    wallet.write_opt_finish_entry log_index wallet.statemachine.rocksdb_state
  refine ⟨?_, ?_, ?_⟩
  · rw [hdb]
    exact hdata
  · rw [hdb]
    rfl
  · rw [hdb]
    rfl

theorem Wallet.flush_recoverable (hwallet : wallet.Recoverable)
    (hflush : wallet.flush = some next) : next.Recoverable := by
  obtain ⟨_, rfl⟩ := flush_eq_some_iff.mp hflush
  exact ⟨hwallet.data, hwallet.applied_index, hwallet.last_seq_num⟩

theorem Wallet.Recoverable.apply_scheduled {item : ScheduledEntry}
    (hwallet : wallet.Flushable ∧ wallet.Recoverable)
    (halong : wallet.EntryAlong B ConfiguresNoDeleted item.1)
    (hnext : wallet.apply_scheduled B item = some next) : next.Flushable ∧ next.Recoverable := by
  refine hwallet.1.apply_scheduled Recoverable (fun wallet => wallet.flushed_db.data = wallet.live)
    (fun _ _ hflushable hconfigures => hconfigures.spares hflushable) (fun _ hinv => hinv.data)
    ?_ ?_ ?_ hwallet.2 halong hnext
  · intro wallet log_index offset command next _ hdata hspare hhandle
    exact handle_command_data hdata hspare hhandle
  · intro wallet log_index hdata
    exact finish_entry_recoverable log_index hdata
  · intro wallet next _ hinv hflush
    exact flush_recoverable hinv hflush

/-- Right after a flush the database holds the whole state machine. -/
theorem Wallet.recover_from_db_of_flush (hwallet : wallet.Recoverable)
    (hflush : wallet.flush = some next) (batch_size : Nat) :
    (StateMachine.recover_from_db batch_size next.statemachine.rocksdb_state).statemachine =
      next.statemachine := by
  obtain ⟨_, rfl⟩ := flush_eq_some_iff.mp hflush
  unfold StateMachine.recover_from_db
  have hdata := hwallet.data
  have happlied := hwallet.applied_index
  have hlast := hwallet.last_seq_num
  unfold flushed_db at hdata happlied hlast
  simp only [RocksDBState.read_accounts_from_db, hdata, happlied, hlast]
  rfl

/-- Recovery reproduces memory as long as no new UpdateAccountConfig names an
account that is in state Deleted: after any schedule from an empty database
that ends with a flush, what `recover_from_db` rebuilds is the state machine in
memory, accounts, indices, numbers and events alike. -/
theorem Wallet.recovery_reproduces_memory (B : BigDecimal) (batch_size : Nat)
    (schedule : List ScheduledEntry) (entry : Entry) (last : Wallet)
    (halong : (StateMachine.recover_from_db batch_size RocksDBState.empty).ScheduleAlong B
      ConfiguresNoDeleted (schedule ++ [(entry, true)]))
    (hrun : (StateMachine.recover_from_db batch_size RocksDBState.empty).apply_schedule B
      (schedule ++ [(entry, true)]) = some last) :
    (StateMachine.recover_from_db batch_size last.statemachine.rocksdb_state).statemachine =
      last.statemachine := by
  obtain ⟨before, hbefore, hlast⟩ := run_append_eq_some_iff.mp hrun
  obtain ⟨halongBefore, halongLast⟩ := along_append halong hbefore
  have hinv : before.Flushable ∧ before.Recoverable :=
    run_invariant_along
      (fun _ _ _ hinv hguard hnext => Recoverable.apply_scheduled hinv hguard hnext)
      ⟨Flushable.recover_from_db batch_size _, Recoverable.recover_from_db batch_size _⟩
      halongBefore hbefore
  obtain ⟨next, hnext, ⟨⟩⟩ := run_cons_eq_some_iff.mp hlast
  obtain ⟨applied, hentry, hflush⟩ := apply_scheduled_eq_some_iff.mp hnext
  have happlied : applied.Flushable ∧ applied.Recoverable :=
    Recoverable.apply_scheduled hinv
      (show before.EntryAlong B ConfiguresNoDeleted (entry, false).1 from halongLast.1)
      ((before.apply_scheduled_without_flush entry).trans hentry)
  exact recover_from_db_of_flush happlied.2 hflush batch_size

theorem Wallet.recovery_reproduces_memory_deleted :
    ∃ last, (StateMachine.recover_from_db 100 RocksDBState.empty).apply_schedule plainDecimal
        ([((6, [createAccount "1" "a", createAccount "2" "b"]), false),
          ((7, [updateAccountConfig "3" "a" "5"]), true)] ++
          [((8, [deleteAccount "4" "a"]), true)]) = some last ∧
      (StateMachine.recover_from_db 100 last.statemachine.rocksdb_state).statemachine =
        last.statemachine := by
  refine ⟨_, rfl, ?_⟩
  exact recovery_reproduces_memory plainDecimal 100
    [((6, [createAccount "1" "a", createAccount "2" "b"]), false),
      ((7, [updateAccountConfig "3" "a" "5"]), true)]
    (8, [deleteAccount "4" "a"]) _ (by decide) rfl

/-- Configuring an account between its deletion and the next flush puts it back
into the database, from which a restart recovers it. -/
theorem Wallet.recovery_revives_configured_tombstone :
    ∃ schedule entry last,
      (StateMachine.recover_from_db 100 RocksDBState.empty).apply_schedule plainDecimal
        (schedule ++ [(entry, true)]) = some last ∧
      (StateMachine.recover_from_db 100
        last.statemachine.rocksdb_state).statemachine.accounts.get "a" ≠
        last.statemachine.accounts.get "a" := by
  refine ⟨[((6, [createAccount "1" "a"]), false), ((7, [deleteAccount "2" "a"]), false)],
    (8, [updateAccountConfig "3" "a" "5"]), _, rfl, ?_⟩
  decide

end firm_wallet.state_machine
