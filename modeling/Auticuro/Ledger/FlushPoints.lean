import Auticuro.Decimal
import Auticuro.Ledger.Refinement

open Run

namespace firm_wallet.state_machine

open accountpb errors balance_calculator account_management_servicepb internal_servicepb
open rocksdb_state ledger

variable {B : BigDecimal}

/-- A flush changes where things are kept, not what the ledger is. -/
theorem Wallet.flush_view {wallet next : Wallet} (hwallet : wallet.Mirrored)
    (hflush : wallet.flush = some next) : next.view = wallet.view := by
  have hseq := funext (flush_get_seq_num hflush hwallet)
  have hevent := funext (flush_get_event hflush hwallet)
  unfold view
  rw [hseq, hevent]
  obtain ⟨_, rfl⟩ := flush_eq_some_iff.mp hflush
  rfl

variable {wallet : Wallet}

theorem Wallet.handle_commands_view {log_index : Nat} {commands : List (Command × Nat)}
    (hwallet : wallet.Flushable)
    (halong : Along (fun wallet item => wallet.handle_command B log_index item.2 item.1)
      (fun wallet item => wallet.AvoidsTombstones item.1) wallet commands) :
    (wallet.handle_commands B log_index commands).map view =
      run (fun ledger item => ledger.handle_command B log_index item.2 item.1) wallet.view
        commands := by
  have hrefines := run_refines
    (fun ledger (item : Command × Nat) => Ledger.handle_command B ledger log_index item.2 item.1)
    view id (fun _ _ _ havoid => handle_command_view havoid)
    (fun _ _ _ hinv havoid hnext => hinv.handle_command havoid.spares hnext) hwallet halong
  rw [List.map_id] at hrefines
  exact hrefines

theorem Wallet.apply_entry_view {entry : Entry} (hwallet : wallet.Flushable)
    (halong : wallet.EntryAlong B AvoidsTombstones entry) :
    (wallet.apply_entry B entry).map view = wallet.view.apply_entry B entry := by
  rw [apply_entry_eq]
  unfold Ledger.apply_entry
  rw [← handle_commands_view hwallet halong]
  change Option.map view (if _ then _ else _) =
    if wallet.statemachine.applied_index + 1 = entry.1 then _ else _
  split
  · rw [Option.map_map, Option.map_map]
    rfl
  · rfl

theorem Wallet.Flushable.apply_avoiding {wallet next : Wallet} {item : ScheduledEntry}
    (hwallet : wallet.Flushable) (halong : wallet.EntryAlong B AvoidsTombstones item.1)
    (hnext : wallet.apply_scheduled B item = some next) : next.Flushable := by
  obtain ⟨hflushable, _⟩ := hwallet.apply_scheduled (fun _ => True) (fun _ => True)
    (fun _ _ _ havoid => havoid.spares) (fun _ _ => trivial) (fun _ _ _ _ _ _ _ _ _ => trivial)
    (fun _ _ _ => trivial) (fun _ _ _ _ _ => trivial) trivial halong hnext
  exact hflushable

/-- One scheduled entry: whether or not it is followed by a flush, the ledger
moves the same way. -/
theorem Wallet.apply_scheduled_view {item : ScheduledEntry} (hwallet : wallet.Flushable)
    (halong : wallet.EntryAlong B AvoidsTombstones item.1) :
    (wallet.apply_scheduled B item).map view = wallet.view.apply_entry B item.1 := by
  rw [← apply_entry_view hwallet halong]
  unfold apply_scheduled
  cases hentry : wallet.apply_entry B item.1 with
  | none => rfl
  | some middle =>
    change (if item.2 then middle.flush else some middle).map view = some middle.view
    split
    · have hscheduled : wallet.apply_scheduled B (item.1, false) = some middle :=
        (wallet.apply_scheduled_without_flush item.1).trans hentry
      have hmiddle : middle.Flushable :=
        hwallet.apply_avoiding (show wallet.EntryAlong B AvoidsTombstones (item.1, false).1
          from halong) hscheduled
      have happlied : middle.statemachine.applied_index > middle.context.flushed_applied_index := by
        obtain ⟨happlied, hflushed⟩ := apply_entry_indices hentry
        have hle := hwallet.flushed_le
        omega
      obtain ⟨next, hflush⟩ : ∃ next, middle.flush = some next :=
        ⟨_, flush_eq_some_iff.mpr ⟨happlied, rfl⟩⟩
      rw [hflush, Option.map_some, flush_view hmiddle.mirrored hflush]
    · rfl

/-- The wallet refines the ledger: as long as no new command names a tombstone,
a wallet with its caches, batches and flushes does what the ledger does. -/
theorem Wallet.apply_schedule_view {schedule : List ScheduledEntry} (hwallet : wallet.Flushable)
    (halong : wallet.ScheduleAlong B AvoidsTombstones schedule) :
    (wallet.apply_schedule B schedule).map view =
      wallet.view.apply_log B (schedule.map Prod.fst) :=
  run_refines (Ledger.apply_entry B) view Prod.fst
    (fun _ _ hinv havoid => apply_scheduled_view hinv havoid)
    (fun _ _ _ hinv havoid hnext => hinv.apply_avoiding havoid hnext) hwallet halong

/-- What a run shows to the outside: the replies it gave, the last sequence
number, and the accounts that are not in state Deleted. -/
structure Observation where
  emitted : List InflightEvent
  last_seq_num : Nat
  undeleted : String → Option Account

def Wallet.observe (self : Wallet) : Observation :=
  { emitted := self.context.inflight_event_tx,
    last_seq_num := self.statemachine.last_seq_num,
    undeleted := fun account_id =>
      (self.statemachine.accounts.get account_id).filter fun account => account.state ≠ .Deleted }

def Ledger.observe (self : Ledger) : Observation :=
  { emitted := self.replies,
    last_seq_num := self.last_seq_num,
    undeleted := fun account_id =>
      (self.accounts.get account_id).filter fun account => account.state ≠ .Deleted }

/-- The tombstones are all Deleted, so that dropping them shows nothing. -/
theorem Wallet.Flushable.observe_view (hwallet : wallet.Flushable) :
    Ledger.observe wallet.view = wallet.observe := by
  unfold Ledger.observe observe
  congr 1
  funext account_id
  change (wallet.live.get account_id).filter _ = _
  rw [get_live]
  split
  · rename_i htombstone
    rw [Option.filter_none, eq_comm, Option.filter_eq_none_iff]
    intro account hget
    obtain ⟨tombstone, htombstoneGet, hdeleted⟩ := hwallet.tombstone_deleted account_id htombstone
    cases htombstoneGet.symm.trans hget
    simp [hdeleted]
  · rfl

theorem Wallet.apply_schedule_observe {schedule : List ScheduledEntry} (hwallet : wallet.Flushable)
    (halong : wallet.ScheduleAlong B AvoidsTombstones schedule) :
    (wallet.apply_schedule B schedule).map observe =
      (wallet.view.apply_log B (schedule.map Prod.fst)).map Ledger.observe := by
  rw [← apply_schedule_view hwallet halong, Option.map_map]
  cases hrun : wallet.apply_schedule B schedule with
  | none => rfl
  | some last =>
    have hlast : last.Flushable :=
      run_invariant_along (fun _ _ _ hinv havoid hnext => hinv.apply_avoiding havoid hnext)
        hwallet halong hrun
    exact congrArg some hlast.observe_view.symm

/-- Flush points are unobservable as long as no new command names an account
that the replica has deleted since its last flush: from one database and one
log, any two flush schedules give the same replies, the same last sequence
number and the same accounts up to Deleted ones, and panic alike. -/
theorem Wallet.flush_points_unobservable (B : BigDecimal) (batch_size : Nat) (db : RocksDBState)
    (left right : List ScheduledEntry) (hlog : left.map Prod.fst = right.map Prod.fst)
    (hleft : (StateMachine.recover_from_db batch_size db).ScheduleAlong B AvoidsTombstones left)
    (hright : (StateMachine.recover_from_db batch_size db).ScheduleAlong B AvoidsTombstones
      right) :
    ((StateMachine.recover_from_db batch_size db).apply_schedule B left).map observe =
      ((StateMachine.recover_from_db batch_size db).apply_schedule B right).map observe := by
  have hstart := Flushable.recover_from_db batch_size db
  rw [apply_schedule_observe hstart hleft, apply_schedule_observe hstart hright, hlog]

theorem Wallet.flush_points_unobservable_other_account :
    ((StateMachine.recover_from_db 100 RocksDBState.empty).apply_schedule plainDecimal
        [((6, [createAccount "1" "a"]), true), ((7, [deleteAccount "2" "a"]), false),
          ((8, [createAccount "3" "b"]), true)]).map observe =
      ((StateMachine.recover_from_db 100 RocksDBState.empty).apply_schedule plainDecimal
        [((6, [createAccount "1" "a"]), false), ((7, [deleteAccount "2" "a"]), true),
          ((8, [createAccount "3" "b"]), false)]).map observe :=
  flush_points_unobservable plainDecimal 100 RocksDBState.empty _ _ rfl (by decide) (by decide)

/-- Creating an account again after its deletion fails while the tombstone is
in memory and succeeds once a flush has dropped it. -/
theorem Wallet.flush_points_observable_by_recreation :
    ∃ left right : List ScheduledEntry, left.map Prod.fst = right.map Prod.fst ∧
      ((StateMachine.recover_from_db 100 RocksDBState.empty).apply_schedule plainDecimal
          left).map observe ≠
        ((StateMachine.recover_from_db 100 RocksDBState.empty).apply_schedule plainDecimal
          right).map observe := by
  refine ⟨[((6, [createAccount "1" "a"]), false), ((7, [deleteAccount "2" "a"]), false),
      ((8, [createAccount "3" "a"]), false)],
    [((6, [createAccount "1" "a"]), false), ((7, [deleteAccount "2" "a"]), true),
      ((8, [createAccount "3" "a"]), false)], rfl, ?_⟩
  intro hsame
  have hnumbers := congrArg (Option.map Observation.last_seq_num) hsame
  revert hnumbers
  decide

end firm_wallet.state_machine
