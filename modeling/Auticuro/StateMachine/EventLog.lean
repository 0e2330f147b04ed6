import Auticuro.Gc
import Auticuro.Library.Segment
import Auticuro.StateMachine.PlanSpec
import Auticuro.StateMachine.WriteBatch

namespace firm_wallet

open balance_calculator internal_servicepb commonpb rocksdb_state gc

namespace rocksdb_state

/-- The number an event is stored under stands in both of its headers. -/
def Numbered (seq_num : Nat) (event : Event) : Prop :=
  event.header.seq_num = seq_num ∧ event.payload.response_header.seq_num = seq_num

/-- A stretch of the event log with its part of the dedup table. -/
abbrev LogSegment (events : Nat → Option Event) (dedup : String → Option Nat)
    (first next : Nat) : Prop :=
  Segment (fun event => event.header.command_id) Numbered events dedup first next

/-- The persisted part of such a stretch, up to the last persisted number. -/
abbrev RocksDBState.LogFrom (db : RocksDBState) (first : Nat) : Prop :=
  LogSegment (fun n => db.events.lookup n) (fun c => db.dedup.lookup c) first
    (db.last_seq_num + 1)

/-- The database holds the events from the first to the last persisted number. -/
structure RocksDBState.EventLog (db : RocksDBState) : Prop where
  segment : db.LogFrom (max 1 db.first_seq_num)
  first_le : db.first_seq_num ≤ db.last_seq_num

theorem RocksDBState.EventLog.empty : RocksDBState.empty.EventLog where
  segment := Segment.empty (fun _ => Finmap.lookup_empty _) (fun _ => Finmap.lookup_empty _)
  first_le := le_refl _

/-- No event is stored below this number. -/
def RocksDBState.NothingBelow (db : RocksDBState) (seq_num : Nat) : Prop :=
  ∀ n, n < seq_num → db.events.lookup n = none

/-- The database holds the events from some number to the last persisted one.
The first persisted number is not above it, but it can fall behind: the
collector's sums wrap around. -/
structure RocksDBState.HoldsLog (db : RocksDBState) : Prop where
  segment : ∃ first, 1 ≤ first ∧ first ≤ db.last_seq_num + 1 ∧ db.LogFrom first
  below : db.NothingBelow db.first_seq_num
  first_le : db.first_seq_num ≤ db.last_seq_num

theorem RocksDBState.EventLog.nothingBelow {db : RocksDBState} (hdb : db.EventLog) {seq_num : Nat}
    (hle : seq_num ≤ max 1 db.first_seq_num) : db.NothingBelow seq_num := by
  intro n hn
  exact hdb.segment.eq_none_of_not_range (by omega)

theorem RocksDBState.EventLog.holds {db : RocksDBState} (hdb : db.EventLog) : db.HoldsLog where
  segment := by
    have hle := hdb.first_le
    exact ⟨max 1 db.first_seq_num, by omega, by omega, hdb.segment⟩
  below := hdb.nothingBelow (le_max_right _ _)
  first_le := hdb.first_le

theorem RocksDBState.HoldsLog.empty : RocksDBState.empty.HoldsLog :=
  RocksDBState.EventLog.empty.holds

namespace RocksDBState.HoldsLog

variable {db : RocksDBState} (hdb : db.HoldsLog)
include hdb

theorem bounds {seq_num : Nat} {event : Event} (hevent : db.events.lookup seq_num = some event) :
    1 ≤ seq_num ∧ seq_num ≤ db.last_seq_num := by
  obtain ⟨first, hpos, _, hsegment⟩ := hdb.segment
  obtain ⟨hlow, hhigh⟩ := hsegment.lt_next hevent
  omega

theorem valid {seq_num : Nat} {event : Event} (hevent : db.events.lookup seq_num = some event) :
    Numbered seq_num event := by
  obtain ⟨_, _, _, hsegment⟩ := hdb.segment
  exact hsegment.valid seq_num event hevent

/-- Real events are numbered from 1. -/
theorem nothingBelow_max : db.NothingBelow (max db.first_seq_num 1) := by
  intro n hn
  by_cases hfirst : n < db.first_seq_num
  · exact hdb.below n hfirst
  · obtain ⟨first, hpos, _, hsegment⟩ := hdb.segment
    exact hsegment.eq_none_of_not_range (by omega)

end RocksDBState.HoldsLog

section Batch

variable {db : RocksDBState} {from_seq_num to_seq_num : Nat}

/-- A batch below which there is nothing takes the first events off the log. -/
theorem RocksDBState.LogFrom.gc_batch {first : Nat} (hsegment : db.LogFrom first)
    (hbelow : db.NothingBelow from_seq_num) :
    (EventLogGCLoop.gc_batch from_seq_num to_seq_num db).LogFrom (max first to_seq_num) := by
  unfold RocksDBState.LogFrom
  rw [EventLogGCLoop.gc_batch_last_seq_num]
  refine hsegment.drop hbelow (EventLogGCLoop.gc_batch_events _ _ db) ?_ ?_
  · intro n event hlow hhigh hevent
    exact EventLogGCLoop.gc_batch_dedup_gone hlow hhigh hevent
  · intro command_id hkept
    exact EventLogGCLoop.gc_batch_dedup_kept hkept

theorem RocksDBState.NothingBelow.gc_batch (hbelow : db.NothingBelow from_seq_num) :
    (EventLogGCLoop.gc_batch from_seq_num to_seq_num db).NothingBelow to_seq_num := by
  intro n hn
  rw [EventLogGCLoop.gc_batch_events]
  split
  · rfl
  · exact hbelow n (by omega)

theorem RocksDBState.HoldsLog.gc_batch (hdb : db.HoldsLog) (hbelow : db.NothingBelow from_seq_num)
    (hto : to_seq_num ≤ db.last_seq_num) :
    (EventLogGCLoop.gc_batch from_seq_num to_seq_num db).HoldsLog := by
  obtain ⟨first, hpos, hle, hsegment⟩ := hdb.segment
  refine ⟨⟨max first to_seq_num, by omega, ?_, hsegment.gc_batch hbelow⟩, ?_, ?_⟩
  · rw [EventLogGCLoop.gc_batch_last_seq_num]
    omega
  · rw [EventLogGCLoop.gc_batch_first_seq_num]
    exact hbelow.gc_batch
  · rw [EventLogGCLoop.gc_batch_first_seq_num, EventLogGCLoop.gc_batch_last_seq_num]
    exact hto

/-- A batch that starts at the first persisted number and does not end below it
keeps that number exact. -/
theorem RocksDBState.EventLog.gc_batch (hdb : db.EventLog)
    (hfrom : max 1 from_seq_num = max 1 db.first_seq_num) (hle : from_seq_num ≤ max 1 to_seq_num)
    (hto : to_seq_num ≤ db.last_seq_num) :
    (EventLogGCLoop.gc_batch from_seq_num to_seq_num db).EventLog := by
  have hfirst : max (max 1 db.first_seq_num) to_seq_num = max 1 to_seq_num := by omega
  have hsegment : (EventLogGCLoop.gc_batch from_seq_num to_seq_num db).LogFrom _ :=
    RocksDBState.LogFrom.gc_batch hdb.segment (hdb.nothingBelow (by omega))
  rw [hfirst] at hsegment
  refine ⟨?_, ?_⟩
  · rwa [EventLogGCLoop.gc_batch_first_seq_num]
  · rwa [EventLogGCLoop.gc_batch_first_seq_num, EventLogGCLoop.gc_batch_last_seq_num]

end Batch

end rocksdb_state

namespace state_machine

/-- The event of a plan carries the response header it is given. -/
theorem StateMachine.plan_response_header {B : BigDecimal} {self : StateMachine}
    {payload : CommandPayload} {plan : Plan} (hplan : self.plan B payload = .ok plan)
    (header : ResponseHeader) : (plan.payload header).response_header = header := by
  cases payload with
  | transfer_request request =>
    obtain ⟨_, _, _, _, _, _, _, _, rfl⟩ := plan_transfer_ok hplan
    rfl
  | batch_balance_operation_request request =>
    obtain ⟨_, _, rfl⟩ := plan_batch_ok hplan
    rfl
  | reserve_request request =>
    obtain ⟨_, _, _, _, rfl⟩ := plan_reserve_ok hplan
    rfl
  | release_request request =>
    obtain ⟨_, _, _, _, rfl⟩ := plan_release_ok hplan
    rfl
  | create_account_request request =>
    obtain ⟨_, rfl⟩ := plan_create_ok hplan
    rfl
  | delete_account_request request =>
    obtain ⟨_, _, _, _, rfl⟩ := plan_delete_ok hplan
    rfl
  | lock_account_request request =>
    obtain ⟨_, _, _, _, rfl⟩ := plan_lock_ok hplan
    rfl
  | unlock_account_request request =>
    obtain ⟨_, _, _, _, rfl⟩ := plan_unlock_ok hplan
    rfl
  | update_account_config_request request =>
    obtain ⟨_, _, rfl⟩ := plan_update_config_ok hplan
    rfl

/-- The persisted events and the cached ones are two stretches of one log that
meet at the last persisted number. -/
structure StateMachine.EventLog (statemachine : StateMachine) : Prop where
  persisted : statemachine.rocksdb_state.HoldsLog
  cached : LogSegment (fun n => statemachine.event_cache.lookup n)
    (fun c => statemachine.seq_num_cache.lookup c) (statemachine.rocksdb_state.last_seq_num + 1)
    (statemachine.last_seq_num + 1)
  fresh : ∀ c n, statemachine.seq_num_cache.lookup c = some n →
    statemachine.rocksdb_state.dedup.lookup c = none
  last_le : statemachine.rocksdb_state.last_seq_num ≤ statemachine.last_seq_num

namespace StateMachine.EventLog

section Whole

variable {statemachine : StateMachine} (hlog : statemachine.EventLog)
include hlog

/-- What `get_event` and `get_seq_num` see is the whole log, from wherever the
persisted part of it starts. -/
theorem whole_from {first : Nat} (hfirst : first ≤ statemachine.rocksdb_state.last_seq_num + 1)
    (hsegment : statemachine.rocksdb_state.LogFrom first) :
    LogSegment statemachine.get_event statemachine.get_seq_num first
      (statemachine.last_seq_num + 1) := by
  have hlast := hlog.last_le
  exact hsegment.join hlog.cached hfirst (by omega) hlog.fresh statemachine.get_event_eq_or
    statemachine.get_seq_num_eq_or

theorem whole : ∃ first, 1 ≤ first ∧ statemachine.rocksdb_state.first_seq_num ≤ first ∧
    LogSegment statemachine.get_event statemachine.get_seq_num first
      (statemachine.last_seq_num + 1) := by
  obtain ⟨first, hpos, hle, hsegment⟩ := hlog.persisted.segment
  refine ⟨first, hpos, ?_, hlog.whole_from hle hsegment⟩
  by_contra hbehind
  have hfirst := hlog.persisted.first_le
  have hevent := (hsegment.range first).mpr (by omega)
  rw [hlog.persisted.below first (by omega)] at hevent
  cases hevent

theorem valid {seq_num : Nat} {event : Event}
    (hevent : statemachine.get_event seq_num = some event) : Numbered seq_num event := by
  obtain ⟨_, _, _, hwhole⟩ := hlog.whole
  exact hwhole.valid seq_num event hevent

theorem index (command_id : String) (seq_num : Nat) :
    statemachine.get_seq_num command_id = some seq_num ↔
      ∃ event, statemachine.get_event seq_num = some event ∧
        event.header.command_id = command_id := by
  obtain ⟨_, _, _, hwhole⟩ := hlog.whole
  exact hwhole.index command_id seq_num

theorem bounds {seq_num : Nat} {event : Event}
    (hevent : statemachine.get_event seq_num = some event) :
    1 ≤ seq_num ∧ seq_num ≤ statemachine.last_seq_num := by
  obtain ⟨first, hpos, _, hwhole⟩ := hlog.whole
  obtain ⟨hlow, hhigh⟩ := hwhole.lt_next hevent
  omega

theorem eq_of_command_id_eq {left_num right_num : Nat} {left right : Event}
    (hleft : statemachine.get_event left_num = some left)
    (hright : statemachine.get_event right_num = some right)
    (hid : left.header.command_id = right.header.command_id) : left_num = right_num := by
  obtain ⟨_, _, _, hwhole⟩ := hlog.whole
  exact hwhole.eq_of_key_eq hleft hright hid

end Whole

theorem recover_from_db (batch_size : Nat) {db : RocksDBState} (hdb : db.HoldsLog) :
    (StateMachine.recover_from_db batch_size db).statemachine.EventLog where
  persisted := hdb
  cached := Segment.empty (fun _ => Finmap.lookup_empty _) (fun _ => Finmap.lookup_empty _)
  fresh := by
    intro c n hcached
    simp [StateMachine.recover_from_db] at hcached
  last_le := le_refl _

theorem executed {B : BigDecimal} {wallet : Wallet} {log_index offset : Nat} {command : Command}
    {plan : Plan} (hlog : wallet.statemachine.EventLog)
    (hnew : wallet.statemachine.get_seq_num command.command_id = none)
    (hplan : wallet.statemachine.plan B command.payload = .ok plan) :
    (wallet.executed log_index offset command plan).statemachine.EventLog := by
  have hlast := hlog.last_le
  rw [get_seq_num_eq_or, Option.or_eq_none_iff] at hnew
  refine ⟨hlog.persisted, ?_, ?_, ?_⟩
  · refine hlog.cached.append (by omega)
      (plan.event command log_index offset (wallet.statemachine.last_seq_num + 1)) ?_ hnew.1 ?_ ?_
    · exact ⟨rfl, by rw [Plan.event, plan_response_header hplan]; rfl⟩
    · intro n
      exact Finmap.lookup_insert_eq_ite _ _ _ _
    · intro c
      exact Finmap.lookup_insert_eq_ite _ _ _ _
  · intro c n hcached
    change Finmap.lookup c (Finmap.insert _ _ _) = _ at hcached
    rw [Finmap.lookup_insert_eq_ite] at hcached
    split at hcached
    · rename_i hc
      rw [hc]
      exact hnew.2
    · exact hlog.fresh c n hcached
  · change _ ≤ wallet.statemachine.last_seq_num + 1
    exact Nat.le_succ_of_le hlast

section Flush

variable {wallet : Wallet} (hlog : wallet.statemachine.EventLog) (hmirrored : wallet.Mirrored)
include hlog hmirrored

theorem write_opt_nothingBelow {seq_num : Nat}
    (hbelow : wallet.statemachine.rocksdb_state.NothingBelow seq_num)
    (hle : seq_num ≤ wallet.statemachine.rocksdb_state.last_seq_num + 1) :
    (wallet.statemachine.rocksdb_state.write_opt wallet.context.wb).NothingBelow seq_num := by
  intro n hn
  have hcached : wallet.statemachine.event_cache.lookup n = none :=
    hlog.cached.eq_none_of_not_range (by omega)
  rw [hmirrored.events, hcached, Option.none_or]
  exact hbelow n hn

variable (hsettled : (wallet.statemachine.rocksdb_state.write_opt wallet.context.wb).last_seq_num =
  wallet.statemachine.last_seq_num)
include hsettled

/-- A flush persists the cached part of the log, and where the log starts is
not changed. -/
theorem write_opt_logFrom {first : Nat}
    (hfirst : first ≤ wallet.statemachine.rocksdb_state.last_seq_num + 1)
    (hsegment : wallet.statemachine.rocksdb_state.LogFrom first) :
    (wallet.statemachine.rocksdb_state.write_opt wallet.context.wb).LogFrom first := by
  have hlast := hlog.last_le
  unfold RocksDBState.LogFrom
  rw [hsettled]
  exact hsegment.join hlog.cached hfirst (by omega) hlog.fresh (hmirrored.events _)
    (hmirrored.dedup _)

theorem write_opt_holds :
    (wallet.statemachine.rocksdb_state.write_opt wallet.context.wb).HoldsLog := by
  have hlast := hlog.last_le
  have hfirst_le := hlog.persisted.first_le
  have hfirst := hmirrored.write_opt_first_seq_num wallet.statemachine.rocksdb_state
  obtain ⟨first, hpos, hle, hsegment⟩ := hlog.persisted.segment
  refine ⟨⟨first, hpos, by omega, hlog.write_opt_logFrom hmirrored hsettled hle hsegment⟩, ?_, ?_⟩
  · rw [hfirst]
    exact hlog.write_opt_nothingBelow hmirrored hlog.persisted.below (by omega)
  · rw [hfirst, hsettled]
    omega

theorem write_opt_eventLog (hdb : wallet.statemachine.rocksdb_state.EventLog) :
    (wallet.statemachine.rocksdb_state.write_opt wallet.context.wb).EventLog := by
  have hlast := hlog.last_le
  have hfirst_le := hdb.first_le
  have hfirst := hmirrored.write_opt_first_seq_num wallet.statemachine.rocksdb_state
  refine ⟨?_, ?_⟩
  · rw [hfirst]
    exact hlog.write_opt_logFrom hmirrored hsettled (by omega) hdb.segment
  · rw [hfirst, hsettled]
    omega

theorem flush {next : Wallet} (hflush : wallet.flush = some next) : next.statemachine.EventLog := by
  have hdb := hlog.write_opt_holds hmirrored hsettled
  obtain ⟨_, rfl⟩ := Wallet.flush_eq_some_iff.mp hflush
  refine ⟨hdb, ?_, ?_, ?_⟩
  · change LogSegment _ _ (RocksDBState.last_seq_num (RocksDBState.write_opt _ _) + 1) _
    rw [hsettled]
    exact Segment.empty (fun _ => Finmap.lookup_empty _) (fun _ => Finmap.lookup_empty _)
  · intro c n hcached
    simp at hcached
  · exact le_of_eq hsettled

end Flush

/-- The collector leaves the cached events alone. -/
theorem gc_batch {statemachine : StateMachine} (hlog : statemachine.EventLog)
    {from_seq_num to_seq_num : Nat}
    (hbelow : statemachine.rocksdb_state.NothingBelow from_seq_num)
    (hto : to_seq_num ≤ statemachine.rocksdb_state.last_seq_num) :
    { statemachine with
      rocksdb_state := EventLogGCLoop.gc_batch from_seq_num to_seq_num
        statemachine.rocksdb_state }.EventLog := by
  refine ⟨hlog.persisted.gc_batch hbelow hto, ?_, ?_, ?_⟩
  · rw [EventLogGCLoop.gc_batch_last_seq_num]
    exact hlog.cached
  · intro c n hcached
    have hnone := hlog.fresh c n hcached
    cases hdedup : (EventLogGCLoop.gc_batch from_seq_num to_seq_num
        statemachine.rocksdb_state).dedup.lookup c with
    | none => rfl
    | some found =>
      rw [EventLogGCLoop.gc_batch_dedup_some hdedup] at hnone
      cases hnone
  · rw [EventLogGCLoop.gc_batch_last_seq_num]
    exact hlog.last_le

end StateMachine.EventLog

end state_machine

end firm_wallet
