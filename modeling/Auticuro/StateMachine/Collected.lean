import Auticuro.StateMachine.PlanEffects
import Auticuro.StateMachine.WriteBatch

namespace firm_wallet.state_machine

open balance_calculator errors internal_servicepb rocksdb_state

/-- What the log and the flush schedule feed to a replica. -/
inductive Input where
  | entry (entry : Entry)
  | flush
  deriving DecidableEq

def Wallet.apply_input (B : BigDecimal) (self : Wallet) : Input → Option Wallet
  | .entry entry => self.apply_entry B entry
  | .flush => self.flush

/-- A successful reply to this command id was sent. -/
def Wallet.has_emitted (self : Wallet) (command_id : String) : Bool :=
  self.context.inflight_event_tx.any fun inflight =>
    match inflight.event with
    | .ok event => event.header.command_id = command_id
    | .error _ => false

/-- One wallet is another one whose database has lost some events. -/
structure Wallet.Follows (wallet reference : Wallet) : Prop where
  statemachine : reference.statemachine =
    { wallet.statemachine with rocksdb_state := reference.statemachine.rocksdb_state }
  context : reference.context = wallet.context
  events : ∀ n event, wallet.statemachine.rocksdb_state.events.lookup n = some event →
    reference.statemachine.rocksdb_state.events.lookup n = some event
  dedup : ∀ c n, wallet.statemachine.rocksdb_state.dedup.lookup c = some n →
    reference.statemachine.rocksdb_state.dedup.lookup c = some n

/-- The command ids a wallet knows are those of the database it started from
and those it has answered with an event. -/
def Wallet.KnowsOnly (db : RocksDBState) (wallet : Wallet) : Prop :=
  ∀ c n, wallet.statemachine.get_seq_num c = some n →
    (db.dedup.lookup c).isSome ∨ wallet.has_emitted c

variable {B : BigDecimal} {db : RocksDBState} {wallet reference : Wallet}

namespace Wallet.Follows

theorem refl (wallet : Wallet) : wallet.Follows wallet :=
  ⟨rfl, rfl, fun _ _ hevent => hevent, fun _ _ hdedup => hdedup⟩

section

variable (hfollows : wallet.Follows reference)
include hfollows

theorem get_event {seq_num : Nat} {event : Event}
    (hevent : wallet.statemachine.get_event seq_num = some event) :
    reference.statemachine.get_event seq_num = some event := by
  rw [StateMachine.get_event_eq_or, Option.or_eq_some_iff] at hevent ⊢
  have hcache : reference.statemachine.event_cache = wallet.statemachine.event_cache := by
    rw [hfollows.statemachine]
  rw [hcache]
  obtain hcached | ⟨hcached, hread⟩ := hevent
  · exact .inl hcached
  · exact .inr ⟨hcached, hfollows.events seq_num event hread⟩

theorem get_seq_num {command_id : String} {seq_num : Nat}
    (hfound : wallet.statemachine.get_seq_num command_id = some seq_num) :
    reference.statemachine.get_seq_num command_id = some seq_num := by
  rw [StateMachine.get_seq_num_eq_or, Option.or_eq_some_iff] at hfound ⊢
  have hcache : reference.statemachine.seq_num_cache = wallet.statemachine.seq_num_cache := by
    rw [hfollows.statemachine]
  rw [hcache]
  obtain hcached | ⟨hcached, hread⟩ := hfound
  · exact .inl hcached
  · exact .inr ⟨hcached, hfollows.dedup command_id seq_num hread⟩

theorem mirrored (hwallet : wallet.Mirrored) : reference.Mirrored := by
  obtain ⟨hevents, hdedup, hfirst⟩ := hwallet
  refine ⟨?_, ?_, ?_⟩
  · rw [hfollows.context, hfollows.statemachine]
    exact hevents
  · rw [hfollows.context, hfollows.statemachine]
    exact hdedup
  · rw [hfollows.context]
    exact hfirst

theorem plan (payload : CommandPayload) :
    reference.statemachine.plan B payload = wallet.statemachine.plan B payload := by
  apply StateMachine.plan_congr
  intro account_id _
  rw [hfollows.statemachine]

theorem send_event (position : Position) (reply : GeneralResult Event) :
    (wallet.send_event position reply).Follows (reference.send_event position reply) := by
  refine ⟨hfollows.statemachine, ?_, hfollows.events, hfollows.dedup⟩
  unfold Wallet.send_event
  rw [hfollows.context]

theorem handle_new_command (log_index offset : Nat) (command : Command) :
    (wallet.handle_new_command B log_index offset command).Follows
      (reference.handle_new_command B log_index offset command) := by
  rw [Wallet.handle_new_command_eq, Wallet.handle_new_command_eq, hfollows.plan]
  cases wallet.statemachine.plan B command.payload with
  | error e => exact hfollows.send_event _ _
  | ok plan =>
    refine ⟨?_, ?_, hfollows.events, hfollows.dedup⟩
    · unfold executed
      rw [hfollows.statemachine]
    · unfold executed
      rw [hfollows.context, hfollows.statemachine]

theorem finish_entry (log_index : Nat) :
    (wallet.finish_entry log_index).Follows (reference.finish_entry log_index) := by
  refine ⟨?_, ?_, hfollows.events, hfollows.dedup⟩
  · unfold Wallet.finish_entry
    rw [hfollows.statemachine]
  · unfold Wallet.finish_entry
    rw [hfollows.context, hfollows.statemachine]

theorem flush (hwallet : wallet.Mirrored) {next : Wallet} (hflush : wallet.flush = some next) :
    ∃ reference', reference.flush = some reference' ∧ next.Follows reference' := by
  have hreference := hfollows.mirrored hwallet
  obtain ⟨happlied, rfl⟩ := flush_eq_some_iff.mp hflush
  have happlied' : reference.statemachine.applied_index >
      reference.context.flushed_applied_index := by
    rw [hfollows.context, hfollows.statemachine]
    exact happlied
  refine ⟨_, flush_eq_some_iff.mpr ⟨happlied', rfl⟩, ?_, ?_, ?_, ?_⟩
  · rw [hfollows.context, hfollows.statemachine]
  · rw [hfollows.context, hfollows.statemachine]
  · intro n event hevent
    have hbefore : wallet.statemachine.get_event n = some event := by
      rw [StateMachine.get_event_eq_or, ← hwallet.events]
      exact hevent
    have hafter := hfollows.get_event hbefore
    rw [StateMachine.get_event_eq_or, ← hreference.events] at hafter
    exact hafter
  · intro c n hdedup
    have hbefore : wallet.statemachine.get_seq_num c = some n := by
      rw [StateMachine.get_seq_num_eq_or, ← hwallet.dedup]
      exact hdedup
    have hafter := hfollows.get_seq_num hbefore
    rw [StateMachine.get_seq_num_eq_or, ← hreference.dedup] at hafter
    exact hafter

end

end Wallet.Follows

namespace Wallet.KnowsOnly

theorem recover_from_db (batch_size : Nat) (db : RocksDBState) :
    Wallet.KnowsOnly db (StateMachine.recover_from_db batch_size db) := by
  intro c n hfound
  rw [StateMachine.get_seq_num_eq_or] at hfound
  change ((∅ : Finmap fun _ : String => SequenceNumber).lookup c).or (db.dedup.lookup c) =
    some n at hfound
  rw [Finmap.lookup_empty, Option.none_or] at hfound
  exact .inl (by rw [hfound]; rfl)

theorem send_event (hknows : wallet.KnowsOnly db) (position : Position)
    (reply : GeneralResult Event) : (wallet.send_event position reply).KnowsOnly db := by
  intro c n hfound
  obtain hstart | hemitted := hknows c n hfound
  · exact .inl hstart
  · refine .inr ?_
    unfold has_emitted Wallet.send_event
    rw [List.any_append, Bool.or_eq_true]
    exact .inl hemitted

theorem handle_new_command (hknows : wallet.KnowsOnly db) (log_index offset : Nat)
    (command : Command) :
    (wallet.handle_new_command B log_index offset command).KnowsOnly db := by
  rw [Wallet.handle_new_command_eq]
  cases wallet.statemachine.plan B command.payload with
  | error e => exact hknows.send_event _ _
  | ok plan =>
    intro c n hfound
    change (wallet.executed log_index offset command plan).statemachine.get_seq_num c = _ at hfound
    rw [executed_get_seq_num] at hfound
    unfold has_emitted executed
    rw [List.any_append, Bool.or_eq_true]
    split at hfound
    · rename_i hc
      refine .inr (.inr ?_)
      simp [Plan.event, hc, Command.command_id]
    · obtain hstart | hemitted := hknows c n hfound
      · exact .inl hstart
      · exact .inr (.inl hemitted)

theorem flush (hknows : wallet.KnowsOnly db) (hwallet : wallet.Mirrored) {next : Wallet}
    (hflush : wallet.flush = some next) : next.KnowsOnly db := by
  intro c n hfound
  rw [flush_get_seq_num hflush hwallet] at hfound
  obtain ⟨_, rfl⟩ := flush_eq_some_iff.mp hflush
  exact hknows c n hfound

end Wallet.KnowsOnly

end firm_wallet.state_machine
