import Auticuro.Decimal
import Auticuro.StateMachine.Steps

open Exec

namespace firm_wallet.state_machine

open errors balance_calculator balance_operation_servicepb internal_servicepb rocksdb_state

/-- A handler that fails returns the wallet it was given: no account, counter,
batch or tombstone written on the way to the failing check is left behind. -/
theorem handle_payload_error_unchanged (B : BigDecimal) {payload : CommandPayload}
    {log_index offset : Nat} {wallet after : Wallet} {e : GeneralError}
    (hexec : exec (handle_payload B payload log_index offset) wallet = (.error e, after)) :
    after = wallet := by
  rw [handle_payload_eq_perform] at hexec
  unfold Wallet.perform at hexec
  cases hplan : wallet.statemachine.plan B payload with
  | error e =>
    simp only [hplan, Prod.mk.injEq] at hexec
    exact hexec.2.symm
  | ok plan => simp [hplan] at hexec

/-- Handling a command sends exactly one reply, at the command's position. When
the reply is an error, whether from a handler or from a conflicting duplicate,
the state machine and the rest of the context are exactly as before. -/
theorem Wallet.failed_command_changes_nothing (B : BigDecimal) (self next : Wallet)
    (log_index offset : Nat) (command : Command)
    (hhandle : self.handle_command B log_index offset command = some next) :
    ∃ reply, next.context.inflight_event_tx =
        self.context.inflight_event_tx ++ [⟨⟨log_index, offset⟩, reply⟩] ∧
      ∀ e, reply = .error e →
        next.statemachine = self.statemachine ∧
        next.context = { self.context with
          inflight_event_tx := self.context.inflight_event_tx ++
            [⟨⟨log_index, offset⟩, .error e⟩] } := by
  obtain ⟨seq_num, event, _, _, rfl⟩ | ⟨e, _, _, rfl⟩ | ⟨plan, _, _, rfl⟩ :=
    handle_command_cases B hhandle
  · refine ⟨_, rfl, ?_⟩
    intro e hreply
    rw [hreply]
    exact ⟨rfl, rfl⟩
  · refine ⟨_, rfl, ?_⟩
    rintro _ ⟨⟩
    exact ⟨rfl, rfl⟩
  · refine ⟨_, rfl, ?_⟩
    rintro _ ⟨⟩

/-- A transfer whose amount does not parse. -/
def unparsableTransfer : Command :=
  { header := { command_id := "c" },
    payload := .transfer_request
      { transfer_spec := some { amount := "x", from_account_id := "a", to_account_id := "b" } } }

theorem Wallet.failed_command_changes_nothing_unparsable :
    ∃ next, (StateMachine.recover_from_db 100 RocksDBState.empty).handle_command plainDecimal
        6 0 unparsableTransfer = some next ∧
      next.statemachine = (StateMachine.recover_from_db 100 RocksDBState.empty).statemachine := by
  refine ⟨_, rfl, ?_⟩
  obtain ⟨reply, hreply, hunchanged⟩ := failed_command_changes_nothing plainDecimal
    (StateMachine.recover_from_db 100 RocksDBState.empty) _ 6 0 unparsableTransfer rfl
  obtain ⟨⟩ := hreply
  exact (hunchanged _ rfl).1

end firm_wallet.state_machine
