import Auticuro.Ledger

open Run

namespace firm_wallet.state_machine

open accountpb errors balance_calculator internal_servicepb rocksdb_state ledger

/-- The ledger a wallet stands for. -/
def Wallet.view (self : Wallet) : Ledger :=
  { accounts := self.live,
    applied_index := self.statemachine.applied_index,
    last_seq_num := self.statemachine.last_seq_num,
    seq_num_of := self.statemachine.get_seq_num,
    event_at := self.statemachine.get_event,
    replies := self.context.inflight_event_tx }

/-- A new command names no account deleted since the last flush. -/
def Wallet.AvoidsTombstones (wallet : Wallet) (command : Command) : Prop :=
  wallet.statemachine.get_seq_num command.command_id = none →
    ∀ account_id ∈ command.payload.account_ids,
      account_id ∉ wallet.context.to_be_deleted_account_ids

instance (wallet : Wallet) (command : Command) : Decidable (wallet.AvoidsTombstones command) :=
  inferInstanceAs (Decidable (_ → _))

variable {B : BigDecimal} {wallet : Wallet}

theorem Wallet.plan_live {payload : CommandPayload} (hnamed : ∀ account_id ∈ payload.account_ids,
      account_id ∉ wallet.context.to_be_deleted_account_ids) :
    (holding wallet.live).plan B payload = wallet.statemachine.plan B payload := by
  apply StateMachine.plan_congr
  intro account_id hmem
  change wallet.live.get account_id = _
  rw [wallet.get_live, if_neg (hnamed account_id hmem)]

theorem Wallet.AvoidsTombstones.spares {command : Command}
    (havoid : wallet.AvoidsTombstones command) : wallet.SparesTombstones B command := by
  intro plan hseq hplan write hwrite
  exact havoid hseq _ (StateMachine.plan_writes_named hplan write hwrite)

theorem Wallet.executed_view {log_index offset : Nat} {command : Command} {plan : Plan}
    (hplan : wallet.statemachine.plan B command.payload = .ok plan) (hspare : ∀ write ∈ plan.writes,
      write.account.account_id ∉ wallet.context.to_be_deleted_account_ids) :
    (wallet.executed log_index offset command plan).view =
      wallet.view.execute log_index offset command plan := by
  have hseq := funext (wallet.executed_get_seq_num log_index offset command plan)
  have hevent := funext (wallet.executed_get_event log_index offset command plan)
  unfold view Ledger.execute
  rw [executed_live hplan hspare, hseq, hevent]
  rfl

/-- One command: as long as it names no tombstone, a wallet handles it the way
its ledger does, replies and panics included. -/
theorem Wallet.handle_command_view {log_index offset : Nat} {command : Command}
    (havoid : wallet.AvoidsTombstones command) :
    (wallet.handle_command B log_index offset command).map view =
      wallet.view.handle_command B log_index offset command := by
  cases hhandle : wallet.handle_command B log_index offset command with
  | none =>
    obtain ⟨seq_num, hseq, hevent⟩ := (handle_command_eq_none_iff B).mp hhandle
    simp [Ledger.handle_command, view, hseq, hevent]
  | some next =>
    obtain ⟨seq_num, event, hseq, hevent, rfl⟩ | ⟨e, hseq, hplan, rfl⟩ | ⟨plan, hseq, hplan, rfl⟩ :=
      handle_command_cases B hhandle
    · simp only [Ledger.handle_command, view, hseq, hevent]
      rfl
    · have hlive := plan_live (B := B) (havoid hseq)
      simp only [Ledger.handle_command, view, hseq, hlive, hplan]
      rfl
    · have hlive := plan_live (B := B) (havoid hseq)
      simp only [Option.map_some, executed_view hplan (havoid.spares plan hseq hplan)]
      simp only [Ledger.handle_command, view, hseq, hlive, hplan]

end firm_wallet.state_machine
