import Auticuro.Node.Invariant
import Auticuro.StateMachine.Recovery

open Run

namespace firm_wallet.node

open balance_calculator errors internal_servicepb rocksdb_state state_machine gc

/-- What a step of a node can do to its wallet, whichever thread takes it. -/
inductive WalletStep (B : BigDecimal) (allowed : Command → Prop) (wallet : Wallet) :
    Wallet → Prop where
  | stay : WalletStep B allowed wallet wallet
  | reply (position : Position) (event : GeneralResult Event) :
      WalletStep B allowed wallet (wallet.send_event position event)
  | execute {log_index offset : Nat} {command : Command} {plan : Plan} (hallowed : allowed command)
      (hnew : wallet.statemachine.get_seq_num command.command_id = none)
      (hplan : wallet.statemachine.plan B command.payload = .ok plan) :
      WalletStep B allowed wallet (wallet.executed log_index offset command plan)
  | finish (log_index : Nat) : WalletStep B allowed wallet (wallet.finish_entry log_index)
  | flush {next : Wallet}
      (hsettled : wallet.flushed_db.last_seq_num = wallet.statemachine.last_seq_num)
      (hflush : wallet.flush = some next) : WalletStep B allowed wallet next
  | collect (from_seq_num to_seq_num : Nat) :
      WalletStep B allowed wallet
        { wallet with
          statemachine :=
            { wallet.statemachine with
              rocksdb_state := EventLogGCLoop.gc_batch from_seq_num to_seq_num
                wallet.statemachine.rocksdb_state } }
  | restart :
      WalletStep B allowed wallet (StateMachine.recover_from_db wallet.context.batch_size
        wallet.statemachine.rocksdb_state)

/-- The command that an action executes, if it executes one: the one in its
check when it is new and accepted. -/
def Node.executes (B : BigDecimal) (self : Node) : Action → Option Command
  | .apply_step => self.apply_thread.current.filter fun command =>
    (self.wallet.statemachine.get_seq_num command.command_id).isNone &&
      (self.wallet.statemachine.plan B command.payload).isOk
  | _ => none

/-- The command that an action accepts, if it accepts one: the one whose check
ends with this action without finding it, when its plan succeeds. -/
def Node.accepts (B : BigDecimal) (self : Node) : Action → Option Command
  | .apply_step =>
    match self.apply_thread with
    | .applying _ ((command, _) :: _) phase =>
      match check_step self.wallet.statemachine command.command_id phase with
      | .fresh => if (self.wallet.statemachine.plan B command.payload).isOk then some command
        else none
      | _ => none
    | _ => none
  | _ => none

variable {B : BigDecimal} {config : Option EventLogGCConfig} {node next : Node}
variable {allowed : Command → Prop} {action : Action} {command : Command}

section Accepts

variable {log_index offset : Nat} {pending : List (Command × Nat)} {phase : CheckPhase}
variable (hthread : node.apply_thread = .applying log_index ((command, offset) :: pending) phase)
include hthread

theorem Node.accepts_of_fresh
    (hcheck : CheckStep node.wallet.statemachine command.command_id phase .fresh) :
    node.accepts B .apply_step =
      if (node.wallet.statemachine.plan B command.payload).isOk then some command else none := by
  simp only [Node.accepts, hthread, hcheck.check_step_eq]

theorem Node.accepts_of_not_fresh {outcome : CheckOutcome}
    (hcheck : CheckStep node.wallet.statemachine command.command_id phase outcome)
    (hother : outcome ≠ .fresh) : node.accepts B .apply_step = none := by
  simp only [Node.accepts, hthread, hcheck.check_step_eq]

end Accepts

/-- A command is accepted when its check ends, and it is then executed. -/
theorem Node.Consistent.accepts_step (hnode : node.Consistent)
    (haccepts : node.accepts B action = some command)
    (hstep : node.step B config action = some next) :
    action = .apply_step ∧ node.apply_thread.current = some command ∧
      ∃ log_index offset plan, node.wallet.statemachine.get_seq_num command.command_id = none ∧
        node.wallet.statemachine.plan B command.payload = .ok plan ∧
        next.wallet = node.wallet.executed log_index offset command plan := by
  cases Node.step_spec hstep with
  | @fresh log_index offset current pending phase hthread hcheck =>
    have hnew := hnode.get_seq_num_of_fresh hthread hcheck
    rw [Node.accepts_of_fresh hthread hcheck] at haccepts
    cases hplan : node.wallet.statemachine.plan B current.payload with
    | error e =>
      rw [hplan] at haccepts
      cases haccepts
    | ok plan =>
      rw [hplan] at haccepts
      cases haccepts
      refine ⟨rfl, by rw [hthread]; rfl, log_index, offset, plan, hnew, hplan, ?_⟩
      change node.wallet.handle_new_command B log_index offset command = _
      rw [Wallet.handle_new_command_eq, hplan]
  | finish hthread => simp [Node.accepts, hthread] at haccepts
  | proceed hthread hcheck | duplicate hthread hcheck | missing hthread hcheck =>
    cases (Node.accepts_of_not_fresh hthread hcheck (by simp)).symm.trans haccepts
  | _ => cases haccepts

theorem Node.Consistent.accepted_wallet_step (hnode : node.Consistent)
    (hallowed : ∀ command ∈ node.accepts B action, allowed command)
    (hstep : node.step B config action = some next) :
    WalletStep B allowed node.wallet next.wallet := by
  cases Node.step_spec hstep with
  | receive => exact .stay
  | @finish log_index => exact .finish log_index
  | proceed => exact .stay
  | duplicate => exact .reply _ _
  | @fresh log_index offset command pending phase hthread hcheck =>
    have hnew := hnode.get_seq_num_of_fresh hthread hcheck
    change WalletStep B allowed node.wallet
      (node.wallet.handle_new_command B log_index offset command)
    rw [Wallet.handle_new_command_eq]
    cases hplan : node.wallet.statemachine.plan B command.payload with
    | error e => exact .reply _ _
    | ok plan =>
      refine .execute (hallowed command ?_) hnew hplan
      rw [Node.accepts_of_fresh hthread hcheck, hplan]
      rfl
  | missing => exact .stay
  | flush hidle hflush => exact .flush (hnode.settled hidle) hflush
  | gc_stay | gc_panic | gc_start => exact .stay
  | gc_batch => exact .collect _ _
  | gc_finish => exact .stay
  | crash => exact .restart

/-- An accepted command is one that the action executes. -/
theorem Node.Consistent.executes_of_accepts (hnode : node.Consistent)
    (haccepts : command ∈ node.accepts B action)
    (hstep : node.step B config action = some next) : command ∈ node.executes B action := by
  obtain ⟨rfl, hcurrent, _, _, plan, hnew, hplan, _⟩ := hnode.accepts_step haccepts hstep
  simp [Node.executes, hcurrent, hnew, hplan, Except.isOk, Except.toBool]

theorem Node.Consistent.wallet_step (hnode : node.Consistent) {action : Action}
    (hallowed : ∀ command ∈ node.executes B action, allowed command)
    (hstep : node.step B config action = some next) :
    WalletStep B allowed node.wallet next.wallet :=
  hnode.accepted_wallet_step
    (fun command haccepts => hallowed command (hnode.executes_of_accepts haccepts hstep)) hstep

end firm_wallet.node
