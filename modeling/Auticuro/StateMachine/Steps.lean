import Auticuro.StateMachine.Apply
import Auticuro.StateMachine.Plan

open Exec

namespace firm_wallet.state_machine

open accountpb commonpb errors balance_calculator internal_servicepb rocksdb_state

def AccountWrite.account : AccountWrite → Account
  | .update account => account
  | .delete account => account

/-- The operation that an account write adds to the write batch. -/
def AccountWrite.op : AccountWrite → WriteOp
  | .update account => .put_account account
  | .delete account => .delete_account account.account_id

/-- The tombstones that a list of account writes leaves. -/
def AccountWrite.tombstones (writes : List AccountWrite) : List String :=
  writes.filterMap fun
    | .update _ => none
    | .delete account => some account.account_id

/-- The in-memory effect of a list of account writes. -/
def AccountMap.write (accounts : AccountMap) (writes : List AccountWrite) : AccountMap :=
  (writes.map AccountWrite.account).foldl AccountMap.insert accounts

/-- The event of an accepted command under its sequence number. -/
def Plan.event (self : Plan) (command : Command) (log_index offset seq_num : Nat) : Event :=
  { header :=
      { command_id := command.header.command_id,
        process_time_in_sec := command.header.process_time_in_sec,
        log_index := log_index, offset := offset, seq_num := seq_num },
    payload := self.payload (Response.build_header seq_num log_index offset) }

/-- The wallet after a new command was accepted with the given plan. -/
def Wallet.executed (self : Wallet) (log_index offset : Nat) (command : Command) (plan : Plan) :
    Wallet :=
  let seq_num := self.statemachine.last_seq_num + 1
  let event := plan.event command log_index offset seq_num
  { statemachine :=
      { self.statemachine with
        accounts := AccountMap.write self.statemachine.accounts plan.writes,
        last_seq_num := seq_num,
        seq_num_cache := self.statemachine.seq_num_cache.insert command.command_id seq_num,
        event_cache := self.statemachine.event_cache.insert seq_num event },
    context :=
      { self.context with
        wb := self.context.wb ++ (plan.writes.map AccountWrite.op ++
          [.put_seq_num command.command_id seq_num, .put_event seq_num event]),
        to_be_deleted_account_ids :=
          self.context.to_be_deleted_account_ids ++ AccountWrite.tombstones plan.writes,
        inflight_event_tx :=
          self.context.inflight_event_tx ++ [⟨⟨log_index, offset⟩, .ok event⟩] } }

theorem foldl_write_account (writes : List AccountWrite) (wallet : Wallet) :
    writes.foldl Wallet.write_account wallet =
      { statemachine :=
          { wallet.statemachine with
            accounts := AccountMap.write wallet.statemachine.accounts writes },
        context :=
          { wallet.context with
            wb := wallet.context.wb ++ writes.map AccountWrite.op,
            to_be_deleted_account_ids := wallet.context.to_be_deleted_account_ids ++
              AccountWrite.tombstones writes } } := by
  induction writes generalizing wallet with
  | nil => simp [AccountMap.write, AccountWrite.tombstones]
  | cons write writes ih =>
    rw [List.foldl_cons, ih]
    cases write <;>
      simp [AccountMap.write, AccountWrite.tombstones, AccountWrite.op, AccountWrite.account,
        Wallet.write_account, Wallet.update_account, Wallet.delete_account]

variable (B : BigDecimal)

theorem Wallet.handle_new_command_eq (self : Wallet) (log_index offset : Nat)
    (command : Command) :
    self.handle_new_command B log_index offset command =
      match self.statemachine.plan B command.payload with
      | .error e => self.send_event ⟨log_index, offset⟩ (.error e)
      | .ok plan => self.executed log_index offset command plan := by
  have hperform := handle_payload_eq_perform B command.payload log_index offset self
  unfold exec at hperform
  unfold handle_new_command
  rw [hperform]
  cases self.statemachine.plan B command.payload with
  | error e => rfl
  | ok plan =>
    simp only [perform, commit, foldl_write_account, executed, update_seq_num_and_event, send_event,
      Event.set_header, Plan.event, List.append_assoc]

/-- A handled command is a duplicate that is answered from the store, a refusal,
or an execution; the first two only send a reply. -/
theorem Wallet.handle_command_cases {self next : Wallet} {log_index offset : Nat}
    {command : Command} (hhandle : self.handle_command B log_index offset command = some next) :
    (∃ seq_num event, self.statemachine.get_seq_num command.command_id = some seq_num ∧
      self.statemachine.get_event seq_num = some event ∧
      next = self.send_event ⟨log_index, offset⟩ (assert_command_and_event_match command event)) ∨
    (∃ e, self.statemachine.get_seq_num command.command_id = none ∧
      self.statemachine.plan B command.payload = .error e ∧
      next = self.send_event ⟨log_index, offset⟩ (.error e)) ∨
    (∃ plan, self.statemachine.get_seq_num command.command_id = none ∧
      self.statemachine.plan B command.payload = .ok plan ∧
      next = self.executed log_index offset command plan) := by
  unfold handle_command StateMachine.maybe_handle_duplicate_command at hhandle
  cases hseq : self.statemachine.get_seq_num command.command_id with
  | none =>
    simp only [hseq, handle_new_command_eq, Option.some.injEq] at hhandle
    cases hplan : self.statemachine.plan B command.payload with
    | error e =>
      rw [hplan] at hhandle
      exact .inr (.inl ⟨e, rfl, rfl, hhandle.symm⟩)
    | ok plan =>
      rw [hplan] at hhandle
      exact .inr (.inr ⟨plan, rfl, rfl, hhandle.symm⟩)
  | some seq_num =>
    cases hevent : self.statemachine.get_event seq_num with
    | none => simp [hseq, hevent] at hhandle
    | some event =>
      simp only [hseq, hevent, Option.some.injEq] at hhandle
      exact .inl ⟨seq_num, event, rfl, hevent, hhandle.symm⟩

/-- A command panics exactly when its id has a number without an event. -/
theorem Wallet.handle_command_eq_none_iff {self : Wallet} {log_index offset : Nat}
    {command : Command} :
    self.handle_command B log_index offset command = none ↔
      ∃ seq_num, self.statemachine.get_seq_num command.command_id = some seq_num ∧
        self.statemachine.get_event seq_num = none := by
  unfold handle_command StateMachine.maybe_handle_duplicate_command
  cases hseq : self.statemachine.get_seq_num command.command_id with
  | none => simp
  | some seq_num =>
    cases hevent : self.statemachine.get_event seq_num with
    | none | some event => simp [hevent]

end firm_wallet.state_machine
