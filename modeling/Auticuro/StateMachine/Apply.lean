import Auticuro.Library.Run
import Auticuro.StateMachine.Handlers

namespace firm_wallet.state_machine

open errors balance_calculator internal_servicepb rocksdb_state

/-- The reply to a duplicate command, if it is one. The outer `none` is the
panic of `unwrap` on a number without an event. -/
def StateMachine.maybe_handle_duplicate_command (self : StateMachine) (command : Command) :
    Option (Option (GeneralResult Event)) :=
  match self.get_seq_num command.command_id with
  | none => some none
  | some seq_num =>
    match self.get_event seq_num with
    | none => none
    | some event => some (some (assert_command_and_event_match command event))

variable (B : BigDecimal)

/-- The part of `handle_command` after the duplicate check. -/
def Wallet.handle_new_command (self : Wallet) (log_index offset : Nat) (command : Command) :
    Wallet :=
  let position : Position := ⟨log_index, offset⟩
  match (handle_payload B command.payload log_index offset).run.run self with
  | (.error e, wallet) => wallet.send_event position (.error e)
  | (.ok event, wallet) =>
    let event := event.set_header command.header log_index offset wallet.statemachine.last_seq_num
    (wallet.update_seq_num_and_event command.command_id event).send_event position (.ok event)

/-- `none` is a panic. -/
def Wallet.handle_command (self : Wallet) (log_index offset : Nat) (command : Command) :
    Option Wallet :=
  match self.statemachine.maybe_handle_duplicate_command command with
  | none => none
  | some (some event) => some (self.send_event ⟨log_index, offset⟩ event)
  | some none => some (self.handle_new_command B log_index offset command)

/-- The loop of `apply_entry` over the enumerated commands. -/
def Wallet.handle_commands (self : Wallet) (log_index : Nat) (commands : List (Command × Nat)) :
    Option Wallet :=
  Run.run (fun wallet item => wallet.handle_command B log_index item.2 item.1) self commands

/-- What `apply_entry` does after its last command. -/
def Wallet.finish_entry (self : Wallet) (log_index : Nat) : Wallet :=
  { statemachine := { self.statemachine with applied_index := log_index },
    context :=
      { self.context with
        wb := self.context.wb ++
          [.put_hard_state .APPLIED_INDEX log_index,
            .put_hard_state .PERSISTED_LAST_SEQ_NUM self.statemachine.last_seq_num] } }

/-- A committed log entry: its index and the commands it carries. -/
abbrev Entry := Nat × List Command

/-- `none` is a failed assertion or a panic inside a command. -/
def Wallet.apply_entry (self : Wallet) (entry : Entry) : Option Wallet :=
  let (log_index, commands) := entry
  if self.statemachine.applied_index + 1 = log_index then do
    let wallet ← self.handle_commands B log_index commands.zipIdx
    return wallet.finish_entry log_index
  else
    none

/-- `none` is the failed assertion that something was applied since the last
flush. -/
def Wallet.flush (self : Wallet) : Option Wallet :=
  if self.statemachine.applied_index > self.context.flushed_applied_index then
    some
      { statemachine :=
          { self.statemachine with
            rocksdb_state := self.statemachine.rocksdb_state.write_opt self.context.wb,
            accounts := self.context.to_be_deleted_account_ids.foldl AccountMap.remove
              self.statemachine.accounts,
            event_cache := ∅,
            seq_num_cache := ∅ },
        context :=
          { self.context with
            wb := [],
            to_be_deleted_account_ids := [],
            flushed_applied_index := self.statemachine.applied_index } }
  else
    none

def Wallet.should_flush (self : Wallet) (elapsed_ms : Nat) : Bool :=
  if self.statemachine.applied_index - self.context.flushed_applied_index ≥
      self.context.batch_size then
    true
  else
    self.statemachine.applied_index > self.context.flushed_applied_index ∧ elapsed_ms > 100

def Wallet.maybe_flush (self : Wallet) (elapsed_ms : Nat) : Option Wallet :=
  if self.should_flush elapsed_ms then self.flush else some self

end firm_wallet.state_machine
