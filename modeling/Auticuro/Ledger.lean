import Auticuro.StateMachine.Tombstones

open Run

namespace firm_wallet.ledger

open accountpb errors balance_calculator internal_servicepb rocksdb_state state_machine

/-- What a replica is meant to be: the accounts that exist, the number and the
event of every command id, and the replies given so far. There is no cache, no
pending batch, no tombstone and no flush in it. -/
structure Ledger where
  accounts : AccountMap
  applied_index : Nat
  last_seq_num : Nat
  seq_num_of : String → Option SequenceNumber
  event_at : SequenceNumber → Option Event
  replies : List InflightEvent

/-- A state machine that holds some accounts and nothing else. -/
def holding (accounts : AccountMap) : StateMachine :=
  { accounts := accounts, applied_index := 0, last_seq_num := 0, seq_num_cache := ∅,
    event_cache := ∅, rocksdb_state := RocksDBState.empty }

namespace Ledger

def reply (self : Ledger) (position : Position) (event : GeneralResult Event) : Ledger :=
  { self with replies := self.replies ++ [⟨position, event⟩] }

/-- Give the command the next number and keep the accounts and the event it
planned. -/
def execute (self : Ledger) (log_index offset : Nat) (command : Command) (plan : Plan) : Ledger :=
  let seq_num := self.last_seq_num + 1
  let event := plan.event command log_index offset seq_num
  { self with
    accounts := plan.writes.foldl AccountMap.persist self.accounts,
    last_seq_num := seq_num,
    seq_num_of := fun command_id =>
      if command_id = command.command_id then some seq_num else self.seq_num_of command_id,
    event_at := fun number => if number = seq_num then some event else self.event_at number,
    replies := self.replies ++ [⟨⟨log_index, offset⟩, .ok event⟩] }

variable (B : BigDecimal)

/-- A known command id is answered from its event; it is `none` when the id has
a number and the number has no event. A new command is planned on the accounts
and then refused or executed. -/
def handle_command (self : Ledger) (log_index offset : Nat) (command : Command) : Option Ledger :=
  match self.seq_num_of command.command_id with
  | some seq_num =>
    (self.event_at seq_num).map fun event =>
      self.reply ⟨log_index, offset⟩ (assert_command_and_event_match command event)
  | none =>
    match (holding self.accounts).plan B command.payload with
    | .error e => some (self.reply ⟨log_index, offset⟩ (.error e))
    | .ok plan => some (self.execute log_index offset command plan)

def apply_entry (self : Ledger) (entry : Entry) : Option Ledger :=
  if self.applied_index + 1 = entry.1 then
    (run (fun ledger item => ledger.handle_command B entry.1 item.2 item.1) self
      entry.2.zipIdx).map fun ledger => { ledger with applied_index := entry.1 }
  else
    none

def apply_log (self : Ledger) (log : List Entry) : Option Ledger :=
  run (Ledger.apply_entry B) self log

end Ledger

end firm_wallet.ledger
