import Auticuro.StateMachine.Schedule

namespace firm_wallet.state_machine

open accountpb balance_calculator internal_servicepb rocksdb_state

/-- The durable effect of an account write: a deleted account is gone. -/
def AccountMap.persist (accounts : AccountMap) : AccountWrite → AccountMap
  | .update account => accounts.insert account
  | .delete account => accounts.remove account.account_id

theorem write_opt_map_op (db : RocksDBState) (writes : List AccountWrite) :
    db.write_opt (writes.map AccountWrite.op) =
      { db with data := writes.foldl AccountMap.persist db.data } := by
  induction writes generalizing db with
  | nil => rfl
  | cons write writes ih =>
    change (write.op.write db).write_opt (writes.map AccountWrite.op) = _
    rw [ih]
    cases write <;> rfl

/-- What the batch of an executed command adds on top of the batch before it. -/
theorem Wallet.write_opt_executed (self : Wallet) (log_index offset : Nat) (command : Command)
    (plan : Plan) (db : RocksDBState) :
    db.write_opt (self.executed log_index offset command plan).context.wb =
      { data := plan.writes.foldl AccountMap.persist (db.write_opt self.context.wb).data,
        dedup := (db.write_opt self.context.wb).dedup.insert command.command_id
          (self.statemachine.last_seq_num + 1),
        events := (db.write_opt self.context.wb).events.insert
          (self.statemachine.last_seq_num + 1)
          (plan.event command log_index offset (self.statemachine.last_seq_num + 1)),
        hard_state := (db.write_opt self.context.wb).hard_state } := by
  unfold executed
  simp only [RocksDBState.write_opt_append, write_opt_map_op]
  rfl

/-- What finishing an entry adds to the batch. -/
theorem Wallet.write_opt_finish_entry (self : Wallet) (log_index : Nat) (db : RocksDBState) :
    db.write_opt (self.finish_entry log_index).context.wb =
      { db.write_opt self.context.wb with
        hard_state := fun kind =>
          if kind = .PERSISTED_LAST_SEQ_NUM then some self.statemachine.last_seq_num
          else if kind = .APPLIED_INDEX then some log_index
          else (db.write_opt self.context.wb).hard_state kind } := by
  unfold finish_entry
  simp only [RocksDBState.write_opt_append]
  rfl

/-- The pending batch carries exactly the cached events and numbers, over
whatever database it is written to, and leaves the first persisted sequence
number to the garbage collector. -/
structure Wallet.Mirrored (wallet : Wallet) : Prop where
  events : ∀ (db : RocksDBState) seq_num, (db.write_opt wallet.context.wb).events.lookup seq_num =
    (wallet.statemachine.event_cache.lookup seq_num).or (db.events.lookup seq_num)
  dedup : ∀ (db : RocksDBState) command_id,
    (db.write_opt wallet.context.wb).dedup.lookup command_id =
    (wallet.statemachine.seq_num_cache.lookup command_id).or (db.dedup.lookup command_id)
  first_seq_num : ∀ db : RocksDBState,
    (db.write_opt wallet.context.wb).hard_state .PERSISTED_FIRST_SEQ_NUM =
      db.hard_state .PERSISTED_FIRST_SEQ_NUM

namespace Wallet.Mirrored

theorem recover_from_db (batch_size : Nat) (db : RocksDBState) :
    (StateMachine.recover_from_db batch_size db).Mirrored where
  events := by
    intro db seq_num
    simp [StateMachine.recover_from_db, ApplyContext.new, RocksDBState.write_opt]
  dedup := by
    intro db command_id
    simp [StateMachine.recover_from_db, ApplyContext.new, RocksDBState.write_opt]
  first_seq_num := by
    intro db
    rfl

theorem executed {self : Wallet} (hself : self.Mirrored) (log_index offset : Nat)
    (command : Command) (plan : Plan) : (self.executed log_index offset command plan).Mirrored where
  events := by
    intro db seq_num
    rw [write_opt_executed]
    change Finmap.lookup seq_num (Finmap.insert _ _ _) =
      (Finmap.lookup seq_num (Finmap.insert _ _ _)).or _
    rw [Finmap.lookup_insert_eq_ite, Finmap.lookup_insert_eq_ite, hself.events]
    split
    · rfl
    · rfl
  dedup := by
    intro db command_id
    rw [write_opt_executed]
    change Finmap.lookup command_id (Finmap.insert _ _ _) =
      (Finmap.lookup command_id (Finmap.insert _ _ _)).or _
    rw [Finmap.lookup_insert_eq_ite, Finmap.lookup_insert_eq_ite, hself.dedup]
    split
    · rfl
    · rfl
  first_seq_num := by
    intro db
    rw [write_opt_executed]
    exact hself.first_seq_num db

theorem handle_command {B : BigDecimal} {self next : Wallet} (hself : self.Mirrored)
    {log_index offset : Nat} {command : Command}
    (hhandle : self.handle_command B log_index offset command = some next) : next.Mirrored := by
  obtain ⟨_, _, _, _, rfl⟩ | ⟨_, _, _, rfl⟩ | ⟨plan, _, _, rfl⟩ := handle_command_cases B hhandle
  · exact ⟨hself.events, hself.dedup, hself.first_seq_num⟩
  · exact ⟨hself.events, hself.dedup, hself.first_seq_num⟩
  · exact hself.executed log_index offset command plan

theorem finish_entry {self : Wallet} (hself : self.Mirrored) (log_index : Nat) :
    (self.finish_entry log_index).Mirrored where
  events := by
    intro db seq_num
    rw [write_opt_finish_entry]
    exact hself.events db seq_num
  dedup := by
    intro db command_id
    rw [write_opt_finish_entry]
    exact hself.dedup db command_id
  first_seq_num := by
    intro db
    rw [write_opt_finish_entry]
    exact hself.first_seq_num db

theorem write_opt_first_seq_num {self : Wallet} (hself : self.Mirrored) (db : RocksDBState) :
    (db.write_opt self.context.wb).first_seq_num = db.first_seq_num := by
  unfold RocksDBState.first_seq_num RocksDBState.read_hard_state_from_db
  rw [hself.first_seq_num]

end Wallet.Mirrored

/-- What a flush does when its assertion holds. -/
theorem Wallet.flush_eq_some_iff {self next : Wallet} :
    self.flush = some next ↔
      self.statemachine.applied_index > self.context.flushed_applied_index ∧
        next =
          { statemachine :=
              { self.statemachine with
                rocksdb_state := self.statemachine.rocksdb_state.write_opt self.context.wb,
                accounts := self.context.to_be_deleted_account_ids.foldl AccountMap.remove
                  self.statemachine.accounts,
                event_cache := ∅,
                seq_num_cache := ∅ },
            context :=
              { self.context with
                wb := [],
                to_be_deleted_account_ids := [],
                flushed_applied_index := self.statemachine.applied_index } } := by
  unfold flush
  split
  · rename_i happlied
    simp [happlied, eq_comm]
  · rename_i happlied
    simp [happlied]

section Flush

variable {self next : Wallet} (hflush : self.flush = some next)
include hflush

theorem Wallet.Mirrored.flush : next.Mirrored := by
  obtain ⟨_, rfl⟩ := flush_eq_some_iff.mp hflush
  have hempty := Mirrored.recover_from_db 0 RocksDBState.empty
  exact ⟨hempty.events, hempty.dedup, hempty.first_seq_num⟩

theorem Wallet.flush_get_event (hself : self.Mirrored) (seq_num : Nat) :
    next.statemachine.get_event seq_num = self.statemachine.get_event seq_num := by
  obtain ⟨_, rfl⟩ := flush_eq_some_iff.mp hflush
  rw [StateMachine.get_event_eq_or, StateMachine.get_event_eq_or]
  change (Finmap.lookup seq_num ∅).or _ = _
  rw [Finmap.lookup_empty, Option.none_or]
  exact hself.events _ seq_num

theorem Wallet.flush_get_seq_num (hself : self.Mirrored) (command_id : String) :
    next.statemachine.get_seq_num command_id = self.statemachine.get_seq_num command_id := by
  obtain ⟨_, rfl⟩ := flush_eq_some_iff.mp hflush
  rw [StateMachine.get_seq_num_eq_or, StateMachine.get_seq_num_eq_or]
  change (Finmap.lookup command_id ∅).or _ = _
  rw [Finmap.lookup_empty, Option.none_or]
  exact hself.dedup _ command_id

end Flush

theorem AccountMap.get_foldl_remove (accounts : AccountMap) (removed : List String)
    (account_id : String) :
    (removed.foldl AccountMap.remove accounts).get account_id =
      if account_id ∈ removed then none else accounts.get account_id := by
  induction removed generalizing accounts with
  | nil => simp
  | cons head removed ih =>
    rw [List.foldl_cons, ih, AccountMap.get_remove]
    by_cases hhead : account_id = head
    · simp [hhead]
    · simp [hhead]

section Executed

variable (self : Wallet) (log_index offset : Nat) (command : Command) (plan : Plan)

theorem Wallet.executed_get_event (seq_num : Nat) :
    (self.executed log_index offset command plan).statemachine.get_event seq_num =
      if seq_num = self.statemachine.last_seq_num + 1 then
        some (plan.event command log_index offset (self.statemachine.last_seq_num + 1))
      else self.statemachine.get_event seq_num := by
  rw [StateMachine.get_event_eq_or, StateMachine.get_event_eq_or]
  change (Finmap.lookup seq_num (Finmap.insert _ _ _)).or _ = _
  rw [Finmap.lookup_insert_eq_ite]
  split
  · rfl
  · rfl

theorem Wallet.executed_get_seq_num (command_id : String) :
    (self.executed log_index offset command plan).statemachine.get_seq_num command_id =
      if command_id = command.command_id then some (self.statemachine.last_seq_num + 1)
      else self.statemachine.get_seq_num command_id := by
  rw [StateMachine.get_seq_num_eq_or, StateMachine.get_seq_num_eq_or]
  change (Finmap.lookup command_id (Finmap.insert _ _ _)).or _ = _
  rw [Finmap.lookup_insert_eq_ite]
  split
  · rfl
  · rfl

end Executed

end firm_wallet.state_machine
