import Auticuro.Node.Steps
import Auticuro.StateMachine.EventLog

namespace firm_wallet.node

open balance_calculator internal_servicepb rocksdb_state state_machine gc

/-- The `APPLIED_INDEX` in the database of a node. -/
def Node.stored_applied_index (self : Node) : Nat :=
  self.db.read_hard_state_from_db .APPLIED_INDEX

/-- The stored index is the one of the last flush, and the pending batch would
store the index of the last applied entry. -/
structure Node.Progress (node : Node) : Prop where
  flushed : node.stored_applied_index = node.wallet.context.flushed_applied_index
  pending : (node.db.write_opt node.wallet.context.wb).read_hard_state_from_db .APPLIED_INDEX =
    node.wallet.statemachine.applied_index

namespace Node.Progress

variable {B : BigDecimal} {config : Option EventLogGCConfig} {node next : Node} {action : Action}

theorem start_up (batch_size : Nat) (db : RocksDBState) : (Node.start_up batch_size db).Progress :=
  ⟨rfl, rfl⟩

section

variable (hnode : node.Progress)
include hnode

/-- A command leaves the hard states of the pending batch alone. -/
theorem handle_new_command (log_index offset : Nat) (command : Command)
    (apply_thread : ApplyThread) :
    Node.Progress { node with
      wallet := node.wallet.handle_new_command B log_index offset command
      apply_thread := apply_thread } := by
  rw [Wallet.handle_new_command_eq]
  cases node.wallet.statemachine.plan B command.payload with
  | error e => exact ⟨hnode.flushed, hnode.pending⟩
  | ok plan =>
    refine ⟨hnode.flushed, ?_⟩
    change RocksDBState.read_hard_state_from_db
      (node.db.write_opt (node.wallet.executed log_index offset command plan).context.wb) _ = _
    rw [Wallet.write_opt_executed]
    exact hnode.pending

theorem finish_entry (log_index : Nat) :
    Node.Progress { node with
      wallet := node.wallet.finish_entry log_index, apply_thread := .idle } := by
  refine ⟨hnode.flushed, ?_⟩
  change RocksDBState.read_hard_state_from_db
    (node.db.write_opt (node.wallet.finish_entry log_index).context.wb) _ = log_index
  rw [Wallet.write_opt_finish_entry]
  rfl

/-- A flush moves the stored index forward. -/
theorem flush {wallet : Wallet} (hflush : node.wallet.flush = some wallet) :
    Node.Progress { node with wallet := wallet } ∧
      node.stored_applied_index ≤ Node.stored_applied_index { node with wallet := wallet } := by
  obtain ⟨hless, rfl⟩ := Wallet.flush_eq_some_iff.mp hflush
  refine ⟨⟨hnode.pending, hnode.pending⟩, ?_⟩
  change _ ≤ (node.db.write_opt node.wallet.context.wb).read_hard_state_from_db .APPLIED_INDEX
  rw [hnode.pending, hnode.flushed]
  exact hless.le

theorem write_gc_batch (from_seq_num to_seq_num : Nat) (gc_thread : GcThread) :
    Node.Progress { node.write_gc_batch from_seq_num to_seq_num with gc_thread := gc_thread } ∧
      Node.stored_applied_index { node.write_gc_batch from_seq_num to_seq_num with
        gc_thread := gc_thread } = node.stored_applied_index := by
  have hstate :
      (EventLogGCLoop.gc_batch from_seq_num to_seq_num node.db).hard_state .APPLIED_INDEX =
      node.db.hard_state .APPLIED_INDEX := by
    rw [EventLogGCLoop.gc_batch_hard_state]
    rfl
  have hstored : Node.stored_applied_index { node.write_gc_batch from_seq_num to_seq_num with
      gc_thread := gc_thread } = node.stored_applied_index := by
    change RocksDBState.read_hard_state_from_db (EventLogGCLoop.gc_batch _ _ _) _ = _
    unfold RocksDBState.read_hard_state_from_db
    rw [hstate]
    rfl
  refine ⟨⟨hstored.trans hnode.flushed, ?_⟩, hstored⟩
  have hbatch := RocksDBState.write_opt_hard_state_congr hstate node.wallet.context.wb
  have hpending := hnode.pending
  unfold RocksDBState.read_hard_state_from_db at hpending ⊢
  rw [← hbatch] at hpending
  exact hpending

/-- The stored index never moves back. -/
theorem step (hstep : node.step B config action = some next) :
    next.Progress ∧ node.stored_applied_index ≤ next.stored_applied_index := by
  cases Node.step_spec hstep with
  | receive entry => exact ⟨⟨hnode.flushed, hnode.pending⟩, le_rfl⟩
  | @finish log_index => exact ⟨hnode.finish_entry log_index, le_rfl⟩
  | proceed | duplicate => exact ⟨⟨hnode.flushed, hnode.pending⟩, le_rfl⟩
  | @fresh log_index offset command pending =>
    have hdb : Node.stored_applied_index { node with
        wallet := node.wallet.handle_new_command B log_index offset command
        apply_thread := .applying log_index pending .start } = node.stored_applied_index := by
      rw [Wallet.handle_new_command_eq]
      cases node.wallet.statemachine.plan B command.payload <;> rfl
    exact ⟨hnode.handle_new_command log_index offset command _, hdb.ge⟩
  | missing => exact ⟨⟨hnode.flushed, hnode.pending⟩, le_rfl⟩
  | flush hidle hflush => exact hnode.flush hflush
  | gc_stay => exact ⟨hnode, le_rfl⟩
  | gc_panic | gc_start => exact ⟨⟨hnode.flushed, hnode.pending⟩, le_rfl⟩
  | gc_batch =>
    obtain ⟨hprogress, hstored⟩ := hnode.write_gc_batch _ _ _
    exact ⟨hprogress, hstored.ge⟩
  | gc_finish => exact ⟨⟨hnode.flushed, hnode.pending⟩, le_rfl⟩
  | crash => exact ⟨start_up _ _, le_rfl⟩

end

end Node.Progress

end firm_wallet.node
