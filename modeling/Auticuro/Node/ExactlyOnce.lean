import Auticuro.Decimal
import Auticuro.Node.Invariant

open Run

namespace firm_wallet.node

open balance_calculator errors internal_servicepb rocksdb_state state_machine gc

variable {B : BigDecimal} {node next : Node}

section

variable (hnode : node.Consistent)
include hnode

variable {seq_num : Nat} {event : Event}

theorem Node.Consistent.duplicate_reply
    (hevent : node.wallet.statemachine.get_event seq_num = some event) (log_index offset : Nat)
    {command : Command} (hid : event.header.command_id = command.command_id) :
    node.wallet.handle_command B log_index offset command =
      some (node.wallet.send_event ⟨log_index, offset⟩
        (if command.payload.kind = event.payload.kind then .ok event
          else .error (.CommonError (.ConflictDedupId command.command_id)))) := by
  have hseq : node.wallet.statemachine.get_seq_num command.command_id = some seq_num :=
    (hnode.log.index command.command_id seq_num).mpr ⟨event, hevent, hid⟩
  rw [← assert_command_and_event_match_eq]
  unfold Wallet.handle_command StateMachine.maybe_handle_duplicate_command
  simp only [hseq, hevent]

/-- A handled command leaves every event that was there. -/
theorem Node.Consistent.handle_new_command_get_event {log_index offset : Nat} {command : Command}
    (hevent : node.wallet.statemachine.get_event seq_num = some event) :
    (node.wallet.handle_new_command B log_index offset command).statemachine.get_event seq_num =
      some event := by
  rw [Wallet.handle_new_command_eq]
  cases node.wallet.statemachine.plan B command.payload with
  | error e => exact hevent
  | ok plan =>
    have hbelow := (hnode.log.bounds hevent).2
    change (node.wallet.executed log_index offset command plan).statemachine.get_event seq_num = _
    rw [Wallet.executed_get_event, if_neg (by omega)]
    exact hevent

/-- Without the collector an event is kept by every step but a crash. -/
theorem Node.Consistent.step_get_event {action : Action} (hcrash : action ≠ .crash)
    (hstep : node.step B none action = some next)
    (hevent : node.wallet.statemachine.get_event seq_num = some event) :
    next.wallet.statemachine.get_event seq_num = some event := by
  cases Node.step_spec hstep with
  | receive | finish | proceed | duplicate => exact hevent
  | fresh => exact hnode.handle_new_command_get_event hevent
  | missing => exact hevent
  | flush _ hflush =>
    rw [Wallet.flush_get_event hflush hnode.mirrored]
    exact hevent
  | gc_stay hconfig | gc_panic hconfig | gc_start hconfig | gc_batch hconfig | gc_finish hconfig =>
    cases hconfig
  | crash => exact absurd rfl hcrash

/-- Without the collector a persisted event is kept by every step. -/
theorem Node.Consistent.step_persisted {action : Action}
    (hstep : node.step B none action = some next)
    (hevent : node.db.events.lookup seq_num = some event) :
    next.db.events.lookup seq_num = some event := by
  cases Node.step_spec hstep with
  | receive | finish | proceed | duplicate => exact hevent
  | @fresh log_index offset _ _ _ hthread hcheck =>
    have hnew := hnode.get_seq_num_of_fresh hthread hcheck
    obtain ⟨_, _, hdb⟩ := hnode.handle_new_command (B := B) log_index offset hnew
    change (Wallet.statemachine _).rocksdb_state.events.lookup seq_num = _
    rw [hdb]
    exact hevent
  | missing => exact hevent
  | flush _ hflush =>
    obtain ⟨_, rfl⟩ := Wallet.flush_eq_some_iff.mp hflush
    have hbelow := (hnode.log.persisted.bounds hevent).2
    have hcached : node.wallet.statemachine.event_cache.lookup seq_num = none :=
      hnode.log.cached.eq_none_of_not_range (by omega)
    change (node.db.write_opt node.wallet.context.wb).events.lookup seq_num = _
    rw [hnode.mirrored.events, hcached, Option.none_or]
    exact hevent
  | gc_stay hconfig | gc_panic hconfig | gc_start hconfig | gc_batch hconfig | gc_finish hconfig =>
    cases hconfig
  | crash => exact hevent

theorem Node.Consistent.run_persisted {actions : List Action} {last : Node}
    (hrun : run (Node.step B none) node actions = some last)
    (hevent : node.db.events.lookup seq_num = some event) :
    last.db.events.lookup seq_num = some event := by
  have hstep : ∀ (node : Node) (action : Action) (next : Node),
      (node.Consistent ∧ node.db.events.lookup seq_num = some event) →
      node.step B none action = some next →
      next.Consistent ∧ next.db.events.lookup seq_num = some event := by
    rintro node action next ⟨hnode, hevent⟩ hnext
    exact ⟨hnode.step hnext, hnode.step_persisted hnext hevent⟩
  exact (run_invariant hstep ⟨hnode, hevent⟩ hrun).2

theorem Node.Consistent.run_get_event {actions : List Action} {last : Node}
    (hcrash : ∀ action ∈ actions, action ≠ .crash)
    (hrun : run (Node.step B none) node actions = some last)
    (hevent : node.wallet.statemachine.get_event seq_num = some event) :
    last.wallet.statemachine.get_event seq_num = some event := by
  induction actions generalizing node with
  | nil =>
    cases hrun
    exact hevent
  | cons action actions ih =>
    obtain ⟨next, hnext, hrest⟩ := run_cons_eq_some_iff.mp hrun
    have hkept := hnode.step_get_event (hcrash action List.mem_cons_self) hnext hevent
    exact ih (hnode.step hnext) (fun other hmem => hcrash other (List.mem_cons_of_mem _ hmem))
      hrest hkept

end

/-- Exactly-once execution, with the collector off. In every state that
commands, flushes and restarts reach, no two events have one command id, and a
command whose id has an event is answered from it and changes nothing else: the
reply is the event if it is of the command's kind and a conflict otherwise. An
event stays as it is from then on, through restarts once it is persisted. -/
theorem Node.exactly_once (B : BigDecimal) (batch_size : Nat) (actions : List Action) (last : Node)
    (hrun : run (Node.step B none) (Node.start_up batch_size RocksDBState.empty) actions =
      some last) :
    (∀ left_num right_num left right,
      last.wallet.statemachine.get_event left_num = some left →
      last.wallet.statemachine.get_event right_num = some right →
      left.header.command_id = right.header.command_id → left_num = right_num ∧ left = right) ∧
    (∀ seq_num event log_index offset command,
      last.wallet.statemachine.get_event seq_num = some event →
      event.header.command_id = command.command_id →
      last.wallet.handle_command B log_index offset command =
        some (last.wallet.send_event ⟨log_index, offset⟩
          (if command.payload.kind = event.payload.kind then .ok event
            else .error (.CommonError (.ConflictDedupId command.command_id))))) ∧
    ∀ later_actions later, run (Node.step B none) last later_actions = some later →
      (∀ seq_num event, last.db.events.lookup seq_num = some event →
        later.db.events.lookup seq_num = some event) ∧
      ((∀ action ∈ later_actions, action ≠ .crash) →
        ∀ seq_num event, last.wallet.statemachine.get_event seq_num = some event →
          later.wallet.statemachine.get_event seq_num = some event) := by
  have hlast := Consistent.of_run hrun
  refine ⟨?_, ?_, ?_⟩
  · intro left_num right_num left right hleft hright hid
    obtain rfl := hlast.log.eq_of_command_id_eq hleft hright hid
    rw [hleft] at hright
    exact ⟨rfl, Option.some.inj hright⟩
  · intro seq_num event log_index offset command hevent hid
    exact hlast.duplicate_reply hevent log_index offset hid
  · intro later_actions later hlater
    refine ⟨?_, ?_⟩
    · intro seq_num event hevent
      exact hlast.run_persisted hlater hevent
    · intro hcrash seq_num event hevent
      exact hlast.run_get_event hcrash hlater hevent

/-- A command, a duplicate of it, a flush and a restart. -/
def duplicateTrace : List Action :=
  [.receive (6, [createAccount "1" "a", createAccount "1" "a"]), .apply_step, .apply_step,
    .apply_step, .apply_step, .apply_step, .flush, .crash]

theorem Node.exactly_once_conflict :
    ∃ last event, run (Node.step plainDecimal none) (Node.start_up 100 RocksDBState.empty)
        duplicateTrace = some last ∧
      last.wallet.statemachine.get_event 1 = some event ∧
      last.wallet.handle_command plainDecimal 7 0 (deleteAccount "1" "a") =
        some (last.wallet.send_event ⟨7, 0⟩
          (if CommandKind.delete_account = event.payload.kind then .ok event
            else .error (.CommonError (.ConflictDedupId "1")))) := by
  obtain ⟨last, hrun⟩ : ∃ last, run (Node.step plainDecimal none)
      (Node.start_up 100 RocksDBState.empty) duplicateTrace = some last :=
    Option.isSome_iff_exists.mp (by decide)
  have hstored : (run (Node.step plainDecimal none) (Node.start_up 100 RocksDBState.empty)
      duplicateTrace).bind (fun node => (node.wallet.statemachine.get_event 1).map
        fun event => event.header.command_id) = some "1" := by
    decide
  rw [hrun, Option.bind_some, Option.map_eq_some_iff] at hstored
  obtain ⟨event, hevent, hid⟩ := hstored
  exact ⟨last, event, hrun, hevent,
    (exactly_once plainDecimal 100 duplicateTrace last hrun).2.1 1 event 7 0
      (deleteAccount "1" "a") hevent hid⟩

end firm_wallet.node
