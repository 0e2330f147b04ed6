import Auticuro.Node.Replies
import Auticuro.Service.Rpcs

open Exec Run

namespace firm_wallet

open accountpb balance_calculator commonpb errors internal_servicepb rocksdb_state state_machine
open gc

namespace errors

/-- A check or an operation of the wallet, none of which asks the queue. -/
abbrev OwnErrors {A : Type} (result : GeneralResult A) : Prop :=
  Avoids GeneralError.IsMessageQueueError result

end errors

namespace balance_calculator

variable (B : BigDecimal)

theorem BalanceCalculator.parse_own (number : String) :
    OwnErrors (BalanceCalculator.parse B number) := by
  unfold BalanceCalculator.parse
  split
  · exact .ok _
  · exact .error not_false

theorem BalanceCalculator.add_own (lhs rhs : String) :
    OwnErrors (BalanceCalculator.add B lhs rhs) :=
  (parse_own B lhs).bind fun _ _ => (parse_own B rhs).bind fun _ _ => .ok _

theorem BalanceCalculator.neg_own (input : String) : OwnErrors (BalanceCalculator.neg B input) :=
  (parse_own B input).bind fun _ _ => .ok _

theorem BalanceCalculator.cmp_own (lhs rhs : String) :
    OwnErrors (BalanceCalculator.cmp B lhs rhs) :=
  (parse_own B lhs).bind fun _ _ => (parse_own B rhs).bind fun _ _ => .ok _

end balance_calculator

namespace accountpb

theorem Account.validate_state_transition_own (self : Account) (target_state : AccountState) :
    OwnErrors (self.validate_state_transition target_state) := by
  unfold Account.validate_state_transition
  split
  · exact .ok _
  · exact .error not_false

theorem Account.assert_state_is_normal_own (self : Account) :
    OwnErrors self.assert_state_is_normal := by
  unfold Account.assert_state_is_normal
  split
  · exact .error not_false
  · exact .ok _

theorem Account.assert_reservation_exists_own (self : Account) (reservation_id : String) :
    OwnErrors (self.assert_reservation_exists reservation_id) := by
  unfold Account.assert_reservation_exists
  split
  · exact .ok _
  · exact .error not_false

theorem Account.validate_asset_class_compatibility_own (self other : Account) :
    OwnErrors (self.validate_asset_class_compatibility other) := by
  simp only [Account.validate_asset_class_compatibility]
  split
  · exact .error not_false
  · exact .ok _

variable (B : BigDecimal)

theorem Account.validate_balance_limitation_own (self : Account) (balance : String) :
    OwnErrors (self.validate_balance_limitation B balance) := by
  unfold Account.validate_balance_limitation
  split
  · exact .ok _
  · refine (BalanceCalculator.cmp_own B _ _).bind fun _ _ => ?_
    refine (BalanceCalculator.cmp_own B _ _).bind fun _ _ => ?_
    split
    · exact .error not_false
    · exact .ok _

theorem Account.assert_amount_gt_zero_own (amount : String) :
    OwnErrors (Account.assert_amount_gt_zero B amount) := by
  refine (BalanceCalculator.cmp_own B _ _).bind fun _ _ => ?_
  split
  · exact .error not_false
  · exact .ok _

theorem Account.assert_balance_is_zero_own (self : Account) :
    OwnErrors (self.assert_balance_is_zero B) := by
  simp only [Account.assert_balance_is_zero]
  split
  · refine (BalanceCalculator.cmp_own B _ _).bind fun _ _ => ?_
    split
    · exact .ok _
    · exact .error not_false
  · exact .error not_false

theorem Account.increase_balance_by_own (self : Account) (amount : String) :
    OwnErrors (self.increase_balance_by B amount) := by
  refine self.assert_state_is_normal_own.bind fun _ _ => ?_
  refine (BalanceCalculator.add_own B _ _).bind fun _ _ => ?_
  exact (self.validate_balance_limitation_own B _).bind fun _ _ => .ok _

theorem Account.reserve_own (self : Account) (reservation_id amount : String) :
    OwnErrors (self.reserve B reservation_id amount) := by
  refine self.assert_state_is_normal_own.bind fun _ _ => ?_
  refine (Account.assert_amount_gt_zero_own B amount).bind fun _ _ => ?_
  split
  · exact .error not_false
  · refine (BalanceCalculator.neg_own B _).bind fun _ _ => ?_
    exact (self.increase_balance_by_own B _).bind fun _ _ => .ok _

theorem Account.release_all_own (self : Account) (reservation_id : String) :
    OwnErrors (self.release_all B reservation_id) := by
  refine self.assert_state_is_normal_own.bind fun _ _ => ?_
  refine (self.assert_reservation_exists_own reservation_id).bind fun _ _ => ?_
  exact (self.increase_balance_by_own B _).bind fun _ _ => .ok _

theorem Account.partial_release_own (self : Account) (reservation_id amount : String) :
    OwnErrors (self.partial_release B reservation_id amount) := by
  refine self.assert_state_is_normal_own.bind fun _ _ => ?_
  refine (Account.assert_amount_gt_zero_own B amount).bind fun _ _ => ?_
  refine (self.assert_reservation_exists_own reservation_id).bind fun _ _ => ?_
  refine (BalanceCalculator.cmp_own B _ _).bind fun cmp_to_reservation_amount _ => ?_
  cases cmp_to_reservation_amount with
  | gt => exact .error not_false
  | eq => exact self.release_all_own B reservation_id
  | lt =>
    refine (self.increase_balance_by_own B _).bind fun _ _ => ?_
    refine (BalanceCalculator.neg_own B _).bind fun _ _ => ?_
    exact (BalanceCalculator.add_own B _ _).bind fun _ _ => .ok _

theorem Account.delete_own (self : Account) : OwnErrors (self.delete B) := by
  refine (self.validate_state_transition_own _).bind fun _ _ => ?_
  exact (self.assert_balance_is_zero_own B).bind fun _ _ => .ok _

end accountpb

namespace state_machine

theorem StateMachine.assert_account_exists_own (self : StateMachine) (account_id : String) :
    OwnErrors (self.assert_account_exists account_id) := by
  unfold StateMachine.assert_account_exists
  split
  · exact .ok _
  · exact .error not_false

/-- A command is refused for a reason of the wallet. -/
theorem StateMachine.plan_own (B : BigDecimal) (self : StateMachine) (payload : CommandPayload) :
    OwnErrors (self.plan B payload) := by
  cases payload with
  | transfer_request request =>
    refine (Account.validate_asset_class_compatibility_own _ _).bind fun _ _ => ?_
    refine (Account.increase_balance_by_own B _ _).bind fun _ _ => ?_
    refine (BalanceCalculator.neg_own B _).bind fun _ _ => ?_
    exact (Account.increase_balance_by_own B _ _).bind fun _ _ => .ok _
  | batch_balance_operation_request request =>
    have hspecs : OwnErrors (self.increase_balances B request.balance_operation_spec) :=
      Avoids.mapM fun _ _ => Account.increase_balance_by_own B _ _
    exact hspecs.bind fun _ _ => .ok _
  | reserve_request request =>
    refine (self.assert_account_exists_own _).bind fun account _ => ?_
    exact (account.reserve_own B _ _).bind fun _ _ => .ok _
  | release_request request =>
    refine (self.assert_account_exists_own _).bind fun account _ => ?_
    dsimp only
    split
    · exact (account.release_all_own B _).bind fun _ _ => .ok _
    · exact (account.partial_release_own B _ _).bind fun _ _ => .ok _
  | create_account_request request =>
    simp only [StateMachine.plan]
    split
    · exact .error not_false
    · exact .ok _
  | delete_account_request request =>
    refine (self.assert_account_exists_own _).bind fun account _ => ?_
    exact (account.delete_own B).bind fun _ _ => .ok _
  | lock_account_request request | unlock_account_request request =>
    refine (self.assert_account_exists_own _).bind fun account _ => ?_
    exact ((account.validate_state_transition_own _).bind fun _ _ => .ok _).bind
      fun _ _ => .ok _
  | update_account_config_request request =>
    exact (self.assert_account_exists_own _).bind fun _ _ => .ok _

/-- The event of a plan is of the kind of the command. -/
theorem StateMachine.plan_kind {B : BigDecimal} {self : StateMachine} {payload : CommandPayload}
    {plan : Plan} (hplan : self.plan B payload = .ok plan) (header : ResponseHeader) :
    (plan.payload header).kind = payload.kind := by
  cases payload with
  | transfer_request request =>
    obtain ⟨_, _, _, _, _, _, _, _, rfl⟩ := plan_transfer_ok hplan
    rfl
  | batch_balance_operation_request request =>
    obtain ⟨_, _, rfl⟩ := plan_batch_ok hplan
    rfl
  | reserve_request request =>
    obtain ⟨_, _, _, _, rfl⟩ := plan_reserve_ok hplan
    rfl
  | release_request request =>
    obtain ⟨_, _, _, _, rfl⟩ := plan_release_ok hplan
    rfl
  | create_account_request request =>
    obtain ⟨_, rfl⟩ := plan_create_ok hplan
    rfl
  | delete_account_request request =>
    obtain ⟨_, _, _, _, rfl⟩ := plan_delete_ok hplan
    rfl
  | lock_account_request request =>
    obtain ⟨_, _, _, _, rfl⟩ := plan_lock_ok hplan
    rfl
  | unlock_account_request request =>
    obtain ⟨_, _, _, _, rfl⟩ := plan_unlock_ok hplan
    rfl
  | update_account_config_request request =>
    obtain ⟨_, _, rfl⟩ := plan_update_config_ok hplan
    rfl

end state_machine

namespace node

/-- An answer to a command: an event of it, of its kind, or an error of the
wallet. -/
def Fulfils (command : Command) : GeneralResult Event → Prop
  | .ok event =>
    event.header.command_id = command.command_id ∧ event.payload.kind = command.payload.kind
  | .error error => ¬error.IsMessageQueueError

/-- The log of events of a node holds the event of a reply. -/
def Logged (statemachine : StateMachine) (result : GeneralResult Event) : Prop :=
  ∀ event, result = .ok event → statemachine.get_event event.header.seq_num = some event

variable {B : BigDecimal} {config : Option EventLogGCConfig} {node next : Node} {action : Action}

theorem Fulfils.of_match {command : Command} {event : Event}
    (hid : event.header.command_id = command.command_id) :
    Fulfils command (assert_command_and_event_match command event) := by
  rw [assert_command_and_event_match_eq]
  split
  · rename_i hkind
    exact ⟨hid, hkind.symm⟩
  · exact not_false

theorem Logged.of_match {statemachine : StateMachine} {command : Command} {event : Event}
    (hevent : statemachine.get_event event.header.seq_num = some event) :
    Logged statemachine (assert_command_and_event_match command event) := by
  intro found hfound
  rw [assert_command_and_event_match_eq] at hfound
  split at hfound
  · cases hfound
    exact hevent
  · cases hfound

/-- The reply to a new command, which is the last one sent. -/
theorem Wallet.handle_new_command_reply (wallet : Wallet) (log_index offset : Nat)
    (command : Command) :
    ∃ result,
      (wallet.handle_new_command B log_index offset command).context.inflight_event_tx =
        wallet.context.inflight_event_tx ++ [⟨⟨log_index, offset⟩, result⟩] ∧
      Fulfils command result ∧
      Logged (wallet.handle_new_command B log_index offset command).statemachine result := by
  rw [Wallet.handle_new_command_eq]
  cases hplan : wallet.statemachine.plan B command.payload with
  | error error =>
    refine ⟨.error error, rfl, wallet.statemachine.plan_own B command.payload error hplan, ?_⟩
    intro event hevent
    cases hevent
  | ok plan =>
    refine ⟨_, rfl, ⟨rfl, StateMachine.plan_kind hplan _⟩, ?_⟩
    intro event hevent
    cases hevent
    change (wallet.executed log_index offset command plan).statemachine.get_event
      (wallet.statemachine.last_seq_num + 1) = _
    rw [Wallet.executed_get_event, if_pos rfl]

/-- The event that ends a duplicate check is in the log. -/
theorem Node.HoldsOwn.duplicate_logged (hnode : node.HoldsOwn) {log_index offset : Nat}
    {command : Command} {pending : List (Command × Nat)} {phase : CheckPhase} {event : Event}
    (hthread : node.apply_thread = .applying log_index ((command, offset) :: pending) phase)
    (hcheck : CheckStep node.wallet.statemachine command.command_id phase (.duplicate event)) :
    node.wallet.statemachine.get_event event.header.seq_num = some event := by
  have hfound : ∃ seq_num, node.wallet.statemachine.get_event seq_num = some event := by
    cases hcheck with
    | @event_cached seq_num _ hcached =>
      refine ⟨seq_num, ?_⟩
      rw [StateMachine.get_event_eq_or, hcached, Option.some_or]
    | @event_persisted seq_num _ hread =>
      refine ⟨seq_num, ?_⟩
      rw [StateMachine.get_event_eq_or, hnode.missed _ _ seq_num hthread, Option.none_or]
      exact hread
  obtain ⟨seq_num, hevent⟩ := hfound
  rw [(hnode.consistent.log.valid hevent).1]
  exact hevent

/-- What a step sends: replies to commands that were to be answered, each with an
answer to its command that is in the log if it is an event. -/
theorem Node.HoldsOwn.step_sends (hnode : node.HoldsOwn)
    (hstep : node.step B config action = some next) (hcrash : action ≠ .crash) :
    ∃ sent, next.wallet.context.inflight_event_tx =
        node.wallet.context.inflight_event_tx ++ sent ∧
      ∀ reply ∈ sent, ∃ command,
        (reply.position, command) ∈ node.apply_thread.unanswered ∧
        Fulfils command reply.event ∧ Logged next.wallet.statemachine reply.event := by
  cases Node.step_spec hstep with
  | @duplicate log_index offset command pending phase event hthread hcheck =>
    refine ⟨[⟨⟨log_index, offset⟩, assert_command_and_event_match command event⟩], rfl, ?_⟩
    intro reply hreply
    rw [List.mem_singleton.mp hreply]
    refine ⟨command, ?_, .of_match (hnode.duplicate hthread hcheck),
      .of_match (hnode.duplicate_logged hthread hcheck)⟩
    rw [hthread]
    exact List.mem_cons_self
  | @fresh log_index offset command pending phase hthread hcheck =>
    obtain ⟨result, hsent, hfulfils, hlogged⟩ :=
      Wallet.handle_new_command_reply (B := B) node.wallet log_index offset command
    refine ⟨_, hsent, ?_⟩
    intro reply hreply
    rw [List.mem_singleton.mp hreply]
    refine ⟨command, ?_, hfulfils, hlogged⟩
    rw [hthread]
    exact List.mem_cons_self
  | flush hidle hflush =>
    obtain ⟨_, rfl⟩ := Wallet.flush_eq_some_iff.mp hflush
    exact ⟨[], (List.append_nil _).symm, by simp⟩
  | crash => exact absurd rfl hcrash
  | _ => exact ⟨[], (List.append_nil _).symm, by simp⟩

/-- What is to be answered was to be answered before, or has been received. -/
theorem Node.HoldsOwn.step_unanswered (hnode : node.HoldsOwn)
    (hstep : node.step B config action = some next) (hcrash : action ≠ .crash)
    {item : Position × Command} (hitem : item ∈ next.apply_thread.unanswered) :
    item ∈ node.apply_thread.unanswered ∨ item ∈ action.commands := by
  obtain ⟨_, hunanswered | ⟨hpanicked, _⟩⟩ | ⟨_, first, _, hunanswered, _⟩ :=
    hnode.step_replies hstep hcrash
  · rw [hunanswered] at hitem
    exact List.mem_append.mp hitem
  · rw [hpanicked] at hitem
    cases hitem
  · rw [hunanswered]
    exact .inl (List.mem_cons_of_mem first hitem)

/-- Sequence numbers are taken one after the other, and none is given back before
a crash. -/
theorem Node.step_last_seq_num (hstep : node.step B config action = some next)
    (hcrash : action ≠ .crash) :
    node.wallet.statemachine.last_seq_num ≤ next.wallet.statemachine.last_seq_num := by
  cases Node.step_spec hstep with
  | @fresh log_index offset command pending phase hthread hcheck =>
    change _ ≤ (node.wallet.handle_new_command B log_index offset command).statemachine.last_seq_num
    rw [Wallet.handle_new_command_eq]
    cases node.wallet.statemachine.plan B command.payload with
    | error error => exact le_rfl
    | ok plan => exact Nat.le_succ _
  | flush hidle hflush =>
    obtain ⟨_, rfl⟩ := Wallet.flush_eq_some_iff.mp hflush
    exact le_rfl
  | crash => exact absurd rfl hcrash
  | _ => exact le_rfl

end node

end firm_wallet
