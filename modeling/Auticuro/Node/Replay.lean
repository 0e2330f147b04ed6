import Auticuro.Library.Journal
import Auticuro.Node.History

open Run Journal

namespace firm_wallet

open accountpb balance_calculator internal_servicepb balance_operation_servicepb rocksdb_state
open state_machine gc

namespace balance_operation_servicepb

/-- The changes of one account, in the recorded order. -/
def BalanceChange.records (account_id : String) (changes : List BalanceChange) :
    List (Record Balance) :=
  (changes.filter fun change => account_id = change.account_id).map fun change =>
    .change change.prev_balance change.curr_balance

theorem BalanceChange.records_cons (account_id : String) (change : BalanceChange)
    (changes : List BalanceChange) :
    BalanceChange.records account_id (change :: changes) =
      if account_id = change.account_id then
        .change change.prev_balance change.curr_balance :: BalanceChange.records account_id changes
      else BalanceChange.records account_id changes := by
  unfold records
  rw [List.filter_cons]
  by_cases hid : account_id = change.account_id
  · simp [hid]
  · simp [hid]

end balance_operation_servicepb

namespace internal_servicepb

/-- What an event records about an account: its balance changes, and where its
life starts or ends. -/
def EventPayload.records (account_id : String) : EventPayload → List (Record Balance)
  | .transfer_event response => BalanceChange.records account_id [response.from, response.to]
  | .batch_balance_operation_event response =>
    BalanceChange.records account_id response.balance_changes
  | .reserve_event response =>
    if account_id = response.request.account_id then
      [.change response.prev_balance response.curr_balance]
    else []
  | .release_event response =>
    if account_id = response.request.account_id then
      [.change response.prev_balance response.curr_balance]
    else []
  | .account_created_event response =>
    if account_id = response.account.account_id then [.reset] else []
  | .account_deleted_event response =>
    if account_id = response.account.account_id then [.reset] else []
  | .account_locked_event _ => []
  | .account_unlock_event _ => []
  | .account_config_update_event _ => []

/-- The command changes no account twice: a transfer has two different accounts,
and a batch has one operation for each account. Operations by zero do not
count. -/
def CommandPayload.ChangesOnce (B : BigDecimal) (value : B.Decimal → ℚ) : CommandPayload → Prop
  | .transfer_request request =>
    request.get_transfer_spec.from_account_id ≠ request.get_transfer_spec.to_account_id ∨
      B.number value request.get_transfer_spec.amount = some 0
  | .batch_balance_operation_request request =>
    request.balance_operation_spec.Pairwise fun earlier later =>
      earlier.account_id = later.account_id → B.number value earlier.amount = some 0
  | _ => True

instance (B : BigDecimal) (value : B.Decimal → ℚ) (payload : CommandPayload) :
    Decidable (payload.ChangesOnce B value) := by
  cases payload <;> dsimp only [CommandPayload.ChangesOnce] <;> infer_instance

end internal_servicepb

namespace state_machine

variable {B : BigDecimal} {value : B.Decimal → ℚ} {self : StateMachine} {plan : Plan}

/-- The changes of a batch lead from the balance before it to the one after it.
`start` is the balance that the recorded changes have reached, `balance` the one
written so far. -/
theorem replays_batch {specs : List BalanceOperationSpec} {changes : List BalanceChange}
    (hchanges : List.Forall₂ (fun spec change => change.account_id = spec.account_id ∧
      change.prev_balance = self.accounts.balance spec.account_id ∧
      ∃ x, B.number value spec.amount = some x ∧
        change.prev_balance.Increase B value change.curr_balance x) specs changes)
    (honce : specs.Pairwise fun earlier later =>
      earlier.account_id = later.account_id → B.number value earlier.amount = some 0)
    {account_id : String} {start balance : Balance} (hbalance : start.Same B value balance)
    (hstart : (∃ spec ∈ specs, spec.account_id = account_id) →
      start.Same B value (self.accounts.balance account_id)) :
    Replays (Balance.Same B value) Balance.initial start
      (BalanceChange.records account_id changes)
      (BalanceChange.final account_id balance changes) := by
  induction hchanges generalizing start balance with
  | nil => exact hbalance
  | @cons spec change specs changes hchange _ ih =>
    obtain ⟨hid, hprev, x, hamount, hincrease⟩ := hchange
    obtain ⟨hzero, honce⟩ := List.pairwise_cons.mp honce
    rw [BalanceChange.records_cons, BalanceChange.final_cons]
    by_cases hnamed : account_id = change.account_id
    · rw [if_pos hnamed, if_pos hnamed]
      rw [hid] at hnamed
      refine ⟨?_, ih honce (Balance.same_equivalence.refl _) ?_⟩
      · rw [hprev, ← hnamed]
        exact hstart ⟨spec, List.mem_cons_self, hnamed.symm⟩
      · rintro ⟨later, hlater, hlaterId⟩
        -- The account comes again, so this operation was by zero.
        have hnumber := hzero later hlater (hnamed.symm.trans hlaterId.symm)
        cases hamount.symm.trans hnumber
        rw [hprev, ← hnamed] at hincrease
        exact Balance.same_equivalence.symm hincrease.same
    · rw [if_neg hnamed, if_neg hnamed]
      apply ih honce hbalance
      rintro ⟨later, hlater, hlaterId⟩
      exact hstart ⟨later, List.mem_cons_of_mem _ hlater, hlaterId⟩

section Replays

variable (hB : B.Exact value)
include hB

theorem StateMachine.plan_transfer_replays {request : TransferRequest}
    (hplan : self.plan B (.transfer_request request) = .ok plan)
    (honce : (CommandPayload.transfer_request request).ChangesOnce B value)
    (header : commonpb.ResponseHeader) (account_id : String) :
    Replays (Balance.Same B value) Balance.initial (self.accounts.balance account_id)
      ((plan.payload header).records account_id)
      ((AccountMap.write self.accounts plan.writes).balance account_id) := by
  have hrefl : ∀ balance, Balance.Same B value balance balance := Balance.same_equivalence.refl
  obtain ⟨x, from_curr, to_curr, hamount, hdebit, hcredit, hwritten, hpayload⟩ :=
    plan_transfer_balance hB hplan
  rw [hpayload, hwritten]
  simp only [EventPayload.records, BalanceChange.records_cons]
  by_cases hfrom : account_id = request.get_transfer_spec.from_account_id
  · by_cases hto : account_id = request.get_transfer_spec.to_account_id
    · -- Both legs are on this account, so the amount is zero.
      have hzero : x = 0 := by
        obtain hne | hnumber := honce
        · exact absurd (hfrom.symm.trans hto) hne
        · simpa using hamount.symm.trans hnumber
      subst hzero
      rw [neg_zero] at hdebit
      rw [if_pos hfrom, if_pos hto, if_pos hfrom, ← hfrom, ← hto]
      rw [← hfrom] at hdebit
      rw [← hto] at hcredit
      have hsymm := Balance.same_equivalence.symm hdebit.same
      exact ⟨hrefl _, hsymm,
        Balance.same_equivalence.trans (Balance.same_equivalence.symm hcredit.same) hdebit.same⟩
    · rw [if_pos hfrom, if_neg hto, if_pos hfrom, ← hfrom]
      exact ⟨hrefl _, hrefl _⟩
  · by_cases hto : account_id = request.get_transfer_spec.to_account_id
    · rw [if_neg hfrom, if_pos hto, if_neg hfrom, if_pos hto, ← hto]
      exact ⟨hrefl _, hrefl _⟩
    · rw [if_neg hfrom, if_neg hto, if_neg hfrom, if_neg hto]
      exact hrefl _

/-- What an event records about an account leads from the balance before the
command to the balance after it. -/
theorem StateMachine.plan_replays {payload : CommandPayload}
    (hplan : self.plan B payload = .ok plan) (honce : payload.ChangesOnce B value)
    (header : commonpb.ResponseHeader) (account_id : String) :
    Replays (Balance.Same B value) Balance.initial (self.accounts.balance account_id)
      ((plan.payload header).records account_id)
      ((AccountMap.write self.accounts plan.writes).balance account_id) := by
  have hrefl : ∀ balance, Balance.Same B value balance balance := Balance.same_equivalence.refl
  cases payload with
  | transfer_request request => exact plan_transfer_replays hB hplan honce header account_id
  | batch_balance_operation_request request =>
    obtain ⟨changes, hchanges, hwritten, hpayload⟩ := plan_batch_balance hB hplan
    rw [hpayload, hwritten]
    exact replays_batch hchanges honce (hrefl _) (fun _ => hrefl _)
  | reserve_request request =>
    obtain ⟨curr, reserved, _, hwritten, hpayload⟩ := plan_reserve_balance hB hplan
    rw [hpayload, hwritten]
    simp only [EventPayload.records]
    split
    · rename_i hid
      rw [hid]
      exact ⟨hrefl _, hrefl _⟩
    · exact hrefl _
  | release_request request =>
    obtain ⟨curr, held, released, _, _, hwritten, hpayload⟩ := plan_release_balance hB hplan
    rw [hpayload, hwritten]
    simp only [EventPayload.records]
    split
    · rename_i hid
      rw [hid]
      exact ⟨hrefl _, hrefl _⟩
    · exact hrefl _
  | create_account_request request =>
    rw [plan_management_balance hplan (by simp [CommandPayload.kind])]
    obtain ⟨habsent, rfl⟩ := plan_create_ok hplan
    change Replays _ _ _ (if account_id = request.get_header.account_id then [.reset] else []) _
    split
    · rename_i hid
      rw [hid, AccountMap.balance_of_missing habsent]
      exact hrefl _
    · exact hrefl _
  | delete_account_request request =>
    rw [plan_management_balance hplan (by simp [CommandPayload.kind])]
    obtain ⟨account, updated_account, hget, hdelete, rfl⟩ := plan_delete_ok hplan
    have hzero : account.balance.IsZero B value := Account.delete_isZero hB hdelete
    obtain ⟨_, _, _, rfl⟩ := Account.delete_ok hdelete
    simp only [EventPayload.records, AccountMap.account_id_of_get hget]
    split
    · rename_i hid
      rw [hid, AccountMap.balance_of_get hget]
      exact (Balance.initial_isZero hB).same hzero
    · exact hrefl _
  | lock_account_request request =>
    rw [plan_management_balance hplan (by simp [CommandPayload.kind])]
    obtain ⟨_, _, _, _, rfl⟩ := plan_lock_ok hplan
    exact hrefl _
  | unlock_account_request request =>
    rw [plan_management_balance hplan (by simp [CommandPayload.kind])]
    obtain ⟨_, _, _, _, rfl⟩ := plan_unlock_ok hplan
    exact hrefl _
  | update_account_config_request request =>
    rw [plan_management_balance hplan (by simp [CommandPayload.kind])]
    obtain ⟨_, _, rfl⟩ := plan_update_config_ok hplan
    exact hrefl _

end Replays

end state_machine

namespace node

/-- What the events of a run record about an account. -/
def RecordedNode.journal (self : RecordedNode) (account_id : String) : List (Record Balance) :=
  self.history.flatMap fun event => event.payload.records account_id

/-- The events replay to the ledger. In every state that any interleaving reaches
with commands that change no account twice, the history holds every event by
its number, and what it records about an account leads from zero to the balance
that the account has: the first change after a creation or deletion starts from
zero with no reservations, every other one from where the preceding one ended,
and the last one ends at the current balance. -/
theorem RecordedNode.events_replay_to_ledger (B : BigDecimal) (value : B.Decimal → ℚ)
    (hB : B.Exact value) (config : Option EventLogGCConfig) (batch_size : Nat)
    (actions : List Action) (last : RecordedNode)
    (halong : Along (RecordedNode.step B config)
      (fun self action => ∀ command ∈ self.replica.executes B action,
        command.payload.ChangesOnce B value)
      (RecordedNode.start_up batch_size) actions)
    (hrun : run (RecordedNode.step B config) (RecordedNode.start_up batch_size) actions =
      some last) :
    last.history.length = last.replica.wallet.statemachine.last_seq_num ∧
    (∀ seq_num event, last.replica.wallet.statemachine.get_event seq_num = some event →
      last.history[seq_num - 1]? = some event) ∧
    ∀ account_id, Replays (Balance.Same B value) Balance.initial Balance.initial
      (last.journal account_id)
      (last.replica.wallet.statemachine.accounts.balance account_id) := by
  have hsame : Equivalence (Balance.Same B value) := Balance.same_equivalence
  obtain ⟨hcomplete, hrecorded⟩ := recorded_of_run
    (fun account_id balance history =>
      Replays (Balance.Same B value) Balance.initial Balance.initial
        (history.flatMap fun event => event.payload.records account_id) balance)
    (fun command => command.payload.ChangesOnce B value) hB
    (by
      intro account_id left right history hleft hreplays
      exact hreplays.of_same_last hsame hleft)
    (by
      rintro statemachine command plan event history account_id honce hplan ⟨header, hpayload⟩
        hreplays
      rw [List.flatMap_append, List.flatMap_singleton, hpayload]
      exact hreplays.append hsame (StateMachine.plan_replays hB hplan honce header account_id))
    (fun account_id => hsame.refl _) halong hrun
  exact ⟨hcomplete.length, hcomplete.stored, hrecorded.memory⟩

/-- A credit and a transfer between two accounts. -/
def transferTrace : List Action :=
  [.receive (6, [creditAccount "1" "a" "5", transferAmount "2" "a" "b" "2"]),
    .apply_step, .apply_step, .apply_step, .apply_step, .apply_step]

theorem RecordedNode.events_replay_to_ledger_transfer :
    ∃ last, run (RecordedNode.step plainDecimal none) (RecordedNode.start_up 100) transferTrace =
        some last ∧ last.replica.wallet.statemachine.last_seq_num = 2 ∧
      Replays (Balance.Same plainDecimal plainValue) Balance.initial Balance.initial
        (last.journal "a") (last.replica.wallet.statemachine.accounts.balance "a") := by
  obtain ⟨last, hrun, hseq⟩ :
      ∃ last ∈ run (RecordedNode.step plainDecimal none) (RecordedNode.start_up 100)
        transferTrace, last.replica.wallet.statemachine.last_seq_num = 2 := by
    decide +kernel
  refine ⟨last, hrun, hseq, ?_⟩
  exact (events_replay_to_ledger plainDecimal plainValue plainDecimal_exact none 100
    transferTrace last (by decide +kernel) hrun).2.2 "a"

/-- A credit and a transfer from the account to itself. -/
def selfTransferTrace : List Action :=
  [.receive (6, [creditAccount "1" "a" "5", transferAmount "2" "a" "a" "2"]),
    .apply_step, .apply_step, .apply_step, .apply_step, .apply_step]

/-- A transfer from an account to itself records two changes that both start
from the balance before it. It is the debit that is stored and the credit that
is recorded last. -/
theorem RecordedNode.self_transfer_does_not_replay :
    ∃ last, run (RecordedNode.step plainDecimal none) (RecordedNode.start_up 100)
        selfTransferTrace = some last ∧
      last.journal "a" =
        [.change Balance.initial { available := "5" },
          .change { available := "5" } { available := "3" },
          .change { available := "5" } { available := "7" }] ∧
      last.replica.wallet.statemachine.accounts.balance "a" = { available := "3" } ∧
      ¬ Replays (Balance.Same plainDecimal plainValue) Balance.initial Balance.initial
        (last.journal "a") (last.replica.wallet.statemachine.accounts.balance "a") := by
  obtain ⟨last, hrun, hjournal, hbalance⟩ :
      ∃ last ∈ run (RecordedNode.step plainDecimal none) (RecordedNode.start_up 100)
        selfTransferTrace,
        last.journal "a" =
          [.change Balance.initial { available := "5" },
            .change { available := "5" } { available := "3" },
            .change { available := "5" } { available := "7" }] ∧
        last.replica.wallet.statemachine.accounts.balance "a" = { available := "3" } := by
    decide +kernel
  refine ⟨last, hrun, hjournal, hbalance, ?_⟩
  rw [hjournal, hbalance]
  rintro ⟨_, _, _, hsame⟩
  have hne : plainDecimal.number plainValue "7" ≠ plainDecimal.number plainValue "3" := by
    decide +kernel
  exact hne hsame.available

end node

end firm_wallet
