import Auticuro.Node.History
import Mathlib.Tactic.Linarith

open Run

namespace firm_wallet

open accountpb balance_calculator internal_servicepb balance_operation_servicepb rocksdb_state
open state_machine gc

namespace node

/-- What a history says about a reservation id: the amount of its latest reserve,
and the sum of the amounts released from it since then. -/
structure ReservationRecord where
  reserved : ℚ
  released : ℚ

namespace ReservationRecord

variable (B : BigDecimal) (value : B.Decimal → ℚ) (account_id reservation_id : String)

/-- A release without an amount releases all that remains. -/
def apply (self : ReservationRecord) : EventPayload → ReservationRecord
  | .reserve_event response =>
    if account_id = response.request.account_id ∧
        reservation_id = response.request.reservation_id then
      ⟨B.amount value response.request.amount, 0⟩
    else self
  | .release_event response =>
    if account_id = response.request.account_id ∧
        reservation_id = response.request.reservation_id then
      if response.request.amount = "" then ⟨self.reserved, self.reserved⟩
      else ⟨self.reserved, self.released + B.amount value response.request.amount⟩
    else self
  | .transfer_event _ => self
  | .batch_balance_operation_event _ => self
  | .account_created_event _ => self
  | .account_deleted_event _ => self
  | .account_locked_event _ => self
  | .account_unlock_event _ => self
  | .account_config_update_event _ => self

def of_history (history : List Event) : ReservationRecord :=
  history.foldl (fun record event =>
    record.apply B value account_id reservation_id event.payload) ⟨0, 0⟩

theorem of_history_append (history : List Event) (event : Event) :
    of_history B value account_id reservation_id (history ++ [event]) =
      (of_history B value account_id reservation_id history).apply B value account_id
        reservation_id event.payload := by
  simp [of_history]

/-- What stands in the reservations map is what was reserved and not released. -/
def Stands (self : ReservationRecord) : Option String → Prop
  | none => self.released = self.reserved
  | some stored =>
    self.released < self.reserved ∧ B.number value stored = some (self.reserved - self.released)

variable {B value}

theorem Stands.of_same {self : ReservationRecord} {left right : Option String}
    (hsame : left.map (B.number value) = right.map (B.number value))
    (hleft : self.Stands B value left) : self.Stands B value right := by
  cases left with
  | none =>
    cases right with
    | none => exact hleft
    | some stored => cases hsame
  | some stored =>
    cases right with
    | none => cases hsame
    | some other =>
      have hnumber : B.number value stored = B.number value other := Option.some.inj hsame
      exact ⟨hleft.1, hnumber ▸ hleft.2⟩

theorem Stands.isSome_iff {self : ReservationRecord} {standing : Option String}
    (hstands : self.Stands B value standing) :
    standing.isSome ↔ self.released < self.reserved := by
  cases standing with
  | none =>
    have heq : self.released = self.reserved := hstands
    simp [heq]
  | some stored =>
    have hless : self.released < self.reserved := hstands.1
    simp [hless]

theorem Stands.of_some {self : ReservationRecord} {standing : Option String} {stored : String}
    (hstands : self.Stands B value standing) (hstored : standing = some stored) :
    B.number value stored = some (self.reserved - self.released) ∧
      0 < self.reserved - self.released := by
  rw [hstored] at hstands
  exact ⟨hstands.2, sub_pos.mpr hstands.1⟩

theorem Stands.released_le {self : ReservationRecord} {standing : Option String}
    (hstands : self.Stands B value standing) : self.released ≤ self.reserved := by
  cases standing with
  | none => exact le_of_eq hstands
  | some stored => exact le_of_lt hstands.1

end ReservationRecord

end node

namespace accountpb

open node

variable {B : BigDecimal} {value : B.Decimal → ℚ} {prev curr : Balance} {reservation_id : String}

theorem Balance.Reserve.stands {amount : String} {reserved : ℚ}
    (hreserve : prev.Reserve B value curr reservation_id amount reserved) :
    (ReservationRecord.mk (B.amount value amount) 0).Stands B value
      (curr.reservations.lookup reservation_id) := by
  rw [hreserve.reservations, Finmap.lookup_insert]
  refine ⟨?_, ?_⟩
  · rw [BigDecimal.amount_of_number hreserve.requested]
    exact hreserve.positive
  · rw [BigDecimal.amount_of_number hreserve.requested, sub_zero]
    exact hreserve.requested

theorem Balance.Release.held_eq {held released : ℚ}
    (hrelease : prev.Release B value curr reservation_id held released)
    {record : ReservationRecord}
    (hstands : record.Stands B value (prev.reservations.lookup reservation_id)) :
    held = record.reserved - record.released := by
  obtain ⟨stored, hlookup, hnumber⟩ := hrelease.stored
  rw [hlookup] at hstands
  exact Option.some.inj (hnumber.symm.trans hstands.2)

theorem Balance.Release.stands {held released : ℚ}
    (hrelease : prev.Release B value curr reservation_id held released)
    {record : ReservationRecord}
    (hstands : record.Stands B value (prev.reservations.lookup reservation_id)) :
    (ReservationRecord.mk record.reserved (record.released + released)).Stands B value
      (curr.reservations.lookup reservation_id) := by
  have hheld := hrelease.held_eq hstands
  obtain ⟨hall, hreservations⟩ | ⟨hless, remained, hremained, hreservations⟩ := hrelease.remaining
  · rw [hreservations, Finmap.lookup_erase]
    change record.released + released = record.reserved
    linarith
  · rw [hreservations, Finmap.lookup_insert]
    refine ⟨?_, ?_⟩
    · change record.released + released < record.reserved
      linarith
    · change _ = some (record.reserved - (record.released + released))
      rw [hremained, hheld, sub_sub]

/-- Other reservations are left alone. -/
theorem Balance.Reserve.lookup_of_ne {amount : String} {reserved : ℚ}
    (hreserve : prev.Reserve B value curr reservation_id amount reserved) {query : String}
    (hquery : query ≠ reservation_id) :
    curr.reservations.lookup query = prev.reservations.lookup query := by
  rw [hreserve.reservations, Finmap.lookup_insert_of_ne _ hquery]

theorem Balance.Release.lookup_of_ne {held released : ℚ}
    (hrelease : prev.Release B value curr reservation_id held released) {query : String}
    (hquery : query ≠ reservation_id) :
    curr.reservations.lookup query = prev.reservations.lookup query := by
  obtain ⟨_, hreservations⟩ | ⟨_, remained, _, hreservations⟩ := hrelease.remaining
  · rw [hreservations, Finmap.lookup_erase_ne hquery]
  · rw [hreservations, Finmap.lookup_insert_of_ne _ hquery]

end accountpb

namespace state_machine

open node

variable {B : BigDecimal} {value : B.Decimal → ℚ} {self : StateMachine} {plan : Plan}
variable (hB : B.Exact value)
include hB

/-- Transfers and batches leave the reservations alone. -/
theorem StateMachine.plan_transfer_reservations {request : TransferRequest}
    (hplan : self.plan B (.transfer_request request) = .ok plan) (account_id : String) :
    ((AccountMap.write self.accounts plan.writes).balance account_id).reservations =
      (self.accounts.balance account_id).reservations := by
  obtain ⟨x, from_curr, to_curr, _, hdebit, hcredit, hwritten, _⟩ :=
    plan_transfer_balance hB hplan
  rw [hwritten]
  split
  · rename_i hfrom
    rw [hdebit.reservations, hfrom]
  · split
    · rename_i hto
      rw [hcredit.reservations, hto]
    · rfl

theorem StateMachine.plan_batch_reservations {request : BatchBalanceOperationRequest}
    (hplan : self.plan B (.batch_balance_operation_request request) = .ok plan)
    (account_id : String) :
    ((AccountMap.write self.accounts plan.writes).balance account_id).reservations =
      (self.accounts.balance account_id).reservations := by
  obtain ⟨changes, hchanges, hwritten, _⟩ := plan_batch_balance hB hplan
  rw [hwritten]
  refine BalanceChange.final_induction (P := fun balance =>
    balance.reservations = (self.accounts.balance account_id).reservations) rfl ?_
  intro change hmem hid
  obtain ⟨spec, _, hspec, hprev, x, _, hincrease⟩ :=
    Exec.exists_input_of_mem hchanges hmem
  rw [hincrease.reservations, hprev, ← hspec, ← hid]

variable {record : ReservationRecord} {account_id reservation_id : String}
  (hstands : record.Stands B value
    ((self.accounts.balance account_id).reservations.lookup reservation_id))
include hstands

theorem StateMachine.plan_reserve_stands {request : ReserveRequest}
    (hplan : self.plan B (.reserve_request request) = .ok plan) (header : commonpb.ResponseHeader) :
    (record.apply B value account_id reservation_id (plan.payload header)).Stands B value
      (((AccountMap.write self.accounts plan.writes).balance
        account_id).reservations.lookup reservation_id) := by
  obtain ⟨curr, reserved, hreserve, hwritten, hpayload⟩ := plan_reserve_balance hB hplan
  rw [hpayload, hwritten]
  simp only [ReservationRecord.apply]
  by_cases haccount : account_id = request.account_id
  · by_cases hreservation : reservation_id = request.reservation_id
    · rw [if_pos ⟨haccount, hreservation⟩, if_pos haccount, hreservation]
      exact hreserve.stands
    · rw [if_neg (fun hboth => hreservation hboth.2), if_pos haccount,
        hreserve.lookup_of_ne hreservation, ← haccount]
      exact hstands
  · rw [if_neg (fun hboth => haccount hboth.1), if_neg haccount]
    exact hstands

theorem StateMachine.plan_release_stands {request : ReleaseRequest}
    (hplan : self.plan B (.release_request request) = .ok plan) (header : commonpb.ResponseHeader) :
    (record.apply B value account_id reservation_id (plan.payload header)).Stands B value
      (((AccountMap.write self.accounts plan.writes).balance
        account_id).reservations.lookup reservation_id) := by
  obtain ⟨curr, held, released, hamount, hrelease, hwritten, hpayload⟩ :=
    plan_release_balance hB hplan
  rw [hpayload, hwritten]
  simp only [ReservationRecord.apply]
  by_cases haccount : account_id = request.account_id
  · by_cases hreservation : reservation_id = request.reservation_id
    · rw [if_pos ⟨haccount, hreservation⟩, if_pos haccount, hreservation]
      rw [haccount, hreservation] at hstands
      by_cases hempty : request.amount = ""
      · rw [if_pos hempty] at hamount ⊢
        have hheld := hrelease.held_eq hstands
        have hall : record.released + released = record.reserved := by linarith
        exact hall ▸ hrelease.stands hstands
      · rw [if_neg hempty] at hamount ⊢
        rw [BigDecimal.amount_of_number hamount]
        exact hrelease.stands hstands
    · rw [if_neg (fun hboth => hreservation hboth.2), if_pos haccount,
        hrelease.lookup_of_ne hreservation, ← haccount]
      exact hstands
  · rw [if_neg (fun hboth => haccount hboth.1), if_neg haccount]
    exact hstands

/-- A command keeps the reservations of every account in step with the history. -/
theorem StateMachine.plan_stands {payload : CommandPayload} (hplan : self.plan B payload = .ok plan)
    (header : commonpb.ResponseHeader) :
    (record.apply B value account_id reservation_id (plan.payload header)).Stands B value
      (((AccountMap.write self.accounts plan.writes).balance
        account_id).reservations.lookup reservation_id) := by
  cases payload with
  | transfer_request request =>
    rw [plan_transfer_reservations hB hplan]
    obtain ⟨_, _, _, _, _, _, _, _, rfl⟩ := plan_transfer_ok hplan
    exact hstands
  | batch_balance_operation_request request =>
    rw [plan_batch_reservations hB hplan]
    obtain ⟨_, _, rfl⟩ := plan_batch_ok hplan
    exact hstands
  | reserve_request request => exact plan_reserve_stands hB hstands hplan header
  | release_request request => exact plan_release_stands hB hstands hplan header
  | create_account_request request =>
    rw [plan_management_balance hplan (by simp [CommandPayload.kind])]
    obtain ⟨_, rfl⟩ := plan_create_ok hplan
    exact hstands
  | delete_account_request request =>
    rw [plan_management_balance hplan (by simp [CommandPayload.kind])]
    obtain ⟨_, _, _, _, rfl⟩ := plan_delete_ok hplan
    exact hstands
  | lock_account_request request =>
    rw [plan_management_balance hplan (by simp [CommandPayload.kind])]
    obtain ⟨_, _, _, _, rfl⟩ := plan_lock_ok hplan
    exact hstands
  | unlock_account_request request =>
    rw [plan_management_balance hplan (by simp [CommandPayload.kind])]
    obtain ⟨_, _, _, _, rfl⟩ := plan_unlock_ok hplan
    exact hstands
  | update_account_config_request request =>
    rw [plan_management_balance hplan (by simp [CommandPayload.kind])]
    obtain ⟨_, _, rfl⟩ := plan_update_config_ok hplan
    exact hstands

end state_machine

namespace node

/-- The reservation ledger. In every state that any interleaving reaches, the
history holds every event by its number, and a reservation stands exactly if the
latest reserve under its id exceeds what was released from it since, as the
difference of the two, which is positive. No more is released than was
reserved. -/
theorem RecordedNode.reservation_ledger (B : BigDecimal) (value : B.Decimal → ℚ)
    (hB : B.Exact value) (config : Option EventLogGCConfig) (batch_size : Nat)
    (actions : List Action) (last : RecordedNode)
    (hrun : run (RecordedNode.step B config) (RecordedNode.start_up batch_size) actions =
      some last) :
    last.history.length = last.replica.wallet.statemachine.last_seq_num ∧
    (∀ seq_num event, last.replica.wallet.statemachine.get_event seq_num = some event →
      last.history[seq_num - 1]? = some event) ∧
    ∀ account_id reservation_id,
      let record := ReservationRecord.of_history B value account_id reservation_id last.history
      let standing := (last.replica.wallet.statemachine.accounts.balance
        account_id).reservations.lookup reservation_id
      (standing.isSome ↔ record.released < record.reserved) ∧
      (∀ stored, standing = some stored →
        B.number value stored = some (record.reserved - record.released) ∧
          0 < record.reserved - record.released) ∧
      record.released ≤ record.reserved := by
  have halong : Along (RecordedNode.step B config)
      (fun self action => ∀ command ∈ self.replica.executes B action, True)
      (RecordedNode.start_up batch_size) actions :=
    along_of_forall (fun _ _ _ _ => trivial) _ _
  obtain ⟨hcomplete, hrecorded⟩ := recorded_of_run
    (fun account_id balance history => ∀ reservation_id,
      (ReservationRecord.of_history B value account_id reservation_id history).Stands B value
        (balance.reservations.lookup reservation_id))
    (fun _ => True) hB
    (by
      intro account_id left right history hsame hstands reservation_id
      exact (hstands reservation_id).of_same (hsame.reservations reservation_id))
    (by
      rintro statemachine command plan event history account_id _ hplan ⟨header, hpayload⟩ hstands
        reservation_id
      rw [ReservationRecord.of_history_append, hpayload]
      exact StateMachine.plan_stands hB (hstands reservation_id) hplan header)
    (fun account_id reservation_id => by
      change ReservationRecord.Stands B value _ none
      rfl) halong hrun
  refine ⟨hcomplete.length, hcomplete.stored, ?_⟩
  intro account_id reservation_id record standing
  have hstands : record.Stands B value standing := hrecorded.memory account_id reservation_id
  exact ⟨hstands.isSome_iff, fun stored hstored => hstands.of_some hstored, hstands.released_le⟩

/-- A reserve and a partial release of it, with different spellings. -/
def partialReleaseTrace : List Action :=
  [.receive (6, [creditAccount "1" "a" "5", reserveAmount "2" "a" "r" "2.50",
      releaseAmount "3" "a" "r" "1.5"]),
    .apply_step, .apply_step, .apply_step, .apply_step, .apply_step, .apply_step, .apply_step]

theorem RecordedNode.reservation_ledger_partial_release :
    ∃ last, run (RecordedNode.step plainDecimal none) (RecordedNode.start_up 100)
        partialReleaseTrace = some last ∧
      (last.replica.wallet.statemachine.accounts.balance "a").reservations.lookup "r" =
        some "1" ∧
      0 < (ReservationRecord.of_history plainDecimal plainValue "a" "r" last.history).reserved -
        (ReservationRecord.of_history plainDecimal plainValue "a" "r" last.history).released := by
  obtain ⟨last, hrun, hstanding⟩ :
      ∃ last ∈ run (RecordedNode.step plainDecimal none) (RecordedNode.start_up 100)
        partialReleaseTrace,
        (last.replica.wallet.statemachine.accounts.balance "a").reservations.lookup "r" =
          some "1" := by
    decide +kernel
  refine ⟨last, hrun, hstanding, ?_⟩
  exact ((reservation_ledger plainDecimal plainValue plainDecimal_exact none 100
    partialReleaseTrace last hrun).2.2 "a" "r").2.1 "1" hstanding |>.2

end node

end firm_wallet
