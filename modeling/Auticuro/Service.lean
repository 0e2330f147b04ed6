import Auticuro.MessageBroker

namespace firm_wallet.service

open errors internal_servicepb state_machine

/-- What a client gets once the broker has answered its request. `none` is the
exit of the process on an event of another command. -/
def WalletService.wait_for_response (inflight_event : InflightEvent) (command_id : String) :
    Option (GeneralResult Event) :=
  match inflight_event.event with
  | .ok event =>
    if event.header.command_id ≠ command_id then none else some inflight_event.event
  | .error _ => some inflight_event.event

theorem WalletService.wait_for_response_eq_none_iff {inflight_event : InflightEvent}
    {command_id : String} :
    WalletService.wait_for_response inflight_event command_id = none ↔
      ∃ event, inflight_event.event = .ok event ∧ event.header.command_id ≠ command_id := by
  unfold wait_for_response
  cases inflight_event.event with
  | ok event | error error => simp

end firm_wallet.service
