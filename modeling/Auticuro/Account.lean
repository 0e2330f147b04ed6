import Auticuro.BalanceCalculator
import Auticuro.Protos.Events

namespace firm_wallet.accountpb

open errors balance_calculator balance_operation_servicepb

def Balance.ZERO : String := "0.0"

/-- The balance of a new account: nothing available, nothing reserved. -/
def Balance.initial : Balance := { available := Balance.ZERO }

/-- The configuration of a new account: no limit, cash in USD. -/
def AccountConfig.initial : AccountConfig :=
  { asset_class := some { cash := some { currency := "USD" } } }

/-- The target states of each source state; a state without an entry has no
legal transition. -/
def LEGAL_TRANSITIONS : AccountState → Option (List AccountState)
  | .Normal => some [.Locked, .Deleted]
  | .Locked => some [.Normal]
  | .Deleted => none
  | .InvalidState => none

/-- The request's configuration is not consulted. -/
def Account.new (account_id : String) : Account :=
  { balance := Balance.initial, config := AccountConfig.initial, state := .Normal,
    account_id := account_id }

def Account.validate_asset_class_compatibility (self other : Account) : GeneralResult Unit :=
  let this_asset_class := self.config.get_asset_class
  let other_asset_class := other.config.get_asset_class
  if this_asset_class ≠ other_asset_class then
    .error (.BalanceOperationError (.IncompatibleAssetClass this_asset_class other_asset_class))
  else
    .ok ()

def Account.validate_state_transition (self : Account) (target_state : AccountState) :
    GeneralResult Unit :=
  if ((LEGAL_TRANSITIONS self.state).filter
      (fun legal_target_states => legal_target_states.contains target_state)).isSome then
    .ok ()
  else
    .error (.AccountManagementError (.InvalidStateTransition self.state target_state))

def Account.assert_state_is_normal (self : Account) : GeneralResult Unit :=
  if self.state ≠ .Normal then
    .error (.BalanceOperationError (.InvalidAccountState self.state))
  else
    .ok ()

def Account.assert_reservation_exists (self : Account) (reservation_id : String) :
    GeneralResult String :=
  match self.balance.reservations.lookup reservation_id with
  | some reservation_amount => .ok reservation_amount
  | none => .error (.BalanceOperationError (.ReservationIdNotFound reservation_id))

/-- The account with another available balance. -/
def Account.set_available (self : Account) (available : String) : Account :=
  { self with balance := { self.balance with available := available } }

/-- The account with a reservation added or replaced. -/
def Account.insert_reservation (self : Account) (reservation_id amount : String) : Account :=
  { self with balance :=
    { self.balance with reservations := self.balance.reservations.insert reservation_id amount } }

/-- The account without a reservation. -/
def Account.remove_reservation (self : Account) (reservation_id : String) : Account :=
  { self with balance :=
    { self.balance with reservations := self.balance.reservations.erase reservation_id } }

def Account.set_balance_limit (self : Account) (balance_limit : BalanceLimit) : Account :=
  { self with config := { self.config with balance_limit := some balance_limit } }

def Account.lock (self : Account) : GeneralResult Account := do
  self.validate_state_transition .Locked
  return { self with state := .Locked }

def Account.unlock (self : Account) : GeneralResult Account := do
  self.validate_state_transition .Normal
  return { self with state := .Normal }

variable (B : BigDecimal)

def Account.validate_balance_limitation (self : Account) (balance : String) :
    GeneralResult Unit :=
  if !self.config.has_balance_limit then
    .ok ()
  else do
    let balance_limit := self.config.get_balance_limit
    let cmp_to_upper ← BalanceCalculator.cmp B balance balance_limit.upper
    let cmp_to_lower ← BalanceCalculator.cmp B balance balance_limit.lower
    if cmp_to_lower = .lt ∨ cmp_to_upper = .gt then
      .error (.BalanceOperationError (.BalanceLimitExceeded balance_limit))
    else
      .ok ()

def Account.assert_amount_gt_zero (amount : String) : GeneralResult Unit := do
  let cmp_to_zero ← BalanceCalculator.cmp B amount Balance.ZERO
  if cmp_to_zero = .lt ∨ cmp_to_zero = .eq then
    .error (.BalanceOperationError (.InvalidAmount amount))
  else
    .ok ()

/-- The comparison is only evaluated when there are no reservations. -/
def Account.assert_balance_is_zero (self : Account) : GeneralResult Unit :=
  let balance := self.balance
  if balance.reservations = ∅ then do
    let cmp_to_zero ← BalanceCalculator.cmp B balance.available Balance.ZERO
    if cmp_to_zero = .eq then
      .ok ()
    else
      .error (.AccountManagementError (.BalanceIsNotZero balance))
  else
    .error (.AccountManagementError (.BalanceIsNotZero balance))

def Account.increase_balance_by (self : Account) (amount : String) :
    GeneralResult (Account × BalanceChange) := do
  self.assert_state_is_normal
  let new_balance ← BalanceCalculator.add B self.balance.available amount
  self.validate_balance_limitation B new_balance
  let new_account := self.set_available new_balance
  let balance_change : BalanceChange :=
    { account_id := self.account_id, prev_balance := self.balance,
      curr_balance := new_account.balance }
  return (new_account, balance_change)

def Account.reserve (self : Account) (reservation_id amount : String) : GeneralResult Account := do
  self.assert_state_is_normal
  Account.assert_amount_gt_zero B amount
  if (self.balance.reservations.lookup reservation_id).isSome then
    .error (.BalanceOperationError (.ReservationIdAlreadyExist reservation_id))
  else
    let neg_amount ← BalanceCalculator.neg B amount
    let (updated_account, _) ← self.increase_balance_by B neg_amount
    return updated_account.insert_reservation reservation_id amount

/-- The `unwrap` on the removed entry cannot fail: the entry was just found. -/
def Account.release_all (self : Account) (reservation_id : String) : GeneralResult Account := do
  self.assert_state_is_normal
  let reservation_amount ← self.assert_reservation_exists reservation_id
  let (updated_account, _) ← self.increase_balance_by B reservation_amount
  return updated_account.remove_reservation reservation_id

def Account.partial_release (self : Account) (reservation_id amount : String) :
    GeneralResult Account := do
  self.assert_state_is_normal
  Account.assert_amount_gt_zero B amount
  let reservation_amount ← self.assert_reservation_exists reservation_id
  let cmp_to_reservation_amount ← BalanceCalculator.cmp B amount reservation_amount
  match cmp_to_reservation_amount with
  | .gt => .error (.BalanceOperationError (.InvalidAmount amount))
  | .eq => self.release_all B reservation_id
  | .lt =>
    let (updated_account, _) ← self.increase_balance_by B amount
    let neg_amount ← BalanceCalculator.neg B amount
    let remained_amount ← BalanceCalculator.add B reservation_amount neg_amount
    return updated_account.insert_reservation reservation_id remained_amount

def Account.delete (self : Account) : GeneralResult Account := do
  self.validate_state_transition .Deleted
  self.assert_balance_is_zero B
  return { self with state := .Deleted }

end firm_wallet.accountpb
