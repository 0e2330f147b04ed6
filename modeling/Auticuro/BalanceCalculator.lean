import Auticuro.Protos.Account
import Mathlib.Algebra.Order.Field.Rat

namespace firm_wallet

open accountpb

namespace errors

/-- The parse error of the `bigdecimal` crate, kept as the text it prints. -/
structure ParseBigDecimalError where
  message : String
  deriving DecidableEq

inductive BalanceOperationError where
  | BalanceLimitExceeded (limit : BalanceLimit)
  | InvalidAccountState (state : AccountState)
  | AccountNotExist (account_id : String)
  | IncompatibleAssetClass (lhs rhs : AssetClass)
  | ParseError (number : String) (details : ParseBigDecimalError)
  | ReservationIdAlreadyExist (reservation_id : String)
  | ReservationIdNotFound (reservation_id : String)
  | InvalidAmount (amount : String)
  deriving DecidableEq

inductive AccountManagementError where
  | AccountNotExist (account_id : String)
  | AccountAlreadyExist (account_id : String)
  | InvalidStateTransition (source target : AccountState)
  | BalanceIsNotZero (balance : Balance)
  deriving DecidableEq

inductive CommonError where
  | Timeout
  | ConflictDedupId (dedup_id : String)
  | DataNotReady (requested_seq_num available_seq_num : Nat)
  | MessageQueueError (details : String)
  deriving DecidableEq

inductive GeneralError where
  | BalanceOperationError (error : BalanceOperationError)
  | AccountManagementError (error : AccountManagementError)
  | CommonError (error : CommonError)
  deriving DecidableEq

abbrev GeneralResult (α : Type) := Except GeneralError α

end errors

namespace balance_calculator

open errors

/-- The operations of the `bigdecimal` crate that the wallet calls. -/
structure BigDecimal where
  Decimal : Type
  from_str : String → Except ParseBigDecimalError Decimal
  add : Decimal → Decimal → Decimal
  neg : Decimal → Decimal
  cmp : Decimal → Decimal → Ordering
  normalized : Decimal → Decimal
  to_string : Decimal → String

/-- The crate computes exactly: every operation is the operation on the
rational number a decimal stands for, and a printed decimal parses back to the
same number. -/
structure BigDecimal.Exact (B : BigDecimal) (value : B.Decimal → ℚ) : Prop where
  value_add : ∀ lhs rhs, value (B.add lhs rhs) = value lhs + value rhs
  value_neg : ∀ input, value (B.neg input) = -value input
  cmp_eq : ∀ lhs rhs, B.cmp lhs rhs = compare (value lhs) (value rhs)
  value_normalized : ∀ input, value (B.normalized input) = value input
  from_str_to_string : ∀ input, ∃ parsed,
    B.from_str (B.to_string input) = .ok parsed ∧ value parsed = value input
  from_str_zero : ∃ zero, B.from_str "0.0" = .ok zero ∧ value zero = 0
  from_str_empty : ∃ error, B.from_str "" = .error error

variable (B : BigDecimal)

/-- `BigDecimal::from_str` with the error wrapped by the calculator. -/
def BalanceCalculator.parse (number : String) : GeneralResult B.Decimal :=
  match B.from_str number with
  | .ok decimal => .ok decimal
  | .error err => .error (.BalanceOperationError (.ParseError number err))

def BalanceCalculator.add (lhs rhs : String) : GeneralResult String := do
  let lhs_decimal ← BalanceCalculator.parse B lhs
  let rhs_decimal ← BalanceCalculator.parse B rhs
  let result := B.add lhs_decimal rhs_decimal
  return B.to_string (B.normalized result)

def BalanceCalculator.neg (input : String) : GeneralResult String := do
  let decimal ← BalanceCalculator.parse B input
  return B.to_string (B.neg decimal)

def BalanceCalculator.cmp (lhs rhs : String) : GeneralResult Ordering := do
  let lhs_decimal ← BalanceCalculator.parse B lhs
  let rhs_decimal ← BalanceCalculator.parse B rhs
  return B.cmp lhs_decimal rhs_decimal

end balance_calculator

end firm_wallet
