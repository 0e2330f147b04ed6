import Mathlib.Data.Finmap

namespace firm_wallet.accountpb

structure BalanceLimit where
  upper : String := ""
  lower : String := ""
  deriving DecidableEq, Inhabited

structure AssetClass_Cash where
  currency : String := ""
  deriving DecidableEq, Inhabited

/-- The `oneof` of asset classes, unset by default. -/
structure AssetClass where
  cash : Option AssetClass_Cash := none
  deriving DecidableEq, Inhabited

structure AccountConfig where
  balance_limit : Option BalanceLimit := none
  asset_class : Option AssetClass := none
  deriving DecidableEq, Inhabited

def AccountConfig.has_balance_limit (self : AccountConfig) : Bool :=
  self.balance_limit.isSome

/-- As every generated getter of a message field, the default instance when
the field is unset. -/
def AccountConfig.get_balance_limit (self : AccountConfig) : BalanceLimit :=
  self.balance_limit.getD {}

def AccountConfig.get_asset_class (self : AccountConfig) : AssetClass :=
  self.asset_class.getD {}

structure Balance where
  available : String := ""
  reservations : Finmap (fun _ : String => String) := ∅
  deriving DecidableEq

inductive AccountState where
  | InvalidState
  | Deleted
  | Locked
  | Normal
  deriving DecidableEq

structure Account where
  config : AccountConfig := {}
  balance : Balance := {}
  state : AccountState := .InvalidState
  account_id : String := ""
  deriving DecidableEq

end firm_wallet.accountpb
