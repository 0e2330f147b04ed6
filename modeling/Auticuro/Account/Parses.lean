import Auticuro.Account.Steps
import Auticuro.Account.Value

open Exec

namespace firm_wallet

open errors balance_calculator balance_operation_servicepb account_management_servicepb
open internal_servicepb

namespace errors

/-- The error of the calculator for a text that is not a decimal. -/
def GeneralError.IsParseError : GeneralError → Prop
  | .BalanceOperationError (.ParseError _ _) => True
  | _ => False

end errors

namespace balance_calculator

def BigDecimal.parses (B : BigDecimal) (text : String) : Bool :=
  (B.from_str text).isOk

variable {B : BigDecimal} {value : B.Decimal → ℚ} {lhs rhs : String}

theorem BalanceCalculator.parse_parses {text : String} {decimal : B.Decimal}
    (hparse : BalanceCalculator.parse B text = .ok decimal) : B.parses text = true := by
  unfold parse at hparse
  unfold BigDecimal.parses
  split at hparse
  · rename_i hfrom
    rw [hfrom]
    rfl
  · cases hparse

theorem BalanceCalculator.parse_avoids {text : String} (htext : B.parses text = true) :
    Avoids GeneralError.IsParseError (BalanceCalculator.parse B text) := by
  obtain ⟨decimal, hdecimal⟩ := isOk_iff.mp htext
  unfold parse
  rw [hdecimal]
  exact .ok decimal

theorem BalanceCalculator.add_avoids (hlhs : B.parses lhs = true) (hrhs : B.parses rhs = true) :
    Avoids GeneralError.IsParseError (BalanceCalculator.add B lhs rhs) := by
  refine (parse_avoids hlhs).bind fun lhs_decimal _ => ?_
  refine (parse_avoids hrhs).bind fun rhs_decimal _ => ?_
  exact .ok _

theorem BalanceCalculator.neg_avoids (hlhs : B.parses lhs = true) :
    Avoids GeneralError.IsParseError (BalanceCalculator.neg B lhs) := by
  refine (parse_avoids hlhs).bind fun decimal _ => ?_
  exact .ok _

theorem BalanceCalculator.cmp_avoids (hlhs : B.parses lhs = true) (hrhs : B.parses rhs = true) :
    Avoids GeneralError.IsParseError (BalanceCalculator.cmp B lhs rhs) := by
  refine (parse_avoids hlhs).bind fun lhs_decimal _ => ?_
  refine (parse_avoids hrhs).bind fun rhs_decimal _ => ?_
  exact .ok _

theorem BalanceCalculator.cmp_parses {ordering : Ordering}
    (hcmp : BalanceCalculator.cmp B lhs rhs = .ok ordering) : B.parses lhs = true := by
  unfold cmp at hcmp
  obtain ⟨decimal, hdecimal, _⟩ := bind_eq_ok_iff.mp hcmp
  exact parse_parses hdecimal

namespace BigDecimal.Exact

variable (hB : B.Exact value)
include hB

theorem parses_to_string (decimal : B.Decimal) : B.parses (B.to_string decimal) = true := by
  obtain ⟨parsed, hparsed, _⟩ := hB.from_str_to_string decimal
  exact isOk_iff.mpr ⟨parsed, hparsed⟩

theorem parses_zero : B.parses accountpb.Balance.ZERO = true := by
  obtain ⟨zero, hzero, _⟩ := hB.from_str_zero
  exact isOk_iff.mpr ⟨zero, hzero⟩

theorem parses_add {result : String} (hadd : BalanceCalculator.add B lhs rhs = .ok result) :
    B.parses result = true := by
  unfold BalanceCalculator.add at hadd
  obtain ⟨_, _, hadd⟩ := bind_eq_ok_iff.mp hadd
  obtain ⟨_, _, hadd⟩ := bind_eq_ok_iff.mp hadd
  obtain rfl := pure_eq_ok_iff.mp hadd
  exact hB.parses_to_string _

theorem parses_neg {result : String} (hneg : BalanceCalculator.neg B lhs = .ok result) :
    B.parses result = true := by
  unfold BalanceCalculator.neg at hneg
  obtain ⟨_, _, hneg⟩ := bind_eq_ok_iff.mp hneg
  obtain rfl := pure_eq_ok_iff.mp hneg
  exact hB.parses_to_string _

end BigDecimal.Exact

end balance_calculator

namespace accountpb

variable {B : BigDecimal} {value : B.Decimal → ℚ} {self : Account}

/-- Every decimal that an account holds parses. -/
structure Account.Parses (B : BigDecimal) (account : Account) : Prop where
  available : B.parses account.balance.available = true
  reservations : ∀ reservation_id amount,
    account.balance.reservations.lookup reservation_id = some amount → B.parses amount = true
  limit : ∀ limit, account.config.balance_limit = some limit →
    B.parses limit.lower = true ∧ B.parses limit.upper = true

section Avoids

theorem Account.assert_state_is_normal_avoids (self : Account) :
    Avoids GeneralError.IsParseError self.assert_state_is_normal := by
  unfold assert_state_is_normal
  split
  · exact .error not_false
  · exact .ok ()

theorem Account.validate_state_transition_avoids (self : Account) (target : AccountState) :
    Avoids GeneralError.IsParseError (self.validate_state_transition target) := by
  unfold validate_state_transition
  split
  · exact .ok ()
  · exact .error not_false

theorem Account.assert_reservation_exists_avoids (self : Account) (reservation_id : String) :
    Avoids GeneralError.IsParseError (self.assert_reservation_exists reservation_id) := by
  unfold assert_reservation_exists
  split
  · exact .ok _
  · exact .error not_false

variable (hself : self.Parses B)
include hself

theorem Account.Parses.validate_balance_limitation {balance : String}
    (hbalance : B.parses balance = true) :
    Avoids GeneralError.IsParseError (self.validate_balance_limitation B balance) := by
  unfold Account.validate_balance_limitation AccountConfig.has_balance_limit
    AccountConfig.get_balance_limit
  cases hlimit : self.config.balance_limit with
  | none => exact .ok ()
  | some limit =>
    obtain ⟨hlower, hupper⟩ := hself.limit limit hlimit
    refine (BalanceCalculator.cmp_avoids hbalance hupper).bind fun cmp_to_upper _ => ?_
    refine (BalanceCalculator.cmp_avoids hbalance hlower).bind fun cmp_to_lower _ => ?_
    split
    · exact .error not_false
    · exact .ok ()

variable {reservation_id amount : String}

theorem Account.Parses.assert_reservation_exists
    (hexists : self.assert_reservation_exists reservation_id = .ok amount) :
    B.parses amount = true := by
  unfold Account.assert_reservation_exists at hexists
  split at hexists
  · rename_i hlookup
    cases hexists
    exact hself.reservations _ _ hlookup
  · cases hexists

variable (hB : B.Exact value)
include hB

theorem Account.Parses.increase_balance_by {amount : String} (hamount : B.parses amount = true) :
    Avoids GeneralError.IsParseError (self.increase_balance_by B amount) := by
  refine self.assert_state_is_normal_avoids.bind fun _ _ => ?_
  refine (BalanceCalculator.add_avoids hself.available hamount).bind fun new_balance hadd => ?_
  refine (hself.validate_balance_limitation (hB.parses_add hadd)).bind fun _ _ => ?_
  exact .ok _

omit hself in
theorem Account.assert_amount_gt_zero_avoids {amount : String}
    (hamount : B.parses amount = true) :
    Avoids GeneralError.IsParseError (Account.assert_amount_gt_zero B amount) := by
  refine (BalanceCalculator.cmp_avoids hamount hB.parses_zero).bind fun cmp_to_zero _ => ?_
  split
  · exact .error not_false
  · exact .ok ()

theorem Account.Parses.reserve (hamount : B.parses amount = true) :
    Avoids GeneralError.IsParseError (self.reserve B reservation_id amount) := by
  refine self.assert_state_is_normal_avoids.bind fun _ _ => ?_
  refine (Account.assert_amount_gt_zero_avoids hB hamount).bind fun _ _ => ?_
  split
  · exact .error not_false
  · refine (BalanceCalculator.neg_avoids hamount).bind fun neg_amount hneg => ?_
    refine (hself.increase_balance_by hB (hB.parses_neg hneg)).bind fun updated _ => ?_
    exact .ok _

theorem Account.Parses.release_all (reservation_id : String) :
    Avoids GeneralError.IsParseError (self.release_all B reservation_id) := by
  refine self.assert_state_is_normal_avoids.bind fun _ _ => ?_
  refine (self.assert_reservation_exists_avoids reservation_id).bind fun amount hexists => ?_
  have hamount := hself.assert_reservation_exists hexists
  refine (hself.increase_balance_by hB hamount).bind fun updated _ => ?_
  exact .ok _

theorem Account.Parses.partial_release (hamount : B.parses amount = true) :
    Avoids GeneralError.IsParseError (self.partial_release B reservation_id amount) := by
  refine self.assert_state_is_normal_avoids.bind fun _ _ => ?_
  refine (Account.assert_amount_gt_zero_avoids hB hamount).bind fun _ _ => ?_
  refine (self.assert_reservation_exists_avoids reservation_id).bind fun reserved hexists => ?_
  have hreserved := hself.assert_reservation_exists hexists
  refine (BalanceCalculator.cmp_avoids hamount hreserved).bind fun ordering _ => ?_
  cases ordering with
  | gt => exact .error not_false
  | eq => exact hself.release_all hB reservation_id
  | lt =>
    refine (hself.increase_balance_by hB hamount).bind fun updated _ => ?_
    refine (BalanceCalculator.neg_avoids hamount).bind fun neg_amount hneg => ?_
    refine (BalanceCalculator.add_avoids hreserved (hB.parses_neg hneg)).bind fun remained _ => ?_
    exact .ok _

theorem Account.Parses.delete : Avoids GeneralError.IsParseError (self.delete B) := by
  refine (self.validate_state_transition_avoids .Deleted).bind fun _ _ => ?_
  refine Avoids.bind ?_ fun _ _ => .ok _
  unfold Account.assert_balance_is_zero
  simp only
  split
  · refine (BalanceCalculator.cmp_avoids hself.available hB.parses_zero).bind fun ordering _ => ?_
    split
    · exact .ok ()
    · exact .error not_false
  · exact .error not_false

end Avoids

theorem Account.Parses.insert_reservation (hself : self.Parses B) {reservation_id amount : String}
    (hamount : B.parses amount = true) :
    (self.insert_reservation reservation_id amount).Parses B := by
  refine ⟨hself.available, ?_, hself.limit⟩
  intro other stored hlookup
  simp only [Account.insert_reservation, Finmap.lookup_insert_eq_ite] at hlookup
  split at hlookup
  · cases hlookup
    exact hamount
  · exact hself.reservations other stored hlookup

theorem Account.Parses.remove_reservation (hself : self.Parses B) (reservation_id : String) :
    (self.remove_reservation reservation_id).Parses B := by
  refine ⟨hself.available, ?_, hself.limit⟩
  intro other stored hlookup
  simp only [Account.remove_reservation, Finmap.lookup_erase_eq_ite] at hlookup
  split at hlookup
  · cases hlookup
  · exact hself.reservations other stored hlookup

theorem Account.Parses.congr {other : Account} (hself : self.Parses B)
    (hbalance : other.balance = self.balance) (hconfig : other.config = self.config) :
    other.Parses B := by
  obtain ⟨havailable, hreservations, hlimit⟩ := hself
  rw [← hbalance] at havailable hreservations
  rw [← hconfig] at hlimit
  exact ⟨havailable, hreservations, hlimit⟩

variable (hB : B.Exact value)
include hB

theorem Account.Parses.increased (hself : self.Parses B) {amount : String} {updated : Account}
    {change : BalanceChange}
    (hincrease : self.increase_balance_by B amount = .ok (updated, change)) :
    updated.Parses B := by
  obtain ⟨_, new_balance, hadd, _, hresult⟩ := increase_balance_by_ok_iff.mp hincrease
  cases hresult
  exact ⟨hB.parses_add hadd, hself.reservations, hself.limit⟩

theorem Account.Parses.released_all (hself : self.Parses B) {reservation_id : String}
    {updated : Account} (hrelease : self.release_all B reservation_id = .ok updated) :
    updated.Parses B := by
  obtain ⟨_, credited, change, _, hincrease, rfl⟩ := release_all_ok hrelease
  exact (hself.increased hB hincrease).remove_reservation reservation_id

/-- A balance operation stores decimals that it printed or that it has parsed. -/
theorem Account.Operated.parses {curr : Account} (hoperated : self.Operated B curr)
    (hself : self.Parses B) : curr.Parses B := by
  cases hoperated with
  | increase hincrease => exact hself.increased hB hincrease
  | reserve hreserve =>
    obtain ⟨hpositive, _, neg_amount, debited, change, _, hincrease, rfl⟩ := reserve_ok hreserve
    obtain ⟨_, hcmp, _⟩ := bind_eq_ok_iff.mp hpositive
    exact (hself.increased hB hincrease).insert_reservation (BalanceCalculator.cmp_parses hcmp)
  | release hrelease =>
    split at hrelease
    · exact hself.released_all hB hrelease
    · obtain ⟨_, _, _, ⟨_, hequal⟩ | ⟨_, credited, change, _, _, hincrease, _, hremained, rfl⟩⟩ :=
        partial_release_ok hrelease
      · exact hself.released_all hB hequal
      · exact (hself.increased hB hincrease).insert_reservation (hB.parses_add hremained)

theorem Account.Parses.new (account_id : String) : (Account.new account_id).Parses B := by
  refine ⟨hB.parses_zero, ?_, ?_⟩
  · intro reservation_id amount hlookup
    cases hlookup
  · intro limit hlimit
    cases hlimit

/-- Every command but UpdateAccountConfig stores decimals only. -/
theorem Account.Written.parses {payload : CommandPayload} {prev : Option Account}
    {written : Account} (hwritten : Account.Written B payload prev written)
    (hprev : ∀ account, prev = some account → account.Parses B)
    (hconfigure : ∀ request, payload = .update_account_config_request request →
      B.parses request.get_balance_limit.lower = true ∧
        B.parses request.get_balance_limit.upper = true) :
    written.Parses B := by
  cases hwritten with
  | create account_id _ => exact .new hB account_id
  | @operate found _ hfound hoperated =>
    refine hoperated.parses hB ?_
    cases prev with
    | none =>
      rw [← hfound]
      exact .new hB found.account_id
    | some account =>
      rw [← hfound]
      exact hprev account rfl
  | lock hfound _ | unlock _ hfound _ | delete hfound _ => exact (hprev _ hfound).congr rfl rfl
  | @configure account request hpayload _ hfound =>
    have haccount := hprev account hfound
    refine ⟨haccount.available, haccount.reservations, ?_⟩
    rintro limit ⟨⟩
    exact hconfigure request hpayload

end accountpb

end firm_wallet
