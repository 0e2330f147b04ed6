import Auticuro.BalanceCalculator
import Auticuro.Library.Decimal

namespace firm_wallet.balance_calculator

open errors

/-- Decimals in plain notation, printed and parsed as the crate does. Exponents
are the part of the crate's syntax that it does not accept. -/
def plainDecimal : BigDecimal where
  Decimal := Decimal
  from_str text :=
    match Decimal.parse text with
    | some decimal => .ok decimal
    | none =>
      if text = "" then .error ⟨"Failed to parse empty string"⟩
      else .error ⟨"invalid digit found in string"⟩
  add := Decimal.add
  neg := Decimal.neg
  cmp := Decimal.cmp
  normalized := Decimal.normalized
  to_string := Decimal.toString

theorem plainDecimal_from_str_toString (input : Decimal) :
    plainDecimal.from_str input.toString = .ok input := by
  simp only [plainDecimal, Decimal.parse_toString]

def plainValue : plainDecimal.Decimal → ℚ := Decimal.value

theorem plainDecimal_exact : plainDecimal.Exact plainValue where
  value_add := Decimal.value_add
  value_neg := Decimal.value_neg
  cmp_eq := Decimal.cmp_eq
  value_normalized := Decimal.value_normalized
  from_str_to_string := fun input => ⟨input, plainDecimal_from_str_toString input, rfl⟩
  from_str_zero := ⟨⟨0, 1⟩, rfl, by norm_num [plainValue, Decimal.value]⟩
  from_str_empty := ⟨⟨"Failed to parse empty string"⟩, rfl⟩

example : BalanceCalculator.add plainDecimal "12.34" "0.020" = .ok "12.36" := by decide
example : BalanceCalculator.neg plainDecimal "-12.34" = .ok "12.34" := by decide

end firm_wallet.balance_calculator
