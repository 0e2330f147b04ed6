import Mathlib.Tactic.Common

namespace Journal

variable {S : Type}

/-- A line of a journal: a change with the states on both sides of it, or a
reset to the initial state. -/
inductive Record (S : Type) where
  | change (prev curr : S)
  | reset
  deriving DecidableEq

/-- The journal leads from one state to another. The state before each change is
the one reached so far: where the preceding change ended, or the initial state
after a reset. -/
def Replays (same : S → S → Prop) (initial : S) : S → List (Record S) → S → Prop
  | start, [], last => same start last
  | start, .change prev curr :: records, last =>
    same start prev ∧ Replays same initial curr records last
  | _, .reset :: records, last => Replays same initial initial records last

variable {same : S → S → Prop} {initial : S} (hsame : Equivalence same)
include hsame

theorem Replays.of_same_start {start start' last : S} {records : List (Record S)}
    (hstart : same start start') (hreplays : Replays same initial start' records last) :
    Replays same initial start records last := by
  cases records with
  | nil => exact hsame.trans hstart hreplays
  | cons record records =>
    cases record with
    | change prev curr => exact ⟨hsame.trans hstart hreplays.1, hreplays.2⟩
    | reset => exact hreplays

theorem Replays.append {start middle last : S} {first second : List (Record S)}
    (hfirst : Replays same initial start first middle)
    (hsecond : Replays same initial middle second last) :
    Replays same initial start (first ++ second) last := by
  induction first generalizing start with
  | nil => exact Replays.of_same_start hsame hfirst hsecond
  | cons record first ih =>
    cases record with
    | change prev curr => exact ⟨hfirst.1, ih hfirst.2⟩
    | reset => exact ih hfirst

theorem Replays.of_same_last {start last last' : S} {records : List (Record S)}
    (hreplays : Replays same initial start records last) (hlast : same last last') :
    Replays same initial start records last' := by
  have hempty : Replays same initial last [] last' := hlast
  simpa using Replays.append hsame hreplays hempty

end Journal
