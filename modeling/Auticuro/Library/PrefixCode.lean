import Mathlib.Tactic.Common

/-- An encoding that ends by itself: what follows it is left over when it is
read. -/
structure PrefixCode (M : Type) where
  write : M → List UInt8
  parse : List UInt8 → Option (M × List UInt8)
  parse_write : ∀ message rest, parse (write message ++ rest) = some (message, rest)

namespace PrefixCode

variable {M N : Type}

/-- A whole string is read with nothing left over. -/
def read (self : PrefixCode M) (string : List UInt8) : Option M :=
  (self.parse string).map Prod.fst

theorem read_write (self : PrefixCode M) (message : M) :
    self.read (self.write message) = some message := by
  have hparse := self.parse_write message []
  rw [List.append_nil] at hparse
  rw [read, hparse]
  rfl

def parse_nat : List UInt8 → Option (Nat × List UInt8)
  | [] => none
  | byte :: rest =>
    if byte = 0 then some (0, rest) else (parse_nat rest).map fun read => (read.1 + 1, read.2)

theorem parse_nat_write (n : Nat) (rest : List UInt8) :
    parse_nat (List.replicate n 1 ++ [0] ++ rest) = some (n, rest) := by
  induction n with
  | zero => rfl
  | succ n ih =>
    rw [List.replicate_succ, List.cons_append, List.cons_append, parse_nat,
      if_neg (by decide), ih]
    rfl

/-- Ones, ended by a zero. -/
def nat : PrefixCode Nat where
  write := fun n => List.replicate n 1 ++ [0]
  parse := parse_nat
  parse_write := parse_nat_write

def byte : PrefixCode UInt8 where
  write := fun byte => [byte]
  parse := fun
    | [] => none
    | byte :: rest => some (byte, rest)
  parse_write := fun _ _ => rfl

def pair (first : PrefixCode M) (second : PrefixCode N) : PrefixCode (M × N) where
  write := fun message => first.write message.1 ++ second.write message.2
  parse := fun string => (first.parse string).bind fun left =>
    (second.parse left.2).map fun right => ((left.1, right.1), right.2)
  parse_write := by
    intro message rest
    rw [List.append_assoc, first.parse_write, Option.bind_some, second.parse_write]
    rfl

/-- One alternative or the other, told apart by the first byte. -/
def sum (first : PrefixCode M) (second : PrefixCode N) : PrefixCode (M ⊕ N) where
  write := fun
    | .inl message => 0 :: first.write message
    | .inr message => 1 :: second.write message
  parse := fun
    | [] => none
    | tag :: string =>
      if tag = 0 then (first.parse string).map fun read => (.inl read.1, read.2)
      else (second.parse string).map fun read => (.inr read.1, read.2)
  parse_write := by
    rintro (message | message) rest
    · simp only [List.cons_append, if_true, first.parse_write]
      rfl
    · have htag : ¬(1 : UInt8) = 0 := by decide
      simp only [List.cons_append, if_neg htag, second.parse_write]
      rfl

def unit : PrefixCode Unit where
  write := fun _ => []
  parse := fun string => some ((), string)
  parse_write := fun _ _ => rfl

def parse_list (each : PrefixCode M) : Nat → List UInt8 → Option (List M × List UInt8)
  | 0, string => some ([], string)
  | count + 1, string => (each.parse string).bind fun first =>
    (parse_list each count first.2).map fun others => (first.1 :: others.1, others.2)

theorem parse_list_write (each : PrefixCode M) (messages : List M) (rest : List UInt8) :
    parse_list each messages.length (messages.flatMap each.write ++ rest) =
      some (messages, rest) := by
  induction messages with
  | nil => rfl
  | cons message messages ih =>
    rw [List.length_cons, List.flatMap_cons, parse_list, List.append_assoc, each.parse_write,
      Option.bind_some, ih]
    rfl

/-- The number of messages, then the messages. -/
def list (each : PrefixCode M) : PrefixCode (List M) where
  write := fun messages => nat.write messages.length ++ messages.flatMap each.write
  parse := fun string => (nat.parse string).bind fun count => parse_list each count.1 count.2
  parse_write := by
    intro messages rest
    rw [List.append_assoc, nat.parse_write, Option.bind_some]
    exact parse_list_write each messages rest

/-- Messages of another type, by what they are made of. -/
def map (self : PrefixCode M) (parts : N → M) (whole : M → N)
    (hwhole : ∀ message, whole (parts message) = message) : PrefixCode N where
  write := fun message => self.write (parts message)
  parse := fun string => (self.parse string).map fun read => (whole read.1, read.2)
  parse_write := by
    intro message rest
    rw [self.parse_write, Option.map_some, hwhole]

end PrefixCode
