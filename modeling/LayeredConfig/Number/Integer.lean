/-! # Reading integers of a fixed width

An integer is written as an optional sign and decimal digits. The digits are read from the left,
and the first fault met decides: a character that is no digit, or a value that has left the range
of the width. -/

namespace LayeredConfig.Number

/-- A width in bits, with or without negative numbers. -/
structure IntegerKind where
  signed : Bool
  bits : Nat
  deriving DecidableEq

/-- Why a text is not an integer of a kind. -/
inductive IntegerFault
  | empty
  | invalidDigit
  | tooLarge
  | tooSmall
  deriving DecidableEq

namespace IntegerKind

/-- The least number of the kind. -/
def least (kind : IntegerKind) : Int :=
  if kind.signed then -(Nat.pow 2 (kind.bits - 1) : Nat) else 0

/-- The greatest number of the kind. -/
def greatest (kind : IntegerKind) : Int :=
  if kind.signed then (Nat.pow 2 (kind.bits - 1) : Nat) - 1 else (Nat.pow 2 kind.bits : Nat) - 1

end IntegerKind

/-- The value of an ASCII digit. -/
def digitValue? (c : Char) : Option Nat :=
  if '0' ≤ c ∧ c ≤ '9' then some (c.toNat - '0'.toNat) else none

/-- Reads digits onto the magnitude `acc`, as long as it does not pass `bound`. -/
def readMagnitude (bound : Nat) (overflow : IntegerFault) :
    Nat → List Char → Except IntegerFault Nat
  | acc, [] => .ok acc
  | acc, c :: cs =>
    match digitValue? c with
    | none => .error .invalidDigit
    | some d =>
      if acc * 10 + d ≤ bound then readMagnitude bound overflow (acc * 10 + d) cs
      else .error overflow

/-- Reads a number that is not negative, of which there must be at least one digit. -/
def readPositive (kind : IntegerKind) : List Char → Except IntegerFault Int
  | [] => .error .invalidDigit
  | cs => (readMagnitude kind.greatest.toNat .tooLarge 0 cs).map Int.ofNat

/-- Reads the number whose sign was a minus. -/
def readNegative (kind : IntegerKind) : List Char → Except IntegerFault Int
  | [] => .error .invalidDigit
  | cs => (readMagnitude (-kind.least).toNat .tooSmall 0 cs).map fun n => -Int.ofNat n

/-- Reads an integer of a kind. A minus is a sign only where there are negative numbers. -/
def readInteger (kind : IntegerKind) : List Char → Except IntegerFault Int
  | [] => .error .empty
  | '+' :: cs => readPositive kind cs
  | '-' :: cs => if kind.signed then readNegative kind cs else .error .invalidDigit
  | cs => readPositive kind cs

end LayeredConfig.Number
