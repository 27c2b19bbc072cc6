import LayeredConfig.Number.Integer

/-! # Binary floating point numbers of 64 bits

A number is kept as its bit pattern: a sign, eleven bits of exponent and fifty-two of fraction. A
decimal text stands for an exact rational number, and `ofDecimal` gives the pattern nearest to it,
the even one of two that are equally near. -/

namespace LayeredConfig.Number

/-- A bit pattern. -/
structure Binary64 where
  bits : Nat
  deriving DecidableEq

/-- The rational number `± digits · 10 ^ exponent`. -/
structure Decimal where
  negative : Bool
  digits : Nat
  exponent : Int
  deriving DecidableEq

namespace Binary64

/-- The pattern of a sign and a magnitude. -/
def ofMagnitude (negative : Bool) (magnitude : Nat) : Binary64 :=
  ⟨if negative then Nat.pow 2 63 + magnitude else magnitude⟩

/-- The magnitude of infinity. -/
def infinityMagnitude : Nat := 0x7FF * Nat.pow 2 52

/-- Infinity with a sign. -/
def infinity (negative : Bool) : Binary64 := ofMagnitude negative infinityMagnitude

/-- A number that is none. -/
def nan (negative : Bool) : Binary64 := ofMagnitude negative (infinityMagnitude + Nat.pow 2 51)

/-- The sign bit. -/
def negative (x : Binary64) : Bool := Nat.pow 2 63 ≤ x.bits

/-- The pattern without the sign bit. -/
def magnitude (x : Binary64) : Nat := x.bits % Nat.pow 2 63

def isNaN (x : Binary64) : Bool := infinityMagnitude < x.magnitude

def isInfinite (x : Binary64) : Bool := x.magnitude = infinityMagnitude

/-- The integer `m` and the exponent `q` with `m · 2 ^ q` the absolute value of a finite number. -/
def parts (x : Binary64) : Nat × Int :=
  let e : Nat := x.magnitude / Nat.pow 2 52
  let f : Nat := x.magnitude % Nat.pow 2 52
  if e = 0 then (f, -1074) else (Nat.pow 2 52 + f, Int.ofNat e - 1075)

end Binary64

/-- The integer nearest to `num / den`, the even one of two. -/
def roundHalfEven (num den : Nat) : Nat :=
  let q := num / den
  let r := num % den
  if 2 * r < den then q
  else if den < 2 * r then q + 1
  else q + q % 2

/-- The numerator and denominator of `num / den · 2 ^ shift`. -/
def scaleByTwo (num den : Nat) (shift : Int) : Nat × Nat :=
  if 0 ≤ shift then (num * Nat.pow 2 shift.toNat, den) else (num, den * Nat.pow 2 (-shift).toNat)

/-- The binary exponent at which the fraction `num / den` has an integer part of 53 bits. -/
def leadingExponent (num den : Nat) : Int :=
  let guess : Int := (Nat.log2 num : Int) - (Nat.log2 den : Int) - 52
  let (n, d) := scaleByTwo num den (-guess)
  if n / d < Nat.pow 2 52 then guess - 1 else if Nat.pow 2 53 ≤ n / d then guess + 1 else guess

/-- The magnitude nearest to the positive fraction `num / den`. -/
def nearestMagnitude (num den : Nat) : Nat :=
  let e := max (leadingExponent num den) (-1074)
  let (n, d) := scaleByTwo num den (-e)
  let m := roundHalfEven n d
  let magnitude :=
    if m < Nat.pow 2 52 then m else (e + 1075).toNat * Nat.pow 2 52 + (m - Nat.pow 2 52)
  min magnitude Binary64.infinityMagnitude

/-- The number nearest to a decimal. Decimals far outside the range of the format are not
expanded. -/
def Binary64.ofDecimal (x : Decimal) : Binary64 :=
  let places : Int := (Nat.log2 x.digits : Int) * 3 / 10 + x.exponent
  if x.digits = 0 ∨ places < -400 then .ofMagnitude x.negative 0
  else if 400 < places then .infinity x.negative
  else if 0 ≤ x.exponent then
    .ofMagnitude x.negative (nearestMagnitude (x.digits * Nat.pow 10 x.exponent.toNat) 1)
  else .ofMagnitude x.negative (nearestMagnitude x.digits (Nat.pow 10 (-x.exponent).toNat))

/-! ### Reading -/

/-- The digits at the front, their number, and what follows; the digits are read onto `acc`. -/
def takeDigits (acc count : Nat) : List Char → Nat × Nat × List Char
  | [] => (acc, count, [])
  | c :: cs =>
    match digitValue? c with
    | some d => takeDigits (acc * 10 + d) (count + 1) cs
    | none => (acc, count, c :: cs)

/-- An exponent as it follows its mark: an optional sign and digits up to the end. -/
def readExponent? (cs : List Char) : Option Int :=
  let (negative, digits) :=
    match cs with
    | '+' :: r => (false, r)
    | '-' :: r => (true, r)
    | r => (false, r)
  match takeDigits 0 0 digits with
  | (_, 0, _) => none
  | (e, _, []) => some (if negative then -(e : Int) else e)
  | _ => none

/-- A decimal without its sign: digits with at most one point, then perhaps an exponent. -/
def readDecimal? (negative : Bool) (cs : List Char) : Option Decimal :=
  let (whole, wholeCount, rest) := takeDigits 0 0 cs
  let (digits, places, rest) :=
    match rest with
    | '.' :: r => takeDigits whole 0 r
    | r => (whole, 0, r)
  if wholeCount + places = 0 then none
  else
    match rest with
    | [] => some ⟨negative, digits, -(places : Int)⟩
    | 'e' :: r | 'E' :: r => (readExponent? r).map fun e => ⟨negative, digits, e - places⟩
    | _ => none

/-- A number by name, without its sign; capital letters count as small ones. -/
def namedBinary64? (negative : Bool) (cs : List Char) : Option Binary64 :=
  let name := String.ofList (cs.map Char.toLower)
  if name = "inf" ∨ name = "infinity" then some (.infinity negative)
  else if name = "nan" then some (.nan negative)
  else none

/-- Reads an optionally signed decimal, infinity or the number that is none. -/
def readBinary64? (cs : List Char) : Option Binary64 :=
  let (negative, body) :=
    match cs with
    | '+' :: r => (false, r)
    | '-' :: r => (true, r)
    | r => (false, r)
  match readDecimal? negative body with
  | some x => some (.ofDecimal x)
  | none => namedBinary64? negative body

end LayeredConfig.Number
