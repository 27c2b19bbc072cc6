import LayeredConfig.Number.Binary64

/-! # Shortest decimal text

The shortest text of a number has the fewest digits that read back as the number, and of those with
that many digits the nearest to it. The decimals that read back fill an interval around the number,
reaching half way to its neighbours, with its ends if the number's integer part is even. On the
grid of decimals with a given last place only the number's two neighbours need be tried. -/

namespace LayeredConfig.Number

/-- The interval of reals that round to a number, all in quarters of its last binary place:
`low ≤ 4 · m ≤ high`, scaled by `2 ^ exponent / 4`. -/
structure RoundingInterval where
  low : Nat
  middle : Nat
  high : Nat
  exponent : Int
  closed : Bool

/-- The rounding interval of a positive finite number. At a power of two the gap below is half the
gap above. -/
def Binary64.interval (x : Binary64) : RoundingInterval :=
  let (m, q) := x.parts
  let below := if m = Nat.pow 2 52 ∧ -1074 < q then 1 else 2
  ⟨4 * m - below, 4 * m, 4 * m + 2, q - 2, m % 2 = 0⟩

/-- Whether the decimal `digits · 10 ^ place` lies in the interval. -/
def RoundingInterval.holds (i : RoundingInterval) (digits : Nat) (place : Int) : Bool :=
  let (d, b) := if 0 ≤ place then (digits * Nat.pow 10 place.toNat, 1)
    else (digits, Nat.pow 10 (-place).toNat)
  let (d, b) := if 0 ≤ i.exponent then (d, b * Nat.pow 2 i.exponent.toNat)
    else (d * Nat.pow 2 (-i.exponent).toNat, b)
  if i.closed then i.low * b ≤ d && d ≤ i.high * b else i.low * b < d && d < i.high * b

/-- The interval's middle in units of `10 ^ place`, as a fraction. -/
def RoundingInterval.inPlaces (i : RoundingInterval) (place : Int) : Nat × Nat :=
  let (n, d) := scaleByTwo i.middle 1 i.exponent
  if 0 ≤ place then (n, d * Nat.pow 10 place.toNat) else (n * Nat.pow 10 (-place).toNat, d)

/-- The decimal at a place that reads back, if there is one: the nearer of the two neighbours
first. -/
def RoundingInterval.digitsAt? (i : RoundingInterval) (place : Int) : Option Nat :=
  let (n, d) := i.inPlaces place
  let near := roundHalfEven n d
  let far := if near * d ≤ n then near + 1 else near - 1
  if i.holds near place then some near else if i.holds far place then some far else none

/-- Searches the places from the coarsest down for a decimal that reads back. -/
def RoundingInterval.search (i : RoundingInterval) (place : Int) : Nat → Nat × Int
  | 0 => (0, 0)
  | fuel + 1 =>
    match i.digitsAt? place with
    | some digits => (digits, place)
    | none => i.search (place - 1) fuel

/-- The place of the leading digit, or one above it. -/
def leadingPlace (n d : Nat) : Int :=
  ((Nat.log2 n : Int) - (Nat.log2 d : Int) + 1) * 30103 / 100000 + 1

/-- The shortest decimal of a positive finite number, as digits and the place of the last one. -/
def Binary64.shortest (x : Binary64) : Nat × Int :=
  let i := x.interval
  let (n, d) := i.inPlaces 0
  i.search (leadingPlace n d) 400

/-- Digits with their last one at a place, written out without an exponent. -/
def positional (digits : Nat) (place : Int) : List Char :=
  let ds := Nat.toDigits 10 digits
  if 0 ≤ place then ds ++ List.replicate place.toNat '0'
  else
    let fraction := (-place).toNat
    let padded := List.replicate (fraction + 1 - ds.length) '0' ++ ds
    padded.take (padded.length - fraction) ++ '.' :: padded.drop (padded.length - fraction)

/-- The text of a number in a document: never an exponent, and always a point. -/
def Binary64.text (x : Binary64) : String :=
  let sign := if x.negative then ['-'] else []
  let body :=
    if x.isNaN then ['n', 'a', 'n']
    else if x.isInfinite then ['i', 'n', 'f']
    else if x.magnitude = 0 then ['0', '.', '0']
    else
      let (digits, place) := x.shortest
      let text := positional digits place
      if text.contains '.' then text else text ++ ['.', '0']
  String.ofList (sign ++ body)

end LayeredConfig.Number
