/-! # Lengths of time

A length of time is a number of nanoseconds. It is written in the greatest unit that it fills, from
seconds down to nanoseconds, with as many decimals as it has. -/

namespace LayeredConfig

/-- A length of time. -/
structure Duration where
  nanoseconds : Nat
  deriving DecidableEq

namespace Duration

def ofSeconds (seconds nanoseconds : Nat) : Duration := ⟨seconds * 1000000000 + nanoseconds⟩

def ofMilliseconds (milliseconds : Nat) : Duration := ⟨milliseconds * 1000000⟩

/-- The decimals of `part / 10 ^ width`, without the zeros at the end. -/
def decimals (part width : Nat) : List Char :=
  let digits := Nat.toDigits 10 part
  let padded := List.replicate (width - digits.length) '0' ++ digits
  (padded.reverse.dropWhile (· = '0')).reverse

/-- A count of units of `10 ^ width` nanoseconds. -/
def inUnit (d : Duration) (width : Nat) (unit : String) : String :=
  let whole := toString (d.nanoseconds / Nat.pow 10 width)
  let part := d.nanoseconds % Nat.pow 10 width
  if part = 0 then whole ++ unit
  else whole ++ "." ++ String.ofList (decimals part width) ++ unit

/-- The text of a length of time. -/
def text (d : Duration) : String :=
  if 1000000000 ≤ d.nanoseconds then d.inUnit 9 "s"
  else if 1000000 ≤ d.nanoseconds then d.inUnit 6 "ms"
  else if 1000 ≤ d.nanoseconds then d.inUnit 3 "µs"
  else d.inUnit 0 "ns"

end Duration

end LayeredConfig
