import LayeredConfig.Number.Integer

/-! # Dates and times

A moment is a date, a time of day, or both, and with both an offset from universal time. It is read
in the notation of TOML documents, and written in one form only: a capital T between date and time,
a capital Z for no offset, and a fraction of a second without zeros at its end. -/

namespace LayeredConfig.Toml

/-- A day of the calendar. -/
structure Date where
  year : Nat
  month : Nat
  day : Nat
  deriving DecidableEq

/-- A time of day. The fraction is in nanoseconds. -/
structure Time where
  hour : Nat
  minute : Nat
  second : Option Nat
  fraction : Option Nat
  deriving DecidableEq

/-- The distance from universal time. -/
inductive Offset
  | universal
  | minutes (negative : Bool) (minutes : Nat)
  deriving DecidableEq

/-- A date, a time of day, or both. -/
structure Moment where
  date : Option Date
  time : Option Time
  offset : Option Offset
  deriving DecidableEq

/-! ### Writing -/

/-- A number with zeros in front, up to a width. -/
def padded (width n : Nat) : List Char :=
  let digits := Nat.toDigits 10 n
  List.replicate (width - digits.length) '0' ++ digits

def Date.write (d : Date) : List Char :=
  padded 4 d.year ++ '-' :: padded 2 d.month ++ '-' :: padded 2 d.day

/-- A fraction of a second: at least one decimal, and no further zeros at the end. -/
def writeFraction (nanoseconds : Nat) : List Char :=
  match ((padded 9 nanoseconds).reverse.dropWhile (· = '0')).reverse with
  | [] => ['0']
  | decimals => decimals

def Time.write (t : Time) : List Char :=
  let second := (t.second.map fun s => ':' :: padded 2 s).getD []
  let fraction := (t.fraction.map fun f => '.' :: writeFraction f).getD []
  padded 2 t.hour ++ ':' :: padded 2 t.minute ++ second ++ fraction

def Offset.write : Offset → List Char
  | universal => ['Z']
  | minutes negative m =>
    (if negative && m ≠ 0 then '-' else '+') :: padded 2 (m / 60) ++ ':' :: padded 2 (m % 60)

/-- The text of a moment. -/
def Moment.text (m : Moment) : String :=
  let date := (m.date.map Date.write).getD []
  let time := (m.time.map Time.write).getD []
  let between := if m.date.isSome && m.time.isSome then ['T'] else []
  String.ofList (date ++ between ++ time ++ (m.offset.map Offset.write).getD [])

/-! ### Reading -/

/-- Reads a number of exactly `width` digits off the front of a text. -/
def takeNumber? (width : Nat) (cs : List Char) : Option (Nat × List Char) := do
  let digits := cs.take width
  if digits.length < width then none
  let n ← digits.foldlM (fun n c => (Number.digitValue? c).map fun d => n * 10 + d) 0
  return (n, cs.drop width)

/-- Takes a given sign off the front of a text. -/
def takeSign? (sign : Char) : List Char → Option (List Char)
  | [] => none
  | c :: cs => if c = sign then some cs else none

/-- The number of days of a month. -/
def daysOf (year month : Nat) : Nat :=
  if month = 2 then
    if year % 4 = 0 ∧ (year % 100 ≠ 0 ∨ year % 400 = 0) then 29 else 28
  else if month = 4 ∨ month = 6 ∨ month = 9 ∨ month = 11 then 30
  else 31

/-- Reads a day that the calendar has. -/
def Date.read? (cs : List Char) : Option (Date × List Char) := do
  let (year, cs) ← takeNumber? 4 cs
  let (month, cs) ← takeNumber? 2 (← takeSign? '-' cs)
  let (day, cs) ← takeNumber? 2 (← takeSign? '-' cs)
  if 1 ≤ month ∧ month ≤ 12 ∧ 1 ≤ day ∧ day ≤ daysOf year month then
    return (⟨year, month, day⟩, cs)
  else none

/-- Reads the decimals of a second, of which there must be one. Those behind the ninth are
dropped. -/
def readFraction? (cs : List Char) : Option (Nat × List Char) :=
  let digits := cs.takeWhile fun c => (Number.digitValue? c).isSome
  if digits.isEmpty then none
  else
    let kept := (digits ++ List.replicate 9 '0').take 9
    (takeNumber? 9 kept).map fun n => (n.1, cs.drop digits.length)

/-- Reads a time of day; seconds may be left out. -/
def Time.read? (cs : List Char) : Option (Time × List Char) := do
  let (hour, cs) ← takeNumber? 2 cs
  let (minute, cs) ← takeNumber? 2 (← takeSign? ':' cs)
  if 23 < hour ∨ 59 < minute then none
  match cs with
  | ':' :: cs =>
    let (second, cs) ← takeNumber? 2 cs
    if 60 < second then none
    match cs with
    | '.' :: cs =>
      let (fraction, cs) ← readFraction? cs
      return (⟨hour, minute, some second, some fraction⟩, cs)
    | _ => return (⟨hour, minute, some second, none⟩, cs)
  | _ => return (⟨hour, minute, none, none⟩, cs)

/-- Reads an offset of at most one day. -/
def Offset.read? (cs : List Char) : Option (Offset × List Char) :=
  match cs with
  | 'Z' :: cs | 'z' :: cs => some (.universal, cs)
  | sign :: cs => do
    if sign ≠ '+' ∧ sign ≠ '-' then none
    let (hours, cs) ← takeNumber? 2 cs
    let (rest, cs) ← takeNumber? 2 (← takeSign? ':' cs)
    if 59 < rest ∨ 24 * 60 < hours * 60 + rest then none
    return (.minutes (sign = '-') (hours * 60 + rest), cs)
  | [] => none

/-- Reads a moment, and nothing else. -/
def Moment.read? (cs : List Char) : Option Moment :=
  match Date.read? cs with
  | some (date, []) => some ⟨some date, none, none⟩
  | some (date, between :: cs) => do
    if between ≠ 'T' ∧ between ≠ 't' ∧ between ≠ ' ' then none
    match ← Time.read? cs with
    | (time, []) => return ⟨some date, some time, none⟩
    | (time, cs) =>
      match ← Offset.read? cs with
      | (offset, []) => return ⟨some date, some time, some offset⟩
      | _ => none
  | none => do
    match ← Time.read? cs with
    | (time, []) => return ⟨none, some time, none⟩
    | _ => none

end LayeredConfig.Toml
