import LayeredConfig.Number.Integer
import LayeredConfig.Pattern

/-! # Reading patterns

The notation of patterns: characters stand for themselves, but for the signs that do not. A reader
takes what it reads off the front of a text and gives the rest; it gives nothing where the notation
is broken, such as at a group that is not closed, a repetition of nothing, or a range that runs
backwards. Every nested part begins behind a bracket, so the length of a text bounds the
nesting. -/

namespace LayeredConfig.Pattern

/-- How the signs that follow are meant. -/
structure Mode where
  ignoreCase : Bool := false
  multiLine : Bool := false
  dotMatchesLineFeed : Bool := false

/-! ### Escapes -/

/-- The value of a hexadecimal digit. -/
def hexValue? (c : Char) : Option Nat :=
  if '0' ≤ c ∧ c ≤ '9' then some (c.toNat - '0'.toNat)
  else if 'a' ≤ c ∧ c ≤ 'f' then some (c.toNat - 'a'.toNat + 10)
  else if 'A' ≤ c ∧ c ≤ 'F' then some (c.toNat - 'A'.toNat + 10)
  else none

/-- A code point in hexadecimal digits, of which there must be some. -/
def hexChar? (digits : List Char) : Option Char :=
  if digits.isEmpty then none
  else do
    let value ← digits.foldlM (fun n c => (hexValue? c).map fun d => n * 16 + d) 0
    if value < 0xD800 ∨ (0xDFFF < value ∧ value < 0x110000) then some (Char.ofNat value) else none

/-- A code point in a given number of digits, or in braces. -/
def readHex? (width : Nat) (cs : List Char) : Option (Char × List Char) :=
  match cs with
  | '\x7b' :: r =>
    match r.dropWhile (· ≠ '\x7d') with
    | [] => none
    | _ :: rest => (hexChar? (r.takeWhile (· ≠ '\x7d'))).map (·, rest)
  | _ =>
    if cs.length < width then none else (hexChar? (cs.take width)).map (·, cs.drop width)

/-- What an escape stands for. -/
inductive Escape
  | char (c : Char)
  | set (s : CharSet)
  | anchor (a : Anchor)

/-- Reads an escape behind its backslash. -/
def readEscape? : List Char → Option (Escape × List Char)
  | [] => none
  | c :: cs =>
    match c with
    | 'd' => some (.set .digit, cs)
    | 'D' => some (.set (.complement .digit), cs)
    | 's' => some (.set .blank, cs)
    | 'S' => some (.set (.complement .blank), cs)
    | 'w' => some (.set .word, cs)
    | 'W' => some (.set (.complement .word), cs)
    | 'b' => some (.anchor .wordEdge, cs)
    | 'B' => some (.anchor .noWordEdge, cs)
    | '<' => some (.anchor .wordStart, cs)
    | '>' => some (.anchor .wordEnd, cs)
    | 'A' => some (.anchor .textStart, cs)
    | 'z' => some (.anchor .textEnd, cs)
    | 'a' => some (.char '\x07', cs)
    | 'f' => some (.char '\x0c', cs)
    | 'n' => some (.char '\n', cs)
    | 'r' => some (.char '\r', cs)
    | 't' => some (.char '\t', cs)
    | 'v' => some (.char '\x0b', cs)
    | 'x' => (readHex? 2 cs).map fun r => (.char r.1, r.2)
    | 'u' => (readHex? 4 cs).map fun r => (.char r.1, r.2)
    | 'U' => (readHex? 8 cs).map fun r => (.char r.1, r.2)
    | _ => if c.toNat < 0x80 && !c.isAlphanum then some (.char c, cs) else none

/-! ### Classes -/

/-- A class of ASCII characters by name. -/
def namedSet? (name : String) : Option CharSet :=
  match name with
  | "alnum" => some (.union (.range '0' '9') (.union (.range 'A' 'Z') (.range 'a' 'z')))
  | "alpha" => some (.union (.range 'A' 'Z') (.range 'a' 'z'))
  | "ascii" => some (.range '\x00' '\x7f')
  | "blank" => some (.union (.single '\t') (.single ' '))
  | "cntrl" => some (.union (.range '\x00' '\x1f') (.single '\x7f'))
  | "digit" => some (.range '0' '9')
  | "graph" => some (.range '!' '~')
  | "lower" => some (.range 'a' 'z')
  | "print" => some (.range ' ' '~')
  | "punct" => some (.union (.range '!' '/') (.union (.range ':' '@')
      (.union (.range '[' (Char.ofNat 0x60)) (.range '\x7b' '~'))))
  | "space" => some (.union (.range '\t' '\r') (.single ' '))
  | "upper" => some (.range 'A' 'Z')
  | "word" => some (.union (.union (.range '0' '9') (.single '_'))
      (.union (.range 'A' 'Z') (.range 'a' 'z')))
  | "xdigit" => some (.union (.range '0' '9') (.union (.range 'A' 'F') (.range 'a' 'f')))
  | _ => none

/-- Reads a named class behind its opening `[:`. -/
def readNamed? (cs : List Char) : Option (CharSet × List Char) :=
  let (negated, cs) :=
    match cs with
    | '^' :: r => (true, r)
    | r => (false, r)
  match cs.dropWhile Char.isAlpha with
  | ':' :: ']' :: rest =>
    (namedSet? (String.ofList (cs.takeWhile Char.isAlpha))).map fun s =>
      (.complementIf negated s, rest)
  | _ => none

/-- Reads one member of a class that is no class itself. -/
def readMember? : List Char → Option (Escape × List Char)
  | [] => none
  | '\\' :: cs =>
    match readEscape? cs with
    | some (.anchor _, _) => none
    | r => r
  | c :: cs => some (.char c, cs)

/-- Reads a member or a range of a class. -/
def readItem? (cs : List Char) : Option (CharSet × List Char) := do
  let (low, rest) ← readMember? cs
  match low with
  | .anchor _ => none
  | .set s =>
    match rest with
    | '-' :: ']' :: _ | '-' :: '-' :: _ => some (s, rest)
    | '-' :: _ => none
    | _ => some (s, rest)
  | .char a =>
    match rest with
    | '-' :: ']' :: _ | '-' :: '-' :: _ | '-' :: [] => some (.single a, rest)
    | '-' :: behind =>
      match readMember? behind with
      | some (.char b, rest) => if a ≤ b then some (.range a b, rest) else none
      | _ => none
    | _ => some (.single a, rest)

/-- An operation between the parts of a class. -/
inductive ClassOp
  | meet
  | difference
  | symmetric

/-- Joins the part read so far to the parts before it. -/
def ClassOp.join : Option (CharSet × ClassOp) → CharSet → CharSet
  | none, s => s
  | some (left, .meet), s => .meet left s
  | some (left, .difference), s => .meet left (.complement s)
  | some (left, .symmetric), s =>
    .union (.meet left (.complement s)) (.meet s (.complement left))

/-- Reads a class behind its opening bracket; `fuel` bounds the signs read. -/
def readClass? (mode : Mode) : Nat → List Char → Option (CharSet × List Char)
  | 0, _ => none
  | fuel + 1, cs =>
    let (negated, cs) :=
      match cs with
      | '^' :: r => (true, r)
      | r => (false, r)
    let dashes := cs.takeWhile (· = '-')
    let cs := cs.dropWhile (· = '-')
    let start : CharSet := if dashes.isEmpty then .empty else .single '-'
    let (start, cs) : CharSet × List Char :=
      match dashes, cs with
      | [], ']' :: r => (.single ']', r)
      | _, r => (start, r)
    (items fuel none start cs).map fun r =>
      (.complementIf negated (.foldedIf mode.ignoreCase r.1), r.2)
where
  /-- Reads items up to the closing bracket, onto the set read so far. -/
  items : Nat → Option (CharSet × ClassOp) → CharSet → List Char → Option (CharSet × List Char)
    | 0, _, _, _ => none
    | _ + 1, _, _, [] => none
    | _ + 1, left, acc, ']' :: rest => some (ClassOp.join left acc, rest)
    | fuel + 1, left, acc, '&' :: '&' :: rest =>
      items fuel (some (ClassOp.join left acc, .meet)) .empty rest
    | fuel + 1, left, acc, '-' :: '-' :: rest =>
      items fuel (some (ClassOp.join left acc, .difference)) .empty rest
    | fuel + 1, left, acc, '~' :: '~' :: rest =>
      items fuel (some (ClassOp.join left acc, .symmetric)) .empty rest
    | fuel + 1, left, acc, '[' :: rest =>
      let named :=
        match rest with
        | ':' :: r => readNamed? r
        | _ => none
      match named with
      | some (s, rest) => items fuel left (.union acc s) rest
      | none => do
        let (s, rest) ← readClass? mode fuel rest
        items fuel left (.union acc s) rest
    | fuel + 1, left, acc, rest => do
      let (s, rest) ← readItem? rest
      items fuel left (.union acc s) rest

/-! ### Repetitions -/

/-- Drops the sign that asks for few or for many; it has no bearing on whether there is a match. -/
def dropLazy : List Char → List Char
  | '?' :: cs => cs
  | cs => cs

/-- Reads a number of 32 bits. -/
def readCount? (cs : List Char) : Option (Nat × List Char) := do
  let digits := cs.takeWhile fun c => (Number.digitValue? c).isSome
  let value ← (Number.readInteger ⟨false, 32⟩ digits).toOption
  return (value.toNat, cs.drop digits.length)

/-- Reads the bounds of a repetition behind the opening brace. -/
def readBounds? (cs : List Char) : Option ((Nat × Option Nat) × List Char) := do
  let (least, rest) ← readCount? cs
  match rest with
  | '\x7d' :: rest => some ((least, some least), rest)
  | ',' :: '\x7d' :: rest => some ((least, none), rest)
  | ',' :: rest =>
    let (most, rest) ← readCount? rest
    match rest with
    | '\x7d' :: rest => if least ≤ most then some ((least, some most), rest) else none
    | _ => none
  | _ => none

/-! ### Groups -/

/-- Sets or clears a way in which signs are meant. -/
def Mode.set? (mode : Mode) (on : Bool) : Char → Option Mode
  | 'i' => some { mode with ignoreCase := on }
  | 'm' => some { mode with multiLine := on }
  | 's' => some { mode with dotMatchesLineFeed := on }
  | 'U' => some mode
  | 'u' => if on then some mode else none
  | _ => none

/-- Reads flags up to the sign that ends them; `true` says that a group follows. -/
def readFlags? (mode : Mode) (on fresh : Bool) : List Char → Option (Mode × Bool × List Char)
  | [] => none
  | ':' :: cs => if fresh && !on then none else some (mode, true, cs)
  | ')' :: cs => if fresh then none else some (mode, false, cs)
  | '-' :: cs => if on then readFlags? mode false true cs else none
  | c :: cs => do readFlags? (← mode.set? on c) on false cs

/-- Reads a group name up to its closing bracket. -/
def readName? (cs : List Char) : Option (List Char) :=
  let isPart (c : Char) : Bool := c.isAlphanum || c = '_' || c = '.' || c = '[' || c = ']'
  match cs, cs.dropWhile isPart with
  | c :: _, '>' :: rest => if c.isAlpha || c = '_' then some rest else none
  | _, _ => none

/-- What is read behind an opening parenthesis. -/
inductive GroupHead
  /-- The modes of the group. -/
  | group (mode : Mode) (rest : List Char)
  /-- Modes for what follows; there is no group. -/
  | directive (mode : Mode) (rest : List Char)

/-- Reads the beginning of a group. -/
def readGroupHead? (mode : Mode) : List Char → Option GroupHead
  | '?' :: 'P' :: '<' :: cs => (readName? cs).map (.group mode)
  | '?' :: '<' :: cs => (readName? cs).map (.group mode)
  | '?' :: cs => do
    let (inner, isGroup, rest) ← readFlags? mode true true cs
    return if isGroup then .group inner rest else .directive inner rest
  | cs => some (.group mode cs)

/-! ### Patterns -/

/-- Reads a sign that is no group and no class. -/
def readSign? (mode : Mode) : List Char → Option (Pattern × List Char)
  | [] => none
  | '\\' :: cs => (readEscape? cs).map fun
    | (.char c, rest) => (.set (.foldedIf mode.ignoreCase (.single c)), rest)
    | (.set s, rest) => (.set s, rest)
    | (.anchor a, rest) => (.anchor a, rest)
  | '.' :: cs => some (.set (if mode.dotMatchesLineFeed then .all else .inLine), cs)
  | '^' :: cs => some (.anchor (if mode.multiLine then .lineStart else .textStart), cs)
  | '$' :: cs => some (.anchor (if mode.multiLine then .lineEnd else .textEnd), cs)
  | c :: cs =>
    if c = '*' ∨ c = '+' ∨ c = '?' ∨ c = '\x7b' then none
    else some (.set (.foldedIf mode.ignoreCase (.single c)), cs)

/-- Reads the repetitions behind a part. -/
def readRepeats? : Nat → Pattern → List Char → Option (Pattern × List Char)
  | 0, _, _ => none
  | fuel + 1, p, '*' :: cs => readRepeats? fuel (.repeated p 0 none) (dropLazy cs)
  | fuel + 1, p, '+' :: cs => readRepeats? fuel (.repeated p 1 none) (dropLazy cs)
  | fuel + 1, p, '?' :: cs => readRepeats? fuel (.repeated p 0 (some 1)) (dropLazy cs)
  | fuel + 1, p, '\x7b' :: cs => do
    let ((least, most), rest) ← readBounds? cs
    readRepeats? fuel (.repeated p least most) (dropLazy rest)
  | _ + 1, p, cs => some (p, cs)

/-- Reads alternatives up to a closing parenthesis or the end. `before` holds the alternatives
before the present one, and `acc` what the present one has so far. -/
def readAlternatives? :
    Nat → Mode → Option Pattern → Pattern → List Char → Option (Pattern × List Char)
  | 0, _, _, _, _ => none
  | fuel + 1, mode, before, acc, cs =>
    let whole := (before.map fun b => Pattern.alt b acc).getD acc
    match cs with
    | [] => some (whole, [])
    | ')' :: _ => some (whole, cs)
    | '|' :: rest => readAlternatives? fuel mode (some whole) .nothing rest
    | '(' :: rest =>
      match readGroupHead? mode rest with
      | none => none
      | some (.directive mode rest) =>
        match rest with
        | '*' :: _ | '+' :: _ | '?' :: _ | '\x7b' :: _ => none
        | _ => readAlternatives? fuel mode before acc rest
      | some (.group inner rest) => do
        let (p, rest) ← readAlternatives? fuel inner none .nothing rest
        match rest with
        | ')' :: rest =>
          let (p, rest) ← readRepeats? (rest.length + 1) p rest
          readAlternatives? fuel mode before (.seq acc p) rest
        | _ => none
    | '[' :: rest => do
      let (s, rest) ← readClass? mode (rest.length + 1) rest
      let (p, rest) ← readRepeats? (rest.length + 1) (.set s) rest
      readAlternatives? fuel mode before (.seq acc p) rest
    | _ => do
      let (p, rest) ← readSign? mode cs
      let (p, rest) ← readRepeats? (rest.length + 1) p rest
      readAlternatives? fuel mode before (.seq acc p) rest

/-- Reads a whole pattern. -/
def ofText? (text : String) : Option Pattern :=
  match readAlternatives? (text.toList.length + 1) {} none .nothing text.toList with
  | some (p, []) => some p
  | _ => none

end LayeredConfig.Pattern
