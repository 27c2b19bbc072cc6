import LayeredConfig.Error
import LayeredConfig.Format.Toml.Section
import LayeredConfig.Pattern.Reading

/-! # Reading tree documents

The notation of documents. A reader takes what it reads off the front of a text and gives the rest,
or nothing where the notation is broken. Arrays and braces may be nested up to a bound, on which
the reading of values recurs; a loop over elements or lines is bounded by the length of the
text. -/

namespace LayeredConfig.Toml

/-! ### Blanks, comments and line ends -/

/-- Whether a character is a blank inside a line. -/
def isSpace (c : Char) : Bool := c = ' ' || c = '\t'

/-- Whether a character may stand in a comment or a text on one line. -/
def isPrintable (c : Char) : Bool := c = '\t' || (' ' ≤ c && c ≠ '\x7f')

def skipSpaces (cs : List Char) : List Char := cs.dropWhile isSpace

/-- Skips blanks, line ends and comments. -/
def skipLines (inComment : Bool) : List Char → Option (List Char)
  | [] => some []
  | '\n' :: cs => skipLines false cs
  | '\r' :: '\n' :: cs => skipLines false cs
  | c :: cs =>
    if inComment then if isPrintable c then skipLines true cs else none
    else if isSpace c then skipLines false cs
    else if c = '#' then skipLines true cs
    else some (c :: cs)

/-- Skips the rest of a line, on which only a comment may stand. -/
def endLine (inComment : Bool) : List Char → Option (List Char)
  | [] => some []
  | '\n' :: cs => some cs
  | '\r' :: '\n' :: cs => some cs
  | c :: cs =>
    if inComment then if isPrintable c then endLine true cs else none
    else if isSpace c then endLine false cs
    else if c = '#' then endLine true cs
    else none

/-! ### Texts -/

/-- The character of an escape of one letter. -/
def escapeOf? : Char → Option Char
  | 'b' => some '\x08'
  | 't' => some '\t'
  | 'n' => some '\n'
  | 'f' => some '\x0c'
  | 'r' => some '\r'
  | 'e' => some '\x1b'
  | '"' => some '"'
  | '\\' => some '\\'
  | _ => none

/-- Puts a character in front of what was read. -/
def push (c : Char) (r : List Char × List Char) : List Char × List Char := (c :: r.1, r.2)

/-- Reads a text up to its closing quote, escapes being replaced. -/
def readQuoted : List Char → Option (List Char × List Char)
  | [] => none
  | '"' :: cs => some ([], cs)
  | '\\' :: 'x' :: a :: b :: cs => do
    return push (← Pattern.hexChar? [a, b]) (← readQuoted cs)
  | '\\' :: 'u' :: a :: b :: c :: d :: cs => do
    return push (← Pattern.hexChar? [a, b, c, d]) (← readQuoted cs)
  | '\\' :: 'U' :: a :: b :: c :: d :: e :: f :: g :: h :: cs => do
    return push (← Pattern.hexChar? [a, b, c, d, e, f, g, h]) (← readQuoted cs)
  | '\\' :: c :: cs => do return push (← escapeOf? c) (← readQuoted cs)
  | c :: cs => if isPrintable c then (readQuoted cs).map (push c) else none

/-- Reads a text up to its closing quote, in which a backslash means nothing. -/
def readVerbatim : List Char → Option (List Char × List Char)
  | [] => none
  | '\'' :: cs => some ([], cs)
  | c :: cs => if isPrintable c then (readVerbatim cs).map (push c) else none

/-- Where the reader of a text of several lines is. -/
inductive LongState
  | inText
  /-- Behind a backslash that breaks the line, which has not ended yet. -/
  | beforeBreak
  /-- Behind such a line end, where blanks and further line ends say nothing. -/
  | afterBreak
  deriving DecidableEq

/-- Puts a blank or a line end in front of what was read, if the reader is in the text. -/
def LongState.keep (s : LongState) (c : Char) (r : List Char × List Char) :
    List Char × List Char :=
  if s = .inText then push c r else r

/-- The state behind a line end. -/
def LongState.atLineEnd (s : LongState) : LongState :=
  if s = .inText then .inText else .afterBreak

/-- Reads a text of several lines up to its three closing quotes, in front of which there may be two
more. -/
def readLongQuoted (s : LongState) : List Char → Option (List Char × List Char)
  | [] => none
  | '\n' :: cs => (readLongQuoted s.atLineEnd cs).map (s.keep '\n')
  | '\r' :: '\n' :: cs =>
    (readLongQuoted s.atLineEnd cs).map fun r => s.keep '\r' (s.keep '\n' r)
  | c :: cs =>
    if isSpace c then (readLongQuoted s cs).map (s.keep c)
    else if s = .beforeBreak then none
    else
      match c, cs with
      | '"', '"' :: '"' :: '"' :: '"' :: cs => some (['"', '"'], cs)
      | '"', '"' :: '"' :: '"' :: cs => some (['"'], cs)
      | '"', '"' :: '"' :: cs => some ([], cs)
      | '\\', 'x' :: a :: b :: cs => do
        return push (← Pattern.hexChar? [a, b]) (← readLongQuoted .inText cs)
      | '\\', 'u' :: a :: b :: c :: d :: cs => do
        return push (← Pattern.hexChar? [a, b, c, d]) (← readLongQuoted .inText cs)
      | '\\', 'U' :: a :: b :: c :: d :: e :: f :: g :: h :: cs => do
        return push (← Pattern.hexChar? [a, b, c, d, e, f, g, h]) (← readLongQuoted .inText cs)
      | '\\', '\n' :: cs => readLongQuoted .afterBreak cs
      | '\\', '\r' :: cs => readLongQuoted .beforeBreak ('\r' :: cs)
      | '\\', c :: cs =>
        if isSpace c then readLongQuoted .beforeBreak cs
        else do return push (← escapeOf? c) (← readLongQuoted .inText cs)
      | c, cs => if isPrintable c then (readLongQuoted .inText cs).map (push c) else none
termination_by cs => cs.length

/-- Reads a text of several lines in which a backslash means nothing. -/
def readLongVerbatim : List Char → Option (List Char × List Char)
  | [] => none
  | '\'' :: '\'' :: '\'' :: '\'' :: '\'' :: cs => some (['\'', '\''], cs)
  | '\'' :: '\'' :: '\'' :: '\'' :: cs => some (['\''], cs)
  | '\'' :: '\'' :: '\'' :: cs => some ([], cs)
  | '\n' :: cs => (readLongVerbatim cs).map (push '\n')
  | '\r' :: '\n' :: cs => (readLongVerbatim cs).map fun r => push '\r' (push '\n' r)
  | c :: cs => if isPrintable c then (readLongVerbatim cs).map (push c) else none

/-- Drops the line end right behind the opening quotes. -/
def dropFirstBreak : List Char → List Char
  | '\n' :: cs => cs
  | '\r' :: '\n' :: cs => cs
  | cs => cs

/-- Reads a text in quotes of any kind, if there is one. -/
def readText? : List Char → Option (List Char × List Char)
  | '"' :: '"' :: '"' :: cs => readLongQuoted .inText (dropFirstBreak cs)
  | '"' :: cs => readQuoted cs
  | '\'' :: '\'' :: '\'' :: cs => readLongVerbatim (dropFirstBreak cs)
  | '\'' :: cs => readVerbatim cs
  | _ => none

/-! ### Numbers -/

/-- Digits without the underscores between them. Every underscore stands between two digits. -/
def readDigits? (isDigit : Char → Bool) : List Char → Option (List Char)
  | [] => none
  | [c] => if isDigit c then some [c] else none
  | c :: '_' :: cs => if isDigit c then (readDigits? isDigit cs).map (c :: ·) else none
  | c :: cs => if isDigit c then (readDigits? isDigit cs).map (c :: ·) else none

def isDecimal (c : Char) : Bool := '0' ≤ c && c ≤ '9'

/-- Decimal digits without an idle zero in front. -/
def readWhole? (cs : List Char) : Option (List Char) := do
  let digits ← readDigits? isDecimal cs
  match digits with
  | '0' :: _ :: _ => none
  | _ => return digits

/-- The value of digits to a base. -/
def valueOf (base : Nat) (digits : List Char) : Nat :=
  digits.foldl (fun n c => n * base + (Pattern.hexValue? c).getD 0) 0

/-- Digits to a base; they are those whose value is below it. -/
def readBased? (base : Nat) (cs : List Char) : Option Nat :=
  (readDigits? (fun c => (Pattern.hexValue? c).any (· < base)) cs).map (valueOf base)

/-- The number as an integer of 64 bits, if it is one. -/
def fitInteger? (n : Int) : Option Scalar :=
  if Number.IntegerKind.least ⟨true, 64⟩ ≤ n ∧ n ≤ Number.IntegerKind.greatest ⟨true, 64⟩ then
    some (.integer n)
  else none

/-- The sign at the front of a number, if there is one, and the number without it. -/
def splitSign : List Char → List Char × List Char
  | '+' :: cs => (['+'], cs)
  | '-' :: cs => (['-'], cs)
  | cs => ([], cs)

def readInteger? (cs : List Char) : Option Scalar :=
  match cs with
  | '0' :: 'x' :: cs => (readBased? 16 cs).bind fun n => fitInteger? n
  | '0' :: 'o' :: cs => (readBased? 8 cs).bind fun n => fitInteger? n
  | '0' :: 'b' :: cs => (readBased? 2 cs).bind fun n => fitInteger? n
  | cs => do
    let (sign, cs) := splitSign cs
    let n := valueOf 10 (← readWhole? cs)
    fitInteger? (if sign = ['-'] then -(n : Int) else n)

/-- A whole part and a fraction in plain digits. -/
def plainFraction? (cs : List Char) : Option (List Char) := do
  let (whole, fraction) ← Text.cutAt? (· = '.') cs
  return (← readWhole? whole) ++ '.' :: (← readDigits? isDecimal fraction)

/-- A number with a fraction, an exponent or both, without its sign and in plain digits. -/
def plainFloat? (cs : List Char) : Option (List Char) :=
  match Text.cutAt? (fun c => c = 'e' || c = 'E') cs with
  | none => plainFraction? cs
  | some (mantissa, exponent) => do
    let (sign, exponent) := splitSign exponent
    let exponent ← readDigits? isDecimal exponent
    return (← (plainFraction? mantissa).or (readWhole? mantissa)) ++ 'e' :: sign ++ exponent

/-- Reads a number with a fraction, an exponent or both. One that is too large is none. -/
def readFloat? (cs : List Char) : Option Scalar := do
  let (sign, cs) := splitSign cs
  if cs = ['i', 'n', 'f'] ∨ cs = ['n', 'a', 'n'] then
    return .float (← Number.readBinary64? (sign ++ cs))
  let x ← Number.readBinary64? (sign ++ (← plainFloat? cs))
  if x.isInfinite then none else return .float x

/-! ### Scalars -/

/-- Whether a character may stand in a scalar without quotes. -/
def isPlain (c : Char) : Bool := c.isAlphanum || c = '_' || c = '+' || c = '-' || c = '.' || c = ':'

/-- The scalar that a word without quotes stands for. -/
def plainScalar? (word : List Char) : Option Scalar :=
  if word = ['t', 'r', 'u', 'e'] then some (.boolean true)
  else if word = ['f', 'a', 'l', 's', 'e'] then some (.boolean false)
  else ((readInteger? word).or (readFloat? word)).or ((Moment.read? word).map .moment)

/-- Takes a word off the front of a text. A date may be followed by a blank and a time. -/
def takeWord (cs : List Char) : List Char × List Char :=
  let word := cs.takeWhile isPlain
  let rest := cs.dropWhile isPlain
  match Date.read? word, rest with
  | some (_, []), ' ' :: c :: others =>
    if isDecimal c then
      (word ++ ' ' :: (c :: others).takeWhile isPlain, (c :: others).dropWhile isPlain)
    else (word, rest)
  | _, _ => (word, rest)

def readScalar? (cs : List Char) : Option (Scalar × List Char) :=
  match cs with
  | '"' :: _ | '\'' :: _ => (readText? cs).map fun r => (.text (String.ofList r.1), r.2)
  | _ =>
    let (word, rest) := takeWord cs
    (plainScalar? word).map (·, rest)

/-! ### Keys -/

/-- Whether a character may stand in a key without quotes. -/
def isBare (c : Char) : Bool := c.isAlphanum || c = '_' || c = '-'

def readName? (cs : List Char) : Option (String × List Char) :=
  match cs with
  | '"' :: cs => (readQuoted cs).map fun r => (String.ofList r.1, r.2)
  | '\'' :: cs => (readVerbatim cs).map fun r => (String.ofList r.1, r.2)
  | cs =>
    let name := cs.takeWhile isBare
    if name.isEmpty then none else some (String.ofList name, cs.dropWhile isBare)

/-- Reads the names of a dotted key, at most `fuel` of them, and the blanks behind. -/
def readNames? : Nat → List Char → Option (List String × List Char)
  | 0, _ => none
  | fuel + 1, cs => do
    let (name, cs) ← readName? (skipSpaces cs)
    match skipSpaces cs with
    | '.' :: cs =>
      let (names, cs) ← readNames? fuel cs
      return (name :: names, cs)
    | cs => return ([name], cs)

/-- Reads a dotted key: the way to its last name, and that name. -/
def readKey? (cs : List Char) : Option (List String × String × List Char) := do
  let (names, cs) ← readNames? cs.length cs
  return (names.dropLast, ← names.getLast?, cs)

/-! ### Values -/

/-- A reader of values. -/
abbrev ValueReader := List Char → Option (Value × List Char)

/-- Reads the elements of an array behind its opening bracket. -/
def readItems (readValue : ValueReader) : Nat → List Char → Option (List Value × List Char)
  | 0, _ => none
  | fuel + 1, cs => do
    match ← skipLines false cs with
    | ']' :: cs => return ([], cs)
    | cs =>
      let (item, cs) ← readValue cs
      match ← skipLines false cs with
      | ',' :: cs =>
        let (items, cs) ← readItems readValue fuel cs
        return (item :: items, cs)
      | ']' :: cs => return ([item], cs)
      | _ => none

/-- Reads a key and its value. -/
def readSetting (readValue : ValueReader) (cs : List Char) : Option (Setting × List Char) := do
  let (way, key, cs) ← readKey? cs
  match cs with
  | '=' :: cs =>
    let (value, cs) ← readValue (skipSpaces cs)
    return (⟨way, key, value⟩, cs)
  | _ => none

/-- Reads the settings of a table in braces behind the opening one. -/
def readInline (readValue : ValueReader) : Nat → List Char → Option (List Setting × List Char)
  | 0, _ => none
  | fuel + 1, cs => do
    match ← skipLines false cs with
    | '\x7d' :: cs => return ([], cs)
    | cs =>
      let (setting, cs) ← readSetting readValue cs
      match ← skipLines false cs with
      | ',' :: cs =>
        let (settings, cs) ← readInline readValue fuel cs
        return (setting :: settings, cs)
      | '\x7d' :: cs => return ([setting], cs)
      | _ => none

/-- The levels to which brackets and braces may be nested. -/
def maxNesting : Nat := 80

/-- Reads a value in which brackets and braces may be nested `levels` deep. -/
def readValue : Nat → ValueReader
  | 0, '[' :: _ | 0, '\x7b' :: _ => none
  | levels + 1, '[' :: cs =>
    (readItems (readValue levels) (cs.length + 1) cs).map fun r => (.array false r.1, r.2)
  | levels + 1, '\x7b' :: cs => do
    let (settings, cs) ← readInline (readValue levels) (cs.length + 1) cs
    return (.table .inline (← ofInlineSettings settings), cs)
  | _, cs => (readScalar? cs).map fun r => (.scalar r.1, r.2)

/-! ### Documents -/

/-- Reads a header behind its opening brackets, up to the closing ones. -/
def readHeader (make : List String → String → Header) (closing cs : List Char) :
    Option (Header × List Char) := do
  let (way, key, cs) ← readKey? cs
  let cs ← Text.after? closing cs
  return (make way key, cs)

/-- A line of a document. -/
inductive Line
  | header (h : Header)
  | setting (s : Setting)

/-- Reads a header or a setting and the end of its line. -/
def readLine (cs : List Char) : Option (Line × List Char) :=
  match cs with
  | '[' :: '[' :: cs => do
    let (header, cs) ← readHeader .tableOfArray [']', ']'] cs
    return (.header header, ← endLine false cs)
  | '[' :: cs => do
    let (header, cs) ← readHeader .table [']'] cs
    return (.header header, ← endLine false cs)
  | cs => do
    let (setting, cs) ← readSetting (readValue maxNesting) cs
    return (.setting setting, ← endLine false cs)

/-- Reads all lines that say something. -/
def readDocument : Nat → List Char → Option (List Line)
  | 0, _ => none
  | fuel + 1, cs => do
    match ← skipLines false cs with
    | [] => return []
    | cs =>
      let (line, cs) ← readLine cs
      return line :: (← readDocument fuel cs)

/-- The settings in front of the first header, and the sections from there on. -/
def group : List Line → List Setting × List Section
  | [] => ([], [])
  | .setting s :: lines => let (front, sections) := group lines; (s :: front, sections)
  | .header h :: lines => let (front, sections) := group lines; ([], ⟨h, front⟩ :: sections)

/-- The sections of a document. -/
def sections (lines : List Line) : List Section :=
  let (front, sections) := group lines
  ⟨.document, front⟩ :: sections

/-- Drops the mark that some writers put in front of a text. -/
def dropByteOrderMark : List Char → List Char
  | '\uFEFF' :: cs => cs
  | cs => cs

/-- The entries of a document. -/
def read? (text : String) : Option Entries := do
  let cs := dropByteOrderMark text.toList
  ofSections (sections (← readDocument (cs.length + 1) cs))

/-- The settings of the document named `origin`, laid out flat, with what a reader finds in it. -/
def parseBy (read? : String → Option Entries) (origin text : String) : Result Properties :=
  match read? text with
  | some entries => .ok (flatten entries)
  | none => .error (.malformed origin .notDocument)

/-- The settings of the document named `origin`, laid out flat. -/
def parse : (origin text : String) → Result Properties := parseBy read?

end LayeredConfig.Toml
