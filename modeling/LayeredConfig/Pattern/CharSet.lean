import LayeredConfig.Text.Characters
import LayeredConfig.Text.LetterCase
import LayeredConfig.Text.WordChars

/-! # Sets of characters

What a single place of a pattern can match. -/

namespace LayeredConfig.Pattern

/-- A set of characters. -/
inductive CharSet
  | empty
  | range (first last : Char)
  | digit
  | blank
  | word
  | union (a b : CharSet)
  | meet (a b : CharSet)
  | complement (a : CharSet)
  /-- All characters equal but for case to one of the set. -/
  | folded (a : CharSet)

namespace CharSet

/-- Whether a character is in the set. -/
def contains : CharSet → Char → Bool
  | empty, _ => false
  | range first last, c => first ≤ c && c ≤ last
  | digit, c => Text.isDecimalDigit c
  | blank, c => Text.isBlank c
  | word, c => Text.isWordChar c
  | union a b, c => a.contains c || b.contains c
  | meet a b, c => a.contains c && b.contains c
  | complement a, c => !a.contains c
  | folded a, c => a.contains c || (Text.caseVariants c).any fun v => a.contains v

/-- The set of one character. -/
def single (c : Char) : CharSet := range c c

/-- Everything but line feeds. -/
def inLine : CharSet := complement (single '\n')

/-- Everything. -/
def all : CharSet := complement empty

/-- Passes over differences of case, or does not. -/
def foldedIf (ignoreCase : Bool) (a : CharSet) : CharSet := if ignoreCase then folded a else a

/-- Takes the complement, or does not. -/
def complementIf (negated : Bool) (a : CharSet) : CharSet := if negated then complement a else a

end CharSet

end LayeredConfig.Pattern
