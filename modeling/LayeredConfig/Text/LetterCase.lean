import LayeredConfig.Text.CaseTables

/-! # Lower case and comparison without case

`lower` is the lower case of a whole text: letter by letter, but for the two letters whose lower
case is not one fixed letter. The dotted capital I keeps its dot as a mark of its own, and a
capital sigma at the end of a word becomes the final sigma. `foldCase` names the letter that stands
for all case variants of a letter, so two letters are equal but for case when it agrees on them. -/

namespace LayeredConfig.Text

/-- The first run that holds a character decides; a character in none stays. -/
def mapCase (runs : List CaseRun) (c : Char) : Char := (runs.findSome? (·.image? c)).getD c

/-- The representative of all case variants of a letter. -/
def foldCase (c : Char) : Char := mapCase foldRuns c

/-- All letters equal to a letter but for case, as far as they differ from it. -/
def caseVariants (c : Char) : List Char :=
  let rep := foldCase c
  rep :: foldRuns.filterMap fun run =>
    let source := ((rep.toNat : Int) - run.2.2.2).toNat
    if run.image? (Char.ofNat source) = some rep then some (Char.ofNat source) else none

/-- Whether the first character that is not passed over has case. -/
def meetsCased (cs : List Char) : Bool :=
  match cs.dropWhile caseIgnorableRanges.contains with
  | [] => false
  | c :: _ => casedRanges.contains c

/-- The lower case of the text `cs`, which stands behind `before` read backwards. -/
def lowerAfter (before : List Char) : List Char → List Char
  | [] => []
  | c :: rest =>
    let here :=
      if c.toNat < 0x80 then [c.toLower]
      else if c = 'Σ' then [if meetsCased before && !meetsCased rest then 'ς' else 'σ']
      else if c = 'İ' then ['i', '\u0307']
      else [mapCase lowerRuns c]
    here ++ lowerAfter (c :: before) rest

/-- The lower case of a text. -/
def lower (cs : List Char) : List Char := lowerAfter [] cs

end LayeredConfig.Text
