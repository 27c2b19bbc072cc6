import LayeredConfig.Filter

/-! # Filters by action

A filter that is told by what it does: it changes the text of a value, its notes or its key, vetoes
it, or fails. It can be kept to some keys and to snapshots. -/

namespace LayeredConfig

/-- What a filter does to a value. -/
inductive FilterAction
  | pass
  | veto
  /-- Fails with a message. -/
  | fail (message : String)
  /-- Brings the letters of ASCII into capitals. -/
  | capitalize
  | append (text : String)
  | set (text : String)
  | nullify
  | rename (key : String)
  | note (entry text : String)
  /-- Tells what the filter knows about the value. -/
  | describe
  /-- In a snapshot, vetoes the keys of a section that is not enabled. -/
  | onlyEnabled
  deriving DecidableEq

/-- What is told of a null. -/
def nullText : String := "<null>"

/-- The key that says whether the section of a key is enabled. -/
def enablingKey (key : String) : String :=
  String.ofList (key.toList.takeWhile (· ≠ '.')) ++ ".enabled"

/-- What a filter knows about a value. -/
def FilterContext.description (ctx : FilterContext) (text : String) : String :=
  let entering := ctx.entering.value.getD nullText
  let mode := match ctx.merged with
    | none => "single"
    | some merged => "bulk" ++ toString merged.size
  let isSingle := if ctx.isSingle then "true" else "false"
  String.intercalate "|" [text, entering, ctx.key, mode, isSingle]

/-- Whether the section of a key is switched off in the merge at hand. -/
def FilterContext.isDisabled (ctx : FilterContext) : Bool :=
  match ctx.merged with
  | none => false
  | some merged =>
    match (merged.get? (enablingKey ctx.key)).bind (·.value) with
    | some text => text ≠ "true"
    | none => false

namespace FilterAction

/-- Does an action in the name of a filter. -/
def run (action : FilterAction) (filter : String) (v : PropertyValue) (ctx : FilterContext) :
    Result (Option PropertyValue) :=
  let text := v.value.getD nullText
  match action with
  | pass => .ok (some v)
  | veto => .ok none
  | fail message => .error (.filterFailed filter ctx.key message)
  | capitalize => .ok (some (v.withValue (text.map Char.toUpper)))
  | append behind => .ok (some (v.withValue (text ++ behind)))
  | set text => .ok (some (v.withValue text))
  | nullify => .ok (some v.withoutValue)
  | rename key => .ok (some (.of key text v.source))
  | note entry text => .ok (some (v.withNote entry text))
  | describe => .ok (some (v.withValue (ctx.description text)))
  | onlyEnabled => .ok (if ctx.isDisabled then none else some v)

/-- The filter that does an action. With a list of keys it lets all others pass. -/
def toFilter (action : FilterAction) (name : String) (priority : Int) (only : List String)
    (scope : FilterScope) : Filter where
  name := name
  priority := priority
  run v ctx :=
    if (!only.isEmpty && !only.contains ctx.key) || !scope.applies ctx then .ok (some v)
    else action.run name v ctx

end FilterAction

end LayeredConfig
