import LayeredConfig.Resolver

/-! # Resolvers by rule

A resolver that is told by a rule from the expression to the answer. Some rules answer with
placeholders of the resolver's own, so that rendering the answer asks it again, and again. -/

namespace LayeredConfig

/-- How an expression is answered. -/
inductive AnswerRule
  /-- By itself. -/
  | echo
  /-- By itself between angle brackets. -/
  | wrap
  /-- Always by the same text. -/
  | constant (text : String)
  /-- By a placeholder for a longer expression. -/
  | grow
  /-- By two placeholders for longer expressions. -/
  | fork
  /-- By a failure. -/
  | fail (message : String)
  /-- By nothing. -/
  | miss
  deriving DecidableEq

namespace AnswerRule

/-- The placeholder for an expression that names a resolver. -/
def placeholder (id expression : String) : String := "$\x7b" ++ id ++ ":" ++ expression ++ "\x7d"

/-- The answer of the resolver with an id. -/
def answer (rule : AnswerRule) (id expression : String) : Result (Option String) :=
  match rule with
  | echo => .ok (some expression)
  | wrap => .ok (some ("<" ++ expression ++ ">"))
  | constant text => .ok (some text)
  | grow => .ok (some (placeholder id (expression ++ "x")))
  | fork => .ok (some (placeholder id (expression ++ "l") ++ placeholder id (expression ++ "r")))
  | fail message => .error (.unresolved expression message)
  | miss => .ok none

/-- The resolver that answers by a rule. -/
def toResolver (rule : AnswerRule) (id : String) (priority : Int) (isInChain : Bool) :
    Resolver Id :=
  .function id priority isInChain (rule.answer id)

end AnswerRule

end LayeredConfig
