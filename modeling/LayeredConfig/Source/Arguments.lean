import LayeredConfig.Source
import LayeredConfig.Text.Lines

/-! # Command line arguments

Options are written `--key=value`, or `--key value`, or `--flag` alone, which stands for `true`.
Other arguments say nothing, and a lone `--` ends the options. -/

namespace LayeredConfig.Arguments

open LayeredConfig.Text

/-- The mark in front of an option, which alone ends the options. -/
def optionMark : List Char := ['-', '-']

/-- What follows the option mark of an argument. -/
def optionBody? (argument : String) : Option (List Char) := after? optionMark argument.toList

/-- The settings that a list of arguments makes, in order. -/
def settings : List String → List (String × String)
  | [] => []
  | argument :: rest =>
    match optionBody? argument with
    | none => settings rest
    | some [] => []
    | some body =>
      match cutAt? (· = '=') body with
      | some ([], _) => settings rest
      | some (key, value) => (String.ofList key, String.ofList value) :: settings rest
      | none =>
        match rest with
        | [] => [(String.ofList body, "true")]
        | next :: others =>
          if (optionBody? next).isSome then
            (String.ofList body, "true") :: settings (next :: others)
          else (String.ofList body, next) :: settings others

/-- The properties that arguments set; a later setting wins. -/
def parse (arguments : List String) : Properties := .ofList (settings arguments)

/-- The arguments as a source. -/
def toSource (id : Identity) (explicitOrdinal : Option Int) (arguments : List String) : Source where
  id := id
  name := "args"
  explicitOrdinal := explicitOrdinal
  defaultOrdinal := argumentsOrdinal
  isScannable := true
  properties := .ok (parse arguments)
  get := Source.getThrough "args" (.ok (parse arguments))

end LayeredConfig.Arguments
