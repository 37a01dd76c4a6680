import FieldPaths.CommandLine.Help

/-!
# Misuse of the command line

What can be wrong with a command line, and how it is said: the fault, what may have been meant, how
the command is used, and where to read more.
-/

namespace FieldPaths.CommandLine

/-- What may have been meant by an argument that is not known. -/
inductive Tip where
  /-- The argument with this long name. -/
  | similar (long : String)
  /-- The argument of a command that comes later. -/
  | afterCommand (command : Command) (long : String)
  /-- The text itself, as a value. -/
  | asValue (text : String)
deriving Repr, DecidableEq

/-- What is wrong with a command line. -/
inductive Misuse where
  /-- An argument is given without its value. -/
  | missingValue (argument : Argument)
  /-- A value is none of the words that the argument takes. -/
  | wrongValue (argument : Argument) (value : String)
  /-- A switch is given a value. -/
  | unneededValue (argument : Argument) (value : String)
  /-- An argument that is allowed once is given again. -/
  | repeated (argument : Argument)
  | unknownArgument (text : String) (tip : Option Tip)
  /-- A word that should name a command does not. -/
  | unknownCommand (word : String) (similar : List String)
  /-- The name of a command comes where there are only values. -/
  | commandAmongValues (name : String)
  | missingCommand
deriving Repr, DecidableEq

/-- A misuse, and how the command would be used where that is shown. -/
structure UsageError where
  misuse : Misuse
  usage : List String
deriving Repr, DecidableEq

/-- A list of words in brackets on a line of its own. -/
def wordsLine (title : String) (words : List String) : String :=
  if words.isEmpty then "" else "\n  [" ++ title ++ ": " ++ ", ".intercalate words ++ "]"

/-- The words that an argument takes, on a line of their own. -/
def Argument.choicesLine (a : Argument) : String :=
  wordsLine "possible values" (a.choices.map (·.word))

/-- Puts a text between quotes. -/
def inQuotes (text : String) : String := "'" ++ text ++ "'"

/-- What may have been meant. -/
def Tip.message : Tip → String
  | similar long => "a similar argument exists: " ++ inQuotes ("--" ++ long)
  | afterCommand command long => inQuotes (command.name ++ " --" ++ long) ++ " exists"
  | asValue text => "to pass " ++ inQuotes text ++ " as a value, use " ++ inQuotes ("-- " ++ text)

namespace Misuse

/-- What is wrong. -/
def message : Misuse → String
  | missingValue a =>
    "a value is required for " ++ inQuotes a.shown ++ " but none was supplied" ++ a.choicesLine
  | wrongValue a value =>
    "invalid value " ++ inQuotes value ++ " for " ++ inQuotes a.shown ++ a.choicesLine
  | unneededValue a value =>
    "unexpected value " ++ inQuotes value ++ " for " ++ inQuotes a.shown ++
      " found; no more were expected"
  | repeated a => "the argument " ++ inQuotes a.shown ++ " cannot be used multiple times"
  | unknownArgument text _ => "unexpected argument " ++ inQuotes text ++ " found"
  | unknownCommand word _ => "unrecognized subcommand " ++ inQuotes word
  | commandAmongValues name => "unexpected argument " ++ inQuotes name ++ " found"
  | missingCommand =>
    "'schemapath' requires a subcommand but one was not provided" ++
      wordsLine "subcommands" commandNames

/-- What may have been meant, or what else may help. -/
def tip : Misuse → Option String
  | wrongValue a value =>
    (Similarity.mostSimilar? value (a.choices.map (·.word))).map
      ("a similar value exists: " ++ inQuotes ·)
  | unknownArgument _ tip => tip.map (·.message)
  | unknownCommand _ [] => none
  | unknownCommand _ [similar] => some ("a similar subcommand exists: " ++ inQuotes similar)
  | unknownCommand _ similar =>
    some ("some similar subcommands exist: " ++ ", ".intercalate (similar.map inQuotes))
  | commandAmongValues name =>
    some ("subcommand " ++ inQuotes name ++ " exists; to use it, remove the '--' before it")
  | _ => none

end Misuse

/-- The whole message of a usage error. -/
def UsageError.report (e : UsageError) : String :=
  let tip := match e.misuse.tip with
    | some tip => "  tip: " ++ tip ++ "\n\n"
    | none => ""
  let usage := if e.usage.isEmpty then "" else usageText e.usage ++ "\n\n"
  "error: " ++ e.misuse.message ++ "\n\n" ++ tip ++ usage ++
    "For more information, try '--help'.\n"

end FieldPaths.CommandLine
