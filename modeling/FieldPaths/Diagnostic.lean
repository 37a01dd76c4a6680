import FieldPaths.Source
import FieldPaths.Text.Template

/-!
# Diagnostics

What a compilation has to say about its sources. A diagnostic is a cause with the place it was found
at; its message follows from the two and is not kept.

Every kind has a message of its own, and a template for messages with a detail. Where nothing more
particular is said, the template is the message with the detail after it.
-/

namespace FieldPaths

/-- How serious a diagnostic is. Only an error makes a compilation invalid. -/
inductive Severity where
  | error
  | warning
deriving Repr, DecidableEq

/-- The word for a severity. -/
def Severity.text : Severity → String
  | .error => "error"
  | .warning => "warning"

/-- The causes of diagnostics. -/
inductive DiagnosticKind where
  /-- The text ends inside the body of a declaration. -/
  | unclosedBody
  /-- Characters that belong to no token. -/
  | unexpectedCharacter
  | expectedDeclaration
  | expectedTypeName
  | expectedMemberName
  | expectedType
  | expectedToken
  /-- A member says the same modifier twice. -/
  | duplicateModifier
  /-- Two declarations have one name. -/
  | duplicateDeclaration
  /-- Descriptors were asked for an interface. -/
  | invalidTarget
  /-- A descriptor takes the name of a static member. -/
  | duplicateDescriptor
  /-- A selected class has no eligible field. -/
  | emptySchema
deriving Repr, DecidableEq

namespace DiagnosticKind

/-- The severity of a kind. -/
def severity : DiagnosticKind → Severity
  | emptySchema => .warning
  | _ => .error

/-- The hint that every diagnostic of a kind starts with. -/
def hint? : DiagnosticKind → Option String
  | expectedDeclaration => some "e.g., `class User \x7b id: String \x7d`"
  | expectedType => some "e.g., `String`, `java.math.BigDecimal` or `List<Item>`"
  | invalidTarget => some "`@Schema` applies only to class declarations"
  | duplicateDescriptor => some "rename or remove the existing static member"
  | emptySchema => some "fields that are final, static or carry an attribute get no descriptors"
  | _ => none

/-- The message of a diagnostic without a detail. -/
def bareMessage : DiagnosticKind → String
  | unclosedBody => "missing closing `\x7d`"
  | unexpectedCharacter => "unexpected character"
  | expectedDeclaration => "expected `class` or `interface`"
  | expectedTypeName => "expected type name"
  | expectedMemberName => "expected field or method name"
  | expectedType => "expected a type"
  | expectedToken => "unexpected token"
  | duplicateModifier => "duplicate modifier"
  | duplicateDeclaration => "duplicate declaration"
  | invalidTarget => "`@Schema` cannot be applied to an interface"
  | duplicateDescriptor => "schema descriptor already exists"
  | emptySchema => "schema has no eligible fields"

/-- The template of a message with a detail. -/
def template : DiagnosticKind → String
  | expectedToken => "expected \x7b\x7d"
  | duplicateModifier => "duplicate modifier `\x7b\x7d`"
  | duplicateDeclaration => "`\x7b\x7d` is already declared"
  | invalidTarget => "`@Schema` cannot be applied to interface `\x7b\x7d`"
  | duplicateDescriptor => "\x7b\x7d"
  | emptySchema => "schema `\x7b\x7d` has no eligible fields"
  | kind => kind.bareMessage ++ ": \x7b\x7d"

/-- The message of a diagnostic, with a detail if it has one. -/
def message (kind : DiagnosticKind) : Option String → String
  | none => kind.bareMessage
  | some detail => Template.fill kind.template detail

end DiagnosticKind

/-- A place that a diagnostic also speaks of. -/
structure Related where
  message : String
  span : Span
deriving Repr, DecidableEq

/-- A change of the text that would remove the cause: the diagnostic's own range is replaced. -/
structure Fix where
  description : String
  replacement : String
deriving Repr, DecidableEq

/-- One thing to say about the sources. -/
structure Diagnostic where
  kind : DiagnosticKind
  span : Span
  /-- What the message is about in particular. -/
  detail : Option String := none
  fix : Option Fix := none
  related : List Related := []
  /-- The hints besides the one of the kind. -/
  moreHints : List String := []
deriving Repr, DecidableEq

namespace Diagnostic

/-- The message, its detail included. -/
def message (d : Diagnostic) : String := d.kind.message d.detail

/-- The severity, which the kind decides. -/
def severity (d : Diagnostic) : Severity := d.kind.severity

/-- Whether the diagnostic makes the compilation invalid. -/
def isError (d : Diagnostic) : Bool := d.severity == .error

/-- Whether the diagnostic is a warning. -/
def isWarning (d : Diagnostic) : Bool := d.severity == .warning

/-- All hints: the one of the kind first. -/
def hints (d : Diagnostic) : List String := d.kind.hint?.toList ++ d.moreHints

/-- A range of bytes as a diagnostic on one line shows it. -/
def rangeText (span : Span) : String := s!"{span.start}..{span.stop}"

/-- The diagnostic on one line, without its source. -/
def oneLine (d : Diagnostic) : String :=
  d.severity.text ++ " at " ++ rangeText d.span ++ ": " ++ d.message ++
    (match d.fix with
      | none => ""
      | some fix => " (fix: " ++ fix.description ++ ")") ++
    String.join (d.related.map fun r =>
      " (related: " ++ r.message ++ " at " ++ rangeText r.span ++ ")") ++
    String.join (d.hints.map fun h => " (hint: " ++ h ++ ")")

/-- The diagnostics on a line each. -/
def oneLines (ds : List Diagnostic) : String := "\n".intercalate (ds.map oneLine)

/-- Whether one of the diagnostics is an error. -/
def hasErrors (ds : List Diagnostic) : Bool := ds.any isError

/-- Whether one of the diagnostics is a warning. -/
def hasWarnings (ds : List Diagnostic) : Bool := ds.any isWarning

/-- The number of errors. -/
def errorCount (ds : List Diagnostic) : Nat := ds.countP isError

/-- The number of warnings. -/
def warningCount (ds : List Diagnostic) : Nat := ds.countP isWarning

end Diagnostic

end FieldPaths
