import FieldPaths.Declaration
import FieldPaths.Text.Wildcard

/-!
# Selecting declarations

Descriptors are made for some of the declarations only: those that carry the schema marker or,
when names are asked for, those that one of the names describes. Asking for names sets the
marker aside altogether.
-/

namespace FieldPaths

/-- Which declarations get descriptors. -/
inductive Selection where
  /-- Those that carry the schema marker. -/
  | marked
  /-- Those that one of the patterns describes. -/
  | names (patterns : List String)
deriving Repr, DecidableEq

namespace Selection

variable {L : Type}

/-- The selection for a list of patterns: without any, the marker decides. -/
def ofPatterns : List String → Selection
  | [] => marked
  | patterns => names patterns

/-- Whether a declaration gets descriptors. -/
def selects : Selection → Declaration L → Bool
  | marked, decl => decl.hasAttribute Declaration.schemaMarker
  | names patterns, decl => patterns.any fun pattern => Wildcard.accepts pattern decl.name

/-- The patterns that describe none of the declarations. -/
def unmatched : Selection → List (Declaration L) → List String
  | marked, _ => []
  | names patterns, decls =>
    patterns.filter fun pattern => !decls.any fun decl => Wildcard.accepts pattern decl.name

end Selection

end FieldPaths
