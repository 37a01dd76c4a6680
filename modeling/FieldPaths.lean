import FieldPaths.CommandLine.FileTree
import FieldPaths.Main
import FieldPaths.Rust.Expansion
import FieldPaths.Rust.Scan
import FieldPaths.Text.Word
import FieldPaths.Proofs.Grammar.Rule
import FieldPaths.Proofs.Grammar.Steps
import FieldPaths.Proofs.Grammar.Completeness
import FieldPaths.Proofs.Grammar.Reading
import FieldPaths.Proofs.Grammar.FirstFault
import FieldPaths.Proofs.Token.Order
import FieldPaths.Proofs.Grammar.Locations
import FieldPaths.Proofs.TypeRef
import FieldPaths.Proofs.SchemaFile.WellFormed
import FieldPaths.Proofs.SchemaFile.Completed
import FieldPaths.Proofs.Grammar.TypeText
import FieldPaths.Proofs.Text.Wildcard
import FieldPaths.Proofs.SchemaFile
import FieldPaths.Proofs.Compilation
import FieldPaths.Proofs.Compilation.Kept
import FieldPaths.Proofs.Compilation.Selected
import FieldPaths.Proofs.Compilation.Spans
import FieldPaths.Proofs.Generated.Names
import FieldPaths.Proofs.Token.Exact
import FieldPaths.Proofs.Sources
import FieldPaths.Proofs.Spacing
import FieldPaths.Proofs.Rust.Layout
import FieldPaths.Proofs.Rust.Definition
import FieldPaths.Proofs.Generated.Reading
import FieldPaths.Proofs.Names
import FieldPaths.Proofs.Generated.Companions
import FieldPaths.Proofs.Generated.Recovery
import FieldPaths.Proofs.Expansion.Agreement
import FieldPaths.Proofs.Rust.Options
import FieldPaths.Proofs.Expansion.Leaves
import FieldPaths.Proofs.Json.Written
import FieldPaths.Proofs.CommandLine.FileTree
import FieldPaths.Proofs.Descriptor.Chain
import FieldPaths.Proofs.Descriptor.Fieldwise
import FieldPaths.Proofs.Descriptor.Leaves
import FieldPaths.Proofs.Compilation.MoreLeaves
import FieldPaths.Proofs.Text.Lines
import FieldPaths.Proofs.DecisionTable.Rows
import FieldPaths.Proofs.DecisionTable.Blocks
import FieldPaths.Proofs.DecisionTable.Columns
import FieldPaths.Proofs.CommandLine.Loading
import FieldPaths.Proofs.Rust.Lowered
import FieldPaths.Proofs.Expansion.Kept
import FieldPaths.Proofs.Diagnostic
import FieldPaths.Proofs.Grammar.Progress
import FieldPaths.Proofs.DecisionTable.Told
