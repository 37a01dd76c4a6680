import FieldPaths.Proofs.SchemaFile.WellFormed
import FieldPaths.Proofs.Descriptor

/-!
# Paths along chains of fields

A path to a field further in is made from its end: it starts as the constant of the last field, and
each builder on the way puts the name of its field and a dot before it. The builders know nothing of
each other, and they take what they are given as it is.

That such a path can be read back is not their doing. It is so because no name has a dot in it,
which is a matter of how names are read: whatever the text is, they are spelled by its tokens.
-/

namespace FieldPaths

/-! ## Builders -/

/-- What a builder puts before its argument is its lead. -/
theorem PathBuilder.apply_eq {L : Type} {field : Field L} {leaves : LeafTable}
    {builder : PathBuilder} (h : builder ∈ (field.descriptor leaves).builder) (subpath : String) :
    builder.apply subpath = builder.lead ++ subpath := by
  rw [Field.builder_eq h]
  rfl

/-! ## Chains -/

/-- A field that a text declares, with the descriptor that is made for it. -/
structure Link (leaves : LeafTable) where
  decl : Declaration Span
  field : Field Span
  isRead : ∃ source text, decl ∈ (SchemaFile.read source text).declarations
  isMember : field ∈ decl.fields
  isMade : field.descriptor leaves ∈ (decl.synthesis leaves).descriptors

/-- Fields one after the other, all but the last of which have a builder. -/
inductive Chain (leaves : LeafTable) where
  | last (link : Link leaves)
  | through (link : Link leaves) (builder : PathBuilder)
      (hbuilder : (link.field.descriptor leaves).builder = some builder) (more : Chain leaves)

variable {leaves : LeafTable}

theorem Link.isSchemaName (link : Link leaves) : IsSchemaName link.field.name := by
  obtain ⟨source, text, hread⟩ := link.isRead
  exact ((SchemaFile.read_namesAre source text _ hread).fields _ link.isMember).name

namespace Chain

/-- The names of the fields. -/
def names : Chain leaves → List String
  | last link => [link.field.name]
  | through link _ _ more => link.field.name :: more.names

/-- The path that the builders make of the constant of the last field. -/
def path : Chain leaves → String
  | last link => (link.field.descriptor leaves).constant.value
  | through _ builder _ more => builder.apply more.path

theorem names_ne_nil (chain : Chain leaves) : chain.names ≠ [] := by
  cases chain with
  | last link => exact List.cons_ne_nil _ _
  | through link builder hbuilder more => exact List.cons_ne_nil _ _

theorem isSchemaName_of_mem_names (chain : Chain leaves) :
    ∀ name ∈ chain.names, IsSchemaName name := by
  induction chain with
  | last link => exact List.forall_mem_singleton.mpr link.isSchemaName
  | through link builder hbuilder more ih => exact List.forall_mem_cons.mpr ⟨link.isSchemaName, ih⟩

theorem path_eq_intercalate (chain : Chain leaves) : chain.path = ".".intercalate chain.names := by
  induction chain with
  | last link => exact String.intercalate_singleton.symm
  | through link builder hbuilder more ih =>
    rw [path, names, String.intercalate_cons_of_ne_nil more.names_ne_nil, ← ih,
      Field.builder_eq hbuilder]
    rfl

/-- Between the dots of a path there are the names. -/
theorem split_path (chain : Chain leaves) :
    (chain.path.split '.').toList.map (·.copy) = chain.names := by
  have hdot : ∀ name ∈ chain.names, '.' ∉ name.toList :=
    fun name hname ↦ (chain.isSchemaName_of_mem_names name hname).not_mem rfl
  have hsplit := String.toList_split_intercalate hdot
  rw [if_neg chain.names_ne_nil] at hsplit
  rw [path_eq_intercalate]
  exact hsplit

/-- **A path tells which names it goes along.** The path along a chain of fields is their names with
dots between them, and cut at its dots it gives these names back. So chains have one path exactly if
they have the same names. What a builder makes of a path is its lead and then the path, whatever
that is. -/
theorem path_decodes {leaves' : LeafTable} (chain : Chain leaves) (other : Chain leaves') :
    chain.path = ".".intercalate chain.names ∧
      (chain.path.split '.').toList.map (·.copy) = chain.names ∧
      (chain.path = other.path ↔ chain.names = other.names) ∧
      ∀ {L : Type} (field : Field L) (leaves : LeafTable),
        ∀ builder ∈ (field.descriptor leaves).builder, ∀ subpath,
          builder.apply subpath = builder.lead ++ subpath := by
  refine ⟨chain.path_eq_intercalate, chain.split_path, ⟨fun hpath ↦ ?_, fun hnames ↦ ?_⟩,
    fun field leaves builder hbuilder subpath ↦ PathBuilder.apply_eq hbuilder subpath⟩
  · rw [← chain.split_path, hpath, other.split_path]
  · rw [path_eq_intercalate, hnames, ← path_eq_intercalate]

/-- A chain through two classes to a leaf, in a text with a fault at its end. -/
theorem path_decodes_city : ∃ chain : Chain {},
    chain.names = ["customer", "address", "city"] ∧
      chain.path = ".".intercalate ["customer", "address", "city"] ∧
      (chain.path.split '.').toList.map (·.copy) = ["customer", "address", "city"] := by
  let decls := (SchemaFile.read 0 "class Order \x7b customer: Customer \x7d class Customer
    \x7b address: Address \x7d class Address \x7b city: String \x7d class").declarations
  have hlink (name : String) (builder : Option PathBuilder) (h : ∃ decl ∈ decls,
      ∃ field ∈ decl.fields, field.descriptor {} ∈ (decl.synthesis {}).descriptors ∧
        field.name = name ∧ (field.descriptor {}).builder = builder) :
      ∃ link : Link {}, link.field.name = name ∧ (link.field.descriptor {}).builder = builder := by
    obtain ⟨decl, hdecl, field, hfield, hmade, hof⟩ := h
    exact ⟨⟨decl, field, ⟨0, _, hdecl⟩, hfield, hmade⟩, hof⟩
  obtain ⟨customer, hcustomer, hthrough⟩ := hlink "customer"
    (some ⟨"_customer", "subpath", "customer", "customer."⟩) (by decide +kernel)
  obtain ⟨address, haddress, hthrough'⟩ := hlink "address"
    (some ⟨"_address", "subpath", "address", "address."⟩) (by decide +kernel)
  obtain ⟨city, hcity, -⟩ := hlink "city" none (by decide +kernel)
  let chain : Chain {} := .through customer _ hthrough (.through address _ hthrough' (.last city))
  have hnames : chain.names = ["customer", "address", "city"] := by
    rw [names, names, names, hcustomer, haddress, hcity]
  obtain ⟨hpath, hsplit, -⟩ := path_decodes chain chain
  rw [hnames] at hpath hsplit
  exact ⟨chain, hnames, hpath, hsplit⟩

end Chain

end FieldPaths
