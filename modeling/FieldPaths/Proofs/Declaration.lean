import FieldPaths.Descriptor
import FieldPaths.Selection

/-!
# Declarations elsewhere

A location is what a declaration carries along for its diagnostics. Nothing that is made of a
declaration is decided by it: descriptors, conflicts and selection are the same whatever the
locations are, and where a location is passed on, it is passed on as it is. So any change of the
locations can be made before or afterwards.
-/

namespace FieldPaths

variable {L M : Type} (f : L → M)

/-! ## Changing locations -/

/-- The field with another location. -/
def Field.mapLocation (field : Field L) : Field M where
  name := field.name
  type := field.type
  modifiers := field.modifiers
  attributes := field.attributes
  location := f field.location

/-- The declaration with other locations. -/
def Declaration.mapLocation (decl : Declaration L) : Declaration M where
  name := decl.name
  kind := decl.kind
  attributes := decl.attributes
  fields := decl.fields.map (·.mapLocation f)
  methods := decl.methods
  location := f decl.location

/-- The error with another location. -/
def Located.mapLocation (located : Located L) : Located M := ⟨located.error, f located.location⟩

/-- The descriptors with the errors in other places. -/
def Synthesis.mapLocation (synthesis : Synthesis L) : Synthesis M where
  typeName := synthesis.typeName
  descriptors := synthesis.descriptors
  errors := synthesis.errors.map (·.mapLocation f)

/-! ## What stays the same -/

variable (decl : Declaration L) (field : Field L) (leaves : LeafTable)

theorem Field.descriptor_mapLocation :
    (field.mapLocation f).descriptor leaves = field.descriptor leaves := rfl

theorem Synthesis.isValid_mapLocation (synthesis : Synthesis L) :
    (synthesis.mapLocation f).isValid = synthesis.isValid := by
  rw [isValid, isValid, mapLocation, List.isEmpty_map]

theorem Synthesis.descriptors_mapLocation (synthesis : Synthesis L) :
    (synthesis.mapLocation f).descriptors = synthesis.descriptors := rfl

theorem Selection.selects_mapLocation (selection : Selection) :
    selection.selects (decl.mapLocation f) = selection.selects decl := by
  cases selection <;> rfl

namespace Declaration

theorem staticMembers_mapLocation :
    (decl.mapLocation f).staticMembers = decl.staticMembers := by
  rw [staticMembers, staticMembers, mapLocation, List.filter_map, List.map_map]
  rfl

theorem eligibleFields_mapLocation :
    (decl.mapLocation f).eligibleFields = decl.eligibleFields.map (·.mapLocation f) := by
  rw [eligibleFields, eligibleFields, mapLocation, List.filter_map]
  rfl

theorem conflict?_mapLocation (name : String) (kind : MemberKind) :
    (decl.mapLocation f).conflict? (field.mapLocation f) name kind
      = (decl.conflict? field name kind).map (·.mapLocation f) := by
  rw [conflict?, conflict?, staticMembers_mapLocation]
  split <;> rfl

theorem conflicts_mapLocation : (decl.mapLocation f).conflicts leaves (field.mapLocation f)
    = (decl.conflicts leaves field).map (·.mapLocation f) := by
  rw [conflicts, conflicts, Field.descriptor_mapLocation]
  simp only [conflict?_mapLocation, List.map_append, Option.toList_map]
  cases (field.descriptor leaves).builder with
  | none => rfl
  | some builder => simp only [Option.bind_some, Option.toList_map]

/-- Descriptors do not depend on locations, and errors are where the declaration is. -/
theorem synthesis_mapLocation :
    (decl.mapLocation f).synthesis leaves = (decl.synthesis leaves).mapLocation f := by
  have hkind : (decl.mapLocation f).kind = decl.kind := rfl
  rw [synthesis, synthesis, hkind]
  cases decl.kind with
  | interface => rfl
  | cls =>
    simp only [Synthesis.mapLocation, eligibleFields_mapLocation, List.map_map, List.flatMap_map,
      List.map_flatMap, conflicts_mapLocation]
    rfl

end Declaration

end FieldPaths
