import FieldPaths.TypeRef
import FieldPaths.Proofs.Text.Lines
import FieldPaths.Proofs.Token.Exact

/-!
# Types and what stands in them

The arguments of a type are types, so what is said of a type is as a rule said of all types in it,
however deep they stand. `Throughout` says it of all of them at once, and to show it there is the
induction over the arguments (`TypeRef.inductionOnArgs`).

The names in a schema are those that its tokens can spell: `IsSchemaName`.
-/

namespace FieldPaths

/-- A name that a schema can use: a letter, `_` or `$`, then letters, digits, `_` and `$`, and all
of it none of the keywords. -/
def IsSchemaName (name : String) : Prop :=
  Token.IsName name.toList ∧ name ∉ TokenKind.keywords

theorem isSchemaName_of_mem_scan {text : String} {t : Token} (ht : t ∈ Token.scan text)
    (hkind : t.kind = .ident) : IsSchemaName t.text :=
  (Token.scan_exact text).name t ht hkind

/-- No name has a character that names do not go on with. -/
theorem IsSchemaName.not_mem {name : String} (h : IsSchemaName name) {c : Char}
    (hc : Token.isNameContinue c = false) : c ∉ name.toList := by
  obtain ⟨⟨first, more, hname, hfirst, hmore⟩, -⟩ := h
  have hall : ∀ d ∈ name.toList, Token.isNameContinue d = true := by
    rw [hname]
    exact List.forall_mem_cons.mpr
      ⟨Token.isNameContinue_of_isNameStart (Token.isNameStart_iff.mpr hfirst),
        fun d hd ↦ Token.isNameContinue_iff.mpr (hmore d hd)⟩
  intro hmem
  rw [hall c hmem] at hc
  exact Bool.noConfusion hc

namespace TypeRef

/-- The type stands in the other one: it is that type, or it stands in one of its arguments. -/
inductive Within : TypeRef → TypeRef → Prop
  | self (ty : TypeRef) : Within ty ty
  | arg {part arg ty : TypeRef} (harg : arg ∈ ty.args) (h : Within part arg) : Within part ty

/-- All types in the type have the property, the type itself included. -/
def Throughout (P : TypeRef → Prop) (ty : TypeRef) : Prop := ∀ part, Within part ty → P part

variable {P : TypeRef → Prop} {ty : TypeRef}

theorem throughout_iff : ty.Throughout P ↔ P ty ∧ ∀ arg ∈ ty.args, arg.Throughout P := by
  constructor
  · intro h
    exact ⟨h ty (.self ty), fun arg harg part hpart ↦ h part (.arg harg hpart)⟩
  · rintro ⟨hty, hargs⟩ part hpart
    cases hpart with
    | self => exact hty
    | arg harg h => exact hargs _ harg part h

/-- What holds of a type whenever it holds of its arguments holds of all types. -/
@[elab_as_elim]
theorem inductionOnArgs {motive : TypeRef → Prop}
    (step : ∀ ty : TypeRef, (∀ arg ∈ ty.args, motive arg) → motive ty) (ty : TypeRef) : motive ty :=
  step ty fun arg _ ↦ inductionOnArgs step arg
  termination_by sizeOf ty
  decreasing_by
    obtain ⟨qualifier, name, args, depth⟩ := ty
    have hlt : sizeOf arg < sizeOf args := List.sizeOf_lt_of_mem ‹arg ∈ args›
    rw [mk.sizeOf_spec]
    omega

theorem segments_ne_nil (ty : TypeRef) : ty.segments ≠ [] := List.concat_ne_nil ty.name ty.qualifier

theorem ofSegments_of_ne_nil {segments : List String} (h : segments ≠ []) :
    ofSegments segments = .ok ⟨segments.dropLast, segments.getLast h, [], 0⟩ := by
  cases segments with
  | nil => exact absurd rfl h
  | cons first more => rfl

/-- The path of a type is one that a type can be made of. -/
theorem ofSegments_segments (ty : TypeRef) :
    ofSegments ty.segments = .ok ⟨ty.qualifier, ty.name, [], 0⟩ := by
  rw [ofSegments_of_ne_nil ty.segments_ne_nil]
  simp only [segments, List.dropLast_concat, List.getLast_concat]

/-! ## Types as they are written -/

/-- What a type is written with beside names. -/
def marks : List Char := ['.', '<', ',', ' ', '>', '[', ']']

theorem mem_brackets {c : Char} {depth : Nat} (h : c ∈ (brackets depth).toList) : c ∈ marks := by
  induction depth with
  | zero => exact absurd h List.not_mem_nil
  | succ depth ih =>
    rw [brackets, String.toList_append, List.mem_append] at h
    have hpair : "[]".toList ⊆ marks := by decide
    exact h.elim (hpair ·) ih

theorem mem_moreArgsText {c : Char} {args : List TypeRef} (h : c ∈ (moreArgsText args).toList) :
    c ∈ marks ∨ ∃ arg ∈ args, c ∈ arg.text.toList := by
  induction args with
  | nil => exact absurd h List.not_mem_nil
  | cons arg more ih =>
    have hcomma : ", ".toList ⊆ marks := by decide
    rw [moreArgsText, String.toList_append, String.toList_append, List.mem_append,
      List.mem_append] at h
    rcases h with (h | h) | h
    · exact .inl (hcomma h)
    · exact .inr ⟨arg, List.mem_cons_self, h⟩
    · exact (ih h).imp_right fun ⟨other, hother, h⟩ ↦ ⟨other, List.mem_cons_of_mem _ hother, h⟩

theorem mem_argsText {c : Char} {args : List TypeRef} (h : c ∈ (argsText args).toList) :
    c ∈ marks ∨ ∃ arg ∈ args, c ∈ arg.text.toList := by
  cases args with
  | nil => exact absurd h List.not_mem_nil
  | cons arg more =>
    have hopen : "<".toList ⊆ marks := by decide
    have hclose : ">".toList ⊆ marks := by decide
    simp only [argsText, String.toList_append, List.mem_append] at h
    rcases h with ((h | h) | h) | h
    · exact .inl (hopen h)
    · exact .inr ⟨arg, List.mem_cons_self, h⟩
    · exact (mem_moreArgsText h).imp_right
        fun ⟨other, hother, h⟩ ↦ ⟨other, List.mem_cons_of_mem _ hother, h⟩
    · exact .inl (hclose h)

/-- A type is written with the characters of the names in it and with the marks. -/
theorem mem_text {c : Char} (h : c ∈ ty.text.toList) : c ∈ marks ∨
    ∃ part, Within part ty ∧ ∃ segment ∈ part.segments, c ∈ segment.toList := by
  induction ty using inductionOnArgs with
  | step ty ih =>
    obtain ⟨qualifier, name, args, depth⟩ := ty
    rw [text, String.toList_append, String.toList_append, List.mem_append, List.mem_append] at h
    rcases h with (h | h) | h
    · rw [String.toList_intercalate] at h
      obtain rfl | ⟨part, hpart, h⟩ := eq_or_mem_of_mem_intercalate h
      · exact .inl List.mem_cons_self
      · obtain ⟨segment, hsegment, rfl⟩ := List.mem_map.mp hpart
        exact .inr ⟨_, .self _, segment, hsegment, h⟩
    · refine (mem_argsText h).elim .inl fun ⟨arg, harg, h⟩ ↦ (ih arg harg h).imp_right ?_
      exact fun ⟨part, hpart, hsegment⟩ ↦ ⟨part, .arg harg hpart, hsegment⟩
    · exact .inl (mem_brackets h)

end TypeRef

end FieldPaths
