import FieldPaths.Diagnostic

/-!
# Details in messages

A detail can be any text. What stands at a fault is quoted in it, and a source may have braces
there, or a whole placeholder.

Two facts keep a detail apart from the template it is put into. The template of each kind has
exactly one placeholder, also where it is put together from a message that has a brace itself. And
filling goes on behind what it has put in, so nothing of a detail is taken for a placeholder. What
stands before the detail in a message and what stands after it is then a matter of the kind alone
(`DiagnosticKind.message_verbatim`).
-/

namespace FieldPaths

/-! ## Filling a template -/

namespace Template

/-- The text has no placeholder in it. -/
def IsPlain (text : String) : Prop := ¬ placeholder.toList <:+: text.toList

instance (text : String) : Decidable (IsPlain text) := inferInstanceAs (Decidable (¬ _))

variable {detail text : List Char}

theorem fillChars_cons {c : Char} (h : ¬ placeholder.toList <+: c :: text) :
    fillChars detail (c :: text) = c :: fillChars detail text := by
  rw [fillChars]
  rintro more rfl rfl
  exact h (List.prefix_append placeholder.toList more)

private theorem not_infix_of_cons {c : Char} (h : ¬ placeholder.toList <:+: c :: text) :
    ¬ placeholder.toList <:+: text := fun hin ↦ h (hin.trans (List.suffix_cons c text).isInfix)

theorem fillChars_of_not_infix (h : ¬ placeholder.toList <:+: text) :
    fillChars detail text = text := by
  induction text with
  | nil => rw [fillChars]
  | cons c text ih =>
    have hc : ¬ placeholder.toList <+: c :: text := fun hc ↦ h hc.isInfix
    rw [fillChars_cons hc, ih (not_infix_of_cons h)]

/-- The first placeholder is the one before which there is none. -/
theorem fillChars_append (h : ¬ placeholder.toList <:+: text) (more : List Char) :
    fillChars detail (text ++ (placeholder.toList ++ more))
      = text ++ (detail ++ fillChars detail more) := by
  induction text with
  | nil => rfl
  | cons c text ih =>
    -- a placeholder does not start with the brace it ends with, so none that starts in the text
    -- ends behind it
    have hc : ¬ placeholder.toList <+: c :: (text ++ (placeholder.toList ++ more)) := by
      intro hc
      obtain ⟨rfl, hmore⟩ := List.cons_prefix_cons.mp hc
      cases text with
      | nil => exact absurd (List.cons_prefix_cons.mp hmore).1 (by decide)
      | cons d text =>
        obtain ⟨rfl, -⟩ := List.cons_prefix_cons.mp hmore
        exact h (List.prefix_append placeholder.toList text).isInfix
    rw [List.cons_append, fillChars_cons hc, ih (not_infix_of_cons h), List.cons_append]

/-- Between plain texts, the detail takes the place of the placeholder. -/
theorem fill_eq {before after : String} (hbefore : IsPlain before) (hafter : IsPlain after)
    (detail : String) :
    fill (before ++ placeholder ++ after) detail = before ++ detail ++ after := by
  rw [fill, ← String.toList_inj, String.toList_ofList]
  simp only [String.toList_append, List.append_assoc]
  rw [fillChars_append hbefore, fillChars_of_not_infix hafter]

end Template

/-! ## The templates of the kinds -/

namespace DiagnosticKind

/-- What stands before the placeholder of a kind's template, and what stands after it. -/
def frame : DiagnosticKind → String × String
  | expectedToken => ("expected ", "")
  | duplicateModifier => ("duplicate modifier `", "`")
  | duplicateDeclaration => ("`", "` is already declared")
  | invalidTarget => ("`@Schema` cannot be applied to interface `", "`")
  | duplicateDescriptor => ("", "")
  | emptySchema => ("schema `", "` has no eligible fields")
  | kind => (kind.bareMessage ++ ": ", "")

theorem template_eq (kind : DiagnosticKind) :
    kind.template = kind.frame.1 ++ Template.placeholder ++ kind.frame.2 := by
  cases kind <;> rfl

theorem isPlain_frame (kind : DiagnosticKind) :
    Template.IsPlain kind.frame.1 ∧ Template.IsPlain kind.frame.2 := by
  cases kind <;> decide +kernel

theorem message_some (kind : DiagnosticKind) (detail : String) :
    kind.message (some detail) = kind.frame.1 ++ detail ++ kind.frame.2 := by
  rw [message, template_eq]
  exact Template.fill_eq kind.isPlain_frame.1 kind.isPlain_frame.2 detail

/-- **Details are quoted verbatim.** The template of a kind has one placeholder. A message with a
detail is what stands before it, the detail as it is, and what stands after it, so a kind says
something else for each detail. -/
theorem message_verbatim (kind : DiagnosticKind) : ∃ before after : String,
    (kind.template = before ++ Template.placeholder ++ after ∧
      Template.IsPlain before ∧ Template.IsPlain after) ∧
    (∀ detail, kind.message (some detail) = before ++ detail ++ after) ∧
    (Function.Injective fun detail ↦ kind.message (some detail)) ∧
    ∀ (d : Diagnostic) (detail : String),
      { d with kind := kind, detail := some detail }.message = before ++ detail ++ after := by
  refine ⟨kind.frame.1, kind.frame.2, ⟨kind.template_eq, kind.isPlain_frame⟩, kind.message_some, ?_,
    fun _ ↦ kind.message_some⟩
  intro detail detail' h
  simp only [message_some, String.append_right_inj, String.append_left_inj] at h
  exact h

/-- A placeholder in the source is quoted, and the brace of the message is no part of one. -/
example : unclosedBody.message (some "`\x7b\x7d`") = "missing closing `\x7d`: `\x7b\x7d`" := by
  decide +kernel

end DiagnosticKind

end FieldPaths
