import FieldPaths.Text.Blank
import Mathlib.Data.List.DropRight

/-!
# Lines and blocks of lines

A text is read line by line, and where empty lines stand between groups of others, the groups are
its blocks. Blocks that were put together to a text are read back from it, as long as no line of
theirs is empty or goes on over the end of a line.
-/

namespace FieldPaths

/-- What stands in lists with a separator between them is the separator or in one of the lists. -/
theorem eq_or_mem_of_mem_intercalate {α : Type} {separator a : α} {parts : List (List α)}
    (h : a ∈ [separator].intercalate parts) : a = separator ∨ ∃ part ∈ parts, a ∈ part := by
  induction parts with
  | nil => exact absurd h List.not_mem_nil
  | cons first more ih =>
    by_cases hmore : more = []
    · rw [hmore, List.intercalate_singleton] at h
      exact .inr ⟨first, List.mem_cons_self, h⟩
    · rw [List.intercalate_cons_of_ne_nil hmore, List.mem_append, List.mem_append,
        List.mem_singleton] at h
      rcases h with (hfirst | heq) | hmem
      · exact .inr ⟨first, List.mem_cons_self, hfirst⟩
      · exact .inl heq
      · exact (ih hmem).imp_right fun ⟨part, hpart, h⟩ ↦ ⟨part, List.mem_cons_of_mem _ hpart, h⟩

/-! ## Lines -/

/-- The text can stand in a line, since it does not go on over the end of one. -/
def FitsLine (text : String) : Prop := '\n' ∉ text.toList

@[simp]
theorem fitsLine_append {front back : String} :
    FitsLine (front ++ back) ↔ FitsLine front ∧ FitsLine back := by
  rw [FitsLine, String.toList_append, List.mem_append, not_or]
  rfl

instance (text : String) : Decidable (FitsLine text) := inferInstanceAs (Decidable (_ ∉ _))

/-- The lines of a text, without the characters that end them. -/
def linesOf (text : String) : List String := (text.split '\n').toList.map (·.copy)

/-- The blocks of a text: the lines that stand together, with an empty line before and after. -/
def lineBlocks (text : String) : List (List String) := ((linesOf text).splitOn "").filter (· ≠ [])

theorem linesOf_intercalate {lines : List String} (hlines : ∀ line ∈ lines, FitsLine line) :
    linesOf ("\n".intercalate lines) = if lines = [] then [""] else lines :=
  String.toList_split_intercalate hlines

section

variable {blocks : List (List String)}

theorem intercalate_ne_nil (hblocks : ∀ block ∈ blocks, block ≠ []) (h : blocks ≠ []) :
    [""].intercalate blocks ≠ [] := by
  obtain ⟨block, more, rfl⟩ := List.exists_cons_of_ne_nil h
  by_cases hmore : more = []
  · rw [hmore, List.intercalate_singleton]
    exact hblocks block List.mem_cons_self
  · rw [List.intercalate_cons_of_ne_nil hmore, List.append_assoc]
    exact List.append_ne_nil_of_right_ne_nil _ (List.cons_ne_nil _ _)

/-- An empty line between blocks is two line ends in the text. -/
theorem intercalate_blocks (hblocks : ∀ block ∈ blocks, block ≠ []) :
    "\n\n".intercalate (blocks.map "\n".intercalate)
      = "\n".intercalate ([""].intercalate blocks) := by
  induction blocks with
  | nil => rfl
  | cons block more ih =>
    rw [List.forall_mem_cons] at hblocks
    obtain ⟨hblock, hmore⟩ := hblocks
    by_cases hnil : more = []
    · rw [hnil, List.map_singleton, String.intercalate_singleton, List.intercalate_singleton]
    · have hmap : more.map "\n".intercalate ≠ [] := mt List.map_eq_nil_iff.mp hnil
      calc "\n\n".intercalate ((block :: more).map "\n".intercalate)
          = "\n".intercalate block ++ "\n\n" ++ "\n".intercalate ([""].intercalate more) := by
            rw [List.map_cons, String.intercalate_cons_of_ne_nil hmap, ih hmore]
        _ = "\n".intercalate block ++ "\n" ++ "\n".intercalate ("" :: [""].intercalate more) := by
            have hends : "\n\n" = "\n" ++ "\n" := rfl
            rw [String.intercalate_cons_of_ne_nil (intercalate_ne_nil hmore hnil), hends]
            simp only [String.empty_append, String.append_assoc]
        _ = "\n".intercalate ([""].intercalate (block :: more)) := by
            rw [List.intercalate_cons_of_ne_nil hnil, List.append_assoc, List.singleton_append,
              String.intercalate_append_of_ne_nil hblock (List.cons_ne_nil _ _)]

/-- The blocks of lines that a text was put together from are read back from it. -/
theorem lineBlocks_intercalate (hblocks : ∀ block ∈ blocks, block ≠ [])
    (hlines : ∀ block ∈ blocks, ∀ line ∈ block, line ≠ "" ∧ FitsLine line) :
    lineBlocks ("\n\n".intercalate (blocks.map "\n".intercalate)) = blocks := by
  have hends : ∀ line ∈ [""].intercalate blocks, FitsLine line := by
    intro line hline
    obtain rfl | ⟨block, hblock, hmem⟩ := eq_or_mem_of_mem_intercalate hline
    · exact List.not_mem_nil
    · exact (hlines block hblock line hmem).2
  rw [intercalate_blocks hblocks, lineBlocks, linesOf_intercalate hends]
  by_cases hnil : blocks = []
  · rw [hnil]
    rfl
  · have hempty : ∀ block ∈ blocks, "" ∉ block :=
      fun block hblock hmem ↦ (hlines block hblock "" hmem).1 rfl
    rw [if_neg (intercalate_ne_nil hblocks hnil), List.splitOn_intercalate "" hempty hnil]
    exact List.filter_eq_self.mpr fun block hblock ↦ decide_eq_true (hblocks block hblock)

end

/-! ## Cutting off what is blank -/

theorem trimBack_eq_rdropWhile (text : List Char) : trimBack text = text.rdropWhile isBlank := rfl

/-- Of a text that is not all blank something is left. -/
theorem trimBack_ne_nil {text : List Char} {c : Char} (hc : c ∈ text) (hblank : isBlank c = false) :
    trimBack text ≠ [] := by
  rw [trimBack_eq_rdropWhile, ne_eq, List.rdropWhile_eq_nil_iff]
  intro hall
  rw [hall c hc] at hblank
  exact Bool.noConfusion hblank

theorem mem_of_mem_trimBack {text : List Char} {c : Char} (hc : c ∈ trimBack text) : c ∈ text :=
  (List.rdropWhile_prefix isBlank text).subset hc

end FieldPaths
