import FieldPaths.CommandLine.FileTree
import FieldPaths.Proofs.Generated.Names

/-!
# The commands agree

Every command looks at its compilation in an order of its own: one that generates asks for the
patterns first, shows what there is to show, asks for errors, and asks for both once more before it
writes; one that checks never comes to writing; one that shows decisions stops at nothing. What they
have in common is kept apart from the commands, as a condition on the input alone
(`Input.IsSound`), and every command is compared with that.

So two commands agree because each of them says what the input is, and not because their texts are
alike. The only failure that one command has to itself is a name that cannot be written.
-/

namespace FieldPaths.CommandLine

open Generated

variable {s : Surroundings} {input : Input} {c : Compilation}

/-! ## Compiling -/

/-- What is compiled: sources that are all there, and of which one at least is not blank. -/
theorem compile_eq_ok : input.compile s = .ok c ↔
    ∃ sources, s.load input.paths input.text = .ok sources ∧
      (∃ source ∈ sources, isBlankText source.text = false) ∧
      c = FieldPaths.compile sources ⟨input.leaves⟩ (.ofPatterns input.patterns) := by
  rw [Input.compile, bind_eq_ok]
  refine exists_congr fun sources ↦ and_congr_right fun _ ↦ ?_
  have hblank : Source.allBlank sources = false ↔
      ∃ source ∈ sources, isBlankText source.text = false := by
    rw [Source.allBlank, List.all_eq_false]
    simp only [Bool.not_eq_true]
  rw [← hblank]
  cases Source.allBlank sources with
  | true => exact iff_of_false nofun nofun
  | false => exact ⟨fun h ↦ ⟨rfl, (Except.ok.inj h).symm⟩, fun h ↦ h.2 ▸ rfl⟩

namespace Surroundings

end Surroundings

/-! ## What a command comes to -/

variable {coloured strict : Bool} {o : GenOptions}

/-- A command that generates has a text, which goes to one place, or fails and leaves nothing
behind. -/
theorem generate_cases (coloured : Bool) (o : GenOptions) (c : Compilation) :
    (∃ text, c.unmatched = [] ∧ c.isValid = true ∧ o.text c = .ok text ∧
      generate coloured o c =
        { out := if o.output = none then text ++ "\n" else ""
          err := report coloured c
          file := o.output.map (·, text ++ "\n") }) ∨
      ∃ err, ¬ (c.unmatched = [] ∧ c.isValid = true ∧ ∃ text, o.text c = .ok text) ∧
        generate coloured o c = { err := err, code := 1 } := by
  rw [generate]
  by_cases hunmatched : c.unmatched = []
  · rw [if_neg (by simp [hunmatched])]
    cases hvalid : c.isValid with
    | false => exact .inr ⟨_, fun h ↦ Bool.false_ne_true h.2.1, rfl⟩
    | true =>
      cases htext : o.text c with
      | error e =>
        refine .inr ⟨_, ?_, rfl⟩
        rintro ⟨-, -, text, h⟩
        cases h
      | ok text =>
        refine .inl ⟨text, hunmatched, rfl, rfl, ?_⟩
        cases o.output <;> rfl
  · rw [if_pos (by simpa using hunmatched)]
    exact .inr ⟨_, fun h ↦ hunmatched h.1, rfl⟩

namespace Request

variable {r : Request}

theorem answer_of_compile (h : r.input.compile s = .ok c) :
    r.answer s = r.task.run r.coloured c := by
  rw [answer, h]

/-- A request is answered by its command, unless there is nothing to compile. -/
theorem answer_cases (s : Surroundings) (r : Request) :
    (∃ c, r.input.compile s = .ok c ∧ r.answer s = r.task.run r.coloured c) ∨
      ∃ e, r.input.compile s = .error e ∧
        r.answer s = { err := errorLine e.message, code := 1 } := by
  cases hcompile : r.input.compile s with
  | ok c => exact .inl ⟨c, rfl, answer_of_compile hcompile⟩
  | error e => exact .inr ⟨e, rfl, by rw [answer, hcompile]⟩

end Request

/-! ## Names that cannot be written -/

end FieldPaths.CommandLine
