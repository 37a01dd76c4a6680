import FieldPaths.Proofs.Generated.Names
import FieldPaths.Proofs.Rust.Definition
import FieldPaths.Proofs.Rust.Layout

/-!
# What generated Rust is read as

The text that is written for some types, read as definitions. It is cut into the tokens that it was
meant to have, whatever the names are, because all of them can be words and every one has a blank or
punctuation behind it. The items of a type are then its constants and those of its companion.

All of them are read unless the name of a companion is a keyword, which comes out as it is: then
there is no such item, and the text defines nothing at all.
-/

namespace FieldPaths

namespace Rust

namespace Lexeme

/-! ## Where tokens stand -/

variable {name : String} {c : Char} {rest : List Char}

/-- What comes behind a word in generated text. -/
theorem endsWord_cons (h : c ∈ [' ', ':', ';', '(', ')', ']', ',']) : EndsWord (c :: rest) := by
  have hends : ∀ d ∈ [' ', ':', ';', '(', ')', ']', ','],
      isWordContinue d = false ∧ d ∉ ['\x22', '\'', '#'] :=
    List.all_iff_forall_prop.mp (by decide)
  intro d hd
  obtain rfl := Option.some.inj hd
  exact hends c h

theorem startsPunctuation_cons (h : c ≠ '/') :
    startsPunctuation (c :: rest) = isPunctuation c := by
  rw [startsPunctuation.eq_3 _ _ (fun _ hc _ ↦ h hc) (fun _ hc _ ↦ h hc)]

theorem isIdent_of_isIdentifier (h : isIdentifier name = true) : IsIdent name :=
  .inl (isIdentifier_iff.mp h).1

theorem isIdent_of_isLegal (h : IsLegal name) : IsIdent name := by
  rcases h with ⟨hword, -⟩ | ⟨keyword, hkeyword, rfl⟩
  · exact .inl hword
  · have hwords : ∀ k ∈ keywords, isIdentifier k = true := by decide +kernel
    exact .inr ⟨keyword, (isIdentifier_iff.mp (hwords keyword hkeyword)).1, rfl⟩

/-- No identifier starts with punctuation. -/
theorem startsPunctuation_ident (h : IsIdent name) :
    startsPunctuation (name.toList ++ rest) = false := by
  have hstart : ∃ c more, name.toList = c :: more ∧ (c = '_' ∨ c.isAlpha = true) := by
    rcases h with ⟨c, more, hname, hc, -⟩ | ⟨word, -, rfl⟩
    · exact ⟨c, more, hname, hc⟩
    · exact ⟨'r', '#' :: word.toList, String.toList_append, .inr rfl⟩
  obtain ⟨c, more, hname, hc⟩ := hstart
  have hmarks : ∀ d ∈ "~!@#$%^&*-=+|;:,<.>/?'".toList, ¬ (d = '_' ∨ d.isAlpha = true) :=
    List.all_iff_forall_prop.mp (by decide)
  have hslash : c ≠ '/' := by
    rintro rfl
    exact hmarks '/' (by decide) hc
  rw [hname, List.cons_append, startsPunctuation_cons hslash, ← Bool.not_eq_true]
  exact fun hmark ↦ hmarks c (List.contains_iff_mem.mp hmark) hc

/-- What comes behind a literal in generated text. -/
theorem wordSize_cons (h : c ∈ [';', ',']) : wordSize (c :: rest) = 0 := by
  have hends : ∀ d ∈ [';', ','], (isWordStart d || d == '_') = false :=
    List.all_iff_forall_prop.mp (by decide)
  rw [wordSize, hends c h, if_neg Bool.false_ne_true]

end Lexeme

end Rust

namespace Generated

open Rust Lexeme

/-! ## Cutting the text into tokens -/

/-- The words that are the same in every generated text. -/
theorem isIdent_fixed : IsIdent "pub" ∧ IsIdent "const" ∧ IsIdent "static" ∧ IsIdent "str" ∧
    IsIdent "fn" ∧ IsIdent "String" ∧ IsIdent "concat" ∧ IsIdent "struct" ∧ IsIdent "impl" ∧
    IsIdent "allow" := by
  have hfixed : ∀ w ∈ ["pub", "const", "static", "str", "fn", "String", "concat", "struct", "impl",
      "allow"], IsIdent w := fun w hw ↦ isIdent_of_isIdentifier ((by decide : ∀ w ∈ ["pub", "const",
        "static", "str", "fn", "String", "concat", "struct", "impl", "allow"],
          isIdentifier w = true) w hw)
  simpa only [List.forall_mem_cons, List.not_mem_nil, false_imp_iff, implies_true, and_true]
    using hfixed

theorem isBlank_gap : isBlank ' ' = true ∧ isBlank '\n' = true := ⟨rfl, rfl⟩

theorem isPunctuation_fixed : isPunctuation ':' = true ∧ isPunctuation '&' = true ∧
    isPunctuation '\'' = true ∧ isPunctuation '=' = true ∧ isPunctuation ';' = true ∧
    isPunctuation '-' = true ∧ isPunctuation '>' = true ∧ isPunctuation ',' = true ∧
    isPunctuation '.' = true ∧ isPunctuation '#' = true ∧ isPunctuation ' ' = false ∧
    isPunctuation '\n' = false ∧ isPunctuation 's' = false ∧ isPunctuation 'c' = false ∧
    isPunctuation '[' = false := by decide

/-- The trees of a constant. -/
def constantTrees (constant : FieldConstant) : List Tree :=
  [.ident "pub", .ident "const", .ident constant.name, .punct ':' false, .punct '&' true,
    .punct '\'' true, .ident "static", .ident "str", .punct '=' false,
    .literal (quoted constant.value), .punct ';' false]

theorem yields_constantLine {constant : FieldConstant} (h : IsIdent constant.name) :
    Yields (constantLine constant) (Tree.lexemesOf (constantTrees constant)) := by
  let layout : List (Lexeme × String) :=
    [(tree (.ident "pub"), " "), (tree (.ident "const"), " "), (tree (.ident constant.name), ""),
      (tree (.punct ':' false), " "), (tree (.punct '&' true), ""), (tree (.punct '\'' true), ""),
      (tree (.ident "static"), " "), (tree (.ident "str"), " "), (tree (.punct '=' false), " "),
      (tree (.literal (quoted constant.value)), ""), (tree (.punct ';' false), "\n")]
  have hvalue : ∃ value, quoted constant.value = quoted value := ⟨_, rfl⟩
  have hlaid (rest : List Char) : Laid layout rest := by
    simp [layout, Laid, Stands, written, spelling, isIdent_fixed, h, hvalue, endsWord_cons,
      startsPunctuation_cons, isPunctuation_fixed, startsCharacter, wordSize_cons, isBlank_gap]
  have htext : (constantLine constant).toList = "    ".toList ++ written layout := by
    unfold constantLine
    simp [layout, written, spelling]
  exact .of_laid _ (by simp [isBlank_gap]) htext hlaid

/-- The trees of a function that puts `separator` between the constant and its parameter. -/
def functionTrees (function : PathFunction) (separator : String) : List Tree :=
  [.ident "pub", .ident "fn", .ident function.name,
    .parens [.ident function.param, .punct ':' false, .punct '&' false, .ident "str"],
    .punct '-' true, .punct '>' false, .ident "String",
    .braces [.group .bracket [.ident function.owner, .punct ':' true, .punct ':' false,
        .ident function.name, .punct ',' false, .literal (quoted separator), .punct ',' false,
        .ident function.param],
      .punct '.' false, .ident "concat", .parens []]]

theorem yields_function {function : PathFunction} (separator : String)
    (hname : IsIdent function.name) (hparam : IsIdent function.param)
    (howner : IsIdent function.owner) :
    Yields ("    pub fn " ++ function.name ++ "(" ++ function.param ++ ": &str) -> String \x7b\n" ++
        "        [" ++ function.owner ++ "::" ++ function.name ++ ", " ++ quoted separator ++
        ", " ++ function.param ++ "].concat()\n" ++ "    \x7d\n")
      (Tree.lexemesOf (functionTrees function separator)) := by
  let layout : List (Lexeme × String) :=
    [(tree (.ident "pub"), " "), (tree (.ident "fn"), " "), (tree (.ident function.name), ""),
      (opening .paren, ""), (tree (.ident function.param), ""), (tree (.punct ':' false), " "),
      (tree (.punct '&' false), ""), (tree (.ident "str"), ""), (closing .paren, " "),
      (tree (.punct '-' true), ""), (tree (.punct '>' false), " "), (tree (.ident "String"), " "),
      (opening .brace, "\n        "), (opening .bracket, ""), (tree (.ident function.owner), ""),
      (tree (.punct ':' true), ""), (tree (.punct ':' false), ""),
      (tree (.ident function.name), ""), (tree (.punct ',' false), " "),
      (tree (.literal (quoted separator)), ""), (tree (.punct ',' false), " "),
      (tree (.ident function.param), ""), (closing .bracket, ""), (tree (.punct '.' false), ""),
      (tree (.ident "concat"), ""), (opening .paren, ""), (closing .paren, "\n    "),
      (closing .brace, "\n")]
  have hseparator : ∃ value, quoted separator = quoted value := ⟨_, rfl⟩
  have hlaid (rest : List Char) : Laid layout rest := by
    simp [layout, Laid, Stands, written, spelling, Delimiter.opening, Delimiter.closing,
      isIdent_fixed, hname, hparam, howner, hseparator, endsWord_cons, startsPunctuation_cons,
      startsPunctuation_ident, isPunctuation_fixed, wordSize_cons, isBlank_gap]
  have htrees : layout.map Prod.fst = Tree.lexemesOf (functionTrees function separator) := by
    simp [layout, functionTrees, Tree.lexemesOf, Tree.lexemes, Tree.parens, Tree.braces]
  rw [← htrees]
  refine .of_laid "    " (by simp [isBlank_gap]) ?_ hlaid
  simp [layout, written, spelling, Delimiter.opening, Delimiter.closing]

theorem yields_functionLines {function : PathFunction} (hname : IsIdent function.name)
    (hparam : IsIdent function.param) (howner : IsIdent function.owner) :
    Yields (functionLines function) (Tree.lexemesOf (functionTrees function pathSeparator)) :=
  yields_function pathSeparator hname hparam howner

/-- The trees of a line that switches a warning off. -/
def lintTrees (style : Style) (lint : String) : List Tree :=
  if style.allowLints then Tree.attr [.ident "allow", .parens [.ident lint]] else []

theorem yields_lintLine (style : Style) {lint : String} (h : IsIdent lint) :
    Yields (lintLine style lint) (Tree.lexemesOf (lintTrees style lint)) := by
  unfold lintLine lintTrees
  split
  · let layout : List (Lexeme × String) :=
      [(tree (.punct '#' false), ""), (opening .bracket, ""), (tree (.ident "allow"), ""),
        (opening .paren, ""), (tree (.ident lint), ""), (closing .paren, ""),
        (closing .bracket, "\n")]
    have hlaid (rest : List Char) : Laid layout rest := by
      simp [layout, Laid, Stands, written, spelling, Delimiter.opening, Delimiter.closing,
        isIdent_fixed, h, endsWord_cons, startsPunctuation_cons, isPunctuation_fixed, isBlank_gap]
    have htrees : layout.map Prod.fst
        = Tree.lexemesOf (Tree.attr [.ident "allow", .parens [.ident lint]]) := by
      simp [layout, Tree.lexemesOf, Tree.lexemes, Tree.attr, Tree.parens]
    rw [← htrees]
    refine .of_laid_first ?_ hlaid
    simp [layout, written, spelling, Delimiter.opening, Delimiter.closing]
  · exact .blanks (by simp)

/-! ## Blocks -/

/-- The items of a block, each as its trees. -/
def Block.items (style : Style) : Block → List (List Tree)
  | .header => []
  | .constants owner ofType =>
    [lintTrees style "non_upper_case_globals" ++
      [.ident "impl", .ident owner, .braces (ofType.map constantTrees).flatten]]
  | .companion name functions =>
    [[.ident "pub", .ident "struct", .ident name, .punct ';' false],
      lintTrees style "non_snake_case" ++ [.ident "impl", .ident name,
        .braces (functions.map (functionTrees · pathSeparator)).flatten]]

theorem yields_opening {owner : String} (h : IsIdent owner) :
    Yields ("impl " ++ owner ++ " \x7b\n")
      [tree (.ident "impl"), tree (.ident owner), opening .brace] := by
  let layout : List (Lexeme × String) :=
    [(tree (.ident "impl"), " "), (tree (.ident owner), " "), (opening .brace, "\n")]
  have hlaid (rest : List Char) : Laid layout rest := by
    simp [layout, Laid, Stands, written, spelling, Delimiter.opening, isIdent_fixed, h,
      endsWord_cons, isBlank_gap]
  refine .of_laid_first ?_ hlaid
  simp [layout, written, spelling, Delimiter.opening]

theorem yields_closing : Yields "\x7d" [closing .brace] := by
  have hlaid (rest : List Char) : Laid [(closing .brace, "")] rest := by
    simp [Laid, Stands]
  exact .of_laid_first rfl hlaid

theorem yields_struct {name : String} (h : IsIdent name) :
    Yields ("pub struct " ++ name ++ ";\n\n")
      (Tree.lexemesOf [.ident "pub", .ident "struct", .ident name, .punct ';' false]) := by
  let layout : List (Lexeme × String) :=
    [(tree (.ident "pub"), " "), (tree (.ident "struct"), " "), (tree (.ident name), ""),
      (tree (.punct ';' false), "\n\n")]
  have hlaid (rest : List Char) : Laid layout rest := by
    simp [layout, Laid, Stands, written, spelling, isIdent_fixed, h, endsWord_cons,
      startsPunctuation_cons, isPunctuation_fixed, isBlank_gap]
  refine .of_laid_first ?_ hlaid
  simp [layout, written, spelling]

/-- An `impl` block is cut into the tokens of its content, with those around it. -/
theorem yields_impl {style : Style} {lint owner content : String} {trees : List Tree}
    (hlint : IsIdent lint) (howner : IsIdent owner)
    (hcontent : Yields content (Tree.lexemesOf trees)) :
    Yields (lintLine style lint ++ "impl " ++ owner ++ " \x7b\n" ++ content ++ "\x7d")
      (Tree.lexemesOf (lintTrees style lint ++
        [.ident "impl", .ident owner, .braces trees])) := by
  have hall := (((yields_lintLine style hlint).append (yields_opening howner)).append
    hcontent).append yields_closing
  simp only [String.append_assoc] at hall ⊢
  rw [Tree.lexemesOf_append]
  simpa [Tree.lexemesOf, Tree.lexemes, Tree.braces] using hall

/-- A block is cut into the tokens of its items. -/
theorem Block.yields {style : Style} {block : Block} (h : block.IsNamed) (hne : block ≠ .header) :
    Yields (block.text style) (Tree.lexemesOf (block.items style).flatten) := by
  have hglobals : IsIdent "non_upper_case_globals" := isIdent_of_isIdentifier (by decide)
  have hsnake : IsIdent "non_snake_case" := isIdent_of_isIdentifier (by decide)
  cases block with
  | header => exact absurd rfl hne
  | constants owner ofType =>
    have hlines : Yields (String.join (ofType.map constantLine))
        (Tree.lexemesOf (ofType.map constantTrees).flatten) := by
      rw [← List.flatMap_def, Tree.lexemesOf_flatMap]
      exact .join fun constant hconstant ↦
        yields_constantLine (isIdent_of_isLegal (h.2 constant hconstant))
    rw [items, List.flatten_singleton]
    exact yields_impl hglobals (isIdent_of_isLegal h.1) hlines
  | companion name functions =>
    have hname := isIdent_of_isIdentifier h.1
    have hlines : Yields ("\n".intercalate (functions.map functionLines))
        (Tree.lexemesOf (functions.map (functionTrees · pathSeparator)).flatten) := by
      rw [← List.flatMap_def, Tree.lexemesOf_flatMap]
      refine .intercalate (by simp [isBlank_gap]) fun function hfunction ↦ ?_
      obtain ⟨hfn, hparam, howner⟩ := h.2 function hfunction
      exact yields_functionLines (isIdent_of_isLegal hfn) (isIdent_of_isLegal hparam)
        (isIdent_of_isLegal howner)
    have hall := (yields_struct hname).append (@yields_impl style _ _ _ _ hsnake hname hlines)
    rw [items, List.flatten_cons, List.flatten_singleton, Tree.lexemesOf_append]
    unfold Block.text
    simpa only [String.append_assoc] using hall

/-! ## Whole texts -/

/-- The comment at the top and nothing else, or an empty line after it. -/
theorem scan_header {rest : List Char} (h : ∀ c ∈ rest.head?, c = '\n') :
    scan (header.toList ++ rest) = scan rest := by
  have hheader : header.toList
      = '/' :: '/' :: " @generated by schemapath. Do not edit.".toList := by
    simp [header]
  rw [hheader]
  exact scan_comment (by decide) (by simp) h

/-- The text of blocks is cut into the tokens of their items, whether or not there is a comment at
the top. -/
theorem scan_blocks {style : Style} {bs : List Block}
    (h : ∀ block ∈ bs, block.IsNamed ∧ block ≠ .header) :
    scan ("\n\n".intercalate
        (((if style.header then [Block.header] else []) ++ bs).map (·.text style))).toList
      = some (Tree.lexemesOf (bs.flatMap (·.items style)).flatten) := by
  have hbodies : Yields ("\n\n".intercalate (bs.map (·.text style)))
      (Tree.lexemesOf (bs.flatMap (·.items style)).flatten) := by
    rw [List.flatten_eq_flatMap, List.flatMap_assoc, Tree.lexemesOf_flatMap]
    refine .intercalate (by simp [isBlank_gap]) fun block hblock ↦ ?_
    rw [← List.flatten_eq_flatMap]
    exact Block.yields (h block hblock).1 (h block hblock).2
  have hscan : scan ("\n\n".intercalate (bs.map (·.text style))).toList
      = some (Tree.lexemesOf (bs.flatMap (·.items style)).flatten) := by
    have hend := hbodies []
    rwa [List.append_nil, scan_nil, Option.map_some, List.append_nil] at hend
  cases style.header with
  | false => exact hscan
  | true =>
    rw [if_pos rfl, List.singleton_append, List.map_cons]
    cases bs with
    | nil =>
      rw [List.map_nil, String.intercalate_singleton, ← List.append_nil (String.toList _)]
      exact (scan_header (by simp)).trans scan_nil
    | cons block more =>
      rw [List.map_cons, String.intercalate_cons_cons, ← List.map_cons, String.toList_append,
        String.toList_append, List.append_assoc]
      have hheader : ∀ c ∈ ("\n\n".toList ++
          ("\n\n".intercalate ((block :: more).map (·.text style))).toList).head?, c = '\n' := by
        simp
      refine (scan_header hheader).trans ?_
      rw [scan_blanks (by simp [isBlank_gap]), hscan]

/-! ## The definitions of a block -/

theorem withoutAttributes_lintTrees (style : Style) (lint : String) (trees : List Tree) :
    withoutAttributes (lintTrees style lint ++ trees) = withoutAttributes trees := by
  rw [lintTrees]
  split <;> rfl

theorem isItem_constantTrees (constant : FieldConstant) : IsItem (constantTrees constant) :=
  fun _ ↦ rfl

theorem isItem_functionTrees (function : PathFunction) (separator : String) :
    IsItem (functionTrees function separator) := fun _ ↦ rfl

theorem isItem_impl (style : Style) (lint owner : String) (content : List Tree) :
    IsItem (lintTrees style lint ++ [.ident "impl", .ident owner, .braces content]) := by
  intro more
  rw [lintTrees]
  split <;> rfl

theorem Block.isItem_of_mem {style : Style} {block : Block} :
    ∀ item ∈ block.items style, IsItem item := by
  cases block with
  | header => nofun
  | constants owner ofType => exact List.forall_mem_singleton.mpr (isItem_impl _ _ _ _)
  | companion name functions =>
    exact List.forall_mem_cons.mpr ⟨fun _ ↦ rfl, List.forall_mem_singleton.mpr (isItem_impl _ _ _ _)⟩

/-- The text of blocks is cut into their items. -/
theorem read?_blocks {style : Style} {bs : List Block}
    (h : ∀ block ∈ bs, block.IsNamed ∧ block ≠ .header) :
    (Tree.read? ("\n\n".intercalate
        (((if style.header then [Block.header] else []) ++ bs).map (·.text style)))).map itemsOf
      = some (bs.flatMap (·.items style)) := by
  have hitems : ∀ item ∈ bs.flatMap (·.items style), IsItem item := by
    intro item hitem
    obtain ⟨block, -, hitem⟩ := List.mem_flatMap.mp hitem
    exact Block.isItem_of_mem item hitem
  rw [Tree.read?_of_scan (scan_blocks h), Option.map_some, itemsOf_flatten hitems]

theorem member?_constantTrees {constant : FieldConstant} (owner : String)
    (h : IsLegal constant.name) : member? owner (withoutAttributes (constantTrees constant))
      = some (.constant owner (unraw constant.name) constant.value) := by
  have hmember : member? owner (withoutAttributes (constantTrees constant)) =
      (name? constant.name).bind fun name ↦ (unquoted? (quoted constant.value)).bind fun value ↦
        some (.constant owner name value) := rfl
  rw [hmember, name?_of_isLegal h, unquoted?_quoted, Option.bind_some, Option.bind_some]

/-- The function that is defined by a function of a companion. -/
def PathFunction.defined (function : PathFunction) : Fn where
  name := unraw function.name
  param := unraw function.param
  body := [.constant (unraw function.owner) (unraw function.name), .literal pathSeparator,
    .param (unraw function.param)]

theorem member?_functionTrees {function : PathFunction} (owner : String)
    (hname : IsLegal function.name) (hparam : IsLegal function.param)
    (howner : IsLegal function.owner) :
    member? owner (withoutAttributes (functionTrees function pathSeparator))
      = some (.function owner function.defined) := by
  have hbody : body? [.group .bracket [.ident function.owner, .punct ':' true, .punct ':' false,
      .ident function.name, .punct ',' false, .literal (quoted pathSeparator), .punct ',' false,
      .ident function.param], .punct '.' false, .ident "concat", .parens []]
        = some function.defined.body := by
    simp [Tree.parens, body?, splitCommas, operand?, name?_of_isLegal hname,
      name?_of_isLegal hparam, name?_of_isLegal howner, unquoted?_quoted, PathFunction.defined]
  have hmember : member? owner (withoutAttributes (functionTrees function pathSeparator)) =
      (name? function.name).bind fun name ↦ (name? function.param).bind fun param ↦
        (body? [.group .bracket [.ident function.owner, .punct ':' true, .punct ':' false,
            .ident function.name, .punct ',' false, .literal (quoted pathSeparator),
            .punct ',' false, .ident function.param],
          .punct '.' false, .ident "concat", .parens []]).bind fun body ↦
            some (.function owner ⟨name, param, body⟩) := rfl
  rw [hmember, name?_of_isLegal hname, name?_of_isLegal hparam, hbody]
  rfl

/-- An `impl` block defines what its members are. -/
theorem item?_impl {α : Type} (style : Style) (lint : String) {word owner : String}
    {trees : α → List Tree} {define : α → Definition} {l : List α}
    (hname : name? word = some owner) (hitem : ∀ a ∈ l, IsItem (trees a))
    (hmember : ∀ a ∈ l, member? owner (withoutAttributes (trees a)) = some (define a)) :
    item? (withoutAttributes (lintTrees style lint ++
      [.ident "impl", .ident word, .braces (l.map trees).flatten])) = some (l.map define) := by
  have hitems : itemsOf (l.map trees).flatten = l.map trees :=
    itemsOf_flatten (List.forall_mem_map.mpr hitem)
  have hmembers : (itemsOf (l.map trees).flatten).mapM
      (fun item ↦ member? owner (withoutAttributes item)) = some (l.map define) := by
    rw [hitems, List.mapM_map]
    exact mapM_eq_some hmember
  rw [withoutAttributes_lintTrees]
  change (name? word).bind _ = _
  rw [hname]
  exact hmembers

/-- What the constants of a type define. -/
theorem definitions?_constants {style : Style} {owner : String} {ofType : List FieldConstant}
    (h : (Block.constants owner ofType).IsNamed) :
    definitions? ((Block.constants owner ofType).items style) = some (ofType.map fun constant ↦
      .constant (unraw owner) (unraw constant.name) constant.value) := by
  have himpl := item?_impl style "non_upper_case_globals" (name?_of_isLegal h.1)
    (fun constant _ ↦ isItem_constantTrees constant)
    fun constant hconstant ↦ member?_constantTrees (unraw owner) (h.2 constant hconstant)
  rw [Block.items, definitions?_cons, himpl, definitions?_nil, Option.bind_some, Option.map_some,
    List.append_nil]

/-- What a companion defines. Nothing is read where its name is a keyword. -/
theorem definitions?_companion {style : Style} {name : String} {functions : List PathFunction}
    (h : (Block.companion name functions).IsNamed) :
    definitions? ((Block.companion name functions).items style) =
      if isKeyword name then none
      else some (.struct name :: functions.map fun function ↦ .function name function.defined) := by
  have hstruct : item? (withoutAttributes
      [.ident "pub", .ident "struct", .ident name, .punct ';' false])
      = (name? name).map fun name ↦ [.struct name] := rfl
  have hname := name?_of_isIdentifier h.1
  rw [Block.items, definitions?_cons, hstruct, hname]
  split
  · rfl
  · rename_i hkeyword
    rw [if_neg hkeyword] at hname
    have himpl := item?_impl style "non_snake_case" hname
      (fun function _ ↦ isItem_functionTrees function pathSeparator) fun function hfunction ↦
        member?_functionTrees name (h.2 function hfunction).1 (h.2 function hfunction).2.1
          (h.2 function hfunction).2.2
    rw [definitions?_cons, himpl, definitions?_nil, Option.map_some, Option.bind_some,
      Option.bind_some, Option.map_some, Option.map_some, List.append_nil, List.singleton_append]

/-! ## The definitions of types -/

/-- The function for a builder of the type `owner`. -/
def builderFn (owner : String) (builder : PathBuilder) : Fn where
  name := builder.name
  param := builder.param
  body := [.constant owner builder.name, .literal pathSeparator, .param builder.param]

/-- The companion of a type and its functions. -/
def companionDefinitions (style : Style) (type : TypeSchema) : List Definition :=
  match companion? style type with
  | none => []
  | some name =>
    .struct name :: type.builders.map fun builder ↦ .function name (builderFn type.name builder)

/-- What is defined for a type: its constants and, if it has one, its companion. -/
def definitionsOf (style : Style) (type : TypeSchema) : List Definition :=
  (type.constants.map fun constant ↦ .constant type.name constant.name constant.value) ++
    companionDefinitions style type

/-- Whether the name of the companion of a type is a keyword. -/
def hasKeywordCompanion (style : Style) (type : TypeSchema) : Bool :=
  (companion? style type).any isKeyword

variable {leaves : LeafTable} {style : Style} {type : TypeSchema}

/-- The names of descriptors start with the mark, so no part of them is taken for that of the raw
form. -/
theorem unraw_descriptorName (name : String) : unraw (descriptorName name) = descriptorName name := by
  have hmark : (descriptorName name).toList = '_' :: name.toList := by
    rw [descriptorName, String.toList_append]
    rfl
  rw [unraw]
  split
  · rename_i heq
    rw [hmark] at heq
    exact absurd (List.cons_eq_cons.mp heq).1 (by decide)
  · rfl

section

variable (hmade : ∀ descriptor ∈ type.descriptors,
  ∃ field : Field Span, descriptor = field.descriptor leaves)

include hmade

/-- What is read of a type. -/
theorem definitions?_blocksOf
    (hchecked : ∀ name ∈ checkedNames style type, isIdentifier name = true) :
    definitions? ((blocksOf style type).flatMap (·.items style)) =
      if hasKeywordCompanion style type then none else some (definitionsOf style type) := by
  have hnamed := isNamed_of_mem_blocksOf hmade hchecked
  have hword : IsWord type.name :=
    (isIdentifier_iff.mp (hchecked type.name (by simp [checkedNames]))).1
  have hconstants : (type.constants.map fun constant ↦ Definition.constant
      (unraw (identifier type.name)) (unraw constant.name) constant.value)
        = type.constants.map fun constant ↦ .constant type.name constant.name constant.value := by
    refine List.map_congr_left fun constant hconstant ↦ ?_
    obtain ⟨field, -, rfl⟩ := exists_field_of_mem_constants hmade hconstant
    rw [unraw_identifier hword, unraw_descriptorName]
  have hfunctions (name : String) : ((type.builders.map fun b ↦ PathFunction.mk b.name b.param
      (identifier type.name)).map fun function ↦ Definition.function name function.defined)
        = type.builders.map fun builder ↦ .function name (builderFn type.name builder) := by
    have hparam : unraw subpathParam = subpathParam := by decide
    rw [List.map_map]
    refine List.map_congr_left fun builder hbuilder ↦ ?_
    obtain ⟨field, -, rfl⟩ := exists_field_of_mem_builders hmade hbuilder
    rw [Function.comp_apply, PathFunction.defined, unraw_identifier hword, unraw_descriptorName,
      hparam, builderFn]
  have hfirst : definitions? ((Block.constants (identifier type.name) type.constants).items style)
      = some (type.constants.map _) := definitions?_constants (hnamed _ List.mem_cons_self).1
  rw [hconstants] at hfirst
  rw [blocksOf, List.flatMap_cons, definitions?_append, hfirst, Option.bind_some,
    hasKeywordCompanion, definitionsOf, companionDefinitions]
  cases hcompanion : companion? style type with
  | none => exact congrArg (Option.map _) definitions?_nil
  | some name =>
    have hmem : Block.companion name (type.builders.map fun b ↦ PathFunction.mk b.name b.param
        (identifier type.name)) ∈ blocksOf style type := by
      rw [blocksOf, hcompanion]
      exact List.mem_cons_of_mem _ (List.mem_singleton.mpr rfl)
    rw [Option.map_some, Option.toList_some, List.flatMap_singleton,
      definitions?_companion (hnamed _ hmem).1, hfunctions, Option.any_some]
    split <;> rfl

end

/-- Nothing is defined for a type without descriptors. -/
theorem definitionsOf_of_descriptors_eq_nil (h : type.descriptors = []) :
    definitionsOf style type = [] ∧ hasKeywordCompanion style type = false := by
  have hcompanion : companion? style type = none := by
    rw [companion?, TypeSchema.builders, buildersOf, h]
    rfl
  rw [definitionsOf, companionDefinitions, hasKeywordCompanion, hcompanion, TypeSchema.constants,
    constantsOf, h]
  exact ⟨rfl, rfl⟩

/-- The types one after the other are read one after the other. -/
theorem definitions?_flatMap_blocksOf {types : List TypeSchema}
    (hmade : ∀ type ∈ types, ∀ descriptor ∈ type.descriptors,
      ∃ field : Field Span, descriptor = field.descriptor leaves)
    (hchecked : ∀ type ∈ types, type.descriptors ≠ [] →
      ∀ name ∈ checkedNames style type, isIdentifier name = true) :
    definitions? (((types.filter (!·.descriptors.isEmpty)).flatMap (blocksOf style)).flatMap
        (·.items style)) =
      if types.any (hasKeywordCompanion style) then none
      else some (types.flatMap (definitionsOf style)) := by
  induction types with
  | nil => exact definitions?_nil
  | cons type more ih =>
    rw [List.forall_mem_cons] at hmade hchecked
    specialize ih hmade.2 hchecked.2
    rw [List.any_cons, List.flatMap_cons]
    by_cases hnil : type.descriptors = []
    · obtain ⟨hnone, hno⟩ : definitionsOf style type = [] ∧ hasKeywordCompanion style type = false :=
        definitionsOf_of_descriptors_eq_nil hnil
      rw [List.filter_cons_of_neg (by simp [hnil]), ih, hnone, hno, Bool.false_or, List.nil_append]
    · rw [List.filter_cons_of_pos (by simp [hnil]), List.flatMap_cons, List.flatMap_append,
        definitions?_append, definitions?_blocksOf hmade.1 (hchecked.1 hnil), ih]
      cases hasKeywordCompanion style type with
      | true => rfl
      | false => cases more.any (hasKeywordCompanion style) <;> rfl

/-- **What generated text is read as.** The definitions of the types, one type after the other, or
nothing at all where the name of a companion is a keyword. -/
theorem read?_rustText {types : List TypeSchema} {text : String}
    (hmade : ∀ type ∈ types, ∀ descriptor ∈ type.descriptors,
      ∃ field : Field Span, descriptor = field.descriptor leaves)
    (h : TypeSchema.rustText style types = .ok text) :
    Definition.read? text =
      if types.any (hasKeywordCompanion style) then none
      else some (types.flatMap (definitionsOf style)) := by
  rw [TypeSchema.rustText, bind_eq_ok] at h
  obtain ⟨bs, hblocks, h⟩ := h
  obtain rfl := Except.ok.inj h
  obtain ⟨hchecked, rfl⟩ := blocks_eq_append hblocks
  have hnamed : ∀ block ∈ (types.filter (!·.descriptors.isEmpty)).flatMap (blocksOf style),
      block.IsNamed ∧ block ≠ .header := by
    intro block hblock
    obtain ⟨type, htype, hblock⟩ := List.mem_flatMap.mp hblock
    obtain ⟨htype, hne⟩ := List.mem_filter.mp htype
    exact isNamed_of_mem_blocksOf (hmade type htype)
      (hchecked type htype (by simpa using hne)) block hblock
  obtain ⟨trees, htrees, hitems⟩ := Option.map_eq_some_iff.mp (read?_blocks hnamed)
  rw [Definition.read?, htrees, Option.bind_some, hitems,
    definitions?_flatMap_blocksOf hmade hchecked]

end Generated

end FieldPaths
