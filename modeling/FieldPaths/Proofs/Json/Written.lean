import FieldPaths.Generated.Document
import FieldPaths.Proofs.Json.Reader

/-!
# Documents read back

Every document, in any layout that adds white space only, is read as the value it was written for.
So what is written of some types can be recovered from the text by any reader of JSON, and it does
not matter whether the text is indented.
-/

namespace FieldPaths

namespace Json

/-! ## Strings -/

theorem characters?_toNat (cs : List Char) : characters? (cs.map Char.toNat) = some cs := by
  induction cs with
  | nil => rfl
  | cons c cs ih =>
    have hvalid : ¬ (0xd800 ≤ c.toNat ∧ c.toNat < 0xe000) := by
      have h : c.toNat.isValidChar := c.valid
      rw [Nat.isValidChar] at h
      omega
    rw [List.map_cons, characters?.eq_def]
    dsimp only
    rw [if_neg (by omega), if_neg (by omega), ih, Option.map_some, Char.ofNat_toNat]

/-- How a character is written: by a short escape, by its number, or as it is. -/
theorem quotedChar_cases (c : Char) :
    (∃ d, d ≠ 'u' ∧ shortEscape? d = some c ∧ JsonValue.quotedChar c = ['\\', d]) ∨
      (c.toNat < 0x20 ∧ JsonValue.quotedChar c
        = ['\\', 'u', '0', '0', Nat.digitChar (c.toNat / 16), Nat.digitChar (c.toNat % 16)]) ∨
      (c ≠ '\x22' ∧ c ≠ '\\' ∧ 0x20 ≤ c.toNat ∧ JsonValue.quotedChar c = [c]) := by
  unfold JsonValue.quotedChar
  split
  · exact .inl ⟨'\x22', by decide, rfl, rfl⟩
  · exact .inl ⟨'\\', by decide, rfl, rfl⟩
  · exact .inl ⟨'b', by decide, rfl, rfl⟩
  · exact .inl ⟨'t', by decide, rfl, rfl⟩
  · exact .inl ⟨'n', by decide, rfl, rfl⟩
  · exact .inl ⟨'f', by decide, rfl, rfl⟩
  · exact .inl ⟨'r', by decide, rfl, rfl⟩
  · rename_i hquote hbackslash _ _ _ _ _
    split
    · rename_i hlt
      exact .inr (.inl ⟨hlt, rfl⟩)
    · rename_i hlt
      exact .inr (.inr ⟨hquote, hbackslash, Nat.le_of_not_lt hlt, rfl⟩)

theorem hexNumber?_control {n : Nat} (h : n < 0x20) :
    hexNumber? ['0', '0', Nat.digitChar (n / 16), Nat.digitChar (n % 16)] = some n := by
  have hhigh := Rust.hexValue?_digitChar (n / 16) (by omega)
  have hlow := Rust.hexValue?_digitChar (n % 16) (by omega)
  have hzero : Rust.hexValue? '0' = some 0 := rfl
  simp [hexNumber?, hhigh, hlow, hzero, Nat.div_add_mod]

theorem tokensInString?_quotedChar (codePoints : List Nat) (c : Char) (rest : List Char) :
    tokensInString? codePoints (JsonValue.quotedChar c ++ rest)
      = tokensInString? (codePoints ++ [c.toNat]) rest := by
  rcases quotedChar_cases c with ⟨d, hd, hshort, h⟩ | ⟨hlt, h⟩ | ⟨hquote, hbackslash, hge, h⟩
  · rw [h, List.cons_append, List.singleton_append,
      tokensInString?.eq_4 _ _ _ fun _ _ _ _ _ hu _ ↦ hd hu, hshort]
    rfl
  · rw [h]
    simp only [List.cons_append, List.nil_append]
    rw [tokensInString?.eq_3, hexNumber?_control hlt]
    rfl
  · rw [h, List.singleton_append, tokensInString?.eq_5 _ _ _ hquote
      (fun _ _ _ _ _ h _ ↦ hbackslash h) (fun _ _ h _ ↦ hbackslash h),
      if_neg (not_or.mpr ⟨hbackslash, Nat.not_lt.mpr hge⟩)]

theorem tokensInString?_quotedChars (codePoints : List Nat) (cs rest : List Char) :
    tokensInString? codePoints (cs.flatMap JsonValue.quotedChar ++ rest)
      = tokensInString? (codePoints ++ cs.map Char.toNat) rest := by
  induction cs generalizing codePoints with
  | nil => rw [List.flatMap_nil, List.nil_append, List.map_nil, List.append_nil]
  | cons c cs ih =>
    rw [List.flatMap_cons, List.append_assoc, tokensInString?_quotedChar, ih, List.append_assoc,
      List.singleton_append, List.map_cons]

/-! ## Tokens -/

section

variable {c : Char} (rest : List Char)

theorem tokens?_space (h : isSpace c = true) : tokens? [] (c :: rest) = tokens? [] rest := by
  have hword : isWordChar c = false := by
    simp only [isSpace, Bool.or_eq_true, beq_iff_eq] at h
    rcases h with ((rfl | rfl) | rfl) | rfl <;> rfl
  simp [tokens?, hword, h, ended?]

theorem tokens?_spaces {cs : List Char} (h : ∀ c ∈ cs, isSpace c = true) :
    tokens? [] (cs ++ rest) = tokens? [] rest := by
  induction cs with
  | nil => rfl
  | cons c cs ih =>
    rw [List.forall_mem_cons] at h
    rw [List.cons_append, tokens?_space _ h.1, ih h.2]

theorem tokens?_quote : tokens? [] ('\x22' :: rest) = tokensInString? [] rest := by
  have hword : isWordChar '\x22' = false := rfl
  have hspace : isSpace '\x22' = false := rfl
  simp [tokens?, hword, hspace, ended?]

theorem tokens?_mark {token : Token} (h : mark? c = some token) :
    tokens? [] (c :: rest) = (tokens? [] rest).map (token :: ·) := by
  have hclass : isWordChar c = false ∧ isSpace c = false ∧ c ≠ '\x22' := by
    rw [mark?.eq_def] at h
    split at h
    case h_7 => cases h
    all_goals exact ⟨rfl, rfl, by decide⟩
  rw [tokens?, hclass.1, hclass.2.1, if_neg Bool.false_ne_true, h]
  simp only [Bool.false_eq_true, if_false, if_neg hclass.2.2]
  cases tokens? [] rest <;> rfl

end

/-- The text is cut into the tokens, whatever comes next. -/
def CutsInto (text : String) (tokens : List Token) : Prop :=
  ∀ rest, tokens? [] (text.toList ++ rest) = (tokens? [] rest).map (tokens ++ ·)

namespace CutsInto

variable {s s' : String} {tokens tokens' : List Token}

theorem append (h : CutsInto s tokens) (h' : CutsInto s' tokens') :
    CutsInto (s ++ s') (tokens ++ tokens') := by
  intro rest
  rw [String.toList_append, List.append_assoc, h, h', Option.map_map]
  exact congrArg (Option.map · _) (funext fun more ↦ (List.append_assoc ..).symm)

theorem blank (h : ∀ c ∈ s.toList, isSpace c = true) : CutsInto s [] := by
  intro rest
  rw [tokens?_spaces rest h]
  exact Option.map_id'.symm

/-- White space between two texts leaves no trace. -/
theorem apart {b : String} (h : CutsInto s tokens) (hb : CutsInto b []) (h' : CutsInto s' tokens') :
    CutsInto (s ++ b ++ s') (tokens ++ tokens') := by
  have hall := (h.append hb).append h'
  rwa [List.append_nil] at hall

/-- A mark with white space behind it. -/
theorem mark {c : Char} {more : List Char} {token : Token} (hs : s.toList = c :: more)
    (hc : mark? c = some token) (hmore : ∀ d ∈ more, isSpace d = true) : CutsInto s [token] := by
  intro rest
  rw [hs, List.cons_append, tokens?_mark _ hc, tokens?_spaces rest hmore]
  rfl

/-- Two marks without anything in between. -/
theorem pair {c d : Char} {token token' : Token} (hs : s.toList = [c, d])
    (hc : mark? c = some token) (hd : mark? d = some token') : CutsInto s [token, token'] := by
  intro rest
  rw [hs, List.cons_append, tokens?_mark _ hc, List.singleton_append, tokens?_mark _ hd,
    Option.map_map]
  rfl

theorem quoted (text : String) : CutsInto (JsonValue.quoted text) [.string text] := by
  intro rest
  rw [JsonValue.quoted, String.toList_ofList, List.append_assoc, List.cons_append, tokens?_quote,
    tokensInString?_quotedChars, List.nil_append, List.singleton_append, tokensInString?.eq_2,
    characters?_toNat, Option.bind_eq_bind, Option.bind_some, String.ofList_toList]
  cases tokens? [] rest <;> rfl

end CutsInto

end Json

/-! ## Layouts -/

/-- The layout adds the colons and otherwise only white space. -/
structure JsonValue.Layout.IsPlain (layout : JsonValue.Layout) : Prop where
  afterKey : Json.CutsInto layout.afterKey [.colon]
  beforeElement (depth : Nat) : Json.CutsInto (layout.beforeElement depth) []
  beforeClose (depth : Nat) : Json.CutsInto (layout.beforeClose depth) []

namespace JsonValue

theorem cutsInto_newline (depth : Nat) : Json.CutsInto (newline depth) [] := by
  refine .blank fun c hc ↦ ?_
  rw [newline, String.toList_ofList, List.mem_cons] at hc
  rcases hc with rfl | hc
  · rfl
  · rw [List.eq_of_mem_replicate hc]
    rfl

theorem compact_isPlain : Layout.compact.IsPlain where
  afterKey := .mark (c := ':') rfl rfl nofun
  beforeElement _ := .blank nofun
  beforeClose _ := .blank nofun

theorem indented_isPlain : Layout.indented.IsPlain where
  afterKey := by
    have hkey : Layout.indented.afterKey.toList = [':', ' '] := rfl
    exact .mark hkey rfl (List.forall_mem_singleton.mpr rfl)
  beforeElement depth := cutsInto_newline (depth + 1)
  beforeClose depth := cutsInto_newline depth

/-! ## Documents as values -/

mutual

/-- The value that a document is written for. -/
def toJson : JsonValue → Json
  | .string text => .string text
  | .array elements => .array (elementsToJson elements)
  | .object entries => .object (entriesToJson entries)

def elementsToJson : List JsonValue → List Json
  | [] => []
  | element :: more => toJson element :: elementsToJson more

def entriesToJson : List (String × JsonValue) → List (String × Json)
  | [] => []
  | (key, value) :: more => (key, toJson value) :: entriesToJson more

end

theorem toJson_array (elements : List JsonValue) :
    toJson (.array elements) = .array (elements.map toJson) := by
  have hmap (elements : List JsonValue) : elementsToJson elements = elements.map toJson := by
    induction elements with
    | nil => rfl
    | cons element more ih => rw [elementsToJson, ih, List.map_cons]
  rw [toJson, hmap]

mutual

/-- The tokens of a document. -/
def tokens : JsonValue → List Json.Token
  | .string text => [.string text]
  | .array [] => [.openBracket, .closeBracket]
  | .array (element :: more) =>
    [.openBracket] ++ tokens element ++ elementTokens more ++ [.closeBracket]
  | .object [] => [.openBrace, .closeBrace]
  | .object ((key, value) :: more) =>
    [.openBrace] ++ [.string key] ++ [.colon] ++ tokens value ++ entryTokens more ++ [.closeBrace]

/-- The tokens of the elements after the first. -/
def elementTokens : List JsonValue → List Json.Token
  | [] => []
  | element :: more => [.comma] ++ tokens element ++ elementTokens more

/-- The tokens of the entries after the first. -/
def entryTokens : List (String × JsonValue) → List Json.Token
  | [] => []
  | (key, value) :: more =>
    [.comma] ++ [.string key] ++ [.colon] ++ tokens value ++ entryTokens more

end

section Layout

variable {layout : Layout} (hlayout : layout.IsPlain)

include hlayout

/-- An entry behind what separates it from what stands before. -/
theorem cutsInto_entry {s v : String} {before ofValue : List Json.Token}
    (h : Json.CutsInto s before) (depth : Nat) (key : String) (hv : Json.CutsInto v ofValue) :
    Json.CutsInto (s ++ layout.beforeElement depth ++ quoted key ++ layout.afterKey ++ v)
      (before ++ [.string key] ++ [.colon] ++ ofValue) :=
  ((h.apart (hlayout.beforeElement depth) (.quoted key)).append hlayout.afterKey).append hv

mutual

/-- Whatever the layout, a document is cut into its tokens. -/
theorem cutsInto_write (depth : Nat) (value : JsonValue) :
    Json.CutsInto (write layout depth value) (tokens value) := by
  cases value with
  | string text => exact .quoted text
  | array elements =>
    cases elements with
    | nil =>
      rw [write, tokens]
      exact .pair (c := '[') (d := ']') rfl rfl rfl
    | cons element more =>
      rw [write, tokens]
      have hopen : Json.CutsInto "[" [.openBracket] := .mark rfl rfl nofun
      have hclose : Json.CutsInto "]" [.closeBracket] := .mark rfl rfl nofun
      have helement :=
        hopen.apart (hlayout.beforeElement depth) (cutsInto_write (depth + 1) element)
      have hall := helement.append (cutsInto_elements depth more)
      exact hall.apart (hlayout.beforeClose depth) hclose
  | object entries =>
    cases entries with
    | nil =>
      rw [write, tokens]
      exact .pair (c := '\x7b') (d := '\x7d') rfl rfl rfl
    | cons entry more =>
      obtain ⟨key, value⟩ := entry
      rw [write, tokens]
      have hopen : Json.CutsInto "\x7b" [.openBrace] := .mark rfl rfl nofun
      have hclose : Json.CutsInto "\x7d" [.closeBrace] := .mark rfl rfl nofun
      have hentry := cutsInto_entry hlayout hopen depth key (cutsInto_write (depth + 1) value)
      have hall := hentry.append (cutsInto_entries depth more)
      exact hall.apart (hlayout.beforeClose depth) hclose

theorem cutsInto_elements (depth : Nat) (elements : List JsonValue) :
    Json.CutsInto (writeElements layout depth elements) (elementTokens elements) := by
  cases elements with
  | nil => exact .blank nofun
  | cons element more =>
    rw [writeElements, elementTokens]
    have hcomma : Json.CutsInto "," [.comma] := .mark rfl rfl nofun
    have helement := hcomma.apart (hlayout.beforeElement depth) (cutsInto_write (depth + 1) element)
    exact helement.append (cutsInto_elements depth more)

theorem cutsInto_entries (depth : Nat) (entries : List (String × JsonValue)) :
    Json.CutsInto (writeEntries layout depth entries) (entryTokens entries) := by
  cases entries with
  | nil => exact .blank nofun
  | cons entry more =>
    obtain ⟨key, value⟩ := entry
    rw [writeEntries, entryTokens]
    have hcomma : Json.CutsInto "," [.comma] := .mark rfl rfl nofun
    have hentry := cutsInto_entry hlayout hcomma depth key (cutsInto_write (depth + 1) value)
    exact hentry.append (cutsInto_entries depth more)

end

end Layout

/-! ## Documents from their tokens -/

/-- No document starts with a closing bracket. -/
theorem tokens_append_ne (value : JsonValue) (rest left : List Json.Token) :
    value.tokens ++ rest ≠ .closeBracket :: left := by
  cases value with
  | string text => exact nofun
  | array elements => cases elements <;> simp [tokens]
  | object entries => cases entries <;> simp [tokens]

open Json (value? valueAfter?)

mutual

/-- Where a document starts, its tokens are read as its value. -/
theorem value?_tokens (stack : List Json.Open) (value : JsonValue) (rest : List Json.Token) :
    value? stack (value.tokens ++ rest) = valueAfter? stack value.toJson rest := by
  cases value with
  | string text => rw [tokens, toJson, List.singleton_append, value?]
  | array elements =>
    cases elements with
    | nil =>
      rw [tokens, toJson, elementsToJson]
      rfl
    | cons element more =>
      rw [tokens, toJson, elementsToJson]
      simp only [List.append_assoc, List.cons_append, List.nil_append]
      rw [value?.eq_4 _ _ fun left h ↦ element.tokens_append_ne _ left h, value?_tokens,
        valueAfter?_elements]
      rfl
  | object entries =>
    cases entries with
    | nil =>
      rw [tokens, toJson, entriesToJson]
      rfl
    | cons entry more =>
      obtain ⟨key, value⟩ := entry
      rw [tokens, toJson, entriesToJson]
      simp only [List.append_assoc, List.cons_append, List.nil_append]
      rw [value?, value?_tokens, valueAfter?_entries]
      rfl

/-- After an element, the elements that follow are read as theirs. -/
theorem valueAfter?_elements (stack : List Json.Open) (before : List Json) (value : Json)
    (elements : List JsonValue) (rest : List Json.Token) :
    valueAfter? (.array before :: stack) value (elementTokens elements ++ .closeBracket :: rest)
      = valueAfter? stack (.array (before.reverse ++ value :: elementsToJson elements)) rest := by
  cases elements with
  | nil => rw [elementTokens, elementsToJson, List.nil_append, valueAfter?, List.reverse_cons]
  | cons element more =>
    rw [elementTokens, elementsToJson]
    simp only [List.append_assoc, List.cons_append, List.nil_append]
    rw [valueAfter?, value?_tokens, valueAfter?_elements, List.reverse_cons, List.append_assoc,
      List.singleton_append]

/-- After an entry, the entries that follow are read as theirs. -/
theorem valueAfter?_entries (stack : List Json.Open) (before : List (String × Json)) (key : String)
    (value : Json) (entries : List (String × JsonValue)) (rest : List Json.Token) :
    valueAfter? (.object before key :: stack) value (entryTokens entries ++ .closeBrace :: rest)
      = valueAfter? stack (.object (before.reverse ++ (key, value) :: entriesToJson entries))
          rest := by
  cases entries with
  | nil => rw [entryTokens, entriesToJson, List.nil_append, valueAfter?, List.reverse_cons]
  | cons entry more =>
    obtain ⟨next, following⟩ := entry
    rw [entryTokens, entriesToJson]
    simp only [List.append_assoc, List.cons_append, List.nil_append]
    rw [valueAfter?, value?_tokens, valueAfter?_entries, List.reverse_cons, List.append_assoc,
      List.singleton_append]

end

/-- **Documents are read back.** -/
theorem read?_write {layout : Layout} (hlayout : layout.IsPlain) (depth : Nat) (value : JsonValue) :
    Json.read? (write layout depth value) = some value.toJson := by
  have htokens := cutsInto_write hlayout depth value []
  rw [List.append_nil] at htokens
  have hvalue := value?_tokens [] value []
  rw [Json.read?, htokens]
  exact hvalue

end JsonValue

/-! ## Generated data -/

namespace TypeSchema

/-- The record that a type is listed as. -/
def record (type : TypeSchema) : Json :=
  .object [
    ("name", .string type.name),
    ("constants", .array (type.descriptors.map fun descriptor ↦ .object [
      ("name", .string descriptor.constant.name),
      ("value", .string descriptor.constant.value)])),
    ("functions", .array ((type.descriptors.filterMap (·.builder)).map fun builder ↦ .object [
      ("name", .string builder.name),
      ("param", .string builder.param),
      ("prefix", .string builder.lead)]))]

theorem toJson_json (type : TypeSchema) : type.json.toJson = type.record := by
  rw [json, record, JsonValue.toJson, JsonValue.entriesToJson, JsonValue.entriesToJson,
    JsonValue.entriesToJson, JsonValue.entriesToJson, JsonValue.toJson_array,
    JsonValue.toJson_array, List.map_map, List.map_map, constants, constantsOf, List.map_map]
  rfl

/-- **Generated data is read back.** Indented or not, what is written of some types is read as the
record that lists every type in its place, with its constants and with its builders as functions. -/
theorem read?_jsonText (types : List TypeSchema) :
    let document := Json.object [("types", .array (types.map record))]
    Json.read? (jsonText true types) = some document ∧
      Json.read? (jsonText false types) = some document := by
  have hdocument : (document types).toJson = .object [("types", .array (types.map record))] := by
    rw [document, JsonValue.toJson, JsonValue.entriesToJson, JsonValue.entriesToJson,
      JsonValue.toJson_array, List.map_map]
    exact congrArg (fun elements ↦ Json.object [("types", .array elements)])
      (List.map_congr_left fun type _ ↦ type.toJson_json)
  refine ⟨?_, ?_⟩
  · rw [← hdocument]
    exact JsonValue.read?_write JsonValue.indented_isPlain 0 _
  · rw [← hdocument]
    exact JsonValue.read?_write JsonValue.compact_isPlain 0 _

end TypeSchema

end FieldPaths
