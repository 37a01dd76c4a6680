import FieldPaths.Proofs.SchemaFile.WellFormed
import FieldPaths.Proofs.Sources

/-!
# The text of a type

A type is written with the separators that the grammar asks for, and with nothing else that a token
is made of. So the tokens of its text can be told from the type (`TypeRef.tokens`), and between
them and the type there are two ways that have nothing to do with each other.

The scan goes from the text to the tokens, whatever the depths are. It asks that the names are
names, and that no name runs into the next piece: each is followed by a mark or by the end
(`Token.Spells`).

The grammar goes from the tokens to the type and back. A type derives from its tokens when no depth
is over the one that is counted, because then the brackets that are written are those that are
meant. And tokens that a type derives from are the tokens of that type, as long as none of the
brackets among them is lost in the count.
-/

namespace FieldPaths

/-! ## The tokens of a type -/

namespace TypeRef

/-- The tokens of a path. -/
def pathTokens : List String → String → List Token
  | [], name => [⟨.ident, 0, name⟩]
  | segment :: more, name => ⟨.ident, 0, segment⟩ :: ⟨.dot, 0, "."⟩ :: pathTokens more name

/-- The tokens of the brackets of `depth` dimensions. -/
def bracketTokens : Nat → List Token
  | 0 => []
  | depth + 1 => ⟨.lBracket, 0, "["⟩ :: ⟨.rBracket, 0, "]"⟩ :: bracketTokens depth

mutual

/-- The tokens that the type is written with, without places. -/
def tokens : TypeRef → List Token
  | ⟨qualifier, name, args, arrayDepth⟩ =>
    pathTokens qualifier name ++ (argsTokens args ++ bracketTokens arrayDepth)

/-- The tokens of the arguments with their angle brackets. -/
def argsTokens : List TypeRef → List Token
  | [] => []
  | arg :: more => ⟨.lAngle, 0, "<"⟩ :: (tokens arg ++ (moreArgsTokens more ++ [⟨.rAngle, 0, ">"⟩]))

/-- The tokens of the arguments after the first, each led by a comma. -/
def moreArgsTokens : List TypeRef → List Token
  | [] => []
  | arg :: more => ⟨.comma, 0, ","⟩ :: (tokens arg ++ moreArgsTokens more)

end

end TypeRef

/-! ## From the text to the tokens -/

theorem TokenKind.ofName_eq_ident {name : String} (h : name ∉ keywords) :
    ofName name.toList = ident := by
  have hne : ∀ word ∈ keywords, name.toList ≠ word.toList :=
    fun word hword heq ↦ h (String.toList_inj.mp heq ▸ hword)
  simp only [keywords, List.forall_mem_cons] at hne
  obtain ⟨hclass, hinterface, hfn, hfinal, hstatic, -⟩ := hne
  rw [ofName, if_neg hclass, if_neg hinterface, if_neg hfn, if_neg hfinal, if_neg hstatic]

namespace Token

variable {cs ds : List Char} {ts us : List Token}

/-- No name goes on into these characters. -/
def EndsName (rest : List Char) : Prop := ∀ c ∈ rest.head?, isNameContinue c = false

theorem endsName_nil : EndsName [] := nofun

theorem endsName_cons {c : Char} (hc : isNameContinue c = false) (cs : List Char) :
    EndsName (c :: cs) := by
  intro d hd
  rwa [← Option.some.inj hd]

theorem EndsName.append (h : EndsName cs) (h' : EndsName ds) : EndsName (cs ++ ds) := by
  cases cs with
  | nil => exact h'
  | cons c cs => exact h

/-- The characters are cut into the tokens, unless a name goes on behind them. -/
def Spells (cs : List Char) (ts : List Token) : Prop := ∀ offset rest, EndsName rest →
  (scanFrom offset (cs ++ rest)).map unplaced = ts ++ (scanFrom 0 rest).map unplaced

namespace Spells

theorem nil : Spells [] [] := fun offset rest _ ↦ scanFrom_unplaced offset 0 rest

theorem append (h : Spells cs ts) (hds : EndsName ds) (h' : Spells ds us) :
    Spells (cs ++ ds) (ts ++ us) := by
  intro offset rest hrest
  rw [List.append_assoc, h offset _ (hds.append hrest), h' 0 rest hrest, List.append_assoc]

theorem mark {c : Char} {kind : TokenKind} (hc : TokenKind.ofPunctuation? c = some kind)
    (h : Spells cs ts) : Spells (c :: cs) (⟨kind, 0, String.singleton c⟩ :: ts) := by
  intro offset rest hrest
  have hlexeme : IsLexeme kind [c] (cs ++ rest) := .punctuation hc
  rw [List.cons_append, ← List.singleton_append, scanFrom_lexeme hlexeme, List.map_cons,
    h _ rest hrest]
  rfl

theorem space {c : Char} (hc : isSpace c = true) (h : Spells cs ts) : Spells (c :: cs) ts := by
  intro offset rest hrest
  rw [List.cons_append, scanFrom_space hc, h _ rest hrest]

theorem name {s : String} (hs : IsSchemaName s) : Spells s.toList [⟨.ident, 0, s⟩] := by
  intro offset rest hrest
  obtain ⟨⟨c, more, hchars, hc, hmore⟩, hkeyword⟩ := hs
  have hlexeme : IsLexeme (.ofName (c :: more)) (c :: more) rest :=
    .name (isNameStart_iff.mpr hc) (fun d hd ↦ isNameContinue_iff.mpr (hmore d hd)) hrest
  have hname : String.ofList (c :: more) = s := by rw [← hchars, String.ofList_toList]
  have hkind : TokenKind.ofName (c :: more) = .ident := by
    rw [← hchars]
    exact TokenKind.ofName_eq_ident hkeyword
  rw [hchars, scanFrom_lexeme hlexeme, hname, hkind, List.map_cons, scanFrom_unplaced _ 0]
  rfl

end Spells

end Token

namespace TypeRef

open Token (Spells EndsName endsName_nil endsName_cons)

theorem spells_path {qualifier : List String} {name : String}
    (h : ∀ segment ∈ qualifier ++ [name], IsSchemaName segment) :
    Spells (".".intercalate (qualifier ++ [name])).toList (pathTokens qualifier name) := by
  induction qualifier with
  | nil =>
    rw [List.nil_append, String.intercalate_singleton]
    exact .name (List.forall_mem_singleton.mp h)
  | cons segment more ih =>
    obtain ⟨hsegment, hmore⟩ := List.forall_mem_cons.mp h
    obtain ⟨next, rest, hnext⟩ := List.exists_cons_of_ne_nil (List.concat_ne_nil name more)
    rw [List.cons_append, hnext, String.intercalate_cons_cons, ← hnext, String.toList_append,
      String.toList_append, List.append_assoc]
    exact (Spells.name hsegment).append (endsName_cons rfl _) (.mark rfl (ih hmore))

theorem spells_brackets (depth : Nat) : Spells (brackets depth).toList (bracketTokens depth) := by
  induction depth with
  | zero => exact .nil
  | succ depth ih =>
    rw [brackets, String.toList_append]
    exact .mark rfl (.mark rfl ih)

theorem endsName_brackets (depth : Nat) : EndsName (brackets depth).toList := by
  cases depth with
  | zero => exact endsName_nil
  | succ depth =>
    rw [brackets, String.toList_append]
    exact endsName_cons rfl _

theorem endsName_moreArgsText (args : List TypeRef) : EndsName (moreArgsText args).toList := by
  cases args with
  | nil => exact endsName_nil
  | cons arg more =>
    rw [moreArgsText, String.toList_append, String.toList_append]
    exact endsName_cons rfl _

theorem endsName_argsText (args : List TypeRef) : EndsName (argsText args).toList := by
  cases args with
  | nil => exact endsName_nil
  | cons arg more =>
    rw [argsText, String.toList_append, String.toList_append, String.toList_append]
    exact endsName_cons rfl _

theorem spells_moreArgsText {args : List TypeRef}
    (h : ∀ arg ∈ args, Spells arg.text.toList arg.tokens) :
    Spells (moreArgsText args).toList (moreArgsTokens args) := by
  induction args with
  | nil => exact .nil
  | cons arg more ih =>
    obtain ⟨harg, hmore⟩ := List.forall_mem_cons.mp h
    rw [moreArgsText, String.toList_append, String.toList_append, List.append_assoc]
    exact .mark rfl (.space rfl (harg.append (endsName_moreArgsText more) (ih hmore)))

theorem spells_argsText {args : List TypeRef}
    (h : ∀ arg ∈ args, Spells arg.text.toList arg.tokens) :
    Spells (argsText args).toList (argsTokens args) := by
  cases args with
  | nil => exact .nil
  | cons arg more =>
    obtain ⟨harg, hmore⟩ := List.forall_mem_cons.mp h
    have hclose : EndsName ">".toList := endsName_cons rfl []
    rw [argsText, String.toList_append, String.toList_append, String.toList_append,
      List.append_assoc, List.append_assoc]
    refine .mark rfl (harg.append ((endsName_moreArgsText more).append hclose) ?_)
    exact (spells_moreArgsText hmore).append hclose (.mark rfl .nil)

/-- The text of a type is cut into the tokens of the type. -/
theorem spells_text {ty : TypeRef} (h : ty.NamesAre IsSchemaName) :
    Spells ty.text.toList ty.tokens := by
  induction ty using inductionOnArgs with
  | step ty ih =>
    obtain ⟨hpath, hargs⟩ := throughout_iff.mp h
    obtain ⟨qualifier, name, args, depth⟩ := ty
    -- behind the path and behind each argument stands a mark or nothing, so no name goes on there
    have hargsText := spells_argsText fun arg harg ↦ ih arg harg (hargs arg harg)
    rw [text, tokens, String.toList_append, String.toList_append, List.append_assoc]
    refine (spells_path hpath).append ?_ (hargsText.append (endsName_brackets depth)
      (spells_brackets depth))
    exact (endsName_argsText args).append (endsName_brackets depth)

theorem words_text {ty : TypeRef} (h : ty.NamesAre IsSchemaName) :
    Token.words ty.text = ty.tokens := by
  have hspells := spells_text h 0 [] endsName_nil
  rw [Token.words, Token.scan_eq_scanFrom]
  rwa [List.append_nil, Token.scanFrom, List.map_nil, List.append_nil] at hspells

end TypeRef

/-! ## From the type to the tokens and back -/

namespace Token

/-- A mark or a keyword is written as its kind says. -/
def IsSpelled (t : Token) : Prop := ∀ s, t.kind.spelling? = some s → t.text = s

theorem IsSpelled.unplaced_eq {t : Token} (h : t.IsSpelled) {kind : TokenKind}
    (hkind : t.kind = kind) {s : String} (hs : kind.spelling? = some s) :
    t.unplaced = ⟨kind, 0, s⟩ := by
  subst hkind
  rw [unplaced, h s hs]

end Token

namespace Grammar

open TypeRef (pathTokens bracketTokens argsTokens moreArgsTokens)

theorem isPath_pathTokens (qualifier : List String) (name : String) :
    IsPath (pathTokens qualifier name) (qualifier, name) := by
  induction qualifier with
  | nil => exact .name rfl
  | cons segment more ih => exact .qualified rfl rfl ih

theorem isDimensions_bracketTokens (depth : Nat) : IsDimensions (bracketTokens depth) depth := by
  induction depth with
  | zero => exact .nil
  | succ depth ih => exact .cons rfl rfl ih

theorem isTypeArgs_tokens {first : TypeRef} {more : List TypeRef}
    (hfirst : IsType first.tokens first) (hmore : ∀ arg ∈ more, IsType arg.tokens arg) :
    IsTypeArgs (first.tokens ++ moreArgsTokens more) (first :: more) := by
  induction more generalizing first with
  | nil =>
    rw [moreArgsTokens, List.append_nil]
    exact .one hfirst
  | cons next more ih =>
    obtain ⟨hnext, hmore⟩ := List.forall_mem_cons.mp hmore
    rw [moreArgsTokens]
    exact .cons hfirst rfl (ih hnext hmore)

/-- A type derives from its tokens if its dimensions are all counted. -/
theorem isType_tokens {ty : TypeRef}
    (h : ty.Throughout fun part ↦ part.arrayDepth ≤ TypeRef.maxArrayDepth) :
    IsType ty.tokens ty := by
  induction ty using TypeRef.inductionOnArgs with
  | step ty ih =>
    obtain ⟨hdepth, hargs⟩ := TypeRef.throughout_iff.mp h
    obtain ⟨qualifier, name, args, depth⟩ := ty
    have hpath := isPath_pathTokens qualifier name
    have hdims := isDimensions_bracketTokens depth
    have hcounted : min depth TypeRef.maxArrayDepth = depth := Nat.min_eq_left hdepth
    cases args with
    | nil =>
      have hty := IsType.plain hpath hdims
      rwa [hcounted] at hty
    | cons arg more =>
      have hmore := List.forall_mem_cons.mp fun arg harg ↦ ih arg harg (hargs arg harg)
      have hargTokens := isTypeArgs_tokens hmore.1 hmore.2
      have hlangle : (⟨.lAngle, 0, "<"⟩ : Token).kind = .lAngle := rfl
      have hrangle : (⟨.rAngle, 0, ">"⟩ : Token).kind = .rAngle := rfl
      have hty := IsType.generic hpath hlangle hargTokens hrangle hdims
      rw [hcounted] at hty
      simpa only [TypeRef.tokens, argsTokens, List.cons_append, List.append_assoc,
        List.nil_append] using hty

/-- No run of brackets among the tokens is too long to be counted. The brackets of one run belong to
one type, because the next type starts with a name. -/
def AreCounted (ts : List Token) : Prop :=
  ∀ ds depth, ds <:+: ts → IsDimensions ds depth → depth ≤ TypeRef.maxArrayDepth

theorem IsDimensions.length_eq {ds : List Token} {depth : Nat} (h : IsDimensions ds depth) :
    ds.length = 2 * depth := by
  induction h with
  | nil => rfl
  | cons hleft hright hmore ih =>
    rw [List.length_cons, List.length_cons, ih]
    omega

/-- Among few tokens all brackets are counted. -/
theorem areCounted_of_length_le {ts : List Token}
    (h : ts.length ≤ 2 * TypeRef.maxArrayDepth) : AreCounted ts := by
  intro ds depth hds hdims
  have hle := hds.length_le
  rw [hdims.length_eq] at hle
  omega

/-- The tokens are spelled as their kinds are, and all brackets among them are counted. -/
structure AreFaithful (ts : List Token) : Prop where
  spelled : ∀ t ∈ ts, t.IsSpelled
  counted : AreCounted ts

variable {ts us : List Token}

theorem AreFaithful.mono (h : AreFaithful us) (hsub : ts <:+: us) : AreFaithful ts where
  spelled t ht := h.spelled t (hsub.subset ht)
  counted ds depth hds := h.counted ds depth (hds.trans hsub)

theorem AreFaithful.left (h : AreFaithful (ts ++ us)) : AreFaithful ts :=
  h.mono (List.prefix_append ts us).isInfix

theorem AreFaithful.right (h : AreFaithful (ts ++ us)) : AreFaithful us :=
  h.mono (List.suffix_append ts us).isInfix

theorem AreFaithful.tail {t : Token} (h : AreFaithful (t :: ts)) : AreFaithful ts :=
  h.mono (List.suffix_cons t ts).isInfix

theorem AreFaithful.head {t : Token} (h : AreFaithful (t :: ts)) {kind : TokenKind}
    (hkind : t.kind = kind) {s : String} (hs : kind.spelling? = some s) :
    t.unplaced = ⟨kind, 0, s⟩ := (h.spelled t List.mem_cons_self).unplaced_eq hkind hs

theorem IsPath.unplaced_eq {path : List String × String} (h : IsPath ts path)
    (hts : AreFaithful ts) : ts.map Token.unplaced = pathTokens path.1 path.2 := by
  induction h with
  | name hname => rw [List.map_singleton, Token.unplaced, hname, pathTokens]
  | qualified hname hdot hmore ih =>
    rw [List.map_cons, List.map_cons, ih hts.tail.tail, hts.tail.head hdot rfl, Token.unplaced,
      hname, pathTokens]

theorem IsDimensions.unplaced_eq {depth : Nat} (h : IsDimensions ts depth) (hts : AreFaithful ts) :
    ts.map Token.unplaced = bracketTokens depth := by
  induction h with
  | nil => rfl
  | cons hleft hright hmore ih =>
    rw [List.map_cons, List.map_cons, ih hts.tail.tail, hts.head hleft rfl,
      hts.tail.head hright rfl, bracketTokens]

/-- The first argument needs no comma, but in `moreArgsTokens` all of them have one. -/
theorem argsTokens_eq {args : List TypeRef}
    (h : ⟨.comma, 0, ","⟩ :: ts = moreArgsTokens args) :
    argsTokens args = ⟨.lAngle, 0, "<"⟩ :: (ts ++ [⟨.rAngle, 0, ">"⟩]) := by
  cases args with
  | nil => cases h
  | cons arg more =>
    obtain ⟨-, rfl⟩ := List.cons.inj h
    rw [argsTokens, List.append_assoc]

mutual

theorem IsType.unplaced_eq {ts : List Token} {ty : TypeRef} :
    IsType ts ty → AreFaithful ts → ts.map Token.unplaced = ty.tokens
  | .plain hpath hdims, hts => by
    have hdepth := hts.counted _ _ (List.suffix_append ..).isInfix hdims
    rw [List.map_append, hpath.unplaced_eq hts.left, hdims.unplaced_eq hts.right,
      Nat.min_eq_left hdepth, TypeRef.tokens, argsTokens, List.nil_append]
  | .generic hpath hlangle hargs hrangle hdims, hts => by
    have hangle := hts.right
    have hclose := hangle.tail.right
    have hdepth := hclose.tail.counted _ _ List.infix_rfl hdims
    rw [List.map_append, List.map_cons, List.map_append, List.map_cons, hpath.unplaced_eq hts.left,
      hangle.head hlangle rfl, hclose.head hrangle rfl, hdims.unplaced_eq hclose.tail,
      Nat.min_eq_left hdepth, TypeRef.tokens, argsTokens_eq (hargs.unplaced_eq hangle.tail.left)]
    simp only [List.cons_append, List.append_assoc, List.nil_append]

theorem IsTypeArgs.unplaced_eq {ts : List Token} {tys : List TypeRef} :
    IsTypeArgs ts tys → AreFaithful ts →
      ⟨.comma, 0, ","⟩ :: ts.map Token.unplaced = moreArgsTokens tys
  | .one hty, hts => by
    rw [hty.unplaced_eq hts, moreArgsTokens, moreArgsTokens, List.append_nil]
  | .cons hty hcomma hmore, hts => by
    rw [List.map_append, List.map_cons, hty.unplaced_eq hts.left, hts.right.head hcomma rfl,
      hmore.unplaced_eq hts.right.tail, moreArgsTokens]

end

/-! ## Reading the text of a type -/

theorem rule_eq_ok_iff {α : Type} {bound : List Token → Nat}
    {f : (tokens : List Token) → Except Fault (Parsed α (bound tokens))} {tokens left : List Token}
    {v : α} : rule f tokens = .ok (v, left) ↔ ∃ h, f tokens = .ok ⟨v, left, h⟩ := by
  rw [rule_apply]
  constructor
  · intro hread
    cases hf : f tokens with
    | error φ =>
      rw [hf] at hread
      cases hread
    | ok parsed =>
      rw [hf] at hread
      obtain ⟨rfl, rfl⟩ := Prod.mk.inj (Except.ok.inj hread)
      exact ⟨parsed.lt_bound, rfl⟩
  · rintro ⟨h, hf⟩
    rw [hf]
    rfl

theorem rule_type_unplaced {tokens : List Token} {ty : TypeRef}
    (h : rule type (tokens.map Token.unplaced) = .ok (ty, [])) :
    rule type tokens = .ok (ty, []) := by
  rw [type_unplaces tokens] at h
  cases hread : rule type tokens with
  | error φ =>
    rw [hread] at h
    cases h
  | ok read =>
    rw [hread] at h
    obtain ⟨rfl, hleft⟩ := Prod.mk.inj (Except.ok.inj h)
    rw [List.map_eq_nil_iff] at hleft
    rw [id, ← hleft]

theorem rule_type_text {ty : TypeRef} (hnames : ty.NamesAre IsSchemaName)
    (hdepths : ty.Throughout fun part ↦ part.arrayDepth ≤ TypeRef.maxArrayDepth) :
    rule type (Token.scan ty.text) = .ok (ty, []) := by
  apply rule_type_unplaced
  rw [← Token.words, TypeRef.words_text hnames, ← List.append_nil ty.tokens]
  exact rule_type_append (isType_tokens hdepths) (stops_nil _)

/-- Tokens that are cut from a text are spelled as their kinds are. -/
theorem areFaithful_of_scan {used : List Token} (h : ∀ t ∈ used, ∃ text, t ∈ Token.scan text)
    (hcounted : AreCounted used) : AreFaithful used where
  spelled t ht := by
    obtain ⟨text, htext⟩ := h t ht
    exact (Token.scan_exact text).spelled t htext
  counted := hcounted

theorem namesAre_of_scan {used : List Token} (h : ∀ t ∈ used, ∃ text, t ∈ Token.scan text) :
    NamesAre IsSchemaName used := by
  intro t ht hkind
  obtain ⟨text, htext⟩ := h t ht
  exact isSchemaName_of_mem_scan htext hkind

theorem scan_text_of_type {used left : List Token} {ty : TypeRef}
    (hread : rule type (used ++ left) = .ok (ty, left))
    (hused : ∀ t ∈ used, ∃ text, t ∈ Token.scan text) (hcounted : AreCounted used) :
    (Token.scan ty.text).map (fun t ↦ (t.kind, t.text)) = used.map fun t ↦ (t.kind, t.text) := by
  obtain ⟨used', htokens, hty⟩ := (type_follows _).derives hread
  obtain rfl := List.append_cancel_right htokens
  -- the text and the tokens are compared by way of the tokens of the type
  have hwords := TypeRef.words_text (hty.namesAre (namesAre_of_scan hused))
  rw [← hty.unplaced_eq (areFaithful_of_scan hused hcounted), Token.words] at hwords
  have hcontents := congrArg (List.map fun t : Token ↦ (t.kind, t.text)) hwords
  rwa [List.map_map, List.map_map] at hcontents

/-- **Types and their texts.** The text of a type is read as that type, with nothing left, if the
names in it are names of a schema and its dimensions are counted. And a type that is read from
tokens of texts has a text with the same tokens, if all brackets among them were counted. -/
theorem type_text :
    (∀ ty : TypeRef, ty.NamesAre IsSchemaName →
      (ty.Throughout fun part ↦ part.arrayDepth ≤ TypeRef.maxArrayDepth) →
      ∃ h, type (Token.scan ty.text) = .ok ⟨ty, [], h⟩) ∧
    ∀ (used left : List Token) (ty : TypeRef) (h : left.length < (used ++ left).length),
      type (used ++ left) = .ok ⟨ty, left, h⟩ → (∀ t ∈ used, ∃ text, t ∈ Token.scan text) →
      AreCounted used →
      (Token.scan ty.text).map (fun t ↦ (t.kind, t.text)) = used.map fun t ↦ (t.kind, t.text) := by
  constructor
  · intro ty hnames hdepths
    exact rule_eq_ok_iff.mp (rule_type_text hnames hdepths)
  · intro used left ty h hread hused hcounted
    exact scan_text_of_type (rule_eq_ok_iff.mpr ⟨h, hread⟩) hused hcounted

theorem type_text_map :
    let ty : TypeRef := ⟨["java", "util"], "Map", [.named "String", (TypeRef.named "Line").arrayOf], 1⟩
    let used := Token.scan "java.util . Map<String,Line[]> [] // lines"
    let left := Token.scan "; next: Line"
    ty.text = "java.util.Map<String, Line[]>[]" ∧ ty.NamesAre IsSchemaName ∧
      (ty.Throughout fun part ↦ part.arrayDepth ≤ TypeRef.maxArrayDepth) ∧
      (∃ h, type (Token.scan ty.text) = .ok ⟨ty, [], h⟩) ∧
      (∃ h, type (used ++ left) = .ok ⟨ty, left, h⟩) ∧
      (∀ t ∈ used, ∃ text, t ∈ Token.scan text) ∧ AreCounted used ∧
      (Token.scan ty.text).map (fun t ↦ (t.kind, t.text)) = used.map fun t ↦ (t.kind, t.text) := by
  intro ty used left
  have hused : ∀ t ∈ used, ∃ text, t ∈ Token.scan text := fun t ht ↦ ⟨_, ht⟩
  have hcounted : AreCounted used := areCounted_of_length_le (by decide +kernel)
  have hread : rule type (used ++ left) = .ok (ty, left) := by decide +kernel
  have hnames : ty.NamesAre IsSchemaName := by
    obtain ⟨used', htokens, hty⟩ := (type_follows _).derives hread
    obtain rfl := List.append_cancel_right htokens
    exact hty.namesAre (namesAre_of_scan hused)
  have hdepths : ty.Throughout fun part ↦ part.arrayDepth ≤ TypeRef.maxArrayDepth := by
    refine TypeRef.throughout_iff.mpr ⟨by decide, List.forall_mem_cons.mpr ⟨?_, ?_⟩⟩
    · exact TypeRef.throughout_iff.mpr ⟨by decide, nofun⟩
    · exact List.forall_mem_singleton.mpr (TypeRef.throughout_iff.mpr ⟨by decide, nofun⟩)
  obtain ⟨h, htype⟩ := rule_eq_ok_iff.mp hread
  exact ⟨by decide +kernel, hnames, hdepths, type_text.1 ty hnames hdepths, ⟨h, htype⟩, hused,
    hcounted, type_text.2 used left ty h htype hused hcounted⟩

end Grammar

end FieldPaths
