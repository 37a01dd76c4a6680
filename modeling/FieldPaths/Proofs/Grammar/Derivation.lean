import FieldPaths.Grammar

/-!
# Derivations

The grammar of schema files as relations. Each relation says of a sequence of tokens that a symbol
of the grammar derives it, and what it denotes then. There is one constructor for each way in
which the symbol can be replaced, and no order of reading: nothing looks ahead, nothing prefers a
longer match, and nothing says where a derivation stops.

What a member must not do, to say a modifier twice, is no matter of the grammar. It stands beside
the derivation of the modifiers, as `IsModifiers.nodup`.

A place in the source belongs to what a declaration denotes, so the symbols from a field upwards
know the position of their source.
-/

namespace FieldPaths

namespace Grammar

/-! ## Paths and types -/

/-- `path = NAME ("." NAME)*`. A path denotes the segments that qualify, and the last. -/
inductive IsPath : List Token → List String × String → Prop
  | name {name : Token} (hname : name.kind = .ident) : IsPath [name] ([], name.text)
  | qualified {name dot : Token} {more : List Token} {path : List String × String}
      (hname : name.kind = .ident) (hdot : dot.kind = .dot) (hmore : IsPath more path) :
      IsPath (name :: dot :: more) (name.text :: path.1, path.2)

/-- `("[" "]")*`, denoting how many pairs there are. -/
inductive IsDimensions : List Token → Nat → Prop
  | nil : IsDimensions [] 0
  | cons {left right : Token} {more : List Token} {depth : Nat} (hleft : left.kind = .lBracket)
      (hright : right.kind = .rBracket) (hmore : IsDimensions more depth) :
      IsDimensions (left :: right :: more) (depth + 1)

mutual

/-- `type = path ("<" type ("," type)* ">")? ("[" "]")*`. Dimensions are counted up to
`TypeRef.maxArrayDepth`. -/
inductive IsType : List Token → TypeRef → Prop
  | plain {ts ds : List Token} {path : List String × String} {depth : Nat} (hpath : IsPath ts path)
      (hdims : IsDimensions ds depth) :
      IsType (ts ++ ds) ⟨path.1, path.2, [], min depth TypeRef.maxArrayDepth⟩
  | generic {ts as ds : List Token} {langle rangle : Token} {path : List String × String}
      {args : List TypeRef} {depth : Nat} (hpath : IsPath ts path) (hlangle : langle.kind = .lAngle)
      (hargs : IsTypeArgs as args) (hrangle : rangle.kind = .rAngle)
      (hdims : IsDimensions ds depth) :
      IsType (ts ++ langle :: (as ++ rangle :: ds))
        ⟨path.1, path.2, args, min depth TypeRef.maxArrayDepth⟩

/-- `type ("," type)*`. -/
inductive IsTypeArgs : List Token → List TypeRef → Prop
  | one {ts : List Token} {ty : TypeRef} (hty : IsType ts ty) : IsTypeArgs ts [ty]
  | cons {ts more : List Token} {comma : Token} {ty : TypeRef} {tys : List TypeRef}
      (hty : IsType ts ty) (hcomma : comma.kind = .comma) (hmore : IsTypeArgs more tys) :
      IsTypeArgs (ts ++ comma :: more) (ty :: tys)

end

/-! ## Members -/

/-- `annotation*` with `annotation = "@" path`. An annotation denotes its last path segment. -/
inductive IsAnnotations : List Token → List String → Prop
  | nil : IsAnnotations [] []
  | cons {mark : Token} {ts more : List Token} {path : List String × String} {names : List String}
      (hmark : mark.kind = .at) (hpath : IsPath ts path) (hmore : IsAnnotations more names) :
      IsAnnotations (mark :: (ts ++ more)) (path.2 :: names)

/-- `modifier*` with `modifier = "final" | "static"`, none of them twice. -/
structure IsModifiers (ts : List Token) (modifiers : Modifiers) : Prop where
  isModifier : ∀ t ∈ ts, t.kind.isModifier = true
  nodup : (ts.map Token.kind).Nodup
  isFinal_iff : modifiers.isFinal = true ↔ .kwFinal ∈ ts.map Token.kind
  isStatic_iff : modifiers.isStatic = true ↔ .kwStatic ∈ ts.map Token.kind

/-- `field = NAME ":" type`, denoting the token of the name and the type. -/
inductive IsField : List Token → Token × TypeRef → Prop
  | mk {name colon : Token} {ts : List Token} {ty : TypeRef} (hname : name.kind = .ident)
      (hcolon : colon.kind = .colon) (hty : IsType ts ty) :
      IsField (name :: colon :: ts) (name, ty)

/-- The field that a name and a type come to with these annotations and modifiers. -/
def asField (source : Nat) (names : List String) (modifiers : Modifiers) (field : Token × TypeRef) :
    Field Span where
  name := field.1.text
  type := field.2
  modifiers := modifiers
  attributes := names
  location := field.1.span source

/-- `param ("," param)*` with `param = NAME ":" type`. -/
inductive IsParameters : List Token → Prop
  | one {ts : List Token} {param : Token × TypeRef} (hparam : IsField ts param) : IsParameters ts
  | cons {ts more : List Token} {comma : Token} {param : Token × TypeRef}
      (hparam : IsField ts param) (hcomma : comma.kind = .comma) (hmore : IsParameters more) :
      IsParameters (ts ++ comma :: more)

/-- `(":" type)?`. -/
inductive IsReturnType : List Token → Prop
  | nil : IsReturnType []
  | mk {colon : Token} {ts : List Token} {ty : TypeRef} (hcolon : colon.kind = .colon)
      (hty : IsType ts ty) : IsReturnType (colon :: ts)

/-- `method = "fn" NAME "(" (param ("," param)*)? ")" (":" type)?`. Of a method nothing is kept
but its name. -/
inductive IsMethod : List Token → String → Prop
  | mk {word name lparen rparen : Token} {ps rs : List Token} (hword : word.kind = .kwFn)
      (hname : name.kind = .ident) (hlparen : lparen.kind = .lParen)
      (hparams : ps = [] ∨ IsParameters ps) (hrparen : rparen.kind = .rParen)
      (hreturn : IsReturnType rs) :
      IsMethod (word :: name :: lparen :: (ps ++ rparen :: rs)) name.text

/-- `";"?`. -/
inductive IsSemicolon : List Token → Prop
  | nil : IsSemicolon []
  | mk {semicolon : Token} (h : semicolon.kind = .semicolon) : IsSemicolon [semicolon]

/-- `field | method`, where the member has these annotations and modifiers. A method keeps neither
its annotations nor whether it is final. -/
inductive IsFieldOrMethod (source : Nat) (names : List String) (modifiers : Modifiers) :
    List Token → Member → Prop
  | field {ts : List Token} {field : Token × TypeRef} (hfield : IsField ts field) :
      IsFieldOrMethod source names modifiers ts (.field (asField source names modifiers field))
  | method {ts : List Token} {name : String} (hmethod : IsMethod ts name) :
      IsFieldOrMethod source names modifiers ts (.method ⟨name, modifiers.isStatic⟩)

/-- `member = annotation* modifier* (field | method) ";"?`. -/
inductive IsMember (source : Nat) : List Token → Member → Prop
  | mk {as ms ts ss : List Token} {names : List String} {modifiers : Modifiers} {member : Member}
      (hannots : IsAnnotations as names) (hmods : IsModifiers ms modifiers)
      (hcore : IsFieldOrMethod source names modifiers ts member) (hsemi : IsSemicolon ss) :
      IsMember source (as ++ (ms ++ (ts ++ ss))) member

/-- `member*`. -/
inductive IsMembers (source : Nat) : List Token → List Member → Prop
  | nil : IsMembers source [] []
  | cons {ts more : List Token} {member : Member} {members : List Member}
      (hmember : IsMember source ts member) (hmore : IsMembers source more members) :
      IsMembers source (ts ++ more) (member :: members)

/-! ## Declarations -/

/-- `"class" | "interface"`. -/
inductive IsDeclKind : Token → DeclKind → Prop
  | cls {word : Token} (h : word.kind = .kwClass) : IsDeclKind word .cls
  | interface {word : Token} (h : word.kind = .kwInterface) : IsDeclKind word .interface

/-- What a declaration comes to, given what its parts denote. The fields and the methods are told
apart, each in their order. -/
def declared (source : Nat) (kind : DeclKind) (name : Token) (names : List String)
    (members : List Member) : Declaration Span where
  name := name.text
  kind := kind
  attributes := names
  fields := members.filterMap fun
    | .field field => some field
    | .method _ => none
  methods := members.filterMap fun
    | .field _ => none
    | .method method => some method
  location := name.span source

/-- `annotation* ("class" | "interface") NAME "{"`, the part of a declaration before its members. -/
inductive IsHead : List Token → DeclKind → Token → Token → List String → Prop
  | mk {as : List Token} {names : List String} {word name brace : Token} {kind : DeclKind}
      (hannots : IsAnnotations as names) (hword : IsDeclKind word kind)
      (hname : name.kind = .ident) (hbrace : brace.kind = .lBrace) :
      IsHead (as ++ [word, name, brace]) kind name brace names

/-- `decl = annotation* ("class" | "interface") NAME "{" member* "}"`. -/
inductive IsDeclaration (source : Nat) : List Token → Declaration Span → Prop
  | mk {hs ms : List Token} {kind : DeclKind} {name brace close : Token} {names : List String}
      {members : List Member} (hhead : IsHead hs kind name brace names)
      (hmembers : IsMembers source ms members) (hclose : close.kind = .rBrace) :
      IsDeclaration source (hs ++ (ms ++ [close])) (declared source kind name names members)

/-- `file = decl*`. -/
inductive IsFile (source : Nat) : List Token → List (Declaration Span) → Prop
  | nil : IsFile source [] []
  | cons {ts more : List Token} {decl : Declaration Span} {decls : List (Declaration Span)}
      (hdecl : IsDeclaration source ts decl) (hmore : IsFile source more decls) :
      IsFile source (ts ++ more) (decl :: decls)

end Grammar

end FieldPaths
