import DocAtlas.Index.Basic
import DocAtlas.Json.Printer

/-!
Type expressions as token lists.

What is still to be written is kept on a list of frames: texts and links stand for themselves, and a
type, a signature or an object type is replaced by its parts when its turn comes. A type may so be
nested to any depth. References are looked up when their turn comes, so what cannot be resolved is
told in the order of the text.
-/

set_option autoImplicit false

namespace DocAtlas

/-! ## Frames -/

/-- Something that is still to be written. -/
inductive TypeFrame where
  | token (t : TypeToken)
  | type (t : TypeExpr)
  | signature (s : Signature)
  /-- An object type: its members, and its index signature. -/
  | object (members : List Declaration) (indexer : Option Signature)

namespace TypeFrame

/-- A frame that is nothing but text. -/
def text (s : String) : TypeFrame := .token (.text s)

/-- The size of what a frame still has to be replaced by. -/
noncomputable def weight : TypeFrame → Nat
  | .token _ => 0
  | .type t => sizeOf t
  | .signature s => sizeOf s
  | .object members indexer => sizeOf members + sizeOf indexer

/-- The size of what a list of frames still has to be replaced by. -/
noncomputable def totalWeight (frames : List TypeFrame) : Nat :=
  frames.foldr (fun f total => f.weight + total) 0

@[simp] theorem weight_text (s : String) : (text s).weight = 0 := rfl

@[simp] theorem weight_token (t : TypeToken) : (TypeFrame.token t).weight = 0 := rfl

@[simp] theorem weight_type (t : TypeExpr) : (TypeFrame.type t).weight = sizeOf t := rfl

@[simp] theorem weight_signature (s : Signature) : (TypeFrame.signature s).weight = sizeOf s := rfl

@[simp] theorem weight_object (members : List Declaration) (indexer : Option Signature) :
    (TypeFrame.object members indexer).weight = sizeOf members + sizeOf indexer := rfl

@[simp] theorem totalWeight_nil : totalWeight [] = 0 := rfl

@[simp] theorem totalWeight_cons (f : TypeFrame) (frames : List TypeFrame) :
    totalWeight (f :: frames) = f.weight + totalWeight frames := rfl

@[simp] theorem totalWeight_append (a b : List TypeFrame) :
    totalWeight (a ++ b) = totalWeight a + totalWeight b := by
  induction a with
  | nil => rw [List.nil_append, totalWeight_nil, Nat.zero_add]
  | cons f a ih => rw [List.cons_append, totalWeight_cons, totalWeight_cons, ih, Nat.add_assoc]

/-- Groups of frames with a text between them. -/
def separated (separator : String) : List (List TypeFrame) → List TypeFrame
  | [] => []
  | [group] => group
  | group :: rest => group ++ text separator :: separated separator rest

/-- The texts between groups weigh nothing. -/
theorem totalWeight_separated (separator : String) (groups : List (List TypeFrame)) :
    totalWeight (separated separator groups) = totalWeight groups.flatten := by
  induction groups with
  | nil => rfl
  | cons group rest ih =>
    cases rest with
    | nil => simp [separated]
    | cons next rest =>
      simp only [separated, totalWeight_append, totalWeight_cons, weight_text, Nat.zero_add, ih,
        List.flatten_cons]

/-- Types with a text between them. -/
def typesBetween (separator : String) (types : List TypeExpr) : List TypeFrame :=
  separated separator (types.map fun t => [.type t])

/-- Types in a row weigh less than the list of them. -/
theorem totalWeight_typesBetween_lt (separator : String) (types : List TypeExpr) :
    totalWeight (typesBetween separator types) < sizeOf types := by
  rw [typesBetween, totalWeight_separated]
  induction types with
  | nil => simp
  | cons t types ih =>
    simp only [List.map_cons, List.flatten_cons, totalWeight_append, totalWeight_cons,
      totalWeight_nil, weight_type, List.cons.sizeOf_spec]
    omega

end TypeFrame

open TypeFrame (text typesBetween)

/-! ## Parts -/

/-- The text of something that cannot be written. -/
def unsupportedText (tag : String) : String := "<unsupported: " ++ tag ++ ">"

/-- The text of a literal. A big integer is an object with its digits and its sign. -/
def literalText : Json → String
  | .obj entries =>
    match (entries.lookup "value").bind Json.asStr? with
    | some digits =>
      (match entries.lookup "negative" with
      | some (.bool true) => "-"
      | _ => "") ++ digits ++ "n"
    | none => unsupportedText "literal"
  | .arr _ => unsupportedText "literal"
  | value => value.compact

/-- A reference: a link if what it means is known, else its name. -/
def expandReference (index : Index) (r : Reference) : Logged TypeFrame :=
  if r.isTypeParameter then pure (text r.name)
  else
    match r.targetId with
    | some id =>
      match index.get? id with
      | some entry => pure (.token (.link (.internal r.name entry.path)))
      | none => do
        Logged.log (.unresolved r.name id .plainText)
        pure (text r.name)
    | none =>
      match r.externalTarget, r.package with
      | some (sourceFileName, qualifiedName), some package =>
        pure (.token (.link (.external r.name package sourceFileName qualifiedName)))
      | _, _ => pure (text r.name)

/-- A type without a name: its first signature if it has one, else its members. -/
def expandReflection (d : Declaration) : List TypeFrame :=
  match d.detail with
  | .typeLiteral _ (s :: _) _ => [.signature s]
  | .typeLiteral _ [] indexer => [.object d.children indexer]
  | .callable .constructor (s :: _) => [text "\x7bnew ", .signature s, text "\x7d"]
  | .callable .method (s :: _) => [.signature s]
  | .callable .function (s :: _) => [.signature s]
  | _ => [text (unsupportedText "reflection")]

/-- A type without its arguments. -/
def expandKind (index : Index) : TypeKind → Logged (List TypeFrame)
  | .intrinsic name => pure [text name]
  | .unknown name => pure [text name]
  | .parameter name => pure [text name]
  | .reference r => do
    let frame ← expandReference index r
    pure [frame]
  | .array element => pure [.type element, text "[]"]
  | .tuple elements => pure (text "[" :: typesBetween ", " elements ++ [text "]"])
  | .union types => pure (typesBetween "|" types)
  | .intersection types => pure (typesBetween " & " types)
  | .operator name target => pure [text (name ++ " "), .type target]
  | .literal value => pure [text (literalText value)]
  | .predicate name asserts target =>
    pure ((if asserts then [text "asserts "] else []) ++ text name ::
      (match target with
      | some t => [text " is ", .type t]
      | none => []))
  | .reflection declaration => pure (expandReflection declaration)
  | .unmodelled kind => pure [text (unsupportedText kind.name)]

/-- The arguments of a type, in angle brackets if there are any. -/
def expandArguments : List TypeExpr → List TypeFrame
  | [] => []
  | types => text "<" :: typesBetween ", " types ++ [text ">"]

/-- A type with its arguments. -/
def expandType (index : Index) (t : TypeExpr) : Logged (List TypeFrame) := do
  let frames ← expandKind index t.kind
  pure (frames ++ expandArguments t.arguments)

/-- A signature: its parameters, and its result. -/
def expandSignature (s : Signature) : List TypeFrame :=
  text "("
    :: TypeFrame.separated ", " (s.parameters.map fun p => [text (p.name ++ ": "), .type p.type])
    ++ [text ") => ",
      match s.result with
      | some t => if t.isVoid then text "void" else .type t
      | none => text "void"]

/-- The index signature of an object type; one without a key is left out. -/
def expandIndexer : Option Signature → Logged (List TypeFrame)
  | none => pure []
  | some s =>
    match s.parameters with
    | [] => do
      Logged.log .indexSignatureWithoutKey
      pure []
    | key :: _ =>
      pure [text "[", text key.name, text ": ", .type key.type, text "]: ",
        match s.result with
        | some t => .type t
        | none => text "unknown",
        text "; "]

/-- A member of an object type: a property with its type, or a method with its first signature. -/
def expandMember (d : Declaration) : List TypeFrame :=
  match d.detail with
  | .member _ type =>
    [text d.name, text (if d.header.flags.isOptional then "?: " else ": "), .type type, text "; "]
  | .callable .method (s :: _) => [text (d.name ++ ": "), .signature s, text "; "]
  | .callable .function (s :: _) => [text (d.name ++ ": "), .signature s, text "; "]
  | _ => []

/-- An object type: its index signature, and then its members. -/
def expandObject (members : List Declaration) (indexer : Option Signature) :
    Logged (List TypeFrame) := do
  let frames ← expandIndexer indexer
  pure (text "\x7b " :: frames ++ members.flatMap expandMember ++ [text "\x7d"])

/-! ## Parts are smaller -/

namespace TypeFrame

/-- The parts of a declaration weigh less than the declaration. -/
theorem totalWeight_expandReflection_lt (d : Declaration) :
    totalWeight (expandReflection d) < sizeOf d := by
  obtain ⟨header, children, detail⟩ := d
  unfold expandReflection
  simp only
  split <;> simp <;> omega

/-- A reference is replaced by a text or a link, which weigh nothing. -/
theorem weight_expandReference (index : Index) (r : Reference) :
    (expandReference index r).value.weight = 0 := by
  unfold expandReference
  repeat' split
  all_goals rfl

/-- The parts of a root weigh less than the root. -/
theorem totalWeight_expandKind_lt (index : Index) (k : TypeKind) :
    totalWeight (expandKind index k).value < sizeOf k := by
  cases k with
  | tuple elements =>
    have := totalWeight_typesBetween_lt ", " elements
    simp [expandKind]; omega
  | union types =>
    have := totalWeight_typesBetween_lt "|" types
    simp [expandKind]; omega
  | intersection types =>
    have := totalWeight_typesBetween_lt " & " types
    simp [expandKind]; omega
  | reference r =>
    simp only [expandKind, Logged.value_bind, Logged.value_pure, totalWeight_cons, totalWeight_nil,
      weight_expandReference, TypeKind.reference.sizeOf_spec]
    omega
  | reflection d =>
    have := totalWeight_expandReflection_lt d
    simp [expandKind]; omega
  | predicate name asserts target =>
    cases target <;> cases asserts <;> simp [expandKind] <;> omega
  | array element =>
    simp only [expandKind, Logged.value_pure, totalWeight_cons, totalWeight_nil, weight_text,
      weight_type, TypeKind.array.sizeOf_spec]
    omega
  | operator name target =>
    simp only [expandKind, Logged.value_pure, totalWeight_cons, totalWeight_nil, weight_text,
      weight_type, TypeKind.operator.sizeOf_spec]
    omega
  | _ =>
    -- nothing but a text
    simp only [expandKind, Logged.value_pure, totalWeight_cons, totalWeight_nil, weight_text,
      TypeKind.intrinsic.sizeOf_spec, TypeKind.unknown.sizeOf_spec, TypeKind.parameter.sizeOf_spec,
      TypeKind.literal.sizeOf_spec, TypeKind.unmodelled.sizeOf_spec]
    omega

/-- The frames of arguments weigh less than the arguments. -/
theorem totalWeight_expandArguments_lt (types : List TypeExpr) :
    totalWeight (expandArguments types) < sizeOf types := by
  cases types with
  | nil => simp [expandArguments]
  | cons t types =>
    have := totalWeight_typesBetween_lt ", " (t :: types)
    simp [expandArguments] at this ⊢
    omega

/-- **The parts of a type weigh less than the type.** -/
theorem totalWeight_expandType_lt (index : Index) (t : TypeExpr) :
    totalWeight (expandType index t).value < sizeOf t := by
  obtain ⟨kind, arguments⟩ := t
  have h₁ := totalWeight_expandKind_lt index kind
  have h₂ := totalWeight_expandArguments_lt arguments
  simp [expandType]
  omega

/-- The frames of parameters weigh less than the parameters. -/
theorem totalWeight_parameters_lt (parameters : List Parameter) :
    totalWeight (separated ", " (parameters.map fun p => [text (p.name ++ ": "), .type p.type]))
      < sizeOf parameters := by
  rw [totalWeight_separated]
  induction parameters with
  | nil => simp
  | cons p parameters ih =>
    obtain ⟨id, name, type, comment, defaultValue, flags, place⟩ := p
    simp only [List.map_cons, List.flatten_cons, totalWeight_append, totalWeight_cons,
      totalWeight_nil, weight_text, weight_type, List.cons.sizeOf_spec, Parameter.mk.sizeOf_spec]
    omega

/-- **The parts of a signature weigh less than the signature.** -/
theorem totalWeight_expandSignature_lt (s : Signature) :
    totalWeight (expandSignature s) < sizeOf s := by
  obtain ⟨id, kind, name, sources, flags, comment, typeParameters, parameters, result, inherited,
    place, owner⟩ := s
  have h := totalWeight_parameters_lt parameters
  cases result with
  | none => simp [expandSignature]; omega
  | some t =>
    simp only [expandSignature]
    split <;> simp <;> omega

/-- The parts of an index signature weigh less than the signature. -/
theorem totalWeight_expandIndexer_lt (indexer : Option Signature) :
    totalWeight (expandIndexer indexer).value < sizeOf indexer := by
  cases indexer with
  | none => simp [expandIndexer]
  | some s =>
    obtain ⟨id, kind, name, sources, flags, comment, typeParameters, parameters, result, inherited,
      place, owner⟩ := s
    cases parameters with
    | nil =>
      simp only [expandIndexer, Logged.value_bind, Logged.value_pure, totalWeight_nil,
        Option.some.sizeOf_spec]
      omega
    | cons key parameters =>
      obtain ⟨id, name, type, comment, defaultValue, flags, place⟩ := key
      cases result <;> simp [expandIndexer] <;> omega

/-- The parts of a member weigh less than the member. -/
theorem totalWeight_expandMember_lt (d : Declaration) :
    totalWeight (expandMember d) < sizeOf d := by
  obtain ⟨header, children, detail⟩ := d
  unfold expandMember
  simp only
  split <;> simp <;> omega

/-- So do those of all members. -/
theorem totalWeight_members_lt (members : List Declaration) :
    totalWeight (members.flatMap expandMember) < sizeOf members := by
  induction members with
  | nil => simp
  | cons d members ih =>
    have := totalWeight_expandMember_lt d
    simp
    omega

/-- **The parts of an object type weigh less than its members and its index signature.** -/
theorem totalWeight_expandObject_lt (members : List Declaration) (indexer : Option Signature) :
    totalWeight (expandObject members indexer).value < sizeOf members + sizeOf indexer := by
  have h₁ := totalWeight_members_lt members
  have h₂ := totalWeight_expandIndexer_lt indexer
  simp [expandObject]
  omega

end TypeFrame

/-! ## Tokens -/

/-- The tokens of frames, in their order. -/
def tokensOf (index : Index) (frames : List TypeFrame) : Logged TypeText :=
  match frames with
  | [] => pure []
  | .token t :: rest =>
    let tail := tokensOf index rest
    ⟨t :: tail.value, tail.events⟩
  | .type t :: rest =>
    let parts := expandType index t
    let tail := tokensOf index (parts.value ++ rest)
    ⟨tail.value, parts.events ++ tail.events⟩
  | .signature s :: rest => tokensOf index (expandSignature s ++ rest)
  | .object members indexer :: rest =>
    let parts := expandObject members indexer
    let tail := tokensOf index (parts.value ++ rest)
    ⟨tail.value, parts.events ++ tail.events⟩
termination_by (TypeFrame.totalWeight frames, frames.length)
decreasing_by
  · simp only [TypeFrame.totalWeight_cons, TypeFrame.weight_token, Nat.zero_add, List.length_cons]
    exact Prod.Lex.right _ (Nat.lt_succ_self _)
  · apply Prod.Lex.left
    have := TypeFrame.totalWeight_expandType_lt index t
    simp only [TypeFrame.totalWeight_append, TypeFrame.totalWeight_cons, TypeFrame.weight_type]
    omega
  · apply Prod.Lex.left
    have := TypeFrame.totalWeight_expandSignature_lt s
    simp only [TypeFrame.totalWeight_append, TypeFrame.totalWeight_cons, TypeFrame.weight_signature]
    omega
  · apply Prod.Lex.left
    have := TypeFrame.totalWeight_expandObject_lt members indexer
    simp only [TypeFrame.totalWeight_append, TypeFrame.totalWeight_cons, TypeFrame.weight_object]
    omega

/-- The tokens of a type, as they come. -/
def typeTokens (index : Index) (t : TypeExpr) : Logged TypeText := tokensOf index [.type t]

/-- One more token behind what has been written: an empty text is left out, and a text behind a text
goes on with it. -/
def pushToken (written : TypeText) : TypeToken → TypeText
  | .link target => written ++ [.link target]
  | .text next =>
    if next.isEmpty then written
    else
      match written.getLast? with
      | some (.text previous) => written.dropLast ++ [.text (previous ++ next)]
      | _ => written ++ [.text next]

/-- The tokens without empty texts and with neighbouring texts in one. -/
def mergeTexts (tokens : TypeText) : TypeText := tokens.foldl pushToken []

/-- A type as it is documented. -/
def renderType (index : Index) (t : TypeExpr) : Logged TypeText := mergeTexts <$> typeTokens index t

end DocAtlas
