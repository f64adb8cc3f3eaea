import DocAtlas.TypeText.Basic

/-!
Rendering a type by recursion.

`TypeExpr.written` writes a type by recursion on its syntax: its root, and behind it its arguments
in angle brackets. Types, signatures, object types and their members are written in terms of each
other, and what cannot be resolved is told where the recursion meets it. The frames of `tokensOf`
come to the same (`typeTokens_eq_written`): a frame stands for what the recursion writes for it,
replacing a frame by its parts does not change that (`TypeExpr.written_eq`, `Signature.written_eq`,
`writtenObject_eq`), and so the tokens of a list of frames are what is written for one frame after
the other (`tokensOf_eq`).
-/

set_option autoImplicit false

namespace DocAtlas

/-! ## The recursion -/

namespace TypeText

/-- Rendered types with a text between them. -/
def joined (separator : String) (parts : List TypeText) : TypeText :=
  [TypeToken.text separator].intercalate parts

/-- Rendered arguments in angle brackets, if there are any. -/
def angled : List TypeText → TypeText
  | [] => []
  | arguments => .text "<" :: joined ", " arguments ++ [.text ">"]

end TypeText

/-- A reference: the name of a type parameter as it is, and else a link where the index or the
reference itself says what is meant. An id that the index does not have is told. -/
def Reference.written (index : Index) (r : Reference) : Logged TypeText :=
  match r.isTypeParameter, r.targetId with
  | true, _ => pure [.text r.name]
  | false, some id =>
    match index.get? id with
    | some entry => pure [.link (.internal r.name entry.path)]
    | none => do
      Logged.log (.unresolved r.name id .plainText)
      pure [.text r.name]
  | false, none =>
    match r.externalTarget, r.package with
    | some (sourceFileName, qualifiedName), some package =>
      pure [.link (.external r.name package sourceFileName qualifiedName)]
    | _, _ => pure [.text r.name]

mutual

/-- A type: its root, and its arguments. -/
def TypeExpr.written (index : Index) : TypeExpr → Logged TypeText
  | ⟨kind, arguments⟩ => do
    let root ← kind.written index
    let arguments ← writtenTypes index arguments
    pure (root ++ TypeText.angled arguments)
termination_by structural t => t

/-- The root of a type. -/
def TypeKind.written (index : Index) : TypeKind → Logged TypeText
  | .intrinsic name => pure [.text name]
  | .unknown name => pure [.text name]
  | .parameter name => pure [.text name]
  | .reference r => r.written index
  | .array element => do
    let element ← element.written index
    pure (element ++ [.text "[]"])
  | .tuple elements => do
    let elements ← writtenTypes index elements
    pure (.text "[" :: TypeText.joined ", " elements ++ [.text "]"])
  | .union types => do
    let types ← writtenTypes index types
    pure (TypeText.joined "|" types)
  | .intersection types => do
    let types ← writtenTypes index types
    pure (TypeText.joined " & " types)
  | .operator name target => do
    let target ← target.written index
    pure (.text (name ++ " ") :: target)
  | .literal value => pure [.text (literalText value)]
  | .predicate name asserts none =>
    pure ((if asserts then [.text "asserts "] else []) ++ [.text name])
  | .predicate name asserts (some target) => do
    let target ← target.written index
    pure ((if asserts then [.text "asserts "] else []) ++ .text name :: .text " is " :: target)
  | .reflection declaration => writtenReflection index declaration
  | .unmodelled kind => pure [.text (unsupportedText kind.name)]
termination_by structural k => k

/-- Types, each on its own, in their order. -/
def writtenTypes (index : Index) : List TypeExpr → Logged (List TypeText)
  | [] => pure []
  | t :: rest => do
    let here ← t.written index
    let more ← writtenTypes index rest
    pure (here :: more)
termination_by structural ts => ts

/-- A type without a name: the first signature of what can be called, or the members of an
object. -/
def writtenReflection (index : Index) : Declaration → Logged TypeText
  | ⟨_, _, .typeLiteral _ (s :: _) _⟩ => s.written index
  | ⟨_, members, .typeLiteral _ [] indexer⟩ => do
    let indexer ← writtenIndexer index indexer
    let members ← writtenMembers index members
    pure (.text "\x7b " :: indexer ++ members ++ [.text "\x7d"])
  | ⟨_, _, .callable .constructor (s :: _)⟩ => do
    let signature ← s.written index
    pure (.text "\x7bnew " :: signature ++ [.text "\x7d"])
  | ⟨_, _, .callable .method (s :: _)⟩ => s.written index
  | ⟨_, _, .callable .function (s :: _)⟩ => s.written index
  | _ => pure [.text (unsupportedText "reflection")]
termination_by structural d => d

/-- A signature: its parameters in brackets, and its result behind an arrow. -/
def Signature.written (index : Index) : Signature → Logged TypeText
  | ⟨_, _, _, _, _, _, _, parameters, result, _, _, _⟩ => do
    let parameters ← writtenParameters index parameters
    let result ← writtenResult index result
    pure (.text "(" :: TypeText.joined ", " parameters ++ .text ") => " :: result)
termination_by structural s => s

/-- The result of a signature. -/
def writtenResult (index : Index) : Option TypeExpr → Logged TypeText
  | none => pure [.text "void"]
  | some t => if t.isVoid then pure [.text "void"] else t.written index
termination_by structural t => t

/-- A parameter: its name and its type. -/
def Parameter.written (index : Index) : Parameter → Logged TypeText
  | ⟨_, name, type, _, _, _, _⟩ => do
    let type ← type.written index
    pure (.text (name ++ ": ") :: type)
termination_by structural p => p

/-- Parameters, each on its own, in their order. -/
def writtenParameters (index : Index) : List Parameter → Logged (List TypeText)
  | [] => pure []
  | p :: rest => do
    let here ← p.written index
    let more ← writtenParameters index rest
    pure (here :: more)
termination_by structural ps => ps

/-- The index signature of an object type: its key in square brackets, and its value. One without a
key is left out, which is told. -/
def writtenIndexer (index : Index) : Option Signature → Logged TypeText
  | none => pure []
  | some ⟨_, _, _, _, _, _, _, [], _, _, _, _⟩ => do
    Logged.log .indexSignatureWithoutKey
    pure []
  | some ⟨_, _, _, _, _, _, _, ⟨_, name, type, _, _, _, _⟩ :: _, result, _, _, _⟩ => do
    let type ← type.written index
    let value ← writtenValue index result
    pure (.text "[" :: .text name :: .text ": " :: type ++ .text "]: " :: value ++ [.text "; "])
termination_by structural s => s

/-- What an index signature leads to. -/
def writtenValue (index : Index) : Option TypeExpr → Logged TypeText
  | none => pure [.text "unknown"]
  | some t => t.written index
termination_by structural t => t

/-- A member of an object type: a property with its type, or a method with its first signature.
Others are left out. -/
def writtenMember (index : Index) : Declaration → Logged TypeText
  | ⟨header, _, .member _ type⟩ => do
    let type ← type.written index
    pure (.text header.name :: .text (if header.flags.isOptional then "?: " else ": ") :: type
      ++ [.text "; "])
  | ⟨header, _, .callable .method (s :: _)⟩ => do
    let signature ← s.written index
    pure (.text (header.name ++ ": ") :: signature ++ [.text "; "])
  | ⟨header, _, .callable .function (s :: _)⟩ => do
    let signature ← s.written index
    pure (.text (header.name ++ ": ") :: signature ++ [.text "; "])
  | _ => pure []
termination_by structural d => d

/-- The members of an object type, in their order. -/
def writtenMembers (index : Index) : List Declaration → Logged TypeText
  | [] => pure []
  | d :: rest => do
    let here ← writtenMember index d
    let more ← writtenMembers index rest
    pure (here ++ more)
termination_by structural ds => ds

end

/-! ## Lists -/

section

variable (index : Index)

/-- Each type is written on its own. -/
@[simp] theorem value_writtenTypes (types : List TypeExpr) :
    (writtenTypes index types).value = types.map fun t => (t.written index).value := by
  induction types with
  | nil => rfl
  | cons t types ih =>
    rw [writtenTypes, Logged.value_bind, Logged.value_bind, Logged.value_pure, ih, List.map_cons]

/-- What is told about types is told in their order. -/
@[simp] theorem events_writtenTypes (types : List TypeExpr) :
    (writtenTypes index types).events = types.flatMap fun t => (t.written index).events := by
  induction types with
  | nil => rfl
  | cons t types ih =>
    rw [writtenTypes, Logged.events_bind, Logged.events_bind, Logged.events_pure, ih,
      List.append_nil, List.flatMap_cons]

/-- Each parameter is written on its own. -/
@[simp] theorem value_writtenParameters (parameters : List Parameter) :
    (writtenParameters index parameters).value
      = parameters.map fun p => (p.written index).value := by
  induction parameters with
  | nil => rfl
  | cons p parameters ih =>
    rw [writtenParameters, Logged.value_bind, Logged.value_bind, Logged.value_pure, ih,
      List.map_cons]

/-- What is told about parameters is told in their order. -/
@[simp] theorem events_writtenParameters (parameters : List Parameter) :
    (writtenParameters index parameters).events
      = parameters.flatMap fun p => (p.written index).events := by
  induction parameters with
  | nil => rfl
  | cons p parameters ih =>
    rw [writtenParameters, Logged.events_bind, Logged.events_bind, Logged.events_pure, ih,
      List.append_nil, List.flatMap_cons]

end

/-! ## What a frame stands for -/

/-- An object type: its index signature, and then its members. -/
def writtenObject (index : Index) (members : List Declaration) (indexer : Option Signature) :
    Logged TypeText := do
  let indexer ← writtenIndexer index indexer
  let members ← writtenMembers index members
  pure (.text "\x7b " :: indexer ++ members ++ [.text "\x7d"])

/-- What the recursion writes for a frame. -/
def TypeFrame.written (index : Index) : TypeFrame → Logged TypeText
  | .token t => pure [t]
  | .type t => t.written index
  | .signature s => s.written index
  | .object members indexer => writtenObject index members indexer

/-- What the recursion writes for frames, one after the other. -/
def writtenFrames (index : Index) : List TypeFrame → Logged TypeText
  | [] => pure []
  | frame :: rest => do
    let here ← frame.written index
    let more ← writtenFrames index rest
    pure (here ++ more)

namespace TypeFrame

section

variable (index : Index)

@[simp] theorem written_token (t : TypeToken) : (TypeFrame.token t).written index = pure [t] := rfl

@[simp] theorem written_text (s : String) : (text s).written index = pure [.text s] := rfl

@[simp] theorem written_type (t : TypeExpr) : (TypeFrame.type t).written index = t.written index :=
  rfl

@[simp] theorem written_signature (s : Signature) :
    (TypeFrame.signature s).written index = s.written index := rfl

@[simp] theorem written_object (members : List Declaration) (indexer : Option Signature) :
    (TypeFrame.object members indexer).written index = writtenObject index members indexer := rfl

@[simp] theorem writtenFrames_nil : writtenFrames index [] = pure [] := rfl

@[simp] theorem value_writtenFrames_cons (frame : TypeFrame) (rest : List TypeFrame) :
    (writtenFrames index (frame :: rest)).value
      = (frame.written index).value ++ (writtenFrames index rest).value := rfl

@[simp] theorem events_writtenFrames_cons (frame : TypeFrame) (rest : List TypeFrame) :
    (writtenFrames index (frame :: rest)).events
      = (frame.written index).events ++ (writtenFrames index rest).events := by
  rw [writtenFrames, Logged.events_bind, Logged.events_bind, Logged.events_pure, List.append_nil]

/-- Frames are written one after the other. -/
@[simp] theorem value_writtenFrames_append (a b : List TypeFrame) :
    (writtenFrames index (a ++ b)).value
      = (writtenFrames index a).value ++ (writtenFrames index b).value := by
  induction a with
  | nil => rfl
  | cons frame a ih =>
    rw [List.cons_append, value_writtenFrames_cons, value_writtenFrames_cons, ih, List.append_assoc]

/-- And what is told of them is told one after the other. -/
@[simp] theorem events_writtenFrames_append (a b : List TypeFrame) :
    (writtenFrames index (a ++ b)).events
      = (writtenFrames index a).events ++ (writtenFrames index b).events := by
  induction a with
  | nil => rfl
  | cons frame a ih =>
    rw [List.cons_append, events_writtenFrames_cons, events_writtenFrames_cons, ih,
      List.append_assoc]

theorem separated_cons_cons (separator : String) (group next : List TypeFrame)
    (rest : List (List TypeFrame)) :
    separated separator (group :: next :: rest)
      = group ++ text separator :: separated separator (next :: rest) := rfl

/-- Groups with a separator between their frames are written with the separator between them. -/
@[simp] theorem value_writtenFrames_separated (separator : String)
    (groups : List (List TypeFrame)) :
    (writtenFrames index (separated separator groups)).value
      = TypeText.joined separator (groups.map fun group => (writtenFrames index group).value) := by
  induction groups with
  | nil => rfl
  | cons group rest ih =>
    cases rest with
    | nil => simp [separated, TypeText.joined]
    | cons next rest =>
      rw [separated_cons_cons, value_writtenFrames_append, value_writtenFrames_cons, ih]
      simp [TypeText.joined]

/-- A separator tells nothing. -/
@[simp] theorem events_writtenFrames_separated (separator : String)
    (groups : List (List TypeFrame)) :
    (writtenFrames index (separated separator groups)).events
      = groups.flatMap fun group => (writtenFrames index group).events := by
  induction groups with
  | nil => rfl
  | cons group rest ih =>
    cases rest with
    | nil => simp [separated]
    | cons next rest =>
      rw [separated_cons_cons, events_writtenFrames_append, events_writtenFrames_cons, ih]
      simp

/-- Types in a row are written with the separator between them. -/
@[simp] theorem value_writtenFrames_typesBetween (separator : String) (types : List TypeExpr) :
    (writtenFrames index (typesBetween separator types)).value
      = TypeText.joined separator (types.map fun t => (t.written index).value) := by
  rw [typesBetween, value_writtenFrames_separated, List.map_map]
  congr 2
  funext t
  simp

@[simp] theorem events_writtenFrames_typesBetween (separator : String) (types : List TypeExpr) :
    (writtenFrames index (typesBetween separator types)).events
      = types.flatMap fun t => (t.written index).events := by
  rw [typesBetween, events_writtenFrames_separated, List.flatMap_map]
  congr 1
  funext t
  simp

end

end TypeFrame

/-! ## Replacing a frame by its parts -/

section

open TypeFrame

variable (index : Index)

/-- A reference comes to the same as the one frame for it. -/
theorem Reference.written_eq (r : Reference) :
    r.written index = expandReference index r >>= fun frame => writtenFrames index [frame] := by
  rw [Reference.written, expandReference]
  cases r.isTypeParameter with
  | true => rfl
  | false =>
    -- the lookup decides whether there is a link, and without an id the package does
    cases r.targetId with
    | some id =>
      simp only [Bool.false_eq_true, if_false]
      cases index.get? id <;> rfl
    | none =>
      simp only [Bool.false_eq_true, if_false]
      cases r.externalTarget <;> cases r.package <;> rfl

/-- A type without a name comes to the same as its parts. -/
theorem writtenReflection_eq (d : Declaration) :
    writtenReflection index d = writtenFrames index (expandReflection d) := by
  obtain ⟨header, children, detail⟩ := d
  cases detail with
  | typeLiteral variant signatures indexer =>
    cases signatures with
    | nil => simp [writtenReflection, expandReflection, writtenObject, Logged.ext_iff]
    | cons s signatures => simp [writtenReflection, expandReflection, Logged.ext_iff]
  | callable kind signatures =>
    cases signatures with
    | nil => cases kind <;> rfl
    -- a constructor has brackets around its signature, and the others have none
    | cons s signatures => cases kind <;> simp [writtenReflection, expandReflection, Logged.ext_iff]
  | _ => rfl

/-- The root of a type comes to the same as its parts. -/
theorem TypeKind.written_eq (k : TypeKind) :
    k.written index = expandKind index k >>= writtenFrames index := by
  cases k with
  | reference r =>
    -- only a reference looks something up; the parts of every other root are fixed
    rw [TypeKind.written, Reference.written_eq, expandKind]
    simp
  | reflection d =>
    rw [TypeKind.written, writtenReflection_eq, expandKind]
    simp
  | predicate name asserts target =>
    cases target <;> cases asserts <;> simp [TypeKind.written, expandKind, Logged.ext_iff]
  | _ => simp [TypeKind.written, expandKind, Logged.ext_iff]

/-- The frames of arguments are written in angle brackets. -/
theorem writtenFrames_expandArguments (arguments : List TypeExpr) :
    writtenFrames index (expandArguments arguments)
      = TypeText.angled <$> writtenTypes index arguments := by
  cases arguments with
  | nil => rfl
  | cons t arguments => simp [expandArguments, TypeText.angled, Logged.ext_iff]

/-- A type comes to the same as its parts. -/
theorem TypeExpr.written_eq (t : TypeExpr) :
    t.written index = expandType index t >>= writtenFrames index := by
  obtain ⟨kind, arguments⟩ := t
  simp [TypeExpr.written, TypeKind.written_eq, expandType, writtenFrames_expandArguments,
    Logged.ext_iff]

/-- The two frames of a parameter. -/
theorem writtenFrames_parameter (p : Parameter) :
    writtenFrames index [text (p.name ++ ": "), .type p.type] = p.written index := by
  obtain ⟨id, name, type, comment, defaultValue, flags, place⟩ := p
  simp [Parameter.written, Logged.ext_iff]

/-- The frames of all parameters are written with commas between the parameters. -/
theorem writtenFrames_parameters (parameters : List Parameter) :
    writtenFrames index
      (separated ", " (parameters.map fun p => [text (p.name ++ ": "), .type p.type]))
      = TypeText.joined ", " <$> writtenParameters index parameters := by
  rw [Logged.ext_iff, value_writtenFrames_separated, events_writtenFrames_separated, List.map_map,
    List.flatMap_map, Logged.value_map, Logged.events_map, value_writtenParameters,
    events_writtenParameters]
  simp only [Function.comp_def, writtenFrames_parameter, and_self]

/-- A signature comes to the same as its parts. -/
theorem Signature.written_eq (s : Signature) :
    s.written index = writtenFrames index (expandSignature s) := by
  obtain ⟨id, kind, name, sources, flags, comment, typeParameters, parameters, result, inherited,
    place, owner⟩ := s
  cases result with
  | none =>
    simp [Signature.written, writtenResult, expandSignature, writtenFrames_parameters,
      Logged.ext_iff]
  | some t =>
    -- a result that is `void` is written as the word, without its arguments
    by_cases hvoid : t.isVoid
    · simp [Signature.written, writtenResult, expandSignature, writtenFrames_parameters, hvoid,
        Logged.ext_iff]
    · simp [Signature.written, writtenResult, expandSignature, writtenFrames_parameters, hvoid,
        Logged.ext_iff]

/-- An index signature comes to the same as its parts. -/
theorem writtenIndexer_eq (indexer : Option Signature) :
    writtenIndexer index indexer = expandIndexer indexer >>= writtenFrames index := by
  cases indexer with
  | none => rfl
  | some s =>
    obtain ⟨id, kind, name, sources, flags, comment, typeParameters, parameters, result, inherited,
      place, owner⟩ := s
    cases parameters with
    | nil => rfl
    | cons key parameters =>
      obtain ⟨id, name, type, comment, defaultValue, flags, place⟩ := key
      cases result <;> simp [writtenIndexer, writtenValue, expandIndexer, Logged.ext_iff]

/-- A member of an object type comes to the same as its parts. -/
theorem writtenMember_eq (d : Declaration) :
    writtenMember index d = writtenFrames index (expandMember d) := by
  obtain ⟨header, children, detail⟩ := d
  cases detail with
  | member kind type => simp [writtenMember, expandMember, Declaration.name, Logged.ext_iff]
  | callable kind signatures =>
    cases signatures with
    | nil => cases kind <;> rfl
    | cons s signatures =>
      cases kind <;> simp [writtenMember, expandMember, Declaration.name, Logged.ext_iff]
  | _ => rfl

/-- So do all members. -/
theorem writtenMembers_eq (members : List Declaration) :
    writtenMembers index members = writtenFrames index (members.flatMap expandMember) := by
  induction members with
  | nil => rfl
  | cons d members ih => simp [writtenMembers, writtenMember_eq, ih, Logged.ext_iff]

/-- An object type comes to the same as its parts. -/
theorem writtenObject_eq (members : List Declaration) (indexer : Option Signature) :
    writtenObject index members indexer = expandObject members indexer >>= writtenFrames index := by
  simp [writtenObject, writtenIndexer_eq, writtenMembers_eq, expandObject, Logged.ext_iff]

end

/-! ## The run over the frames -/

/-- The tokens of frames are what the recursion writes for them. The induction is on the run itself:
a step either puts out the token of the first frame, or replaces the frame by its parts, which comes
to the same. -/
theorem tokensOf_eq (index : Index) (frames : List TypeFrame) :
    tokensOf index frames = writtenFrames index frames := by
  induction frames using tokensOf.induct index with
  | case1 => rw [tokensOf, TypeFrame.writtenFrames_nil]
  | case2 t rest ih =>
    rw [tokensOf, ih]
    simp [Logged.ext_iff]
  -- a type, whose parts come to the front of the other frames
  | case3 t rest parts ih =>
    rw [tokensOf, ih]
    simp [TypeExpr.written_eq, parts, Logged.ext_iff]
  | case4 s rest ih =>
    rw [tokensOf, ih]
    simp [Signature.written_eq, Logged.ext_iff]
  | case5 members indexer rest parts ih =>
    rw [tokensOf, ih]
    simp [writtenObject_eq, parts, Logged.ext_iff]

/-- **The tokens of a type are those of the recursion, and so is what is told on the way.** -/
theorem typeTokens_eq_written (index : Index) (t : TypeExpr) :
    typeTokens index t = t.written index := by
  rw [typeTokens, tokensOf_eq]
  simp [Logged.ext_iff]

end DocAtlas
