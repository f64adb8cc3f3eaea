import DocAtlas.Proofs.Indexing

/-!
What indexing writes, and that it reads none of it.

Indexing writes the places of slots and the owners of signatures. `Project.unsettled` takes both off
again, at every slot that the walk comes to, and leaves all else alone. How the two stand to each
other is `Undoes`. Taking off what was written gives what would have been there without it, so
nothing else has changed (`Project.unsettled_placed`). And slots are put in the same places whether
or not they had been in some place before, so indexing does not look at what an earlier run has
left: the result depends on the unsettled project alone (`Project.populate_congr`), and a second run
repeats the first.
-/

set_option autoImplicit false

namespace DocAtlas

/-! ## Taking places off -/

/-- A type parameter without its place. -/
def unsettleTypeParameter (p : TypeParameter) : TypeParameter := { p with place := default }

mutual

/-- A declaration and all that is below it without their places. -/
def unsettleDeclaration : Declaration → Declaration
  | ⟨header, children, detail⟩ =>
    ⟨{ header with place := default }, unsettleDeclarations children, unsettleDetail detail⟩
termination_by structural d => d

/-- Declarations without their places. -/
def unsettleDeclarations : List Declaration → List Declaration
  | [] => []
  | d :: rest => unsettleDeclaration d :: unsettleDeclarations rest
termination_by structural ds => ds

/-- What a detail leads to without its place. -/
def unsettleDetail : Detail → Detail
  | .accessor getter setter => .accessor (unsettleOption getter) (unsettleOption setter)
  | .classLike kind extended implemented typeParameters =>
    .classLike kind extended implemented (typeParameters.map unsettleTypeParameter)
  | .callable kind signatures => .callable kind (unsettleSignatures signatures)
  | .member kind type => .member kind (unsettleType type)
  | .typeLiteral variant signatures indexer =>
    .typeLiteral variant (unsettleSignatures signatures) (unsettleOption indexer)
  | .scope kind => .scope kind
termination_by structural d => d

/-- A signature without its place and its owner, and all that is below it without their places. -/
def unsettleSignature : Signature → Signature
  | ⟨id, kind, name, sources, flags, comment, typeParameters, parameters, result, inheritedFrom,
    _, _⟩ =>
    ⟨id, kind, name, sources, flags, comment, typeParameters.map unsettleTypeParameter,
      unsettleParameters parameters, result, inheritedFrom, default, {}⟩
termination_by structural s => s

/-- Signatures without their places. -/
def unsettleSignatures : List Signature → List Signature
  | [] => []
  | s :: rest => unsettleSignature s :: unsettleSignatures rest
termination_by structural ss => ss

/-- A signature without its place, if there is one. -/
def unsettleOption : Option Signature → Option Signature
  | none => none
  | some s => some (unsettleSignature s)
termination_by structural s => s

/-- A parameter and all that is below it without their places. -/
def unsettleParameter : Parameter → Parameter
  | ⟨id, name, type, comment, defaultValue, flags, _⟩ =>
    ⟨id, name, unsettleType type, comment, defaultValue, flags, default⟩
termination_by structural p => p

/-- Parameters without their places. -/
def unsettleParameters : List Parameter → List Parameter
  | [] => []
  | p :: rest => unsettleParameter p :: unsettleParameters rest
termination_by structural ps => ps

/-- A type with the declaration behind it without its place. What stands inside other types is left
as it is: the walk does not come there. -/
def unsettleType : TypeExpr → TypeExpr
  | ⟨kind, arguments⟩ => ⟨unsettleKind kind, arguments⟩
termination_by structural t => t

/-- A kind of type with the declaration behind it without its place. -/
def unsettleKind : TypeKind → TypeKind
  | .reflection declaration => .reflection (unsettleDeclaration declaration)
  | kind => kind
termination_by structural k => k

end

/-- A project without the places of its slots and the owners of its signatures. -/
def Project.unsettled (p : Project) : Project :=
  { p with children := unsettleDeclarations p.children }

/-- Taking places off changes no kind. -/
theorem unsettleDetail_kind (d : Detail) : (unsettleDetail d).kind = d.kind := by
  cases d <;> rfl

/-! ## Putting on and taking off -/

/-- Taking off and putting on are about the same things: taking off undoes putting on, and putting
on does not look at what taking off removes. -/
structure Undoes {β : Type} (unsettle : β → β) (settle : Surroundings → β → β) (b : β) : Prop where
  undone : ∀ around, unsettle (settle around b) = unsettle b
  unread : ∀ around, settle around (unsettle b) = settle around b

namespace Undoes

variable {β γ δ : Type} {unsettleβ : β → β} {unsettleγ : γ → γ} {unsettleδ : δ → δ}
  {settleβ : Surroundings → β → β} {settleγ : Surroundings → γ → γ} {settleδ : Surroundings → δ → δ}

/-- What has no slots is left alone by both. -/
theorem none {b : β} (hunsettle : unsettleβ b = b) (hsettle : ∀ around, settleβ around b = b) :
    Undoes unsettleβ settleβ b := by
  refine ⟨?_, ?_⟩
  · intro around
    rw [hsettle]
  · intro around
    rw [hunsettle]

/-- What is made of one part, each in turn on that part. -/
theorem one {b : β} (make : β → δ) (hunsettle : ∀ b, unsettleδ (make b) = make (unsettleβ b))
    (hsettle : ∀ around b, settleδ around (make b) = make (settleβ around b))
    (hb : Undoes unsettleβ settleβ b) :
    Undoes unsettleδ settleδ (make b) := by
  refine ⟨?_, ?_⟩
  · intro around
    rw [hsettle, hunsettle, hunsettle, hb.undone]
  · intro around
    rw [hunsettle, hsettle, hsettle, hb.unread]

/-- What is made of two parts, each in turn on both parts. -/
theorem two {b : β} {c : γ} (make : β → γ → δ)
    (hunsettle : ∀ b c, unsettleδ (make b c) = make (unsettleβ b) (unsettleγ c))
    (hsettle : ∀ around b c, settleδ around (make b c) = make (settleβ around b) (settleγ around c))
    (hb : Undoes unsettleβ settleβ b) (hc : Undoes unsettleγ settleγ c) :
    Undoes unsettleδ settleδ (make b c) := by
  refine ⟨?_, ?_⟩
  · intro around
    rw [hsettle, hunsettle, hunsettle, hb.undone, hc.undone]
  · intro around
    rw [hunsettle, hsettle, hsettle, hb.unread, hc.unread]

end Undoes

section

variable (baseDir : String)

/-- A type parameter has a place and nothing below it. -/
theorem undoes_typeParameters (ps : List TypeParameter) :
    Undoes (List.map unsettleTypeParameter)
      (fun around => List.map (settleTypeParameter baseDir around)) ps := by
  refine ⟨?_, ?_⟩
  · intro around
    rw [List.map_map]
    rfl
  · intro around
    rw [List.map_map]
    rfl

-- one theorem for each function, by the recursion of the tree
mutual

/-- A declaration: its children and its detail follow by recursion, and its own place is computed
from what stays. -/
theorem undoes_declaration (d : Declaration) :
    Undoes unsettleDeclaration (settleDeclaration baseDir) d := by
  match d with
  | ⟨header, children, detail⟩ =>
    have hchildren := undoes_declarations children
    have hdetail := undoes_detail detail
    refine ⟨?_, ?_⟩
    · intro around
      rw [settleDeclaration, unsettleDeclaration, unsettleDeclaration, hchildren.undone,
        hdetail.undone]
    · intro around
      -- the place comes from the header without its place and from the kind, and so does what is
      -- handed down
      have hvisit :=
        visit_declaration_of_kind baseDir header children (unsettleDeclarations children)
          default around (unsettleDetail_kind detail)
      have hplace := congrArg Visit.place hvisit
      simp only [Slot.visit] at hplace
      rw [unsettleDeclaration, settleDeclaration, settleDeclaration]
      simp only [hplace, Slot.surroundings, Slot.id, Slot.kind, Declaration.kind, Slot.properties,
        unsettleDetail_kind, hchildren.unread, hdetail.unread]
termination_by structural d

theorem undoes_declarations (ds : List Declaration) :
    Undoes unsettleDeclarations (settleDeclarations baseDir) ds := by
  match ds with
  | [] => exact .none rfl fun _ => rfl
  | d :: ds =>
    exact .two List.cons (fun _ _ => rfl) (fun _ _ _ => rfl) (undoes_declaration d)
      (undoes_declarations ds)
termination_by structural ds

/-- Each kind of detail has one part with slots or two, or none. -/
theorem undoes_detail (d : Detail) : Undoes unsettleDetail (settleDetail baseDir) d := by
  match d with
  | .accessor getter setter =>
    exact .two Detail.accessor (fun _ _ => rfl) (fun _ _ _ => rfl) (undoes_option getter)
      (undoes_option setter)
  | .classLike kind extended implemented typeParameters =>
    exact .one (Detail.classLike kind extended implemented) (fun _ => rfl) (fun _ _ => rfl)
      (undoes_typeParameters baseDir typeParameters)
  | .callable kind signatures =>
    exact .one (Detail.callable kind) (fun _ => rfl) (fun _ _ => rfl) (undoes_signatures signatures)
  | .member kind type =>
    exact .one (Detail.member kind) (fun _ => rfl) (fun _ _ => rfl) (undoes_type type)
  | .typeLiteral variant signatures indexer =>
    exact .two (Detail.typeLiteral variant) (fun _ _ => rfl) (fun _ _ _ => rfl)
      (undoes_signatures signatures) (undoes_option indexer)
  | .scope kind => exact .none rfl fun _ => rfl
termination_by structural d

/-- A signature: its owner is written over, whatever it was. -/
theorem undoes_signature (s : Signature) :
    Undoes unsettleSignature (settleSignature baseDir) s := by
  match s with
  | ⟨id, kind, name, sources, flags, comment, typeParameters, parameters, result, inherited, place,
    owner⟩ =>
    have htypes := undoes_typeParameters baseDir typeParameters
    have hparameters := undoes_parameters parameters
    refine ⟨?_, ?_⟩
    · intro around
      rw [settleSignature, unsettleSignature, unsettleSignature, htypes.undone, hparameters.undone]
    · intro around
      rw [unsettleSignature, settleSignature, settleSignature, htypes.unread, hparameters.unread]
      rfl
termination_by structural s

theorem undoes_signatures (ss : List Signature) :
    Undoes unsettleSignatures (settleSignatures baseDir) ss := by
  match ss with
  | [] => exact .none rfl fun _ => rfl
  | s :: ss =>
    exact .two List.cons (fun _ _ => rfl) (fun _ _ _ => rfl) (undoes_signature s)
      (undoes_signatures ss)
termination_by structural ss

theorem undoes_option (s : Option Signature) : Undoes unsettleOption (settleOption baseDir) s := by
  match s with
  | none => exact .none rfl fun _ => rfl
  | some s => exact .one some (fun _ => rfl) (fun _ _ => rfl) (undoes_signature s)
termination_by structural s

theorem undoes_parameter (p : Parameter) :
    Undoes unsettleParameter (settleParameter baseDir) p := by
  match p with
  | ⟨id, name, type, comment, defaultValue, flags, place⟩ =>
    have htype := undoes_type type
    refine ⟨?_, ?_⟩
    · intro around
      rw [settleParameter, unsettleParameter, unsettleParameter, htype.undone]
    · intro around
      rw [unsettleParameter, settleParameter, settleParameter, htype.unread]
      rfl
termination_by structural p

theorem undoes_parameters (ps : List Parameter) :
    Undoes unsettleParameters (settleParameters baseDir) ps := by
  match ps with
  | [] => exact .none rfl fun _ => rfl
  | p :: ps =>
    exact .two List.cons (fun _ _ => rfl) (fun _ _ _ => rfl) (undoes_parameter p)
      (undoes_parameters ps)
termination_by structural ps

/-- Of a type only the declaration behind it is looked at. -/
theorem undoes_type (t : TypeExpr) : Undoes unsettleType (settleType baseDir) t := by
  match t with
  | ⟨kind, arguments⟩ =>
    exact .one (fun kind => TypeExpr.mk kind arguments) (fun _ => rfl) (fun _ _ => rfl)
      (undoes_kind kind)
termination_by structural t

theorem undoes_kind (k : TypeKind) : Undoes unsettleKind (settleKind baseDir) k := by
  match k with
  | .reflection d =>
    exact .one TypeKind.reflection (fun _ => rfl) (fun _ _ => rfl) (undoes_declaration d)
  | .intrinsic _ | .reference _ | .array _ | .tuple _ | .union _ | .intersection _ | .operator _ _
  | .literal _ | .predicate _ _ _ | .parameter _ | .unknown _ | .unmodelled _ =>
    exact .none rfl fun _ => rfl
termination_by structural k

end

end

/-! ## The project -/

namespace Project

variable (p : Project) (baseDir : String)

/-- **Placing a project changes nothing but places and the owners of signatures.** -/
theorem unsettled_placed : (p.placed baseDir).unsettled = p.unsettled := by
  rw [placed_eq, unsettled, unsettled, (undoes_declarations baseDir p.children).undone]

/-- Placing a project starts from the same data whether or not it has been placed before. -/
theorem placed_unsettled : p.unsettled.placed baseDir = p.placed baseDir := by
  rw [placed_eq, placed_eq, unsettled]
  exact congrArg (fun settled => { p with children := settled })
    ((undoes_declarations baseDir p.children).unread p.surroundings)

/-- The walk makes the same visits, since it makes those of the placed project. -/
theorem visits_unsettled : p.unsettled.visits baseDir = p.visits baseDir := by
  rw [← visits_placed p.unsettled, placed_unsettled, visits_placed]

/-- **Indexing reads nothing of what it writes.** -/
theorem populate_unsettled : p.unsettled.populate baseDir = p.populate baseDir := by
  -- the index is made of the visits and the project itself
  have hindex : p.unsettled.index baseDir = p.index baseDir := by
    unfold index
    rw [visits_unsettled]
    rfl
  unfold populate
  rw [hindex, placed_unsettled]

/-- **What indexing gives depends on the unsettled project alone.** -/
theorem populate_congr {p q : Project} (h : p.unsettled = q.unsettled) (baseDir : String) :
    p.populate baseDir = q.populate baseDir := by
  rw [← populate_unsettled p, ← populate_unsettled q, h]

/-- **Indexing writes nothing but its own annotations, and doing it twice is doing it once.** The
project that comes out differs from the one that went in by the places of slots and the owners of
signatures at most. Indexing it once more leaves it exactly as it is and gives the same index, with
the same events on the way. -/
theorem populate_populate (p : Project) (baseDir : String) :
    let placed := (p.populate baseDir).value.1
    let index := (p.populate baseDir).value.2
    placed.unsettled = p.unsettled
      ∧ (placed.populate baseDir).value = (placed, index)
      ∧ (placed.populate baseDir).events = (p.populate baseDir).events := by
  have hframe : (p.placed baseDir).unsettled = p.unsettled := p.unsettled_placed baseDir
  -- the placed project and the project are one when unsettled
  have hagain : (p.placed baseDir).populate baseDir = p.populate baseDir :=
    populate_congr hframe baseDir
  exact ⟨hframe, congrArg Logged.value hagain, congrArg Logged.events hagain⟩

end Project

end DocAtlas
