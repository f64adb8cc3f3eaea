import DocAtlas.Document.Basic

/-!
Slots: everything in a document that can carry an id.

These are the declarations, the signatures, their parameters, and the type parameters. A slot leads
to the slots directly below it, in the order of the document; a type leads to a declaration only
where it is the whole type of a member or parameter. What is below a slot is smaller than the slot,
which is what makes walks over slots end.
-/

set_option autoImplicit false

namespace DocAtlas

/-- The kind of something that can carry an id. -/
inductive SlotKind where
  | project
  | declaration (kind : DeclarationKind)
  | signature (kind : SignatureKind)
  | parameter
  | typeParameter
  deriving DecidableEq, Repr

namespace SlotKind

/-- The name of a kind. -/
def name : SlotKind → String
  | .project => "Project"
  | .declaration kind => kind.name
  | .signature kind => kind.name
  | .parameter => "Parameter"
  | .typeParameter => "Type parameter"

/-- What a slot of this kind is to the paths below it. -/
def owner : SlotKind → Owner
  | .project => .project
  | .declaration (.classLike .classDecl) => .classDecl
  | _ => .other

end SlotKind

/-- Something below the project that can carry an id. -/
inductive Slot where
  | declaration (d : Declaration)
  | signature (s : Signature)
  | parameter (p : Parameter)
  | typeParameter (p : TypeParameter)

/-! ## Below a slot -/

/-- The slots that a detail leads to. -/
def Detail.slots : Detail → List Slot
  | .accessor getter setter => getter.toList.map .signature ++ setter.toList.map .signature
  | .classLike _ _ _ typeParameters => typeParameters.map .typeParameter
  | .callable _ signatures => signatures.map .signature
  | .member _ type => type.reflected.toList.map .declaration
  | .typeLiteral _ signatures indexer => signatures.map .signature ++ indexer.toList.map .signature
  | .scope _ => []

namespace Slot

/-- The slots directly below a slot, in the order of the document. -/
def below : Slot → List Slot
  | .declaration d => d.children.map .declaration ++ d.detail.slots
  | .signature s => s.parameters.map .parameter ++ s.typeParameters.map .typeParameter
  | .parameter p => p.type.reflected.toList.map .declaration
  | .typeParameter _ => []

/-- The size of a slot's contents. -/
noncomputable def weight : Slot → Nat
  | .declaration d => sizeOf d
  | .signature s => sizeOf s
  | .parameter p => sizeOf p
  | .typeParameter p => sizeOf p

/-- The size of a list of slots. -/
noncomputable def totalWeight (slots : List Slot) : Nat :=
  slots.foldr (fun s total => s.weight + total) 0

@[simp] theorem totalWeight_nil : totalWeight [] = 0 := rfl

@[simp] theorem totalWeight_cons (s : Slot) (slots : List Slot) :
    totalWeight (s :: slots) = s.weight + totalWeight slots := rfl

@[simp] theorem totalWeight_append (a b : List Slot) :
    totalWeight (a ++ b) = totalWeight a + totalWeight b := by
  induction a with
  | nil => rw [List.nil_append, totalWeight_nil, Nat.zero_add]
  | cons s a ih => rw [List.cons_append, totalWeight_cons, totalWeight_cons, ih, Nat.add_assoc]

/-- Slots made from the items of a list weigh less than the list. -/
theorem totalWeight_map_lt {α : Type} [SizeOf α] {f : α → Slot} (hf : ∀ a, (f a).weight = sizeOf a)
    (items : List α) : totalWeight (items.map f) < sizeOf items := by
  induction items with
  | nil => simp
  | cons a items ih => simp only [List.map_cons, totalWeight_cons, hf, List.cons.sizeOf_spec]; omega

/-- A slot made from an optional item weighs less than the option. -/
theorem totalWeight_option_lt {α : Type} [SizeOf α] {f : α → Slot}
    (hf : ∀ a, (f a).weight = sizeOf a) (item : Option α) :
    totalWeight (item.toList.map f) < sizeOf item := by
  cases item with
  | none => simp
  | some a => simp [hf]

/-- The declaration behind a type is smaller than the type. -/
theorem totalWeight_reflected_lt (t : TypeExpr) :
    totalWeight (t.reflected.toList.map .declaration) < sizeOf t := by
  obtain ⟨kind, arguments⟩ := t
  cases kind with
  | reflection d =>
    simp only [TypeExpr.reflected, Option.toList_some, List.map_cons, List.map_nil,
      totalWeight_cons, totalWeight_nil, weight, TypeExpr.mk.sizeOf_spec,
      TypeKind.reflection.sizeOf_spec]
    omega
  | _ =>
    simp only [TypeExpr.reflected, Option.toList_none, List.map_nil, totalWeight_nil,
      TypeExpr.mk.sizeOf_spec]
    omega

/-- What a detail leads to is smaller than the detail. -/
theorem totalWeight_slots_lt (d : Detail) : totalWeight d.slots < sizeOf d := by
  cases d with
  | accessor getter setter =>
    have h₁ := totalWeight_option_lt (f := .signature) (fun _ => rfl) getter
    have h₂ := totalWeight_option_lt (f := .signature) (fun _ => rfl) setter
    simp only [Detail.slots, totalWeight_append, Detail.accessor.sizeOf_spec]
    omega
  | classLike kind extended implemented typeParameters =>
    have h := totalWeight_map_lt (f := .typeParameter) (fun _ => rfl) typeParameters
    simp only [Detail.slots, Detail.classLike.sizeOf_spec]
    omega
  | callable kind signatures =>
    have h := totalWeight_map_lt (f := .signature) (fun _ => rfl) signatures
    simp only [Detail.slots, Detail.callable.sizeOf_spec]
    omega
  | member kind type =>
    have h := totalWeight_reflected_lt type
    simp only [Detail.slots, Detail.member.sizeOf_spec]
    omega
  | typeLiteral variant signatures indexer =>
    have h₁ := totalWeight_map_lt (f := .signature) (fun _ => rfl) signatures
    have h₂ := totalWeight_option_lt (f := .signature) (fun _ => rfl) indexer
    simp only [Detail.slots, totalWeight_append, Detail.typeLiteral.sizeOf_spec]
    omega
  | scope kind =>
    simp only [Detail.slots, totalWeight_nil, Detail.scope.sizeOf_spec]
    omega

/-- What is below a slot is smaller than the slot. -/
theorem totalWeight_below_lt (s : Slot) : totalWeight s.below < s.weight := by
  cases s with
  | declaration d =>
    obtain ⟨header, children, detail⟩ := d
    have h₁ := totalWeight_map_lt (f := .declaration) (fun _ => rfl) children
    have h₂ := totalWeight_slots_lt detail
    simp only [below, weight, totalWeight_append, Declaration.mk.sizeOf_spec]
    omega
  | signature s =>
    obtain ⟨id, kind, name, sources, flags, comment, typeParameters, parameters, result, inherited,
      place, owner⟩ := s
    have h₁ := totalWeight_map_lt (f := .parameter) (fun _ => rfl) parameters
    have h₂ := totalWeight_map_lt (f := .typeParameter) (fun _ => rfl) typeParameters
    simp only [below, weight, totalWeight_append, Signature.mk.sizeOf_spec]
    omega
  | parameter p =>
    obtain ⟨id, name, type, comment, defaultValue, flags, place⟩ := p
    have h := totalWeight_reflected_lt type
    simp only [below, weight, Parameter.mk.sizeOf_spec]
    omega
  | typeParameter p =>
    obtain ⟨id, name, constraint, comment, place⟩ := p
    simp only [below, weight, totalWeight_nil, TypeParameter.mk.sizeOf_spec]
    omega

/-! ## What a slot says about itself -/

/-- The slot's id. -/
def id : Slot → Option Int
  | .declaration d => d.header.id
  | .signature s => s.id
  | .parameter p => p.id
  | .typeParameter p => p.id

/-- The slot's kind. -/
def kind : Slot → SlotKind
  | .declaration d => .declaration d.kind
  | .signature s => .signature s.kind
  | .parameter _ => .parameter
  | .typeParameter _ => .typeParameter

/-- The slot's name. -/
def name : Slot → String
  | .declaration d => d.name
  | .signature s => s.name
  | .parameter p => p.name
  | .typeParameter p => p.name

/-- The first source of the slot. -/
def source? : Slot → Option Source
  | .declaration d => d.header.sources.head?
  | .signature s => s.sources.head?
  | .parameter _ => none
  | .typeParameter _ => none

/-- Whether the slot is static. -/
def isStatic : Slot → Bool
  | .declaration d => d.header.flags.isStatic
  | .signature s => s.flags.isStatic
  | .parameter p => p.flags.isStatic
  | .typeParameter _ => false

/-- Whether the slot is a module. -/
def isModule : Slot → Bool
  | .declaration d => d.isModule
  | _ => false

/-- How the slot stands to its owner. -/
def properties : Slot → MemberProperties
  | .declaration d => d.header.flags.memberProperties
  | .signature s => s.flags.memberProperties
  | .parameter p => p.flags.memberProperties
  | .typeParameter _ => {}

end Slot

/-- The segments that a declaration adds to the path of its owner: its name, or for a module the
segments of its file as seen from the base directory. -/
def Declaration.ownSegments (d : Declaration) (baseDir : String) : Pathname :=
  if d.isModule then
    match d.header.originalName with
    | some file => if file.isEmpty then [] else FilePath.segments (FilePath.relativeTo file baseDir)
    | none => []
  else [d.name]

/-- The segments that a slot adds to the path of its owner; only declarations add any. -/
def Slot.ownSegments (s : Slot) (baseDir : String) : Pathname :=
  match s with
  | .declaration d => d.ownSegments baseDir
  | _ => []

end DocAtlas
