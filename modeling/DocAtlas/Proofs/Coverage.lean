import DocAtlas.Proofs.CrossReference
import DocAtlas.Proofs.Indexing
import Mathlib.Logic.Relation

/-!
Which ids the index has.

What a slot contains (`Slot.Contains`) is more than the walk of the index finds below it. A type may
be written with declarations in many places: behind `extends`, as the result of a signature, in the
constraint of a type parameter, as an element of an array or an argument of another type. The walk
looks for a declaration in one place only, where it is the whole type of a member or parameter, and
passes over all others (`Slot.mem_parts_iff`). So everything in a project is reached or hidden
(`Project.contains_iff`), the index has the ids of what is reached, and it has all ids exactly if
those of what is hidden are met elsewhere (`Project.populate_covers_iff`).
-/

set_option autoImplicit false

namespace DocAtlas

/-! ## All that a slot contains -/

mutual

/-- The declarations that are written in a type, however deep: as the type itself, as a part of it
or in its arguments. -/
def TypeExpr.declarations : TypeExpr → List Declaration
  | ⟨kind, arguments⟩ => TypeKind.declarations kind ++ declarationsIn arguments
termination_by structural t => t

/-- The declarations that are written in a kind of type. -/
def TypeKind.declarations : TypeKind → List Declaration
  | .reflection declaration => [declaration]
  | .array element => TypeExpr.declarations element
  | .tuple elements => declarationsIn elements
  | .union types => declarationsIn types
  | .intersection types => declarationsIn types
  | .operator _ target => TypeExpr.declarations target
  | .predicate _ _ target => declarationsOf target
  | .intrinsic _ => []
  | .reference _ => []
  | .literal _ => []
  | .parameter _ => []
  | .unknown _ => []
  | .unmodelled _ => []
termination_by structural k => k

/-- The declarations that are written in some types. -/
def declarationsIn : List TypeExpr → List Declaration
  | [] => []
  | t :: rest => TypeExpr.declarations t ++ declarationsIn rest
termination_by structural ts => ts

/-- The declarations that are written in a type, if there is one. -/
def declarationsOf : Option TypeExpr → List Declaration
  | none => []
  | some t => TypeExpr.declarations t
termination_by structural t => t

end

/-- The declarations that are written in a type, but are not the whole of it. -/
def TypeExpr.nested : TypeExpr → List Declaration
  | ⟨.reflection _, arguments⟩ => declarationsIn arguments
  | t => t.declarations

/-- The declaration behind a type is written in it, and all others are nested. -/
theorem TypeExpr.mem_declarations_iff {t : TypeExpr} {d : Declaration} :
    d ∈ t.declarations ↔ t.reflected = some d ∨ d ∈ t.nested := by
  obtain ⟨kind, arguments⟩ := t
  -- only a declaration as the whole type is behind it; of every other kind all are nested
  cases kind with
  | reflection declaration =>
    simp [declarations, TypeKind.declarations, nested, reflected, eq_comm]
  | _ => simp [nested, reflected]

/-- What is directly inside a detail: its signatures and type parameters, and the declarations in
its types. -/
def Detail.parts : Detail → List Slot
  | .accessor getter setter => getter.toList.map .signature ++ setter.toList.map .signature
  | .classLike _ extended implemented typeParameters =>
    typeParameters.map .typeParameter
      ++ (declarationsIn extended ++ declarationsIn implemented).map .declaration
  | .callable _ signatures => signatures.map .signature
  | .member _ type => type.declarations.map .declaration
  | .typeLiteral _ signatures indexer => signatures.map .signature ++ indexer.toList.map .signature
  | .scope _ => []

namespace Slot

/-- What is directly inside a slot. -/
def parts : Slot → List Slot
  | .declaration d => d.children.map .declaration ++ d.detail.parts
  | .signature s => s.parameters.map .parameter ++ s.typeParameters.map .typeParameter
      ++ (declarationsOf s.result).map .declaration
  | .parameter p => p.type.declarations.map .declaration
  | .typeParameter p => (declarationsOf p.constraint).map .declaration

/-- What is inside a slot at any depth, with the slot itself. -/
def Contains : Slot → Slot → Prop := Relation.ReflTransGen fun s part => part ∈ s.parts

/-- The declarations that the walk does not look for: those in the types that a class or interface
is related to, in the result of a signature and in the constraint of a type parameter, and those
that are nested in the type of a member or parameter. -/
def passedOver : Slot → List Declaration
  | .declaration ⟨_, _, .classLike _ extended implemented _⟩ =>
    declarationsIn extended ++ declarationsIn implemented
  | .declaration ⟨_, _, .member _ type⟩ => type.nested
  | .declaration _ => []
  | .signature s => declarationsOf s.result
  | .parameter p => p.type.nested
  | .typeParameter p => declarationsOf p.constraint

/-- **What is directly inside a slot is directly below it, or is passed over.** -/
theorem mem_parts_iff {s part : Slot} :
    part ∈ s.parts ↔ part ∈ s.below ∨ part ∈ s.passedOver.map .declaration := by
  -- a type, as that of a member and as that of a parameter
  have htype : ∀ t : TypeExpr, part ∈ t.declarations.map .declaration ↔
      part ∈ t.reflected.toList.map .declaration ∨ part ∈ t.nested.map .declaration := by
    intro t
    simp only [List.mem_map, TypeExpr.mem_declarations_iff, Option.mem_toList, or_and_right,
      exists_or]
  cases s with
  | declaration d =>
    obtain ⟨header, children, detail⟩ := d
    cases detail with
    | classLike kind extended implemented typeParameters =>
      simp only [parts, below, passedOver, Detail.parts, Detail.slots, List.mem_append, or_assoc]
    | member kind type =>
      simp only [parts, below, passedOver, Detail.parts, Detail.slots, List.mem_append, htype,
        or_assoc]
    | accessor | callable | typeLiteral | scope =>
      simp only [parts, below, passedOver, Detail.parts, Detail.slots, List.map_nil,
        List.not_mem_nil, or_false]
  | signature s => simp only [parts, below, passedOver, List.mem_append]
  | parameter p => exact htype p.type
  | typeParameter p => simp only [parts, below, passedOver, List.not_mem_nil, false_or]

end Slot

/-! ## Reached and hidden -/

namespace Project

variable {p : Project} {baseDir : String}

/-- The slot is somewhere in the project. -/
def Contains (p : Project) (s : Slot) : Prop := ∃ d ∈ p.children, (Slot.declaration d).Contains s

/-- The slot is inside of something that the walk passes over on its way. -/
def Hides (p : Project) (baseDir : String) (s : Slot) : Prop :=
  ∃ around outer, p.Reaches baseDir around outer ∧ ∃ d ∈ outer.passedOver,
    (Slot.declaration d).Contains s

/-- What the walk reaches is in the project: a step down is a step to something directly inside. -/
theorem Reaches.contains {around : Surroundings} {s : Slot} (h : p.Reaches baseDir around s) :
    p.Contains s := by
  induction h with
  | @child d hd => exact ⟨d, hd, .refl⟩
  | down _ hchild ih =>
    obtain ⟨d, hd, hcontains⟩ := ih
    exact ⟨d, hd, hcontains.tail (Slot.mem_parts_iff.mpr (.inl hchild))⟩

/-- What is hidden is in the project too. -/
theorem Hides.contains {s : Slot} (h : p.Hides baseDir s) : p.Contains s := by
  obtain ⟨around, outer, hreaches, d, hd, hinside⟩ := h
  obtain ⟨root, hroot, hcontains⟩ := hreaches.contains
  have hpart : Slot.declaration d ∈ outer.parts :=
    Slot.mem_parts_iff.mpr (.inr (List.mem_map_of_mem hd))
  exact ⟨root, hroot, (hcontains.tail hpart).trans hinside⟩

/-- **Whatever is in a project is reached by the walk or hidden from it.** -/
theorem contains_iff {s : Slot} :
    p.Contains s ↔ (∃ around, p.Reaches baseDir around s) ∨ p.Hides baseDir s := by
  constructor
  · rintro ⟨d, hd, hinside⟩
    -- one step further in is below what was reached, or passed over there, or inside what was
    -- hidden before
    induction hinside with
    | refl => exact .inl ⟨_, .child hd⟩
    | tail _ hpart ih =>
      rcases ih with ⟨around, hreaches⟩ | ⟨around, outer, hreaches, hidden, hhidden, hcontains⟩
      · rcases Slot.mem_parts_iff.mp hpart with hbelow | hpassed
        · exact .inl ⟨_, .down hreaches hbelow⟩
        · obtain ⟨hidden, hhidden, rfl⟩ := List.mem_map.mp hpassed
          exact .inr ⟨around, _, hreaches, hidden, hhidden, .refl⟩
      · exact .inr ⟨around, outer, hreaches, hidden, hhidden, hcontains.tail hpart⟩
  · rintro (⟨around, h⟩ | h)
    · exact h.contains
    · exact h.contains

/-- The id is that of the project or of something that the walk reaches. -/
def Meets (p : Project) (baseDir : String) (i : Int) : Prop :=
  p.id = some i ∨ ∃ around s, p.Reaches baseDir around s ∧ s.id = some i

/-- **The index has the ids that the walk comes to, and no others.** -/
theorem isSome_get?_index_iff (p : Project) (baseDir : String) (i : Int) :
    ((p.index baseDir).value.get? i).isSome ↔ p.Meets baseDir i := by
  rw [Option.isSome_iff_ne_none, Ne, get?_index_eq_none_iff, not_not, records, List.map_append,
    List.mem_append]
  -- the record of the project, and those of the slots
  refine or_congr ?_ ?_
  · cases p.id <;> simp [eq_comm]
  · simp only [List.mem_map, List.mem_filterMap, Prod.exists, mem_slots_iff, Visit.record?,
      Slot.visit]
    constructor
    · rintro ⟨id, entry, ⟨s, around, hreaches, hrecord⟩, rfl⟩
      obtain ⟨id', hid, heq⟩ := Option.map_eq_some_iff.mp hrecord
      cases heq
      exact ⟨around, s, hreaches, hid⟩
    · rintro ⟨around, s, hreaches, hid⟩
      exact ⟨i, _, ⟨s, around, hreaches, by rw [hid]; rfl⟩, rfl⟩

end Project

/-! ## References -/

/-- The reference is never left unresolved: where it is written it becomes a link, unless it only
names a type parameter, and among related types it is listed with its path. -/
def Index.Resolves (index : Index) (r : Reference) : Prop :=
  ∃ path,
    (r.isTypeParameter = false →
      expandReference index r = pure (.token (.link (.internal r.name path))))
    ∧ ∀ config relation arguments,
      Scope.relatedType ⟨index, config⟩ relation ⟨.reference r, arguments⟩ = pure (some path)

/-- A reference is resolved exactly if the index has the id that it means. -/
theorem Index.resolves_iff (index : Index) {r : Reference} {i : Int} (hr : r.targetId = some i) :
    index.Resolves r ↔ (index.get? i).isSome := by
  constructor
  · rintro ⟨path, -, hrelated⟩
    have hgives := Attempt.gives_pure.mpr (Eq.refl (some path))
    -- among related types an unresolved reference is left out, whatever the configuration
    rw [← hrelated {} .superclass [], Scope.relatedType] at hgives
    cases hentry : index.get? i with
    | some entry => rfl
    | none => simp [hr, hentry] at hgives
  · intro hsome
    obtain ⟨entry, hentry⟩ := Option.isSome_iff_exists.mp hsome
    refine ⟨entry.path, ?_, ?_⟩
    · intro hparameter
      rw [expandReference, hparameter, if_neg Bool.false_ne_true, hr]
      simp only [hentry]
    · intro config relation arguments
      rw [Scope.relatedType]
      simp only [hr, hentry]

/-- **Which ids the index has.** The index has the ids of the project and of what the walk reaches,
and no others, and a reference is resolved exactly if the index has the id that it means. Whatever
is in the project is reached or hidden. So every id in the project is indexed, and every reference
to one of them resolved, exactly if each id that is carried by something hidden is also that of the
project or of something that is reached. -/
theorem Project.populate_covers_iff (p : Project) (baseDir : String) :
    let index := (p.populate baseDir).value.2
    (∀ i, (index.get? i).isSome ↔ p.Meets baseDir i)
      ∧ (∀ r i, r.targetId = some i → (index.Resolves r ↔ (index.get? i).isSome))
      ∧ (∀ s, p.Contains s ↔ (∃ around, p.Reaches baseDir around s) ∨ p.Hides baseDir s)
      ∧ ((∀ s i, p.Contains s → s.id = some i →
            (index.get? i).isSome ∧ ∀ r : Reference, r.targetId = some i → index.Resolves r)
          ↔ ∀ s i, p.Hides baseDir s → s.id = some i → p.Meets baseDir i) := by
  have hindex : (p.populate baseDir).value.2 = (p.index baseDir).value := rfl
  simp only [hindex]
  refine ⟨p.isSome_get?_index_iff baseDir, fun r i hr => Index.resolves_iff _ hr,
    fun _ => contains_iff, ?_⟩
  constructor
  · intro hall s i hhides hid
    obtain ⟨hsome, -⟩ := hall s i hhides.contains hid
    exact (p.isSome_get?_index_iff baseDir i).mp hsome
  · intro hhidden s i hcontains hid
    -- the id is met where its slot is, or elsewhere if the slot is hidden
    have hmeets : p.Meets baseDir i := by
      rcases contains_iff.mp hcontains with ⟨around, hreaches⟩ | hhides
      · exact .inr ⟨around, s, hreaches, hid⟩
      · exact hhidden s i hhides hid
    have hsome := (p.isSome_get?_index_iff baseDir i).mpr hmeets
    exact ⟨hsome, fun r hr => (Index.resolves_iff _ hr).mpr hsome⟩

/-- The object type of the elements of an array. -/
def elementType : Declaration := ⟨{ id := some 2, name := "__type" }, [], .typeLiteral none [] none⟩

/-- A variable in the file `a.ts` that is an array of objects. -/
def arrayVariable : Project where
  children := [⟨{ id := some 1, name := "x", sources := [⟨"a.ts", 1⟩] }, [],
    .member .variableDecl ⟨.array ⟨.reflection elementType, []⟩, []⟩⟩]

/-- The type of the elements of an array has an id, but is not in the index, and a reference to it
is left unresolved. -/
theorem Project.not_indexed_elementType :
    arrayVariable.Contains (.declaration elementType) ∧ (Slot.declaration elementType).id = some 2
      ∧ (arrayVariable.populate ".").value.2.get? 2 = none
      ∧ (expandReference (arrayVariable.populate ".").value.2
        { name := "Item", id := some 2 }).events
        = [.unresolved "Item" 2 .plainText] := by
  have hnone : (arrayVariable.populate ".").value.2.get? 2 = none := by decide +kernel
  have hid : Reference.targetId { name := "Item", id := some 2 } = some 2 := rfl
  -- the literal is a part of the type of the variable, one step inside of it
  refine ⟨⟨_, List.mem_singleton_self _, .single (List.mem_singleton_self _)⟩, rfl, hnone, ?_⟩
  rw [expandReference, if_neg Bool.false_ne_true, hid]
  simp only [hnone]
  rfl

end DocAtlas
