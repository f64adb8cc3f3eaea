import DocAtlas.Proofs.Worklist
import Mathlib.Data.List.Basic

/-!
The constructor and the members of a class against the entities of its children.

The children of a class are converted twice: once for the class, and once more by the run that comes
to them after the class. Both conversions give the same entity for a child, and the class takes the
first function of its constructors and the functions and attributes of its other children
(`gives_classMembers`). But a run passes over what was declared outside the analyzed tree, and a
class does not look at that. So a class and the entities that a run emits for its children agree
exactly if nothing outside the tree adds to the class (`class_agrees_iff`).
-/

set_option autoImplicit false

namespace DocAtlas

open Attempt (Gives)

/-- The function that an entity is. -/
def Entity.function? : Entity → Option Function
  | .function f => some f
  | _ => none

/-- The member of a class that an entity can be. -/
def Entity.member? : Entity → Option ClassMember
  | .function f => some (.function f)
  | .attribute a => some (.attribute a)
  | _ => none

/-! ## Results that are left out -/

/-- Leaving out results leaves no more of them. -/
theorem length_filterMap_le {α β : Type} {f g : α → Option β} (hg : ∀ a, g a = f a ∨ g a = none)
    (l : List α) : (l.filterMap g).length ≤ (l.filterMap f).length := by
  induction l with
  | nil => exact Nat.le_refl _
  | cons a l ih =>
    rw [List.filterMap_cons, List.filterMap_cons]
    rcases hg a with heq | hnone
    · rw [heq]
      cases f a with
      | none => exact ih
      | some b => exact Nat.succ_le_succ ih
    · rw [hnone]
      cases f a with
      | none => exact ih
      | some b => exact Nat.le_succ_of_le ih

/-- Leaving out results leaves the list of all results as it is exactly if there was none among
them. -/
theorem filterMap_eq_filterMap_iff {α β : Type} {f g : α → Option β}
    (hg : ∀ a, g a = f a ∨ g a = none) (l : List α) :
    l.filterMap f = l.filterMap g ↔ ∀ a ∈ l, g a = f a := by
  constructor
  · intro h
    induction l with
    | nil => exact fun a ha => absurd ha List.not_mem_nil
    | cons a l ih =>
      rw [List.filterMap_cons, List.filterMap_cons] at h
      rcases hg a with heq | hnone
      · refine List.forall_mem_cons.mpr ⟨heq, ih ?_⟩
        rw [heq] at h
        cases hf : f a with
        | none => simpa only [hf] using h
        | some b => simpa only [hf, List.cons.injEq, true_and] using h
      · rw [hnone] at h
        cases hf : f a with
        | none =>
          rw [hf] at h
          exact List.forall_mem_cons.mpr ⟨hnone.trans hf.symm, ih h⟩
        | some b =>
          -- one entry more on the left than there can be on the right
          rw [hf] at h
          have hmore := congrArg List.length h
          have hlength := length_filterMap_le hg l
          simp only [List.length_cons] at hmore
          omega
  · intro h
    exact (List.filterMap_congr h).symm

/-- It leaves the first result as it is exactly if that was not among them, or is the first one
again. -/
theorem findSome?_eq_findSome?_iff {α β : Type} {f g : α → Option β}
    (hg : ∀ a, g a = f a ∨ g a = none) (l : List α) : l.findSome? f = l.findSome? g ↔
      ∀ a b, (l.find? fun a => (f a).isSome) = some a → f a = some b → g a = none →
        l.findSome? g = some b := by
  induction l with
  | nil => simp
  | cons a l ih =>
    rw [List.findSome?_cons, List.findSome?_cons, List.find?_cons]
    cases hf : f a with
    | none =>
      have hnone : g a = none := by
        -- the first result is here: either it stays, or another one has to come to the same
        rcases hg a with heq | hnone
        · exact heq.trans hf
        · exact hnone
      rw [hnone]
      exact ih
    | some b =>
      simp only [Option.isSome_some, Option.some.injEq]
      rcases hg a with heq | hnone
      · rw [heq, hf]
        constructor
        · rintro - a' b' rfl - hnone
          rw [heq, hf] at hnone
          cases hnone
        · exact fun _ => rfl
      · rw [hnone]
        constructor
        · rintro hsame a' b' rfl hf' -
          rw [hf] at hf'
          rw [← hsame, hf']
        · intro h
          exact (h a b rfl hf hnone).symm

/-! ## Children as parts of a class -/

/-- Constructors are told by their detail. -/
theorem Declaration.isConstructor_of_detail {d : Declaration} {signatures : List Signature}
    (h : d.detail = .callable .constructor signatures) : d.isConstructor = true := by
  rw [isConstructor, kind, h]
  rfl

/-- Whatever has another detail is none. -/
theorem Declaration.isConstructor_eq_false {d : Declaration}
    (h : ∀ signatures, d.detail ≠ .callable .constructor signatures) :
    d.isConstructor = false := by
  rw [isConstructor, kind]
  cases hdetail : d.detail with
  | callable kind signatures =>
    cases kind with
    | constructor => exact absurd hdetail (h signatures)
    | method => rfl
    | function => rfl
  | _ => rfl

namespace Scope

/-- The entity that a run emits for an item that it comes to. -/
def emitted (scope : Scope) (item : WorkItem) : Option Entity :=
  if item.declaration.isExternal then none else scope.entityOf item

/-- The first function among the entities of the constructors. -/
def firstConstructor (entity : WorkItem → Option Entity) (items : List WorkItem) :
    Option Function :=
  (items.filter (·.declaration.isConstructor)).findSome? fun item =>
    (entity item).bind Entity.function?

/-- The constructor that it comes from. -/
def firstDocumented (entity : WorkItem → Option Entity) (items : List WorkItem) : Option WorkItem :=
  (items.filter (·.declaration.isConstructor)).find? fun item =>
    ((entity item).bind Entity.function?).isSome

/-- The functions and attributes among the entities of everything but the constructors, in their
order. -/
def membersAmong (entity : WorkItem → Option Entity) (items : List WorkItem) : List ClassMember :=
  (items.filter fun item => !item.declaration.isConstructor).filterMap fun item =>
    (entity item).bind Entity.member?

section

variable {entity : WorkItem → Option Entity} {item : WorkItem} {items : List WorkItem}

/-- A constructor in front is the first one, if it has a function. -/
theorem firstConstructor_cons (h : item.declaration.isConstructor = true) :
    firstConstructor entity (item :: items)
      = ((entity item).bind Entity.function?).or (firstConstructor entity items) := by
  rw [firstConstructor, List.filter_cons_of_pos (by exact h), List.findSome?_cons]
  cases (entity item).bind Entity.function? <;> rfl

/-- Anything else in front does not count for the constructor. -/
theorem firstConstructor_cons_of_member (h : item.declaration.isConstructor = false) :
    firstConstructor entity (item :: items) = firstConstructor entity items := by
  rw [firstConstructor, List.filter_cons_of_neg (by simp [h]), firstConstructor]

/-- A child in front that is no constructor is the first member, if it is one at all. -/
theorem membersAmong_cons (h : item.declaration.isConstructor = false) :
    membersAmong entity (item :: items)
      = ((entity item).bind Entity.member?).toList ++ membersAmong entity items := by
  rw [membersAmong, List.filter_cons_of_pos (by simp [h]), List.filterMap_cons]
  cases (entity item).bind Entity.member? <;> rfl

/-- A constructor is no member. -/
theorem membersAmong_cons_of_constructor (h : item.declaration.isConstructor = true) :
    membersAmong entity (item :: items) = membersAmong entity items := by
  rw [membersAmong, List.filter_cons_of_neg (by simp [h]), membersAmong]

end

/-! ## What a class takes from its children -/

variable {scope : Scope}

/-- A constructor's entity is the function that its signatures are documented as. -/
theorem entityOf_constructor {d : Declaration} {signatures : List Signature}
    (h : d.detail = .callable .constructor signatures) (typeParameters : List TypeParameter) :
    (scope.entityOf ⟨d, typeParameters⟩).bind Entity.function?
      = (scope.callable ⟨d.header.sources, typeParameters, none⟩ signatures).value := by
  obtain ⟨header, children, detail⟩ := d
  cases h
  have hgives :
      Gives (scope.convert typeParameters ⟨header, children, .callable .constructor signatures⟩)
        ((scope.callable ⟨header.sources, typeParameters, none⟩ signatures).value.map
          Entity.function) :=
    gives_convert_callable.mpr rfl
  rw [entityOf_eq hgives]
  cases (scope.callable ⟨header.sources, typeParameters, none⟩ signatures).value <;> rfl

/-- **The constructor of a class is the first function of its constructors, and its members are the
functions and attributes of its other children.** -/
theorem gives_classMembers {className : String} {typeParameters : List TypeParameter}
    {ds : List Declaration} {constructor found : Option Function} {members : List ClassMember}
    (h : Gives (scope.classMembers className typeParameters constructor ds) (found, members)) :
    found = constructor.or (firstConstructor scope.entityOf (ds.map (⟨·, typeParameters⟩)))
      ∧ members = membersAmong scope.entityOf (ds.map WorkItem.of) := by
  induction ds generalizing constructor found members with
  | nil =>
    rw [classMembers, Attempt.gives_pure] at h
    cases h
    exact ⟨(Option.or_none).symm, rfl⟩
  | cons d ds ih =>
    rw [classMembers] at h
    rw [List.map_cons, List.map_cons]
    -- what a child is decides what is asked of it
    split at h
    · rename_i signatures hdetail
      have hd : d.isConstructor = true := Declaration.isConstructor_of_detail hdetail
      rw [firstConstructor_cons hd, membersAmong_cons_of_constructor (by exact hd),
        entityOf_constructor hdetail]
      -- a constructor that was found before stays, and else this one is the first that can count
      split at h
      · rename_i hsome
        obtain ⟨first, rfl⟩ := Option.isSome_iff_exists.mp hsome
        simp only [Attempt.gives_bind] at h
        obtain ⟨-, -, h⟩ := h
        exact ih h
      · rename_i hnone
        rw [Option.not_isSome_iff_eq_none.mp hnone, Option.none_or]
        simp only [Attempt.gives_bind, Attempt.gives_liftM, exists_eq_left'] at h
        exact ih h
    · rename_i hdetail
      have hd : d.isConstructor = false := Declaration.isConstructor_eq_false hdetail
      rw [firstConstructor_cons_of_member hd, membersAmong_cons (by exact hd)]
      simp only [Attempt.gives_bind] at h
      obtain ⟨entity, hentity, h⟩ := h
      rw [show scope.entityOf (.of d) = entity from entityOf_eq hentity]
      split at h
      · exact ih h
      · simp only [Attempt.gives_bind, Attempt.gives_pure] at h
        obtain ⟨⟨found', members'⟩, hrest, heq⟩ := h
        cases heq
        obtain ⟨hfound, hmembers⟩ := ih hrest
        exact ⟨hfound, congrArg _ hmembers⟩
      · simp only [Attempt.gives_bind, Attempt.gives_pure] at h
        obtain ⟨⟨found', members'⟩, hrest, heq⟩ := h
        cases heq
        obtain ⟨hfound, hmembers⟩ := ih hrest
        exact ⟨hfound, congrArg _ hmembers⟩
      · rename_i other hfunction hattribute
        simp only [Attempt.gives_bind] at h
        obtain ⟨-, -, h⟩ := h
        have hnone : other.member? = none := by
          unfold Entity.member?
          split
          · exact absurd rfl (hfunction _)
          · exact absurd rfl (hattribute _)
          · rfl
        rw [Option.bind_some, hnone]
        exact ih h

/-- Only a class declaration is converted to a class, and it is made of what `classMembers`
finds. -/
theorem class_of_convert {inherited : List TypeParameter} {d : Declaration} {c : Class}
    (h : Gives (scope.convert inherited d) (some (.classEntity c))) :
    ∃ extended implemented typeParameters,
      d.detail = .classLike .classDecl extended implemented typeParameters
      ∧ Gives (scope.classMembers d.name typeParameters none d.children)
        (c.constructor, c.members) := by
  -- nothing but a class comes to a class; most declarations come to functions
  have hfunction : ∀ {f : Option Function}, f.map Entity.function ≠ some (.classEntity c) := by
    intro f hf
    cases f <;> cases hf
  obtain ⟨header, children, detail⟩ := d
  cases detail with
  | classLike kind extended implemented typeParameters =>
    rw [convert] at h
    simp only [Attempt.gives_bind] at h
    obtain ⟨⟨constructor, members⟩, hmembers, h⟩ := h
    cases kind with
    | classDecl =>
      refine ⟨extended, implemented, typeParameters, rfl, ?_⟩
      obtain ⟨e, he, heq⟩ := Attempt.gives_map.mp h
      cases heq
      rw [classEntity] at he
      simp only [Attempt.gives_bind, Attempt.gives_liftM, Attempt.gives_pure] at he
      obtain ⟨_, _, _, _, _, _, _, _, heq⟩ := he
      cases heq
      exact hmembers
    | interface =>
      simp [interfaceEntity] at h
  | accessor getter setter =>
    rw [convert, accessor] at h
    split at h
    · simp at h
    · simp at h
  | callable kind signatures =>
    exact absurd (gives_convert_callable.mp h) hfunction
  | member kind type =>
    rw [convert, Attempt.gives_liftM, member] at h
    split at h
    · exact absurd h hfunction
    · cases h
  | typeLiteral variant signatures indexer =>
    exact absurd (gives_convert_typeLiteral.mp h) hfunction
  | scope kind =>
    rw [convert] at h
    simp at h

/-- What is converted after a class are its children, the constructors first. -/
theorem followUps_of_class {d : Declaration} {extended implemented : List TypeExpr}
    {typeParameters : List TypeParameter}
    (h : d.detail = .classLike .classDecl extended implemented typeParameters) :
    d.followUps.map WorkItem.declaration
      = d.children.filter (·.isConstructor)
        ++ d.children.filter fun child => !child.isConstructor := by
  rw [Declaration.followUps, h]
  simp only [List.map_append, List.map_map, Function.comp_def, WorkItem.of, List.map_id_fun', id_eq]

/-- The constructors come with the type parameters of the class. -/
theorem firstConstructor_followUps {entity : WorkItem → Option Entity} {d : Declaration}
    {extended implemented : List TypeExpr} {typeParameters : List TypeParameter}
    (h : d.detail = .classLike .classDecl extended implemented typeParameters) :
    firstConstructor entity d.followUps
      = firstConstructor entity (d.children.map (⟨·, typeParameters⟩)) := by
  have hnone : d.children.filter (fun child => child.isConstructor && !child.isConstructor) = [] :=
    List.filter_eq_nil_iff.mpr (by simp)
  rw [Declaration.followUps, h]
  simp only [firstConstructor, List.filter_append, List.filter_map, Function.comp_def, WorkItem.of,
    List.filter_filter, hnone, Bool.and_self, List.map_nil, List.append_nil]

/-- The other children inherit nothing. -/
theorem membersAmong_followUps {entity : WorkItem → Option Entity} {d : Declaration}
    {extended implemented : List TypeExpr} {typeParameters : List TypeParameter}
    (h : d.detail = .classLike .classDecl extended implemented typeParameters) :
    membersAmong entity d.followUps = membersAmong entity (d.children.map WorkItem.of) := by
  have hnone : d.children.filter (fun child => !child.isConstructor && child.isConstructor) = [] :=
    List.filter_eq_nil_iff.mpr (by simp)
  rw [Declaration.followUps, h]
  simp only [membersAmong, List.filter_append, List.filter_map, Function.comp_def, WorkItem.of,
    List.filter_filter, hnone, Bool.and_self, List.map_nil, List.nil_append]

/-- **A class is made of the entities of what is converted after it.** -/
theorem class_eq_followUps {inherited : List TypeParameter} {d : Declaration} {c : Class}
    (h : Gives (scope.convert inherited d) (some (.classEntity c))) :
    (d.followUps.map WorkItem.declaration
        = d.children.filter (·.isConstructor)
          ++ d.children.filter fun child => !child.isConstructor)
      ∧ c.constructor = firstConstructor scope.entityOf d.followUps
      ∧ c.members = membersAmong scope.entityOf d.followUps := by
  obtain ⟨extended, implemented, typeParameters, hdetail, hmembers⟩ := class_of_convert h
  rw [firstConstructor_followUps hdetail, membersAmong_followUps hdetail]
  exact ⟨followUps_of_class hdetail, gives_classMembers hmembers⟩

/-! ## Agreement -/

/-- What a run emits for an item is its entity, or nothing. -/
theorem emitted_bind {β : Type} (part : Entity → Option β) (item : WorkItem) :
    (scope.emitted item).bind part = (scope.entityOf item).bind part
      ∨ (scope.emitted item).bind part = none := by
  rw [emitted]
  split
  · exact Or.inr rfl
  · exact Or.inl rfl

/-- A run passes over what was declared outside the analyzed tree. -/
theorem emitted_external {item : WorkItem} (h : item.declaration.isExternal = true) :
    scope.emitted item = none := by
  rw [emitted, if_pos h]

/-- It emits the entity of everything else. -/
theorem emitted_internal {item : WorkItem} (h : item.declaration.isExternal = false) :
    scope.emitted item = scope.entityOf item := by
  rw [emitted, h, if_neg Bool.false_ne_true]

/-- The members are those that a run emits exactly if nothing outside the analyzed tree is a
member. -/
theorem membersAmong_emitted_iff (items : List WorkItem) :
    membersAmong scope.entityOf items = membersAmong scope.emitted items ↔
      ∀ item ∈ items, item.declaration.isExternal = true → item.declaration.isConstructor = false →
        (scope.entityOf item).bind Entity.member? = none := by
  rw [membersAmong, membersAmong, filterMap_eq_filterMap_iff (emitted_bind Entity.member?)]
  constructor
  · intro h item hitem hexternal hmember
    rw [← h item (List.mem_filter.mpr ⟨hitem, by simp [hmember]⟩), emitted_external hexternal,
      Option.bind_none]
  · intro h item hitem
    obtain ⟨hitem, hmember⟩ := List.mem_filter.mp hitem
    by_cases hexternal : item.declaration.isExternal = true
    · rw [emitted_external hexternal, h item hitem hexternal (by simpa using hmember),
        Option.bind_none]
    · rw [emitted_internal (Bool.eq_false_iff.mpr hexternal)]

/-- The first constructor is the one that a run emits first exactly if it does not come from outside
the analyzed tree, or if the one that is emitted first gives the same function. -/
theorem firstConstructor_emitted_iff (items : List WorkItem) :
    firstConstructor scope.entityOf items = firstConstructor scope.emitted items ↔
      ∀ item f, firstDocumented scope.entityOf items = some item →
        item.declaration.isExternal = true →
        (scope.entityOf item).bind Entity.function? = some f →
          firstConstructor scope.emitted items = some f := by
  rw [firstConstructor, firstConstructor,
    findSome?_eq_findSome?_iff (emitted_bind Entity.function?)]
  constructor
  · intro h item f hfirst hexternal hf
    exact h item f hfirst hf (by rw [emitted_external hexternal, Option.bind_none])
  · intro h item f hfirst hf hnone
    refine h item f hfirst ?_ hf
    by_contra hinternal
    rw [emitted_internal (Bool.eq_false_iff.mpr hinternal), hf] at hnone
    cases hnone

end Scope

/-- For what a run comes to after a class, `emitted` is what the run emits. -/
theorem Project.emitted_eq_some_iff {p : Project} {config : Config} {index : Index}
    {entities : List Entity} (h : Gives (p.convert config) (index, entities)) {k item : WorkItem}
    (hk : k ∈ WorkItem.converted ((p.placed config.baseDir).children.map WorkItem.of))
    (hitem : item ∈ k.declaration.followUps) {e : Entity} :
    Scope.emitted ⟨index, config⟩ item = some e ↔
      item ∈ WorkItem.converted ((p.placed config.baseDir).children.map WorkItem.of)
        ∧ Gives (Scope.convert ⟨index, config⟩ item.inherited item.declaration) (some e) := by
  -- what the run comes to is what it converts, and its children are reached through it
  obtain ⟨-, hitems⟩ := Project.gives_convert_iff.mp h
  obtain ⟨hgives, -⟩ := Scope.gives_convertItems_iff.mp hitems
  constructor
  · intro hemitted
    by_cases hexternal : item.declaration.isExternal = true
    · rw [Scope.emitted_external hexternal] at hemitted
      cases hemitted
    · have hin : item.declaration.isExternal = false := Bool.eq_false_iff.mpr hexternal
      have hmem := WorkItem.mem_converted_of_followUps hk hitem hin
      rw [Scope.emitted_internal hin] at hemitted
      exact ⟨hmem, hemitted ▸ hgives item hmem⟩
  · rintro ⟨hmem, hconvert⟩
    rw [Scope.emitted_internal (WorkItem.isExternal_of_mem_converted hmem)]
    exact Scope.entityOf_eq hconvert

/-- **When a class agrees with the entities of its children.** What a run comes to after a class are
its children, and it emits for them what `emitted` says. The constructor and the members of the
class are the first function and the functions and attributes that are emitted, exactly if no child
from outside the analyzed tree is a member, and its first constructor does not come from there or
has the same function as the first one that is emitted. -/
theorem class_agrees_iff {p : Project} {config : Config} {index : Index} {entities : List Entity}
    (h : Gives (p.convert config) (index, entities)) {k : WorkItem}
    (hk : k ∈ WorkItem.converted ((p.placed config.baseDir).children.map WorkItem.of)) {c : Class}
    (hc : Gives (Scope.convert ⟨index, config⟩ k.inherited k.declaration) (some (.classEntity c))) :
    (k.declaration.followUps.map WorkItem.declaration
        = k.declaration.children.filter (·.isConstructor)
          ++ k.declaration.children.filter fun child => !child.isConstructor)
    ∧ (∀ item ∈ k.declaration.followUps, ∀ e, Scope.emitted ⟨index, config⟩ item = some e ↔
      item ∈ WorkItem.converted ((p.placed config.baseDir).children.map WorkItem.of)
        ∧ Gives (Scope.convert ⟨index, config⟩ item.inherited item.declaration) (some e))
    ∧ ((c.constructor
          = Scope.firstConstructor (Scope.emitted ⟨index, config⟩) k.declaration.followUps
        ∧ c.members = Scope.membersAmong (Scope.emitted ⟨index, config⟩) k.declaration.followUps) ↔
      (∀ item ∈ k.declaration.followUps, item.declaration.isExternal = true →
        item.declaration.isConstructor = false →
        (Scope.entityOf ⟨index, config⟩ item).bind Entity.member? = none)
      ∧ ∀ item f,
        Scope.firstDocumented (Scope.entityOf ⟨index, config⟩) k.declaration.followUps = some item →
          item.declaration.isExternal = true →
          (Scope.entityOf ⟨index, config⟩ item).bind Entity.function? = some f →
          Scope.firstConstructor (Scope.emitted ⟨index, config⟩) k.declaration.followUps
            = some f) := by
  obtain ⟨hchildren, hconstructor, hmembers⟩ := Scope.class_eq_followUps hc
  refine ⟨hchildren, fun item hitem e => p.emitted_eq_some_iff h hk hitem, ?_⟩
  rw [hconstructor, hmembers, Scope.firstConstructor_emitted_iff, Scope.membersAmong_emitted_iff]
  exact and_comm

/-- A project with one class `C`, which has the given children. -/
def classWith (children : List Declaration) : Project where
  children :=
    [⟨{ id := some 1, name := "C", sources := [⟨"c.ts", 1⟩] }, children,
      .classLike .classDecl [] [] []⟩]

/-- A property `f` that is declared in the given file. -/
def propertyIn (file : String) : Declaration :=
  ⟨{ id := some 2, name := "f", sources := [⟨file, 7⟩] }, [],
    .member .property ⟨.intrinsic "number", []⟩⟩

/-- A property, a constructor behind it, and a class from outside the tree. -/
def mixedChildren : List Declaration :=
  [propertyIn "c.ts",
    ⟨{ id := some 3, name := "constructor" }, [],
      .callable .constructor
        [⟨some 4, .constructor, "C", [], {}, {}, [], [], none, none, default, {}⟩]⟩,
    ⟨{ id := some 5, name := "Base", sources := [⟨"/usr/lib/base.d.ts", 1⟩] }, [],
      .classLike .classDecl [] [] []⟩]

/-- A class is told by its kind. -/
theorem Entity.exists_class_of_kind {e : Entity} (h : e.kind = "class") :
    ∃ c, e = .classEntity c := by
  unfold Entity.kind at h
  split at h
  · exact absurd h (by decide)
  · exact ⟨_, rfl⟩
  · exact absurd h (by decide)
  · exact absurd h (by decide)

/-- A class from outside the tree is no member, so a class that contains it agrees with its
children. -/
theorem class_agrees_of_mixedChildren :
    ∃ index entities, ∃ k : WorkItem, ∃ c,
      Gives ((classWith mixedChildren).convert {}) (index, entities)
      ∧ Gives (Scope.convert ⟨index, {}⟩ k.inherited k.declaration) (some (.classEntity c))
      ∧ c.constructor = Scope.firstConstructor (Scope.emitted ⟨index, {}⟩) k.declaration.followUps
      ∧ c.members = Scope.membersAmong (Scope.emitted ⟨index, {}⟩) k.declaration.followUps := by
  obtain ⟨⟨index, entities⟩, h, -⟩ :=
    Attempt.exists_gives_of_map (x := (classWith mixedChildren).convert {}) (fun _ => ()) (b := ())
      (by decide +kernel)
  obtain ⟨hindex, hitems⟩ := Project.gives_convert_iff.mp h
  obtain ⟨hgives, -⟩ := Scope.gives_convertItems_iff.mp hitems
  let scope : Scope := ⟨((classWith mixedChildren).index ".").value, {}⟩
  -- all that the theorem asks for can be computed, for each item of the run
  have hrun :
      (WorkItem.converted (((classWith mixedChildren).placed ".").children.map WorkItem.of)).map
        (fun k => ((scope.entityOf k).map Entity.kind,
          decide (∀ item ∈ k.declaration.followUps, item.declaration.isExternal = true →
            item.declaration.isConstructor = false →
              (scope.entityOf item).bind Entity.member? = none),
          (Scope.firstDocumented scope.entityOf k.declaration.followUps).map
            (·.declaration.isExternal)))
      = [(some "class", true, some false), (some "function", true, none),
        (some "attribute", true, none)] := by
    decide +kernel
  obtain ⟨k, hk, hfacts⟩ := List.mem_map.mp (hrun ▸ List.mem_cons_self)
  simp only [Prod.mk.injEq, decide_eq_true_eq, Option.map_eq_some_iff] at hfacts
  obtain ⟨⟨e, he, hkind⟩, hmembers, first, hfirst, hinternal⟩ := hfacts
  obtain ⟨c, rfl⟩ := Entity.exists_class_of_kind hkind
  have hc := hgives k hk
  subst hindex
  rw [show Scope.entityOf _ k = _ from he] at hc
  obtain ⟨-, -, hagrees⟩ := class_agrees_iff h hk hc
  refine ⟨_, entities, k, c, h, hc, hagrees.mpr ⟨hmembers, ?_⟩⟩
  intro item f hitem hexternal
  obtain rfl : item = first := Option.some.inj (hitem.symm.trans hfirst)
  rw [hinternal] at hexternal
  cases hexternal

/-- A property from outside the tree: a run emits nothing for it, but the class has it as a
member. -/
theorem class_disagrees_of_external_property :
    ∃ index c,
      Gives ((classWith [propertyIn "/usr/lib/base.d.ts"]).convert {}) (index, [.classEntity c])
      ∧ c.members.map (·.top.path) = [["./", "c.", "C#", "f"]] := by
  obtain ⟨⟨index, entities⟩, h, hfacts⟩ := Attempt.exists_gives_of_map
    (x := (classWith [propertyIn "/usr/lib/base.d.ts"]).convert {})
    (fun result => result.2.map fun e => (e.kind, e.members.map (·.top.path)))
    (b := [("class", [["./", "c.", "C#", "f"]])]) (by decide +kernel)
  obtain ⟨e, hentities, hfacts⟩ := List.map_eq_singleton_iff.mp hfacts
  obtain ⟨hkind, hmembers⟩ := Prod.mk.inj hfacts
  obtain ⟨c, rfl⟩ := Entity.exists_class_of_kind hkind
  exact ⟨index, c, hentities ▸ h, hmembers⟩

end DocAtlas
