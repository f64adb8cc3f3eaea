import DocAtlas.Conversion.Declaration
import DocAtlas.Index.Fill

/-!
Converting a whole project.

The declarations that are still to be converted are kept on a list. Each one is replaced by what it
leads to, so an entity comes before the entities from below it, and they come in the order of the
document; only the constructors of a class come before its other members.
-/

set_option autoImplicit false

namespace DocAtlas

/-- A declaration to convert, with the type parameters of its owner for a callable that has none. -/
structure WorkItem where
  declaration : Declaration
  inherited : List TypeParameter

/-- A declaration that inherits nothing. -/
def WorkItem.of (d : Declaration) : WorkItem := ⟨d, []⟩

/-- What is to be converted after a declaration. What a callable or a callable member contains is
part of its type, and an accessor without a type is dropped with all it contains. -/
def Declaration.followUps (d : Declaration) : List WorkItem :=
  match d.detail with
  | .classLike .classDecl _ _ typeParameters =>
    (d.children.filter (·.isConstructor)).map (⟨·, typeParameters⟩)
      ++ (d.children.filter fun child => !child.isConstructor).map WorkItem.of
  | .classLike .interface _ _ _ => d.children.map WorkItem.of
  | .accessor getter setter =>
    if (accessorType getter setter).isSome then d.children.map WorkItem.of else []
  | .callable _ _ => []
  | .member _ type => if (callableLiteral type).isSome then [] else d.children.map WorkItem.of
  | .typeLiteral _ _ _ => []
  | .scope _ => d.children.map WorkItem.of

/-! ## The list gets smaller -/

namespace WorkItem

/-- The size of the declarations on a list. -/
noncomputable def totalWeight (items : List WorkItem) : Nat :=
  items.foldr (fun item total => sizeOf item.declaration + total) 0

@[simp] theorem totalWeight_nil : totalWeight [] = 0 := rfl

@[simp] theorem totalWeight_cons (item : WorkItem) (items : List WorkItem) :
    totalWeight (item :: items) = sizeOf item.declaration + totalWeight items := rfl

@[simp] theorem totalWeight_append (a b : List WorkItem) :
    totalWeight (a ++ b) = totalWeight a + totalWeight b := by
  induction a with
  | nil => rw [List.nil_append, totalWeight_nil, Nat.zero_add]
  | cons item a ih => rw [List.cons_append, totalWeight_cons, totalWeight_cons, ih, Nat.add_assoc]

/-- Items made from declarations weigh less than the list of them. -/
theorem totalWeight_map_lt (f : Declaration → WorkItem) (hf : ∀ d, (f d).declaration = d)
    (ds : List Declaration) : totalWeight (ds.map f) < sizeOf ds := by
  induction ds with
  | nil => simp
  | cons d ds ih => simp only [List.map_cons, totalWeight_cons, hf, List.cons.sizeOf_spec]; omega

/-- Taking some declarations first and the others afterwards changes nothing in size. -/
theorem totalWeight_partition_lt (f g : Declaration → WorkItem) (hf : ∀ d, (f d).declaration = d)
    (hg : ∀ d, (g d).declaration = d) (p : Declaration → Bool) (ds : List Declaration) :
    totalWeight ((ds.filter p).map f ++ (ds.filter fun d => !p d).map g) < sizeOf ds := by
  induction ds with
  | nil => simp
  | cons d ds ih =>
    rw [totalWeight_append] at ih ⊢
    cases h : p d <;> simp [h, hf, hg] <;> omega

/-- What comes after a declaration is smaller than the declaration. -/
theorem totalWeight_followUps_lt (d : Declaration) : totalWeight d.followUps < sizeOf d := by
  obtain ⟨header, children, detail⟩ := d
  have h := totalWeight_map_lt WorkItem.of (fun _ => rfl) children
  rw [Declaration.mk.sizeOf_spec]
  cases detail with
  | classLike kind extended implemented typeParameters =>
    cases kind with
    | classDecl =>
      have h' := totalWeight_partition_lt (⟨·, typeParameters⟩) WorkItem.of (fun _ => rfl)
        (fun _ => rfl) (·.isConstructor) children
      simp only [Declaration.followUps]
      omega
    | interface => simp only [Declaration.followUps]; omega
  | accessor getter setter =>
    simp only [Declaration.followUps]
    split
    · omega
    · simp only [totalWeight_nil]; omega
  | callable kind signatures => simp only [Declaration.followUps, totalWeight_nil]; omega
  | member kind type =>
    simp only [Declaration.followUps]
    split
    · simp only [totalWeight_nil]; omega
    · omega
  | typeLiteral variant signatures indexer =>
    simp only [Declaration.followUps, totalWeight_nil]; omega
  | scope kind => simp only [Declaration.followUps]; omega

end WorkItem

/-! ## Conversion -/

namespace Scope

/-- The entities of the declarations on a list and of all they lead to. What is declared outside the
analyzed tree is left out, with everything below it. -/
def convertItems (scope : Scope) (items : List WorkItem) : Attempt (List Entity) :=
  match items with
  | [] => pure []
  | item :: rest =>
    if item.declaration.isExternal then do
      Attempt.log (.externalSkipped item.declaration.name)
      scope.convertItems rest
    else do
      let entity ← scope.convert item.inherited item.declaration
      let entities ← scope.convertItems (item.declaration.followUps ++ rest)
      pure (entity.toList ++ entities)
termination_by WorkItem.totalWeight items
decreasing_by
  · have : 0 < sizeOf item.declaration := by
      cases item.declaration
      rw [Declaration.mk.sizeOf_spec]
      omega
    simp only [WorkItem.totalWeight_cons]
    omega
  · have := WorkItem.totalWeight_followUps_lt item.declaration
    simp only [WorkItem.totalWeight_cons, WorkItem.totalWeight_append]
    omega

/-- The entities of a project whose places are filled in. -/
def convertProject (scope : Scope) (p : Project) : Attempt (List Entity) := do
  let entities ← scope.convertItems (p.children.map WorkItem.of)
  Attempt.log (.conversionFinished entities.length)
  pure entities

end Scope

/-- Indexes a project and converts it. -/
def Project.convert (p : Project) (config : Config) : Attempt (Index × List Entity) := do
  let (placed, index) ← p.populate config.baseDir
  let entities ← Scope.convertProject ⟨index, config⟩ placed
  pure (index, entities)

end DocAtlas
