import DocAtlas.Conversion.Worklist
import DocAtlas.Proofs.Attempt
import DocAtlas.Proofs.Placement

/-!
What a conversion run converts, and what comes out of it.

The list of pending declarations is gone from the statements here. Which items a run converts, and
in which order, does not depend on what they are converted to: it is `converted`, and appending
pending items appends what is converted (`converted_append`). A run gives the entities of the
converted items, in that order, or else the failure of the first item that cannot be converted
(`result_convertItems`), and every converted item stands in the tree that was indexed
(`reaches_of_converted`).
-/

set_option autoImplicit false

namespace DocAtlas

open Attempt (Gives)

/-! ## The converted items -/

/-- The items that a run converts, from the pending ones on: all that were declared in the analyzed
tree, each of them before what it leads to. -/
def WorkItem.converted (items : List WorkItem) : List WorkItem :=
  match items with
  | [] => []
  | item :: rest =>
    if item.declaration.isExternal then converted rest
    else item :: converted (item.declaration.followUps ++ rest)
termination_by WorkItem.totalWeight items
decreasing_by
  · have : 0 < sizeOf item.declaration := by
      cases item.declaration
      rw [Declaration.mk.sizeOf_spec]
      omega
    simp only [WorkItem.totalWeight_cons]
    omega
  · have := WorkItem.totalWeight_followUps_lt item.declaration
    simp only [WorkItem.totalWeight_cons, WorkItem.totalWeight_append]
    omega

namespace WorkItem

@[simp] theorem converted_nil : converted [] = [] := by
  rw [converted]

/-- What was declared outside is passed over. -/
theorem converted_external {item : WorkItem} (h : item.declaration.isExternal = true)
    (rest : List WorkItem) :
    converted (item :: rest) = converted rest := by
  rw [converted, if_pos h]

/-- Everything else is converted, and what it leads to comes next. -/
theorem converted_internal {item : WorkItem} (h : item.declaration.isExternal = false)
    (rest : List WorkItem) :
    converted (item :: rest) = item :: converted (item.declaration.followUps ++ rest) := by
  rw [converted, h, if_neg Bool.false_ne_true]

/-- Pending items are converted one after the other. -/
theorem converted_append (a b : List WorkItem) :
    converted (a ++ b) = converted a ++ converted b := by
  induction a using converted.induct with
  | case1 => rw [converted_nil, List.nil_append, List.nil_append]
  | case2 item rest h ih => rw [List.cons_append, converted_external h, converted_external h, ih]
  | case3 item rest h ih =>
    have hin : item.declaration.isExternal = false := Bool.eq_false_iff.mpr h
    rw [List.cons_append, converted_internal hin, converted_internal hin, List.cons_append,
      ← List.append_assoc, ih]

/-- What is converted after a declaration is among its children. -/
theorem mem_children_of_followUps {d : Declaration} {item : WorkItem} (h : item ∈ d.followUps) :
    item.declaration ∈ d.children := by
  have hof : item ∈ d.children.map WorkItem.of → item.declaration ∈ d.children := by
    intro hmem
    obtain ⟨child, hchild, rfl⟩ := List.mem_map.mp hmem
    exact hchild
  rw [Declaration.followUps] at h
  split at h
  · -- a class, whose constructors come first and its other members afterwards
    rcases List.mem_append.mp h with h | h
    · obtain ⟨child, hchild, rfl⟩ := List.mem_map.mp h
      exact (List.mem_filter.mp hchild).1
    · obtain ⟨child, hchild, rfl⟩ := List.mem_map.mp h
      exact (List.mem_filter.mp hchild).1
  · exact hof h
  · split at h
    · exact hof h
    · exact absurd h List.not_mem_nil
  · exact absurd h List.not_mem_nil
  · split at h
    · exact absurd h List.not_mem_nil
    · exact hof h
  · exact absurd h List.not_mem_nil
  · exact hof h

/-- A property of declarations that goes from a declaration to its children holds of all converted
items if it holds of the pending ones. -/
theorem forall_converted {P : Declaration → Prop} (step : ∀ d, P d → ∀ child ∈ d.children, P child)
    {items : List WorkItem} (h : ∀ item ∈ items, P item.declaration) :
    ∀ item ∈ converted items, P item.declaration := by
  induction items using converted.induct with
  | case1 =>
    rw [converted_nil]
    exact h
  | case2 item rest hex ih =>
    rw [converted_external hex]
    exact ih fun other hother => h other (List.mem_cons_of_mem _ hother)
  | case3 item rest hex ih =>
    have hitem := h item List.mem_cons_self
    rw [converted_internal (Bool.eq_false_iff.mpr hex)]
    refine List.forall_mem_cons.mpr ⟨hitem, ih ?_⟩
    intro other hother
    rcases List.mem_append.mp hother with hother | hother
    · exact step _ hitem _ (mem_children_of_followUps hother)
    · exact h other (List.mem_cons_of_mem _ hother)

/-- No converted item was declared outside the analyzed tree. -/
theorem isExternal_of_mem_converted {items : List WorkItem} {item : WorkItem}
    (h : item ∈ converted items) :
    item.declaration.isExternal = false := by
  induction items using converted.induct with
  | case1 =>
    rw [converted_nil] at h
    exact absurd h List.not_mem_nil
  | case2 first rest hex ih =>
    rw [converted_external hex] at h
    exact ih h
  | case3 first rest hex ih =>
    have hin : first.declaration.isExternal = false := Bool.eq_false_iff.mpr hex
    rw [converted_internal hin] at h
    rcases List.mem_cons.mp h with rfl | h
    · exact hin
    · exact ih h

/-- A pending item is converted if it was declared in the analyzed tree. -/
theorem mem_converted {items : List WorkItem} {item : WorkItem} (h : item ∈ items)
    (hin : item.declaration.isExternal = false) : item ∈ converted items := by
  obtain ⟨before, after, rfl⟩ := List.append_of_mem h
  rw [converted_append, converted_internal hin]
  exact List.mem_append_right _ List.mem_cons_self

/-- So is what a converted item leads to. -/
theorem mem_converted_of_followUps {items : List WorkItem} {k item : WorkItem}
    (hk : k ∈ converted items) (h : item ∈ k.declaration.followUps)
    (hin : item.declaration.isExternal = false) : item ∈ converted items := by
  induction items using converted.induct with
  | case1 =>
    rw [converted_nil] at hk
    exact absurd hk List.not_mem_nil
  | case2 first rest hex ih =>
    rw [converted_external hex] at hk ⊢
    exact ih hk
  | case3 first rest hex ih =>
    rw [converted_internal (Bool.eq_false_iff.mpr hex)] at hk ⊢
    refine List.mem_cons_of_mem _ ?_
    rcases List.mem_cons.mp hk with rfl | hk
    · -- what it leads to is pending when it has been converted
      exact mem_converted (List.mem_append_left _ h) hin
    · exact ih hk

/-- **Every converted item stands in the tree.** -/
theorem reaches_of_converted {p : Project} {baseDir : String} {item : WorkItem}
    (h : item ∈ converted (p.children.map WorkItem.of)) :
    ∃ around, p.Reaches baseDir around (.declaration item.declaration) := by
  refine forall_converted (P := fun d => ∃ around, p.Reaches baseDir around (.declaration d)) ?_
    ?_ item h
  · rintro d ⟨around, hd⟩ child hchild
    exact ⟨_, .down hd (List.mem_append_left _ (List.mem_map_of_mem hchild))⟩
  · intro pending hpending
    obtain ⟨d, hd, rfl⟩ := List.mem_map.mp hpending
    exact ⟨_, .child hd⟩

end WorkItem

/-! ## The entities -/

namespace Scope

/-- A callable is converted to the function that its signatures are documented as. -/
theorem gives_convert_callable {scope : Scope} {inherited : List TypeParameter} {header : Header}
    {children : List Declaration} {kind : CallableKind} {signatures : List Signature}
    {entity : Option Entity} :
    Gives (scope.convert inherited ⟨header, children, .callable kind signatures⟩) entity ↔
      (scope.callable ⟨header.sources, inherited, none⟩ signatures).value.map Entity.function
        = entity := by
  rw [convert]
  simp only [Attempt.gives_bind, Attempt.gives_liftM, Attempt.gives_pure, exists_eq_left']

/-- So is a type literal. -/
theorem gives_convert_typeLiteral {scope : Scope} {inherited : List TypeParameter} {header : Header}
    {children : List Declaration} {variant : Option String} {signatures : List Signature}
    {indexer : Option Signature} {entity : Option Entity} :
    Gives (scope.convert inherited ⟨header, children, .typeLiteral variant signatures indexer⟩)
      entity ↔
      (scope.callable ⟨header.sources, inherited, none⟩ signatures).value.map Entity.function
        = entity := by
  rw [convert]
  simp only [Attempt.gives_bind, Attempt.gives_liftM, Attempt.gives_pure, exists_eq_left']

/-- The entity that an item is converted to, if its conversion succeeds and gives one. -/
def entityOf (scope : Scope) (item : WorkItem) : Option Entity :=
  match (scope.convert item.inherited item.declaration).outcome.1 with
  | .ok entity => entity
  | .error _ => none

/-- If a conversion succeeds, its entity is that of the item. -/
theorem entityOf_eq {scope : Scope} {item : WorkItem} {entity : Option Entity}
    (h : Gives (scope.convert item.inherited item.declaration) entity) :
    scope.entityOf item = entity := by
  rw [entityOf, show _ = Except.ok entity from h]

/-- Why the conversion of an item fails, if it does. -/
def failureOf (scope : Scope) (item : WorkItem) : Option Failure :=
  match (scope.convert item.inherited item.declaration).outcome.1 with
  | .ok _ => none
  | .error failure => some failure

/-- A conversion does not fail exactly if it gives the entity of the item. -/
theorem failureOf_eq_none_iff {scope : Scope} {item : WorkItem} :
    scope.failureOf item = none
      ↔ Gives (scope.convert item.inherited item.declaration) (scope.entityOf item) := by
  rw [failureOf, Gives, entityOf]
  cases (scope.convert item.inherited item.declaration).outcome.1 with
  | ok entity => simp
  | error failure => simp

/-- **A run gives the entities of the converted items, or the failure of the first one that cannot
be converted.** -/
theorem result_convertItems (scope : Scope) (items : List WorkItem) :
    (scope.convertItems items).outcome.1
      = match (WorkItem.converted items).findSome? scope.failureOf with
      | some failure => .error failure
      | none => .ok ((WorkItem.converted items).filterMap scope.entityOf) := by
  induction items using WorkItem.converted.induct with
  | case1 =>
    rw [convertItems, WorkItem.converted_nil]
    rfl
  | case2 item rest hex ih =>
    rw [convertItems, if_pos hex, WorkItem.converted_external hex, ← ih,
      Attempt.outcome_bind_of_ok _ rfl]
  | case3 item rest hex ih =>
    rw [convertItems, if_neg hex, WorkItem.converted_internal (Bool.eq_false_iff.mpr hex),
      List.findSome?_cons, List.filterMap_cons]
    rcases (scope.convert item.inherited item.declaration).outcome_cases with
      ⟨entity, events, hown⟩ | ⟨failure, events, hown⟩
    · have hfails : scope.failureOf item = none := by rw [failureOf, hown]
      have hentity : scope.entityOf item = entity := by rw [entityOf, hown]
      -- what comes after the item fails or not as the induction hypothesis says
      rw [Attempt.outcome_bind_of_ok _ hown, hfails, hentity, Attempt.result_bind_pure, ih]
      cases (WorkItem.converted (item.declaration.followUps ++ rest)).findSome? scope.failureOf with
      | some failure => rfl
      | none => cases entity <;> rfl
    · have hfails : scope.failureOf item = some failure := by rw [failureOf, hown]
      rw [Attempt.outcome_bind_of_error _ hown, hfails]

/-- A run succeeds exactly if the conversion of each of its items does. -/
theorem gives_convertItems_iff {scope : Scope} {items : List WorkItem} {entities : List Entity} :
    Gives (scope.convertItems items) entities ↔
      (∀ item ∈ WorkItem.converted items,
        Gives (scope.convert item.inherited item.declaration) (scope.entityOf item))
      ∧ entities = (WorkItem.converted items).filterMap scope.entityOf := by
  simp only [← failureOf_eq_none_iff, ← List.findSome?_eq_none_iff]
  rw [Gives, result_convertItems]
  cases (WorkItem.converted items).findSome? scope.failureOf with
  | some failure => simp
  | none => simp [eq_comm]

/-- A project is converted by the run over its children. -/
theorem gives_convertProject_iff {scope : Scope} {p : Project} {entities : List Entity} :
    Gives (scope.convertProject p) entities
      ↔ Gives (scope.convertItems (p.children.map WorkItem.of)) entities := by
  rw [convertProject]
  simp

end Scope

/-- A project is converted against its own index, after its places have been filled in. -/
theorem Project.gives_convert_iff {p : Project} {config : Config} {index : Index}
    {entities : List Entity} :
    Gives (p.convert config) (index, entities) ↔
      index = (p.index config.baseDir).value
      ∧ Gives (Scope.convertItems ⟨index, config⟩
          ((p.placed config.baseDir).children.map WorkItem.of)) entities := by
  rw [Project.convert]
  simp only [Attempt.gives_bind, Attempt.gives_liftM, Attempt.gives_pure,
    Scope.gives_convertProject_iff]
  constructor
  · rintro ⟨⟨placed, found⟩, hpopulate, all, hall, hpair⟩
    cases hpair
    -- populating never fails, and it gives one index
    cases hpopulate
    exact ⟨rfl, hall⟩
  · rintro ⟨rfl, hall⟩
    exact ⟨(p.placed config.baseDir, _), rfl, entities, hall, rfl⟩

/-- Every entity of a conversion is what some converted item was converted to. -/
theorem Project.exists_item_of_convert {p : Project} {config : Config} {index : Index}
    {entities : List Entity} (h : Gives (p.convert config) (index, entities)) {e : Entity}
    (he : e ∈ entities) :
    ∃ item ∈ WorkItem.converted ((p.placed config.baseDir).children.map WorkItem.of),
      Gives (Scope.convert ⟨index, config⟩ item.inherited item.declaration) (some e) := by
  obtain ⟨-, hitems⟩ := Project.gives_convert_iff.mp h
  obtain ⟨hgives, rfl⟩ := Scope.gives_convertItems_iff.mp hitems
  obtain ⟨item, hitem, hentity⟩ := List.mem_filterMap.mp he
  exact ⟨item, hitem, hentity ▸ hgives item hitem⟩

/-- What a converted item was converted to is an entity of the conversion. -/
theorem Project.mem_of_convert {p : Project} {config : Config} {index : Index}
    {entities : List Entity} (h : Gives (p.convert config) (index, entities)) {item : WorkItem}
    (hitem : item ∈ WorkItem.converted ((p.placed config.baseDir).children.map WorkItem.of))
    {e : Entity}
    (he : Gives (Scope.convert ⟨index, config⟩ item.inherited item.declaration) (some e)) :
    e ∈ entities := by
  obtain ⟨-, hitems⟩ := Project.gives_convert_iff.mp h
  obtain ⟨-, rfl⟩ := Scope.gives_convertItems_iff.mp hitems
  exact List.mem_filterMap.mpr ⟨item, hitem, Scope.entityOf_eq he⟩

end DocAtlas
