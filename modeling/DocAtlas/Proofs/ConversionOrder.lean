import DocAtlas.Proofs.Worklist
import Mathlib.Data.List.Basic

/-!
The order of conversion.

`WorkItem.tree` lists what is converted from an item on by recursion: the item, and then the trees
of what comes after it, one after the other. A run converts the trees of the pending items
(`converted_eq_flatMap_tree`), and `Scope.entitiesFrom` says in the same way which entities come out
of an item. Nothing that becomes pending is lost and nothing is converted twice (`converted_perm`),
and what an item leads to is converted right after it (`followUps_after_converted`).
-/

set_option autoImplicit false

namespace DocAtlas

/-! ## What is converted from an item on -/

namespace WorkItem

/-- What an item leads to is a smaller declaration, so the walk comes to an end. -/
theorem sizeOf_lt_of_followUps {d : Declaration} {item : WorkItem} (h : item ∈ d.followUps) :
    sizeOf item.declaration < sizeOf d := by
  have hmem := List.sizeOf_lt_of_mem (mem_children_of_followUps h)
  obtain ⟨header, children, detail⟩ := d
  simp only [Declaration.mk.sizeOf_spec] at hmem ⊢
  omega

/-- An item and all that comes after it: nothing if it was declared outside the analyzed tree, and
else the item before the trees of what it leads to. -/
def tree (item : WorkItem) : List WorkItem :=
  if item.declaration.isExternal then []
  else item :: item.declaration.followUps.attach.flatMap fun next => next.1.tree
termination_by sizeOf item.declaration
decreasing_by exact sizeOf_lt_of_followUps next.2

/-- Nothing is converted from an item on that was declared outside the analyzed tree. -/
theorem tree_external {item : WorkItem} (h : item.declaration.isExternal = true) :
    item.tree = [] := by
  rw [tree, if_pos h]

/-- Any other item comes before the trees of what it leads to. -/
theorem tree_internal {item : WorkItem} (h : item.declaration.isExternal = false) :
    item.tree = item :: item.declaration.followUps.flatMap tree := by
  rw [tree, h, if_neg Bool.false_ne_true]
  simp only [List.flatMap_subtype, List.unattach_attach]

/-- **A run converts the trees of the pending items, one after the other.** -/
theorem converted_eq_flatMap_tree (items : List WorkItem) :
    converted items = items.flatMap tree := by
  induction items using converted.induct with
  | case1 => rw [converted_nil, List.flatMap_nil]
  | case2 item rest hex ih =>
    rw [converted_external hex, ih, List.flatMap_cons, tree_external hex, List.nil_append]
  | case3 item rest hex ih =>
    have hin : item.declaration.isExternal = false := Bool.eq_false_iff.mpr hex
    -- the pending items behind what the item leads to: the trees of both are appended
    rw [converted_internal hin, ih, List.flatMap_append, List.flatMap_cons, tree_internal hin,
      List.cons_append]

/-- **Nothing is lost and nothing is converted twice.** Over a whole run, the items that become
pending are the first ones and what every converted item leads to, and the converted items are those
of them that were declared in the analyzed tree. -/
theorem converted_perm (items : List WorkItem) :
    (converted items).Perm
      ((items ++ (converted items).flatMap (·.declaration.followUps)).filter
        (!·.declaration.isExternal)) := by
  induction items using converted.induct with
  | case1 =>
    rw [converted_nil]
    exact List.Perm.nil
  | case2 item rest hex ih =>
    rw [converted_external hex, List.cons_append, List.filter_cons_of_neg (by simp [hex])]
    exact ih
  | case3 item rest hex ih =>
    have hin : item.declaration.isExternal = false := Bool.eq_false_iff.mpr hex
    rw [converted_internal hin, List.cons_append, List.filter_cons_of_pos (by simp [hin]),
      List.flatMap_cons]
    refine List.Perm.cons item (ih.trans (List.Perm.filter _ ?_))
    -- what the item leads to stands before the other pending items here and behind them there
    rw [← List.append_assoc]
    exact List.perm_append_comm.append_right _

/-- What an item leads to is converted right after it. -/
theorem followUps_after_converted {items before rest : List WorkItem} {k : WorkItem}
    (h : converted items = before ++ k :: rest) : converted k.declaration.followUps <+: rest := by
  induction items using converted.induct generalizing before with
  | case1 =>
    rw [converted_nil] at h
    cases before <;> cases h
  | case2 item pending hex ih =>
    rw [converted_external hex] at h
    exact ih h
  | case3 item pending hex ih =>
    rw [converted_internal (Bool.eq_false_iff.mpr hex)] at h
    -- the item itself is the first of the list, or `k` comes later in the run
    cases before with
    | nil =>
      cases h
      rw [converted_append]
      exact List.prefix_append _ _
    | cons first before => exact ih (List.cons.inj h).2

/-! ## Classes -/

/-- A constructor leads to nothing. -/
theorem followUps_constructor {d : Declaration} (h : d.isConstructor = true) :
    d.followUps = [] := by
  have hkind : d.detail.kind = .callable .constructor := eq_of_beq h
  rw [Declaration.followUps]
  -- only a callable has the kind of a constructor; a type literal has nothing behind it anyway
  cases hdetail : d.detail with
  | callable kind signatures => rfl
  | typeLiteral variant signatures indexer => rfl
  | _ =>
    rw [hdetail] at hkind
    cases hkind

/-- Of a class, the constructors that were declared in the analyzed tree are converted first. -/
theorem flatMap_tree_constructors (typeParameters : List TypeParameter) {ds : List Declaration}
    (h : ∀ d ∈ ds, d.isConstructor = true) :
    (ds.map (⟨·, typeParameters⟩ : Declaration → WorkItem)).flatMap tree
      = (ds.filter fun d => !d.isExternal).map (⟨·, typeParameters⟩) := by
  induction ds with
  | nil => rfl
  | cons d ds ih =>
    obtain ⟨hd, hds⟩ := List.forall_mem_cons.mp h
    rw [List.map_cons, List.flatMap_cons, ih hds]
    cases hex : d.isExternal with
    | true => rw [tree_external hex, List.filter_cons_of_neg (by simp [hex]), List.nil_append]
    | false =>
      have hnone : (WorkItem.mk d typeParameters).declaration.followUps = [] :=
        followUps_constructor hd
      rw [tree_internal hex, hnone, List.filter_cons_of_pos (by simp [hex])]
      rfl

/-- What comes after a class: its constructors, with the type parameters of the class, and then the
trees of its other members. -/
theorem flatMap_tree_class {d : Declaration} {extended implemented : List TypeExpr}
    {typeParameters : List TypeParameter}
    (h : d.detail = .classLike .classDecl extended implemented typeParameters) :
    d.followUps.flatMap tree
      = ((d.children.filter (·.isConstructor)).filter fun child => !child.isExternal).map
        (⟨·, typeParameters⟩)
        ++ ((d.children.filter fun child => !child.isConstructor).map of).flatMap tree := by
  have hconstructors : ∀ child ∈ d.children.filter (·.isConstructor), child.isConstructor = true :=
    fun child hchild => (List.mem_filter.mp hchild).2
  -- of the two parts only the first can be listed in full: constructors lead to nothing
  rw [Declaration.followUps, h]
  simp only
  rw [List.flatMap_append, flatMap_tree_constructors typeParameters hconstructors]

end WorkItem

/-! ## Entities -/

namespace Scope

/-- The entities from an item on: none if it was declared outside the analyzed tree, and else its
own entity, if it has one, before those of what it leads to. -/
def entitiesFrom (scope : Scope) (item : WorkItem) : List Entity :=
  if item.declaration.isExternal then []
  else (scope.entityOf item).toList
    ++ item.declaration.followUps.attach.flatMap fun next => scope.entitiesFrom next.1
termination_by sizeOf item.declaration
decreasing_by exact WorkItem.sizeOf_lt_of_followUps next.2

/-- The entities from an item on are those of the items of its tree, in the order of the tree. -/
theorem entitiesFrom_eq (scope : Scope) (item : WorkItem) :
    scope.entitiesFrom item = item.tree.filterMap scope.entityOf := by
  induction item using WorkItem.tree.induct with
  | case1 item hex =>
    rw [entitiesFrom, if_pos hex, WorkItem.tree_external hex]
    rfl
  | case2 item hex ih =>
    have hnext : ∀ next ∈ item.declaration.followUps,
        scope.entitiesFrom next = next.tree.filterMap scope.entityOf :=
      fun next hnext => ih ⟨next, hnext⟩
    -- both recursions go through the attached list, and the attachment is of no account
    rw [entitiesFrom, if_neg hex, WorkItem.tree_internal (Bool.eq_false_iff.mpr hex),
      List.filterMap_cons, List.filterMap_flatMap, ← List.flatMap_congr hnext]
    simp only [List.flatMap_subtype, List.unattach_attach]
    cases scope.entityOf item <;> rfl

/-- The same for several items, one after the other. -/
theorem flatMap_entitiesFrom (scope : Scope) (items : List WorkItem) :
    items.flatMap scope.entitiesFrom = (items.flatMap WorkItem.tree).filterMap scope.entityOf := by
  rw [List.filterMap_flatMap]
  exact List.flatMap_congr fun item _ => scope.entitiesFrom_eq item

/-- The entities from a class on are its own, those of its constructors, and then those from its
other members on. -/
theorem entitiesFrom_class (scope : Scope) {k : WorkItem} {extended implemented : List TypeExpr}
    {typeParameters : List TypeParameter} (hin : k.declaration.isExternal = false)
    (h : k.declaration.detail = .classLike .classDecl extended implemented typeParameters) :
    scope.entitiesFrom k = (scope.entityOf k).toList
      ++ ((k.declaration.children.filter (·.isConstructor)).filter fun child =>
        !child.isExternal).filterMap (fun child => scope.entityOf ⟨child, typeParameters⟩)
      ++ (k.declaration.children.filter fun child => !child.isConstructor).flatMap
        (fun child => scope.entitiesFrom (.of child)) := by
  have hothers := scope.flatMap_entitiesFrom
    ((k.declaration.children.filter fun child => !child.isConstructor).map WorkItem.of)
  rw [List.flatMap_map] at hothers
  rw [entitiesFrom_eq, WorkItem.tree_internal hin, WorkItem.flatMap_tree_class h,
    List.filterMap_cons, List.filterMap_append, List.filterMap_map, hothers]
  cases scope.entityOf k <;> rfl

end Scope

/-- The items that the conversion of a project converts, in their order. -/
def Project.order (p : Project) : List WorkItem :=
  (p.children.map WorkItem.of).flatMap WorkItem.tree

/-- **A project is converted by a walk that takes every declaration before what it leads to.** The
entities are those from each of its declarations on, in the order of the document, and if some
declaration on the way cannot be converted, the conversion fails as the first such one does. Of all
that becomes pending, what was declared in the analyzed tree is converted, once each; what an item
leads to is converted right after it; and a class comes before its constructors and these before its
other members. -/
theorem Scope.result_convertProject (scope : Scope) (p : Project) :
    ((scope.convertProject p).outcome.1 = match p.order.findSome? scope.failureOf with
      | some failure => .error failure
      | none => .ok (p.children.flatMap fun d => scope.entitiesFrom (.of d)))
    ∧ p.order.Perm ((p.children.map WorkItem.of ++ p.order.flatMap (·.declaration.followUps)).filter
        (!·.declaration.isExternal))
    ∧ (∀ before k rest, p.order = before ++ k :: rest →
      k.declaration.followUps.flatMap WorkItem.tree <+: rest)
    ∧ (∀ (k : WorkItem) (extended implemented : List TypeExpr)
          (typeParameters : List TypeParameter),
        k.declaration.isExternal = false →
        k.declaration.detail = .classLike .classDecl extended implemented typeParameters →
        scope.entitiesFrom k = (scope.entityOf k).toList
          ++ ((k.declaration.children.filter (·.isConstructor)).filter fun child =>
            !child.isExternal).filterMap (fun child => scope.entityOf ⟨child, typeParameters⟩)
          ++ (k.declaration.children.filter fun child => !child.isConstructor).flatMap
            (fun child => scope.entitiesFrom (.of child))) := by
  have horder : p.order = WorkItem.converted (p.children.map WorkItem.of) :=
    (WorkItem.converted_eq_flatMap_tree _).symm
  have hentities : p.order.filterMap scope.entityOf
      = p.children.flatMap fun d => scope.entitiesFrom (.of d) := by
    rw [Project.order, ← flatMap_entitiesFrom, List.flatMap_map]
  have hitems := scope.result_convertItems (p.children.map WorkItem.of)
  rw [← horder, hentities] at hitems
  refine ⟨?_, ?_, ?_, ?_⟩
  · -- after the run there is only an event left to log
    refine Eq.trans ?_ hitems
    rw [convertProject]
    rcases (scope.convertItems (p.children.map WorkItem.of)).outcome_cases with
      ⟨entities, events, hrun⟩ | ⟨failure, events, hrun⟩
    · rw [Attempt.outcome_bind_of_ok _ hrun, hrun]
      rfl
    · rw [Attempt.outcome_bind_of_error _ hrun, hrun]
  · rw [horder]
    exact WorkItem.converted_perm _
  · intro before k rest h
    rw [horder] at h
    rw [← WorkItem.converted_eq_flatMap_tree]
    exact WorkItem.followUps_after_converted h
  · intro k extended implemented typeParameters hin hdetail
    exact scope.entitiesFrom_class hin hdetail

end DocAtlas
