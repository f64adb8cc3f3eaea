import DocAtlas.Proofs.AlikeSignatures
import DocAtlas.Proofs.ClassMembers
import DocAtlas.Proofs.Layout

/-!
Where the constructors of a class are declared makes no difference.

Let some constructors change places with other members of their classes, anywhere in a project and
in as many classes as one likes. Every declaration is still put in the same place
(`settleDeclaration_of_alike`), and the index is the same where no id is recorded twice. A class is
made of the first function of its constructors and of the functions and attributes of its other
children, and fails as the first of these others does (`Scope.result_classMembers`), so it does not
matter how the two are mixed. By recursion over the declarations, each of them is converted to the
same or fails alike (`Scope.agrees_declaration`). A run takes the constructors of a class before its
other members anyway, so it comes to the same items in the same order (`WorkItem.Alike.converted`),
and gives the same entities or the same failure (`Project.result_convert_of_alike`). The events are
another matter: an extra constructor is told of when it is met.
-/

set_option autoImplicit false

namespace DocAtlas

open Attempt (Gives)

/-! ## Places -/

/-- Declarations side by side are settled one by one. -/
theorem settleDeclarations_eq_map (baseDir : String) (around : Surroundings)
    (ds : List Declaration) :
    settleDeclarations baseDir around ds = ds.map (settleDeclaration baseDir around) := by
  induction ds with
  | nil => rfl
  | cons d ds ih => rw [settleDeclarations, ih, List.map_cons]

/-- Settling does not change what is a constructor. -/
theorem isConstructor_settleDeclaration (baseDir : String) (around : Surroundings)
    (d : Declaration) :
    (settleDeclaration baseDir around d).isConstructor = d.isConstructor := by
  obtain ⟨header, children, detail⟩ := d
  rw [settleDeclaration, Declaration.isConstructor, Declaration.kind, settleDetail_kind]
  rfl

/-- Constructors are moved in the same way before and after settling. -/
theorem Reordering.constructors_settle {kind : SlotKind} {a b : List Declaration}
    (h : Reordering.constructors.children kind a b) (baseDir : String) (around : Surroundings) :
    Reordering.constructors.children kind (settleDeclarations baseDir around a)
      (settleDeclarations baseDir around b) := by
  have hsame : a = b → settleDeclarations baseDir around a = settleDeclarations baseDir around b :=
    congrArg _
  simp only [constructors] at h ⊢
  split
  · obtain ⟨hconstructors, hothers⟩ := h
    simp only [settleDeclarations_eq_map, List.filter_map, Function.comp_def,
      isConstructor_settleDeclaration]
    rw [hconstructors, hothers]
    exact ⟨rfl, rfl⟩
  · split at h
    · contradiction
    · exact hsame h

section

variable (baseDir : String)

/-- Type parameters have nothing below them, so settling changes only their places. -/
theorem settleTypeParameters_of_alike {ps ps' : List TypeParameter}
    (h : List.Forall₂ (TypeParameter.Alike .constructors) ps ps') (around : Surroundings) :
    List.Forall₂ (TypeParameter.Alike .constructors) (ps.map (settleTypeParameter baseDir around))
      (ps'.map (settleTypeParameter baseDir around)) := by
  rw [List.forall₂_map_left_iff, List.forall₂_map_right_iff]
  refine h.imp ?_
  rintro _ _ ⟨bound⟩
  exact .mk bound

-- one theorem for each function that settles something; the recursion is that of the tree
mutual

/-- **Declarations that are alike are still alike in their places.** -/
theorem settleDeclaration_of_alike (d : Declaration) {d' : Declaration}
    (h : d.Alike .constructors d') (around : Surroundings) :
    (settleDeclaration baseDir around d).Alike .constructors
      (settleDeclaration baseDir around d') := by
  have hvisit := (Slot.Alike.declaration h).visit_eq baseDir around
  have hinner := (Slot.Alike.declaration h).surroundings_eq baseDir around
  have hplace := congrArg Visit.place hvisit
  match d, h with
  | d, .refl _ => exact .refl _
  | ⟨header, children, detail⟩,
    @Declaration.Alike.mk _ _ _ moved children' _ detail' parts order inside =>
    -- both are put in the same place, so that what is below them has the same surroundings
    rw [settleDeclaration, settleDeclaration]
    simp only [Slot.visit] at hplace
    simp only [hplace] at hinner ⊢
    simp only [hinner]
    refine .mk (settleDeclarations_of_alike children parts _) ?_
      (settleDetail_of_alike detail inside _)
    rw [settleDetail_kind]
    exact Reordering.constructors_settle order baseDir _
termination_by structural d

theorem settleDeclarations_of_alike (ds : List Declaration) {ds' : List Declaration}
    (h : List.Forall₂ (Declaration.Alike .constructors) ds ds') (around : Surroundings) :
    List.Forall₂ (Declaration.Alike .constructors) (settleDeclarations baseDir around ds)
      (settleDeclarations baseDir around ds') := by
  match ds, h with
  | [], .nil => exact .nil
  | d :: ds, .cons here more =>
    exact .cons (settleDeclaration_of_alike d here around)
      (settleDeclarations_of_alike ds more around)
termination_by structural ds

theorem settleDetail_of_alike (d : Detail) {d' : Detail} (h : d.Alike .constructors d')
    (around : Surroundings) :
    (settleDetail baseDir around d).Alike .constructors (settleDetail baseDir around d') := by
  match d, h with
  | .accessor getter setter, .accessor get set =>
    exact .accessor (settleOption_of_alike getter get around)
      (settleOption_of_alike setter set around)
  | .classLike _ _ _ _, .classLike supers interfaces typeParameters order =>
    cases order
    exact .classLike supers interfaces
      (settleTypeParameters_of_alike baseDir typeParameters around) rfl
  | .callable _ signatures, .callable parts order =>
    cases order
    exact .callable (settleSignatures_of_alike signatures parts around) rfl
  | .member _ t, .member type => exact .member (settleType_of_alike t type around)
  | .typeLiteral _ signatures indexer, .typeLiteral parts order index =>
    cases order
    exact .typeLiteral (settleSignatures_of_alike signatures parts around) rfl
      (settleOption_of_alike indexer index around)
  | .scope _, .scope => exact .scope
termination_by structural d

theorem settleSignature_of_alike (s : Signature) {s' : Signature} (h : s.Alike .constructors s')
    (around : Surroundings) :
    (settleSignature baseDir around s).Alike .constructors (settleSignature baseDir around s') := by
  match s, h with
  | ⟨_, _, _, _, _, _, _, params, _, _, _, _⟩,
    .mk typeParameters typeOrder parameters order behind =>
    cases typeOrder
    cases order
    exact .mk (settleTypeParameters_of_alike baseDir typeParameters _) rfl
      (settleParameters_of_alike params parameters _) rfl behind
termination_by structural s

theorem settleSignatures_of_alike (ss : List Signature) {ss' : List Signature}
    (h : List.Forall₂ (Signature.Alike .constructors) ss ss') (around : Surroundings) :
    List.Forall₂ (Signature.Alike .constructors) (settleSignatures baseDir around ss)
      (settleSignatures baseDir around ss') := by
  match ss, h with
  | [], .nil => exact .nil
  | s :: ss, .cons here more =>
    exact .cons (settleSignature_of_alike s here around) (settleSignatures_of_alike ss more around)
termination_by structural ss

theorem settleOption_of_alike (s : Option Signature) {s' : Option Signature}
    (h : Option.Rel (Signature.Alike .constructors) s s') (around : Surroundings) :
    Option.Rel (Signature.Alike .constructors) (settleOption baseDir around s)
      (settleOption baseDir around s') := by
  match s, h with
  | none, .none => exact .none
  | some s, .some h => exact .some (settleSignature_of_alike s h around)
termination_by structural s

theorem settleParameter_of_alike (p : Parameter) {p' : Parameter} (h : p.Alike .constructors p')
    (around : Surroundings) :
    (settleParameter baseDir around p).Alike .constructors (settleParameter baseDir around p') := by
  match p, h with
  | ⟨_, _, t, _, _, _, _⟩, .mk type => exact .mk (settleType_of_alike t type _)
termination_by structural p

theorem settleParameters_of_alike (ps : List Parameter) {ps' : List Parameter}
    (h : List.Forall₂ (Parameter.Alike .constructors) ps ps') (around : Surroundings) :
    List.Forall₂ (Parameter.Alike .constructors) (settleParameters baseDir around ps)
      (settleParameters baseDir around ps') := by
  match ps, h with
  | [], .nil => exact .nil
  | p :: ps, .cons here more =>
    exact .cons (settleParameter_of_alike p here around) (settleParameters_of_alike ps more around)
termination_by structural ps

theorem settleType_of_alike (t : TypeExpr) {t' : TypeExpr} (h : t.Alike .constructors t')
    (around : Surroundings) :
    (settleType baseDir around t).Alike .constructors (settleType baseDir around t') := by
  match t, h with
  | t, .refl _ => exact .refl _
  | ⟨kind, _⟩, .mk root behind => exact .mk (settleKind_of_alike kind root around) behind
termination_by structural t

theorem settleKind_of_alike (k : TypeKind) {k' : TypeKind} (h : k.Alike .constructors k')
    (around : Surroundings) :
    (settleKind baseDir around k).Alike .constructors (settleKind baseDir around k') := by
  match k, h with
  | k, .refl _ => exact .refl _
  | .array _, .array element => exact .array element
  | .tuple _, .tuple elements => exact .tuple elements
  | .union _, .union types => exact .union types
  | .intersection _, .intersection types => exact .intersection types
  | .operator _ _, .operator target => exact .operator target
  | .predicate _ _ _, .predicate target => exact .predicate target
  | .reflection d, .reflection declaration =>
    exact .reflection (settleDeclaration_of_alike d declaration around)
termination_by structural k

end

end

/-! ## Children -/

namespace Declaration.Alike

variable {d d' : Declaration}

/-- Declarations that are alike are of one kind. -/
theorem kind_eq (h : d.Alike .constructors d') : d'.kind = d.kind := h.cases.2.1.kind_eq

/-- So they are constructors together. -/
theorem isConstructor_eq (h : d.Alike .constructors d') : d'.isConstructor = d.isConstructor := by
  rw [isConstructor, isConstructor, h.kind_eq]

/-- They come from one file, so they are external together. -/
theorem isExternal_eq (h : d.Alike .constructors d') : d'.isExternal = d.isExternal := by
  rw [isExternal, isExternal, h.cases.1]

/-- Filtered by what they are, declarations stay alike. -/
theorem filter {ds ds' : List Declaration}
    (h : List.Forall₂ (Declaration.Alike .constructors) ds ds') (keep : Bool) :
    List.Forall₂ (Declaration.Alike .constructors) (ds.filter (·.isConstructor == keep))
      (ds'.filter (·.isConstructor == keep)) := by
  refine List.rel_filter ?_ h
  intro child child' hchild
  simp only [hchild.isConstructor_eq]

/-- The constructors among the children are alike one by one, and so are the others. -/
theorem children_filter (h : d.Alike .constructors d') :
    List.Forall₂ (Declaration.Alike .constructors) (d.children.filter (·.isConstructor))
        (d'.children.filter (·.isConstructor))
      ∧ List.Forall₂ (Declaration.Alike .constructors)
        (d.children.filter fun child => !child.isConstructor)
        (d'.children.filter fun child => !child.isConstructor) := by
  obtain ⟨-, -, moved, parts, order⟩ := h.cases
  have hconstructors := filter parts true
  have hothers := filter parts false
  simp only [beq_true, beq_false] at hconstructors hothers
  simp only [Reordering.constructors] at order
  split at order
  · rw [← order.1, ← order.2]
    exact ⟨hconstructors, hothers⟩
  · rw [← order]
    exact ⟨hconstructors, hothers⟩

/-- Outside of classes, all children are. -/
theorem children (h : d.Alike .constructors d') (hkind : d.kind ≠ .classLike .classDecl) :
    List.Forall₂ (Declaration.Alike .constructors) d.children d'.children := by
  obtain ⟨-, -, moved, parts, order⟩ := h.cases
  simp only [Reordering.constructors] at order
  split at order
  · rename_i heq
    exact absurd (DocAtlas.SlotKind.declaration.inj heq) hkind
  · rw [← order]
    exact parts

end Declaration.Alike

/-! ## Accessors and members -/

/-- What is related is there on both sides or on neither. -/
theorem isSome_eq_of_rel {α β : Type} {R : α → β → Prop} {a : Option α} {b : Option β}
    (h : Option.Rel R a b) :
    a.isSome = b.isSome := by
  cases h <;> rfl

/-- The type of an accessor is found in the same signature. -/
theorem accessorType_of_alike {getter getter' setter setter' : Option Signature}
    (get : Option.Rel (Signature.Alike .constructors) getter getter')
    (set : Option.Rel (Signature.Alike .constructors) setter setter') :
    Option.Rel (TypeExpr.Alike .constructors) (accessorType getter setter)
      (accessorType getter' setter') := by
  -- the setter counts only if the getter has no type
  have hset : Option.Rel (TypeExpr.Alike .constructors)
      ((setter.bind (·.parameters.head?)).map (·.type))
      ((setter'.bind (·.parameters.head?)).map (·.type)) := by
    cases set with
    | none => exact .none
    | some s =>
      cases s with
      | mk _ _ parameters order _ =>
        cases order
        cases parameters with
        | nil => exact .none
        | cons here _ => exact .some here.type
  cases get with
  | none => exact hset
  | some s =>
    cases s with
    | mk _ _ _ _ behind =>
      cases behind with
      | none => exact hset
      | some h => exact .some h

/-- The comment of an accessor has no types in it, so it is the same. -/
theorem accessorComment_of_alike (own : Comment) {getter getter' setter setter' : Option Signature}
    (get : Option.Rel (Signature.Alike .constructors) getter getter')
    (set : Option.Rel (Signature.Alike .constructors) setter setter') :
    accessorComment own getter setter = accessorComment own getter' setter' := by
  have hcomment : ∀ {s s' : Option Signature}, Option.Rel (Signature.Alike .constructors) s s' →
      s.map (·.comment) = s'.map (·.comment) := by
    intro s s' h
    cases h with
    | none => rfl
    | some h =>
      cases h
      rfl
  rw [accessorComment, accessorComment, hcomment get, hcomment set]

/-- A type that can be called is one on both sides, with signatures that are alike. -/
theorem callableLiteral_of_alike {t t' : TypeExpr} (h : t.Alike .constructors t') :
    Option.Rel (fun a b => a.1 = b.1 ∧ List.Forall₂ (Signature.Alike .constructors) a.2 b.2)
      (callableLiteral t) (callableLiteral t') := by
  have hreflected := h.reflected
  rw [callableLiteral, callableLiteral]
  generalize t.reflected = x, t'.reflected = y at hreflected
  cases hreflected with
  | none => exact .none
  | @some d d' h =>
    obtain ⟨hheader, hdetail, -⟩ := h.cases
    obtain ⟨header, children, detail⟩ := d
    obtain ⟨header', children', detail'⟩ := d'
    cases hheader
    cases hdetail with
    | typeLiteral parts order _ =>
      cases order
      cases parts with
      | nil => exact .none
      | cons here more => exact .some ⟨rfl, .cons here more⟩
    | accessor | classLike | callable | member | scope => exact .none

namespace Scope

variable (scope : Scope)

/-- An attribute is its type, and that is rendered alike. -/
theorem attributeOf_of_alike (header : Header) (comment : Comment) {t t' : TypeExpr}
    (h : t.Alike .constructors t') :
    scope.attributeOf header comment t = scope.attributeOf header comment t' := by
  rw [attributeOf, attributeOf, renderType_of_alike scope.index h]

/-- A member is converted alike, as a function or as an attribute. -/
theorem member_of_alike (header : Header) {t t' : TypeExpr} (h : t.Alike .constructors t') :
    scope.member header t = scope.member header t' := by
  have hliteral := callableLiteral_of_alike h
  rw [member, member]
  -- whether it is a function is told by the literal in its type
  generalize callableLiteral t = x, callableLiteral t' = y at hliteral
  cases hliteral with
  | none => rw [scope.attributeOf_of_alike header header.comment h]
  | @some a b hab =>
    obtain ⟨literal, signatures⟩ := a
    obtain ⟨literal', signatures'⟩ := b
    obtain ⟨hheader, hsignatures⟩ := hab
    cases hheader
    simp only [scope.callable_of_alike (.mk .nil) hsignatures]

/-- Accessors are converted alike, or fail alike for want of a type. -/
theorem accessor_of_alike (header : Header) {getter getter' setter setter' : Option Signature}
    (get : Option.Rel (Signature.Alike .constructors) getter getter')
    (set : Option.Rel (Signature.Alike .constructors) setter setter') :
    scope.accessor header getter setter = scope.accessor header getter' setter' := by
  have htype := accessorType_of_alike get set
  rw [accessor, accessor, accessorComment_of_alike header.comment get set]
  generalize accessorType getter setter = x, accessorType getter' setter' = y at htype
  cases htype with
  | none => rfl
  | some h => simp only [scope.attributeOf_of_alike header _ h]

/-- What a class or interface is related to is named by a reference, and there is nothing to be
moved in that. -/
theorem relatedType_of_alike (relation : Relation) {t t' : TypeExpr}
    (h : t.Alike .constructors t') :
    scope.relatedType relation t = scope.relatedType relation t' := by
  cases h with
  | refl => rfl
  | mk root _ => cases root <;> rfl

/-- All that a class or interface is related to is found alike. -/
theorem relatedTypes_of_alike (relation : Relation) {ts ts' : List TypeExpr}
    (h : List.Forall₂ (TypeExpr.Alike .constructors) ts ts') :
    scope.relatedTypes relation ts = scope.relatedTypes relation ts' := by
  induction h with
  | nil => rfl
  | cons here _ ih => rw [relatedTypes, relatedTypes, scope.relatedType_of_alike relation here, ih]

/-! ## Classes -/

variable {scope}

/-- The children of a class fail as the first one that is no constructor and fails does.
Constructors cannot fail. -/
theorem fails_classMembers_iff {className : String} {typeParameters : List TypeParameter}
    {ds : List Declaration} {constructor : Option Function} {failure : Failure} :
    Attempt.Fails (scope.classMembers className typeParameters constructor ds) failure ↔
      ((ds.filter fun d => !d.isConstructor).map WorkItem.of).findSome? scope.failureOf
        = some failure := by
  induction ds generalizing constructor with
  | nil => simp [classMembers]
  | cons d ds ih =>
    rw [classMembers]
    split
    · rename_i signatures hdetail
      have hd : d.isConstructor = true := Declaration.isConstructor_of_detail hdetail
      rw [List.filter_cons_of_neg (by simp [hd])]
      -- a constructor is documented without failing, and an extra one is only told of
      split <;> simp [ih]
    · rename_i hdetail
      have hd : d.isConstructor = false := Declaration.isConstructor_eq_false hdetail
      rw [List.filter_cons_of_pos (by simp [hd]), List.map_cons, List.findSome?_cons, failureOf,
        Attempt.fails_bind]
      -- the child fails itself, or it does not and the rest decides
      rcases (scope.convert [] d).outcome_cases with ⟨entity, events, hown⟩ | ⟨e, events, hown⟩
      · have hnot : ¬ Attempt.Fails (scope.convert [] d) failure := by simp [Attempt.Fails, hown]
        have hgives : ∀ found, Gives (scope.convert [] d) found ↔ entity = found := by
          simp [Gives, hown]
        simp only [WorkItem.of, hown, hnot, hgives, false_or, exists_eq_left']
        -- whatever the entity is, it is the rest that can fail
        split <;> simp [ih]
      · simp [WorkItem.of, Attempt.Fails, Gives, hown]

/-- **The result of the children of a class**: the failure of the first one that is no constructor
and fails, or else the first function of the constructors and the functions and attributes of the
others. -/
theorem result_classMembers (className : String) (typeParameters : List TypeParameter)
    (ds : List Declaration) :
    (scope.classMembers className typeParameters none ds).outcome.1 =
      match ((ds.filter fun d => !d.isConstructor).map WorkItem.of).findSome? scope.failureOf with
      | some failure => .error failure
      | none => .ok (firstConstructor scope.entityOf (ds.map (⟨·, typeParameters⟩)),
          membersAmong scope.entityOf (ds.map WorkItem.of)) := by
  cases hfirst : ((ds.filter fun d => !d.isConstructor).map WorkItem.of).findSome?
    scope.failureOf with
  | some failure => exact fails_classMembers_iff.mpr hfirst
  | none =>
    rcases (scope.classMembers className typeParameters none ds).outcome_cases with
      ⟨⟨found, members⟩, events, hx⟩ | ⟨failure, events, hx⟩
    · obtain ⟨hfound, hmembers⟩ := gives_classMembers (congrArg Prod.fst hx)
      rw [hx, hfound, hmembers, Option.none_or]
    · have hfails := fails_classMembers_iff.mp (congrArg Prod.fst hx)
      rw [hfirst] at hfails
      cases hfails

end Scope

/-! ## Items -/

/-- The same item, but for the order of constructors inside it. -/
inductive WorkItem.Alike : WorkItem → WorkItem → Prop where
  | mk {d d' : Declaration} {types types' : List TypeParameter}
      (declaration : d.Alike .constructors d')
      (inherited : List.Forall₂ (TypeParameter.Alike .constructors) types types') :
      Alike ⟨d, types⟩ ⟨d', types'⟩

namespace WorkItem.Alike

/-- Declarations that are alike are items that are alike, with type parameters that are. -/
theorem map {ds ds' : List Declaration} (h : List.Forall₂ (Declaration.Alike .constructors) ds ds')
    {types types' : List TypeParameter}
    (htypes : List.Forall₂ (TypeParameter.Alike .constructors) types types') :
    List.Forall₂ WorkItem.Alike (ds.map (⟨·, types⟩)) (ds'.map (⟨·, types'⟩)) := by
  rw [List.forall₂_map_left_iff, List.forall₂_map_right_iff]
  exact h.imp fun _ _ hd => .mk hd htypes

theorem map_of {ds ds' : List Declaration}
    (h : List.Forall₂ (Declaration.Alike .constructors) ds ds') :
    List.Forall₂ WorkItem.Alike (ds.map .of) (ds'.map .of) :=
  map h .nil

/-- Declarations that are alike lead to items that are alike. -/
theorem followUps {d d' : Declaration} (h : d.Alike .constructors d') :
    List.Forall₂ WorkItem.Alike d.followUps d'.followUps := by
  obtain ⟨-, hdetail, -⟩ := h.cases
  obtain ⟨hconstructors, hothers⟩ := h.children_filter
  have hchildren := h.children
  rw [Declaration.followUps, Declaration.followUps]
  rw [Declaration.kind] at hchildren
  generalize d.detail = x, d'.detail = y at hdetail hchildren
  cases hdetail with
  | @classLike kind _ _ _ _ _ _ _ _ _ typeParameters order =>
    cases order
    cases kind with
    -- this is the only place where children are moved, and the two groups are what is kept
    | classDecl => exact List.rel_append (map hconstructors typeParameters) (map_of hothers)
    | interface => exact map_of (hchildren (by simp [Detail.kind]))
  | accessor get set =>
    have hmembers := map_of (hchildren (by simp [Detail.kind]))
    simp only [isSome_eq_of_rel (accessorType_of_alike get set)]
    split
    · exact hmembers
    · exact .nil
  | callable => exact .nil
  | member type =>
    have hmembers := map_of (hchildren (by simp [Detail.kind]))
    simp only [isSome_eq_of_rel (callableLiteral_of_alike type)]
    split
    · exact .nil
    · exact hmembers
  | typeLiteral => exact .nil
  | scope => exact map_of (hchildren (by simp [Detail.kind]))

/-- What is converted from items that are alike is alike, one by one. -/
theorem converted (items : List WorkItem) : ∀ items', List.Forall₂ WorkItem.Alike items items' →
    List.Forall₂ WorkItem.Alike (converted items) (converted items') := by
  induction items using converted.induct with
  | case1 =>
    intro items' h
    cases h with
    | nil => simp
  | case2 item rest hex ih =>
    intro items' h
    cases h with
    | cons here more =>
      cases here with
      | mk declaration inherited =>
        rw [converted_external hex, converted_external (declaration.isExternal_eq.trans hex)]
        exact ih _ more
  | case3 item rest hex ih =>
    intro items' h
    cases h with
    | cons here more =>
      have hin : item.declaration.isExternal = false := Bool.eq_false_iff.mpr hex
      cases here with
      | mk declaration inherited =>
        rw [converted_internal hin, converted_internal (declaration.isExternal_eq.trans hin)]
        -- what the item leads to goes in front of what is pending, on both sides
        exact .cons (.mk declaration inherited)
          (ih _ (List.rel_append (followUps declaration) more))

end WorkItem.Alike

/-! ## Conversion -/

/-- The first of some values depends on the values only. -/
theorem findSome?_eq_of_map_eq {α β γ : Type} {g : α → β} {a b : List α} (h : a.map g = b.map g)
    (f : β → Option γ) :
    a.findSome? (fun x => f (g x)) = b.findSome? fun x => f (g x) := by
  simpa only [List.findSome?_map, Function.comp_def] using congrArg (List.findSome? f) h

/-- So do all of them. -/
theorem filterMap_eq_of_map_eq {α β γ : Type} {g : α → β} {a b : List α} (h : a.map g = b.map g)
    (f : β → Option γ) :
    a.filterMap (fun x => f (g x)) = b.filterMap fun x => f (g x) := by
  simpa only [List.filterMap_map, Function.comp_def] using congrArg (List.filterMap f) h

namespace Scope

variable {scope : Scope}

/-- Whatever it inherits, the declaration is converted to the same as every item that is alike, or
fails alike. -/
def Agrees (scope : Scope) (d : Declaration) : Prop :=
  ∀ {types : List TypeParameter} {k : WorkItem}, WorkItem.Alike ⟨d, types⟩ k →
    (scope.convert types d).outcome.1 = (scope.convert k.inherited k.declaration).outcome.1

/-- Items that are alike have the same entities and the same failures, one by one. -/
theorem map_entityOf_eq {items items' : List WorkItem}
    (hagrees : ∀ item ∈ items, scope.Agrees item.declaration)
    (h : List.Forall₂ WorkItem.Alike items items') :
    items.map scope.entityOf = items'.map scope.entityOf
      ∧ items.map scope.failureOf = items'.map scope.failureOf := by
  induction h with
  | nil => exact ⟨rfl, rfl⟩
  | @cons item item' items items' here _ ih =>
    obtain ⟨hitem, hitems⟩ := List.forall_mem_cons.mp hagrees
    obtain ⟨hentities, hfailures⟩ := ih hitems
    have hresult := hitem here
    have hentity : scope.entityOf item = scope.entityOf item' := by rw [entityOf, entityOf, hresult]
    have hfailure : scope.failureOf item = scope.failureOf item' := by
      rw [failureOf, failureOf, hresult]
    rw [List.map_cons, List.map_cons, List.map_cons, List.map_cons, hentity, hfailure, hentities,
      hfailures]
    exact ⟨rfl, rfl⟩

/-- The constructors and the other children of a class may be mixed in any way. -/
theorem result_classMembers_of_alike (className : String) {types types' : List TypeParameter}
    (htypes : List.Forall₂ (TypeParameter.Alike .constructors) types types') {d d' : Declaration}
    (h : d.Alike .constructors d') (hagrees : ∀ child ∈ d.children, scope.Agrees child) :
    (scope.classMembers className types none d.children).outcome.1
      = (scope.classMembers className types' none d'.children).outcome.1 := by
  obtain ⟨hconstructors, hothers⟩ := h.children_filter
  have hagrees' : ∀ (keep : Declaration → Bool) (of : Declaration → WorkItem),
      (∀ child, (of child).declaration = child) →
      ∀ item ∈ (d.children.filter keep).map of, scope.Agrees item.declaration := by
    -- the constructors come with type parameters and the others with none, but all of them are
    -- children
    intro keep of hof item hitem
    obtain ⟨child, hchild, rfl⟩ := List.mem_map.mp hitem
    rw [hof]
    exact hagrees child (List.mem_filter.mp hchild).1
  obtain ⟨hmapped, -⟩ :=
    map_entityOf_eq (hagrees' _ _ fun _ => rfl) (WorkItem.Alike.map hconstructors htypes)
  obtain ⟨hmapped', hfailures⟩ :=
    map_entityOf_eq (hagrees' _ _ fun _ => rfl) (WorkItem.Alike.map_of hothers)
  have hfailure : ((d.children.filter fun child => !child.isConstructor).map WorkItem.of).findSome?
      scope.failureOf
      = ((d'.children.filter fun child => !child.isConstructor).map WorkItem.of).findSome?
        scope.failureOf :=
    findSome?_eq_of_map_eq hfailures id
  have hfirst : firstConstructor scope.entityOf (d.children.map (⟨·, types⟩))
      = firstConstructor scope.entityOf (d'.children.map (⟨·, types'⟩)) := by
    rw [firstConstructor, firstConstructor, List.filter_map, List.filter_map]
    exact findSome?_eq_of_map_eq hmapped (·.bind Entity.function?)
  have hmembers : membersAmong scope.entityOf (d.children.map WorkItem.of)
      = membersAmong scope.entityOf (d'.children.map WorkItem.of) := by
    rw [membersAmong, membersAmong, List.filter_map, List.filter_map]
    exact filterMap_eq_of_map_eq hmapped' (·.bind Entity.member?)
  -- the result is told by the failures, the first function and the members
  rw [result_classMembers, result_classMembers, hfailure, hfirst, hmembers]

/-- A class or interface is made of the same parts. -/
theorem result_convert_classLike {header : Header} {children children' : List Declaration}
    {kind : ClassKind} {extended extended' implemented implemented' : List TypeExpr}
    {types types' : List TypeParameter}
    (supers : List.Forall₂ (TypeExpr.Alike .constructors) extended extended')
    (interfaces : List.Forall₂ (TypeExpr.Alike .constructors) implemented implemented')
    (htypes : List.Forall₂ (TypeParameter.Alike .constructors) types types')
    (hmembers : (scope.classMembers header.name types none children).outcome.1
      = (scope.classMembers header.name types' none children').outcome.1)
    (inherited inherited' : List TypeParameter) :
    (scope.convert inherited
      ⟨header, children, .classLike kind extended implemented types⟩).outcome.1
      = (scope.convert inherited'
        ⟨header, children', .classLike kind extended' implemented' types'⟩).outcome.1 := by
  rw [convert, convert]
  refine Attempt.result_bind_congr hmembers fun found => ?_
  cases kind with
  | classDecl =>
    simp only [classEntity, scope.relatedTypes_of_alike _ supers,
      scope.relatedTypes_of_alike _ interfaces, scope.typeParams_of_alike htypes]
  | interface =>
    simp only [interfaceEntity, scope.relatedTypes_of_alike _ supers,
      scope.typeParams_of_alike htypes]

mutual

/-- **A declaration is converted to the same, or fails alike, wherever the constructors inside it
are declared.** -/
theorem agrees_declaration (d : Declaration) : scope.Agrees d := by
  intro types k h
  match d with
  | ⟨header, children, detail⟩ =>
    have hagrees := agrees_declarations children
    obtain ⟨hdeclaration, hinherited⟩ := h
    rename_i d' types'
    obtain ⟨hheader, hdetail, -⟩ := hdeclaration.cases
    obtain ⟨header', children', detail'⟩ := d'
    cases hheader
    -- only a class or interface converts its children, and all else is told by types and signatures
    cases hdetail with
    | classLike supers interfaces typeParameters order =>
      cases order
      exact result_convert_classLike supers interfaces typeParameters
        (result_classMembers_of_alike _ typeParameters hdeclaration hagrees) _ _
    | accessor get set => rw [convert, convert, scope.accessor_of_alike header get set]
    | callable parts order =>
      cases order
      rw [convert, convert, scope.callable_of_alike (.mk hinherited) parts]
    | member type => rw [convert, convert, scope.member_of_alike header type]
    | typeLiteral parts order _ =>
      cases order
      rw [convert, convert, scope.callable_of_alike (.mk hinherited) parts]
    | scope => rw [convert, convert]
termination_by structural d

/-- All declarations side by side. -/
theorem agrees_declarations (ds : List Declaration) : ∀ d ∈ ds, scope.Agrees d := by
  match ds with
  | [] => exact fun d hd => absurd hd List.not_mem_nil
  | d :: ds => exact List.forall_mem_cons.mpr ⟨agrees_declaration d, agrees_declarations ds⟩
termination_by structural ds

end

/-- **A run on items that are alike gives the same entities, or fails alike.** -/
theorem result_convertItems_of_alike (scope : Scope) {items items' : List WorkItem}
    (h : List.Forall₂ WorkItem.Alike items items') :
    (scope.convertItems items).outcome.1 = (scope.convertItems items').outcome.1 := by
  obtain ⟨hentities, hfailures⟩ := map_entityOf_eq
    (fun item _ => agrees_declaration item.declaration) (WorkItem.Alike.converted items _ h)
  have hfailure : (WorkItem.converted items).findSome? scope.failureOf
      = (WorkItem.converted items').findSome? scope.failureOf :=
    findSome?_eq_of_map_eq hfailures id
  have hentity : (WorkItem.converted items).filterMap scope.entityOf
      = (WorkItem.converted items').filterMap scope.entityOf :=
    filterMap_eq_of_map_eq hentities id
  rw [result_convertItems, result_convertItems, hfailure, hentity]

end Scope

/-! ## Whole projects -/

/-- In their places, the declarations of projects that are alike are alike. -/
theorem Project.Alike.placed {p q : Project} (h : p.Alike .constructors q) (baseDir : String) :
    List.Forall₂ (Declaration.Alike .constructors) (p.placed baseDir).children
      (q.placed baseDir).children := by
  rw [Project.placed_eq, Project.placed_eq]
  cases h with
  | mk parts order =>
    cases order
    exact settleDeclarations_of_alike baseDir p.children parts p.surroundings

/-- **Where the constructors of a class are declared makes no difference.** Where no id is recorded
twice, moving constructors among the other children of their classes, so that both keep their order
among themselves, leaves the entities of a conversion as they are, or the failure that it ends
with. -/
theorem Project.result_convert_of_alike {p q : Project} (h : p.Alike .constructors q)
    {config : Config} (hids : ((p.records config.baseDir).map (·.1)).Nodup) :
    (Prod.snd <$> p.convert config).outcome.1 = (Prod.snd <$> q.convert config).outcome.1 := by
  have hpaths : (p.index config.baseDir).value.SamePaths (q.index config.baseDir).value :=
    fun id => congrArg (Option.map (·.path)) (h.get?_index hids id)
  rw [Project.snd_convert, Project.snd_convert,
    Attempt.outcome_bind_of_ok _ (Attempt.outcome_liftM _),
    Attempt.outcome_bind_of_ok _ (Attempt.outcome_liftM _)]
  -- the two runs use indexes with the same paths, and start from declarations that are alike
  simp only [Scope.convertProject]
  refine Attempt.result_bind_congr ?_ fun _ => rfl
  rw [Scope.convertItems_congr hpaths config]
  exact Scope.result_convertItems_of_alike _ (WorkItem.Alike.map_of (h.placed config.baseDir))

/-- A constructor with one signature. -/
def constructorOf (id : Int) (signature : Signature) : Declaration :=
  ⟨{ id := some id, name := "constructor", sources := [⟨"box.ts", 4⟩] }, [],
    .callable .constructor [signature]⟩

/-- A constructor that comes from a base class. It has no comment of its own, so it is not
documented again. -/
def inheritedConstructor : Declaration :=
  constructorOf 2
    ⟨some 3, .constructor, "new Box", [], {}, {}, [], [], none, some .null, default, {}⟩

/-- A constructor that takes a string. -/
def ownConstructor : Declaration :=
  constructorOf 4 ⟨some 5, .constructor, "new Box", [], {}, {}, [],
    [⟨some 6, "label", ⟨.intrinsic "string", []⟩, {}, none, {}, default⟩], none, none, default, {}⟩

/-- A property that is a string. -/
def labelProperty : Declaration :=
  ⟨{ id := some 7, name := "label", sources := [⟨"box.ts", 2⟩] }, [],
    .member .property ⟨.intrinsic "string", []⟩⟩

/-- An accessor without a type, which has no entity. -/
def untypedAccessor : Declaration :=
  ⟨{ id := some 8, name := "size", sources := [⟨"box.ts", 3⟩] }, [], .accessor none none⟩

/-- A class in the file `box.ts` with these children. -/
def boxWith (children : List Declaration) : Project where
  children :=
    [⟨{ id := some 1, name := "Box", sources := [⟨"box.ts", 1⟩] }, children,
      .classLike .classDecl [] [] []⟩]

/-- The constructors of a class change places with a property and an accessor. In a strict
conversion it is the accessor that fails, before them and behind them. -/
theorem Project.result_convert_of_alike_box :
    let p := boxWith [labelProperty, inheritedConstructor, untypedAccessor, ownConstructor]
    let q := boxWith [inheritedConstructor, ownConstructor, labelProperty, untypedAccessor]
    (Prod.snd <$> p.convert {}).outcome.1 = (Prod.snd <$> q.convert {}).outcome.1
      ∧ (p.convert {}).outcome.1.toOption.map (fun result => result.2.map Entity.path)
        = some [["./", "box.", "Box"], ["./", "box.", "Box#", "constructor"],
          ["./", "box.", "Box#", "label"]]
      ∧ (Prod.snd <$> p.convert { strict := true }).outcome.1
        = (Prod.snd <$> q.convert { strict := true }).outcome.1
      ∧ (p.convert { strict := true }).outcome.1.toOption.isSome = false := by
  have halike :
      (boxWith [labelProperty, inheritedConstructor, untypedAccessor, ownConstructor]).Alike
        .constructors
      (boxWith [inheritedConstructor, ownConstructor, labelProperty, untypedAccessor]) := by
    -- the children are the same ones, and only their order is another
    refine .mk (.cons (.mk (List.forall₂_refl _) ?_ (.classLike .nil .nil .nil rfl)) .nil) rfl
    exact ⟨rfl, rfl⟩
  exact ⟨Project.result_convert_of_alike halike (by decide +kernel), by decide +kernel,
    Project.result_convert_of_alike halike (by decide +kernel), by decide +kernel⟩

end DocAtlas
