import DocAtlas.Proofs.Indexing
import Mathlib.Data.List.Forall2
import Mathlib.Data.List.Perm.Basic

/-!
The order of siblings makes no difference to the index.

Two documents are alike (`Project.Alike`) if they differ only in the order of their lists of
children, signatures, parameters and type parameters, at any depth and in as many places as one
likes; which orders are allowed is a `Reordering`. A slot sees nothing of its siblings, so slots
that are alike are visited alike, and what is below them is alike again up to the order
(`Slot.Alike.below`). So the visits of the two documents are the same up to their order
(`Slot.Alike.visits_perm`), and where no id is recorded twice the index cannot tell the order in
which it was filled (`Project.Alike.get?_index`).
-/

set_option autoImplicit false

namespace DocAtlas

/-! ## Documents in another order -/

/-- What may be put in another order, and how. Nothing is lost or added by it. -/
structure Reordering where
  /-- The children of something of a kind. -/
  children : SlotKind → List Declaration → List Declaration → Prop
  /-- Signatures, parameters and type parameters. -/
  others : {α : Type} → List α → List α → Prop
  children_perm : ∀ {kind a b}, children kind a b → a.Perm b
  others_perm : ∀ {α : Type} {a b : List α}, others a b → a.Perm b

/-- Every order is allowed everywhere. -/
def Reordering.any : Reordering where
  children _ a b := a.Perm b
  others a b := a.Perm b
  children_perm h := h
  others_perm h := h

section

variable (r : Reordering)

-- each list that may be put in another order is first gone through item by item, and `moved` is
-- what comes out of that
mutual

/-- The same type, but for the order of what is inside the declarations that it contains. -/
inductive TypeExpr.Alike : TypeExpr → TypeExpr → Prop where
  | refl (t : TypeExpr) : TypeExpr.Alike t t
  | mk {kind kind' : TypeKind} {arguments arguments' : List TypeExpr}
      (root : TypeKind.Alike kind kind')
      (behind : List.Forall₂ TypeExpr.Alike arguments arguments') :
      TypeExpr.Alike ⟨kind, arguments⟩ ⟨kind', arguments'⟩

/-- The same kind of type, but for the order of what is inside the declarations that it contains. -/
inductive TypeKind.Alike : TypeKind → TypeKind → Prop where
  | refl (kind : TypeKind) : TypeKind.Alike kind kind
  | array {t t' : TypeExpr} (element : TypeExpr.Alike t t') : TypeKind.Alike (.array t) (.array t')
  | tuple {ts ts' : List TypeExpr} (elements : List.Forall₂ TypeExpr.Alike ts ts') :
      TypeKind.Alike (.tuple ts) (.tuple ts')
  | union {ts ts' : List TypeExpr} (types : List.Forall₂ TypeExpr.Alike ts ts') :
      TypeKind.Alike (.union ts) (.union ts')
  | intersection {ts ts' : List TypeExpr} (types : List.Forall₂ TypeExpr.Alike ts ts') :
      TypeKind.Alike (.intersection ts) (.intersection ts')
  | operator {name : String} {t t' : TypeExpr} (target : TypeExpr.Alike t t') :
      TypeKind.Alike (.operator name t) (.operator name t')
  | predicate {name : String} {asserts : Bool} {t t' : TypeExpr} (target : TypeExpr.Alike t t') :
      TypeKind.Alike (.predicate name asserts (some t)) (.predicate name asserts (some t'))
  | reflection {d d' : Declaration} (declaration : Declaration.Alike d d') :
      TypeKind.Alike (.reflection d) (.reflection d')

/-- The same type parameter, up to the order inside its constraint. -/
inductive TypeParameter.Alike : TypeParameter → TypeParameter → Prop where
  | mk {id : Option Int} {name : String} {constraint constraint' : Option TypeExpr}
      {comment : Comment} {place : Place}
      (bound : Option.Rel TypeExpr.Alike constraint constraint') :
      TypeParameter.Alike ⟨id, name, constraint, comment, place⟩
        ⟨id, name, constraint', comment, place⟩

/-- The same parameter, up to the order inside its type. -/
inductive Parameter.Alike : Parameter → Parameter → Prop where
  | mk {id : Option Int} {name : String} {t t' : TypeExpr} {comment : Comment}
      {defaultValue : Option String} {flags : Flags} {place : Place} (type : TypeExpr.Alike t t') :
      Parameter.Alike ⟨id, name, t, comment, defaultValue, flags, place⟩
        ⟨id, name, t', comment, defaultValue, flags, place⟩

/-- The same signature, up to the order of its type parameters and parameters and the order inside
them. -/
inductive Signature.Alike : Signature → Signature → Prop where
  | mk {id : Option Int} {kind : SignatureKind} {name : String} {sources : List Source}
      {flags : Flags} {comment : Comment} {types movedTypes types' : List TypeParameter}
      {params movedParams params' : List Parameter} {result result' : Option TypeExpr}
      {inherited : Option Json} {place : Place} {owner : MemberProperties}
      (typeParameters : List.Forall₂ TypeParameter.Alike types movedTypes)
      (typeOrder : r.others movedTypes types')
      (parameters : List.Forall₂ Parameter.Alike params movedParams)
      (order : r.others movedParams params')
      (behind : Option.Rel TypeExpr.Alike result result') :
      Signature.Alike
        ⟨id, kind, name, sources, flags, comment, types, params, result, inherited, place, owner⟩
        ⟨id, kind, name, sources, flags, comment, types', params', result', inherited, place, owner⟩

/-- The same detail, up to the order of its signatures or type parameters and the order inside
it. -/
inductive Detail.Alike : Detail → Detail → Prop where
  | accessor {getter getter' setter setter' : Option Signature}
      (get : Option.Rel Signature.Alike getter getter')
      (set : Option.Rel Signature.Alike setter setter') :
      Detail.Alike (.accessor getter setter) (.accessor getter' setter')
  | classLike {kind : ClassKind} {extended extended' implemented implemented' : List TypeExpr}
      {types moved types' : List TypeParameter}
      (supers : List.Forall₂ TypeExpr.Alike extended extended')
      (interfaces : List.Forall₂ TypeExpr.Alike implemented implemented')
      (typeParameters : List.Forall₂ TypeParameter.Alike types moved)
      (order : r.others moved types') :
      Detail.Alike (.classLike kind extended implemented types)
        (.classLike kind extended' implemented' types')
  | callable {kind : CallableKind} {signatures moved signatures' : List Signature}
      (parts : List.Forall₂ Signature.Alike signatures moved) (order : r.others moved signatures') :
      Detail.Alike (.callable kind signatures) (.callable kind signatures')
  | member {kind : MemberKind} {t t' : TypeExpr} (type : TypeExpr.Alike t t') :
      Detail.Alike (.member kind t) (.member kind t')
  | typeLiteral {variant : Option String} {signatures moved signatures' : List Signature}
      {indexer indexer' : Option Signature} (parts : List.Forall₂ Signature.Alike signatures moved)
      (order : r.others moved signatures') (index : Option.Rel Signature.Alike indexer indexer') :
      Detail.Alike (.typeLiteral variant signatures indexer)
        (.typeLiteral variant signatures' indexer')
  | scope {kind : ScopeKind} : Detail.Alike (.scope kind) (.scope kind)

/-- The same declaration, up to the order of its children and the order inside it. -/
inductive Declaration.Alike : Declaration → Declaration → Prop where
  | refl (d : Declaration) : Declaration.Alike d d
  | mk {header : Header} {children moved children' : List Declaration} {detail detail' : Detail}
      (parts : List.Forall₂ Declaration.Alike children moved)
      (order : r.children (.declaration detail.kind) moved children')
      (inside : Detail.Alike detail detail') :
      Declaration.Alike ⟨header, children, detail⟩ ⟨header, children', detail'⟩

end

/-- The same project, up to the order of its declarations and the order inside them. -/
inductive Project.Alike : Project → Project → Prop where
  | mk {p : Project} {moved children : List Declaration}
      (parts : List.Forall₂ (Declaration.Alike r) p.children moved)
      (order : r.children .project moved children) :
      Project.Alike p { p with children := children }

/-- The same slot, up to the order inside it. -/
inductive Slot.Alike : Slot → Slot → Prop where
  | refl (s : Slot) : Slot.Alike s s
  | declaration {d d' : Declaration} (h : d.Alike r d') :
      Slot.Alike (.declaration d) (.declaration d')
  | signature {s s' : Signature} (h : s.Alike r s') : Slot.Alike (.signature s) (.signature s')
  | parameter {p p' : Parameter} (h : p.Alike r p') : Slot.Alike (.parameter p) (.parameter p')
  | typeParameter {p p' : TypeParameter} (h : p.Alike r p') :
      Slot.Alike (.typeParameter p) (.typeParameter p')

end

variable {r : Reordering}

instance : Std.Refl (TypeExpr.Alike r) := ⟨.refl⟩

instance : Std.Refl (Declaration.Alike r) := ⟨.refl⟩

/-- What may be absent is related to itself. -/
theorem option_rel_refl {α : Type} {R : α → α → Prop} [Std.Refl R] (a : Option α) :
    Option.Rel R a a := by
  cases a with
  | none => exact .none
  | some a => exact .some (Std.Refl.refl a)

/-- Details that are alike are of one kind. -/
theorem Detail.Alike.kind_eq {d d' : Detail} (h : d.Alike r d') : d'.kind = d.kind := by
  cases h <;> rfl

/-- Behind types that are alike there are declarations that are alike, or none. -/
theorem TypeExpr.Alike.reflected {t t' : TypeExpr} (h : t.Alike r t') :
    Option.Rel (Declaration.Alike r) t.reflected t'.reflected := by
  cases h with
  | refl => exact option_rel_refl _
  | mk root _ =>
    cases root with
    | refl => exact option_rel_refl _
    | reflection h => exact .some h
    | array | tuple | union | intersection | operator | predicate => exact .none

/-! ## Below a slot -/

/-- Slots that are alike one by one, up to their order. -/
def Slot.AlikeUpToOrder (r : Reordering) (a b : List Slot) : Prop :=
  ∃ moved, List.Forall₂ (Slot.Alike r) a moved ∧ moved.Perm b

namespace Slot.AlikeUpToOrder

/-- Slots are alike as they stand. -/
theorem refl (slots : List Slot) : AlikeUpToOrder r slots slots :=
  ⟨slots, List.forall₂_same.mpr fun s _ => .refl s, .refl slots⟩

/-- Two groups of slots, one behind the other. -/
theorem append {a b a' b' : List Slot} (h : AlikeUpToOrder r a b) (h' : AlikeUpToOrder r a' b') :
    AlikeUpToOrder r (a ++ a') (b ++ b') := by
  obtain ⟨moved, hparts, hperm⟩ := h
  obtain ⟨moved', hparts', hperm'⟩ := h'
  exact ⟨moved ++ moved', List.rel_append hparts hparts', hperm.append hperm'⟩

/-- Items that are alike one by one and then put in another order make such slots. -/
theorem map {α : Type} {R : α → α → Prop} {f : α → Slot} {a moved b : List α}
    (hparts : List.Forall₂ R a moved) (hperm : moved.Perm b)
    (hf : ∀ x y, R x y → (f x).Alike r (f y)) : AlikeUpToOrder r (a.map f) (b.map f) := by
  refine ⟨moved.map f, ?_, hperm.map f⟩
  rw [List.forall₂_map_left_iff, List.forall₂_map_right_iff]
  exact hparts.imp hf

/-- A slot that may be absent. -/
theorem option {α : Type} {R : α → α → Prop} {f : α → Slot} {a b : Option α} (h : Option.Rel R a b)
    (hf : ∀ x y, R x y → (f x).Alike r (f y)) :
    AlikeUpToOrder r (a.toList.map f) (b.toList.map f) := by
  cases h with
  | none => exact refl []
  | some hxy => exact ⟨_, .cons (hf _ _ hxy) .nil, .refl _⟩

/-- Details that are alike lead to slots that are alike. -/
theorem detail {d d' : Detail} (h : d.Alike r d') : AlikeUpToOrder r d.slots d'.slots := by
  cases h with
  | accessor get set =>
    exact (option get fun _ _ => .signature).append (option set fun _ _ => .signature)
  | classLike _ _ typeParameters order =>
    exact map typeParameters (r.others_perm order) fun _ _ => .typeParameter
  | callable parts order => exact map parts (r.others_perm order) fun _ _ => .signature
  | member type => exact option type.reflected fun _ _ => .declaration
  | typeLiteral parts order index =>
    exact (map parts (r.others_perm order) fun _ _ => .signature).append
      (option index fun _ _ => .signature)
  | scope => exact refl []

end Slot.AlikeUpToOrder

namespace Slot.Alike

variable {s s' : Slot}

/-- **Below slots that are alike there are slots that are alike, up to their order.** -/
theorem below (h : s.Alike r s') : AlikeUpToOrder r s.below s'.below := by
  cases h with
  | refl => exact .refl _
  | declaration h =>
    cases h with
    | refl => exact .refl _
    | mk parts order inside =>
      exact (AlikeUpToOrder.map parts (r.children_perm order) fun _ _ => .declaration).append
        (.detail inside)
  | signature h =>
    cases h with
    | mk typeParameters typeOrder parameters order _ =>
      exact (AlikeUpToOrder.map parameters (r.others_perm order) fun _ _ => .parameter).append
        (.map typeParameters (r.others_perm typeOrder) fun _ _ => .typeParameter)
  | parameter h =>
    cases h with
    | mk type => exact .option type.reflected fun _ _ => .declaration
  | typeParameter h => exact .refl []

/-- A visit sees nothing of the order inside a slot. -/
theorem visit_eq (h : s.Alike r s') (baseDir : String) (around : Surroundings) :
    s'.visit baseDir around = s.visit baseDir around := by
  cases h with
  | refl => rfl
  | declaration h =>
    cases h with
    | refl => rfl
    | @mk header children _ children' _ _ _ _ inside =>
      -- a visit sees the header and the kind of a declaration, and both are the same
      exact visit_declaration_of_kind baseDir header children children' header.place around
        inside.kind_eq
  | signature h => cases h; rfl
  | parameter h => cases h; rfl
  | typeParameter h => cases h; rfl

/-- What is below inherits nothing of it either. -/
theorem surroundings_eq (h : s.Alike r s') (baseDir : String) (around : Surroundings) :
    s'.surroundings (s'.placeIn baseDir around) = s.surroundings (s.placeIn baseDir around) := by
  have hplace : s'.placeIn baseDir around = s.placeIn baseDir around :=
    congrArg Visit.place (h.visit_eq baseDir around)
  rw [hplace]
  cases h with
  | refl => rfl
  | declaration h =>
    cases h with
    | refl => rfl
    | mk _ _ inside =>
      simp only [surroundings, id, kind, Declaration.kind, properties, inside.kind_eq]
  | signature h => cases h; rfl
  | parameter h => cases h; rfl
  | typeParameter h => cases h; rfl

end Slot.Alike

/-! ## The visits -/

/-- What comes out of items is the same up to the order if it is so for each of them. -/
theorem perm_flatMap_of_forall₂ {α β : Type} {R : α → α → Prop} {f g : α → List β} {a b : List α}
    (h : List.Forall₂ R a b) (hfg : ∀ x ∈ a, ∀ y, R x y → (f x).Perm (g y)) :
    (a.flatMap f).Perm (b.flatMap g) := by
  induction h with
  | nil => exact .nil
  | @cons x y a b hxy _ ih =>
    obtain ⟨hx, ha⟩ := List.forall_mem_cons.mp hfg
    rw [List.flatMap_cons, List.flatMap_cons]
    exact (hx y hxy).append (ih ha)

/-- **Slots that are alike are visited alike, with all that is below them, up to the order.** -/
theorem Slot.Alike.visits_perm {s s' : Slot} (h : s.Alike r s') (baseDir : String)
    (around : Surroundings) :
    ((s.within baseDir around).map fun found => found.1.visit baseDir found.2).Perm
      ((s'.within baseDir around).map fun found => found.1.visit baseDir found.2) := by
  induction around, s using Slot.within.induct baseDir generalizing s' with
  | case1 around s ih =>
    obtain ⟨moved, hparts, hperm⟩ := h.below
    rw [within_eq, within_eq, List.map_cons, List.map_cons, h.visit_eq, h.surroundings_eq,
      List.map_flatMap, List.map_flatMap]
    -- first the slots below change one by one, and then their order
    refine List.Perm.cons _ (List.Perm.trans ?_ (hperm.flatMap_right _))
    exact perm_flatMap_of_forall₂ hparts fun child hchild _ halike => ih ⟨child, hchild⟩ halike

namespace Project

variable {p q : Project}

/-- **Projects that are alike are visited alike, up to the order.** -/
theorem Alike.visits_perm (h : p.Alike r q) (baseDir : String) :
    (p.visits baseDir).Perm (q.visits baseDir) := by
  cases h with
  | @mk moved children parts order =>
    rw [visits_eq_slots, visits_eq_slots, slots, slots, List.map_flatMap, List.map_flatMap]
    refine List.Perm.trans ?_ ((r.children_perm order).flatMap_right _)
    exact perm_flatMap_of_forall₂ parts fun d _ _ halike =>
      Slot.Alike.visits_perm (.declaration halike) baseDir _

/-- So the same is recorded about them, in some order. -/
theorem Alike.records_perm (h : p.Alike r q) (baseDir : String) :
    (p.records baseDir).Perm (q.records baseDir) := by
  have hvisits := h.visits_perm baseDir
  rw [records_eq, records_eq]
  cases h
  exact (hvisits.filterMap _).append_left _

end Project

/-! ## The index -/

/-- Of the records of an id there is at most one, so their order cannot matter. -/
theorem filter_id_eq_of_perm {a b : List (Int × IndexEntry)} (h : a.Perm b)
    (hids : (a.map (·.1)).Nodup) (i : Int) :
    a.filter (·.1 = i) = b.filter (·.1 = i) := by
  have hfilter : (a.filter (·.1 = i)).Perm (b.filter (·.1 = i)) := h.filter _
  have hone : (a.filter (·.1 = i)).length ≤ 1 := by
    have hcount := List.nodup_iff_count_le_one.mp hids i
    rw [List.count, List.countP_map, List.countP_eq_length_filter] at hcount
    exact hcount
  cases hfound : a.filter (·.1 = i) with
  | nil =>
    rw [hfound] at hfilter
    exact (List.nil_perm.mp hfilter).symm
  | cons found rest =>
    rw [hfound, List.length_cons] at hone
    have hrest : rest = [] := List.eq_nil_of_length_eq_zero (by omega)
    rw [hfound, hrest] at hfilter
    rw [hrest]
    exact List.singleton_perm.mp hfilter

/-- What is alike has the same index, if no id is recorded twice. -/
theorem Project.Alike.get?_index {p q : Project} (h : p.Alike r q) {baseDir : String}
    (hids : ((p.records baseDir).map (·.1)).Nodup) (i : Int) :
    (p.index baseDir).value.get? i = (q.index baseDir).value.get? i := by
  rw [Project.get?_index, Project.get?_index, filter_id_eq_of_perm (h.records_perm baseDir) hids]

/-- **The order of siblings makes no difference to the index.** Where no id is recorded twice,
indexing a project and indexing it with its children, signatures, parameters and type parameters in
any other order, at any depth, record the same about every id. -/
theorem Project.get?_populate_of_alike {p q : Project} (h : p.Alike .any q) {baseDir : String}
    (hids : ((p.records baseDir).map (·.1)).Nodup) (i : Int) :
    (p.populate baseDir).value.2.get? i = (q.populate baseDir).value.2.get? i :=
  h.get?_index hids i

/-- A property that is a string. -/
def stringProperty (id : Int) (name : String) : Declaration :=
  ⟨{ id := some id, name := name }, [], .member .property ⟨.intrinsic "string", []⟩⟩

/-- A parameter that is an object with two properties. -/
def objectParameter (properties : List Declaration) : Parameter :=
  ⟨some 3, "options",
    ⟨.reflection ⟨{ id := some 4, name := "__type" }, properties, .typeLiteral none [] none⟩, []⟩,
    {}, none, {}, default⟩

/-- A parameter that is a number. -/
def numberParameter : Parameter :=
  ⟨some 7, "depth", ⟨.intrinsic "number", []⟩, {}, none, {}, default⟩

/-- A method with these parameters. -/
def methodWith (parameters : List Parameter) : Declaration :=
  ⟨{ id := some 1, name := "walk" }, [],
    .callable .method
      [⟨some 2, .call, "walk", [], {}, {}, [], parameters, none, none, default, {}⟩]⟩

/-- A class in the file `tree.ts` with these children. -/
def treeWith (children : List Declaration) : Project where
  children := [⟨{ id := some 0, name := "Tree", sources := [⟨"tree.ts", 1⟩] }, children,
    .classLike .classDecl [] [] []⟩]

/-- The properties of an object, the parameters of a method and the members of a class change places
at once. -/
theorem Project.get?_populate_of_alike_tree :
    let p := treeWith [methodWith [objectParameter [stringProperty 5 "from", stringProperty 6 "to"],
      numberParameter], stringProperty 8 "name"]
    let q := treeWith [stringProperty 8 "name", methodWith [numberParameter,
      objectParameter [stringProperty 6 "to", stringProperty 5 "from"]]]
    (p.populate ".").value.2.get? 6 = (q.populate ".").value.2.get? 6
      ∧ ((p.populate ".").value.2.get? 6).map (·.path)
        = some ["./", "tree.", "Tree#", "walk.", "__type.", "to"] := by
  have hobject : (objectParameter [stringProperty 5 "from", stringProperty 6 "to"]).Alike .any
      (objectParameter [stringProperty 6 "to", stringProperty 5 "from"]) :=
    .mk (.mk (.reflection (.mk (.cons (.refl _) (.cons (.refl _) .nil)) (.swap _ _ _)
      (.typeLiteral .nil .nil .none))) .nil)
  have hnumber : numberParameter.Alike .any numberParameter := .mk (.refl _)
  -- inside out: the object, the parameters of the method, and the members of the class
  have hmethod : Declaration.Alike .any
      (methodWith [objectParameter [stringProperty 5 "from", stringProperty 6 "to"],
        numberParameter])
      (methodWith [numberParameter,
        objectParameter [stringProperty 6 "to", stringProperty 5 "from"]]) :=
    .mk .nil .nil (.callable (.cons (.mk .nil .nil (.cons hobject (.cons hnumber .nil))
      (.swap _ _ _) .none) .nil) (.refl _))
  have halike : Project.Alike .any
      (treeWith [methodWith [objectParameter [stringProperty 5 "from", stringProperty 6 "to"],
        numberParameter], stringProperty 8 "name"])
      (treeWith [stringProperty 8 "name", methodWith [numberParameter,
        objectParameter [stringProperty 6 "to", stringProperty 5 "from"]]]) :=
    .mk (.cons (.mk (.cons hmethod (.cons (.refl _) .nil)) (.swap _ _ _)
      (.classLike .nil .nil .nil .nil)) .nil) (.refl _)
  exact ⟨Project.get?_populate_of_alike halike (by decide +kernel) 6, by decide +kernel⟩

end DocAtlas
