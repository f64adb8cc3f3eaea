import DocAtlas.Proofs.Indexing
import DocAtlas.Proofs.MergedText
import DocAtlas.Proofs.SourceRecord

/-!
The paths in entities, and their punctuation.

An entity shows many paths besides its own: those of its source file, of the types that it is
related to, of the links in its rendered types, and all of these once more for the functions and
attributes inside it (`Entity.pathnames`). Each of them is looked up, that is, made from the name of
a file or taken from the index, or it is the path under which the declaration or one of its children
is documented (`Scope.origin_of_convert`).

Rendering has the one long way from an index to a path. Its step is that the parts of a frame have
no path that was not looked up, and the run over all frames follows by induction
(`lookedUp_of_tokensOf`).

Segments keep the punctuation that joins them on every one of these ways, so they keep it in every
path that is emitted (`Project.pathnames_punctuated`).
-/

set_option autoImplicit false

namespace DocAtlas

open Attempt (Gives)

/-! ## The paths in an entity -/

/-- The path that a link leads to, unless it leads to another package. -/
def TypeLink.path? : TypeLink → Option Pathname
  | .internal _ path => some path
  | .external _ _ _ _ => none

/-- The paths that a rendered type links to. -/
def TypeText.pathnames (tokens : TypeText) : List Pathname := tokens.links.filterMap TypeLink.path?

def TopLevel.pathnames (top : TopLevel) : List Pathname := top.path :: top.exportedFrom.toList

def TypeParam.pathnames (p : TypeParam) : List Pathname :=
  p.extends_.toList.flatMap TypeText.pathnames

def Function.pathnames (f : Function) : List Pathname :=
  f.top.pathnames ++ f.params.flatMap (·.type.pathnames) ++ f.returns.flatMap (·.type.pathnames)
    ++ f.typeParams.flatMap TypeParam.pathnames

def Attribute.pathnames (a : Attribute) : List Pathname := a.top.pathnames ++ a.type.pathnames

def ClassMember.pathnames : ClassMember → List Pathname
  | .function f => f.pathnames
  | .attribute a => a.pathnames

def Class.pathnames (c : Class) : List Pathname :=
  c.top.pathnames ++ c.constructor.toList.flatMap Function.pathnames
    ++ c.members.flatMap ClassMember.pathnames
    ++ c.supers ++ c.interfaces ++ c.typeParams.flatMap TypeParam.pathnames

def Interface.pathnames (i : Interface) : List Pathname :=
  i.top.pathnames ++ i.members.flatMap ClassMember.pathnames ++ i.supers
    ++ i.typeParams.flatMap TypeParam.pathnames

/-- Every path that occurs in an entity, those in the functions and attributes inside it as well. -/
def Entity.pathnames : Entity → List Pathname
  | .function f => f.pathnames
  | .classEntity c => c.pathnames
  | .interface i => i.pathnames
  | .attribute a => a.pathnames

/-- A member of a class shows the same paths as an entity of its own. -/
theorem ClassMember.pathnames_entity (m : ClassMember) : m.entity.pathnames = m.pathnames := by
  cases m <;> rfl

/-- A path that a conversion looks up: that of a file, or one in the index. -/
inductive Scope.LookedUp (scope : Scope) : Pathname → Prop
  | file (name : String) : scope.LookedUp (FilePath.segments name)
  | entry {id : Int} {found : IndexEntry} (h : scope.index.get? id = some found) :
    scope.LookedUp found.path

/-! ## Frames -/

namespace TypeFrame

/-- The path that a frame has already been given. -/
def path? : TypeFrame → Option Pathname
  | .token (.link target) => target.path?
  | _ => none

@[simp] theorem path?_text (s : String) : (text s).path? = none := rfl

@[simp] theorem path?_type (t : TypeExpr) : (TypeFrame.type t).path? = none := rfl

@[simp] theorem path?_signature (s : Signature) : (TypeFrame.signature s).path? = none := rfl

@[simp] theorem path?_object (members : List Declaration) (indexer : Option Signature) :
    (TypeFrame.object members indexer).path? = none := rfl

/-- Between the groups of a row there is nothing but the separator. -/
theorem mem_separated {separator : String} {groups : List (List TypeFrame)} {f : TypeFrame}
    (h : f ∈ separated separator groups) : f = text separator ∨ ∃ group ∈ groups, f ∈ group := by
  induction groups with
  | nil => cases h
  | cons group rest ih =>
    cases rest with
    | nil => exact Or.inr ⟨group, List.mem_singleton_self _, h⟩
    | cons next rest =>
      rw [separated, List.mem_append, List.mem_cons] at h
      · rcases h with h | rfl | h
        · exact Or.inr ⟨group, List.mem_cons_self, h⟩
        · exact Or.inl rfl
        · rcases ih h with rfl | ⟨other, hother, hf⟩
          · exact Or.inl rfl
          · exact Or.inr ⟨other, List.mem_cons_of_mem _ hother, hf⟩
      · exact List.cons_ne_nil _ _

/-! Only a reference that is looked up has a path: every other part of a type is text, or still to
be replaced. -/

/-- Types in a row have only the separator between them. -/
theorem path?_typesBetween (separator : String) (types : List TypeExpr) :
    ∀ f ∈ typesBetween separator types, f.path? = none := by
  intro f hf
  rcases mem_separated hf with rfl | ⟨group, hgroup, hf⟩
  · rfl
  · obtain ⟨t, -, rfl⟩ := List.mem_map.mp hgroup
    rw [List.mem_singleton.mp hf, path?_type]

theorem path?_enclosed (opening separator closing : String) (types : List TypeExpr) :
    ∀ f ∈ text opening :: typesBetween separator types ++ [text closing], f.path? = none := by
  rw [List.forall_mem_append, List.forall_mem_cons]
  exact ⟨⟨rfl, path?_typesBetween separator types⟩, by simp⟩

theorem path?_expandArguments (types : List TypeExpr) :
    ∀ f ∈ expandArguments types, f.path? = none := by
  unfold expandArguments
  split
  · simp
  · exact path?_enclosed "<" ", " ">" _

theorem path?_expandReflection (d : Declaration) : ∀ f ∈ expandReflection d, f.path? = none := by
  unfold expandReflection
  split <;> simp

theorem path?_expandMember (d : Declaration) : ∀ f ∈ expandMember d, f.path? = none := by
  unfold expandMember
  split <;> simp

theorem path?_expandIndexer (indexer : Option Signature) :
    ∀ f ∈ (expandIndexer indexer).value, f.path? = none := by
  unfold expandIndexer
  split
  · simp
  · rename_i s
    split
    · simp
    · cases s.result <;> simp

/-- The parts of a signature are texts and types that are still to be replaced. -/
theorem path?_expandSignature (s : Signature) : ∀ f ∈ expandSignature s, f.path? = none := by
  have hparameters : ∀ f ∈ separated ", "
      (s.parameters.map fun p => [text (p.name ++ ": "), .type p.type]), f.path? = none := by
    intro f hf
    rcases mem_separated hf with rfl | ⟨group, hgroup, hf⟩
    · rfl
    · obtain ⟨p, -, rfl⟩ := List.mem_map.mp hgroup
      simp only [List.mem_cons, List.not_mem_nil, or_false] at hf
      rcases hf with rfl | rfl <;> rfl
  unfold expandSignature
  rw [List.forall_mem_append, List.forall_mem_cons]
  refine ⟨⟨rfl, hparameters⟩, ?_⟩
  cases s.result with
  | none => simp
  | some t => cases ht : t.isVoid <;> simp [ht]

/-- The parts of an object are those of its members and of its index signature, between braces. -/
theorem path?_expandObject (members : List Declaration) (indexer : Option Signature) :
    ∀ f ∈ (expandObject members indexer).value, f.path? = none := by
  have hmembers : ∀ f ∈ members.flatMap expandMember, f.path? = none := by
    intro f hf
    obtain ⟨d, -, hf⟩ := List.mem_flatMap.mp hf
    exact path?_expandMember d f hf
  unfold expandObject
  simp only [Logged.value_bind, Logged.value_pure, List.forall_mem_append, List.forall_mem_cons]
  exact ⟨⟨⟨rfl, path?_expandIndexer indexer⟩, hmembers⟩, rfl,
    fun _ hf => absurd hf List.not_mem_nil⟩

end TypeFrame

/-! ## Rendered types -/

section

variable {scope : Scope} {path : Pathname}

/-- The path of a reference comes from the index. -/
theorem lookedUp_of_expandReference {r : Reference}
    (h : (expandReference scope.index r).value.path? = some path) :
    scope.LookedUp path := by
  unfold expandReference at h
  split at h
  · cases h
  · split at h
    · split at h
      · rename_i entry hentry
        cases h
        exact .entry hentry
      · cases h
    · split at h <;> cases h

/-- A path among the parts of a type has been looked up. -/
theorem lookedUp_of_expandType {t : TypeExpr} {f : TypeFrame}
    (hf : f ∈ (expandType scope.index t).value) (hpath : f.path? = some path) :
    scope.LookedUp path := by
  -- everything but a reference has no path
  have hnone : ∀ {frames : List TypeFrame}, (∀ g ∈ frames, g.path? = none) → f ∈ frames →
      scope.LookedUp path := by
    intro frames hframes hmem
    rw [hframes f hmem] at hpath
    cases hpath
  obtain ⟨kind, arguments⟩ := t
  rw [expandType, Logged.value_bind, Logged.value_pure, List.mem_append] at hf
  rcases hf with hf | hf
  · cases kind with
    | reference r =>
      rw [List.mem_singleton.mp hf] at hpath
      exact lookedUp_of_expandReference hpath
    | tuple elements =>
      exact hnone (TypeFrame.path?_enclosed "[" ", " "]" elements) hf
    | union types =>
      exact hnone (TypeFrame.path?_typesBetween "|" types) hf
    | intersection types =>
      exact hnone (TypeFrame.path?_typesBetween " & " types) hf
    | reflection d =>
      exact hnone (TypeFrame.path?_expandReflection d) hf
    | predicate name asserts target =>
      refine hnone ?_ hf
      cases asserts <;> cases target <;> simp [expandKind]
    | _ =>
      refine hnone ?_ hf
      simp [expandKind]
  · exact hnone (TypeFrame.path?_expandArguments _) hf

/-- **A path in the tokens of frames stands in one of the frames, or has been looked up.** The
induction is on the run: a frame that is replaced has parts without a path, or with one that has
been looked up. -/
theorem lookedUp_of_tokensOf {frames : List TypeFrame}
    (h : path ∈ (tokensOf scope.index frames).value.pathnames) :
    (∃ f ∈ frames, f.path? = some path) ∨ scope.LookedUp path := by
  -- what stands in the parts of a frame has been looked up, and what stands behind them is there
  -- before as well
  have hstep : ∀ {parts rest : List TypeFrame} (f : TypeFrame),
      (∀ g ∈ parts, g.path? = some path → scope.LookedUp path) →
      (∃ g ∈ parts ++ rest, g.path? = some path) ∨ scope.LookedUp path →
      (∃ g ∈ f :: rest, g.path? = some path) ∨ scope.LookedUp path := by
    rintro parts rest f hparts (⟨g, hg, hpath⟩ | hfound)
    · rcases List.mem_append.mp hg with hg | hg
      · exact Or.inr (hparts g hg hpath)
      · exact Or.inl ⟨g, List.mem_cons_of_mem _ hg, hpath⟩
    · exact Or.inr hfound
  induction frames using tokensOf.induct scope.index with
  | case1 =>
    rw [tokensOf] at h
    cases h
  | case2 t rest ih =>
    rw [tokensOf] at h
    have hrest : path ∈ TypeText.pathnames (tokensOf scope.index rest).value →
        (∃ f ∈ .token t :: rest, f.path? = some path) ∨ scope.LookedUp path := by
      intro hmem
      rcases ih hmem with ⟨f, hf, hpath⟩ | hfound
      · exact Or.inl ⟨f, List.mem_cons_of_mem _ hf, hpath⟩
      · exact Or.inr hfound
    cases t with
    | text s => exact hrest h
    | link target =>
      obtain ⟨link, hlink, hpath⟩ := List.mem_filterMap.mp h
      -- the path is that of this link, or stands further behind
      rcases List.mem_cons.mp hlink with rfl | hlink
      · exact Or.inl ⟨_, List.mem_cons_self, hpath⟩
      · exact hrest (List.mem_filterMap.mpr ⟨link, hlink, hpath⟩)
  | case3 t rest parts ih =>
    rw [tokensOf] at h
    exact hstep _ (fun _ hg hpath => lookedUp_of_expandType hg hpath) (ih h)
  | case4 s rest ih =>
    rw [tokensOf] at h
    refine hstep _ (fun g hg hpath => ?_) (ih h)
    rw [TypeFrame.path?_expandSignature s g hg] at hpath
    cases hpath
  | case5 members indexer rest parts ih =>
    rw [tokensOf] at h
    refine hstep _ (fun g hg hpath => ?_) (ih h)
    rw [TypeFrame.path?_expandObject members indexer g hg] at hpath
    cases hpath

/-- **A path in a rendered type has been looked up.** Merging its texts keeps the links. -/
theorem lookedUp_of_renderType {t : TypeExpr}
    (h : path ∈ (renderType scope.index t).value.pathnames) :
    scope.LookedUp path := by
  rw [value_renderType, TypeText.pathnames, TypeText.links_mergeTexts] at h
  rcases lookedUp_of_tokensOf h with ⟨f, hf, hpath⟩ | hfound
  · rw [List.mem_singleton.mp hf] at hpath
    cases hpath
  · exact hfound

/-! ## Parts of entities -/

namespace Scope

/-- The types of parameters are rendered one by one. -/
theorem lookedUp_of_params {sources : List ParamSource}
    (h : path ∈ (scope.params sources).value.flatMap (·.type.pathnames)) : scope.LookedUp path := by
  induction sources with
  | nil => cases h
  | cons p rest ih =>
    rcases List.mem_append.mp h with h | h
    · exact lookedUp_of_renderType h
    · exact ih h

theorem lookedUp_of_typeParam {p : TypeParameter} (h : path ∈ (scope.typeParam p).value.pathnames) :
    scope.LookedUp path := by
  cases hbound : p.constraint with
  | none => simp [typeParam, TypeParam.pathnames, hbound] at h
  | some t =>
    have hpath : path ∈ (renderType scope.index t).value.pathnames := by
      simpa [typeParam, TypeParam.pathnames, hbound] using h
    exact lookedUp_of_renderType hpath

/-- The bounds of type parameters are rendered one by one. -/
theorem lookedUp_of_typeParams {ps : List TypeParameter}
    (h : path ∈ (scope.typeParams ps).value.flatMap TypeParam.pathnames) : scope.LookedUp path := by
  induction ps with
  | nil => cases h
  | cons p rest ih =>
    rcases List.mem_append.mp h with h | h
    · exact lookedUp_of_typeParam h
    · exact ih h

/-- A result is rendered, unless it is left out. -/
theorem lookedUp_of_returns {s : Signature}
    (h : path ∈ (scope.returns s).value.flatMap (·.type.pathnames)) : scope.LookedUp path := by
  unfold returns at h
  split at h
  · cases h
  · split at h
    · cases h
    · rename_i t _
      split at h
      · cases h
      · have hpath : path ∈ (renderType scope.index t).value.pathnames := by simpa using h
        exact lookedUp_of_renderType hpath

/-- A related type is listed by a path from the index. -/
theorem lookedUp_of_relatedType {relation : Relation} {t : TypeExpr} {found : Option Pathname}
    (h : Gives (scope.relatedType relation t) found) (hpath : found = some path) :
    scope.LookedUp path := by
  subst hpath
  unfold relatedType at h
  split at h
  · split at h
    · split at h
      · rename_i entry hentry
        rw [Attempt.gives_pure] at h
        cases h
        exact .entry hentry
      · simp at h
    · split at h <;> simp at h
  · simp at h

theorem lookedUp_of_relatedTypes {relation : Relation} {types : List TypeExpr}
    {found : List Pathname} (h : Gives (scope.relatedTypes relation types) found)
    (hpath : path ∈ found) : scope.LookedUp path := by
  induction types generalizing found with
  | nil =>
    rw [relatedTypes, Attempt.gives_pure] at h
    rw [← h] at hpath
    cases hpath
  | cons t rest ih =>
    rw [relatedTypes] at h
    simp only [Attempt.gives_bind, Attempt.gives_pure] at h
    obtain ⟨here, hhere, more, hmore, rfl⟩ := h
    rcases List.mem_append.mp hpath with hpath | hpath
    · exact lookedUp_of_relatedType hhere (Option.mem_toList.mp hpath)
    · exact ih hmore hpath

/-- The path of an entity and the segments of its file. -/
theorem lookedUp_of_topLevel {name filename : String} {own : Pathname} {sources : List Source}
    {comment : Comment} (h : path ∈ (topLevel name own filename sources comment).value.pathnames) :
    scope.LookedUp path ∨ path = own := by
  rcases List.mem_cons.mp h with rfl | h
  · exact Or.inr rfl
  · left
    simp only [topLevel, Logged.value_bind, Logged.value_pure] at h
    split at h
    · rw [List.mem_singleton.mp h]
      exact .file filename
    · cases h

/-! ## Entities -/

/-- A path in a function has been looked up in one of its types, or is its own or that of its
file. -/
theorem lookedUp_of_callable {owner : SignatureOwner} {signatures : List Signature} {f : Function}
    (h : (scope.callable owner signatures).value = some f) (hpath : path ∈ f.pathnames) :
    scope.LookedUp path ∨ path = f.top.path := by
  cases signatures with
  | nil => cases h
  | cons s rest =>
    rw [callable, signature] at h
    split at h
    · cases h
    · cases h
      rw [Function.pathnames, List.mem_append, List.mem_append, List.mem_append] at hpath
      rcases hpath with ((htop | hparams) | hreturns) | htypeParams
      · exact lookedUp_of_topLevel htop
      · exact Or.inl (lookedUp_of_params hparams)
      · exact Or.inl (lookedUp_of_returns hreturns)
      · exact Or.inl (lookedUp_of_typeParams htypeParams)

/-- A path in an attribute likewise. -/
theorem lookedUp_of_attributeOf {header : Header} {comment : Comment} {type : TypeExpr}
    (h : path ∈ (scope.attributeOf header comment type).value.pathnames) :
    scope.LookedUp path ∨ path = header.place.path := by
  rcases List.mem_append.mp h with htop | htype
  · exact lookedUp_of_topLevel htop
  · exact Or.inl (lookedUp_of_renderType htype)

/-- A path in a class or an interface has been looked up, is its own path, or stands in something
inside it. -/
theorem inside_of_classLike {header : Header} {extended implemented : List TypeExpr}
    {typeParameters : List TypeParameter} {constructor : Option Function}
    {members : List ClassMember} {e : Entity}
    (h : Gives (scope.classEntity header extended implemented typeParameters constructor members) e
      ∨ Gives (scope.interfaceEntity header extended typeParameters members) e)
    (hpath : path ∈ e.pathnames) :
    (scope.LookedUp path ∨ path = e.path)
      ∨ ∃ m : ClassMember, ((∃ f, constructor = some f ∧ m = .function f) ∨ m ∈ members)
        ∧ path ∈ m.pathnames := by
  have hmember : path ∈ members.flatMap ClassMember.pathnames →
      ∃ m : ClassMember, ((∃ f, constructor = some f ∧ m = .function f) ∨ m ∈ members)
        ∧ path ∈ m.pathnames := by
    intro hmem
    obtain ⟨m, hm, hpath⟩ := List.mem_flatMap.mp hmem
    exact ⟨m, Or.inr hm, hpath⟩
  -- a class, and an interface, which has no constructor
  rcases h with h | h
  · simp only [classEntity, Attempt.gives_bind, Attempt.gives_liftM, Attempt.gives_pure] at h
    obtain ⟨top, rfl, supers, hsupers, interfaces, hinterfaces, typeParams, rfl, rfl⟩ := h
    simp only [Entity.pathnames, Class.pathnames, List.mem_append] at hpath
    rcases hpath with ((((htop | hconstructor) | hmembers) | hpath) | hpath) | htypeParams
    · exact Or.inl (lookedUp_of_topLevel htop)
    · obtain ⟨f, hf, hpath⟩ := List.mem_flatMap.mp hconstructor
      exact Or.inr ⟨.function f, Or.inl ⟨f, Option.mem_toList.mp hf, rfl⟩, hpath⟩
    · exact Or.inr (hmember hmembers)
    · exact Or.inl (Or.inl (lookedUp_of_relatedTypes hsupers hpath))
    · exact Or.inl (Or.inl (lookedUp_of_relatedTypes hinterfaces hpath))
    · exact Or.inl (Or.inl (lookedUp_of_typeParams htypeParams))
  · simp only [interfaceEntity, Attempt.gives_bind, Attempt.gives_liftM, Attempt.gives_pure] at h
    obtain ⟨top, rfl, supers, hsupers, typeParams, rfl, rfl⟩ := h
    simp only [Entity.pathnames, Interface.pathnames, List.mem_append] at hpath
    rcases hpath with ((htop | hmembers) | hpath) | htypeParams
    · exact Or.inl (lookedUp_of_topLevel htop)
    · exact Or.inr (hmember hmembers)
    · exact Or.inl (Or.inl (lookedUp_of_relatedTypes hsupers hpath))
    · exact Or.inl (Or.inl (lookedUp_of_typeParams htypeParams))

/-- A path in the entity of a declaration has been looked up, or is the one under which the
declaration is documented, unless the entity is a class or an interface and the path stands in what
a child is converted to. -/
theorem inside_of_convert {inherited : List TypeParameter} {d : Declaration} {e : Entity}
    (h : Gives (scope.convert inherited d) (some e)) (hpath : path ∈ e.pathnames) :
    (scope.LookedUp path ∨ path = d.documentedPath)
      ∨ (e.member? = none ∧ ∃ m : ClassMember, path ∈ m.pathnames
          ∧ ∃ child ∈ d.children, ∃ own, Gives (scope.convert own child) (some m.entity)) := by
  rw [← path_of_convert h]
  rcases convert_cases h with ⟨_, _, f, rfl, hf, -⟩ | ⟨-, _, _, rfl⟩
    | ⟨-, _, _, _, _, _, hmembers, hclass⟩
  · exact Or.inl (lookedUp_of_callable hf hpath)
  · exact Or.inl (lookedUp_of_attributeOf hpath)
  · rcases inside_of_classLike hclass hpath with hown | ⟨m, hm, hpath⟩
    · exact Or.inl hown
    · exact Or.inr
        ⟨(functions_of_classLike hclass).1, m, hpath, convert_of_classMembers hmembers hm⟩

/-- **A path in the entity of a declaration has been looked up, or it is the path under which the
declaration or one of its children is documented.** -/
theorem origin_of_convert {inherited : List TypeParameter} {d : Declaration} {e : Entity}
    (h : Gives (scope.convert inherited d) (some e)) (hpath : path ∈ e.pathnames) :
    scope.LookedUp path ∨ path = d.documentedPath ∨ ∃ child ∈ d.children,
      path = child.documentedPath := by
  rcases inside_of_convert h hpath with (hfound | hown) | ⟨-, m, hm, child, hchild, own, hgives⟩
  · exact Or.inl hfound
  · exact Or.inr (Or.inl hown)
  · -- the child is converted to a member, which has nothing inside it
    rw [← m.pathnames_entity] at hm
    rcases inside_of_convert hgives hm with (hfound | hown) | ⟨hnone, -⟩
    · exact Or.inl hfound
    · exact Or.inr (Or.inr ⟨child, hchild, hown⟩)
    · rw [Entity.member?_eq_some_iff.mpr rfl] at hnone
      cases hnone

end Scope

end

/-! ## Punctuation -/

/-- **The paths in the index of a project are punctuated.** -/
theorem Project.punctuated_of_get?_index {p : Project} {baseDir : String} {i : Int}
    {entry : IndexEntry} (h : (p.index baseDir).value.get? i = some entry) :
    entry.path.Punctuated := by
  rcases mem_records_iff.mp (mem_records_of_get?_index h) with ⟨-, rfl⟩
    | ⟨around, s, hreaches, -, rfl⟩
  · exact Pathname.punctuated_nil
  · exact Slot.punctuated_placeIn hreaches.punctuated

/-- **Whatever a conversion looks up is punctuated.** -/
theorem Project.punctuated_of_lookedUp {p : Project} {config : Config} {path : Pathname}
    (h : Scope.LookedUp ⟨(p.index config.baseDir).value, config⟩ path) : path.Punctuated := by
  cases h with
  | file name => exact Pathname.punctuated_segments name
  | entry h => exact punctuated_of_get?_index h

/-- **Every path that a conversion emits keeps its joining punctuation.** Wherever in an entity it
stands, each of its segments but the last is not empty and ends in a slash, a dot or a hash. -/
theorem Project.pathnames_punctuated {p : Project} {config : Config} {index : Index}
    {entities : List Entity} (h : Gives (p.convert config) (index, entities)) {e : Entity}
    (he : e ∈ entities) {path : Pathname} (hpath : path ∈ e.pathnames) :
    ∀ segment ∈ path.dropLast, segment ≠ ""
      ∧ (endsIn '/' segment ∨ endsIn '.' segment ∨ endsIn '#' segment) := by
  obtain ⟨item, hitem, hgives⟩ := p.exists_item_of_convert h he
  obtain ⟨around, hreaches⟩ : ∃ around,
      (p.placed config.baseDir).Reaches config.baseDir around (.declaration item.declaration) :=
    WorkItem.reaches_of_converted hitem
  obtain ⟨rfl, -⟩ := gives_convert_iff.mp h
  -- a child stands right below the declaration, so the walk reaches it too
  have hpunctuated : path.Punctuated := by
    rcases Scope.origin_of_convert hgives hpath with hfound | rfl | ⟨child, hchild, rfl⟩
    · exact punctuated_of_lookedUp hfound
    · exact hreaches.punctuated_documentedPath
    · have hbelow : Slot.declaration child ∈ (Slot.declaration item.declaration).below :=
        List.mem_append_left _ (List.mem_map_of_mem hchild)
      exact (hreaches.down hbelow).punctuated_documentedPath
  intro segment hsegment
  exact ⟨(hpunctuated segment hsegment).ne_empty, hpunctuated segment hsegment⟩

/-- A class that extends another one, with a constructor, and with a property that can be called. -/
def derivedClass : Project where
  children := [
    ⟨{ id := some 1, name := "Base", sources := [⟨"lib/c.ts", 1⟩] }, [],
      .classLike .classDecl [] [] []⟩,
    ⟨{ id := some 2, name := "Derived", sources := [⟨"lib/c.ts", 5⟩] },
      [⟨{ id := some 3, name := "constructor" }, [],
          .callable .constructor
            [⟨some 4, .constructor, "Derived", [], {}, {}, [], [], none, none, default, {}⟩]⟩,
        ⟨{ id := some 5, name := "done" }, [],
          .member .property ⟨.reflection ⟨{ id := some 6, name := "__type" }, [],
            .typeLiteral none
              [⟨some 7, .call, "__type", [], {}, {}, [], [], none, none, default, {}⟩] none⟩, []⟩⟩],
      .classLike .classDecl [⟨.reference { name := "Base", id := some 1 }, []⟩] [] []⟩]

/-- The second class shows its own path, those of its constructor and of its property, each with
that of the file, and that of the first class. -/
theorem Project.pathnames_punctuated_derivedClass :
    ∃ index entities e, Gives (derivedClass.convert {}) (index, entities) ∧ e ∈ entities
      ∧ e.pathnames = [["./", "lib/", "c.", "Derived"], ["./", "lib/", "c"],
          ["./", "lib/", "c.", "Derived#", "constructor"], ["./", "lib/", "c"],
          ["./", "lib/", "c.", "Derived#", "done"], ["./", "lib/", "c"],
          ["./", "lib/", "c.", "Base"]]
      ∧ ∀ path ∈ e.pathnames, ∀ segment ∈ path.dropLast,
          segment ≠ "" ∧ (endsIn '/' segment ∨ endsIn '.' segment ∨ endsIn '#' segment) := by
  obtain ⟨⟨index, entities⟩, h, hfacts⟩ :=
    Attempt.exists_gives_of_map (x := derivedClass.convert {})
      (fun result => result.2[1]?.map Entity.pathnames)
      (b := some [["./", "lib/", "c.", "Derived"], ["./", "lib/", "c"],
        ["./", "lib/", "c.", "Derived#", "constructor"], ["./", "lib/", "c"],
        ["./", "lib/", "c.", "Derived#", "done"], ["./", "lib/", "c"],
        ["./", "lib/", "c.", "Base"]])
      (by decide +kernel)
  obtain ⟨e, he, hpaths⟩ := Option.map_eq_some_iff.mp hfacts
  have hmem : e ∈ entities := List.mem_of_getElem? he
  exact ⟨index, entities, e, h, hmem, hpaths, fun path hpath => pathnames_punctuated h hmem hpath⟩

end DocAtlas
