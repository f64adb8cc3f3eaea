import DocAtlas.Proofs.Pathname
import DocAtlas.Proofs.Worklist

/-!
The paths of entities.

An entity takes its path from one of two places: a class, an interface, an accessor or a plain
member from its own declaration, and a function from the signature that it is documented by, without
the segment of a type that has no name (`path_of_convert`). What a declaration can be converted to
at all is said once, in `convert_cases`.

Two facts come out. In every path of an entity the segments before the last keep the punctuation
that joins them to the next one (`punctuated_of_convert`). And where a declaration and the literal
behind its type have the names that are usual for them, both routes lead to the place of the
declaration (`IsLinkTarget.documentedPath_eq`).
-/

set_option autoImplicit false

namespace DocAtlas

open Attempt (Gives)

/-! ## Places -/

/-- The segments that a slot adds itself: none, those of its file, or its name. -/
theorem Slot.punctuated_ownSegments (s : Slot) (baseDir : String) :
    (s.ownSegments baseDir).Punctuated := by
  cases s with
  | declaration d =>
    rw [ownSegments, Declaration.ownSegments]
    split
    · split
      · split
        · exact Pathname.punctuated_nil
        · exact Pathname.punctuated_segments _
      · exact Pathname.punctuated_nil
    · exact Pathname.punctuated_singleton _
  | signature _ => exact Pathname.punctuated_nil
  | parameter _ => exact Pathname.punctuated_nil
  | typeParameter _ => exact Pathname.punctuated_nil

/-- A slot's path is punctuated if the path that it hangs on is. -/
theorem Slot.punctuated_placeIn {s : Slot} {baseDir : String} {around : Surroundings}
    (h : around.place.path.Punctuated) : (s.placeIn baseDir around).path.Punctuated :=
  Pathname.punctuated_join (s.punctuated_ownSegments baseDir) h

/-- The path that everything on the walk hangs on is punctuated, as every step down adds to it. -/
theorem Project.Reaches.punctuated {p : Project} {baseDir : String} {around : Surroundings}
    {s : Slot} (h : p.Reaches baseDir around s) : around.place.path.Punctuated := by
  induction h with
  | child _ => exact Pathname.punctuated_nil
  | down _ _ ih => exact Slot.punctuated_placeIn ih

/-- **The path of everything in a placed project is punctuated.** -/
theorem Project.Reaches.punctuated_place {p : Project} {baseDir : String} {around : Surroundings}
    {s : Slot} (h : (p.placed baseDir).Reaches baseDir around s) : s.place.path.Punctuated := by
  cases h.placed with
  | mk here _ _ =>
    rw [here]
    exact Slot.punctuated_placeIn h.punctuated

/-- Nothing below the project is a project. -/
theorem Slot.owner_ne_project (s : Slot) : s.kind.owner ≠ .project := by
  -- an owner is a project only by the name of its kind, and a slot has no kind of this name
  unfold SlotKind.owner
  split
  · rename_i h
    cases s <;> cases h
  · exact nofun
  · exact nofun

namespace Slot.Placed

variable {baseDir : String} {around : Surroundings}

/-- The path of a slot is its own segments joined onto the path of its surroundings. -/
theorem path_eq {s : Slot} (h : s.Placed baseDir around) :
    ∃ filename, s.place.path
      = Pathname.join (s.ownSegments baseDir) s.isModule s.isStatic around.kind.owner
        around.place.path filename := by
  cases h with
  | mk here _ _ =>
    rw [here]
    exact ⟨_, rfl⟩

/-- What is below a placed slot is placed in the surroundings that the slot makes. -/
theorem of_mem_below {s child : Slot} (h : s.Placed baseDir around) (hchild : child ∈ s.below) :
    child.Placed baseDir (s.surroundings s.place) := by
  cases h with
  | mk _ _ below => exact below child hchild

/-- A signature stands where the slot above it does. -/
theorem signature_path {s : Slot} (h : s.Placed baseDir around) {signature : Signature}
    (hbelow : .signature signature ∈ s.below) : signature.place.path = s.place.path := by
  obtain ⟨filename, hpath⟩ := (h.of_mem_below hbelow).path_eq
  exact hpath.trans (Pathname.join_nil_of_ne_project s.owner_ne_project)

/-- Everything but a module ends in its own name. -/
theorem getLast?_path {d : Declaration} (h : (Slot.declaration d).Placed baseDir around)
    (hmodule : d.isModule = false) : d.header.place.path.getLast? = some d.name := by
  obtain ⟨filename, hpath⟩ := h.path_eq
  rw [ownSegments, Declaration.ownSegments, if_neg (by simp [hmodule])] at hpath
  rw [show d.header.place.path = _ from hpath]
  exact Pathname.getLast?_join_name

/-- What stands below something that has a path adds its name to that path, closed with a
delimiter. -/
theorem child_path {s : Slot} {child : Declaration} (h : s.Placed baseDir around)
    (hbelow : .declaration child ∈ s.below) (hmodule : child.isModule = false)
    (hne : s.place.path ≠ []) :
    child.header.place.path
      = Pathname.closeLast (Pathname.delimiter child.header.flags.isStatic s.kind.owner)
        s.place.path
        ++ [child.name] := by
  obtain ⟨filename, hpath⟩ := (h.of_mem_below hbelow).path_eq
  rw [ownSegments, Declaration.ownSegments, if_neg (by simp [hmodule])] at hpath
  -- below a project the name of a file would come in between
  exact hpath.trans (Pathname.join_name_of_ne_project s.owner_ne_project hne)

end Slot.Placed

/-! ## Entities -/

/-- The signature that a declaration is documented by, if it is documented as a function. -/
def Declaration.documentedSignature? (d : Declaration) : Option Signature :=
  match d.detail with
  | .callable _ signatures => signatures.head?
  | .typeLiteral _ signatures _ => signatures.head?
  | .member _ type => (callableLiteral type).bind (·.2.head?)
  | _ => none

/-- The sources of what a function is converted from: of the literal behind the type of a member
that can be called, if that literal has any, and else of the declaration itself. -/
def Declaration.documentedSources (d : Declaration) : List Source :=
  match d.detail with
  | .member _ type =>
    match callableLiteral type with
    | some (literal, _) => if literal.sources.isEmpty then d.header.sources else literal.sources
    | none => d.header.sources
  | _ => d.header.sources

/-- The path under which a declaration is documented. -/
def Declaration.documentedPath (d : Declaration) : Pathname :=
  match d.documentedSignature? with
  | some signature => (Pathname.stripAnonymous signature.place.path).1
  | none => d.header.place.path

namespace Scope

variable {scope : Scope}

/-- A function has the path of its first signature, without the segment of a type that has no
name. -/
theorem path_of_callable {owner : SignatureOwner} {signatures : List Signature} {f : Function}
    (h : (scope.callable owner signatures).value = some f) :
    ∃ signature, signatures.head? = some signature
      ∧ f.top.path = (Pathname.stripAnonymous signature.place.path).1 := by
  cases signatures with
  | nil => cases h
  | cons s rest =>
    refine ⟨s, rfl, ?_⟩
    rw [callable, signature] at h
    split at h
    · cases h
    · cases h
      rfl

/-- A class has the path of its declaration. -/
theorem path_of_classEntity {header : Header} {extended implemented : List TypeExpr}
    {typeParameters : List TypeParameter} {constructor : Option Function}
    {members : List ClassMember} {e : Entity}
    (h : Gives (scope.classEntity header extended implemented typeParameters constructor members)
      e) :
    e.path = header.place.path := by
  rw [classEntity] at h
  simp only [Attempt.gives_bind, Attempt.gives_liftM, Attempt.gives_pure] at h
  obtain ⟨top, rfl, -, -, -, -, -, -, rfl⟩ := h
  rfl

/-- An interface has the path of its declaration. -/
theorem path_of_interfaceEntity {header : Header} {extended : List TypeExpr}
    {typeParameters : List TypeParameter} {members : List ClassMember} {e : Entity}
    (h : Gives (scope.interfaceEntity header extended typeParameters members) e) :
    e.path = header.place.path := by
  rw [interfaceEntity] at h
  simp only [Attempt.gives_bind, Attempt.gives_liftM, Attempt.gives_pure] at h
  obtain ⟨top, rfl, -, -, -, -, rfl⟩ := h
  rfl

/-- **What a declaration can be converted to.** It is a function by the signature that documents it,
an attribute at its own place, or, for a class or an interface, what is made of its children. -/
theorem convert_cases {inherited : List TypeParameter} {d : Declaration} {e : Entity}
    (h : Gives (scope.convert inherited d) (some e)) :
    (∃ owner signatures f, e = .function f ∧ (scope.callable owner signatures).value = some f
        ∧ signatures.head? = d.documentedSignature? ∧ owner.sources = d.documentedSources)
      ∨ (d.documentedSignature? = none
        ∧ ∃ comment type, e = .attribute (scope.attributeOf d.header comment type).value)
      ∨ (d.documentedSignature? = none ∧ ∃ extended implemented typeParameters constructor members,
          Gives (scope.classMembers d.name typeParameters none d.children) (constructor, members)
          ∧ (Gives
            (scope.classEntity d.header extended implemented typeParameters constructor members) e
            ∨ Gives (scope.interfaceEntity d.header extended typeParameters members) e)) := by
  obtain ⟨header, children, detail⟩ := d
  -- one case for each kind of declaration, with what its conversion is made of
  cases detail with
  | classLike kind extended implemented typeParameters =>
    rw [convert] at h
    simp only [Attempt.gives_bind] at h
    obtain ⟨⟨constructor, members⟩, hmembers, h⟩ := h
    refine Or.inr (Or.inr
      ⟨rfl, extended, implemented, typeParameters, constructor, members, hmembers, ?_⟩)
    cases kind with
    | classDecl => exact Or.inl (by simpa using h)
    | interface => exact Or.inr (by simpa using h)
  | accessor getter setter =>
    rw [convert, accessor] at h
    -- an accessor without signatures has no entity
    split at h
    · simp at h
    · simp only [Attempt.gives_bind, Attempt.gives_liftM, Attempt.gives_pure, Option.some.injEq]
        at h
      obtain ⟨_, rfl, rfl⟩ := h
      exact Or.inr (Or.inl ⟨rfl, _, _, rfl⟩)
  | callable kind signatures =>
    obtain ⟨f, hf, rfl⟩ := Option.map_eq_some_iff.mp (gives_convert_callable.mp h)
    exact Or.inl ⟨_, signatures, f, rfl, hf, rfl, rfl⟩
  | member kind type =>
    rw [convert, Attempt.gives_liftM, member] at h
    -- a member is a function if the literal behind its type can be called
    rw [Declaration.documentedSignature?, Declaration.documentedSources]
    split at h
    · rename_i literal signatures hliteral
      obtain ⟨f, hf, rfl⟩ := Option.map_eq_some_iff.mp h
      refine Or.inl ⟨_, signatures, f, rfl, hf, ?_, ?_⟩
      · simp only [hliteral, Option.bind_some]
      · simp only [hliteral]
    · rename_i hliteral
      cases h
      exact Or.inr (Or.inl ⟨by simp only [hliteral, Option.bind_none], _, _, rfl⟩)
  | typeLiteral variant signatures indexer =>
    obtain ⟨f, hf, rfl⟩ := Option.map_eq_some_iff.mp (gives_convert_typeLiteral.mp h)
    exact Or.inl ⟨_, signatures, f, rfl, hf, rfl, rfl⟩
  | scope kind =>
    rw [convert] at h
    simp at h

/-- **What a declaration is converted to has the path under which the declaration is
documented.** -/
theorem path_of_convert {inherited : List TypeParameter} {d : Declaration} {e : Entity}
    (h : Gives (scope.convert inherited d) (some e)) : e.path = d.documentedPath := by
  rw [Declaration.documentedPath]
  -- the two routes of the path: through a signature, or through the declaration
  rcases convert_cases h with ⟨owner, signatures, f, rfl, hf, hhead, -⟩
    | ⟨hnone, comment, type, rfl⟩
    | ⟨hnone, _, _, _, _, _, -, hclass | hinterface⟩
  · obtain ⟨signature, hsignature, hpath⟩ := path_of_callable hf
    rw [← hhead, hsignature]
    exact hpath
  · rw [hnone]
    rfl
  · rw [hnone]
    exact path_of_classEntity hclass
  · rw [hnone]
    exact path_of_interfaceEntity hinterface

end Scope

/-! ## Documented paths -/

/-- A callable literal is the declaration behind the type, with its signatures below it. -/
theorem callableLiteral_eq_some {type : TypeExpr} {header : Header} {signatures : List Signature}
    (h : callableLiteral type = some (header, signatures)) :
    ∃ literal, type.reflected = some literal ∧ literal.header = header ∧ literal.isModule = false
      ∧ ∀ signature ∈ signatures, Slot.signature signature ∈ (Slot.declaration literal).below := by
  rw [callableLiteral] at h
  split at h
  · rename_i literal children variant s rest indexer hreflected
    cases h
    refine ⟨_, hreflected, rfl, rfl, ?_⟩
    intro signature hsignature
    exact List.mem_append_right _ (List.mem_append_left _ (List.mem_map_of_mem hsignature))
  · cases h

/-- The declaration behind the type of a member is below the member. -/
theorem Slot.mem_below_of_reflected {type : TypeExpr} {literal : Declaration}
    (h : type.reflected = some literal) (header : Header) (children : List Declaration)
    (kind : MemberKind) :
    Slot.declaration literal ∈ (Slot.declaration ⟨header, children, .member kind type⟩).below := by
  refine List.mem_append_right _ ?_
  rw [Detail.slots, h]
  exact List.mem_singleton_self _

/-- The signature that documents a declaration is below it, or below the literal behind its type. -/
theorem Declaration.below_of_documentedSignature? {d : Declaration} {signature : Signature}
    (h : d.documentedSignature? = some signature) :
    Slot.signature signature ∈ (Slot.declaration d).below
      ∨ ∃ literal, Slot.declaration literal ∈ (Slot.declaration d).below
        ∧ Slot.signature signature ∈ (Slot.declaration literal).below := by
  obtain ⟨header, children, detail⟩ := d
  cases detail with
  | callable kind signatures =>
    exact Or.inl (List.mem_append_right _ (List.mem_map_of_mem (List.mem_of_mem_head? h)))
  | typeLiteral variant signatures indexer =>
    exact Or.inl (List.mem_append_right _
      (List.mem_append_left _ (List.mem_map_of_mem (List.mem_of_mem_head? h))))
  | member kind type =>
    obtain ⟨⟨header, signatures⟩, hliteral, hhead⟩ := Option.bind_eq_some_iff.mp h
    obtain ⟨literal, hreflected, -, -, hbelow⟩ := callableLiteral_eq_some hliteral
    exact Or.inr ⟨literal, Slot.mem_below_of_reflected hreflected _ _ kind,
      hbelow _ (List.mem_of_mem_head? hhead)⟩
  -- the other kinds are documented by no signature
  | classLike kind extended implemented typeParameters => cases h
  | accessor getter setter => cases h
  | scope kind => cases h

/-- **The path under which a declaration of a placed project is documented is punctuated.** -/
theorem Project.Reaches.punctuated_documentedPath {p : Project} {baseDir : String}
    {around : Surroundings} {d : Declaration}
    (h : (p.placed baseDir).Reaches baseDir around (.declaration d)) :
    d.documentedPath.Punctuated := by
  rw [Declaration.documentedPath]
  split
  · rename_i signature hsignature
    refine Pathname.punctuated_stripAnonymous ?_
    rcases d.below_of_documentedSignature? hsignature with hbelow | ⟨literal, hliteral, hbelow⟩
    · exact (h.down hbelow).punctuated_place
    · exact ((h.down hliteral).down hbelow).punctuated_place
  · exact h.punctuated_place

/-- **Every entity of a converted project has a punctuated path.** -/
theorem Project.punctuated_of_convert {p : Project} {config : Config} {index : Index}
    {entities : List Entity} (h : Gives (p.convert config) (index, entities)) {e : Entity}
    (he : e ∈ entities) : e.path.Punctuated := by
  obtain ⟨item, hitem, hgives⟩ := p.exists_item_of_convert h he
  obtain ⟨around, hreaches⟩ := WorkItem.reaches_of_converted hitem
  rw [Scope.path_of_convert hgives]
  exact hreaches.punctuated_documentedPath

/-- Whether a declaration has an entity of its own at its own place: it is no type without a name,
nothing that only contains others, and the literal behind its type has no name if it can be
called. -/
def Declaration.IsLinkTarget (d : Declaration) : Prop :=
  d.name ≠ Pathname.anonymous ∧
    match d.detail with
    | .classLike _ _ _ _ => True
    | .accessor _ _ => True
    | .callable _ _ => True
    | .member _ type => ∀ literal ∈ callableLiteral type, literal.1.name = Pathname.anonymous
    | .typeLiteral _ _ _ => False
    | .scope _ => False

instance : DecidablePred Declaration.IsLinkTarget
  | ⟨_, _, .classLike _ _ _ _⟩ => inferInstanceAs (Decidable (_ ∧ True))
  | ⟨_, _, .accessor _ _⟩ => inferInstanceAs (Decidable (_ ∧ True))
  | ⟨_, _, .callable _ _⟩ => inferInstanceAs (Decidable (_ ∧ True))
  | ⟨_, _, .member _ type⟩ =>
    inferInstanceAs
      (Decidable (_ ∧ ∀ literal ∈ callableLiteral type, literal.1.name = Pathname.anonymous))
  | ⟨_, _, .typeLiteral _ _ _⟩ => inferInstanceAs (Decidable (_ ∧ False))
  | ⟨_, _, .scope _⟩ => inferInstanceAs (Decidable (_ ∧ False))

/-- **The path of a link target's entity is the path of its declaration.** -/
theorem Declaration.IsLinkTarget.documentedPath_eq {baseDir : String} {around : Surroundings}
    {d : Declaration} (htarget : d.IsLinkTarget) (h : (Slot.declaration d).Placed baseDir around) :
    d.documentedPath = d.header.place.path := by
  obtain ⟨hname, htarget⟩ := htarget
  rw [Declaration.documentedPath]
  split
  · rename_i signature hsignature
    obtain ⟨header, children, detail⟩ := d
    cases detail with
    | classLike kind extended implemented typeParameters => cases hsignature
    | accessor getter setter => cases hsignature
    | typeLiteral variant signatures indexer => exact htarget.elim
    | scope kind => exact htarget.elim
    | callable kind signatures =>
      -- the signature stands where the callable does, and that path ends in a name that is not
      -- stripped
      have hbelow : Slot.signature signature
          ∈ (Slot.declaration ⟨header, children, .callable kind signatures⟩).below :=
        List.mem_append_right _ (List.mem_map_of_mem (List.mem_of_mem_head? hsignature))
      rw [h.signature_path hbelow]
      refine Pathname.stripAnonymous_of_ne ?_
      rw [show (Slot.declaration _).place.path.getLast? = _ from h.getLast?_path rfl]
      exact fun heq => hname (Option.some.inj heq)
    | member kind type =>
      obtain ⟨⟨literalHeader, signatures⟩, hliteral, hhead⟩ := Option.bind_eq_some_iff.mp hsignature
      obtain ⟨literal, hreflected, rfl, hmodule, hsignatures⟩ := callableLiteral_eq_some hliteral
      have hbelow := Slot.mem_below_of_reflected hreflected header children kind
      have hpath :=
        (h.of_mem_below hbelow).signature_path (hsignatures _ (List.mem_of_mem_head? hhead))
      have hne : header.place.path ≠ [] := by
        intro hnil
        have hlast := h.getLast?_path rfl
        rw [show (Declaration.mk header children (.member kind type)).header.place.path = []
          from hnil] at hlast
        cases hlast
      -- the literal adds its segment with a dot, and stripping takes both off again
      have hliteralPath : literal.header.place.path
          = Pathname.closeLast '.' header.place.path ++ [Pathname.anonymous] := by
        have hanonymous : literal.name = Pathname.anonymous := htarget _ hliteral
        rw [h.child_path hbelow hmodule hne, hanonymous, Pathname.delimiter, if_neg]
        · rfl
        · simp [Slot.kind, Declaration.kind, Detail.kind, SlotKind.owner]
      rw [hpath, show (Slot.declaration literal).place.path = _ from hliteralPath]
      exact Pathname.stripAnonymous_join hne
  · rfl

end DocAtlas
