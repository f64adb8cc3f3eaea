import DocAtlas.Proofs.ParentLinks

/-!
The segment of a type without a name, put behind a path and taken off again.

Joining closes a path with a dot or, for an instance member of a class, with a hash. Stripping looks
at the text alone and takes off a dot. So it undoes joining, also where the path ended in a
delimiter before, unless the unnamed thing is an instance member of a class: then the hash stays
behind, in the path and in the name (`Pathname.stripAnonymous_join_iff`).

Paths are joined by the kind of the owner, and all that matters about it can be told by its name
(`SlotKind.owner_eq_ofKindName`). So in a placed project this says where an unnamed callable is
documented (`Slot.Placed.documentedPath_unnamed_iff`): at the path of what it belongs to, with the
same exception.
-/

set_option autoImplicit false

namespace DocAtlas

/-! ## Owners -/

theorem Owner.ofKindName_eq_project_iff (kind : String) :
    ofKindName kind = .project ↔ kind = "Project" := by
  unfold ofKindName
  split
  · simp_all
  · split <;> simp_all

theorem Owner.ofKindName_eq_classDecl_iff (kind : String) :
    ofKindName kind = .classDecl ↔ kind = "Class" := by
  unfold ofKindName
  split
  · simp_all
  · split <;> simp_all

/-- **What a kind is to the paths below it can be told by its name.** So a path is joined in the
same way whether the owner is given or only the name of its kind. -/
theorem SlotKind.owner_eq_ofKindName (kind : SlotKind) : kind.owner = .ofKindName kind.name := by
  cases kind with
  | project => rfl
  | declaration kind =>
    cases kind with
    | accessor => rfl
    | typeLiteral => rfl
    | classLike kind => cases kind <;> rfl
    | callable kind => cases kind <;> rfl
    | member kind => cases kind <;> rfl
    | scope kind => cases kind <;> rfl
  | signature kind => cases kind <;> rfl
  | parameter => rfl
  | typeParameter => rfl

/-- Only classes are of a kind with the name of classes. -/
theorem SlotKind.name_eq_class_iff (kind : SlotKind) :
    kind.name = "Class" ↔ kind = .declaration (.classLike .classDecl) := by
  rw [← Owner.ofKindName_eq_classDecl_iff, ← owner_eq_ofKindName, owner_eq_classDecl_iff]

/-- No slot is of the kind of a project. -/
theorem Slot.kind_name_ne_project (s : Slot) : s.kind.name ≠ "Project" := by
  intro hname
  apply s.owner_ne_project
  rw [SlotKind.owner_eq_ofKindName, Owner.ofKindName_eq_project_iff, hname]

/-! ## Joining and stripping -/

namespace Pathname

variable {path : Pathname}

/-- A closed path ends in another segment. -/
theorem closeLast_ne (h : path ≠ []) (c : Char) : closeLast c path ≠ path := by
  rcases List.eq_nil_or_concat path with rfl | ⟨front, last, rfl⟩
  · exact absurd rfl h
  · rw [List.concat_eq_append, closeLast_append_singleton]
    intro heq
    have hlast : last.push c = last := by simpa using heq
    have hlength := congrArg String.length hlast
    rw [String.length_push] at hlength
    omega

/-- Closing a path is closing its last segment. -/
theorem getLast?_closeLast (c : Char) :
    (closeLast c path).getLast? = path.getLast?.map (·.push c) := by
  rcases List.eq_nil_or_concat path with rfl | ⟨front, last, rfl⟩
  · rfl
  · rw [List.concat_eq_append, closeLast_append_singleton, List.getLast?_concat,
      List.getLast?_concat, Option.map_some]

/-- Of an instance member of a class the hash is left. -/
theorem stripAnonymous_join_instance (hpath : path ≠ []) (filename : String) :
    stripAnonymous (join [anonymous] false false .classDecl path filename)
      = (closeLast '#' path, path.getLast?.map (·.push '#')) := by
  have hdelimiter : delimiter false .classDecl = '#' := rfl
  rw [join_name_of_ne_project (by decide) hpath, hdelimiter, stripAnonymous_closeLast hpath,
    if_neg (by decide), getLast?_closeLast]

/-- Everything else leaves nothing behind. -/
theorem stripAnonymous_join_of_dot {owner : Owner} (howner : owner ≠ .project) (hpath : path ≠ [])
    {isStatic : Bool} (hdot : ¬ (owner = .classDecl ∧ isStatic = false)) (filename : String) :
    stripAnonymous (join [anonymous] false isStatic owner path filename)
      = (path, path.getLast?) := by
  have hdelimiter : delimiter isStatic owner = '.' := by
    unfold delimiter
    apply if_neg
    simpa [and_comm] using hdot
  rw [join_name_of_ne_project howner hpath, hdelimiter, stripAnonymous_closeLast hpath, if_pos rfl]

/-- Whether the path comes back depends on the owner and on being static only. -/
theorem stripAnonymous_join_owner_iff {owner : Owner} (howner : owner ≠ .project)
    (hpath : path ≠ []) (isStatic : Bool) (filename : String) :
    (stripAnonymous (join [anonymous] false isStatic owner path filename)).1 = path
      ↔ ¬ (owner = .classDecl ∧ isStatic = false) := by
  by_cases hclass : owner = .classDecl ∧ isStatic = false
  · obtain ⟨rfl, rfl⟩ := hclass
    rw [stripAnonymous_join_instance hpath]
    -- the path is longer by a hash, so it is not the one from before
    exact iff_of_false (closeLast_ne hpath '#') (not_not_intro ⟨rfl, rfl⟩)
  · rw [stripAnonymous_join_of_dot howner hpath hclass]
    exact iff_of_true rfl hclass

/-- Whether the path comes back is told by the name of the owner's kind. -/
theorem stripAnonymous_join_kind_iff (hpath : path ≠ []) {kind : String} (hkind : kind ≠ "Project")
    (isStatic : Bool) (filename : String) :
    (stripAnonymous (join [anonymous] false isStatic (.ofKindName kind) path filename)).1 = path
      ↔ ¬ (kind = "Class" ∧ isStatic = false) := by
  have howner : Owner.ofKindName kind ≠ .project :=
    mt (Owner.ofKindName_eq_project_iff kind).mp hkind
  rw [← Owner.ofKindName_eq_classDecl_iff]
  exact stripAnonymous_join_owner_iff howner hpath isStatic filename

/-- **When stripping undoes joining.** What is left of an unnamed thing below a path is that path,
and the name is its last segment, exactly if the owner is no class or the thing is static. For an
instance member of a class the hash that joined it stays behind, in the path and in the name. -/
theorem stripAnonymous_join_iff (hpath : path ≠ []) {kind : String} (hkind : kind ≠ "Project")
    (isStatic : Bool) (filename : String) :
    (stripAnonymous (join [anonymous] false isStatic (.ofKindName kind) path filename)
        = (path, path.getLast?)
        ↔ ¬ (kind = "Class" ∧ isStatic = false))
      ∧ (kind = "Class" ∧ isStatic = false →
          stripAnonymous (join [anonymous] false isStatic (.ofKindName kind) path filename)
            = (closeLast '#' path, path.getLast?.map (·.push '#'))) := by
  have howner : Owner.ofKindName kind ≠ .project :=
    mt (Owner.ofKindName_eq_project_iff kind).mp hkind
  have hiff := stripAnonymous_join_kind_iff hpath hkind isStatic filename
  refine ⟨⟨fun heq => hiff.mp (congrArg Prod.fst heq), ?_⟩, ?_⟩
  · intro hdot
    -- the owner is given by the name of its kind, which says whether it is a class
    apply stripAnonymous_join_of_dot howner hpath
    rwa [Owner.ofKindName_eq_classDecl_iff]
  · rintro ⟨rfl, rfl⟩
    exact stripAnonymous_join_instance hpath filename

/-- A callback of a class, where the last segment of the path ends in a dot before anything is
joined to it. -/
theorem stripAnonymous_join_callback :
    (["./", "c.", "C#", "done."] : Pathname) ≠ [] ∧ "Property" ≠ "Project"
      ∧ stripAnonymous (join [anonymous] false false (.ofKindName "Property")
          ["./", "c.", "C#", "done."] "c.ts")
        = (["./", "c.", "C#", "done."], some "done.") :=
  ⟨by decide, by decide,
    (stripAnonymous_join_iff (by decide) (by decide) false "c.ts").1.mpr (by decide)⟩

end Pathname

/-! ## Unnamed callables of a project -/

/-- A module has no signature to be documented by. -/
theorem Declaration.isModule_eq_false_of_documentedSignature? {d : Declaration}
    {signature : Signature} (h : d.documentedSignature? = some signature) : d.isModule = false := by
  obtain ⟨header, children, detail⟩ := d
  cases detail with
  | scope kind => cases h
  | _ => rfl

/-- **An unnamed callable is documented at the path of what it belongs to, unless that is a class
and the callable is not static.** -/
theorem Slot.Placed.documentedPath_unnamed_iff {baseDir : String} {around : Surroundings} {s : Slot}
    {d : Declaration} {signature : Signature} (h : s.Placed baseDir around)
    (hne : s.place.path ≠ []) (hbelow : .declaration d ∈ s.below)
    (hname : d.name = Pathname.anonymous) (hsignature : d.documentedSignature? = some signature)
    (hown : .signature signature ∈ (Slot.declaration d).below) :
    d.documentedPath = s.place.path
      ↔ ¬ (s.kind = .declaration (.classLike .classDecl) ∧ d.header.flags.isStatic = false) := by
  have hplaced := h.of_mem_below hbelow
  obtain ⟨filename, hpath⟩ := hplaced.path_eq
  have hmodule : d.isModule = false :=
    Declaration.isModule_eq_false_of_documentedSignature? hsignature
  -- what is not a module is joined by its name, which is the unnamed one
  rw [Slot.ownSegments, Declaration.ownSegments, if_neg (by simp [hmodule]), hname, Slot.isModule,
    hmodule] at hpath
  have hdocumented : d.documentedPath = (Pathname.stripAnonymous signature.place.path).1 := by
    simp only [Declaration.documentedPath, hsignature]
  -- the path was joined by the kind of the slot, which is to say by its name
  have hkind : s.kind.owner = .ofKindName s.kind.name := s.kind.owner_eq_ofKindName
  rw [hdocumented, hplaced.signature_path hown, hpath, ← SlotKind.name_eq_class_iff]
  simp only [Slot.surroundings, hkind]
  exact Pathname.stripAnonymous_join_kind_iff hne s.kind_name_ne_project _ _

/-- A class with an unnamed literal that can be called as its child. -/
def unnamedMember : Project where
  children := [⟨{ id := some 1, name := "C", sources := [⟨"c.ts", 1⟩] },
    [⟨{ id := some 2, name := "__type", sources := [⟨"c.ts", 2⟩] }, [],
      .typeLiteral none [⟨some 3, .call, "__type", [], {}, {}, [], [], none, none, default, {}⟩]
        none⟩],
    .classLike .classDecl [] [] []⟩]

/-- The function of the literal is emitted with the hash of the class behind its path and its
name. -/
theorem Project.convert_unnamedMember :
    Pathname.stripAnonymous (Pathname.join [Pathname.anonymous] false false (.ofKindName "Class")
        ["./", "c.", "C"] "c.ts")
      ≠ (["./", "c.", "C"], some "C")
      ∧ (unnamedMember.convert {}).outcome.1.toOption.map
        (fun result => result.2.map fun e => (e.name, e.path))
        = some [("C", ["./", "c.", "C"]), ("C#", ["./", "c.", "C#"])] := by
  decide +kernel

end DocAtlas
