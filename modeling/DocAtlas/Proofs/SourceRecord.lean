import DocAtlas.Proofs.ClassMembers
import DocAtlas.Proofs.EntityPath

/-!
Where the file and the line of a function come from.

The two take different routes. The line is that of the first source of what the function is
converted from (`Declaration.documentedSources`), and the file is the one that indexing has put the
documenting signature in. Files are handed down from a member to the literal behind its type and
from there to the signature, so the file is that of the same source, unless the signature has a
source of its own, which comes first (`filename_of_documentedSignature`). So a function that has a
line names the file that this line is in exactly if the signature has no source in another file
(`Project.function_file_iff`).

This is about all functions of a conversion, those inside classes and interfaces as well: each of
them is what some declaration of the tree is converted to (`Project.exists_convertsTo`).
-/

set_option autoImplicit false

namespace DocAtlas

open Attempt (Gives)

/-! ## The functions of a conversion -/

/-- The function that a member is. -/
def ClassMember.function? : ClassMember → Option Function
  | .function f => some f
  | .attribute _ => none

/-- The functions that an entity shows: itself, or the constructor and the methods inside it. -/
def Entity.functions : Entity → List Function
  | .function f => [f]
  | .classEntity c => c.constructor.toList ++ c.members.filterMap ClassMember.function?
  | .interface i => i.members.filterMap ClassMember.function?
  | .attribute _ => []

/-- Only a function is taken for one. -/
theorem Entity.function?_eq_some_iff {e : Entity} {f : Function} :
    e.function? = some f ↔ e = .function f := by
  cases e <;> simp [function?]

/-- The entity that a member is on its own. -/
def ClassMember.entity : ClassMember → Entity
  | .function f => .function f
  | .attribute a => .attribute a

/-- An entity is a member if it can stand on its own as that member does. -/
theorem Entity.member?_eq_some_iff {e : Entity} {m : ClassMember} :
    e.member? = some m ↔ e = m.entity := by
  cases e <;> cases m <;> simp [member?, ClassMember.entity]

theorem ClassMember.function?_eq_some_iff {m : ClassMember} {f : Function} :
    m.function? = some f ↔ m = .function f := by
  cases m <;> simp [function?]

namespace Scope

variable {scope : Scope}

/-- The entity of an item is what its declaration is converted to. -/
theorem gives_of_entityOf {item : WorkItem} {e : Entity} (h : scope.entityOf item = some e) :
    Gives (scope.convert item.inherited item.declaration) (some e) := by
  unfold entityOf at h
  split at h
  · rename_i entity houtcome
    rw [Gives, houtcome, h]
  · cases h

/-- The constructor of a class is the entity of one of its items. -/
theorem exists_item_of_firstConstructor {entity : WorkItem → Option Entity} {items : List WorkItem}
    {f : Function} (h : firstConstructor entity items = some f) :
    ∃ item ∈ items, entity item = some (.function f) := by
  obtain ⟨item, hitem, hf⟩ := List.exists_of_findSome?_eq_some h
  obtain ⟨e, he, hfunction⟩ := Option.bind_eq_some_iff.mp hf
  exact ⟨item, (List.mem_filter.mp hitem).1, Entity.function?_eq_some_iff.mp hfunction ▸ he⟩

/-- So is every member. -/
theorem exists_item_of_membersAmong {entity : WorkItem → Option Entity} {items : List WorkItem}
    {m : ClassMember} (h : m ∈ membersAmong entity items) :
    ∃ item ∈ items, entity item = some m.entity := by
  obtain ⟨item, hitem, hm⟩ := List.mem_filterMap.mp h
  obtain ⟨e, he, hmember⟩ := Option.bind_eq_some_iff.mp hm
  exact ⟨item, (List.mem_filter.mp hitem).1, Entity.member?_eq_some_iff.mp hmember ▸ he⟩

/-- What is made of the children of a class or an interface is no member itself, and has its
functions from them. -/
theorem functions_of_classLike {header : Header} {extended implemented : List TypeExpr}
    {typeParameters : List TypeParameter} {constructor : Option Function}
    {members : List ClassMember} {e : Entity}
    (h : Gives (scope.classEntity header extended implemented typeParameters constructor members) e
      ∨ Gives (scope.interfaceEntity header extended typeParameters members) e) :
    e.member? = none ∧ ∀ f ∈ e.functions, constructor = some f ∨ .function f ∈ members := by
  have hmethod : ∀ {f : Function}, f ∈ members.filterMap ClassMember.function? →
      .function f ∈ members := by
    intro f hf
    obtain ⟨member, hmem, hfunction⟩ := List.mem_filterMap.mp hf
    exact ClassMember.function?_eq_some_iff.mp hfunction ▸ hmem
  -- a class, and an interface, which has no constructor
  rcases h with h | h
  · simp only [classEntity, Attempt.gives_bind, Attempt.gives_liftM, Attempt.gives_pure] at h
    obtain ⟨_, _, _, _, _, _, _, _, rfl⟩ := h
    refine ⟨rfl, ?_⟩
    intro f hf
    rcases List.mem_append.mp hf with hf | hf
    · exact Or.inl (Option.mem_toList.mp hf)
    · exact Or.inr (hmethod hf)
  · simp only [interfaceEntity, Attempt.gives_bind, Attempt.gives_liftM, Attempt.gives_pure] at h
    obtain ⟨_, _, _, _, _, _, rfl⟩ := h
    exact ⟨rfl, fun f hf => Or.inr (hmethod hf)⟩

/-- **What stands inside a class or an interface is what one of its children is converted to.** -/
theorem convert_of_classMembers {className : String} {typeParameters : List TypeParameter}
    {children : List Declaration} {constructor : Option Function} {members : List ClassMember}
    {m : ClassMember}
    (h : Gives (scope.classMembers className typeParameters none children) (constructor, members))
    (hm : (∃ f, constructor = some f ∧ m = .function f) ∨ m ∈ members) :
    ∃ child ∈ children, ∃ own, Gives (scope.convert own child) (some m.entity) := by
  obtain ⟨rfl, rfl⟩ := gives_classMembers h
  rcases hm with ⟨f, hf, rfl⟩ | hm
  · rw [Option.none_or] at hf
    obtain ⟨item, hitem, hentity⟩ := exists_item_of_firstConstructor hf
    obtain ⟨child, hchild, rfl⟩ := List.mem_map.mp hitem
    exact ⟨child, hchild, _, gives_of_entityOf hentity⟩
  · obtain ⟨item, hitem, hentity⟩ := exists_item_of_membersAmong hm
    obtain ⟨child, hchild, rfl⟩ := List.mem_map.mp hitem
    exact ⟨child, hchild, _, gives_of_entityOf hentity⟩

/-- **A function in the entity of a declaration is that entity, or a child is converted to it.** -/
theorem convert_of_mem_functions {inherited : List TypeParameter} {d : Declaration} {e : Entity}
    {f : Function} (h : Gives (scope.convert inherited d) (some e)) (hf : f ∈ e.functions) :
    e = .function f ∨ ∃ child ∈ d.children, ∃ own,
      Gives (scope.convert own child) (some (.function f)) := by
  rcases convert_cases h with ⟨_, _, g, rfl, -⟩ | ⟨-, _, _, rfl⟩
    | ⟨-, _, _, _, _, _, hmembers, hclass⟩
  · rw [List.mem_singleton.mp hf]
    exact Or.inl rfl
  · -- an attribute shows no functions
    exact absurd hf List.not_mem_nil
  · right
    apply convert_of_classMembers (m := .function f) hmembers
    rcases (functions_of_classLike hclass).2 f hf with hfound | hfound
    · exact Or.inl ⟨f, hfound, rfl⟩
    · exact Or.inr hfound

end Scope

/-- Somewhere in the placed project stands this declaration, and it is converted to this
function. -/
def Project.ConvertsTo (p : Project) (config : Config) (d : Declaration) (f : Function) : Prop :=
  ∃ around inherited, (p.placed config.baseDir).Reaches config.baseDir around (.declaration d)
    ∧ Gives (Scope.convert ⟨(p.index config.baseDir).value, config⟩ inherited d)
      (some (.function f))

/-- **Every function of a conversion is what some declaration is converted to.** -/
theorem Project.exists_convertsTo {p : Project} {config : Config} {index : Index}
    {entities : List Entity} (h : Gives (p.convert config) (index, entities)) {e : Entity}
    (he : e ∈ entities) {f : Function} (hf : f ∈ e.functions) : ∃ d, p.ConvertsTo config d f := by
  obtain ⟨item, hitem, hgives⟩ := p.exists_item_of_convert h he
  obtain ⟨around, hreaches⟩ : ∃ around,
      (p.placed config.baseDir).Reaches config.baseDir around (.declaration item.declaration) :=
    WorkItem.reaches_of_converted hitem
  obtain ⟨rfl, -⟩ := Project.gives_convert_iff.mp h
  -- the function stands alone, or in a class right above the declaration
  rcases Scope.convert_of_mem_functions hgives hf with rfl | ⟨child, hchild, own, hown⟩
  · exact ⟨item.declaration, around, item.inherited, hreaches, hgives⟩
  · exact ⟨child, _, own, hreaches.down (List.mem_append_left _ (List.mem_map_of_mem hchild)), hown⟩

/-! ## Files -/

namespace Slot.Placed

variable {baseDir : String} {around : Surroundings}

/-- A slot stands in the file of its first source, or else in the file of its surroundings. -/
theorem filename_eq {s : Slot} (h : s.Placed baseDir around) :
    s.place.filename = (s.source?.map (·.fileName)).getD around.place.filename := by
  cases h with
  | mk here _ _ =>
    rw [here, placeIn]
    cases s.source? <;> rfl

/-- A slot with a source stands in the file of the first one. -/
theorem filename_of_source {s : Slot} (h : s.Placed baseDir around) {source : Source}
    (hsource : s.source? = some source) : s.place.filename = source.fileName := by
  rw [h.filename_eq, hsource, Option.map_some, Option.getD_some]

/-- A signature stands in the file of its own first source, or else in the file that it hangs in. -/
theorem signature_filename {s : Slot} (h : s.Placed baseDir around) {signature : Signature}
    (hbelow : .signature signature ∈ s.below) {source : Source}
    (hfile : s.place.filename = source.fileName) :
    signature.place.filename = (signature.sources.head?.getD source).fileName := by
  have hname : signature.place.filename
      = (signature.sources.head?.map (·.fileName)).getD s.place.filename :=
    (h.of_mem_below hbelow).filename_eq
  rw [hname, hfile]
  cases signature.sources.head? <;> rfl

end Slot.Placed

/-- **A documenting signature stands in the file of its own first source, and else in that of the
first source of what the function is converted from.** -/
theorem filename_of_documentedSignature {baseDir : String} {around : Surroundings} {d : Declaration}
    (h : (Slot.declaration d).Placed baseDir around) {signature : Signature}
    (hsignature : d.documentedSignature? = some signature) {source : Source}
    (hsource : d.documentedSources.head? = some source) :
    signature.place.filename = (signature.sources.head?.getD source).fileName := by
  obtain ⟨header, children, detail⟩ := d
  cases detail with
  | callable kind signatures =>
    refine h.signature_filename ?_ (h.filename_of_source hsource)
    exact List.mem_append_right _ (List.mem_map_of_mem (List.mem_of_mem_head? hsignature))
  | typeLiteral variant signatures indexer =>
    refine h.signature_filename ?_ (h.filename_of_source hsource)
    exact List.mem_append_right _
      (List.mem_append_left _ (List.mem_map_of_mem (List.mem_of_mem_head? hsignature)))
  | member kind type =>
    obtain ⟨⟨literalHeader, signatures⟩, hliteral, hhead⟩ := Option.bind_eq_some_iff.mp hsignature
    obtain ⟨literal, hreflected, rfl, -, hsignatures⟩ := callableLiteral_eq_some hliteral
    -- the literal stands below the member, and the signature below the literal
    have hplaced := h.of_mem_below (Slot.mem_below_of_reflected hreflected header children kind)
    refine hplaced.signature_filename (hsignatures _ (List.mem_of_mem_head? hhead)) ?_
    simp only [Declaration.documentedSources, hliteral] at hsource
    -- a literal without sources stands in the file of the member, and the source is the member's
    by_cases hempty : literal.header.sources.isEmpty = true
    · rw [if_pos hempty] at hsource
      have hnone : (Slot.declaration literal).source? = none := by
        rw [Slot.source?, List.isEmpty_iff.mp hempty, List.head?_nil]
      rw [hplaced.filename_eq, hnone]
      exact h.filename_of_source hsource
    · rw [if_neg hempty] at hsource
      exact hplaced.filename_of_source hsource
  | classLike kind extended implemented typeParameters => cases hsignature
  | accessor getter setter => cases hsignature
  | scope kind => cases hsignature

/-! ## File and line -/

/-- The file that an entity names: in full, unless the name is empty, and the last part of the
name. -/
def TopLevel.NamesFile (top : TopLevel) (file : String) : Prop :=
  top.deppath = (if file = "" then none else some file) ∧ top.filename = FilePath.basename file

instance (top : TopLevel) (file : String) : Decidable (top.NamesFile file) :=
  inferInstanceAs (Decidable (_ ∧ _))

/-- An entity names one file only. -/
theorem TopLevel.NamesFile.eq {top : TopLevel} {a b : String} (ha : top.NamesFile a)
    (hb : top.NamesFile b) :
    a = b := by
  have heq := ha.1.symm.trans hb.1
  by_cases hna : a = "" <;> by_cases hnb : b = "" <;> simp_all

/-- The line of a function is that of its owner's first source, and its file that of its
signature. -/
theorem Scope.top_of_callable {scope : Scope} {owner : SignatureOwner} {signatures : List Signature}
    {f : Function} (h : (scope.callable owner signatures).value = some f) :
    ∃ signature, signatures.head? = some signature
      ∧ f.top.lineNumber = owner.sources.head?.map (·.line)
      ∧ f.top.NamesFile signature.place.filename := by
  cases signatures with
  | nil => cases h
  | cons s rest =>
    refine ⟨s, rfl, ?_⟩
    rw [callable, signature] at h
    split at h
    · cases h
    · cases h
      refine ⟨rfl, ?_, rfl⟩
      by_cases hempty : s.place.filename = ""
      · simp [topLevel, hempty]
      · simp [topLevel, hempty]

/-- **The line of a function is that of the first source of what it is converted from, and its file
that of the signature that documents it.** -/
theorem Scope.top_of_convert {scope : Scope} {inherited : List TypeParameter} {d : Declaration}
    {f : Function} (h : Gives (scope.convert inherited d) (some (.function f))) :
    ∃ signature, d.documentedSignature? = some signature
      ∧ f.top.lineNumber = d.documentedSources.head?.map (·.line)
      ∧ f.top.NamesFile signature.place.filename := by
  rcases convert_cases h with ⟨owner, signatures, g, heq, hg, hhead, hsources⟩ | ⟨-, _, _, heq⟩
    | ⟨-, _, _, _, _, _, -, hclass⟩
  · rw [← Entity.function.inj heq] at hg
    obtain ⟨signature, hsignature, hline, hfile⟩ := top_of_callable hg
    exact ⟨signature, hhead.symm.trans hsignature, hsources ▸ hline, hfile⟩
  · cases heq
  · -- a class or an interface is no member, and a function is one
    cases (functions_of_classLike hclass).1

/-- **When the file and the line of a function belong together.** Every function of a conversion,
whether it stands alone or in a class or interface, is what a declaration of the tree is converted
to. If it has a line, that is the line of the first source of what it is converted from. The file is
the one of the signature's own first source where there is one, and else the one of that source. So
it names the file that the line is in exactly if the signature has no source of its own, or has its
first source in the same file. -/
theorem Project.function_file_iff {p : Project} {config : Config} {index : Index}
    {entities : List Entity} (h : Gives (p.convert config) (index, entities)) {e : Entity}
    (he : e ∈ entities) {f : Function} (hf : f ∈ e.functions) {line : UInt32}
    (hline : f.top.lineNumber = some line) :
    (∃ d, p.ConvertsTo config d f) ∧ ∀ d, p.ConvertsTo config d f →
      ∃ signature source, d.documentedSignature? = some signature
        ∧ d.documentedSources.head? = some source
        ∧ source.line = line
        ∧ f.top.NamesFile (signature.sources.head?.getD source).fileName
        ∧ (f.top.NamesFile source.fileName
          ↔ ∀ own ∈ signature.sources.head?, own.fileName = source.fileName) := by
  refine ⟨exists_convertsTo h he hf, ?_⟩
  rintro d ⟨around, inherited, hreaches, hgives⟩
  obtain ⟨signature, hsignature, htop, hfile⟩ := Scope.top_of_convert hgives
  obtain ⟨source, hsource, hsourceLine⟩ := Option.map_eq_some_iff.mp (htop.symm.trans hline)
  rw [filename_of_documentedSignature hreaches.placed hsignature hsource] at hfile
  refine ⟨signature, source, hsignature, hsource, hsourceLine, hfile, ?_⟩
  constructor
  · intro hsame own hown
    have heq := hfile.eq hsame
    rwa [hown, Option.getD_some] at heq
  · intro hall
    cases hown : signature.sources.head? with
    | none => rwa [hown, Option.getD_none] at hfile
    | some own =>
      rw [hown, Option.getD_some] at hfile
      rwa [← hall own hown]

/-- A class with a constructor, whose signature has a source in the file of the constructor, and
with a property that can be called. -/
def callbackHolder : Project where
  children := [⟨{ id := some 1, name := "C", sources := [⟨"lib/c.ts", 1⟩] },
    [⟨{ id := some 2, name := "constructor", sources := [⟨"lib/c.ts", 3⟩] }, [],
        .callable .constructor
          [⟨some 3, .constructor, "C", [⟨"lib/c.ts", 9⟩], {}, {}, [], [], none, none,
            default, {}⟩]⟩,
      ⟨{ id := some 4, name := "done", sources := [⟨"lib/c.ts", 5⟩] }, [],
        .member .property ⟨.reflection ⟨{ id := some 5, name := "__type" }, [],
          .typeLiteral none [⟨some 6, .call, "__type", [], {}, {}, [], [], none, none, default, {}⟩]
            none⟩, []⟩⟩],
    .classLike .classDecl [] [] []⟩]

/-- The property is a method of the class, at its own line and in the file that this line is in. -/
theorem Project.function_file_callbackHolder :
    ∃ index entities e f d, Gives (callbackHolder.convert {}) (index, entities) ∧ e ∈ entities
      ∧ f ∈ e.functions
      ∧ f.top.lineNumber = some 5 ∧ callbackHolder.ConvertsTo {} d f
      ∧ ∃ signature source, d.documentedSignature? = some signature
        ∧ d.documentedSources.head? = some source
        ∧ source.line = 5 ∧ f.top.NamesFile (signature.sources.head?.getD source).fileName
        ∧ (f.top.NamesFile source.fileName
          ↔ ∀ own ∈ signature.sources.head?, own.fileName = source.fileName) := by
  obtain ⟨⟨index, entities⟩, h, hfacts⟩ :=
    Attempt.exists_gives_of_map (x := callbackHolder.convert {})
      (fun result => result.2.map fun e => e.functions.map (·.top.lineNumber))
      (b := [[some 3, some 5], [some 3], [some 5]]) (by decide +kernel)
  obtain ⟨e, he, hlines⟩ := List.mem_map.mp (hfacts ▸ List.mem_cons_self)
  obtain ⟨f, hf, hline⟩ :=
    List.mem_map.mp (hlines ▸ List.mem_cons_of_mem _ (List.mem_singleton_self _))
  obtain ⟨⟨d, hd⟩, hall⟩ := function_file_iff h he hf hline
  exact ⟨index, entities, e, f, d, h, he, hf, hline, hd, hall d hd⟩

/-- A function in one file, whose signature has a source in another one. -/
def strayingSignature : Project where
  children := [⟨{ id := some 1, name := "f", sources := [⟨"a.ts", 1⟩] }, [],
    .callable .function
      [⟨some 2, .call, "f", [⟨"b.ts", 9⟩], {}, {}, [], [], none, none, default, {}⟩]⟩]

/-- The function has its line from the first file and names the second one. -/
theorem Project.function_file_strayingSignature :
    ∃ index f d, Gives (strayingSignature.convert {}) (index, [.function f])
      ∧ strayingSignature.ConvertsTo {} d f
      ∧ d.documentedSources = [⟨"a.ts", 1⟩] ∧ f.top.lineNumber = some 1
      ∧ f.top.NamesFile "b.ts" ∧ ¬ f.top.NamesFile "a.ts" := by
  obtain ⟨⟨index, entities⟩, h, hfacts⟩ :=
    Attempt.exists_gives_of_map (x := strayingSignature.convert {})
      (fun result => result.2.map fun e =>
        (e.function?.map (·.top.lineNumber), e.top.deppath, e.top.filename))
      (b := [(some (some 1), some "b.ts", "b.ts")]) (by decide +kernel)
  obtain ⟨e, rfl, hshown⟩ := List.map_eq_singleton_iff.mp hfacts
  obtain ⟨hfunction, hfile⟩ := Prod.mk.inj hshown
  obtain ⟨f, hf, hline⟩ := Option.map_eq_some_iff.mp hfunction
  obtain rfl := Entity.function?_eq_some_iff.mp hf
  have hnames : f.top.NamesFile "b.ts" := Prod.mk.inj hfile
  obtain ⟨item, hitem, hgives⟩ := exists_item_of_convert h (List.mem_singleton_self _)
  obtain ⟨around, hreaches⟩ : ∃ around,
      (strayingSignature.placed ".").Reaches "." around (.declaration item.declaration) :=
    WorkItem.reaches_of_converted hitem
  obtain ⟨rfl, -⟩ := gives_convert_iff.mp h
  -- the only item that is converted has its source in the first file
  have hsources : (WorkItem.converted ((strayingSignature.placed ".").children.map WorkItem.of)).map
      (·.declaration.documentedSources) = [[⟨"a.ts", 1⟩]] := by
    decide +kernel
  refine ⟨_, f, item.declaration, h, ⟨around, item.inherited, hreaches, hgives⟩, ?_, hline,
    hnames, ?_⟩
  · exact List.mem_singleton.mp (hsources ▸ List.mem_map_of_mem hitem)
  · intro hother
    exact absurd (hnames.eq hother) (by decide)

end DocAtlas
