import DocAtlas.Proofs.Lookup
import DocAtlas.Proofs.MergedText
import DocAtlas.Proofs.Strictness

/-!
Where references lead.

A reference is written with the path that the index has for its target, and the index has the path
of the target's declaration. The entity of that declaration gets its path on another route, through
a signature or through the declaration. This file puts the pieces together: for a link target the
two paths are one, so the path that is written in a type, or listed among the related types of a
class, looks the entity up again (`get_of_reference`).
-/

set_option autoImplicit false

namespace DocAtlas

open Attempt (Gives)

/-- The path of an entity looks up the entity, if no other one has it. -/
theorem Analyzer.get_path {a : Analyzer} (h : a.Addressed) {e : Entity} (he : e ∈ a.entities)
    (honly : ∀ f ∈ a.entities, f.path = e.path → f = e) : a.get e.path = .ok e := by
  obtain ⟨position, hmem⟩ := exists_mem_addressable he
  obtain ⟨f, hget, hpath⟩ := entity_of_mem_addressable hmem
  -- the position belongs to some entity of this path, and there is only one
  have hf : f = e := honly f (List.mem_of_getElem? hget) hpath
  have hscan : a.byPath.get e.path = .ok position := by
    rw [h.get_eq_scan, SuffixTree.scan, h.hits_of_mem hmem]
    rfl
  rw [Analyzer.get, hscan]
  simp only [Analyzer.entityAt, hget, hf]

/-! ## What the index says about a target -/

section

variable {index : Index} {r : Reference} {i : Int} {entry : IndexEntry}

/-- A reference to an indexed target, if it is no type parameter, becomes a link with the path that
the index has. -/
theorem expandReference_of_get? (hr : r.targetId = some i) (hentry : index.get? i = some entry)
    (hparameter : r.isTypeParameter = false) :
    (expandReference index r).value = .token (.link (.internal r.name entry.path)) := by
  rw [expandReference, hparameter, if_neg Bool.false_ne_true, hr]
  simp only [hentry]
  rfl

/-- A reference that is known is written as a link, and its arguments behind it. -/
theorem renderType_reference (hr : r.targetId = some i) (hentry : index.get? i = some entry)
    (hparameter : r.isTypeParameter = false) (arguments : List TypeExpr) :
    (renderType index ⟨.reference r, arguments⟩).value
      = .link (.internal r.name entry.path)
        :: mergeTexts (tokensOf index (expandArguments arguments)).value := by
  have hparts : (expandType index ⟨.reference r, arguments⟩).value
      = .token (.link (.internal r.name entry.path)) :: expandArguments arguments := by
    rw [expandType, expandKind]
    simp only [Logged.value_bind, Logged.value_pure, expandReference_of_get? hr hentry hparameter]
    rfl
  -- the link is the first token, and merging leaves a link as it is
  rw [renderType, Logged.value_map, typeTokens, tokensOf]
  simp only [hparts, List.append_nil]
  rw [tokensOf]
  exact TypeText.mergeTexts_cons _ _

/-- Among related types such a reference is listed with the path that the index has, and without its
arguments. -/
theorem gives_relatedType_of_get? {config : Config} (hr : r.targetId = some i)
    (hentry : index.get? i = some entry) (relation : Relation) (arguments : List TypeExpr) :
    Gives (Scope.relatedType ⟨index, config⟩ relation ⟨.reference r, arguments⟩)
      (some entry.path) := by
  rw [Scope.relatedType]
  simp only [hr, hentry]
  exact Attempt.gives_pure.mpr rfl

end

/-! ## Links to entities -/

/-- **The index has the path of the entity for the id of a link target.** -/
theorem Project.get?_index_of_convert {p : Project} {config : Config} {index : Index}
    {entities : List Entity} (h : Gives (p.convert config) (index, entities))
    (hids : ((p.visits config.baseDir).filterMap (·.id)).Nodup) {item : WorkItem}
    (hitem : item ∈ WorkItem.converted ((p.placed config.baseDir).children.map WorkItem.of))
    (htarget : item.declaration.IsLinkTarget) {e : Entity}
    (he : Gives (Scope.convert ⟨index, config⟩ item.inherited item.declaration) (some e)) {i : Int}
    (hid : item.declaration.header.id = some i) :
    ∃ entry, index.get? i = some entry ∧ entry.path = e.path := by
  obtain ⟨rfl, -⟩ := Project.gives_convert_iff.mp h
  obtain ⟨around, hreaches⟩ := WorkItem.reaches_of_converted hitem
  refine ⟨_, hreaches.get?_index hids hid, ?_⟩
  -- the entity has the path that documents the declaration, which for a link target is its own
  rw [Scope.path_of_convert he, htarget.documentedPath_eq hreaches.placed]
  rfl

/-- **References lead to the entities they name.** If the ids of a project are distinct and the
configuration is not strict, then the path of every reference to a link target, in a type or among
related types, looks up the entity of its declaration, unless another entity has the same path. -/
theorem get_of_reference {p : Project} {config : Config} (hlenient : config.strict = false)
    (hids : ((p.visits config.baseDir).filterMap (·.id)).Nodup) :
    ∃ a, Gives (Analyzer.ofProject p config) a
      ∧ ∀ item ∈ WorkItem.converted ((p.placed config.baseDir).children.map WorkItem.of), ∀ e i,
        Gives (Scope.convert ⟨a.index, config⟩ item.inherited item.declaration) (some e) →
        item.declaration.IsLinkTarget → item.declaration.header.id = some i →
        (∀ f ∈ a.entities, f.path = e.path → f = e) →
        ∀ r : Reference, r.targetId = some i →
          e ∈ a.entities ∧ ∃ path, a.get path = .ok e
            ∧ (r.isTypeParameter = false →
                (expandReference a.index r).value = .token (.link (.internal r.name path))
                ∧ ∀ arguments, ∃ rest,
                  (renderType a.index ⟨.reference r, arguments⟩).value
                    = .link (.internal r.name path) :: rest)
            ∧ ∀ relation arguments,
                Gives (Scope.relatedType ⟨a.index, config⟩ relation ⟨.reference r, arguments⟩)
                  (some path) := by
  obtain ⟨a, ha⟩ := Analyzer.succeeds_ofProject hlenient p
  obtain ⟨hconvert, haddressed⟩ := Analyzer.convert_of_ofProject ha
  refine ⟨a, ha, ?_⟩
  intro item hitem e i hgives htarget hid honly r hr
  have he : e ∈ a.entities := p.mem_of_convert hconvert hitem hgives
  obtain ⟨entry, hentry, hpath⟩ := p.get?_index_of_convert hconvert hids hitem htarget hgives hid
  refine ⟨he, entry.path, ?_, ?_, ?_⟩
  · rw [hpath]
    exact Analyzer.get_path haddressed he honly
  · intro hparameter
    exact ⟨expandReference_of_get? hr hentry hparameter,
      fun arguments => ⟨_, renderType_reference hr hentry hparameter arguments⟩⟩
  · exact gives_relatedType_of_get? hr hentry

/-- A class with a property that can be called: the property's entity comes from the signature of a
literal. -/
def callableProperty : Project where
  children := [⟨{ id := some 1, name := "Box", sources := [⟨"lib/box.ts", 1⟩] },
    [⟨{ id := some 2, name := "onChange" }, [],
      .member .property ⟨.reflection ⟨{ id := some 3, name := "__type" }, [],
        .typeLiteral none [⟨some 4, .call, "__type", [], {}, {}, [], [], none, none, default, {}⟩]
          none⟩, []⟩⟩],
    .classLike .classDecl [] [] []⟩]

/-- The reference by the id of the property is written with a path that looks up the entity of the
literal behind its type. -/
theorem get_of_reference_callableProperty :
    ∃ a e, Gives (Analyzer.ofProject callableProperty {}) a ∧ e ∈ a.entities
      ∧ e.path = ["./", "lib/", "box.", "Box#", "onChange"]
      ∧ ∃ path rest, a.get path = .ok e
        ∧ (renderType a.index ⟨.reference { name := "Listener", target := some (.id 2) }, []⟩).value
          = .link (.internal "Listener" path) :: rest := by
  have hids : ((callableProperty.visits ".").filterMap (·.id)).Nodup := by decide +kernel
  obtain ⟨a, ha, hall⟩ := @get_of_reference callableProperty {} rfl hids
  obtain ⟨hconvert, -⟩ := Analyzer.convert_of_ofProject ha
  obtain ⟨hindex, hitems⟩ := Project.gives_convert_iff.mp hconvert
  obtain ⟨hgives, hentities⟩ := Scope.gives_convertItems_iff.mp hitems
  rw [hindex] at hgives hentities
  -- the two items of the project, with their ids and the paths of their entities
  have hconverted :
      (WorkItem.converted ((callableProperty.placed ".").children.map WorkItem.of)).map
        (fun item => (item.declaration.header.id, decide item.declaration.IsLinkTarget,
          (Scope.entityOf ⟨(callableProperty.index ".").value, {}⟩ item).map Entity.path))
      = [(some 1, true, some ["./", "lib/", "box.", "Box"]),
        (some 2, true, some ["./", "lib/", "box.", "Box#", "onChange"])] := by decide +kernel
  have hpaths : a.entities.map Entity.path
      = [["./", "lib/", "box.", "Box"], ["./", "lib/", "box.", "Box#", "onChange"]] := by
    rw [hentities]
    decide +kernel
  obtain ⟨item, hitem, hfacts⟩ :
    ∃ item ∈ WorkItem.converted ((callableProperty.placed ".").children.map WorkItem.of),
      (item.declaration.header.id, decide item.declaration.IsLinkTarget,
        (Scope.entityOf ⟨(callableProperty.index ".").value, {}⟩ item).map Entity.path)
      = (some 2, true, some ["./", "lib/", "box.", "Box#", "onChange"]) :=
    List.mem_map.mp (hconverted ▸ List.mem_cons_of_mem _ List.mem_cons_self)
  simp only [Prod.mk.injEq, decide_eq_true_eq, Option.map_eq_some_iff] at hfacts
  obtain ⟨hid, htarget, e, hentity, hpath⟩ := hfacts
  have hconvertItem := hgives item hitem
  rw [hentity, ← hindex] at hconvertItem
  -- no two entities of this project have the same path
  have honly : ∀ f ∈ a.entities, f.path = e.path → f = e := by
    intro f hf heq
    have hnodup : (a.entities.map Entity.path).Nodup := by
      rw [hpaths]
      decide
    exact List.inj_on_of_nodup_map hnodup hf
      (Project.mem_of_convert hconvert hitem hconvertItem) heq
  obtain ⟨he, path, hget, hlink, -⟩ := hall item hitem e 2 hconvertItem htarget hid honly
    { name := "Listener", target := some (.id 2) } (by decide)
  obtain ⟨rest, hrest⟩ := (hlink rfl).2 []
  exact ⟨a, e, ha, he, hpath, path, rest, hget, hrest⟩

end DocAtlas
