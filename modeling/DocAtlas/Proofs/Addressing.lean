import DocAtlas.Proofs.Resolution
import DocAtlas.Proofs.Strictness
import Mathlib.Data.Finset.Card
import Mathlib.Data.List.Induction

/-!
What an analysis addresses.

Positions go into the tree while paths that are taken are refused, so the positions that the tree
has must stay in step with the list of entities however the refused ones are spread over it. They
do: the address of each path leads to the first entity that has it (`addresses_entities`), and a
lookup is a scan over these entities (`get_eq_scan_firsts`). The other entities are those that a
warning was logged for (`outcome_addPaths`), each once and in their order. `ofProject_addresses`
puts this together for a whole analysis.
-/

set_option autoImplicit false

namespace DocAtlas

open Attempt (Gives)
open SuffixTree (Holds hits verdict scan)

/-! ## Scans of other values -/

namespace SuffixTree

variable {α β : Type}

/-- A scan looks at paths only. -/
theorem scan_map (f : α → β) (pairs : List (Pathname × α)) (suffix : Pathname) :
    scan (pairs.map fun pair => (pair.1, f pair.2)) suffix = (scan pairs suffix).map f := by
  -- the hits are found by path, so the map can wait until they are found
  have hhits : hits (pairs.map fun pair => (pair.1, f pair.2)) suffix
      = (hits pairs suffix).map fun pair => (pair.1, f pair.2) := by
    rw [hits, hits, List.find?_map, List.filter_map]
    simp only [Function.comp_def]
    cases pairs.find? fun pair => pair.1 = suffix <;> rfl
  rw [scan, scan, hhits]
  rcases hits pairs suffix with _ | ⟨first, _ | ⟨second, rest⟩⟩
  · rfl
  · rfl
  · simp [verdict, Except.map, Function.comp_def]

end SuffixTree

namespace Analyzer

/-! ## The first entity of each path -/

/-- A further entity counts if no entity before it has its path. -/
theorem firstOfEachPath_concat (entities : List Entity) (e : Entity) :
    firstOfEachPath (entities ++ [e])
      = firstOfEachPath entities ++ if e.path ∈ entities.map Entity.path then [] else [e] := by
  induction entities with
  | nil => rfl
  | cons head rest ih =>
    rw [List.cons_append, firstOfEachPath, firstOfEachPath, ih, List.filter_append,
      List.cons_append, List.map_cons]
    congr 2
    -- the first entity stands in the way of the further one, or one of the rest does, or none
    by_cases hhead : e.path = head.path
    · rw [if_pos (List.mem_cons.mpr (Or.inl hhead))]
      split
      · rfl
      · simp [hhead]
    · by_cases hrest : e.path ∈ rest.map Entity.path
      · rw [if_pos hrest, if_pos (List.mem_cons_of_mem _ hrest), List.filter_nil]
      · rw [if_neg hrest, if_neg (List.not_mem_cons_of_ne_of_not_mem hhead hrest)]
        simp [hhead]

/-- **The address of each path leads to the first entity that has it.** The induction is on the list
from its end: a further entity moves no position. -/
theorem addresses_entities (entities : List Entity) :
    (addresses (entities.map Entity.path)).map (fun pair => (pair.1, entities[pair.2]?))
      = (firstOfEachPath entities).map fun e => (e.path, some e) := by
  induction entities using List.reverseRecOn with
  | nil => rfl
  | append_singleton entities e ih =>
    rw [List.map_append, List.map_singleton, addresses_concat, firstOfEachPath_concat,
      List.map_append, List.map_append, ← ih]
    congr 1
    · -- the positions before are positions of the shorter list
      refine List.map_congr_left ?_
      intro pair hpair
      obtain ⟨hmem, hfirst⟩ := mem_addresses.mp hpair
      have hlt : pair.2 < entities.length := by
        rw [← hfirst, ← List.length_map (f := Entity.path)]
        exact List.idxOf_lt_length_of_mem hmem
      rw [List.getElem?_append_left hlt]
    · split
      · rfl
      · simp

/-- **A lookup is a scan over the first entity of each path.** The position that the tree finds is
always one of the list. -/
theorem get_eq_scan_firsts {a : Analyzer} (h : a.Addressed) (suffix : Pathname) :
    a.get suffix = scan ((firstOfEachPath a.entities).map fun e => (e.path, e)) suffix := by
  have hsame : (scan a.addressable suffix).map (fun position => a.entities[position]?)
      = (scan ((firstOfEachPath a.entities).map fun e => (e.path, e)) suffix).map some := by
    rw [← SuffixTree.scan_map, ← SuffixTree.scan_map, addressable, addresses_entities, List.map_map]
    rfl
  -- both scans find the same hits, so they succeed together
  rw [get, h.get_eq_scan]
  cases hfound : scan a.addressable suffix with
  | error e =>
    rw [hfound] at hsame
    cases hscan : scan ((firstOfEachPath a.entities).map fun e => (e.path, e)) suffix with
    | error e' =>
      rw [hscan] at hsame
      cases hsame
      rfl
    | ok entity =>
      rw [hscan] at hsame
      cases hsame
  | ok position =>
    rw [hfound] at hsame
    cases hscan : scan ((firstOfEachPath a.entities).map fun e => (e.path, e)) suffix with
    | error e' =>
      rw [hscan] at hsame
      cases hsame
    | ok entity =>
      rw [hscan] at hsame
      have hget : a.entities[position]? = some entity := Except.ok.inj hsame
      simp only [entityAt, hget]

/-- Whatever position the tree finds, an entity stands there. -/
theorem exists_entity_of_found {a : Analyzer} (h : a.Addressed) {suffix : Pathname} {position : Nat}
    (hfound : a.byPath.get suffix = .ok position) : ∃ e, a.entities[position]? = some e := by
  rw [h.get_eq_scan, scan] at hfound
  rcases hhits : hits a.addressable suffix with _ | ⟨pair, _ | ⟨second, rest⟩⟩
  · rw [hhits] at hfound
    cases hfound
  · rw [hhits] at hfound
    cases hfound
    have hmem : pair ∈ a.addressable := (SuffixTree.mem_hits (hhits ▸ List.mem_cons_self)).1
    obtain ⟨e, hget, -⟩ := entity_of_mem_addressable hmem
    exact ⟨e, hget⟩
  · rw [hhits] at hfound
    cases hfound

/-- The tree has one entry for each path of an entity. -/
theorem size_byPath {a : Analyzer} (h : a.Addressed) :
    a.byPath.size = (a.entities.map Entity.path).toFinset.card := by
  have hpaths : (a.addressable.map Prod.fst).toFinset = (a.entities.map Entity.path).toFinset := by
    ext path
    rw [List.mem_toFinset, List.mem_toFinset, addressable, mem_map_addresses]
  calc a.byPath.size
      = a.byPath.entries.length := h.sound.count_eq_length_entries
    _ = a.addressable.length := h.stored.length_eq
    _ = (a.addressable.map Prod.fst).length := (List.length_map _).symm
    _ = (a.addressable.map Prod.fst).toFinset.card := (List.toFinset_card_of_nodup h.distinct).symm
    _ = (a.entities.map Entity.path).toFinset.card := by rw [hpaths]

/-! ## The other entities -/

/-- The entities whose path is among those seen before. -/
def repeatsAfter (seen : List Pathname) : List Entity → List Entity
  | [] => []
  | e :: rest =>
    if e.path ∈ seen then e :: repeatsAfter (seen ++ [e.path]) rest
      else repeatsAfter (seen ++ [e.path]) rest

/-- Every entity is the first of its path or repeats one that was seen. -/
theorem firsts_append_repeatsAfter_perm (seen : List Pathname) (entities : List Entity) :
    ((firstOfEachPath entities).filter (fun e => e.path ∉ seen) ++ repeatsAfter seen entities).Perm
      entities := by
  induction entities generalizing seen with
  | nil => exact List.Perm.refl _
  | cons e rest ih =>
    -- to leave out a path and then those seen is to have seen that path as well
    have hfilter : ((firstOfEachPath rest).filter fun other => other.path ≠ e.path).filter
        (fun e => e.path ∉ seen)
        = (firstOfEachPath rest).filter fun other => other.path ∉ seen ++ [e.path] := by
      rw [List.filter_filter]
      refine List.filter_congr ?_
      intro other _
      simp [not_or]
    rw [firstOfEachPath, repeatsAfter, List.filter_cons, hfilter]
    by_cases hseen : e.path ∈ seen
    · rw [if_pos hseen, if_neg (by simpa using hseen)]
      exact List.perm_middle.trans ((ih _).cons e)
    · rw [if_neg hseen, if_pos (by simpa using hseen)]
      exact (ih _).cons e

end Analyzer

open Analyzer (repeatsAfter)

/-- **A warning is logged for each entity whose path is taken.** The entities added before have the
paths `done`. -/
theorem outcome_addPaths {tree : SuffixTree Nat} {done : List Pathname}
    (h : Holds tree (addresses done)) (entities : List Entity) :
    ∃ tree', (addPaths false tree done.length entities).outcome
      = (.ok tree', (repeatsAfter done entities).map fun e => .pathTaken e.path.text e.kind) := by
  induction entities generalizing tree done with
  | nil => exact ⟨tree, rfl⟩
  | cons entity rest ih =>
    have hlength : done.length + 1 = (done ++ [entity.path]).length := by simp
    obtain ⟨next, hadd, hnext⟩ := exists_add_address h entity.path
    obtain ⟨tree', htree'⟩ := ih hnext
    refine ⟨tree', ?_⟩
    rw [addPaths, repeatsAfter, hadd, hlength]
    -- a path that is taken leaves the tree as it is and logs its warning
    by_cases hmem : entity.path ∈ done
    · rw [if_pos hmem, if_pos hmem]
      simp only [Bool.false_eq_true, if_false]
      rw [Attempt.outcome_bind_of_ok (x := Attempt.log _) _ rfl, htree']
      rfl
    · rw [if_neg hmem, if_neg hmem]
      exact htree'

namespace Analyzer

/-- **An analysis addresses the first entity of every path and nothing else.** If it is not strict
it succeeds, with the entities of the conversion. The tree has as many entries as the entities have
paths, and for each entity that is not the first of its path there is one warning, in the order of
the entities. A lookup is a scan over the first entity of each path: the one with exactly that path,
or else the only one whose path ends with the suffix. The positions that the tree finds are all
positions of entities. -/
theorem ofProject_addresses (p : Project) (config : Config) :
    ∃ a events, (ofProject p { config with strict := false }).outcome = (.ok a, events)
      ∧ Gives (p.convert { config with strict := false }) (a.index, a.entities)
      ∧ a.byPath.size = (a.entities.map Entity.path).toFinset.card
      ∧ (events.filter fun event => event.takenPath?.isSome)
          = (repeatsAfter [] a.entities).map (fun e => .pathTaken e.path.text e.kind)
      ∧ (firstOfEachPath a.entities ++ repeatsAfter [] a.entities).Perm a.entities
      ∧ (∀ suffix,
        a.get suffix = scan ((firstOfEachPath a.entities).map fun e => (e.path, e)) suffix)
      ∧ ∀ suffix position, a.byPath.get suffix = .ok position →
        ∃ e, a.entities[position]? = some e := by
  obtain ⟨⟨index, entities⟩, before, hconvert, -, hbefore⟩ := p.hardens_convert config
  have hempty : Holds SuffixTree.empty (addresses []) := SuffixTree.holds_empty
  obtain ⟨byPath, hpaths⟩ := outcome_addPaths hempty entities
  have houtcome : (ofProject p { config with strict := false }).outcome
      = (.ok ⟨index, entities, byPath⟩,
        before ++ ((repeatsAfter [] entities).map (fun e => .pathTaken e.path.text e.kind)
        ++ [.analysisReady index.size entities.length byPath.size])) := by
    rw [ofProject, Attempt.outcome_bind_of_ok _ hconvert]
    simp only
    rw [show (0 : Nat) = ([] : List Pathname).length from rfl, Attempt.outcome_bind_of_ok _ hpaths]
    rfl
  obtain ⟨hgives, haddressed⟩ := convert_of_ofProject (congrArg Prod.fst houtcome)
  have hfirsts := firsts_append_repeatsAfter_perm [] entities
  simp only [List.not_mem_nil, not_false_eq_true, decide_true, List.filter_true] at hfirsts
  refine ⟨_, _, houtcome, hgives, size_byPath haddressed, ?_, hfirsts,
    get_eq_scan_firsts haddressed, fun _ _ => exists_entity_of_found haddressed⟩
  -- the conversion logs nothing of the kind, and what comes last is of another kind
  have hquiet : (before.filter fun event => event.takenPath?.isSome) = [] := by
    rw [List.filter_eq_nil_iff]
    intro event hevent
    rw [Event.takenPath?_of_isGap (hbefore event hevent)]
    exact Bool.false_ne_true
  rw [List.filter_append, hquiet, List.nil_append, List.filter_append, List.filter_map]
  simp [Event.takenPath?, Function.comp_def]

end Analyzer

end DocAtlas
