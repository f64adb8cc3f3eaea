import DocAtlas.Analyzer
import DocAtlas.Proofs.EntityPath
import DocAtlas.Proofs.SuffixTree

/-!
Looking entities up.

The tree of an analyzer holds each path of an entity with the first position at which it stands, and
nothing else (`Addressed`), so what the tree finds is what a scan of these pairs finds. Looking up a
text collects the scans of all ways to split it, and gives an entity exactly if they agree on one
position (`resolve_eq_ok_iff`).

The main result says when an entity is found by its own printed path. The text has to split into the
segments of the path again, and no other way to split it may be the end of any entity's path
(`resolve_text_iff`).
-/

set_option autoImplicit false

namespace DocAtlas

open Attempt (Gives)
open SuffixTree (Holds hits verdict scan)

/-- A list without repetitions in which all are the same has one element. -/
theorem eq_singleton_of_nodup {α : Type} {l : List α} {a : α} (hnodup : l.Nodup) (hmem : a ∈ l)
    (hall : ∀ b ∈ l, b = a) : l = [a] := by
  refine List.perm_singleton.mp
    ((List.perm_ext_iff_of_nodup hnodup (List.nodup_singleton a)).mpr fun b => ?_)
  rw [List.mem_singleton]
  constructor
  · exact hall b
  · rintro rfl
    exact hmem

/-! ## Addresses -/

/-- The paths of a list, each with the first position at which it stands. -/
def addresses (paths : List Pathname) : List (Pathname × Nat) :=
  paths.zipIdx.filter fun pair => paths.idxOf pair.1 = pair.2

/-- A path has the position at which it stands first, and no other. -/
theorem mem_addresses {paths : List Pathname} {pair : Pathname × Nat} :
    pair ∈ addresses paths ↔ pair.1 ∈ paths ∧ paths.idxOf pair.1 = pair.2 := by
  rw [addresses, List.mem_filter, List.mem_zipIdx_iff_getElem?, decide_eq_true_eq]
  constructor
  · rintro ⟨hget, hfirst⟩
    exact ⟨List.mem_of_getElem? hget, hfirst⟩
  · rintro ⟨hmem, hfirst⟩
    refine ⟨?_, hfirst⟩
    rw [← hfirst]
    exact List.getElem?_idxOf hmem

/-- Every path has an address. -/
theorem mem_map_addresses {paths : List Pathname} {path : Pathname} :
    path ∈ (addresses paths).map Prod.fst ↔ path ∈ paths := by
  rw [List.mem_map]
  constructor
  · rintro ⟨pair, hpair, rfl⟩
    exact (mem_addresses.mp hpair).1
  · intro hmem
    exact ⟨(path, paths.idxOf path), mem_addresses.mpr ⟨hmem, rfl⟩, rfl⟩

/-- The addresses among more paths start with the addresses among the first ones. -/
theorem addresses_concat (paths : List Pathname) (path : Pathname) :
    addresses (paths ++ [path]) = addresses paths ++ if path ∈ paths then []
      else [(path, paths.length)] := by
  rw [addresses, List.zipIdx_append, List.filter_append]
  -- positions among the first paths stay what they are, and the last one counts if its path is new
  congr 1
  · refine List.filter_congr ?_
    intro pair hpair
    rw [List.idxOf_append_of_mem (List.mem_of_getElem? (List.mem_zipIdx_iff_getElem?.mp hpair))]
  · by_cases h : path ∈ paths
    · have hlt := List.idxOf_lt_length_of_mem h
      rw [if_pos h, List.zipIdx_singleton, List.filter_cons_of_neg, List.filter_nil]
      rw [List.idxOf_append_of_mem h, decide_eq_true_eq]
      omega
    · rw [if_neg h, List.zipIdx_singleton, List.filter_cons_of_pos, List.filter_nil, Nat.zero_add]
      rw [List.idxOf_append_of_notMem h, List.idxOf_cons_self, decide_eq_true_eq]
      omega

/-- Adding a path behind others keeps the tree to the addresses: a path among those is refused, and
any other one gets the next position. -/
theorem exists_add_address {tree : SuffixTree Nat} {done : List Pathname}
    (h : Holds tree (addresses done)) (path : Pathname) :
    ∃ tree',
      tree.add path done.length = (tree', if path ∈ done then some (.duplicate path.text) else none)
      ∧ Holds tree' (addresses (done ++ [path])) := by
  rw [addresses_concat]
  by_cases hmem : path ∈ done
  · rw [if_pos hmem, if_pos hmem, List.append_nil]
    exact ⟨tree, h.add_taken (mem_map_addresses.mpr hmem) _, h⟩
  · obtain ⟨hnone, hholds⟩ := h.add_fresh (fun hkey => hmem (mem_map_addresses.mp hkey)) done.length
    rw [if_neg hmem, if_neg hmem]
    exact ⟨_, Prod.ext rfl hnone, hholds⟩

/-- Adding the paths of more entities keeps the tree to the addresses. The entities added before
have the paths `done`; a path among these is refused, which either ends the attempt or is passed
over. -/
theorem holds_addPaths {strict : Bool} {tree tree' : SuffixTree Nat} {done : List Pathname}
    {entities : List Entity} (hgives : Gives (addPaths strict tree done.length entities) tree')
    (h : Holds tree (addresses done)) :
    Holds tree' (addresses (done ++ entities.map Entity.path)) := by
  induction entities generalizing tree done with
  | nil =>
    rw [addPaths, Attempt.gives_pure] at hgives
    rw [List.map_nil, List.append_nil, ← hgives]
    exact h
  | cons entity rest ih =>
    have hlength : done.length + 1 = (done ++ [entity.path]).length := by simp
    obtain ⟨next, hadd, hnext⟩ := exists_add_address h entity.path
    rw [List.map_cons, ← List.singleton_append, ← List.append_assoc]
    rw [addPaths, hadd] at hgives
    by_cases hmem : entity.path ∈ done
    · cases strict with
      | true => simp [hmem] at hgives
      | false =>
        simp only [hmem, if_true, Bool.false_eq_true, if_false, Attempt.gives_bind, hlength]
          at hgives
        obtain ⟨-, -, hgives⟩ := hgives
        exact ih hgives hnext
    · rw [if_neg hmem, hlength] at hgives
      exact ih hgives hnext

namespace Analyzer

/-- The paths that can be looked up: those of the entities, each with its first position. -/
def addressable (a : Analyzer) : List (Pathname × Nat) := addresses (a.entities.map Entity.path)

/-- The tree holds what can be looked up. -/
def Addressed (a : Analyzer) : Prop := Holds a.byPath a.addressable

/-- An address leads to an entity with its path. -/
theorem entity_of_mem_addressable {a : Analyzer} {path : Pathname} {position : Nat}
    (h : (path, position) ∈ a.addressable) :
    ∃ e, a.entities[position]? = some e ∧ e.path = path := by
  obtain ⟨hmem, hfirst⟩ := mem_addresses.mp h
  have hget := List.getElem?_idxOf hmem
  rw [hfirst, List.getElem?_map] at hget
  exact Option.map_eq_some_iff.mp hget

/-- Every entity's path has an address. -/
theorem exists_mem_addressable {a : Analyzer} {e : Entity} (h : e ∈ a.entities) :
    ∃ position, (e.path, position) ∈ a.addressable :=
  ⟨(a.entities.map Entity.path).idxOf e.path, mem_addresses.mpr ⟨List.mem_map_of_mem h, rfl⟩⟩

/-- What a suffix does not match is the end of no entity's path. -/
theorem hits_addressable_eq_nil_iff {a : Analyzer} {suffix : Pathname} :
    hits a.addressable suffix = [] ↔ ∀ e ∈ a.entities, ¬ suffix <:+ e.path := by
  rw [SuffixTree.hits_eq_nil_iff]
  constructor
  · intro h e he
    obtain ⟨position, hmem⟩ := exists_mem_addressable he
    exact h _ hmem
  · rintro h ⟨path, position⟩ hmem
    obtain ⟨e, hget, rfl⟩ := entity_of_mem_addressable hmem
    exact h e (List.mem_of_getElem? hget)

/-- **An analysis converts the project, and addresses what comes out.** -/
theorem convert_of_ofProject {p : Project} {config : Config} {a : Analyzer}
    (h : Gives (ofProject p config) a) :
    Gives (p.convert config) (a.index, a.entities) ∧ a.Addressed := by
  rw [ofProject] at h
  simp only [Attempt.gives_bind, Attempt.gives_pure] at h
  obtain ⟨⟨index, entities⟩, hconvert, byPath, htree, -, -, rfl⟩ := h
  have hholds : Holds byPath (addresses ([] ++ entities.map Entity.path)) :=
    holds_addPaths htree SuffixTree.holds_empty
  exact ⟨hconvert, hholds⟩

/-! ## Collecting matches -/

/-- What one way to split a text adds: the position of a single match, or the texts of several. -/
theorem Matches.exists_add (m : Matches) (pairs : List (Pathname × Nat)) (suffix : Pathname) :
    ∃ m', m.add (scan pairs suffix) = .ok m'
      ∧ (m.found.Nodup → m'.found.Nodup)
      ∧ (∀ position, position ∈ m'.found ↔
          position ∈ m.found ∨ ∃ path, hits pairs suffix = [(path, position)])
      ∧ ∀ text, text ∈ m'.candidates ↔
          text ∈ m.candidates
          ∨ (2 ≤ (hits pairs suffix).length ∧ ∃ pair ∈ hits pairs suffix, pair.1.text = text) := by
  rw [scan]
  -- no match, one match, and more than one
  rcases hits pairs suffix with _ | ⟨⟨path, value⟩, _ | ⟨second, rest⟩⟩
  · exact ⟨m, rfl, id, by simp, by simp⟩
  · refine ⟨_, rfl, ?_, ?_, ?_⟩
    · -- a position that has been found already is not listed again
      intro hnodup
      split
      · exact hnodup
      · rename_i hnot
        rw [← List.concat_eq_append]
        exact List.Nodup.concat (by simpa using hnot) hnodup
    · intro position
      split
      · rename_i hmem
        have hmem : value ∈ m.found := by simpa using hmem
        constructor
        · exact Or.inl
        · rintro (h | ⟨_, h⟩)
          · exact h
          · cases h
            exact hmem
      · simp [eq_comm]
    · intro text
      split <;> simp
  · refine ⟨_, rfl, id, by simp, ?_⟩
    intro text
    simp only [List.mem_append, List.mem_insertionSort, List.mem_map, List.length_cons]
    simp

/-- What all ways to split a text add up to. -/
theorem exists_matchesFrom {a : Analyzer} (h : a.Addressed) (m : Matches)
    (suffixes : List Pathname) :
    ∃ m', a.matchesFrom m suffixes = .ok m'
      ∧ (m.found.Nodup → m'.found.Nodup)
      ∧ (∀ position, position ∈ m'.found ↔ position ∈ m.found
          ∨ ∃ s ∈ suffixes, ∃ path, hits a.addressable s = [(path, position)])
      ∧ ∀ text, text ∈ m'.candidates ↔ text ∈ m.candidates
          ∨ ∃ s ∈ suffixes, 2 ≤ (hits a.addressable s).length
            ∧ ∃ pair ∈ hits a.addressable s, pair.1.text = text := by
  induction suffixes generalizing m with
  | nil => exact ⟨m, rfl, id, by simp, by simp⟩
  | cons s suffixes ih =>
    obtain ⟨next, hnext, hnodup, hfound, hcandidates⟩ := m.exists_add a.addressable s
    -- the induction goes on with what the first way has added
    obtain ⟨last, hlast, hnodup', hfound', hcandidates'⟩ := ih next
    refine ⟨last, ?_, hnodup' ∘ hnodup, ?_, ?_⟩
    · rw [matchesFrom, h.get_eq_scan, hnext]
      exact hlast
    · intro position
      rw [hfound', hfound, List.exists_mem_cons_iff, or_assoc]
    · intro text
      rw [hcandidates', hcandidates, List.exists_mem_cons_iff, or_assoc]

/-- **A text names an entity exactly if the ways to split it agree on its position.** -/
theorem resolve_eq_ok_iff {a : Analyzer} (h : a.Addressed) {namepath : String} {e : Entity} :
    a.resolve namepath = .ok e ↔ ∃ position, a.entities[position]? = some e
      ∧ (∃ s ∈ Pathname.parseAlternatives namepath, hits a.addressable s ≠ [])
      ∧ ∀ s ∈ Pathname.parseAlternatives namepath,
        hits a.addressable s = [] ∨ ∃ path, hits a.addressable s = [(path, position)] := by
  obtain ⟨⟨found, candidates⟩, hmatches, hnodup, hfound, hcandidates⟩ :=
    exists_matchesFrom h {} (Pathname.parseAlternatives namepath)
  simp only [List.not_mem_nil, false_or] at hfound hcandidates
  rw [resolve, hmatches]
  constructor
  · intro hok
    -- only one position without candidates is an answer
    obtain ⟨position, rfl, rfl, hget⟩ : ∃ position, found = [position] ∧ candidates = []
        ∧ a.entities[position]? = some e := by
      match found, candidates with
      | [], [] => cases hok
      | [], _ :: _ => cases hok
      | _ :: _ :: _, _ => cases hok
      | [position], _ :: _ => cases hok
      | [position], [] =>
        refine ⟨position, rfl, rfl, ?_⟩
        simp only at hok
        split at hok
        · rename_i entity hentity
          rw [hentity, Except.ok.inj hok]
        · cases hok
    refine ⟨position, hget, ?_, ?_⟩
    · obtain ⟨s, hs, path, hhits⟩ := (hfound position).mp List.mem_cons_self
      exact ⟨s, hs, by rw [hhits]; exact List.cons_ne_nil _ _⟩
    · intro s hs
      match hhits : hits a.addressable s with
      | [] => exact Or.inl rfl
      | [(path, other)] =>
        have hother := (hfound other).mpr ⟨s, hs, path, hhits⟩
        rw [List.mem_singleton.mp hother]
        exact Or.inr ⟨path, rfl⟩
      -- two matches of one way would be candidates, and there are none
      | first :: second :: rest =>
        have hcandidate := (hcandidates first.1.text).mpr
          ⟨s, hs, by rw [hhits]; simp, first, by rw [hhits]; exact List.mem_cons_self, rfl⟩
        exact absurd hcandidate List.not_mem_nil
  · rintro ⟨position, hget, ⟨s, hs, hsome⟩, hall⟩
    -- some way matches, and all that match have this position
    have hmem : position ∈ found := by
      rcases hall s hs with hnone | ⟨path, hone⟩
      · exact absurd hnone hsome
      · exact (hfound position).mpr ⟨s, hs, path, hone⟩
    have honly : ∀ other ∈ found, other = position := by
      intro other hother
      obtain ⟨s', hs', path', hone⟩ := (hfound other).mp hother
      rcases hall s' hs' with hnone | ⟨path, hone'⟩
      · rw [hone] at hnone
        cases hnone
      · rw [hone] at hone'
        cases hone'
        rfl
    have hsingle : found = [position] := eq_singleton_of_nodup (hnodup List.nodup_nil) hmem honly
    have hnone : candidates = [] := by
      refine List.eq_nil_iff_forall_not_mem.mpr ?_
      intro text htext
      obtain ⟨s', hs', hlength, -⟩ := (hcandidates text).mp htext
      rcases hall s' hs' with hnil | ⟨path, hone⟩
      · rw [hnil] at hlength
        exact absurd hlength (by simp)
      · rw [hone] at hlength
        exact absurd hlength (by simp)
    rw [hsingle, hnone]
    simp only [hget]

/-! ## Printed paths -/

section

variable {a : Analyzer} {e : Entity}

/-- A text that splits into the path of an entity, and otherwise into nothing that is known, finds
the path. -/
theorem resolve_of_only_split (h : a.Addressed) (he : e ∈ a.entities) {namepath : String}
    (hsplit : e.path ∈ Pathname.parseAlternatives namepath)
    (honly : ∀ s ∈ Pathname.parseAlternatives namepath, s ≠ e.path → ∀ f ∈ a.entities,
      ¬ s <:+ f.path) :
    ∃ found, a.resolve namepath = .ok found ∧ found.path = e.path := by
  obtain ⟨position, hmem⟩ := exists_mem_addressable he
  obtain ⟨found, hget, hpath⟩ := entity_of_mem_addressable hmem
  have hself : hits a.addressable e.path = [(e.path, position)] := h.hits_of_mem hmem
  refine ⟨found, (resolve_eq_ok_iff h).mpr ⟨position, hget, ⟨e.path, hsplit, ?_⟩, ?_⟩, hpath⟩
  · rw [hself]
    exact List.cons_ne_nil _ _
  · intro s hs
    by_cases heq : s = e.path
    · rw [heq]
      exact Or.inr ⟨e.path, hself⟩
    · exact Or.inl (hits_addressable_eq_nil_iff.mpr (honly s hs heq))

/-- The empty text finds the only path there is. -/
theorem resolve_empty (h : a.Addressed) (he : e ∈ a.entities)
    (hall : ∀ f ∈ a.entities, f.path = e.path) :
    ∃ found, a.resolve "" = .ok found ∧ found.path = e.path := by
  obtain ⟨position, hmem⟩ := exists_mem_addressable he
  obtain ⟨found, hget, hpath⟩ := entity_of_mem_addressable hmem
  have honly : ∀ pair ∈ a.addressable, pair = (e.path, position) := by
    rintro ⟨path, other⟩ hpair
    obtain ⟨f, hf, rfl⟩ := entity_of_mem_addressable hpair
    exact List.inj_on_of_nodup_map h.distinct hpair hmem (hall f (List.mem_of_getElem? hf))
  -- all entities have one path, so there is one address
  have hpairs : a.addressable = [(e.path, position)] :=
    eq_singleton_of_nodup (h.distinct.of_map _) hmem honly
  have hhits : hits a.addressable [] = [(e.path, position)] := by
    rw [hpairs, hits]
    by_cases hnil : e.path = []
    · simp [hnil]
    · simp [hnil]
  refine ⟨found,
    (resolve_eq_ok_iff h).mpr ⟨position, hget, ⟨[], List.mem_cons_self, ?_⟩, ?_⟩, hpath⟩
  · rw [hhits]
    exact List.cons_ne_nil _ _
  · intro s hs
    rw [show s = [] from List.mem_singleton.mp hs]
    exact Or.inr ⟨e.path, hhits⟩

/-- If a text finds an entity, whatever it splits into matches the path of that entity, or
nothing. -/
theorem hits_of_resolve (h : a.Addressed) {namepath : String}
    (hresolve : a.resolve namepath = .ok e) :
    ∃ position,
      (∃ s ∈ Pathname.parseAlternatives namepath, hits a.addressable s = [(e.path, position)])
      ∧ ∀ s ∈ Pathname.parseAlternatives namepath,
        hits a.addressable s = [] ∨ hits a.addressable s = [(e.path, position)] := by
  obtain ⟨position, hget, ⟨s, hs, hsome⟩, hall⟩ := (resolve_eq_ok_iff h).mp hresolve
  have hpath : ∀ s ∈ Pathname.parseAlternatives namepath,
      hits a.addressable s = [] ∨ hits a.addressable s = [(e.path, position)] := by
    intro s hs
    rcases hall s hs with hnone | ⟨path, hone⟩
    · exact Or.inl hnone
    · -- the entity at the position that was found has the path that was matched
      obtain ⟨hmem, -⟩ := SuffixTree.mem_hits (hone ▸ List.mem_cons_self)
      obtain ⟨f, hf, rfl⟩ := entity_of_mem_addressable hmem
      rw [hget] at hf
      cases hf
      exact Or.inr hone
  exact ⟨position, ⟨s, hs, (hpath s hs).resolve_left hsome⟩, hpath⟩

/-- If the empty path matches one path only, and that is not empty itself, it is the only path there
is. -/
theorem forall_path_of_hits_nil (h : a.Addressed) (hne : e.path ≠ []) {position : Nat}
    (hhits : hits a.addressable [] = [(e.path, position)]) : ∀ f ∈ a.entities, f.path = e.path := by
  -- an entity with the empty path would be the one that is matched
  have hexact : [] ∉ a.addressable.map Prod.fst := by
    intro hmem
    obtain ⟨pair, hpair, hnil⟩ := List.mem_map.mp hmem
    have hself := h.hits_of_mem hpair
    rw [hnil, hhits] at hself
    cases hself
    exact hne hnil
  intro f hf
  obtain ⟨other, hmem⟩ := exists_mem_addressable hf
  have hhit := SuffixTree.mem_hits_of_suffix hexact hmem (List.nil_suffix)
  rw [hhits] at hhit
  exact congrArg Prod.fst (List.mem_singleton.mp hhit)

end

/-- **When an entity is found by its printed path.** Its segments have to be one of the ways to
split the text, and no other way may be the end of an entity's path. Besides, the empty text finds
an entity whose path is one empty segment if there is no other path. -/
theorem resolve_text_iff {p : Project} {config : Config} {a : Analyzer}
    (h : Gives (ofProject p config) a) {e : Entity} (he : e ∈ a.entities) :
    (∃ found, a.resolve e.path.text = .ok found ∧ found.path = e.path) ↔
      (e.path ∈ Pathname.parseAlternatives e.path.text
        ∧ ∀ s ∈ Pathname.parseAlternatives e.path.text, s ≠ e.path → ∀ f ∈ a.entities,
          ¬ s <:+ f.path)
      ∨ (e.path = [""] ∧ ∀ f ∈ a.entities, f.path = [""]) := by
  obtain ⟨hconvert, haddressed⟩ := convert_of_ofProject h
  have hpunctuated := p.punctuated_of_convert hconvert he
  -- another way to split the text is an end of the path only where the path is one empty segment
  have hother : ∀ s ∈ Pathname.parseAlternatives e.path.text, s ≠ e.path → s <:+ e.path →
      s = [] ∧ e.path = [""] := by
    intro s hs hne hsuffix
    have htext := Pathname.text_of_mem_parseAlternatives hs
    exact (Pathname.eq_of_suffix_of_text_eq hpunctuated hsuffix htext).resolve_left hne
  constructor
  · rintro ⟨found, hresolve, hpath⟩
    obtain ⟨position, ⟨s, hs, hone⟩, hall⟩ := hits_of_resolve haddressed hresolve
    rw [hpath] at hone hall
    have hsuffix : ∀ {s}, hits a.addressable s = [(e.path, position)] → s <:+ e.path :=
      fun hone => (SuffixTree.mem_hits (hone ▸ List.mem_cons_self)).2
    by_cases hsplit : e.path ∈ Pathname.parseAlternatives e.path.text
    · refine Or.inl ⟨hsplit, ?_⟩
      intro s' hs' hne
      rcases hall s' hs' with hnone | hone'
      · exact hits_addressable_eq_nil_iff.mp hnone
      · obtain ⟨-, hempty⟩ := hother s' hs' hne (hsuffix hone')
        -- the text of one empty segment is empty, and that splits into nothing
        rw [hempty] at hsplit
        exact absurd hsplit (by decide)
    · have hne : s ≠ e.path := fun heq => hsplit (heq ▸ hs)
      obtain ⟨rfl, hempty⟩ := hother s hs hne (hsuffix hone)
      refine Or.inr ⟨hempty, ?_⟩
      rw [← hempty]
      exact forall_path_of_hits_nil haddressed hne.symm hone
  · rintro (⟨hsplit, honly⟩ | ⟨hempty, hall⟩)
    · exact resolve_of_only_split haddressed he hsplit honly
    · rw [← hempty] at hall
      have htext : e.path.text = "" := by rw [hempty]; rfl
      rw [htext]
      exact resolve_empty haddressed he hall

/-- A project with one variable `x`, which is declared in the given file. -/
def variableIn (file : String) : Project where
  children :=
    [⟨{ name := "x", sources := [⟨file, 1⟩] }, [], .member .variableDecl ⟨.intrinsic "number", []⟩⟩]

/-- A dot in the stem of a file is found through the second way to split the text. -/
theorem resolve_text_dotted_stem :
    ∃ a e, Gives (ofProject (variableIn "lib/index.d.ts") {}) a ∧ e ∈ a.entities
      ∧ e.path = ["./", "lib/", "index.d.", "x"]
      ∧ ∃ found, a.resolve e.path.text = .ok found ∧ found.path = e.path := by
  obtain ⟨a, ha, hpaths⟩ :=
    Attempt.exists_gives_of_map (x := ofProject (variableIn "lib/index.d.ts") {})
      (fun a => a.entities.map Entity.path) (b := [["./", "lib/", "index.d.", "x"]])
      (by decide +kernel)
  obtain ⟨e, hentities, hpath⟩ := List.map_eq_singleton_iff.mp hpaths
  have he : e ∈ a.entities := hentities ▸ List.mem_cons_self
  refine ⟨a, e, ha, he, hpath, (resolve_text_iff ha he).mpr (Or.inl ⟨?_, ?_⟩)⟩
  · -- the second way has the stem in one piece
    rw [hpath]
    decide +kernel
  · -- the first way is no end of the only path
    rw [hpath, hentities]
    intro s hs hne f hf
    rw [List.mem_singleton.mp hf, hpath]
    revert s
    decide +kernel

/-- A dot in the name of a directory is taken for the end of a segment, and nothing is found. -/
theorem resolve_text_dotted_directory :
    ∃ a e, Gives (ofProject (variableIn "v1.2/util.ts") {}) a ∧ e ∈ a.entities
      ∧ e.path = ["./", "v1.2/", "util.", "x"]
      ∧ a.resolve e.path.text = .error (.notFound "./v1.2/util.x") := by
  obtain ⟨a, ha, hresults⟩ :=
    Attempt.exists_gives_of_map (x := ofProject (variableIn "v1.2/util.ts") {})
      (fun a => a.entities.map fun e => (e.path, a.resolve e.path.text))
      (b := [(["./", "v1.2/", "util.", "x"], .error (.notFound "./v1.2/util.x"))])
      (by decide +kernel)
  obtain ⟨e, hentities, hresult⟩ := List.map_eq_singleton_iff.mp hresults
  obtain ⟨hpath, hresolve⟩ := Prod.mk.inj hresult
  exact ⟨a, e, ha, hentities ▸ List.mem_cons_self, hpath, hresolve⟩

end Analyzer

end DocAtlas
