import DocAtlas.Decode.Union
import DocAtlas.Proofs.Arrangement
import Mathlib.Data.List.Forall2
import Mathlib.Data.List.Pairwise
import Mathlib.Data.List.Perm.Basic
import Mathlib.Tactic.MkIffOfInductiveProp

/-!
Reading values back.

`Reads r j a` says that the reader `r` gets `a` from `j`, wherever the value stands and however the
entries of the objects in it are ordered. There is one lemma for each way to put readers together,
so that a round trip follows the structure of the type that is read.

Most of the file is about records. A record takes the entries in the order in which they stand,
while its fields are listed in another. The loop keeps an invariant: what is still to be done are
the changes of the fields that have not been seen (`Record.Makes.takeEntries_eq`). Changes of
different fields commute (`Record.Orderly`), so the one that the next entry calls for may be made
first, and in the end all are made as if in the order of the fields (`Record.Makes.readEntries_eq`).
-/

set_option autoImplicit false

namespace DocAtlas

open Json (Rearranged)

variable {α β σ κ : Type}

/-- The value is read, wherever it stands and however the entries of its objects are ordered. -/
def Reads (r : Reader α) (j : Json) (a : α) : Prop :=
  ∀ (o : Origin) (j' : Json), j.Rearranged j' → r o j' = .ok a

/-- An object rearranged is an object. -/
theorem reads_obj {r : Reader α} {entries : List (String × Json)} {a : α}
    (h : ∀ o entries', (Json.obj entries).Rearranged (.obj entries') →
      r o (.obj entries') = .ok a) :
    Reads r (.obj entries) a := by
  intro o j' hj'
  cases hj' with
  | obj keys inside => exact h o _ (.obj keys inside)

/-! ## Single values, lists and choices -/

namespace Reader

theorem reads_string (s : String) : Reads string (.str s) s := by
  rintro o j' ⟨⟩
  rfl

theorem reads_boolean (b : Bool) : Reads boolean (.bool b) b := by
  rintro o j' ⟨⟩
  rfl

/-- A 32-bit number is written as a natural number in its range. -/
theorem reads_uint32 (n : UInt32) : Reads uint32 (.ofNat n.toNat) n := by
  rintro o j' ⟨⟩
  have hrange : (0 : Int) ≤ n.toNat ∧ (n.toNat : Int) < Int.pow 2 32 := by
    have hlt := n.toNat_lt
    refine ⟨Int.natCast_nonneg _, ?_⟩
    rw [show Int.pow 2 32 = 4294967296 from rfl]
    omega
  rw [uint32, integerIn, if_pos hrange, Except.map, Int.toNat_natCast, UInt32.ofNat_toNat]

/-- What is read can be changed by a function. -/
theorem reads_map {r : Reader α} (f : α → β) {j : Json} {a : α} (h : Reads r j a) :
    Reads (r.map f) j (f a) := by
  intro o j' hj'
  rw [Reader.map, h o j' hj']
  rfl

/-- A list is read if its items are. -/
theorem reads_list {r : Reader α} {write : α → Json} (h : ∀ a, Reads r (write a) a) (as : List α) :
    Reads (list r) (.arr (as.map write)) as := by
  rintro o j' hj'
  cases hj' with
  | @arr _ items' hlength inside =>
    rw [list]
    induction as generalizing items' with
    | nil =>
      rw [List.eq_nil_of_length_eq_zero hlength.symm]
      rfl
    | cons a as ih =>
      -- a rearranged array has as many items, each of them rearranged
      match items', hlength with
      | item' :: items', hlength =>
        have hhead : r o item' = .ok a := h a o item' (inside _ _ List.mem_cons_self)
        have htail : items r o items' = .ok as :=
          ih (Nat.succ.inj hlength) fun item item' hmem =>
            inside item item' (List.mem_cons_of_mem _ hmem)
        rw [items, hhead, htail]

/-- A value that may be absent is read if its reader refuses `null`. -/
theorem reads_option {r : Reader α} {write : α → Json} (hnull : ∀ o, ∃ e, r o .null = .error e)
    (h : ∀ a, Reads r (write a) a) (x : Option α) : Reads (option r) (.ofOption write x) x := by
  intro o j' hj'
  cases x with
  | none =>
    cases hj'
    rfl
  | some a =>
    have hread : r o j' = .ok a := h a o j' hj'
    have hsome : option r o j' = (r o j').map some := by
      cases j' with
      | null =>
        obtain ⟨e, he⟩ := hnull o
        rw [hread] at he
        cases he
      | _ => rfl
    rw [hsome, hread]
    rfl

/-- What the first of two readers reads is read. -/
theorem reads_either_first {union : String} {first second : Reader α} {j : Json} {a : α}
    (h : Reads first j a) :
    Reads (either union first second) j a := by
  intro o j' hj'
  rw [either, h .lent j' hj']

/-- What the first reader refuses is read by the second. -/
theorem reads_either_second {union : String} {first second : Reader α} {j : Json} {a : α}
    (hrefused : ∀ o j', j.Rearranged j' → ∃ e, first o j' = .error e) (h : Reads second j a) :
    Reads (either union first second) j a := by
  intro o j' hj'
  obtain ⟨e, he⟩ := hrefused .lent j' hj'
  rw [either, he, h .lent j' hj']

end Reader

/-! ## Records -/

namespace Field

/-- A field finds its entry, and reads it into a change of the record. -/
def Takes (f : Field σ) (entries : List (String × Json)) (set : σ → σ) : Prop :=
  ∃ j, (f.name, j) ∈ entries ∧ ∀ o j', j.Rearranged j' → f.store o j' = .ok set

/-- Reading one field and then another makes no difference to reading them the other way round. -/
def Commutes (f g : Field σ) : Prop :=
  ∀ o j s, f.store o j = .ok s → ∀ o' j' s', g.store o' j' = .ok s' → ∀ v, s (s' v) = s' (s v)

@[simp] theorem name_ofReader (presence : Presence) (name : String) (r : Reader α)
    (set : α → σ → σ) :
    (ofReader presence name r set).name = name :=
  rfl

@[simp] theorem aliases_ofReader (presence : Presence) (name : String) (r : Reader α)
    (set : α → σ → σ) :
    (ofReader presence name r set).aliases = [] :=
  rfl

/-- A field finds its entry if the value there is read. -/
theorem takes_ofReader {presence : Presence} {name : String} {r : Reader α} {set : α → σ → σ}
    {entries : List (String × Json)} {j : Json} {a : α} (hmem : (name, j) ∈ entries)
    (h : Reads r j a) :
    (ofReader presence name r set).Takes entries (set a) := by
  refine ⟨j, hmem, ?_⟩
  intro o j' hj'
  simp only [ofReader]
  rw [h o j' hj']
  rfl

/-- Two fields commute if what they set does not overlap. -/
@[simp] theorem commutes_ofReader {presence presence' : Presence} {name name' : String}
    {r : Reader α} {r' : Reader β} {set : α → σ → σ} {set' : β → σ → σ}
    (h : ∀ a b v, set a (set' b v) = set' b (set a v)) :
    (ofReader presence name r set).Commutes (ofReader presence' name' r' set') := by
  intro o j s hs o' j' s' hs' v
  simp only [ofReader] at hs hs'
  cases hr : r o j with
  | error e =>
    rw [hr] at hs
    cases hs
  | ok a =>
    cases hr' : r' o' j' with
    | error e =>
      rw [hr'] at hs'
      cases hs'
    | ok b =>
      rw [hr] at hs
      rw [hr'] at hs'
      cases hs
      cases hs'
      exact h a b v

end Field

namespace Record

variable {r : Record σ} {o : Origin}

/-- A record whose fields answer to one name each, all of them different, and are read independently
of each other. -/
@[mk_iff]
structure Orderly (r : Record σ) : Prop where
  names : (r.fields.map Field.name).Nodup
  plain : ∀ f ∈ r.fields, f.aliases = []
  commutes : r.fields.Pairwise Field.Commutes

/-- The fields of a record, each with the change that it makes. -/
abbrev Changes (σ : Type) : Type := List (Field σ × (σ → σ))

namespace Changes

/-- The changes of the fields that have not been seen. -/
def pending (changes : Changes σ) (seen : List String) : Changes σ :=
  changes.filter fun change => change.1.name ∉ seen

/-- A change is pending if its field has not been seen. -/
theorem mem_pending {changes : Changes σ} {seen : List String} {change : Field σ × (σ → σ)} :
    change ∈ changes.pending seen ↔ change ∈ changes ∧ change.1.name ∉ seen := by
  rw [pending, List.mem_filter, decide_eq_true_eq]

/-- Makes the changes one after the other. -/
def makeAll (changes : Changes σ) (v : σ) : σ := changes.foldl (fun v change => change.2 v) v

end Changes

open Changes

/-- The fields of a record make these changes of the entries of an object. -/
structure Makes (r : Record σ) (o : Origin) (entries : List (String × Json)) (changes : Changes σ) :
    Prop where
  fields : changes.map Prod.fst = r.fields
  keys : (entries.map Prod.fst).Nodup
  stored : ∀ change ∈ changes, ∃ j, (change.1.name, j) ∈ entries ∧ change.1.store o j = .ok change.2

/-- An entry that no field answers to has no name of a field. -/
theorem find?_answersTo_eq_none {key : String} (h : r.fields.find? (·.answersTo key) = none) :
    ∀ f ∈ r.fields, f.name ≠ key := by
  intro f hf heq
  refine List.find?_eq_none.mp h f hf ?_
  rw [Field.answersTo, heq, beq_self_eq_true, Bool.true_or]

/-- In an orderly record only the field of its name answers to an entry. -/
theorem Orderly.find?_answersTo_eq_some (hr : r.Orderly) {key : String} {f : Field σ}
    (h : r.fields.find? (·.answersTo key) = some f) : f ∈ r.fields ∧ f.name = key := by
  have hmem := List.mem_of_find?_eq_some h
  have hanswers := List.find?_some h
  rw [Field.answersTo, hr.plain f hmem, List.contains_nil, Bool.or_false, beq_iff_eq] at hanswers
  exact ⟨hmem, hanswers.symm⟩

/-- If all fields have been seen, nothing is missing and no default is called for. -/
theorem finish_eq {d : Draft σ} (h : ∀ f ∈ r.fields, f.name ∈ d.seen) :
    r.finish d = .ok d.value := by
  have hnone : r.fields.find? (fun f => f.presence = .required && !d.seen.contains f.name)
      = none := by
    rw [List.find?_eq_none]
    intro f hf
    simp [h f hf]
  rw [finish, hnone]

namespace Makes

variable {entries : List (String × Json)} {changes : Changes σ} (h : r.Makes o entries changes)
include h

/-- The keys are distinct, so any entry with the name of the field is the one it is read from. -/
theorem store_eq {change : Field σ × (σ → σ)} (hchange : change ∈ changes) {j : Json}
    (hmem : (change.1.name, j) ∈ entries) : change.1.store o j = .ok change.2 := by
  obtain ⟨j', hmem', hj'⟩ := h.stored change hchange
  rw [Json.value_eq_of_nodup h.keys hmem hmem', hj']

/-- A change belongs to a field of the record. -/
theorem mem_fields {change : Field σ × (σ → σ)} (hchange : change ∈ changes) :
    change.1 ∈ r.fields :=
  h.fields ▸ List.mem_map_of_mem hchange

/-- Every field of the record makes a change. -/
theorem exists_change {f : Field σ} (hf : f ∈ r.fields) : ∃ change ∈ changes, change.1 = f := by
  rw [← h.fields] at hf
  exact List.mem_map.mp hf

variable (hr : r.Orderly)
include hr

/-- No two changes belong to fields of one name. -/
theorem nodup_names : (changes.map fun change => change.1.name).Nodup := by
  have hnames := hr.names
  rw [← h.fields, List.map_map] at hnames
  exact hnames

/-- Changes may be made in any order. -/
theorem makeAll_perm {these those : Changes σ} (hperm : these.Perm those) (hsub : these ⊆ changes)
    (v : σ) :
    makeAll these v = makeAll those v := by
  have hpairwise : changes.Pairwise fun a b => ∀ v, a.2 (b.2 v) = b.2 (a.2 v) := by
    have hcommutes := hr.commutes
    rw [← h.fields, List.pairwise_map] at hcommutes
    refine hcommutes.imp_of_mem ?_
    intro a b ha hb hab v
    obtain ⟨j, -, hj⟩ := h.stored a ha
    obtain ⟨j', -, hj'⟩ := h.stored b hb
    exact hab o j a.2 hj o j' b.2 hj' v
  refine hperm.foldl_eq' ?_ v
  intro a ha b hb v
  -- pairwise speaks of a change and a later one; commuting is symmetric, so any two will do
  exact hpairwise.forall_of_forall_of_flip (fun _ _ _ => rfl)
    (hpairwise.imp fun hab v => (hab v).symm) (hsub hb) (hsub ha) v

/-- A change that is pending may be made first. -/
theorem makeAll_pending {seen : List String} {change : Field σ × (σ → σ)}
    (hmem : change ∈ changes.pending seen) (v : σ) :
    makeAll (changes.pending seen) v
      = makeAll (changes.pending (change.1.name :: seen)) (change.2 v) := by
  have hnames := h.nodup_names hr
  have hnodup : changes.Nodup := hnames.of_map _
  -- up to its order, what is pending is this change and what is pending after it
  have hperm : (changes.pending seen).Perm (change :: changes.pending (change.1.name :: seen)) := by
    refine (List.perm_ext_iff_of_nodup (hnodup.filter _)
      (List.nodup_cons.mpr ⟨?_, hnodup.filter _⟩)).mpr ?_
    · exact fun hagain => (mem_pending.mp hagain).2 List.mem_cons_self
    · -- the names are distinct, so `change` is the only pending one that drops out
      intro other
      rw [List.mem_cons]
      constructor
      · intro hother
        obtain ⟨hother, hunseen⟩ := mem_pending.mp hother
        by_cases hname : other.1.name = change.1.name
        · exact .inl (List.inj_on_of_nodup_map hnames hother (mem_pending.mp hmem).1 hname)
        · exact .inr (mem_pending.mpr ⟨hother, List.not_mem_cons_of_ne_of_not_mem hname hunseen⟩)
      · rintro (rfl | hother)
        · exact hmem
        · obtain ⟨hother, hunseen⟩ := mem_pending.mp hother
          exact mem_pending.mpr ⟨hother, List.not_mem_of_not_mem_cons hunseen⟩
  exact h.makeAll_perm hr hperm (fun _ hchange => (mem_pending.mp hchange).1) v

/-- Taking in the rest of the entries makes the changes that are pending, if they all have an entry
there. -/
theorem takeEntries_eq {rest : List (String × Json)} (hrest : rest <:+ entries) {seen : List String}
    (hnew : ∀ key ∈ rest.map Prod.fst, key ∉ seen)
    (hthere : ∀ change ∈ changes.pending seen, change.1.name ∈ rest.map Prod.fst) (v : σ) :
    ∃ seen', r.takeEntries o ⟨v, seen⟩ rest = .ok ⟨makeAll (changes.pending seen) v, seen'⟩ ∧
      ∀ f ∈ r.fields, f.name ∈ seen' := by
  -- the induction is on what is left of the entries; a pending change keeps its entry there until
  -- it is made
  induction rest generalizing seen v with
  | nil =>
    have hnone : changes.pending seen = [] :=
      List.eq_nil_iff_forall_not_mem.mpr fun change hchange =>
        List.not_mem_nil (hthere change hchange)
    refine ⟨seen, by rw [hnone]; rfl, ?_⟩
    intro f hf
    obtain ⟨change, hchange, rfl⟩ := h.exists_change hf
    by_contra hunseen
    exact List.eq_nil_iff_forall_not_mem.mp hnone change (mem_pending.mpr ⟨hchange, hunseen⟩)
  | cons entry rest ih =>
    have hfresh : entry.1 ∉ rest.map Prod.fst :=
      (List.nodup_cons.mp ((hrest.sublist.map Prod.fst).nodup h.keys)).1
    have hrest' : rest <:+ entries := (List.suffix_cons entry rest).trans hrest
    rw [takeEntries]
    cases hfind : r.fields.find? (·.answersTo entry.1) with
    | none =>
      -- an entry that no field answers to leaves everything as it was
      rw [takeEntry, hfind]
      refine ih hrest' (fun key hkey => hnew key (List.mem_cons_of_mem _ hkey)) ?_ v
      intro change hchange
      have hother := find?_answersTo_eq_none hfind _ (h.mem_fields (mem_pending.mp hchange).1)
      exact (List.mem_cons.mp (hthere change hchange)).resolve_left hother
    | some f =>
      obtain ⟨hf, hname⟩ := hr.find?_answersTo_eq_some hfind
      obtain ⟨change, hchange, rfl⟩ := h.exists_change hf
      have hunseen : change.1.name ∉ seen := hname ▸ hnew entry.1 List.mem_cons_self
      have hentry : change.1.store o entry.2 = .ok change.2 :=
        h.store_eq hchange (hname ▸ hrest.subset List.mem_cons_self)
      rw [takeEntry, hfind]
      simp only [hunseen, if_false, hentry]
      -- the change of this entry is made now, before those that stand in front of it among the
      -- fields
      rw [h.makeAll_pending hr (mem_pending.mpr ⟨hchange, hunseen⟩)]
      refine ih hrest' ?_ ?_ (change.2 v)
      · intro key hkey
        refine List.not_mem_cons_of_ne_of_not_mem ?_ (hnew key (List.mem_cons_of_mem _ hkey))
        rintro rfl
        exact hfresh (hname ▸ hkey)
      · intro other hother
        obtain ⟨hother, hout⟩ := mem_pending.mp hother
        rw [List.mem_cons, not_or] at hout
        have hin := hthere other (mem_pending.mpr ⟨hother, hout.2⟩)
        exact (List.mem_cons.mp hin).resolve_left (hname ▸ hout.1)

/-- Reading the entries makes all the changes of the blank record, in the order of the fields. -/
theorem readEntries_eq (blank : σ) :
    r.readEntries o blank entries = .ok (makeAll changes blank) := by
  have hall : changes.pending [] = changes :=
    List.filter_eq_self.mpr fun _ _ => decide_eq_true List.not_mem_nil
  have hthere : ∀ change ∈ changes.pending [], change.1.name ∈ entries.map Prod.fst := by
    intro change hchange
    obtain ⟨j, hmem, -⟩ := h.stored change (mem_pending.mp hchange).1
    exact List.mem_map_of_mem hmem
  obtain ⟨seen, htake, hseen⟩ :=
    h.takeEntries_eq hr (List.suffix_refl _) (fun _ _ => List.not_mem_nil) hthere blank
  rw [readEntries, htake]
  simp only
  rw [finish_eq hseen, hall]

end Makes

/-- All fields of a record find their entries, and together they make `v` out of the blank
record. -/
structure Recovers (r : Record σ) (blank : σ) (entries : List (String × Json)) (v : σ) : Prop where
  orderly : r.Orderly
  takes : ∃ sets, List.Forall₂ (fun f set => f.Takes entries set) r.fields sets ∧
    sets.foldl (fun v set => set v) blank = v

/-- A record is recovered from the entries of an object that has its entries among others, in any
order. -/
theorem Recovers.readEntries_eq {blank v : σ} {part entries entries' : List (String × Json)}
    (h : r.Recovers blank part v) (hsub : part ⊆ entries) (hkeys : (entries.map Prod.fst).Nodup)
    (hre : (Json.obj entries).Rearranged (.obj entries')) :
    r.readEntries o blank entries' = .ok v := by
  obtain ⟨sets, htakes, rfl⟩ := h.takes
  obtain ⟨hlength, hpairs⟩ := List.forall₂_iff_zip.mp htakes
  have hsets : (r.fields.zip sets).map Prod.snd = sets :=
    List.map_snd_zip (Nat.le_of_eq hlength.symm)
  -- each field finds its entry in the rearranged object, and reads it as before
  have hmakes : r.Makes o entries' (r.fields.zip sets) := by
    refine ⟨List.map_fst_zip (Nat.le_of_eq hlength), hre.nodup hkeys, ?_⟩
    intro change hchange
    obtain ⟨j, hmem, hstore⟩ := hpairs hchange
    obtain ⟨j', hmem', hj'⟩ := hre.exists_mem (hsub hmem)
    exact ⟨j', hmem', hstore o j' hj'⟩
  rw [hmakes.readEntries_eq h.orderly, makeAll]
  conv_rhs => rw [← hsets, List.foldl_map]

/-- A record is read from an object with just its entries. -/
theorem Recovers.reads {blank v : σ} {entries : List (String × Json)}
    (h : r.Recovers blank entries v) (hkeys : (entries.map Prod.fst).Nodup) :
    Reads (r.read blank) (.obj entries) v :=
  reads_obj fun _ _ hre => h.readEntries_eq (List.Subset.refl _) hkeys hre

end Record

/-! ## Tagged unions -/

namespace Variants

variable {vs : Variants κ} {name : String} {variant : κ}

/-- The name of a variant is read as the variant. -/
theorem reads_tag (hname : vs.ofName? name = some variant) : Reads vs.tag (.str name) variant := by
  rintro o j' ⟨⟩
  cases o <;> rw [tag, named, hname]

/-- The record of the tag alone finds it among any entries. -/
theorem recovers_tag {title : Expected} {field : String} (hname : vs.ofName? name = some variant)
    {entries : List (String × Json)} (hmem : (field, .str name) ∈ entries) :
    (vs.tagRecord title field).Recovers none entries (some variant) where
  orderly :=
    { names := List.nodup_singleton _
      plain := List.forall_mem_singleton.mpr rfl
      commutes := List.pairwise_singleton _ _ }
  takes := ⟨_, .cons (Field.takes_ofReader hmem (reads_tag hname)) .nil, rfl⟩

/-- A value of a tagged union is read if its content is, the tag among it. -/
theorem reads_tagged {title : Expected} {field : String} {content : κ → Json → Except Fault α}
    {entries : List (String × Json)} {a : α} (hname : vs.ofName? name = some variant)
    (hmem : (field, .str name) ∈ entries) (hkeys : (entries.map Prod.fst).Nodup)
    (hcontent : Reads (fun _ => content variant) (.obj entries) a) :
    Reads (vs.readTagged title field content) (.obj entries) a := by
  refine reads_obj fun o entries' hre => ?_
  rw [readTagged, (recovers_tag hname hmem).readEntries_eq (List.Subset.refl _) hkeys hre]
  exact hcontent o (.obj entries') hre

end Variants

end DocAtlas
