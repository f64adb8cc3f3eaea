import DocAtlas.Proofs.IgnoredEntries
import DocAtlas.Proofs.Misplaced

/-!
What a further entry does to the report on a rejected document.

Reading passes over entries that nothing answers to, but the search for the place of a fault looks
at every object. So a document is rejected with a further entry if it was rejected without, and all
objects that were there fail as before. The failing objects inside the entry come to them
(`Json.Inserted.splitBlame`). If there are none, the report is the same; if there are some, the
innermost of them are reported, and what was reported about objects around the entry is not
(`parseDocument_inserted_report`).
-/

set_option autoImplicit false

namespace DocAtlas

open Json (Inserted Opened Padded PaddedWithin)

variable {x : UnknownEntry}

/-! ## One object -/

/-- What a value is read as that says its shape. -/
def Shape.role : Shape → Role
  | .declaration => .declaration
  | .signature => .signature
  | .parameter => .parameter
  | .typeParameter => .typeParameter
  | .project => .project
  | .type => .type

/-- What a value says that it is to be read as. -/
def Json.saidRole? : Json → Option Role
  | .obj entries => (Discriminator.of? entries).bind fun d => d.shape.map Shape.role
  | _ => none

/-- What the value at a location is read as, by all values on the way that say what they are. -/
def Json.readings (j : Json) : Location → List Role
  | [] => j.saidRole?.toList
  | step :: steps =>
    (j.saidRole?.map fun role => role.inside j (step :: steps)).toList
      ++ ((j.at? [step]).map fun inner => inner.readings steps).getD []

/-- What a mismatch shows: its location, what the object there says that it is, and the wording of
what is wrong. -/
def Mismatch.shown (m : Mismatch) : Location × Option Discriminator × String :=
  (m.location, m.discriminator, m.cause.text)

/-- Readings that agree have the same fault, if any. -/
theorem Agree.map_fault {α β : Type} {related : α → β → Prop} {a : Except Fault α}
    {b : Except Fault β} :
    Agree related a b →
      (match a with | .error e => some e | .ok _ => none : Option Fault).map Fault.message
      = (match b with | .error e => some e | .ok _ => none : Option Fault).map Fault.message := by
  rintro (_ | text)
  · rfl
  · exact congrArg some text

/-- An object with a further entry is at fault as before. -/
theorem Shape.fault?_padded (shape : Shape) {j j' : Json}
    (h : Padded x (Role.Spares False) shape.role j j') :
    (shape.fault? j).map Fault.message = (shape.fault? j').map Fault.message := by
  have hwithin : PaddedWithin x (Role.Spares False) j.depth j'.depth shape.role j j' :=
    ⟨h, Nat.le_refl _, Nat.le_refl _⟩
  have hρ := unnoticed_paddedWithin x False j.depth j'.depth
  have hr := readers_agree x False j.depth j'.depth
  cases shape with
  | declaration => exact (hr.declaration .document j j' hwithin).map_fault
  | signature => exact (agrees_readSignature hρ hr .document j j' hwithin.opened).map_fault
  | parameter => exact (agrees_readParameter hρ hr .document j j' hwithin.opened).map_fault
  | typeParameter => exact (agrees_readTypeParameter hρ hr .document j j' hwithin.opened).map_fault
  | project => exact (agrees_readProject x False .document j j' h).map_fault
  | type => exact (hr.type .document j j' hwithin).map_fault

/-- What an object says that it is does not depend on entries that nothing answers to. -/
theorem Discriminator.of?_alongside {ρ : Role → Json → Json → Prop} (hρ : Opens x ρ)
    {roles : String → Role} {entries entries' : List (String × Json)}
    (h : Alongside x (fun key => ρ (roles key)) entries entries') :
    of? entries = of? entries' := by
  -- the two entries that are looked at are known, and a further entry does not make a text of them
  have htext : ∀ key ∈ documentKeys,
      (entries.lookup key).bind Json.asStr? = (entries'.lookup key).bind Json.asStr? := by
    intro key hkey
    rcases h.lookup hkey with ⟨hnone, hnone'⟩ | ⟨j, j', hsome, hsome', hj⟩
    · rw [hnone, hnone']
    · rw [hsome, hsome', Option.bind_some, Option.bind_some]
      cases hρ _ j j' hj with
      | obj _ => rfl
      | arr _ _ => rfl
      | scalar _ => rfl
  rw [of?, of?, htext "kindString" (by decide), htext "type" (by decide)]

/-- **The object that is searched says the same and is at fault as before.** -/
theorem Mismatch.of?_inserted {location : Location} {j j' : Json} (h : j.Inserted x location j')
    (hkind : ∀ role, j.saidRole? = some role → (role.inside j location).namesKind = false)
    (place : Location) :
    (of? place j).map shown = (of? place j').map shown := by
  have hopened : Opened x (Padded x fun _ => True) .plain j j' :=
    Padded.opened (Or.inr ⟨location, h, trivial⟩)
  cases hopened with
  | @obj entries entries' inside =>
    have hsame := Discriminator.of?_alongside (opens_padded x _) inside
    rw [of?, of?, ← hsame]
    cases hd : Discriminator.of? entries with
    | none => rfl
    | some d =>
      simp only [Option.bind_some]
      cases hshape : d.shape with
      | none => rfl
      | some shape =>
        have hrole : (Json.obj entries).saidRole? = some shape.role := by
          rw [Json.saidRole?, hd, Option.bind_some, hshape]
          rfl
        have hfault := shape.fault?_padded (Or.inr ⟨location, h, hkind _ hrole, False.elim⟩)
        -- what is shown of a fault is its message, and that is the same
        have hshown : ∀ fault : Option Fault,
            (fault.map fun e => (⟨place, some d, .fault e⟩ : Mismatch)).map shown
              = (fault.map Fault.message).map fun text => (place, some d, text) := by
          intro fault
          cases fault <;> rfl
        show ((shape.fault? (.obj entries)).map _).map shown
          = ((shape.fault? (.obj entries')).map _).map shown
        rw [hshown, hshown, hfault]
  | arr _ _ => rfl
  | scalar _ => rfl

/-! ## All objects -/

namespace Json

variable {location : Location} {j j' : Json}

/-- No value says that it is the name of a kind, so what it says is what it is read as. -/
theorem on_of_saidRole? {role : Role} (h : j.saidRole? = some role) : role.on j = role := by
  cases j with
  | obj entries =>
    obtain ⟨d, -, hshape⟩ := Option.bind_eq_some_iff.mp h
    obtain ⟨shape, -, rfl⟩ := Option.map_eq_some_iff.mp hshape
    cases shape <;> rfl
  | _ => cases h

/-- What a value says of itself is among its readings. -/
theorem mem_readings_self {role : Role} (h : j.saidRole? = some role) (location : Location) :
    role.inside j location ∈ j.readings location := by
  cases location with
  | nil =>
    rw [readings, h, Role.inside, on_of_saidRole? h]
    exact List.mem_singleton_self role
  | cons step steps =>
    rw [readings, h]
    exact List.mem_append_left _ (List.mem_singleton_self _)

/-- So is what the values on the way say. -/
theorem mem_readings_inside {step : Step} {inner : Json} (h : j.at? [step] = some inner)
    {role : Role} (hrole : role ∈ inner.readings location) :
    role ∈ j.readings (step :: location) := by
  rw [readings, h]
  exact List.mem_append_right _ hrole

/-- The failing objects of the parts of a value that stands at a location. -/
def blamedInParts (place : Location) (parts : List (Step × Json)) : List Mismatch :=
  parts.flatMap fun part => part.2.blamedAt (place ++ [part.1])

/-- The failing objects of a value with a further entry, next to those of the value: between two
parts of them, which show the same as before, are the failing objects of the entry. -/
def SplitBlame (x : UnknownEntry) (place location : Location) (j j' : Json) : Prop :=
  ∃ before after before' after', j.blamedAt place = before ++ after
    ∧ j'.blamedAt place = before' ++ x.value.blamedAt (place ++ location ++ [.key x.key]) ++ after'
    ∧ before.map Mismatch.shown = before'.map Mismatch.shown
    ∧ after.map Mismatch.shown = after'.map Mismatch.shown

/-- The entry is a part of the value itself. -/
theorem SplitBlame.of_entry {place : Location} (before after : List (Step × Json))
    (hparts : j.parts = before ++ after)
    (hparts' : j'.parts = before ++ (.key x.key, x.value) :: after)
    (hself : (Mismatch.of? place j).map Mismatch.shown
      = (Mismatch.of? place j').map Mismatch.shown) :
    SplitBlame x place [] j j' := by
  refine ⟨(Mismatch.of? place j).toList ++ blamedInParts place before, blamedInParts place after,
    (Mismatch.of? place j').toList ++ blamedInParts place before, blamedInParts place after, ?_, ?_,
    ?_, rfl⟩
  · rw [blamedAt_eq, hparts, List.flatMap_append]
    simp only [blamedInParts, List.append_assoc]
  · rw [blamedAt_eq, hparts', List.flatMap_append, List.flatMap_cons]
    simp only [blamedInParts, List.append_assoc, List.append_nil]
  · simp only [List.map_append, ← Option.toList_map, hself]

/-- The entry is inside a part of the value. -/
theorem SplitBlame.of_part {place : Location} {step : Step} {inner inner' : Json}
    (before after : List (Step × Json))
    (hsplit : SplitBlame x (place ++ [step]) location inner inner')
    (hparts : j.parts = before ++ (step, inner) :: after)
    (hparts' : j'.parts = before ++ (step, inner') :: after)
    (hself : (Mismatch.of? place j).map Mismatch.shown
      = (Mismatch.of? place j').map Mismatch.shown) :
    SplitBlame x place (step :: location) j j' := by
  obtain ⟨a, b, a', b', hinner, hinner', ha, hb⟩ := hsplit
  refine ⟨(Mismatch.of? place j).toList ++ blamedInParts place before ++ a,
    b ++ blamedInParts place after,
    (Mismatch.of? place j').toList ++ blamedInParts place before ++ a',
    b' ++ blamedInParts place after, ?_, ?_, ?_, ?_⟩
  · rw [blamedAt_eq, hparts, List.flatMap_append, List.flatMap_cons, hinner]
    simp only [blamedInParts, List.append_assoc]
  · rw [blamedAt_eq, hparts', List.flatMap_append, List.flatMap_cons, hinner']
    simp only [blamedInParts, List.append_assoc, List.singleton_append]
  · simp only [List.map_append, ← Option.toList_map, hself, ha]
  · simp only [List.map_append, hb]

/-- **All objects fail as before, and the failing objects inside the entry come to them.** The
induction is on the way to the entry. -/
theorem Inserted.splitBlame (h : j.Inserted x location j')
    (hkind : ∀ role ∈ j.readings location, role.namesKind = false) (place : Location) :
    SplitBlame x place location j j' := by
  induction h generalizing place with
  | @here before after fresh =>
    have hself :=
      Mismatch.of?_inserted (.here fresh)
        (fun role hrole => hkind _ (mem_readings_self hrole _)) place
    refine SplitBlame.of_entry (before.map fun entry => (.key entry.1, entry.2))
      (after.map fun entry => (.key entry.1, entry.2)) ?_ ?_ hself
    · simp [parts]
    · simp [parts]
  | @entry key location before after inner inner' first inside ih =>
    have hself := Mismatch.of?_inserted (.entry first inside)
      (fun role hrole => hkind _ (mem_readings_self hrole _)) place
    have hat : (obj (before ++ (key, inner) :: after)).at? [.key key] = some inner := by
      rw [at?, lookup_first first]
      rfl
    have hinner :=
      ih (fun role hrole => hkind role (mem_readings_inside hat hrole)) (place ++ [.key key])
    refine hinner.of_part (before.map fun entry => (.key entry.1, entry.2))
      (after.map fun entry => (.key entry.1, entry.2)) ?_ ?_ hself
    · simp [parts]
    · simp [parts]
  | @item location before after inner inner' inside ih =>
    have hself := Mismatch.of?_inserted (.item inside)
      (fun role hrole => hkind _ (mem_readings_self hrole _)) place
    have hat : (arr (before ++ inner :: after)).at? [.index before.length] = some inner := by
      simp [at?]
    have hinner :=
      ih (fun role hrole => hkind role (mem_readings_inside hat hrole))
        (place ++ [.index before.length])
    refine hinner.of_part (before.zipIdx.map fun item => (.index item.2, item.1))
      ((after.zipIdx (before.length + 1)).map fun item => (.index item.2, item.1)) ?_ ?_ hself
    · simp [parts, List.zipIdx_append, List.zipIdx_cons]
    · simp [parts, List.zipIdx_append, List.zipIdx_cons]

/-- Nothing is where the entry is put. -/
theorem Inserted.at?_eq_none (h : j.Inserted x location j') (steps : Location) :
    j.at? (location ++ .key x.key :: steps) = none := by
  induction h with
  | @here before after fresh =>
    have hlookup : (before ++ after).lookup x.key = none := by
      refine List.lookup_eq_none_iff.mpr fun entry hentry => bne_iff_ne.mpr ?_
      intro heq
      exact fresh (heq ▸ List.mem_map_of_mem hentry)
    rw [List.nil_append, at?, hlookup, Option.bind_none]
  | entry first _ ih => rw [List.cons_append, at?, lookup_first first, Option.bind_some, ih]
  | item _ ih =>
    rw [List.cons_append, at?, List.getElem?_append_right (Nat.le_refl _), Nat.sub_self,
      List.getElem?_cons_zero, Option.bind_some, ih]

/-- Without the entry the keys are in ascending order still. -/
theorem Inserted.ascending (h : j.Inserted x location j') (h' : j'.Ascending) : j.Ascending := by
  induction h with
  | @here before after fresh =>
    rw [ascending_obj_iff] at h' ⊢
    have hsub : (before ++ after).Sublist (before ++ (x.key, x.value) :: after) :=
      (List.sublist_cons_self (x.key, x.value) after).append_left before
    exact ⟨h'.1.sublist (hsub.map Prod.fst), fun entry hentry => h'.2 entry (hsub.subset hentry)⟩
  | @entry key location before after inner inner' first _ ih =>
    rw [ascending_obj_iff] at h' ⊢
    simp only [List.map_append, List.map_cons, List.mem_append, List.mem_cons] at h' ⊢
    refine ⟨h'.1, ?_⟩
    rintro entry (hentry | rfl | hentry)
    · exact h'.2 entry (Or.inl hentry)
    · exact ih (h'.2 (key, inner') (Or.inr (Or.inl rfl)))
    · exact h'.2 entry (Or.inr (Or.inr hentry))
  | @item location before after inner inner' _ ih =>
    rw [ascending_arr_iff] at h' ⊢
    simp only [List.mem_append, List.mem_cons] at h' ⊢
    rintro item (hitem | rfl | hitem)
    · exact h' item (Or.inl hitem)
    · exact ih (h' inner' (Or.inr (Or.inl rfl)))
    · exact h' item (Or.inr (Or.inr hitem))

end Json

/-! ## Reports -/

/-- What is reported depends on what the failing objects show. -/
theorem map_shown_innermost {all all' : List Mismatch}
    (h : all.map Mismatch.shown = all'.map Mismatch.shown) :
    (innermost all).map Mismatch.shown = (innermost all').map Mismatch.shown := by
  induction all generalizing all' with
  | nil =>
    obtain rfl := List.map_eq_nil_iff.mp h.symm
    rfl
  | cons m rest ih =>
    obtain ⟨m', rest', rfl, hm, hrest⟩ := List.map_eq_cons_iff.mp h.symm
    have hlater := ih hrest.symm
    cases rest with
    | nil =>
      obtain rfl := List.map_eq_nil_iff.mp hrest
      simp only [innermost, List.map_cons, hm, List.map_nil]
    | cons next rest =>
      obtain ⟨next', rest', rfl, hnext, -⟩ := List.map_eq_cons_iff.mp hrest
      have hlocation : m'.location = m.location := congrArg Prod.fst hm
      have hlocation' : next'.location = next.location := congrArg Prod.fst hnext
      rw [innermost, innermost, hlocation, hlocation']
      by_cases habove : m.location.isAbove next.location = true
      · rw [if_pos habove, if_pos habove]
        exact hlater
      · rw [if_neg habove, if_neg habove, List.map_cons, List.map_cons, hm, hlater]

/-- What is reported has nothing further inside it. -/
theorem mem_map_shown_innermost {all : List Mismatch}
    (h : all.Pairwise fun m n => m.location.Before n.location)
    {s : Location × Option Discriminator × String} :
    s ∈ (innermost all).map Mismatch.shown ↔
      s ∈ all.map Mismatch.shown ∧ ∀ t ∈ all.map Mismatch.shown, s.1 <+: t.1 → s.1 = t.1 := by
  have hinside : ∀ m : Mismatch, (!m.hasInside all) = true ↔
      ∀ t ∈ all.map Mismatch.shown, m.location <+: t.1 → m.location = t.1 := by
    intro m
    simp only [Mismatch.hasInside, Bool.not_eq_true', List.any_eq_false, Location.isAbove_iff,
      not_and, not_not, List.forall_mem_map, Mismatch.shown]
  rw [innermost_eq_filter h]
  simp only [List.mem_map, List.mem_filter, hinside]
  constructor
  · rintro ⟨m, ⟨hm, hnone⟩, rfl⟩
    exact ⟨⟨m, hm, rfl⟩, hnone⟩
  · rintro ⟨⟨m, hm, rfl⟩, hnone⟩
    exact ⟨m, ⟨hm, hnone⟩, rfl⟩

/-- If failing objects come in at a place where there were none, the innermost of them are reported,
and of the others those that do not lead to one of them. -/
theorem mem_innermost_split {before after before' after' entry : List Mismatch} {place : Location}
    (hbefore : before.map Mismatch.shown = before'.map Mismatch.shown)
    (hafter : after.map Mismatch.shown = after'.map Mismatch.shown)
    (hold : (before ++ after).Pairwise fun m n => m.location.Before n.location)
    (hnew : (before' ++ entry ++ after').Pairwise fun m n => m.location.Before n.location)
    (hinside : ∀ m ∈ entry, place <+: m.location)
    (houtside : ∀ m ∈ before ++ after, ¬ place <+: m.location)
    {s : Location × Option Discriminator × String} :
    s ∈ (innermost (before' ++ entry ++ after')).map Mismatch.shown ↔
      (s ∈ (innermost (before ++ after)).map Mismatch.shown
        ∧ ∀ t ∈ entry.map Mismatch.shown, ¬ s.1 <+: t.1)
      ∨ s ∈ (innermost entry).map Mismatch.shown := by
  have hentry : entry.Pairwise fun m n => m.location.Before n.location :=
    (List.pairwise_append.mp (List.pairwise_append.mp hnew).1).2.1
  -- what is shown before and after the entry is shown as before
  have hmem : ∀ t, t ∈ (before' ++ entry ++ after').map Mismatch.shown ↔
      t ∈ (before ++ after).map Mismatch.shown ∨ t ∈ entry.map Mismatch.shown := by
    intro t
    simp only [List.map_append, ← hbefore, ← hafter, List.mem_append]
    exact or_right_comm
  have hinside : ∀ t ∈ entry.map Mismatch.shown, place <+: t.1 := List.forall_mem_map.mpr hinside
  have houtside : ∀ t ∈ (before ++ after).map Mismatch.shown, ¬ place <+: t.1 :=
    List.forall_mem_map.mpr houtside
  rw [mem_map_shown_innermost hnew, mem_map_shown_innermost hold, mem_map_shown_innermost hentry]
  constructor
  · rintro ⟨hs, hnone⟩
    rcases (hmem s).mp hs with hs | hs
    · refine Or.inl ⟨⟨hs, fun t ht => hnone t ((hmem t).mpr (Or.inl ht))⟩, ?_⟩
      intro t ht hprefix
      have hsame := hnone t ((hmem t).mpr (Or.inr ht)) hprefix
      -- it would stand inside the new place, where nothing was
      exact houtside s hs (hsame ▸ hinside t ht)
    · exact Or.inr ⟨hs, fun t ht => hnone t ((hmem t).mpr (Or.inr ht))⟩
  · rintro (⟨⟨hs, hnone⟩, hfree⟩ | ⟨hs, hnone⟩)
    · refine ⟨(hmem s).mpr (Or.inl hs), fun t ht hprefix => ?_⟩
      rcases (hmem t).mp ht with ht | ht
      · exact hnone t ht hprefix
      · exact absurd hprefix (hfree t ht)
    · refine ⟨(hmem s).mpr (Or.inr hs), fun t ht hprefix => ?_⟩
      rcases (hmem t).mp ht with ht | ht
      · exact absurd ((hinside s hs).trans hprefix) (houtside t ht)
      · exact hnone t ht hprefix

/-- A location that is not inside a new place leads to something in it just if it leads to the
place. -/
theorem forall_not_prefix_iff {entry : List Mismatch} {location steps : Location} {step : Step}
    (hne : entry ≠ []) (hinside : ∀ m ∈ entry, location ++ [step] <+: m.location)
    (houtside : ¬ location ++ [step] <+: steps) :
    (∀ t ∈ entry.map Mismatch.shown, ¬ steps <+: t.1) ↔ ¬ steps <+: location := by
  rw [List.forall_mem_map]
  constructor
  · intro hfree habove
    obtain ⟨m, hm⟩ := List.exists_mem_of_ne_nil entry hne
    exact hfree m hm (habove.trans ((List.prefix_append location [step]).trans (hinside m hm)))
  · intro hnot m hm hprefix
    -- both lead to the same mismatch, so one is a beginning of the other
    rcases List.prefix_or_prefix_of_prefix hprefix (hinside m hm) with hshort | hlong
    · rcases List.prefix_concat_iff.mp hshort with rfl | habove
      · exact houtside (List.prefix_refl _)
      · exact hnot habove
    · exact houtside hlong

/-- What is wrong with an object has nothing to do with its place. -/
theorem Mismatch.of?_place (place : Location) (j : Json) :
    of? place j = (of? [] j).map fun m => { m with location := place } := by
  cases j with
  | obj entries =>
    rw [of?, of?]
    cases Discriminator.of? entries with
    | none => rfl
    | some d =>
      simp only [Option.bind_some]
      cases d.shape with
      | none => rfl
      | some shape => simp only [Option.map_map, Function.comp_def]
  | _ => rfl

/-- Where a value stands does not matter to whether something in it fails. -/
theorem Json.blamedAt_eq_nil_iff (place : Location) (j : Json) :
    j.blamedAt place = [] ↔ j.blamed = [] := by
  rw [blamed, blamedAt, blamedAt, List.filterMap_eq_nil_iff, List.filterMap_eq_nil_iff]
  refine forall₂_congr fun found _ => ?_
  rw [Mismatch.of?_place (place ++ found.1), Mismatch.of?_place ([] ++ found.1),
    Option.map_eq_none_iff, Option.map_eq_none_iff]

/-- What is inside a value at a location stands inside that location. -/
theorem Json.prefix_of_mem_blamedAt {place : Location} {j : Json} {m : Mismatch}
    (h : m ∈ j.blamedAt place) :
    place <+: m.location := by
  obtain ⟨found, -, hof⟩ := List.mem_filterMap.mp h
  rw [(Mismatch.of?_eq_some_iff.mp hof).1]
  exact List.prefix_append _ _

/-- Where no object fails, the fault of the whole is reported. -/
theorem narrow_of_blamed_eq_nil {document : Json} (h : document.blamed = []) (bulk : Fault) :
    narrow document bulk = [⟨[], none, .fault bulk⟩] := by
  rw [narrow, failures_document, h]
  rfl

/-- Where some object fails, the innermost of those that do are reported. -/
theorem narrow_of_blamed_ne_nil {document : Json} (h : document.blamed ≠ []) (bulk : Fault) :
    narrow document bulk = innermost document.blamed := by
  have hne := innermost_ne_nil h
  rw [narrow, failures_document]
  split
  · rename_i hnil
    exact absurd hnil hne
  · rfl

/-- What is reported about a document is the narrowed fault of the whole. -/
theorem exists_bulk {document : Json} {reported : List Mismatch}
    (h : (parseDocument document).outcome.1 = .error (.mismatch reported)) :
    ∃ bulk, readProject .document document = .error bulk ∧ reported = narrow document bulk := by
  rw [outcome_parseDocument] at h
  cases hread : readProject .document document with
  | ok project => simp [hread] at h
  | error bulk =>
    simp only [hread, Except.error.injEq, Failure.mismatch.injEq] at h
    exact ⟨bulk, rfl, h.symm⟩

section

variable {document document' : Json} {location : Location}

/-- Nothing fails inside the place of the entry before it is there. -/
theorem Json.Inserted.not_prefix_of_blamed (h : document.Inserted x location document')
    (hascending : document.Ascending) {m : Mismatch} (hm : m ∈ document.blamed) :
    ¬ location ++ [.key x.key] <+: m.location := by
  rintro ⟨steps, hsteps⟩
  obtain ⟨entries, hat, -⟩ := hascending.mem_blamed_iff.mp hm
  rw [← hsteps, List.append_assoc, List.singleton_append, h.at?_eq_none steps] at hat
  cases hat

/-- Nothing is reported there either. -/
theorem Json.Inserted.not_prefix_of_narrow (h : document.Inserted x location document')
    (hascending : document.Ascending) {bulk : Fault} {s : Location × Option Discriminator × String}
    (hs : s ∈ (narrow document bulk).map Mismatch.shown) : ¬ location ++ [.key x.key] <+: s.1 := by
  by_cases hnil : document.blamed = []
  · rw [narrow_of_blamed_eq_nil hnil, List.map_singleton, List.mem_singleton] at hs
    rw [hs]
    simp [Mismatch.shown]
  · rw [narrow_of_blamed_ne_nil hnil, mem_map_shown_innermost hascending.pairwise_blamed] at hs
    obtain ⟨m, hm, rfl⟩ := List.mem_map.mp hs.1
    exact h.not_prefix_of_blamed hascending hm

/-- An entry without failing objects does not show in the report. -/
theorem Json.SplitBlame.map_shown_narrow (h : SplitBlame x [] location document document')
    (hvalue : x.value.blamed = []) {bulk bulk' : Fault} (htext : bulk.message = bulk'.message) :
    (narrow document' bulk').map Mismatch.shown = (narrow document bulk).map Mismatch.shown := by
  obtain ⟨before, after, before', after', hblamed, hblamed', hbefore, hafter⟩ := h
  rw [(blamedAt_eq_nil_iff _ _).mpr hvalue, List.append_nil] at hblamed'
  have hshown : document.blamed.map Mismatch.shown = document'.blamed.map Mismatch.shown := by
    rw [blamed, blamed, hblamed, hblamed', List.map_append, List.map_append, hbefore, hafter]
  -- the same objects fail, if any do
  by_cases hnil : document.blamed = []
  · have hnil' : document'.blamed = [] := by
      rw [hnil] at hshown
      exact List.map_eq_nil_iff.mp hshown.symm
    have hbulk : Mismatch.shown ⟨[], none, .fault bulk'⟩ = Mismatch.shown ⟨[], none, .fault bulk⟩ :=
      congrArg (fun text => (([] : Location), (none : Option Discriminator), text)) htext.symm
    rw [narrow_of_blamed_eq_nil hnil, narrow_of_blamed_eq_nil hnil', List.map_singleton,
      List.map_singleton, hbulk]
  · have hne' : document'.blamed ≠ [] := by
      intro hnil'
      rw [hnil'] at hshown
      exact hnil (List.map_eq_nil_iff.mp hshown)
    rw [narrow_of_blamed_ne_nil hnil, narrow_of_blamed_ne_nil hne', map_shown_innermost hshown]

/-- The fault of the whole is about the root, which is around every place. -/
theorem mem_narrow_and_not_prefix_iff (document : Json) (bulk : Fault)
    {s : Location × Option Discriminator × String} :
    s ∈ (narrow document bulk).map Mismatch.shown ∧ ¬ s.1 <+: location ↔
      s ∈ (innermost document.blamed).map Mismatch.shown ∧ ¬ s.1 <+: location := by
  by_cases hnil : document.blamed = []
  · rw [narrow_of_blamed_eq_nil hnil, hnil, List.map_singleton, List.mem_singleton]
    constructor
    · rintro ⟨rfl, hnot⟩
      exact absurd List.nil_prefix hnot
    · rintro ⟨hs, -⟩
      exact absurd hs List.not_mem_nil
  · rw [narrow_of_blamed_ne_nil hnil]

/-- Failing objects in an entry are reported, and take the place of those around the entry. -/
theorem Json.SplitBlame.mem_narrow (h : SplitBlame x [] location document document')
    (hinserted : document.Inserted x location document') (hascending : document'.Ascending)
    (hvalue : x.value.blamed ≠ []) (bulk bulk' : Fault)
    (s : Location × Option Discriminator × String) :
    s ∈ (narrow document' bulk').map Mismatch.shown ↔
      (s ∈ (narrow document bulk).map Mismatch.shown ∧ ¬ s.1 <+: location)
      ∨ s ∈ (innermost (x.value.blamedAt (location ++ [.key x.key]))).map Mismatch.shown := by
  obtain ⟨before, after, before', after', hblamed, hblamed', hbefore, hafter⟩ := h
  rw [List.nil_append] at hblamed'
  have hblamed : document.blamed = before ++ after := hblamed
  have hblamed' : document'.blamed = before' ++ x.value.blamedAt (location ++ [.key x.key])
      ++ after' := hblamed'
  have hold := (hinserted.ascending hascending).pairwise_blamed
  have hnew := hascending.pairwise_blamed
  have houtside : ∀ m ∈ document.blamed, ¬ location ++ [.key x.key] <+: m.location :=
    fun m => hinserted.not_prefix_of_blamed (hinserted.ascending hascending)
  have hinside : ∀ m ∈ x.value.blamedAt (location ++ [.key x.key]),
      location ++ [.key x.key] <+: m.location :=
    fun m => prefix_of_mem_blamedAt
  have hentry : x.value.blamedAt (location ++ [.key x.key]) ≠ [] :=
    mt (blamedAt_eq_nil_iff _ _).mp hvalue
  have hne' : document'.blamed ≠ [] := by simp [hblamed', hentry]
  rw [narrow_of_blamed_ne_nil hne', mem_narrow_and_not_prefix_iff]
  rw [hblamed] at hold houtside ⊢
  rw [hblamed'] at hnew ⊢
  rw [mem_innermost_split hbefore hafter hold hnew hinside houtside]
  refine or_congr_left (and_congr_right fun hs => forall_not_prefix_iff hentry hinside ?_)
  obtain ⟨m, hm, rfl⟩ := List.mem_map.mp ((mem_map_shown_innermost hold).mp hs).1
  exact houtside m hm

end

/-- **What a further entry does to a report.** Let a document be rejected, and let an entry that
nothing answers to be put into one of its objects. The object does not name the kind of a signature,
neither in the document nor in an object around it that says what it is. Then the document is
rejected still. The report shows the same just if no object in the value of the entry fails. If some
do, the innermost of them are reported, and of what was reported before all is gone that is about an
object around the entry. -/
theorem parseDocument_inserted_report {document document' : Json} {location : Location}
    (hinserted : document.Inserted x location document') (hascending : document'.Ascending)
    (hkind : ∀ role ∈ Role.project.inside document location :: document.readings location,
      role.namesKind = false)
    {reported : List Mismatch}
    (hrejected : (parseDocument document).outcome.1 = .error (.mismatch reported)) :
    ∃ reported', (parseDocument document').outcome.1 = .error (.mismatch reported')
      ∧ (reported'.map Mismatch.shown = reported.map Mismatch.shown ↔ x.value.blamed = [])
      ∧ (x.value.blamed ≠ [] → ∀ shown, shown ∈ reported'.map Mismatch.shown ↔
        (shown ∈ reported.map Mismatch.shown ∧ ¬ shown.1 <+: location)
        ∨ shown
          ∈ (innermost (x.value.blamedAt (location ++ [.key x.key]))).map Mismatch.shown) := by
  obtain ⟨bulk, hbulk, rfl⟩ := exists_bulk hrejected
  obtain ⟨hwhole, haround⟩ := List.forall_mem_cons.mp hkind
  have hsplit := hinserted.splitBlame haround []
  -- the document is rejected still, in the same words
  have hread :=
    agrees_readProject x False .document document document'
      (Or.inr ⟨location, hinserted, hwhole, False.elim⟩)
  rw [hbulk] at hread
  cases hbulk' : readProject .document document' with
  | ok project =>
    rw [hbulk'] at hread
    cases hread
  | error bulk' =>
    rw [hbulk'] at hread
    obtain ⟨⟩ | htext := hread
    refine ⟨narrow document' bulk', by rw [outcome_parseDocument, hbulk'], ⟨?_, ?_⟩, ?_⟩
    · intro hsame
      refine Classical.byContradiction fun hvalue => ?_
      -- something inside the entry is reported, where nothing was before
      obtain ⟨m, hm⟩ := List.exists_mem_of_ne_nil _
        (mt (Json.blamedAt_eq_nil_iff (location ++ [.key x.key]) x.value).mp hvalue)
      obtain ⟨n, hn, hdeeper⟩ := exists_innermost_inside hm
      have hshown := (hsplit.mem_narrow hinserted hascending hvalue bulk bulk' n.shown).mpr
        (Or.inr (List.mem_map_of_mem hn))
      rw [hsame] at hshown
      exact hinserted.not_prefix_of_narrow (hinserted.ascending hascending) hshown
        ((Json.prefix_of_mem_blamedAt hm).trans hdeeper)
    · exact fun hvalue => hsplit.map_shown_narrow hvalue htext
    · exact fun hvalue => hsplit.mem_narrow hinserted hascending hvalue bulk bulk'

/-- Two variables without types, the first one with these further entries. -/
def untypedVariables (entries : List (String × Json)) : Json :=
  .obj [("children", .arr [.obj ([("kindString", .str "Variable"), ("name", .str "v")] ++ entries),
    .obj [("kindString", .str "Variable"), ("name", .str "w")]])]

/-- An entry in the first variable is an entry in the document. -/
theorem inserted_untypedVariables (fresh : x.key ∉ ["kindString", "name"]) :
    (untypedVariables []).Inserted x [.key "children", .index 0]
      (untypedVariables [(x.key, x.value)]) :=
  @Inserted.entry x "children" _ [] [] _ _ (by decide)
    (@Inserted.item x _ [] [.obj [("kindString", .str "Variable"), ("name", .str "w")]] _ _
    (@Inserted.here x [("kindString", .str "Variable"), ("name", .str "v")] [] fresh))

/-- The texts of what is reported about a document, if it is rejected. -/
def reportedTexts (document : Json) : Option (List String) :=
  match (parseDocument document).outcome.1 with
  | .error (.mismatch reported) => some (reported.map Mismatch.text)
  | _ => none

/-- The texts of a report are those of what is reported. -/
theorem exists_reported {document : Json} {texts : List String}
    (h : reportedTexts document = some texts) :
    ∃ reported, (parseDocument document).outcome.1 = .error (.mismatch reported)
      ∧ reported.map Mismatch.text = texts := by
  rw [reportedTexts] at h
  split at h
  · rename_i reported hreported
    exact ⟨reported, hreported, Option.some.inj h⟩
  · cases h

/-- A note that holds a type expression. -/
def note : UnknownEntry where
  key := "note"
  value := .obj [("name", .str "any"), ("type", .str "intrinsic")]
  unknown := by decide

/-- The note changes nothing about the report. -/
theorem parseDocument_inserted_report_note :
    ∃ reported reported',
      (parseDocument (untypedVariables [])).outcome.1 = .error (.mismatch reported)
      ∧ (parseDocument (untypedVariables [(note.key, note.value)])).outcome.1
        = .error (.mismatch reported')
      ∧ reported.length = 2 ∧ reported'.map Mismatch.shown = reported.map Mismatch.shown := by
  have hascending : (untypedVariables [(note.key, note.value)]).Ascending := by
    simp [untypedVariables, note, -String.lt_iff_ltb]
  have hcount : (reportedTexts (untypedVariables [])).map List.length = some 2 := by decide +kernel
  obtain ⟨texts, htexts, hlength⟩ := Option.map_eq_some_iff.mp hcount
  obtain ⟨reported, hreported, rfl⟩ := exists_reported htexts
  have hvalue : note.value.blamed = [] := List.isEmpty_iff.mp (by decide +kernel)
  obtain ⟨reported', hreported', hsame, -⟩ := parseDocument_inserted_report
    (inserted_untypedVariables (by decide)) hascending (by decide +kernel) hreported
  exact ⟨reported, reported', hreported, hreported', by simpa using hlength, hsame.mpr hvalue⟩

/-- A remark that looks like a declaration, though of a kind that there is not, is reported in place
of the variable that it is in. -/
theorem parseDocument_inserted_hides_variable :
    (untypedVariables []).Inserted remark [.key "children", .index 0]
      (untypedVariables [(remark.key, remark.value)])
      ∧ Role.project.inside (untypedVariables []) [.key "children", .index 0] = .declaration
      ∧ reportedTexts (untypedVariables []) = some
        ["at children[0] (kindString = \"Variable\", expected a declaration): missing field `type`",
          "at children[1] (kindString = \"Variable\", expected a declaration): missing field `type`"]
      ∧ reportedTexts (untypedVariables [(remark.key, remark.value)]) = some
        ["at children[0].remark (kindString = \"Sticky\"): no variant matches kindString `Sticky`",
          "at children[1] (kindString = \"Variable\", expected a declaration): missing field `type`"] :=
  ⟨inserted_untypedVariables (by decide), by decide +kernel, by decide +kernel, by decide +kernel⟩

end DocAtlas
