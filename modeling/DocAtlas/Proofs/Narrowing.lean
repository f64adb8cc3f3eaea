import DocAtlas.Failure
import DocAtlas.Proofs.Locations

/-!
What is reported about a document that is rejected.

The walk over a document looks at one pending value after the other and collects the objects that
are not what they say. It comes to them in the order of their locations (`failures_document`), and
in that order looking at the next failing object is as good as looking at all of them: what stands
between an object and a failing one inside it is inside it too (`innermost_eq_filter`). So what is
reported are the failing objects that have no failing one inside them, and if there are none the
fault of the whole (`parseDocument_report`).
-/

set_option autoImplicit false

namespace DocAtlas

/-! ## Failing objects -/

/-- The entries of an object say what it is: by its `kindString` if that is a text, and else by its
`type`. -/
inductive Discriminator.Said (entries : List (String × Json)) : Discriminator → Prop where
  | kindString {value : String} (here : entries.lookup "kindString" = some (.str value)) :
      Said entries ⟨.kindString, value, Shape.ofKindString value⟩
  | type {value : String} (other : ∀ text, entries.lookup "kindString" ≠ some (.str text))
      (here : entries.lookup "type" = some (.str value)) :
      Said entries ⟨.type, value, Shape.ofType value⟩

/-- A mismatch says what is wrong with an object: the object says what it is, and there is no such
thing, or it cannot be read as one. -/
inductive Mismatch.Describes (entries : List (String × Json)) : Mismatch → Prop where
  | noShape {location : Location} {d : Discriminator} (said : d.Said entries)
      (unknown : d.shape = none) :
      Describes entries ⟨location, some d, .noShape d.field d.value⟩
  | fault {location : Location} {d : Discriminator} {shape : Shape} {e : Fault}
      (said : d.Said entries) (known : d.shape = some shape)
      (fails : shape.fault? (.obj entries) = some e) :
      Describes entries ⟨location, some d, .fault e⟩

/-- A mismatch is right about a document: its location leads to the object that it describes. -/
def Json.Blames (document : Json) (m : Mismatch) : Prop :=
  ∃ entries, document.at? m.location = some (.obj entries) ∧ m.Describes entries

/-- Only a text is taken for a text. -/
theorem Json.asStr?_eq_some_iff {j : Json} {s : String} : j.asStr? = some s ↔ j = .str s := by
  cases j <;> simp [asStr?]

/-- What an object is taken for is what it says that it is. -/
theorem Discriminator.of?_eq_some_iff {entries : List (String × Json)} {d : Discriminator} :
    of? entries = some d ↔ d.Said entries := by
  have htext : ∀ key value, (entries.lookup key).bind Json.asStr? = some value ↔
      entries.lookup key = some (.str value) := by
    intro key value
    simp [Option.bind_eq_some_iff, Json.asStr?_eq_some_iff]
  rw [of?]
  -- a `kindString` that is a text decides, and only without one the `type` is looked at
  cases hkind : (entries.lookup "kindString").bind Json.asStr? with
  | some value =>
    have hvalue := (htext _ _).mp hkind
    simp only [Option.some.injEq]
    constructor
    · rintro rfl
      exact .kindString hvalue
    · intro hsaid
      cases hsaid with
      | kindString here =>
        rw [hvalue] at here
        cases here
        rfl
      | type other _ => exact absurd hvalue (other value)
  | none =>
    have hother : ∀ text, entries.lookup "kindString" ≠ some (.str text) := by
      intro text heq
      rw [(htext _ _).mpr heq] at hkind
      cases hkind
    simp only [Option.map_eq_some_iff, htext]
    constructor
    · rintro ⟨value, hvalue, rfl⟩
      exact .type hother hvalue
    · intro hsaid
      cases hsaid with
      | kindString here => exact absurd here (hother _)
      | type _ here => exact ⟨_, here, rfl⟩

/-- A mismatch is found for an object exactly if it says what is wrong with the object. -/
theorem Mismatch.of?_eq_some_iff {location : Location} {j : Json} {m : Mismatch} :
    of? location j = some m ↔ m.location = location ∧ ∃ entries, j = .obj entries
      ∧ m.Describes entries := by
  constructor
  · intro h
    unfold of? at h
    -- the value is an object or nothing is said about it
    split at h
    · rename_i entries
      obtain ⟨d, hd, h⟩ := Option.bind_eq_some_iff.mp h
      have hsaid := Discriminator.of?_eq_some_iff.mp hd
      split at h
      · rename_i hshape
        cases h
        exact ⟨rfl, entries, rfl, .noShape hsaid hshape⟩
      · rename_i shape hshape
        obtain ⟨e, he, rfl⟩ := Option.map_eq_some_iff.mp h
        exact ⟨rfl, entries, rfl, .fault hsaid hshape he⟩
    · cases h
  · rintro ⟨rfl, entries, rfl, hdescribes⟩
    cases hdescribes with
    | noShape said unknown => simp [of?, Discriminator.of?_eq_some_iff.mpr said, unknown]
    | fault said known fails => simp [of?, Discriminator.of?_eq_some_iff.mpr said, known, fails]

/-! ## The walk -/

/-- The failing objects of a value that stands at a location, in the order of the document. -/
def Json.blamedAt (location : Location) (j : Json) : List Mismatch :=
  j.located.filterMap fun found => Mismatch.of? (location ++ found.1) found.2

/-- The failing objects of a document, in the order of the document. -/
def Json.blamed (document : Json) : List Mismatch := document.blamedAt []

/-- The failing objects of a value are the value itself, if it fails, and those of its parts. -/
theorem Json.blamedAt_eq (location : Location) (j : Json) :
    j.blamedAt location
      = (Mismatch.of? location j).toList ++ j.parts.flatMap fun part =>
        part.2.blamedAt (location ++ [part.1]) := by
  -- inside a part the location goes on behind the step to it
  have hparts : ∀ part : Step × Json,
      ((part.2.located.map fun found => (part.1 :: found.1, found.2)).filterMap
        fun found => Mismatch.of? (location ++ found.1) found.2)
        = part.2.blamedAt (location ++ [part.1]) := by
    intro part
    rw [List.filterMap_map, blamedAt]
    simp only [Function.comp_def, List.append_assoc, List.singleton_append]
  rw [blamedAt, located_eq, List.filterMap_cons, List.append_nil, List.filterMap_flatMap]
  simp only [hparts]
  cases Mismatch.of? location j <;> rfl

/-- **The walk finds the failing objects of the pending values, one value after the other.** A step
replaces the first value by its parts. -/
theorem failures_eq (pending : List (Location × Json)) :
    failures pending = pending.flatMap fun next => next.2.blamedAt next.1 := by
  induction pending using failures.induct with
  | case1 => rw [failures, List.flatMap_nil]
  | case2 location value rest ih =>
    rw [failures, ih, List.flatMap_append, List.flatMap_map, List.flatMap_cons,
      value.blamedAt_eq location, List.append_assoc]

/-- **The walk over a document finds its failing objects, in the order of the document.** -/
theorem failures_document (document : Json) : failures [([], document)] = document.blamed := by
  rw [failures_eq, List.flatMap_singleton]
  rfl

namespace Json.Ascending

variable {document : Json}

/-- The failing objects of a document are those that a mismatch can be right about. -/
theorem mem_blamed_iff (h : document.Ascending) {m : Mismatch} :
    m ∈ document.blamed ↔ document.Blames m := by
  rw [blamed, blamedAt, List.mem_filterMap, Blames]
  constructor
  · rintro ⟨⟨location, j⟩, hfound, hof⟩
    obtain ⟨hlocation, entries, rfl, hdescribes⟩ := Mismatch.of?_eq_some_iff.mp hof
    rw [hlocation]
    exact ⟨entries, h.mem_located_iff.mp hfound, hdescribes⟩
  · rintro ⟨entries, hat, hdescribes⟩
    exact ⟨_, h.mem_located_iff.mpr hat,
      Mismatch.of?_eq_some_iff.mpr ⟨rfl, entries, rfl, hdescribes⟩⟩

/-- They are listed in the order of their locations. -/
theorem pairwise_blamed (h : document.Ascending) :
    document.blamed.Pairwise fun m n => m.location.Before n.location := by
  rw [blamed, blamedAt, List.pairwise_filterMap]
  refine h.pairwise_located.imp ?_
  intro a b hbefore m hm n hn
  obtain ⟨hm, -⟩ := Mismatch.of?_eq_some_iff.mp hm
  obtain ⟨hn, -⟩ := Mismatch.of?_eq_some_iff.mp hn
  rw [hm, hn]
  exact hbefore

end Json.Ascending

/-! ## Innermost failures -/

/-- Whether some mismatch of a list lies strictly inside one. -/
def Mismatch.hasInside (all : List Mismatch) (m : Mismatch) : Bool :=
  all.any fun other => m.location.isAbove other.location

section

variable {m next : Mismatch} {rest : List Mismatch}

/-- What comes first lies inside nothing that comes later. -/
theorem Mismatch.hasInside_cons {later : Mismatch} (h : m.location.Before later.location) :
    later.hasInside (m :: rest) = later.hasInside rest := by
  have hnot : later.location.isAbove m.location = false := by
    rw [Bool.eq_false_iff]
    intro habove
    exact Location.not_prefix_of_before h (Location.isAbove_iff.mp habove).1
  rw [hasInside, List.any_cons, hnot, Bool.false_or, hasInside]

/-- Of all that comes after a mismatch, the next one decides whether there is something inside
it. -/
theorem Mismatch.hasInside_next
    (h : (m :: next :: rest).Pairwise fun m n => m.location.Before n.location) :
    m.hasInside (m :: next :: rest) = m.location.isAbove next.location := by
  obtain ⟨hm, htail⟩ := List.pairwise_cons.mp h
  have hnext := hm next List.mem_cons_self
  rw [Bool.eq_iff_iff, hasInside, List.any_eq_true]
  constructor
  · rintro ⟨other, hother, habove⟩
    obtain ⟨hstart, hne⟩ := Location.isAbove_iff.mp habove
    refine Location.isAbove_iff.mpr ⟨?_, hnext.ne⟩
    rcases List.mem_cons.mp hother with rfl | hother
    · exact absurd rfl hne
    · rcases List.mem_cons.mp hother with rfl | hother
      · exact hstart
      · -- the next one stands between the two
        have hbetween := (List.pairwise_cons.mp htail).1 other hother
        exact Location.prefix_of_between hnext hbetween hstart
  · intro habove
    exact ⟨next, List.mem_cons_of_mem _ List.mem_cons_self, habove⟩

end

/-- **Looking at the next mismatch is as good as looking at all of them.** -/
theorem innermost_eq_filter {all : List Mismatch}
    (h : all.Pairwise fun m n => m.location.Before n.location) :
    innermost all = all.filter fun m => !m.hasInside all := by
  match all with
  | [] => rfl
  | [m] =>
    have hnot : m.location.isAbove m.location = false := by
      rw [Bool.eq_false_iff]
      exact fun habove => (Location.isAbove_iff.mp habove).2 rfl
    simp [innermost, Mismatch.hasInside, hnot]
  | m :: next :: rest =>
    obtain ⟨hm, htail⟩ := List.pairwise_cons.mp h
    -- the first mismatch is inside none of the others, so it can be left out of the comparison
    have hrest : (next :: rest).filter (fun n => !n.hasInside (m :: next :: rest))
        = innermost (next :: rest) := by
      rw [innermost_eq_filter htail]
      refine List.filter_congr fun n hn => ?_
      rw [Mismatch.hasInside_cons (hm n hn)]
    have hnext := Mismatch.hasInside_next h
    rw [innermost, List.filter_cons, hrest, hnext]
    cases m.location.isAbove next.location <;> rfl

/-- Where something fails, something is reported: the last failing object has nothing inside it. -/
theorem innermost_ne_nil {all : List Mismatch} (h : all ≠ []) : innermost all ≠ [] := by
  match all with
  | [] => exact absurd rfl h
  | [m] => exact List.cons_ne_nil _ _
  | m :: next :: rest =>
    rw [innermost]
    split
    · exact innermost_ne_nil (List.cons_ne_nil _ _)
    · exact List.cons_ne_nil _ _

/-! ## Reports -/

/-- The report on a document with a fault: the failing objects without failing ones inside them, and
the fault of the whole if there are none. -/
def Json.report (document : Json) (bulk : Fault) : List Mismatch :=
  match document.blamed.filter fun m => !m.hasInside document.blamed with
  | [] => [⟨[], none, .fault bulk⟩]
  | mismatches => mismatches

namespace Json.Ascending

variable {document : Json}

/-- What is reported are the failing objects with no failing one inside them. -/
theorem narrow_eq_report (h : document.Ascending) (bulk : Fault) :
    narrow document bulk = document.report bulk := by
  rw [narrow, failures_document, innermost_eq_filter h.pairwise_blamed]
  rfl

/-- Either no object fails and the fault of the whole is reported, or the report is the failing
objects without failing ones inside them. -/
theorem report_cases (h : document.Ascending) (bulk : Fault) :
    (document.blamed = [] ∧ document.report bulk = [⟨[], none, .fault bulk⟩])
    ∨ (document.blamed ≠ []
      ∧ document.report bulk = document.blamed.filter fun m => !m.hasInside document.blamed) := by
  by_cases hnil : document.blamed = []
  · refine Or.inl ⟨hnil, ?_⟩
    rw [report, hnil]
    rfl
  · have hsome := innermost_ne_nil hnil
    rw [innermost_eq_filter h.pairwise_blamed] at hsome
    refine Or.inr ⟨hnil, ?_⟩
    rw [report]
    split
    · rename_i heq
      exact absurd heq hsome
    · rfl

/-- No location of a report leads into another one. -/
theorem pairwise_report (h : document.Ascending) (bulk : Fault) :
    (document.report bulk).Pairwise fun m n => ¬ m.location <+: n.location
      ∧ ¬ n.location <+: m.location := by
  rcases h.report_cases bulk with ⟨-, hreport⟩ | ⟨-, hreport⟩
  · rw [hreport]
    exact List.pairwise_singleton _ _
  · rw [hreport]
    refine (h.pairwise_blamed.filter _).imp_of_mem ?_
    intro m n hm hn hbefore
    refine ⟨?_, Location.not_prefix_of_before hbefore⟩
    intro hstart
    have habove : m.location.isAbove n.location = true :=
      Location.isAbove_iff.mpr ⟨hstart, hbefore.ne⟩
    -- a location inside another one would be inside a failing object that is not reported
    have hinside : m.hasInside document.blamed = true :=
      List.any_eq_true.mpr ⟨n, (List.mem_filter.mp hn).1, habove⟩
    simp [hinside] at hm

/-- Every location of a report leads to the object that is described there, unless no object
fails. -/
theorem blames_of_report (h : document.Ascending) (bulk : Fault) :
    (∀ m ∈ document.report bulk, document.Blames m)
      ∨ ((∀ m, ¬ document.Blames m) ∧ document.report bulk = [⟨[], none, .fault bulk⟩]) := by
  rcases h.report_cases bulk with ⟨hnil, hreport⟩ | ⟨-, hreport⟩
  · refine Or.inr ⟨?_, hreport⟩
    intro m hblames
    have hmem := h.mem_blamed_iff.mpr hblames
    rw [hnil] at hmem
    exact absurd hmem List.not_mem_nil
  · refine Or.inl ?_
    rw [hreport]
    intro m hm
    exact h.mem_blamed_iff.mp (List.mem_filter.mp hm).1

end Json.Ascending

/-- **What is reported about a rejected document.** The document lists the keys of its objects in
ascending order, as all do that are read from a text (`Json.ascending_parse`). The report holds the
failing objects of the document that have no failing object inside them, in the order of the
document, or else the fault of the whole. It is never empty, comparing each failing object with the
next one is as good as comparing it with all others, no reported location leads into another one,
and each leads to the object that is described there. -/
theorem parseDocument_report {document : Json} (h : document.Ascending) {failure : Failure}
    (hrejected : (parseDocument document).outcome.1 = .error failure) :
    ∃ bulk, readProject .document document = .error bulk
      ∧ failure = .mismatch (document.report bulk)
      ∧ document.report bulk ≠ []
      ∧ (∀ m, m ∈ document.blamed ↔ document.Blames m)
      ∧ (document.blamed.Pairwise fun m n => m.location.Before n.location)
      ∧ (innermost document.blamed = document.blamed.filter fun m => !m.hasInside document.blamed)
      ∧ ((document.report bulk).Pairwise fun m n => ¬ m.location <+: n.location
        ∧ ¬ n.location <+: m.location)
      ∧ ((∀ m ∈ document.report bulk, document.Blames m)
        ∨ ((∀ m, ¬ document.Blames m) ∧ document.report bulk = [⟨[], none, .fault bulk⟩])) := by
  rw [parseDocument] at hrejected
  split at hrejected
  · cases hrejected
  · rename_i bulk hbulk
    have hfailure : failure = .mismatch (narrow document bulk) := (Except.error.inj hrejected).symm
    -- the last failing object is always reported
    have hsome : document.report bulk ≠ [] := by
      rcases h.report_cases bulk with ⟨-, hreport⟩ | ⟨hne, hreport⟩
      · rw [hreport]
        exact List.cons_ne_nil _ _
      · rw [hreport, ← innermost_eq_filter h.pairwise_blamed]
        exact innermost_ne_nil hne
    rw [h.narrow_eq_report] at hfailure
    exact ⟨bulk, hbulk, hfailure, hsome, fun m => h.mem_blamed_iff, h.pairwise_blamed,
      innermost_eq_filter h.pairwise_blamed, h.pairwise_report bulk, h.blames_of_report bulk⟩

/-- A variable whose type has a fault deep inside it, and something of a kind that there is not. -/
def misfits : Json :=
  .obj [("children", .arr [
    .obj [("kindString", .str "Variable"), ("name", .str "v"),
      ("type", .obj [("elementType", .obj [("name", .num (.int 7)), ("type", .str "intrinsic")]),
        ("type", .str "array")])],
    .obj [("kindString", .str "Widget"), ("name", .str "w")]])]

/-- The element type is reported and not the variable around it, and besides the object of the kind
that there is not. -/
theorem parseDocument_report_misfits :
    ∃ bulk, (parseDocument misfits).outcome.1 = .error (.mismatch (misfits.report bulk))
      ∧ (misfits.report bulk).map (·.location.text)
        = ["children[0].type.elementType", "children[1]"] := by
  have hascending : misfits.Ascending := by
    simp [misfits, -String.lt_iff_ltb]
  have hlocations : (match (parseDocument misfits).outcome.1 with
      | .error (.mismatch reported) => reported.map (·.location.text)
      | _ => []) = ["children[0].type.elementType", "children[1]"] := by
    decide +kernel
  cases houtcome : (parseDocument misfits).outcome.1 with
  | ok project =>
    rw [houtcome] at hlocations
    cases hlocations
  | error failure =>
    obtain ⟨bulk, -, rfl, -⟩ := parseDocument_report hascending houtcome
    rw [houtcome] at hlocations
    exact ⟨bulk, rfl, hlocations⟩

end DocAtlas
