import DocAtlas.Proofs.Narrowing

/-!
Declarations that are not reported.

Where a declaration is expected, an object may stand that cannot be read as one. The report on the
document does not try that again: it takes each object for what the object says that it is. So an
object of another kind that is well formed as such, say a parameter among the children of a class,
is not blamed, although it is what the document was rejected for. Everything else that cannot be
read as a declaration is blamed itself, and where something is blamed, something is reported there
or further inside (`exists_innermost_inside`). `parseDocument_covers_iff` says exactly which of the
objects in lists of children are covered by the report.
-/

set_option autoImplicit false

namespace DocAtlas

/-! ## Lists of children -/

/-- Following a location goes on from where a first part of it leads. -/
theorem Json.at?_append (j : Json) (a b : Location) :
    j.at? (a ++ b) = (j.at? a).bind (·.at? b) := by
  induction a generalizing j with
  | nil => rw [List.nil_append, at?, Option.bind_some]
  | cons step a ih =>
    rw [List.cons_append, at?_cons, at?_cons, Option.bind_assoc]
    simp only [ih]

/-- The location leads from the root through lists of children only, and all objects on the way,
from the first of these lists on, have a `kindString` that is a text. -/
inductive Json.ChildAt (document : Json) : Location → List (String × Json) → Prop where
  | root {entries : List (String × Json)} (here : document = .obj entries) :
      ChildAt document [] entries
  | child {location : Location} {outer inner : List (String × Json)} {items : List Json}
      {index : Nat} {kind : String} (above : ChildAt document location outer)
      (children : outer.lookup "children" = some (.arr items))
      (item : items[index]? = some (.obj inner))
      (said : inner.lookup "kindString" = some (.str kind)) :
      ChildAt document (location ++ [.key "children", .index index]) inner

/-- The location leads to the object. -/
theorem Json.ChildAt.at?_eq {document : Json} {location : Location} {entries : List (String × Json)}
    (h : document.ChildAt location entries) : document.at? location = some (.obj entries) := by
  induction h with
  | root here => rw [here, at?]
  | child _ children item _ ih =>
    rw [at?_append, ih, Option.bind_some, at?, children, Option.bind_some, at?, item,
      Option.bind_some, at?]

/-! ## Blame -/

/-- The object is of a kind that is no declaration's, and well formed as such. -/
def Json.FitsElsewhere (entries : List (String × Json)) (kind : String) : Prop :=
  ∃ shape, Shape.ofKindString kind = some shape ∧ shape ≠ .declaration
    ∧ shape.fault? (.obj entries) = none

/-- An object that cannot be read as a declaration is blamed, unless it fits elsewhere. -/
theorem blames_iff_not_fitsElsewhere {document : Json} {location : Location}
    {entries : List (String × Json)} {kind : String} {e : Fault}
    (hat : document.at? location = some (.obj entries))
    (hsaid : entries.lookup "kindString" = some (.str kind))
    (hunread : readDeclaration .document (.obj entries) = .error e) :
    (∃ m, document.Blames m ∧ m.location = location) ↔ ¬ Json.FitsElsewhere entries kind := by
  have hdeclaration : Shape.fault? .declaration (.obj entries) = some e := by
    rw [Shape.fault?, hunread]
  constructor
  · rintro ⟨m, ⟨entries', hat', hdescribes⟩, rfl⟩ ⟨shape, hshape, -, hfits⟩
    rw [hat] at hat'
    cases hat'
    -- the object says one thing only, so what it is blamed for is what it was said to fit
    cases hdescribes with
    | noShape said unknown =>
      cases said with
      | kindString here =>
        rw [hsaid] at here
        cases here
        rw [hshape] at unknown
        cases unknown
      | type other _ => exact absurd hsaid (other kind)
    | fault said known fails =>
      cases said with
      | kindString here =>
        rw [hsaid] at here
        cases here
        rw [hshape] at known
        cases known
        rw [hfits] at fails
        cases fails
      | type other _ => exact absurd hsaid (other kind)
  · intro hnot
    have said : Discriminator.Said entries ⟨.kindString, kind, Shape.ofKindString kind⟩ :=
      .kindString hsaid
    cases hshape : Shape.ofKindString kind with
    | none => exact ⟨_, ⟨entries, hat, .noShape said hshape⟩, rfl⟩
    | some shape =>
      cases hfault : shape.fault? (.obj entries) with
      | some fault => exact ⟨_, ⟨entries, hat, .fault said hshape hfault⟩, rfl⟩
      | none =>
        -- it cannot be well formed as a declaration, so it would fit elsewhere
        refine absurd ⟨shape, hshape, ?_, hfault⟩ hnot
        rintro rfl
        rw [hdeclaration] at hfault
        cases hfault

/-- **Where something is blamed, something is reported there or inside it.** -/
theorem exists_innermost_inside {all : List Mismatch} {m : Mismatch} (h : m ∈ all) :
    ∃ n ∈ innermost all, m.location <+: n.location := by
  match all, h with
  | [only], h =>
    rw [List.mem_singleton.mp h]
    exact ⟨only, List.mem_singleton_self only, List.prefix_refl _⟩
  | first :: next :: rest, h =>
    rw [innermost]
    -- the first mismatch is dropped if the next one is inside it, and the others stay where they
    -- are
    rcases List.mem_cons.mp h with rfl | hlater
    · by_cases habove : m.location.isAbove next.location = true
      · -- what is dropped has the next one inside it
        obtain ⟨n, hn, hinside⟩ :=
          exists_innermost_inside (List.mem_cons_self (a := next) (l := rest))
        rw [if_pos habove]
        exact ⟨n, hn, (Location.isAbove_iff.mp habove).1.trans hinside⟩
      · rw [if_neg habove]
        exact ⟨m, List.mem_cons_self, List.prefix_refl _⟩
    · obtain ⟨n, hn, hinside⟩ := exists_innermost_inside hlater
      refine ⟨n, ?_, hinside⟩
      split
      · exact hn
      · exact List.mem_cons_of_mem _ hn

/-- The report covers a location inside the document exactly if something is blamed there or inside
it. -/
theorem Json.Ascending.report_covers_iff {document : Json} (h : document.Ascending) (bulk : Fault)
    {location : Location} :
    (∃ m ∈ document.report bulk, location <+: m.location) ↔
      location = [] ∨ ∃ m, document.Blames m ∧ location <+: m.location := by
  rcases h.report_cases bulk with ⟨hnil, hreport⟩ | ⟨hne, hreport⟩
  · -- nothing is blamed, and the fault of the whole is reported at the root
    have hnone : ∀ m, ¬ document.Blames m := by
      intro m hm
      have hmem := h.mem_blamed_iff.mpr hm
      rw [hnil] at hmem
      exact absurd hmem List.not_mem_nil
    simp [hreport, hnone, List.prefix_nil]
  · rw [hreport, ← innermost_eq_filter h.pairwise_blamed]
    constructor
    · rintro ⟨m, hm, hinside⟩
      rw [innermost_eq_filter h.pairwise_blamed] at hm
      exact .inr ⟨m, h.mem_blamed_iff.mp (List.mem_filter.mp hm).1, hinside⟩
    · rintro (rfl | ⟨m, hm, hinside⟩)
      · obtain ⟨m, hm⟩ := List.exists_mem_of_ne_nil _ (innermost_ne_nil hne)
        exact ⟨m, hm, List.nil_prefix⟩
      · obtain ⟨n, hn, hdeeper⟩ := exists_innermost_inside (h.mem_blamed_iff.mpr hm)
        exact ⟨n, hn, hinside.trans hdeeper⟩

/-- **Which objects in lists of children are covered by the report.** Let an object be reached
through lists of children only, and say by a `kindString` what it is, as those above it do. If it
cannot be read as a declaration, then something is reported there or further inside, exactly if it
is the whole document, or does not fit elsewhere, or some object further inside is to blame. -/
theorem parseDocument_covers_iff {document : Json} (h : document.Ascending) {failure : Failure}
    (hrejected : (parseDocument document).outcome.1 = .error failure) {location : Location}
    {entries : List (String × Json)} (hplace : document.ChildAt location entries) {kind : String}
    (hsaid : entries.lookup "kindString" = some (.str kind)) {e : Fault}
    (hunread : readDeclaration .document (.obj entries) = .error e) :
    ∃ reported, failure = .mismatch reported
      ∧ ((∃ m ∈ reported, location <+: m.location) ↔
        location = [] ∨ ¬ Json.FitsElsewhere entries kind
          ∨ ∃ m, document.Blames m ∧ location <+: m.location ∧ location ≠ m.location) := by
  rw [parseDocument] at hrejected
  split at hrejected
  · cases hrejected
  · rename_i bulk hbulk
    refine ⟨document.report bulk, ?_, ?_⟩
    · rw [← h.narrow_eq_report]
      exact (Except.error.inj hrejected).symm
    · rw [h.report_covers_iff, ← blames_iff_not_fitsElsewhere hplace.at?_eq hsaid hunread]
      refine or_congr_right ?_
      -- what is blamed there or inside is blamed there, or further inside
      constructor
      · rintro ⟨m, hm, hinside⟩
        by_cases heq : m.location = location
        · exact .inl ⟨m, hm, heq⟩
        · exact .inr ⟨m, hm, hinside, Ne.symm heq⟩
      · rintro (⟨m, hm, rfl⟩ | ⟨m, hm, hinside, -⟩)
        · exact ⟨m, hm, List.prefix_refl _⟩
        · exact ⟨m, hm, hinside⟩

/-- The entries of a well-formed parameter. -/
def numberEntries : List (String × Json) :=
  [("kindString", .str "Parameter"), ("name", .str "x"),
    ("type", .obj [("name", .str "number"), ("type", .str "intrinsic")])]

/-- The entries of a property without a type. -/
def untypedEntries : List (String × Json) := [("kindString", .str "Property"), ("name", .str "p")]

/-- A class with a parameter and a property without a type among its children. -/
def strayAmongMembers : Json :=
  .obj [("children", .arr [
    .obj [("children", .arr [.obj numberEntries, .obj untypedEntries]),
      ("kindString", .str "Class"), ("name", .str "C")]])]

/-- The property is reported. -/
theorem parseDocument_covers_iff_strayAmongMembers :
    ∃ reported, (parseDocument strayAmongMembers).outcome.1 = .error (.mismatch reported)
      ∧ ∃ m ∈ reported, [.key "children", .index 0, .key "children", .index 1] <+: m.location := by
  have hascending : strayAmongMembers.Ascending := by
    simp [strayAmongMembers, numberEntries, untypedEntries, -String.lt_iff_ltb]
  have hplace : strayAmongMembers.ChildAt [.key "children", .index 0, .key "children", .index 1]
      untypedEntries :=
    .child (.child (.root rfl) rfl rfl rfl) rfl rfl rfl
  -- a property is a declaration, so it fits nowhere else
  have hnot : ¬ Json.FitsElsewhere untypedEntries "Property" := by
    rintro ⟨shape, hshape, hother, -⟩
    exact hother (Option.some.inj (hshape.symm.trans (by decide)))
  have hrejected : (parseDocument strayAmongMembers).outcome.1.toOption.isSome = false := by
    decide +kernel
  have hunread : (readDeclaration .document (.obj untypedEntries)).toOption.isSome = false := by
    decide +kernel
  cases houtcome : (parseDocument strayAmongMembers).outcome.1 with
  | ok project =>
    rw [houtcome] at hrejected
    cases hrejected
  | error failure =>
    cases hread : readDeclaration .document (.obj untypedEntries) with
    | ok declaration =>
      rw [hread] at hunread
      cases hunread
    | error e =>
      obtain ⟨reported, rfl, hcovers⟩ :=
        parseDocument_covers_iff hascending houtcome hplace rfl hread
      exact ⟨reported, rfl, hcovers.mpr (.inr (.inl hnot))⟩

/-- A project with nothing but a parameter in it. -/
def strayParameter : Json := .obj [("children", .arr [.obj numberEntries])]

/-- A parameter among the children of a project cannot be read as a declaration, and nothing is
reported there. -/
theorem parseDocument_misses_strayParameter :
    strayParameter.ChildAt [.key "children", .index 0] numberEntries
      ∧ (∃ e, readDeclaration .document (.obj numberEntries) = .error e)
      ∧ ∃ reported, (parseDocument strayParameter).outcome.1 = .error (.mismatch reported)
        ∧ ∀ m ∈ reported, ¬ [.key "children", .index 0] <+: m.location := by
  have hunread : (readDeclaration .document (.obj numberEntries)).toOption.isSome = false := by
    decide +kernel
  -- what is reported is the fault of the whole, at the root
  have hlocations : (match (parseDocument strayParameter).outcome.1 with
      | .error (.mismatch reported) => some (reported.map (·.location))
      | _ => none) = some [[]] := by
    decide +kernel
  refine ⟨.child (.root rfl) rfl rfl rfl, ?_, ?_⟩
  · cases hread : readDeclaration .document (.obj numberEntries) with
    | ok declaration =>
      rw [hread] at hunread
      cases hunread
    | error e => exact ⟨e, rfl⟩
  · split at hlocations
    · rename_i reported houtcome
      refine ⟨reported, houtcome, ?_⟩
      intro m hm
      have hroot : m.location ∈ [([] : Location)] :=
        Option.some.inj hlocations ▸ List.mem_map_of_mem hm
      rw [List.mem_singleton.mp hroot, List.prefix_nil]
      exact List.cons_ne_nil _ _
    · cases hlocations

end DocAtlas
