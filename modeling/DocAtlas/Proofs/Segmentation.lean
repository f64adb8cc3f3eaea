import DocAtlas.Proofs.Pathname
import Mathlib.Data.List.Chain
import Mathlib.Data.Set.Function

/-!
Which paths can be split again.

A text is cut behind every character that ends a segment. A `/` always does, while a `.` or a `#`
does so only if no `.` or `/` follows, and the character that follows may belong to the next
segment. So whether a path is what its own text is split into does not show in its segments one by
one, but in each segment together with the next one. `Canonical` says this of the segments, without
the scan.

The two halves are about the scan in the middle of a text. It runs through a segment without a break
up to its end (`parseFrom_append`), and whatever it has begun with, what it cuts off is canonical
(`canonical_parseFrom`). So splitting is a bijection from all texts to the canonical paths
(`parse_bijOn_canonical`).
-/

set_option autoImplicit false

namespace DocAtlas

/-- Whether the first character of a text is `c`. -/
def startsIn (c : Char) (s : String) : Bool := s.toList.head? == some c

namespace Pathname

/-! ## Canonical paths -/

/-- No segment ends between two characters: the first one is no `/`, and if it is a `.` or `#` the
second one is a `.` or a `/`. -/
def Unbroken (c next : Char) : Prop := c ≠ '/' ∧ (c = '.' ∨ c = '#' → next = '.' ∨ next = '/')

/-- A segment ends where the next one begins: it ends in `/`, or it ends in `.` or `#` and the next
one begins with neither `.` nor `/`. -/
def EndsBefore (segment next : String) : Prop :=
  endsIn '/' segment
  ∨ ((endsIn '.' segment ∨ endsIn '#' segment) ∧ ¬ startsIn '.' next ∧ ¬ startsIn '/' next)

/-- The segments are those that their text is split into, said of the segments alone. -/
structure Canonical (path : Pathname) : Prop where
  nonempty : ∀ segment ∈ path, segment ≠ ""
  ends : path.IsChain EndsBefore
  unbroken : ∀ segment ∈ path, segment.toList.IsChain Unbroken

instance (c next : Char) : Decidable (Unbroken c next) := inferInstanceAs (Decidable (_ ∧ _))

instance (segment next : String) : Decidable (EndsBefore segment next) :=
  inferInstanceAs (Decidable (_ ∨ _))

instance (path : Pathname) : Decidable path.Canonical :=
  decidable_of_iff ((∀ segment ∈ path, segment ≠ "") ∧ path.IsChain EndsBefore
      ∧ ∀ segment ∈ path, segment.toList.IsChain Unbroken)
    ⟨fun h => ⟨h.1, h.2.1, h.2.2⟩, fun h => ⟨h.nonempty, h.ends, h.unbroken⟩⟩

/-- The empty path is canonical. -/
theorem canonical_nil : Canonical [] :=
  ⟨fun _ h => absurd h List.not_mem_nil, .nil, fun _ h => absurd h List.not_mem_nil⟩

/-- A first segment has to end before the next one, and to have no boundary inside. -/
theorem canonical_cons_iff {segment : String} {path : Pathname} :
    Canonical (segment :: path) ↔
      segment ≠ "" ∧ segment.toList.IsChain Unbroken
        ∧ (∀ next ∈ path.head?, EndsBefore segment next) ∧ path.Canonical := by
  constructor
  · rintro ⟨nonempty, ends, unbroken⟩
    obtain ⟨hne, nonempty⟩ := List.forall_mem_cons.mp nonempty
    obtain ⟨hunbroken, unbroken⟩ := List.forall_mem_cons.mp unbroken
    obtain ⟨hends, ends⟩ := List.isChain_cons.mp ends
    exact ⟨hne, hunbroken, hends, nonempty, ends, unbroken⟩
  · rintro ⟨hne, hunbroken, hends, nonempty, ends, unbroken⟩
    exact ⟨List.forall_mem_cons.mpr ⟨hne, nonempty⟩, List.isChain_cons.mpr ⟨hends, ends⟩,
      List.forall_mem_cons.mpr ⟨hunbroken, unbroken⟩⟩

/-! ## Boundaries -/

/-- The scan goes on between two characters exactly if they are unbroken. -/
theorem isBoundary_some_eq_false {c next : Char} :
    isBoundary c (some next) = false ↔ Unbroken c next := by
  -- a slash, a dot or hash, and any other character
  by_cases hslash : c = '/'
  · simp [isBoundary, Unbroken, hslash]
  · by_cases hpoint : c = '.' ∨ c = '#'
    · simp [isBoundary, Unbroken, hslash, hpoint, or_iff_not_imp_left (a := next = '.')]
    · simp [isBoundary, Unbroken, hslash, not_or.mp hpoint]

/-- A segment ends before the next one exactly if a boundary lies behind its last character. -/
theorem endsBefore_iff {segment next : String} :
    EndsBefore segment next ↔ ∃ c, segment.toList.getLast? = some c
      ∧ isBoundary c next.toList.head? = true := by
  simp only [EndsBefore, endsIn, startsIn, isBoundary]
  cases segment.toList.getLast? with
  | none => simp
  | some c => simp

/-! ## The scan -/

/-- **The scan runs through a segment to its end**, if no boundary lies inside it and one lies
behind it, or else the text ends there. -/
theorem parseFrom_append {segment : List Char} (hne : segment ≠ [])
    (hunbroken : segment.IsChain Unbroken) {rest : List Char}
    (hend : rest = [] ∨ ∃ c, segment.getLast? = some c ∧ isBoundary c rest.head? = true)
    (current : List Char) :
    parseFrom current (segment ++ rest) = String.ofList (current.reverse ++ segment)
      :: parseFrom [] rest := by
  -- the induction is on what is left of the segment; what the scan has of it stands in `current`
  induction segment generalizing current with
  | nil => exact absurd rfl hne
  | cons c segment ih =>
    rw [List.cons_append, parseFrom]
    -- the last character of the segment, and one with more behind it
    cases segment with
    | nil =>
      rw [List.nil_append, List.reverse_cons]
      by_cases hboundary : isBoundary c rest.head? = true
      · rw [if_pos hboundary]
      · rw [if_neg hboundary]
        have hnil : rest = [] := by
          refine hend.resolve_right ?_
          rintro ⟨last, hlast, hlast'⟩
          rw [List.getLast?_singleton, Option.some.injEq] at hlast
          exact hboundary (hlast ▸ hlast')
        rw [hnil, parseFrom, if_neg (by simp), List.reverse_cons]
        rfl
    | cons next segment =>
      obtain ⟨hhere, hunbroken⟩ := List.isChain_cons_cons.mp hunbroken
      have hinside : isBoundary c (some next) = false := isBoundary_some_eq_false.mpr hhere
      rw [List.getLast?_cons_cons] at hend
      rw [List.cons_append, List.head?_cons, hinside, if_neg Bool.false_ne_true, ← List.cons_append,
        ih (List.cons_ne_nil _ _) hunbroken hend, List.reverse_cons, List.append_assoc,
        List.singleton_append]

/-- The first segment that is cut off begins with what the scan has begun with. -/
theorem head?_of_mem_head?_parseFrom {current rest : List Char} {segment : String}
    (h : segment ∈ (parseFrom current rest).head?) :
    segment.toList.head? = (current.reverse ++ rest).head? := by
  induction rest generalizing current with
  | nil =>
    rw [parseFrom] at h
    split at h
    · cases h
    · cases h
      rw [String.toList_ofList, List.append_nil]
  | cons c rest ih =>
    have hmove : (c :: current).reverse ++ rest = current.reverse ++ c :: rest := by simp
    rw [parseFrom] at h
    split at h
    · cases h
      rw [String.toList_ofList, ← hmove, List.head?_append_of_ne_nil _ (by simp)]
    · rw [ih h, hmove]

/-- **What the scan cuts off is canonical**, if no boundary lies inside what it has begun with. -/
theorem canonical_parseFrom {current rest : List Char}
    (h : (current.reverse ++ rest.head?.toList).IsChain Unbroken) :
    (parseFrom current rest).Canonical := by
  induction rest generalizing current with
  | nil =>
    rw [List.head?_nil, Option.toList_none, List.append_nil] at h
    rw [parseFrom]
    split
    · exact canonical_nil
    · rename_i hsome
      refine canonical_cons_iff.mpr ⟨?_, by rwa [String.toList_ofList], ?_, canonical_nil⟩
      · simpa using hsome
      · intro next hnext
        cases hnext
  | cons c rest ih =>
    rw [List.head?_cons, Option.toList_some, ← List.reverse_cons] at h
    rw [parseFrom]
    split
    · rename_i hboundary
      -- behind a boundary the scan has begun with nothing
      have hrest : (parseFrom [] rest).Canonical := ih (by cases rest <;> simp)
      refine canonical_cons_iff.mpr ⟨by simp, by rwa [String.toList_ofList], ?_, hrest⟩
      intro next hnext
      refine endsBefore_iff.mpr ⟨c, by simp, ?_⟩
      rw [head?_of_mem_head?_parseFrom hnext]
      exact hboundary
    · rename_i hboundary
      refine ih ?_
      cases rest with
      | nil => simpa using h
      | cons next rest =>
        -- the segment goes on, so there is no boundary between the two characters
        have hinside : Unbroken c next :=
          isBoundary_some_eq_false.mp (Bool.eq_false_iff.mpr hboundary)
        refine h.append (List.isChain_singleton _) ?_
        intro last hlast first hfirst
        rw [List.reverse_cons, List.getLast?_concat, Option.mem_some_iff] at hlast
        rw [List.head?_cons, Option.toList_some, List.head?_cons, Option.mem_some_iff] at hfirst
        rw [← hlast, ← hfirst]
        exact hinside

/-! ## Splitting again -/

/-- **What a text is split into is canonical.** -/
theorem canonical_parse (s : String) : (parse s).Canonical :=
  canonical_parseFrom (by cases s.toList <;> simp)

/-- A canonical path is what its text is split into. The induction is on the path: its first segment
is cut off, and the scan starts again behind it. -/
theorem Canonical.parse_text {path : Pathname} (h : path.Canonical) : parse path.text = path := by
  induction path with
  | nil => rfl
  | cons segment path ih =>
    obtain ⟨hne, hunbroken, hends, hpath⟩ := canonical_cons_iff.mp h
    have hchars : segment.toList ≠ [] := fun hnil => hne (String.toList_eq_nil_iff.mp hnil)
    -- the first character behind the segment is that of the next one, which is not empty
    have hend : (text path).toList = [] ∨
        ∃ c, segment.toList.getLast? = some c ∧ isBoundary c (text path).toList.head? = true := by
      cases path with
      | nil => exact Or.inl rfl
      | cons next path =>
        obtain ⟨c, hlast, hboundary⟩ := endsBefore_iff.mp (hends next rfl)
        have hnext : next.toList ≠ [] := fun hnil =>
          (canonical_cons_iff.mp hpath).1 (String.toList_eq_nil_iff.mp hnil)
        refine Or.inr ⟨c, hlast, ?_⟩
        rw [text_cons, String.toList_append, List.head?_append_of_ne_nil _ hnext]
        exact hboundary
    have hscan := parseFrom_append hchars hunbroken hend []
    rw [List.reverse_nil, List.nil_append, String.ofList_toList] at hscan
    rw [parse, text_cons, String.toList_append, hscan, ← parse, ih hpath]

/-- **Splitting is a bijection from texts to canonical paths.** The segments of a text have that
text, and a path is what its text is split into exactly if it is canonical. -/
theorem parse_bijOn_canonical :
    (∀ s, (parse s).text = s) ∧ (∀ path : Pathname, parse path.text = path ↔ path.Canonical)
      ∧ Set.BijOn parse Set.univ {path | path.Canonical} := by
  have hiff : ∀ path : Pathname, parse path.text = path ↔ path.Canonical := by
    intro path
    constructor
    · intro h
      rw [← h]
      exact canonical_parse _
    · exact Canonical.parse_text
  refine ⟨text_parse, hiff, ?_, ?_, ?_⟩
  · exact fun s _ => canonical_parse s
  · intro s _ s' _ heq
    rw [← text_parse s, heq, text_parse]
  · exact fun path hpath => ⟨path.text, Set.mem_univ _, (hiff path).mpr hpath⟩

/-- Dots before a slash and runs of dots stay in one segment, and a dot before a slash of the next
segment does not end one. -/
example :
    Canonical ["../", "v1.", "a..", "b#", "c"] ∧ ¬ Canonical ["a.", "/", "b"]
      ∧ ¬ Canonical ["a#", "..", "b"] := by
  decide

end Pathname

end DocAtlas
