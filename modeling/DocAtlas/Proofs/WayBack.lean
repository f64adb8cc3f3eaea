import DocAtlas.Proofs.RelativePath
import Mathlib.Order.Bounds.Defs

/-!
When a relative path leads back.

A path as seen from a base climbs out of what the base has beyond their common beginning, and goes
down from there. Put behind the base it leads to the path again if each step up takes a name away. A
`..` that is left in the base cannot be climbed out of: a step up from there goes up once more
(`foldl_replicate_of_dots`).

In a normalized path every `..` stands in front (`ClimbsFirst`). This is kept by every component
(`climbsFirst_step`), and such components are not changed by being applied again
(`foldl_of_climbsFirst`). So whether a path leads back is seen from the normalized base: it does
exactly if no `..` is left behind the common beginning (`normalized_join_relativeTo_iff`).
-/

set_option autoImplicit false

namespace DocAtlas.FilePath

/-! ## Components of a path -/

/-- No part of a split text has the separator in it. -/
theorem not_mem_of_mem_splitAt {sep : Char} {cs part : List Char} (h : part ∈ splitAt sep cs) :
    sep ∉ part := by
  induction cs generalizing part with
  | nil =>
    rw [splitAt, List.mem_singleton] at h
    rw [h]
    exact List.not_mem_nil
  | cons c cs ih =>
    rw [splitAt] at h
    split at h
    · rcases List.mem_cons.mp h with rfl | h
      · exact List.not_mem_nil
      · exact ih h
    · rename_i hc
      cases hsplit : splitAt sep cs with
      | nil => exact absurd hsplit (splitAt_ne_nil sep cs)
      | cons first rest =>
        rw [hsplit] at h ih
        rcases List.mem_cons.mp h with rfl | h
        · exact List.not_mem_cons_of_ne_of_not_mem (Ne.symm hc) (ih List.mem_cons_self)
        · exact ih (List.mem_cons_of_mem _ h)

/-- The components of a path are components. -/
theorem isComponent_of_mem_components {path part : String} (h : part ∈ components path) :
    IsComponent part := by
  rw [components, List.mem_filter, Bool.and_eq_true, bne_iff_ne, bne_iff_ne, parts] at h
  obtain ⟨hpart, hempty, hdot⟩ := h
  -- a part is between two slashes, so none is in it
  obtain ⟨cs, hcs, rfl⟩ := List.mem_map.mp hpart
  refine ⟨hempty, hdot, ?_⟩
  rw [String.toList_ofList]
  exact not_mem_of_mem_splitAt hcs

theorem isComponent_dots : IsComponent ".." := ⟨by decide, by decide, by decide⟩

/-! ## One component -/

/-- A step up takes the name before it away. -/
theorem applyComponent_dots {name : String} (h : name ≠ "..") (rest : List String) :
    applyComponent (name :: rest) ".." = rest := by
  rw [applyComponent, if_pos rfl]
  exact if_neg h

/-- What a component does to those before it: `..` behind a name takes the name away, and everything
else is put behind them. -/
theorem applyComponent_cases (above : List String) (part : String) :
    (∃ name rest, part = ".." ∧ name ≠ ".." ∧ above = name :: rest
      ∧ applyComponent above part = rest)
      ∨ ((part = ".." → ∀ last ∈ above.head?, last = "..")
        ∧ applyComponent above part = part :: above) := by
  by_cases hpart : part = ".."
  · subst hpart
    cases above with
    | nil =>
      refine Or.inr ⟨?_, rfl⟩
      intro _ last hlast
      cases hlast
    | cons last rest =>
      by_cases hlast : last = ".."
      · subst hlast
        exact Or.inr ⟨fun _ _ h => (Option.mem_some_iff.mp h).symm, rfl⟩
      · exact Or.inl ⟨last, rest, rfl, hlast, rfl, applyComponent_dots hlast rest⟩
  · exact Or.inr ⟨fun h => absurd h hpart, applyComponent_of_ne_dots hpart above⟩

/-- Applying components makes no new ones. -/
theorem mem_of_mem_foldl {steps above : List String} {part : String}
    (h : part ∈ steps.foldl applyComponent above) :
    part ∈ above ∨ part ∈ steps := by
  induction steps generalizing above with
  | nil => exact Or.inl h
  | cons step steps ih =>
    rcases ih h with hmem | hmem
    · rcases applyComponent_cases above step with ⟨name, rest, -, -, rfl, hstep⟩ | ⟨-, hstep⟩
      · rw [hstep] at hmem
        exact Or.inl (List.mem_cons_of_mem _ hmem)
      · rw [hstep] at hmem
        rcases List.mem_cons.mp hmem with rfl | hmem
        · exact Or.inr List.mem_cons_self
        · exact Or.inl hmem
    · exact Or.inr (List.mem_cons_of_mem _ hmem)

/-- So normalizing makes no new ones. -/
theorem isComponent_of_mem_normalized {path part : String} (h : part ∈ normalized path) :
    IsComponent part := by
  rw [normalized, List.mem_reverse] at h
  rcases mem_of_mem_foldl h with hmem | hmem
  · cases hmem
  · exact isComponent_of_mem_components hmem

/-! ## Steps up come first -/

/-- Every `..` stands in front: what comes before one is one, too. -/
def ClimbsFirst (parts : List String) : Prop :=
  parts.Pairwise fun before part => part = ".." → before = ".."

/-- In a path of two parts, a step up in the second one asks for nothing but steps up in the
first. -/
theorem climbsFirst_append {a b : List String} :
    ClimbsFirst (a ++ b) ↔ ClimbsFirst a ∧ ClimbsFirst b
      ∧ (".." ∈ b → ∀ before ∈ a, before = "..") := by
  unfold ClimbsFirst
  rw [List.pairwise_append]
  refine and_congr_right fun _ => and_congr_right fun _ => ?_
  constructor
  · intro h hdots before hbefore
    exact h before hbefore ".." hdots rfl
  · rintro h before hbefore part hpart rfl
    exact h hpart before hbefore

theorem climbsFirst_singleton (part : String) : ClimbsFirst [part] := List.pairwise_singleton _ _

theorem climbsFirst_of_dots {parts : List String} (h : ∀ part ∈ parts, part = "..") :
    ClimbsFirst parts :=
  List.pairwise_of_forall_mem_list fun before hbefore _ _ _ => h before hbefore

/-- In front of steps up there are only steps up. -/
theorem dots_of_climbsFirst_concat {front : List String} {last : String}
    (h : ClimbsFirst (front ++ [last])) (hlast : last = "..") :
    ∀ part ∈ front ++ [last], part = ".." := by
  have hfront := (climbsFirst_append.mp h).2.2 (by rw [hlast]; exact List.mem_cons_self)
  refine List.forall_mem_append.mpr ⟨hfront, ?_⟩
  intro part hpart
  rw [List.mem_singleton.mp hpart, hlast]

/-- **A component keeps the steps up in front.** -/
theorem climbsFirst_step {above : List String} (h : ClimbsFirst above.reverse) (part : String) :
    ClimbsFirst (applyComponent above part).reverse := by
  rcases applyComponent_cases above part with ⟨name, rest, -, -, rfl, hstep⟩ | ⟨hlast, hstep⟩
  · rw [hstep]
    rw [List.reverse_cons] at h
    exact (climbsFirst_append.mp h).1
  · rw [hstep, List.reverse_cons]
    refine climbsFirst_append.mpr ⟨h, climbsFirst_singleton part, ?_⟩
    intro hdots
    have hpart : part = ".." := (List.mem_singleton.mp hdots).symm
    cases above with
    | nil =>
      intro before hbefore
      cases hbefore
    | cons last rest =>
      rw [List.reverse_cons] at h ⊢
      exact dots_of_climbsFirst_concat h (hlast hpart last rfl)

/-- **In a normalized path the steps up come first.** -/
theorem climbsFirst_normalized (path : String) : ClimbsFirst (normalized path) := by
  -- this holds for every start, and the empty one has no steps up
  have hrun : ∀ (steps above : List String), ClimbsFirst above.reverse →
      ClimbsFirst (steps.foldl applyComponent above).reverse := by
    intro steps
    induction steps with
    | nil => exact fun above h => h
    | cons step steps ih => exact fun above h => ih _ (climbsFirst_step h step)
  exact hrun _ [] List.Pairwise.nil

/-- **Components with the steps up in front are all put behind each other.** The induction is on the
components that are left; those that have been applied stand in `above`, the last one first. -/
theorem foldl_of_climbsFirst {steps above : List String}
    (h : ClimbsFirst (above.reverse ++ steps)) :
    steps.foldl applyComponent above = steps.reverse ++ above := by
  induction steps generalizing above with
  | nil => rfl
  | cons step steps ih =>
    have hmove : above.reverse ++ step :: steps = (step :: above).reverse ++ steps := by simp
    rw [hmove] at h
    have hstep : applyComponent above step = step :: above := by
      rcases applyComponent_cases above step with ⟨name, rest, hdots, hname, rfl, -⟩ | ⟨-, hstep⟩
      · -- a name before this step would stand before a step up
        have hfront := (climbsFirst_append.mp h).1
        rw [List.reverse_cons] at hfront
        have hall := dots_of_climbsFirst_concat hfront hdots
        exact absurd (hall name (by simp)) hname
      · exact hstep
    rw [List.foldl_cons, hstep, ih h, List.reverse_cons, List.append_assoc, List.singleton_append]

/-! ## Climbing -/

/-- A step up for each name leads out of the names. -/
theorem foldl_replicate_of_names {names : List String} (h : ".." ∉ names) (above : List String) :
    (List.replicate names.length "..").foldl applyComponent (names ++ above) = above := by
  induction names with
  | nil => rfl
  | cons name names ih =>
    obtain ⟨hname, hnames⟩ := List.ne_and_not_mem_of_not_mem_cons h
    rw [List.length_cons, List.replicate_succ, List.foldl_cons, List.cons_append,
      applyComponent_dots hname.symm, ih hnames]

/-- A step up from steps up goes up once more. -/
theorem foldl_replicate_of_dots {above : List String} (h : ∀ part ∈ above, part = "..") (n : Nat) :
    (List.replicate n "..").foldl applyComponent above = List.replicate n ".." ++ above := by
  have hall : ∀ part ∈ above.reverse ++ List.replicate n "..", part = ".." := by
    intro part hpart
    rcases List.mem_append.mp hpart with hpart | hpart
    · exact h part (List.mem_reverse.mp hpart)
    · exact List.eq_of_mem_replicate hpart
  rw [foldl_of_climbsFirst (climbsFirst_of_dots hall), List.reverse_replicate]

section

variable {common down : List String} (hdown : ClimbsFirst (common ++ down)) {behind : List String}
include hdown

/-- Out of names, and down to the path. -/
theorem foldl_steps_of_names (h : ".." ∉ behind) :
    (List.replicate behind.length ".." ++ down).foldl applyComponent (common ++ behind).reverse
      = (common ++ down).reverse := by
  have hnames : ".." ∉ behind.reverse := fun hmem => h (List.mem_reverse.mp hmem)
  have hclimb := foldl_replicate_of_names hnames common.reverse
  rw [List.length_reverse] at hclimb
  rw [List.foldl_append, List.reverse_append, hclimb,
    foldl_of_climbsFirst (by rwa [List.reverse_reverse]), List.reverse_append]

/-- Steps up that are left in a base cannot be climbed out of, so one ends up further above than at
the path. -/
theorem length_foldl_steps_of_dots (hbase : ClimbsFirst (common ++ behind)) (h : ".." ∈ behind) :
    (common ++ down).length
      < ((List.replicate behind.length ".." ++ down).foldl applyComponent
        (common ++ behind).reverse).length := by
  -- `names` are what the base has behind its last `..`, and `ups` what it has up to there
  obtain ⟨names, ups, hsplit, hnames⟩ := List.eq_append_cons_of_mem (List.mem_reverse.mpr h)
  have hreverse : (common ++ behind).reverse = names ++ (".." :: ups ++ common.reverse) := by
    rw [List.reverse_append, hsplit, List.append_assoc]
  have hlength : behind.length = names.length + (ups.length + 1) := by
    rw [← List.length_reverse, hsplit, List.length_append, List.length_cons]
  have hdots : ∀ part ∈ ".." :: ups ++ common.reverse, part = ".." := by
    have hfront : ClimbsFirst (common ++ ups.reverse ++ [".."]) := by
      have hbehind : behind = ups.reverse ++ [".."] ++ names.reverse := by
        rw [← List.reverse_reverse behind, hsplit]
        simp
      rw [hbehind, ← List.append_assoc, ← List.append_assoc] at hbase
      exact (climbsFirst_append.mp hbase).1
    intro part hpart
    refine dots_of_climbsFirst_concat hfront rfl part ?_
    rw [← List.mem_reverse]
    simpa using hpart
  -- as many steps up as there are names lead out of them, and all others are put behind the `..`
  -- that are left
  have hclimb : (List.replicate behind.length "..").foldl applyComponent (common ++ behind).reverse
      = List.replicate (ups.length + 1) ".." ++ (".." :: ups ++ common.reverse) := by
    rw [hlength, List.replicate_add, List.foldl_append, hreverse, foldl_replicate_of_names hnames,
      foldl_replicate_of_dots hdots]
  have hall :
      ∀ part ∈ (List.replicate (ups.length + 1) ".." ++ (".." :: ups ++ common.reverse)).reverse,
        part = ".." := by
    intro part hpart
    rcases List.mem_append.mp (List.mem_reverse.mp hpart) with hpart | hpart
    · exact List.eq_of_mem_replicate hpart
    · exact hdots part hpart
  have hfirst :=
    climbsFirst_append.mpr
      ⟨climbsFirst_of_dots hall, (climbsFirst_append.mp hdown).2.1, fun _ => hall⟩
  rw [List.foldl_append, hclimb, foldl_of_climbsFirst hfirst]
  simp only [List.length_append, List.length_reverse, List.length_replicate, List.length_cons]
  omega

end

/-! ## The common beginning -/

theorem commonLength_le (a b : List String) :
    commonLength a b ≤ a.length ∧ commonLength a b ≤ b.length := by
  induction a, b using commonLength.induct with
  | case1 x a b ih =>
    rw [commonLength, if_pos rfl, List.length_cons, List.length_cons]
    omega
  | case2 x a y b hne => simp [commonLength, hne]
  | case3 a b hcons => simp [commonLength]

/-- Up to the common length both are the same. -/
theorem take_commonLength (a b : List String) :
    a.take (commonLength a b) = b.take (commonLength a b) := by
  induction a, b using commonLength.induct with
  | case1 x a b ih => simp [commonLength, ih]
  | case2 x a y b hne => simp [commonLength, hne]
  | case3 a b hcons => simp [commonLength]

/-- No common beginning is longer. -/
theorem length_le_commonLength {common a b : List String} (ha : common <+: a) (hb : common <+: b) :
    common.length ≤ commonLength a b := by
  induction common generalizing a b with
  | nil => exact Nat.zero_le _
  | cons x common ih =>
    obtain ⟨a, rfl⟩ := ha
    obtain ⟨b, rfl⟩ := hb
    rw [List.cons_append, List.cons_append, commonLength, if_pos rfl, List.length_cons]
    exact Nat.succ_le_succ (ih (List.prefix_append _ _) (List.prefix_append _ _))

/-- **The common length is that of the longest common beginning.** -/
theorem isGreatest_commonLength (a b : List String) :
    IsGreatest {n | ∃ common, common <+: a ∧ common <+: b ∧ common.length = n}
      (commonLength a b) := by
  constructor
  · refine ⟨a.take (commonLength a b), List.take_prefix _ _, ?_, ?_⟩
    · rw [take_commonLength]
      exact List.take_prefix _ _
    · rw [List.length_take, Nat.min_eq_left (commonLength_le a b).1]
  · rintro n ⟨common, ha, hb, rfl⟩
    exact length_le_commonLength ha hb

/-! ## The steps of a relative path -/

/-- The steps from a base to a path: out of what the base has beyond the common beginning, and down
to the path. -/
def stepsTo (path base : List String) : List String :=
  List.replicate (base.length - commonLength path base) ".." ++ path.drop (commonLength path base)

/-- The steps of a relative path are components. -/
theorem isComponent_of_mem_stepsTo (path base : String) :
    ∀ step ∈ stepsTo (normalized path) (normalized base), IsComponent step := by
  intro step hstep
  rcases List.mem_append.mp hstep with hmem | hmem
  · rw [List.eq_of_mem_replicate hmem]
    exact isComponent_dots
  · exact isComponent_of_mem_normalized (List.mem_of_mem_drop hmem)

variable {path base : String}

/-- A path as seen from a base of its kind is relative, and it has the steps from the base as its
components. -/
theorem relativeTo_of_eq (h : isAbsolute path = isAbsolute base) :
    isAbsolute (relativeTo path base) = false
      ∧ components (relativeTo path base) = stepsTo (normalized path) (normalized base) := by
  have hsteps := isComponent_of_mem_stepsTo path base
  have hrelative : relativeTo path base =
      if (stepsTo (normalized path) (normalized base)).isEmpty then "."
      else "/".intercalate (stepsTo (normalized path) (normalized base)) := by
    rw [relativeTo, h, bne_self_eq_false, if_neg Bool.false_ne_true, stepsTo]
  rw [hrelative]
  split
  · rename_i hempty
    rw [List.isEmpty_iff.mp hempty]
    decide
  · exact ⟨isAbsolute_intercalate hsteps, components_intercalate hsteps⟩

/-- Normalizing a second time changes nothing. -/
theorem normalized_eq_of_components {other : String} (h : components other = normalized path) :
    normalized other = normalized path := by
  have hagain : (normalized path).foldl applyComponent [] = (normalized path).reverse ++ [] :=
    foldl_of_climbsFirst (climbsFirst_normalized path)
  rw [normalized, h, hagain, List.append_nil, List.reverse_reverse]

/-- A path that cannot be compared with the base comes back whole. -/
theorem relativeTo_of_ne (h : isAbsolute path ≠ isAbsolute base) :
    isAbsolute (relativeTo path base) = isAbsolute path
      ∧ components (relativeTo path base) = normalized path := by
  have hparts : ∀ part ∈ normalized path, IsComponent part :=
    fun part => isComponent_of_mem_normalized
  have hne : (isAbsolute path != isAbsolute base) = true := bne_iff_ne.mpr h
  rw [relativeTo, hne]
  simp only [if_true]
  cases isAbsolute path with
  | false =>
    rw [if_neg Bool.false_ne_true, String.empty_append]
    exact ⟨isAbsolute_intercalate hparts, components_intercalate hparts⟩
  | true =>
    -- what stands before the first slash is empty, and no component
    have hroot := components_append_slash "" ("/".intercalate (normalized path))
    rw [String.empty_append, components_empty, List.nil_append, components_intercalate hparts]
      at hroot
    refine ⟨?_, hroot⟩
    rw [if_pos rfl, isAbsolute, String.toList_append]
    rfl

/-- Behind its base, a relative path leads to the path exactly if no `..` is left in the base behind
the common beginning. -/
theorem normalized_join_relativeTo_iff (h : isAbsolute path = isAbsolute base) :
    normalized (join base (relativeTo path base)) = normalized path
      ↔ ".." ∉ (normalized base).drop (commonLength (normalized path) (normalized base)) := by
  obtain ⟨hrelative, hcomponents⟩ := relativeTo_of_eq h
  rw [normalized_join base hrelative, hcomponents, stepsTo, ← List.length_drop]
  -- both paths are their common beginning with something behind it
  generalize hcommon : (normalized path).take (commonLength (normalized path) (normalized base))
    = common
  have hpath :=
    List.take_append_drop (commonLength (normalized path) (normalized base)) (normalized path)
  have hbase :=
    List.take_append_drop (commonLength (normalized path) (normalized base)) (normalized base)
  rw [hcommon] at hpath
  rw [← take_commonLength, hcommon] at hbase
  generalize (normalized path).drop (commonLength (normalized path) (normalized base))
    = down at hpath ⊢
  generalize (normalized base).drop (commonLength (normalized path) (normalized base))
    = behind at hbase ⊢
  have hdown : ClimbsFirst (common ++ down) := hpath ▸ climbsFirst_normalized path
  have hbehind : ClimbsFirst (common ++ behind) := hbase ▸ climbsFirst_normalized base
  rw [← hpath, ← hbase]
  constructor
  · intro hback hdots
    -- one ends up further above, so the lengths differ
    have hfurther := length_foldl_steps_of_dots hdown hbehind hdots
    have hlength := congrArg List.length hback
    rw [List.length_reverse] at hlength
    omega
  · intro hdots
    rw [foldl_steps_of_names hdown hdots, List.reverse_reverse]

/-- **Relative paths undo joining, exactly when they can.** If the path and the base are both
absolute or both relative, the path as seen from the base, put behind the base, starts where the
path does, and it leads to the path exactly if the base has no `..` behind their longest common
beginning. If only one of them is absolute, the path comes back whole. -/
theorem relativeTo_leads_back (path base : String) :
    IsGreatest
      {n | ∃ common, common <+: normalized path ∧ common <+: normalized base ∧ common.length = n}
        (commonLength (normalized path) (normalized base))
      ∧ (isAbsolute path = isAbsolute base →
          isAbsolute (join base (relativeTo path base)) = isAbsolute path
          ∧ (normalized (join base (relativeTo path base)) = normalized path
              ↔ ".." ∉ (normalized base).drop (commonLength (normalized path) (normalized base))))
      ∧ (isAbsolute path ≠ isAbsolute base →
          normalized (relativeTo path base) = normalized path
          ∧ isAbsolute (relativeTo path base) = isAbsolute path) := by
  refine ⟨isGreatest_commonLength _ _, ?_, ?_⟩
  · intro hkind
    refine ⟨?_, normalized_join_relativeTo_iff hkind⟩
    rw [isAbsolute_join base (relativeTo_of_eq hkind).1, hkind]
  · intro hkind
    obtain ⟨habsolute, hcomponents⟩ := relativeTo_of_ne hkind
    exact ⟨normalized_eq_of_components hcomponents, habsolute⟩

/-- From a sibling directory the way leads back, from above the start it does not, and an absolute
path cannot be seen from a relative base. -/
theorem relativeTo_leads_back_cases :
    normalized (join "../lib/./core" (relativeTo "../lib//util/../a.ts" "../lib/./core"))
      = ["..", "lib", "a.ts"]
      ∧ normalized (join "../core" (relativeTo "a.ts" "../core")) ≠ ["a.ts"]
      ∧ isAbsolute (relativeTo "/work/../a.ts" "lib") = true := by
  refine ⟨?_, ?_, ?_⟩
  · exact (((relativeTo_leads_back "../lib//util/../a.ts" "../lib/./core").2.1 (by decide)).2.mpr
      (by decide)).trans (by decide)
  · intro hback
    have hdots :=
      ((relativeTo_leads_back "a.ts" "../core").2.1 (by decide)).2.mp (hback.trans (by decide))
    exact hdots (by decide)
  · exact ((relativeTo_leads_back "/work/../a.ts" "lib").2.2 (by decide)).2.trans (by decide)

end DocAtlas.FilePath
