import DocAtlas.Path.Placement
import Mathlib.Data.List.Basic

/-!
Paths as lists of segments, and as texts.

The first part is about how paths are put together. Closing, joining and stripping look at the last
segment only, and all of them keep the punctuation behind the segments before it (`Punctuated`). The
second part is about taking a text apart. Every way to split a text that is tried has that text
again (`text_of_mem_parseAlternatives`), and a punctuated path has no shorter end with the same
text, unless it is a single empty segment (`eq_of_suffix_of_text_eq`).
-/

set_option autoImplicit false

namespace DocAtlas

/-! ## Punctuation -/

/-- Whether a segment ends in the punctuation that joins it to another. -/
def IsJoint (segment : String) : Prop :=
  endsIn '/' segment ∨ endsIn '.' segment ∨ endsIn '#' segment

/-- What was pushed to the end is at the end. -/
theorem endsIn_push (c : Char) (s : String) : endsIn c (s.push c) = true := by
  rw [endsIn, String.toList_push, List.getLast?_concat]
  exact beq_self_eq_true _

/-- A segment with punctuation is not empty. -/
theorem IsJoint.ne_empty {segment : String} (h : IsJoint segment) : segment ≠ "" := by
  rintro rfl
  revert h
  rw [IsJoint]
  decide

namespace Pathname

/-- Every segment but the last keeps the punctuation that joins it to the next one. -/
def Punctuated (path : Pathname) : Prop := ∀ segment ∈ path.dropLast, IsJoint segment

theorem punctuated_nil : Punctuated [] := fun _ h => absurd h List.not_mem_nil

theorem punctuated_singleton (segment : String) : Punctuated [segment] :=
  fun _ h => absurd h List.not_mem_nil

/-- Closing a path changes its last segment only. -/
theorem closeLast_append_singleton (delimiter : Char) (path : Pathname) (last : String) :
    closeLast delimiter (path ++ [last]) = path ++ [last.push delimiter] := by
  induction path with
  | nil => rfl
  | cons segment path ih =>
    cases path with
    | nil => rfl
    | cons next path =>
      rw [List.cons_append, List.cons_append, closeLast, ← List.cons_append, ih]
      · rfl
      · intro h
        exact absurd (congrArg List.length h) (by simp)

/-- Changing the last segment leaves the others as they are. -/
theorem mapLast_append_singleton (f : String → String) (path : Pathname) (last : String) :
    mapLast f (path ++ [last]) = path ++ [f last] := by
  induction path with
  | nil => rfl
  | cons segment path ih =>
    cases path with
    | nil => rfl
    | cons next path =>
      rw [List.cons_append, List.cons_append, mapLast, ← List.cons_append, ih]
      · rfl
      · intro h
        exact absurd (congrArg List.length h) (by simp)

/-- A delimiter is a `#` or a dot. -/
theorem delimiter_eq (isStatic : Bool) (owner : Owner) :
    delimiter isStatic owner = '#' ∨ delimiter isStatic owner = '.' := by
  rw [delimiter]
  split
  · exact Or.inl rfl
  · exact Or.inr rfl

/-- Only below a class there is another delimiter than the dot. -/
theorem delimiter_of_ne_classDecl {owner : Owner} (h : owner ≠ .classDecl) (isStatic : Bool) :
    delimiter isStatic owner = '.' := by
  rw [delimiter, decide_eq_false h, Bool.and_false, if_neg Bool.false_ne_true]

/-- A closed path has punctuation behind every segment. -/
theorem isJoint_of_mem_closeLast {path : Pathname} (h : path.Punctuated) {isStatic : Bool}
    {owner : Owner} {segment : String}
    (hmem : segment ∈ closeLast (delimiter isStatic owner) path) : IsJoint segment := by
  rcases List.eq_nil_or_concat path with rfl | ⟨front, last, rfl⟩
  · exact absurd hmem List.not_mem_nil
  · rw [List.concat_eq_append] at h hmem
    rw [closeLast_append_singleton, List.mem_append, List.mem_singleton] at hmem
    -- the segments before the last one are joints already, and the last one becomes one
    rcases hmem with hfront | rfl
    · exact h segment (by rwa [List.dropLast_concat])
    · rcases delimiter_eq isStatic owner with hd | hd
      · rw [hd]
        exact Or.inr (Or.inr (endsIn_push '#' last))
      · rw [hd]
        exact Or.inr (Or.inl (endsIn_push '.' last))

/-- The directories of a file keep their slashes. -/
theorem punctuated_segments (file : String) : (FilePath.segments file).Punctuated := by
  intro segment hmem
  rw [FilePath.segments] at hmem
  split at hmem
  · exact absurd hmem List.not_mem_nil
  · rw [List.dropLast_concat] at hmem
    obtain ⟨directory, -, rfl⟩ := List.mem_map.mp hmem
    refine Or.inl ?_
    rw [show directory ++ "/" = directory.push '/' from (String.push_eq_append '/').symm]
    exact endsIn_push '/' directory

/-- What a path hangs on is punctuated: it is the path above, or comes from a file. -/
theorem punctuated_anchor {isModule : Bool} {owner : Owner} {parent : Pathname} {filename : String}
    (h : parent.Punctuated) : (anchor isModule owner parent filename).Punctuated := by
  rw [anchor]
  split
  · exact punctuated_segments filename
  · exact h

/-- Joining keeps the punctuation. -/
theorem punctuated_join {own : Pathname} {isModule isStatic : Bool} {owner : Owner}
    {parent : Pathname} {filename : String} (hown : own.Punctuated) (hparent : parent.Punctuated) :
    (join own isModule isStatic owner parent filename).Punctuated := by
  have habove : (anchor isModule owner parent filename).Punctuated := punctuated_anchor hparent
  rw [join]
  split
  · exact habove
  · rename_i hne
    split
    · exact hown
    · intro segment hmem
      rw [List.dropLast_append_of_ne_nil (by simpa using hne), List.mem_append] at hmem
      rcases hmem with hmem | hmem
      · exact isJoint_of_mem_closeLast habove hmem
      · exact hown segment hmem

/-- So does stripping. -/
theorem punctuated_stripAnonymous {path : Pathname} (h : path.Punctuated) :
    (stripAnonymous path).1.Punctuated := by
  rw [stripAnonymous]
  split
  · rcases List.eq_nil_or_concat path.dropLast with hnil | ⟨front, last, hlast⟩
    · rw [hnil]
      exact punctuated_nil
    · rw [List.concat_eq_append] at hlast
      intro segment hmem
      simp only at hmem
      rw [hlast, mapLast_append_singleton, List.dropLast_concat] at hmem
      refine h segment ?_
      rw [hlast]
      exact List.mem_append_left _ hmem
  · exact h

/-- A dot at the end is dropped. -/
theorem dropDot_push (s : String) : dropDot (s.push '.') = s := by
  rw [dropDot, if_pos (endsIn_push '.' s), String.toList_push, List.dropLast_concat,
    String.ofList_toList]

/-- Nothing else is dropped. -/
theorem dropDot_push_of_ne {c : Char} (h : c ≠ '.') (s : String) :
    dropDot (s.push c) = s.push c := by
  rw [dropDot, if_neg]
  rw [endsIn, String.toList_push, List.getLast?_concat]
  simpa using h

/-- Taking the segment of an unnamed type off a path opens the path again where that segment was
joined to it with a dot. Any other delimiter stays. -/
theorem stripAnonymous_closeLast {path : Pathname} (h : path ≠ []) (c : Char) :
    stripAnonymous (closeLast c path ++ [anonymous])
      = if c = '.' then (path, path.getLast?)
        else (closeLast c path, (closeLast c path).getLast?) := by
  rcases List.eq_nil_or_concat path with rfl | ⟨front, last, rfl⟩
  · exact absurd rfl h
  · rw [List.concat_eq_append, stripAnonymous, List.getLast?_concat, if_pos rfl,
      List.dropLast_concat, closeLast_append_singleton, mapLast_append_singleton]
    by_cases hc : c = '.'
    · rw [if_pos hc, hc, dropDot_push]
    · rw [if_neg hc, dropDot_push_of_ne hc]

/-- What was joined with a dot is what is left after stripping. -/
theorem stripAnonymous_join {path : Pathname} (h : path ≠ []) :
    (stripAnonymous (closeLast '.' path ++ [anonymous])).1 = path := by
  rw [stripAnonymous_closeLast h, if_pos rfl]

/-- A path that ends in a name of its own is not stripped. -/
theorem stripAnonymous_of_ne {path : Pathname} (h : path.getLast? ≠ some anonymous) :
    (stripAnonymous path).1 = path := by
  rw [stripAnonymous, if_neg h]

/-! ## Joining below something that is not the project -/

variable {isModule isStatic : Bool} {owner : Owner} {parent : Pathname} {filename name : String}

/-- Below anything but the project, a path hangs on the path above. -/
theorem anchor_of_ne_project (h : owner ≠ .project) :
    anchor isModule owner parent filename = parent := by
  rw [anchor, if_neg]
  intro hall
  simp only [Bool.and_eq_true, decide_eq_true_eq] at hall
  exact h hall.1.1

/-- What has no segments of its own stands where its owner does. -/
theorem join_nil_of_ne_project (h : owner ≠ .project) :
    join [] isModule isStatic owner parent filename = parent := by
  rw [join, if_pos List.isEmpty_nil]
  exact anchor_of_ne_project h

/-- There a name goes behind the path above, which is closed. -/
theorem join_name_of_ne_project (h : owner ≠ .project) (hparent : parent ≠ []) :
    join [name] isModule isStatic owner parent filename
      = closeLast (delimiter isStatic owner) parent ++ [name] := by
  rw [join, anchor_of_ne_project h, if_neg (by simp), if_neg (by simpa using hparent)]

/-- Whatever a name is joined to, it comes last. -/
theorem getLast?_join_name :
    (join [name] isModule isStatic owner parent filename).getLast? = some name := by
  rw [join, if_neg (by simp)]
  split
  · rfl
  · exact List.getLast?_concat

/-! ## Texts -/

@[simp] theorem text_nil : text [] = "" := rfl

@[simp] theorem text_cons (segment : String) (path : Pathname) :
    text (segment :: path) = segment ++ path.text := by
  rw [text, text, String.join_cons]

@[simp] theorem text_append (a b : Pathname) : text (a ++ b) = a.text ++ b.text := by
  induction a with
  | nil => simp
  | cons segment a ih => rw [List.cons_append, text_cons, text_cons, ih, String.append_assoc]

/-- Only empty segments have an empty text. -/
theorem text_eq_empty_iff (path : Pathname) : path.text = "" ↔ ∀ segment ∈ path, segment = "" := by
  induction path with
  | nil => simp
  | cons segment path ih => rw [text_cons, String.append_eq_empty_iff, ih, List.forall_mem_cons]

/-- A shorter end of a punctuated path has another text, unless the path is a single empty
segment. -/
theorem eq_of_suffix_of_text_eq {s path : Pathname} (hpath : path.Punctuated) (hs : s <:+ path)
    (htext : s.text = path.text) : s = path ∨ (s = [] ∧ path = [""]) := by
  obtain ⟨front, rfl⟩ := hs
  cases front with
  | nil => exact Or.inl rfl
  | cons segment front =>
    -- what is left out in front has no text
    have hempty : text (segment :: front) = "" := by
      rw [text_append] at htext
      have hchars := congrArg String.toList htext
      rw [String.toList_append, List.self_eq_append_left] at hchars
      exact String.toList_eq_nil_iff.mp hchars
    have hsegment : segment = "" := (text_eq_empty_iff _).mp hempty segment List.mem_cons_self
    -- an empty segment has no punctuation, so it is the last one
    have hrest : front ++ s = [] := by
      by_contra hne
      refine (hpath segment ?_).ne_empty hsegment
      rw [List.cons_append, List.dropLast_cons_of_ne_nil hne]
      exact List.mem_cons_self
    obtain ⟨rfl, rfl⟩ := List.append_eq_nil_iff.mp hrest
    rw [hsegment]
    exact Or.inr ⟨rfl, rfl⟩

/-! ## Splitting a text -/

/-- The text of what the scan finds, with the segment that it is in the middle of. The current
segment is kept in reverse. -/
theorem text_parseFrom (current rest : List Char) :
    (parseFrom current rest).text = String.ofList (current.reverse ++ rest) := by
  induction rest generalizing current with
  | nil =>
    rw [parseFrom]
    -- the segment ends here, or goes on
    split
    · rename_i h
      rw [List.isEmpty_iff.mp h]
      rfl
    · simp
  | cons c rest ih =>
    rw [parseFrom]
    split
    · rw [text_cons, ih, ← String.ofList_append, List.reverse_nil, List.nil_append,
        List.reverse_cons, List.append_assoc, List.singleton_append]
    · rw [ih, List.reverse_cons, List.append_assoc, List.singleton_append]

/-- The segments of a text have that text. -/
theorem text_parse (s : String) : (parse s).text = s := by
  rw [parse, text_parseFrom, List.reverse_nil, List.nil_append, String.ofList_toList]

/-- A path is cut in two behind its last directory. -/
theorem directories_append_behindDirectories (path : Pathname) :
    directories path ++ behindDirectories path = path := by
  have hsuffix : behindDirectories path <:+ path := by
    rw [behindDirectories, ← List.reverse_prefix, List.reverse_reverse]
    exact List.takeWhile_prefix _
  rw [directories]
  nth_rewrite 2 [List.suffix_iff_eq_drop.mp hsuffix]
  exact List.take_append_drop _ path

/-- Putting segments together keeps the text. -/
theorem text_of_mem_mergedStems {stem : String} {path merged : Pathname}
    (h : merged ∈ mergedStems stem path) :
    merged.text = stem ++ path.text := by
  induction path generalizing stem with
  | nil => cases h
  | cons segment rest ih =>
    rw [mergedStems] at h
    split at h
    · -- a way that goes on has the text by induction
      have hlater : merged ∈ mergedStems (stem ++ segment) rest →
          merged.text = stem ++ text (segment :: rest) := by
        intro hmem
        rw [ih hmem, text_cons, String.append_assoc]
      simp only at h
      split at h
      · exact hlater h
      · rcases List.mem_cons.mp h with rfl | h
        · rw [text_cons, text_cons, String.append_assoc]
        · exact hlater h
    · cases h

/-- **Every way to split a text has that text.** -/
theorem text_of_mem_parseAlternatives {s : String} {path : Pathname}
    (h : path ∈ parseAlternatives s) :
    path.text = s := by
  rw [parseAlternatives] at h
  rcases List.mem_cons.mp h with rfl | h
  · exact text_parse s
  · obtain ⟨merged, hmerged, rfl⟩ := List.mem_map.mp h
    rw [text_append, text_of_mem_mergedStems hmerged, String.empty_append, ← text_append,
      directories_append_behindDirectories, text_parse]

end Pathname

end DocAtlas
