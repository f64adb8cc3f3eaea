import DocAtlas.Proofs.Segmentation

/-!
Stems with dots in them.

A file is named by its stem in a path, and a stem may have dots of its own: `index.d.ts` has the
stem `index.d`. The scan cuts such a stem at its dots, leading, trailing and doubled ones included,
and the segments that it is cut into all end in a dot (`endsIn_dot_of_mem_parseFrom`). The ways to
split a text put leading segments of this kind together again, one more each time, so each way has
fewer segments than the one before (`pairwise_parseAlternatives`) and none of them is empty
(`ne_empty_of_mem_parseAlternatives`).

So a path is found again from its text if it leads through directories and a file to a declaration
(`FileAddress`), whatever the stem of the file is: behind the directories the stem is the one run of
segments that is put together (`mem_mergedStems`), as something is left behind it.
-/

set_option autoImplicit false

namespace DocAtlas.Pathname

/-! ## One step of putting segments together -/

/-- What is put together from a first segment on: the way that ends with it, if there is something
before it and something behind it, and the ways that go on. -/
theorem mergedStems_cons (stem segment : String) (rest : Pathname) :
    mergedStems stem (segment :: rest) =
      if endsIn '.' segment then
        (if stem = "" ∨ rest = [] then [] else [(stem ++ segment) :: rest])
          ++ mergedStems (stem ++ segment) rest
      else [] := by
  rw [mergedStems]
  -- the code asks for emptiness by truth values, the statement by equations
  by_cases hdot : endsIn '.' segment = true
  · rw [if_pos hdot, if_pos hdot]
    by_cases hskip : stem = "" ∨ rest = []
    · have hskip' : (stem.isEmpty || rest.isEmpty) = true := by
        simpa [String.isEmpty_iff] using hskip
      rw [if_pos hskip, if_pos hskip', List.nil_append]
    · have hskip' : ¬ (stem.isEmpty || rest.isEmpty) = true := by
        simpa [String.isEmpty_iff] using hskip
      rw [if_neg hskip, if_neg hskip', List.singleton_append]
  · rw [if_neg hdot, if_neg hdot]

/-- The ways from a first segment on, one by one. -/
theorem mem_mergedStems_cons {stem segment : String} {rest merged : Pathname} :
    merged ∈ mergedStems stem (segment :: rest) ↔
      endsIn '.' segment
        ∧ ((stem ≠ "" ∧ rest ≠ [] ∧ merged = (stem ++ segment) :: rest)
          ∨ merged ∈ mergedStems (stem ++ segment) rest) := by
  rw [mergedStems_cons]
  split
  · rename_i hdot
    rw [List.mem_append, and_iff_right hdot]
    refine or_congr_left ?_
    split
    · rename_i hskip
      constructor
      · intro h
        cases h
      · rintro ⟨hstem, hrest, -⟩
        exact absurd hskip (not_or.mpr ⟨hstem, hrest⟩)
    · rename_i hskip
      rw [List.mem_singleton]
      exact ⟨fun h => ⟨(not_or.mp hskip).1, (not_or.mp hskip).2, h⟩, fun h => h.2.2⟩
  · rename_i hdot
    constructor
    · intro h
      cases h
    · exact fun h => absurd h.1 hdot

/-- What ends in a character is not empty. -/
theorem ne_empty_of_endsIn {c : Char} {segment : String} (h : endsIn c segment = true) :
    segment ≠ "" := by
  rintro rfl
  cases h

/-- What ends in one character does not end in another. -/
theorem endsIn_eq_false_of_endsIn {c d : Char} {segment : String} (h : endsIn c segment = true)
    (hne : c ≠ d) :
    endsIn d segment = false := by
  rw [endsIn, beq_iff_eq] at h
  rw [endsIn, h, beq_eq_false_iff_ne, ne_eq, Option.some.injEq]
  exact hne

/-! ## Fewer and fewer segments -/

/-- Putting segments together makes no path longer. -/
theorem length_le_of_mem_mergedStems {stem : String} {path merged : Pathname}
    (h : merged ∈ mergedStems stem path) :
    merged.length ≤ path.length := by
  induction path generalizing stem with
  | nil => cases h
  | cons segment rest ih =>
    obtain ⟨-, ⟨-, -, rfl⟩ | hlater⟩ := mem_mergedStems_cons.mp h
    · exact Nat.le_refl _
    · have := ih hlater
      simp only [List.length_cons]
      omega

/-- With nothing before the first segment at least two are put together. -/
theorem length_lt_of_mem_mergedStems {path merged : Pathname} (h : merged ∈ mergedStems "" path) :
    merged.length < path.length := by
  cases path with
  | nil => cases h
  | cons segment rest =>
    obtain ⟨-, ⟨hstem, -⟩ | hlater⟩ := mem_mergedStems_cons.mp h
    · exact absurd rfl hstem
    · have := length_le_of_mem_mergedStems hlater
      simp only [List.length_cons]
      omega

/-- The ways come in the order of how much is put together. -/
theorem pairwise_mergedStems (stem : String) (path : Pathname) :
    (mergedStems stem path).Pairwise fun a b => b.length < a.length := by
  induction path generalizing stem with
  | nil => exact List.Pairwise.nil
  | cons segment rest ih =>
    rw [mergedStems_cons]
    split
    · split
      · exact ih _
      · -- the way that ends here keeps all of `rest`, the later ones put some of it together
        refine List.pairwise_cons.mpr ⟨?_, ih _⟩
        intro merged hmerged
        have := length_le_of_mem_mergedStems hmerged
        simp only [List.length_cons]
        omega
    · exact List.Pairwise.nil

/-- **Each way to split a text has fewer segments than those before it.** -/
theorem pairwise_parseAlternatives (s : String) :
    (parseAlternatives s).Pairwise fun a b => b.length < a.length := by
  rw [parseAlternatives]
  refine List.pairwise_cons.mpr ⟨?_, ?_⟩
  · intro path hpath
    obtain ⟨merged, hmerged, rfl⟩ := List.mem_map.mp hpath
    -- the directories stay as they are, so only the rest is compared
    have hsplit := congrArg List.length (directories_append_behindDirectories (parse s))
    have := length_lt_of_mem_mergedStems hmerged
    rw [List.length_append] at hsplit ⊢
    omega
  · refine (pairwise_mergedStems _ _).map _ ?_
    intro a b hab
    rw [List.length_append, List.length_append]
    omega

/-! ## No empty segments -/

/-- No segment becomes empty by putting others together. -/
theorem ne_empty_of_mem_mergedStems {stem : String} {path merged : Pathname}
    (hpath : ∀ segment ∈ path, segment ≠ "") (h : merged ∈ mergedStems stem path) :
    ∀ segment ∈ merged, segment ≠ "" := by
  induction path generalizing stem with
  | nil => cases h
  | cons first rest ih =>
    obtain ⟨-, hrest⟩ := List.forall_mem_cons.mp hpath
    obtain ⟨hdot, ⟨-, -, rfl⟩ | hlater⟩ := mem_mergedStems_cons.mp h
    · -- what is put together ends in a segment with a dot
      refine List.forall_mem_cons.mpr ⟨?_, hrest⟩
      intro hempty
      exact ne_empty_of_endsIn hdot (String.append_eq_empty_iff.mp hempty).2
    · exact ih hrest hlater

/-- **No way to split a text has an empty segment.** -/
theorem ne_empty_of_mem_parseAlternatives {s : String} {path : Pathname}
    (h : path ∈ parseAlternatives s) :
    ∀ segment ∈ path, segment ≠ "" := by
  -- no segment of the scan is empty, before the directories end and behind
  have hparse : ∀ segment ∈ directories (parse s) ++ behindDirectories (parse s), segment ≠ "" := by
    rw [directories_append_behindDirectories]
    exact (canonical_parse s).nonempty
  obtain ⟨hdirectories, hbehind⟩ := List.forall_mem_append.mp hparse
  rw [parseAlternatives] at h
  rcases List.mem_cons.mp h with rfl | h
  · exact (canonical_parse s).nonempty
  · obtain ⟨merged, hmerged, rfl⟩ := List.mem_map.mp h
    exact List.forall_mem_append.mpr ⟨hdirectories, ne_empty_of_mem_mergedStems hbehind hmerged⟩

/-! ## Paths through a file -/

/-- The name of a directory. There is a dot in it only if it stands for the directory itself or the
one above. -/
structure IsDirectoryName (name : String) : Prop where
  no_slash : '/' ∉ name.toList
  no_hash : '#' ∉ name.toList
  dots : '.' ∈ name.toList → name = "." ∨ name = ".."

/-- The name of a declaration: nothing in it separates segments. -/
structure IsPlainName (name : String) : Prop where
  ne_empty : name ≠ ""
  no_slash : '/' ∉ name.toList
  no_hash : '#' ∉ name.toList
  no_dot : '.' ∉ name.toList

/-- A segment of a declaration that has others in it: its name, and a `.` or a `#`. -/
def IsContainer (segment : String) : Prop :=
  ∃ name, IsPlainName name ∧ (segment = name ++ "." ∨ segment = name ++ "#")

/-- A way through directories to a file, and through declarations to one of them. The stem of the
file is any text without a `/` and a `#`. -/
structure FileAddress where
  directories : List String
  stem : String
  containers : List String
  last : String
  isDirectoryName : ∀ name ∈ directories, IsDirectoryName name
  stem_no_slash : '/' ∉ stem.toList
  stem_no_hash : '#' ∉ stem.toList
  isContainer : ∀ segment ∈ containers, IsContainer segment
  isPlainName : IsPlainName last

namespace FileAddress

/-- The segments behind the file. -/
def inside (a : FileAddress) : Pathname := a.containers ++ [a.last]

/-- The path of an address. -/
def path (a : FileAddress) : Pathname := a.directories.map (· ++ "/") ++ [a.stem ++ "."] ++ a.inside

end FileAddress

/-! ## Where a file is cut -/

/-- Whether no segment ends behind a character, whatever follows. -/
def IsPlain (c : Char) : Prop := c ≠ '/' ∧ c ≠ '#' ∧ c ≠ '.'

/-- A segment goes on behind a plain character. -/
theorem IsPlain.unbroken {c : Char} (h : IsPlain c) (next : Char) : Unbroken c next := by
  refine ⟨h.1, ?_⟩
  rintro (hdot | hhash)
  · exact absurd hdot h.2.2
  · exact absurd hhash h.2.1

/-- Plain characters make one segment, with any character at its end. -/
theorem isChain_unbroken_concat {cs : List Char} (h : ∀ c ∈ cs, IsPlain c) (last : Char) :
    (cs ++ [last]).IsChain Unbroken := by
  induction cs with
  | nil => exact List.isChain_singleton _
  | cons c cs ih =>
    obtain ⟨hc, hcs⟩ := List.forall_mem_cons.mp h
    exact List.isChain_cons.mpr ⟨fun next _ => hc.unbroken next, ih hcs⟩

/-- The three characters are all that can end a segment. -/
theorem isPlain_of_not_mem {cs : List Char} (hslash : '/' ∉ cs) (hhash : '#' ∉ cs)
    (hdot : '.' ∉ cs) :
    ∀ c ∈ cs, IsPlain c := by
  intro c hc
  exact ⟨fun h => hslash (h ▸ hc), fun h => hhash (h ▸ hc), fun h => hdot (h ▸ hc)⟩

theorem IsPlainName.isPlain {name : String} (h : IsPlainName name) : ∀ c ∈ name.toList, IsPlain c :=
  isPlain_of_not_mem h.no_slash h.no_hash h.no_dot

/-- Nothing is cut inside the name of a directory. -/
theorem IsDirectoryName.isChain_unbroken {name : String} (h : IsDirectoryName name) :
    (name ++ "/").toList.IsChain Unbroken := by
  by_cases hdot : '.' ∈ name.toList
  · rcases h.dots hdot with rfl | rfl
    · decide
    · decide
  · rw [String.toList_append]
    exact isChain_unbroken_concat (isPlain_of_not_mem h.no_slash h.no_hash hdot) '/'

/-- A path goes on canonically where its last segment ends before the next one. -/
theorem Canonical.append {a b : Pathname} (ha : a.Canonical) (hb : b.Canonical)
    (h : ∀ segment ∈ a.getLast?, ∀ next ∈ b.head?, EndsBefore segment next) : Canonical (a ++ b) :=
  ⟨List.forall_mem_append.mpr ⟨ha.nonempty, hb.nonempty⟩, ha.ends.append hb.ends h,
    List.forall_mem_append.mpr ⟨ha.unbroken, hb.unbroken⟩⟩

theorem endsIn_slash (name : String) : endsIn '/' (name ++ "/") = true := by simp [endsIn]

/-- The segments of directories all end in a `/`. -/
theorem endsIn_slash_of_mem_map {names : List String} :
    ∀ segment ∈ names.map (· ++ "/"), endsIn '/' segment = true := by
  intro segment hsegment
  obtain ⟨name, -, rfl⟩ := List.mem_map.mp hsegment
  exact endsIn_slash name

/-- A way through directories is cut behind each `/`, and nowhere else. -/
theorem canonical_directories {names : List String} (h : ∀ name ∈ names, IsDirectoryName name) :
    Canonical (names.map (· ++ "/")) := by
  induction names with
  | nil => exact canonical_nil
  | cons name names ih =>
    obtain ⟨hname, hnames⟩ := List.forall_mem_cons.mp h
    refine canonical_cons_iff.mpr ⟨by simp, hname.isChain_unbroken, ?_, ih hnames⟩
    intro next _
    exact Or.inl (endsIn_slash name)

/-- **A stem is cut into segments that all end in a dot.** The induction is on what is left of the
stem; its characters can only be cut behind a dot, and the dot behind it ends the last segment. -/
theorem endsIn_dot_of_mem_parseFrom {stem : List Char} (hslash : '/' ∉ stem) (hhash : '#' ∉ stem)
    (current : List Char) :
    ∀ segment ∈ parseFrom current (stem ++ ['.']), endsIn '.' segment = true := by
  induction stem generalizing current with
  | nil =>
    have hend : parseFrom current ([] ++ ['.']) = [String.ofList ('.' :: current).reverse] := rfl
    rw [hend]
    simp [endsIn]
  | cons c stem ih =>
    rw [List.mem_cons, not_or] at hslash hhash
    rw [List.cons_append, parseFrom]
    split
    · rename_i hboundary
      have hdot : c = '.' := by
        simp only [isBoundary, Bool.or_eq_true, Bool.and_eq_true, beq_iff_eq] at hboundary
        rcases hboundary with hc | ⟨hc | hc, -⟩
        · exact absurd hc.symm hslash.1
        · exact hc
        · exact absurd hc.symm hhash.1
      refine List.forall_mem_cons.mpr ⟨?_, ih hslash.2 hhash.2 []⟩
      simp [hdot, endsIn]
    · exact ih hslash.2 hhash.2 (c :: current)

/-! ## Finding a stem -/

/-- **A run of dotted segments is put together** behind what stands before it, if something is left
behind the run. -/
theorem mem_mergedStems {stem : String} {run rest : Pathname}
    (hrun : ∀ segment ∈ run, endsIn '.' segment = true) (hne : run ≠ []) (hrest : rest ≠ [])
    (hstem : stem ≠ "") :
    (stem ++ text run) :: rest ∈ mergedStems stem (run ++ rest) := by
  induction run generalizing stem with
  | nil => exact absurd rfl hne
  | cons segment run ih =>
    obtain ⟨hsegment, hrun⟩ := List.forall_mem_cons.mp hrun
    refine mem_mergedStems_cons.mpr ⟨hsegment, ?_⟩
    -- the run ends with this segment, or there is more to put together
    by_cases hlast : run = []
    · subst hlast
      refine Or.inl ⟨hstem, hrest, ?_⟩
      rw [text_cons, text_nil, String.append_empty]
      rfl
    · refine Or.inr ?_
      have hmerged : stem ++ segment ≠ "" :=
        fun hempty => hstem (String.append_eq_empty_iff.mp hempty).1
      rw [text_cons, ← String.append_assoc]
      exact ih hrun hlast hmerged

/-- Behind the directories is all that comes after the last `/`. -/
theorem behindDirectories_append {above behind : Pathname}
    (habove : ∀ segment ∈ above, endsIn '/' segment = true)
    (hbehind : ∀ segment ∈ behind, endsIn '/' segment = false) :
    behindDirectories (above ++ behind) = behind := by
  -- backwards from the end, the last directory is where the search stops
  have hstop : above.reverse.takeWhile (fun segment => !endsIn '/' segment) = [] := by
    cases hhead : above.reverse with
    | nil => rfl
    | cons last front =>
      have hlast : last ∈ above := List.mem_reverse.mp (hhead ▸ List.mem_cons_self)
      simp [habove last hlast]
  rw [behindDirectories, List.reverse_append, List.takeWhile_append_of_pos, hstop, List.append_nil,
    List.reverse_reverse]
  intro segment hsegment
  simp [hbehind segment (List.mem_reverse.mp hsegment)]

/-- The directories are what comes before it. -/
theorem directories_append {above behind : Pathname}
    (habove : ∀ segment ∈ above, endsIn '/' segment = true)
    (hbehind : ∀ segment ∈ behind, endsIn '/' segment = false) :
    directories (above ++ behind) = above := by
  have hsplit := directories_append_behindDirectories (above ++ behind)
  rw [behindDirectories_append habove hbehind] at hsplit
  exact List.append_cancel_right hsplit

/-! ## Behind the file -/

/-- Nothing is cut inside the name of a declaration. -/
theorem IsPlainName.isChain_unbroken {name : String} (h : IsPlainName name) :
    name.toList.IsChain Unbroken :=
  (isChain_unbroken_concat h.isPlain '.').left_of_append

/-- What ends in `.` or `#` ends before a name, and before a name with something behind it. -/
theorem IsPlainName.endsBefore {name : String} (h : IsPlainName name) {segment : String}
    (hsegment : endsIn '.' segment = true ∨ endsIn '#' segment = true) (more : String) :
    EndsBefore segment (name ++ more) := by
  -- the next segment starts with the first character of the name
  have hchars : name.toList ≠ [] := fun hnil => h.ne_empty (String.toList_eq_nil_iff.mp hnil)
  refine Or.inr ⟨hsegment, ?_, ?_⟩
  all_goals
    rw [startsIn, String.toList_append, List.head?_append_of_ne_nil _ hchars, beq_iff_eq]
    intro hfirst
  · exact h.no_dot (List.mem_of_head? hfirst)
  · exact h.no_slash (List.mem_of_head? hfirst)

/-- A container ends in the delimiter that joins it to what it contains. -/
theorem IsContainer.ends {segment : String} (h : IsContainer segment) :
    endsIn '.' segment = true ∨ endsIn '#' segment = true := by
  obtain ⟨name, -, rfl | rfl⟩ := h
  · exact Or.inl (by simp [endsIn])
  · exact Or.inr (by simp [endsIn])

namespace FileAddress

variable (a : FileAddress)

/-- What ends in `.` or `#` ends before the segments behind the file. -/
theorem endsBefore_inside {segment : String}
    (hsegment : endsIn '.' segment = true ∨ endsIn '#' segment = true) :
    ∀ next ∈ a.inside, EndsBefore segment next := by
  intro next hnext
  rcases List.mem_append.mp hnext with hnext | hnext
  · obtain ⟨name, hname, rfl | rfl⟩ := a.isContainer next hnext
    · exact hname.endsBefore hsegment "."
    · exact hname.endsBefore hsegment "#"
  · have hlast := a.isPlainName.endsBefore hsegment ""
    rw [String.append_empty] at hlast
    rwa [List.mem_singleton.mp hnext]

/-- The scan finds the segments behind the file from their text. -/
theorem canonical_inside : a.inside.Canonical := by
  refine ⟨?_, ?_, ?_⟩
  · -- containers and the last name alike are cut nowhere inside
    intro segment hsegment
    rcases List.mem_append.mp hsegment with hmem | hmem
    · rcases (a.isContainer segment hmem).ends with hends | hends
      · exact ne_empty_of_endsIn hends
      · exact ne_empty_of_endsIn hends
    · rw [List.mem_singleton.mp hmem]
      exact a.isPlainName.ne_empty
  · -- a container ends before every segment behind the file, not only before the next one
    refine List.isChain_append.mpr ⟨?_, List.isChain_singleton _, ?_⟩
    · refine List.Pairwise.isChain (List.pairwise_of_forall_mem_list ?_)
      intro segment hsegment next hnext
      exact a.endsBefore_inside (a.isContainer segment hsegment).ends next
        (List.mem_append_left _ hnext)
    · intro segment hsegment next hnext
      have hcontainer := a.isContainer segment (List.mem_of_getLast? hsegment)
      exact a.endsBefore_inside hcontainer.ends next
        (List.mem_append_right _ (List.mem_of_head? hnext))
  · intro segment hsegment
    rcases List.mem_append.mp hsegment with hmem | hmem
    · obtain ⟨name, hname, rfl | rfl⟩ := a.isContainer segment hmem
      all_goals
        rw [String.toList_append]
        exact isChain_unbroken_concat hname.isPlain _
    · rw [List.mem_singleton.mp hmem]
      exact a.isPlainName.isChain_unbroken

/-- There are no directories behind the file. -/
theorem endsIn_slash_of_mem_inside : ∀ segment ∈ a.inside, endsIn '/' segment = false := by
  intro segment hsegment
  rcases List.mem_append.mp hsegment with hmem | hmem
  · rcases (a.isContainer segment hmem).ends with hends | hends
    · exact endsIn_eq_false_of_endsIn hends (by decide)
    · exact endsIn_eq_false_of_endsIn hends (by decide)
  · rw [List.mem_singleton.mp hmem, endsIn, beq_eq_false_iff_ne]
    intro hlast
    exact a.isPlainName.no_slash (List.mem_of_getLast? hlast)

/-! ## Addresses are found again -/

/-- The segments that the stem is cut into. -/
def cutStem : Pathname := parse (a.stem ++ ".")

/-- The stem is a run of segments that can be put together. -/
theorem endsIn_dot_of_mem_cutStem : ∀ segment ∈ a.cutStem, endsIn '.' segment = true := by
  rw [cutStem, parse, String.toList_append]
  exact endsIn_dot_of_mem_parseFrom a.stem_no_slash a.stem_no_hash []

/-- The text of an address is split into its directories, the segments of the stem, and the segments
behind it. -/
theorem parse_path :
    parse a.path.text = a.directories.map (· ++ "/") ++ (a.cutStem ++ a.inside) := by
  -- the scan finds a canonical path from its text, so the pieces need not be followed through the
  -- scan
  have hbehind : Canonical (a.cutStem ++ a.inside) := by
    refine (canonical_parse _).append a.canonical_inside ?_
    intro segment hsegment next hnext
    have hdot := a.endsIn_dot_of_mem_cutStem segment (List.mem_of_getLast? hsegment)
    exact a.endsBefore_inside (Or.inl hdot) next (List.mem_of_head? hnext)
  have hall : Canonical (a.directories.map (· ++ "/") ++ (a.cutStem ++ a.inside)) := by
    refine (canonical_directories a.isDirectoryName).append hbehind ?_
    intro segment hsegment next _
    exact Or.inl (endsIn_slash_of_mem_map _ (List.mem_of_getLast? hsegment))
  have htext : text (a.directories.map (· ++ "/") ++ (a.cutStem ++ a.inside)) = a.path.text := by
    simp only [path, cutStem, text_append, text_parse, text_cons, text_nil, String.append_empty,
      String.append_assoc]
  rw [← htext]
  exact hall.parse_text

/-- **An address is one of the ways to split its text.** -/
theorem path_mem_parseAlternatives : a.path ∈ parseAlternatives a.path.text := by
  have hinside : a.inside ≠ [] := List.append_ne_nil_of_right_ne_nil _ (List.cons_ne_nil _ _)
  have habove : ∀ segment ∈ a.directories.map (· ++ "/"), endsIn '/' segment = true :=
    endsIn_slash_of_mem_map
  have hbehind : ∀ segment ∈ a.cutStem ++ a.inside, endsIn '/' segment = false := by
    intro segment hsegment
    rcases List.mem_append.mp hsegment with hmem | hmem
    · exact endsIn_eq_false_of_endsIn (a.endsIn_dot_of_mem_cutStem segment hmem) (by decide)
    · exact a.endsIn_slash_of_mem_inside segment hmem
  have htext : a.cutStem.text = a.stem ++ "." := text_parse _
  have hdots := a.endsIn_dot_of_mem_cutStem
  have hpath : a.path = a.directories.map (· ++ "/") ++ (a.cutStem.text :: a.inside) := by
    rw [path, htext, List.append_assoc, List.singleton_append]
  rw [parseAlternatives, parse_path, directories_append habove hbehind,
    behindDirectories_append habove hbehind]
  -- a stem in one piece is what the scan finds, and one in more pieces is put together
  cases hcut : a.cutStem with
  | nil =>
    -- not even an empty stem comes to nothing, as there is a dot behind it
    rw [hcut, text_nil] at htext
    exact absurd (String.append_eq_empty_iff.mp htext.symm).2 (by decide)
  | cons segment run =>
    rw [hcut] at hdots hpath
    obtain ⟨hsegment, hrun⟩ := List.forall_mem_cons.mp hdots
    by_cases hone : run = []
    · subst hone
      rw [hpath, text_cons, text_nil, String.append_empty]
      exact List.mem_cons_self
    · refine List.mem_cons_of_mem _
        (List.mem_map.mpr ⟨text (segment :: run) :: a.inside, ?_, hpath.symm⟩)
      refine mem_mergedStems_cons.mpr ⟨hsegment, Or.inr ?_⟩
      rw [String.empty_append, text_cons]
      exact mem_mergedStems hrun hone hinside (ne_empty_of_endsIn hsegment)

end FileAddress

/-- **The ways to split a text are sound, all different, and complete for stems with dots.** The
first way is that of the scan, each way has the text and no empty segment, and each has fewer
segments than those before it. The path of an address is among the ways to split its text, whatever
dots the stem has. -/
theorem parseAlternatives_spec :
    (∀ s, (parseAlternatives s).head? = some (parse s)
      ∧ (∀ path ∈ parseAlternatives s, path.text = s ∧ ∀ segment ∈ path, segment ≠ "")
      ∧ (parseAlternatives s).Pairwise fun a b => b.length < a.length)
    ∧ ∀ a : FileAddress, a.path ∈ parseAlternatives a.path.text := by
  refine ⟨fun s => ⟨rfl, ?_, pairwise_parseAlternatives s⟩, FileAddress.path_mem_parseAlternatives⟩
  intro path hpath
  exact ⟨text_of_mem_parseAlternatives hpath, ne_empty_of_mem_parseAlternatives hpath⟩

/-- A stem with dots in front, in a row and at its end, in a file that is reached from the directory
above. -/
def trickyAddress : FileAddress where
  directories := ["..", "lib"]
  stem := "..index..d."
  containers := ["Store#", "entry."]
  last := "key"
  isDirectoryName := by
    intro name hname
    rcases List.mem_cons.mp hname with rfl | hname
    · exact ⟨by decide, by decide, by decide⟩
    · rw [List.mem_singleton.mp hname]
      exact ⟨by decide, by decide, by decide⟩
  stem_no_slash := by decide
  stem_no_hash := by decide
  isContainer := by
    intro segment hsegment
    rcases List.mem_cons.mp hsegment with rfl | hsegment
    · exact ⟨"Store", ⟨by decide, by decide, by decide, by decide⟩, Or.inr rfl⟩
    · rw [List.mem_singleton.mp hsegment]
      exact ⟨"entry", ⟨by decide, by decide, by decide, by decide⟩, Or.inl rfl⟩
  isPlainName := ⟨by decide, by decide, by decide, by decide⟩

/-- The scan cuts the stem in three, and it is put together again. -/
theorem parseAlternatives_spec_trickyAddress :
    trickyAddress.path.text = "../lib/..index..d..Store#entry.key"
      ∧ parse "../lib/..index..d..Store#entry.key"
        = ["../", "lib/", "..", "index..", "d..", "Store#", "entry.", "key"]
      ∧ ["../", "lib/", "..index..d..", "Store#", "entry.", "key"]
          ∈ parseAlternatives "../lib/..index..d..Store#entry.key" :=
  ⟨by decide, by decide, parseAlternatives_spec.2 trickyAddress⟩

end DocAtlas.Pathname
