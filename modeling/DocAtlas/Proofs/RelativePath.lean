import DocAtlas.Path.FilePath
import Mathlib.Data.List.Basic

/-!
Relative paths undo joining.

A file that is given by ordinary names behind a base directory is seen from that directory under
these names again (`relativeTo_join`). The base is arbitrary: whatever its slashes, dots and `..`
come to, they come to the same in front of the names (`normalized_join_names`), so they are a common
beginning and fall away.
-/

set_option autoImplicit false

namespace DocAtlas.FilePath

/-- A part of a path that names a file or a directory. -/
structure Ordinary (part : String) : Prop where
  ne_empty : part ≠ ""
  ne_dot : part ≠ "."
  ne_dots : part ≠ ".."
  no_slash : '/' ∉ part.toList

instance (part : String) : Decidable (Ordinary part) :=
  decidable_of_iff (part ≠ "" ∧ part ≠ "." ∧ part ≠ ".." ∧ '/' ∉ part.toList)
    ⟨fun ⟨ne_empty, ne_dot, ne_dots, no_slash⟩ => ⟨ne_empty, ne_dot, ne_dots, no_slash⟩,
      fun h => ⟨h.ne_empty, h.ne_dot, h.ne_dots, h.no_slash⟩⟩

/-- A part of a path that is one of its components: a name, or `..`. -/
structure IsComponent (part : String) : Prop where
  ne_empty : part ≠ ""
  ne_dot : part ≠ "."
  no_slash : '/' ∉ part.toList

/-- A name is a component. -/
theorem Ordinary.isComponent {part : String} (h : Ordinary part) : IsComponent part :=
  ⟨h.ne_empty, h.ne_dot, h.no_slash⟩

/-- A path behind a base directory, with a slash between them if the base needs one. An absolute
path stays what it is. -/
def join (base path : String) : String :=
  if isAbsolute path then path
  else if base.isEmpty || endsIn '/' base then base ++ path
  else base ++ "/" ++ path

/-- The ways in which a relative path is put behind a base. -/
theorem join_cases (base : String) {path : String} (h : isAbsolute path = false) :
    (base = "" ∧ join base path = path) ∨
      (base ≠ "" ∧ endsIn '/' base = true ∧ join base path = base ++ path) ∨
      (base ≠ "" ∧ join base path = base ++ "/" ++ path) := by
  rw [join, h, if_neg Bool.false_ne_true]
  by_cases hempty : base = ""
  · subst hempty
    exact .inl ⟨rfl, (if_pos (by decide)).trans String.empty_append⟩
  · have hisEmpty : base.isEmpty = false := by simpa [String.isEmpty_iff] using hempty
    rw [hisEmpty, Bool.false_or]
    by_cases hslash : endsIn '/' base = true
    · exact .inr (.inl ⟨hempty, hslash, if_pos hslash⟩)
    · exact .inr (.inr ⟨hempty, if_neg hslash⟩)

/-- What a relative path is put behind says where the two start. -/
theorem isAbsolute_join (base : String) {path : String} (h : isAbsolute path = false) :
    isAbsolute (join base path) = isAbsolute base := by
  rcases join_cases base h with ⟨rfl, hjoin⟩ | ⟨hbase, -, hjoin⟩ | ⟨hbase, hjoin⟩
  · rw [hjoin, h]
    rfl
  · rw [hjoin, isAbsolute, String.toList_append,
      List.head?_append_of_ne_nil _ (by simpa using hbase), isAbsolute]
  · rw [hjoin, isAbsolute, String.toList_append, String.toList_append, List.append_assoc,
      List.head?_append_of_ne_nil _ (by simpa using hbase), isAbsolute]

/-! ## Parts -/

/-- Splitting gives one part at least, if only an empty one. -/
theorem splitAt_ne_nil (sep : Char) (cs : List Char) : splitAt sep cs ≠ [] := by
  cases cs with
  | nil => exact List.cons_ne_nil _ _
  | cons c cs =>
    rw [splitAt]
    split
    · exact List.cons_ne_nil _ _
    · split <;> exact List.cons_ne_nil _ _

/-- What stands before a separator is split apart from what stands behind it. -/
theorem splitAt_append (sep : Char) (a b : List Char) :
    splitAt sep (a ++ sep :: b) = splitAt sep a ++ splitAt sep b := by
  induction a with
  | nil =>
    rw [List.nil_append, splitAt.eq_2, if_pos rfl]
    rfl
  | cons c a ih =>
    rw [List.cons_append, splitAt, splitAt, ih]
    -- a separator in front closes a part, and any other character joins the first part
    by_cases hc : c = sep
    · rw [if_pos hc, if_pos hc, List.cons_append]
    · rw [if_neg hc, if_neg hc]
      cases h : splitAt sep a with
      | nil => exact absurd h (splitAt_ne_nil sep a)
      | cons part parts => rfl

/-- Without a separator there is one part. -/
theorem splitAt_of_not_mem {sep : Char} {cs : List Char} (h : sep ∉ cs) :
    splitAt sep cs = [cs] := by
  induction cs with
  | nil => rfl
  | cons c cs ih =>
    rw [List.mem_cons, not_or] at h
    rw [splitAt, if_neg (Ne.symm h.1), ih h.2]

/-- A slash between two paths separates their parts. -/
theorem parts_append_slash (a b : String) : parts (a ++ "/" ++ b) = parts a ++ parts b := by
  have hlist : (a ++ "/" ++ b).toList = a.toList ++ '/' :: b.toList := by simp
  rw [parts, hlist, splitAt_append, List.map_append, parts, parts]

/-- A path without slashes is one part. -/
theorem parts_of_no_slash {part : String} (h : '/' ∉ part.toList) : parts part = [part] := by
  rw [parts, splitAt_of_not_mem h, List.map_singleton, String.ofList_toList]

/-- Names with slashes between them are taken apart again. -/
theorem parts_intercalate {names : List String} (hne : names ≠ [])
    (h : ∀ name ∈ names, '/' ∉ name.toList) :
    parts ("/".intercalate names) = names := by
  induction names with
  | nil => exact absurd rfl hne
  | cons name names ih =>
    obtain ⟨hname, hnames⟩ := List.forall_mem_cons.mp h
    cases names with
    | nil => rw [String.intercalate_singleton, parts_of_no_slash hname]
    | cons next names =>
      rw [String.intercalate_cons_cons, parts_append_slash, parts_of_no_slash hname,
        ih (List.cons_ne_nil _ _) hnames]
      rfl

/-! ## Components -/

/-- A slash between two paths separates their components. -/
theorem components_append_slash (a b : String) :
    components (a ++ "/" ++ b) = components a ++ components b := by
  rw [components, parts_append_slash, List.filter_append, components, components]

@[simp] theorem components_empty : components "" = [] := by decide

/-- A slash at the end of a base makes no difference to its components. -/
theorem components_of_endsIn_slash {base : String} (h : endsIn '/' base = true) :
    ∃ front, base = front ++ "/" ∧ components base = components front := by
  rw [endsIn, beq_iff_eq, List.getLast?_eq_some_iff] at h
  obtain ⟨front, hfront⟩ := h
  have hbase : base = String.ofList front ++ "/" := by
    rw [← String.toList_inj, hfront]
    simp
  refine ⟨String.ofList front, hbase, ?_⟩
  -- behind the last slash there is an empty part, which is no component
  have hparts := components_append_slash (String.ofList front) ""
  rw [String.append_empty, ← hbase, components_empty, List.append_nil] at hparts
  exact hparts

/-- A base and a path behind it keep their components. -/
theorem components_join (base : String) {path : String} (h : isAbsolute path = false) :
    components (join base path) = components base ++ components path := by
  rcases join_cases base h with ⟨rfl, hjoin⟩ | ⟨-, hslash, hjoin⟩ | ⟨-, hjoin⟩
  · rw [hjoin, components_empty, List.nil_append]
  · obtain ⟨front, hbase, hfront⟩ := components_of_endsIn_slash hslash
    rw [hjoin, hfront, hbase, components_append_slash]
  · rw [hjoin, components_append_slash]

/-- Components with slashes between them are taken apart again. -/
theorem components_intercalate {steps : List String} (h : ∀ step ∈ steps, IsComponent step) :
    components ("/".intercalate steps) = steps := by
  by_cases hne : steps = []
  · subst hne
    exact components_empty
  · rw [components, parts_intercalate hne fun step hstep => (h step hstep).no_slash,
      List.filter_eq_self]
    intro step hstep
    simp [(h step hstep).ne_empty, (h step hstep).ne_dot]

/-- Components with slashes between them are a relative path. -/
theorem isAbsolute_intercalate {steps : List String} (h : ∀ step ∈ steps, IsComponent step) :
    isAbsolute ("/".intercalate steps) = false := by
  cases steps with
  | nil => rfl
  | cons step steps =>
    have hstep := h step List.mem_cons_self
    -- the first character is that of the first component, which is not a slash
    have hfirst : ("/".intercalate (step :: steps)).toList.head? = step.toList.head? := by
      cases steps with
      | nil => rw [String.intercalate_singleton]
      | cons next steps =>
        rw [String.intercalate_cons_cons, String.toList_append, String.toList_append,
          List.append_assoc]
        exact List.head?_append_of_ne_nil _ (by simpa using hstep.ne_empty)
    rw [isAbsolute, hfirst, beq_eq_false_iff_ne]
    intro hslash
    exact hstep.no_slash (List.mem_of_head? hslash)

/-- A name goes one level down. -/
theorem applyComponent_of_ne_dots {name : String} (h : name ≠ "..") (above : List String) :
    applyComponent above name = name :: above :=
  if_neg h

/-- Names are put behind the components that are there. -/
theorem foldl_applyComponent {names : List String} (h : ".." ∉ names) (above : List String) :
    names.foldl applyComponent above = names.reverse ++ above := by
  induction names generalizing above with
  | nil => rfl
  | cons name names ih =>
    obtain ⟨hname, hnames⟩ := List.ne_and_not_mem_of_not_mem_cons h
    rw [List.foldl_cons, ih hnames, applyComponent_of_ne_dots hname.symm, List.reverse_cons,
      List.append_assoc]
    rfl

/-- Behind a base, the components of a relative path are applied to those of the base. -/
theorem normalized_join (base : String) {path : String} (h : isAbsolute path = false) :
    normalized (join base path)
      = ((components path).foldl applyComponent (normalized base).reverse).reverse := by
  rw [normalized, components_join base h, List.foldl_append, normalized, List.reverse_reverse]

/-! ## Segments -/

/-- A file has at least one segment. -/
theorem segments_ne_nil {file : String} (h : file ≠ "") : segments file ≠ [] := by
  have hempty : file.isEmpty = false := by simpa [String.isEmpty_iff] using h
  rw [segments, hempty, if_neg Bool.false_ne_true]
  exact List.append_ne_nil_of_right_ne_nil _ (List.cons_ne_nil _ _)

/-! ## Ordinary names behind a base -/

/-- A path and a beginning of it have that beginning in common. -/
theorem commonLength_append (front back : List String) :
    commonLength (front ++ back) front = front.length := by
  induction front with
  | nil => cases back <;> rfl
  | cons name front ih => rw [List.cons_append, commonLength, if_pos rfl, ih, List.length_cons]

section

variable {names : List String} (hne : names ≠ []) (h : ∀ name ∈ names, Ordinary name)

include h in
theorem isComponent_of_ordinary : ∀ name ∈ names, IsComponent name :=
  fun name hname => (h name hname).isComponent

include hne h

/-- A file behind at least one name has a name. -/
theorem intercalate_ne_empty : "/".intercalate names ≠ "" := by
  intro hempty
  have hnames := components_intercalate (isComponent_of_ordinary h)
  rw [hempty, components_empty] at hnames
  exact hne hnames.symm

/-- And so it does behind any base. -/
theorem join_ne_empty (base : String) : join base ("/".intercalate names) ≠ "" := by
  have hname := intercalate_ne_empty hne h
  have hrelative := isAbsolute_intercalate (isComponent_of_ordinary h)
  rcases join_cases base hrelative with ⟨-, hjoin⟩ | ⟨-, -, hjoin⟩ | ⟨-, hjoin⟩ <;> rw [hjoin]
  · exact hname
  · exact fun hempty => hname (String.append_eq_empty_iff.mp hempty).2
  · exact fun hempty => hname (String.append_eq_empty_iff.mp hempty).2

omit hne in
/-- Behind a base, ordinary names are normalized to themselves, whatever the base is normalized
to. -/
theorem normalized_join_names (base : String) :
    normalized (join base ("/".intercalate names)) = normalized base ++ names := by
  have hnames := isComponent_of_ordinary h
  have hdots : ".." ∉ names := fun hmem => (h ".." hmem).ne_dots rfl
  rw [normalized_join base (isAbsolute_intercalate hnames), components_intercalate hnames,
    foldl_applyComponent hdots, List.reverse_append, List.reverse_reverse, List.reverse_reverse]

/-- **Seen from the base, a file behind the base has its own name.** -/
theorem relativeTo_join (base : String) :
    relativeTo (join base ("/".intercalate names)) base = "/".intercalate names := by
  have hnames : names.isEmpty = false := by simpa using hne
  have hrelative := isAbsolute_intercalate (isComponent_of_ordinary h)
  -- the base is the common beginning, so there are no steps up and the names are left
  rw [relativeTo, isAbsolute_join base hrelative, normalized_join_names h, bne_self_eq_false]
  simp only [commonLength_append, Nat.sub_self, List.replicate_zero, List.nil_append,
    List.drop_left, hnames, Bool.false_eq_true, if_false]

end

end DocAtlas.FilePath
