import DocAtlas.Proofs.MergedText
import DocAtlas.Proofs.TypeRendering

/-!
Reading a type off its text.

The types here are put together from names with arrays, tuples, unions, intersections and `keyof`
(`TypeExpr.Composed`), and no brackets are written around operands. What binds the operands is the
strength of the connectives: `[]` before `keyof`, `keyof` before `&`, `&` before `|`. Where every
operand binds as strongly as its place asks for, no brackets are missing (`TypeExpr.Unbracketed`),
and the text is read in one way only (`TypeExpr.Unbracketed.eq_of_chars_eq`).

A type is told from every other one by what its text begins with, together with what may follow at
its place (`TypeExpr.Told`). A place in a union may be followed by a `|`, one in an intersection by
a blank, too, and so on, so there is one such fact for each strength, and each one gives the next
weaker one (`TypeExpr.told_series`).
-/

set_option autoImplicit false

namespace DocAtlas

/-! ## Connectives -/

/-- The connectives that have types in a row. -/
inductive Series where
  | union
  | intersection
  deriving DecidableEq, Repr

namespace Series

/-- Types in a row, as one. -/
def kind : Series → List TypeExpr → TypeKind
  | .union, types => .union types
  | .intersection, types => .intersection types

/-- What stands between the types. -/
def sign : Series → String
  | .union => "|"
  | .intersection => " & "

/-- How strongly the types are held together. -/
def strength : Series → Nat
  | .union => 0
  | .intersection => 1

end Series

/-- The connectives that are written with a sign before, behind or between types. -/
inductive Connective where
  | series (s : Series)
  | keyof
  | array
  deriving DecidableEq, Repr

/-- How strongly an operand has to bind to need no brackets. The types of a row have to bind more
strongly than the row, while `keyof` and `[]` can be repeated. -/
def Connective.demand : Connective → Nat
  | .series s => s.strength + 1
  | .keyof => 2
  | .array => 3

/-- The characters that end a name. -/
def typeMarks : List Char := [',', ']', '|', ' ', '[']

/-- A name of a type: nothing in it stands before, behind or between types, and it is not
`keyof`. -/
structure IsTypeName (name : String) : Prop where
  ne_empty : name ≠ ""
  ne_keyof : name ≠ "keyof"
  no_mark : ∀ c ∈ name.toList, c ∉ typeMarks

/-- A word of letters is a name. -/
theorem isTypeName_of_isAlpha {name : String} (hne : name ≠ "") (hkeyof : name ≠ "keyof")
    (h : name.toList.all Char.isAlpha = true) : IsTypeName name := by
  have hmarks : (typeMarks.all fun c => !c.isAlpha) = true := by decide
  refine ⟨hne, hkeyof, fun c hc hmark => ?_⟩
  have hletter := List.all_eq_true.mp h c hc
  have hother := List.all_eq_true.mp hmarks c hmark
  rw [hletter] at hother
  cases hother

namespace TypeExpr

/-- How strongly a type binds as an operand: that of its outermost connective. What has none, or
brackets of its own, binds most strongly. -/
def strength (t : TypeExpr) : Nat :=
  match t.kind with
  | .union _ => 0
  | .intersection _ => 1
  | .operator _ _ => 2
  | .array _ => 3
  | _ => 4

/-- The types without arguments that are put together from names, where each operand fits its
connective. A row has at least two types. -/
inductive Composed (fits : Connective → TypeExpr → Prop) : TypeExpr → Prop where
  | name {name : String} (h : IsTypeName name) : Composed fits ⟨.intrinsic name, []⟩
  | tuple {types : List TypeExpr} (h : ∀ t ∈ types, Composed fits t) :
      Composed fits ⟨.tuple types, []⟩
  | array {t : TypeExpr} (h : Composed fits t) (hfits : fits .array t) :
      Composed fits ⟨.array t, []⟩
  | keyof {t : TypeExpr} (h : Composed fits t) (hfits : fits .keyof t) :
      Composed fits ⟨.operator "keyof" t, []⟩
  | series (s : Series) {types : List TypeExpr} (hlength : 2 ≤ types.length)
      (h : ∀ t ∈ types, Composed fits t) (hfits : ∀ t ∈ types, fits (.series s) t) :
      Composed fits ⟨s.kind types, []⟩

/-- Every operand binds as strongly as its place asks for, so no brackets are missing. -/
def Unbracketed (t : TypeExpr) : Prop := Composed (fun c operand => c.demand ≤ operand.strength) t

end TypeExpr

/-! ## What a reader sees -/

namespace TypeText

@[simp] theorem plain_text (s : String) : plain [.text s] = s := by
  rw [plain_cons, plain_nil, String.append_empty]
  rfl

@[simp] theorem plain_append (a b : TypeText) : plain (a ++ b) = plain a ++ plain b := by
  rw [plain, List.map_append, String.join_append, plain, plain]

@[simp] theorem plain_joined (separator : String) (parts : List TypeText) :
    plain (joined separator parts) = separator.intercalate (parts.map plain) := by
  induction parts with
  | nil => rfl
  | cons part parts ih =>
    cases parts with
    | nil => simp [joined]
    | cons next parts =>
      rw [joined, List.intercalate_cons_cons, plain_append, plain_append, plain_text, ← joined, ih,
        List.map_cons, List.map_cons, List.map_cons, String.intercalate_cons_cons]

end TypeText

namespace TypeExpr

variable (index : Index)

/-- The characters of a type as a reader sees it. -/
def chars (t : TypeExpr) : List Char := (renderType index t).value.plain.toList

/-- Merging texts does not change the characters, so they are those of the recursion. -/
theorem chars_eq (t : TypeExpr) : chars index t = (t.written index).value.plain.toList := by
  rw [chars, value_renderType, TypeText.plain_mergeTexts, typeTokens, tokensOf_eq]
  simp

/-- Without arguments, the characters are those of the root. -/
theorem chars_of_kind (kind : TypeKind) :
    chars index ⟨kind, []⟩ = (kind.written index).value.plain.toList := by
  rw [chars_eq, TypeExpr.written, writtenTypes]
  simp [TypeText.angled]

/-- The characters of types, one by one. -/
theorem map_toList_plain (types : List TypeExpr) :
    (types.map fun t => (t.written index).value.plain).map String.toList
      = types.map (chars index) := by
  rw [List.map_map]
  exact List.map_congr_left fun t _ => (chars_eq index t).symm

theorem chars_name (name : String) : chars index ⟨.intrinsic name, []⟩ = name.toList := by
  rw [chars_of_kind]
  simp [TypeKind.written]

theorem chars_array (t : TypeExpr) : chars index ⟨.array t, []⟩ = chars index t ++ ['[', ']'] := by
  rw [chars_of_kind, chars_eq]
  simp [TypeKind.written]

theorem chars_keyof (t : TypeExpr) :
    chars index ⟨.operator "keyof" t, []⟩ = "keyof ".toList ++ chars index t := by
  rw [chars_of_kind, chars_eq]
  simp [TypeKind.written, TypeText.plain_cons, TypeToken.shown]

theorem chars_series (s : Series) (types : List TypeExpr) :
    chars index ⟨s.kind types, []⟩ = s.sign.toList.intercalate (types.map (chars index)) := by
  rw [chars_of_kind, ← map_toList_plain, ← String.toList_intercalate]
  -- both signs stand between the types, so one rewriting does for the two
  cases s with
  | union => simp [TypeKind.written, Series.kind, Series.sign, Function.comp_def]
  | intersection => simp [TypeKind.written, Series.kind, Series.sign, Function.comp_def]

theorem chars_tuple (types : List TypeExpr) :
    chars index ⟨.tuple types, []⟩
      = '[' :: ([',', ' '].intercalate (types.map (chars index)) ++ [']']) := by
  rw [chars_of_kind, ← map_toList_plain]
  simp [TypeKind.written, TypeText.plain_cons, TypeToken.shown, String.toList_intercalate,
    Function.comp_def]

end TypeExpr

/-! ## What may follow -/

/-- A text ends here, or goes on with one of the marks. -/
def Stops (marks rest : List Char) : Prop := ∀ c ∈ rest.head?, c ∈ marks

theorem stops_cons {marks : List Char} {c : Char} (h : c ∈ marks) (rest : List Char) :
    Stops marks (c :: rest) := by
  intro first hfirst
  rwa [← Option.mem_some_iff.mp hfirst]

/-- More marks may follow. -/
theorem Stops.mono {marks more rest : List Char} (h : Stops marks rest) (hmore : marks ⊆ more) :
    Stops more rest :=
  fun c hc => hmore (h c hc)

/-- Nothing but a mark follows. -/
theorem Stops.ne_cons {marks rest : List Char} (h : Stops marks rest) {c : Char} (hc : c ∉ marks)
    (more : List Char) :
    rest ≠ c :: more := by
  rintro rfl
  exact hc (h c (Option.mem_some_self c))

/-- A word is as long as there is no mark. -/
theorem word_eq_of_append_eq {marks a b r s : List Char} (ha : ∀ c ∈ a, c ∉ marks)
    (hb : ∀ c ∈ b, c ∉ marks) (hr : Stops marks r) (hs : Stops marks s) (h : a ++ r = b ++ s) :
    a = b ∧ r = s := by
  induction a generalizing b with
  | nil =>
    cases b with
    | nil => exact ⟨rfl, h⟩
    | cons d b => exact absurd h (hr.ne_cons (hb d List.mem_cons_self) _)
  | cons c a ih =>
    obtain ⟨hc, ha⟩ := List.forall_mem_cons.mp ha
    cases b with
    | nil => exact absurd h.symm (hs.ne_cons hc _)
    | cons d b =>
      obtain ⟨rfl, hmore⟩ := List.cons.inj h
      obtain ⟨rfl, hrest⟩ := ih ha (List.forall_mem_cons.mp hb).2 hmore
      exact ⟨rfl, hrest⟩

/-- **Types in a row are told from each other one by one**, if each is told from the other at its
place, where the sign of the row may follow. The induction is on the first row: behind equal types
both rows end, or both go on. -/
theorem row_eq_of_append_eq {f : TypeExpr → List Char} {sign : List Char} {stops : List Char → Prop}
    (hsign : ∀ rest, stops (sign ++ rest)) {a b : List TypeExpr} (ha : a ≠ []) (hb : b ≠ [])
    (htold : ∀ t ∈ a, ∀ u ∈ b, ∀ r s, stops r → stops s → f t ++ r = f u ++ s → t = u ∧ r = s)
    {r s : List Char} (hr : stops r) (hs : stops s) (hr' : ¬ sign <+: r) (hs' : ¬ sign <+: s)
    (h : sign.intercalate (a.map f) ++ r = sign.intercalate (b.map f) ++ s) : a = b ∧ r = s := by
  induction a generalizing b with
  | nil => exact absurd rfl ha
  | cons t a ih =>
    cases b with
    | nil => exact absurd rfl hb
    | cons u b =>
      have hhere := htold t List.mem_cons_self u List.mem_cons_self
      have hlater : ∀ t ∈ a, ∀ u ∈ b, ∀ r s, stops r → stops s → f t ++ r = f u ++ s →
          t = u ∧ r = s :=
        fun t ht u hu => htold t (List.mem_cons_of_mem _ ht) u (List.mem_cons_of_mem _ hu)
      cases a with
      | nil =>
        cases b with
        | nil =>
          obtain ⟨rfl, hrest⟩ := hhere r s hr hs (by simpa using h)
          exact ⟨rfl, hrest⟩
        | cons u' b =>
          rw [List.map_cons, List.map_cons, List.map_cons, List.map_nil, List.intercalate_singleton,
            List.intercalate_cons_cons, List.append_assoc, List.append_assoc] at h
          obtain ⟨-, hrest⟩ := hhere _ _ hr (hsign _) h
          -- the second row goes on with its sign, which does not follow the first
          exact absurd ⟨_, hrest.symm⟩ hr'
      | cons t' a =>
        cases b with
        | nil =>
          rw [List.map_cons, List.map_cons, List.map_cons, List.map_nil, List.intercalate_singleton,
            List.intercalate_cons_cons, List.append_assoc, List.append_assoc] at h
          obtain ⟨-, hrest⟩ := hhere _ _ (hsign _) hs h
          exact absurd ⟨_, hrest⟩ hs'
        | cons u' b =>
          rw [List.map_cons, List.map_cons, List.map_cons, List.map_cons,
            List.intercalate_cons_cons, List.intercalate_cons_cons, List.append_assoc,
            List.append_assoc, List.append_assoc, List.append_assoc] at h
          obtain ⟨rfl, hmore⟩ := hhere _ _ (hsign _) (hsign _) h
          obtain ⟨hrow, hrest⟩ :=
            ih (List.cons_ne_nil _ _) (List.cons_ne_nil _ _) hlater (List.append_cancel_left hmore)
          exact ⟨congrArg (t :: ·) hrow, hrest⟩

/-- So many empty brackets. -/
def emptyBrackets : Nat → List Char
  | 0 => []
  | n + 1 => '[' :: ']' :: emptyBrackets n

theorem emptyBrackets_add (m n : Nat) :
    emptyBrackets (m + n) = emptyBrackets m ++ emptyBrackets n := by
  induction m with
  | zero => rw [Nat.zero_add, emptyBrackets, List.nil_append]
  | succ m ih =>
    rw [Nat.succ_add, emptyBrackets, ih, emptyBrackets, List.cons_append, List.cons_append]

/-- Empty brackets are told by their number, if no further bracket is opened behind them. -/
theorem emptyBrackets_eq_of_append_eq {m n : Nat} {r s : List Char} (hr : ∀ more, r ≠ '[' :: more)
    (hs : ∀ more, s ≠ '[' :: more) (h : emptyBrackets m ++ r = emptyBrackets n ++ s) :
    m = n ∧ r = s := by
  induction m generalizing n with
  | zero =>
    cases n with
    | zero => exact ⟨rfl, h⟩
    | succ n => exact absurd h (hr _)
  | succ m ih =>
    cases n with
    | zero => exact absurd h.symm (hs _)
    | succ n =>
      obtain ⟨rfl, hrest⟩ := ih (List.cons.inj (List.cons.inj h).2).2
      exact ⟨rfl, hrest⟩

/-- The marks that may follow a type at a place that asks for a strength. -/
def marksAt : Nat → List Char
  | 0 => [',', ']']
  | 1 => [',', ']', '|']
  | _ => [',', ']', '|', ' ']

/-- A name may have brackets behind it, and then what follows at its place. -/
theorem stops_emptyBrackets (n : Nat) {rest : List Char} (h : Stops (marksAt 2) rest) :
    Stops typeMarks (emptyBrackets n ++ rest) := by
  cases n with
  | zero => exact h.mono (by decide)
  | succ n => exact stops_cons (by decide) _

/-- The types of a row may be followed by its sign. -/
theorem stops_sign (s : Series) (rest : List Char) :
    Stops (marksAt (s.strength + 1)) (s.sign.toList ++ rest) := by
  cases s with
  | union => exact stops_cons (by decide) _
  | intersection => exact stops_cons (by decide) _

/-- A row itself is not: there the row would go on. -/
theorem not_begins_with_sign (s : Series) {rest : List Char} (h : Stops (marksAt s.strength) rest) :
    ¬ s.sign.toList <+: rest := by
  rintro ⟨more, rfl⟩
  cases s with
  | union => exact absurd rfl (h.ne_cons (c := '|') (by decide) more)
  | intersection => exact absurd rfl (h.ne_cons (c := ' ') (by decide) ('&' :: ' ' :: more))

/-- What may follow a row may follow its types, too. -/
theorem marksAt_subset (s : Series) : marksAt s.strength ⊆ marksAt (s.strength + 1) := by
  cases s with
  | union => decide
  | intersection => decide

namespace TypeExpr

/-! ## Rows -/

/-- The types of a row, and everything else on its own. -/
def operands (s : Series) (t : TypeExpr) : List TypeExpr :=
  match s, t.kind with
  | .union, .union types => types
  | .intersection, .intersection types => types
  | _, _ => [t]

theorem operands_series (s : Series) (types : List TypeExpr) :
    operands s ⟨s.kind types, []⟩ = types := by
  cases s <;> rfl

theorem strength_series (s : Series) (types : List TypeExpr) :
    strength ⟨s.kind types, []⟩ = s.strength := by
  cases s <;> rfl

/-- What binds more strongly than a row stands on its own. -/
theorem operands_of_lt {s : Series} {t : TypeExpr} (h : s.strength < t.strength) :
    operands s t = [t] := by
  obtain ⟨kind, arguments⟩ := t
  cases s with
  | union =>
    cases kind with
    | union types => exact absurd h (Nat.lt_irrefl 0)
    | _ => rfl
  | intersection =>
    cases kind with
    | intersection types => exact absurd h (Nat.lt_irrefl 1)
    | _ => rfl

/-- What binds as strongly as a row, or more strongly, is such a row or binds more strongly. -/
theorem Unbracketed.row_or_lt {s : Series} {t : TypeExpr} (h : t.Unbracketed)
    (hs : s.strength ≤ t.strength) :
    (∃ types, t = ⟨s.kind types, []⟩ ∧ 2 ≤ types.length
        ∧ ∀ u ∈ types, u.Unbracketed ∧ s.strength + 1 ≤ u.strength)
      ∨ s.strength < t.strength := by
  have hle : s.strength ≤ 1 := by cases s <;> decide
  cases h with
  | name h => exact Or.inr (Nat.lt_of_le_of_lt hle (by simp [strength]))
  | tuple h => exact Or.inr (Nat.lt_of_le_of_lt hle (by simp [strength]))
  | array h hfits => exact Or.inr (Nat.lt_of_le_of_lt hle (by simp [strength]))
  | keyof h hfits => exact Or.inr (Nat.lt_of_le_of_lt hle (by simp [strength]))
  | series s' hlength h hfits =>
    by_cases hsame : s' = s
    · subst hsame
      exact Or.inl ⟨_, rfl, hlength, fun u hu => ⟨h u hu, hfits u hu⟩⟩
    · rw [strength_series] at hs ⊢
      refine Or.inr (Nat.lt_of_le_of_ne hs ?_)
      revert hsame
      cases s <;> cases s' <;> decide

section

variable {s : Series} {t u : TypeExpr} (ht : t.Unbracketed) (hst : s.strength ≤ t.strength)
include ht hst

/-- A type is its operands, with signs between them. -/
theorem operands_spec (index : Index) :
    operands s t ≠ [] ∧ chars index t = s.sign.toList.intercalate ((operands s t).map (chars index))
      ∧ ∀ u ∈ operands s t, u.Unbracketed ∧ s.strength + 1 ≤ u.strength := by
  -- a row has its types as operands, and everything else is its own operand
  rcases ht.row_or_lt hst with ⟨types, rfl, hlength, htypes⟩ | hlt
  · rw [operands_series]
    refine ⟨?_, chars_series index s types, htypes⟩
    rintro rfl
    cases hlength
  · rw [operands_of_lt hlt]
    refine ⟨List.cons_ne_nil _ _, by rw [List.map_singleton, List.intercalate_singleton], ?_⟩
    intro u hu
    rw [List.mem_singleton.mp hu]
    exact ⟨ht, hlt⟩

/-- And no other type has them. -/
theorem eq_of_operands_eq (hu : u.Unbracketed) (hsu : s.strength ≤ u.strength)
    (h : operands s t = operands s u) :
    t = u := by
  -- a row has two types at least, so it is not on its own
  rcases ht.row_or_lt hst with ⟨types, rfl, hlength, -⟩ | hlt
  · rcases hu.row_or_lt hsu with ⟨others, rfl, -, -⟩ | hlt'
    · rw [operands_series, operands_series] at h
      rw [h]
    · rw [operands_series, operands_of_lt hlt'] at h
      rw [h, List.length_singleton] at hlength
      omega
  · rcases hu.row_or_lt hsu with ⟨others, rfl, hlength, -⟩ | hlt'
    · rw [operands_series, operands_of_lt hlt] at h
      rw [← h, List.length_singleton] at hlength
      omega
    · rw [operands_of_lt hlt, operands_of_lt hlt'] at h
      exact (List.cons.inj h).1

end

/-! ## Telling types from each other -/

variable (index : Index)

/-- At a place that asks for a strength, a type is told from all others there by its text. -/
def Told (k : Nat) (t : TypeExpr) : Prop :=
  ∀ u : TypeExpr, u.Unbracketed → k ≤ u.strength →
    ∀ r s, Stops (marksAt k) r → Stops (marksAt k) s →
      chars index t ++ r = chars index u ++ s → t = u ∧ r = s

/-- **A type is told at the place of a row if its operands are told at theirs.** -/
theorem told_series {s : Series} {t : TypeExpr} (ht : t.Unbracketed) (hst : s.strength ≤ t.strength)
    (h : ∀ u ∈ operands s t, Told index (s.strength + 1) u) : Told index s.strength t := by
  intro u hu hsu r r' hr hr' heq
  obtain ⟨hne, hchars, -⟩ := operands_spec ht hst index
  obtain ⟨hne', hchars', hoperands⟩ := operands_spec hu hsu index
  rw [hchars, hchars'] at heq
  have htold : ∀ x ∈ operands s t, ∀ y ∈ operands s u, ∀ r s', Stops (marksAt (s.strength + 1)) r →
      Stops (marksAt (s.strength + 1)) s' → chars index x ++ r = chars index y ++ s' →
      x = y ∧ r = s' :=
    fun x hx y hy => h x hx y (hoperands y hy).1 (hoperands y hy).2
  obtain ⟨hrow, hrest⟩ :=
    row_eq_of_append_eq (stops_sign s) hne hne' htold (hr.mono (marksAt_subset s))
    (hr'.mono (marksAt_subset s)) (not_begins_with_sign s hr) (not_begins_with_sign s hr') heq
  exact ⟨eq_of_operands_eq ht hst hu hsu hrow, hrest⟩

/-- What binds more strongly than a row is told in its place, too. -/
theorem told_of_lt {s : Series} {t : TypeExpr} (ht : t.Unbracketed) (hlt : s.strength < t.strength)
    (h : Told index (s.strength + 1) t) : Told index s.strength t := by
  refine told_series index ht (Nat.le_of_lt hlt) ?_
  rw [operands_of_lt hlt]
  exact List.forall_mem_singleton.mpr h

/-- What is told at the strongest place is told at the weaker ones. -/
theorem told_of_two {t : TypeExpr} (ht : t.Unbracketed) (hst : 2 ≤ t.strength)
    (h : Told index 2 t) :
    ∀ k ≤ 2, Told index k t := by
  have hone : Told index 1 t := told_of_lt index (s := .intersection) ht hst h
  have hzero : Told index 0 t :=
    told_of_lt index (s := .union) ht (Nat.lt_of_lt_of_le Nat.zero_lt_two hst) hone
  intro k hk
  obtain rfl | rfl | rfl : k = 0 ∨ k = 1 ∨ k = 2 := by omega
  · exact hzero
  · exact hone
  · exact h

/-! ## Arrays -/

/-- Arrays of arrays, so many times. -/
def arrays : Nat → TypeExpr → TypeExpr
  | 0, t => t
  | n + 1, t => arrays n ⟨.array t, []⟩

theorem arrays_array (n : Nat) (t : TypeExpr) :
    arrays n ⟨.array t, []⟩ = ⟨.array (arrays n t), []⟩ := by
  induction n generalizing t with
  | zero => rfl
  | succ n ih => rw [arrays, ih, arrays]

theorem arrays_arrays (m n : Nat) (t : TypeExpr) : arrays m (arrays n t) = arrays (n + m) t := by
  induction n generalizing t with
  | zero => rw [arrays, Nat.zero_add]
  | succ n ih => rw [arrays, ih, Nat.succ_add, arrays]

/-- The brackets of arrays of arrays stand behind the innermost type. -/
theorem chars_arrays (n : Nat) (t : TypeExpr) :
    chars index (arrays n t) = chars index t ++ emptyBrackets n := by
  induction n generalizing t with
  | zero => rw [arrays, emptyBrackets, List.append_nil]
  | succ n ih => rw [arrays, ih, chars_array, List.append_assoc, emptyBrackets]; rfl

/-- A name or a tuple. -/
def IsAtom (a : TypeExpr) : Prop :=
  (∃ name, IsTypeName name ∧ a = ⟨.intrinsic name, []⟩)
    ∨ ∃ types, (∀ t ∈ types, Unbracketed t) ∧ a = ⟨.tuple types, []⟩

/-- What binds as strongly as an array is an atom with brackets behind it. -/
theorem Unbracketed.exists_arrays {t : TypeExpr} (h : t.Unbracketed) (hst : 3 ≤ t.strength) :
    ∃ a n, IsAtom a ∧ t = arrays n a := by
  induction h with
  | name h => exact ⟨_, 0, Or.inl ⟨_, h, rfl⟩, rfl⟩
  | tuple h ih => exact ⟨_, 0, Or.inr ⟨_, h, rfl⟩, rfl⟩
  | array h hfits ih =>
    obtain ⟨a, n, hatom, rfl⟩ := ih hfits
    exact ⟨a, n + 1, hatom, (arrays_array n a).symm⟩
  | keyof h hfits ih => exact absurd hst (by simp [strength])
  | series s hlength h hfits ih =>
    rw [strength_series] at hst
    cases s <;> exact absurd hst (by decide)

/-- With so many brackets behind them, a type is told from all others that bind as strongly as an
array. -/
def ToldInArrays (t : TypeExpr) : Prop :=
  ∀ u : TypeExpr, u.Unbracketed → 3 ≤ u.strength →
    ∀ m n r s, Stops (marksAt 2) r → Stops (marksAt 2) s →
      chars index t ++ (emptyBrackets m ++ r) = chars index u ++ (emptyBrackets n ++ s) →
        arrays m t = arrays n u ∧ r = s

variable {index}

/-- What is told from names and tuples is told with brackets behind it: no name and no tuple ends in
empty brackets, so the brackets are counted. -/
theorem toldInArrays_of_atom {t : TypeExpr}
    (h : ∀ a, IsAtom a → ∀ r s, Stops typeMarks r → Stops typeMarks s →
      chars index t ++ r = chars index a ++ s → t = a ∧ r = s) :
    ToldInArrays index t := by
  intro u hu hsu m n r s hr hs heq
  obtain ⟨a, k, ha, rfl⟩ := hu.exists_arrays hsu
  rw [chars_arrays, List.append_assoc, ← List.append_assoc (emptyBrackets k), ← emptyBrackets_add]
    at heq
  obtain ⟨rfl, hbrackets⟩ :=
    h a ha _ _ (stops_emptyBrackets m hr) (stops_emptyBrackets (k + n) hs) heq
  -- behind the brackets none is opened, so both have as many of them
  have hopen : '[' ∉ marksAt 2 := by decide
  obtain ⟨rfl, hrest⟩ :=
    emptyBrackets_eq_of_append_eq (hr.ne_cons hopen) (hs.ne_cons hopen) hbrackets
  exact ⟨(arrays_arrays n k t).symm, hrest⟩

/-- One more pair of brackets changes nothing. -/
theorem ToldInArrays.array {t : TypeExpr} (h : ToldInArrays index t) :
    ToldInArrays index ⟨.array t, []⟩ := by
  intro u hu hsu m n r s hr hs heq
  rw [chars_array, List.append_assoc] at heq
  exact h u hu hsu (m + 1) n r s hr hs heq

/-! ## Names and tuples -/

/-- A row begins as its first type does. -/
theorem exists_first_of_row (sign : List Char) {types : List TypeExpr} (hne : types ≠ [])
    (h : ∀ t ∈ types, ∃ c cs, chars index t = c :: cs ∧ c ≠ ']') :
    ∃ c cs, sign.intercalate (types.map (chars index)) = c :: cs ∧ c ≠ ']' := by
  cases types with
  | nil => exact absurd rfl hne
  | cons t types =>
    obtain ⟨c, cs, hchars, hc⟩ := h t List.mem_cons_self
    rw [List.map_cons, hchars]
    cases types with
    | nil => exact ⟨c, cs, List.intercalate_singleton, hc⟩
    | cons u types => exact ⟨c, _, by rw [List.map_cons, List.intercalate_cons_cons]; rfl, hc⟩

/-- No type begins with a closing bracket. -/
theorem Composed.exists_first {fits : Connective → TypeExpr → Prop} {t : TypeExpr}
    (h : Composed fits t) :
    ∃ c cs, chars index t = c :: cs ∧ c ≠ ']' := by
  induction h with
  | @name name h =>
    rw [chars_name]
    cases hname : name.toList with
    | nil => exact absurd (String.toList_eq_nil_iff.mp hname) h.ne_empty
    | cons c cs =>
      refine ⟨c, cs, rfl, ?_⟩
      rintro rfl
      exact h.no_mark ']' (by rw [hname]; exact List.mem_cons_self) (by decide)
  | tuple h ih => exact ⟨'[', _, chars_tuple index _, by decide⟩
  | array h hfits ih =>
    obtain ⟨c, cs, hchars, hc⟩ := ih
    exact ⟨c, _, by rw [chars_array, hchars, List.cons_append], hc⟩
  | keyof h hfits ih => exact ⟨'k', _, by rw [chars_keyof]; rfl, by decide⟩
  | series s hlength h hfits ih =>
    rw [chars_series]
    refine exists_first_of_row _ ?_ ih
    rintro rfl
    cases hlength

/-- A name is told from other names and from tuples. -/
theorem told_name {name : String} (h : IsTypeName name) {a : TypeExpr} (ha : IsAtom a)
    {r s : List Char} (hr : Stops typeMarks r) (hs : Stops typeMarks s)
    (heq : chars index ⟨.intrinsic name, []⟩ ++ r = chars index a ++ s) :
    ⟨.intrinsic name, []⟩ = a ∧ r = s := by
  rw [chars_name] at heq
  rcases ha with ⟨other, hother, rfl⟩ | ⟨types, -, rfl⟩
  · rw [chars_name] at heq
    obtain ⟨hname, hrest⟩ := word_eq_of_append_eq h.no_mark hother.no_mark hr hs heq
    rw [String.toList_inj.mp hname]
    exact ⟨rfl, hrest⟩
  · -- a tuple begins with a mark, so no name begins like one
    rw [chars_tuple, List.cons_append, ← List.nil_append ('[' :: _)] at heq
    obtain ⟨hname, -⟩ := word_eq_of_append_eq h.no_mark (by simp) hr (stops_cons (by decide) _) heq
    exact absurd (String.toList_eq_nil_iff.mp hname) h.ne_empty

/-- With types in it, a tuple is not closed at once. -/
theorem row_ne_close {types : List TypeExpr} (hne : types ≠ []) (h : ∀ t ∈ types, Unbracketed t)
    (rest more : List Char) :
    [',', ' '].intercalate (types.map (chars index)) ++ rest ≠ ']' :: more := by
  obtain ⟨c, cs, hrow, hc⟩ := exists_first_of_row [',', ' '] hne fun t ht => (h t ht).exists_first
  rw [hrow]
  exact fun heq => hc (List.cons.inj heq).1

/-- So is a tuple, if the types in it are told. -/
theorem told_tuple {types : List TypeExpr} (htypes : ∀ t ∈ types, Unbracketed t)
    (h : ∀ t ∈ types, Told index 0 t) {a : TypeExpr} (ha : IsAtom a) {r s : List Char}
    (hr : Stops typeMarks r) (hs : Stops typeMarks s)
    (heq : chars index ⟨.tuple types, []⟩ ++ r = chars index a ++ s) :
    ⟨.tuple types, []⟩ = a ∧ r = s := by
  rcases ha with ⟨name, hname, rfl⟩ | ⟨others, hothers, rfl⟩
  · obtain ⟨hsame, hrest⟩ := told_name hname (Or.inr ⟨types, htypes, rfl⟩) hs hr heq.symm
    exact ⟨hsame.symm, hrest.symm⟩
  · rw [chars_tuple, chars_tuple, List.cons_append, List.cons_append, List.append_assoc,
      List.append_assoc, List.singleton_append, List.singleton_append] at heq
    have hrows := (List.cons.inj heq).2
    by_cases hempty : types = []
    · subst hempty
      by_cases hempty' : others = []
      · -- two empty tuples
        subst hempty'
        exact ⟨rfl, (List.cons.inj hrows).2⟩
      · exact absurd hrows.symm (row_ne_close hempty' hothers _ _)
    · by_cases hempty' : others = []
      · subst hempty'
        exact absurd hrows (row_ne_close hempty htypes _ _)
      · -- both have types in them, and behind the last of them the bracket is closed
        have hcomma : ∀ rest, Stops (marksAt 0) ([',', ' '] ++ rest) :=
          fun rest => stops_cons (by decide) _
        have hclose : ∀ rest, Stops (marksAt 0) (']' :: rest) :=
          fun rest => stops_cons (by decide) _
        have hend : ∀ rest, ¬ [',', ' '] <+: ']' :: rest := by
          rintro rest ⟨more, heq⟩
          exact absurd (List.cons.inj heq).1 (by decide)
        have htold : ∀ x ∈ types, ∀ y ∈ others, ∀ r s, Stops (marksAt 0) r → Stops (marksAt 0) s →
            chars index x ++ r = chars index y ++ s → x = y ∧ r = s :=
          fun x hx y hy => h x hx y (hothers y hy) (Nat.zero_le _)
        obtain ⟨hsame, hrest⟩ :=
          row_eq_of_append_eq hcomma hempty hempty' htold (hclose r) (hclose s) (hend r) (hend s)
            hrows
        rw [hsame]
        exact ⟨rfl, (List.cons.inj hrest).2⟩

/-! ## Prefixes -/

/-- What binds as strongly as an array does not begin like a `keyof`. -/
theorem Unbracketed.ne_keyof {t : TypeExpr} (h : t.Unbracketed) (hst : 3 ≤ t.strength)
    {rest : List Char} (hrest : Stops (marksAt 2) rest) (more : List Char) :
    chars index t ++ rest ≠ "keyof ".toList ++ more := by
  intro heq
  obtain ⟨a, n, ha, rfl⟩ := h.exists_arrays hst
  rw [chars_arrays, List.append_assoc] at heq
  rcases ha with ⟨name, hname, rfl⟩ | ⟨types, -, rfl⟩
  · -- a name would have to be the word itself
    have hword : "keyof ".toList ++ more = "keyof".toList ++ (' ' :: more) := rfl
    rw [chars_name, hword] at heq
    obtain ⟨hsame, -⟩ :=
      word_eq_of_append_eq hname.no_mark (by simp [typeMarks]) (stops_emptyBrackets n hrest)
      (stops_cons (by decide) more) heq
    exact hname.ne_keyof (String.toList_inj.mp hsame)
  · rw [chars_tuple] at heq
    exact absurd (List.cons.inj heq).1 (by decide)

/-- What binds as strongly as `keyof` is one, or binds as strongly as an array. -/
theorem Unbracketed.keyof_or_le {t : TypeExpr} (h : t.Unbracketed) (hst : 2 ≤ t.strength) :
    (∃ u, t = ⟨.operator "keyof" u, []⟩ ∧ u.Unbracketed ∧ 2 ≤ u.strength) ∨ 3 ≤ t.strength := by
  cases h with
  | name h => exact Or.inr (by simp [strength])
  | tuple h => exact Or.inr (by simp [strength])
  | array h hfits => exact Or.inr (by simp [strength])
  | keyof h hfits => exact Or.inl ⟨_, rfl, h, hfits⟩
  | series s hlength h hfits =>
    rw [strength_series] at hst
    cases s <;> exact absurd hst (by decide)

/-- What is told with brackets behind it is told at the place of an operand of `keyof`. -/
theorem told_of_arrays {t : TypeExpr} (ht : t.Unbracketed) (hst : 3 ≤ t.strength)
    (h : ToldInArrays index t) :
    Told index 2 t := by
  intro u hu hsu r s hr hs heq
  rcases hu.keyof_or_le hsu with ⟨v, rfl, -, -⟩ | hsu
  · rw [chars_keyof, List.append_assoc] at heq
    exact absurd heq (ht.ne_keyof hst hr _)
  · exact h u hu hsu 0 0 r s hr hs heq

/-- So is a `keyof`, if its operand is. -/
theorem told_keyof {t : TypeExpr} (h : Told index 2 t) :
    Told index 2 ⟨.operator "keyof" t, []⟩ := by
  intro u hu hsu r s hr hs heq
  rw [chars_keyof, List.append_assoc] at heq
  rcases hu.keyof_or_le hsu with ⟨v, rfl, hv, hsv⟩ | hsu
  · rw [chars_keyof, List.append_assoc] at heq
    obtain ⟨rfl, hrest⟩ := h v hv hsv r s hr hs (List.append_cancel_left heq)
    exact ⟨rfl, hrest⟩
  · exact absurd heq.symm (hu.ne_keyof hsu hs _)

/-! ## Reading -/

/-- **A type in which no brackets are missing is told from the others at every place where it may
stand.** The induction is on how the type is put together; for a tuple it gives that the types in
the brackets are told. -/
theorem Unbracketed.told {t : TypeExpr} (h : t.Unbracketed) :
    (3 ≤ t.strength → ToldInArrays index t) ∧ ∀ k ≤ 2, k ≤ t.strength → Told index k t := by
  -- for what binds as strongly as an array, the first half gives the second
  have harrays : ∀ {u : TypeExpr}, u.Unbracketed → 3 ≤ u.strength → ToldInArrays index u →
      (3 ≤ u.strength → ToldInArrays index u) ∧ ∀ k ≤ 2, k ≤ u.strength → Told index k u := by
    intro u hu hsu htold
    refine ⟨fun _ => htold, fun k hk _ => ?_⟩
    exact told_of_two index hu (Nat.le_of_succ_le hsu) (told_of_arrays hu hsu htold) k hk
  induction h with
  | name h =>
    refine harrays (.name h) (by simp [strength]) (toldInArrays_of_atom ?_)
    exact fun a ha r s hr hs => told_name h ha hr hs
  | tuple h ih =>
    refine harrays (.tuple h) (by simp [strength]) (toldInArrays_of_atom ?_)
    have hinside : ∀ u ∈ _, Told index 0 u :=
      fun u hu => (ih u hu).2 0 (Nat.zero_le _) (Nat.zero_le _)
    exact fun a ha r s hr hs => told_tuple h hinside ha hr hs
  | array h hfits ih => exact harrays (.array h hfits) (by simp [strength]) (ih.1 hfits).array
  | keyof h hfits ih =>
    -- a `keyof` binds more weakly than an array
    refine ⟨fun hst => absurd hst (by simp [strength]), fun k hk _ => ?_⟩
    exact told_of_two index (.keyof h hfits) (by simp [strength])
      (told_keyof (ih.2 2 (Nat.le_refl 2) hfits)) k hk
  | @series s types hlength h hfits ih =>
    have hself : Unbracketed ⟨s.kind types, []⟩ := .series s hlength h hfits
    have hrow : Told index s.strength ⟨s.kind types, []⟩ := by
      refine told_series index hself (Nat.le_of_eq (strength_series s types).symm) ?_
      rw [operands_series]
      exact fun u hu => (ih u hu).2 _ (by cases s <;> decide) (hfits u hu)
    rw [strength_series]
    cases s with
    | union =>
      refine ⟨fun hst => absurd hst (by decide), fun k _ hk => ?_⟩
      rw [Nat.le_zero.mp hk]
      exact hrow
    | intersection =>
      refine ⟨fun hst => absurd hst (by decide), fun k _ hk => ?_⟩
      obtain rfl | rfl : k = 0 ∨ k = 1 := Nat.le_one_iff_eq_zero_or_eq_one.mp hk
      · exact told_of_lt index (s := .union) hself Nat.zero_lt_one hrow
      · exact hrow

/-- **Types in which no brackets are missing are read off their texts.** -/
theorem Unbracketed.eq_of_chars_eq {t u : TypeExpr} (ht : t.Unbracketed) (hu : u.Unbracketed)
    (h : chars index t = chars index u) : t = u := by
  have hend : Stops (marksAt 0) [] := fun c hc => by cases hc
  exact (ht.told.2 0 (Nat.zero_le _) (Nat.zero_le _) u hu (Nat.zero_le _) [] [] hend hend
    (by rw [h])).1

end TypeExpr

end DocAtlas
