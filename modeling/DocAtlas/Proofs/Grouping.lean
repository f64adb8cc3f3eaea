import DocAtlas.Proofs.TypeReading
import Mathlib.Data.List.ModifyLast

/-!
Grouping the operands of a type.

No brackets are written around operands, so `A|B[]` stands both for a union that ends in an array
and for an array of a union. A reader takes it for the first one, as `[]` binds more strongly. What
a reader takes a type for is a union of intersections (`TypeExpr.sums`), whose types have some
`keyof` before them and nothing else that could be taken apart (`Factor`). Put together again
(`TypeExpr.regrouped`), they are a type in which no brackets are missing, with the text of the first
one (`TypeExpr.Composed.unbracketed_regrouped`, `TypeExpr.Composed.chars_regrouped`).

So two types have one text exactly if they are the same after regrouping, and only where brackets
are missing.
-/

set_option autoImplicit false

namespace DocAtlas

/-! ## Unions of intersections -/

/-- A type of an intersection: so many `keyof`, and what they stand before. -/
structure Factor where
  keyofs : Nat
  core : TypeExpr

/-- So many `keyof` before a type. -/
def TypeExpr.underKeyofs : Nat → TypeExpr → TypeExpr
  | 0, t => t
  | n + 1, t => ⟨.operator "keyof" (underKeyofs n t), []⟩

namespace Factor

/-- A factor as a type. -/
def type (f : Factor) : TypeExpr := TypeExpr.underKeyofs f.keyofs f.core

/-- Brackets behind a factor go to what is behind the `keyof`. -/
def inArray (f : Factor) : Factor := ⟨f.keyofs, ⟨.array f.core, []⟩⟩

/-- One more `keyof`. -/
def underKeyof (f : Factor) : Factor := ⟨f.keyofs + 1, f.core⟩

end Factor

/-- Types in a row, or the only one. -/
def Series.of (s : Series) : List TypeExpr → TypeExpr
  | [t] => t
  | types => ⟨s.kind types, []⟩

/-- A union of intersections as a type. -/
def ofSums (sums : List (List Factor)) : TypeExpr :=
  Series.union.of (sums.map fun product => Series.intersection.of (product.map Factor.type))

/-- Two unions of intersections with an `&` between them: the last intersection of the one goes on
with the first intersection of the other. -/
def glue : List (List Factor) → List (List Factor) → List (List Factor)
  | [], b => b
  | [last], [] => [last]
  | [last], first :: more => (last ++ first) :: more
  | product :: a, b => product :: glue a b

/-- Two unions of intersections with the sign of a row between them. -/
def Series.join : Series → List (List Factor) → List (List Factor) → List (List Factor)
  | .union, a, b => a ++ b
  | .intersection, a, b => glue a b

mutual

/-- What a type without arguments is taken for. -/
def TypeExpr.sums : TypeExpr → List (List Factor)
  | ⟨kind, []⟩ => kind.sums
  | ⟨kind, arguments⟩ => [[⟨0, ⟨kind, arguments⟩⟩]]
termination_by structural t => t

/-- `[]` goes to the last of the factors and `keyof` to the first one, while tuples have brackets of
their own. -/
def TypeKind.sums : TypeKind → List (List Factor)
  | .array t => t.sums.modifyLast (List.modifyLast Factor.inArray)
  | .operator name t =>
    if name = "keyof" then t.sums.modifyHead (List.modifyHead Factor.underKeyof)
    else [[⟨0, ⟨.operator name t, []⟩⟩]]
  | .tuple types => [[⟨0, ⟨.tuple ((sumsOfAll types).map ofSums), []⟩⟩]]
  | .union types => (sumsOfAll types).foldr Series.union.join []
  | .intersection types => (sumsOfAll types).foldr Series.intersection.join []
  | kind => [[⟨0, ⟨kind, []⟩⟩]]
termination_by structural k => k

/-- What types are taken for, each on its own. -/
def sumsOfAll : List TypeExpr → List (List (List Factor))
  | [] => []
  | t :: rest => t.sums :: sumsOfAll rest
termination_by structural ts => ts

end

/-- The type that a reader takes a type for. -/
def TypeExpr.regrouped (t : TypeExpr) : TypeExpr := ofSums t.sums

/-- The recursion over a list of types goes through them one by one. -/
theorem sumsOfAll_eq (types : List TypeExpr) : sumsOfAll types = types.map TypeExpr.sums := by
  induction types with
  | nil => rfl
  | cons t types ih => rw [sumsOfAll, ih, List.map_cons]

/-- A row is taken for what its types are taken for, put together from the last one on. -/
theorem sums_series (s : Series) (types : List TypeExpr) :
    TypeExpr.sums ⟨s.kind types, []⟩ = (types.map TypeExpr.sums).foldr s.join [] := by
  rw [← sumsOfAll_eq]
  cases s <;> rfl

/-- A tuple is one factor, whose types are regrouped on their own. -/
theorem sums_tuple (types : List TypeExpr) :
    TypeExpr.sums ⟨.tuple types, []⟩ = [[⟨0, ⟨.tuple (types.map TypeExpr.regrouped), []⟩⟩]] := by
  rw [TypeExpr.sums, TypeKind.sums, sumsOfAll_eq, List.map_map]
  rfl

/-! ## Putting together -/

/-- Nothing of what stands behind the `keyof` could be taken apart. -/
structure Factor.Whole (f : Factor) : Prop where
  unbracketed : f.core.Unbracketed
  strong : 3 ≤ f.core.strength

/-- No intersection and no union is empty, and all factors are whole. -/
def Grouped (sums : List (List Factor)) : Prop :=
  sums ≠ [] ∧ ∀ product ∈ sums, product ≠ [] ∧ ∀ f ∈ product, f.Whole

/-- A whole factor alone is grouped. -/
theorem grouped_singleton {f : Factor} (h : f.Whole) : Grouped [[f]] := by
  refine ⟨List.cons_ne_nil _ _, ?_⟩
  intro product hproduct
  rw [List.mem_singleton.mp hproduct]
  exact ⟨List.cons_ne_nil _ _, List.forall_mem_singleton.mpr h⟩

open TypeExpr (chars Unbracketed strength)

/-- A whole factor is a type in which no brackets are missing, and which binds as strongly as
`keyof`. The induction is on the `keyof` before it. -/
theorem Factor.Whole.type {f : Factor} (h : f.Whole) :
    f.type.Unbracketed ∧ 2 ≤ f.type.strength := by
  obtain ⟨n, core⟩ := f
  induction n with
  | zero => exact ⟨h.unbracketed, Nat.le_of_succ_le h.strong⟩
  | succ n ih =>
    obtain ⟨hunbracketed, hstrong⟩ := ih ⟨h.unbracketed, h.strong⟩
    exact ⟨.keyof hunbracketed hstrong, Nat.le_refl 2⟩

/-- In a row of types that bind more strongly, no brackets are missing. -/
theorem Series.unbracketed_of (s : Series) {types : List TypeExpr} (hne : types ≠ [])
    (h : ∀ t ∈ types, t.Unbracketed ∧ s.strength + 1 ≤ t.strength) :
    (s.of types).Unbracketed ∧ s.strength ≤ (s.of types).strength := by
  -- a type alone stands for itself, so that it binds even more strongly than the row would
  cases types with
  | nil => exact absurd rfl hne
  | cons t types =>
    cases types with
    | nil =>
      obtain ⟨hunbracketed, hstrong⟩ := h t List.mem_cons_self
      exact ⟨hunbracketed, Nat.le_of_succ_le hstrong⟩
    | cons u types =>
      refine ⟨.series s (by simp) (fun v hv => (h v hv).1) fun v hv => (h v hv).2, ?_⟩
      exact Nat.le_of_eq (TypeExpr.strength_series s _).symm

/-- **Put together, whole factors are a type in which no brackets are missing.** -/
theorem Grouped.unbracketed {sums : List (List Factor)} (h : Grouped sums) :
    (ofSums sums).Unbracketed := by
  -- an intersection of factors binds strongly enough for a union
  have hproduct : ∀ t ∈ sums.map fun product => Series.intersection.of (product.map Factor.type),
      t.Unbracketed ∧ 1 ≤ t.strength := by
    intro t ht
    obtain ⟨product, hmem, rfl⟩ := List.mem_map.mp ht
    obtain ⟨hne, hfactors⟩ := h.2 product hmem
    refine Series.intersection.unbracketed_of (by simpa using hne) ?_
    intro u hu
    obtain ⟨f, hf, rfl⟩ := List.mem_map.mp hu
    exact (hfactors f hf).type
  exact (Series.union.unbracketed_of (by simpa using h.1) hproduct).1

/-! ## Texts -/

variable (index : Index)

/-- The text of an intersection. -/
def productChars (product : List Factor) : List Char :=
  Series.intersection.sign.toList.intercalate (product.map fun f => chars index f.type)

/-- The text of a union of intersections. -/
def sumChars (sums : List (List Factor)) : List Char :=
  Series.union.sign.toList.intercalate (sums.map (productChars index))

/-- The text of a row of at least one type: their texts with the sign in between. -/
theorem chars_of (s : Series) {types : List TypeExpr} (hne : types ≠ []) :
    chars index (s.of types) = s.sign.toList.intercalate (types.map (chars index)) := by
  cases types with
  | nil => exact absurd rfl hne
  | cons t types =>
    cases types with
    | nil => rw [List.map_singleton, List.intercalate_singleton, Series.of]
    | cons u types => exact TypeExpr.chars_series index s _

/-- The text of a union of intersections, put together as a type, is that of its factors with the
signs in between. -/
theorem Grouped.chars_ofSums {sums : List (List Factor)} (h : Grouped sums) :
    chars index (ofSums sums) = sumChars index sums := by
  rw [ofSums, chars_of index _ (by simpa using h.1), List.map_map, sumChars]
  refine congrArg _ (List.map_congr_left ?_)
  intro product hproduct
  rw [Function.comp_apply, chars_of index _ (by simpa using (h.2 product hproduct).1), List.map_map]
  rfl

/-- A factor alone has its own text. -/
theorem sumChars_singleton (f : Factor) : sumChars index [[f]] = chars index f.type := by
  rw [sumChars, List.map_singleton, List.intercalate_singleton, productChars, List.map_singleton,
    List.intercalate_singleton]

/-- A row can be cut inside one of its parts. -/
theorem intercalate_cut (sign : List Char) (front : List (List Char)) (a b : List Char)
    (more : List (List Char)) :
    sign.intercalate (front ++ (a ++ b) :: more)
      = sign.intercalate (front ++ [a]) ++ sign.intercalate (b :: more) := by
  induction front with
  | nil =>
    cases more with
    | nil => simp
    | cons next more => simp [List.intercalate_cons_cons]
  | cons first front ih =>
    rw [List.cons_append, List.cons_append, List.intercalate_cons_of_ne_nil (by simp),
      List.intercalate_cons_of_ne_nil (by simp), ih, List.append_assoc, List.append_assoc,
      List.append_assoc]

/-- What stands before the first part stands before the row. -/
theorem intercalate_prepend (sign a b : List Char) (more : List (List Char)) :
    sign.intercalate ((a ++ b) :: more) = a ++ sign.intercalate (b :: more) := by
  rw [← List.nil_append ((a ++ b) :: more), intercalate_cut, List.nil_append,
    List.intercalate_singleton]

/-- Two rows, one behind the other, have the sign between them. -/
theorem intercalate_append (sign : List Char) (front : List (List Char)) (a b : List Char)
    (more : List (List Char)) :
    sign.intercalate (front ++ [a] ++ b :: more)
      = sign.intercalate (front ++ [a]) ++ (sign ++ sign.intercalate (b :: more)) := by
  have hcut := intercalate_cut sign front a [] (b :: more)
  rw [List.append_nil, List.intercalate_cons_cons, List.nil_append] at hcut
  rw [List.append_assoc, List.singleton_append, hcut]

/-! ## Brackets, `keyof` and signs -/

/-- There is a last factor, in the last intersection. -/
theorem Grouped.exists_last {sums : List (List Factor)} (h : Grouped sums) :
    ∃ front init f, sums = front ++ [init ++ [f]] := by
  obtain ⟨hne, hproducts⟩ := h
  rcases List.eq_nil_or_concat' sums with rfl | ⟨front, last, rfl⟩
  · exact absurd rfl hne
  · rcases List.eq_nil_or_concat' last with rfl | ⟨init, f, rfl⟩
    · exact absurd rfl (hproducts [] (by simp)).1
    · exact ⟨front, init, f, rfl⟩

/-- There is a first factor, in the first intersection. -/
theorem Grouped.exists_first {sums : List (List Factor)} (h : Grouped sums) :
    ∃ f rest more, sums = (f :: rest) :: more := by
  obtain ⟨hne, hproducts⟩ := h
  cases sums with
  | nil => exact absurd rfl hne
  | cons first more =>
    cases first with
    | nil => exact absurd rfl (hproducts [] List.mem_cons_self).1
    | cons f rest => exact ⟨f, rest, more, rfl⟩

/-- An array of a whole factor is whole. -/
theorem Factor.Whole.inArray {f : Factor} (h : f.Whole) : f.inArray.Whole :=
  ⟨.array h.unbracketed h.strong, Nat.le_refl 3⟩

/-- Brackets behind the core are brackets behind the factor. -/
theorem Factor.chars_inArray (f : Factor) :
    chars index f.inArray.type = chars index f.type ++ ['[', ']'] := by
  obtain ⟨n, core⟩ := f
  -- the brackets go behind the core, so they are the last characters whatever stands before it
  induction n with
  | zero => exact TypeExpr.chars_array index core
  | succ n ih =>
    rw [Factor.type, Factor.inArray, TypeExpr.underKeyofs, TypeExpr.chars_keyof, Factor.type,
      TypeExpr.underKeyofs, TypeExpr.chars_keyof, List.append_assoc]
    exact congrArg _ ih

/-- **Brackets behind a text go to the last factor.** -/
theorem Grouped.array {sums : List (List Factor)} (h : Grouped sums) :
    Grouped (sums.modifyLast (List.modifyLast Factor.inArray))
      ∧ sumChars index (sums.modifyLast (List.modifyLast Factor.inArray))
        = sumChars index sums ++ ['[', ']'] := by
  obtain ⟨front, init, f, rfl⟩ := h.exists_last
  rw [List.modifyLast_concat, List.modifyLast_concat]
  constructor
  · obtain ⟨-, hproducts⟩ := h
    refine ⟨by simp, ?_⟩
    rw [List.forall_mem_append, List.forall_mem_singleton, List.forall_mem_append,
      List.forall_mem_singleton] at hproducts ⊢
    exact ⟨hproducts.1, by simp, hproducts.2.2.1, hproducts.2.2.2.inArray⟩
  · -- the last part of the last part: the row is cut twice, once for each sign
    have hlast : productChars index (init ++ [f.inArray]) = productChars index (init ++ [f])
        ++ ['[', ']'] := by
      rw [productChars, List.map_append, List.map_singleton, Factor.chars_inArray, intercalate_cut,
        List.intercalate_singleton, productChars, List.map_append, List.map_singleton]
    rw [sumChars, List.map_append, List.map_singleton, hlast, intercalate_cut,
      List.intercalate_singleton, sumChars, List.map_append, List.map_singleton]

/-- **A `keyof` before a text goes to the first factor.** -/
theorem Grouped.keyof {sums : List (List Factor)} (h : Grouped sums) :
    Grouped (sums.modifyHead (List.modifyHead Factor.underKeyof))
      ∧ sumChars index (sums.modifyHead (List.modifyHead Factor.underKeyof))
        = "keyof ".toList ++ sumChars index sums := by
  obtain ⟨f, rest, more, rfl⟩ := h.exists_first
  rw [List.modifyHead_cons, List.modifyHead_cons]
  constructor
  · obtain ⟨-, hproducts⟩ := h
    refine ⟨by simp, ?_⟩
    rw [List.forall_mem_cons, List.forall_mem_cons] at hproducts ⊢
    obtain ⟨⟨-, hf, hrest⟩, hmore⟩ := hproducts
    exact ⟨⟨by simp, ⟨hf.unbracketed, hf.strong⟩, hrest⟩, hmore⟩
  · have hfirst : productChars index (f.underKeyof :: rest)
        = "keyof ".toList ++ productChars index (f :: rest) := by
      rw [productChars, List.map_cons, Factor.type, Factor.underKeyof, TypeExpr.underKeyofs,
        TypeExpr.chars_keyof]
      exact intercalate_prepend _ _ _ _
    rw [sumChars, List.map_cons, hfirst]
    exact intercalate_prepend _ _ _ _

/-- Nothing behind a union of intersections leaves it as it is. -/
theorem glue_nil (sums : List (List Factor)) : glue sums [] = sums := by
  induction sums with
  | nil => rfl
  | cons product sums ih =>
    cases sums with
    | nil => rfl
    | cons next sums => exact congrArg (product :: ·) ih

/-- Only the last intersection of the one and the first of the other are put together. -/
theorem glue_concat_cons (front : List (List Factor)) (last first : List Factor)
    (more : List (List Factor)) :
    glue (front ++ [last]) (first :: more) = front ++ (last ++ first) :: more := by
  induction front with
  | nil => rfl
  | cons product front ih =>
    rw [List.cons_append, List.cons_append, ← ih]
    cases front <;> rfl

/-- A row ends with nothing, which changes nothing. -/
theorem Series.join_nil (s : Series) (sums : List (List Factor)) : s.join sums [] = sums := by
  cases s with
  | union => exact List.append_nil sums
  | intersection => exact glue_nil sums

/-- **A sign between two texts puts the unions of intersections together.** -/
theorem Grouped.join (s : Series) {a b : List (List Factor)} (ha : Grouped a) (hb : Grouped b) :
    Grouped (s.join a b)
      ∧ sumChars index (s.join a b) = sumChars index a ++ (s.sign.toList ++ sumChars index b) := by
  obtain ⟨front, init, f, rfl⟩ := ha.exists_last
  obtain ⟨g, rest, more, rfl⟩ := hb.exists_first
  obtain ⟨-, hleft⟩ := ha
  obtain ⟨-, hright⟩ := hb
  cases s with
  | union =>
    refine ⟨⟨by simp [Series.join], List.forall_mem_append.mpr ⟨hleft, hright⟩⟩, ?_⟩
    rw [sumChars, Series.join, List.map_append, List.map_append, List.map_singleton, List.map_cons,
      intercalate_append, sumChars, List.map_append, List.map_singleton, sumChars, List.map_cons]
  | intersection =>
    rw [Series.join, glue_concat_cons]
    constructor
    · rw [List.forall_mem_append, List.forall_mem_singleton] at hleft
      rw [List.forall_mem_cons] at hright
      refine ⟨by simp, ?_⟩
      rw [List.forall_mem_append, List.forall_mem_cons, List.forall_mem_append]
      exact ⟨hleft.1, ⟨by simp, hleft.2.2, hright.1.2⟩, hright.2⟩
    · -- the sign stands inside the intersection that goes on, with the rest of both unions around
      -- it
      have hmiddle : productChars index (init ++ [f] ++ g :: rest)
          = productChars index (init ++ [f])
            ++ (Series.intersection.sign.toList ++ productChars index (g :: rest)) := by
        rw [productChars, List.map_append, List.map_append, List.map_singleton, List.map_cons,
          intercalate_append, productChars, List.map_append, List.map_singleton, productChars,
          List.map_cons]
      rw [sumChars, List.map_append, List.map_cons, hmiddle, intercalate_cut, intercalate_prepend,
        sumChars, List.map_append, List.map_singleton, sumChars, List.map_cons]

/-- The types of a row, put together one after the other. The induction is on the row: each type is
joined to what comes of those behind it. -/
theorem grouped_foldr_join (s : Series) {parts : List (List (List Factor))} (hne : parts ≠ [])
    (h : ∀ sums ∈ parts, Grouped sums) :
    Grouped (parts.foldr s.join [])
      ∧ sumChars index (parts.foldr s.join [])
        = s.sign.toList.intercalate (parts.map (sumChars index)) := by
  induction parts with
  | nil => exact absurd rfl hne
  | cons sums parts ih =>
    obtain ⟨hsums, hparts⟩ := List.forall_mem_cons.mp h
    cases parts with
    | nil =>
      rw [List.foldr_cons, List.foldr_nil, s.join_nil, List.map_singleton,
        List.intercalate_singleton]
      exact ⟨hsums, rfl⟩
    | cons next parts =>
      obtain ⟨hrest, hchars⟩ := ih (List.cons_ne_nil _ _) hparts
      obtain ⟨hjoin, htext⟩ := hsums.join index s hrest
      rw [List.foldr_cons]
      refine ⟨hjoin, ?_⟩
      rw [htext, hchars, List.map_cons, List.map_cons, List.map_cons, List.intercalate_cons_cons,
        List.append_assoc]

/-! ## Regrouping -/

namespace TypeExpr

/-- **What a type is taken for has whole factors and the text of the type.** The induction is on how
the type is put together, whatever its operands are. -/
theorem Composed.grouped_sums {fits : Connective → TypeExpr → Prop} {t : TypeExpr}
    (h : Composed fits t) :
    Grouped t.sums ∧ sumChars index t.sums = chars index t := by
  induction h with
  | name h =>
    exact ⟨grouped_singleton ⟨.name h, by simp [strength]⟩, sumChars_singleton index _⟩
  | @tuple types h ih =>
    -- the brackets keep the types inside apart from what is around, so each is put together on its
    -- own
    have hinside : ∀ t ∈ types.map regrouped, t.Unbracketed :=
      List.forall_mem_map.mpr fun t ht => (ih t ht).1.unbracketed
    have htexts : (types.map regrouped).map (chars index) = types.map (chars index) := by
      rw [List.map_map]
      refine List.map_congr_left fun t ht => ?_
      rw [Function.comp_apply, regrouped, (ih t ht).1.chars_ofSums, (ih t ht).2]
    rw [sums_tuple]
    refine ⟨grouped_singleton ⟨.tuple hinside, by simp [strength]⟩, ?_⟩
    rw [sumChars_singleton, Factor.type, underKeyofs, chars_tuple, htexts, chars_tuple]
  | array h hfits ih =>
    obtain ⟨hgrouped, hchars⟩ := ih
    obtain ⟨harray, htext⟩ := hgrouped.array index
    refine ⟨harray, ?_⟩
    rw [chars_array, ← hchars, ← htext]
    rfl
  | keyof h hfits ih =>
    obtain ⟨hgrouped, hchars⟩ := ih
    obtain ⟨hkeyof, htext⟩ := hgrouped.keyof index
    refine ⟨hkeyof, ?_⟩
    rw [chars_keyof, ← hchars, ← htext]
    rfl
  | @series s types hlength h hfits ih =>
    have hne : types.map sums ≠ [] := by
      rintro hnil
      rw [List.map_eq_nil_iff.mp hnil] at hlength
      cases hlength
    obtain ⟨hgrouped, htext⟩ :=
      grouped_foldr_join index s hne (List.forall_mem_map.mpr fun t ht => (ih t ht).1)
    rw [sums_series, chars_series]
    refine ⟨hgrouped, ?_⟩
    rw [htext, List.map_map]
    exact congrArg _ (List.map_congr_left fun t ht => (ih t ht).2)

section

variable {fits fits' : Connective → TypeExpr → Prop} {t u : TypeExpr}

/-- **No brackets are missing in what a type is taken for.** -/
theorem Composed.unbracketed_regrouped (h : Composed fits t) : t.regrouped.Unbracketed :=
  (h.grouped_sums Index.empty).1.unbracketed

/-- **A type has the text of what it is taken for.** -/
theorem Composed.chars_regrouped (h : Composed fits t) :
    chars index t.regrouped = chars index t := by
  obtain ⟨hgrouped, hchars⟩ := h.grouped_sums index
  rw [regrouped, hgrouped.chars_ofSums, hchars]

/-- A type in which no brackets are missing is taken for itself: it is the only one of this kind
with its text. -/
theorem Composed.regrouped_eq_iff (h : Composed fits t) : t.regrouped = t ↔ t.Unbracketed := by
  constructor
  · intro heq
    rw [← heq]
    exact h.unbracketed_regrouped
  · -- no need to follow the regrouping: both are read off the same text
    intro hunbracketed
    exact h.unbracketed_regrouped.eq_of_chars_eq hunbracketed (h.chars_regrouped Index.empty)

/-- **Types have the same text exactly if they are taken for the same type.** -/
theorem Composed.chars_eq_iff (ht : Composed fits t) (hu : Composed fits' u) :
    chars index t = chars index u ↔ t.regrouped = u.regrouped := by
  rw [← ht.chars_regrouped, ← hu.chars_regrouped]
  constructor
  · intro h
    exact ht.unbracketed_regrouped.eq_of_chars_eq hu.unbracketed_regrouped h
  · intro h
    rw [h]

/-- A type that is put together under some demand on its operands is put together under any weaker
one. -/
theorem Composed.mono (h : Composed fits t)
    (hfits : ∀ c operand, fits c operand → fits' c operand) :
    Composed fits' t := by
  induction h with
  | name h => exact .name h
  | tuple h ih => exact .tuple ih
  | array h hoperand ih => exact .array ih (hfits _ _ hoperand)
  | keyof h hoperand ih => exact .keyof ih (hfits _ _ hoperand)
  | series s hlength h hoperands ih =>
    exact .series s hlength ih fun t ht => hfits _ _ (hoperands t ht)

end

/-- No type of a row is a row of the same kind. Otherwise, any type may stand at any place. -/
def Flat (t : TypeExpr) : Prop :=
  Composed (fun c operand => ∀ s, c = .series s → ∀ types, operand.kind ≠ s.kind types) t

/-- Where no brackets are missing, no row stands in a row of the same kind. -/
theorem Unbracketed.flat {t : TypeExpr} (h : t.Unbracketed) : t.Flat := by
  refine Composed.mono h ?_
  rintro c ⟨kind, arguments⟩ hdemand s rfl types rfl
  -- a row binds too weakly to stand in a row of the same kind
  cases s with
  | union => exact absurd hdemand (Nat.not_succ_le_self 0)
  | intersection => exact absurd hdemand (Nat.not_succ_le_self 1)

/-- Any flat type can be the type of an array. -/
theorem Flat.array {t : TypeExpr} (h : t.Flat) : Flat ⟨.array t, []⟩ :=
  Composed.array h fun _ hseries => by cases hseries

/-- Any flat type can stand behind `keyof`. -/
theorem Flat.keyof {t : TypeExpr} (h : t.Flat) : Flat ⟨.operator "keyof" t, []⟩ :=
  Composed.keyof h fun _ hseries => by cases hseries

/-- Two flat types make a row, unless one of them is a row of this kind. -/
theorem Flat.pair {t u : TypeExpr} (ht : t.Flat) (s : Series) (hu : u.Flat)
    (hkt : ∀ types, t.kind ≠ s.kind types) (hku : ∀ types, u.kind ≠ s.kind types) :
    Flat ⟨s.kind [t, u], []⟩ := by
  refine Composed.series s (Nat.le_refl 2) ?_ ?_
  · rw [List.forall_mem_cons, List.forall_mem_singleton]
    exact ⟨ht, hu⟩
  · rw [List.forall_mem_cons, List.forall_mem_singleton]
    exact ⟨fun _ hs => by cases hs; exact hkt, fun _ hs => by cases hs; exact hku⟩

end TypeExpr

open TypeExpr (Flat)

/-- **Texts are unambiguous up to the brackets that are not written.** Two types have the same text
exactly if they are taken for the same type, so types in which no brackets are missing are the same
if their texts are. A type shares its text with the one it is taken for, in which no brackets are
missing, and the two are the same exactly if none were. -/
theorem plain_renderType_eq_iff {t u : TypeExpr} (ht : t.Flat) (hu : u.Flat) :
    ((renderType index t).value.plain = (renderType index u).value.plain
      ↔ t.regrouped = u.regrouped)
      ∧ (t.Unbracketed → u.Unbracketed →
        (renderType index t).value.plain = (renderType index u).value.plain → t = u)
      ∧ (t.regrouped.Flat ∧ t.regrouped.Unbracketed
        ∧ (renderType index t.regrouped).value.plain = (renderType index t).value.plain
        ∧ (t.regrouped = t ↔ t.Unbracketed)) := by
  refine ⟨?_, ?_, ht.unbracketed_regrouped.flat, ht.unbracketed_regrouped, ?_, ht.regrouped_eq_iff⟩
  · rw [← String.toList_inj]
    exact ht.chars_eq_iff index hu
  · intro htb hub h
    exact htb.eq_of_chars_eq hub (congrArg String.toList h)
  · exact String.toList_inj.mp (ht.chars_regrouped index)

/-- An array of an intersection that ends in a union. -/
def arrayOfMixed : TypeExpr :=
  ⟨.array ⟨.intersection [⟨.operator "keyof" ⟨.intrinsic "A", []⟩, []⟩,
    ⟨.union [⟨.intrinsic "B", []⟩, ⟨.intrinsic "C", []⟩], []⟩], []⟩, []⟩

/-- A union of an intersection and an array. -/
def unionOfMixed : TypeExpr :=
  ⟨.union [⟨.intersection [⟨.operator "keyof" ⟨.intrinsic "A", []⟩, []⟩, ⟨.intrinsic "B", []⟩], []⟩,
    ⟨.array ⟨.intrinsic "C", []⟩, []⟩], []⟩

/-- The names that the types below are made of. -/
theorem flat_word (word : String) (h : word ∈ ["A", "B", "C", "string", "number"]) :
    Flat ⟨.intrinsic word, []⟩ := by
  have hwords : ∀ word ∈ ["A", "B", "C", "string", "number"],
      word ≠ "" ∧ word ≠ "keyof" ∧ word.toList.all Char.isAlpha = true := by decide
  obtain ⟨hne, hkeyof, hletters⟩ := hwords word h
  exact .name (isTypeName_of_isAlpha hne hkeyof hletters)

/-- Both are written `keyof A & B|C[]`: the array goes to the last name, and the union is taken
apart. -/
theorem plain_renderType_arrayOfMixed :
    arrayOfMixed.Flat ∧ unionOfMixed.Flat ∧ unionOfMixed.Unbracketed ∧ ¬ arrayOfMixed.Unbracketed
      ∧ (renderType Index.empty arrayOfMixed).value.plain
        = (renderType Index.empty unionOfMixed).value.plain := by
  have hkeyof := (flat_word "A" (by decide)).keyof
  have hunion :=
    (flat_word "B" (by decide)).pair .union (flat_word "C" (by decide)) (by simp [Series.kind])
      (by simp [Series.kind])
  have hmixed :=
    hkeyof.pair .intersection (flat_word "B" (by decide)) (by simp [Series.kind])
      (by simp [Series.kind])
  have harray : arrayOfMixed.Flat :=
    (hkeyof.pair .intersection hunion (by simp [Series.kind]) (by simp [Series.kind])).array
  have hother : unionOfMixed.Flat :=
    hmixed.pair .union (flat_word "C" (by decide)).array (by simp [Series.kind])
      (by simp [Series.kind])
  -- regrouping the first type is a computation
  have hregrouped : arrayOfMixed.regrouped = unionOfMixed := rfl
  obtain ⟨htext, -, -, hunbracketed, -, hself⟩ := plain_renderType_eq_iff Index.empty harray hother
  rw [hregrouped] at hunbracketed hself
  refine ⟨harray, hother, hunbracketed, ?_, htext.mpr rfl⟩
  rw [← hself]
  intro heq
  cases heq

/-- An array of a union. -/
def arrayOfUnion : TypeExpr :=
  ⟨.array ⟨.union [⟨.intrinsic "string", []⟩, ⟨.intrinsic "number", []⟩], []⟩, []⟩

/-- A union that ends in an array. -/
def unionWithArray : TypeExpr :=
  ⟨.union [⟨.intrinsic "string", []⟩, ⟨.array ⟨.intrinsic "number", []⟩, []⟩], []⟩

/-- The text of a union of two types. -/
theorem chars_union_pair (t u : TypeExpr) :
    chars index ⟨.union [t, u], []⟩ = chars index t ++ '|' :: chars index u := by
  have hseries := TypeExpr.chars_series index .union [t, u]
  rw [List.map_cons, List.map_singleton, List.intercalate_cons_cons, List.intercalate_singleton]
    at hseries
  exact hseries.trans (List.append_assoc _ _ _)

/-- **An array of a union and a union that ends in an array have the same text**, as no brackets are
written. -/
theorem plain_arrayOfUnion_eq_unionWithArray :
    arrayOfUnion.Flat ∧ unionWithArray.Flat ∧ arrayOfUnion ≠ unionWithArray
      ∧ (renderType Index.empty arrayOfUnion).value.plain = "string|number[]"
      ∧ (renderType Index.empty unionWithArray).value.plain = "string|number[]" := by
  have hstring := flat_word "string" (by decide)
  have hnumber := flat_word "number" (by decide)
  have hunion := hstring.pair .union hnumber (by simp [Series.kind]) (by simp [Series.kind])
  have hother := hstring.pair .union hnumber.array (by simp [Series.kind]) (by simp [Series.kind])
  have hne : arrayOfUnion ≠ unionWithArray := by
    intro heq
    cases heq
  refine ⟨hunion.array, hother, hne, String.toList_inj.mp ?_, String.toList_inj.mp ?_⟩
  · change chars Index.empty arrayOfUnion = _
    rw [arrayOfUnion, TypeExpr.chars_array, chars_union_pair, TypeExpr.chars_name,
      TypeExpr.chars_name]
    decide
  · change chars Index.empty unionWithArray = _
    rw [unionWithArray, chars_union_pair, TypeExpr.chars_array, TypeExpr.chars_name,
      TypeExpr.chars_name]
    decide

end DocAtlas
