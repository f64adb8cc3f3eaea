import DocAtlas.Document.Mismatch

/-!
Documents with a further entry.

A document may hold entries that nothing in it answers to. `Json.Inserted` says that one of them is
put into an object of a document, at any depth and in any position among the entries that are there.

Whether that can be noticed depends on what the object is read as, which is its `Role`. The roles of
the values inside a value follow from its own: there is one table of fields for each record, which
serves for the entries of an object and for the items of an array. Most roles are `plain`, which
means that nothing inside is kept as it stands. The others lead to the places where a further entry
matters: values that are kept as they are, and objects that can stand for the name of a signature's
kind or for what that name is followed by. The kind may be given as an object with one entry, the
value of which may be an empty object. An object with more entries than these names no kind, and
then nothing inside it does either.
-/

set_option autoImplicit false

namespace DocAtlas

/-! ## Unknown entries -/

/-- Every key that something in a document answers to: the fields of all records, their other names,
and the entries that tell the variants of a union apart. -/
def documentKeys : List String := [
  "asserts", "blockTags", "children", "comment", "constraint", "content", "declaration",
  "defaultValue", "elementType", "elements", "extendedTypes", "fileName", "flags", "getSignature",
  "id", "implementedTypes", "indexSignature", "inheritedFrom", "isAbstract", "isExported",
  "isOptional", "isPrivate", "isRest", "isStatic", "kind", "kindString", "line", "name",
  "operator", "originalName", "package", "parameters", "qualifiedName", "refersToTypeParameter",
  "setSignature", "signatures", "sourceFileName", "sources", "summary", "tag", "target",
  "targetType", "text", "type", "typeArguments", "typeParameter", "typeParameters", "types",
  "value", "variant"]

/-- An entry that nothing in a document answers to. -/
structure UnknownEntry where
  key : String
  value : Json
  unknown : key ∉ documentKeys

/-- The second value is the first one with a further entry in the object that the location leads
to. -/
inductive Json.Inserted (x : UnknownEntry) : Location → Json → Json → Prop where
  | here {before after : List (String × Json)} (fresh : x.key ∉ (before ++ after).map Prod.fst) :
      Inserted x [] (.obj (before ++ after)) (.obj (before ++ (x.key, x.value) :: after))
  | entry {key : String} {location : Location} {before after : List (String × Json)}
      {inner inner' : Json} (first : key ∉ before.map Prod.fst)
      (inside : Inserted x location inner inner') :
      Inserted x (.key key :: location) (.obj (before ++ (key, inner) :: after))
        (.obj (before ++ (key, inner') :: after))
  | item {location : Location} {before after : List Json} {inner inner' : Json}
      (inside : Inserted x location inner inner') :
      Inserted x (.index before.length :: location) (.arr (before ++ inner :: after))
        (.arr (before ++ inner' :: after))

/-- Looking for a key finds its first entry. -/
theorem lookup_first {key : String} {before after : List (String × Json)} {inner : Json}
    (first : key ∉ before.map Prod.fst) :
    (before ++ (key, inner) :: after).lookup key = some inner := by
  refine List.lookup_eq_some_iff.mpr ⟨before, after, rfl, ?_⟩
  intro entry hentry
  exact bne_iff_ne.mpr fun heq => first (heq ▸ List.mem_map_of_mem hentry)

/-! ## Roles -/

/-- What a value inside a document is read as. -/
inductive Role where
  | project
  | declaration
  | signature
  | parameter
  | typeParameter
  | type
  | list (item : Role)
  /-- It is kept as it stands. -/
  | raw
  /-- It names the kind of a signature. If it is an object, it has at most one entry. -/
  | kindName
  /-- It stands for the content of a kind, which has none. If it is an object, it is empty. -/
  | kindContent
  /-- Nothing inside it is kept as it stands. -/
  | plain
  deriving DecidableEq, Repr

/-- The fields of a record in their order: the names that each answers to, and what its value is
read as. -/
abbrev FieldRoles : Type := List (List String × Role)

namespace FieldRoles

/-- What the entry of a key is read as. -/
def among (fields : FieldRoles) (key : String) : Role :=
  ((fields.find? fun field => field.1.contains key).map (·.2)).getD .plain

/-- What the item at an index is read as. -/
def atIndex (fields : FieldRoles) (index : Nat) : Role := (fields[index]?.map (·.2)).getD .plain

/-- The fields of a project. -/
def project : FieldRoles :=
  [(["id"], .plain), (["name"], .plain), (["children"], .list .declaration), (["flags"], .plain)]

/-- The fields of a signature. -/
def signature : FieldRoles :=
  [(["id"], .plain), (["kindString"], .kindName), (["name"], .plain), (["sources"], .plain),
    (["flags"], .plain), (["comment"], .plain),
    (["typeParameters", "typeParameter"], .list .typeParameter),
    (["parameters"], .list .parameter), (["type"], .type), (["inheritedFrom"], .raw)]

/-- The fields of a parameter. -/
def parameter : FieldRoles :=
  [(["id"], .plain), (["name"], .plain), (["type"], .type), (["comment"], .plain),
    (["defaultValue"], .plain), (["flags"], .plain)]

/-- The fields of a type parameter. -/
def typeParameter : FieldRoles :=
  [(["id"], .plain), (["name"], .plain), (["type", "constraint"], .type), (["comment"], .plain)]

/-- The fields that all declarations share. -/
def header : FieldRoles :=
  [(["id"], .plain), (["name"], .plain), (["originalName"], .plain), (["sources"], .plain),
    (["flags"], .plain), (["comment"], .plain), (["children"], .list .declaration)]

/-- The fields that a declaration of some kind has of its own. -/
def detail : DeclarationKind → FieldRoles
  | .accessor => [(["getSignature"], .signature), (["setSignature"], .signature)]
  | .classLike _ => [(["extendedTypes"], .list .type), (["implementedTypes"], .list .type),
      (["typeParameters", "typeParameter"], .list .typeParameter)]
  | .callable _ => [(["signatures"], .list .signature)]
  | .member _ => [(["type"], .type)]
  | .typeLiteral =>
    [(["variant"], .plain), (["signatures"], .list .signature), (["indexSignature"], .signature)]
  | .scope _ => []

/-- The fields that all type expressions share. -/
def typeHead : FieldRoles := [(["type"], .plain), (["typeArguments"], .list .type)]

/-- The fields that a type expression with some tag has of its own. -/
def typeContent : TypeTag → FieldRoles
  | .intrinsic => [(["name"], .plain)]
  | .reference =>
    [(["name"], .plain), (["target"], .plain), (["id"], .plain), (["package"], .plain),
      (["refersToTypeParameter"], .plain)]
  | .array => [(["elementType"], .type)]
  | .tuple => [(["elements"], .list .type)]
  | .union => [(["types"], .list .type)]
  | .intersection => [(["types"], .list .type)]
  | .operator => [(["operator"], .plain), (["target"], .type)]
  | .literal => [(["value"], .raw)]
  | .predicate => [(["name"], .plain), (["asserts"], .plain), (["targetType"], .type)]
  | .reflection => [(["declaration"], .declaration)]
  | .parameter => [(["name"], .plain)]
  | .unknown => [(["name"], .plain)]
  | .unmodelled _ => []

end FieldRoles

/-- The variant of a union that the entries of an object name under a key. -/
def Variants.among? {κ : Type} (vs : Variants κ) (field : String) (entries : List (String × Json)) :
    Option κ :=
  (entries.lookup field).bind fun j => (vs.tag .buffer j).toOption

namespace Role

/-- The fields of what is read from an object with these entries. -/
def fields (entries : List (String × Json)) : Role → FieldRoles
  | .project => .project
  | .declaration =>
    ((declarationVariants.among? "kindString" entries).map FieldRoles.detail).getD [] ++ .header
  | .signature => .signature
  | .parameter => .parameter
  | .typeParameter => .typeParameter
  | .type => .typeHead ++ ((typeVariants.among? "type" entries).map FieldRoles.typeContent).getD []
  | _ => []

/-- What the entry of a key is read as, in an object with these entries. -/
def entry (entries : List (String × Json)) (key : String) : Role → Role
  | .raw => .raw
  | .kindName => if entries.length = 1 then .kindContent else .plain
  | role => (role.fields entries).among key

/-- What the item at an index of an array is read as. Declarations and type expressions are not
given as arrays. -/
def item (index : Nat) : Role → Role
  | .list role => role
  | .raw => .raw
  | .project => FieldRoles.project.atIndex index
  | .signature => FieldRoles.signature.atIndex index
  | .parameter => FieldRoles.parameter.atIndex index
  | .typeParameter => FieldRoles.typeParameter.atIndex index
  | _ => .plain

/-- What a value is read as where this role is called for. An object with two entries or more does
not name a kind, and one that is not empty does not stand for the content of a kind. -/
def on (j : Json) : Role → Role
  | .kindName =>
    match j with
    | .obj (_ :: _ :: _) => .plain
    | _ => .kindName
  | .kindContent =>
    match j with
    | .obj (_ :: _) => .plain
    | _ => .kindContent
  | role => role

/-- What the value at a location inside a value is read as. -/
def inside (role : Role) : Json → Location → Role
  | j, [] => role.on j
  | .obj entries, .key key :: steps =>
    match entries.lookup key with
    | some inner => (role.entry entries key).inside inner steps
    | none => .plain
  | .arr items, .index index :: steps =>
    match items[index]? with
    | some inner => (role.item index).inside inner steps
    | none => .plain
  | _, _ => .plain

/-- Whether a value can stand for the name of a signature's kind, or for what follows that name.
Objects that can are those with at most one entry in place of the name, and below the only entry of
such an object those without entries. -/
def namesKind : Role → Bool
  | .kindName => true
  | .kindContent => true
  | _ => false

/-- An object in place of a name that names no kind has two entries at least. -/
theorem two_le_length_of_on {entries : List (String × Json)}
    (h : (Role.kindName.on (.obj entries)).namesKind = false) : 2 ≤ entries.length := by
  obtain _ | ⟨first, _ | ⟨second, rest⟩⟩ := entries
  · cases h
  · cases h
  · exact Nat.le_add_left 2 _

/-- An object that cannot be the content of a kind has an entry. -/
theorem ne_nil_of_on {entries : List (String × Json)}
    (h : (Role.kindContent.on (.obj entries)).namesKind = false) : entries ≠ [] := by
  rintro rfl
  cases h

/-- Inside an entry, its role counts. -/
theorem inside_entry {role : Role} {key : String} {before after : List (String × Json)}
    {inner : Json} (first : key ∉ before.map Prod.fst) (steps : Location) :
    role.inside (.obj (before ++ (key, inner) :: after)) (.key key :: steps)
      = (role.entry (before ++ (key, inner) :: after) key).inside inner steps := by
  rw [inside, lookup_first first]

/-- Inside an item, its role counts. -/
theorem inside_item {role : Role} {before after : List Json} {inner : Json} (steps : Location) :
    role.inside (.arr (before ++ inner :: after)) (.index before.length :: steps)
      = (role.item before.length).inside inner steps := by
  rw [inside, List.getElem?_append_right (Nat.le_refl _), Nat.sub_self, List.getElem?_cons_zero]

end Role

/-! ## Side by side -/

/-- Entries side by side: the values of each key are related, and on the second side the unknown
entry may stand between them. -/
inductive Alongside (x : UnknownEntry) (ρ : String → Json → Json → Prop) :
    List (String × Json) → List (String × Json) → Prop where
  | nil : Alongside x ρ [] []
  | keep {key : String} {j j' : Json} {entries entries' : List (String × Json)}
      (related : ρ key j j') (rest : Alongside x ρ entries entries') :
      Alongside x ρ ((key, j) :: entries) ((key, j') :: entries')
  | extra {entries entries' : List (String × Json)} (rest : Alongside x ρ entries entries') :
      Alongside x ρ entries ((x.key, x.value) :: entries')

namespace Alongside

variable {x : UnknownEntry} {ρ σ : String → Json → Json → Prop}

/-- Entries stand beside themselves. -/
theorem refl (hρ : ∀ key j, ρ key j j) (entries : List (String × Json)) :
    Alongside x ρ entries entries := by
  induction entries with
  | nil => exact .nil
  | cons entry entries ih => exact .keep (hρ _ _) ih

/-- Two pieces on each side make entries side by side. -/
theorem append {a a' b b' : List (String × Json)} (ha : Alongside x ρ a a')
    (hb : Alongside x ρ b b') : Alongside x ρ (a ++ b) (a' ++ b') := by
  induction ha with
  | nil => exact hb
  | keep related _ ih => exact .keep related ih
  | extra _ ih => exact .extra ih

/-- The values may be related in another way, if that follows for those that are there. -/
theorem imp_of_mem {entries entries' : List (String × Json)} (h : Alongside x ρ entries entries')
    (himp : ∀ key j j', (key, j) ∈ entries → (key, j') ∈ entries' → ρ key j j' → σ key j j') :
    Alongside x σ entries entries' := by
  induction h with
  | nil => exact .nil
  | keep related _ ih =>
    refine .keep (himp _ _ _ List.mem_cons_self List.mem_cons_self related) (ih ?_)
    exact fun key j j' hj hj' => himp key j j' (List.mem_cons_of_mem _ hj)
      (List.mem_cons_of_mem _ hj')
  | extra _ ih =>
    exact .extra (ih fun key j j' hj hj' => himp key j j' hj (List.mem_cons_of_mem _ hj'))

/-- A known key has related values on both sides, or none on either. -/
theorem lookup {entries entries' : List (String × Json)} (h : Alongside x ρ entries entries')
    {key : String} (hkey : key ∈ documentKeys) :
    (entries.lookup key = none ∧ entries'.lookup key = none)
      ∨ ∃ j j', entries.lookup key = some j ∧ entries'.lookup key = some j' ∧ ρ key j j' := by
  induction h with
  | nil => exact Or.inl ⟨rfl, rfl⟩
  | @keep other j j' _ _ related _ ih =>
    by_cases hother : key = other
    · subst hother
      exact Or.inr ⟨j, j', List.lookup_cons_self, List.lookup_cons_self, related⟩
    · simp only [List.lookup_cons, beq_false_of_ne hother]
      exact ih
  | extra _ ih =>
    -- the further entry has a key of its own, so it is not what is looked for
    have hother : key ≠ x.key := fun heq => x.unknown (heq ▸ hkey)
    simp only [List.lookup_cons, beq_false_of_ne hother]
    exact ih

end Alongside

/-- Two values side by side: their entries or their items are related according to their roles, or
else they are the same value without anything inside it. -/
inductive Json.Opened (x : UnknownEntry) (ρ : Role → Json → Json → Prop) (role : Role) :
    Json → Json → Prop where
  | obj {entries entries' : List (String × Json)}
      (inside : Alongside x (fun key => ρ (role.entry entries key)) entries entries') :
      Opened x ρ role (.obj entries) (.obj entries')
  | arr {items items' : List Json} (length : items.length = items'.length)
      (inside : ∀ i item item', items[i]? = some item → items'[i]? = some item' →
        ρ (role.item i) item item') :
      Opened x ρ role (.arr items) (.arr items')
  | scalar {j : Json} (flat : j.depth = 0) : Opened x ρ role j j

namespace Json

variable {x : UnknownEntry} {allowed : Role → Prop} {role : Role} {j j' : Json}

/-- The second value is the first one, or it has the further entry in an object that is read as what
is allowed. -/
def Padded (x : UnknownEntry) (allowed : Role → Prop) (role : Role) (j j' : Json) : Prop :=
  j = j' ∨ ∃ location, Inserted x location j j' ∧ allowed (role.inside j location)

/-- A value without a further entry. -/
theorem Padded.refl (j : Json) : Padded x allowed role j j := Or.inl rfl

/-- What is inside may be related in another way, if that follows for values that lie less deep. -/
theorem Opened.mono {ρ σ : Role → Json → Json → Prop} (h : Opened x ρ role j j')
    (himp : ∀ role i i', i.depth < j.depth → i'.depth < j'.depth → ρ role i i' → σ role i i') :
    Opened x σ role j j' := by
  cases h with
  | obj inside =>
    refine .obj (inside.imp_of_mem ?_)
    exact fun key i i' hi hi' => himp _ i i' (depth_entry_lt hi) (depth_entry_lt hi')
  | arr length inside =>
    refine .arr length ?_
    intro index i i' hi hi'
    exact himp _ i i' (depth_item_lt (List.mem_of_getElem? hi))
      (depth_item_lt (List.mem_of_getElem? hi')) (inside index i i' hi hi')
  | scalar flat => exact .scalar flat

/-- A value is itself side by side. -/
theorem opened_self {ρ : Role → Json → Json → Prop} (hρ : ∀ role i, ρ role i i) (role : Role)
    (j : Json) :
    Opened x ρ role j j := by
  cases j with
  | obj entries => exact .obj (Alongside.refl (fun _ _ => hρ _ _) entries)
  | arr items =>
    refine .arr rfl ?_
    intro index i i' hi hi'
    rw [hi] at hi'
    cases hi'
    exact hρ _ i
  | null => exact .scalar rfl
  | bool b => exact .scalar rfl
  | num n => exact .scalar rfl
  | str s => exact .scalar rfl

/-- **A further entry leaves all other parts of a value alone.** It is among the entries of the
value itself, or inside one of its parts, in an object whose role there is the same. -/
theorem Padded.opened (h : Padded x allowed role j j') : Opened x (Padded x allowed) role j j' := by
  rcases h with rfl | ⟨location, inserted, hallowed⟩
  · exact opened_self (fun _ => Padded.refl) role j
  · -- all that stands beside the place of the entry is the same on both sides
    have hself : ∀ part entries,
        Alongside x (fun key => Padded x allowed (role.entry entries key)) part part :=
      fun part _ => Alongside.refl (fun _ => Padded.refl) part
    cases inserted with
    | here fresh => exact .obj ((hself _ _).append (.extra (hself _ _)))
    | entry first inside =>
      rw [Role.inside_entry first] at hallowed
      exact .obj ((hself _ _).append (.keep (Or.inr ⟨_, inside, hallowed⟩) (hself _ _)))
    | @item location before after inner inner' inside =>
      rw [Role.inside_item] at hallowed
      refine .arr (by simp) ?_
      intro index i i' hi hi'
      -- only at the index of the item that the entry is in do the two arrays differ
      rcases Nat.lt_trichotomy index before.length with hlt | rfl | hgt
      · rw [List.getElem?_append_left hlt] at hi hi'
        rw [hi] at hi'
        cases hi'
        exact Padded.refl i
      · rw [List.getElem?_append_right (Nat.le_refl _), Nat.sub_self, List.getElem?_cons_zero]
          at hi hi'
        cases hi
        cases hi'
        exact Or.inr ⟨location, inside, hallowed⟩
      · obtain ⟨k, rfl⟩ := Nat.exists_eq_add_of_lt hgt
        have hindex : before.length + k + 1 - before.length = k + 1 := by omega
        rw [List.getElem?_append_right (by omega), hindex, List.getElem?_cons_succ] at hi hi'
        rw [hi] at hi'
        cases hi'
        exact Padded.refl i

/-- Wherever a further entry is, it is at a place where everything is allowed. -/
theorem Padded.anywhere (h : Padded x allowed role j j') (other : Role) :
    Padded x (fun _ => True) other j j' :=
  h.imp_right fun ⟨location, inserted, _⟩ => ⟨location, inserted, trivial⟩

/-- A padded value whose depth is known. -/
structure PaddedWithin (x : UnknownEntry) (allowed : Role → Prop) (n m : Nat) (role : Role)
    (j j' : Json) : Prop where
  padded : Padded x allowed role j j'
  left : j.depth ≤ n
  right : j'.depth ≤ m

/-- What is inside a value lies deeper. -/
theorem PaddedWithin.opened_succ {n m : Nat}
    (h : PaddedWithin x allowed (n + 1) (m + 1) role j j') :
    Opened x (PaddedWithin x allowed n m) role j j' := by
  refine h.padded.opened.mono ?_
  intro role i i' hi hi' hpadded
  have hleft := h.left
  have hright := h.right
  exact ⟨hpadded, by omega, by omega⟩

/-- There is no room for a further entry where there is nothing inside. -/
theorem PaddedWithin.flat {n m : Nat} (h : PaddedWithin x allowed n m role j j')
    (hflat : n = 0 ∨ m = 0) :
    j = j' ∧ j.depth = 0 := by
  have hleft := h.left
  have hright := h.right
  -- an object or array would lie deeper than either bound
  cases h.padded.opened with
  | obj _ =>
    rw [depth] at hleft hright
    omega
  | arr _ _ =>
    rw [depth] at hleft hright
    omega
  | scalar flat => exact ⟨rfl, flat⟩

/-- What is inside lies no deeper. -/
theorem PaddedWithin.opened {n m : Nat} (h : PaddedWithin x allowed n m role j j') :
    Opened x (PaddedWithin x allowed n m) role j j' := by
  refine h.padded.opened.mono ?_
  intro role i i' hi hi' hpadded
  have hleft := h.left
  have hright := h.right
  exact ⟨hpadded, by omega, by omega⟩

end Json

end DocAtlas
