import DocAtlas.Entity.Reader
import DocAtlas.Entity.Writer
import DocAtlas.Proofs.Reading

/-!
Entities survive being written and read back.

The proof follows the types: for each of them, `reads` says that what is written is read as the
value that was written, in whatever order the keys of its objects come (`Reads`). A type that is
spread over the object of another is recovered from any object that has its entries among others
(`recovers`).

The main result reads a list of entities back from its JSON as it is written, and from the same JSON
with the keys of every object ascending, as they are kept by a reader of text.
-/

set_option autoImplicit false

namespace DocAtlas

open Reader DocAtlas.Field

/-! ## Prose -/

/-- Prose of a kind is read from its kind and its text. -/
theorem reads_prose {kind text : String} {make : String → DescriptionItem}
    (hkind : proseKinds.ofName? kind = some make) :
    Reads readDescriptionItem (.obj [("kind", .str kind), ("text", .str text)]) (make text) := by
  refine reads_obj fun o entries' hre => ?_
  have hkeys := hre.nodup (by simp)
  -- the kind and the text are found, in whatever order they come
  have hfound : ∀ key s, (key, Json.str s) ∈ [("kind", Json.str kind), ("text", Json.str text)] →
      entries'.lookup key = some (.str s) := by
    intro key s hmem
    obtain ⟨value', hmem', hvalue⟩ := hre.exists_mem hmem
    cases hvalue
    exact Json.lookup_of_mem hkeys hmem'
  rw [readDescriptionItem, hfound "kind" kind (by simp), hfound "text" text (by simp)]
  simp only [Variants.readPlain, Variants.named, hkind]
  rfl

/-- Both kinds of prose are written under their kind, and read by it. -/
theorem DescriptionItem.reads (item : DescriptionItem) :
    Reads readDescriptionItem item.toJson item := by
  cases item with
  | text s => exact reads_prose rfl
  | code s => exact reads_prose rfl

theorem Description.reads (d : Description) : Reads readDescription (Description.toJson d) d :=
  reads_list DescriptionItem.reads d

/-- A deprecation is a truth value or a reason, and the reader tries the truth value first. -/
theorem Deprecation.reads (d : Deprecation) : Reads readDeprecation d.toJson d := by
  cases d with
  | flag deprecated => exact reads_either_first (reads_map _ (reads_boolean deprecated))
  | reason d =>
    -- a reason is an array, which is no truth value
    refine reads_either_second ?_ (reads_map _ d.reads)
    rintro o j' ⟨⟩
    exact ⟨_, rfl⟩

/-! ## Types -/

/-- A path is an array of texts. -/
theorem Pathname.reads (path : Pathname) : Reads readPathname (.ofStrings path) path :=
  reads_list reads_string path

/-- A link of a kind is read if its parts are recovered. -/
theorem reads_link {name : String} {kind : Record LinkParts × (LinkParts → TypeLink)}
    (hkind : linkKinds.ofName? name = some kind) {entries : List (String × Json)}
    {parts : LinkParts} (hname : ("kind", .str name) ∈ entries)
    (hkeys : (entries.map Prod.fst).Nodup) (h : kind.1.Recovers {} entries parts) :
    Reads readTypeLink (.obj entries) (kind.2 parts) := by
  refine Variants.reads_tagged hkind hname hkeys ?_
  intro _ j' hj'
  have hparts := h.reads hkeys .buffer j' hj'
  simp only [hparts]
  rfl

/-- A link is written with the parts of its kind only, and those of the other kind keep their
defaults. -/
theorem TypeLink.reads (link : TypeLink) : Reads readTypeLink link.toJson link := by
  cases link with
  | internal name path =>
    -- the fields of the record in order, each with the entry it is taken from
    refine @reads_link "internal" _ rfl _ { name := name, path := path } List.mem_cons_self ?_
      ⟨?_, _, .cons (takes_ofReader ?_ (reads_string name)) <|
      .cons (takes_ofReader ?_ (Pathname.reads path)) .nil,
      rfl⟩
    all_goals simp [Record.orderly_iff, required]
  | external name package sourceFileName qualifiedName =>
    refine @reads_link "external" _ rfl _ ⟨name, [], package, sourceFileName, qualifiedName⟩
      List.mem_cons_self ?_ ⟨?_, _,
      .cons (takes_ofReader ?_ (reads_string name)) <|
      .cons (takes_ofReader ?_ (reads_string package)) <|
      .cons (takes_ofReader ?_ (reads_string sourceFileName)) <|
      .cons (takes_ofReader ?_ (reads_string qualifiedName)) .nil,
      rfl⟩
    all_goals simp [Record.orderly_iff, required]

/-- A token is a text or a link, and the reader tries the text first. -/
theorem TypeToken.reads (token : TypeToken) : Reads readTypeToken token.toJson token := by
  cases token with
  | text s => exact reads_either_first (reads_map _ (reads_string s))
  | link target =>
    -- both kinds of link are objects, and no texts
    refine reads_either_second ?_ (reads_map _ target.reads)
    intro o j' hj'
    cases target <;> cases hj' <;> exact ⟨_, rfl⟩

theorem TypeText.reads (tokens : TypeText) : Reads readTypeText (TypeText.toJson tokens) tokens :=
  reads_list TypeToken.reads tokens

/-! ## Parts of entities -/

/-- The line is written as a natural number, which is the 32-bit number that is kept. -/
theorem TopLevel.ofOption_line (t : TopLevel) :
    Json.ofOption .ofNat t.line = .ofOption (fun n => .ofNat n.toNat) t.lineNumber := by
  rw [line]
  cases t.lineNumber <;> rfl

/-- What all entities have in common is recovered from the entries it is spread over. What can be
absent is written as `null` then. -/
theorem TopLevel.recovers (t : TopLevel) : TopLevel.record.Recovers .blank t.entries t where
  orderly := by simp [Record.orderly_iff, record, required, nullable]
  takes := by
    refine ⟨_,
      .cons (takes_ofReader ?_ (reads_string t.name)) <|
      .cons (takes_ofReader ?_ (Pathname.reads t.path)) <|
      .cons (takes_ofReader ?_ (reads_string t.filename)) <|
      .cons (takes_ofReader ?_ (reads_option (fun _ => ⟨_, rfl⟩) reads_string t.deppath)) <|
      .cons (takes_ofReader ?_ (reads_option (fun _ => ⟨_, rfl⟩) reads_uint32 t.lineNumber)) <|
      .cons (takes_ofReader ?_ (Description.reads t.description)) <|
      .cons (takes_ofReader ?_ t.deprecated.reads) <|
      .cons (takes_ofReader ?_ (reads_list Description.reads t.examples)) <|
      .cons
        (takes_ofReader ?_ (reads_option (fun _ => ⟨_, rfl⟩) Pathname.reads t.exportedFrom)) .nil,
      rfl⟩
    all_goals simp [entries, ofOption_line]

/-- The four flags of a member are recovered likewise. -/
theorem MemberProperties.recovers (m : MemberProperties) :
    MemberProperties.record.Recovers {} m.entries m where
  orderly := by simp [Record.orderly_iff, record, required]
  takes := by
    refine ⟨_,
      .cons (takes_ofReader ?_ (reads_boolean m.isAbstract)) <|
      .cons (takes_ofReader ?_ (reads_boolean m.isOptional)) <|
      .cons (takes_ofReader ?_ (reads_boolean m.isStatic)) <|
      .cons (takes_ofReader ?_ (reads_boolean m.isPrivate)) .nil,
      rfl⟩
    all_goals simp [entries]

/-- A parameter is an object of its own, with nothing spread over it. -/
theorem Param.reads (p : Param) : Reads readParam p.toJson p := by
  refine Record.Recovers.reads ⟨?_, _,
    .cons (takes_ofReader ?_ (reads_string p.name)) <|
    .cons (takes_ofReader ?_ (Description.reads p.description)) <|
    .cons (takes_ofReader ?_ (reads_boolean p.hasDefault)) <|
    .cons (takes_ofReader ?_ (reads_boolean p.isVariadic)) <|
    .cons (takes_ofReader ?_ (TypeText.reads p.type)) <|
    .cons (takes_ofReader ?_ (reads_option (fun _ => ⟨_, rfl⟩) reads_string p.default)) .nil,
    rfl⟩ ?_
  case refine_1 => simp [Record.orderly_iff, record, required, nullable]
  all_goals simp

theorem Return.reads (r : Return) : Reads readReturn r.toJson r := by
  refine Record.Recovers.reads ⟨?_, _,
    .cons (takes_ofReader ?_ (TypeText.reads r.type)) <|
    .cons (takes_ofReader ?_ (Description.reads r.description)) .nil,
    rfl⟩ ?_
  case refine_1 => simp [Record.orderly_iff, record, required]
  all_goals simp

theorem TypeParam.reads (p : TypeParam) : Reads readTypeParam p.toJson p := by
  refine Record.Recovers.reads ⟨?_, _,
    .cons (takes_ofReader ?_ (reads_string p.name)) <|
    .cons (takes_ofReader ?_ (reads_option (fun _ => ⟨_, rfl⟩) TypeText.reads p.extends_)) <|
    .cons (takes_ofReader ?_ (Description.reads p.description)) .nil,
    rfl⟩ ?_
  case refine_1 => simp [Record.orderly_iff, record, required, nullable]
  all_goals simp

/-! ## Functions and attributes -/

/-- Its own entries recover a function up to the parts that are spread over its object. -/
theorem Function.recovers (f : Function) :
    Function.record.Recovers ⟨.blank, {}, false, [], [], []⟩ f.entries
      { f with top := .blank, member := {} } where
  orderly := by simp [Record.orderly_iff, record, required]
  takes := by
    refine ⟨_,
      .cons (takes_ofReader ?_ (reads_boolean f.isAsync)) <|
      .cons (takes_ofReader ?_ (reads_list Param.reads f.params)) <|
      .cons (takes_ofReader ?_ (reads_list Return.reads f.returns)) <|
      .cons (takes_ofReader ?_ (reads_list TypeParam.reads f.typeParams)) .nil,
      rfl⟩
    all_goals simp [entries]

/-- A function is read from its entries, which others may stand among. -/
theorem Function.reads (f : Function) {entries : List (String × Json)} (hsub : f.entries ⊆ entries)
    (hkeys : (entries.map Prod.fst).Nodup) : Reads (fun _ => readFunction) (.obj entries) f := by
  have htop : f.top.entries ⊆ entries := fun _ h => hsub (by simp [Function.entries, h])
  have hmember : f.member.entries ⊆ entries := fun _ h => hsub (by simp [Function.entries, h])
  -- three readers go over the same entries, and each takes its own keys
  refine reads_obj fun o entries' hre => ?_
  simp only [readFunction, entriesOf, readFunctionEntries, bind, Except.bind,
    f.recovers.readEntries_eq hsub hkeys hre, f.top.recovers.readEntries_eq htop hkeys hre,
    f.member.recovers.readEntries_eq hmember hkeys hre]
  rfl

/-- Its own entries recover an attribute up to the parts that are spread over its object. -/
theorem Attribute.recovers (a : Attribute) :
    Attribute.record.Recovers ⟨.blank, {}, []⟩ a.entries
      { a with top := .blank, member := {} } where
  orderly := by simp [Record.orderly_iff, record, required]
  takes := by
    refine ⟨_, .cons (takes_ofReader ?_ (TypeText.reads a.type)) .nil, rfl⟩
    simp [entries]

/-- An attribute is read from its entries, which others may stand among. -/
theorem Attribute.reads (a : Attribute) {entries : List (String × Json)}
    (hsub : a.entries ⊆ entries) (hkeys : (entries.map Prod.fst).Nodup) :
    Reads (fun _ => readAttribute) (.obj entries) a := by
  have htop : a.top.entries ⊆ entries := fun _ h => hsub (by simp [Attribute.entries, h])
  have hmember : a.member.entries ⊆ entries := fun _ h => hsub (by simp [Attribute.entries, h])
  refine reads_obj fun o entries' hre => ?_
  simp only [readAttribute, entriesOf, bind, Except.bind, a.recovers.readEntries_eq hsub hkeys hre,
    a.top.recovers.readEntries_eq htop hkeys hre,
    a.member.recovers.readEntries_eq hmember hkeys hre]
  rfl

/-! ## Keys

No two keys of an object are the same, with its kind or without. -/

theorem Function.nodup_keys (f : Function) (kind : Json) :
    ((("kind", kind) :: f.entries).map Prod.fst).Nodup := by
  simp [entries, TopLevel.entries, MemberProperties.entries]

theorem Attribute.nodup_keys (a : Attribute) (kind : Json) :
    ((("kind", kind) :: a.entries).map Prod.fst).Nodup := by
  simp [entries, TopLevel.entries, MemberProperties.entries]

theorem Class.nodup_keys (c : Class) (kind : Json) :
    ((("kind", kind) :: c.entries).map Prod.fst).Nodup := by
  simp [entries, TopLevel.entries]

theorem Interface.nodup_keys (i : Interface) (kind : Json) :
    ((("kind", kind) :: i.entries).map Prod.fst).Nodup := by
  simp [entries, TopLevel.entries]

/-! ## Classes and interfaces -/

/-- A member is read by its kind, which stands before the entries of the function or attribute. -/
theorem ClassMember.reads (m : ClassMember) : Reads readClassMember m.toJson m := by
  cases m with
  | function f =>
    refine @Variants.reads_tagged _ _ memberKinds "function" _ _ _ _ _ _ rfl List.mem_cons_self
      (f.nodup_keys _) ?_
    exact reads_map _ (f.reads (List.subset_cons_self _ _) (f.nodup_keys _))
  | «attribute» a =>
    refine @Variants.reads_tagged _ _ memberKinds "attribute" _ _ _ _ _ _ rfl List.mem_cons_self
      (a.nodup_keys _) ?_
    exact reads_map _ (a.reads (List.subset_cons_self _ _) (a.nodup_keys _))

/-- Its own entries recover a class up to its common part. A constructor is a function without a
kind. -/
theorem Class.recovers (c : Class) :
    Class.record.Recovers ⟨.blank, none, [], [], [], false, []⟩ c.entries
      { c with top := .blank } where
  orderly := by simp [Record.orderly_iff, record, required, nullable]
  takes := by
    refine ⟨_,
      .cons (takes_ofReader ?_ (reads_option (fun _ => ⟨_, rfl⟩)
        (fun f => f.reads (List.Subset.refl _) (f.nodup_keys .null).of_cons) c.constructor)) <|
      .cons (takes_ofReader ?_ (reads_list ClassMember.reads c.members)) <|
      .cons (takes_ofReader ?_ (reads_list Pathname.reads c.supers)) <|
      .cons (takes_ofReader ?_ (reads_list Pathname.reads c.interfaces)) <|
      .cons (takes_ofReader ?_ (reads_boolean c.isAbstract)) <|
      .cons (takes_ofReader ?_ (reads_list TypeParam.reads c.typeParams)) .nil,
      rfl⟩
    all_goals simp [entries]

/-- A class is read from its entries, which others may stand among. -/
theorem Class.reads (c : Class) {entries : List (String × Json)} (hsub : c.entries ⊆ entries)
    (hkeys : (entries.map Prod.fst).Nodup) : Reads (fun _ => readClass) (.obj entries) c := by
  have htop : c.top.entries ⊆ entries := fun _ h => hsub (by simp [Class.entries, h])
  refine reads_obj fun o entries' hre => ?_
  simp only [readClass, entriesOf, bind, Except.bind, c.recovers.readEntries_eq hsub hkeys hre,
    c.top.recovers.readEntries_eq htop hkeys hre]
  rfl

/-- Its own entries recover an interface up to its common part. -/
theorem Interface.recovers (i : Interface) :
    Interface.record.Recovers ⟨.blank, [], [], []⟩ i.entries { i with top := .blank } where
  orderly := by simp [Record.orderly_iff, record, required]
  takes := by
    refine ⟨_,
      .cons (takes_ofReader ?_ (reads_list ClassMember.reads i.members)) <|
      .cons (takes_ofReader ?_ (reads_list Pathname.reads i.supers)) <|
      .cons (takes_ofReader ?_ (reads_list TypeParam.reads i.typeParams)) .nil,
      rfl⟩
    all_goals simp [entries]

/-- An interface is read from its entries, which others may stand among. -/
theorem Interface.reads (i : Interface) {entries : List (String × Json)}
    (hsub : i.entries ⊆ entries) (hkeys : (entries.map Prod.fst).Nodup) :
    Reads (fun _ => readInterface) (.obj entries) i := by
  have htop : i.top.entries ⊆ entries := fun _ h => hsub (by simp [Interface.entries, h])
  refine reads_obj fun o entries' hre => ?_
  simp only [readInterface, entriesOf, bind, Except.bind, i.recovers.readEntries_eq hsub hkeys hre,
    i.top.recovers.readEntries_eq htop hkeys hre]
  rfl

/-! ## Entities -/

/-- The entries of an entity never have its kind among them, nor a key twice. -/
theorem Entity.nodup_keys (e : Entity) (kind : Json) :
    ((("kind", kind) :: e.entries).map Prod.fst).Nodup := by
  cases e with
  | function f => exact f.nodup_keys kind
  | classEntity c => exact c.nodup_keys kind
  | interface i => exact i.nodup_keys kind
  | «attribute» a => exact a.nodup_keys kind

/-- **What is written for an entity is read as the entity**, in whatever order the keys come. -/
theorem Entity.reads (e : Entity) : Reads readEntity e.toJson e := by
  have hkeys := e.nodup_keys (.str e.kind)
  cases e with
  | function f =>
    refine @Variants.reads_tagged _ _ entityKinds "function" _ _ _ _ _ _ rfl List.mem_cons_self
      hkeys ?_
    exact reads_map _ (f.reads (List.subset_cons_self _ _) hkeys)
  | classEntity c =>
    refine @Variants.reads_tagged _ _ entityKinds "class" _ _ _ _ _ _ rfl List.mem_cons_self
      hkeys ?_
    exact reads_map _ (c.reads (List.subset_cons_self _ _) hkeys)
  | interface i =>
    refine @Variants.reads_tagged _ _ entityKinds "interface" _ _ _ _ _ _ rfl List.mem_cons_self
      hkeys ?_
    exact reads_map _ (i.reads (List.subset_cons_self _ _) hkeys)
  | «attribute» a =>
    refine @Variants.reads_tagged _ _ entityKinds "attribute" _ _ _ _ _ _ rfl List.mem_cons_self
      hkeys ?_
    exact reads_map _ (a.reads (List.subset_cons_self _ _) hkeys)

/-! ## Distinct keys -/

@[simp] theorem Json.distinctKeys_ofNat (n : Nat) : (Json.ofNat n).DistinctKeys := .num _

@[simp] theorem Json.distinctKeys_ofStrings (strings : List String) :
    (Json.ofStrings strings).DistinctKeys := by
  simp [ofStrings]

/-- A value that may be absent has no object with a key twice, if the values themselves do not. -/
theorem Json.distinctKeys_ofOption {α : Type} {write : α → Json} (h : ∀ a, (write a).DistinctKeys)
    (x : Option α) :
    (Json.ofOption write x).DistinctKeys := by
  cases x with
  | none => exact .null
  | some a => exact h a

/-- Prose is written without repeated keys. -/
@[simp] theorem Description.distinctKeys (d : Description) :
    (Description.toJson d).DistinctKeys := by
  rw [toJson, Json.distinctKeys_arr_iff, List.forall_mem_map]
  rintro (s | s) - <;> simp [DescriptionItem.toJson]

@[simp] theorem Deprecation.distinctKeys (d : Deprecation) : d.toJson.DistinctKeys := by
  cases d <;> simp [toJson]

/-- So are types, with their two kinds of link. -/
@[simp] theorem TypeText.distinctKeys (tokens : TypeText) :
    (TypeText.toJson tokens).DistinctKeys := by
  rw [toJson, Json.distinctKeys_arr_iff, List.forall_mem_map]
  rintro (s | ⟨name, path⟩ | ⟨name, package, sourceFileName, qualifiedName⟩) - <;>
    simp [TypeToken.toJson, TypeLink.toJson]

/-- The values of the common part have no repeated keys inside. -/
theorem TopLevel.distinctKeys (t : TopLevel) : ∀ entry ∈ t.entries, entry.2.DistinctKeys := by
  simp [entries, Json.distinctKeys_ofOption]

theorem MemberProperties.distinctKeys (m : MemberProperties) :
    ∀ entry ∈ m.entries, entry.2.DistinctKeys := by
  simp [entries]

@[simp] theorem Param.distinctKeys (p : Param) : p.toJson.DistinctKeys := by
  simp [toJson, Json.distinctKeys_ofOption]

@[simp] theorem Return.distinctKeys (r : Return) : r.toJson.DistinctKeys := by
  simp [toJson]

@[simp] theorem TypeParam.distinctKeys (p : TypeParam) : p.toJson.DistinctKeys := by
  simp [toJson, Json.distinctKeys_ofOption]

/-- Nor do those of a function, whose parts are appended. -/
theorem Function.distinctKeys (f : Function) : ∀ entry ∈ f.entries, entry.2.DistinctKeys := by
  rw [entries, List.forall_mem_append, List.forall_mem_append]
  exact ⟨⟨f.top.distinctKeys, f.member.distinctKeys⟩, by simp⟩

theorem Attribute.distinctKeys (a : Attribute) : ∀ entry ∈ a.entries, entry.2.DistinctKeys := by
  rw [entries, List.forall_mem_append, List.forall_mem_append]
  exact ⟨⟨a.top.distinctKeys, a.member.distinctKeys⟩, by simp⟩

@[simp] theorem ClassMember.distinctKeys (m : ClassMember) : m.toJson.DistinctKeys := by
  cases m with
  | function f => exact .obj (f.nodup_keys _) (List.forall_mem_cons.mpr ⟨.str _, f.distinctKeys⟩)
  | «attribute» a => exact .obj (a.nodup_keys _) (List.forall_mem_cons.mpr ⟨.str _, a.distinctKeys⟩)

/-- For a class this takes the object of the constructor, which is a function without a kind. -/
theorem Class.distinctKeys (c : Class) : ∀ entry ∈ c.entries, entry.2.DistinctKeys := by
  have hconstructor :
      (Json.ofOption (fun f : Function => .obj f.entries) c.constructor).DistinctKeys :=
    Json.distinctKeys_ofOption (fun f => .obj (f.nodup_keys .null).of_cons f.distinctKeys) _
  rw [entries, List.forall_mem_append]
  exact ⟨c.top.distinctKeys, by simp [hconstructor]⟩

theorem Interface.distinctKeys (i : Interface) : ∀ entry ∈ i.entries, entry.2.DistinctKeys := by
  rw [entries, List.forall_mem_append]
  exact ⟨i.top.distinctKeys, by simp⟩

/-- **What is written for an entity has no object with a key twice.** Only so can its keys be put in
order without a loss. -/
theorem Entity.distinctKeys (e : Entity) : e.toJson.DistinctKeys := by
  refine .obj (e.nodup_keys _) (List.forall_mem_cons.mpr ⟨.str _, ?_⟩)
  cases e with
  | function f => exact f.distinctKeys
  | classEntity c => exact c.distinctKeys
  | interface i => exact i.distinctKeys
  | «attribute» a => exact a.distinctKeys

/-- **Entities are read back as they were written**, from the JSON as it is and with its keys put in
order. -/
theorem readEntities_listToJson (entities : List Entity) :
    readEntities (Entity.listToJson entities) = .ok entities ∧
      readEntities (Entity.listToJson entities).ordered = .ok entities := by
  have hreads : Reads (list readEntity) (Entity.listToJson entities) entities :=
    reads_list Entity.reads entities
  have hkeys : (Entity.listToJson entities).DistinctKeys := by
    rw [Entity.listToJson, Json.distinctKeys_arr_iff, List.forall_mem_map]
    exact fun e _ => e.distinctKeys
  -- both texts are rearrangements of what is written, the first one the trivial one
  exact ⟨hreads .document _ hkeys.rearranged_self, hreads .document _ hkeys.rearranged_ordered⟩

end DocAtlas
