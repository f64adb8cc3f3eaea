import DocAtlas.Failure
import DocAtlas.Proofs.Agreement

/-!
What a document says does not depend on entries that nothing answers to.

Every reader of a document agrees with itself on a value and the same value with a further entry,
except in two kinds of places. What is kept as it stands differs, though it can be read as before.
And a signature may give its kind as an object with one entry, under which there may be an empty
object. So an object without entries and one with a single entry in place of the kind, and an empty
object under that entry, are read in another way with a further entry. An object with more entries
in one of these places is refused in either case. So a document with a further entry outside those
places is accepted just if it was before, and as the same project (`parseDocument_inserted`). In
each of the three objects a further entry can change whether a document is accepted
(`parseDocument_inserted_kindName`).

The readers for declarations and types are taken at the depths of the two values, which a further
entry may change. So the induction is on both depths at once (`readers_agree`).
-/

set_option autoImplicit false

namespace DocAtlas

open Json (Inserted Opened Padded PaddedWithin)
open Reader (agrees_string agrees_boolean agrees_int64 agrees_uint32 agrees_list agrees_option
  agrees_either agrees_map)
open DocAtlas.Field (fits_ofReader fits_orNamed)

variable {α : Type} {x : UnknownEntry} {exact : Prop}

/-! ## Plain values -/

/-- It makes no difference to a reader if there is a further entry anywhere in its value. -/
def Reader.Ignores (x : UnknownEntry) (r : Reader α) : Prop :=
  r.Agrees True (Padded x (fun _ => True) .plain) r

/-- A value with a further entry is opened side by side with the value itself. -/
theorem opens_padded (x : UnknownEntry) (allowed : Role → Prop) : Opens x (Padded x allowed) :=
  fun _ _ _ h => h.opened

section Plain

variable (x)

/-- A record whose fields all ignore further entries ignores them too, if its names are among those
that an unknown entry cannot have. -/
theorem Record.ignores_read {σ : Type} {r : Record σ} (names : List String)
    (hknown : (FieldRoles.plain names).Known)
    (h : FieldsFit True (Padded x fun _ => True) r.fields r.fields (.plain names)) (blank : σ) :
    (r.read blank).Ignores x :=
  (agrees_read_plain h rfl hknown blank).of_opened (opens_padded x _)

/-- The file and the line of a source. -/
theorem ignores_source : readSource.Ignores x := by
  have hopens := opens_padded x fun _ => True
  refine Record.ignores_read x ["fileName", "line"] (by decide) ?_ _
  exact .cons (fits_ofReader (agrees_string hopens))
    (.cons (fits_ofReader (agrees_uint32 hopens)) .nil)

theorem ignores_flags : readFlags.Ignores x := by
  have hflag : Reader.boolean.Ignores x := agrees_boolean (opens_padded x _)
  refine Record.ignores_read x
    ["isAbstract", "isExported", "isOptional", "isPrivate", "isRest", "isStatic"] (by decide) ?_ _
  exact .cons (fits_ofReader hflag) (.cons (fits_ofReader hflag) (.cons (fits_ofReader hflag)
    (.cons (fits_ofReader hflag) (.cons (fits_ofReader hflag) (.cons (fits_ofReader hflag) .nil)))))

/-- A part of a comment is read by its kind. Each kind has a record of plain texts. -/
theorem ignores_part : readPart.Ignores x := by
  have hopens := opens_padded x fun _ => True
  have hstring : Reader.string.Ignores x := agrees_string hopens
  have htext : ∀ title, FieldsFit True (Padded x fun _ => True) (textRecord title "text").fields
      (textRecord title "text").fields (.plain ["text"]) :=
    fun _ => .cons (fits_ofReader hstring) .nil
  refine (Variants.agrees_readTagged hopens (by decide) (fun _ => rfl) ?_).of_opened hopens
  -- texts and code are alike but for their name
  intro kind j j' _ hj
  cases kind with
  | text => exact (Record.agrees_read_plain (htext _) rfl (by decide) "" .buffer j j' hj).map_same _
  | code => exact (Record.agrees_read_plain (htext _) rfl (by decide) "" .buffer j j' hj).map_same _
  | inlineTag =>
    have hfits : FieldsFit True (Padded x fun _ => True)
        inlineTagRecord.fields inlineTagRecord.fields (.plain ["tag", "text"]) :=
      .cons (fits_ofReader hstring) (.cons (fits_ofReader hstring) .nil)
    exact (Record.agrees_read_plain hfits rfl (by decide) ("", "") .buffer j j' hj).map_same _

theorem ignores_comment : readComment.Ignores x := by
  have hopens := opens_padded x fun _ => True
  -- prose, in the summary and in every block tag
  have hparts : (Reader.list readPart).Ignores x := agrees_list hopens fun _ => ignores_part x
  have hblockTag : (blockTagRecord.read { tag := "" }).Ignores x := by
    refine Record.ignores_read x ["tag", "content"] (by decide) ?_ _
    exact .cons (fits_ofReader (agrees_string hopens)) (.cons (fits_ofReader hparts) .nil)
  refine Record.ignores_read x ["summary", "blockTags"] (by decide) ?_ _
  exact .cons (fits_ofReader hparts)
    (.cons (fits_ofReader (agrees_list hopens fun _ => hblockTag)) .nil)

/-- The target of a reference: a number is tried first, and an object after it. -/
theorem ignores_target : readTarget.Ignores x := by
  have hopens := opens_padded x fun _ => True
  have hstring : Reader.string.Ignores x := agrees_string hopens
  refine agrees_either (agrees_map (agrees_int64 hopens) _) (agrees_map ?_ _)
  refine Record.ignores_read x ["sourceFileName", "qualifiedName"] (by decide) ?_ _
  exact .cons (fits_ofReader hstring) (.cons (fits_ofReader hstring) .nil)

end Plain

/-! ## What is nested -/

/-- Fields that come first are found under their names, whatever comes after them. -/
theorem FieldRoles.follow_append_left (fields others : FieldRoles) :
    fields.Follow (fields ++ others).among := by
  intro field hfield name hname
  have hfound : (fields.find? fun field => field.1.contains name).isSome :=
    List.find?_isSome.mpr ⟨field, hfield, List.contains_iff_mem.mpr hname⟩
  rw [among, among, List.find?_append, Option.or_of_isSome hfound]

/-- The names that any kind of declaration answers to are known. -/
theorem known_detail (kind : DeclarationKind) : (FieldRoles.detail kind).Known := by
  cases kind <;> simp only [FieldRoles.detail] <;> decide

/-- The names that any kind of type answers to are known. -/
theorem known_typeContent (tag : TypeTag) : (FieldRoles.typeContent tag).Known := by
  cases tag <;> simp only [FieldRoles.typeContent] <;> decide

/-- No kind has a field under a name that all declarations share. -/
theorem follow_header (kind : DeclarationKind) :
    FieldRoles.header.Follow (FieldRoles.detail kind ++ .header).among := by
  cases kind <;> simp only [FieldRoles.detail] <;> decide

/-- No kind of type expression has a field under a name that all of them share. -/
theorem follow_typeContent (tag : TypeTag) :
    (FieldRoles.typeContent tag).Follow
      (.typeHead ++ FieldRoles.typeContent tag : FieldRoles).among := by
  cases tag <;> simp only [FieldRoles.typeContent] <;> decide

/-- A relation between values that makes no difference to plain readers, to kinds of signatures, and
to what is kept as it stands. -/
structure Unnoticed (x : UnknownEntry) (exact : Prop) (ρ : Role → Json → Json → Prop) : Prop where
  opens : Opens x ρ
  anywhere : ∀ role j j', ρ role j j' → Padded x (fun _ => True) .plain j j'
  kindName : signatureVariants.readPlain.Agrees exact (ρ .kindName) signatureVariants.readPlain
  raw : Reader.any.Agrees exact (ρ .raw) Reader.any

/-- Two pairs of readers agree. -/
structure Readers.Agree (exact : Prop) (ρ : Role → Json → Json → Prop) (r r' : Readers) : Prop where
  declaration : r.declaration.Agrees exact (ρ .declaration) r'.declaration
  type : r.type.Agrees exact (ρ .type) r'.type

section Nested

variable {ρ : Role → Json → Json → Prop} {r r' : Readers}

/-- A plain reader makes no difference between related values, in whatever place they stand. -/
theorem Unnoticed.ignores (hρ : Unnoticed x exact ρ) {read : Reader α} (h : read.Ignores x)
    {role : Role} :
    read.Agrees exact (ρ role) read :=
  fun o j j' hj => (h o j j' (hρ.anywhere role j j' hj)).mono fun _ _ same _ => same trivial

variable (hρ : Unnoticed x exact ρ) (hr : r.Agree exact ρ r')
include hρ hr

theorem agrees_readTypeParameter :
    (readTypeParameter r).Agrees exact (Opened x ρ .typeParameter) (readTypeParameter r') := by
  have hfits : FieldsFit exact ρ (typeParameterRecord r).fields (typeParameterRecord r').fields
      .typeParameter :=
    .cons (fits_ofReader (agrees_option hρ.opens (agrees_int64 hρ.opens)))
      (.cons (fits_ofReader (agrees_string hρ.opens))
      (.cons (fits_orNamed (agrees_option hρ.opens hr.type))
      (.cons (fits_ofReader (hρ.ignores (ignores_comment x))) .nil)))
  exact Record.agrees_read hfits rfl (by decide) (fun _ _ => rfl) (fun _ => rfl) _

theorem agrees_readParameter :
    (readParameter r).Agrees exact (Opened x ρ .parameter) (readParameter r') := by
  have hfits : FieldsFit exact ρ (parameterRecord r).fields (parameterRecord r').fields
      .parameter :=
    .cons (fits_ofReader (agrees_option hρ.opens (agrees_int64 hρ.opens)))
      (.cons (fits_ofReader (agrees_string hρ.opens))
      (.cons (fits_ofReader hr.type)
      (.cons (fits_ofReader (hρ.ignores (ignores_comment x)))
      (.cons (fits_ofReader (agrees_option hρ.opens (agrees_string hρ.opens)))
      (.cons (fits_ofReader (hρ.ignores (ignores_flags x))) .nil)))))
  exact Record.agrees_read hfits rfl (by decide) (fun _ _ => rfl) (fun _ => rfl) _

/-- Signatures are where the two exceptions are: the kind, and what is kept about inheritance. -/
theorem agrees_readSignature :
    (readSignature r).Agrees exact (Opened x ρ .signature) (readSignature r') := by
  have htypeParameter := (agrees_readTypeParameter hρ hr).of_opened hρ.opens
  have hparameter := (agrees_readParameter hρ hr).of_opened hρ.opens
  have hfits : FieldsFit exact ρ (signatureRecord r).fields (signatureRecord r').fields
      .signature :=
    .cons (fits_ofReader (agrees_option hρ.opens (agrees_int64 hρ.opens)))
      (.cons (fits_ofReader hρ.kindName)
      (.cons (fits_ofReader (agrees_string hρ.opens))
      (.cons (fits_ofReader (agrees_list hρ.opens fun _ => hρ.ignores (ignores_source x)))
      (.cons (fits_ofReader (hρ.ignores (ignores_flags x)))
      (.cons (fits_ofReader (hρ.ignores (ignores_comment x)))
      (.cons (fits_orNamed (agrees_list hρ.opens fun _ => htypeParameter))
      (.cons (fits_ofReader (agrees_list hρ.opens fun _ => hparameter))
      (.cons (fits_ofReader (agrees_option hρ.opens hr.type))
      (.cons (fits_ofReader (agrees_option hρ.opens hρ.raw)) .nil)))))))))
  exact Record.agrees_read hfits rfl (by decide) (fun _ _ => rfl) (fun _ => rfl) _

theorem agrees_readProjectRecord (blank : Project) :
    ((projectRecord r).read blank).Agrees exact (Opened x ρ .project)
      ((projectRecord r').read blank) := by
  have hfits : FieldsFit exact ρ (projectRecord r).fields (projectRecord r').fields .project :=
    .cons (fits_ofReader (agrees_option hρ.opens (agrees_int64 hρ.opens)))
      (.cons (fits_ofReader (agrees_option hρ.opens (agrees_string hρ.opens)))
      (.cons (fits_ofReader (agrees_list hρ.opens fun _ => hr.declaration))
      (.cons (fits_ofReader (hρ.ignores (ignores_flags x))) .nil)))
  exact Record.agrees_read hfits rfl (by decide) (fun _ _ => rfl) (fun _ => rfl) _

/-! ### Declarations -/

/-- What all declarations have, read from entries with others among them. -/
theorem agree_readHeader {roles : String → Role} (hroles : FieldRoles.header.Follow roles)
    (o : Origin) {entries entries' : List (String × Json)}
    (hentries : Alongside x (fun key => ρ (roles key)) entries entries') :
    Agree (Same exact) ((headerRecord r).readEntries o ({}, []) entries)
      ((headerRecord r').readEntries o ({}, []) entries') := by
  have hfits : FieldsFit exact ρ (headerRecord r).fields (headerRecord r').fields .header :=
    .cons (fits_ofReader (agrees_option hρ.opens (agrees_int64 hρ.opens)))
      (.cons (fits_ofReader (agrees_string hρ.opens))
      (.cons (fits_ofReader (agrees_option hρ.opens (agrees_string hρ.opens)))
      (.cons (fits_ofReader (agrees_list hρ.opens fun _ => hρ.ignores (ignores_source x)))
      (.cons (fits_ofReader (hρ.ignores (ignores_flags x)))
      (.cons (fits_ofReader (hρ.ignores (ignores_comment x)))
      (.cons (fits_ofReader (agrees_list hρ.opens fun _ => hr.declaration)) .nil))))))
  exact Record.agree_readEntries hfits (by decide) hroles _ hentries

/-- What the kind of a declaration adds. The reader of each kind is a record of its own. -/
theorem agree_readDetail (kind : DeclarationKind) {roles : String → Role}
    (hroles : (FieldRoles.detail kind).Follow roles) {entries entries' : List (String × Json)}
    (hentries : Alongside x (fun key => ρ (roles key)) entries entries') :
    Agree (Same exact) (readDetail r kind entries) (readDetail r' kind entries') := by
  have hsignature := (agrees_readSignature hρ hr).of_opened hρ.opens
  have htypeParameter := (agrees_readTypeParameter hρ hr).of_opened hρ.opens
  cases kind with
  | accessor =>
    have hfits : FieldsFit exact ρ (accessorRecord r).fields (accessorRecord r').fields
        (.detail .accessor) :=
      .cons (fits_ofReader (agrees_option hρ.opens hsignature))
        (.cons (fits_ofReader (agrees_option hρ.opens hsignature)) .nil)
    exact (Record.agree_readEntries hfits (known_detail _) hroles _ hentries).map_same _
  | classLike kind =>
    have hfits : FieldsFit exact ρ (classRecord r).fields (classRecord r').fields
        (.detail (.classLike kind)) :=
      .cons (fits_ofReader (agrees_list hρ.opens fun _ => hr.type))
        (.cons (fits_ofReader (agrees_list hρ.opens fun _ => hr.type))
        (.cons (fits_orNamed (agrees_list hρ.opens fun _ => htypeParameter)) .nil))
    exact (Record.agree_readEntries hfits (known_detail _) hroles _ hentries).map_same _
  | callable kind =>
    have hfits : FieldsFit exact ρ (callableRecord r).fields (callableRecord r').fields
        (.detail (.callable kind)) :=
      .cons (fits_ofReader (agrees_list hρ.opens fun _ => hsignature)) .nil
    exact (Record.agree_readEntries hfits (known_detail _) hroles _ hentries).map_same _
  | member kind =>
    have hfits : FieldsFit exact ρ (memberRecord r).fields (memberRecord r').fields
        (.detail (.member kind)) :=
      .cons (fits_ofReader hr.type) .nil
    exact (Record.agree_readEntries hfits (known_detail _) hroles _ hentries).map_same _
  | typeLiteral =>
    have hfits : FieldsFit exact ρ (typeLiteralRecord r).fields (typeLiteralRecord r').fields
        (.detail .typeLiteral) :=
      .cons (fits_ofReader (agrees_option hρ.opens (agrees_string hρ.opens)))
        (.cons (fits_ofReader (agrees_list hρ.opens fun _ => hsignature))
        (.cons (fits_ofReader (agrees_option hρ.opens hsignature)) .nil))
    exact (Record.agree_readEntries hfits (known_detail _) hroles _ hentries).map_same _
  -- a scope has no fields of its own
  | scope kind => exact Agree.refl exact _

/-- A declaration is read by its kind, which is found alike in both objects, and so are its
fields. -/
theorem agrees_readDeclarationWith :
    (readDeclarationWith r).Agrees exact (Opened x ρ .declaration) (readDeclarationWith r') := by
  refine Variants.agrees_readTagged hρ.opens (by decide) (fun _ => rfl) ?_
  intro kind j j' hkind hj
  cases hj with
  | @obj entries entries' inside =>
    -- the places of the entries depend on the kind, which both objects name
    have hroles : (fun key => ρ (Role.entry entries key .declaration))
        = fun key => ρ ((FieldRoles.detail kind ++ .header).among key) := by
      simp only [Role.entry, Role.fields, hkind entries rfl, Option.map_some, Option.getD_some]
    rw [hroles] at inside
    refine (agree_readDetail hρ hr kind (FieldRoles.follow_append_left _ _) inside).bind
      fun detail detail' hdetail => ?_
    refine (agree_readHeader hρ hr (follow_header kind) .buffer inside).bind
      fun head head' hhead => ?_
    exact .ok fun hexact => by rw [hdetail hexact, hhead hexact]
  -- an array is refused with the same message, whatever it contains
  | arr _ _ => exact .error (Fault.message_invalidType rfl _)
  | @scalar j flat =>
    cases j with
    | obj entries => simp [Json.depth] at flat
    | _ => exact Agree.refl exact _

/-! ### Type expressions -/

/-- What all type expressions have: the tag and the arguments. -/
theorem agree_readTypeHead {roles : String → Role} (hroles : FieldRoles.typeHead.Follow roles)
    (o : Origin) {entries entries' : List (String × Json)}
    (hentries : Alongside x (fun key => ρ (roles key)) entries entries') :
    Agree (Same exact) ((typeHeadRecord r).readEntries o (none, []) entries)
      ((typeHeadRecord r').readEntries o (none, []) entries') := by
  have hfits : FieldsFit exact ρ (typeHeadRecord r).fields (typeHeadRecord r').fields .typeHead :=
    .cons (fits_ofReader (typeVariants.agrees_tag exact hρ.opens))
      (.cons (fits_ofReader (agrees_option hρ.opens (agrees_list hρ.opens fun _ => hr.type))) .nil)
  exact Record.agree_readEntries hfits (by decide) hroles _ hentries

/-- What the tag of a type expression adds. -/
theorem agree_readTypeKind (tag : TypeTag) {roles : String → Role}
    (hroles : (FieldRoles.typeContent tag).Follow roles) {entries entries' : List (String × Json)}
    (hentries : Alongside x (fun key => ρ (roles key)) entries entries') :
    Agree (Same exact) (readTypeKind r tag entries) (readTypeKind r' tag entries') := by
  -- three of the kinds have a name only, and three have a list of types only
  have hname : ∀ title, FieldsFit exact ρ (textRecord title "name").fields
      (textRecord title "name").fields (.plain ["name"]) :=
    fun _ => .cons (fits_ofReader (agrees_string hρ.opens)) .nil
  have htypes : ∀ variant field presence,
      FieldsFit exact ρ (typesRecord r variant field presence).fields
        (typesRecord r' variant field presence).fields [([field], .list .type)] :=
    fun _ _ _ => .cons (fits_ofReader (agrees_list hρ.opens fun _ => hr.type)) .nil
  cases tag with
  | intrinsic =>
    exact (Record.agree_readEntries (hname _) (known_typeContent .intrinsic) hroles
      _ hentries).map_same _
  | reference =>
    have hfits : FieldsFit exact ρ referenceRecord.fields referenceRecord.fields
        (.typeContent .reference) :=
      .cons (fits_ofReader (agrees_string hρ.opens))
        (.cons (fits_ofReader (agrees_option hρ.opens (hρ.ignores (ignores_target x))))
        (.cons (fits_ofReader (agrees_option hρ.opens (agrees_int64 hρ.opens)))
        (.cons (fits_ofReader (agrees_option hρ.opens (agrees_string hρ.opens)))
        (.cons (fits_ofReader (agrees_boolean hρ.opens)) .nil))))
    exact (Record.agree_readEntries hfits (known_typeContent _) hroles _ hentries).map_same _
  | array =>
    refine Agree.map_same (Record.agree_readEntries ?_ (known_typeContent _) hroles _ hentries) _
    exact .cons (fits_ofReader hr.type) .nil
  | tuple =>
    exact (Record.agree_readEntries (htypes _ _ _) (known_typeContent .tuple) hroles
      _ hentries).map_same _
  | union =>
    exact (Record.agree_readEntries (htypes _ _ _) (known_typeContent .union) hroles
      _ hentries).map_same _
  | intersection =>
    exact (Record.agree_readEntries (htypes _ _ _) (known_typeContent .intersection) hroles
      _ hentries).map_same _
  | operator =>
    have hfits : FieldsFit exact ρ (operatorRecord r).fields (operatorRecord r').fields
        (.typeContent .operator) :=
      .cons (fits_ofReader (agrees_string hρ.opens)) (.cons (fits_ofReader hr.type) .nil)
    exact (Record.agree_readEntries hfits (known_typeContent _) hroles _ hentries).map_same _
  | literal =>
    refine Agree.map_same (Record.agree_readEntries ?_ (known_typeContent _) hroles _ hentries) _
    exact .cons (fits_ofReader hρ.raw) .nil
  | predicate =>
    have hfits : FieldsFit exact ρ (predicateRecord r).fields (predicateRecord r').fields
        (.typeContent .predicate) :=
      .cons (fits_ofReader (agrees_string hρ.opens))
        (.cons (fits_ofReader (agrees_boolean hρ.opens))
        (.cons (fits_ofReader (agrees_option hρ.opens hr.type)) .nil))
    exact (Record.agree_readEntries hfits (known_typeContent _) hroles _ hentries).map_same _
  | reflection =>
    refine Agree.map_same (Record.agree_readEntries ?_ (known_typeContent _) hroles _ hentries) _
    exact .cons (fits_ofReader hr.declaration) .nil
  | parameter =>
    exact (Record.agree_readEntries (hname _) (known_typeContent .parameter) hroles
      _ hentries).map_same _
  | unknown =>
    exact (Record.agree_readEntries (hname _) (known_typeContent .unknown) hroles
      _ hentries).map_same _
  | unmodelled kind => exact Agree.refl exact _

omit hρ hr in
/-- The tag is what the first field of the head sets, and the other one leaves it as it is. -/
theorem shows_typeHeadRecord (r : Readers) :
    (typeHeadRecord r).Shows "type" typeVariants.tag (fun v p => (some v, p.2))
      [.defaulted "typeArguments" (Reader.option (Reader.list r.type)) fun v p => (p.1, v.getD [])]
      Prod.fst where
  fields := rfl
  view_set _ _ := rfl
  view_rest := by
    intro f hf o j change hchange v
    obtain rfl := List.mem_singleton.mp hf
    simp only [Field.defaulted, Field.ofReader] at hchange
    generalize Reader.option (Reader.list r.type) o j = arguments at hchange
    cases arguments with
    | error e => cases hchange
    | ok arguments =>
      cases hchange
      rfl
  name_rest := by
    intro f hf
    obtain rfl := List.mem_singleton.mp hf
    show "typeArguments" ≠ "type"
    decide

omit hρ hr in
/-- A type expression whose head can be read has the tag that its entries name. -/
theorem exists_typeTag {o : Origin} {entries : List (String × Json)}
    {head : Option TypeTag × List TypeExpr}
    (h : (typeHeadRecord r).readEntries o (none, []) entries = .ok head) :
    ∃ tag arguments, head = (some tag, arguments)
      ∧ typeVariants.among? "type" entries = some tag := by
  obtain ⟨j, tag, hlookup, htag, hview⟩ := (shows_typeHeadRecord r).lookup h
  exact ⟨tag, head.2, Prod.ext hview rfl, Variants.among?_eq_some hlookup htag⟩

/-- A type expression is read head first, and then by the tag that the head gave. -/
theorem agrees_readTypeWith :
    (readTypeWith r).Agrees exact (Opened x ρ .type) (readTypeWith r') := by
  intro o j j' hj
  cases hj with
  | @obj entries entries' inside =>
    have hhead := agree_readTypeHead hρ hr (FieldRoles.follow_append_left _ _) o inside
    have hsame := typeVariants.among?_eq hρ.opens (by decide : "type" ∈ documentKeys) inside
    show Agree (Same exact) ((typeHeadRecord r).readEntries o (none, []) entries >>= _)
      ((typeHeadRecord r').readEntries o (none, []) entries' >>= _)
    -- the head can differ in its arguments, so what comes behind it is looked at for either head
    generalize hleft : (typeHeadRecord r).readEntries o (none, []) entries = head,
      hright : (typeHeadRecord r').readEntries o (none, []) entries' = head' at hhead ⊢
    cases hhead with
    | error text => exact .error text
    | ok same =>
      obtain ⟨tag, arguments, rfl, htag⟩ := exists_typeTag hleft
      obtain ⟨tag', arguments', rfl, htag'⟩ := exists_typeTag hright
      -- the tags are the same even if the arguments are not, so the contents are read alike
      obtain rfl : tag = tag' := Option.some.inj (htag.symm.trans (hsame.trans htag'))
      have hroles : (fun key => ρ (Role.entry entries key .type))
          = fun key => ρ ((.typeHead ++ FieldRoles.typeContent tag : FieldRoles).among key) := by
        simp only [Role.entry, Role.fields, htag, Option.map_some, Option.getD_some]
      rw [hroles] at inside
      refine (agree_readTypeKind hρ hr tag (follow_typeContent tag) inside).bind
        fun kind kind' hkind => ?_
      exact .ok fun hexact => by rw [hkind hexact, (Prod.mk.inj (same hexact)).2]
  | arr _ _ => exact .error (Fault.message_invalidType rfl _)
  | @scalar j flat =>
    cases j with
    | obj entries => simp [Json.depth] at flat
    | _ => exact Agree.refl exact _

end Nested

/-! ## All depths -/

/-- A further entry is out of the way: it is not in the name of a signature's kind nor, if the
results are to be the same, in a value that is kept as it stands. -/
def Role.Spares (exact : Prop) (role : Role) : Prop :=
  role.namesKind = false ∧ (exact → role ≠ .raw)

/-- A further entry in a value that is kept is kept as well. -/
theorem inside_raw {location : Location} {j j' : Json} (h : Inserted x location j j') :
    Role.raw.inside j location = .raw := by
  induction h with
  | here _ => rfl
  | entry first _ ih => rw [Role.inside_entry first]; exact ih
  | item _ ih => rw [Role.inside_item]; exact ih

/-- What is kept as it stands can be read with a further entry, and is the same only without one. -/
theorem agrees_any : Reader.any.Agrees exact (Padded x (Role.Spares exact) .raw) Reader.any := by
  rintro o j j' (rfl | ⟨location, inserted, -, hraw⟩)
  · exact Agree.refl exact _
  · exact .ok fun hexact => absurd (inside_raw inserted) (hraw hexact)

namespace Variants

variable {κ : Type} {vs : Variants κ} {o : Origin}

/-- A kind whose name comes with an object that has entries is not taken. -/
theorem readPlain_filled {name : String} {variant : κ} (hname : vs.named name = .ok variant)
    {entries : List (String × Json)} (h : entries ≠ []) :
    vs.readPlain o (.obj [(name, .obj entries)]) = .error (.invalidType (.obj entries) .unit) := by
  rw [readPlain, hname]
  cases entries with
  | nil => exact absurd rfl h
  | cons first rest => cases o <;> rfl

/-- Under the name of a kind, something further makes no difference except in an empty object. -/
theorem agree_readPlain_content {name : String} {location : Location} {j j' : Json}
    (h : Inserted x location j j')
    (hspares : (Role.kindContent.inside j location).namesKind = false) :
    Agree (Same exact) (vs.readPlain o (.obj [(name, j)]))
      (vs.readPlain o (.obj [(name, j')])) := by
  cases hname : vs.named name with
  | error e =>
    rw [readPlain, readPlain, hname]
    exact .error rfl
  | ok variant =>
    cases h with
    | here _ =>
      -- the object has an entry already, so it is not taken without the further one either
      rw [readPlain_filled hname (Role.ne_nil_of_on hspares), readPlain_filled hname (by simp)]
      exact .error (Fault.message_invalidType rfl _)
    | entry _ _ =>
      rw [readPlain_filled hname (by simp), readPlain_filled hname (by simp)]
      exact .error (Fault.message_invalidType rfl _)
    | item _ =>
      rw [readPlain, readPlain, hname]
      cases o <;> exact .error (Fault.message_invalidType rfl _)

/-- An object with two entries or more names no kind. -/
theorem readPlain_many {entries : List (String × Json)} (h : 2 ≤ entries.length) :
    vs.readPlain o (.obj entries) = .error (.invalidValue (.obj entries) .singleKeyMap) := by
  obtain _ | ⟨first, _ | ⟨second, rest⟩⟩ := entries
  · cases h
  · simp at h
  · rw [readPlain]
    simp

/-- **A kind is read as before if the further entry is not in an object that can name it.** An
object with two entries or more names no kind, with or without the further one. -/
theorem agrees_readPlain :
    vs.readPlain.Agrees exact (Padded x (Role.Spares exact) .kindName) vs.readPlain := by
  rintro o j j' (rfl | ⟨location, inserted, hspares, -⟩)
  · exact Agree.refl exact _
  · cases inserted with
    | @here before after _ =>
      have hmany : 2 ≤ (before ++ after).length := Role.two_le_length_of_on hspares
      have hmore : 2 ≤ (before ++ (x.key, x.value) :: after).length := by
        rw [List.length_append] at hmany
        rw [List.length_append, List.length_cons]
        omega
      rw [readPlain_many hmany, readPlain_many hmore]
      exact .error rfl
    | @entry key location before after inner inner' first inside =>
      rw [Role.inside_entry first] at hspares
      -- only as the one entry of its object can it be the name of the kind
      by_cases hsingle : before = [] ∧ after = []
      · obtain ⟨rfl, rfl⟩ := hsingle
        exact agree_readPlain_content inside hspares
      · have hmany : ∀ value, 2 ≤ (before ++ (key, value) :: after).length := by
          intro value
          rw [List.length_append, List.length_cons]
          have hlength : before.length + after.length ≠ 0 := by
            intro hzero
            exact hsingle ⟨List.eq_nil_of_length_eq_zero (by omega),
              List.eq_nil_of_length_eq_zero (by omega)⟩
          omega
        rw [readPlain_many (hmany inner), readPlain_many (hmany inner')]
        exact .error rfl
    | item _ => exact .error (Fault.message_invalidType rfl _)

end Variants

/-- A further entry that is out of the way is not noticed. -/
theorem unnoticed_paddedWithin (x : UnknownEntry) (exact : Prop) (n m : Nat) :
    Unnoticed x exact (PaddedWithin x (Role.Spares exact) n m) where
  opens _ _ _ h := h.opened
  anywhere _ _ _ h := h.padded.anywhere .plain
  kindName o j j' h := Variants.agrees_readPlain o j j' h.padded
  raw o j j' h := agrees_any o j j' h.padded

/-- A value with nothing inside is neither a declaration nor a type, at any depth. -/
theorem readers_scalar (n : Nat) (o : Origin) {j : Json} (h : j.depth = 0) :
    (readers n).declaration o j = .error (.invalidType j (.union "Node"))
      ∧ (readers n).type o j = .error (.invalidType j .typeExpression) := by
  cases n with
  | zero => exact ⟨rfl, rfl⟩
  | succ n =>
    cases j with
    | obj entries => simp [Json.depth] at h
    | arr items => simp [Json.depth] at h
    | _ => exact ⟨rfl, rfl⟩

/-- Where one of the two values has nothing inside, they are the same value, and it is refused. -/
theorem readers_agree_flat (x : UnknownEntry) (exact : Prop) {n m : Nat} (hflat : n = 0 ∨ m = 0) :
    (readers n).Agree exact (PaddedWithin x (Role.Spares exact) n m) (readers m) := by
  constructor
  · intro o j j' hj
    obtain ⟨rfl, hdepth⟩ := hj.flat hflat
    rw [(readers_scalar n o hdepth).1, (readers_scalar m o hdepth).1]
    exact .error rfl
  · intro o j j' hj
    obtain ⟨rfl, hdepth⟩ := hj.flat hflat
    rw [(readers_scalar n o hdepth).2, (readers_scalar m o hdepth).2]
    exact .error rfl

/-- **The readers for declarations and types agree at any two depths.** Where one of the values has
nothing inside it, there is no room for a further entry, and neither value is read. Otherwise the
two values are opened side by side. -/
theorem readers_agree (x : UnknownEntry) (exact : Prop) (n m : Nat) :
    (readers n).Agree exact (PaddedWithin x (Role.Spares exact) n m) (readers m) := by
  induction n generalizing m with
  | zero => exact readers_agree_flat x exact (Or.inl rfl)
  | succ n ih =>
    cases m with
    | zero => exact readers_agree_flat x exact (Or.inr rfl)
    | succ m =>
      -- the values inside are one step less deep, and there the induction hypothesis holds
      have hρ := unnoticed_paddedWithin x exact n m
      exact ⟨fun o j j' hj => agrees_readDeclarationWith hρ (ih m) o j j' hj.opened_succ,
        fun o j j' hj => agrees_readTypeWith hρ (ih m) o j j' hj.opened_succ⟩

/-- **A project is read alike with a further entry that is out of the way.** -/
theorem agrees_readProject (x : UnknownEntry) (exact : Prop) :
    readProject.Agrees exact (Padded x (Role.Spares exact) .project) readProject := by
  intro o j j' hj
  have hwithin : PaddedWithin x (Role.Spares exact) j.depth j'.depth .project j j' :=
    ⟨hj, Nat.le_refl _, Nat.le_refl _⟩
  have hρ := unnoticed_paddedWithin x exact j.depth j'.depth
  exact agrees_readProjectRecord hρ (readers_agree x exact _ _) {} o j j' hwithin.opened

/-! ## Documents -/

/-- A document is accepted if it can be read, and otherwise the fault is narrowed down. -/
theorem outcome_parseDocument (document : Json) :
    (parseDocument document).outcome = match readProject .document document with
      | .ok project => (.ok project, [])
      | .error bulk => (.error (.mismatch (narrow document bulk)), [.documentRejected bulk]) := by
  rw [parseDocument]
  cases readProject .document document <;> rfl

/-- A document is accepted as what it is read as. -/
theorem outcome_parseDocument_eq_ok_iff {document : Json} {project : Project} :
    (parseDocument document).outcome = (.ok project, [])
      ↔ readProject .document document = .ok project := by
  rw [outcome_parseDocument]
  cases readProject .document document <;> simp

/-- A document is accepted if it is found to be readable. -/
theorem exists_outcome_of_isSome {document : Json}
    (h : (readProject .document document).toOption.isSome = true) :
    ∃ project, (parseDocument document).outcome = (.ok project, []) := by
  cases hread : readProject .document document with
  | ok project => exact ⟨project, outcome_parseDocument_eq_ok_iff.mpr hread⟩
  | error e =>
    rw [hread] at h
    cases h

/-- **Entries that nothing answers to make no difference to what a document says.** If one is put
into any object, the document is accepted just if it was before, and as the same project. The
exceptions are a value that is kept as it stands, an object with at most one entry that is given for
the kind of a signature, and an empty object under the only entry of such an object. -/
theorem parseDocument_inserted {document document' : Json} {location : Location}
    (hinserted : document.Inserted x location document')
    (hraw : Role.project.inside document location ≠ .raw)
    (hkind : (Role.project.inside document location).namesKind = false) (project : Project) :
    (parseDocument document).outcome = (.ok project, [])
      ↔ (parseDocument document').outcome = (.ok project, []) := by
  have hpadded : Padded x (Role.Spares True) .project document document' :=
    Or.inr ⟨location, hinserted, hkind, fun _ => hraw⟩
  have hread := agrees_readProject x True .document document document' hpadded
  rw [outcome_parseDocument_eq_ok_iff, outcome_parseDocument_eq_ok_iff]
  -- both are accepted, as the same project, or both are refused
  generalize readProject .document document = read, readProject .document document' = read'
    at hread ⊢
  cases hread with
  | ok same => rw [same trivial]
  | error _ => simp

/-- A remark that looks like a declaration and like a type expression, of kinds that there are
not. -/
def remark : UnknownEntry where
  key := "remark"
  value := .obj [("kindString", .str "Sticky"), ("type", .str "nonsense")]
  unknown := by decide

/-- A variable whose type is an array, with these entries of the type of its elements. -/
def arrayOf (element : List (String × Json)) : Json :=
  .obj [("children", .arr [.obj [("kindString", .str "Variable"), ("name", .str "v"),
    ("type", .obj [("elementType", .obj element), ("type", .str "array")])]])]

/-- Where the type of the elements stands. -/
def elementPlace : Location := [.key "children", .index 0, .key "type", .key "elementType"]

/-- An entry in the type of the elements is an entry in the document, four steps inside. -/
theorem inserted_arrayOf {element element' : List (String × Json)}
    (h : Inserted x [] (.obj element) (.obj element')) :
    (arrayOf element).Inserted x elementPlace (arrayOf element') :=
  @Inserted.entry x "children" _ [] [] _ _ (by decide)
    (@Inserted.item x _ [] [] _ _
    (@Inserted.entry x "type" _ [("kindString", .str "Variable"), ("name", .str "v")]
      [] _ _ (by decide)
    (@Inserted.entry x "elementType" _ [] [("type", .str "array")] _ _ (by decide) h)))

/-- A remark inside the type of a variable is passed over. -/
theorem parseDocument_inserted_elementType :
    ∃ project,
      (parseDocument (arrayOf [("name", .str "string"), ("type", .str "intrinsic")])).outcome
        = (.ok project, [])
      ∧ (parseDocument (arrayOf [("name", .str "string"), ("remark", remark.value),
        ("type", .str "intrinsic")])).outcome = (.ok project, []) := by
  have hhere : Inserted remark [] (.obj [("name", .str "string"), ("type", .str "intrinsic")])
      (.obj [("name", .str "string"), ("remark", remark.value), ("type", .str "intrinsic")]) :=
    @Inserted.here remark [("name", .str "string")] [("type", .str "intrinsic")] (by decide)
  have hreadable : (readProject .document
      (arrayOf [("name", .str "string"), ("type", .str "intrinsic")])).toOption.isSome = true := by
    decide +kernel
  obtain ⟨project, hproject⟩ := exists_outcome_of_isSome hreadable
  refine ⟨project, hproject, ?_⟩
  exact (parseDocument_inserted (inserted_arrayOf hhere) (by decide +kernel)
    (by decide +kernel) project).mp hproject

/-- A function whose signature gives its kind as an object with these entries. -/
def functionOfKind (kind : List (String × Json)) : Json :=
  .obj [("children", .arr [.obj [("kindString", .str "Function"),
    ("signatures", .arr [.obj [("kindString", .obj kind)]])]])]

/-- Where the kind stands. -/
def kindPlace : Location :=
  [.key "children", .index 0, .key "signatures", .index 0, .key "kindString"]

/-- An entry in the kind of the signature is an entry in the document, five steps inside. -/
theorem inserted_functionOfKind {steps : Location} {kind kind' : List (String × Json)}
    (h : Inserted x steps (.obj kind) (.obj kind')) :
    (functionOfKind kind).Inserted x (kindPlace ++ steps) (functionOfKind kind') :=
  @Inserted.entry x "children" _ [] [] _ _ (by decide)
    (@Inserted.item x _ [] [] _ _
    (@Inserted.entry x "signatures" _ [("kindString", .str "Function")] [] _ _ (by decide)
    (@Inserted.item x _ [] [] _ _
    (@Inserted.entry x "kindString" _ [] [] _ _ (by decide) h))))

/-- A document is read as some project. -/
def Accepted (document : Json) : Prop :=
  ∃ project, (parseDocument document).outcome = (.ok project, [])

/-- Whether a document is accepted can be found out by reading it. -/
theorem accepted_iff_isSome (document : Json) :
    Accepted document ↔ (readProject .document document).toOption.isSome = true := by
  refine ⟨?_, exists_outcome_of_isSome⟩
  rintro ⟨project, hproject⟩
  rw [outcome_parseDocument_eq_ok_iff.mp hproject]
  rfl

instance (document : Json) : Decidable (Accepted document) :=
  decidable_of_iff _ (accepted_iff_isSome document).symm

/-- A document is accepted until a further entry is put in, though not into a value that is kept as
it stands. -/
def LostWith (x : UnknownEntry) (location : Location) (document document' : Json) : Prop :=
  document.Inserted x location document' ∧ Role.project.inside document location ≠ .raw
    ∧ Accepted document ∧ ¬ Accepted document'

/-- A document is not accepted until a further entry is put in, though not into a value that is kept
as it stands. -/
def FoundWith (x : UnknownEntry) (location : Location) (document document' : Json) : Prop :=
  document.Inserted x location document' ∧ Role.project.inside document location ≠ .raw
    ∧ ¬ Accepted document ∧ Accepted document'

/-- An entry that would name the kind of a signature, if there was no other. -/
def loneKind : UnknownEntry where
  key := "Call signature"
  value := .null
  unknown := by decide

/-- A remark in the object that gives the kind of a signature is a way to lose a document, and so is
one in the empty object that may stand under the name of the kind. An empty object in place of the
kind is refused, until the name of a kind is put into it. -/
theorem parseDocument_inserted_kindName :
    LostWith remark kindPlace (functionOfKind [("Call signature", .null)])
        (functionOfKind [("Call signature", .null), (remark.key, remark.value)])
      ∧ LostWith remark (kindPlace ++ [.key "Call signature"])
        (functionOfKind [("Call signature", .obj [])])
        (functionOfKind [("Call signature", .obj [(remark.key, remark.value)])])
      ∧ FoundWith loneKind kindPlace (functionOfKind [])
        (functionOfKind [(loneKind.key, loneKind.value)]) := by
  have hname : Inserted remark [] (.obj [("Call signature", .null)])
      (.obj [("Call signature", .null), (remark.key, remark.value)]) :=
    @Inserted.here remark [("Call signature", .null)] [] (by decide)
  have hcontent : Inserted remark [.key "Call signature"] (.obj [("Call signature", .obj [])])
      (.obj [("Call signature", .obj [(remark.key, remark.value)])]) :=
    @Inserted.entry remark "Call signature" _ [] [] _ _ (by decide)
      (@Inserted.here remark [] [] (by decide))
  have hlone : Inserted loneKind [] (.obj []) (.obj [(loneKind.key, loneKind.value)]) :=
    @Inserted.here loneKind [] [] (by decide)
  refine ⟨⟨inserted_functionOfKind hname, ?_, ?_, ?_⟩,
    ⟨inserted_functionOfKind hcontent, ?_, ?_, ?_⟩, inserted_functionOfKind hlone, ?_, ?_, ?_⟩
  all_goals decide +kernel

end DocAtlas
