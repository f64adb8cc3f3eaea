import DocAtlas.Proofs.Insertion

/-!
Reading two values side by side.

Two readings agree if both fail in the same words or both succeed (`Agree`). Whether the results
have to be equal is a parameter: they are not if a value that is kept as it stands may differ. There
is one lemma for each way to put readers together. The two sides may have readers of their own,
since the values may be nested to different depths.

Records are where an unknown entry is met. The entries of both sides are taken in one after the
other, and the drafts stay the same: a field that takes the one entry takes the other, and what no
field answers to is passed over (`Record.agree_takeEntries`).
-/

set_option autoImplicit false

namespace DocAtlas

open Json (Opened)

variable {α β γ δ σ κ : Type}

/-! ## Results -/

/-- Both readings fail, in the same words, or both succeed with related results. -/
inductive Agree (related : α → β → Prop) : Except Fault α → Except Fault β → Prop where
  | ok {a : α} {b : β} (results : related a b) : Agree related (.ok a) (.ok b)
  | error {e f : Fault} (text : e.message = f.message) : Agree related (.error e) (.error f)

/-- The results are the same, if that is asked for. -/
def Same (exact : Prop) (a b : α) : Prop := exact → a = b

namespace Agree

variable {related : α → β → Prop} {related' : γ → δ → Prop} {x : Except Fault α}
  {y : Except Fault β}

/-- A reading agrees with itself. -/
theorem refl (exact : Prop) (x : Except Fault α) : Agree (Same exact) x x := by
  cases x with
  | ok a => exact .ok fun _ => rfl
  | error e => exact .error rfl

/-- The relation between the results may be weakened. -/
theorem mono {related'' : α → β → Prop} (h : Agree related x y)
    (himp : ∀ a b, related a b → related'' a b) :
    Agree related'' x y := by
  cases h with
  | ok results => exact .ok (himp _ _ results)
  | error text => exact .error text

/-- Agreement is kept by what is computed from the results. -/
theorem map {f : α → γ} {g : β → δ} (h : Agree related x y)
    (hfg : ∀ a b, related a b → related' (f a) (g b)) :
    Agree related' (x.map f) (y.map g) := by
  cases h with
  | ok results => exact .ok (hfg _ _ results)
  | error text => exact .error text

/-- Readings that agree go on agreeing if what comes next agrees on related results. -/
theorem bind {f : α → Except Fault γ} {g : β → Except Fault δ} (h : Agree related x y)
    (hfg : ∀ a b, related a b → Agree related' (f a) (g b)) :
    Agree related' (x >>= f) (y >>= g) := by
  cases h with
  | ok results => exact hfg _ _ results
  | error text => exact .error text

/-- What is computed from the results in the same way is the same. -/
theorem map_same {exact : Prop} {x y : Except Fault α} (h : Agree (Same exact) x y) (f : α → γ) :
    Agree (Same exact) (x.map f) (y.map f) :=
  h.map fun _ _ hab hexact => congrArg f (hab hexact)

end Agree

/-- What is found instead counts only by its wording. -/
theorem Fault.message_invalidType {j j' : Json} (h : foundText j = foundText j')
    (expected : Expected) :
    (Fault.invalidType j expected).message = (Fault.invalidType j' expected).message :=
  congrArg (fun text => "invalid type: " ++ text ++ ", expected " ++ expected.text) h

/-! ## Single values, lists and choices -/

/-- The relation says of the parts of a value what it says of the value. -/
def Opens (x : UnknownEntry) (ρ : Role → Json → Json → Prop) : Prop :=
  ∀ role j j', ρ role j j' → Opened x ρ role j j'

namespace Reader

/-- Two readers agree on values that are related. -/
def Agrees (exact : Prop) (related : Json → Json → Prop) (r r' : Reader α) : Prop :=
  ∀ o j j', related j j' → Agree (Same exact) (r o j) (r' o j')

variable {x : UnknownEntry} {ρ : Role → Json → Json → Prop} {role : Role} {exact : Prop}
  {r r' : Reader α}

/-- Readers that agree on values side by side agree on related ones. -/
theorem Agrees.of_opened (h : r.Agrees exact (Opened x ρ role) r') (hρ : Opens x ρ) :
    r.Agrees exact (ρ role) r' :=
  fun o j j' hj => h o j j' (hρ role j j' hj)

/-- A reader that does not look into objects and arrays sees no difference. -/
theorem agrees_flat (hρ : Opens x ρ) {expected : Expected}
    (hobj : ∀ o entries, r o (.obj entries) = .error (.invalidType (.obj entries) expected))
    (harr : ∀ o items, r o (.arr items) = .error (.invalidType (.arr items) expected)) :
    r.Agrees exact (ρ role) r := by
  intro o j j' h
  -- objects and arrays are refused with the same words, and a scalar has no room for a difference
  cases hρ role j j' h with
  | obj _ =>
    rw [hobj, hobj]
    exact .error (Fault.message_invalidType rfl _)
  | arr _ _ =>
    rw [harr, harr]
    exact .error (Fault.message_invalidType rfl _)
  | scalar _ => exact Agree.refl exact _

/-- Texts are read alike. -/
theorem agrees_string (hρ : Opens x ρ) : string.Agrees exact (ρ role) string :=
  agrees_flat hρ (fun _ _ => rfl) fun _ _ => rfl

theorem agrees_boolean (hρ : Opens x ρ) : boolean.Agrees exact (ρ role) boolean :=
  agrees_flat hρ (fun _ _ => rfl) fun _ _ => rfl

theorem agrees_int64 (hρ : Opens x ρ) : int64.Agrees exact (ρ role) int64 :=
  agrees_flat hρ (fun _ _ => rfl) fun _ _ => rfl

theorem agrees_uint32 (hρ : Opens x ρ) : uint32.Agrees exact (ρ role) uint32 :=
  agrees_flat hρ (fun _ _ => rfl) fun _ _ => rfl

theorem agrees_map {related : Json → Json → Prop} (h : r.Agrees exact related r') (f : α → β) :
    (r.map f).Agrees exact related (r'.map f) :=
  fun o j j' hj => (h o j j' hj).map_same f

/-- Items are read side by side. -/
theorem agree_items {related : Nat → Json → Json → Prop} (h : ∀ i, r.Agrees exact (related i) r')
    (o : Origin) {js js' : List Json} (hlength : js.length = js'.length)
    (hinside : ∀ i j j', js[i]? = some j → js'[i]? = some j' → related i j j') :
    Agree (Same exact) (items r o js) (items r' o js') := by
  induction js generalizing js' related with
  | nil =>
    rw [List.eq_nil_of_length_eq_zero hlength.symm]
    exact Agree.refl exact _
  | cons j js ih =>
    obtain ⟨j', js', rfl⟩ := List.exists_cons_of_length_eq_add_one hlength.symm
    -- the roles of the rest are those of the indices shifted by one
    have hfirst := h 0 o j j' (hinside 0 j j' rfl rfl)
    have hrest := ih (fun i => h (i + 1)) (Nat.succ.inj hlength) fun i => hinside (i + 1)
    rw [items, items]
    generalize r o j = first, r' o j' = first' at hfirst ⊢
    generalize items r o js = rest, items r' o js' = rest' at hrest ⊢
    cases hfirst with
    | error text => exact .error text
    | ok hfirst =>
      cases hrest with
      | error text => exact .error text
      | ok hrest => exact .ok fun hexact => by rw [hfirst hexact, hrest hexact]

/-- Lists are read alike if their items are, whatever role an item has by its index. -/
theorem agrees_list (hρ : Opens x ρ) (h : ∀ i, r.Agrees exact (ρ (role.item i)) r') :
    (list r).Agrees exact (ρ role) (list r') := by
  intro o j j' hj
  cases hρ role j j' hj with
  | obj _ => exact .error (Fault.message_invalidType rfl _)
  | arr length inside => exact agree_items h o length inside
  | @scalar j flat =>
    cases j with
    | arr items => simp [Json.depth] at flat
    | _ => exact Agree.refl exact _

/-- `null` has nothing inside it, so an optional value is missing on both sides or on neither. -/
theorem agrees_option (hρ : Opens x ρ) (h : r.Agrees exact (ρ role) r') :
    (option r).Agrees exact (ρ role) (option r') := by
  intro o j j' hj
  have hsome := (h o j j' hj).map_same some
  cases hρ role j j' hj with
  | obj _ => exact hsome
  | arr _ _ => exact hsome
  | @scalar j flat =>
    cases j with
    | null => exact Agree.refl exact _
    | _ => exact hsome

/-- A choice falls the same way: the second reader is asked on both sides or on neither. -/
theorem agrees_either {related : Json → Json → Prop} {union : String}
    {first second first' second' : Reader α} (hfirst : first.Agrees exact related first')
    (hsecond : second.Agrees exact related second') :
    (either union first second).Agrees exact related (either union first' second') := by
  intro o j j' hj
  have hfirst := hfirst .lent j j' hj
  have hsecond := hsecond .lent j j' hj
  rw [either, either]
  generalize first .lent j = a, first' .lent j' = a' at hfirst ⊢
  generalize second .lent j = b, second' .lent j' = b' at hsecond ⊢
  cases hfirst with
  | ok hfirst => exact .ok hfirst
  | error _ =>
    cases hsecond with
    | ok hsecond => exact .ok hsecond
    | error _ => exact .error rfl

end Reader

/-! ## Records -/

/-- All names of the fields are known. -/
def FieldRoles.Known (fields : FieldRoles) : Prop :=
  ∀ field ∈ fields, ∀ name ∈ field.1, name ∈ documentKeys

instance (fields : FieldRoles) : Decidable fields.Known :=
  inferInstanceAs (Decidable (∀ field ∈ fields, ∀ name ∈ field.1, name ∈ documentKeys))

/-- Fields under these names, with nothing inside them that is kept as it stands. -/
def FieldRoles.plain (names : List String) : FieldRoles := names.map fun name => ([name], .plain)

/-- Every entry of a record with plain fields is plain. -/
theorem FieldRoles.among_plain (names : List String) (key : String) :
    (plain names).among key = .plain := by
  rw [among]
  cases hfound : (plain names).find? fun field => field.1.contains key with
  | none => rfl
  | some field =>
    obtain ⟨name, _, rfl⟩ := List.mem_map.mp (List.mem_of_find?_eq_some hfound)
    rfl

/-- Every item of a record with plain fields is plain. -/
theorem FieldRoles.atIndex_plain (names : List String) (i : Nat) :
    (plain names).atIndex i = .plain := by
  rw [atIndex]
  cases hfound : (plain names)[i]? with
  | none => rfl
  | some field =>
    obtain ⟨name, _, rfl⟩ := List.mem_map.mp (List.mem_of_getElem? hfound)
    rfl

/-- Values have the roles of the fields that they are meant for. -/
def FieldRoles.Follow (fields : FieldRoles) (roles : String → Role) : Prop :=
  ∀ field ∈ fields, ∀ name ∈ field.1, roles name = fields.among name

instance (fields : FieldRoles) (roles : String → Role) : Decidable (fields.Follow roles) :=
  inferInstanceAs (Decidable (∀ field ∈ fields, ∀ name ∈ field.1, roles name = fields.among name))

section

variable {x : UnknownEntry} {ρ : Role → Json → Json → Prop} {exact : Prop}

/-- Two fields answer to the same names, and agree on values with the role of the field. -/
structure Field.Fits (exact : Prop) (ρ : Role → Json → Json → Prop) (f f' : Field σ)
    (field : List String × Role) : Prop where
  names : field.1 = f.name :: f.aliases
  name : f.name = f'.name
  aliases : f.aliases = f'.aliases
  presence : f.presence = f'.presence
  store : ∀ o j j', ρ field.2 j j' → Agree (Same exact) (f.store o j) (f'.store o j')

/-- The fields of two records fit one by one. -/
inductive FieldsFit (exact : Prop) (ρ : Role → Json → Json → Prop) :
    List (Field σ) → List (Field σ) → FieldRoles → Prop where
  | nil : FieldsFit exact ρ [] [] []
  | cons {f f' : Field σ} {field : List String × Role} {fs fs' : List (Field σ)}
      {fields : FieldRoles}
      (first : f.Fits exact ρ f' field) (rest : FieldsFit exact ρ fs fs' fields) :
      FieldsFit exact ρ (f :: fs) (f' :: fs') (field :: fields)

/-- Fields fit if their readers agree. -/
theorem Field.fits_ofReader {presence : Presence} {name : String} {r r' : Reader α}
    {set : α → σ → σ} {role : Role} (h : r.Agrees exact (ρ role) r') :
    (ofReader presence name r set).Fits exact ρ (ofReader presence name r' set) ([name], role) where
  names := rfl
  name := rfl
  aliases := rfl
  presence := rfl
  store o j j' hj := (h o j j' hj).map_same set

/-- They fit as well if they answer to a second name. -/
theorem Field.fits_orNamed {presence : Presence} {name other : String} {r r' : Reader α}
    {set : α → σ → σ} {role : Role} (h : r.Agrees exact (ρ role) r') :
    ((ofReader presence name r set).orNamed other).Fits exact ρ
      ((ofReader presence name r' set).orNamed other) ([name, other], role) where
  names := rfl
  name := rfl
  aliases := rfl
  presence := rfl
  store o j j' hj := (h o j j' hj).map_same set

/-- Fields that fit answer to the same keys. -/
theorem Field.Fits.answersTo_eq {f f' : Field σ} {field : List String × Role}
    (h : f.Fits exact ρ f' field) (key : String) :
    f.answersTo key = field.1.contains key ∧ f'.answersTo key = field.1.contains key := by
  rw [h.names, List.contains_cons, answersTo, answersTo, ← h.name, ← h.aliases]
  exact ⟨rfl, rfl⟩

namespace FieldsFit

variable {fs fs' : List (Field σ)} {fields : FieldRoles}

/-- The fields that an entry is meant for fit. -/
theorem find? (h : FieldsFit exact ρ fs fs' fields) (key : String) :
    (fs.find? (·.answersTo key) = none ∧ fs'.find? (·.answersTo key) = none)
      ∨ ∃ f f', ∃ field ∈ fields,
        fs.find? (·.answersTo key) = some f ∧ fs'.find? (·.answersTo key) = some f'
        ∧ key ∈ field.1 ∧ fields.among key = field.2 ∧ f.Fits exact ρ f' field := by
  induction h with
  | nil => exact Or.inl ⟨rfl, rfl⟩
  | @cons f f' field fs fs' fields first rest ih =>
    obtain ⟨hf, hf'⟩ := first.answersTo_eq key
    rw [List.find?_cons, List.find?_cons, hf, hf', FieldRoles.among, List.find?_cons]
    -- the first field answers, or the answer is that of the rest
    cases hkey : field.1.contains key with
    | true =>
      exact Or.inr
        ⟨f, f', field, List.mem_cons_self, rfl, rfl, List.contains_iff_mem.mp hkey, rfl, first⟩
    | false =>
      refine ih.imp_right ?_
      exact fun ⟨f, f', field, hfield, hfound⟩ =>
        ⟨f, f', field, List.mem_cons_of_mem _ hfield, hfound⟩

/-- No field answers to an unknown key. -/
theorem find?_unknown (h : FieldsFit exact ρ fs fs' fields) (hknown : fields.Known) :
    fs'.find? (·.answersTo x.key) = none := by
  induction h with
  | nil => rfl
  | @cons f f' field fs fs' fields first rest ih =>
    obtain ⟨hfield, hknown⟩ := List.forall_mem_cons.mp hknown
    have hnot : f'.answersTo x.key = false := by
      rw [(first.answersTo_eq x.key).2, List.contains_eq_mem, decide_eq_false_iff_not]
      exact fun hmem => x.unknown (hfield x.key hmem)
    rw [List.find?_cons, hnot]
    exact ih hknown

/-- The first field that is missing has the same name. -/
theorem find?_missing (h : FieldsFit exact ρ fs fs' fields) (seen : List String) :
    (fs.find? fun f => f.presence = .required && !seen.contains f.name).map Field.name
      = (fs'.find? fun f => f.presence = .required && !seen.contains f.name).map Field.name := by
  induction h with
  | nil => rfl
  | @cons f f' field fs fs' fields first rest ih =>
    rw [List.find?_cons, List.find?_cons, ← first.name, ← first.presence]
    cases f.presence = .required && !seen.contains f.name with
    | true => exact congrArg some first.name
    | false => exact ih

/-- Fields that fit are equally many. -/
theorem length_eq (h : FieldsFit exact ρ fs fs' fields) : fs.length = fs'.length := by
  induction h with
  | nil => rfl
  | cons _ _ ih => rw [List.length_cons, List.length_cons, ih]

end FieldsFit

namespace Record

variable {r r' : Record σ} {fields : FieldRoles} {roles : String → Role} {o : Origin}

/-- Two drafts have seen the same fields, and hold the same values if that is asked for. -/
structure SameDraft (exact : Prop) (d d' : Draft σ) : Prop where
  seen : d.seen = d'.seen
  value : Same exact d.value d'.value

/-- An entry under a known key is taken in alike: by fields that fit, or by none. -/
theorem agree_takeEntry (h : FieldsFit exact ρ r.fields r'.fields fields)
    (hroles : fields.Follow roles) {key : String} {j j' : Json} (hj : ρ (roles key) j j')
    {d d' : Draft σ} (hd : SameDraft exact d d') :
    Agree (SameDraft exact) (r.takeEntry o d (key, j)) (r'.takeEntry o d' (key, j')) := by
  rw [takeEntry, takeEntry]
  rcases h.find? key with ⟨hnone, hnone'⟩
    | ⟨f, f', field, hfield, hsome, hsome', hkey, hrole, hfits⟩
  · rw [hnone, hnone']
    exact .ok hd
  · rw [hsome, hsome']
    rw [hroles field hfield key hkey, hrole] at hj
    have hstore := hfits.store o j j' hj
    simp only [← hfits.name, ← hd.seen]
    -- a field that was seen before is refused on both sides
    by_cases hseen : f.name ∈ d.seen
    · rw [if_pos hseen, if_pos hseen]
      exact .error rfl
    · rw [if_neg hseen, if_neg hseen]
      generalize f.store o j = stored, f'.store o j' = stored' at hstore ⊢
      cases hstore with
      | error text => exact .error text
      | ok hset =>
        refine .ok ⟨rfl, ?_⟩
        intro hexact
        rw [hset hexact, hd.value hexact]

/-- **Entries are taken in side by side.** The drafts stay the same, since an unknown entry leaves
its draft alone. -/
theorem agree_takeEntries (h : FieldsFit exact ρ r.fields r'.fields fields) (hknown : fields.Known)
    (hroles : fields.Follow roles) {entries entries' : List (String × Json)}
    (hentries : Alongside x (fun key => ρ (roles key)) entries entries')
    {d d' : Draft σ} (hd : SameDraft exact d d') :
    Agree (SameDraft exact) (r.takeEntries o d entries) (r'.takeEntries o d' entries') := by
  induction hentries generalizing d d' with
  | nil => exact .ok hd
  | @keep key j j' _ _ related _ ih =>
    have hfirst := agree_takeEntry (o := o) h hroles related hd
    rw [takeEntries, takeEntries]
    generalize r.takeEntry o d (key, j) = taken, r'.takeEntry o d' (key, j') = taken' at hfirst ⊢
    cases hfirst with
    | error text => exact .error text
    | ok hnext => exact ih hnext
  | extra _ ih =>
    have hpassed : r'.takeEntry o d' (x.key, x.value) = .ok d' := by
      rw [takeEntry, h.find?_unknown hknown]
    rw [takeEntries, hpassed]
    exact ih hd

/-- Drafts that have seen the same fields are complete together, or the same field is missing. -/
theorem agree_finish (h : FieldsFit exact ρ r.fields r'.fields fields) {d d' : Draft σ}
    (hd : SameDraft exact d d') :
    Agree (Same exact) (r.finish d) (r'.finish d') := by
  have hmissing := h.find?_missing d.seen
  rw [finish, finish, ← hd.seen]
  generalize (r.fields.find? fun f => f.presence = .required && !d.seen.contains f.name) = missing,
    (r'.fields.find? fun f => f.presence = .required && !d.seen.contains f.name)
      = missing' at hmissing ⊢
  cases missing with
  | none =>
    cases missing' with
    | none => exact .ok hd.value
    | some f' => cases hmissing
  | some f =>
    cases missing' with
    | none => cases hmissing
    | some f' =>
      have hname : f.name = f'.name := Option.some.inj hmissing
      exact .error (by rw [hname])

/-- **Records whose fields fit agree on entries side by side.** -/
theorem agree_readEntries (h : FieldsFit exact ρ r.fields r'.fields fields) (hknown : fields.Known)
    (hroles : fields.Follow roles) (blank : σ) {entries entries' : List (String × Json)}
    (hentries : Alongside x (fun key => ρ (roles key)) entries entries') :
    Agree (Same exact) (r.readEntries o blank entries) (r'.readEntries o blank entries') := by
  have hblank : SameDraft exact (⟨blank, []⟩ : Draft σ) ⟨blank, []⟩ := ⟨rfl, fun _ => rfl⟩
  have htaken := agree_takeEntries (o := o) h hknown hroles hentries hblank
  rw [readEntries, readEntries]
  generalize r.takeEntries o ⟨blank, []⟩ entries = taken,
    r'.takeEntries o ⟨blank, []⟩ entries' = taken' at htaken ⊢
  cases htaken with
  | error text => exact .error text
  | ok hd => exact agree_finish h hd

/-- Items are taken in side by side. The induction is on the fields, and the items are shifted
along. -/
theorem agree_takeItems (htitle : r.title = r'.title) (hcount : r.fields.length = r'.fields.length)
    {fs fs' : List (Field σ)} (h : FieldsFit exact ρ fs fs' fields) {items items' : List Json}
    (hlength : items.length = items'.length)
    (hinside : ∀ i item item', items[i]? = some item → items'[i]? = some item' →
      ρ (fields.atIndex i) item item')
    (index : Nat) {v v' : σ} (hv : Same exact v v') :
    Agree (Same exact) (r.takeItems o index v fs items) (r'.takeItems o index v' fs' items') := by
  induction h generalizing items items' index v v' with
  | nil =>
    cases items with
    | nil =>
      rw [List.eq_nil_of_length_eq_zero hlength.symm]
      exact .ok hv
    | cons item items =>
      obtain ⟨item', items', rfl⟩ := List.exists_cons_of_length_eq_add_one hlength.symm
      -- there are too many items, and equally many on both sides
      have htext := fun expected : Expected =>
        congrArg (fun count => (Fault.invalidLength (index + count) expected).message) hlength
      cases o <;> exact .error (htext _)
  | @cons f f' field fs fs' fields first rest ih =>
    cases items with
    | nil =>
      rw [List.eq_nil_of_length_eq_zero hlength.symm, takeItems, takeItems, ← first.presence]
      -- the items have run out: fields with a default are passed over, and the first other one is
      -- missed
      by_cases hdefaulted : f.presence = .defaulted
      · rw [if_pos hdefaulted, if_pos hdefaulted]
        exact ih rfl (fun i item item' hitem => absurd hitem (by simp)) (index + 1) hv
      · rw [if_neg hdefaulted, if_neg hdefaulted, htitle, hcount]
        exact .error rfl
    | cons item items =>
      obtain ⟨item', items', rfl⟩ := List.exists_cons_of_length_eq_add_one hlength.symm
      have hstore := first.store o item item' (hinside 0 item item' rfl rfl)
      rw [takeItems, takeItems]
      generalize f.store o item = stored, f'.store o item' = stored' at hstore ⊢
      cases hstore with
      | error text => exact .error text
      | ok hset =>
        refine ih (Nat.succ.inj hlength) (fun i => hinside (i + 1)) (index + 1) ?_
        intro hexact
        rw [hset hexact, hv hexact]

/-- **Records whose fields fit agree**, on objects and on arrays, if the fields are those of the
role. -/
theorem agrees_read (h : FieldsFit exact ρ r.fields r'.fields fields) (htitle : r.title = r'.title)
    (hknown : fields.Known) {role : Role}
    (hentry : ∀ entries key, role.entry entries key = fields.among key)
    (hitem : ∀ i, role.item i = fields.atIndex i) (blank : σ) :
    (r.read blank).Agrees exact (Opened x ρ role) (r'.read blank) := by
  intro o j j' hj
  cases hj with
  | obj inside =>
    simp only [hentry] at inside
    exact agree_readEntries h hknown (fun _ _ _ _ => rfl) blank inside
  | arr length inside =>
    simp only [hitem] at inside
    exact agree_takeItems htitle h.length_eq h length inside 0 fun _ => rfl
  | @scalar j flat =>
    cases j with
    | obj entries => simp [Json.depth] at flat
    | arr items => simp [Json.depth] at flat
    | _ => exact .error (congrArg (fun title => (Fault.invalidType _ title).message) htitle)

/-- Records with plain fields only agree on plain values. -/
theorem agrees_read_plain {names : List String}
    (h : FieldsFit exact ρ r.fields r'.fields (.plain names)) (htitle : r.title = r'.title)
    (hknown : (FieldRoles.plain names).Known) (blank : σ) :
    (r.read blank).Agrees exact (Opened x ρ .plain) (r'.read blank) := by
  refine agrees_read h htitle hknown ?_ ?_ blank
  · exact fun _ key => (FieldRoles.among_plain names key).symm
  · exact fun i => (FieldRoles.atIndex_plain names i).symm

end Record

/-! ## Tags -/

namespace Record

variable {r : Record σ} {o : Origin} {name : String} {read : Reader κ} {set : κ → σ → σ}
  {rest : List (Field σ)} {view : σ → Option κ}

/-- The field under a name is the only one that the view of a record shows. -/
structure Shows (r : Record σ) (name : String) (read : Reader κ) (set : κ → σ → σ)
    (rest : List (Field σ)) (view : σ → Option κ) : Prop where
  fields : r.fields = .required name read set :: rest
  view_set : ∀ t v, view (set t v) = some t
  view_rest : ∀ f ∈ rest, ∀ o j change, f.store o j = .ok change → ∀ v, view (change v) = view v
  name_rest : ∀ f ∈ rest, f.name ≠ name

/-- What one entry does to the view. -/
theorem Shows.takeEntry (h : r.Shows name read set rest view) {d d' : Draft σ}
    {entry : String × Json} (htake : r.takeEntry o d entry = .ok d') :
    (entry.1 = name ∧ name ∉ d.seen ∧ name ∈ d'.seen
        ∧ ∃ t, read o entry.2 = .ok t ∧ view d'.value = some t)
      ∨ (entry.1 ≠ name ∧ (name ∈ d'.seen ↔ name ∈ d.seen) ∧ view d'.value = view d.value) := by
  rw [Record.takeEntry, h.fields, List.find?_cons] at htake
  have hanswers : (Field.required name read set).answersTo entry.1 = (entry.1 == name) :=
    Bool.or_false _
  rw [hanswers] at htake
  -- the entry is under the name, or it leaves the view alone
  by_cases hkey : entry.1 = name
  · rw [beq_iff_eq.mpr hkey] at htake
    by_cases hseen : name ∈ d.seen
    · simp [Field.required, Field.ofReader, hseen] at htake
    · cases hread : read o entry.2 with
      | error e => simp [Field.required, Field.ofReader, hseen, hread, Except.map] at htake
      | ok t =>
        simp [Field.required, Field.ofReader, hseen, hread, Except.map] at htake
        subst htake
        exact Or.inl ⟨hkey, hseen, List.mem_cons_self, t, rfl, h.view_set t _⟩
  · rw [beq_false_of_ne hkey] at htake
    refine Or.inr ⟨hkey, ?_⟩
    cases hfind : rest.find? (·.answersTo entry.1) with
    | none =>
      rw [hfind] at htake
      cases htake
      exact ⟨Iff.rfl, rfl⟩
    | some f =>
      rw [hfind] at htake
      have hf := List.mem_of_find?_eq_some hfind
      by_cases hseen : f.name ∈ d.seen
      · simp [hseen] at htake
      · cases hstore : f.store o entry.2 with
        | error e => simp [hseen, hstore] at htake
        | ok change =>
          simp [hseen, hstore] at htake
          subst htake
          exact ⟨by simp [(h.name_rest f hf).symm], h.view_rest f hf o entry.2 change hstore _⟩

/-- What is shown in the end stands in the first entry under the name. -/
theorem Shows.takeEntries (h : r.Shows name read set rest view) {entries : List (String × Json)}
    {d d' : Draft σ} (htake : r.takeEntries o d entries = .ok d') :
    (name ∈ d.seen → view d'.value = view d.value)
      ∧ (name ∉ d.seen → name ∈ d'.seen →
        ∃ j t, entries.lookup name = some j ∧ read o j = .ok t ∧ view d'.value = some t) := by
  induction entries generalizing d with
  | nil =>
    cases htake
    exact ⟨fun _ => rfl, fun hnot hmem => absurd hmem hnot⟩
  | cons entry entries ih =>
    obtain ⟨key, j⟩ := entry
    rw [Record.takeEntries] at htake
    cases hfirst : r.takeEntry o d (key, j) with
    | error e => simp [hfirst] at htake
    | ok next =>
      simp only [hfirst] at htake
      obtain ⟨hkeeps, hfinds⟩ := ih htake
      -- once the name is seen the view stays, so the first entry under it decides
      rcases h.takeEntry hfirst with ⟨hkey, hnew, hseen, t, hread, hview⟩ | ⟨hkey, hseen, hview⟩
      · refine ⟨fun hmem => absurd hmem hnew,
          fun _ _ => ⟨j, t, ?_, hread, (hkeeps hseen).trans hview⟩⟩
        rw [List.lookup_cons, beq_iff_eq.mpr hkey.symm]
      · rw [List.lookup_cons, beq_false_of_ne (Ne.symm hkey)]
        rw [hseen, hview] at hkeeps
        exact ⟨hkeeps, fun hnot => hfinds fun hmem => hnot (hseen.mp hmem)⟩

/-- **The tag of a record is found in its entry**, since a record is complete only with it. -/
theorem Shows.lookup (h : r.Shows name read set rest view) {entries : List (String × Json)}
    {blank v : σ} (hread : r.readEntries o blank entries = .ok v) :
    ∃ j t, entries.lookup name = some j ∧ read o j = .ok t ∧ view v = some t := by
  rw [readEntries] at hread
  cases htake : r.takeEntries o ⟨blank, []⟩ entries with
  | error e => simp [htake] at hread
  | ok d =>
    simp only [htake] at hread
    -- without the name the record would miss its first field
    have hseen : name ∈ d.seen := by
      refine Decidable.byContradiction fun hnot => ?_
      rw [finish, h.fields, List.find?_cons] at hread
      simp [Field.required, Field.ofReader, hnot] at hread
    have hvalue : d.value = v := by
      rw [finish] at hread
      split at hread
      · cases hread
      · exact Except.ok.inj hread
    exact hvalue ▸ (h.takeEntries htake).2 List.not_mem_nil hseen

end Record

namespace Variants

variable {vs : Variants κ} {o : Origin} {field : String} {title : Expected} {roles : String → Role}

/-- Tags are scalars, so they are read alike. -/
theorem agrees_tag (vs : Variants κ) (exact : Prop) (hρ : Opens x ρ) {role : Role} :
    vs.tag.Agrees exact (ρ role) vs.tag :=
  Reader.agrees_flat hρ (fun o _ => by cases o <;> rfl) fun o _ => by cases o <;> rfl

/-- The buffer takes every tag that is taken elsewhere. -/
theorem tag_buffer {j : Json} {t : κ} (h : vs.tag o j = .ok t) : vs.tag .buffer j = .ok t := by
  cases o with
  | document =>
    cases j with
    | str name => exact h
    | _ => cases h
  | buffer => exact h
  | lent =>
    cases j with
    | str name => exact h
    | num n =>
      cases n with
      | int n => exact h
      | double x => cases h
    | _ => cases h

/-- The record of a tag shows its only field. -/
theorem shows_tagRecord (vs : Variants κ) (title : Expected) (field : String) :
    (vs.tagRecord title field).Shows field vs.tag (fun variant _ => some variant) [] id where
  fields := rfl
  view_set _ _ := rfl
  view_rest := nofun
  name_rest := nofun

/-- The tags that are read are the same, whatever the entries are read as. -/
theorem agree_tagRecord (vs : Variants κ) (title : Expected) (o : Origin) (hρ : Opens x ρ)
    (hfield : field ∈ documentKeys) {entries entries' : List (String × Json)}
    (hentries : Alongside x (fun key => ρ (roles key)) entries entries') :
    Agree (Same True) ((vs.tagRecord title field).readEntries o none entries)
      ((vs.tagRecord title field).readEntries o none entries') := by
  have hfits : FieldsFit True ρ (vs.tagRecord title field).fields (vs.tagRecord title field).fields
      [([field], roles field)] := .cons (Field.fits_ofReader (vs.agrees_tag True hρ)) .nil
  refine Record.agree_readEntries hfits ?_ ?_ none hentries
  · simpa [FieldRoles.Known] using hfield
  · simp [FieldRoles.Follow, FieldRoles.among]

/-- A variant whose tag was read is the one that the entries name. -/
theorem among?_eq_some {entries : List (String × Json)} {j : Json} {t : κ}
    (hlookup : entries.lookup field = some j) (htag : vs.tag o j = .ok t) :
    vs.among? field entries = some t := by
  rw [among?, hlookup, Option.bind_some, tag_buffer htag]
  rfl

/-- The variants that are named are the same, whatever the entries are read as. -/
theorem among?_eq (vs : Variants κ) (hρ : Opens x ρ) (hfield : field ∈ documentKeys)
    {entries entries' : List (String × Json)}
    (hentries : Alongside x (fun key => ρ (roles key)) entries entries') :
    vs.among? field entries = vs.among? field entries' := by
  rw [among?, among?]
  rcases hentries.lookup hfield with ⟨hnone, hnone'⟩ | ⟨j, j', hsome, hsome', hj⟩
  · rw [hnone, hnone']
  · rw [hsome, hsome', Option.bind_some, Option.bind_some]
    have htag := vs.agrees_tag True hρ .buffer j j' hj
    generalize vs.tag .buffer j = tag, vs.tag .buffer j' = tag' at htag ⊢
    cases htag with
    | ok same => rw [same trivial]
    | error _ => rfl

/-- **Unions whose contents agree agree.** The content is the object itself, whose entries name the
variant, or the items after the tag. -/
theorem agrees_readTagged (hρ : Opens x ρ) (hfield : field ∈ documentKeys) {role : Role}
    (hitem : ∀ i, role.item (i + 1) = role.item i) {content content' : κ → Json → Except Fault α}
    (hcontent : ∀ variant j j',
      (∀ entries, j = .obj entries → vs.among? field entries = some variant) →
      Opened x ρ role j j' → Agree (Same exact) (content variant j) (content' variant j')) :
    (vs.readTagged title field content).Agrees exact (Opened x ρ role)
      (vs.readTagged title field content') := by
  intro o j j' hj
  cases hj with
  | @obj entries entries' inside =>
    have htag := vs.agree_tagRecord title o hρ hfield inside
    have hnames : ∀ v, (vs.tagRecord title field).readEntries o none entries = .ok v →
        ∃ j t, entries.lookup field = some j ∧ vs.tag o j = .ok t ∧ id v = some t :=
      fun _ => (vs.shows_tagRecord title field).lookup
    rw [readTagged, readTagged]
    generalize (vs.tagRecord title field).readEntries o none entries = tag,
      (vs.tagRecord title field).readEntries o none entries' = tag' at htag hnames ⊢
    cases htag with
    | error text => exact .error text
    | ok same =>
      rw [← same trivial]
      obtain ⟨j, t, hlookup, hread, rfl⟩ := hnames _ rfl
      refine hcontent t _ _ ?_ (.obj inside)
      rintro _ ⟨⟩
      exact among?_eq_some hlookup hread
  | @arr items items' length inside =>
    -- the tag comes first, and what follows has the roles of the items after it
    cases items with
    | nil =>
      rw [List.eq_nil_of_length_eq_zero length.symm]
      exact Agree.refl exact _
    | cons first rest =>
      obtain ⟨first', rest', rfl⟩ := List.exists_cons_of_length_eq_add_one length.symm
      have htag := vs.agrees_tag True hρ o first first' (inside 0 first first' rfl rfl)
      rw [readTagged, readTagged]
      generalize vs.tag o first = tag, vs.tag o first' = tag' at htag ⊢
      cases htag with
      | error text => exact .error text
      | ok same =>
        rw [← same trivial]
        refine hcontent _ _ _ nofun (.arr (Nat.succ.inj length) ?_)
        intro i item item' hi hi'
        rw [← hitem i]
        exact inside (i + 1) item item' hi hi'
  | @scalar j flat =>
    cases j with
    | obj entries => simp [Json.depth] at flat
    | arr items => simp [Json.depth] at flat
    | _ => exact Agree.refl exact _

end Variants

end

end DocAtlas
