import DocAtlas.Proofs.EntityPath
import DocAtlas.Proofs.Indexing
import Mathlib.Logic.Function.Iterate

/-!
The parent links of an index.

A record names the id of the slot above it, and links can be followed from record to record
(`Index.climb`). With distinct ids no record takes the place of another, so the index has exactly
what the walk has recorded (`Project.get?_index_iff`), and the record under a slot's parent link is
that of the slot right above it (`Project.Reaches.record_above`). Everything about links then
follows the way down on which a slot was reached: climbing goes the same way back and ends
(`Project.Reaches.climb_ends`), and a climb that ends cannot have come back to where it started
(`Index.climb_ne_self`).

Paths and files grow along the links (`Slot.GrowsFrom`): what is below goes on from the path of what
is above.
-/

set_option autoImplicit false

namespace DocAtlas

/-! ## Climbing -/

namespace Index

/-- Where the parent link of an id leads. -/
def parent? (index : Index) (i : Int) : Option Int := (index.get? i).bind (·.parent)

/-- Where so many parent links lead, one after the other. -/
def climb (index : Index) (steps : Nat) (i : Int) : Option Int :=
  (fun j => j.bind index.parent?)^[steps] (some i)

variable {index : Index} {i j : Int}

@[simp] theorem climb_zero : index.climb 0 i = some i := rfl

/-- A climb begins with the link of the record itself. -/
theorem climb_succ (h : index.parent? i = some j) (steps : Nat) :
    index.climb (steps + 1) i = index.climb steps j := by
  rw [climb, Function.iterate_succ_apply, Option.bind_some, h]
  rfl

/-- Above a record without a parent there is nothing. -/
theorem climb_above {steps more : Nat} {root : Int} (hends : index.climb steps i = some root)
    (hroot : index.parent? root = none) (hmore : steps < more) : index.climb more i = none := by
  obtain ⟨rest, rfl⟩ := Nat.exists_eq_add_of_lt hmore
  rw [climb] at hends ⊢
  rw [show steps + rest + 1 = rest + 1 + steps by omega, Function.iterate_add_apply, hends,
    Function.iterate_succ_apply, Option.bind_some, hroot]
  exact Function.iterate_fixed rfl rest

/-- **A climb that ends does not come back to where it started.** It would go round for ever. -/
theorem climb_ne_self {steps : Nat} {root : Int} (hends : index.climb steps i = some root)
    (hroot : index.parent? root = none) {round : Nat} (hround : 0 < round) :
    index.climb round i ≠ some i := by
  intro hreturn
  -- having come back once, it comes back as often as one likes
  have hagain : index.climb (round * (steps + 1)) i = some i := by
    rw [climb, Function.iterate_mul]
    exact Function.iterate_fixed hreturn (steps + 1)
  have hlong : steps < round * (steps + 1) := Nat.le_mul_of_pos_left (steps + 1) hround
  rw [climb_above hends hroot hlong] at hagain
  cases hagain

end Index

/-! ## Records -/

/-- The ids of a project and of its slots, in the order of the document. -/
def Project.ids (p : Project) (baseDir : String) : List Int :=
  p.id.toList ++ (p.slots baseDir).filterMap (·.1.id)

namespace Project

variable {p : Project} {baseDir : String} {around : Surroundings} {s : Slot}

/-- The ids on record are those of the project and its slots. -/
theorem keys_records (p : Project) (baseDir : String) :
    (p.records baseDir).map (·.1) = p.ids baseDir := by
  rw [records, ids, List.map_append, List.map_filterMap]
  congr 1
  · cases p.id <;> rfl
  · refine List.filterMap_congr ?_
    intro found _
    rw [Visit.record?, Option.map_map]
    exact Option.map_id'

/-- **With distinct ids, the index has exactly what is recorded.** -/
theorem get?_index_iff (hids : (p.ids baseDir).Nodup) {i : Int} {entry : IndexEntry} :
    (p.index baseDir).value.get? i = some entry ↔ (i, entry) ∈ p.records baseDir := by
  constructor
  · exact mem_records_of_get?_index
  · intro hmem
    rw [get?_index, Option.map_eq_some_iff]
    have hin : (i, entry) ∈ (p.records baseDir).filter (·.1 = i) :=
      List.mem_filter.mpr ⟨hmem, decide_eq_true rfl⟩
    refine ⟨(i, entry), ?_, rfl⟩
    cases hlast : ((p.records baseDir).filter (·.1 = i)).getLast? with
    | none =>
      rw [List.getLast?_eq_none_iff.mp hlast] at hin
      exact absurd hin List.not_mem_nil
    -- the last record of the id is the only one
    | some last =>
      obtain ⟨hlastMem, hid⟩ := List.mem_filter.mp (List.mem_of_getLast? hlast)
      rw [← keys_records] at hids
      rw [List.inj_on_of_nodup_map hids hlastMem hmem (of_decide_eq_true hid)]

/-- What a slot inherits its place from is on record under the slot's parent link. -/
theorem Reaches.record_above (h : p.Reaches baseDir around s) {parent : Int}
    (hparent : around.id = some parent) :
    ∃ above, (parent, above) ∈ p.records baseDir
      ∧ above.kind = around.kind ∧ above.path = around.place.path
      ∧ above.filename = around.place.filename := by
  cases h with
  | child _ => exact ⟨p.entry, mem_records_iff.mpr (.inl ⟨hparent, rfl⟩), rfl, rfl, rfl⟩
  | @down outer up _ habove _ =>
    exact ⟨_, mem_records_iff.mpr (.inr ⟨outer, up, habove, hparent, rfl⟩), rfl, rfl, rfl⟩

/-- With distinct ids the index has what was recorded when the walk came to a slot. -/
theorem Reaches.get?_of_distinct (h : p.Reaches baseDir around s) (hids : (p.ids baseDir).Nodup)
    {i : Int} (hid : s.id = some i) :
    (p.index baseDir).value.get? i = some (s.entryAt (s.placeIn baseDir around) around) :=
  (get?_index_iff hids).mpr (mem_records_iff.mpr (.inr ⟨around, s, h, hid, rfl⟩))

/-- **Climbing from a slot ends at a record without a parent.** The induction is on the way down to
the slot: its link leads to the slot above it, from which the climb ends, or nowhere if that slot
has no id. -/
theorem Reaches.climb_ends (h : p.Reaches baseDir around s) (hids : (p.ids baseDir).Nodup) {i : Int}
    (hid : s.id = some i) :
    ∃ steps root last, (p.index baseDir).value.climb steps i = some root
      ∧ (p.index baseDir).value.get? root = some last ∧ last.parent = none := by
  -- the link of a slot is the id that its surroundings come from
  have hlink : ∀ {around s i}, p.Reaches baseDir around s → s.id = some i →
      (p.index baseDir).value.parent? i = around.id := by
    intro around s i hreaches hid
    rw [Index.parent?, hreaches.get?_of_distinct hids hid]
    rfl
  induction h generalizing i with
  | @child d hd =>
    have hown := Reaches.get?_of_distinct (.child hd) hids hid
    have hup := hlink (.child hd) hid
    cases hp : p.id with
    | none => exact ⟨0, i, _, rfl, hown, hp⟩
    | some root =>
      -- right below the project one step is left to take
      refine ⟨1, root, p.entry, ?_,
        (get?_index_iff hids).mpr (mem_records_iff.mpr (.inl ⟨hp, rfl⟩)), rfl⟩
      rw [Index.climb_succ (hup.trans hp), Index.climb_zero]
  | @down outer up child habove hchild ih =>
    have hown := (habove.down hchild).get?_of_distinct hids hid
    have hup := hlink (habove.down hchild) hid
    cases hj : up.id with
    | none => exact ⟨0, i, _, rfl, hown, hj⟩
    | some j =>
      obtain ⟨steps, root, last, hclimb, hlast⟩ := ih hj
      refine ⟨steps + 1, root, last, ?_, hlast⟩
      rw [Index.climb_succ (hup.trans hj), hclimb]

end Project

/-! ## Growing paths -/

namespace Pathname

/-- Closing a path puts the delimiter behind its text. -/
theorem text_closeLast (delimiter : Char) {path : Pathname} (h : path ≠ []) :
    (closeLast delimiter path).text = path.text.push delimiter := by
  rcases List.eq_nil_or_concat path with rfl | ⟨front, last, rfl⟩
  · exact absurd rfl h
  · rw [List.concat_eq_append, closeLast_append_singleton, text_append, text_append, text_cons,
      text_cons, text_nil, String.append_empty, String.append_empty, String.push_eq_append,
      String.push_eq_append, String.append_assoc]

/-- What stands below something with a path hangs on that path. -/
theorem anchor_of_ne_nil {parent : Pathname} (h : parent ≠ []) (isModule : Bool) (owner : Owner)
    (filename : String) :
    anchor isModule owner parent filename = parent := by
  unfold anchor
  rw [if_neg]
  simp [h]

/-- Own segments go on from what they hang on; behind nothing they stand alone. -/
theorem join_of_ne_nil {own : Pathname} (h : own ≠ []) (isModule isStatic : Bool) (owner : Owner)
    (parent : Pathname) (filename : String) :
    join own isModule isStatic owner parent filename
      = closeLast (delimiter isStatic owner) (anchor isModule owner parent filename) ++ own := by
  rw [join, if_neg (by simpa using h)]
  split
  · rename_i hempty
    rw [List.isEmpty_iff.mp hempty]
    rfl
  · rfl

end Pathname

namespace SlotKind

/-- Only the project itself is an owner like the project. -/
theorem owner_eq_project_iff (kind : SlotKind) : kind.owner = .project ↔ kind = .project := by
  unfold owner
  split <;> simp_all

/-- Only a class is an owner like a class. -/
theorem owner_eq_classDecl_iff (kind : SlotKind) :
    kind.owner = .classDecl ↔ kind = .declaration (.classLike .classDecl) := by
  unfold owner
  split <;> simp_all

/-- Instance members of a class are joined with `#`, and everything else with a dot. -/
theorem delimiter_owner (kind : SlotKind) (isStatic : Bool) :
    Pathname.delimiter isStatic kind.owner
      = if kind = .declaration (.classLike .classDecl) ∧ isStatic = false then '#' else '.' := by
  unfold Pathname.delimiter
  by_cases hkind : kind = .declaration (.classLike .classDecl)
  · cases isStatic <;> simp [hkind, owner]
  · simp [hkind, owner_eq_classDecl_iff]

/-- Where there is no path above, only what stands right under the project and is no module hangs on
its file. -/
theorem anchor_owner (kind : SlotKind) (isModule : Bool) (filename : String) :
    Pathname.anchor isModule kind.owner [] filename
      = if kind = .project ∧ isModule = false then FilePath.segments filename else [] := by
  unfold Pathname.anchor
  by_cases hkind : kind = .project
  · cases isModule <;> simp [hkind, owner]
  · simp [hkind, owner_eq_project_iff]

end SlotKind

/-- A declaration without segments of its own is a module. -/
theorem Declaration.isModule_of_ownSegments_eq_nil {d : Declaration} {baseDir : String}
    (h : d.ownSegments baseDir = []) : d.isModule = true := by
  unfold ownSegments at h
  split at h
  · assumption
  · cases h

/-- The path and the file of a slot go on from those of what is above it. Without segments of its
own it has the same path. Its segments follow behind the last one above, which is closed with `#`
for an instance member of a class and with `.` otherwise; where there is no path above they stand
alone, or follow behind the segments of the slot's file if it stands right under the project and is
not a module. Its file is that of its first source, or else the file above. -/
def Slot.GrowsFrom (s : Slot) (baseDir : String) (above entry : IndexEntry) : Prop :=
  entry.filename = (s.source?.map (·.fileName)).getD above.filename ∧
    let own := s.ownSegments baseDir
    ((own = [] ∧ entry.path = above.path)
      ∨ (own ≠ [] ∧ above.path ≠ []
        ∧ entry.path = Pathname.closeLast
          (if above.kind = .declaration (.classLike .classDecl) ∧ s.isStatic = false then '#'
            else '.') above.path ++ own)
      ∨ (own ≠ [] ∧ above.path = []
        ∧ entry.path = (if above.kind = .project ∧ s.isModule = false
            then Pathname.closeLast '.' (FilePath.segments entry.filename) else []) ++ own))

/-- A path begins with the path that it grows from. -/
theorem Slot.GrowsFrom.text_eq_append {s : Slot} {baseDir : String} {above entry : IndexEntry}
    (h : s.GrowsFrom baseDir above entry) : ∃ rest, entry.path.text = above.path.text ++ rest := by
  rcases h.2 with ⟨-, hpath⟩ | ⟨-, hne, hpath⟩ | ⟨-, hnil, -⟩
  · exact ⟨"", by rw [hpath, String.append_empty]⟩
  · rw [hpath, Pathname.text_append, Pathname.text_closeLast _ hne, String.push_eq_append,
      String.append_assoc]
    exact ⟨_, rfl⟩
  · exact ⟨entry.path.text, by rw [hnil, Pathname.text_nil, String.empty_append]⟩

/-- **What the walk records about a slot grows from what it records about the slot above.** -/
theorem Project.Reaches.growsFrom {p : Project} {baseDir : String} {around : Surroundings}
    {s : Slot} (h : p.Reaches baseDir around s) {above : IndexEntry}
    (hkind : above.kind = around.kind) (hpath : above.path = around.place.path)
    (hfile : above.filename = around.place.filename) :
    s.GrowsFrom baseDir above (s.entryAt (s.placeIn baseDir around) around) := by
  have hfilename : (s.placeIn baseDir around).filename
      = (s.source?.map (·.fileName)).getD around.place.filename := by
    rw [Slot.placeIn]
    cases s.source? <;> rfl
  have hjoin : (s.placeIn baseDir around).path
      = Pathname.join (s.ownSegments baseDir) s.isModule s.isStatic around.kind.owner
        around.place.path (s.placeIn baseDir around).filename := rfl
  refine ⟨by rw [hfile]; exact hfilename, ?_⟩
  simp only [Slot.entryAt, hkind, hpath]
  by_cases hown : s.ownSegments baseDir = []
  · -- without segments it stands where the slot above stands; right under the project it is then
    -- a module
    refine .inl ⟨hown, ?_⟩
    rw [hjoin, hown]
    cases h with
    | @child d _ =>
      have hmodule : (Slot.declaration d).isModule = true :=
        Declaration.isModule_of_ownSegments_eq_nil hown
      rw [hmodule]
      rfl
    | @down outer up _ _ _ => exact Pathname.join_nil_of_ne_project up.owner_ne_project
  · rw [hjoin, Pathname.join_of_ne_nil hown]
    by_cases hnil : around.place.path = []
    · refine .inr (.inr ⟨hown, hnil, ?_⟩)
      rw [hnil, SlotKind.anchor_owner]
      split
      · rename_i hproject
        rw [hproject.1, Pathname.delimiter_of_ne_classDecl (by decide)]
      · rfl
    · refine .inr (.inl ⟨hown, hnil, ?_⟩)
      rw [Pathname.anchor_of_ne_nil hnil, SlotKind.delimiter_owner]

/-- **Parent links form a forest along which paths and files grow.** In the index of a project with
distinct ids, let a record have a parent. Then the parent is on record, following links never comes
back to the record, and it ends at a record without a parent. The text of the path begins with the
text of the parent's path, and the path and the file grow from the parent's as the slot asks for
that the record is about. -/
theorem Project.parent_links {p : Project} {baseDir : String} (hids : (p.ids baseDir).Nodup)
    {n parent : Int} {entry : IndexEntry}
    (hentry : (p.populate baseDir).value.2.get? n = some entry)
    (hparent : entry.parent = some parent) :
    let index := (p.populate baseDir).value.2
    ∃ above, index.get? parent = some above
      ∧ (∀ steps, 0 < steps → index.climb steps n ≠ some n)
      ∧ (∃ steps root last, index.climb steps n = some root ∧ index.get? root = some last
        ∧ last.parent = none)
      ∧ (∃ rest, entry.path.text = above.path.text ++ rest)
      ∧ ∃ around s, p.Reaches baseDir around s ∧ s.id = some n ∧ entry.kind = s.kind
        ∧ entry.name = s.name ∧ s.GrowsFrom baseDir above entry := by
  have hindex : (p.populate baseDir).value.2 = (p.index baseDir).value := rfl
  simp only [hindex] at hentry ⊢
  rcases mem_records_iff.mp ((get?_index_iff hids).mp hentry) with ⟨-, rfl⟩
    | ⟨around, s, hreaches, hid, rfl⟩
  · -- the record of the project has no parent
    cases hparent
  · obtain ⟨above, hrecord, hkind, hpath, hfile⟩ := hreaches.record_above hparent
    obtain ⟨steps, root, last, hclimb, hlast, hroot⟩ := hreaches.climb_ends hids hid
    have hgrows := hreaches.growsFrom hkind hpath hfile
    refine ⟨above, (get?_index_iff hids).mpr hrecord, ?_, ⟨steps, root, last, hclimb, hlast, hroot⟩,
      hgrows.text_eq_append, around, s, hreaches, hid, rfl, rfl, hgrows⟩
    intro round hround
    refine Index.climb_ne_self hclimb ?_ hround
    rw [Index.parent?, hlast, Option.bind_some, hroot]

/-- A class with a method and a static property. -/
def smallClass : Project where
  id := some 0
  children := [⟨{ id := some 1, name := "C", sources := [⟨"lib/c.ts", 1⟩] },
    [⟨{ id := some 2, name := "m" }, [],
        .callable .method [⟨some 3, .call, "m", [], {}, {}, [], [], none, none, default, {}⟩]⟩,
      ⟨{ id := some 4, name := "s", flags := { isStatic := true } }, [],
        .member .property ⟨.intrinsic "number", []⟩⟩],
    .classLike .classDecl [] [] []⟩]

/-- The method is below the class, and its path goes on from the path of the class. -/
theorem Project.parent_links_smallClass :
    let index := (smallClass.populate ".").value.2
    (smallClass.ids ".").Nodup ∧ ∃ entry above, index.get? 2 = some entry ∧ entry.parent = some 1
      ∧ entry.path = ["./", "lib/", "c.", "C#", "m"] ∧ index.get? 1 = some above
      ∧ (∀ steps, 0 < steps → index.climb steps 2 ≠ some 2)
      ∧ (∃ steps root last, index.climb steps 2 = some root ∧ index.get? root = some last
        ∧ last.parent = none)
      ∧ (∃ rest, entry.path.text = above.path.text ++ rest)
      ∧ ∃ s : Slot, s.id = some 2 ∧ s.GrowsFrom "." above entry := by
  have hids : (smallClass.ids ".").Nodup := by decide +kernel
  have hentry : (smallClass.populate ".").value.2.get? 2
      = some ⟨.declaration (.callable .method), "m", ["./", "lib/", "c.", "C#", "m"], some 1,
        "lib/c.ts", false⟩ := by
    decide +kernel
  obtain ⟨above, habove, hreturn, hends, hrest, around, s, -, hid, -, -, hgrows⟩ :=
    parent_links hids hentry rfl
  exact ⟨hids, _, above, hentry, rfl, rfl, habove, hreturn, hends, hrest, s, hid, hgrows⟩

end DocAtlas
