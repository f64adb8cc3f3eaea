import DocAtlas.Proofs.Attempt
import DocAtlas.Proofs.IndexAgreement
import DocAtlas.Proofs.Pathname
import DocAtlas.Proofs.Placement
import DocAtlas.Proofs.RelativePath

/-!
A module for a file makes no difference.

The declarations of a file may stand directly under the project, where their source file stands in
for a path, or in a module for the file, which gets its path from the file's name as seen from the
base directory. Both put them in the same places (`placeIn_module`), and so all that is below them.
Only the parents that the index records are different, and these are not looked at by a conversion.
So both give the same entities, or the same failure, with the same events on the way
(`Project.convert_module`).
-/

set_option autoImplicit false

namespace DocAtlas

/-! ## The index without parents -/

/-- The entry without its parent. -/
def IndexEntry.orphaned (entry : IndexEntry) : IndexEntry := { entry with parent := none }

/-- The visit without what it says about the parent. -/
def Visit.orphaned (visit : Visit) : Visit :=
  { visit with entry := visit.entry.orphaned, owner := {} }

namespace Index

/-- The index without any parents. -/
def orphaned (index : Index) : Index := ⟨index.entries.map fun entry => (entry.1, entry.2.orphaned)⟩

/-- Without parents the index knows the same ids. -/
theorem get?_orphaned (index : Index) (id : Int) :
    index.orphaned.get? id = (index.get? id).map (·.orphaned) := by
  obtain ⟨entries⟩ := index
  simp only [get?, orphaned]
  induction entries with
  | nil => rfl
  | cons entry entries ih =>
    rw [List.map_cons, List.lookup_cons, List.lookup_cons, ih]
    cases id == entry.1 <;> rfl

/-- It has as many entries. -/
theorem size_orphaned (index : Index) : index.orphaned.size = index.size := List.length_map _

/-- Two indexes that differ in the parents only have the same paths. -/
theorem samePaths_of_orphaned_eq {a b : Index} (h : a.orphaned = b.orphaned) : a.SamePaths b := by
  have hpath : ∀ index : Index, ∀ id,
      (index.get? id).map (·.path) = (index.orphaned.get? id).map (·.path) := by
    intro index id
    rw [get?_orphaned, Option.map_map]
    rfl
  intro id
  rw [hpath a, hpath b, h]

/-- Parents are no part of where an entry is put. -/
theorem map_insertEntry (id : Int) (entry : IndexEntry) (entries : List (Int × IndexEntry)) :
    (insertEntry id entry entries).map (fun entry => (entry.1, entry.2.orphaned))
      = insertEntry id entry.orphaned (entries.map fun entry => (entry.1, entry.2.orphaned)) := by
  induction entries with
  | nil => rfl
  | cons head entries ih =>
    obtain ⟨i, e⟩ := head
    rw [insertEntry, List.map_cons, insertEntry]
    by_cases hi : i = id
    · rw [if_pos hi, if_pos hi]
      rfl
    · rw [if_neg hi, if_neg hi, List.map_cons, ih]

/-- Inserting an entry without its parent gives the index without parents, with the same event if
the id was known. -/
theorem insert_orphaned (index : Index) (id : Int) (entry : IndexEntry) :
    index.orphaned.insert id entry.orphaned = orphaned <$> index.insert id entry := by
  -- the entries that are left, whether or not the id is known
  have hinserted : (⟨insertEntry id entry.orphaned index.orphaned.entries⟩ : Index)
      = orphaned ⟨insertEntry id entry index.entries⟩ :=
    congrArg Index.mk (map_insertEntry id entry index.entries).symm
  rw [insert, insert, get?_orphaned, hinserted]
  cases index.get? id <;> rfl

/-- Recording visits without parents gives the index without parents, with the same events. -/
theorem record_orphaned (index : Index) (visits : List Visit) :
    index.orphaned.record (visits.map Visit.orphaned) = orphaned <$> index.record visits := by
  induction visits generalizing index with
  | nil => rfl
  | cons visit visits ih =>
    have hid : visit.orphaned.id = visit.id := rfl
    have hentry : visit.orphaned.entry = visit.entry.orphaned := rfl
    rw [List.map_cons, record, record, hid, hentry]
    cases visit.id with
    | none => exact ih index
    | some id => simp only [insert_orphaned, map_bind, bind_map_left, ih]

end Index

/-- Indexing a project and leaving out the parents: the count that is logged is the same. -/
theorem Project.index_orphaned (p : Project) (baseDir : String) :
    Index.orphaned <$> p.index baseDir = (do
      let index ← Index.orphaned <$> p.rootIndex.record (p.visits baseDir)
      Logged.log (.indexPopulated index.size)
      pure index) := by
  rw [Project.index]
  simp only [map_bind, bind_map_left, Index.size_orphaned, map_pure]

/-! ## The same places -/

/-- What is put in the same place is settled in the same way, with all that is below it. -/
theorem settleDeclarations_congr {baseDir : String} {around around' : Surroundings}
    {ds : List Declaration}
    (h : ∀ d ∈ ds,
      (Slot.declaration d).placeIn baseDir around = (Slot.declaration d).placeIn baseDir around') :
    settleDeclarations baseDir around ds = settleDeclarations baseDir around' ds := by
  induction ds with
  | nil => rfl
  | cons d ds ih =>
    obtain ⟨hd, hds⟩ := List.forall_mem_cons.mp h
    obtain ⟨header, children, detail⟩ := d
    -- what is below has this declaration for its surroundings, and sees nothing of those around it
    -- but its place
    rw [settleDeclarations, settleDeclarations, ih hds, settleDeclaration, settleDeclaration, hd]

/-- What is put in the same place is visited in the same way but for its parent, and so is all that
is below it. -/
theorem visits_congr {baseDir : String} {around around' : Surroundings} {ds : List Declaration}
    (h : ∀ d ∈ ds,
      (Slot.declaration d).placeIn baseDir around = (Slot.declaration d).placeIn baseDir around') :
    (visits baseDir (ds.map fun d => (.declaration d, around))).map Visit.orphaned
      = (visits baseDir (ds.map fun d => (.declaration d, around'))).map Visit.orphaned := by
  induction ds with
  | nil => rfl
  | cons d ds ih =>
    obtain ⟨hd, hds⟩ := List.forall_mem_cons.mp h
    have hvisit : ((Slot.declaration d).visit baseDir around).orphaned
        = ((Slot.declaration d).visit baseDir around').orphaned := by
      simp only [Slot.visit, Slot.entryAt, hd, Visit.orphaned, IndexEntry.orphaned]
    rw [List.map_cons, List.map_cons, visits_cons, visits_cons, visits_append, visits_append, hd,
      List.map_cons, List.map_cons, List.map_append, List.map_append, hvisit, ih hds]

/-! ## Declarations of a file -/

/-- A declaration of a file, but not a module. -/
structure Declaration.InFile (d : Declaration) (file : String) : Prop where
  not_module : d.isModule = false
  source : d.header.sources.head?.map (·.fileName) = some file

/-- Surroundings in which the declarations of a file hang on the segments of the file: the project
itself, or a module for the file. -/
def Surroundings.Offers (around : Surroundings) (file : String) : Prop :=
  around.kind.owner = .project ∧ around.place.path = [] ∨
    around.kind.owner = .other ∧ around.place.path = FilePath.segments file

/-- In both surroundings, a declaration of a file stands at its name behind the segments of the
file. -/
theorem Declaration.InFile.placeIn {d : Declaration} {file : String} (h : d.InFile file)
    (hfile : file ≠ "") (baseDir : String) {around : Surroundings} (haround : around.Offers file) :
    (Slot.declaration d).placeIn baseDir around
      = ⟨(FilePath.segments file).closeLast '.' ++ [d.name], file⟩ := by
  obtain ⟨source, hsource, rfl⟩ := Option.map_eq_some_iff.mp h.source
  have hfirst : (Slot.declaration d).source? = some source := hsource
  have hmodule : (Slot.declaration d).isModule = false := h.not_module
  have hown : (Slot.declaration d).ownSegments baseDir = [d.name] :=
    if_neg (Bool.eq_false_iff.mp h.not_module)
  -- the project offers the segments of the source file, and the module has them for its path
  have hanchor : Pathname.anchor false around.kind.owner around.place.path source.fileName
      = FilePath.segments source.fileName := by
    rcases haround with ⟨howner, hpath⟩ | ⟨howner, hpath⟩
    · rw [howner, hpath]
      rfl
    · rw [howner, hpath, Pathname.anchor_of_ne_project (by decide)]
  -- neither is a class, so the delimiter is a dot
  have hdelimiter : ∀ isStatic, Pathname.delimiter isStatic around.kind.owner = '.' := by
    rcases haround with ⟨howner, -⟩ | ⟨howner, -⟩ <;>
      exact Pathname.delimiter_of_ne_classDecl (by rw [howner]; decide)
  have hsegments : (FilePath.segments source.fileName).isEmpty = false := by
    simpa using FilePath.segments_ne_nil hfile
  simp only [Slot.placeIn, hfirst, hown, hmodule, Pathname.join, hanchor, hdelimiter, hsegments,
    List.isEmpty_cons, Bool.false_eq_true, if_false]

/-! ## A module for a file -/

/-- A module with declarations in it. -/
def Header.moduleOf (header : Header) (cs : List Declaration) : Declaration :=
  ⟨header, cs, .scope .moduleDecl⟩

/-- The header of a module for a file that is given behind the base directory. The module has no id
and no sources. -/
structure Header.ModuleFor (header : Header) (baseDir file : String) : Prop where
  id : header.id = none
  sources : header.sources = []
  originalName : header.originalName = some (FilePath.join baseDir file)

/-- What the declarations in a module inherit from it. -/
def Project.surroundingsIn (p : Project) (baseDir : String) (d : Declaration) : Surroundings :=
  (Slot.declaration d).surroundings ((Slot.declaration d).placeIn baseDir p.surroundings)

section

variable {names : List String} (hne : names ≠ []) (hnames : ∀ name ∈ names, FilePath.Ordinary name)
  {header : Header} {baseDir : String} (hheader : header.ModuleFor baseDir ("/".intercalate names))
include hne hnames hheader

/-- The module stands at the segments of its file. -/
theorem placeIn_module (p : Project) (cs : List Declaration) :
    (Slot.declaration (header.moduleOf cs)).placeIn baseDir p.surroundings
      = ⟨FilePath.segments ("/".intercalate names), ""⟩ := by
  have hsource : (Slot.declaration (header.moduleOf cs)).source? = none := by
    simp only [Slot.source?, Header.moduleOf, hheader.sources, List.head?_nil]
  have hfile : (FilePath.join baseDir ("/".intercalate names)).isEmpty = false := by
    simpa [String.isEmpty_iff] using FilePath.join_ne_empty hne hnames baseDir
  have hown : (Slot.declaration (header.moduleOf cs)).ownSegments baseDir
      = FilePath.segments ("/".intercalate names) := by
    simp only [Slot.ownSegments, Declaration.ownSegments, Declaration.isModule, Declaration.kind,
      Detail.kind, Header.moduleOf, beq_self_eq_true, if_true, hheader.originalName, hfile,
      Bool.false_eq_true, if_false, FilePath.relativeTo_join hne hnames]
  have hsegments : (FilePath.segments ("/".intercalate names)).isEmpty = false := by
    simpa using FilePath.segments_ne_nil (FilePath.intercalate_ne_empty hne hnames)
  -- under the project a module has nothing to hang on, so its own segments are its path
  simp only [Slot.placeIn, hsource, hown]
  rw [Pathname.join, hsegments]
  rfl

/-- The declarations of the file are put in the same places in the module and without it. -/
theorem placeIn_inModule (p : Project) {cs : List Declaration}
    (hcs : ∀ d ∈ cs, d.InFile ("/".intercalate names)) :
    ∀ d ∈ cs, (Slot.declaration d).placeIn baseDir (p.surroundingsIn baseDir (header.moduleOf cs))
      = (Slot.declaration d).placeIn baseDir p.surroundings := by
  have hfile := FilePath.intercalate_ne_empty hne hnames
  have hproject : p.surroundings.Offers ("/".intercalate names) := .inl ⟨rfl, rfl⟩
  have hmodule : (p.surroundingsIn baseDir (header.moduleOf cs)).Offers ("/".intercalate names) :=
    .inr ⟨rfl, congrArg Place.path (placeIn_module hne hnames hheader p cs)⟩
  intro d hd
  rw [(hcs d hd).placeIn hfile baseDir hmodule, (hcs d hd).placeIn hfile baseDir hproject]

/-- The index records the same about the declarations of the file, but for their parents. -/
theorem index_module (p : Project) {cs : List Declaration}
    (hcs : ∀ d ∈ cs, d.InFile ("/".intercalate names)) :
    Index.orphaned <$> { p with children := [header.moduleOf cs] }.index baseDir
      = Index.orphaned <$> { p with children := cs }.index baseDir := by
  have hcongr := visits_congr (placeIn_inModule hne hnames hheader p hcs)
  -- the module is visited first, and without an id there is nothing to record about it
  have hvisits : { p with children := [header.moduleOf cs] }.visits baseDir
      = (Slot.declaration (header.moduleOf cs)).visit baseDir p.surroundings
        :: visits baseDir
          (cs.map fun d => (.declaration d, p.surroundingsIn baseDir (header.moduleOf cs))) := by
    rw [Project.visits, List.map_singleton, visits_singleton, Slot.below]
    simp only [Header.moduleOf, Detail.slots, List.append_nil, List.map_map]
    rfl
  have hskip : ∀ (index : Index) (rest : List Visit),
      index.record ((Slot.declaration (header.moduleOf cs)).visit baseDir p.surroundings :: rest)
        = index.record rest := by
    intro index rest
    have hid : ((Slot.declaration (header.moduleOf cs)).visit baseDir p.surroundings).id = none :=
      hheader.id
    rw [Index.record, hid]
  -- without parents the visits of both layouts are the same, up to the visit of the module
  have hrecord : Index.orphaned
      <$> p.rootIndex.record ({ p with children := [header.moduleOf cs] }.visits baseDir)
      = Index.orphaned <$> p.rootIndex.record ({ p with children := cs }.visits baseDir) := by
    rw [hvisits, hskip, ← Index.record_orphaned, hcongr, Index.record_orphaned]
    rfl
  rw [Project.index_orphaned, Project.index_orphaned]
  exact congrArg (· >>= _) hrecord

/-- The declarations of the file are settled in the same way. -/
theorem placed_module (p : Project) {cs : List Declaration}
    (hcs : ∀ d ∈ cs, d.InFile ("/".intercalate names)) :
    ∃ header' : Header, header'.sources = header.sources ∧
      ({ p with children := [header.moduleOf cs] }.placed baseDir).children
        = [header'.moduleOf ({ p with children := cs }.placed baseDir).children] := by
  have hsettle := settleDeclarations_congr (placeIn_inModule hne hnames hheader p hcs)
  rw [Project.placed_eq, Project.placed_eq]
  let place := (Slot.declaration (header.moduleOf cs)).placeIn baseDir p.surroundings
  -- the module gets its own place, and its children are settled as without it
  refine ⟨{ header with place := place }, rfl, ?_⟩
  exact congrArg (fun settled => [Header.moduleOf _ settled]) hsettle

end

/-! ## Conversion -/

/-- The entities of a project come from a walk over the placed project, with the index of the
project. -/
theorem Project.snd_convert (p : Project) (config : Config) :
    Prod.snd <$> p.convert config
      = liftM (p.index config.baseDir) >>= fun index =>
        Scope.convertProject ⟨index, config⟩ (p.placed config.baseDir) := by
  rw [Project.convert]
  simp only [map_bind, map_pure, bind_pure]
  exact Attempt.liftM_bind_congr (List.append_nil _) rfl

/-- A module has no entity of its own, and leads to the declarations in it. -/
theorem Scope.convertItems_module (scope : Scope) {header : Header} (hsources : header.sources = [])
    (cs : List Declaration) :
    scope.convertItems [.of (header.moduleOf cs)] = scope.convertItems (cs.map .of) := by
  have hexternal : (header.moduleOf cs).isExternal = false := by
    rw [Declaration.isExternal, Header.moduleOf, Header.isExternal, hsources]
  rw [convertItems, WorkItem.of, hexternal, if_neg Bool.false_ne_true]
  simp only [Header.moduleOf, convert, Declaration.followUps, pure_bind, List.append_nil,
    Option.toList_none, List.nil_append, bind_pure]

/-- **Declarations of a file are converted in the same way in a module for the file and without
it**: to the same entities or the same failure, with the same events on the way. -/
theorem Project.convert_module (p : Project) (config : Config) {names : List String}
    (hne : names ≠ []) (hnames : ∀ name ∈ names, FilePath.Ordinary name) {header : Header}
    (hheader : header.ModuleFor config.baseDir ("/".intercalate names)) {cs : List Declaration}
    (hcs : ∀ d ∈ cs, d.InFile ("/".intercalate names)) :
    Prod.snd <$> { p with children := [header.moduleOf cs] }.convert config
      = Prod.snd <$> { p with children := cs }.convert config := by
  obtain ⟨hvalue, hevents⟩ := Logged.ext_iff.mp (index_module hne hnames hheader p hcs)
  simp only [Logged.value_map, Logged.events_map] at hvalue hevents
  obtain ⟨header', hsources, hplaced⟩ := placed_module hne hnames hheader p hcs
  rw [Project.snd_convert, Project.snd_convert]
  refine Attempt.liftM_bind_congr hevents ?_
  -- the two indexes have the same paths, which is all that a conversion sees of them
  have hitems := Scope.convertItems_congr (Index.samePaths_of_orphaned_eq hvalue) config
  simp only [Scope.convertProject]
  rw [hplaced, List.map_singleton, Scope.convertItems_module _ (hsources.trans hheader.sources),
    hitems]

/-- A module for the file `lib/util.ts` behind the base directory `../work/./`. -/
def utilHeader : Header := { name := "lib/util", originalName := some "../work/./lib/util.ts" }

/-- A class with a method, and a variable of that class, in the file `lib/util.ts`. -/
def utilDeclarations : List Declaration := [
  ⟨{ id := some 1, name := "Box", sources := [⟨"lib/util.ts", 1⟩] },
    [⟨{ id := some 2, name := "open", sources := [⟨"lib/util.ts", 2⟩] }, [],
      .callable .method
        [⟨some 3, .call, "open", [], {}, {}, [], [], some ⟨.intrinsic "void", []⟩, none, default,
          {}⟩]⟩],
    .classLike .classDecl [] [] []⟩,
  ⟨{ id := some 4, name := "box", sources := [⟨"lib/util.ts", 5⟩] }, [],
    .member .variableDecl ⟨.reference { name := "Box", id := some 1 }, []⟩⟩]

/-- The class, its method and the variable have the same paths in the module and without it. -/
theorem Project.convert_module_util :
    Prod.snd <$> Project.convert { children := [utilHeader.moduleOf utilDeclarations] }
      { baseDir := "../work/./" }
        = Prod.snd <$> Project.convert { children := utilDeclarations } { baseDir := "../work/./" }
      ∧ (Project.convert { children := utilDeclarations }
        { baseDir := "../work/./" }).outcome.1.toOption.map (fun result => result.2.map Entity.path)
        = some [["./", "lib/", "util.", "Box"], ["./", "lib/", "util.", "Box#", "open"],
            ["./", "lib/", "util.", "box"]] := by
  have hnames : "/".intercalate ["lib", "util.ts"] = "lib/util.ts" := by decide +kernel
  have hheader : utilHeader.ModuleFor "../work/./" ("/".intercalate ["lib", "util.ts"]) :=
    ⟨rfl, rfl, by decide +kernel⟩
  have hcs : ∀ d ∈ utilDeclarations, d.InFile ("/".intercalate ["lib", "util.ts"]) := by
    rw [hnames]
    simp only [utilDeclarations, List.forall_mem_cons]
    exact ⟨⟨rfl, rfl⟩, ⟨rfl, rfl⟩, List.forall_mem_nil _⟩
  exact ⟨Project.convert_module {} { baseDir := "../work/./" } (by decide)
    (by decide) hheader hcs, by decide +kernel⟩

end DocAtlas
