import DocAtlas.Analyzer
import Mathlib.Data.String.Basic

/-!
The events that a strict analysis does not let pass.

There are two kinds of them: a construct without a faithful entity, and a path that is taken. Both
are warnings that can be told from all others by their texts (`Event.gap?_iff`,
`Event.takenPath?_iff`). Nothing that only computes and logs, without a way to fail, logs one of
them: indexing, rendering types, and documenting signatures are `Quiet`.
-/

set_option autoImplicit false

namespace DocAtlas

/-! ## Fatal events -/

namespace Event

/-- The construct without a faithful entity that an event tells of. -/
def gap? : Event → Option Gap
  | .unimplemented gap => some gap
  | _ => none

/-- The taken path that an event tells of. -/
def takenPath? : Event → Option String
  | .pathTaken path _ => some path
  | _ => none

/-- What a strict analysis fails with instead of logging an event. -/
def fatal? (e : Event) : Option Failure :=
  (e.gap?.map .unsupported).or (e.takenPath?.map fun path => .lookup (.duplicate path))

/-- The warnings that start with `UNIMPLEMENTED:` are those about constructs without faithful
entities, and they go on with the wording of the construct. -/
theorem gap?_iff (e : Event) :
    (e.level = .warn ∧ "UNIMPLEMENTED:".toList <+: e.message.toList) ↔
      ∃ gap, e.gap? = some gap ∧ e.message = "UNIMPLEMENTED: " ++ gap.text := by
  constructor
  · rintro ⟨hlevel, hstart⟩
    cases e with
    | unimplemented gap => exact ⟨gap, rfl, rfl⟩
    | notDestructurable _ | tagRepeated _ | indexSignatureWithoutKey | unresolved _ _ _
      | pathTaken _ _ =>
      -- the text is opened by the definition; its equations would evaluate every text
      delta message LookupError.message at hstart
      simp [String.toList_append] at hstart
    | _ => cases hlevel
  · rintro ⟨gap, hgap, hmessage⟩
    refine ⟨?_, ?_⟩
    · cases e <;> cases hgap
      rfl
    · rw [hmessage]
      simp [String.toList_append]

/-- The warnings that start with `Path` are those about taken paths. -/
theorem takenPath?_iff (e : Event) :
    (e.level = .warn ∧ "Path".toList <+: e.message.toList) ↔
      ∃ path, e.takenPath? = some path
        ∧ e.message = (LookupError.duplicate path).message ++ "; keeping the first entity" := by
  constructor
  · rintro ⟨hlevel, hstart⟩
    cases e with
    | pathTaken path _ => exact ⟨path, rfl, rfl⟩
    | notDestructurable _ | tagRepeated _ | indexSignatureWithoutKey | unresolved _ _ _
      | unimplemented _ =>
      delta message at hstart
      simp [String.toList_append] at hstart
    | _ => cases hlevel
  · rintro ⟨path, hpath, hmessage⟩
    refine ⟨?_, ?_⟩
    · cases e <;> cases hpath
      rfl
    · rw [hmessage]
      delta LookupError.message
      simp [String.toList_append]

end Event

/-! ## Computations that only log -/

namespace Logged

variable {α β : Type}

/-- No event of the computation is fatal. -/
def Quiet (x : Logged α) : Prop := ∀ e ∈ x.events, e.fatal? = none

theorem quiet_pure (a : α) : Quiet (pure a) := by
  intro e he
  cases he

theorem quiet_log {e : Event} (h : e.fatal? = none) : Quiet (Logged.log e) := by
  intro e' he'
  rw [List.mem_singleton.mp he']
  exact h

/-- One quiet computation after the other is quiet. -/
theorem Quiet.bind {x : Logged α} {f : α → Logged β} (hx : Quiet x) (hf : ∀ a, Quiet (f a)) :
    Quiet (x >>= f) := by
  intro e he
  rw [events_bind] at he
  rcases List.mem_append.mp he with he | he
  · exact hx e he
  · exact hf _ e he

theorem Quiet.map {x : Logged α} (hx : Quiet x) (f : α → β) : Quiet (f <$> x) := by
  intro e he
  rw [events_map] at he
  exact hx e he

end Logged

open Logged (Quiet quiet_pure quiet_log)

/-! ## The index -/

/-- An id that is taken is told of, but not fatally. -/
theorem Index.quiet_insert (index : Index) (id : Int) (entry : IndexEntry) :
    Quiet (index.insert id entry) := by
  rw [Index.insert]
  split
  · exact (quiet_log rfl).bind fun _ => quiet_pure _
  · exact quiet_pure _

theorem Index.quiet_record (index : Index) (visits : List Visit) : Quiet (index.record visits) := by
  induction visits generalizing index with
  | nil => exact quiet_pure _
  | cons visit visits ih =>
    rw [Index.record]
    split
    · exact ih index
    · exact (index.quiet_insert _ _).bind fun index => ih index

/-- Indexing a project is quiet. -/
theorem Project.quiet_populate (p : Project) (baseDir : String) : Quiet (p.populate baseDir) := by
  rw [Project.populate, Project.index]
  refine Quiet.bind ?_ fun index => quiet_pure _
  refine (Index.quiet_record _ _).bind fun index => ?_
  exact (quiet_log rfl).bind fun _ => quiet_pure _

/-! ## Types -/

/-- A reference that cannot be resolved is told of, but not fatally. -/
theorem quiet_expandReference (index : Index) (r : Reference) :
    Quiet (expandReference index r) := by
  rw [expandReference]
  split
  · exact quiet_pure _
  · split
    · split
      · exact quiet_pure _
      · exact (quiet_log rfl).bind fun _ => quiet_pure _
    · split
      · exact quiet_pure _
      · exact quiet_pure _

theorem quiet_expandType (index : Index) (t : TypeExpr) : Quiet (expandType index t) := by
  rw [expandType]
  refine Quiet.bind ?_ fun frames => quiet_pure _
  -- only a reference logs anything
  cases t.kind with
  | reference r =>
    rw [expandKind]
    exact (quiet_expandReference index r).bind fun frame => quiet_pure _
  | _ => exact quiet_pure _

/-- Only an index signature without a key is told of. -/
theorem quiet_expandObject (members : List Declaration) (indexer : Option Signature) :
    Quiet (expandObject members indexer) := by
  rw [expandObject]
  refine Quiet.bind ?_ fun frames => quiet_pure _
  rw [expandIndexer.eq_def]
  split
  · exact quiet_pure _
  · split
    · exact (quiet_log rfl).bind fun _ => quiet_pure _
    · exact quiet_pure _

/-- The run over the frames is quiet. The induction is on the run: a step logs what replacing the
first frame logs. -/
theorem quiet_tokensOf (index : Index) (frames : List TypeFrame) :
    Quiet (tokensOf index frames) := by
  induction frames using tokensOf.induct index with
  | case1 =>
    rw [tokensOf]
    exact quiet_pure _
  | case2 t rest ih =>
    rw [tokensOf]
    exact ih
  | case3 t rest parts ih =>
    rw [tokensOf]
    exact (quiet_expandType index t).bind fun _ => ih
  | case4 s rest ih =>
    rw [tokensOf]
    exact ih
  | case5 members indexer rest parts ih =>
    rw [tokensOf]
    exact (quiet_expandObject members indexer).bind fun _ => ih

/-- Rendering a type is quiet. -/
theorem quiet_renderType (index : Index) (t : TypeExpr) : Quiet (renderType index t) :=
  (quiet_tokensOf index _).map mergeTexts

/-! ## Comments and signatures -/

/-- A tag that is repeated is told of, but not fatally. -/
theorem Comment.quiet_tagOne (c : Comment) (name : String) : Quiet (c.tagOne name) := by
  rw [Comment.tagOne]
  split
  · exact quiet_pure _
  · exact quiet_pure _
  · exact (quiet_log rfl).bind fun _ => quiet_pure _

theorem quiet_topLevel (name : String) (path : Pathname) (filename : String) (sources : List Source)
    (comment : Comment) : Quiet (topLevel name path filename sources comment) := by
  rw [topLevel, Comment.deprecation]
  refine Quiet.bind ?_ fun deprecated => quiet_pure _
  refine (comment.quiet_tagOne _).bind fun description => ?_
  split
  · exact quiet_pure _
  · exact quiet_pure _
  · exact quiet_pure _

/-- So is a member that is not a property. -/
theorem quiet_propertyParams (outer : String) (ds : List Declaration) :
    Quiet (propertyParams outer ds) := by
  induction ds with
  | nil => exact quiet_pure _
  | cons d ds ih =>
    rw [propertyParams]
    split
    · exact ih.bind fun params => quiet_pure _
    · exact (quiet_log rfl).bind fun _ => ih

/-- And so is a parameter without properties. -/
theorem quiet_destructured (p : Parameter) : Quiet (destructured p) := by
  rw [destructured]
  split
  · exact quiet_propertyParams _ _
  · exact (quiet_log rfl).bind fun _ => quiet_pure _

theorem quiet_paramSources (targets : List String) (ps : List Parameter) :
    Quiet (paramSources targets ps) := by
  induction ps with
  | nil => exact quiet_pure _
  | cons p ps ih =>
    -- the parameters behind are the same in both cases
    have hrest : ∀ here, Quiet (do let more ← paramSources targets ps; pure (here ++ more)) :=
      fun here => ih.bind fun more => quiet_pure _
    rw [paramSources]
    split
    · exact (quiet_destructured p).bind hrest
    · exact (quiet_pure _).bind hrest

namespace Scope

variable (scope : Scope)

theorem quiet_params (ps : List ParamSource) : Quiet (scope.params ps) := by
  induction ps with
  | nil => exact quiet_pure _
  | cons p ps ih =>
    rw [params, param]
    refine Quiet.bind ?_ fun here => ih.bind fun more => quiet_pure _
    exact (quiet_renderType _ _).bind fun type => quiet_pure _

theorem quiet_typeParams (ps : List TypeParameter) : Quiet (scope.typeParams ps) := by
  induction ps with
  | nil => exact quiet_pure _
  | cons p ps ih =>
    rw [typeParams, typeParam]
    refine Quiet.bind ?_ fun here => ih.bind fun more => quiet_pure _
    split
    · exact (quiet_pure _).bind fun bound => quiet_pure _
    · exact ((quiet_renderType _ _).map some).bind fun bound => quiet_pure _

theorem quiet_returns (s : Signature) : Quiet (scope.returns s) := by
  rw [returns]
  split
  · exact quiet_pure _
  · split
    · exact quiet_pure _
    · split
      · exact quiet_pure _
      · -- only a result that is documented has its type rendered
        refine (quiet_renderType _ _).bind fun type => ?_
        exact (s.comment.quiet_tagOne _).bind fun description => quiet_pure _

/-- Documenting the signatures of a callable is quiet. -/
theorem quiet_callable (owner : SignatureOwner) (signatures : List Signature) :
    Quiet (scope.callable owner signatures) := by
  cases signatures with
  | nil => exact quiet_pure _
  | cons s rest =>
    rw [callable, signature]
    split
    · -- what is inherited without a comment of its own is passed over
      exact (quiet_log rfl).bind fun _ => quiet_pure _
    · refine (quiet_paramSources _ _).bind fun sources => ?_
      refine (scope.quiet_params _).bind fun params => ?_
      refine (quiet_topLevel _ _ _ _ _).bind fun top => ?_
      refine (scope.quiet_returns s).bind fun returns => ?_
      exact (scope.quiet_typeParams _).bind fun typeParams => quiet_pure _

theorem quiet_attributeOf (header : Header) (comment : Comment) (type : TypeExpr) :
    Quiet (scope.attributeOf header comment type) := by
  rw [attributeOf]
  refine (quiet_topLevel _ _ _ _ _).bind fun top => ?_
  exact (quiet_renderType _ _).bind fun type => quiet_pure _

/-- So is documenting a property. -/
theorem quiet_member (header : Header) (type : TypeExpr) : Quiet (scope.member header type) := by
  rw [member]
  split
  · exact (scope.quiet_callable _ _).bind fun function => quiet_pure _
  · exact (scope.quiet_attributeOf _ _ _).bind fun found => quiet_pure _

end Scope

end DocAtlas
