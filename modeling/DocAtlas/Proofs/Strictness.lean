import DocAtlas.Proofs.Warnings
import DocAtlas.Proofs.Worklist
import Mathlib.Data.List.TakeWhile

/-!
Strict analyses.

Only two things can make an analysis fail once its document has been read: a construct without a
faithful entity, and a path that is taken. Both are let pass with a warning unless the configuration
is strict. So an analysis that is not strict succeeds (`Analyzer.succeeds_ofProject`), and a strict
one goes the same way up to the first such warning, which it fails with
(`Analyzer.ofProject_strict`).

The two runs are compared by one relation, `Hardens`. It goes through everything that attempts are
put together with, and the statements follow the conversion from the gaps up to the whole analysis.
-/

set_option autoImplicit false

namespace DocAtlas

open Attempt (Succeeds)
open Logged (Quiet)

/-! ## Two runs -/

namespace Attempt

variable {α β : Type}

/-- What a strict run comes to where another one gives a result and events: the failure of the first
fatal event, or the same result if there is none. The events before the first fatal one are the
same. -/
def hardened (a : α) (events : List Event) : Except Failure α × List Event :=
  (match events.findSome? Event.fatal? with
    | some failure => .error failure
    | none => .ok a,
  events.takeWhile (·.fatal?.isNone))

/-- A run succeeds, and a strict one fails with its first fatal event if it has one. All its fatal
events are of an expected kind. -/
def Hardens (expected : Failure → Prop) (lenient strict : Attempt α) : Prop :=
  ∃ a events, lenient.outcome = (.ok a, events) ∧ strict.outcome = hardened a events
    ∧ ∀ e ∈ events, ∀ failure, e.fatal? = some failure → expected failure

/-- Without fatal events there is no difference. -/
theorem hardened_of_quiet (a : α) {events : List Event} (h : ∀ e ∈ events, e.fatal? = none) :
    hardened a events = (.ok a, events) := by
  have hall : ∀ e ∈ events, e.fatal?.isNone = true := by
    intro e he
    rw [h e he]
    rfl
  rw [hardened, List.findSome?_eq_none_iff.mpr h, List.takeWhile_eq_self_iff.mpr hall]

/-- Behind events without a fatal one, the first fatal event is still to come. -/
theorem hardened_append_of_quiet (b : β) {before : List Event} (after : List Event)
    (h : before.findSome? Event.fatal? = none) :
    hardened b (before ++ after) = ((hardened b after).1, before ++ (hardened b after).2) := by
  have hall : ∀ e ∈ before, e.fatal?.isNone = true := by
    intro e he
    rw [List.findSome?_eq_none_iff.mp h e he]
    rfl
  simp only [hardened]
  rw [List.findSome?_append, h, Option.none_or, List.takeWhile_append_of_pos hall]

/-- Behind a fatal event nothing counts any more. -/
theorem hardened_append_of_fatal (a : α) (b : β) {before : List Event} (after : List Event)
    {failure : Failure} (h : before.findSome? Event.fatal? = some failure) :
    hardened b (before ++ after) = (.error failure, (hardened a before).2) := by
  -- some event before is fatal, and the first one ends the run
  obtain ⟨e, he, hfatal⟩ := List.exists_of_findSome?_eq_some h
  -- the events are taken up to a fatal one, so not all of them
  have hstop : ¬ (before.takeWhile (·.fatal?.isNone)).length = before.length := by
    intro hlength
    have hpart : before.takeWhile (·.fatal?.isNone) <+: before := List.takeWhile_prefix _
    have hself := hpart.eq_of_length hlength
    have hnone := List.takeWhile_eq_self_iff.mp hself e he
    rw [hfatal] at hnone
    cases hnone
  simp only [hardened]
  rw [List.findSome?_append, h, Option.some_or, List.takeWhile_append, if_neg hstop]

variable {expected : Failure → Prop}

/-- What only logs does the same in both runs. -/
theorem hardens_liftM {x : Logged α} (h : Quiet x) : Hardens expected (liftM x) (liftM x) := by
  refine ⟨x.value, x.events, outcome_liftM x, ?_, ?_⟩
  · rw [hardened_of_quiet x.value h, outcome_liftM]
  · intro e he failure hfatal
    rw [h e he] at hfatal
    cases hfatal

theorem hardens_pure (a : α) : Hardens expected (pure a) (pure a) :=
  ⟨a, [], rfl, rfl, fun _ he => absurd he List.not_mem_nil⟩

theorem hardens_log {e : Event} (h : e.fatal? = none) :
    Hardens expected (Attempt.log e) (Attempt.log e) :=
  hardens_liftM (Logged.quiet_log h)

/-- A strict run fails where another one logs a fatal event. -/
theorem hardens_fatal {e : Event} {failure : Failure} (h : e.fatal? = some failure)
    (hexpected : expected failure) :
    Hardens expected (Attempt.log e) (throw failure) := by
  refine ⟨(), [e], rfl, ?_, ?_⟩
  · rw [hardened, List.findSome?_cons, h, List.takeWhile_cons, h]
    rfl
  · intro other hother failure' hfailure
    rw [List.mem_singleton.mp hother, h] at hfailure
    cases hfailure
    exact hexpected

/-- **One attempt after another.** If the first part has a fatal event, the strict run ends there,
and else it goes on as the other one does. -/
theorem Hardens.bind {x x' : Attempt α} {f f' : α → Attempt β} (hx : Hardens expected x x')
    (hf : ∀ a, Hardens expected (f a) (f' a)) : Hardens expected (x >>= f) (x' >>= f') := by
  obtain ⟨a, before, hlenient, hstrict, hbefore⟩ := hx
  obtain ⟨b, after, hlenient', hstrict', hafter⟩ := hf a
  refine ⟨b, before ++ after, ?_, ?_, ?_⟩
  · rw [outcome_bind_of_ok f hlenient, hlenient']
  · cases hfirst : before.findSome? Event.fatal? with
    | none =>
      -- the strict run has come as far, with the same result
      rw [hardened_of_quiet a (List.findSome?_eq_none_iff.mp hfirst)] at hstrict
      rw [outcome_bind_of_ok f' hstrict, hardened_append_of_quiet b after hfirst, hstrict']
    | some failure =>
      -- the strict run has failed, and what comes next is not run
      have hfails : x'.outcome = (.error failure, (hardened a before).2) := by
        rw [hstrict, hardened, hfirst]
      rw [outcome_bind_of_error f' hfails, hardened_append_of_fatal a b after hfirst]
  · intro e he
    rcases List.mem_append.mp he with he | he
    · exact hbefore e he
    · exact hafter e he

/-- A function of the result makes no difference. -/
theorem Hardens.map {x x' : Attempt α} (hx : Hardens expected x x') (f : α → β) :
    Hardens expected (f <$> x) (f <$> x') := by
  rw [← bind_pure_comp, ← bind_pure_comp]
  exact hx.bind fun a => hardens_pure (f a)

/-- More failures may be expected. -/
theorem Hardens.mono {x x' : Attempt α} (hx : Hardens expected x x') {others : Failure → Prop}
    (h : ∀ failure, expected failure → others failure) : Hardens others x x' := by
  obtain ⟨a, events, hlenient, hstrict, hexpected⟩ := hx
  exact ⟨a, events, hlenient, hstrict,
    fun e he failure hfatal => h failure (hexpected e he failure hfatal)⟩

/-- The run that is not strict succeeds. -/
theorem Hardens.succeeds {x x' : Attempt α} (hx : Hardens expected x x') : Succeeds x := by
  obtain ⟨a, events, hlenient, -⟩ := hx
  exact ⟨a, congrArg Prod.fst hlenient⟩

end Attempt

open Attempt (Hardens hardens_pure hardens_log hardens_fatal hardens_liftM)

/-! ## Conversion -/

/-- A failure because of a construct without a faithful entity. -/
def Failure.IsGap (failure : Failure) : Prop := ∃ gap, failure = .unsupported gap

/-- A failure because of a path that is taken. -/
def Failure.IsTaken (failure : Failure) : Prop := ∃ path, failure = .lookup (.duplicate path)

namespace Scope

/-- The scope with another strictness. -/
def withStrict (scope : Scope) (strict : Bool) : Scope :=
  ⟨scope.index, { scope.config with strict := strict }⟩

variable (scope : Scope)

-- what only computes and logs does not look at the strictness

theorem params_withStrict (strict : Bool) (ps : List ParamSource) :
    (scope.withStrict strict).params ps = scope.params ps := by
  induction ps with
  | nil => rfl
  | cons p ps ih =>
    rw [params, params, ih]
    rfl

theorem typeParams_withStrict (strict : Bool) (ps : List TypeParameter) :
    (scope.withStrict strict).typeParams ps = scope.typeParams ps := by
  induction ps with
  | nil => rfl
  | cons p ps ih =>
    rw [typeParams, typeParams, ih]
    rfl

/-- A function is converted without a look at the strictness. -/
theorem callable_withStrict (strict : Bool) (owner : SignatureOwner) (signatures : List Signature) :
    (scope.withStrict strict).callable owner signatures = scope.callable owner signatures := by
  cases signatures with
  | nil => rfl
  | cons s rest =>
    rw [callable, callable, signature, signature]
    simp only [params_withStrict, typeParams_withStrict]
    rfl

theorem member_withStrict (strict : Bool) (header : Header) (type : TypeExpr) :
    (scope.withStrict strict).member header type = scope.member header type := by
  rw [member, member]
  simp only [callable_withStrict]
  rfl

/-- **A gap is where the two runs part**: one logs it and the other fails. -/
theorem hardens_degrade (gap : Gap) :
    Hardens Failure.IsGap ((scope.withStrict false).degrade gap)
      ((scope.withStrict true).degrade gap) := by
  rw [degrade, degrade]
  exact hardens_fatal rfl ⟨gap, rfl⟩

/-- An accessor is a gap if neither of its signatures has a type. -/
theorem hardens_accessor (header : Header) (getter setter : Option Signature) :
    Hardens Failure.IsGap ((scope.withStrict false).accessor header getter setter)
      ((scope.withStrict true).accessor header getter setter) := by
  rw [accessor, accessor]
  cases accessorType getter setter with
  | none => exact (scope.hardens_degrade _).bind fun _ => hardens_pure _
  | some type =>
    exact (hardens_liftM (scope.quiet_attributeOf header _ type)).bind fun found => hardens_pure _

/-- A related type is a gap if it is no reference, or one without a target. -/
theorem hardens_relatedType (relation : Relation) (t : TypeExpr) :
    Hardens Failure.IsGap ((scope.withStrict false).relatedType relation t)
      ((scope.withStrict true).relatedType relation t) := by
  rw [relatedType, relatedType]
  cases t.kind with
  | reference r =>
    simp only
    cases r.targetId with
    | some id =>
      -- both scopes have one index
      have hindex : ∀ strict, (scope.withStrict strict).index.get? id = scope.index.get? id :=
        fun _ => rfl
      simp only [hindex]
      cases scope.index.get? id with
      | some entry => exact hardens_pure _
      | none => exact (hardens_log rfl).bind fun _ => hardens_pure _
    | none =>
      simp only
      split
      · exact (hardens_log rfl).bind fun _ => hardens_pure _
      · exact (scope.hardens_degrade _).bind fun _ => hardens_pure _
  | _ => exact (scope.hardens_degrade _).bind fun _ => hardens_pure _

theorem hardens_relatedTypes (relation : Relation) (types : List TypeExpr) :
    Hardens Failure.IsGap ((scope.withStrict false).relatedTypes relation types)
      ((scope.withStrict true).relatedTypes relation types) := by
  induction types with
  | nil => exact hardens_pure _
  | cons t types ih =>
    rw [relatedTypes, relatedTypes]
    refine (scope.hardens_relatedType relation t).bind fun here => ?_
    exact ih.bind fun more => hardens_pure _

/-- A class: nothing can fail but its related types. -/
theorem hardens_classEntity (header : Header) (extended implemented : List TypeExpr)
    (typeParameters : List TypeParameter) (constructor : Option Function)
    (members : List ClassMember) :
    Hardens Failure.IsGap
      ((scope.withStrict false).classEntity header extended implemented typeParameters
        constructor members)
      ((scope.withStrict true).classEntity header extended implemented typeParameters
        constructor members) := by
  rw [classEntity, classEntity, typeParams_withStrict, typeParams_withStrict]
  refine (hardens_liftM (quiet_topLevel _ _ _ _ _)).bind fun top => ?_
  refine (scope.hardens_relatedTypes _ extended).bind fun supers => ?_
  refine (scope.hardens_relatedTypes _ implemented).bind fun interfaces => ?_
  exact (hardens_liftM (scope.quiet_typeParams _)).bind fun typeParams => hardens_pure _

theorem hardens_interfaceEntity (header : Header) (extended : List TypeExpr)
    (typeParameters : List TypeParameter) (members : List ClassMember) :
    Hardens Failure.IsGap
      ((scope.withStrict false).interfaceEntity header extended typeParameters members)
      ((scope.withStrict true).interfaceEntity header extended typeParameters members) := by
  rw [interfaceEntity, interfaceEntity, typeParams_withStrict, typeParams_withStrict]
  refine (hardens_liftM (quiet_topLevel _ _ _ _ _)).bind fun top => ?_
  refine (scope.hardens_relatedTypes _ extended).bind fun supers => ?_
  exact (hardens_liftM (scope.quiet_typeParams _)).bind fun typeParams => hardens_pure _

mutual

/-- The recursion is that of the conversion: a class and its members. -/
theorem hardens_convert (inherited : List TypeParameter) (d : Declaration) :
    Hardens Failure.IsGap ((scope.withStrict false).convert inherited d)
      ((scope.withStrict true).convert inherited d) := by
  match d with
  | ⟨header, children, .classLike kind extended implemented typeParameters⟩ =>
    rw [convert, convert]
    refine (hardens_classMembers header.name typeParameters none children).bind ?_
    rintro ⟨constructor, members⟩
    cases kind with
    | classDecl => exact (scope.hardens_classEntity _ _ _ _ _ _).map some
    | interface => exact (scope.hardens_interfaceEntity _ _ _ _).map some
  | ⟨header, _, .accessor getter setter⟩ =>
    rw [convert, convert]
    exact scope.hardens_accessor header getter setter
  | ⟨header, _, .callable _ signatures⟩ =>
    rw [convert, convert, callable_withStrict, callable_withStrict]
    exact (hardens_liftM (scope.quiet_callable _ _)).bind fun _ => hardens_pure _
  -- everything below only computes and logs, and a scope not even that
  | ⟨header, _, .member _ type⟩ =>
    rw [convert, convert, member_withStrict, member_withStrict]
    exact hardens_liftM (scope.quiet_member header type)
  | ⟨header, _, .typeLiteral _ signatures _⟩ =>
    rw [convert, convert, callable_withStrict, callable_withStrict]
    exact (hardens_liftM (scope.quiet_callable _ _)).bind fun _ => hardens_pure _
  | ⟨_, _, .scope _⟩ =>
    rw [convert, convert]
    exact hardens_pure _
termination_by structural d

/-- The members of a class, whichever constructor has been found. -/
theorem hardens_classMembers (className : String) (typeParameters : List TypeParameter)
    (constructor : Option Function) (ds : List Declaration) :
    Hardens Failure.IsGap
      ((scope.withStrict false).classMembers className typeParameters constructor ds)
      ((scope.withStrict true).classMembers className typeParameters constructor ds) := by
  match ds with
  | [] =>
    rw [classMembers, classMembers]
    exact hardens_pure _
  | d :: rest =>
    rw [classMembers, classMembers]
    have hd := hardens_convert [] d
    have hrest := fun found => hardens_classMembers className typeParameters found rest
    -- a constructor, and any other child
    split
    · simp only [callable_withStrict]
      split
      · exact (hardens_log rfl).bind fun _ => hrest _
      · exact (hardens_liftM (scope.quiet_callable _ _)).bind fun _ => hrest _
    · refine hd.bind fun entity => ?_
      split
      · exact hrest _
      · exact (hrest _).bind fun _ => hardens_pure _
      · exact (hrest _).bind fun _ => hardens_pure _
      · exact (hardens_log rfl).bind fun _ => hrest _
termination_by structural ds

end

/-- **A run over pending items hardens.** The induction is on the run: what is converted, and what
comes after it. -/
theorem hardens_convertItems (items : List WorkItem) :
    Hardens Failure.IsGap ((scope.withStrict false).convertItems items)
      ((scope.withStrict true).convertItems items) := by
  induction items using WorkItem.converted.induct with
  | case1 =>
    rw [convertItems, convertItems]
    exact hardens_pure _
  | case2 item rest hex ih =>
    rw [convertItems, convertItems, if_pos hex, if_pos hex]
    exact (hardens_log rfl).bind fun _ => ih
  | case3 item rest hex ih =>
    rw [convertItems, convertItems, if_neg hex, if_neg hex]
    refine (scope.hardens_convert item.inherited item.declaration).bind fun entity => ?_
    exact ih.bind fun entities => hardens_pure _

end Scope

/-- A conversion can fail because of gaps only. -/
theorem Project.hardens_convert (p : Project) (config : Config) :
    Hardens Failure.IsGap (p.convert { config with strict := false })
      (p.convert { config with strict := true }) := by
  rw [convert, convert]
  refine (hardens_liftM (p.quiet_populate config.baseDir)).bind ?_
  rintro ⟨placed, index⟩
  refine Hardens.bind ?_ fun entities => hardens_pure _
  rw [Scope.convertProject, Scope.convertProject]
  refine (Scope.hardens_convertItems ⟨index, config⟩ _).bind fun entities => ?_
  exact (hardens_log rfl).bind fun _ => hardens_pure _

/-! ## Addresses -/

/-- A tree refuses a path only because it is taken. -/
theorem SuffixTree.eq_duplicate_of_add {α : Type} {tree tree' : SuffixTree α} {path : Pathname}
    {value : α} {error : LookupError} (h : tree.add path value = (tree', some error)) :
    error = .duplicate path.text := by
  rw [add] at h
  split at h
  · exact (Option.some.inj (congrArg Prod.snd h)).symm
  · cases congrArg Prod.snd h

/-- Addressing the entities can fail because of taken paths only. -/
theorem hardens_addPaths (tree : SuffixTree Nat) (position : Nat) (entities : List Entity) :
    Hardens Failure.IsTaken (addPaths false tree position entities)
      (addPaths true tree position entities) := by
  induction entities generalizing tree position with
  | nil =>
    rw [addPaths, addPaths]
    exact hardens_pure _
  | cons entity rest ih =>
    rw [addPaths, addPaths]
    split
    · exact ih _ _
    · rename_i tree' error hadd
      cases SuffixTree.eq_duplicate_of_add hadd
      have hrest : ∀ _ : Unit, Hardens Failure.IsTaken (addPaths false tree' (position + 1) rest)
          (addPaths true tree' (position + 1) rest) := fun _ => ih tree' (position + 1)
      -- the strict run ends here, so that it does not matter what would come next
      exact (hardens_fatal rfl ⟨_, rfl⟩).bind hrest

/-! ## Analyses -/

/-- An event that is fatal as a gap tells of no taken path. -/
theorem Event.takenPath?_of_isGap {e : Event}
    (h : ∀ failure, e.fatal? = some failure → failure.IsGap) :
    e.takenPath? = none := by
  cases e with
  | pathTaken path kind =>
    obtain ⟨gap, hgap⟩ := h _ rfl
    cases hgap
  | _ => rfl

/-- An event that is fatal as a taken path tells of no gap. -/
theorem Event.gap?_of_isTaken {e : Event}
    (h : ∀ failure, e.fatal? = some failure → failure.IsTaken) :
    e.gap? = none := by
  cases e with
  | unimplemented gap =>
    obtain ⟨path, hpath⟩ := h _ rfl
    cases hpath
  | _ => rfl

/-- Where what is fatal is made of one kind of thing, the first fatal event tells of the first such
thing. -/
theorem findSome?_fatal?_eq_map {β : Type} {events : List Event} {kind? : Event → Option β}
    {make : β → Failure} (h : ∀ e ∈ events, e.fatal? = (kind? e).map make) :
    events.findSome? Event.fatal? = (events.findSome? kind?).map make := by
  induction events with
  | nil => rfl
  | cons e events ih =>
    obtain ⟨he, hevents⟩ := List.forall_mem_cons.mp h
    rw [List.findSome?_cons, List.findSome?_cons, ih hevents, he]
    cases kind? e <;> rfl

/-- Where gaps come before taken paths, the first fatal event is the first gap, and without gaps the
first taken path. -/
theorem findSome?_fatal?_append {before after : List Event}
    (hbefore : ∀ e ∈ before, e.takenPath? = none) (hafter : ∀ e ∈ after, e.gap? = none) :
    (before ++ after).findSome? Event.fatal?
      = (((before ++ after).findSome? Event.gap?).map Failure.unsupported).or
        (((before ++ after).findSome? Event.takenPath?).map fun path =>
          .lookup (.duplicate path)) := by
  have hgaps : ∀ e ∈ before, e.fatal? = e.gap?.map .unsupported := by
    intro e he
    rw [Event.fatal?, hbefore e he, Option.map_none, Option.or_none]
  have htaken : ∀ e ∈ after, e.fatal? = e.takenPath?.map fun path => .lookup (.duplicate path) := by
    intro e he
    rw [Event.fatal?, hafter e he, Option.map_none, Option.none_or]
  rw [List.findSome?_append, List.findSome?_append, List.findSome?_append,
    findSome?_fatal?_eq_map hgaps, findSome?_fatal?_eq_map htaken,
    List.findSome?_eq_none_iff.mpr hbefore, List.findSome?_eq_none_iff.mpr hafter,
    Option.or_none, Option.none_or]

namespace Analyzer

/-- **An analysis is a conversion, and then the addressing of what came out.** -/
theorem hardens_ofProject (p : Project) (config : Config) :
    Hardens (fun _ => True) (ofProject p { config with strict := false })
      (ofProject p { config with strict := true }) := by
  rw [ofProject, ofProject]
  refine ((p.hardens_convert config).mono fun _ _ => trivial).bind ?_
  rintro ⟨index, entities⟩
  refine ((hardens_addPaths _ _ _).mono fun _ _ => trivial).bind fun byPath => ?_
  exact (hardens_log rfl).bind fun _ => hardens_pure _

/-- Gaps are found by the conversion, and taken paths after it. -/
theorem events_ofProject (p : Project) (config : Config) :
    ∃ before after, (ofProject p { config with strict := false }).outcome.2 = before ++ after
      ∧ (∀ e ∈ before, e.takenPath? = none) ∧ (∀ e ∈ after, e.gap? = none) := by
  obtain ⟨⟨index, entities⟩, before, hconvert, -, hbefore⟩ := p.hardens_convert config
  obtain ⟨byPath, after, hpaths, -, hafter⟩ := hardens_addPaths .empty 0 entities
  -- an analysis is a conversion, then the paths, and then one more event
  refine ⟨before, after ++ [.analysisReady index.size entities.length byPath.size], ?_, ?_, ?_⟩
  · rw [ofProject, Attempt.outcome_bind_of_ok _ hconvert]
    simp only
    rw [Attempt.outcome_bind_of_ok _ hpaths]
    rfl
  · exact fun e he => Event.takenPath?_of_isGap (hbefore e he)
  · intro e he
    rcases List.mem_append.mp he with he | he
    · exact Event.gap?_of_isTaken (hafter e he)
    · rw [List.mem_singleton.mp he]
      rfl

/-- **An analysis that is not strict succeeds.** -/
theorem succeeds_ofProject {config : Config} (h : config.strict = false) (p : Project) :
    Succeeds (ofProject p config) := by
  have hsame : { config with strict := false } = config := by
    rw [← h]
  rw [← hsame]
  exact (hardens_ofProject p config).succeeds

/-- **A strict analysis fails with the first warning that it does not let pass.** An analysis that
is not strict succeeds. If it warns of a construct without a faithful entity, the strict one fails
with the first of these; if it does not, but warns of a taken path, the strict one fails with the
first of those; and otherwise the two come to the same. The strict one logs what the other one logs
before that warning. In the log these are the warnings that start with `UNIMPLEMENTED:` and with
`Path`. -/
theorem ofProject_strict (p : Project) (config : Config) :
    ∃ a events, (ofProject p { config with strict := false }).outcome = (.ok a, events)
      ∧ (ofProject p { config with strict := true }).outcome
          = (match events.findSome? Event.gap? with
              | some gap => .error (.unsupported gap)
              | none => match events.findSome? Event.takenPath? with
                | some path => .error (.lookup (.duplicate path))
                | none => .ok a,
            events.takeWhile fun e => e.gap?.isNone && e.takenPath?.isNone)
      ∧ (∀ e : Event, (e.level = .warn ∧ "UNIMPLEMENTED:".toList <+: e.message.toList) ↔
          ∃ gap, e.gap? = some gap ∧ e.message = "UNIMPLEMENTED: " ++ gap.text)
      ∧ (∀ e : Event, (e.level = .warn ∧ "Path".toList <+: e.message.toList) ↔
          ∃ path, e.takenPath? = some path
            ∧ e.message = (LookupError.duplicate path).message
              ++ "; keeping the first entity") := by
  obtain ⟨a, events, hlenient, hstrict, -⟩ := hardens_ofProject p config
  -- the order of the two kinds tells which of them the strict run meets first
  obtain ⟨before, after, hevents, hbefore, hafter⟩ := events_ofProject p config
  have hfirst := findSome?_fatal?_append hbefore hafter
  rw [← hevents, hlenient] at hfirst
  -- what the strict run lets pass is what is neither a gap nor a taken path
  have hpass : (fun e : Event => e.fatal?.isNone)
      = fun e => e.gap?.isNone && e.takenPath?.isNone := by
    funext e
    rw [Event.fatal?]
    cases e.gap? <;> cases e.takenPath? <;> rfl
  refine ⟨a, events, hlenient, ?_, Event.gap?_iff, Event.takenPath?_iff⟩
  rw [hstrict, Attempt.hardened, hfirst, hpass]
  cases events.findSome? Event.gap? with
  | some gap => rfl
  | none =>
    cases events.findSome? Event.takenPath? with
    | some path => rfl
    | none => rfl

end Analyzer

end DocAtlas
