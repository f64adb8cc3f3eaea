import DocAtlas.Conversion.Declaration
import Mathlib.Data.List.Basic

/-!
Which parameters a signature is documented with.

The first `@destructure` tag of a signature names parameters, one word each
(`Signature.Destructures`). A parameter that it names is documented by the properties of its type,
if that is a type literal, and every other parameter by itself (`Scope.params_of_signature`). A type
literal with signatures is one that can be called, and such a type is written as a function, not as
an object (`expandKind_of_callableLiteral`). It is taken apart all the same, and then the parameter
itself is nowhere in the documentation (`Scope.paramsFor_of_callable`). So no parameter is lost
exactly if none of those named has such a type (`Scope.signature_params_iff`).
-/

set_option autoImplicit false

namespace DocAtlas

/-! ## Words -/

namespace Text

/-- A word of a text: characters that are not white space, between white space or the ends of the
text. -/
def IsWord (word text : List Char) : Prop :=
  word ≠ [] ∧ (∀ c ∈ word, isBlank c = false) ∧ ∃ before after, text = before ++ word ++ after
    ∧ (∀ c ∈ before.getLast?, isBlank c = true) ∧ ∀ c ∈ after.head?, isBlank c = true

/-- There is no word in an empty text. -/
theorem not_isWord_nil (word : List Char) : ¬ IsWord word [] := by
  rintro ⟨hne, -, before, after, heq, -, -⟩
  simp [hne] at heq

/-- A run of characters that ends before white space is what is taken while there is none. -/
theorem takeWhile_run {run rest : List Char} (hrun : ∀ c ∈ run, isBlank c = false)
    (hrest : ∀ c ∈ rest.head?, isBlank c = true) :
    (run ++ rest).takeWhile (fun c => !isBlank c) = run := by
  rw [List.takeWhile_append_of_pos fun c hc => by rw [hrun c hc, Bool.not_false]]
  cases rest with
  | nil => exact List.append_nil run
  | cons c rest => rw [List.takeWhile_cons_of_neg (by simp [hrest c rfl]), List.append_nil]

/-- **The words of a text are the run that it starts with, if there is one, and the words after the
next white space.** Everything about splitting a text into words follows from this. -/
theorem isWord_run_append {word run rest : List Char} (hrun : ∀ c ∈ run, isBlank c = false)
    (hrest : ∀ c ∈ rest.head?, isBlank c = true) :
    IsWord word (run ++ rest) ↔ (run ≠ [] ∧ word = run) ∨ IsWord word rest.tail := by
  constructor
  · rintro ⟨hne, hword, before, after, heq, hbefore, hafter⟩
    rw [List.append_assoc] at heq
    -- the word begins behind the run, or inside of it
    rcases List.append_eq_append_iff.mp heq with ⟨between, hrun_before, hbetween⟩ | ⟨more, hmore, -⟩
    · right
      cases between with
      | nil =>
        -- the word would begin with white space
        obtain ⟨c, word, rfl⟩ := List.exists_cons_of_ne_nil hne
        rw [hbetween] at hrest
        exact absurd (hrest c rfl) (by simp [hword c List.mem_cons_self])
      | cons c between =>
        refine ⟨hne, hword, between, after, ?_, ?_, hafter⟩
        · rw [hbetween, List.cons_append, List.tail_cons, List.append_assoc]
        · intro d hd
          apply hbefore
          simp [hrun_before, List.getLast?_cons, Option.mem_def.mp hd]
    · left
      -- white space before the word would be inside the run
      have hnil : before = [] := by
        by_contra hne'
        have hlast := hbefore _ (List.getLast?_eq_some_getLast hne')
        rw [hrun _ (hmore ▸ List.mem_append_left more (List.getLast_mem hne'))] at hlast
        cases hlast
      have hsame : run = word := by
        rw [← takeWhile_run hrun hrest, heq, hnil, List.nil_append, takeWhile_run hword hafter]
      exact ⟨hsame ▸ hne, hsame.symm⟩
  · rintro (⟨hne, rfl⟩ | hword)
    · exact ⟨hne, hrun, [], rest, rfl, by simp, hrest⟩
    · cases rest with
      | nil => exact absurd hword (not_isWord_nil word)
      | cons c rest =>
        obtain ⟨hne, hword, before, after, heq, hbefore, hafter⟩ := hword
        refine ⟨hne, hword, run ++ c :: before, after, ?_, ?_, hafter⟩
        · rw [List.tail_cons] at heq
          simp [heq]
        · intro d hd
          rw [List.getLast?_append, List.getLast?_cons, Option.some_or, Option.mem_some] at hd
          cases hlast : before.getLast? with
          | none =>
            rw [hlast, Option.getD_none] at hd
            exact hd ▸ hrest c rfl
          | some z =>
            rw [hlast, Option.getD_some] at hd
            exact hd ▸ hbefore z hlast

/-- The words from a place on, with the run that stands before it. The run is kept in reverse, as it
is collected. -/
theorem mem_wordsFrom_iff {word : String} (rest : List Char) :
    ∀ run : List Char, (∀ c ∈ run, isBlank c = false) →
      (word ∈ wordsFrom run rest ↔ IsWord word.toList (run.reverse ++ rest)) := by
  have hitself : ∀ run : List Char, word = String.ofList run ↔ word.toList = run := by
    intro run
    rw [← String.toList_inj, String.toList_ofList]
  induction rest with
  | nil =>
    intro run hrun
    rw [wordsFrom, isWord_run_append (by simpa using hrun) (by simp), List.tail_nil]
    by_cases hempty : run = []
    · simp [hempty, not_isWord_nil]
    · simp [hempty, not_isWord_nil, hitself]
  | cons c rest ih =>
    intro run hrun
    rw [wordsFrom]
    -- white space ends the run, and any other character goes on with it
    by_cases hc : isBlank c = true
    · rw [if_pos hc, isWord_run_append (by simpa using hrun) (by simpa using hc), List.tail_cons]
      have hrest := ih [] (by simp)
      rw [List.reverse_nil, List.nil_append] at hrest
      by_cases hempty : run = []
      · simp [hempty, hrest]
      · simp [hempty, hrest, hitself]
    · rw [if_neg hc, ih (c :: run) (by simpa using And.intro hc hrun), List.reverse_cons,
        List.append_assoc, List.singleton_append]

/-- **Splitting a text at white space gives its words.** -/
theorem mem_words_iff {word text : String} : word ∈ words text ↔ IsWord word.toList text.toList :=
  mem_wordsFrom_iff text.toList [] (by simp)

end Text

/-! ## Parameters that are to be destructured -/

/-- The first `@destructure` tag of the signature has this name among its words. -/
def Signature.Destructures (s : Signature) (name : String) : Prop :=
  ∃ tag, s.comment.blockTags.find? (·.isNamed "destructure") = some tag
    ∧ Text.IsWord name.toList (String.join (tag.content.map CommentPart.content)).toList

/-- The names that are compared with those of the parameters are the words of the first tag, and
there are none without one. -/
theorem Signature.mem_words_iff_destructures {s : Signature} {name : String} :
    name ∈ Text.words ((s.comment.tagText "destructure").getD "") ↔ s.Destructures name := by
  rw [Destructures, Comment.tagText, Comment.tags, List.head?_filter]
  cases s.comment.blockTags.find? (·.isNamed "destructure") with
  | none =>
    constructor
    · intro h
      exact absurd (Text.mem_words_iff.mp h) (Text.not_isWord_nil _)
    · rintro ⟨_, htag, -⟩
      cases htag
  | some tag => simp [Text.mem_words_iff]

instance (s : Signature) (name : String) : Decidable (s.Destructures name) :=
  decidable_of_iff _ s.mem_words_iff_destructures

/-- The members of the type literal that a type is. -/
def TypeExpr.literalMembers? (t : TypeExpr) : Option (List Declaration) :=
  match t.reflected with
  | some ⟨_, members, .typeLiteral _ _ _⟩ => some members
  | _ => none

/-- The members of the object literal that a type is: a type literal without signatures. -/
def TypeExpr.objectMembers? (t : TypeExpr) : Option (List Declaration) :=
  match t.reflected with
  | some ⟨_, members, .typeLiteral _ [] _⟩ => some members
  | _ => none

/-- A type literal is an object literal, unless it can be called. -/
theorem TypeExpr.literalMembers?_cases (t : TypeExpr) :
    (callableLiteral t = none ∧ t.literalMembers? = t.objectMembers?)
      ∨ ∃ literal members, callableLiteral t = some literal ∧ t.literalMembers? = some members
        ∧ t.objectMembers? = none := by
  unfold callableLiteral literalMembers? objectMembers?
  rcases t.reflected with - | ⟨header, children, detail⟩
  · exact Or.inl ⟨rfl, rfl⟩
  · cases detail with
    | typeLiteral variant signatures indexer =>
      cases signatures with
      | nil => exact Or.inl ⟨rfl, rfl⟩
      | cons s rest => exact Or.inr ⟨_, _, rfl, rfl, rfl⟩
    | _ => exact Or.inl ⟨rfl, rfl⟩

/-- A type that can be called is written as its first signature. -/
theorem expandKind_of_callableLiteral (index : Index) {t : TypeExpr}
    (h : (callableLiteral t).isSome) :
    ∃ signature, (expandKind index t.kind).value = [.signature signature] := by
  obtain ⟨kind, arguments⟩ := t
  unfold callableLiteral at h
  split at h
  · rename_i header children variant s rest indexer hreflected
    unfold TypeExpr.reflected at hreflected
    split at hreflected
    · rename_i declaration hkind
      cases Option.some.inj hreflected
      refine ⟨s, ?_⟩
      rw [hkind]
      rfl
    · cases hreflected
  · cases h

namespace Scope

variable (scope : Scope)

/-- A parameter that is documented by itself. -/
def plainParam (p : Parameter) : Param where
  name := p.name
  description := p.comment.description
  hasDefault := p.defaultValue.isSome
  isVariadic := p.flags.isRest
  type := (renderType scope.index p.type).value
  default := p.defaultValue

/-- The parameter that a member of an object stands for, if the member is a property or a
variable. -/
def propertyParam? (outer : String) (d : Declaration) : Option Param :=
  match d.detail with
  | .member _ type => some {
      name := outer ++ "." ++ d.name
      description := d.header.comment.description
      hasDefault := false
      isVariadic := false
      type := (renderType scope.index type).value
      default := none }
  | _ => none

/-- What a parameter is documented by, if `members?` tells which types are to be taken apart. -/
def paramsFor (members? : TypeExpr → Option (List Declaration)) (s : Signature) (p : Parameter) :
    List Param :=
  if s.Destructures p.name then
    match members? p.type with
    | some members => members.filterMap (scope.propertyParam? p.name)
    | none => [scope.plainParam p]
  else [scope.plainParam p]

/-- Parameters are documented one by one. -/
theorem value_params (ps : List ParamSource) :
    (scope.params ps).value = ps.map fun p => (scope.param p).value := by
  induction ps with
  | nil => rfl
  | cons p rest ih =>
    rw [params, Logged.value_bind, Logged.value_bind, Logged.value_pure, ih, List.map_cons]

/-- Of the members of an object, the properties and variables are documented, under the name of the
parameter. -/
theorem map_propertyParams (outer : String) (ds : List Declaration) :
    (propertyParams outer ds).value.map (fun p => (scope.param p).value)
      = ds.filterMap (scope.propertyParam? outer) := by
  induction ds with
  | nil => rfl
  | cons d rest ih =>
    obtain ⟨header, children, detail⟩ := d
    cases detail with
    | member kind type => exact congrArg (_ :: ·) ih
    | _ => exact ih

/-- What a parameter is taken apart into: the properties of the literal that its type is, and else
the parameter itself. -/
theorem map_destructured (p : Parameter) :
    (destructured p).value.map (fun p => (scope.param p).value)
      = match p.type.literalMembers? with
        | some members => members.filterMap (scope.propertyParam? p.name)
        | none => [scope.plainParam p] := by
  unfold destructured TypeExpr.literalMembers?
  rcases p.type.reflected with - | ⟨header, children, detail⟩
  · rfl
  · cases detail with
    | typeLiteral variant signatures indexer => exact scope.map_propertyParams p.name children
    | _ => rfl

/-- The parameters of a signature, each documented as the tag says. -/
theorem map_paramSources (s : Signature) (ps : List Parameter) :
    (paramSources (Text.words ((s.comment.tagText "destructure").getD "")) ps).value.map
        (fun p => (scope.param p).value)
      = ps.flatMap (scope.paramsFor TypeExpr.literalMembers? s) := by
  induction ps with
  | nil => rfl
  | cons p rest ih =>
    -- the test of the code and the specification name the same parameters
    have hcontains : (Text.words ((s.comment.tagText "destructure").getD "")).contains p.name = true
        ↔ s.Destructures p.name :=
      List.contains_iff_mem.trans s.mem_words_iff_destructures
    rw [paramSources, List.flatMap_cons, paramsFor, ← ih]
    by_cases hnamed : s.Destructures p.name
    · rw [if_pos (hcontains.mpr hnamed), if_pos hnamed, ← scope.map_destructured p,
        ← List.map_append]
      rfl
    · rw [if_neg (hnamed ∘ hcontains.mp), if_neg hnamed]
      rfl

/-- A signature is left out if it is inherited and has no comment, and is documented by its
parameters otherwise. -/
theorem params_of_signature (owner : SignatureOwner) (s : Signature) :
    (scope.signature owner s).value.map (·.params)
      = if s.inheritedFrom.isSome && s.comment.isEmpty then none
        else some (s.parameters.flatMap (scope.paramsFor TypeExpr.literalMembers? s)) := by
  rw [← map_paramSources, ← value_params, signature]
  split <;> rfl

/-! ## Lost parameters -/

/-- No property of a parameter has the name of the parameter. -/
theorem plainParam_notMem_propertyParams (p : Parameter) (members : List Declaration) :
    scope.plainParam p ∉ members.filterMap (scope.propertyParam? p.name) := by
  intro h
  obtain ⟨d, -, hd⟩ := List.mem_filterMap.mp h
  unfold propertyParam? at hd
  split at hd
  · -- the name of a property is longer, by the dot and its own name
    have hname : p.name ++ "." ++ d.name = p.name := congrArg Param.name (Option.some.inj hd)
    have hlength := congrArg String.length hname
    rw [String.length_append, String.length_append, show ".".length = 1 from rfl] at hlength
    omega
  · cases hd

/-- A parameter that is not named, or that cannot be called, is documented as it should be. -/
theorem paramsFor_eq {s : Signature} {p : Parameter}
    (h : s.Destructures p.name → callableLiteral p.type = none) :
    scope.paramsFor TypeExpr.literalMembers? s p = scope.paramsFor TypeExpr.objectMembers? s p := by
  unfold paramsFor
  by_cases hnamed : s.Destructures p.name
  · rcases p.type.literalMembers?_cases with ⟨-, hsame⟩ | ⟨literal, _, hliteral, -, -⟩
    · rw [hsame]
    · rw [h hnamed] at hliteral
      cases hliteral
  · rw [if_neg hnamed, if_neg hnamed]

/-- A parameter that is named and can be called should stand for itself, and it is lost. -/
theorem paramsFor_of_callable {s : Signature} {p : Parameter} (hnamed : s.Destructures p.name)
    (hcallable : callableLiteral p.type ≠ none) :
    scope.paramsFor TypeExpr.objectMembers? s p = [scope.plainParam p]
      ∧ scope.plainParam p ∉ scope.paramsFor TypeExpr.literalMembers? s p := by
  rcases p.type.literalMembers?_cases with ⟨hnone, -⟩ | ⟨_, members, -, hmembers, hobject⟩
  · exact absurd hnone hcallable
  · rw [paramsFor, paramsFor, if_pos hnamed, if_pos hnamed, hmembers, hobject]
    exact ⟨rfl, scope.plainParam_notMem_propertyParams p members⟩

/-- **A parameter that is lost is not made up for by those after it.** If one list is the other one
with something in front of it, then nothing is in front of it, and no parameter is lost. -/
theorem not_lost_of_flatMap_eq (s : Signature) (ps : List Parameter) :
    ∀ ahead : List Param, ps.flatMap (scope.paramsFor TypeExpr.literalMembers? s)
        = ahead ++ ps.flatMap (scope.paramsFor TypeExpr.objectMembers? s) →
      ahead = [] ∧ ∀ p ∈ ps, s.Destructures p.name → callableLiteral p.type = none := by
  induction ps with
  | nil =>
    intro ahead h
    exact ⟨by simpa using h.symm, by simp⟩
  | cons p rest ih =>
    intro ahead h
    rw [List.flatMap_cons, List.flatMap_cons] at h
    by_cases hkept : s.Destructures p.name → callableLiteral p.type = none
    · rw [scope.paramsFor_eq hkept, ← List.append_assoc] at h
      -- what is in front moves behind the parameters for `p` and is as long as before
      have hrest := congrArg (List.drop (scope.paramsFor TypeExpr.objectMembers? s p).length) h
      rw [List.drop_left, List.drop_append_of_le_length (by simp)] at hrest
      obtain ⟨hahead, hall⟩ := ih _ hrest
      have hlength := congrArg List.length hahead
      rw [List.length_drop, List.length_append, List.length_nil] at hlength
      refine ⟨List.eq_nil_of_length_eq_zero (by omega), ?_⟩
      rw [List.forall_mem_cons]
      exact ⟨hkept, hall⟩
    · exfalso
      obtain ⟨hnamed, hcallable⟩ := Classical.not_imp.mp hkept
      obtain ⟨hshould, hlost⟩ := scope.paramsFor_of_callable hnamed hcallable
      rw [hshould] at h
      -- so `p` itself is in front of what comes after it
      rcases List.append_eq_append_iff.mp h with ⟨more, -, hrest⟩ | ⟨more, hmore, hrest⟩
      · have hahead := (ih (more ++ [scope.plainParam p]) (by rw [hrest, List.append_assoc])).1
        simp at hahead
      · cases more with
        | nil =>
          have hahead := (ih [scope.plainParam p] (by rw [hrest, List.nil_append])).1
          simp at hahead
        | cons q more =>
          obtain ⟨rfl, -⟩ := List.cons.inj hrest
          exact hlost (hmore ▸ List.mem_append_right _ List.mem_cons_self)

/-- **When destructuring loses no parameter.** A signature is documented, unless it is inherited and
has no comment, and its documented parameters are, in order, those for each of its parameters: the
properties of its type if the first `@destructure` tag names the parameter and the type is a type
literal, and the parameter itself otherwise. They are what they should be, with only object literals
taken apart, exactly if no parameter that is named has a type that can be called, and that is one
that is written as a function. -/
theorem signature_params_iff (owner : SignatureOwner) (s : Signature) :
    ((scope.signature owner s).value = none ↔ s.inheritedFrom.isSome ∧ s.comment.isEmpty)
      ∧ (∀ f, (scope.signature owner s).value = some f →
        f.params = s.parameters.flatMap (scope.paramsFor TypeExpr.literalMembers? s)
          ∧ (f.params = s.parameters.flatMap (scope.paramsFor TypeExpr.objectMembers? s)
            ↔ ∀ p ∈ s.parameters, s.Destructures p.name → callableLiteral p.type = none))
      ∧ ∀ t : TypeExpr, (callableLiteral t).isSome →
        ∃ signature, (expandKind scope.index t.kind).value = [.signature signature] := by
  have hparams := scope.params_of_signature owner s
  refine ⟨?_, ?_, fun t => expandKind_of_callableLiteral scope.index⟩
  · rw [← Option.map_eq_none_iff (f := Function.params), hparams]
    simp
  · intro f hf
    -- what the code documents, whatever the tag names
    have hcode : f.params = s.parameters.flatMap (scope.paramsFor TypeExpr.literalMembers? s) := by
      rw [hf, Option.map_some] at hparams
      split at hparams
      · cases hparams
      · exact Option.some.inj hparams
    refine ⟨hcode, ?_⟩
    rw [hcode]
    constructor
    · intro hsame
      exact (scope.not_lost_of_flatMap_eq s s.parameters [] hsame).2
    · intro hall
      exact List.flatMap_congr fun p hp => scope.paramsFor_eq (hall p hp)

end Scope

/-- The type `() => void`. -/
def callbackType : TypeExpr :=
  ⟨.reflection ⟨{ id := some 4, name := "__type" }, [], .typeLiteral none
    [⟨some 5, .call, "__type", [], {}, {}, [], [], some ⟨.intrinsic "void", []⟩, none, default, {}⟩]
      none⟩, []⟩

/-- A signature with an object, a number and a callback, the first two of which are to be
destructured. Only one of the two tags counts, and only properties of the object do. -/
def tracingSignature : Signature where
  id := some 1
  kind := .call
  name := "trace"
  sources := []
  flags := {}
  comment :=
    { blockTags :=
      [⟨"@destructure", [.text " opts\n", .code "level"]⟩, ⟨"@destructure", [.text "done"]⟩] }
  typeParameters := []
  parameters := [
    ⟨some 2, "opts", ⟨.reflection ⟨{ name := "__type" }, [
          ⟨{ name := "depth" }, [], .member .property ⟨.intrinsic "number", []⟩⟩,
          ⟨{ name := "log" }, [], .callable .method []⟩,
          ⟨{ name := "done" }, [], .member .property callbackType⟩],
        .typeLiteral none [] none⟩, []⟩, {}, none, {}, default⟩,
    ⟨some 3, "level", ⟨.intrinsic "number", []⟩, {}, some "0", {}, default⟩,
    ⟨some 4, "done", callbackType, {}, none, {}, default⟩]
  result := none
  inheritedFrom := none
  place := default
  owner := {}

/-- The properties of the object are documented in its place, and the number and the callback by
themselves. -/
theorem Scope.signature_params_tracing :
    ∃ f, (Scope.signature ⟨.empty, {}⟩ ⟨[], [], none⟩ tracingSignature).value = some f
      ∧ f.params.map (·.name) = ["opts.depth", "opts.done", "level", "done"]
      ∧ f.params = tracingSignature.parameters.flatMap
        (Scope.paramsFor ⟨.empty, {}⟩ TypeExpr.objectMembers? tracingSignature)
      ∧ (callableLiteral callbackType).isSome
      ∧ ∃ signature, (expandKind .empty callbackType.kind).value = [.signature signature] := by
  obtain ⟨-, hdocumented, hcallable⟩ :=
    Scope.signature_params_iff ⟨.empty, {}⟩ ⟨[], [], none⟩ tracingSignature
  have hkept : ∀ p ∈ tracingSignature.parameters, tracingSignature.Destructures p.name →
      callableLiteral p.type = none := by
    decide +kernel
  exact ⟨_, rfl, by decide +kernel, (hdocumented _ rfl).2.mpr hkept, rfl,
    hcallable callbackType rfl⟩

/-- A signature with a callback that is to be destructured. -/
def callbackSignature : Signature :=
  { tracingSignature with
    comment := { blockTags := [⟨"@destructure", [.text "done"]⟩] }
    parameters := [⟨some 4, "done", callbackType, {}, none, {}, default⟩] }

/-- The callback is not documented at all, and nothing is said about that. -/
theorem Scope.signature_params_callback :
    ∃ f, (Scope.signature ⟨.empty, {}⟩ ⟨[], [], none⟩ callbackSignature).value = some f
      ∧ (Scope.signature ⟨.empty, {}⟩ ⟨[], [], none⟩ callbackSignature).events = []
      ∧ f.params = []
      ∧ callbackSignature.parameters.flatMap
        (Scope.paramsFor ⟨.empty, {}⟩ TypeExpr.objectMembers? callbackSignature)
        = [⟨"done", [], false, false, (renderType .empty callbackType).value, none⟩] := by
  refine ⟨_, rfl, by decide +kernel, by decide +kernel, ?_⟩
  rw [callbackSignature, List.flatMap_singleton]
  exact (Scope.paramsFor_of_callable ⟨.empty, {}⟩ (by decide +kernel) (by decide +kernel)).1

end DocAtlas
