import DocAtlas.Conversion.Declaration
import DocAtlas.Proofs.SiblingOrder

/-!
Where constructors are declared makes no difference to types and signatures.

`Reordering.constructors` lets the constructors of a class change places with its other members, and
nothing else. A type may contain such a class, deep inside the declarations that it is written with,
but no part of a class is ever written out in a type. So types that are alike are expanded into
frames that are alike (`TypeFrame.AllAlike`), and these come to the same tokens
(`tokensOf_of_alike`). What is documented about a signature is rendered from its types, so it is the
same as well (`Scope.signature_of_alike`). All these are equalities of whole computations, events
included.
-/

set_option autoImplicit false

namespace DocAtlas

open TypeFrame (text typesBetween)

/-- Only the constructors of classes change places with the other members: both keep their order
among themselves. -/
def Reordering.constructors : Reordering where
  children kind a b := match kind with
    | .declaration (.classLike .classDecl) =>
      a.filter (·.isConstructor) = b.filter (·.isConstructor)
        ∧ (a.filter fun d => !d.isConstructor) = b.filter fun d => !d.isConstructor
    | _ => a = b
  others a b := a = b
  children_perm {kind a b} h := by
    split at h
    · obtain ⟨hconstructors, hothers⟩ := h
      have ha := List.filter_append_perm (·.isConstructor) a
      have hb := List.filter_append_perm (·.isConstructor) b
      rw [hconstructors, hothers] at ha
      exact ha.symm.trans hb
    · rw [h]
  others_perm h := by rw [h]

/-! ## What has not changed -/

instance : Std.Refl (TypeParameter.Alike .constructors) where
  refl := by
    rintro ⟨id, name, constraint, comment, place⟩
    exact .mk (option_rel_refl constraint)

instance : Std.Refl (Parameter.Alike .constructors) where
  refl := by
    rintro ⟨id, name, type, comment, defaultValue, flags, place⟩
    exact .mk (.refl type)

instance : Std.Refl (Signature.Alike .constructors) where
  refl := by
    rintro ⟨id, kind, name, sources, flags, comment, types, params, result, inherited, place, owner⟩
    exact .mk (List.forall₂_refl types) rfl (List.forall₂_refl params) rfl (option_rel_refl result)

/-- A detail in which nothing has moved. -/
theorem Detail.Alike.refl (d : Detail) : d.Alike .constructors d := by
  cases d with
  | accessor getter setter => exact .accessor (option_rel_refl getter) (option_rel_refl setter)
  | classLike kind extended implemented types =>
    exact .classLike (List.forall₂_refl extended) (List.forall₂_refl implemented)
      (List.forall₂_refl types) rfl
  | callable kind signatures => exact .callable (List.forall₂_refl signatures) rfl
  | member kind type => exact .member (.refl type)
  | typeLiteral variant signatures indexer =>
    exact .typeLiteral (List.forall₂_refl signatures) rfl (option_rel_refl indexer)
  | scope kind => exact .scope

/-- What declarations that are alike have in common. -/
theorem Declaration.Alike.cases {d d' : Declaration} (h : d.Alike .constructors d') :
    d'.header = d.header ∧ d.detail.Alike .constructors d'.detail
      ∧ ∃ moved, List.Forall₂ (Declaration.Alike .constructors) d.children moved
        ∧ Reordering.constructors.children (.declaration d.detail.kind) moved d'.children := by
  cases h with
  | refl =>
    refine ⟨rfl, .refl _, d.children, List.forall₂_refl _, ?_⟩
    simp only [Reordering.constructors]
    split <;> simp
  | @mk header children moved children' detail detail' parts order inside =>
    exact ⟨rfl, inside, moved, parts, order⟩

/-! ## Types -/

/-- The same frame, but for the order of constructors inside it. -/
inductive TypeFrame.Alike : TypeFrame → TypeFrame → Prop where
  | refl (f : TypeFrame) : Alike f f
  | type {t t' : TypeExpr} (h : t.Alike .constructors t') : Alike (.type t) (.type t')
  | signature {s s' : Signature} (h : s.Alike .constructors s') :
      Alike (.signature s) (.signature s')
  | object {ds ds' : List Declaration} {s s' : Option Signature}
      (members : List.Forall₂ (Declaration.Alike .constructors) ds ds')
      (indexer : Option.Rel (Signature.Alike .constructors) s s') :
      Alike (.object ds s) (.object ds' s')

/-- Frames that are the same one by one, but for the order of constructors inside them. -/
def TypeFrame.AllAlike (a b : List TypeFrame) : Prop := List.Forall₂ TypeFrame.Alike a b

namespace TypeFrame.AllAlike

theorem nil : AllAlike [] [] := List.Forall₂.nil

/-- One more frame in front. -/
theorem cons {f g : TypeFrame} {a b : List TypeFrame} (here : f.Alike g) (more : AllAlike a b) :
    AllAlike (f :: a) (g :: b) :=
  List.Forall₂.cons here more

/-- Frames in which nothing has moved. -/
theorem refl (frames : List TypeFrame) : AllAlike frames frames :=
  List.forall₂_same.mpr fun f _ => .refl f

/-- Frames may be put behind each other. -/
theorem append {a b a' b' : List TypeFrame} (h : AllAlike a b) (h' : AllAlike a' b') :
    AllAlike (a ++ a') (b ++ b') :=
  List.rel_append h h'

/-- Groups that are alike are alike with a text between them. -/
theorem separated {a b : List (List TypeFrame)} (h : List.Forall₂ AllAlike a b)
    (separator : String) :
    AllAlike (separated separator a) (separated separator b) := by
  induction h with
  | nil => exact .nil
  | cons hgroup hrest ih =>
    cases hrest with
    | nil => exact hgroup
    | cons _ _ => exact hgroup.append (.cons (.refl _) ih)

/-- Types that are alike one by one are alike with a text between them. -/
theorem typesBetween {a b : List TypeExpr} (h : List.Forall₂ (TypeExpr.Alike .constructors) a b)
    (separator : String) : AllAlike (typesBetween separator a) (typesBetween separator b) := by
  refine .separated ?_ separator
  rw [List.forall₂_map_left_iff, List.forall₂_map_right_iff]
  exact h.imp fun _ _ hxy => .cons (.type hxy) .nil

end TypeFrame.AllAlike

open TypeFrame (AllAlike)

/-- An unnamed type is written by its first signature or by its members. A class may stand in its
place, but that is written as unsupported, whatever is inside it. -/
theorem expandReflection_of_alike {d d' : Declaration} (h : d.Alike .constructors d') :
    AllAlike (expandReflection d) (expandReflection d') := by
  cases h with
  | refl => exact .refl _
  | mk parts order inside =>
    cases inside with
    | typeLiteral signatures signatureOrder indexer =>
      -- signatures stay in their order, so the first of them is the first on the other side
      cases signatureOrder
      cases signatures with
      | nil =>
        cases order
        exact .cons (.object parts indexer) .nil
      | cons here _ => exact .cons (.signature here) .nil
    | @callable kind _ _ _ signatures signatureOrder =>
      cases signatureOrder
      cases signatures with
      | nil => cases kind <;> exact .refl _
      | cons here _ =>
        cases kind with
        | constructor => exact .cons (.refl _) (.cons (.signature here) (.refl _))
        | method => exact .cons (.signature here) .nil
        | function => exact .cons (.signature here) .nil
    | accessor | classLike | member | scope => exact .refl _

/-- Types without their arguments: the parts are alike one by one, and nothing else is told of
them. -/
theorem expandKind_of_alike (index : Index) {k k' : TypeKind} (h : k.Alike .constructors k') :
    (expandKind index k).events = (expandKind index k').events
      ∧ AllAlike (expandKind index k).value (expandKind index k').value := by
  cases h with
  | refl => exact ⟨rfl, .refl _⟩
  | array h => exact ⟨rfl, .cons (.type h) (.refl _)⟩
  | tuple h => exact ⟨rfl, .cons (.refl _) (AllAlike.append (.typesBetween h _) (.refl _))⟩
  | union h => exact ⟨rfl, .typesBetween h _⟩
  | intersection h => exact ⟨rfl, .typesBetween h _⟩
  | operator h => exact ⟨rfl, .cons (.refl _) (.cons (.type h) .nil)⟩
  | predicate h =>
    exact ⟨rfl,
      AllAlike.append (.refl _) (.cons (.refl _) (.cons (.refl _) (.cons (.type h) .nil)))⟩
  | reflection h => exact ⟨rfl, expandReflection_of_alike h⟩

/-- **Types that are alike are expanded into frames that are alike, with the same events.** -/
theorem expandType_of_alike (index : Index) {t t' : TypeExpr} (h : t.Alike .constructors t') :
    (expandType index t).events = (expandType index t').events
      ∧ AllAlike (expandType index t).value (expandType index t').value := by
  cases h with
  | refl => exact ⟨rfl, .refl _⟩
  | mk root behind =>
    obtain ⟨hevents, hframes⟩ := expandKind_of_alike index root
    simp only [expandType, Logged.events_bind, Logged.value_bind, Logged.events_pure,
      Logged.value_pure, hevents, true_and]
    refine AllAlike.append hframes ?_
    -- the arguments are there on both sides or on neither
    cases behind with
    | nil => exact .nil
    | cons here more =>
      exact .cons (.refl _) (AllAlike.append (.typesBetween (.cons here more) _) (.refl _))

/-- Whether a type is `void` does not depend on what is inside it. -/
theorem TypeExpr.isVoid_of_alike {t t' : TypeExpr} (h : t.Alike .constructors t') :
    t'.isVoid = t.isVoid := by
  cases h with
  | refl => rfl
  | mk root _ => cases root <;> rfl

/-- A signature is expanded alike: its parameters have not moved, and only their types can
differ. -/
theorem expandSignature_of_alike {s s' : Signature} (h : s.Alike .constructors s') :
    AllAlike (expandSignature s) (expandSignature s') := by
  cases h with
  | mk _ _ parameters order behind =>
    cases order
    refine .cons (.refl _) (AllAlike.append ?_ (.cons (.refl _) (.cons ?_ .nil)))
    · refine .separated ?_ _
      rw [List.forall₂_map_left_iff, List.forall₂_map_right_iff]
      refine parameters.imp ?_
      rintro _ _ ⟨h⟩
      exact .cons (.refl _) (.cons (.type h) .nil)
    · cases behind with
      | none => exact .refl _
      | some h =>
        simp only [TypeExpr.isVoid_of_alike h]
        split
        · exact .refl _
        · exact .type h

/-- An index signature is expanded alike, or left out with the same warning. -/
theorem expandIndexer_of_alike {s s' : Option Signature}
    (h : Option.Rel (Signature.Alike .constructors) s s') :
    (expandIndexer s).events = (expandIndexer s').events
      ∧ AllAlike (expandIndexer s).value (expandIndexer s').value := by
  cases h with
  | none => exact ⟨rfl, .nil⟩
  | some h =>
    cases h with
    | mk _ _ parameters order behind =>
      cases order
      cases parameters with
      | nil => exact ⟨rfl, .nil⟩
      | cons key _ =>
        obtain ⟨htype⟩ := key
        -- bracket, name, colon, type of the key, closing bracket, and then the value
        refine ⟨rfl, .cons (.refl _) (.cons (.refl _) (.cons (.refl _)
          (.cons (.type htype) (.cons (.refl _) (.cons ?_ (.refl _))))))⟩
        cases behind with
        | none => exact .refl _
        | some h => exact .type h

/-- A member of an object type is expanded alike. Constructors are not written there. -/
theorem expandMember_of_alike {d d' : Declaration} (h : d.Alike .constructors d') :
    AllAlike (expandMember d) (expandMember d') := by
  cases h with
  | refl => exact .refl _
  | mk _ _ inside =>
    cases inside with
    | member h => exact .cons (.refl _) (.cons (.refl _) (.cons (.type h) (.refl _)))
    | @callable kind _ _ _ signatures order =>
      cases order
      cases signatures with
      | nil => cases kind <;> exact .refl _
      | cons here _ =>
        cases kind with
        | constructor => exact .nil
        | method => exact .cons (.refl _) (.cons (.signature here) (.refl _))
        | function => exact .cons (.refl _) (.cons (.signature here) (.refl _))
    | accessor | classLike | typeLiteral | scope => exact .refl _

/-- Object types are expanded alike, with the same events. -/
theorem expandObject_of_alike {ds ds' : List Declaration} {s s' : Option Signature}
    (members : List.Forall₂ (Declaration.Alike .constructors) ds ds')
    (indexer : Option.Rel (Signature.Alike .constructors) s s') :
    (expandObject ds s).events = (expandObject ds' s').events
      ∧ AllAlike (expandObject ds s).value (expandObject ds' s').value := by
  obtain ⟨hevents, hframes⟩ := expandIndexer_of_alike indexer
  simp only [expandObject, Logged.events_bind, Logged.value_bind, Logged.events_pure,
    Logged.value_pure, hevents, true_and]
  have hmembers : AllAlike (ds.flatMap expandMember) (ds'.flatMap expandMember) :=
    List.rel_flatMap members fun _ _ => expandMember_of_alike
  exact .cons (.refl _) (AllAlike.append (AllAlike.append hframes hmembers) (.refl _))

/-- **Frames that are alike come to the same tokens, with the same events on the way.** -/
theorem tokensOf_of_alike (index : Index) (frames : List TypeFrame) :
    ∀ frames', AllAlike frames frames' → tokensOf index frames = tokensOf index frames' := by
  -- the induction is on the frames of the first side, and the second side follows frame by frame
  induction frames using tokensOf.induct index with
  | case1 =>
    intro frames' h
    cases h with
    | nil => rfl
  | case2 text rest ih =>
    intro frames' h
    cases h with
    | cons here more =>
      cases here with
      | refl => rw [tokensOf, tokensOf, ih _ more]
  | case3 t rest parts ih =>
    intro frames' h
    cases h with
    | cons here more =>
      cases here with
      | refl => rw [tokensOf, tokensOf, ih _ (.append (.refl _) more)]
      | type h =>
        obtain ⟨hevents, hframes⟩ := expandType_of_alike index h
        rw [tokensOf, tokensOf, ih _ (hframes.append more), hevents]
  | case4 s rest ih =>
    intro frames' h
    cases h with
    | cons here more =>
      cases here with
      | refl => rw [tokensOf, tokensOf, ih _ (.append (.refl _) more)]
      | signature h => rw [tokensOf, tokensOf, ih _ ((expandSignature_of_alike h).append more)]
  | case5 members indexer rest parts ih =>
    intro frames' h
    cases h with
    | cons here more =>
      cases here with
      | refl => rw [tokensOf, tokensOf, ih _ (.append (.refl _) more)]
      | object members indexer =>
        obtain ⟨hevents, hframes⟩ := expandObject_of_alike members indexer
        rw [tokensOf, tokensOf, ih _ (hframes.append more), hevents]

/-- **Where constructors are declared makes no difference to a rendered type.** -/
theorem renderType_of_alike (index : Index) {t t' : TypeExpr} (h : t.Alike .constructors t') :
    renderType index t = renderType index t' := by
  rw [renderType, renderType, typeTokens, typeTokens,
    tokensOf_of_alike index _ _ (.cons (.type h) .nil)]

/-! ## Signatures -/

/-- The same parameter to be documented, but for the order of constructors inside its type. -/
inductive ParamSource.Alike : ParamSource → ParamSource → Prop where
  | refl (p : ParamSource) : Alike p p
  | mk {name : String} {t t' : TypeExpr} {comment : Comment} {defaultValue : Option String}
      {isRest : Bool} (type : t.Alike .constructors t') :
      Alike ⟨name, t, comment, defaultValue, isRest⟩ ⟨name, t', comment, defaultValue, isRest⟩

/-- Two computations tell the same and come to parameters that are alike one by one. -/
def ParamSource.AllAlike (x y : Logged (List ParamSource)) : Prop :=
  x.events = y.events ∧ List.Forall₂ ParamSource.Alike x.value y.value

namespace ParamSource.AllAlike

/-- Parameters in which nothing has moved. -/
theorem refl (x : Logged (List ParamSource)) : AllAlike x x :=
  ⟨rfl, List.forall₂_same.mpr fun p _ => .refl p⟩

/-- A single parameter. -/
theorem singleton {p p' : ParamSource} (h : p.Alike p') : AllAlike (pure [p]) (pure [p']) :=
  ⟨rfl, .cons h .nil⟩

/-- Parameters that come after each other. -/
theorem append {x y x' y' : Logged (List ParamSource)} (h : AllAlike x y) (h' : AllAlike x' y') :
    AllAlike (do let here ← x; let more ← x'; pure (here ++ more))
      (do let here ← y; let more ← y'; pure (here ++ more)) := by
  refine ⟨?_, List.rel_append h.2 h'.2⟩
  simp only [Logged.events_bind, Logged.events_pure, h.1, h'.1]

/-- One more parameter in front. -/
theorem cons {p p' : ParamSource} (here : p.Alike p') {x y : Logged (List ParamSource)}
    (h : AllAlike x y) :
    AllAlike (do let more ← x; pure (p :: more)) (do let more ← y; pure (p' :: more)) := by
  refine ⟨?_, .cons here h.2⟩
  simp only [Logged.events_bind, Logged.events_pure, h.1]

/-- An event may be logged before both. -/
theorem log (e : Event) {x y : Logged (List ParamSource)} (h : AllAlike x y) :
    AllAlike (do Logged.log e; x) (do Logged.log e; y) :=
  ⟨congrArg (e :: ·) h.1, h.2⟩

end ParamSource.AllAlike

/-- The properties of an object come to parameters that are alike, and whatever else is met is told
of. -/
theorem propertyParams_of_alike (outer : String) {ds ds' : List Declaration}
    (h : List.Forall₂ (Declaration.Alike .constructors) ds ds') :
    ParamSource.AllAlike (propertyParams outer ds) (propertyParams outer ds') := by
  induction h with
  | nil => exact .refl _
  | @cons d _ _ _ here _ ih =>
    cases here with
    | refl =>
      obtain ⟨header, children, detail⟩ := d
      cases detail with
      | member kind type => exact .cons (.refl _) ih
      | accessor | classLike | callable | typeLiteral | scope => exact .log _ ih
    | mk _ _ inside =>
      cases inside with
      | member h => exact .cons (.mk h) ih
      | accessor | classLike | callable | typeLiteral | scope => exact .log _ ih

/-- Parameters that are alike have the same name. -/
theorem Parameter.Alike.name_eq {p p' : Parameter} (h : p.Alike .constructors p') :
    p'.name = p.name := by
  cases h
  rfl

/-- Their types are alike. -/
theorem Parameter.Alike.type {p p' : Parameter} (h : p.Alike .constructors p') :
    p.type.Alike .constructors p'.type := by
  cases h with
  | mk type => exact type

theorem ParamSource.Alike.ofParameter {p p' : Parameter} (h : p.Alike .constructors p') :
    (ParamSource.ofParameter p).Alike (.ofParameter p') := by
  obtain ⟨htype⟩ := h
  exact .mk htype

/-- A parameter that is taken apart comes to the same properties, or stays whole with the same
warning. -/
theorem destructured_of_alike {p p' : Parameter} (h : p.Alike .constructors p') :
    ParamSource.AllAlike (destructured p) (destructured p') := by
  have hitself := ParamSource.AllAlike.singleton (.ofParameter h)
  have hname : p'.name = p.name := h.name_eq
  have hreflected := h.type.reflected
  rw [destructured, destructured, hname]
  generalize p.type.reflected = x, p'.type.reflected = y at hreflected
  cases hreflected with
  | none => exact hitself.log _
  | some h =>
    cases h with
    | refl =>
      split
      · exact .refl _
      · exact hitself.log _
    | mk parts order inside =>
      -- only a type literal is taken apart, and its members have not moved
      cases inside with
      | typeLiteral =>
        cases order
        exact propertyParams_of_alike _ parts
      | accessor | classLike | callable | member | scope => exact hitself.log _

/-- The same parameters are taken apart, so all of them come to parameters that are alike. -/
theorem paramSources_of_alike (targets : List String) {ps ps' : List Parameter}
    (h : List.Forall₂ (Parameter.Alike .constructors) ps ps') :
    ParamSource.AllAlike (paramSources targets ps) (paramSources targets ps') := by
  induction h with
  | nil => exact .refl _
  | @cons p p' _ _ here _ ih =>
    rw [paramSources, paramSources, here.name_eq]
    split
    · exact (destructured_of_alike here).append ih
    · exact (ParamSource.AllAlike.singleton (.ofParameter here)).append ih

/-- The same owner of signatures, but for the order of constructors inside its type parameters. -/
inductive SignatureOwner.Alike : SignatureOwner → SignatureOwner → Prop where
  | mk {sources : List Source} {types types' : List TypeParameter}
      {member : Option MemberProperties}
      (typeParameters : List.Forall₂ (TypeParameter.Alike .constructors) types types') :
      Alike ⟨sources, types, member⟩ ⟨sources, types', member⟩

namespace Scope

variable (scope : Scope)

/-- Parameters that are alike are documented alike. -/
theorem params_of_alike {ps ps' : List ParamSource} (h : List.Forall₂ ParamSource.Alike ps ps') :
    scope.params ps = scope.params ps' := by
  induction h with
  | nil => rfl
  | cons here _ ih =>
    rw [params, params, ih]
    cases here with
    | refl => rfl
    | mk htype => rw [param, param, renderType_of_alike scope.index htype]

/-- Type parameters that are alike are documented alike. -/
theorem typeParams_of_alike {ps ps' : List TypeParameter}
    (h : List.Forall₂ (TypeParameter.Alike .constructors) ps ps') :
    scope.typeParams ps = scope.typeParams ps' := by
  induction h with
  | nil => rfl
  | cons here _ ih =>
    obtain ⟨hbound⟩ := here
    rw [typeParams, typeParams, ih, typeParam, typeParam]
    cases hbound with
    | none => rfl
    | some h => simp only [renderType_of_alike scope.index h]

/-- What a signature gives back is documented alike. -/
theorem returns_of_alike {s s' : Signature} (h : s.Alike .constructors s') :
    scope.returns s = scope.returns s' := by
  cases h with
  | mk _ _ _ _ behind =>
    cases behind with
    | none => rfl
    | some h => simp only [returns, TypeExpr.isVoid_of_alike h, renderType_of_alike scope.index h]

/-- Whether a function is asynchronous is told by the name of the type that it gives back. -/
theorem isAsync_of_alike {s s' : Signature} (h : s.Alike .constructors s') :
    scope.isAsync s = scope.isAsync s' := by
  cases h with
  | mk _ _ _ _ behind =>
    cases behind with
    | none => rfl
    | some h =>
      cases h with
      | refl => rfl
      | @mk kind _ _ _ root _ =>
        cases root with
        | refl => cases kind <;> rfl
        | _ => rfl

/-- **Signatures that are alike are documented alike**, in the context of owners that are alike. -/
theorem signature_of_alike {owner owner' : SignatureOwner} (howner : owner.Alike owner')
    {s s' : Signature} (h : s.Alike .constructors s') :
    scope.signature owner s = scope.signature owner' s' := by
  have hreturns := scope.returns_of_alike h
  have hasync := scope.isAsync_of_alike h
  cases h with
  | @mk _ _ _ _ _ comment types moved _ _ _ _ _ _ _ _ _ typeParameters typeOrder parameters
    order _ =>
    cases typeOrder
    cases order
    cases howner with
    | @mk _ inherited inherited' _ howner =>
      -- the type parameters of the owner count if the signature has none, and that is the same on
      -- both sides
      have htypes : scope.typeParams (if types.isEmpty then inherited else types)
          = scope.typeParams (if moved.isEmpty then inherited' else moved) := by
        cases typeParameters with
        | nil => exact scope.typeParams_of_alike howner
        | cons here more => exact scope.typeParams_of_alike (.cons here more)
      obtain ⟨hevents, hsources⟩ :=
        paramSources_of_alike (Text.words ((comment.tagText "destructure").getD "")) parameters
      rw [signature, signature]
      split
      · rfl
      · simp only [Logged.ext_iff, Logged.value_bind, Logged.events_bind, hevents,
          scope.params_of_alike hsources, hreturns, hasync, htypes, and_self]

/-- A callable is documented by its first signature. -/
theorem callable_of_alike {owner owner' : SignatureOwner} (howner : owner.Alike owner')
    {ss ss' : List Signature} (h : List.Forall₂ (Signature.Alike .constructors) ss ss') :
    scope.callable owner ss = scope.callable owner' ss' := by
  cases h with
  | nil => rfl
  | cons here _ => exact scope.signature_of_alike howner here

end Scope

end DocAtlas
