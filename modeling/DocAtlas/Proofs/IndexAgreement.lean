import DocAtlas.Conversion.Worklist

/-!
What a conversion sees of the index.

Of all that the index says about an id, a conversion looks at the path only. Two indexes with the
same paths (`SamePaths`) therefore lead to the same entities, failures and events
(`Scope.convertItems_congr`). The lemmas follow the conversion from references up to lists of
declarations.
-/

set_option autoImplicit false

namespace DocAtlas

/-- Both indexes know the same ids, at the same paths. -/
def Index.SamePaths (a b : Index) : Prop :=
  ∀ id, (a.get? id).map (·.path) = (b.get? id).map (·.path)

variable {a b : Index} (h : a.SamePaths b)
include h

/-- Either neither index knows an id, or both do, at one path. -/
theorem Index.SamePaths.cases (id : Int) :
    (a.get? id = none ∧ b.get? id = none) ∨
      ∃ entry entry', a.get? id = some entry ∧ b.get? id = some entry'
        ∧ entry.path = entry'.path := by
  have hid := h id
  cases ha : a.get? id with
  | none =>
    rw [ha, Option.map_none, eq_comm, Option.map_eq_none_iff] at hid
    exact .inl ⟨rfl, hid⟩
  | some entry =>
    rw [ha, Option.map_some, eq_comm, Option.map_eq_some_iff] at hid
    obtain ⟨entry', hb, hpath⟩ := hid
    exact .inr ⟨entry, entry', rfl, hb, hpath.symm⟩

/-! ## Types -/

/-- A reference is written the same, with the same events. -/
theorem expandReference_congr (r : Reference) : expandReference a r = expandReference b r := by
  rw [expandReference, expandReference]
  cases r.targetId with
  | none => rfl
  | some id =>
    rcases h.cases id with ⟨ha, hb⟩ | ⟨entry, entry', ha, hb, hpath⟩
    · simp only [ha, hb]
    · simp only [ha, hb, hpath]

/-- So are the parts of a type. -/
theorem expandType_congr (t : TypeExpr) : expandType a t = expandType b t := by
  rw [expandType, expandType]
  -- nothing but a reference looks at the index
  cases hkind : t.kind with
  | reference r => rw [expandKind, expandKind, expandReference_congr h]
  | _ => rfl

/-- **A type is written the same with both indexes.** -/
theorem tokensOf_congr (frames : List TypeFrame) : tokensOf a frames = tokensOf b frames := by
  -- the induction is on the run with `a`; the parts of a type are the same with `b`, so the runs
  -- stay in step
  induction frames using tokensOf.induct a with
  | case1 => rw [tokensOf, tokensOf]
  | case2 t rest ih => rw [tokensOf, tokensOf, ih]
  | case3 t rest parts ih => rw [tokensOf, tokensOf, ← expandType_congr h, ih]
  | case4 s rest ih => rw [tokensOf, tokensOf, ih]
  | case5 members indexer rest parts ih => rw [tokensOf, tokensOf, ih]

theorem renderType_congr : renderType a = renderType b := by
  funext t
  rw [renderType, typeTokens, tokensOf_congr h, renderType, typeTokens]

/-! ## Signatures -/

namespace Scope

variable (config : Config)

theorem params_congr (ps : List ParamSource) : params ⟨a, config⟩ ps = params ⟨b, config⟩ ps := by
  induction ps with
  | nil => rfl
  | cons p ps ih => rw [params, params, ih, param, param, renderType_congr h]

theorem typeParams_congr (ps : List TypeParameter) :
    typeParams ⟨a, config⟩ ps = typeParams ⟨b, config⟩ ps := by
  induction ps with
  | nil => rfl
  | cons p ps ih => rw [typeParams, typeParams, ih, typeParam, typeParam, renderType_congr h]

/-- A function: its parameters, type parameters and result are types, and nothing else of it is
looked up. -/
theorem callable_congr (owner : SignatureOwner) (signatures : List Signature) :
    callable ⟨a, config⟩ owner signatures = callable ⟨b, config⟩ owner signatures := by
  cases signatures with
  | nil => rfl
  | cons s rest =>
    rw [callable, callable, signature, signature]
    simp only [params_congr h, typeParams_congr h, returns, renderType_congr h, isAsync]

/-! ## Declarations -/

theorem attributeOf_congr (header : Header) (comment : Comment) (type : TypeExpr) :
    attributeOf ⟨a, config⟩ header comment type = attributeOf ⟨b, config⟩ header comment type := by
  rw [attributeOf, attributeOf, renderType_congr h]

/-- A member is a function or an attribute, and the same one with both indexes. -/
theorem member_congr (header : Header) (type : TypeExpr) :
    member ⟨a, config⟩ header type = member ⟨b, config⟩ header type := by
  rw [member, member]
  simp only [callable_congr h, attributeOf_congr h]

theorem accessor_congr (header : Header) (getter setter : Option Signature) :
    accessor ⟨a, config⟩ header getter setter = accessor ⟨b, config⟩ header getter setter := by
  rw [accessor, accessor]
  simp only [attributeOf_congr h, degrade]

/-- A related type is listed by the path of its target, or left out with the same event. -/
theorem relatedType_congr (relation : Relation) (t : TypeExpr) :
    relatedType ⟨a, config⟩ relation t = relatedType ⟨b, config⟩ relation t := by
  rw [relatedType, relatedType]
  cases t.kind with
  | reference r =>
    simp only
    cases r.targetId with
    | none => rfl
    | some id =>
      rcases h.cases id with ⟨ha, hb⟩ | ⟨entry, entry', ha, hb, hpath⟩
      · simp only [ha, hb]
      · simp only [ha, hb, hpath]
  | _ => rfl

/-- The same for several of them. -/
theorem relatedTypes_congr (relation : Relation) (types : List TypeExpr) :
    relatedTypes ⟨a, config⟩ relation types = relatedTypes ⟨b, config⟩ relation types := by
  induction types with
  | nil => rfl
  | cons t types ih => rw [relatedTypes, relatedTypes, relatedType_congr h, ih]

mutual

/-- **A declaration is converted the same with both indexes.** The recursion is that of the
conversion, through a class and its members. -/
theorem convert_congr (inherited : List TypeParameter) (d : Declaration) :
    convert ⟨a, config⟩ inherited d = convert ⟨b, config⟩ inherited d := by
  match d with
  | ⟨header, children, .classLike kind extended implemented typeParameters⟩ =>
    rw [convert, convert, classMembers_congr]
    simp only [classEntity, interfaceEntity, relatedTypes_congr h, typeParams_congr h]
  | ⟨header, _, .accessor getter setter⟩ => rw [convert, convert, accessor_congr h]
  | ⟨header, _, .callable _ signatures⟩ => rw [convert, convert, callable_congr h]
  | ⟨header, _, .member _ type⟩ => rw [convert, convert, member_congr h]
  | ⟨header, _, .typeLiteral _ signatures _⟩ => rw [convert, convert, callable_congr h]
  | ⟨_, _, .scope _⟩ => rw [convert, convert]
termination_by structural d

/-- The members of a class, with whatever constructor was found before. -/
theorem classMembers_congr (className : String) (typeParameters : List TypeParameter)
    (constructor : Option Function) (ds : List Declaration) :
    classMembers ⟨a, config⟩ className typeParameters constructor ds
      = classMembers ⟨b, config⟩ className typeParameters constructor ds := by
  match ds with
  | [] => rw [classMembers, classMembers]
  | d :: rest =>
    -- what is found in the first member decides with which constructor the others are gone through
    have hrest := fun found => classMembers_congr className typeParameters found rest
    rw [classMembers, classMembers]
    simp only [callable_congr h, convert_congr [] d, hrest]
termination_by structural ds

end

/-- **A run over pending items gives the same with both indexes.** What becomes pending does not
depend on the index at all. -/
theorem convertItems_congr (items : List WorkItem) :
    convertItems ⟨a, config⟩ items = convertItems ⟨b, config⟩ items := by
  induction items using convertItems.induct with
  | case1 => rw [convertItems, convertItems]
  | case2 item rest hex ih => rw [convertItems, convertItems, if_pos hex, if_pos hex, ih]
  | case3 item rest hex ih =>
    rw [convertItems, convertItems, if_neg hex, if_neg hex, convert_congr h, ih]

end Scope

end DocAtlas
