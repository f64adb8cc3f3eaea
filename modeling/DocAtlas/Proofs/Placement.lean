import DocAtlas.Index.Fill

/-!
Where indexing puts things.

One walk computes the places of all slots from a list of what is still pending, and a second pass
hands them back to the tree in the same order. This file says what the two amount to together,
without the list: the tree that comes out is the one in which every slot is put in its place on the
way down (`Project.placed_eq`). In it every slot stands at the place that its own segments and the
slot above it call for (`Slot.Placed`), and nothing that the walk looks at has changed
(`Settled.visits`), so the visits of the new tree are those of the old one.

The step from the pass to the tree is `Fills`: a part of the pass takes the visits to some slots and
gives the tree with these slots settled. It is put together along the slots in the way the pass goes
through them, one lemma for each function of the pass.
-/

set_option autoImplicit false

namespace DocAtlas

/-! ## The walk without its list -/

@[simp] theorem visits_nil (baseDir : String) : visits baseDir [] = [] := by
  rw [visits]

/-- A step of the walk visits the first slot and puts what is below it in front of the others. -/
theorem visits_cons (baseDir : String) (slot : Slot) (around : Surroundings)
    (rest : List (Slot × Surroundings)) :
    visits baseDir ((slot, around) :: rest)
      = slot.visit baseDir around
        :: visits baseDir
          (slot.below.map (·, slot.surroundings (slot.placeIn baseDir around)) ++ rest) := by
  rw [visits]

/-- What is pending is visited one after the other. The induction is on the walk itself: a step
replaces the first slot by what is below it. -/
theorem visits_append (baseDir : String) (a b : List (Slot × Surroundings)) :
    visits baseDir (a ++ b) = visits baseDir a ++ visits baseDir b := by
  induction a using visits.induct baseDir with
  | case1 => rw [visits_nil, List.nil_append, List.nil_append]
  | case2 slot around rest inner ih =>
    rw [List.cons_append, visits_cons, visits_cons, List.cons_append, ← List.append_assoc, ih]

/-- What is pending is visited with all that is below it. -/
theorem visits_subset_of_mem {baseDir : String} {pending : List (Slot × Surroundings)}
    {first : Slot × Surroundings} (h : first ∈ pending) :
    visits baseDir [first] ⊆ visits baseDir pending := by
  obtain ⟨before, after, rfl⟩ := List.append_of_mem h
  rw [List.append_cons, visits_append, visits_append]
  intro visit hvisit
  exact List.mem_append_left _ (List.mem_append_right _ hvisit)

/-- From a single slot on, the slot is visited, and then what is below it. -/
theorem visits_singleton (baseDir : String) (slot : Slot) (around : Surroundings) :
    visits baseDir [(slot, around)]
      = slot.visit baseDir around
        :: visits baseDir
          (slot.below.map (·, slot.surroundings (slot.placeIn baseDir around))) := by
  rw [visits_cons, List.append_nil]

/-! ## Slots in their places -/

namespace Slot

/-- Where a slot stands. -/
def place : Slot → Place
  | .declaration d => d.header.place
  | .signature s => s.place
  | .parameter p => p.place
  | .typeParameter p => p.place

/-- A slot and all that is below it stand where their surroundings put them, and a signature knows
how what it belongs to stands to its owner. -/
inductive Placed (baseDir : String) : Surroundings → Slot → Prop where
  | mk {around : Surroundings} {s : Slot}
      (here : s.place = s.placeIn baseDir around)
      (owner : ∀ signature, s = .signature signature → signature.owner = around.properties)
      (below : ∀ child ∈ s.below, Placed baseDir (s.surroundings s.place) child) :
      Placed baseDir around s

end Slot

/-- New slots stand in their places, and the walk cannot tell them from the old ones. -/
structure Settled (baseDir : String) (around : Surroundings) (old new : List Slot) : Prop where
  placed : ∀ s ∈ new, s.Placed baseDir around
  visits : visits baseDir (new.map (·, around)) = visits baseDir (old.map (·, around))

namespace Settled

variable {baseDir : String} {around : Surroundings}

/-- Without slots there is nothing to settle. -/
theorem nil : Settled baseDir around [] [] :=
  ⟨fun _ h => absurd h List.not_mem_nil, rfl⟩

/-- Slots are settled one group after the other. -/
theorem append {old new old' new' : List Slot} (h : Settled baseDir around old new)
    (h' : Settled baseDir around old' new') :
    Settled baseDir around (old ++ old') (new ++ new') := by
  refine ⟨?_, ?_⟩
  · intro s hs
    rcases List.mem_append.mp hs with hs | hs
    · exact h.placed s hs
    · exact h'.placed s hs
  · rw [List.map_append, List.map_append, visits_append, visits_append, h.visits, h'.visits]

/-- One slot, given what is below it. -/
theorem slot {old new : Slot} (hvisit : new.visit baseDir around = old.visit baseDir around)
    (hinner : new.surroundings (new.placeIn baseDir around)
      = old.surroundings (old.placeIn baseDir around))
    (here : new.place = new.placeIn baseDir around)
    (owner : ∀ signature, new = .signature signature → signature.owner = around.properties)
    (below : Settled baseDir (old.surroundings (old.placeIn baseDir around)) old.below new.below) :
    Settled baseDir around [old] [new] := by
  refine ⟨?_, ?_⟩
  · intro s hs
    rw [List.mem_singleton.mp hs]
    refine .mk here owner ?_
    rw [here, hinner]
    exact below.placed
  · rw [List.map_singleton, List.map_singleton, visits_singleton, visits_singleton, hvisit, hinner,
      below.visits]

end Settled

/-! ## Places on the way down -/

/-- A type parameter in its place. -/
def settleTypeParameter (baseDir : String) (around : Surroundings) (p : TypeParameter) :
    TypeParameter :=
  { p with place := (Slot.typeParameter p).placeIn baseDir around }

mutual

/-- A declaration and all that is below it in their places: what is below a declaration has it for
its surroundings. -/
def settleDeclaration (baseDir : String) (around : Surroundings) : Declaration → Declaration
  | ⟨header, children, detail⟩ =>
    let slot := Slot.declaration ⟨header, children, detail⟩
    let place := slot.placeIn baseDir around
    ⟨{ header with place := place }, settleDeclarations baseDir (slot.surroundings place) children,
      settleDetail baseDir (slot.surroundings place) detail⟩
termination_by structural d => d

/-- Declarations in their places. -/
def settleDeclarations (baseDir : String) (around : Surroundings) :
    List Declaration → List Declaration
  | [] => []
  | d :: rest => settleDeclaration baseDir around d :: settleDeclarations baseDir around rest
termination_by structural ds => ds

/-- What a detail leads to in its place. -/
def settleDetail (baseDir : String) (around : Surroundings) : Detail → Detail
  | .accessor getter setter =>
    .accessor (settleOption baseDir around getter) (settleOption baseDir around setter)
  | .classLike kind extended implemented typeParameters =>
    .classLike kind extended implemented (typeParameters.map (settleTypeParameter baseDir around))
  | .callable kind signatures => .callable kind (settleSignatures baseDir around signatures)
  | .member kind type => .member kind (settleType baseDir around type)
  | .typeLiteral variant signatures indexer =>
    .typeLiteral variant (settleSignatures baseDir around signatures)
      (settleOption baseDir around indexer)
  | .scope kind => .scope kind
termination_by structural d => d

/-- A signature and all that is below it in their places. It gets to know how what it belongs to
stands to its owner. -/
def settleSignature (baseDir : String) (around : Surroundings) : Signature → Signature
  | ⟨id, kind, name, sources, flags, comment, typeParameters, parameters, result, inheritedFrom,
    place, owner⟩ =>
    let slot := Slot.signature ⟨id, kind, name, sources, flags, comment, typeParameters, parameters,
      result, inheritedFrom, place, owner⟩
    let place := slot.placeIn baseDir around
    ⟨id, kind, name, sources, flags, comment,
      typeParameters.map (settleTypeParameter baseDir (slot.surroundings place)),
      settleParameters baseDir (slot.surroundings place) parameters, result, inheritedFrom, place,
      around.properties⟩
termination_by structural s => s

/-- Signatures in their places. -/
def settleSignatures (baseDir : String) (around : Surroundings) : List Signature → List Signature
  | [] => []
  | s :: rest => settleSignature baseDir around s :: settleSignatures baseDir around rest
termination_by structural ss => ss

/-- A signature in its place, if there is one. -/
def settleOption (baseDir : String) (around : Surroundings) : Option Signature → Option Signature
  | none => none
  | some s => some (settleSignature baseDir around s)
termination_by structural s => s

/-- A parameter and all that is below it in their places. -/
def settleParameter (baseDir : String) (around : Surroundings) : Parameter → Parameter
  | ⟨id, name, type, comment, defaultValue, flags, place⟩ =>
    let slot := Slot.parameter ⟨id, name, type, comment, defaultValue, flags, place⟩
    let place := slot.placeIn baseDir around
    ⟨id, name, settleType baseDir (slot.surroundings place) type, comment, defaultValue,
      flags, place⟩
termination_by structural p => p

/-- Parameters in their places. -/
def settleParameters (baseDir : String) (around : Surroundings) : List Parameter → List Parameter
  | [] => []
  | p :: rest => settleParameter baseDir around p :: settleParameters baseDir around rest
termination_by structural ps => ps

/-- The declaration behind a type in its place. -/
def settleType (baseDir : String) (around : Surroundings) : TypeExpr → TypeExpr
  | ⟨kind, arguments⟩ => ⟨settleKind baseDir around kind, arguments⟩
termination_by structural t => t

/-- The declaration behind a kind of type in its place. Other types lead to no slots. -/
def settleKind (baseDir : String) (around : Surroundings) : TypeKind → TypeKind
  | .reflection declaration => .reflection (settleDeclaration baseDir around declaration)
  | .intrinsic name => .intrinsic name
  | .reference target => .reference target
  | .array element => .array element
  | .tuple elements => .tuple elements
  | .union types => .union types
  | .intersection types => .intersection types
  | .operator name target => .operator name target
  | .literal value => .literal value
  | .predicate name asserts target => .predicate name asserts target
  | .parameter name => .parameter name
  | .unknown name => .unknown name
  | .unmodelled kind => .unmodelled kind
termination_by structural k => k

end

/-- Settling changes no kind. -/
theorem settleDetail_kind (baseDir : String) (around : Surroundings) (d : Detail) :
    (settleDetail baseDir around d).kind = d.kind := by
  cases d <;> rfl

/-! ## Handing the visits back -/

/-- A part of the pass takes the visits to the slots of what it fills in, leaves the visits behind
them, and settles the slots. -/
def Fills {β : Type} (baseDir : String) (slots : β → List Slot)
    (fill : β → List Visit → β × List Visit) (settle : String → Surroundings → β → β) (old : β) :
    Prop :=
  ∀ (around : Surroundings) (rest : List Visit),
    fill old (visits baseDir ((slots old).map (·, around)) ++ rest)
      = (settle baseDir around old, rest)
      ∧ Settled baseDir around (slots old) (slots (settle baseDir around old))

namespace Fills

variable {baseDir : String} {β γ δ : Type} {slotsβ : β → List Slot} {slotsγ : γ → List Slot}
  {slotsδ : δ → List Slot} {fillβ : β → List Visit → β × List Visit}
  {fillγ : γ → List Visit → γ × List Visit} {fillδ : δ → List Visit → δ × List Visit}
  {settleβ : String → Surroundings → β → β} {settleγ : String → Surroundings → γ → γ}
  {settleδ : String → Surroundings → δ → δ}

/-- What has no slots takes no visits. -/
theorem none {old : β} (hslots : slotsβ old = [])
    (hfill : ∀ visits, fillβ old visits = (old, visits))
    (hsettle : ∀ around, settleβ baseDir around old = old) :
    Fills baseDir slotsβ fillβ settleβ old := by
  intro around rest
  rw [hsettle, hslots]
  refine ⟨?_, .nil⟩
  rw [List.map_nil, visits_nil, List.nil_append, hfill]

/-- What is made of one part is filled in as that part is. -/
theorem one {b : β} (make : β → δ) (hslots : ∀ b, slotsδ (make b) = slotsβ b)
    (hfill : ∀ visits, fillδ (make b) visits = (make (fillβ b visits).1, (fillβ b visits).2))
    (hsettle : ∀ around, settleδ baseDir around (make b) = make (settleβ baseDir around b))
    (hb : Fills baseDir slotsβ fillβ settleβ b) : Fills baseDir slotsδ fillδ settleδ (make b) := by
  intro around rest
  obtain ⟨heq, hsettled⟩ := hb around rest
  rw [hsettle, hslots, hslots]
  refine ⟨?_, hsettled⟩
  rw [hfill, heq]

/-- What is made of two parts is filled in one part after the other. -/
theorem two {b : β} {c : γ} (make : β → γ → δ)
    (hslots : ∀ b c, slotsδ (make b c) = slotsβ b ++ slotsγ c)
    (hfill : ∀ visits, fillδ (make b c) visits
      = (make (fillβ b visits).1 (fillγ c (fillβ b visits).2).1, (fillγ c (fillβ b visits).2).2))
    (hsettle : ∀ around,
      settleδ baseDir around (make b c)
        = make (settleβ baseDir around b) (settleγ baseDir around c))
    (hb : Fills baseDir slotsβ fillβ settleβ b) (hc : Fills baseDir slotsγ fillγ settleγ c) :
    Fills baseDir slotsδ fillδ settleδ (make b c) := by
  intro around rest
  obtain ⟨hceq, hcsettled⟩ := hc around rest
  obtain ⟨hbeq, hbsettled⟩ := hb around (visits baseDir ((slotsγ c).map (·, around)) ++ rest)
  rw [hsettle, hslots, hslots]
  refine ⟨?_, hbsettled.append hcsettled⟩
  rw [hfill, List.map_append, visits_append, List.append_assoc, hbeq, hceq]

end Fills

section

variable {baseDir : String}

theorem fills_typeParameter (p : TypeParameter) :
    Fills baseDir (fun p => [.typeParameter p]) TypeParameter.fill settleTypeParameter p := by
  intro around rest
  refine ⟨?_, .slot rfl rfl rfl (fun _ h => Slot.noConfusion h) .nil⟩
  rw [List.map_singleton, visits_singleton, Slot.below, List.map_nil, visits_nil]
  rfl

theorem fills_typeParameters (ps : List TypeParameter) :
    Fills baseDir (List.map .typeParameter) fillTypeParameters
      (fun baseDir around => List.map (settleTypeParameter baseDir around)) ps := by
  induction ps with
  | nil => exact .none rfl (fun _ => rfl) fun _ => rfl
  | cons p ps ih =>
    exact .two List.cons (fun _ _ => rfl) (fun _ => rfl) (fun _ => rfl) (fills_typeParameter p) ih

/-- A visit sees no more of a declaration than its header without the place, and its kind. -/
theorem visit_declaration_of_kind (baseDir : String) (header : Header)
    (children children' : List Declaration) {detail detail' : Detail} (place : Place)
    (around : Surroundings) (hkind : detail'.kind = detail.kind) :
    (Slot.declaration ⟨{ header with place := place }, children', detail'⟩).visit baseDir around
      = (Slot.declaration ⟨header, children, detail⟩).visit baseDir around := by
  simp only [Slot.visit, Slot.entryAt, Slot.placeIn, Slot.id, Slot.kind, Slot.name, Slot.source?,
    Slot.isStatic, Slot.isModule, Slot.ownSegments, Declaration.ownSegments, Declaration.isModule,
    Declaration.kind, Declaration.name, hkind]
  rfl

-- one theorem for each function of the pass; the recursion is that of the tree
mutual

/-- The visit to a declaration comes first, then those to its children, and then those to what its
detail leads to. -/
theorem fills_declaration (d : Declaration) :
    Fills baseDir (fun d => [.declaration d]) fillDeclaration settleDeclaration d := by
  intro around rest
  match d with
  | ⟨header, children, detail⟩ =>
    -- what is below the declaration has it for its surroundings, in its new place
    let place := (Slot.declaration ⟨header, children, detail⟩).placeIn baseDir around
    let inner := (Slot.declaration ⟨header, children, detail⟩).surroundings place
    obtain ⟨hdetail, hbehind⟩ := fills_detail detail inner rest
    obtain ⟨hchildren, hbelow⟩ := fills_declarations children inner
      (visits baseDir (detail.slots.map (·, inner)) ++ rest)
    refine ⟨?_, ?_⟩
    · -- the visits come in the order in which the pass asks for them
      rw [List.map_singleton, visits_singleton, Slot.below, List.map_append, visits_append,
        List.cons_append, List.append_assoc, fillDeclaration]
      simp only [nextPlace]
      rw [hchildren]
      simp only
      rw [hdetail]
      rfl
    · have hvisit := visit_declaration_of_kind baseDir header children
        (settleDeclarations baseDir inner children) place around
        (settleDetail_kind baseDir inner detail)
      refine .slot hvisit ?_ ?_ (fun _ h => Slot.noConfusion h) (hbelow.append hbehind)
      · -- the new declaration makes the same surroundings as the old one
        have hplace := congrArg Visit.place hvisit
        simp only [Slot.visit] at hplace
        rw [settleDeclaration, hplace]
        simp only [Slot.surroundings, Slot.id, Slot.kind, Declaration.kind, Slot.properties,
          settleDetail_kind]
      · exact (congrArg Visit.place hvisit).symm
termination_by structural d

theorem fills_declarations (ds : List Declaration) :
    Fills baseDir (List.map .declaration) fillDeclarations settleDeclarations ds := by
  match ds with
  | [] => exact .none rfl (fun _ => rfl) fun _ => rfl
  | d :: ds =>
    exact .two List.cons (fun _ _ => rfl) (fun _ => rfl) (fun _ => rfl) (fills_declaration d)
      (fills_declarations ds)
termination_by structural ds

/-- Each kind of detail has one part with slots or two, or none. -/
theorem fills_detail (d : Detail) : Fills baseDir Detail.slots fillDetail settleDetail d := by
  match d with
  | .accessor getter setter =>
    exact .two Detail.accessor (fun _ _ => rfl) (fun _ => rfl) (fun _ => rfl) (fills_option getter)
      (fills_option setter)
  | .classLike kind extended implemented typeParameters =>
    exact .one (Detail.classLike kind extended implemented) (fun _ => rfl) (fun _ => rfl)
      (fun _ => rfl) (fills_typeParameters typeParameters)
  | .callable kind signatures =>
    exact .one (Detail.callable kind) (fun _ => rfl) (fun _ => rfl) (fun _ => rfl)
      (fills_signatures signatures)
  | .member kind type =>
    exact .one (Detail.member kind) (fun _ => rfl) (fun _ => rfl) (fun _ => rfl) (fills_type type)
  | .typeLiteral variant signatures indexer =>
    exact .two (Detail.typeLiteral variant) (fun _ _ => rfl) (fun _ => rfl) (fun _ => rfl)
      (fills_signatures signatures) (fills_option indexer)
  | .scope kind => exact .none rfl (fun _ => rfl) fun _ => rfl
termination_by structural d

/-- The visit to a signature comes before those to its parameters and type parameters. -/
theorem fills_signature (s : Signature) :
    Fills baseDir (fun s => [.signature s]) fillSignature settleSignature s := by
  intro around rest
  match s with
  | ⟨id, kind, name, sources, flags, comment, typeParameters, parameters, result, inherited,
    oldPlace, oldOwner⟩ =>
    let slot := Slot.signature ⟨id, kind, name, sources, flags, comment, typeParameters, parameters,
      result, inherited, oldPlace, oldOwner⟩
    let inner := slot.surroundings (slot.placeIn baseDir around)
    obtain ⟨htypes, hbehind⟩ := fills_typeParameters typeParameters inner rest
    obtain ⟨hparameters, hbelow⟩ := fills_parameters parameters inner
      (visits baseDir ((typeParameters.map Slot.typeParameter).map (·, inner)) ++ rest)
    refine ⟨?_, ?_⟩
    · rw [List.map_singleton, visits_singleton, Slot.below, List.map_append, visits_append,
        List.cons_append, List.append_assoc, fillSignature]
      simp only [nextPlace]
      rw [hparameters]
      simp only
      rw [htypes]
      rfl
    · refine .slot rfl rfl rfl ?_ (hbelow.append hbehind)
      intro signature h
      cases h
      rfl
termination_by structural s

theorem fills_signatures (ss : List Signature) :
    Fills baseDir (List.map .signature) fillSignatures settleSignatures ss := by
  match ss with
  | [] => exact .none rfl (fun _ => rfl) fun _ => rfl
  | s :: ss =>
    exact .two List.cons (fun _ _ => rfl) (fun _ => rfl) (fun _ => rfl) (fills_signature s)
      (fills_signatures ss)
termination_by structural ss

theorem fills_option (s : Option Signature) :
    Fills baseDir (fun s => s.toList.map .signature) fillOption settleOption s := by
  match s with
  | none => exact .none rfl (fun _ => rfl) fun _ => rfl
  | some s => exact .one some (fun _ => rfl) (fun _ => rfl) (fun _ => rfl) (fills_signature s)
termination_by structural s

theorem fills_parameter (p : Parameter) :
    Fills baseDir (fun p => [.parameter p]) fillParameter settleParameter p := by
  intro around rest
  match p with
  | ⟨id, name, type, comment, defaultValue, flags, oldPlace⟩ =>
    let slot := Slot.parameter ⟨id, name, type, comment, defaultValue, flags, oldPlace⟩
    obtain ⟨htype, hbelow⟩ := fills_type type (slot.surroundings (slot.placeIn baseDir around)) rest
    refine ⟨?_, .slot rfl rfl rfl (fun _ h => Slot.noConfusion h) hbelow⟩
    rw [List.map_singleton, visits_singleton, Slot.below, List.cons_append, fillParameter]
    simp only [nextPlace]
    rw [htype]
    rfl
termination_by structural p

theorem fills_parameters (ps : List Parameter) :
    Fills baseDir (List.map .parameter) fillParameters settleParameters ps := by
  match ps with
  | [] => exact .none rfl (fun _ => rfl) fun _ => rfl
  | p :: ps =>
    exact .two List.cons (fun _ _ => rfl) (fun _ => rfl) (fun _ => rfl) (fills_parameter p)
      (fills_parameters ps)
termination_by structural ps

/-- Of a type only the declaration behind it is filled in, and not its arguments. -/
theorem fills_type (t : TypeExpr) :
    Fills baseDir (fun t : TypeExpr => t.reflected.toList.map .declaration) fillType settleType
      t := by
  match t with
  | ⟨kind, arguments⟩ =>
    exact .one (fun kind => TypeExpr.mk kind arguments) (fun _ => rfl) (fun _ => rfl) (fun _ => rfl)
      (fills_kind kind)
termination_by structural t

theorem fills_kind (k : TypeKind) :
    Fills baseDir (fun k => (TypeExpr.reflected ⟨k, []⟩).toList.map .declaration) fillKind
      settleKind k := by
  match k with
  | .reflection d =>
    exact .one TypeKind.reflection (fun _ => rfl) (fun _ => rfl) (fun _ => rfl)
      (fills_declaration d)
  | .intrinsic _ | .reference _ | .array _ | .tuple _ | .union _ | .intersection _ | .operator _ _
  | .literal _ | .predicate _ _ _ | .parameter _ | .unknown _ | .unmodelled _ =>
    exact .none rfl (fun _ => rfl) fun _ => rfl
termination_by structural k

end

end

/-! ## The project -/

namespace Project

/-- What the walk reaches from a project, and in which surroundings: its declarations, and whatever
is below something reached. -/
inductive Reaches (p : Project) (baseDir : String) : Surroundings → Slot → Prop where
  | child {d : Declaration} (h : d ∈ p.children) : Reaches p baseDir p.surroundings (.declaration d)
  | down {around : Surroundings} {s child : Slot} (above : Reaches p baseDir around s)
      (h : child ∈ s.below) :
      Reaches p baseDir (s.surroundings (s.placeIn baseDir around)) child

/-- **Placing a project puts every slot in its place on the way down.** -/
theorem placed_eq (p : Project) (baseDir : String) :
    p.placed baseDir
      = { p with children := settleDeclarations baseDir p.surroundings p.children } := by
  have hfills : Fills baseDir (List.map .declaration) fillDeclarations settleDeclarations
      p.children :=
    fills_declarations p.children
  have hfill := (hfills p.surroundings []).1
  rw [List.append_nil, List.map_map] at hfill
  exact congrArg (fun filled => { p with children := filled }) (congrArg Prod.fst hfill)

/-- The declarations of a placed project are in their places, and the walk sees no difference. -/
theorem placed_settled (p : Project) (baseDir : String) :
    Settled baseDir p.surroundings (p.children.map .declaration)
      ((p.placed baseDir).children.map .declaration) := by
  rw [placed_eq]
  exact (fills_declarations p.children p.surroundings []).2

/-- Placing a project changes nothing that the walk sees. -/
theorem visits_placed (p : Project) (baseDir : String) :
    (p.placed baseDir).visits baseDir = p.visits baseDir := by
  have h := (p.placed_settled baseDir).visits
  rw [List.map_map, List.map_map] at h
  exact h

variable {p : Project} {baseDir : String} {around : Surroundings} {s : Slot}

/-- **Every slot of a placed project is in its place.** -/
theorem Reaches.placed (h : (p.placed baseDir).Reaches baseDir around s) :
    s.Placed baseDir around := by
  induction h with
  | child hd => exact (p.placed_settled baseDir).placed _ (List.mem_map_of_mem hd)
  | down _ hchild ih =>
    cases ih with
    | mk here _ below =>
      rw [← here]
      exact below _ hchild

/-- Whatever is reached is visited, with all that is below it. -/
theorem Reaches.visits_subset (h : p.Reaches baseDir around s) :
    DocAtlas.visits baseDir [(s, around)] ⊆ p.visits baseDir := by
  induction h with
  | @child d hd => exact visits_subset_of_mem (List.mem_map.mpr ⟨d, hd, rfl⟩)
  | @down around s child _ hchild ih =>
    refine List.Subset.trans ?_ ih
    rw [visits_singleton baseDir s]
    exact List.subset_cons_of_subset _
      (visits_subset_of_mem (List.mem_map.mpr ⟨child, hchild, rfl⟩))

/-- Whatever is reached is visited. -/
theorem Reaches.visit_mem (h : p.Reaches baseDir around s) :
    s.visit baseDir around ∈ p.visits baseDir := by
  apply h.visits_subset
  rw [visits_singleton]
  exact List.mem_cons_self

end Project

/-! ## The index -/

namespace Index

/-- Inserting an entry changes what is found under its id, and nothing else. -/
theorem lookup_insertEntry (id i : Int) (entry : IndexEntry) (entries : List (Int × IndexEntry)) :
    (insertEntry id entry entries).lookup i = if i = id then some entry else entries.lookup i := by
  induction entries with
  | nil =>
    rw [insertEntry, List.lookup_cons, List.lookup_nil]
    by_cases h : i = id
    · rw [if_pos h, beq_iff_eq.mpr h]
    · rw [if_neg h, beq_eq_false_iff_ne.mpr h]
  | cons head entries ih =>
    obtain ⟨j, e⟩ := head
    by_cases hj : j = id
    · subst hj
      rw [insertEntry, if_pos rfl, List.lookup_cons, List.lookup_cons]
      by_cases h : i = j
      · rw [if_pos h, beq_iff_eq.mpr h]
      · rw [if_neg h, beq_eq_false_iff_ne.mpr h]
    · rw [insertEntry, if_neg hj, List.lookup_cons, List.lookup_cons, ih]
      by_cases h : i = j
      · rw [beq_iff_eq.mpr h]
        exact (if_neg fun he => hj (h.symm.trans he)).symm
      · rw [beq_eq_false_iff_ne.mpr h]

/-- Inserting puts the entry in its place, whether or not an event is logged. -/
theorem value_insert (index : Index) (id : Int) (entry : IndexEntry) :
    (index.insert id entry).value = ⟨insertEntry id entry index.entries⟩ := by
  rw [insert]
  cases index.get? id <;> rfl

/-- The entry that was inserted last is the one that the index has. -/
theorem get?_insert (index : Index) (id i : Int) (entry : IndexEntry) :
    (index.insert id entry).value.get? i = if i = id then some entry else index.get? i := by
  rw [value_insert]
  exact lookup_insertEntry id i entry index.entries

/-- **The last visit with an id decides what the index says about it.** -/
theorem get?_record (index : Index) (visits : List Visit) (i : Int) :
    (index.record visits).value.get? i
      = (((visits.filter (·.id = some i)).getLast?).map (·.entry)).or (index.get? i) := by
  induction visits generalizing index with
  | nil => rfl
  | cons visit visits ih =>
    rw [record]
    cases hid : visit.id with
    | none =>
      have hnot : ¬ visit.id = some i := by
        rw [hid]
        exact nofun
      rw [List.filter_cons_of_neg (by simpa using hnot)]
      exact ih index
    | some id =>
      simp only [Logged.value_bind]
      rw [ih, get?_insert]
      by_cases h : i = id
      · subst h
        rw [if_pos rfl, List.filter_cons_of_pos (by simpa using hid), List.getLast?_cons]
        cases (visits.filter (·.id = some i)).getLast? <;> rfl
      · have hnot : ¬ visit.id = some i := by
          rw [hid]
          intro he
          exact h (Option.some.inj he).symm
        rw [if_neg h, List.filter_cons_of_neg (by simpa using hnot)]

end Index

/-- Among visits with distinct ids there is one for each id. -/
theorem Visit.eq_of_id_eq {visits : List Visit} (hids : (visits.filterMap (·.id)).Nodup)
    {v w : Visit} {i : Int} (hv : v ∈ visits) (hw : w ∈ visits) (hvi : v.id = some i)
    (hwi : w.id = some i) : v = w := by
  induction visits with
  | nil => exact absurd hv List.not_mem_nil
  | cons head visits ih =>
    have hmem : ∀ u ∈ visits, u.id = some i → i ∈ visits.filterMap (·.id) :=
      fun u hu hui => List.mem_filterMap.mpr ⟨u, hu, hui⟩
    -- a visit without an id is neither of the two
    cases hhead : head.id with
    | none =>
      rw [List.filterMap_cons_none hhead] at hids
      have hne : ∀ u, u.id = some i → u ≠ head := by
        rintro u hui rfl
        rw [hhead] at hui
        cases hui
      exact ih hids (List.mem_of_ne_of_mem (hne v hvi) hv) (List.mem_of_ne_of_mem (hne w hwi) hw)
    | some id =>
      rw [List.filterMap_cons_some hhead, List.nodup_cons] at hids
      rcases List.mem_cons.mp hv with rfl | hv'
      · rcases List.mem_cons.mp hw with rfl | hw'
        · rfl
        · rw [hvi] at hhead
          cases hhead
          exact absurd (hmem w hw' hwi) hids.1
      · rcases List.mem_cons.mp hw with rfl | hw'
        · rw [hwi] at hhead
          cases hhead
          exact absurd (hmem v hv' hvi) hids.1
        · exact ih hids.2 hv' hw'

namespace Project

/-- The index of a project whose ids are distinct has every slot of the placed project at its
place. -/
theorem Reaches.get?_index {p : Project} {baseDir : String} {around : Surroundings} {s : Slot}
    {i : Int} (h : (p.placed baseDir).Reaches baseDir around s)
    (hids : ((p.visits baseDir).filterMap (·.id)).Nodup) (hid : s.id = some i) :
    (p.index baseDir).value.get? i = some (s.entryAt s.place around) := by
  -- the walk over the project before it was placed makes the same visit
  have hmem := h.visit_mem
  rw [visits_placed] at hmem
  have hvisit : (s.visit baseDir around).id = some i := hid
  have hentry : (s.visit baseDir around).entry = s.entryAt s.place around := by
    cases h.placed with
    | mk here _ _ => rw [here]; rfl
  rw [Project.index, Logged.value_bind, Logged.value_bind, Logged.value_pure, Index.get?_record]
  cases hlast : ((p.visits baseDir).filter (·.id = some i)).getLast? with
  | none =>
    have hnil := List.getLast?_eq_none_iff.mp hlast
    have hin : s.visit baseDir around ∈ (p.visits baseDir).filter (·.id = some i) :=
      List.mem_filter.mpr ⟨hmem, decide_eq_true hvisit⟩
    rw [hnil] at hin
    exact absurd hin List.not_mem_nil
  | some last =>
    obtain ⟨hlastMem, hlastId⟩ := List.mem_filter.mp (List.mem_of_getLast? hlast)
    rw [Visit.eq_of_id_eq hids hlastMem hmem (of_decide_eq_true hlastId) hvisit]
    rw [Option.map_some, Option.some_or, hentry]

end Project

end DocAtlas
