import DocAtlas.Path.Pathname

/-!
Values that are looked up by the last segments of their paths.

The tree is keyed from the last segment of a path to the first, so walking a suffix from its end
leads to the node below which all paths with that suffix lie. Every node counts the entries at and
below it, which decides at once whether a suffix is unique.
-/

set_option autoImplicit false

namespace DocAtlas

/-- Why a lookup or an insertion fails. -/
inductive LookupError where
  | notFound (suffix : String)
  | ambiguous (suffix : String) (candidates : List String)
  | duplicate (path : String)
  deriving DecidableEq, Repr

/-- The wording of a failure. -/
def LookupError.message : LookupError → String
  | .notFound suffix => "No object found with path suffix `" ++ suffix ++ "`"
  | .ambiguous suffix candidates =>
    "Path suffix `" ++ suffix ++ "` is ambiguous; it matches: " ++ ", ".intercalate candidates
  | .duplicate path => "Path `" ++ path ++ "` was added twice"

/-- Texts in ascending order. -/
def sortTexts (texts : List String) : List String := texts.mergeSort fun a b => !(b < a)

/-- A node: the entry whose path ends here, with that path; the nodes below in the order of their
arrival, each under the segment that leads to it; and the number of entries at and below the
node. -/
structure SuffixTree (α : Type) where
  entry : Option (Pathname × α)
  children : List (String × SuffixTree α)
  count : Nat

namespace SuffixTree

variable {α : Type}

/-- The tree without entries. -/
def empty : SuffixTree α := ⟨none, [], 0⟩

instance : Inhabited (SuffixTree α) := ⟨empty⟩

/-- The number of entries. -/
def size (t : SuffixTree α) : Nat := t.count

/-- Whether there is no entry. -/
def isEmpty (t : SuffixTree α) : Bool := t.count == 0

/-! ## Insertion -/

/-- Changes the value under a key where it stands; an absent key comes last, with a change of
`fresh`. -/
def alter {β : Type} (key : String) (fresh : β) (f : β → β) : List (String × β) → List (String × β)
  | [] => [(key, f fresh)]
  | (k, v) :: rest => if k = key then (k, f v) :: rest else (k, v) :: alter key fresh f rest

/-- Puts an entry at the end of a way that is given from the last segment on, and counts it on the
way. -/
def insertAlong (path : Pathname) (value : α) : List String → SuffixTree α → SuffixTree α
  | [], t => { t with entry := some (path, value), count := t.count + 1 }
  | segment :: rest, t =>
    { t with
      children := alter segment empty (insertAlong path value rest) t.children
      count := t.count + 1 }

/-- The node at the end of a way. -/
def findAlong : List String → SuffixTree α → Option (SuffixTree α)
  | [], t => some t
  | segment :: rest, t => (t.children.lookup segment).bind (findAlong rest)

/-- The node below which the paths with a suffix lie. -/
def find (t : SuffixTree α) (suffix : Pathname) : Option (SuffixTree α) :=
  findAlong suffix.reverse t

/-- Whether exactly this path has an entry. -/
def contains (t : SuffixTree α) (path : Pathname) : Bool :=
  match t.find path with
  | some node => node.entry.isSome
  | none => false

/-- Adds an entry. A path that has one already is refused, and the tree stays as it is. -/
def add (t : SuffixTree α) (path : Pathname) (value : α) : SuffixTree α × Option LookupError :=
  if t.contains path then (t, some (.duplicate path.text))
  else (insertAlong path value path.reverse t, none)

/-- Adds entries one by one up to the first that is refused. -/
def addMany (t : SuffixTree α) : List (Pathname × α) → SuffixTree α × Option LookupError
  | [] => (t, none)
  | (path, value) :: rest =>
    match t.add path value with
    | (t, none) => t.addMany rest
    | (t, some e) => (t, some e)

/-! ## The entries below a node -/

/-- What comes onto the stack for a node: its children that count an entry, the last one on top. -/
def occupied (t : SuffixTree α) : List (SuffixTree α) :=
  ((t.children.map (·.2)).filter fun child => 0 < child.count).reverse

/-- The size of the nodes on a stack. -/
noncomputable def totalSize (stack : List (SuffixTree α)) : Nat :=
  stack.foldr (fun t total => sizeOf t + total) 0

@[simp] theorem totalSize_nil : totalSize ([] : List (SuffixTree α)) = 0 := rfl

@[simp] theorem totalSize_cons (t : SuffixTree α) (stack : List (SuffixTree α)) :
    totalSize (t :: stack) = sizeOf t + totalSize stack := rfl

@[simp] theorem totalSize_append (a b : List (SuffixTree α)) :
    totalSize (a ++ b) = totalSize a + totalSize b := by
  induction a with
  | nil => rw [List.nil_append, totalSize_nil, Nat.zero_add]
  | cons t a ih => rw [List.cons_append, totalSize_cons, totalSize_cons, ih, Nat.add_assoc]

/-- The order on the stack makes no difference to its size. -/
theorem totalSize_reverse (stack : List (SuffixTree α)) :
    totalSize stack.reverse = totalSize stack := by
  induction stack with
  | nil => rfl
  | cons t stack ih =>
    rw [List.reverse_cons, totalSize_append, ih, totalSize_cons, totalSize_cons, totalSize_nil]
    omega

/-- Children that are left out take nothing with them that the node does not have. -/
theorem totalSize_children_lt (p : SuffixTree α → Bool) (children : List (String × SuffixTree α)) :
    totalSize ((children.map (·.2)).filter p) < sizeOf children := by
  induction children with
  | nil => simp
  | cons child children ih =>
    obtain ⟨segment, t⟩ := child
    simp only [List.map_cons, List.filter_cons, List.cons.sizeOf_spec, Prod.mk.sizeOf_spec]
    split
    · rw [totalSize_cons]
      omega
    · omega

/-- What a node is replaced by on the stack is smaller than the node. -/
theorem totalSize_occupied_lt (t : SuffixTree α) : totalSize t.occupied < sizeOf t := by
  obtain ⟨entry, children, count⟩ := t
  have h := totalSize_children_lt (fun child => 0 < child.count) children
  simp only [occupied, totalSize_reverse, mk.sizeOf_spec]
  omega

/-- The entries that turn up while a stack of nodes is worked off, its top first. A node is taken
off, its occupied children come onto the stack, and its entry is the next one if it has one. -/
def unstack (stack : List (SuffixTree α)) : List (Pathname × α) :=
  match stack with
  | [] => []
  | node :: rest => node.entry.toList ++ unstack (node.occupied ++ rest)
termination_by totalSize stack
decreasing_by
  have := totalSize_occupied_lt node
  rw [totalSize_append, totalSize_cons]
  omega

/-- The entries at and below a node, in the order in which a walk with a stack comes to them. -/
def entries (t : SuffixTree α) : List (Pathname × α) := unstack [t]

/-! ## Lookup -/

/-- The value whose path ends with a suffix, if there is only one. A path that equals the suffix
comes before longer ones that merely end with it. -/
def get (t : SuffixTree α) (suffix : Pathname) : Except LookupError α :=
  match t.find suffix with
  | none => .error (.notFound suffix.text)
  | some node =>
    match node.entry with
    | some (_, value) => .ok value
    | none =>
      match node.count, node.entries with
      | 0, _ => .error (.notFound suffix.text)
      | 1, (_, value) :: _ => .ok value
      | 1, [] => .error (.notFound suffix.text)
      | _, entries => .error (.ambiguous suffix.text (sortTexts (entries.map (·.1.text))))

end SuffixTree

end DocAtlas
