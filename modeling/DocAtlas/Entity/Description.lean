/-!
Prose attached to an entity.
-/

set_option autoImplicit false

namespace DocAtlas

/-- A run of prose, or a piece of code in it. -/
inductive DescriptionItem where
  | text (s : String)
  | code (s : String)
  deriving DecidableEq, Repr

/-- Prose in its authored order. -/
abbrev Description : Type := List DescriptionItem

/-- Whether something is deprecated: a plain mark, or the reason that its author gave. -/
inductive Deprecation where
  | flag (deprecated : Bool)
  | reason (text : Description)
  deriving DecidableEq, Repr

/-- Whether the mark says that it is deprecated; a reason always does. -/
def Deprecation.isDeprecated : Deprecation → Bool
  | .flag deprecated => deprecated
  | .reason _ => true

end DocAtlas
