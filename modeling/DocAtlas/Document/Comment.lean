import DocAtlas.Entity.Basic
import DocAtlas.Log.Logged

/-!
Sources, flags and comments of declarations.

A comment is a summary and a list of block tags such as `@returns`. A block tag is named with or
without its `@`.
-/

set_option autoImplicit false

namespace DocAtlas

/-- Where a declaration was written. -/
structure Source where
  fileName : String
  line : UInt32 := 0
  deriving DecidableEq, Repr

/-- An absolute file name points outside the analyzed tree. -/
def Source.isExternal (s : Source) : Bool := s.fileName.toList.head? == some '/'

/-- The modifiers of a declaration. -/
structure Flags where
  isAbstract : Bool := false
  isExported : Bool := false
  isOptional : Bool := false
  isPrivate : Bool := false
  isRest : Bool := false
  isStatic : Bool := false
  deriving DecidableEq, Repr

/-- The flags that a member shows. -/
def Flags.memberProperties (f : Flags) : MemberProperties where
  isAbstract := f.isAbstract
  isOptional := f.isOptional
  isStatic := f.isStatic
  isPrivate := f.isPrivate

/-- A piece of a comment. -/
inductive CommentPart where
  | text (s : String)
  | code (s : String)
  | inlineTag (tag s : String)
  deriving DecidableEq, Repr

namespace CommentPart

/-- The text of a piece. -/
def content : CommentPart → String
  | .text s => s
  | .code s => s
  | .inlineTag _ s => s

/-- The piece as it is documented; an inline tag shows its text. -/
def toItem : CommentPart → DescriptionItem
  | .text s => .text s
  | .code s => .code s
  | .inlineTag _ s => .text s

end CommentPart

/-- A block tag with what follows it. -/
structure BlockTag where
  tag : String
  content : List CommentPart := []
  deriving DecidableEq, Repr

/-- Whether a block tag has this name; one `@` in front does not count. -/
def BlockTag.isNamed (t : BlockTag) (name : String) : Bool :=
  match t.tag.toList with
  | '@' :: rest => String.ofList rest == name
  | _ => t.tag == name

/-- What an author wrote about a declaration. -/
structure Comment where
  summary : List CommentPart := []
  blockTags : List BlockTag := []
  deriving DecidableEq, Repr

/-- Pieces as they are documented. -/
def describe (parts : List CommentPart) : Description := parts.map CommentPart.toItem

namespace Comment

/-- Whether nothing was written. -/
def isEmpty (c : Comment) : Bool := c.summary.isEmpty && c.blockTags.isEmpty

/-- The summary. -/
def description (c : Comment) : Description := describe c.summary

/-- The block tags of a name. -/
def tags (c : Comment) (name : String) : List BlockTag := c.blockTags.filter (·.isNamed name)

/-- Whether there is a block tag of this name. -/
def hasTag (c : Comment) (name : String) : Bool := !(c.tags name).isEmpty

/-- The descriptions of all block tags of a name. -/
def tagList (c : Comment) (name : String) : List Description :=
  (c.tags name).map fun t => describe t.content

/-- The description of a block tag that is meant to be the only one of its name. -/
def tagOne (c : Comment) (name : String) : Logged (Option Description) :=
  match c.tags name with
  | [] => pure none
  | [t] => pure (some (describe t.content))
  | t :: _ => do
    Logged.log (.tagRepeated name)
    pure (some (describe t.content))

/-- The bare text of the first block tag of a name. -/
def tagText (c : Comment) (name : String) : Option String :=
  (c.tags name).head?.map fun t => String.join (t.content.map CommentPart.content)

/-- Whether the comment deprecates its declaration, and why. -/
def deprecation (c : Comment) : Logged Deprecation := do
  match ← c.tagOne "deprecated" with
  | none => pure (.flag false)
  | some [] => pure (.flag true)
  | some reason => pure (.reason reason)

end Comment

end DocAtlas
