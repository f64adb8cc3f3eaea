/-!
Splitting a text at white space, which is the Unicode property `White_Space`.
-/

set_option autoImplicit false

namespace DocAtlas.Text

/-- The characters with the property `White_Space`. -/
def blanks : List Nat :=
  [0x09, 0x0a, 0x0b, 0x0c, 0x0d, 0x20, 0x85, 0xa0, 0x1680, 0x2000, 0x2001, 0x2002, 0x2003, 0x2004,
    0x2005, 0x2006, 0x2007, 0x2008, 0x2009, 0x200a, 0x2028, 0x2029, 0x202f, 0x205f, 0x3000]

/-- Whether a character is white space. -/
def isBlank (c : Char) : Bool := blanks.contains c.toNat

/-- The maximal runs of characters that are not white space; `word` holds the run so far, the last
character first. -/
def wordsFrom (word : List Char) : List Char → List String
  | [] => if word.isEmpty then [] else [String.ofList word.reverse]
  | c :: rest =>
    if isBlank c then
      if word.isEmpty then wordsFrom [] rest else String.ofList word.reverse :: wordsFrom [] rest
    else wordsFrom (c :: word) rest

/-- The words of a text. -/
def words (s : String) : List String := wordsFrom [] s.toList

end DocAtlas.Text
