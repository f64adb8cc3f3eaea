import DocAtlas.Text.Hidden

/-!
Texts as they are quoted in messages.

A quoted text shows every character: the quote, the backslash and the common controls have short
escapes, and every other character that would not show is given by its code point in braces.
-/

set_option autoImplicit false

namespace DocAtlas.Text

/-- How a character stands in a quoted text. -/
def showChar (c : Char) : String :=
  match c with
  | '\x00' => "\\0"
  | '\t' => "\\t"
  | '\r' => "\\r"
  | '\n' => "\\n"
  | '\\' => "\\\\"
  | '"' => "\\\""
  | c =>
    if isHidden c then "\\u\x7b" ++ String.ofList (Nat.toDigits 16 c.toNat) ++ "\x7d"
      else c.toString

/-- A text in quotes, with every character showing. -/
def quoted (s : String) : String :=
  "\"" ++ String.join (s.toList.map showChar) ++ "\""

end DocAtlas.Text
