/-!
Text that is safe to show on a terminal.

Characters that can start or end a control sequence are spelled out. Other control characters, line
breaks among them, are left alone.
-/

set_option autoImplicit false

namespace DocAtlas.Text

/-- A number in hexadecimal digits. -/
def hexadecimal (n : Nat) : String := String.ofList (Nat.toDigits 16 n)

/-- A character as it is shown on a terminal. -/
def shownChar (c : Char) : String :=
  let n := c.toNat
  if n = 0x1b || n = 0x7f then "\\x" ++ hexadecimal n
  else if n = 0x07 || n = 0x08 || n = 0x0c then "\\x0" ++ hexadecimal n
  else if 0x80 ≤ n ∧ n ≤ 0x9f then "\\u\x7b" ++ hexadecimal n ++ "\x7d"
  else c.toString

/-- A text as it is shown on a terminal. -/
def shown (s : String) : String := String.join (s.toList.map shownChar)

end DocAtlas.Text
