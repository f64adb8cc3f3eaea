import DocAtlas.Json.Basic
import DocAtlas.Decimal.Shortest

/-!
The text of a JSON value, compact or indented.

Doubles are written with the fewest digits that read back, always with a point or an exponent so
that the text reads back as a double. Strings escape the quote, the backslash and the control
characters.
-/

set_option autoImplicit false

namespace DocAtlas

/-! ## Numbers -/

/-- How the digits of a double are laid out. -/
structure DoubleFormat where
  /-- The least and the greatest exponent of the leading digit for which no exponent is written. -/
  positionalFrom : Int
  positionalTo : Int
  /-- What a positional text without a fraction ends in. -/
  wholeEnding : String
  /-- What stands before the exponent's digits. -/
  exponentUp : String
  exponentDown : String

/-- Lays out a decimal by the format's decisions. -/
def DoubleFormat.layOut (f : DoubleFormat) (d : Decimal.Scaled) : String :=
  let digits := toString d.digits
  let count := digits.length
  let lead := d.scale + count - 1
  let zeros (n : Int) : String := String.ofList (List.replicate n.toNat '0')
  let from_ (n : Nat) : String := String.ofList (digits.toList.drop n)
  let upTo (n : Nat) : String := String.ofList (digits.toList.take n)
  if f.positionalFrom ≤ lead && lead ≤ f.positionalTo then
    if 0 ≤ d.scale then digits ++ zeros d.scale ++ f.wholeEnding
    else if 0 ≤ lead then upTo (lead.toNat + 1) ++ "." ++ from_ (lead.toNat + 1)
    else "0." ++ zeros (-lead - 1) ++ digits
  else
    let significand := if count = 1 then digits else upTo 1 ++ "." ++ from_ 1
    let mark := if 0 ≤ lead then f.exponentUp else f.exponentDown
    significand ++ mark ++ toString lead.natAbs

namespace Number

/-- Doubles are written positionally while the leading digit stands between the fifth place after
the point and the sixteenth before it; `1.0` keeps its zero, and exponents carry a sign. -/
def doubleFormat : DoubleFormat := ⟨-5, 15, ".0", "e+", "e-"⟩

/-- The text of a double. -/
def doubleText (x : Float) : String :=
  let bits := x.toBits.toNat
  let sign := if bits / Nat.pow 2 63 = 1 then "-" else ""
  let magnitude := Decimal.Binary.ofBits bits
  if magnitude.mantissa = 0 then sign ++ "0.0"
  else sign ++ doubleFormat.layOut (Decimal.shortest magnitude)

/-- The text of a number. -/
def text : Number → String
  | .int n => toString n
  | .double x => doubleText x

end Number

namespace Json

/-! ## Strings -/

/-- The two lower-case hexadecimal digits of a number below 256. -/
def hexPair (n : Nat) : String :=
  String.ofList [Nat.digitChar (n / 16), Nat.digitChar (n % 16)]

/-- How a character stands inside a string. -/
def escapeChar (c : Char) : String :=
  match c with
  | '"' => "\\\""
  | '\\' => "\\\\"
  | '\n' => "\\n"
  | '\r' => "\\r"
  | '\t' => "\\t"
  | '\x08' => "\\b"
  | '\x0c' => "\\f"
  | c => if c.toNat < 0x20 then "\\u00" ++ hexPair c.toNat else c.toString

/-- A string with its quotes. -/
def quote (s : String) : String :=
  "\"" ++ String.join (s.toList.map escapeChar) ++ "\""

/-! ## Values -/

mutual
/-- The text without any blanks. -/
def compact : Json → String
  | .null => "null"
  | .bool b => if b then "true" else "false"
  | .num n => n.text
  | .str s => quote s
  | .arr items => "[" ++ ",".intercalate (compactItems items) ++ "]"
  | .obj entries => "\x7b" ++ ",".intercalate (compactEntries entries) ++ "\x7d"
termination_by structural j => j
/-- The texts of the items. -/
def compactItems : List Json → List String
  | [] => []
  | item :: items => compact item :: compactItems items
termination_by structural items => items
/-- The texts of the entries. -/
def compactEntries : List (String × Json) → List String
  | [] => []
  | entry :: entries => compactEntry entry :: compactEntries entries
termination_by structural entries => entries
/-- The text of one entry. -/
def compactEntry : String × Json → String
  | (key, value) => quote key ++ ":" ++ compact value
termination_by structural entry => entry
end

/-- The line break and the blanks before an item at a nesting level: two per level. -/
def lineBreak (level : Nat) : String :=
  "\n" ++ String.ofList (List.replicate (2 * level) ' ')

/-- Brackets around texts that stand on lines of their own, or directly around nothing. -/
def bracketed (left right : String) (level : Nat) : List String → String
  | [] => left ++ right
  | texts =>
    left ++ lineBreak (level + 1) ++ ("," ++ lineBreak (level + 1)).intercalate texts
      ++ lineBreak level ++ right

mutual
/-- The text with every item and entry on a line of its own, at a nesting level. -/
def indentedAt (level : Nat) : Json → String
  | .null => "null"
  | .bool b => if b then "true" else "false"
  | .num n => n.text
  | .str s => quote s
  | .arr items => bracketed "[" "]" level (indentedItems (level + 1) items)
  | .obj entries => bracketed "\x7b" "\x7d" level (indentedEntries (level + 1) entries)
termination_by structural j => j
/-- The texts of the items. -/
def indentedItems (level : Nat) : List Json → List String
  | [] => []
  | item :: items => indentedAt level item :: indentedItems level items
termination_by structural items => items
/-- The texts of the entries. -/
def indentedEntries (level : Nat) : List (String × Json) → List String
  | [] => []
  | entry :: entries => indentedEntry level entry :: indentedEntries level entries
termination_by structural entries => entries
/-- The text of one entry. -/
def indentedEntry (level : Nat) : String × Json → String
  | (key, value) => quote key ++ ": " ++ indentedAt level value
termination_by structural entry => entry
end

/-- The text with two blanks of indentation per level. -/
def indented (j : Json) : String := indentedAt 0 j

end Json

end DocAtlas
