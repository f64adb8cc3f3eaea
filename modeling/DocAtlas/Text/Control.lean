/-!
Texts without what steers a terminal.

A terminal takes some characters as commands: single control characters, and sequences that a
control character opens. `withoutControls` leaves both out of a text and keeps the rest, line breaks
and tabs included.

A sequence is followed by its `Phase`, what the terminal is waiting for. While characters are left
out, each is taken in the phase that the ones before it led to. While characters are kept, each is
taken as if no sequence were open; so blank space inside a sequence is kept and ends it for the text
that follows, up to the next control character.
-/

set_option autoImplicit false

namespace DocAtlas.Text

/-- What a terminal is waiting for. -/
inductive Phase where
  /-- No sequence is open. -/
  | ground
  /-- A sequence is open, and its kind comes next. -/
  | escape
  /-- The last character of a short sequence. -/
  | escapeEnd
  /-- The first parameter of a sequence of parameters. -/
  | parametersStart
  /-- More parameters. -/
  | parameters
  /-- The end of the parameters, whose shape is settled. -/
  | parametersEnd
  /-- The end of parameters that make no sense. -/
  | parametersWrong
  /-- The first parameter of a device string. -/
  | deviceStart
  /-- More parameters of a device string. -/
  | deviceParameters
  /-- The end of the parameters of a device string, whose shape is settled. -/
  | deviceEnd
  /-- The end of a device string or of a string without a use. -/
  | string
  /-- The end of a command to the system, which a bell ends as well. -/
  | command
  deriving DecidableEq, Repr

/-- Whether a character is blank space that is kept: a tab, a line break, a form feed or a blank. -/
def isSpacing (c : Char) : Bool :=
  c = ' ' || c = '\t' || c = '\n' || c = '\r' || c = '\x0c'

/-- Whether a character is kept where no sequence is open. -/
def isKept (c : Char) : Bool := isSpacing c || (0x20 < c.toNat && c.toNat ≠ 0x7f)

namespace Phase

/-- Whether blank space is kept in a phase. Strings take it as a part of themselves, and a plain
blank means something in all sequences. -/
def keeps (phase : Phase) (c : Char) : Bool :=
  match phase with
  | .ground => isKept c
  | .deviceStart => false
  | .deviceParameters => false
  | .deviceEnd => false
  | .string => false
  | .command => false
  | _ => isSpacing c && c ≠ ' '

/-- Whether the closing control of eight bits is among the bytes after the first in the encoding of
a character. -/
def endsString (c : Char) : Bool := ((String.utf8EncodeChar c).drop 1).contains 0x9c

/-- The phase after a character beyond ASCII that is left out, which can only be the end of a
string. -/
def afterWide (phase : Phase) (c : Char) : Phase :=
  if phase = .string && endsString c then .ground else phase

/-- The phase after a character among parameters: `settled` after a mark below the digits, `wrong`
after one above them, and `last` after a letter. -/
def afterParameter (phase wrong settled last : Phase) (n : Nat) : Phase :=
  if 0x20 ≤ n && n ≤ 0x2f then settled
  else if 0x3c ≤ n && n ≤ 0x3f then wrong
  else if 0x40 ≤ n && n ≤ 0x7e then last
  else phase

/-- The phase after an ASCII character that is left out. -/
def after (phase : Phase) (c : Char) : Phase :=
  let n := c.toNat
  if n = 0x18 || n = 0x1a then .ground
  else if n = 0x1b then .escape
  else
    match phase with
    | .ground => .ground
    | .escape =>
      if c = '[' then .parametersStart
      else if c = ']' then .command
      else if c = 'P' then .deviceStart
      else if c = 'X' || c = '^' || c = '_' then .string
      else if 0x20 ≤ n && n ≤ 0x2f then .escapeEnd
      else if 0x30 ≤ n && n ≤ 0x7e then .ground
      else .escape
    | .escapeEnd => if 0x30 ≤ n && n ≤ 0x7e then .ground else .escapeEnd
    | .parametersStart =>
      if 0x30 ≤ n && n ≤ 0x3f then .parameters
      else afterParameter .parametersStart .parameters .parametersEnd .ground n
    | .parameters => afterParameter .parameters .parametersWrong .parametersEnd .ground n
    | .parametersEnd =>
      if 0x30 ≤ n && n ≤ 0x3f then .parametersWrong
      else if 0x40 ≤ n && n ≤ 0x7e then .ground
      else .parametersEnd
    | .parametersWrong => if 0x40 ≤ n && n ≤ 0x7e then .ground else .parametersWrong
    | .deviceStart =>
      if 0x30 ≤ n && n ≤ 0x3f then .deviceParameters
      else afterParameter .deviceStart .deviceParameters .deviceEnd .string n
    | .deviceParameters => afterParameter .deviceParameters .string .deviceEnd .string n
    | .deviceEnd => if 0x30 ≤ n && n ≤ 0x7e then .string else .deviceEnd
    | .string => .string
    | .command => if n = 0x07 then .ground else .command

end Phase

/-- The characters of a text that are kept, from a phase on; `keeping` tells whether the character
before was kept. -/
def keepFrom (phase : Phase) (keeping : Bool) : List Char → List Char
  | [] => []
  | c :: rest =>
    if 0x80 ≤ c.toNat then
      if keeping || phase = .ground then c :: keepFrom .ground true rest
      else keepFrom (phase.afterWide c) false rest
    else if (keeping && isKept c) || phase.keeps c then c :: keepFrom phase true rest
    else keepFrom (phase.after c) false rest

/-- A text without control characters and control sequences. -/
def withoutControls (text : String) : String := String.ofList (keepFrom .ground false text.toList)

end DocAtlas.Text
