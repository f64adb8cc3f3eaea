import DocAtlas.Json.Basic

/-!
Reading JSON text.

The reader keeps the arrays and objects that are still open on a list of frames instead of calling
itself, so a document may be nested to any depth. Every step consumes at least one character of the
text, which is why it ends. A fault carries the place where it was noticed: the line, and the number
of bytes of that line up to and including the offending one.

A number without point and exponent that fits in 64 bits is kept as an integer. Any other is taken
as a natural number times a power of ten: the natural number is rounded to a double, and the double
is then multiplied or divided by that power, which is not always the double nearest to the text.
-/

set_option autoImplicit false

namespace DocAtlas

/-! ## Faults -/

/-- What is wrong with a JSON text. -/
inductive SyntaxFault where
  | endInList
  | endInObject
  | endInString
  | endInValue
  | expectedColon
  | expectedListCommaOrEnd
  | expectedObjectCommaOrEnd
  | expectedIdent
  | expectedValue
  | invalidEscape
  | invalidNumber
  | numberOutOfRange
  | controlCharacter
  | keyNotString
  | loneSurrogate
  | surrogateCutShort
  | trailingComma
  | trailingCharacters
  deriving DecidableEq, Repr

/-- The wording of a fault. -/
def SyntaxFault.text : SyntaxFault → String
  | .endInList => "EOF while parsing a list"
  | .endInObject => "EOF while parsing an object"
  | .endInString => "EOF while parsing a string"
  | .endInValue => "EOF while parsing a value"
  | .expectedColon => "expected `:`"
  | .expectedListCommaOrEnd => "expected `,` or `]`"
  | .expectedObjectCommaOrEnd => "expected `,` or `\x7d`"
  | .expectedIdent => "expected ident"
  | .expectedValue => "expected value"
  | .invalidEscape => "invalid escape"
  | .invalidNumber => "invalid number"
  | .numberOutOfRange => "number out of range"
  | .controlCharacter => "control character (\\u0000-\\u001F) found while parsing a string"
  | .keyNotString => "key must be a string"
  | .loneSurrogate => "lone leading surrogate in hex escape"
  | .surrogateCutShort => "unexpected end of hex escape"
  | .trailingComma => "trailing comma"
  | .trailingCharacters => "trailing characters"

/-- A place in a text: the line, from one, and the bytes of it that lie before the place. -/
structure Position where
  line : Nat
  column : Nat
  deriving DecidableEq, Repr

/-- A fault and where it was noticed. -/
structure SyntaxError where
  fault : SyntaxFault
  position : Position
  deriving DecidableEq, Repr

/-- The wording of a fault with its place. -/
def SyntaxError.message (e : SyntaxError) : String :=
  e.fault.text ++ " at line " ++ toString e.position.line ++ " column "
    ++ toString e.position.column

/-! ## Cursors -/

/-- The place behind a character that takes this many bytes. -/
def Position.behind (p : Position) (c : Char) (bytes : Nat) : Position :=
  if c = '\n' then ⟨p.line + 1, 0⟩ else ⟨p.line, p.column + bytes⟩

/-- The rest of a text and its place. -/
structure Cursor where
  rest : List Char
  position : Position

namespace Cursor

/-- The cursor at the start of a text. -/
def start (text : String) : Cursor := ⟨text.toList, ⟨1, 0⟩⟩

/-- The cursor behind a character; `rest` is what follows it. -/
def behind (cur : Cursor) (c : Char) (rest : List Char) : Cursor :=
  ⟨rest, cur.position.behind c c.utf8Size⟩

/-- The place behind the first byte of the rest. -/
def peekPosition (cur : Cursor) : Position :=
  match cur.rest with
  | [] => cur.position
  | c :: _ => cur.position.behind c 1

/-- A fault at the place that has been reached. -/
def fail {α : Type} (cur : Cursor) (fault : SyntaxFault) : Except SyntaxError α :=
  .error ⟨fault, cur.position⟩

/-- A fault in the byte that comes next. -/
def failNext {α : Type} (cur : Cursor) (fault : SyntaxFault) : Except SyntaxError α :=
  .error ⟨fault, cur.peekPosition⟩

/-- The cursor behind blanks. -/
def skipBlanks (cur : Cursor) : Cursor := go cur.rest cur.position
where
  /-- Goes on while the text starts with a blank. -/
  go : List Char → Position → Cursor
    | [], p => ⟨[], p⟩
    | c :: rest, p =>
      if c = ' ' || c = '\n' || c = '\t' || c = '\r' then go rest (p.behind c 1) else ⟨c :: rest, p⟩

/-- Going on over blanks never lengthens what is left. -/
theorem skipBlanks_go_length (rest : List Char) (p : Position) :
    (skipBlanks.go rest p).rest.length ≤ rest.length := by
  induction rest generalizing p with
  | nil => simp [skipBlanks.go]
  | cons c rest ih =>
    simp only [skipBlanks.go]
    split
    · exact Nat.le_succ_of_le (ih _)
    · exact Nat.le_refl _

/-- Blanks never lengthen what is left. -/
theorem skipBlanks_length (cur : Cursor) : cur.skipBlanks.rest.length ≤ cur.rest.length :=
  skipBlanks_go_length _ _

end Cursor

/-- What a scanner returns: a value, and the cursor behind it, which is further on. -/
structure Scanned (α : Type) (before : Cursor) where
  value : α
  cursor : Cursor
  shorter : cursor.rest.length < before.rest.length

/-! ## Fixed words -/

/-- The cursor behind the characters of a fixed word. -/
def scanWord : (word : List Char) → (cur : Cursor) →
    Except SyntaxError { c : Cursor // c.rest.length ≤ cur.rest.length }
  | [], cur => .ok ⟨cur, Nat.le_refl _⟩
  | w :: word, cur =>
    match h : cur.rest with
    | [] => cur.fail .endInValue
    | c :: rest =>
      if c = w then
        match scanWord word (cur.behind c rest) with
        | .error e => .error e
        | .ok ⟨after, le⟩ => .ok ⟨after, by
            have : (cur.behind c rest).rest = rest := rfl
            rw [this] at le
            simp only [List.length_cons]
            omega⟩
      else cur.failNext .expectedIdent

/-! ## Strings -/

/-- The value of a hexadecimal digit. -/
def hexValue? (c : Char) : Option Nat :=
  if '0' ≤ c && c ≤ '9' then some (c.toNat - 48)
  else if 'a' ≤ c && c ≤ 'f' then some (c.toNat - 87)
  else if 'A' ≤ c && c ≤ 'F' then some (c.toNat - 55)
  else none

/-- The place behind some bytes, which may end inside a character. -/
def Position.behindBytes (p : Position) (bytes : List UInt8) : Position :=
  bytes.foldl (fun p b => if b = 10 then ⟨p.line + 1, 0⟩ else ⟨p.line, p.column + 1⟩) p

/-- The number that four hexadecimal digits stand for. A text with fewer than four bytes left ends
the string too early. -/
def scanHex (cur : Cursor) : Except SyntaxError (Scanned Nat cur) :=
  let bytes := (cur.rest.take 4).flatMap String.utf8EncodeChar
  if bytes.length < 4 then .error ⟨.endInString, cur.position.behindBytes bytes⟩
  else
    match h : cur.rest with
    | a :: b :: c :: d :: rest =>
      match hexValue? a, hexValue? b, hexValue? c, hexValue? d with
      | some a, some b, some c, some d =>
        .ok ⟨((a * 16 + b) * 16 + c) * 16 + d,
          ⟨rest, ⟨cur.position.line, cur.position.column + 4⟩⟩, by
            rw [h]; simp only [List.length_cons]; omega⟩
      | _, _, _, _ => .error ⟨.invalidEscape, cur.position.behindBytes (bytes.take 4)⟩
    | _ => .error ⟨.invalidEscape, cur.position.behindBytes (bytes.take 4)⟩

/-- The cursor behind a character that the second half of a pair must begin with. -/
def scanPairMark (mark : Char) (cur : Cursor) :
    Except SyntaxError { c : Cursor // c.rest.length < cur.rest.length } :=
  match cur.rest with
  | [] => cur.fail .endInString
  | c :: rest =>
    if c = mark then .ok ⟨cur.behind c rest, Nat.lt_succ_self _⟩
    else cur.failNext .surrogateCutShort

/-- The character behind `\u`: one code unit, or a pair of them. -/
def scanUnicode (cur : Cursor) : Except SyntaxError (Scanned Char cur) :=
  match scanHex cur with
  | .error e => .error e
  | .ok ⟨unit, after, lt⟩ =>
    if 0xDC00 ≤ unit && unit ≤ 0xDFFF then after.fail .loneSurrogate
    else if unit < 0xD800 || 0xDBFF < unit then .ok ⟨Char.ofNat unit, after, lt⟩
    else
      match scanPairMark '\\' after with
      | .error e => .error e
      | .ok ⟨after₁, lt₁⟩ =>
        match scanPairMark 'u' after₁ with
        | .error e => .error e
        | .ok ⟨after₂, lt₂⟩ =>
          match scanHex after₂ with
          | .error e => .error e
          | .ok ⟨low, after₃, lt₃⟩ =>
            if low < 0xDC00 || 0xDFFF < low then after₃.fail .loneSurrogate
            else .ok
              ⟨Char.ofNat ((unit - 0xD800) * 0x400 + (low - 0xDC00) + 0x10000), after₃, by omega⟩

/-- The character behind a backslash. -/
def scanEscape (cur : Cursor) : Except SyntaxError (Scanned Char cur) :=
  match h : cur.rest with
  | [] => cur.fail .endInString
  | c :: rest =>
    let after := cur.behind c rest
    have lt : after.rest.length < cur.rest.length := by rw [h]; exact Nat.lt_succ_self _
    match c with
    | '"' => .ok ⟨'"', after, lt⟩
    | '\\' => .ok ⟨'\\', after, lt⟩
    | '/' => .ok ⟨'/', after, lt⟩
    | 'b' => .ok ⟨'\x08', after, lt⟩
    | 'f' => .ok ⟨'\x0c', after, lt⟩
    | 'n' => .ok ⟨'\n', after, lt⟩
    | 'r' => .ok ⟨'\r', after, lt⟩
    | 't' => .ok ⟨'\t', after, lt⟩
    | 'u' =>
      match scanUnicode after with
      | .error e => .error e
      | .ok ⟨value, after', lt'⟩ => .ok ⟨value, after', Nat.lt_trans lt' lt⟩
    | _ => .error ⟨.invalidEscape, cur.peekPosition⟩

/-- The rest of a string whose opening quote has been read. -/
def scanString (before : Cursor) : Except SyntaxError (Scanned String before) :=
  go [] before (Nat.le_refl _)
where
  /-- Goes on with the characters read so far, the last one first. -/
  go (read : List Char) (cur : Cursor) (le : cur.rest.length ≤ before.rest.length) :
      Except SyntaxError (Scanned String before) :=
    match h : cur.rest with
    | [] => cur.fail .endInString
    | c :: rest =>
      let after := cur.behind c rest
      have lt : after.rest.length < cur.rest.length := by rw [h]; exact Nat.lt_succ_self _
      if c = '"' then .ok ⟨String.ofList read.reverse, after, by omega⟩
      else if c = '\\' then
        match scanEscape after with
        | .error e => .error e
        | .ok ⟨value, after', lt'⟩ => go (value :: read) after' (by omega)
      else if c.toNat < 0x20 then after.fail .controlCharacter
      else go (c :: read) after (by omega)
  termination_by cur.rest.length

/-! ## Numbers -/

/-- The value of a decimal digit. -/
def digitValue? (c : Char) : Option Nat :=
  if '0' ≤ c && c ≤ '9' then some (c.toNat - 48) else none

/-- The run of digits at a cursor, and the cursor behind it. -/
def takeDigits (cur : Cursor) : List Nat × Cursor := go [] cur.rest cur.position.column
where
  /-- Goes on with the digits read so far, the last one first. -/
  go (read : List Nat) : List Char → Nat → List Nat × Cursor
    | [], column => (read.reverse, ⟨[], ⟨cur.position.line, column⟩⟩)
    | c :: rest, column =>
      match digitValue? c with
      | some d => go (d :: read) rest (column + 1)
      | none => (read.reverse, ⟨c :: rest, ⟨cur.position.line, column⟩⟩)

/-- What is left gets shorter by the digits that are read. -/
theorem takeDigits_go_length (cur : Cursor) (read : List Nat) (rest : List Char) (column : Nat) :
    (takeDigits.go cur read rest column).2.rest.length
      + (takeDigits.go cur read rest column).1.length
      = rest.length + read.length := by
  induction rest generalizing read column with
  | nil => simp [takeDigits.go]
  | cons c rest ih =>
    simp only [takeDigits.go]
    split
    · rw [ih]; simp only [List.length_cons]; omega
    · simp

/-- Each digit of the run is one character. -/
theorem takeDigits_length (cur : Cursor) :
    (takeDigits cur).2.rest.length + (takeDigits cur).1.length = cur.rest.length := by
  simpa [takeDigits] using takeDigits_go_length cur [] cur.rest cur.position.column

/-- The leading digits of a number as a natural number below `2^64`, and the power of ten that is
still to be applied. It is `full` once a digit would have taken it to `2^64` or beyond. -/
structure Significand where
  value : Nat
  scale : Int
  full : Bool

namespace Significand

/-- Takes in a digit before the point. A digit that finds no room multiplies by ten. -/
def takeWhole (s : Significand) (d : Nat) : Significand :=
  if s.full then { s with scale := s.scale + 1 }
  else if s.value * 10 + d < UInt64.size then { s with value := s.value * 10 + d }
  else { s with scale := s.scale + 1, full := true }

/-- Takes in a digit behind the point. A digit that finds no room is dropped. -/
def takeFraction (s : Significand) (d : Nat) : Significand :=
  if s.full then s
  else if s.value * 10 + d < UInt64.size
    then { s with value := s.value * 10 + d, scale := s.scale - 1 }
  else { s with full := true }

end Significand

/-- A double times a power of ten, in steps of at most `10^308`; `none` when it leaves the range of
doubles. -/
def scaleDouble (f : Float) (e : Int) : Option Float :=
  if e.natAbs ≤ 308 then
    let power := Float.ofScientific 1 false e.natAbs
    if 0 ≤ e then (let g := f * power; if g.isInf then none else some g) else some (f / power)
  else if f == 0 then some f
  else if 0 ≤ e then none
  else scaleDouble (f / Float.ofScientific 1 false 308) (e + 308)
termination_by e.natAbs
decreasing_by omega

/-- The double for a significand and a further power of ten, with its sign. -/
def Significand.toNumber? (s : Significand) (negative : Bool) (e : Int) : Option Number :=
  (scaleDouble (UInt64.ofNat s.value).toFloat (s.scale + e)).map fun f =>
    .double (if negative then -f else f)

/-- The number of digits after which the exponent no longer fits in 32 bits, if that happens. -/
def exponentOverflow? (digits : List Nat) : Option Nat :=
  (List.range digits.length).find? (fun n =>
    (digits.take (n + 1)).foldl (fun acc d => acc * 10 + d) 0 ≥ Nat.pow 2 31)
  |>.map (· + 1)

/-- Passes over the sign of an exponent; whether it points up, and the cursor behind it. -/
def takeSign (cur : Cursor) : Bool × Cursor :=
  match cur.rest with
  | '+' :: rest => (true, cur.behind '+' rest)
  | '-' :: rest => (false, cur.behind '-' rest)
  | _ => (true, cur)

/-- A sign never lengthens what is left. -/
theorem takeSign_length (cur : Cursor) : (takeSign cur).2.rest.length ≤ cur.rest.length := by
  unfold takeSign
  split <;> simp_all [Cursor.behind]

/-- Ends a number at a cursor, if the double is in range. -/
def finishDouble (before : Cursor) (negative : Bool) (s : Significand) (e : Int) (cur : Cursor)
    (lt : cur.rest.length < before.rest.length) : Except SyntaxError (Scanned Number before) :=
  match s.toNumber? negative e with
  | some n => .ok ⟨n, cur, lt⟩
  | none => cur.fail .numberOutOfRange

/-- Goes on behind the exponent mark of a number. An exponent that is too large for 32 bits is an
error when it points up and the digits are not all zero, and makes the number zero otherwise. -/
def scanExponent (before : Cursor) (negative : Bool) (s : Significand) (mark : Cursor)
    (lt : mark.rest.length < before.rest.length) : Except SyntaxError (Scanned Number before) :=
  let up := (takeSign mark).1
  let cur := (takeSign mark).2
  if cur.rest.isEmpty then cur.fail .endInValue
  else
    match takeDigits cur with
    | ([], _) => cur.failNext .invalidNumber
    | (digits, _) =>
      have le : (takeDigits cur).2.rest.length < before.rest.length := by
        have h₁ := takeDigits_length cur
        have h₂ : cur.rest.length ≤ mark.rest.length := takeSign_length mark
        omega
      match exponentOverflow? digits with
      | some n =>
        if s.value ≠ 0 && up then
          .error ⟨.numberOutOfRange, ⟨cur.position.line, cur.position.column + n⟩⟩
        else .ok ⟨.double (if negative then -0.0 else 0.0), (takeDigits cur).2, le⟩
      | none =>
        let e : Nat := digits.foldl (fun acc d => acc * 10 + d) 0
        finishDouble before negative s (if up then e else -e) (takeDigits cur).2 le

/-- Goes on behind the digits of a number that has a point or an exponent: reads the exponent, if
there is one, and ends the number. -/
def scanScale (before : Cursor) (negative : Bool) (s : Significand) (cur : Cursor)
    (lt : cur.rest.length < before.rest.length) : Except SyntaxError (Scanned Number before) :=
  match h : cur.rest with
  | c :: rest =>
    if c = 'e' || c = 'E' then
      scanExponent before negative s (cur.behind c rest) (by
        have : (cur.behind c rest).rest = rest := rfl
        rw [this]; rw [h, List.length_cons] at lt; omega)
    else finishDouble before negative s 0 cur lt
  | [] => finishDouble before negative s 0 cur lt

/-- Goes on behind the point of a number. -/
def scanFraction (before : Cursor) (negative : Bool) (s : Significand) (cur : Cursor)
    (lt : cur.rest.length < before.rest.length) : Except SyntaxError (Scanned Number before) :=
  match takeDigits cur with
  | ([], _) => if cur.rest.isEmpty then cur.failNext .endInValue else cur.failNext .invalidNumber
  | (digits, _) =>
    scanScale before negative (digits.foldl Significand.takeFraction { s with full := false })
      (takeDigits cur).2 (by have := takeDigits_length cur; omega)

/-- The number of a text without point and exponent. A negative zero, and what does not fit in 64
bits, is a double. -/
def Significand.wholeNumber? (s : Significand) (negative : Bool) : Option Number :=
  if s.full then s.toNumber? negative 0
  else if negative && (s.value = 0 || Nat.pow 2 63 < s.value) then s.toNumber? negative 0
  else some (.int (if negative then -s.value else s.value))

/-- A number whose minus sign, if it has one, has been read. -/
def scanNumber (negative : Bool) (before : Cursor) : Except SyntaxError (Scanned Number before) :=
  if before.rest.isEmpty then before.fail .endInValue
  else
    match hd : takeDigits before with
    | ([], _) => before.failNext .invalidNumber
    | (0 :: _ :: _, _) =>
      .error ⟨.invalidNumber, ⟨before.position.line, before.position.column + 2⟩⟩
    | (d :: ds, cur) =>
      have lt : cur.rest.length < before.rest.length := by
        have := takeDigits_length before
        rw [hd] at this
        simp only [List.length_cons] at this
        omega
      let s := (d :: ds).foldl Significand.takeWhole ⟨0, 0, false⟩
      match h : cur.rest with
      | c :: rest =>
        if c = '.' then
          scanFraction before negative s (cur.behind c rest) (by
            have : (cur.behind c rest).rest = rest := rfl
            rw [this]; rw [h, List.length_cons] at lt; omega)
        else if c = 'e' || c = 'E' then scanScale before negative s cur lt
        else whole s cur lt
      | [] => whole s cur lt
where
  /-- Ends a number that has neither point nor exponent. -/
  whole (s : Significand) (cur : Cursor) (lt : cur.rest.length < before.rest.length) :
      Except SyntaxError (Scanned Number before) :=
    match s.wholeNumber? negative with
    | some n => .ok ⟨n, cur, lt⟩
    | none => cur.fail .numberOutOfRange

/-! ## Values -/

/-- An array or object that is still open: the items or entries read so far, the last one first, and
for an object the key whose value comes next. -/
inductive Frame where
  | list (items : List Json)
  | object (entries : List (String × Json)) (key : String)

/-- A key with its colon, from the key's opening quote on. -/
def scanKey (before : Cursor) : Except SyntaxError (Scanned String before) :=
  match h : before.rest with
  | [] => before.failNext .endInValue
  | c :: rest =>
    if c ≠ '"' then before.failNext .keyNotString
    else
      match scanString (before.behind c rest) with
      | .error e => .error e
      | .ok ⟨key, after, lt⟩ =>
        let cur := after.skipBlanks
        have le : cur.rest.length ≤ after.rest.length := after.skipBlanks_length
        match hc : cur.rest with
        | [] => cur.failNext .endInObject
        | c' :: rest' =>
          if c' = ':' then .ok ⟨key, cur.behind c' rest', by
            have h₁ : (cur.behind c' rest').rest = rest' := rfl
            have h₂ : (before.behind c rest).rest = rest := rfl
            rw [h₁, h]
            rw [hc] at le
            rw [h₂] at lt
            simp only [List.length_cons] at le ⊢
            omega⟩
          else cur.failNext .expectedColon

/-- A value without parts, at its first character. -/
def scanScalar (before : Cursor) : Except SyntaxError (Scanned Json before) :=
  match h : before.rest with
  | [] => before.failNext .endInValue
  | c :: rest =>
    let after := before.behind c rest
    have lt : after.rest.length < before.rest.length := by rw [h]; exact Nat.lt_succ_self _
    let word (letters : String) (value : Json) : Except SyntaxError (Scanned Json before) :=
      match scanWord letters.toList after with
      | .error e => .error e
      | .ok ⟨last, le⟩ => .ok ⟨value, last, by omega⟩
    if c = 'n' then word "ull" .null
    else if c = 't' then word "rue" (.bool true)
    else if c = 'f' then word "alse" (.bool false)
    else if c = '"' then
      match scanString after with
      | .error e => .error e
      | .ok ⟨text, last, lt'⟩ => .ok ⟨.str text, last, by omega⟩
    else if c = '-' then
      match scanNumber true after with
      | .error e => .error e
      | .ok ⟨n, last, lt'⟩ => .ok ⟨.num n, last, by omega⟩
    else if (digitValue? c).isSome then
      match scanNumber false before with
      | .error e => .error e
      | .ok ⟨n, last, lt'⟩ => .ok ⟨.num n, last, lt'⟩
    else before.failNext .expectedValue

mutual
/-- Reads the value that comes next inside the open frames, and then the rest of the text. -/
def readValue (frames : List Frame) (cur : Cursor) : Except SyntaxError Json :=
  let here := cur.skipBlanks
  have here_le : here.rest.length ≤ cur.rest.length := cur.skipBlanks_length
  match h : here.rest with
  | '[' :: rest =>
    let first := (here.behind '[' rest).skipBlanks
    have lt : first.rest.length < cur.rest.length := by
      have h₁ : first.rest.length ≤ rest.length := (here.behind '[' rest).skipBlanks_length
      rw [h, List.length_cons] at here_le
      omega
    match hf : first.rest with
    | [] => first.failNext .endInList
    | c :: rest' =>
      if c = ']' then
        have : (first.behind c rest').rest.length < cur.rest.length := by
          have h₁ : (first.behind c rest').rest = rest' := rfl
          rw [hf, List.length_cons] at lt
          rw [h₁]; omega
        finishValue frames (.arr []) (first.behind c rest')
      else readValue (.list [] :: frames) first
  | '\x7b' :: rest =>
    let first := (here.behind '\x7b' rest).skipBlanks
    have lt : first.rest.length < cur.rest.length := by
      have h₁ : first.rest.length ≤ rest.length := (here.behind '\x7b' rest).skipBlanks_length
      rw [h, List.length_cons] at here_le
      omega
    match hf : first.rest with
    | [] => first.failNext .endInObject
    | c :: rest' =>
      if c = '\x7d' then
        have : (first.behind c rest').rest.length < cur.rest.length := by
          have h₁ : (first.behind c rest').rest = rest' := rfl
          rw [hf, List.length_cons] at lt
          rw [h₁]; omega
        finishValue frames (.obj []) (first.behind c rest')
      else
        match scanKey first with
        | .error e => .error e
        | .ok ⟨key, after, lt'⟩ => readValue (.object [] key :: frames) after
  | _ =>
    match scanScalar here with
    | .error e => .error e
    | .ok ⟨value, after, lt⟩ => finishValue frames value after
termination_by cur.rest.length

/-- Hands a finished value to the innermost open frame, and reads the rest of the text. -/
def finishValue (frames : List Frame) (value : Json) (cur : Cursor) : Except SyntaxError Json :=
  let here := cur.skipBlanks
  have here_le : here.rest.length ≤ cur.rest.length := cur.skipBlanks_length
  match frames with
  | [] => if here.rest.isEmpty then .ok value else here.failNext .trailingCharacters
  | .list items :: outer =>
    match h : here.rest with
    | [] => here.failNext .endInList
    | c :: rest =>
      have lt : (here.behind c rest).rest.length < cur.rest.length := by
        have h₁ : (here.behind c rest).rest = rest := rfl
        rw [h, List.length_cons] at here_le
        rw [h₁]; omega
      if c = ']' then finishValue outer (.arr (value :: items).reverse) (here.behind c rest)
      else if c = ',' then
        let next := (here.behind c rest).skipBlanks
        have le : next.rest.length ≤ (here.behind c rest).rest.length :=
          (here.behind c rest).skipBlanks_length
        have next_lt : next.rest.length < cur.rest.length := by omega
        match next.rest with
        | [] => next.failNext .endInValue
        | c' :: _ =>
          if c' = ']' then next.failNext .trailingComma
          else readValue (.list (value :: items) :: outer) next
      else here.failNext .expectedListCommaOrEnd
  | .object entries key :: outer =>
    match h : here.rest with
    | [] => here.failNext .endInObject
    | c :: rest =>
      have lt : (here.behind c rest).rest.length < cur.rest.length := by
        have h₁ : (here.behind c rest).rest = rest := rfl
        rw [h, List.length_cons] at here_le
        rw [h₁]; omega
      if c = '\x7d' then
        finishValue outer (.ofEntries ((key, value) :: entries).reverse) (here.behind c rest)
      else if c = ',' then
        let next := (here.behind c rest).skipBlanks
        have le : next.rest.length ≤ (here.behind c rest).rest.length :=
          (here.behind c rest).skipBlanks_length
        match next.rest with
        | '\x7d' :: _ => next.failNext .trailingComma
        | _ =>
          match scanKey next with
          | .error e => .error e
          | .ok ⟨key', after, lt'⟩ =>
            readValue (.object ((key, value) :: entries) key' :: outer) after
      else here.failNext .expectedObjectCommaOrEnd
termination_by cur.rest.length
end

/-- The value that a text holds. -/
def Json.parse (text : String) : Except SyntaxError Json := readValue [] (Cursor.start text)

end DocAtlas
