import DocAtlas.Command.Run

/-!
The command line.
-/

set_option autoImplicit false

namespace DocAtlas

/-- Why the system refused a file. -/
def FileError.ofSystem : IO.Error → FileError
  | .noFileOrDirectory _ _ _ => .notFound
  | .noSuchThing _ _ _ => .notFound
  | .inappropriateType _ 20 _ => .notDirectory
  | .inappropriateType _ 21 _ => .isDirectory
  | .inappropriateType _ number details => .system details number.toNat
  | .invalidArgument _ 36 _ => .nameTooLong
  | .invalidArgument _ number details => .system details number.toNat
  | .permissionDenied _ number details => .system details number.toNat
  | .resourceExhausted _ number details => .system details number.toNat
  | .otherError number details => .system details number.toNat
  | e => .system (toString e) 0

/-- The files of the disk. -/
def Files.disk : Files IO where
  read name := do
    try
      match String.fromUTF8? (← IO.FS.readBinFile name) with
      | some text => return .ok text
      | none => return .error .notText
    catch e => return .error (.ofSystem e)
  write name text := do
    try
      IO.FS.writeFile name text
      return .ok ()
    catch e => return .error (.ofSystem e)

end DocAtlas

/-- Runs the command line. -/
def main (words : List String) : IO UInt32 := do
  let outcome ← DocAtlas.Command.runLine DocAtlas.Files.disk (← IO.currentDir).toString words
  for message in outcome.errors do
    IO.eprintln message
  IO.print outcome.output
  return outcome.exit.toUInt32
