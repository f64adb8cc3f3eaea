import DocAtlas.Document.Mismatch
import DocAtlas.Json.Reader

/-!
Why an analysis fails.
-/

set_option autoImplicit false

namespace DocAtlas

/-- Why an analysis fails. -/
inductive Failure where
  | syntaxError (error : SyntaxError)
  | mismatch (mismatches : List Mismatch)
  | unsupported (gap : Gap)
  | lookup (error : LookupError)

/-- The wording of a failure. -/
def Failure.message : Failure → String
  | .syntaxError error => "JSON syntax error: " ++ error.message
  | .mismatch mismatches => Mismatch.textOfAll mismatches
  | .unsupported gap => "Unsupported construct: " ++ gap.text
  | .lookup error => error.message

/-- A computation that tells what happens, and may fail. -/
abbrev Attempt (α : Type) : Type := ExceptT Failure Logged α

namespace Attempt

variable {α : Type}

/-- The result, and the events logged on the way to it. -/
def outcome (x : Attempt α) : Except Failure α × List Event := (x.run.value, x.run.events)

/-- Logs an event. -/
def log (e : Event) : Attempt Unit := ExceptT.lift (Logged.log e)

end Attempt

/-- Reads a document. A document that is not a project is rejected with the places where it is
not. -/
def parseDocument (document : Json) : Attempt Project :=
  match readProject .document document with
  | .ok project => pure project
  | .error bulk => do
    Attempt.log (.documentRejected bulk)
    throw (.mismatch (narrow document bulk))

/-- Reads a document from its text. -/
def parseText (text : String) : Attempt Project :=
  match Json.parse text with
  | .ok document => parseDocument document
  | .error e => throw (.syntaxError e)

end DocAtlas
