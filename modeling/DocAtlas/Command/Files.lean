import DocAtlas.Path.FilePath

/-!
Files that commands read and write.

Commands reach files through `Files`, so they run alike against a disk and against a `Folder`, which
holds files by their names.
-/

set_option autoImplicit false

namespace DocAtlas

/-- Why a file cannot be read or written. -/
inductive FileError where
  | notFound
  | notDirectory
  | isDirectory
  | nameTooLong
  | notText
  /-- Any other reason of the system, with its number. -/
  | system (reason : String) (number : Nat)
  deriving DecidableEq, Repr

/-- The wording of a file error. -/
def FileError.message : FileError → String
  | .notFound => "No such file or directory (os error 2)"
  | .notDirectory => "Not a directory (os error 20)"
  | .isDirectory => "Is a directory (os error 21)"
  | .nameTooLong => "File name too long (os error 36)"
  | .notText => "stream did not contain valid UTF-8"
  | .system reason number => reason ++ " (os error " ++ toString number ++ ")"

/-- A way to reach files. -/
structure Files (m : Type → Type) where
  read : String → m (Except FileError String)
  write : String → String → m (Except FileError Unit)

/-! ## Folders -/

/-- A working directory: its files by the parts of their names. Outside of it there are the
directories above it, and the directories and the null device that every system has. -/
structure Folder where
  files : List (List String × String)
  deriving DecidableEq, Repr

namespace Folder

/-- What stands somewhere in a folder. -/
inductive Item where
  | file (text : String)
  | directory
  /-- The device that holds nothing and keeps nothing. -/
  | nullDevice
  | nothing

/-- The directories that every system has at its root. -/
def systemDirectories : List String :=
  ["bin", "dev", "etc", "home", "lib", "opt", "proc", "root", "sbin", "sys", "tmp", "usr", "var"]

/-- Whether there is a directory at a place. The folder and those above it are directories, and so
is what a file is in. -/
def hasDirectory (f : Folder) (place : List String) : Bool :=
  place.all (· == "..") || place == ["/"] || systemDirectories.any (place == ["/", ·])
    || f.files.any (fun file => place.isPrefixOf file.1)

/-- What stands at a place. -/
def itemAt (f : Folder) (place : List String) : Item :=
  match f.files.lookup place with
  | some text => .file text
  | none =>
    if f.hasDirectory place then .directory
    else if place = ["/", "dev", "null"] then .nullDevice
    else .nothing

/-- The place above a place. -/
def above (place : List String) : List String :=
  if place.all (· == "..") then ".." :: place
  else if place = ["/"] then place
  else place.dropLast

/-- The most bytes that a part of a name can have. -/
def partLimit : Nat := 255

/-- The most bytes that a whole name can have. -/
def nameLimit : Nat := 4095

/-- Goes from a place along the parts of a name. Only a directory can be gone on from, and it is
looked at before the part that is sought in it. -/
def walk (f : Folder) (place : List String) : List String → Except FileError (List String)
  | [] => .ok place
  | part :: rest =>
    match f.itemAt place with
    | .file _ => .error .notDirectory
    | .nullDevice => .error .notDirectory
    | .nothing => .error .notFound
    | .directory =>
      if partLimit < part.utf8ByteSize then .error .nameTooLong
      else f.walk
        (if part = "." then place else if part = ".." then above place else place ++ [part]) rest

/-- The parts of a file name. -/
def partsOf (name : String) : List String := (FilePath.parts name).filter (· ≠ "")

/-- Whether a name can only stand for a directory. -/
def endsInSlash (name : String) : Bool := name.toList.getLast? == some '/'

/-- Goes along the parts of a name from where the name starts. -/
def follow (f : Folder) (name : String) (parts : List String) : Except FileError (List String) :=
  if nameLimit < name.utf8ByteSize then .error .nameTooLong
  else f.walk (if FilePath.isAbsolute name then ["/"] else []) parts

/-- The place that a name stands for. -/
def placeOf (f : Folder) (name : String) : Except FileError (List String) :=
  f.follow name (partsOf name)

/-- The place of the directory that a name is in, which has to be there. -/
def directoryOf (f : Folder) (name : String) : Except FileError (List String) :=
  f.follow name ((partsOf name).dropLast ++ ["."])

/-- The text of a file. -/
def read (f : Folder) (name : String) : Except FileError String :=
  match f.placeOf name with
  | .error e => .error e
  | .ok place =>
    match f.itemAt place with
    | .file text => if endsInSlash name then .error .notDirectory else .ok text
    | .nullDevice => if endsInSlash name then .error .notDirectory else .ok ""
    | .directory => .error .isDirectory
    | .nothing => .error .notFound

/-- Puts a text into a file, which need not be there but whose directory must be. A name that ends
in a slash is taken for a directory, whatever stands there. -/
def write (f : Folder) (name text : String) : Except FileError Folder :=
  match if endsInSlash name then f.directoryOf name else f.placeOf name with
  | .error e => .error e
  | .ok place =>
    match f.itemAt place with
    | .directory => .error .isDirectory
    | .nullDevice => .ok f
    | _ => .ok ⟨(place, text) :: f.files.filter (·.1 ≠ place)⟩

/-- The folder of files with these names. -/
def ofFiles (files : List (String × String)) : Folder :=
  ⟨files.map fun (name, text) => (partsOf name, text)⟩

/-- The files of a folder that is carried along. -/
def asFiles : Files (StateM Folder) where
  read name := do return (← get).read name
  write name text := do
    match (← get).write name text with
    | .ok folder =>
      set folder
      return .ok ()
    | .error e => return .error e

end Folder

end DocAtlas
