import EntitySchema.Entries

/-!
A directory of texts and the paths that lead to them. What lies outside of it is not known: there
are directories above it, with nothing else in them.
-/

namespace EntitySchema.Command

inductive ReadFault where
  | missing
  /-- The path leads to a directory. -/
  | isDirectory
  /-- The path goes on behind a file. -/
  | notDirectory
  | nameTooLong
  | unreadable (reason : String)
  deriving DecidableEq, Repr

def ReadFault.message : ReadFault → String
  | .missing => "No such file or directory (os error 2)"
  | .isDirectory => "Is a directory (os error 21)"
  | .notDirectory => "Not a directory (os error 20)"
  | .nameTooLong => "File name too long (os error 36)"
  | .unreadable reason => reason

/-- The texts of files, by their names below the directory with slashes between them. -/
structure Directory where
  files : Entries String := []
  deriving DecidableEq, Repr

namespace Directory

inductive Spot where
  | file (name : String)
  | directory (names : List String)
  | above
  deriving DecidableEq, Repr

def longestName : Nat := 255

def enter (d : Directory) (names : List String) (name : String) : Except ReadFault Spot :=
  let names := names ++ [name]
  let whole := "/".intercalate names
  if d.files.contains whole then .ok (.file whole)
  else if d.files.any fun (other, _) => other.startsWith (whole ++ "/") then .ok (.directory names)
  else .error .missing

def step (d : Directory) : Spot → String → Except ReadFault Spot
  | .file _, _ => .error .notDirectory
  | spot, "" | spot, "." => .ok spot
  | .above, ".." | .directory [], ".." => .ok .above
  | .directory names, ".." => .ok (.directory names.dropLast)
  | spot, name =>
    if name.utf8ByteSize > longestName then .error .nameTooLong
    else
      match spot with
      | .directory names => d.enter names name
      | _ => .error .missing

/-- Follows a path name by name. A path that starts with a slash starts above. -/
def resolve (d : Directory) (path : String) : Except ReadFault Spot :=
  if path.isEmpty then .error .missing
  else
    let start := if path.startsWith "/" then Spot.above else .directory []
    (path.splitOn "/").foldlM d.step start

def read (d : Directory) (path : String) : Except ReadFault String := do
  match ← d.resolve path with
  | .file name => (d.files.get? name).elim (.error .missing) .ok
  | _ => .error .isDirectory

def write (d : Directory) (path text : String) : Directory :=
  match d.resolve path with
  | .ok (.file name) => { files := d.files.put name text }
  | _ => d

end Directory

end EntitySchema.Command
