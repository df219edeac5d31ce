/-!
# Files

A tree of files to read from, looked at from one of its directories, and the rules by which a path
finds a file in it. A path is followed name by name. A name needs a directory to be looked up in;
`.` is the directory itself and `..` the one above. Above the top of the tree there is nothing but
further directories.

A file is read whole, or a `ReadFailure` says why not.
-/

namespace Challenger1P

inductive ReadFailure where
  | notFound
  | notDirectory
  | isDirectory
  | nameTooLong
  /-- The name holds a character that no file name can. -/
  | nulInName
  /-- A shelf of images has none of this name. -/
  | notOnShelf
  /-- Anything else that went wrong. -/
  | other (reason : String)
  deriving DecidableEq, Repr

def ReadFailure.message : ReadFailure → String
  | .notFound => "No such file or directory (os error 2)"
  | .notDirectory => "Not a directory (os error 20)"
  | .isDirectory => "Is a directory (os error 21)"
  | .nameTooLong => "File name too long (os error 36)"
  | .nulInName => "file name contained an unexpected NUL byte"
  | .notOnShelf => "no such ROM"
  | .other reason => reason

abbrev FileReader := String → Except ReadFailure (List UInt8)

/-- The path to a name seen from a directory. A name that begins at the root stands for itself. -/
def joinPath (directory name : String) : String :=
  if name.startsWith "/" || directory.isEmpty || directory.endsWith "/" then
    if name.startsWith "/" then name else directory ++ name
  else directory ++ "/" ++ name

/-- Files and directories by the names that lead to them. The directories on the way to a file are
there without being listed. -/
structure FileTree where
  files : List (List String × List UInt8) := []
  directories : List (List String) := []

namespace FileTree

/-- Where a path has led so far: along these names from the top, or above it. -/
inductive Place where
  | inside (names : List String)
  | above

def hasDirectory (t : FileTree) (names : List String) : Bool :=
  names.isEmpty || t.directories.any names.isPrefixOf ||
    t.files.any fun (file, _) => names.isPrefixOf file && names != file

def file? (t : FileTree) (names : List String) : Option (List UInt8) := t.files.lookup names

/-- The place of a path's parts, looked at from the top. Used for the paths of a tree itself. -/
def normalNames (path : String) : List String :=
  ((path.splitOn "/").foldl (fun names part =>
    if part = "" ∨ part = "." then names
    else if part = ".." then names.tail
    else part :: names) []).reverse

/-- Put a file into the tree; a path that ends in a slash makes a directory. -/
def add (t : FileTree) (path : String) (contents : List UInt8) : FileTree :=
  if path.endsWith "/" then { t with directories := normalNames path :: t.directories }
  else { t with files := (normalNames path, contents) :: t.files }

/-- The longest name that a directory can hold, in bytes. -/
def longestName : Nat := 255

/-- The shortest path that is too long, in bytes. -/
def pathLimit : Nat := 4096

/-- Look up one name at a place. -/
def enter (t : FileTree) (place : Place) (name : String) : Except ReadFailure Place :=
  match place with
  | .above =>
    if name = "" ∨ name = "." ∨ name = ".." then .ok .above
    else if longestName < name.utf8ByteSize then .error .nameTooLong
    else .error .notFound
  | .inside names =>
    if !t.hasDirectory names then .error .notDirectory
    else if name = "" ∨ name = "." then .ok (.inside names)
    else if name = ".." then
      .ok (if names.isEmpty then .above else .inside names.dropLast)
    else if longestName < name.utf8ByteSize then .error .nameTooLong
    else
      let found := names ++ [name]
      if t.hasDirectory found || (t.file? found).isSome then .ok (.inside found)
      else .error .notFound

def follow (t : FileTree) : Place → List String → Except ReadFailure Place
  | place, [] => .ok place
  | place, name :: rest => do t.follow (← t.enter place name) rest

def read (t : FileTree) : FileReader := fun path =>
  if path.any (· = '\x00') then .error .nulInName
  else if path.isEmpty then .error .notFound
  else if pathLimit ≤ path.utf8ByteSize then .error .nameTooLong
  else do
    let start := if path.startsWith "/" then .above else .inside []
    match ← t.follow start (path.splitOn "/") with
    | .above => .error .isDirectory
    | .inside names =>
      match t.file? names with
      | some contents => .ok contents
      | none => .error .isDirectory

end FileTree

end Challenger1P
