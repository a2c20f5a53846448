import BracketLint.Text.Utf8

/-! Files as the program sees them: a path leads to the bytes of a file, to a directory, to
something that cannot be read, or nowhere. A tree of files answers for each path by walking its
names. -/

namespace BracketLint

inductive FileError where
  | notFound
  | notADirectory
  | isADirectory
  | nameTooLong
  | permissionDenied
  | zeroByte
  | notUtf8
  | other (text : String)
  deriving DecidableEq

def FileError.message : FileError → String
  | notFound => "No such file or directory (os error 2)"
  | notADirectory => "Not a directory (os error 20)"
  | isADirectory => "Is a directory (os error 21)"
  | nameTooLong => "File name too long (os error 36)"
  | permissionDenied => "Permission denied (os error 13)"
  | zeroByte => "file name contained an unexpected NUL byte"
  | notUtf8 => "stream did not contain valid UTF-8"
  | other text => text

inductive Entry where
  | file (bytes : List UInt8)
  | directory
  /-- Something that is there, though an attempt to read it fails. -/
  | unreadable (why : FileError)
  deriving DecidableEq

/-- What each path leads to. -/
abbrev Files := String → Except FileError Entry

namespace Files

/-- Whether there is anything at a path. It need not be readable. -/
def contains (files : Files) (path : String) : Bool := (files path).isOk

/-- The text of a file. -/
def read (files : Files) (path : String) : Except FileError String :=
  match files path with
  | .error e => .error e
  | .ok .directory => .error .isADirectory
  | .ok (.unreadable why) => .error why
  | .ok (.file bytes) =>
    match Utf8.strict? bytes with
    | some text => .ok (String.ofList text)
    | none => .error .notUtf8

end Files

/-- Files by the names on the way to them. Directories are there when they are listed or when
something in them is. -/
structure FileTree where
  files : List (List String × List UInt8)
  directories : List (List String)

namespace FileTree

/-- A place reached while walking: at the end of these names, or outside the tree. -/
inductive Place where
  | inside (names : List String)
  | outside

def entryAt (t : FileTree) (names : List String) : Option Entry :=
  match t.files.lookup names with
  | some bytes => some (.file bytes)
  | none =>
    if names.isEmpty || t.directories.any (names.isPrefixOf ·) ||
        t.files.any (fun f => names.isPrefixOf f.1) then some .directory
    else none

/-- What is at a place. Only a directory is known of what lies outside. -/
def find (t : FileTree) : Place → Except FileError Entry
  | .outside => .ok .directory
  | .inside names =>
    match t.entryAt names with
    | some e => .ok e
    | none => .error .notFound

/-- The longest name that a file may have, in bytes. -/
def longestName : Nat := 255

def longestPath : Nat := 4095

/-- Follow one name from a place, which has to be a directory. -/
def follow (t : FileTree) (p : Place) (name : String) : Except FileError Place :=
  match t.find p with
  | .error e => .error e
  | .ok (.file _) => .error .notADirectory
  | .ok (.unreadable why) => .error why
  | .ok .directory =>
    if name = "" ∨ name = "." then .ok p
    else if longestName < name.utf8ByteSize then .error .nameTooLong
    else match p with
      | .outside => if name = ".." then .ok .outside else .error .notFound
      | .inside names =>
        if name ≠ ".." then .ok (.inside (names ++ [name]))
        else if names.isEmpty then .ok .outside
        else .ok (.inside names.dropLast)

/-- The names in a path, between its slashes. -/
def namesIn (path : String) : List String := (path.toList.splitOn '/').map String.ofList

/-- The place that a path leads to. The tree itself has the absolute path `root`. -/
def resolve (t : FileTree) (root : String) (path : String) : Except FileError Place :=
  if '\x00' ∈ path.toList then .error .zeroByte
  else if path = "" then .error .notFound
  else if longestPath < path.utf8ByteSize then .error .nameTooLong
  else if path = root then .ok (.inside [])
  else if root.toList ++ ['/'] <+: path.toList then
    ((namesIn path).drop (namesIn root).length).foldlM t.follow (.inside [])
  else if ['/'] <+: path.toList then (namesIn path).foldlM t.follow .outside
  else (namesIn path).foldlM t.follow (.inside [])

/-- The files of a tree whose absolute path is `root`. -/
def toFiles (t : FileTree) (root : String) : Files := fun path =>
  match t.resolve root path with
  | .error e => .error e
  | .ok p => t.find p

/-- The names in a path that stay where they are counted out. -/
def namesOf (path : String) : List String :=
  (namesIn path).filter fun name => name ≠ "" ∧ name ≠ "."

end FileTree

end BracketLint
