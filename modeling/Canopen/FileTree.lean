import Canopen.DictionaryError
/-!
# A tree of files

Files in memory, by path. A directory is there if it is the working directory, stands above it, or
holds a file. A path that does not begin with a slash goes from the working directory.
-/
namespace Canopen

/-- The names along a path, from the top. -/
abbrev Path := List String

/-- Files in memory and the working directory. -/
structure FileTree where
  here : Path
  files : List (Path × List UInt8) := []
  deriving Repr

namespace FileTree

def get? (t : FileTree) (p : Path) : Option (List UInt8) := t.files.lookup p

def isDirectory (t : FileTree) (p : Path) : Bool :=
  p.isPrefixOf t.here || t.files.any fun f => p.isPrefixOf f.1 && p != f.1

/-- The most bytes of a name in a directory. -/
def maxName : Nat := 255

/-- The most bytes of a path. -/
def maxPath : Nat := 4095

/-- Follows names from a directory. Only the last one can be missing or be a file. -/
def follow (t : FileTree) : Path → List String → Except FileFault Path
  | p, [] => .ok p
  | p, name :: rest =>
    if !t.isDirectory p then
      .error (if (t.get? p).isSome then .notDirectory else .notFound)
    else if maxName < name.utf8ByteSize then .error .nameTooLong
    else if name = "" || name = "." then t.follow p rest
    else if name = ".." then t.follow p.dropLast rest
    else t.follow (p ++ [name]) rest

/-- The directory from which a path goes, and the names along it. -/
def route (t : FileTree) (path : String) : Except FileFault (Path × List String) :=
  if path.toList.contains '\x00' then .error .nulInPath
  else if path = "" then .error .notFound
  else if maxPath < path.utf8ByteSize then .error .nameTooLong
  else
    let names := path.splitOn "/"
    .ok (if names.head? = some "" then [] else t.here, names)

def locate (t : FileTree) (path : String) : Except FileFault Path :=
  match t.route path with
  | .error fault => .error fault
  | .ok (start, names) => t.follow start names

def read (t : FileTree) (path : String) : Except FileFault (List UInt8) :=
  match t.locate path with
  | .error fault => .error fault
  | .ok p =>
    if t.isDirectory p then .error .isDirectory
    else
      match t.get? p with
      | some bytes => .ok bytes
      | none => .error .notFound

def put (t : FileTree) (p : Path) (bytes : List UInt8) : FileTree :=
  { t with files := (p, bytes) :: t.files.filter fun f => f.1 != p }

/-- The place of a file to be written. A path that ends in a slash means a directory. -/
def target (t : FileTree) (path : String) : Except FileFault Path :=
  match t.route path with
  | .error fault => .error fault
  | .ok (start, names) =>
    if names.getLast? = some "" then
      let above := (names.reverse.dropWhile (· = "")).drop 1
      match t.follow start (above.reverse ++ ["."]) with
      | .error fault => .error fault
      | .ok _ => .error .isDirectory
    else
      match t.follow start names with
      | .error fault => .error fault
      | .ok p => if t.isDirectory p then .error .isDirectory else .ok p

def write (t : FileTree) (path : String) (bytes : List UInt8) : Except FileFault FileTree :=
  (t.target path).map fun p => t.put p bytes

end FileTree

end Canopen
