import PhpAudit.Files.Path
import PhpAudit.Text.Utf8

/-!
# File trees

The files that can be reached from a working directory. A tree lists its entries with the names that
lead to each: downwards from the working directory, with `..` in front for each directory that is
left upwards, or from the root with a slash in front. The directories on the way to an entry exist
with it. A file may refuse to be read, and still is a file of known size.
-/

namespace PhpAudit.Files

/-- What stands under a path. -/
inductive Entry where
  | file (content : List UInt8) (readable : Bool)
  | directory
deriving DecidableEq, Repr, Inhabited

/-- The entries that can be reached from the working directory. -/
structure Tree where
  entries : List (List String × Entry) := []
deriving DecidableEq, Repr, Inhabited

namespace Tree

/-- The tree with one more entry, in the place of an older one under the same names. -/
def insert (tree : Tree) (names : List String) (entry : Entry) : Tree :=
  ⟨tree.entries.filter (fun old => old.1 != names) ++ [(names, entry)]⟩

/-- Whether some names lead to an entry or to a directory on the way to one. -/
def hasPrefix (tree : Tree) (names : List String) : Bool :=
  names.isEmpty || tree.entries.any fun entry => names.isPrefixOf entry.1

/-- What stands under some names without `..` among them. -/
def lookup? (tree : Tree) (names : List String) : Option Entry :=
  match tree.entries.find? fun entry => entry.1 == names with
  | some entry => some entry.2
  | none => if tree.hasPrefix names then some .directory else none

/-- The names that lead to the directory above another one. Above the root is the root itself. -/
def above (here : List String) : List String :=
  match here.getLast? with
  | none => [".."]
  | some name => if name = ".." then here ++ [".."] else if name = "/" then here else here.dropLast

/-- Follows names from a directory; `..` leads to the directory above. Nothing leads through a
file. -/
def follow (tree : Tree) : List String → List String → Option (List String)
  | here, [] => some here
  | here, name :: rest =>
    match tree.lookup? here with
    | some .directory =>
      if name = ".." then tree.follow (above here) rest else tree.follow (here ++ [name]) rest
    | _ => none

/-- The names that lead to where a path starts: to the root or to the working directory. -/
def start (path : Path) : List String := if path.isAbsolute then ["/"] else []

/-- What stands under a path. -/
def entry? (tree : Tree) (path : Path) : Option Entry :=
  (tree.follow (start path) path.names).bind tree.lookup?

/-- Whether a path leads to a file. -/
def isFile (tree : Tree) (path : Path) : Bool :=
  match tree.entry? path with
  | some (.file ..) => true
  | _ => false

/-- Whether a path leads to a directory. -/
def isDirectory (tree : Tree) (path : Path) : Bool :=
  match tree.entry? path with
  | some .directory => true
  | _ => false

/-- The content of the file that a path leads to, if it can be read. -/
def read? (tree : Tree) (path : Path) : Option (List UInt8) :=
  match tree.entry? path with
  | some (.file content true) => some content
  | _ => none

/-- The size of the file that a path leads to. -/
def size? (tree : Tree) (path : Path) : Option Nat :=
  match tree.entry? path with
  | some (.file content _) => some content.length
  | _ => none

/-- Whether some names lead downwards, neither to a directory above nor to the root. -/
def leadDown (names : List String) : Bool := !names.contains ".." && !names.contains "/"

/-- The names that lead from a directory to the files below it, at any depth. -/
def namesBelow (tree : Tree) (directory : List String) : List (List String) :=
  tree.entries.filterMap fun (names, entry) =>
    match entry with
    | .file .. =>
      let below := names.drop directory.length
      if directory.isPrefixOf names && !below.isEmpty && leadDown below then some below else none
    | .directory => none

/-- Every file below a directory, in the order of the names that lead to it. -/
def filesBelow (tree : Tree) (path : Path) : List Path :=
  match tree.follow (start path) path.names with
  | some directory =>
    ((tree.namesBelow directory).mergeSort namesLE).map fun names =>
      ⟨path.root, path.names ++ names⟩
  | none => []

end Tree

end PhpAudit.Files
