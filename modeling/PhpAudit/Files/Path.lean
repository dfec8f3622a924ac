/-!
# Paths

A path is a root and the names that lead from it. Doubled and trailing slashes and the name `.` do
not count; the name `..` does, because it depends on the files what it leads to.
-/

namespace PhpAudit.Files

/-- A path. The root is empty for a relative path, and otherwise one slash, or exactly two. -/
structure Path where
  root : String
  names : List String
deriving DecidableEq, Repr, Inhabited

namespace Path

/-- The parts of a text between slashes. -/
def splitSlashes : List Char → List (List Char)
  | [] => [[]]
  | c :: rest =>
    if c = '/' then [] :: splitSlashes rest
    else match splitSlashes rest with
      | first :: more => (c :: first) :: more
      | [] => [[c]]

/-- The root that a text starts with. -/
def rootOf : List Char → String
  | '/' :: '/' :: '/' :: _ => "/"
  | '/' :: '/' :: _ => "//"
  | '/' :: _ => "/"
  | _ => ""

def namesOf (text : List Char) : List String :=
  ((splitSlashes text).filter fun name => name != [] && name != ['.']).map String.ofList

/-- The path that a text writes. -/
def ofString (text : String) : Path := ⟨rootOf text.toList, namesOf text.toList⟩

/-- Whether a path starts at a root. -/
def isAbsolute (path : Path) : Bool := path.root != ""

/-- A path as text; the working directory itself is a dot. -/
def text (path : Path) : String :=
  let names := "/".intercalate path.names
  if path.root.isEmpty && path.names.isEmpty then "." else path.root ++ names

/-- A path taken from a directory: itself if it starts at a root. -/
def join (directory path : Path) : Path :=
  if path.isAbsolute then path else ⟨directory.root, directory.names ++ path.names⟩

/-- The last name of a path. -/
def name (path : Path) : String := path.names.getLast?.getD ""

/-- What follows the last dot of a name, with the dot, unless the dot is the first or the last
character. -/
def suffixOf (name : List Char) : List Char :=
  let behind := name.reverse.takeWhile (· != '.')
  let before := name.length - behind.length
  if behind.isEmpty || before ≤ 1 then [] else '.' :: behind.reverse

/-- The suffix of a path's last name. -/
def suffix (path : Path) : String := String.ofList (suffixOf path.name.toList)

end Path

/-- Whether some items come before others or are equal: the first difference decides, and without
one the shorter list comes first. -/
def itemsLE {α : Type} [DecidableEq α] (le : α → α → Bool) : List α → List α → Bool
  | [], _ => true
  | _ :: _, [] => false
  | a :: as, b :: bs => if a = b then itemsLE le as bs else le a b

/-- Whether a name comes before another or is equal, character by character. -/
def nameLE (a b : String) : Bool :=
  itemsLE (fun c d => decide (c.toNat ≤ d.toNat)) a.toList b.toList

/-- Whether some names come before others or are equal, name by name. -/
def namesLE : List String → List String → Bool := itemsLE nameLE

end PhpAudit.Files
