import PhpAudit.Files.Text

/-!
# What files declare

The namespace, the class and the imports of a file, told from its text alone, and a line without
its comment. Nothing here knows of strings or comments around a word: the first place that looks
like a declaration is taken for one.
-/

namespace PhpAudit.Files

/-- The rest of a text behind a word. -/
def afterText? : List Char → List Char → Option (List Char)
  | [], text => some text
  | c :: word, d :: text => if c = d then afterText? word text else none
  | _ :: _, [] => none

/-- What can be read behind the first occurrence of a word behind which it can be read at all. -/
def firstAfter? {α : Type} (word : List Char) (read : List Char → Option α) :
    List Char → Option α
  | [] => none
  | c :: rest =>
    match (afterText? word (c :: rest)).bind read with
    | some a => some a
    | none => firstAfter? word read rest

/-- A clause and what follows it: at least one blank and one more character, up to the next
semicolon. -/
def clause? (text : List Char) : Option (List Char × List Char) :=
  match text.span (· != ';') with
  | (c :: d :: chars, _ :: rest) =>
    if Text.isBlank c then some (Text.strip (c :: d :: chars), rest) else none
  | _ => none

/-- The word behind at least one blank. -/
def wordAfterBlanks? : List Char → Option (List Char)
  | c :: text =>
    if Text.isBlank c then
      match (Text.stripStart text).takeWhile Text.isWordChar with
      | [] => none
      | word => some word
    else none
  | [] => none

def namespaceIn? (text : List Char) : Option (List Char) :=
  firstAfter? "namespace".toList (fun rest => (clause? rest).map Prod.fst) text

def classIn? (text : List Char) : Option (List Char) :=
  firstAfter? "class".toList wordAfterBlanks? text

/-- The imports of a text, from left to right. -/
def importsIn : Nat → List Char → List (List Char)
  | 0, _ => []
  | _ + 1, [] => []
  | fuel + 1, c :: rest =>
    match (afterText? "use".toList (c :: rest)).bind clause? with
    | some (name, rest) => name :: importsIn fuel rest
    | none => importsIn fuel rest

namespace Tree

def namespace? (tree : Tree) (file : String) : Option (List Char) :=
  (tree.text? file).bind namespaceIn?

def class? (tree : Tree) (file : String) : Option (List Char) := (tree.text? file).bind classIn?

/-- The class that a file declares, with its namespace if it has one. -/
def qualifiedClass? (tree : Tree) (file : String) : Option (List Char) :=
  (tree.class? file).map fun name =>
    match tree.namespace? file with
    | some space => space ++ '\\' :: name
    | none => name

def imports (tree : Tree) (file : String) : List (List Char) :=
  match tree.text? file with
  | some text => importsIn (text.length + 1) text
  | none => []

end Tree

/-! ## Comments -/

/-- A line up to the first mark of a comment. -/
def beforeComment : List Char → List Char
  | [] => []
  | '#' :: _ => []
  | '/' :: '/' :: _ => []
  | c :: rest => c :: beforeComment rest

/-- A text up to its last line, and the last line. A line feed at the end of a text does not start
a line of its own. -/
def lastLine : List Char → List Char × List Char
  | [] => ([], [])
  | c :: rest =>
    match lastLine rest with
    | (before, line) =>
      if c = '\n' && rest != [] then (c :: before, line)
      else if before = [] then ([], c :: line) else (c :: before, line)

/-- A text without the comment at the end of its last line. -/
def withoutComment (text : List Char) : List Char :=
  let (before, line) := lastLine text
  match line.span (· != '\n') with
  | (line, ending) => before ++ beforeComment line ++ ending

end PhpAudit.Files
