import PhpAudit.Text.Blank
import PhpAudit.Text.Lines

/-!
# Environment files

A file of assignments, one a line: a name, an equals sign and a value, which may be quoted and then
may run over several lines. A line that is no assignment is dropped, and the lines after it are
read as if it were not there. A value may refer to the environment and to the assignments above it.
-/

namespace PhpAudit.EnvFile

open Text

/-- An assignment. A name without an equals sign has no value. -/
structure Assignment where
  name : List Char
  value : Option (List Char)
deriving DecidableEq, Repr

/-- Takes part of a text and leaves the rest; a failure leaves the text whose first line is to be
dropped. -/
abbrev Reader (α : Type) : Type := List Char → Except (List Char) (α × List Char)

/-- Whether a character is a blank inside a line. -/
def isInnerBlank (c : Char) : Bool := isBlank c && c != '\n'

/-- A text without the blanks at the start of its line. -/
def skipInnerBlanks (text : List Char) : List Char := text.dropWhile isInnerBlank

/-- A text behind the end of its first line. -/
def afterLine (text : List Char) : List Char := (text.dropWhile (· != '\n')).drop 1

/-- A text without the word `export` in front, which means nothing. -/
def withoutExport (text : List Char) : List Char :=
  if "export".toList.isPrefixOf text then
    match text.drop 6 with
    | c :: rest => if isInnerBlank c then skipInnerBlanks rest else text
    | [] => text
  else text

/-- Takes a name, quoted or not. A comment stands in the place of a name. -/
def name : Reader (Option (List Char))
  | '#' :: rest => .ok (none, '#' :: rest)
  | '\'' :: rest =>
    match rest.span (· != '\'') with
    | (c :: chars, _ :: rest) => .ok (some (c :: chars), rest)
    | _ => .error ('\'' :: rest)
  | text =>
    match text.span fun c => !(c == '=' || c == '#' || isBlank c) with
    | ([], _) => .error text
    | (chars, rest) => .ok (some chars, rest)

/-! ## Values -/

/-- Takes a text up to the first quote without a backslash in front. -/
def upToBareQuote (quote : Char) : List Char → Option (List Char × List Char)
  | [] => none
  | [c] => if c == quote then some ([], []) else none
  | c :: d :: rest =>
    if c == quote then some ([], d :: rest)
    else if c == '\\' && d == quote then
      (upToBareQuote quote rest).map fun (chars, rest) => (c :: d :: chars, rest)
    else (upToBareQuote quote (d :: rest)).map fun (chars, rest) => (c :: chars, rest)

/-- Takes a text up to its last quote. -/
def upToLastQuote (quote : Char) : List Char → Option (List Char × List Char)
  | [] => none
  | c :: rest =>
    match upToLastQuote quote rest with
    | some (chars, rest) => some (c :: chars, rest)
    | none => if c == quote then some ([], rest) else none

/-- A quoted text without its escapes. A backslash in front of anything else stays. -/
def unescaped (escape? : Char → Option Char) : List Char → List Char
  | [] => []
  | [c] => [c]
  | c :: d :: rest =>
    match if c == '\\' then escape? d else none with
    | some e => e :: unescaped escape? rest
    | none => c :: unescaped escape? (d :: rest)

/-- The escapes between single quotes. -/
def singleEscape? : Char → Option Char
  | '\\' => some '\\'
  | '\'' => some '\''
  | _ => none

/-- The escapes between double quotes. -/
def doubleEscape? : Char → Option Char
  | '\\' => some '\\'
  | '\'' => some '\''
  | '"' => some '"'
  | 'a' => some (Char.ofNat 0x07)
  | 'b' => some (Char.ofNat 0x08)
  | 'f' => some (Char.ofNat 0x0C)
  | 'n' => some '\n'
  | 'r' => some '\r'
  | 't' => some '\t'
  | 'v' => some (Char.ofNat 0x0B)
  | _ => none

/-- Takes a quoted value behind its opening quote. If every quote has a backslash in front, the
last one closes the value nevertheless. -/
def quotedValue (quote : Char) (escape? : Char → Option Char) : Reader (List Char) := fun text =>
  match (upToBareQuote quote text).or (upToLastQuote quote text) with
  | some (chars, rest) => .ok (unescaped escape? chars, rest)
  | none => .error (quote :: text)

/-- A line up to a comment; `afterBlank` tells whether a blank stands in front of it. -/
def beforeRemark (afterBlank : Bool) : List Char → List Char
  | [] => []
  | c :: rest => if c == '#' && afterBlank then [] else c :: beforeRemark (isBlank c) rest

/-- Takes a value: quoted, or the rest of the line. -/
def value : Reader (List Char)
  | '\'' :: rest => quotedValue '\'' singleEscape? rest
  | '"' :: rest => quotedValue '"' doubleEscape? rest
  | text =>
    match text.span (· != '\n') with
    | (line, rest) => .ok (stripEnd (beforeRemark false line), rest)

/-! ## Assignments -/

/-- A text behind a comment and the end of the line. -/
def lineEnd (text : List Char) : Except (List Char) (List Char) :=
  match skipInnerBlanks text with
  | [] => .ok []
  | '\n' :: rest => .ok rest
  | '#' :: rest => .ok (afterLine rest)
  | _ => .error text

/-- Takes the value behind a name, if there is an equals sign. -/
def valueBehind (text : List Char) : Except (List Char) (Option (List Char) × List Char) :=
  match skipInnerBlanks text with
  | '=' :: rest => do
    let (value, rest) ← value (skipInnerBlanks rest)
    return (some value, rest)
  | text => .ok (none, text)

/-- Takes one assignment or comment, with its line. -/
def assignment (text : List Char) : Except (List Char) (Option Assignment × List Char) := do
  let (name, text) ← name (withoutExport text)
  let (value, text) ← valueBehind text
  let text ← lineEnd text
  return (name.map (⟨·, value⟩), text)

/-- The assignments of a text. Each line takes at least one character, so that `fuel` need only be
their number. -/
def assignmentsWithin : Nat → List Char → List Assignment
  | 0, _ => []
  | fuel + 1, text =>
    match text.dropWhile isBlank with
    | [] => []
    | text =>
      match assignment text with
      | .ok (some found, rest) => found :: assignmentsWithin fuel rest
      | .ok (none, rest) => assignmentsWithin fuel rest
      | .error text => assignmentsWithin fuel (afterLine text)

def assignments (text : List Char) : List Assignment := assignmentsWithin (text.length + 1) text

/-! ## References -/

/-- Names with their values; a name that was given none has none. -/
abbrev Bindings : Type := List (String × Option String)

namespace Bindings

/-- The value of a name. -/
def get? (bindings : Bindings) (name : String) : Option String :=
  (bindings.find? fun entry => entry.1 == name).bind Prod.snd

/-- Whether a name occurs. -/
def has (bindings : Bindings) (name : String) : Bool := bindings.any fun entry => entry.1 == name

/-- The bindings with one more; a name keeps its place and takes its last value. -/
def put (bindings : Bindings) (name : String) (value : Option String) : Bindings :=
  if bindings.has name then
    bindings.map fun entry => if entry.1 == name then (name, value) else entry
  else bindings ++ [(name, value)]

end Bindings

/-- Takes a reference behind its opening brace: a name, and the text that stands for an unknown
one. -/
def reference? (text : List Char) : Option (List Char × List Char × List Char) :=
  match text.span fun c => c != '\x7d' && c != ':' with
  | (name, '\x7d' :: rest) => some (name, [], rest)
  | (name, ':' :: '-' :: rest) =>
    match rest.span (· != '\x7d') with
    | (other, '\x7d' :: rest) => some (name, other, rest)
    | _ => none
  | _ => none

/-- A value with its references replaced. `lookup` knows a name, or knows it to have no value. -/
def expandedWithin (lookup : String → Option (Option String)) : Nat → List Char → List Char
  | 0, text => text
  | _ + 1, [] => []
  | fuel + 1, '$' :: '\x7b' :: rest =>
    match reference? rest with
    | some (name, other, rest) =>
      let value := match lookup (String.ofList name) with
        | some value => (value.getD "").toList
        | none => other
      value ++ expandedWithin lookup fuel rest
    | none => '$' :: expandedWithin lookup fuel ('\x7b' :: rest)
  | fuel + 1, c :: rest => c :: expandedWithin lookup fuel rest

/-- A value with its references replaced. -/
def expanded (lookup : String → Option (Option String)) (text : List Char) : List Char :=
  expandedWithin lookup (text.length + 1) text

/-- What a name stands for: what the assignments so far give it, otherwise the environment. -/
def lookup (environment : List (String × String)) (bindings : Bindings) (name : String) :
    Option (Option String) :=
  match bindings.find? fun entry => entry.1 == name with
  | some entry => some entry.2
  | none => (environment.find? fun entry => entry.1 == name).map fun entry => some entry.2

/-- The bindings that a text makes in an environment. -/
def bindings (environment : List (String × String)) (text : List Char) : Bindings :=
  (assignments text).foldl (fun bindings found =>
    bindings.put (String.ofList found.name) (found.value.map fun value =>
      String.ofList (expanded (lookup environment bindings) value))) []

end PhpAudit.EnvFile
