/-!
# Lines of texts

Three ways to see lines in a text: cut at line feeds alone, cut after every line boundary of
Unicode, and with the carriage returns of other systems turned into line feeds first.
-/

namespace PhpAudit.Text

/-- The pieces of a text between line feeds. There is always one more than there are line feeds. -/
def segments : List Char → List (List Char)
  | [] => [[]]
  | c :: rest =>
    if c = '\n' then [] :: segments rest
    else match segments rest with
      | first :: more => (c :: first) :: more
      | [] => [[c]]

/-- A text in which a carriage return, alone or with the line feed behind it, is a line feed. -/
def withLineFeeds : List Char → List Char
  | [] => []
  | '\r' :: '\n' :: rest => '\n' :: withLineFeeds rest
  | '\r' :: rest => '\n' :: withLineFeeds rest
  | c :: rest => c :: withLineFeeds rest

/-- Whether a character ends a line: the line feed, the vertical tab, the form feed, the carriage
return, three of the four ASCII separators, the next line, and the separators of lines and
paragraphs. -/
def isLineEnd (c : Char) : Bool :=
  (0x0A ≤ c.toNat && c.toNat ≤ 0x0D) || (0x1C ≤ c.toNat && c.toNat ≤ 0x1E) || c.toNat == 0x85 ||
    c.toNat == 0x2028 || c.toNat == 0x2029

/-- The lines of a text, each with what ends it. A carriage return and a line feed end one line. -/
def linesWithEnds : List Char → List (List Char)
  | [] => []
  | '\r' :: '\n' :: rest => ['\r', '\n'] :: linesWithEnds rest
  | c :: rest =>
    if isLineEnd c then [c] :: linesWithEnds rest
    else match linesWithEnds rest with
      | line :: more => (c :: line) :: more
      | [] => [[c]]

/-- The lines of a text, without what ends them. -/
def lines (text : List Char) : List (List Char) :=
  (linesWithEnds text).map fun line => line.filter fun c => !isLineEnd c

end PhpAudit.Text
