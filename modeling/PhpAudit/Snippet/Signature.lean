import PhpAudit.Text.Blank
import PhpAudit.Text.WordChar

/-!
# Signature lines

The first lines of declarations, as they can be told by their words alone. Keywords are taken in
any case; a dotted capital `İ`, a dotless `ı` and a long `ſ` count as the letters they stand for.
-/

namespace PhpAudit.Snippet

/-- Whether a character is a given small letter, in any case. -/
def isLetter (letter c : Char) : Bool :=
  c == letter || c == letter.toUpper || (letter == 's' && c.toNat == 0x17F) ||
    (letter == 'i' && (c.toNat == 0x130 || c.toNat == 0x131))

/-- The rest of a text behind a keyword. -/
def afterKeyword? : List Char → List Char → Option (List Char)
  | [], text => some text
  | letter :: word, c :: text => if isLetter letter c then afterKeyword? word text else none
  | _ :: _, [] => none

/-- The rest of a text behind blanks, of which there must be one. -/
def afterBlanks? : List Char → Option (List Char)
  | c :: text => if Text.isBlank c then some (Text.stripStart text) else none
  | [] => none

/-- The rest of a text behind a keyword and blanks. -/
def afterWord? (word : String) (text : List Char) : Option (List Char) :=
  (afterKeyword? word.toList text).bind afterBlanks?

/-- The rest of a text behind one of some keywords and blanks. -/
def afterOneOf? (words : List String) (text : List Char) : Option (List Char) :=
  words.findSome? fun word => afterWord? word text

/-- The rest of a text behind a keyword and blanks if it starts so, otherwise the text. -/
def skipWord (word : String) (text : List Char) : List Char := (afterWord? word text).getD text

def startsWithWord : List Char → Bool
  | c :: _ => Text.isWordChar c
  | [] => false

/-- Whether a line starts the declaration of a class or of something like it. -/
def isTypeSignature (line : List Char) : Bool :=
  (afterOneOf? ["class", "interface", "trait", "enum"]
    (skipWord "final" (skipWord "abstract" line))).any startsWithWord

/-- Whether a line starts the declaration of a method with a modifier. -/
def isMethodSignature (line : List Char) : Bool :=
  ((afterOneOf? ["public", "protected", "private", "static"] line).bind fun rest =>
    afterWord? "function" (skipWord "static" rest)).any startsWithWord

/-- Whether a line starts the declaration of a function. -/
def isFunctionSignature (line : List Char) : Bool :=
  (afterWord? "function" line).any startsWithWord

/-- Whether a line, without the blanks around it, starts a declaration. -/
def isSignature (line : List Char) : Bool :=
  isTypeSignature line || isMethodSignature line || isFunctionSignature line

/-- Whether a line, without the blanks around it, closes a block. -/
def isCloser (line : List Char) : Bool := line == ['\x7d'] || line == ['\x7d', ';']

end PhpAudit.Snippet
