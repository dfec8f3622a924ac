import PhpAudit.Settings.Basic

/-!
# Checking settings

Settings come from people and from the environment, so that a number or a truth value may come as
text. Every field is checked, and the complaints about all of them are kept, field by field and
then about the names that are no field.
-/

namespace PhpAudit.Settings

open Data Number

/-! ## Complaints -/

/-- What is wrong with a part of the settings. -/
inductive Cause where
  | notAText
  | notATruthValue
  | unreadableTruthValue
  | notAnInteger
  | unreadableInteger
  | tooManyDigits
  | fraction
  | notFinite
  | notADictionary
  | notAList
  /-- A snippet cannot have a negative radius. -/
  | negativeRadius
  | unknownField
deriving DecidableEq, Repr

def Cause.text : Cause → String
  | .notAText => "string_type"
  | .notATruthValue => "bool_type"
  | .unreadableTruthValue => "bool_parsing"
  | .notAnInteger => "int_type"
  | .unreadableInteger => "int_parsing"
  | .tooManyDigits => "int_parsing_size"
  | .fraction => "int_from_float"
  | .notFinite => "finite_number"
  | .notADictionary => "dict_type"
  | .notAList => "list_type"
  | .negativeRadius => "value_error"
  | .unknownField => "extra_forbidden"

/-- The message of a cause that has one of its own. -/
def Cause.message? : Cause → Option String
  | .negativeRadius => some "Value error, snippet_context_lines must be zero or greater"
  | _ => none

/-- A complaint: the field, the keys and indexes that lead from it to the part, and the cause. -/
structure Complaint where
  place : List Key
  cause : Cause
deriving Repr

/-- What a part turns out to be, or all that is wrong with it. -/
inductive Checked (α : Type) where
  | valid (a : α)
  | faulty (complaints : List Complaint)
deriving Repr

namespace Checked

/-- A single complaint about a part as a whole. -/
def refused {α : Type} (cause : Cause) : Checked α := .faulty [⟨[], cause⟩]

/-- What follows from a part. -/
def map {α β : Type} (f : α → β) : Checked α → Checked β
  | .valid a => .valid (f a)
  | .faulty complaints => .faulty complaints

/-- A part at a place inside another one. -/
def inside {α : Type} (place : List Key) : Checked α → Checked α
  | .valid a => .valid a
  | .faulty complaints => .faulty (complaints.map fun c => { c with place := place ++ c.place })

/-- Two parts, with the complaints about both. -/
def and {α β : Type} : Checked (α → β) → Checked α → Checked β
  | .valid f, .valid a => .valid (f a)
  | .valid _, .faulty complaints => .faulty complaints
  | .faulty complaints, .valid _ => .faulty complaints
  | .faulty complaints, .faulty more => .faulty (complaints ++ more)

end Checked

/-! ## Texts and truth values -/

def checkText : Value → Checked String
  | .text s => .valid s
  | _ => .refused .notAText

def checkOptionalText : Value → Checked (Option String)
  | .null => .valid none
  | value => (checkText value).map some

/-- A character of ASCII in its small form. -/
def smallAscii (c : Char) : Char :=
  if 'A' ≤ c && c ≤ 'Z' then Char.ofNat (c.toNat + 32) else c

def trueWords : List String := ["1", "on", "t", "true", "y", "yes"]

def falseWords : List String := ["0", "off", "f", "false", "n", "no"]

/-- The truth value that a word stands for, whatever the case of its letters. -/
def truthOfWord (word : String) : Checked Bool :=
  let word := String.ofList (word.toList.map smallAscii)
  if trueWords.contains word then .valid true
  else if falseWords.contains word then .valid false
  else .refused .unreadableTruthValue

/-- Whether an integer fits into 64 bits with a sign. -/
def fitsWord (n : Int) : Bool := -Int.pow 2 63 ≤ n && n < Int.pow 2 63

/-- The truth value that an integer stands for. Integers of more than 64 bits are not looked at. -/
def truthOfInteger (n : Int) : Checked Bool :=
  if n == 0 then .valid false
  else if n == 1 then .valid true
  else if fitsWord n then .refused .unreadableTruthValue
  else .refused .notATruthValue

/-- The integer that a number is, if it is one strictly between the ends of the 64-bit range. -/
def integerOfNumber : Binary64 → Checked Int
  | .finite negative mantissa exponent =>
    let n := Binary64.truncated negative mantissa exponent
    if Binary64.isIntegral mantissa exponent && -Int.pow 2 63 < n && n < Int.pow 2 63 then
      .valid n
    else .refused .fraction
  | _ => .refused .notFinite

def checkTruth : Value → Checked Bool
  | .bool b => .valid b
  | .text s => truthOfWord s
  | .int n => truthOfInteger n
  | .number x =>
    match integerOfNumber x with
    | .valid n => truthOfInteger n
    | .faulty _ => .refused .notATruthValue
  | _ => .refused .notATruthValue

/-! ## Integers -/

/-- The integer that a text spells in the plain way: digits without a zero in front, and perhaps a
minus. -/
def plainInteger (text : List Char) : Checked Int :=
  let (negative, digits) := match text with
    | '-' :: rest => (true, rest)
    | text => (false, text)
  if digits.isEmpty || !digits.all Char.isDigit || (1 < digits.length && digits.head? == some '0') then
    .refused .unreadableInteger
  else if digitLimit < digits.length then .refused .tooManyDigits
  else
    let n : Int := natOfDigits digits
    .valid (if negative then -n else n)

/-- A text without one plus sign in front. -/
def withoutPlus : List Char → List Char
  | '+' :: '-' :: rest => '+' :: '-' :: rest
  | '+' :: rest => rest
  | text => text

/-- What follows the zeros and underscores behind a leading zero; `last` is the last of them. -/
def behindZeros (last : Char) : List Char → Option (List Char)
  | [] => some [last]
  | c :: rest =>
    if c == '0' || c == '_' then behindZeros c rest
    else if c.isDigit then some (c :: rest)
    else if c == '.' then some (last :: c :: rest)
    else none

/-- A number without zeros in front; nothing else than a digit or a minus may start it. -/
def withoutZeros : List Char → Option (List Char)
  | '0' :: rest => behindZeros '0' rest
  | c :: rest => if c.isDigit || c == '-' then some (c :: rest) else none
  | [] => none

/-- A number without a fraction of zeros. -/
def withoutFraction (text : List Char) : List Char :=
  match text.span (· != '.') with
  | (whole, _ :: c :: zeros) => if (c :: zeros).all (· == '0') then whole else text
  | _ => text

/-- A number without the underscores between its digits, unless they are not single. -/
def withoutUnderscores (text : List Char) : List Char :=
  if text.head? == some '_' || text.getLast? == some '_' ||
      (text.zip (text.drop 1)).any fun pair => pair.1 == '_' && pair.2 == '_' then text
  else text.filter (· != '_')

/-- The integer that a text spells: in the plain way, or with blanks around it, a plus sign, zeros
in front, a fraction of zeros, or single underscores between digits. -/
def integerOfText (text : List Char) : Checked Int :=
  match plainInteger text with
  | .faulty [⟨_, .unreadableInteger⟩] =>
    match withoutZeros (withoutPlus (Integer.withoutMargins text)) with
    | some text => plainInteger (withoutUnderscores (withoutFraction text))
    | none => .refused .unreadableInteger
  | result => result

def checkInteger : Value → Checked Int
  | .int n => .valid n
  | .bool b => .valid (if b then 1 else 0)
  | .text s => integerOfText s.toList
  | .number x => integerOfNumber x
  | _ => .refused .notAnInteger

/-- An integer from zero on. -/
def checkRadius (value : Value) : Checked Int :=
  match checkInteger value with
  | .valid n => if n < 0 then .refused .negativeRadius else .valid n
  | .faulty complaints => .faulty complaints

/-! ## Lists and dictionaries -/

/-- The items of a list, each checked at its index. -/
def checkItems (index : Nat) : List Value → Checked (List String)
  | [] => .valid []
  | item :: rest =>
    ((Checked.inside [.int index] (checkText item)).map List.cons).and (checkItems (index + 1) rest)

def checkTexts : Value → Checked (List String)
  | .list items => checkItems 0 items
  | _ => .refused .notAList

/-- How a key is named in a place. -/
def placeOfKey : Key → Key
  | .text s => .text s
  | .int n => if fitsWord n then .int n else .text (Integer.text n)
  | .bool b => .int (if b then 1 else 0)
  | .null => .text "None"
  | .number x => .text x.text

def checkKey : Key → Checked String
  | .text s => .valid s
  | key => .faulty [⟨[placeOfKey key, .text "[key]"], .notAText⟩]

def checkEntries : List (Key × Value) → Checked (List (String × String))
  | [] => .valid []
  | (key, value) :: rest =>
    (((checkKey key).map Prod.mk).and (Checked.inside [placeOfKey key] (checkText value))
      |>.map List.cons).and (checkEntries rest)

/-- A dictionary from texts to texts. -/
def checkNames : Value → Checked (List (String × String))
  | .dict entries => checkEntries entries
  | _ => .refused .notADictionary

/-! ## Fields -/

/-- The names of the fields, in the order in which they are checked. -/
def fieldNames : List String :=
  ["app_env", "environment_mapping", "show_code_snippets", "snippet_context_lines", "base_path",
    "exclude_patterns"]

/-- A field, or its default where none is given. -/
def checkField {α : Type} (entries : Entries) (name : String) (check : Value → Checked α)
    (default : α) : Checked α :=
  match entries.get? name with
  | some value => Checked.inside [.text name] (check value)
  | none => .valid default

/-- The complaints about entries that are no field. -/
def unknownFields (entries : Entries) : List Complaint :=
  (entries.filter fun (key, _) =>
    match key with
    | .text name => !fieldNames.contains name
    | _ => true).map fun (key, _) => ⟨[key], .unknownField⟩

/-- Nothing else than fields. -/
def checkUnknown (entries : Entries) (settings : Settings) : Checked Settings :=
  match unknownFields entries with
  | [] => .valid settings
  | complaints => .faulty complaints

/-- The settings that some entries describe. -/
def check (entries : Entries) : Checked Settings :=
  let standard : Settings := {}
  let settings := (checkField entries "app_env" checkText standard.environment).map Settings.mk
    |>.and (checkField entries "environment_mapping" checkNames standard.environmentNames)
    |>.and (checkField entries "show_code_snippets" checkTruth standard.showsSnippets)
    |>.and (checkField entries "snippet_context_lines" checkRadius standard.snippetRadius)
    |>.and (checkField entries "base_path" checkOptionalText standard.basePath)
    |>.and (checkField entries "exclude_patterns" checkTexts standard.excludePatterns)
  match settings with
  | .valid settings => checkUnknown entries settings
  | .faulty complaints => .faulty (complaints ++ unknownFields entries)

end PhpAudit.Settings
