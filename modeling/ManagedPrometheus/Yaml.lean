import ManagedPrometheus.JsonText

/-!
# YAML

JSON values as YAML in block style: members and items on lines of their own, items at the indentation
of what holds them, texts of several lines as literal blocks. A text is quoted where it would read as
something else.
-/

namespace ManagedPrometheus.Yaml

def splitLines : List Char → List (List Char)
  | [] => [[]]
  | '\n' :: rest => [] :: splitLines rest
  | c :: rest =>
    match splitLines rest with
    | line :: more => (c :: line) :: more
    | [] => [[c]]

/-- Texts that stand for null and the truth values. -/
def reservedWords : List String :=
  ["null", "Null", "NULL", "~", "true", "True", "TRUE", "false", "False", "FALSE"]

/-- Characters that cannot begin a plain text. -/
def indicators : List Char :=
  ['-', '?', ':', ',', '[', ']', '\x7b', '\x7d', '#', '&', '*', '!', '|', '>', '\'', '"', '%', '@',
    Char.ofNat 0x60]

/-- Whether a text holds what ends a plain text: a colon at the end or before a blank, or a number
sign after a blank. -/
def breaksOff : List Char → Bool
  | [] => false
  | [c] => c == ':' || c == ' '
  | ':' :: ' ' :: _ => true
  | ' ' :: '#' :: _ => true
  | _ :: rest => breaksOff rest

/-- Whether a text would read as something else if it were plain. -/
def needsQuotes (text : String) : Bool :=
  let chars := text.toList
  match chars.head? with
  | none => true
  | some first =>
    reservedWords.contains text || (Json.readNumber chars).any (·.2.isEmpty)
      || indicators.contains first || first == ' ' || breaksOff chars

def inlineText (text : String) : String :=
  if needsQuotes text then
    "'" ++ String.ofList (text.toList.flatMap fun c => if c = '\'' then ['\'', '\''] else [c]) ++ "'"
  else text

/-- Moves lines to the right; empty ones stay empty. -/
def indent (lines : List String) : List String :=
  lines.map fun line => if line.isEmpty then line else "  " ++ line

def inlineValue : Json → String
  | .text value => inlineText value
  | value => value.write

/-- The lines of a text of several lines after the mark of a literal block, which says whether the
text ends with a line feed. -/
def literal? (text : String) : Option (String × List String) :=
  match (splitLines text.toList).map String.ofList with
  | [] | [_] => none
  | lines =>
    if lines.getLast? = some "" then some ("|", indent lines.dropLast) else some ("|-", indent lines)

mutual

def lines : Json → List String
  | .object [] => ["\x7b\x7d"]
  | .object members => memberLines members
  | .list [] => ["[]"]
  | .list items => itemLines items
  | .text value =>
    match literal? value with
    | some (mark, block) => mark :: block
    | none => [inlineText value]
  | value => [inlineValue value]

/-- The lines of members: a name, with its value behind it or below it. -/
def memberLines : List (String × Json) → List String
  | [] => []
  | (name, value) :: rest =>
    (match value, lines value with
      | .object (_ :: _), block => (name ++ ":") :: indent block
      | .list (_ :: _), block => (name ++ ":") :: block
      | _, first :: block => (name ++ ": " ++ first) :: block
      | _, [] => [name ++ ":"]) ++ memberLines rest

def itemLines : List Json → List String
  | [] => []
  | item :: rest =>
    (match lines item with
      | first :: block => ("- " ++ first) :: indent block
      | [] => ["-"]) ++ itemLines rest

end

/-- The text of a value. -/
def text (value : Json) : String := String.join ((lines value).map fun line => line ++ "\n")

end ManagedPrometheus.Yaml
