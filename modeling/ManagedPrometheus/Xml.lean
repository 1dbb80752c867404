import ManagedPrometheus.Blank

/-!
# XML documents

As much of XML as replies need: elements, text with character references, comments and processing
instructions. Attributes are skipped. Reading stops at the end of the outermost element.
-/

namespace ManagedPrometheus

/-- An element with its contents, or text between elements. -/
inductive Xml
  | element (name : String) (contents : List Xml)
  | text (content : String)

namespace Xml

/-! ### Reading -/

/-- What follows the first occurrence of `mark`. -/
def after? (mark : List Char) : List Char → Option (List Char)
  | [] => if mark.isEmpty then some [] else none
  | c :: rest =>
    if mark.isPrefixOf (c :: rest) then some ((c :: rest).drop mark.length) else after? mark rest

/-- The digits of a character reference as a number in a base. -/
def number? (base : Nat) (digits : List Char) : Option Nat :=
  if digits.isEmpty then none
  else digits.foldl (fun n? c => do
    let n ← n?
    let d := if c.isDigit then c.toNat - '0'.toNat else c.toLower.toNat - 'a'.toNat + 10
    if c.isAlphanum ∧ d < base then some (n * base + d) else none) (some 0)

def reference? (name : List Char) : Option Char :=
  match String.ofList name with
  | "lt" => some '<'
  | "gt" => some '>'
  | "amp" => some '&'
  | "quot" => some '"'
  | "apos" => some '\''
  | _ =>
    let number := match name with
      | '#' :: 'x' :: digits => number? 16 digits
      | '#' :: digits => number? 10 digits
      | _ => none
    number.bind fun n => if n.isValidChar then some (Char.ofNat n) else none

/-- Text with its references resolved. The first argument bounds the number of references. -/
def unescape? : Nat → List Char → Option (List Char)
  | 0, _ => none
  | fuel + 1, input =>
    match input.span (· ≠ '&') with
    | (plain, []) => some plain
    | (plain, _ :: rest) =>
      match rest.span (· ≠ ';') with
      | (_, []) => none
      | (name, _ :: rest) =>
        match reference? name, unescape? fuel rest with
        | some c, some more => some (plain ++ c :: more)
        | _, _ => none

/-- Skips the attributes of a tag and tells whether the tag also closes its element. -/
def skipAttributes (quoted? : Option Char) : List Char → Option (Bool × List Char)
  | [] => none
  | c :: rest =>
    match quoted? with
    | some quote => skipAttributes (if c = quote then none else quoted?) rest
    | none =>
      if c = '>' then some (false, rest)
      else if c = '/' then
        match rest with
        | '>' :: rest => some (true, rest)
        | _ => none
      else skipAttributes (if c = '"' ∨ c = '\'' then some c else none) rest

/-- Whether a character belongs to the name of a tag. -/
def isNameChar (c : Char) : Bool := !isBlank c && c ≠ '/' && c ≠ '>'

/-- Reads an end tag of an element. -/
def endTag? (name : List Char) : List Char → Option (List Char)
  | '<' :: '/' :: rest =>
    match rest.span isNameChar with
    | (found, rest) =>
      match rest.dropWhile isBlank with
      | '>' :: rest => if found = name then some rest else none
      | _ => none
  | _ => none

mutual

/-- Reads an element after the opening angle. The first argument bounds the depth. -/
def readElement : Nat → List Char → Option (Xml × List Char)
  | 0, _ => none
  | fuel + 1, input =>
    let (name, rest) := input.span isNameChar
    match name, skipAttributes none rest with
    | _ :: _, some (true, rest) => some (.element (String.ofList name) [], rest)
    | _ :: _, some (false, rest) =>
      match readContents fuel rest with
      | some (contents, rest) =>
        (endTag? name rest).map fun rest => (.element (String.ofList name) contents, rest)
      | none => none
    | _, _ => none

/-- Reads the contents of an element up to its end tag. -/
def readContents : Nat → List Char → Option (List Xml × List Char)
  | 0, _ => none
  | fuel + 1, input =>
    match input with
    | [] => none
    | '<' :: '/' :: rest => some ([], '<' :: '/' :: rest)
    | '<' :: '!' :: '-' :: '-' :: rest => (after? "-->".toList rest).bind (readContents fuel)
    | '<' :: '?' :: rest => (after? "?>".toList rest).bind (readContents fuel)
    | '<' :: rest =>
      match readElement fuel rest with
      | some (child, rest) =>
        (readContents fuel rest).map fun (more, left) => (child :: more, left)
      | none => none
    | c :: rest =>
      let (content, rest) := (c :: rest).span (· ≠ '<')
      match unescape? (content.length + 1) content, readContents fuel rest with
      | some content, some (more, left) => some (.text (String.ofList content) :: more, left)
      | _, _ => none

end

/-- Reads up to the outermost element and that element. The first argument bounds what may stand
before it. -/
def readDocument : Nat → List Char → Option Xml
  | 0, _ => none
  | fuel + 1, input =>
    match input.dropWhile isBlank with
    | '<' :: '!' :: '-' :: '-' :: rest => (after? "-->".toList rest).bind (readDocument fuel)
    | '<' :: '?' :: rest => (after? "?>".toList rest).bind (readDocument fuel)
    | '<' :: rest => (readElement (rest.length + 1) rest).map (·.1)
    | _ => none

/-- The outermost element of a document. -/
def read? (document : String) : Option Xml := readDocument (document.length + 1) document.toList

/-! ### Looking inside -/

/-- The contents of an element of a name. -/
def contentsOf? (name : String) : Xml → Option (List Xml)
  | .element found contents => if found = name then some contents else none
  | .text _ => none

def isElement : Xml → Bool
  | .element _ _ => true
  | .text _ => false

/-- The first text among contents, none if an element comes before it. -/
def firstText? : List Xml → Option String
  | [] => some ""
  | .text content :: _ => some content
  | .element _ _ :: _ => none

end Xml

end ManagedPrometheus
