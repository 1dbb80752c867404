import ManagedPrometheus.Json

/-!
# JSON text

`Json.read?` reads a text that holds exactly one value: blanks are space, tab, line feed and carriage
return, numbers have no leading zero, and control characters stand in strings only as escapes. A
string in which an escaped surrogate is not one half of a pair stands for no text; what holds it is
read as ill-formed. `Json.write` writes a value without blanks.
-/

namespace ManagedPrometheus

namespace Json

/-! ### Reading -/

/-- The characters that may stand between tokens. -/
def isBlank (c : Char) : Bool := c = ' ' || c = '\n' || c = '\t' || c = '\r'

def skipBlanks (input : List Char) : List Char := input.dropWhile isBlank

def hexDigit? (c : Char) : Option Nat :=
  if '0' ≤ c ∧ c ≤ '9' then some (c.toNat - '0'.toNat)
  else if 'a' ≤ c ∧ c ≤ 'f' then some (c.toNat - 'a'.toNat + 10)
  else if 'A' ≤ c ∧ c ≤ 'F' then some (c.toNat - 'A'.toNat + 10)
  else none

/-- The 16-bit unit that four hexadecimal digits name. -/
def unit? (a b c d : Char) : Option Nat := do
  return (((← hexDigit? a) * 16 + (← hexDigit? b)) * 16 + (← hexDigit? c)) * 16 + (← hexDigit? d)

/-- The character of an escape other than `\u`. -/
def shortEscape? : Char → Option Char
  | '"' => some '"'
  | '\\' => some '\\'
  | '/' => some '/'
  | 'b' => some '\x08'
  | 'f' => some '\x0c'
  | 'n' => some '\n'
  | 'r' => some '\r'
  | 't' => some '\t'
  | _ => none

def isHighSurrogate (u : Nat) : Bool := 0xD800 ≤ u && u ≤ 0xDBFF

def isLowSurrogate (u : Nat) : Bool := 0xDC00 ≤ u && u ≤ 0xDFFF

/-- The character of a unit that is no surrogate. -/
def unitChar? (u : Nat) : Option Char :=
  if isHighSurrogate u || isLowSurrogate u then none else some (Char.ofNat u)

/-- The character of a surrogate pair. -/
def pairChar? (high low : Nat) : Option Char :=
  if isHighSurrogate high && isLowSurrogate low then
    some (Char.ofNat (0x10000 + (high - 0xD800) * 0x400 + (low - 0xDC00)))
  else none

/-- What a string is written with: characters and escaped 16-bit units. -/
inductive Piece
  | char (c : Char)
  | unit (u : Nat)

/-- Takes the pieces up to the closing quote. -/
def readPieces : List Char → Option (List Piece × List Char)
  | [] => none
  | '"' :: rest => some ([], rest)
  | '\\' :: 'u' :: a :: b :: c :: d :: rest =>
    match unit? a b c d, readPieces rest with
    | some u, some (pieces, left) => some (.unit u :: pieces, left)
    | _, _ => none
  | '\\' :: c :: rest =>
    match shortEscape? c, readPieces rest with
    | some char, some (pieces, left) => some (.char char :: pieces, left)
    | _, _ => none
  | c :: rest =>
    if c.toNat < 0x20 || c = '\\' then none
    else (readPieces rest).map fun (pieces, left) => (.char c :: pieces, left)

/-- The characters of the pieces; a high surrogate takes the low one right after it. -/
def joinPieces : List Piece → Option (List Char)
  | [] => some []
  | .char c :: rest => (joinPieces rest).map (c :: ·)
  | .unit high :: .unit low :: rest =>
    match pairChar? high low with
    | some c => (joinPieces rest).map (c :: ·)
    | none =>
      match unitChar? high, joinPieces (.unit low :: rest) with
      | some c, some joined => some (c :: joined)
      | _, _ => none
  | .unit u :: rest =>
    match unitChar? u, joinPieces rest with
    | some c, some joined => some (c :: joined)
    | _, _ => none

/-- Reads the rest of a string after its opening quote: its text, none if it stands for no text. -/
def readString (input : List Char) : Option (Option String × List Char) :=
  (readPieces input).map fun (pieces, left) => ((joinPieces pieces).map String.ofList, left)

/-- A string as a value. -/
def ofString : Option String → Json
  | some value => .text value
  | none => .illFormed

/-- The members of an object as a value; all their names have to be texts. -/
def ofMembers (members : List (Option String × Json)) : Json :=
  match members.mapM fun m => m.1.map fun name => (name, m.2) with
  | some members => .object members
  | none => .illFormed

def digitsValue (digits : List Char) : Nat :=
  digits.foldl (fun n c => n * 10 + (c.toNat - '0'.toNat)) 0

/-- Takes the leading digits, of which there has to be one. -/
def readDigits (input : List Char) : Option (List Char × List Char) :=
  match input.span Char.isDigit with
  | ([], _) => none
  | (digits, rest) => some (digits, rest)

/-- Reads the digits after a decimal point, if one follows. -/
def readFraction : List Char → Option (List Char × List Char)
  | '.' :: rest => readDigits rest
  | rest => some ([], rest)

/-- Reads an exponent, if one follows. -/
def readExponent : List Char → Option (Option Int × List Char)
  | c :: rest =>
    if c = 'e' || c = 'E' then
      match rest with
      | '+' :: rest => (readDigits rest).map fun (d, left) => (some (digitsValue d : Int), left)
      | '-' :: rest => (readDigits rest).map fun (d, left) => (some (-(digitsValue d : Int)), left)
      | rest => (readDigits rest).map fun (d, left) => (some (digitsValue d : Int), left)
    else some (none, c :: rest)
  | [] => some (none, [])

/-- Reads a number without its sign. One without fraction and exponent is an integer, but minus zero
is not. -/
def readUnsigned (negative : Bool) (input : List Char) : Option (Json × List Char) := do
  let (whole, rest) ← readDigits input
  if whole.head? = some '0' && whole.length ≠ 1 then none
  else do
    let (fraction, rest) ← readFraction rest
    let (exponent?, rest) ← readExponent rest
    let magnitude : Int := digitsValue (whole ++ fraction)
    let coefficient := if negative then -magnitude else magnitude
    if fraction.isEmpty && exponent?.isNone && !(negative && magnitude = 0) then
      some (.int coefficient, rest)
    else some (.decimal coefficient (exponent?.getD 0 - fraction.length), rest)

def readNumber : List Char → Option (Json × List Char)
  | '-' :: rest => readUnsigned true rest
  | input => readUnsigned false input

/-- Removes a word from the front. -/
def readWord (word : List Char) (value : Json) (input : List Char) : Option (Json × List Char) :=
  if word.isPrefixOf input then some (value, input.drop word.length) else none

mutual

/-- Reads one value and any blanks before it. The first argument bounds the depth. -/
def readValue : Nat → List Char → Option (Json × List Char)
  | 0, _ => none
  | fuel + 1, input =>
    match skipBlanks input with
    | '"' :: rest => (readString rest).map fun (read, left) => (ofString read, left)
    | '[' :: rest =>
      match skipBlanks rest with
      | ']' :: left => some (.list [], left)
      | rest => (readItems fuel rest).map fun (items, left) => (.list items, left)
    | '\x7b' :: rest =>
      match skipBlanks rest with
      | '\x7d' :: left => some (.object [], left)
      | rest => (readMembers fuel rest).map fun (members, left) => (ofMembers members, left)
    | 'n' :: rest => readWord "ull".toList .null rest
    | 't' :: rest => readWord "rue".toList (.bool true) rest
    | 'f' :: rest => readWord "alse".toList (.bool false) rest
    | rest => readNumber rest

/-- Reads the items of a list up to its closing bracket. -/
def readItems : Nat → List Char → Option (List Json × List Char)
  | 0, _ => none
  | fuel + 1, input =>
    match readValue fuel input with
    | none => none
    | some (item, rest) =>
      match skipBlanks rest with
      | ',' :: rest => (readItems fuel rest).map fun (items, left) => (item :: items, left)
      | ']' :: left => some ([item], left)
      | _ => none

/-- Reads the members of an object up to its closing brace. -/
def readMembers : Nat → List Char → Option (List (Option String × Json) × List Char)
  | 0, _ => none
  | fuel + 1, input =>
    match skipBlanks input with
    | '"' :: rest =>
      match readString rest with
      | none => none
      | some (name, rest) =>
        match skipBlanks rest with
        | ':' :: rest =>
          match readValue fuel rest with
          | none => none
          | some (value, rest) =>
            match skipBlanks rest with
            | ',' :: rest =>
              (readMembers fuel rest).map fun (members, left) =>
                ((name, value) :: members, left)
            | '\x7d' :: left => some ([(name, value)], left)
            | _ => none
        | _ => none
    | _ => none

end

/-- The value that a text holds, if it holds one value and nothing else but blanks. -/
def read? (text : String) : Option Json :=
  let input := text.toList
  match readValue (input.length + 1) input with
  | some (value, rest) => if (skipBlanks rest).isEmpty then some value else none
  | none => none

/-! ### Writing -/

def hexDigit (n : Nat) : Char :=
  if n < 10 then Char.ofNat ('0'.toNat + n) else Char.ofNat ('a'.toNat + (n - 10))

/-- A character inside a string: quotes, backslashes and control characters are escaped. -/
def escape (c : Char) : List Char :=
  if c = '"' then ['\\', '"']
  else if c = '\\' then ['\\', '\\']
  else if c = '\n' then ['\\', 'n']
  else if c = '\r' then ['\\', 'r']
  else if c = '\t' then ['\\', 't']
  else if c.toNat < 0x20 then
    ['\\', 'u', '0', '0', hexDigit (c.toNat / 16), hexDigit (c.toNat % 16)]
  else [c]

def quote (text : String) : String :=
  "\"" ++ String.ofList (text.toList.flatMap escape) ++ "\""

mutual

/-- The text of a value, without blanks. -/
def write : Json → String
  | .null => "null"
  | .bool true => "true"
  | .bool false => "false"
  | .int n => toString n
  | .decimal coefficient exponent => toString coefficient ++ "e" ++ toString exponent
  | .text value => quote value
  | .list items => "[" ++ writeItems items ++ "]"
  | .object members => "\x7b" ++ writeMembers members ++ "\x7d"
  | .illFormed => "\"\\ud800\""

/-- The texts of the items, between commas. -/
def writeItems : List Json → String
  | [] => ""
  | [item] => write item
  | item :: rest => write item ++ "," ++ writeItems rest

/-- The texts of the members, between commas. -/
def writeMembers : List (String × Json) → String
  | [] => ""
  | [(name, value)] => quote name ++ ":" ++ write value
  | (name, value) :: rest => quote name ++ ":" ++ write value ++ "," ++ writeMembers rest

end

end Json

end ManagedPrometheus
