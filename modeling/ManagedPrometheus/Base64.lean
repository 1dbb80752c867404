/-!
# Base64

Bytes as text, six bits to a letter. Three bytes make four letters; an end of one or two bytes makes
two or three letters and is filled up with `=`. Only what `encode` writes is read.
-/

namespace ManagedPrometheus.Base64

/-- The letter of six bits. -/
def letter (n : Nat) : Char :=
  if n < 26 then Char.ofNat ('A'.toNat + n)
  else if n < 52 then Char.ofNat ('a'.toNat + (n - 26))
  else if n < 62 then Char.ofNat ('0'.toNat + (n - 52))
  else if n = 62 then '+'
  else '/'

/-- The six bits of a letter. -/
def value? (c : Char) : Option Nat := (List.range 64).find? fun n => letter n = c

def encodeList : List UInt8 → List Char
  | [] => []
  | [a] => [letter (a.toNat / 4), letter (a.toNat % 4 * 16), '=', '=']
  | [a, b] =>
    [letter (a.toNat / 4), letter (a.toNat % 4 * 16 + b.toNat / 16), letter (b.toNat % 16 * 4), '=']
  | a :: b :: c :: rest =>
    letter (a.toNat / 4) :: letter (a.toNat % 4 * 16 + b.toNat / 16)
      :: letter (b.toNat % 16 * 4 + c.toNat / 64) :: letter (c.toNat % 64) :: encodeList rest

def encode (bytes : List UInt8) : String := String.ofList (encodeList bytes)

/-- The bytes of the last four letters, of which some may be filled up; left-over bits are zero. -/
def decodeEnd? (a b c d : Char) : Option (List UInt8) := do
  let a ← value? a
  let b ← value? b
  if c = '=' then
    if d = '=' ∧ b % 16 = 0 then some [UInt8.ofNat (a * 4 + b / 16)] else none
  else
    let c ← value? c
    if d = '=' then
      if c % 4 = 0 then some [UInt8.ofNat (a * 4 + b / 16), UInt8.ofNat (b % 16 * 16 + c / 4)]
      else none
    else
      let d ← value? d
      some [UInt8.ofNat (a * 4 + b / 16), UInt8.ofNat (b % 16 * 16 + c / 4),
        UInt8.ofNat (c % 4 * 64 + d)]

def decodeList? : List Char → Option (List UInt8)
  | [] => some []
  | [a, b, c, d] => decodeEnd? a b c d
  | a :: b :: c :: d :: rest =>
    if d = '=' then none
    else match decodeEnd? a b c d, decodeList? rest with
      | some bytes, some more => some (bytes ++ more)
      | _, _ => none
  | _ => none

def decode? (text : String) : Option (List UInt8) := decodeList? text.toList

end ManagedPrometheus.Base64
