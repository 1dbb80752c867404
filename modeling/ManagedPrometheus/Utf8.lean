/-!
# UTF-8

A configuration is text in a manifest and bytes on the wire. `encode` writes the bytes of a text.
`decode` reads any bytes: it runs a small automaton over them, one character for each well-formed
sequence and one replacement character for each maximal ill-formed subpart, that is, for the longest
stretch of bytes that begins a well-formed sequence, or for one byte where none does.
-/

namespace ManagedPrometheus.Utf8

/-- The bytes of a text. -/
def encode (text : String) : List UInt8 := text.toList.flatMap String.utf8EncodeChar

/-! ### Reading -/

/-- A sequence that has begun: the range of its next byte, the number of bytes after that one, and
the bits read so far. -/
structure Pending where
  low : Nat
  high : Nat
  more : Nat
  bits : Nat
  deriving DecidableEq, Repr

/-- The sequence that a lead byte begins. The range of the second byte is narrower after `E0` and
`F0`, which would begin overlong forms, after `ED`, which would begin surrogates, and after `F4`,
which would pass the last code point. -/
def lead? (b : Nat) : Option Pending :=
  if 0xC2 ≤ b ∧ b ≤ 0xDF then some ⟨0x80, 0xBF, 0, b - 0xC0⟩
  else if b = 0xE0 then some ⟨0xA0, 0xBF, 1, 0⟩
  else if b = 0xED then some ⟨0x80, 0x9F, 1, 0xD⟩
  else if 0xE1 ≤ b ∧ b ≤ 0xEF then some ⟨0x80, 0xBF, 1, b - 0xE0⟩
  else if b = 0xF0 then some ⟨0x90, 0xBF, 2, 0⟩
  else if 0xF1 ≤ b ∧ b ≤ 0xF3 then some ⟨0x80, 0xBF, 2, b - 0xF0⟩
  else if b = 0xF4 then some ⟨0x80, 0x8F, 2, 4⟩
  else none

/-- What a byte does where no sequence has begun. `none` stands for an ill-formed subpart. -/
def start (b : Nat) : List (Option Char) × Option Pending :=
  if b < 0x80 then ([some (Char.ofNat b)], none)
  else match lead? b with
    | some pending => ([], some pending)
    | none => ([none], none)

/-- What a byte does: it continues the sequence that has begun, or ends it as ill-formed and starts
anew. -/
def accept (pending? : Option Pending) (b : Nat) : List (Option Char) × Option Pending :=
  match pending? with
  | none => start b
  | some p =>
    if p.low ≤ b ∧ b ≤ p.high then
      let bits := p.bits * 0x40 + b % 0x40
      match p.more with
      | 0 => ([some (Char.ofNat bits)], none)
      | more + 1 => ([], some ⟨0x80, 0xBF, more, bits⟩)
    else (none :: (start b).1, (start b).2)

/-- The characters and ill-formed subparts of the bytes, after a sequence that may have begun. -/
def units (pending? : Option Pending) : List UInt8 → List (Option Char)
  | [] => if pending?.isSome then [none] else []
  | b :: rest => (accept pending? b.toNat).1 ++ units (accept pending? b.toNat).2 rest

/-- What stands for an ill-formed subpart. -/
def replacement : Char := '\uFFFD'

/-- The text of the bytes, with a replacement character for each ill-formed subpart. -/
def decode (bytes : List UInt8) : String :=
  String.ofList ((units none bytes).map (·.getD replacement))

end ManagedPrometheus.Utf8
