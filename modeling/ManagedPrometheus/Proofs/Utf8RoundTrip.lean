import ManagedPrometheus.Utf8

/-!
# Reading what was written

The automaton that reads UTF-8 gives every text back that was encoded (`decode_encode`). The proof
follows one character through the automaton: its lead byte opens a sequence whose bits and ranges
are those of the character (`lead?_of_two`, `lead?_of_three`, `lead?_of_four`), and every byte after
it is accepted and adds six bits. That the ranges which shut out overlong forms, surrogates and
numbers past the last code point let all characters through is where the bounds of the code points
come in.
-/

namespace ManagedPrometheus.Utf8

/-! ### Single bytes -/

theorem units_ofNat_cons (pending? : Option Pending) {b : Nat} (hb : b < 0x100)
    (rest : List UInt8) :
    units pending? (UInt8.ofNat b :: rest)
      = (accept pending? b).1 ++ units (accept pending? b).2 rest := by
  rw [units, UInt8.toNat_ofNat_of_lt' (by simpa [UInt8.size] using hb)]

theorem accept_lead {b : Nat} (hb : 0x80 ≤ b) {pending : Pending}
    (hlead : lead? b = some pending) : accept none b = ([], some pending) := by
  have hascii : ¬ b < 0x80 := Nat.not_lt.mpr hb
  simp [accept, start, hascii, hlead]

theorem accept_last {low high bits b : Nat} (hlow : low ≤ b) (hhigh : b ≤ high) :
    accept (some ⟨low, high, 0, bits⟩) b
      = ([some (Char.ofNat (bits * 0x40 + b % 0x40))], none) := by
  simp [accept, hlow, hhigh]

theorem accept_more {low high more bits b : Nat} (hlow : low ≤ b) (hhigh : b ≤ high) :
    accept (some ⟨low, high, more + 1, bits⟩) b
      = ([], some ⟨0x80, 0xBF, more, bits * 0x40 + b % 0x40⟩) := by
  simp [accept, hlow, hhigh]

/-! ### Lead bytes -/

theorem lead?_of_two {n : Nat} (hlow : 0x80 ≤ n) (hhigh : n < 0x800) :
    lead? (0xC0 + n / 0x40) = some ⟨0x80, 0xBF, 0, n / 0x40⟩ := by
  have hrange : 0xC2 ≤ 0xC0 + n / 0x40 ∧ 0xC0 + n / 0x40 ≤ 0xDF := by omega
  rw [lead?, if_pos hrange]
  simp

/-- The lead byte of a character of three bytes, with room for the character's second byte. -/
theorem lead?_of_three {n : Nat} (hlow : 0x800 ≤ n) (hhigh : n < 0x10000)
    (hvalid : n < 0xD800 ∨ 0xDFFF < n) :
    ∃ low high, lead? (0xE0 + n / 0x1000) = some ⟨low, high, 1, n / 0x1000⟩ ∧
      low ≤ 0x80 + n / 0x40 % 0x40 ∧ 0x80 + n / 0x40 % 0x40 ≤ high := by
  have hfirst : ¬ (0xC2 ≤ 0xE0 + n / 0x1000 ∧ 0xE0 + n / 0x1000 ≤ 0xDF) := by omega
  rw [lead?, if_neg hfirst]
  by_cases hE0 : n / 0x1000 = 0
  · refine ⟨0xA0, 0xBF, by simp [hE0], ?_, ?_⟩
    · omega
    · omega
  · by_cases hED : n / 0x1000 = 0xD
    · refine ⟨0x80, 0x9F, by simp [hED], ?_, ?_⟩
      · omega
      · omega
    · refine ⟨0x80, 0xBF, ?_, ?_, ?_⟩
      · rw [if_neg (by omega), if_neg (by omega), if_pos (by omega)]
        simp
      · omega
      · omega

theorem lead?_of_four {n : Nat} (hlow : 0x10000 ≤ n) (hhigh : n < 0x110000) :
    ∃ low high, lead? (0xF0 + n / 0x40000) = some ⟨low, high, 2, n / 0x40000⟩ ∧
      low ≤ 0x80 + n / 0x1000 % 0x40 ∧ 0x80 + n / 0x1000 % 0x40 ≤ high := by
  rw [lead?, if_neg (by omega), if_neg (by omega), if_neg (by omega), if_neg (by omega)]
  by_cases hF0 : n / 0x40000 = 0
  · refine ⟨0x90, 0xBF, by simp [hF0], ?_, ?_⟩
    · omega
    · omega
  · by_cases hF4 : n / 0x40000 = 4
    · refine ⟨0x80, 0x8F, by simp [hF4], ?_, ?_⟩
      · omega
      · omega
    · refine ⟨0x80, 0xBF, ?_, ?_, ?_⟩
      · rw [if_neg (by omega), if_pos (by omega)]
        simp
      · omega
      · omega

/-! ### Characters and texts -/

/-- The bytes of a character: the bits of its number in groups of six, after a mark. -/
theorem utf8EncodeChar_eq (c : Char) :
    String.utf8EncodeChar c
      = if c.toNat < 0x80 then [UInt8.ofNat c.toNat]
        else if c.toNat < 0x800 then
          [UInt8.ofNat (0xC0 + c.toNat / 0x40), UInt8.ofNat (0x80 + c.toNat % 0x40)]
        else if c.toNat < 0x10000 then
          [UInt8.ofNat (0xE0 + c.toNat / 0x1000), UInt8.ofNat (0x80 + c.toNat / 0x40 % 0x40),
            UInt8.ofNat (0x80 + c.toNat % 0x40)]
        else
          [UInt8.ofNat (0xF0 + c.toNat / 0x40000), UInt8.ofNat (0x80 + c.toNat / 0x1000 % 0x40),
            UInt8.ofNat (0x80 + c.toNat / 0x40 % 0x40), UInt8.ofNat (0x80 + c.toNat % 0x40)] := by
  have hvalid : c.toNat < 0xD800 ∨ 0xDFFF < c.toNat ∧ c.toNat < 0x110000 := c.valid
  have hcomm : ∀ a b : Nat, UInt8.ofNat (a + b) = UInt8.ofNat (b + a) := by
    intro a b
    rw [Nat.add_comm]
  rw [String.utf8EncodeChar, show c.val.toNat = c.toNat from rfl]
  generalize c.toNat = n at hvalid
  simp only [← Nat.lt_succ_iff]
  split
  · rfl
  split
  · rw [Nat.mod_eq_of_lt (by omega), hcomm, hcomm (n % 64)]
  split
  · rw [Nat.mod_eq_of_lt (by omega : n / 4096 < 16), hcomm, hcomm (n / 64 % 64), hcomm (n % 64)]
  · rw [Nat.mod_eq_of_lt (by omega : n / 262144 < 8), hcomm, hcomm (n / 4096 % 64),
      hcomm (n / 64 % 64), hcomm (n % 64)]

theorem units_utf8EncodeChar (c : Char) (rest : List UInt8) :
    units none (String.utf8EncodeChar c ++ rest) = some c :: units none rest := by
  have hchar : Char.ofNat c.toNat = c := Char.ofNat_toNat c
  have hvalid : c.toNat < 0xD800 ∨ 0xDFFF < c.toNat ∧ c.toNat < 0x110000 := c.valid
  rw [utf8EncodeChar_eq]
  generalize c.toNat = n at hchar hvalid
  by_cases hone : n < 0x80
  · rw [if_pos hone, List.singleton_append, units_ofNat_cons none (by omega)]
    simp [accept, start, hone, hchar]
  rw [if_neg hone]
  by_cases htwo : n < 0x800
  · rw [if_pos htwo, List.cons_append, List.singleton_append,
      units_ofNat_cons none (by omega), accept_lead (by omega) (lead?_of_two (by omega) htwo),
      units_ofNat_cons _ (by omega), accept_last (by omega) (by omega)]
    have hbits : n / 0x40 * 0x40 + (0x80 + n % 0x40) % 0x40 = n := by omega
    rw [hbits, hchar]
    rfl
  rw [if_neg htwo]
  by_cases hthree : n < 0x10000
  · obtain ⟨low, high, hlead, hlow, hhigh⟩ := lead?_of_three (n := n) (by omega) hthree (by omega)
    rw [if_pos hthree, List.cons_append, List.cons_append, List.singleton_append,
      units_ofNat_cons none (by omega), accept_lead (by omega) hlead,
      units_ofNat_cons _ (by omega), accept_more hlow hhigh,
      units_ofNat_cons _ (by omega), accept_last (by omega) (by omega)]
    have hbits : (n / 0x1000 * 0x40 + (0x80 + n / 0x40 % 0x40) % 0x40) * 0x40
        + (0x80 + n % 0x40) % 0x40 = n := by omega
    rw [hbits, hchar]
    rfl
  · obtain ⟨low, high, hlead, hlow, hhigh⟩ := lead?_of_four (n := n) (by omega) (by omega)
    rw [if_neg hthree, List.cons_append, List.cons_append, List.cons_append,
      List.singleton_append, units_ofNat_cons none (by omega), accept_lead (by omega) hlead,
      units_ofNat_cons _ (by omega), accept_more hlow hhigh,
      units_ofNat_cons _ (by omega), accept_more (by omega) (by omega),
      units_ofNat_cons _ (by omega), accept_last (by omega) (by omega)]
    have hbits : ((n / 0x40000 * 0x40 + (0x80 + n / 0x1000 % 0x40) % 0x40) * 0x40
        + (0x80 + n / 0x40 % 0x40) % 0x40) * 0x40 + (0x80 + n % 0x40) % 0x40 = n := by omega
    rw [hbits, hchar]
    rfl

theorem units_encode (chars : List Char) :
    units none (chars.flatMap String.utf8EncodeChar) = chars.map some := by
  induction chars with
  | nil => rfl
  | cons c rest ih => rw [List.flatMap_cons, units_utf8EncodeChar, ih, List.map_cons]

/-- Decoding gives back what was encoded. -/
theorem decode_encode (text : String) : decode (encode text) = text := by
  have hchars : (units none (encode text)).map (·.getD replacement) = text.toList := by
    rw [encode, units_encode, List.map_map]
    exact List.map_id _
  rw [decode, hchars, String.ofList_toList]

end ManagedPrometheus.Utf8
