import ManagedPrometheus.Proofs.Utf8RoundTrip

/-!
# Reading any bytes

What `decode` makes of any bytes, stated apart from the automaton. A character has several bit
layouts, and its *sequence* is the shortest of them (`IsSequence`). So there is no sequence for a
surrogate or a number past the last code point, none is overlong, and none lacks bytes. Any bytes
can be cut into sequences and ill-formed parts, and an ill-formed part is as long as the beginning
of a sequence there can be (`IllFormedPart`). That cut is unique (`ReadsAs.unique`), and it is the
one that the automaton makes (`readsAs_iff`).

What ties the automaton to sequences is `Awaits`. When a sequence has begun, the state says by which
bytes it can be completed, and no byte that the state refuses can go on with it.
-/

namespace ManagedPrometheus.Utf8

/-! ### Sequences -/

/-- A byte after the first of a sequence. -/
def Continues (b : UInt8) : Prop := 0x80 ≤ b.toNat ∧ b.toNat ≤ 0xBF

/-- The bit layouts of a number. The lead byte tells how many bytes there are, and each byte after
it holds six bits. -/
inductive Spells : List UInt8 → Nat → Prop
  | one {a : UInt8} {n : Nat} (ha : a.toNat < 0x80) (hn : n = a.toNat) : Spells [a] n
  | two {a b : UInt8} {n : Nat} (ha : 0xC0 ≤ a.toNat ∧ a.toNat ≤ 0xDF) (hb : Continues b)
      (hn : n = (a.toNat - 0xC0) * 0x40 + (b.toNat - 0x80)) : Spells [a, b] n
  | three {a b c : UInt8} {n : Nat} (ha : 0xE0 ≤ a.toNat ∧ a.toNat ≤ 0xEF) (hb : Continues b)
      (hc : Continues c)
      (hn : n = (a.toNat - 0xE0) * 0x1000 + (b.toNat - 0x80) * 0x40 + (c.toNat - 0x80)) :
      Spells [a, b, c] n
  | four {a b c d : UInt8} {n : Nat} (ha : 0xF0 ≤ a.toNat ∧ a.toNat ≤ 0xF7) (hb : Continues b)
      (hc : Continues c) (hd : Continues d)
      (hn : n = (a.toNat - 0xF0) * 0x40000 + (b.toNat - 0x80) * 0x1000 + (c.toNat - 0x80) * 0x40
        + (d.toNat - 0x80)) :
      Spells [a, b, c, d] n

/-- The sequence of a character: the shortest layout of its number. -/
structure IsSequence (bytes : List UInt8) (c : Char) : Prop where
  spells : Spells bytes c.toNat
  shortest : ∀ other, Spells other c.toNat → bytes.length ≤ other.length

/-- Bytes that are sequences from end to end. -/
inductive WellFormed : List UInt8 → Prop
  | nil : WellFormed []
  | append {part rest : List UInt8} {c : Char} (hpart : IsSequence part c)
      (hrest : WellFormed rest) : WellFormed (part ++ rest)

/-- The numbers below this one fit into so many bytes. -/
def room (length : Nat) : Nat :=
  if length = 0 then 0
  else if length = 1 then 0x80
  else if length = 2 then 0x800
  else if length = 3 then 0x10000
  else 0x200000

theorem room_mono {a b : Nat} (h : a ≤ b) : room a ≤ room b := by
  unfold room
  repeat' split
  all_goals omega

theorem Spells.lt_room {s : List UInt8} {n : Nat} (h : Spells s n) : n < room s.length := by
  cases h with
  | one ha hn =>
    show n < 0x80
    omega
  | two ha hb hn =>
    show n < 0x800
    simp only [Continues] at hb
    omega
  | three ha hb hc hn =>
    show n < 0x10000
    simp only [Continues] at hb hc
    omega
  | four ha hb hc hd hn =>
    show n < 0x200000
    simp only [Continues] at hb hc hd
    omega

/-- How many bytes follow a lead byte. -/
def following (lead : Nat) : Nat :=
  if lead < 0xC0 then 0 else if lead < 0xE0 then 1 else if lead < 0xF0 then 2 else 3

theorem Spells.length_tail {a : UInt8} {tail : List UInt8} {n : Nat} (h : Spells (a :: tail) n) :
    tail.length = following a.toNat := by
  unfold following
  cases h with
  | one ha => rw [if_pos (by omega)]; rfl
  | two ha => rw [if_neg (by omega), if_pos (by omega)]; rfl
  | three ha => rw [if_neg (by omega), if_neg (by omega), if_pos (by omega)]; rfl
  | four ha => rw [if_neg (by omega), if_neg (by omega), if_neg (by omega)]; rfl

/-- Layouts of one length differ in their numbers. -/
theorem Spells.eq_of_length {s t : List UInt8} {n : Nat} (hs : Spells s n) (ht : Spells t n)
    (hlength : s.length = t.length) : s = t := by
  cases hs <;> cases ht <;> simp at hlength
  all_goals
    simp only [Continues, List.cons.injEq, ← UInt8.toNat_inj, and_true] at *
    omega

/-- A number that has no room in fewer bytes has no shorter layout. -/
theorem length_le_of_room_le {bytes other : List UInt8} {n : Nat}
    (hleast : room (bytes.length - 1) ≤ n) (hother : Spells other n) :
    bytes.length ≤ other.length := by
  apply Nat.not_lt.mp
  intro hshorter
  have hroom : room other.length ≤ room (bytes.length - 1) := room_mono (by omega)
  have hlt := hother.lt_room
  omega

theorem spells_utf8EncodeChar (c : Char) : Spells (String.utf8EncodeChar c) c.toNat := by
  have hvalid : c.toNat < 0xD800 ∨ 0xDFFF < c.toNat ∧ c.toNat < 0x110000 := c.valid
  have hbyte {b : Nat} (hb : b < 0x100) : (UInt8.ofNat b).toNat = b :=
    UInt8.toNat_ofNat_of_lt' (by simpa [UInt8.size] using hb)
  have hsix (n : Nat) : (UInt8.ofNat (0x80 + n % 0x40)).toNat = 0x80 + n % 0x40 :=
    hbyte (by omega)
  have hcontinues (n : Nat) : Continues (UInt8.ofNat (0x80 + n % 0x40)) := by
    rw [Continues, hsix]
    omega
  rw [utf8EncodeChar_eq]
  generalize c.toNat = n at hvalid
  by_cases hone : n < 0x80
  · rw [if_pos hone]
    have hlead : (UInt8.ofNat n).toNat = n := hbyte (by omega)
    exact .one (by omega) hlead.symm
  rw [if_neg hone]
  by_cases htwo : n < 0x800
  · rw [if_pos htwo]
    have hlead : (UInt8.ofNat (0xC0 + n / 0x40)).toNat = 0xC0 + n / 0x40 := hbyte (by omega)
    refine .two (by omega) (hcontinues _) ?_
    rw [hlead, hsix]
    omega
  rw [if_neg htwo]
  by_cases hthree : n < 0x10000
  · rw [if_pos hthree]
    have hlead : (UInt8.ofNat (0xE0 + n / 0x1000)).toNat = 0xE0 + n / 0x1000 := hbyte (by omega)
    refine .three (by omega) (hcontinues _) (hcontinues _) ?_
    rw [hlead, hsix, hsix]
    omega
  · rw [if_neg hthree]
    have hlead : (UInt8.ofNat (0xF0 + n / 0x40000)).toNat = 0xF0 + n / 0x40000 := hbyte (by omega)
    refine .four (by omega) (hcontinues _) (hcontinues _) (hcontinues _) ?_
    rw [hlead, hsix, hsix, hsix]
    omega

theorem room_utf8EncodeChar_le (c : Char) :
    room ((String.utf8EncodeChar c).length - 1) ≤ c.toNat := by
  rw [utf8EncodeChar_eq]
  split
  · exact Nat.zero_le _
  · rename_i hone
    split
    · exact Nat.not_lt.mp hone
    · rename_i htwo
      split
      · exact Nat.not_lt.mp htwo
      · rename_i hthree
        exact Nat.not_lt.mp hthree

/-- A character's sequence is what is written for it. -/
theorem isSequence_iff {bytes : List UInt8} {c : Char} :
    IsSequence bytes c ↔ bytes = String.utf8EncodeChar c := by
  constructor
  · intro h
    apply h.spells.eq_of_length (spells_utf8EncodeChar c)
    apply Nat.le_antisymm
    · exact h.shortest _ (spells_utf8EncodeChar c)
    · exact length_le_of_room_le (room_utf8EncodeChar_le c) h.spells
  · rintro rfl
    exact ⟨spells_utf8EncodeChar c,
      fun _ hother => length_le_of_room_le (room_utf8EncodeChar_le c) hother⟩

theorem Spells.isSequence {bytes : List UInt8} {n : Nat} (h : Spells bytes n)
    (hvalid : n.isValidChar) (hleast : room (bytes.length - 1) ≤ n) :
    IsSequence bytes (Char.ofNat n) := by
  have hnumber : (Char.ofNat n).toNat = n := by
    rw [Char.ofNat, dif_pos hvalid]
    rfl
  rw [← hnumber] at h hleast
  exact ⟨h, fun _ hother => length_le_of_room_le hleast hother⟩

namespace IsSequence

variable {bytes : List UInt8} {c : Char}

theorem ne_nil (h : IsSequence bytes c) : bytes ≠ [] := by
  rintro rfl
  cases h.spells

theorem room_le (h : IsSequence bytes c) : room (bytes.length - 1) ≤ c.toNat := by
  rw [isSequence_iff.mp h]
  exact room_utf8EncodeChar_le c

/-- No sequence begins another one. -/
theorem eq_nil_of_append {tail : List UInt8} {d : Char} (h : IsSequence bytes c)
    (hlonger : IsSequence (bytes ++ tail) d) : tail = [] := by
  obtain ⟨a, rest, rfl⟩ := List.exists_cons_of_ne_nil h.ne_nil
  have hlength : (rest ++ tail).length = rest.length :=
    hlonger.spells.length_tail.trans h.spells.length_tail.symm
  rw [List.length_append] at hlength
  exact List.eq_nil_of_length_eq_zero (by omega)

theorem unique {d : Char} (h : IsSequence bytes c) (hother : IsSequence bytes d) : c = d := by
  have hread : some c :: units none [] = some d :: units none [] := by
    rw [← units_utf8EncodeChar, ← units_utf8EncodeChar, ← isSequence_iff.mp h,
      ← isSequence_iff.mp hother]
  exact Option.some.inj (List.cons.inj hread).1

theorem lead {a : UInt8} {tail : List UInt8} (h : IsSequence (a :: tail) c) :
    a.toNat < 0x80 ∨ 0xC2 ≤ a.toNat ∧ a.toNat ≤ 0xF4 := by
  have hvalid : c.toNat < 0xD800 ∨ 0xDFFF < c.toNat ∧ c.toNat < 0x110000 := c.valid
  cases h.spells with
  | one ha => exact .inl ha
  | two ha hb =>
    have hleast : 0x80 ≤ c.toNat := h.room_le
    simp only [Continues] at hb
    omega
  | three ha => omega
  | four ha hb hc hd =>
    simp only [Continues] at hb hc hd
    omega

end IsSequence

/-! ### The states of a sequence -/

/-- A byte that a state lets follow. -/
def Pending.Allows (p : Pending) (b : UInt8) : Prop := p.low ≤ b.toNat ∧ b.toNat ≤ p.high

instance (p : Pending) (b : UInt8) : Decidable (p.Allows b) := inferInstanceAs (Decidable (_ ∧ _))

/-- The bytes that complete a sequence from a state. -/
def Pending.Completes (p : Pending) (tail : List UInt8) : Prop :=
  ∃ b rest, tail = b :: rest ∧ p.Allows b ∧ rest.length = p.more ∧ ∀ c ∈ rest, Continues c

/-- The number made of the bits read so far and six bits of each further byte. -/
def spelled (bits : Nat) (tail : List UInt8) : Nat :=
  tail.foldl (fun bits b => bits * 0x40 + b.toNat % 0x40) bits

/-- The state after the first bytes of a sequence. -/
structure Awaits (seen : List UInt8) (p : Pending) : Prop where
  begun : seen ≠ []
  allows : ∃ b, p.Allows b
  of_completes : ∀ tail, p.Completes tail → ∃ c, IsSequence (seen ++ tail) c
  completes : ∀ tail c, IsSequence (seen ++ tail) c →
    p.Completes tail ∧ c.toNat = spelled p.bits tail

namespace Awaits

variable {seen : List UInt8} {p : Pending}

/-- A byte that is let through, and is not the last, leads to the next state. -/
theorem more (h : Awaits seen p) {more : Nat} (hmore : p.more = more + 1) {b : UInt8}
    (hb : p.Allows b) :
    Awaits (seen ++ [b]) ⟨0x80, 0xBF, more, p.bits * 0x40 + b.toNat % 0x40⟩ where
  begun := by simp
  allows := ⟨0x80, by simp [Pending.Allows]⟩
  of_completes tail := by
    rintro ⟨c, rest, rfl, hc, hlength, hrest⟩
    rw [List.append_assoc]
    apply h.of_completes
    refine ⟨b, c :: rest, rfl, hb, by rw [List.length_cons, hlength, hmore], ?_⟩
    intro other hother
    rcases List.mem_cons.mp hother with rfl | hother
    · exact hc
    · exact hrest other hother
  completes tail c hsequence := by
    rw [List.append_assoc] at hsequence
    obtain ⟨⟨first, rest, htail, -, hlength, hrest⟩, hnumber⟩ := h.completes _ c hsequence
    obtain ⟨rfl, rfl⟩ : b = first ∧ tail = rest := by simpa using htail
    refine ⟨?_, hnumber⟩
    rw [hmore] at hlength
    obtain ⟨next, others, rfl⟩ := List.exists_cons_of_length_eq_add_one hlength
    refine ⟨next, others, rfl, hrest next List.mem_cons_self, by simpa using hlength, ?_⟩
    intro other hother
    exact hrest other (List.mem_cons_of_mem next hother)

/-- After the last byte there is the character of the bits. -/
theorem last (h : Awaits seen p) (hmore : p.more = 0) {b : UInt8} (hb : p.Allows b) :
    IsSequence (seen ++ [b]) (Char.ofNat (p.bits * 0x40 + b.toNat % 0x40)) := by
  obtain ⟨c, hc⟩ := h.of_completes [b] ⟨b, [], rfl, hb, hmore.symm, by simp⟩
  have hnumber : c.toNat = p.bits * 0x40 + b.toNat % 0x40 := (h.completes [b] c hc).2
  rwa [← hnumber, Char.ofNat_toNat]

theorem exists_tail (h : Awaits seen p) : ∃ tail c, tail ≠ [] ∧ IsSequence (seen ++ tail) c := by
  obtain ⟨b, hb⟩ := h.allows
  let tail := b :: List.replicate p.more (0x80 : UInt8)
  have htail : p.Completes tail := by
    refine ⟨b, _, rfl, hb, List.length_replicate, ?_⟩
    intro c hc
    rw [List.eq_of_mem_replicate hc]
    exact ⟨by decide, by decide⟩
  obtain ⟨c, hc⟩ := h.of_completes tail htail
  exact ⟨tail, c, by simp [tail], hc⟩

theorem of_two {a : UInt8} (ha : 0xC2 ≤ a.toNat ∧ a.toNat ≤ 0xDF) :
    Awaits [a] ⟨0x80, 0xBF, 0, a.toNat - 0xC0⟩ where
  begun := by simp
  allows := ⟨0x80, by simp [Pending.Allows]⟩
  of_completes tail := by
    rintro ⟨b, rest, rfl, hb, hlength, -⟩
    obtain rfl := List.eq_nil_of_length_eq_zero hlength
    have hspells : Spells [a, b] _ := .two (by omega) hb rfl
    simp only [Pending.Allows] at hb
    refine ⟨_, hspells.isSequence (.inl (by omega)) ?_⟩
    show 0x80 ≤ _
    omega
  completes tail c h := by
    cases h.spells with
    | one ha => omega
    | @two _ b _ _ hb hn =>
      refine ⟨⟨b, [], rfl, hb, rfl, by simp⟩, ?_⟩
      simp only [Continues] at hb
      simp only [spelled, List.foldl_cons, List.foldl_nil]
      omega
    | three ha => omega
    | four ha => omega

theorem of_three {a : UInt8} {low high : Nat} (ha : 0xE0 ≤ a.toNat ∧ a.toNat ≤ 0xEF)
    (hrange : ∀ b, low ≤ b ∧ b ≤ high ↔ (0x80 ≤ b ∧ b ≤ 0xBF) ∧
      (a.toNat = 0xE0 → 0xA0 ≤ b) ∧ (a.toNat = 0xED → b ≤ 0x9F)) :
    Awaits [a] ⟨low, high, 1, a.toNat - 0xE0⟩ where
  begun := by simp
  allows := by
    by_cases hfirst : a.toNat = 0xE0
    · exact ⟨0xA0, (hrange 0xA0).mpr (by omega)⟩
    · exact ⟨0x80, (hrange 0x80).mpr (by omega)⟩
  of_completes tail := by
    rintro ⟨b, rest, rfl, hallowed, hlength, hrest⟩
    obtain ⟨c, rfl⟩ := List.length_eq_one_iff.mp hlength
    obtain ⟨hb, hlow, hhigh⟩ := (hrange b.toNat).mp hallowed
    have hc : Continues c := hrest c List.mem_cons_self
    have hspells : Spells [a, b, c] _ := .three ha hb hc rfl
    simp only [Continues] at hc
    refine ⟨_, hspells.isSequence ?_ ?_⟩
    · simp only [Nat.isValidChar]
      omega
    · show 0x800 ≤ _
      omega
  completes tail ch h := by
    have hvalid : ch.toNat < 0xD800 ∨ 0xDFFF < ch.toNat ∧ ch.toNat < 0x110000 := ch.valid
    cases h.spells with
    | one ha => omega
    | two ha => omega
    | @three _ b c _ _ hb hc hn =>
      have hleast : 0x800 ≤ ch.toNat := h.room_le
      have hsix := hc
      simp only [Continues] at hb hsix
      refine ⟨⟨b, [c], rfl, (hrange b.toNat).mpr (by omega), rfl, by simpa using hc⟩, ?_⟩
      simp only [spelled, List.foldl_cons, List.foldl_nil]
      omega
    | four ha => omega

theorem of_four {a : UInt8} {low high : Nat} (ha : 0xF0 ≤ a.toNat ∧ a.toNat ≤ 0xF4)
    (hrange : ∀ b, low ≤ b ∧ b ≤ high ↔ (0x80 ≤ b ∧ b ≤ 0xBF) ∧
      (a.toNat = 0xF0 → 0x90 ≤ b) ∧ (a.toNat = 0xF4 → b ≤ 0x8F)) :
    Awaits [a] ⟨low, high, 2, a.toNat - 0xF0⟩ where
  begun := by simp
  allows := by
    by_cases hfirst : a.toNat = 0xF0
    · exact ⟨0x90, (hrange 0x90).mpr (by omega)⟩
    · exact ⟨0x80, (hrange 0x80).mpr (by omega)⟩
  of_completes tail := by
    rintro ⟨b, rest, rfl, hallowed, hlength, hrest⟩
    obtain ⟨c, last, rfl⟩ := List.exists_cons_of_length_eq_add_one hlength
    obtain ⟨d, rfl⟩ := List.length_eq_one_iff.mp (Nat.succ.inj hlength)
    obtain ⟨hb, hlow, hhigh⟩ := (hrange b.toNat).mp hallowed
    have hc : Continues c := hrest c (by simp)
    have hd : Continues d := hrest d (by simp)
    have hspells : Spells [a, b, c, d] _ := .four (by omega) hb hc hd rfl
    simp only [Continues] at hc hd
    refine ⟨_, hspells.isSequence ?_ ?_⟩
    · simp only [Nat.isValidChar]
      omega
    · show 0x10000 ≤ _
      omega
  completes tail ch h := by
    have hvalid : ch.toNat < 0xD800 ∨ 0xDFFF < ch.toNat ∧ ch.toNat < 0x110000 := ch.valid
    cases h.spells with
    | one ha => omega
    | two ha => omega
    | three ha => omega
    | @four _ b c d _ _ hb hc hd hn =>
      have hleast : 0x10000 ≤ ch.toNat := h.room_le
      have hsix := hc
      have hlast := hd
      simp only [Continues] at hb hsix hlast
      refine ⟨⟨b, [c, d], rfl, (hrange b.toNat).mpr (by omega), rfl, by simpa using ⟨hc, hd⟩⟩, ?_⟩
      simp only [spelled, List.foldl_cons, List.foldl_nil]
      omega

/-- The states that lead bytes open. -/
theorem lead {a : UInt8} {p : Pending} (h : lead? a.toNat = some p) : Awaits [a] p := by
  unfold lead? at h
  split at h
  · obtain rfl := Option.some.inj h
    exact of_two ‹_›
  split at h
  · rename_i hE0
    obtain rfl := Option.some.inj h
    have hlead : Awaits [a] ⟨0xA0, 0xBF, 1, a.toNat - 0xE0⟩ := of_three (by omega) (by omega)
    rwa [hE0] at hlead
  split at h
  · rename_i hED
    obtain rfl := Option.some.inj h
    have hlead : Awaits [a] ⟨0x80, 0x9F, 1, a.toNat - 0xE0⟩ := of_three (by omega) (by omega)
    rwa [hED] at hlead
  split at h
  · obtain rfl := Option.some.inj h
    exact of_three (by omega) (by omega)
  split at h
  · rename_i hF0
    obtain rfl := Option.some.inj h
    have hlead : Awaits [a] ⟨0x90, 0xBF, 2, a.toNat - 0xF0⟩ := of_four (by omega) (by omega)
    rwa [hF0] at hlead
  split at h
  · obtain rfl := Option.some.inj h
    exact of_four (by omega) (by omega)
  split at h
  · rename_i hF4
    obtain rfl := Option.some.inj h
    have hlead : Awaits [a] ⟨0x80, 0x8F, 2, a.toNat - 0xF0⟩ := of_four (by omega) (by omega)
    rwa [hF4] at hlead
  · cases h

end Awaits

theorem isSome_lead? {b : Nat} (h : 0xC2 ≤ b ∧ b ≤ 0xF4) : (lead? b).isSome = true := by
  grind [lead?]

/-! ### Ill-formed parts -/

/-- Some sequence begins with these bytes. -/
def Opens (bytes : List UInt8) : Prop := ∃ tail c, IsSequence (bytes ++ tail) c

/-- An ill-formed part and the bytes after it. No sequence begins there, and the part is the longest
beginning of a sequence that does, or else a single byte. -/
structure IllFormedPart (part rest : List UInt8) : Prop where
  unreadable : ∀ sequence c, IsSequence sequence c → ¬ sequence <+: part ++ rest
  opens : Opens part ∨ part.length = 1
  nonempty : part ≠ []
  longest : ∀ longer, longer <+: part ++ rest → Opens longer → longer.length ≤ part.length

/-- How the first part of some bytes reads: as the character of a sequence, or as ill-formed. -/
inductive ReadsPart (part rest : List UInt8) : Option Char → Prop
  | sequence {c : Char} (h : IsSequence part c) : ReadsPart part rest (some c)
  | illFormed (h : IllFormedPart part rest) : ReadsPart part rest none

/-- How bytes read, part by part. -/
inductive ReadsAs : List UInt8 → List (Option Char) → Prop
  | nil : ReadsAs [] []
  | part {part rest : List UInt8} {unit : Option Char} {others : List (Option Char)}
      (hpart : ReadsPart part rest unit) (hrest : ReadsAs rest others) :
      ReadsAs (part ++ rest) (unit :: others)

/-- The bytes of a sequence after which no byte comes that its state lets through. -/
theorem Awaits.illFormedPart {seen : List UInt8} {p : Pending} (h : Awaits seen p)
    {rest : List UInt8} (hrest : ∀ b others, rest = b :: others → ¬ p.Allows b) :
    IllFormedPart seen rest := by
  have hlongest : ∀ longer, longer <+: seen ++ rest → Opens longer →
      longer.length ≤ seen.length := by
    rintro longer hprefix ⟨tail, c, hsequence⟩
    apply Nat.not_lt.mp
    intro hlength
    obtain ⟨more, rfl⟩ := List.prefix_of_prefix_length_le (List.prefix_append seen rest) hprefix
      (Nat.le_of_lt hlength)
    obtain ⟨b, others, rfl⟩ : ∃ b others, more = b :: others := by
      apply List.exists_cons_of_ne_nil
      rintro rfl
      simp at hlength
    obtain ⟨after, hafter⟩ := (List.prefix_append_right_inj seen).mp hprefix
    rw [List.append_assoc] at hsequence
    obtain ⟨⟨first, _, hfirst, hallowed, -⟩, -⟩ := h.completes _ c hsequence
    obtain rfl : b = first := (List.cons.inj hfirst).1
    exact hrest b (others ++ after) hafter.symm hallowed
  obtain ⟨tail, c, htail, hcompleted⟩ := h.exists_tail
  refine ⟨?_, .inl ⟨tail, c, hcompleted⟩, h.begun, hlongest⟩
  intro sequence d hsequence hprefix
  have hlength := hlongest sequence hprefix ⟨[], d, by rwa [List.append_nil]⟩
  obtain ⟨more, rfl⟩ := List.prefix_of_prefix_length_le hprefix (List.prefix_append seen rest)
    hlength
  rw [List.append_assoc] at hcompleted
  exact htail (List.append_eq_nil_iff.mp (hsequence.eq_nil_of_append hcompleted)).2

/-- A byte with which no sequence begins. -/
theorem illFormedPart_single {a : UInt8} (hbegin : ∀ tail c, ¬ IsSequence (a :: tail) c)
    (rest : List UInt8) : IllFormedPart [a] rest := by
  refine ⟨?_, .inr rfl, by simp, ?_⟩
  · intro sequence c hsequence hprefix
    obtain ⟨b, tail, rfl⟩ := List.exists_cons_of_ne_nil hsequence.ne_nil
    obtain rfl : b = a := (List.cons_prefix_cons.mp hprefix).1
    exact hbegin tail c hsequence
  · rintro longer hprefix ⟨tail, c, hsequence⟩
    cases longer with
    | nil => simp
    | cons b others =>
      obtain rfl : b = a := (List.cons_prefix_cons.mp hprefix).1
      exact absurd hsequence (hbegin _ c)

theorem IllFormedPart.length_le {part rest other after : List UInt8}
    (h : IllFormedPart part rest) (hother : IllFormedPart other after)
    (hbytes : part ++ rest = other ++ after) : part.length ≤ other.length := by
  rcases h.opens with hopens | hsingle
  · exact hother.longest part (hbytes ▸ List.prefix_append part rest) hopens
  · rw [hsingle]
    exact List.length_pos_iff.mpr hother.nonempty

theorem ReadsPart.ne_nil {part rest : List UInt8} {unit : Option Char}
    (h : ReadsPart part rest unit) : part ≠ [] := by
  cases h with
  | sequence h => exact h.ne_nil
  | illFormed h => exact h.nonempty

/-- Bytes have one first part, which reads in one way. -/
theorem ReadsPart.unique {part rest other after : List UInt8} {unit another : Option Char}
    (h : ReadsPart part rest unit) (hother : ReadsPart other after another)
    (hbytes : part ++ rest = other ++ after) : part = other ∧ unit = another := by
  have hprefix : part <+: other ++ after := hbytes ▸ List.prefix_append part rest
  cases h with
  | sequence hsequence =>
    cases hother with
    | sequence hanother =>
      have hsame : part = other := by
        rcases List.prefix_or_prefix_of_prefix hprefix (List.prefix_append other after)
          with ⟨more, rfl⟩ | ⟨more, rfl⟩
        · rw [hsequence.eq_nil_of_append hanother, List.append_nil]
        · rw [hanother.eq_nil_of_append hsequence, List.append_nil]
      subst hsame
      exact ⟨rfl, congrArg some (hsequence.unique hanother)⟩
    | illFormed hill => exact absurd hprefix (hill.unreadable part _ hsequence)
  | illFormed hill =>
    cases hother with
    | sequence hanother =>
      exact absurd (hbytes ▸ List.prefix_append other after) (hill.unreadable other _ hanother)
    | illFormed hanother =>
      have hlength : part.length = other.length :=
        Nat.le_antisymm (hill.length_le hanother hbytes) (hanother.length_le hill hbytes.symm)
      exact ⟨(List.append_inj hbytes hlength).1, rfl⟩

theorem ReadsAs.unique {bytes : List UInt8} {read other : List (Option Char)}
    (h : ReadsAs bytes read) (hother : ReadsAs bytes other) : read = other := by
  induction h generalizing other with
  | nil =>
    generalize hbytes : ([] : List UInt8) = bytes at hother
    cases hother with
    | nil => rfl
    | part hpart => exact absurd (List.append_eq_nil_iff.mp hbytes.symm).1 hpart.ne_nil
  | @part part rest unit others hpart _ ih =>
    generalize hbytes : part ++ rest = bytes at hother
    cases hother with
    | nil => exact absurd (List.append_eq_nil_iff.mp hbytes).1 hpart.ne_nil
    | part hanother hafter =>
      obtain ⟨rfl, rfl⟩ := hpart.unique hanother hbytes
      obtain rfl := List.append_cancel_left hbytes
      rw [ih hafter]

/-! ### What the automaton reads -/

theorem accept_refused {p : Pending} {b : UInt8} (h : ¬ p.Allows b) :
    accept (some p) b.toNat = (none :: (accept none b.toNat).1, (accept none b.toNat).2) :=
  if_neg h

/-- From a state the automaton goes on to the end of the sequence, or up to the first byte that is
not let through, and reads that anew. -/
theorem Awaits.exists_part {seen : List UInt8} {p : Pending} (h : Awaits seen p)
    (bytes : List UInt8) :
    ∃ part rest unit, seen ++ bytes = part ++ rest ∧ ReadsPart part rest unit ∧
      units (some p) bytes = unit :: units none rest := by
  induction bytes generalizing seen p with
  | nil => exact ⟨seen, [], none, rfl, .illFormed (h.illFormedPart (by simp)), rfl⟩
  | cons b rest ih =>
    by_cases hb : p.Allows b
    · rw [List.append_cons]
      obtain ⟨low, high, _ | more, bits⟩ := p
      · rw [units, accept_last hb.1 hb.2]
        exact ⟨seen ++ [b], rest, _, rfl, .sequence (h.last rfl hb), rfl⟩
      · rw [units, accept_more hb.1 hb.2]
        exact ih (h.more rfl hb)
    · have hanew : units (some p) (b :: rest) = none :: units none (b :: rest) := by
        rw [units, accept_refused hb]
        rfl
      refine ⟨seen, b :: rest, none, rfl, .illFormed (h.illFormedPart ?_), hanew⟩
      intro first others hfirst
      obtain rfl : b = first := (List.cons.inj hfirst).1
      exact hb

theorem exists_part_cons (a : UInt8) (bytes : List UInt8) :
    ∃ part rest unit, a :: bytes = part ++ rest ∧ ReadsPart part rest unit ∧
      units none (a :: bytes) = unit :: units none rest := by
  by_cases hascii : a.toNat < 0x80
  · have hspells : Spells [a] a.toNat := .one hascii rfl
    have hsequence := hspells.isSequence (.inl (by omega)) (Nat.zero_le _)
    refine ⟨[a], bytes, _, rfl, .sequence hsequence, ?_⟩
    simp [units, accept, start, hascii]
  · rcases hlead : lead? a.toNat with _ | p
    · refine ⟨[a], bytes, none, rfl, .illFormed (illFormedPart_single ?_ bytes), ?_⟩
      · intro tail c hsequence
        rcases hsequence.lead with hlow | hrange
        · exact hascii hlow
        · have hsome := isSome_lead? hrange
          rw [hlead] at hsome
          cases hsome
      · simp [units, accept, start, hascii, hlead]
    · rw [units, accept_lead (Nat.not_lt.mp hascii) hlead]
      exact (Awaits.lead hlead).exists_part bytes

theorem readsAs_units (bytes : List UInt8) : ReadsAs bytes (units none bytes) := by
  induction hlength : bytes.length using Nat.strongRecOn generalizing bytes with
  | ind length ih =>
    cases bytes with
    | nil => exact .nil
    | cons a bytes =>
      obtain ⟨part, rest, unit, hbytes, hpart, hunits⟩ := exists_part_cons a bytes
      have hshorter : rest.length < length := by
        have hnonempty := List.length_pos_iff.mpr hpart.ne_nil
        rw [← hlength, hbytes, List.length_append]
        omega
      rw [hunits, hbytes]
      exact .part hpart (ih rest.length hshorter rest rfl)

/-- Bytes without an ill-formed part are well-formed. -/
theorem ReadsAs.wellFormed {bytes : List UInt8} {read : List (Option Char)}
    (h : ReadsAs bytes read) (hread : none ∉ read) : WellFormed bytes := by
  induction h with
  | nil => exact .nil
  | part hpart _ ih =>
    cases hpart with
    | sequence hsequence =>
      apply WellFormed.append hsequence
      apply ih
      intro hothers
      exact hread (List.mem_cons_of_mem _ hothers)
    | illFormed => exact absurd List.mem_cons_self hread

theorem readsAs_iff {bytes : List UInt8} {read : List (Option Char)} :
    ReadsAs bytes read ↔ read = units none bytes := by
  constructor
  · intro h
    exact h.unique (readsAs_units bytes)
  · rintro rfl
    exact readsAs_units bytes

theorem ReadsAs.toList_decode {bytes : List UInt8} {read : List (Option Char)}
    (h : ReadsAs bytes read) : (decode bytes).toList = read.map (·.getD replacement) := by
  rw [readsAs_iff.mp h]
  exact String.toList_ofList

/-! ### Encoding again -/

theorem wellFormed_encode (text : String) : WellFormed (encode text) := by
  rw [encode]
  induction text.toList with
  | nil => exact .nil
  | cons c rest ih => exact .append (isSequence_iff.mpr rfl) ih

theorem wellFormed_iff {bytes : List UInt8} : WellFormed bytes ↔ ∃ text, encode text = bytes := by
  constructor
  · intro h
    induction h with
    | nil => exact ⟨"", rfl⟩
    | @append part rest c hpart _ ih =>
      obtain ⟨text, rfl⟩ := ih
      refine ⟨String.ofList (c :: text.toList), ?_⟩
      rw [encode, String.toList_ofList, List.flatMap_cons, isSequence_iff.mp hpart]
      rfl
  · rintro ⟨text, rfl⟩
    exact wellFormed_encode text

/-- Nothing is lost exactly if the bytes are well-formed. -/
theorem encode_decode_iff {bytes : List UInt8} :
    encode (decode bytes) = bytes ↔ WellFormed bytes := by
  rw [wellFormed_iff]
  constructor
  · intro h
    exact ⟨decode bytes, h⟩
  · rintro ⟨text, rfl⟩
    rw [decode_encode]

/-- **Texts and bytes.** A text that is encoded is decoded to itself. Any bytes read in one way, cut
into sequences and ill-formed parts, and are decoded to the characters of the sequences with a
replacement character for each ill-formed part. What is decoded is a text, and encoding it gives the
bytes back exactly if they are well-formed. -/
theorem decode_exact (text : String) (bytes : List UInt8) :
    decode (encode text) = text ∧
      (∃ read, ReadsAs bytes read ∧ (∀ other, ReadsAs bytes other → other = read) ∧
        (decode bytes).toList = read.map (·.getD replacement)) ∧
      WellFormed (encode (decode bytes)) ∧
      (encode (decode bytes) = bytes ↔ WellFormed bytes) := by
  refine ⟨decode_encode text, ⟨units none bytes, readsAs_units bytes, ?_, ?_⟩, ?_, ?_⟩
  · intro other hother
    exact readsAs_iff.mp hother
  · exact (readsAs_units bytes).toList_decode
  · exact wellFormed_encode (decode bytes)
  · exact encode_decode_iff

example : decode [0xF0, 0x9F, 0x41, 0xFF] = "\uFFFDA\uFFFD" := by decide

end ManagedPrometheus.Utf8
