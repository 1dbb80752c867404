import ManagedPrometheus.JsonText
import ManagedPrometheus.Proofs.JsonRecords
import Mathlib.Data.List.TakeDrop

/-!
# Reading the text of a value

A value is read from the text that is written for it (`Json.read?_write`). Decimals are left out: they
are written with an exponent of their own choice, and what the library writes has none. So is what
holds a string that stands for no text. What is left is `Json.Plain`.

The induction is on the value. What it carries is that the value is read whatever follows its text,
as long as it is something that ends an item, because a number would go on otherwise (`Json.Ends`),
and with any fuel above the length of the text (`Json.ReadsBack`). For each way in which lists and
objects are written there is one step of it.
-/

namespace ManagedPrometheus

namespace Json

/-! ### Strings -/

theorem unit?_of_lt {n : Nat} (h : n < 0x20) :
    unit? '0' '0' (hexDigit (n / 16)) (hexDigit (n % 16)) = some n := by
  revert n
  decide

/-- The piece as which a character is read that was written. -/
def piece (c : Char) : Piece :=
  if c.toNat < 0x20 ∧ c ≠ '\n' ∧ c ≠ '\r' ∧ c ≠ '\t' then .unit c.toNat else .char c

theorem readPieces_short {c char : Char} (hc : c ≠ 'u') (h : shortEscape? c = some char)
    (input : List Char) :
    readPieces ('\\' :: c :: input)
      = (readPieces input).map fun (pieces, left) => (.char char :: pieces, left) := by
  rw [readPieces.eq_4 c input fun _ _ _ _ _ hu _ => hc hu, h]
  rcases readPieces input with _ | ⟨pieces, left⟩ <;> rfl

theorem readPieces_unit {n : Nat} (h : n < 0x20) (input : List Char) :
    readPieces ('\\' :: 'u' :: '0' :: '0' :: hexDigit (n / 16) :: hexDigit (n % 16) :: input)
      = (readPieces input).map fun (pieces, left) => (.unit n :: pieces, left) := by
  rw [readPieces, unit?_of_lt h]
  rcases readPieces input with _ | ⟨pieces, left⟩ <;> rfl

theorem readPieces_plain {c : Char} (hquote : c ≠ '"') (hescape : c ≠ '\\')
    (hcontrol : ¬ c.toNat < 0x20) (input : List Char) :
    readPieces (c :: input)
      = (readPieces input).map fun (pieces, left) => (.char c :: pieces, left) := by
  rw [readPieces.eq_5 c input hquote (fun _ _ _ _ _ hc _ => hescape hc)
    fun _ _ hc _ => hescape hc]
  simp [hcontrol, hescape]

theorem readPieces_escape (c : Char) (input : List Char) :
    readPieces (escape c ++ input)
      = (readPieces input).map fun (pieces, left) => (piece c :: pieces, left) := by
  by_cases hquote : c = '"'
  · subst hquote
    exact readPieces_short (by decide) rfl input
  by_cases hescape : c = '\\'
  · subst hescape
    exact readPieces_short (by decide) rfl input
  by_cases hfeed : c = '\n'
  · subst hfeed
    exact readPieces_short (by decide) rfl input
  by_cases hreturn : c = '\r'
  · subst hreturn
    exact readPieces_short (by decide) rfl input
  by_cases htab : c = '\t'
  · subst htab
    exact readPieces_short (by decide) rfl input
  unfold escape piece
  rw [if_neg hquote, if_neg hescape, if_neg hfeed, if_neg hreturn, if_neg htab]
  by_cases hcontrol : c.toNat < 0x20
  · rw [if_pos hcontrol, if_pos ⟨hcontrol, hfeed, hreturn, htab⟩]
    exact readPieces_unit hcontrol input
  · rw [if_neg hcontrol, if_neg fun h => hcontrol h.1]
    exact readPieces_plain hquote hescape hcontrol input

theorem readPieces_written (chars rest : List Char) :
    readPieces (chars.flatMap escape ++ '"' :: rest) = some (chars.map piece, rest) := by
  induction chars with
  | nil => rfl
  | cons c chars ih =>
    rw [List.flatMap_cons, List.append_assoc, readPieces_escape, ih]
    rfl

/-- The unit of a control character is no half of a surrogate pair. -/
theorem not_surrogate_of_control {unit : Nat} (h : unit < 0x20) :
    isHighSurrogate unit = false ∧ isLowSurrogate unit = false := by
  constructor
  · simp [isHighSurrogate]
    omega
  · simp [isLowSurrogate]
    omega

theorem unitChar?_control {c : Char} (h : c.toNat < 0x20) : unitChar? c.toNat = some c := by
  obtain ⟨hhigh, hlow⟩ := not_surrogate_of_control h
  rw [unitChar?, hhigh, hlow, Char.ofNat_toNat]
  rfl

theorem pairChar?_control {unit : Nat} (h : unit < 0x20) (low : Nat) :
    pairChar? unit low = none := by
  rw [pairChar?, (not_surrogate_of_control h).1]
  rfl

theorem joinPieces_written (chars : List Char) : joinPieces (chars.map piece) = some chars := by
  induction chars with
  | nil => rfl
  | cons c chars ih =>
    rw [List.map_cons]
    by_cases hcontrol : c.toNat < 0x20 ∧ c ≠ '\n' ∧ c ≠ '\r' ∧ c ≠ '\t'
    · rw [piece, if_pos hcontrol]
      rcases hrest : chars.map piece with _ | ⟨plain | low, rest⟩
      · rw [joinPieces.eq_4 _ _ (by simp), unitChar?_control hcontrol.1, ← hrest, ih]
      · rw [joinPieces.eq_4 _ _ (by simp), unitChar?_control hcontrol.1, ← hrest, ih]
      · rw [joinPieces.eq_3, pairChar?_control hcontrol.1, unitChar?_control hcontrol.1, ← hrest, ih]
    · rw [piece, if_neg hcontrol, joinPieces, ih]
      rfl

theorem toList_quote (text : String) :
    (quote text).toList = '"' :: (text.toList.flatMap escape ++ ['"']) := by
  simp [quote]

theorem readString_written (text : String) (rest : List Char) :
    readString (text.toList.flatMap escape ++ '"' :: rest) = some (some text, rest) := by
  simp only [readString, readPieces_written, Option.map_some, joinPieces_written,
    String.ofList_toList]

/-! ### Numbers -/

/-- What may follow a number: nothing, or what ends an item or a member. -/
def Ends (rest : List Char) : Prop := ∀ c ∈ rest.head?, c = ',' ∨ c = ']' ∨ c = '\x7d'

theorem Ends.not_isDigit {rest : List Char} (h : Ends rest) :
    rest.takeWhile Char.isDigit = [] ∧ rest.dropWhile Char.isDigit = rest := by
  cases rest with
  | nil => exact ⟨rfl, rfl⟩
  | cons c rest =>
    have hc : c.isDigit = false := by
      rcases h c rfl with rfl | rfl | rfl <;> rfl
    simp [hc]

theorem isDigit_written (n : Nat) : ∀ c ∈ Nat.toDigits 10 n, c.isDigit = true := by
  intro c hc
  exact Nat.isDigit_of_mem_toDigits (by decide) (by decide) hc

theorem readDigits_written (n : Nat) {rest : List Char} (h : Ends rest) :
    readDigits (Nat.toDigits 10 n ++ rest) = some (Nat.toDigits 10 n, rest) := by
  have hspan : (Nat.toDigits 10 n ++ rest).span Char.isDigit = (Nat.toDigits 10 n, rest) := by
    rw [List.span_eq_takeWhile_dropWhile, List.takeWhile_append_of_pos (isDigit_written n),
      List.dropWhile_append_of_pos (isDigit_written n), h.not_isDigit.1, h.not_isDigit.2,
      List.append_nil]
  unfold readDigits
  rw [hspan]
  rcases hcons : Nat.toDigits 10 n with _ | ⟨c, digits⟩
  · exact absurd hcons Nat.toDigits_ne_nil
  · rfl

theorem digitsValue_written (n : Nat) : digitsValue (Nat.toDigits 10 n) = n := by
  calc digitsValue (Nat.toDigits 10 n)
    _ = Nat.ofDigitChars 10 (Nat.toDigits 10 n) 0 := by
      simp only [digitsValue, Nat.ofDigitChars_eq_foldl, Nat.mul_comm]
    _ = n := Nat.ofDigitChars_ten_toDigits

/-- A number is written without a leading zero, unless it is zero. -/
theorem head?_toDigits {n : Nat} (h : 0 < n) : (Nat.toDigits 10 n).head? ≠ some '0' := by
  induction n using Nat.strongRecOn with
  | ind n ih =>
    by_cases hsmall : n < 10
    · rw [Nat.toDigits_of_lt_base hsmall]
      simp
      omega
    · have hhead := ih (n / 10) (by omega) (by omega)
      rw [Nat.toDigits_of_base_le (by decide) (by omega), List.head?_append]
      rcases hcons : Nat.toDigits 10 (n / 10) with _ | ⟨c, digits⟩
      · exact absurd hcons Nat.toDigits_ne_nil
      · rw [hcons] at hhead
        exact hhead

theorem readFraction_of_ends {rest : List Char} (h : Ends rest) :
    readFraction rest = some ([], rest) := by
  cases rest with
  | nil => rfl
  | cons c rest => rcases h c rfl with rfl | rfl | rfl <;> rfl

theorem readExponent_of_ends {rest : List Char} (h : Ends rest) :
    readExponent rest = some (none, rest) := by
  cases rest with
  | nil => rfl
  | cons c rest => rcases h c rfl with rfl | rfl | rfl <;> rfl

theorem readUnsigned_written {negative : Bool} {n : Nat} (hn : negative = true → 0 < n)
    {rest : List Char} (h : Ends rest) :
    readUnsigned negative (Nat.toDigits 10 n ++ rest)
      = some (.int (if negative then -n else n), rest) := by
  have hleading : (decide ((Nat.toDigits 10 n).head? = some '0')
      && decide ((Nat.toDigits 10 n).length ≠ 1)) = false := by
    rcases Nat.eq_zero_or_pos n with rfl | hpos
    · rfl
    · rw [decide_eq_false (head?_toDigits hpos)]
      rfl
  have hsigned : (negative && decide ((n : Int) = 0)) = false := by
    cases negative with
    | false => rfl
    | true =>
      have hpos := hn rfl
      simp
      omega
  unfold readUnsigned
  simp only [readDigits_written n h, Option.bind_eq_bind, Option.bind_some, hleading,
    readFraction_of_ends h, readExponent_of_ends h, List.append_nil, digitsValue_written, hsigned]
  rfl

/-- An integer is written as the digits of its absolute value, after a sign if it is negative. -/
theorem toList_toString_int (n : Int) :
    (toString n).toList
      = if n < 0 then '-' :: Nat.toDigits 10 n.natAbs else Nat.toDigits 10 n.natAbs := by
  have hrepr : toString n = n.repr := rfl
  rw [hrepr, Int.repr_eq_if]
  by_cases hnegative : n < 0
  · rw [if_neg (by omega), if_pos hnegative, String.toList_append, Nat.toList_repr,
      show (-n).toNat = n.natAbs by omega]
    rfl
  · rw [if_pos (by omega), if_neg hnegative, Nat.toList_repr, show n.toNat = n.natAbs by omega]

theorem exists_digit (n : Nat) :
    ∃ c digits, Nat.toDigits 10 n = c :: digits ∧ c.isDigit = true := by
  rcases hcons : Nat.toDigits 10 n with _ | ⟨c, digits⟩
  · exact absurd hcons Nat.toDigits_ne_nil
  · exact ⟨c, digits, rfl, isDigit_written n c (hcons ▸ List.mem_cons_self)⟩

theorem readNumber_written (n : Int) {rest : List Char} (h : Ends rest) :
    readNumber ((toString n).toList ++ rest) = some (.int n, rest) := by
  rw [toList_toString_int]
  by_cases hnegative : n < 0
  · rw [if_pos hnegative, List.cons_append, readNumber, readUnsigned_written (by omega) h,
      if_pos rfl, show -(n.natAbs : Int) = n by omega]
  · obtain ⟨c, digits, hdigits, hc⟩ := exists_digit n.natAbs
    have hsign : ∀ more, Nat.toDigits 10 n.natAbs ++ rest = '-' :: more → False := by
      intro more hmore
      rw [hdigits] at hmore
      cases hmore
      cases hc
    rw [if_neg hnegative, readNumber.eq_2 _ hsign, readUnsigned_written (by simp) h,
      if_neg Bool.false_ne_true, show (n.natAbs : Int) = n by omega]

/-- What a number may open with. -/
def OpensNumber (c : Char) : Prop := c.isDigit = true ∨ c = '-'

theorem OpensNumber.ne {c : Char} (h : OpensNumber c) (d : Char) (hdigit : d.isDigit = false)
    (hsign : d ≠ '-') : c ≠ d := by
  rintro rfl
  rcases h with h | h
  · cases hdigit.symm.trans h
  · exact hsign h

theorem OpensNumber.not_isBlank {c : Char} (h : OpensNumber c) : isBlank c = false := by
  simp [isBlank, h.ne ' ' rfl, h.ne '\n' rfl, h.ne '\t' rfl, h.ne '\r' rfl]

theorem toString_opens (n : Int) :
    ∃ c rest, (toString n).toList = c :: rest ∧ OpensNumber c := by
  obtain ⟨c, digits, hdigits, hc⟩ := exists_digit n.natAbs
  rw [toList_toString_int, hdigits]
  by_cases hnegative : n < 0
  · rw [if_pos hnegative]
    exact ⟨_, _, rfl, .inr rfl⟩
  · rw [if_neg hnegative]
    exact ⟨_, _, rfl, .inl hc⟩

/-! ### Values -/

theorem skipBlanks_cons {c : Char} (h : isBlank c = false) (rest : List Char) :
    skipBlanks (c :: rest) = c :: rest := by
  rw [skipBlanks, List.dropWhile_cons, h]
  rfl

theorem readValue_quote (fuel : Nat) (text : String) (rest : List Char) :
    readValue (fuel + 1) ((quote text).toList ++ rest) = some (.text text, rest) := by
  rw [toList_quote, List.cons_append, List.append_assoc, readValue,
    skipBlanks_cons (by decide)]
  simp [readString_written]
  rfl

theorem readValue_number {c : Char} (h : OpensNumber c) (fuel : Nat) (rest : List Char) :
    readValue (fuel + 1) (c :: rest) = readNumber (c :: rest) := by
  rw [readValue, skipBlanks_cons h.not_isBlank]
  split
  case h_7 => rfl
  all_goals
    rename_i heq
    exact absurd (List.cons.inj heq).1 (h.ne _ (by decide) (by decide))

theorem readValue_int (fuel : Nat) (n : Int) {rest : List Char} (h : Ends rest) :
    readValue (fuel + 1) ((toString n).toList ++ rest) = some (.int n, rest) := by
  have hread := readNumber_written n h
  obtain ⟨c, digits, hopens, hc⟩ := toString_opens n
  rw [hopens] at hread ⊢
  rw [List.cons_append, readValue_number hc]
  exact hread

/-! ### Lists and objects -/

theorem readItems_last {fuel : Nat} {input left : List Char} {item : Json}
    (h : readValue fuel input = some (item, ']' :: left)) :
    readItems (fuel + 1) input = some ([item], left) := by
  rw [readItems, h]
  simp [skipBlanks_cons (show isBlank ']' = false by decide)]

theorem readItems_next {fuel : Nat} {input more : List Char} {item : Json}
    (h : readValue fuel input = some (item, ',' :: more)) :
    readItems (fuel + 1) input
      = (readItems fuel more).map fun (items, left) => (item :: items, left) := by
  rw [readItems, h]
  simp [skipBlanks_cons (show isBlank ',' = false by decide)]

theorem readMembers_last {fuel : Nat} {input left : List Char} {name : String} {value : Json}
    (h : readValue fuel input = some (value, '\x7d' :: left)) :
    readMembers (fuel + 1) ((quote name).toList ++ ':' :: input)
      = some ([(some name, value)], left) := by
  rw [readMembers, toList_quote, List.cons_append, List.append_assoc,
    skipBlanks_cons (by decide)]
  simp [readString_written, skipBlanks_cons (show isBlank ':' = false by decide), h,
    skipBlanks_cons (show isBlank '\x7d' = false by decide)]

theorem readMembers_next {fuel : Nat} {input more : List Char} {name : String} {value : Json}
    (h : readValue fuel input = some (value, ',' :: more)) :
    readMembers (fuel + 1) ((quote name).toList ++ ':' :: input)
      = (readMembers fuel more).map fun (members, left) => ((some name, value) :: members, left) := by
  rw [readMembers, toList_quote, List.cons_append, List.append_assoc,
    skipBlanks_cons (by decide)]
  simp [readString_written, skipBlanks_cons (show isBlank ':' = false by decide), h,
    skipBlanks_cons (show isBlank ',' = false by decide)]

theorem readValue_list {c : Char} (hblank : isBlank c = false) (hclose : c ≠ ']') (fuel : Nat)
    (rest : List Char) :
    readValue (fuel + 1) ('[' :: c :: rest)
      = (readItems fuel (c :: rest)).map fun (items, left) => (.list items, left) := by
  rw [readValue, skipBlanks_cons (by decide)]
  simp only [skipBlanks_cons hblank]
  split
  case h_1 heq => exact absurd (List.cons.inj heq).1 hclose
  case h_2 => rfl

theorem readValue_object (fuel : Nat) (rest : List Char) :
    readValue (fuel + 1) ('\x7b' :: '"' :: rest)
      = (readMembers fuel ('"' :: rest)).map fun (members, left) => (ofMembers members, left) := by
  rw [readValue, skipBlanks_cons (by decide)]
  simp only [skipBlanks_cons (show isBlank '"' = false by decide)]
  rfl

/-! ### Whole values -/

mutual

/-- A value that holds neither decimals nor what is ill-formed. -/
def Plain : Json → Prop
  | .null => True
  | .bool _ => True
  | .int _ => True
  | .decimal _ _ => False
  | .text _ => True
  | .list items => PlainItems items
  | .object members => PlainMembers members
  | .illFormed => False

def PlainItems : List Json → Prop
  | [] => True
  | item :: rest => Plain item ∧ PlainItems rest

def PlainMembers : List (String × Json) → Prop
  | [] => True
  | (_, value) :: rest => Plain value ∧ PlainMembers rest

end

theorem toList_write_list (items : List Json) :
    (write (.list items)).toList = '[' :: ((writeItems items).toList ++ [']']) := by
  simp [write]

theorem toList_write_object (members : List (String × Json)) :
    (write (.object members)).toList = '\x7b' :: ((writeMembers members).toList ++ ['\x7d']) := by
  simp [write]

theorem toList_writeItems_cons (item next : Json) (rest : List Json) :
    (writeItems (item :: next :: rest)).toList
      = (write item).toList ++ ',' :: (writeItems (next :: rest)).toList := by
  simp [writeItems]

theorem toList_writeMembers_single (name : String) (value : Json) :
    (writeMembers [(name, value)]).toList
      = (quote name).toList ++ ':' :: (write value).toList := by
  simp [writeMembers]

theorem toList_writeMembers_cons (name : String) (value : Json) (next : String × Json)
    (rest : List (String × Json)) :
    (writeMembers ((name, value) :: next :: rest)).toList
      = (quote name).toList ++ ':' :: ((write value).toList ++ ',' ::
          (writeMembers (next :: rest)).toList) := by
  simp [writeMembers]

/-- The text of a value opens with a character that is no blank and closes no list. -/
theorem write_opens {value : Json} (h : value.Plain) :
    ∃ c rest, (write value).toList = c :: rest ∧ isBlank c = false ∧ c ≠ ']' := by
  cases value with
  | null => exact ⟨_, _, rfl, by decide, by decide⟩
  | bool value => cases value <;> exact ⟨_, _, rfl, by decide, by decide⟩
  | int n =>
    obtain ⟨c, digits, hopens, hc⟩ := toString_opens n
    exact ⟨c, digits, hopens, hc.not_isBlank, hc.ne ']' rfl (by decide)⟩
  | decimal => cases h
  | text value => exact ⟨_, _, toList_quote value, by decide, by decide⟩
  | list items => exact ⟨_, _, toList_write_list items, by decide, by decide⟩
  | object members => exact ⟨_, _, toList_write_object members, by decide, by decide⟩
  | illFormed => cases h

theorem Ends.of_closing {c : Char} (h : c = ',' ∨ c = ']' ∨ c = '\x7d') (rest : List Char) :
    Ends (c :: rest) := by
  rintro d ⟨⟩
  exact h

/-- A value is read from its text, whatever ends it. -/
def ReadsBack (value : Json) : Prop :=
  ∀ (fuel : Nat) (rest : List Char), (write value).toList.length < fuel → Ends rest →
    readValue fuel ((write value).toList ++ rest) = some (value, rest)

/-- The items of a list are read from their text, up to the closing bracket. -/
def ItemsReadBack (items : List Json) : Prop :=
  ∀ (fuel : Nat) (rest : List Char), (writeItems items).toList.length + 1 < fuel →
    readItems fuel ((writeItems items).toList ++ ']' :: rest) = some (items, rest)

/-- The members of an object are read from their text, up to the closing brace. -/
def MembersReadBack (members : List (String × Json)) : Prop :=
  ∀ (fuel : Nat) (rest : List Char), (writeMembers members).toList.length + 1 < fuel →
    readMembers fuel ((writeMembers members).toList ++ '\x7d' :: rest)
      = some (members.map fun m => (some m.1, m.2), rest)

theorem ItemsReadBack.single {item : Json} (h : ReadsBack item) : ItemsReadBack [item] := by
  intro fuel rest hfuel
  obtain ⟨fuel, rfl⟩ := Nat.exists_eq_succ_of_ne_zero (Nat.ne_zero_of_lt hfuel)
  have hitem : writeItems [item] = write item := by rw [writeItems]
  rw [hitem] at hfuel ⊢
  exact readItems_last (h fuel _ (by omega) (.of_closing (by simp) rest))

theorem ItemsReadBack.cons {item next : Json} {rest : List Json} (h : ReadsBack item)
    (hrest : ItemsReadBack (next :: rest)) : ItemsReadBack (item :: next :: rest) := by
  intro fuel left hfuel
  obtain ⟨fuel, rfl⟩ := Nat.exists_eq_succ_of_ne_zero (Nat.ne_zero_of_lt hfuel)
  rw [toList_writeItems_cons, List.length_append, List.length_cons] at hfuel
  rw [toList_writeItems_cons, List.append_assoc, List.cons_append,
    readItems_next (h fuel _ (by omega) (.of_closing (by simp) _)), hrest fuel left (by omega)]
  rfl

theorem MembersReadBack.single {name : String} {value : Json} (h : ReadsBack value) :
    MembersReadBack [(name, value)] := by
  intro fuel rest hfuel
  obtain ⟨fuel, rfl⟩ := Nat.exists_eq_succ_of_ne_zero (Nat.ne_zero_of_lt hfuel)
  rw [toList_writeMembers_single, List.length_append, List.length_cons] at hfuel
  rw [toList_writeMembers_single, List.append_assoc, List.cons_append]
  exact readMembers_last (h fuel _ (by omega) (.of_closing (by simp) rest))

theorem MembersReadBack.cons {name : String} {value : Json} {next : String × Json}
    {rest : List (String × Json)} (h : ReadsBack value) (hrest : MembersReadBack (next :: rest)) :
    MembersReadBack ((name, value) :: next :: rest) := by
  intro fuel left hfuel
  obtain ⟨fuel, rfl⟩ := Nat.exists_eq_succ_of_ne_zero (Nat.ne_zero_of_lt hfuel)
  rw [toList_writeMembers_cons, List.length_append, List.length_cons, List.length_append,
    List.length_cons] at hfuel
  rw [toList_writeMembers_cons, List.append_assoc, List.cons_append, List.append_assoc,
    List.cons_append, readMembers_next (h fuel _ (by omega) (.of_closing (by simp) _)),
    hrest fuel left (by omega)]
  rfl

theorem writeItems_opens {item : Json} (h : item.Plain) (items : List Json) :
    ∃ c rest, (writeItems (item :: items)).toList = c :: rest ∧ isBlank c = false ∧ c ≠ ']' := by
  obtain ⟨c, rest, hopens, hc⟩ := write_opens h
  cases items with
  | nil => exact ⟨c, rest, by rw [writeItems, hopens], hc⟩
  | cons next items =>
    rw [toList_writeItems_cons, hopens]
    exact ⟨c, _, rfl, hc⟩

theorem writeMembers_opens (member : String × Json) (members : List (String × Json)) :
    ∃ rest, (writeMembers (member :: members)).toList = '"' :: rest := by
  obtain ⟨name, value⟩ := member
  cases members with
  | nil =>
    rw [toList_writeMembers_single, toList_quote]
    exact ⟨_, rfl⟩
  | cons next members =>
    rw [toList_writeMembers_cons, toList_quote]
    exact ⟨_, rfl⟩

theorem ofMembers_written (members : List (String × Json)) :
    ofMembers (members.map fun m => (some m.1, m.2)) = .object members := by
  have hnames : (members.map fun m => (some m.1, m.2)).mapM
      (fun m => m.1.map fun name => (name, m.2)) = some members :=
    mapM_eq_some_map members fun _ _ => rfl
  rw [ofMembers, hnames]

theorem ReadsBack.list {items : List Json} (hplain : PlainItems items)
    (h : items ≠ [] → ItemsReadBack items) : ReadsBack (.list items) := by
  intro fuel rest hfuel _
  obtain ⟨fuel, rfl⟩ := Nat.exists_eq_succ_of_ne_zero (Nat.ne_zero_of_lt hfuel)
  rw [toList_write_list, List.length_cons, List.length_append, List.length_singleton] at hfuel
  rw [toList_write_list, List.cons_append, List.append_assoc]
  rcases items with _ | ⟨item, items⟩
  · rw [readValue, skipBlanks_cons (by decide)]
    simp [writeItems, skipBlanks_cons (show isBlank ']' = false by decide)]
  · obtain ⟨c, more, hopens, hblank, hclose⟩ := writeItems_opens hplain.1 items
    have hitems := h (by simp) fuel rest (by omega)
    rw [hopens, List.cons_append] at hitems
    rw [hopens, List.cons_append, readValue_list hblank hclose]
    exact congrArg _ hitems

theorem ReadsBack.object {members : List (String × Json)}
    (h : members ≠ [] → MembersReadBack members) : ReadsBack (.object members) := by
  intro fuel rest hfuel _
  obtain ⟨fuel, rfl⟩ := Nat.exists_eq_succ_of_ne_zero (Nat.ne_zero_of_lt hfuel)
  rw [toList_write_object, List.length_cons, List.length_append, List.length_singleton] at hfuel
  rw [toList_write_object, List.cons_append, List.append_assoc]
  rcases members with _ | ⟨member, members⟩
  · rw [readValue, skipBlanks_cons (by decide)]
    simp [writeMembers, skipBlanks_cons (show isBlank '\x7d' = false by decide)]
  · obtain ⟨more, hopens⟩ := writeMembers_opens member members
    have hmembers := h (by simp) fuel rest (by omega)
    rw [hopens, List.cons_append] at hmembers
    rw [hopens, List.cons_append, readValue_object, List.singleton_append, hmembers]
    simp only [Option.map_some, ofMembers_written]

theorem ReadsBack.of_pos {value : Json}
    (h : ∀ (fuel : Nat) (rest : List Char), Ends rest →
      readValue (fuel + 1) ((write value).toList ++ rest) = some (value, rest)) :
    ReadsBack value := by
  intro fuel rest hfuel hends
  obtain ⟨fuel, rfl⟩ := Nat.exists_eq_succ_of_ne_zero (Nat.ne_zero_of_lt hfuel)
  exact h fuel rest hends

mutual

theorem readsBack : (value : Json) → value.Plain → ReadsBack value
  | .null, _ => .of_pos fun _ _ _ => rfl
  | .bool true, _ => .of_pos fun _ _ _ => rfl
  | .bool false, _ => .of_pos fun _ _ _ => rfl
  | .int n, _ => .of_pos fun fuel _ hends => readValue_int fuel n hends
  | .text value, _ => .of_pos fun fuel rest _ => readValue_quote fuel value rest
  | .list items, hplain => .list hplain (itemsReadBack items hplain)
  | .object members, hplain => .object (membersReadBack members hplain)

theorem itemsReadBack : (items : List Json) → PlainItems items → items ≠ [] → ItemsReadBack items
  | [item], hplain, _ => .single (readsBack item hplain.1)
  | item :: next :: items, hplain, _ =>
    .cons (readsBack item hplain.1) (itemsReadBack (next :: items) hplain.2 (by simp))

theorem membersReadBack : (members : List (String × Json)) → PlainMembers members →
    members ≠ [] → MembersReadBack members
  | [(_, value)], hplain, _ => .single (readsBack value hplain.1)
  | (_, value) :: next :: members, hplain, _ =>
    .cons (readsBack value hplain.1) (membersReadBack (next :: members) hplain.2 (by simp))

end

/-- A plain value is read from its text. -/
theorem read?_write {value : Json} (h : value.Plain) : read? (write value) = some value := by
  have hread := readsBack value h ((write value).toList.length + 1) [] (by omega) (by simp [Ends])
  rw [List.append_nil] at hread
  simp only [read?, hread]
  rfl

/-! ### Plain values -/

theorem plainItems_iff {items : List Json} : PlainItems items ↔ ∀ item ∈ items, item.Plain := by
  induction items with
  | nil => simp [PlainItems]
  | cons item rest ih => simp [PlainItems, ih]

theorem plainMembers_iff {members : List (String × Json)} :
    PlainMembers members ↔ ∀ member ∈ members, member.2.Plain := by
  induction members with
  | nil => simp [PlainMembers]
  | cons member rest ih => simp [PlainMembers, ih]

theorem mem_of_mem_foldl_setEntry {entries made : List (String × Json)} {entry : String × Json}
    (h : entry ∈ entries.foldl (fun made m => setEntry m.1 m.2 made) made) :
    entry ∈ entries ∨ entry ∈ made := by
  induction entries generalizing made with
  | nil => exact .inr h
  | cons head rest ih =>
    rcases ih h with hrest | hmade
    · exact .inl (List.mem_cons_of_mem head hrest)
    · rcases mem_setEntry hmade with rfl | hmade
      · exact .inl List.mem_cons_self
      · exact .inr hmade

theorem plain_recordSome {fields : List (String × Option Json)}
    (h : ∀ field ∈ fields, ∀ value ∈ field.2, value.Plain) : (recordSome fields).Plain := by
  apply plainMembers_iff.mpr
  intro member hmember
  rcases mem_of_mem_foldl_setEntry hmember with hmember | hnone
  · obtain ⟨field, hfield, hvalue⟩ := List.mem_filterMap.mp hmember
    obtain ⟨value, hset, rfl⟩ := Option.map_eq_some_iff.mp hvalue
    exact h field hfield value hset
  · cases hnone

theorem plain_ofMap (map : TextMap String) : (ofMap map).Plain := by
  apply plainMembers_iff.mpr
  intro member hmember
  obtain ⟨entry, -, rfl⟩ := List.mem_map.mp hmember
  trivial

theorem plain_ofTexts (texts : List String) : (ofTexts texts).Plain := by
  apply plainItems_iff.mpr
  intro item hitem
  obtain ⟨text, -, rfl⟩ := List.mem_map.mp hitem
  trivial

end Json

end ManagedPrometheus
