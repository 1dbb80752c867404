import ManagedPrometheus.Settings
import Mathlib.Data.List.Induction
import Mathlib.Data.List.TakeWhile
import Mathlib.Data.Nat.Digits.Defs

/-!
# Texts that name numbers

A text names a number if, without the blanks at either end, it is one or more ASCII digits, perhaps
behind a plus sign. `Settings.number?` reads exactly these texts, up to its limit
(`number?_eq_some_iff`). It adds digit by digit and gives up as soon as the limit is passed. That
agrees with the number that all digits denote together, as no further digit brings it down again.
-/

namespace ManagedPrometheus

/-! ### Stripping blanks -/

/-- `core` is what is left of `chars` without the blanks at either end. -/
structure Strips (chars core : List Char) : Prop where
  parts : ∃ before after, chars = before ++ (core ++ after) ∧
    (∀ c ∈ before, isBlank c = true) ∧ ∀ c ∈ after, isBlank c = true
  starts : ∀ c ∈ core.head?, isBlank c = false
  ends : ∀ c ∈ core.getLast?, isBlank c = false

theorem dropWhile_isBlank_eq_self {chars : List Char} (h : ∀ c ∈ chars.head?, isBlank c = false) :
    chars.dropWhile isBlank = chars := by
  cases chars with
  | nil => rfl
  | cons c rest => exact List.dropWhile_cons_of_neg (by simp [h c rfl])

theorem not_isBlank_of_head?_dropWhile (chars : List Char) :
    ∀ c ∈ (chars.dropWhile isBlank).head?, isBlank c = false := by
  intro c hc
  have hstop := List.head?_dropWhile_not isBlank chars
  rw [Option.mem_def.mp hc] at hstop
  exact hstop

theorem strips_trimBlanks (chars : List Char) : Strips chars (trimBlanks chars) := by
  let rest := chars.dropWhile isBlank
  have hrest : rest = trimBlanks chars ++ (rest.reverse.takeWhile isBlank).reverse := by
    rw [trimBlanks, ← List.reverse_append, List.takeWhile_append_dropWhile, List.reverse_reverse]
  constructor
  case parts =>
    refine ⟨chars.takeWhile isBlank, (rest.reverse.takeWhile isBlank).reverse, ?_, ?_, ?_⟩
    · rw [← hrest]
      exact List.takeWhile_append_dropWhile.symm
    · intro c hc
      exact List.mem_takeWhile_imp hc
    · intro c hc
      exact List.mem_takeWhile_imp (List.mem_reverse.mp hc)
  case starts =>
    intro c hc
    apply not_isBlank_of_head?_dropWhile chars c
    change c ∈ rest.head?
    rw [hrest, List.head?_append, Option.mem_def.mp hc]
    rfl
  case ends =>
    intro c hc
    apply not_isBlank_of_head?_dropWhile rest.reverse c
    rwa [trimBlanks, List.getLast?_reverse] at hc

theorem Strips.eq_trimBlanks {chars core : List Char} (h : Strips chars core) :
    core = trimBlanks chars := by
  obtain ⟨⟨before, after, rfl, hbefore, hafter⟩, hstarts, hends⟩ := h
  rw [trimBlanks, List.dropWhile_append_of_pos hbefore]
  rcases core with _ | ⟨c, rest⟩
  · have hnone : after.dropWhile isBlank = [] := List.dropWhile_eq_nil_iff.mpr hafter
    rw [List.nil_append, hnone]
    rfl
  · have hafter' : ∀ c ∈ after.reverse, isBlank c = true := by
      intro c hc
      exact hafter c (List.mem_reverse.mp hc)
    have hcore : ((c :: rest) ++ after).dropWhile isBlank = (c :: rest) ++ after :=
      dropWhile_isBlank_eq_self hstarts
    rw [hcore, List.reverse_append, List.dropWhile_append_of_pos hafter',
      dropWhile_isBlank_eq_self, List.reverse_reverse]
    rwa [List.head?_reverse]

theorem strips_iff {chars core : List Char} : Strips chars core ↔ core = trimBlanks chars := by
  constructor
  · exact Strips.eq_trimBlanks
  · intro h
    rw [h]
    exact strips_trimBlanks chars

/-! ### Digits -/

/-- The number that digits denote, the last one counting once, the one before it ten times, and so
on. -/
def numeralValue (digits : List Char) : Nat :=
  Nat.ofDigits 10 (digits.reverse.map fun c => c.toNat - '0'.toNat)

/-- One or more ASCII digits that denote a number. -/
structure Denotes (digits : List Char) (n : Nat) : Prop where
  nonempty : digits ≠ []
  ascii : ∀ c ∈ digits, c.isDigit = true
  value : numeralValue digits = n

/-- A text that names a number up to a limit. -/
structure NamesNumber (limit : Nat) (text : String) (n : Nat) : Prop where
  spelled : ∃ sign digits, Strips text.toList (sign ++ digits) ∧ (sign = [] ∨ sign = ['+']) ∧
    Denotes digits n
  inRange : n ≤ limit

theorem numeralValue_append (digits : List Char) (c : Char) :
    numeralValue (digits ++ [c]) = numeralValue digits * 10 + (c.toNat - '0'.toNat) := by
  rw [numeralValue, List.reverse_append, List.map_append, List.reverse_singleton,
    List.map_singleton, List.singleton_append, Nat.ofDigits_cons, numeralValue]
  omega

namespace Settings

variable {limit n : Nat}

theorem appendDigit_eq_some_iff {m? : Option Nat} {c : Char} :
    appendDigit limit m? c = some n ↔
      ∃ m, m? = some m ∧ c.isDigit = true ∧ m * 10 + (c.toNat - '0'.toNat) = n ∧ n ≤ limit := by
  rcases m? with _ | m
  · simp [appendDigit]
  · by_cases hdigit : c.isDigit = true
    · simp only [appendDigit, if_pos hdigit]
      split <;> grind
    · simp [appendDigit, hdigit]

theorem foldl_appendDigit_iff {chars : List Char} :
    chars.foldl (appendDigit limit) (some 0) = some n ↔
      (∀ c ∈ chars, c.isDigit = true) ∧ numeralValue chars = n ∧ n ≤ limit := by
  induction chars using List.reverseRecOn generalizing n with
  | nil =>
    have hzero : numeralValue [] = 0 := rfl
    simp only [List.foldl_nil, hzero]
    grind
  | append_singleton chars c ih =>
    rw [List.foldl_append, List.foldl_cons, List.foldl_nil, appendDigit_eq_some_iff,
      numeralValue_append]
    constructor
    · rintro ⟨m, hm, hdigit, hsum, hlimit⟩
      obtain ⟨hdigits, rfl, -⟩ := ih.mp hm
      refine ⟨?_, hsum, hlimit⟩
      intro d hd
      rcases List.mem_append.mp hd with hd | hd
      · exact hdigits d hd
      · rwa [List.mem_singleton.mp hd]
    · rintro ⟨hdigits, hsum, hlimit⟩
      -- the sum did not pass the limit before its last digit
      have hbefore : numeralValue chars ≤ limit := by omega
      refine ⟨numeralValue chars, ih.mpr ⟨?_, rfl, hbefore⟩, ?_, hsum, hlimit⟩
      · intro d hd
        exact hdigits d (List.mem_append_left _ hd)
      · exact hdigits c (by simp)

theorem digits?_eq_some_iff {chars : List Char} :
    digits? limit chars = some n ↔ Denotes chars n ∧ n ≤ limit := by
  rcases chars with _ | ⟨c, rest⟩
  · constructor
    · intro h
      cases h
    · rintro ⟨h, -⟩
      exact absurd rfl h.nonempty
  · change (c :: rest).foldl (appendDigit limit) (some 0) = some n ↔ _
    rw [foldl_appendDigit_iff]
    constructor
    · rintro ⟨hdigits, hvalue, hlimit⟩
      exact ⟨⟨by simp, hdigits, hvalue⟩, hlimit⟩
    · rintro ⟨h, hlimit⟩
      exact ⟨h.ascii, h.value, hlimit⟩

theorem number?_eq_some_iff {text : String} :
    number? limit text = some n ↔ NamesNumber limit text n := by
  rw [number?]
  constructor
  · intro h
    split at h
    · rename_i digits hcore
      obtain ⟨hdenotes, hlimit⟩ := digits?_eq_some_iff.mp h
      exact ⟨⟨['+'], digits, strips_iff.mpr hcore.symm, .inr rfl, hdenotes⟩, hlimit⟩
    · obtain ⟨hdenotes, hlimit⟩ := digits?_eq_some_iff.mp h
      exact ⟨⟨[], _, strips_trimBlanks _, .inl rfl, hdenotes⟩, hlimit⟩
  · rintro ⟨⟨sign, digits, hstrips, hsign, hdenotes⟩, hlimit⟩
    rw [← hstrips.eq_trimBlanks]
    rcases hsign with rfl | rfl
    · -- digits without a sign are not taken for a sign and digits
      rcases digits with _ | ⟨c, rest⟩
      · exact absurd rfl hdenotes.nonempty
      · have hplus : c ≠ '+' := by
          rintro rfl
          cases hdenotes.ascii '+' List.mem_cons_self
        split
        · rename_i rest' heq
          exact absurd (List.cons.inj heq).1 hplus
        · exact digits?_eq_some_iff.mpr ⟨hdenotes, hlimit⟩
    · exact digits?_eq_some_iff.mpr ⟨hdenotes, hlimit⟩

end Settings

end ManagedPrometheus
