/-!
# Finite maps keyed by text

Tags, labels, label sets and settings are finite maps from text to a value. A map is kept as its
entries in ascending order of key (code point by code point, which is also the order of the keys'
UTF-8 bytes), each key once. So two maps with the same look-ups are equal (`TextMap.ext_get?`), and
the order in which a map is written is fixed by its contents.
-/

namespace ManagedPrometheus

variable {α β : Type}

/-! ### Entry lists -/

/-- Gives `key` the value `value` in an ascending entry list. -/
def setEntry (key : String) (value : α) : List (String × α) → List (String × α)
  | [] => [(key, value)]
  | (k, v) :: rest =>
    if key < k then (key, value) :: (k, v) :: rest
    else if k < key then (k, v) :: setEntry key value rest
    else (key, value) :: rest

/-- The value of the first entry of `key`. -/
def findEntry (key : String) : List (String × α) → Option α
  | [] => none
  | (k, v) :: rest => if key = k then some v else findEntry key rest

def dropEntry (key : String) (entries : List (String × α)) : List (String × α) :=
  entries.filter fun e => e.1 ≠ key

/-- Strictly ascending keys. -/
def Ascending (entries : List (String × α)) : Prop :=
  entries.Pairwise fun a b => a.1 < b.1

instance (entries : List (String × α)) : Decidable (Ascending entries) :=
  inferInstanceAs (Decidable (List.Pairwise _ _))

theorem key_eq_of_not_lt {a b : String} (hab : ¬ a < b) (hba : ¬ b < a) : a = b :=
  String.le_antisymm (String.not_lt.1 hba) (String.not_lt.1 hab)

theorem mem_setEntry {key : String} {value : α} {entries : List (String × α)}
    {e : String × α} (h : e ∈ setEntry key value entries) : e = (key, value) ∨ e ∈ entries := by
  induction entries with
  | nil => simpa [setEntry] using h
  | cons head rest ih =>
    obtain ⟨k, v⟩ := head
    simp only [setEntry] at h
    split at h
    · simpa using h
    · split at h
      · rcases List.mem_cons.1 h with rfl | h
        · simp
        · rcases ih h with h | h <;> simp [h]
      · rcases List.mem_cons.1 h with h | h <;> simp [h]

theorem Ascending.setEntry {key : String} {value : α} {entries : List (String × α)}
    (h : Ascending entries) : Ascending (setEntry key value entries) := by
  induction entries with
  | nil => simp [ManagedPrometheus.setEntry, Ascending]
  | cons head rest ih =>
    obtain ⟨k, v⟩ := head
    have hhead : ∀ e ∈ rest, k < e.1 := (List.pairwise_cons.1 h).1
    have hrest : Ascending rest := (List.pairwise_cons.1 h).2
    simp only [ManagedPrometheus.setEntry]
    split
    · rename_i hlt
      refine List.pairwise_cons.2 ⟨fun e he => ?_, h⟩
      rcases List.mem_cons.1 he with rfl | he
      · exact hlt
      · exact String.lt_trans hlt (hhead e he)
    · split
      · rename_i hlt
        refine List.pairwise_cons.2 ⟨fun e he => ?_, ih hrest⟩
        rcases mem_setEntry he with rfl | he
        · exact hlt
        · exact hhead e he
      · rename_i h1 h2
        obtain rfl := key_eq_of_not_lt h1 h2
        exact List.pairwise_cons.2 ⟨hhead, hrest⟩

theorem Ascending.filter {entries : List (String × α)} (h : Ascending entries)
    (keep : String × α → Bool) : Ascending (entries.filter keep) :=
  List.Pairwise.filter keep h

theorem findEntry_setEntry (key other : String) (value : α) (entries : List (String × α)) :
    findEntry other (setEntry key value entries)
      = if other = key then some value else findEntry other entries := by
  induction entries with
  | nil => rfl
  | cons head rest ih =>
    obtain ⟨k, v⟩ := head
    simp only [setEntry]
    split
    · simp only [findEntry]
    · split
      · rename_i hlt
        by_cases hk : other = k
        · subst hk
          have hne : other ≠ key := fun he => String.lt_irrefl key (he ▸ hlt)
          simp [findEntry, hne]
        · simp [findEntry, hk, ih]
      · rename_i h1 h2
        obtain rfl := key_eq_of_not_lt h1 h2
        by_cases h : other = key <;> simp [findEntry, h]

theorem findEntry_filter (keep : String → Bool) (other : String) (entries : List (String × α)) :
    findEntry other (entries.filter fun e => keep e.1)
      = if keep other then findEntry other entries else none := by
  induction entries with
  | nil => simp [findEntry]
  | cons head rest ih =>
    obtain ⟨k, v⟩ := head
    by_cases hk : other = k
    · subst hk
      by_cases h : keep other <;> simp [findEntry, h, ih]
    · by_cases h : keep k <;> simp [findEntry, h, hk, ih]

theorem findEntry_dropEntry (key other : String) (entries : List (String × α)) :
    findEntry other (dropEntry key entries)
      = if other = key then none else findEntry other entries := by
  have h := findEntry_filter (fun k => decide (k ≠ key)) other entries
  rw [dropEntry, h]
  by_cases ho : other = key <;> simp [ho]

theorem findEntry_eq_none_of_forall_lt {key : String} {entries : List (String × α)}
    (h : ∀ e ∈ entries, key < e.1) : findEntry key entries = none := by
  induction entries with
  | nil => rfl
  | cons head rest ih =>
    have hne : key ≠ head.1 := fun he => String.lt_irrefl head.1 (he ▸ h head (by simp))
    simpa [findEntry, hne] using ih fun e he => h e (by simp [he])

/-- An ascending list holds exactly the pairs that its look-ups give. -/
theorem mem_iff_findEntry {entries : List (String × α)} (h : Ascending entries)
    (key : String) (value : α) : (key, value) ∈ entries ↔ findEntry key entries = some value := by
  induction entries with
  | nil => simp [findEntry]
  | cons head rest ih =>
    obtain ⟨k, v⟩ := head
    have hhead : ∀ e ∈ rest, k < e.1 := (List.pairwise_cons.1 h).1
    have hrest : Ascending rest := (List.pairwise_cons.1 h).2
    by_cases hk : key = k
    · subst hk
      have hnot : (key, value) ∉ rest := fun hm => String.lt_irrefl key (hhead _ hm)
      simp [findEntry, hnot, eq_comm]
    · simp [findEntry, hk, ih hrest]

theorem Ascending.ext_findEntry {xs ys : List (String × α)} (hx : Ascending xs)
    (hy : Ascending ys) (h : ∀ key, findEntry key xs = findEntry key ys) : xs = ys := by
  induction xs generalizing ys with
  | nil =>
    cases ys with
    | nil => rfl
    | cons head rest => simpa [findEntry] using h head.1
  | cons x xs ih =>
    cases ys with
    | nil => simpa [findEntry] using h x.1
    | cons y ys =>
      obtain ⟨a, v⟩ := x
      obtain ⟨b, w⟩ := y
      have hxs : ∀ e ∈ xs, a < e.1 := (List.pairwise_cons.1 hx).1
      have hys : ∀ e ∈ ys, b < e.1 := (List.pairwise_cons.1 hy).1
      have missing : ∀ {c d : String} {u : α} {zs : List (String × α)}, c < d →
          (∀ e ∈ zs, d < e.1) → findEntry c ((d, u) :: zs) = none := by
        intro c d u zs hcd hzs
        refine findEntry_eq_none_of_forall_lt fun e he => ?_
        rcases List.mem_cons.1 he with rfl | he
        · exact hcd
        · exact String.lt_trans hcd (hzs e he)
      have hab : a = b := by
        refine key_eq_of_not_lt (fun hlt => ?_) (fun hlt => ?_)
        · have hkey := h a
          rw [missing hlt hys] at hkey
          simp [findEntry] at hkey
        · have hkey := h b
          rw [missing hlt hxs] at hkey
          simp [findEntry] at hkey
      subst hab
      have hvw : v = w := by simpa [findEntry] using h a
      subst hvw
      have htail : xs = ys := by
        refine ih (List.pairwise_cons.1 hx).2 (List.pairwise_cons.1 hy).2 fun key => ?_
        by_cases hk : key = a
        · subst hk
          rw [findEntry_eq_none_of_forall_lt hxs, findEntry_eq_none_of_forall_lt hys]
        · simpa [findEntry, hk] using h key
      rw [htail]

/-! ### Maps -/

/-- A finite map from text to `α`: its entries, strictly ascending by key. -/
structure TextMap (α : Type) where
  entries : List (String × α)
  ascending : Ascending entries
  deriving DecidableEq

namespace TextMap

def empty : TextMap α := ⟨[], List.Pairwise.nil⟩

instance : Inhabited (TextMap α) := ⟨empty⟩

def get? (map : TextMap α) (key : String) : Option α := findEntry key map.entries

def size (map : TextMap α) : Nat := map.entries.length

def isEmpty (map : TextMap α) : Bool := map.entries.isEmpty

def contains (map : TextMap α) (key : String) : Bool := (map.get? key).isSome

/-- The keys, ascending. -/
def keys (map : TextMap α) : List String := map.entries.map (·.1)

/-- Gives a key a value, in place of the one it has. -/
def insert (map : TextMap α) (key : String) (value : α) : TextMap α :=
  ⟨setEntry key value map.entries, map.ascending.setEntry⟩

/-- Keeps the keys that pass a test. -/
def filterKeys (map : TextMap α) (keep : String → Bool) : TextMap α :=
  ⟨map.entries.filter fun e => keep e.1, map.ascending.filter _⟩

/-- Keeps the entries that pass a test. -/
def filter (map : TextMap α) (keep : String → α → Bool) : TextMap α :=
  ⟨map.entries.filter fun e => keep e.1 e.2, map.ascending.filter _⟩

/-- Adds the pairs from left to right, so the last value given to a key stays. -/
def insertAll (map : TextMap α) (pairs : List (String × α)) : TextMap α :=
  pairs.foldl (fun m pair => m.insert pair.1 pair.2) map

/-- The map of a list of pairs; of two values for one key the last counts. -/
def ofList (pairs : List (String × α)) : TextMap α := empty.insertAll pairs

theorem ext_get? {a b : TextMap α} (h : ∀ key, a.get? key = b.get? key) : a = b := by
  obtain ⟨xs, hx⟩ := a
  obtain ⟨ys, hy⟩ := b
  obtain rfl : xs = ys := hx.ext_findEntry hy h
  rfl

@[simp] theorem get?_empty (key : String) : (empty : TextMap α).get? key = none := rfl

@[simp] theorem get?_insert (map : TextMap α) (key other : String) (value : α) :
    (map.insert key value).get? other = if other = key then some value else map.get? other :=
  findEntry_setEntry key other value map.entries

@[simp] theorem get?_filterKeys (map : TextMap α) (keep : String → Bool) (key : String) :
    (map.filterKeys keep).get? key = if keep key then map.get? key else none :=
  findEntry_filter keep key map.entries

theorem mem_entries (map : TextMap α) (key : String) (value : α) :
    (key, value) ∈ map.entries ↔ map.get? key = some value :=
  mem_iff_findEntry map.ascending key value

end TextMap

end ManagedPrometheus
