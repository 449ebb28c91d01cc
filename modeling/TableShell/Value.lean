import TableShell.Dictionary

/-!
# Attribute values and items

An item of a table gives each of its attributes a value. A number is kept as the text in which it
came, so that no digit is lost; a set keeps the order and the repetitions of what came. The names in
a map are in ascending order, and two values are equal if they were built alike (`Value.beq_iff`).
-/

namespace TableShell

/-- The value of an attribute. -/
inductive Value where
  | string (s : String)
  | number (text : String)
  | binary (bytes : List UInt8)
  | bool (b : Bool)
  | null
  | list (items : List Value)
  | map (entries : List (String × Value))
  | strings (set : List String)
  | numbers (set : List String)
  | binaries (set : List (List UInt8))
  deriving Repr, Inhabited

/-- A record of a table: its attributes and their values. -/
abbrev Item := Dictionary Value

namespace Value

mutual

/-- Two values are built alike. -/
def beq : Value → Value → Bool
  | string s, string t => s == t
  | number s, number t => s == t
  | binary s, binary t => s == t
  | bool s, bool t => s == t
  | null, null => true
  | list s, list t => beqItems s t
  | map s, map t => beqEntries s t
  | strings s, strings t => s == t
  | numbers s, numbers t => s == t
  | binaries s, binaries t => s == t
  | _, _ => false

/-- Two lists of values are built alike. -/
def beqItems : List Value → List Value → Bool
  | [], [] => true
  | v :: vs, w :: ws => beq v w && beqItems vs ws
  | _, _ => false

/-- Two lists of entries are built alike. -/
def beqEntries : List (String × Value) → List (String × Value) → Bool
  | [], [] => true
  | (m, v) :: vs, (n, w) :: ws => m == n && beq v w && beqEntries vs ws
  | _, _ => false

end

mutual

/-- The comparison of values finds every value equal to itself. -/
theorem beq_self : ∀ v : Value, beq v v = true
  | string _ | number _ | binary _ | bool _ | null | strings _ | numbers _ | binaries _ => by
    simp [beq]
  | list vs => by simp [beq, beqItems_self vs]
  | map es => by simp [beq, beqEntries_self es]

/-- The comparison of lists of values finds every list equal to itself. -/
theorem beqItems_self : ∀ vs : List Value, beqItems vs vs = true
  | [] => rfl
  | v :: vs => by simp [beqItems, beq_self v, beqItems_self vs]

/-- The comparison of the entries of maps finds every list of entries equal to itself. -/
theorem beqEntries_self : ∀ es : List (String × Value), beqEntries es es = true
  | [] => rfl
  | (_, v) :: es => by simp [beqEntries, beq_self v, beqEntries_self es]

end

mutual

/-- Values that the comparison finds equal are the same value. -/
theorem eq_of_beq : ∀ {v w : Value}, beq v w = true → v = w
  | string _, w, h | number _, w, h | binary _, w, h | bool _, w, h | null, w, h | strings _, w, h
  | numbers _, w, h | binaries _, w, h => by cases w <;> simp_all [beq]
  | list vs, w, h => by
    cases w <;> simp only [beq, Bool.false_eq_true] at h
    rw [eq_of_beqItems h]
  | map es, w, h => by
    cases w <;> simp only [beq, Bool.false_eq_true] at h
    rw [eq_of_beqEntries h]

/-- Lists of values that the comparison finds equal are the same list. -/
theorem eq_of_beqItems : ∀ {vs ws : List Value}, beqItems vs ws = true → vs = ws
  | [], ws, h => by cases ws <;> simp_all [beqItems]
  | v :: vs, ws, h => by
    cases ws with
    | nil => simp [beqItems] at h
    | cons w ws =>
      simp only [beqItems, Bool.and_eq_true] at h
      rw [eq_of_beq h.1, eq_of_beqItems h.2]

/-- Lists of entries that the comparison finds equal are the same list. -/
theorem eq_of_beqEntries : ∀ {es fs : List (String × Value)}, beqEntries es fs = true → es = fs
  | [], fs, h => by cases fs <;> simp_all [beqEntries]
  | (m, v) :: es, fs, h => by
    cases fs with
    | nil => simp [beqEntries] at h
    | cons f fs =>
      obtain ⟨n, w⟩ := f
      simp only [beqEntries, Bool.and_eq_true, beq_iff_eq] at h
      rw [h.1.1, eq_of_beq h.1.2, eq_of_beqEntries h.2]

end

/-- The comparison of values decides equality. -/
theorem beq_iff {v w : Value} : beq v w = true ↔ v = w := ⟨eq_of_beq, fun h => h ▸ beq_self v⟩

instance : DecidableEq Value := fun _ _ => decidable_of_iff _ beq_iff

end Value

instance : DecidableEq Item := fun a b =>
  decidable_of_iff (a.entries = b.entries)
    ⟨fun h => by cases a; cases b; simp_all, fun h => h ▸ rfl⟩

namespace Item

/-- The item with the given attributes. -/
def ofList (entries : List (String × Value)) : Item :=
  ⟨Entries.ofList entries, Entries.sorted_ofList _⟩

end Item

end TableShell
