/-!
# Dictionaries

A finite map from names to values, kept in ascending order of the names (the order of their code
points). `Entries` are lists of such pairs, on which the operations are defined; a `Dictionary` is a
list of entries that is in order, and every operation keeps it so (`Entries.Sorted.insert`,
`Entries.Sorted.erase`). What an operation does to the values is said by `find?_insert` and
`find?_erase`.
-/

namespace TableShell

namespace Entries

variable {α : Type}

/-- The value of a name. -/
def find? (name : String) : List (String × α) → Option α
  | [] => none
  | (k, v) :: es => if k = name then some v else find? name es

/-- The entries with a value for the name, put before the first greater name. -/
def insert (name : String) (value : α) : List (String × α) → List (String × α)
  | [] => [(name, value)]
  | (k, v) :: es =>
    if name < k then (name, value) :: (k, v) :: es
    else if name = k then (name, value) :: es
    else (k, v) :: insert name value es

/-- The entries without the name. -/
def erase (name : String) (es : List (String × α)) : List (String × α) :=
  es.filter fun e => !(e.1 == name)

/-- The entries in order; of two values for one name the later one counts. -/
def ofList (es : List (String × α)) : List (String × α) :=
  es.foldl (fun acc e => insert e.1 e.2 acc) []

/-- The names are in strictly ascending order. -/
def Sorted (es : List (String × α)) : Prop := es.Pairwise fun a b => a.1 < b.1

/-! ## Values -/

@[simp] theorem find?_nil (name : String) : find? name ([] : List (String × α)) = none := rfl

/-- Inserting gives the name its value and leaves the others alone. -/
theorem find?_insert (name other : String) (value : α) (es : List (String × α)) :
    find? other (insert name value es) = if name = other then some value else find? other es := by
  induction es with
  | nil => simp [insert, find?]
  | cons e es ih =>
    obtain ⟨k, v⟩ := e
    rw [insert]
    split
    · simp [find?]
    · split
      · next h =>
        subst h
        simp only [find?]
        split <;> rfl
      · next hne =>
        simp only [find?, ih]
        split
        · next hk => subst hk; simp [hne]
        · rfl

/-! ## Order -/

/-- An entry of a list that an entry was put into is that entry or was there before. -/
theorem mem_insert {name : String} {value : α} {es : List (String × α)} {e : String × α}
    (h : e ∈ insert name value es) : e = (name, value) ∨ e ∈ es := by
  induction es with
  | nil => simpa [insert] using h
  | cons f es ih =>
    obtain ⟨k, v⟩ := f
    rw [insert] at h
    split at h
    · exact (List.mem_cons.1 h).imp_right id
    · split at h
      · exact (List.mem_cons.1 h).imp_right (List.mem_cons_of_mem _)
      · rcases List.mem_cons.1 h with h | h
        · exact .inr (h ▸ List.mem_cons_self)
        · exact (ih h).imp_right (List.mem_cons_of_mem _)

/-- Putting an entry into a sorted list leaves it sorted: names stay distinct and in byte order. -/
theorem Sorted.insert {name : String} {value : α} {es : List (String × α)} (h : Sorted es) :
    Sorted (insert name value es) := by
  induction es with
  | nil => simp [Sorted, Entries.insert]
  | cons e es ih =>
    obtain ⟨k, v⟩ := e
    obtain ⟨hk, hes⟩ := List.pairwise_cons.1 h
    rw [Entries.insert]
    split
    · next hlt =>
      refine List.pairwise_cons.2 ⟨fun b hb => ?_, h⟩
      rcases List.mem_cons.1 hb with rfl | hb
      · exact hlt
      · exact String.lt_trans hlt (hk b hb)
    · next hnlt =>
      split
      · next heq => exact List.pairwise_cons.2 ⟨fun b hb => heq ▸ hk b hb, hes⟩
      · next hne =>
        refine List.pairwise_cons.2 ⟨fun b hb => ?_, ih hes⟩
        rcases mem_insert hb with rfl | hb
        · exact Decidable.byContradiction fun hk =>
            hne (String.le_antisymm (String.not_lt.1 hk) (String.not_lt.1 hnlt))
        · exact hk b hb

/-- In order, every entry is found. -/
theorem Sorted.find?_eq_some_iff {name : String} {value : α} {es : List (String × α)}
    (h : Sorted es) : find? name es = some value ↔ (name, value) ∈ es := by
  induction es with
  | nil => simp
  | cons e es ih =>
    obtain ⟨k, v⟩ := e
    obtain ⟨hk, hes⟩ := List.pairwise_cons.1 h
    rw [find?, List.mem_cons, Prod.mk.injEq]
    split
    · next heq =>
      subst heq
      have hnot : (k, value) ∉ es := fun hmem => String.lt_irrefl k (hk _ hmem)
      simp [hnot, eq_comm]
    · next hne => simp [ih hes, Ne.symm hne]

/-- Removing a name leaves a sorted list sorted. -/
theorem Sorted.erase {name : String} {es : List (String × α)} (h : Sorted es) :
    Sorted (erase name es) := List.Pairwise.filter _ h

/-- The list built from any entries, in any order and with repetitions, is sorted. -/
theorem sorted_ofList (es : List (String × α)) : Sorted (ofList es) := by
  suffices H : ∀ acc : List (String × α), Sorted acc →
      Sorted (es.foldl (fun acc e => insert e.1 e.2 acc) acc) from H [] .nil
  induction es with
  | nil => exact fun _ h => h
  | cons e es ih => exact fun acc h => ih _ h.insert

/-- A name after all others goes to the end. -/
theorem insert_eq_append {name : String} {es : List (String × α)} (value : α)
    (h : ∀ e ∈ es, e.1 < name) : insert name value es = es ++ [(name, value)] := by
  induction es with
  | nil => rfl
  | cons e es ih =>
    obtain ⟨hlt, hes⟩ := List.forall_mem_cons.1 h
    have hne : name ≠ e.1 := fun heq => String.lt_irrefl name (heq ▸ hlt)
    rw [insert, if_neg (String.lt_asymm hlt), if_neg hne, ih hes, List.cons_append]

/-- Entries in order stay as they are. -/
theorem Sorted.ofList_eq {es : List (String × α)} (h : Sorted es) : ofList es = es := by
  suffices H : ∀ acc, Sorted (acc ++ es) →
      es.foldl (fun acc e => Entries.insert e.1 e.2 acc) acc = acc ++ es from H [] h
  clear h
  induction es with
  | nil => exact fun acc _ => (List.append_nil acc).symm
  | cons e es ih =>
    intro acc h
    have hlast : ∀ k ∈ acc, k.1 < e.1 := fun k hk =>
      (List.pairwise_append.1 h).2.2 k hk e List.mem_cons_self
    rw [List.foldl_cons, insert_eq_append e.2 hlast, ih, List.append_assoc, List.singleton_append]
    rwa [List.append_assoc, List.singleton_append]

end Entries

/-- A finite map from names to values, in ascending order of the names. -/
structure Dictionary (α : Type) where
  entries : List (String × α) := []
  sorted : Entries.Sorted entries := by exact List.Pairwise.nil

namespace Dictionary

variable {α : Type}

/-- The dictionary without names. -/
def empty : Dictionary α := {}

/-- The value of a name. -/
def get? (d : Dictionary α) (name : String) : Option α := Entries.find? name d.entries

/-- The dictionary with a value for the name. -/
def insert (d : Dictionary α) (name : String) (value : α) : Dictionary α :=
  ⟨Entries.insert name value d.entries, d.sorted.insert⟩

/-- The dictionary without the name. -/
def erase (d : Dictionary α) (name : String) : Dictionary α :=
  ⟨Entries.erase name d.entries, d.sorted.erase⟩

/-- The names in ascending order. -/
def names (d : Dictionary α) : List String := d.entries.map (·.1)

/-- The number of names. -/
def size (d : Dictionary α) : Nat := d.entries.length

/-- A dictionary is its list of entries. -/
@[ext] theorem ext {d e : Dictionary α} (h : d.entries = e.entries) : d = e := by
  obtain ⟨entries, _⟩ := d
  obtain rfl : entries = e.entries := h
  rfl

/-- The value read back after an insertion: the new one at its own name, the old ones elsewhere. -/
@[simp] theorem get?_insert (d : Dictionary α) (name other : String) (value : α) :
    (d.insert name value).get? other = if name = other then some value else d.get? other :=
  Entries.find?_insert name other value d.entries

end Dictionary

end TableShell
