import Mathlib.Data.List.Sort
import TableShell.Value.Key

/-!
# Items and their keys

An item has a key exactly if it has all attributes of the key of its table (`Item.Keyed`). Its key
is then the item restricted to these attributes (`Item.extractKey_eq_ok_iff`), however often the key
names one of them. Otherwise the attribute that is reported is the first one that is missing
(`Item.extractKey_eq_error_iff`).

Another item has that key exactly if it has the same values of these attributes (`Item.SameKey`),
and then it has a key itself. So the key says no more and no less of an item than its attributes of
the key (`Item.hasKey_restrict_iff`), and among items with distinct keys (`Item.Distinct`) it
belongs to one of them only (`Item.filter_not_sameKey`).
-/

namespace TableShell

/-- Dictionaries that give all names the same values are the same. -/
theorem Dictionary.ext_get? {α : Type} {d e : Dictionary α}
    (h : ∀ name, d.get? name = e.get? name) : d = e := by
  have hirrefl : Std.Irrefl fun a b : String × α => a.1 < b.1 := ⟨fun a => String.lt_irrefl a.1⟩
  have hantisymm : Std.Antisymm fun a b : String × α => a.1 < b.1 :=
    ⟨fun _ _ hab hba => absurd hba (String.lt_asymm hab)⟩
  refine Dictionary.ext (List.Pairwise.eq_of_mem_iff d.sorted e.sorted fun (name, value) => ?_)
  rw [← d.sorted.find?_eq_some_iff, ← e.sorted.find?_eq_some_iff]
  exact iff_of_eq (congrArg (· = some value) (h name))

/-- If something in a list lacks a property, there is a first thing that does. -/
theorem exists_first_lacking {α : Type} {p : α → Prop} [DecidablePred p] {l : List α}
    (h : ∃ a ∈ l, ¬ p a) :
    ∃ front a back, l = front ++ a :: back ∧ (∀ b ∈ front, p b) ∧ ¬ p a := by
  have hsome : (l.find? fun a => ¬ p a).isSome = true := List.find?_isSome.2 (by simpa using h)
  obtain ⟨a, hfind⟩ := Option.isSome_iff_exists.1 hsome
  obtain ⟨hnot, front, back, hl, hfront⟩ := List.find?_eq_some_iff_append.1 hfind
  refine ⟨front, a, back, hl, fun b hb => ?_, of_decide_eq_true hnot⟩
  simpa using hfront b hb

namespace Item

variable {schema : List KeyElement} {element : KeyElement} {item other key : Item}
  {front back : List Item} {table : String}

/-- The item has all attributes of the key. -/
def Keyed (schema : List KeyElement) (item : Item) : Prop :=
  ∀ element ∈ schema, (item.get? element.name).isSome = true

/-- The items have the same values of the attributes of the key. -/
def SameKey (schema : List KeyElement) (item other : Item) : Prop :=
  ∀ element ∈ schema, item.get? element.name = other.get? element.name

instance (schema : List KeyElement) : DecidablePred (Keyed schema) := fun _ =>
  inferInstanceAs (Decidable (∀ _ ∈ _, _))

instance (schema : List KeyElement) : DecidableRel (SameKey schema) := fun _ _ =>
  inferInstanceAs (Decidable (∀ _ ∈ _, _))

/-- An item has the same key as itself. -/
theorem SameKey.refl (schema : List KeyElement) (item : Item) : SameKey schema item item :=
  fun _ _ => rfl

/-- Having the same key is symmetric. -/
theorem SameKey.symm (h : SameKey schema item other) : SameKey schema other item :=
  fun element he => (h element he).symm

/-- An item with the same key as one that has all key attributes has them too. -/
theorem Keyed.of_sameKey (hk : Keyed schema item) (h : SameKey schema item other) :
    Keyed schema other := by
  intro element he
  rw [← h element he]
  exact hk element he

/-! ## The attributes of a key -/

/-- The item with its attributes of the key only. -/
def restrict (schema : List KeyElement) (item : Item) : Item :=
  ⟨item.entries.filter fun e => e.1 ∈ schema.map (·.name), item.sorted.filter _⟩

/-- Restricting an item to a key schema keeps the attributes that the schema names, and no other. -/
theorem get?_restrict (schema : List KeyElement) (item : Item) (name : String) :
    (item.restrict schema).get? name =
      if name ∈ schema.map (·.name) then item.get? name else none := by
  refine Option.ext fun value => ?_
  rw [Dictionary.get?, (item.restrict schema).sorted.find?_eq_some_iff, restrict, List.mem_filter,
    decide_eq_true_iff, ← item.sorted.find?_eq_some_iff]
  split
  · next hmem => exact and_iff_left hmem
  · next hmem => exact iff_of_false (fun h => hmem h.2) nofun

/-- The element is the first one of the key whose attribute the item does not have. -/
def FirstMissing (schema : List KeyElement) (item : Item) (element : KeyElement) : Prop :=
  ∃ front back, schema = front ++ element :: back ∧ Keyed front item ∧
    item.get? element.name = none

/-- An item that lacks a key attribute lacks a first one. -/
theorem exists_firstMissing (hk : ¬ Keyed schema item) :
    ∃ element, FirstMissing schema item element := by
  have hlacking : ∃ element ∈ schema, ¬ (item.get? element.name).isSome = true := by
    simpa [Keyed] using hk
  obtain ⟨front, element, back, hschema, hfront, hnot⟩ := exists_first_lacking hlacking
  exact ⟨element, front, back, hschema, hfront, Option.not_isSome_iff_eq_none.1 hnot⟩

/-! ## Extracting the key -/

/-- The attributes of the key are taken from the item, and the others are left as they are. -/
theorem exists_addKey (table : String) (hk : Keyed schema item) (key : Item) :
    ∃ key', addKey table item key schema = .ok key' ∧ ∀ name, key'.get? name =
      if name ∈ schema.map (·.name) then item.get? name else key.get? name := by
  induction schema generalizing key with
  | nil => exact ⟨key, rfl, fun name => rfl⟩
  | cons element schema ih =>
    obtain ⟨helement, hschema⟩ := List.forall_mem_cons.1 hk
    obtain ⟨value, hvalue⟩ := Option.isSome_iff_exists.1 helement
    obtain ⟨key', hkey', hget⟩ := ih hschema (key.insert element.name value)
    refine ⟨key', by rw [addKey, hvalue]; exact hkey', fun name => ?_⟩
    -- a name that comes again later is given the same value again
    simp only [hget, Dictionary.get?_insert, List.map_cons, List.mem_cons]
    by_cases hmem : name ∈ schema.map (·.name)
    · simp [hmem]
    · by_cases hname : element.name = name
      · subst hname
        simp [hmem, hvalue]
      · simp [hmem, hname, Ne.symm hname]

/-- The attributes of a key are collected from left to right. -/
theorem addKey_append (table : String) (item key : Item) (front back : List KeyElement) :
    addKey table item key (front ++ back) =
      addKey table item key front >>= fun key' => addKey table item key' back := by
  induction front generalizing key with
  | nil => rfl
  | cons element front ih =>
    rw [List.cons_append, addKey, addKey]
    cases item.get? element.name with
    | none => rfl
    | some value => exact ih (key.insert element.name value)

/-- The key of an item that has all key attributes is the item restricted to them. -/
theorem extractKey_of_keyed (table : String) (hk : Keyed schema item) :
    item.extractKey table schema = .ok (item.restrict schema) := by
  obtain ⟨key, hkey, hget⟩ := exists_addKey table hk .empty
  have heq : key = item.restrict schema := Dictionary.ext_get? fun name => by
    rw [hget, get?_restrict]
    rfl
  exact heq ▸ hkey

/-- An item that lacks a key attribute is refused with the name of the first one it lacks. -/
theorem extractKey_of_firstMissing (table : String) (h : FirstMissing schema item element) :
    item.extractKey table schema = .error (missingKey table element.name) := by
  obtain ⟨front, back, rfl, hfront, hnone⟩ := h
  obtain ⟨key, hkey, -⟩ := exists_addKey table hfront .empty
  rw [extractKey, addKey_append, hkey]
  change addKey table item key (element :: back) = _
  rw [addKey, hnone]

/-- An item has a key exactly if it has all attributes of the key, and these make up its key. -/
theorem extractKey_eq_ok_iff :
    item.extractKey table schema = .ok key ↔ Keyed schema item ∧ key = item.restrict schema := by
  constructor
  · intro h
    by_cases hk : Keyed schema item
    · rw [extractKey_of_keyed table hk] at h
      cases h
      exact ⟨hk, rfl⟩
    · obtain ⟨element, hfirst⟩ := exists_firstMissing hk
      rw [extractKey_of_firstMissing table hfirst] at h
      cases h
  · rintro ⟨hk, rfl⟩
    exact extractKey_of_keyed table hk

/-- What is reported of an item without a key is the first attribute that is missing. -/
theorem extractKey_eq_error_iff {e : Error} :
    item.extractKey table schema = .error e ↔
      ∃ element, FirstMissing schema item element ∧ e = missingKey table element.name := by
  constructor
  · intro h
    by_cases hk : Keyed schema item
    · rw [extractKey_of_keyed table hk] at h
      cases h
    · obtain ⟨element, hfirst⟩ := exists_firstMissing hk
      rw [extractKey_of_firstMissing table hfirst] at h
      cases h
      exact ⟨element, hfirst, rfl⟩
  · rintro ⟨element, hfirst, rfl⟩
    exact extractKey_of_firstMissing table hfirst

/-! ## The items with a key -/

/-- The entries of a key are looked up in the item. -/
theorem hasKey_iff : item.hasKey key = true ↔
    ∀ name value, key.get? name = some value → item.get? name = some value := by
  simp only [hasKey, List.all_eq_true, beq_iff_eq, Prod.forall]
  refine forall_congr' fun name => forall_congr' fun value => ?_
  exact imp_congr_left key.sorted.find?_eq_some_iff.symm

/-- The items that have the key of an item are those with the same values. -/
theorem hasKey_restrict_iff (hk : Keyed schema item) :
    other.hasKey (item.restrict schema) = true ↔ SameKey schema item other := by
  rw [hasKey_iff]
  constructor
  · intro h element he
    obtain ⟨value, hvalue⟩ := Option.isSome_iff_exists.1 (hk element he)
    have hmem : element.name ∈ schema.map (·.name) := List.mem_map_of_mem he
    rw [hvalue, h element.name value (by rw [get?_restrict, if_pos hmem, hvalue])]
  · intro h name value hvalue
    rw [get?_restrict] at hvalue
    split at hvalue
    · next hmem =>
      obtain ⟨element, he, rfl⟩ := List.mem_map.1 hmem
      rw [← h element he, hvalue]
    · cases hvalue

/-- No two items have the same key. -/
def Distinct (schema : List KeyElement) (items : List Item) : Prop :=
  (items.filter fun item => Keyed schema item).Pairwise fun item other =>
    ¬ SameKey schema item other

instance (schema : List KeyElement) : DecidablePred (Distinct schema) := fun _ =>
  inferInstanceAs (Decidable (List.Pairwise _ _))

/-- In a table with distinct keys no other item has the key of an item. -/
theorem Distinct.not_sameKey (hd : Distinct schema (front ++ item :: back))
    (hk : Keyed schema item) (hother : other ∈ front ++ back) : ¬ SameKey schema item other := by
  intro hsame
  -- the item is brought to the front, since to have the same key is symmetric
  rw [Distinct, List.filter_append, List.filter_cons, if_pos (decide_eq_true hk),
    List.pairwise_middle (mt SameKey.symm), ← List.filter_append, List.pairwise_cons] at hd
  refine hd.1 other ?_ hsame
  exact List.mem_filter.2 ⟨hother, decide_eq_true (hk.of_sameKey hsame)⟩

/-- If no two items share a key, those with other keys than an item are all the others. -/
theorem filter_not_sameKey (hd : Distinct schema (front ++ item :: back))
    (hk : Keyed schema item) :
    (front ++ item :: back).filter (fun other => ¬ SameKey schema item other) = front ++ back := by
  have hself : ¬ (decide ¬ SameKey schema item item) = true :=
    fun h => of_decide_eq_true h (.refl schema item)
  rw [List.filter_append, List.filter_cons, if_neg hself, ← List.filter_append,
    List.filter_eq_self]
  exact fun other hother => decide_eq_true (hd.not_sameKey hk hother)

end Item

end TableShell
