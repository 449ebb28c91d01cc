import TableShell.Proofs.Storage.Key
import TableShell.Storage.Memory

/-!
# The items of a table in memory

Deleting changes one table of a store in memory and nothing else (`MemoryStore.Leaves`). The items
with the key are gone, wherever they stand, and the others keep their order. So deleting by the key
of an item leaves the items with other keys (`MemoryStore.deleteItem_restrict`), and if no two items
of the table share a key then it removes that item alone (`Item.extractKey_identifies`).
-/

namespace TableShell

open Item

namespace MemoryStore

variable {store store' : MemoryStore} {name : String} {t : MemoryTable} {item : Item}

/-- The stores differ at most in the table of a name, which is this one in the second store. -/
structure Leaves (store : MemoryStore) (name : String) (t : MemoryTable) (store' : MemoryStore) :
    Prop where
  table : store'.tables.get? name = some t
  others : ∀ other, other ≠ name → store'.tables.get? other = store.tables.get? other
  rest : store' = { store with tables := store'.tables }

/-- A store leaves itself as it is. -/
theorem Leaves.refl (h : store.tables.get? name = some t) : store.Leaves name t store :=
  ⟨h, fun _ _ => rfl, rfl⟩

/-- A table has no more items than the store. -/
theorem length_le_size (h : store.tables.get? name = some t) : t.items.length ≤ store.size := by
  have hfold : ∀ (es : List (String × MemoryTable)) (n : Nat), Entries.find? name es = some t →
      t.items.length ≤ es.foldr (fun e n => e.2.items.length + n) n := by
    intro es n hes
    induction es with
    | nil => cases hes
    | cons e es ih =>
      rw [Entries.find?] at hes
      rw [List.foldr_cons]
      split at hes
      · cases hes
        exact Nat.le_add_right _ _
      · exact Nat.le_trans (ih hes) (Nat.le_add_left _ _)
  exact hfold _ _ h

/-! ## Deleting -/

/-- Deleting an item leaves every other table, and of this one the items that do not have the key.
-/
theorem deleteItem_leaves (h : store.Leaves name t store') (key : Item) :
    (store'.deleteItem name key).1 = .ok () ∧
      store.Leaves name { t with items := t.items.filter fun item => !item.hasKey key }
        (store'.deleteItem name key).2 := by
  rw [deleteItem, h.table]
  refine ⟨rfl, ?_, fun other hother => ?_, ?_⟩
  · simp
  · simp [hother.symm, h.others other hother]
  · rw [h.rest]

/-- Deleting by the key of an item leaves the items with other keys. -/
theorem deleteItem_restrict (h : store.Leaves name t store')
    (hk : Keyed t.description.keySchema item) :
    (store'.deleteItem name (item.restrict t.description.keySchema)).1 = .ok () ∧
      store.Leaves name
        { t with items := t.items.filter fun other => ¬ SameKey t.description.keySchema item other }
        (store'.deleteItem name (item.restrict t.description.keySchema)).2 := by
  have hother (other : Item) : (!other.hasKey (item.restrict t.description.keySchema)) =
      decide (¬ SameKey t.description.keySchema item other) := by
    rw [decide_not, Bool.eq_iff_iff.2 ((hasKey_restrict_iff hk).trans decide_eq_true_iff.symm)]
  simpa only [hother] using deleteItem_leaves h (item.restrict t.description.keySchema)

/-! ## Scanning -/

/-- A scan finds the first items of a table and, if there are further ones, the key of the last of
them, which has to have one. -/
theorem scanTable_cases (h : store.tables.get? name = some t) :
    (t.items.length ≤ 25 ∧ store.scanTable name = .ok { items := t.items.take 25 }) ∨
      25 < t.items.length ∧ ∃ last ∈ t.items.take 25, store.scanTable name =
        (last.extractKey name t.description.keySchema).map fun key =>
          { items := t.items.take 25, lastKey := some key } := by
  rw [scanTable, table, h]
  by_cases hle : t.items.length ≤ 25
  · exact .inl ⟨hle, if_pos hle⟩
  · have hne : t.items.take 25 ≠ [] := by
      rw [Ne, List.take_eq_nil_iff, ← List.length_eq_zero_iff]
      omega
    refine .inr ⟨Nat.lt_of_not_le hle, (t.items.take 25).getLast hne, List.getLast_mem hne, ?_⟩
    have hlast : (t.items.take scanPageSize).getLast? = some ((t.items.take 25).getLast hne) :=
      List.getLast?_eq_some_getLast hne
    refine (if_neg hle).trans ?_
    rw [hlast]
    rfl

end MemoryStore

namespace Item

/-! ## A key and its item -/

/-- An item has a key exactly if it has all attributes of the key, and its key is the item with
these only. Otherwise what is reported is the first of them that is missing. In a table in memory
without two items of one key, deleting by the key of an item removes that item and no other. The
others keep their order, and nothing else in the store is changed. -/
theorem extractKey_identifies (table : String) (schema : List KeyElement) (item : Item) :
    (∀ key, item.extractKey table schema = .ok key ↔
      Keyed schema item ∧ key = item.restrict schema) ∧
    (∀ e, item.extractKey table schema = .error e ↔
      ∃ element, FirstMissing schema item element ∧ e = missingKey table element.name) ∧
    ∀ (store : MemoryStore) (name : String) (t : MemoryTable) (front back : List Item) (key : Item),
      store.tables.get? name = some t → t.description.keySchema = schema →
      t.items = front ++ item :: back → Distinct schema t.items →
      item.extractKey table schema = .ok key →
      ∃ store', store.deleteItem name key = (.ok (), store') ∧
        store.Leaves name { t with items := front ++ back } store' := by
  refine ⟨fun key => extractKey_eq_ok_iff, fun e => extractKey_eq_error_iff, ?_⟩
  rintro store name t front back key ht rfl hitems hd hkey
  obtain ⟨hk, rfl⟩ := extractKey_eq_ok_iff.1 hkey
  obtain ⟨hanswer, hleaves⟩ := MemoryStore.deleteItem_restrict (.refl ht) hk
  rw [hitems] at hd
  rw [hitems, filter_not_sameKey hd hk] at hleaves
  exact ⟨_, Prod.ext hanswer rfl, hleaves⟩

/-- In one of two tables, three items that share parts of their keys, and one without a key. -/
theorem extractKey_identifies_shared_parts :
    let schema : List KeyElement := [⟨"id", .hash⟩, ⟨"at", .range⟩]
    let early := Item.ofList [("id", .string "a"), ("at", .number "1")]
    let late := Item.ofList [("id", .string "a"), ("at", .number "2"), ("note", .list [.null])]
    let other := Item.ofList [("id", .string "b"), ("at", .number "2")]
    let lacking := Item.ofList [("id", .string "a")]
    let description := { TableDescription.bare "t" with keySchema := schema }
    let store : MemoryStore :=
      { tables := (Dictionary.insert .empty "t" ⟨description, [early, lacking, late, other]⟩).insert
          "u" ⟨description, [late]⟩ }
    let key := Item.ofList [("id", .string "a"), ("at", .number "2")]
    lacking.extractKey "t" schema = .error (missingKey "t" "at") ∧
    late.extractKey "t" schema = .ok key ∧
    ∃ store', store.deleteItem "t" key = (.ok (), store') ∧
      store'.items "t" = [early, lacking, other] ∧ store'.items "u" = [late] := by
  intro schema early late other lacking description store key
  obtain ⟨-, hmissing, -⟩ := extractKey_identifies "t" schema lacking
  obtain ⟨hextract, -, hdelete⟩ := extractKey_identifies "t" schema late
  have hfirst : FirstMissing schema lacking ⟨"at", .range⟩ :=
    ⟨[⟨"id", .hash⟩], [], rfl, by decide +kernel, by decide +kernel⟩
  have hkey : late.extractKey "t" schema = .ok key :=
    (hextract key).2 ⟨by decide +kernel, by decide +kernel⟩
  obtain ⟨store', hdeleted, hleaves⟩ :=
    hdelete store "t" ⟨description, [early, lacking, late, other]⟩ [early, lacking] [other] key rfl
      rfl rfl (by decide +kernel) hkey
  refine ⟨(hmissing _).2 ⟨_, hfirst, rfl⟩, hkey, store', hdeleted, ?_, ?_⟩
  · rw [MemoryStore.items, hleaves.table]
    rfl
  · rw [MemoryStore.items, hleaves.others "u" (by decide)]
    rfl

end Item

end TableShell
