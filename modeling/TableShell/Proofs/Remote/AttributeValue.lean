import TableShell.Remote.AttributeValue

/-!
# Values on their way to the service and back

Nothing of a value is lost when it is sent to the service and shown again
(`Value.toValue_toAttribute`), and nothing of an item (`Item.ofAttributes_toAttributes`). In the
other direction the shell has no value of its own for a type that it does not know and for a null
that the service denies. An attribute value without these, at any depth, stays as it is, and no
other does (`AttributeValue.toAttribute_toValue_iff`).
-/

namespace TableShell

namespace Value

mutual

/-- A value is read back from the attribute it is sent as. -/
theorem toValue_toAttribute : ∀ v : Value, v.toAttribute.toValue = v
  | string _ | number _ | binary _ | bool _ | null | strings _ | numbers _ | binaries _ => rfl
  | list items => by
    rw [toAttribute, AttributeValue.toValue, toValues_itemsToAttributes items]
  | map entries => by
    rw [toAttribute, AttributeValue.toValue, toValues_entriesToAttributes entries]

/-- The elements of a list are read back from the attributes they are sent as. -/
theorem toValues_itemsToAttributes : ∀ items : List Value,
    AttributeValue.itemsToValues (itemsToAttributes items) = items
  | [] => rfl
  | v :: vs => by
    rw [itemsToAttributes, AttributeValue.itemsToValues, toValue_toAttribute v,
      toValues_itemsToAttributes vs]

/-- The entries of a map are read back from the attributes they are sent as. -/
theorem toValues_entriesToAttributes : ∀ entries : List (String × Value),
    AttributeValue.entriesToValues (entriesToAttributes entries) = entries
  | [] => rfl
  | (name, v) :: es => by
    rw [entriesToAttributes, AttributeValue.entriesToValues, toValue_toAttribute v,
      toValues_entriesToAttributes es]

end

end Value

/-- An item is read back from the attributes it is sent as. -/
theorem Item.ofAttributes_toAttributes (item : Item) : ofAttributes item.toAttributes = item := by
  ext1
  calc Entries.ofList (AttributeValue.entriesToValues (Value.entriesToAttributes item.entries))
    _ = Entries.ofList item.entries := by rw [Value.toValues_entriesToAttributes]
    _ = item.entries := item.sorted.ofList_eq

namespace AttributeValue

mutual

/-- The value and everything in it, at any depth. -/
def parts : AttributeValue → List AttributeValue
  | l items => l items :: itemsParts items
  | m entries => m entries :: entriesParts entries
  | a => [a]

/-- Everything in a list of values. -/
def itemsParts : List AttributeValue → List AttributeValue
  | [] => []
  | a :: as => parts a ++ itemsParts as

/-- Everything in a list of attributes. -/
def entriesParts : List (String × AttributeValue) → List AttributeValue
  | [] => []
  | (_, a) :: es => parts a ++ entriesParts es

end

/-- The shell has no value of its own for the attribute value. -/
def IsLost (a : AttributeValue) : Prop := a = null false ∨ ∃ type, a = unknown type

mutual

/-- An attribute value comes back as it was if and only if nothing in it is lost. -/
theorem toAttribute_toValue_iff : ∀ a : AttributeValue,
    a.toValue.toAttribute = a ↔ ∀ part ∈ a.parts, ¬ part.IsLost
  | s _ | n _ | b _ | bool _ | ss _ | ns _ | bs _ | null true => by
    simp [toValue, Value.toAttribute, parts, IsLost]
  | null false | unknown _ => by simp [toValue, Value.toAttribute, parts, IsLost]
  | l items => by
    have hself : ¬ (l items).IsLost := by simp [IsLost]
    rw [toValue, Value.toAttribute, l.injEq, parts, List.forall_mem_cons,
      itemsToAttributes_toValues_iff items, and_iff_right hself]
  | m entries => by
    have hself : ¬ (m entries).IsLost := by simp [IsLost]
    rw [toValue, Value.toAttribute, m.injEq, parts, List.forall_mem_cons,
      entriesToAttributes_toValues_iff entries, and_iff_right hself]

/-- Received elements are sent back as they came exactly when none of their parts is lost. -/
theorem itemsToAttributes_toValues_iff : ∀ items : List AttributeValue,
    Value.itemsToAttributes (itemsToValues items) = items ↔ ∀ part ∈ itemsParts items, ¬ part.IsLost
  | [] => by simp [itemsToValues, Value.itemsToAttributes, itemsParts]
  | a :: as => by
    rw [itemsToValues, Value.itemsToAttributes, List.cons.injEq, itemsParts, List.forall_mem_append,
      toAttribute_toValue_iff a, itemsToAttributes_toValues_iff as]

/-- Received entries are sent back as they came exactly when none of their parts is lost. -/
theorem entriesToAttributes_toValues_iff : ∀ entries : List (String × AttributeValue),
    Value.entriesToAttributes (entriesToValues entries) = entries ↔
      ∀ part ∈ entriesParts entries, ¬ part.IsLost
  | [] => by simp [entriesToValues, Value.entriesToAttributes, entriesParts]
  | (name, a) :: es => by
    rw [entriesToValues, Value.entriesToAttributes, List.cons.injEq, Prod.mk.injEq, entriesParts,
      List.forall_mem_append, toAttribute_toValue_iff a, entriesToAttributes_toValues_iff es,
      eq_self, true_and]

end

end AttributeValue

/-- No value and no item changes on the way to the service and back. On the way from the service and
back to it, an attribute value without unknown types and denied nulls, at any depth, does not change
either, and every other one does. -/
theorem attributeValue_roundTrip :
    (∀ v : Value, v.toAttribute.toValue = v) ∧
    (∀ item : Item, Item.ofAttributes item.toAttributes = item) ∧
    ∀ a : AttributeValue, a.toValue.toAttribute = a ↔
      ∀ part ∈ a.parts, part ≠ .null false ∧ ∀ type, part ≠ .unknown type := by
  refine ⟨Value.toValue_toAttribute, Item.ofAttributes_toAttributes, ?_⟩
  intro a
  rw [a.toAttribute_toValue_iff]
  simp only [AttributeValue.IsLost, not_or, not_exists, ne_eq]

example : (AttributeValue.l [.m [("a", .null false)], .ss ["y", "x", "y"]]).toValue.toAttribute =
    .l [.m [("a", .null true)], .ss ["y", "x", "y"]] := rfl

end TableShell
