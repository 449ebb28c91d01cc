/-!
# The history of commands

A history holds the commands carried out last, the oldest first, and never more of them than its
capacity, which is at least one. `History.entries_push` says what it holds after one more.
-/

namespace TableShell

/-- The commands carried out last. -/
structure History where
  capacity : Nat
  entries : List String
  capacity_pos : 0 < capacity
  length_le : entries.length ≤ capacity

namespace History

/-- The capacity of a history for which none is asked. -/
def defaultCapacity : Nat := 100

/-- A history without commands, for at least one command. -/
def withCapacity (capacity : Nat) : History where
  capacity := max capacity 1
  entries := []
  capacity_pos := by omega
  length_le := Nat.zero_le _

/-- The history after one more command; the oldest one leaves a full history. -/
def push (h : History) (command : String) : History where
  capacity := h.capacity
  entries := if h.entries.length = h.capacity then h.entries.tail ++ [command]
    else h.entries ++ [command]
  capacity_pos := h.capacity_pos
  length_le := by
    have h1 := h.capacity_pos
    have h2 := h.length_le
    split <;> simp <;> omega

/-- The history without its commands. -/
def clear (h : History) : History := ⟨h.capacity, [], h.capacity_pos, Nat.zero_le _⟩

/-- The latest command. -/
def latest? (h : History) : Option String := h.entries.getLast?

/-- The latest entry is the one pushed last, also when the oldest one is dropped for it. -/
@[simp] theorem latest?_push (h : History) (command : String) :
    (h.push command).latest? = some command := by
  simp only [latest?, push]
  split <;> simp

/-- The capacity stays the same. -/
@[simp] theorem capacity_push (h : History) (command : String) :
    (h.push command).capacity = h.capacity := rfl

/-- A history holds the last commands pushed, as many as its capacity allows. -/
theorem entries_push (h : History) (command : String) :
    (h.push command).entries =
      (h.entries ++ [command]).drop (h.entries.length + 1 - h.capacity) := by
  have h1 := h.capacity_pos
  have h2 := h.length_le
  simp only [push]
  split
  · next heq =>
    cases hes : h.entries with
    | nil => rw [hes] at heq; simp at heq; omega
    | cons e es =>
      have : (e :: es).length + 1 - h.capacity = 1 := by rw [← hes]; omega
      rw [this]
      simp
  · next hne =>
    have : h.entries.length + 1 - h.capacity = 0 := by omega
    simp [this]

end History

end TableShell
