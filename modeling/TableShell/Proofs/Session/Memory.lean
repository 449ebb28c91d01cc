import TableShell.Proofs.Session.Expansion

/-!
# Sessions over a store in memory

A store in memory answers every client alike, so a call does to it what the store says
(`Act.apply_call_of_memory`). What a session has shown is read off its trace (`Machine.reports`).
-/

namespace TableShell

/-- What an event shows. -/
def Event.report? : Event → Option Report
  | .report r => some r
  | _ => none

namespace Machine

/-- What was shown, in order. -/
def reports {W : Type} (m : Machine W) : List Report := m.trace.filterMap Event.report?

variable {around : Surroundings MemoryStore}

/-- A machine over the store answers as the store does. -/
theorem answer_of_memory (hs : around.service = MemoryStore.service) (m : Machine MemoryStore)
    (c : Call) : m.answer around c = (m.world.answer c).1 := by
  rw [answer, hs]
  rfl

/-- A call of a machine over the store changes the store as the call does. -/
theorem called_world_of_memory (hs : around.service = MemoryStore.service)
    (m : Machine MemoryStore) (c : Call) : (m.called around c).world = (m.world.answer c).2 := by
  rw [called, hs]
  rfl

end Machine

namespace Act

variable {around : Surroundings MemoryStore}

/-- The outcome of a call is what the store answers. -/
theorem apply_call_of_memory (hs : around.service = MemoryStore.service) (c : Call)
    (m : Machine MemoryStore) :
    (call around c).apply m = ((m.world.answer c).1.mapError .failed, m.called around c) := by
  rw [apply_call, Machine.answer_of_memory hs]

/-- The bound on the pages is the size of the store and one more. -/
theorem apply_pageLimit_of_memory (hs : around.service = MemoryStore.service)
    (m : Machine MemoryStore) :
    (Session.pageLimit around).apply m = (.ok (m.world.size + 1), m) := by
  rw [Session.apply_pageLimit, hs]
  rfl

end Act

namespace MemoryStore

/-- A store has no more tables than tables and items. -/
theorem size_tables_le_size (store : MemoryStore) : store.tables.size ≤ store.size := by
  rw [size]
  induction store.tables.entries with
  | nil => exact Nat.le_refl _
  | cons e es ih => exact Nat.le_trans ih (Nat.le_add_left _ _)

end MemoryStore

end TableShell
