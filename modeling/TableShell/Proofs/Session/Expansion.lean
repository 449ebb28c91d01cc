import TableShell.Proofs.CommandKind
import TableShell.Proofs.Session.Run

/-!
# Commands and their expansions

Every command but `run;` and a blank one is carried out in one way: its expansion is read, something
is done with what was read, and the command is remembered as it was typed (`Session.carryOut`). So
a command and its expansion do the same if they are of one kind. But the kind of a command is told
before its variables are put in: a query whose expansion starts like a command of another kind is
refused, although the expansion is not (`Session.execute_expansion`).
-/

namespace TableShell

namespace Session

open Act Machine

variable {W α : Type} {around : Surroundings W} {m : Machine W} {c s : String}

/-! ## The common form of commands -/

/-- A command is read from its expansion; a fault leaves the session alone, and else it is handled.
-/
theorem apply_carryOut (around : Surroundings W) (read : String → Except Error α)
    (act : α → Act W Unit) (command : String) (m : Machine W) :
    (carryOut around read act command).apply m = match read (m.expansion around command) with
      | .error e => (.error (.failed e), m.expanded around command)
      | .ok x => match (act x).apply (m.expanded around command) with
        | (.error halt, m') => (.error halt, m')
        | (.ok (), m') => (.ok (), m'.recorded command) := by
  rw [carryOut, apply_bind_of_ok (apply_substitute around command m)]
  cases read (m.expansion around command) with
  | error e => exact apply_bind_of_error (apply_ofExcept _ _)
  | ok x =>
    rw [apply_bind_of_ok (apply_ofExcept _ _)]
    dsimp only
    rcases hr : (act x).apply (m.expanded around command) with ⟨_ | ⟨⟩, m'⟩
    · exact apply_bind_of_error hr
    · exact apply_bind_of_ok hr

/-! ## Two runs -/

/-- Two runs that both stop for one reason at one machine, or both remember their commands, which
are all that they differ in. -/
inductive Alike (c s : String) :
    Except Halt Unit × Machine W → Except Halt Unit × Machine W → Prop
  | stopped {halt : Halt} {m : Machine W} : Alike c s (.error halt, m) (.error halt, m)
  | remembered {m : Machine W} : Alike c s (.ok (), m.recorded c) (.ok (), m.recorded s)

/-- A blank command is its own expansion. -/
theorem expansion_of_blank (hb : Text.trim c = "") : m.expansion around c = c := by
  have hc : Template.NoReference c := by
    intro hreference
    have hblank := Text.isBlank_of_trim hb '$' (hreference.subset (by simp))
    cases hblank
  rw [Machine.expansion, Variables.substitute_of_noReference hc]

/-- The command expands to a text that no reference starts in, and refers to no reserved name. -/
structure Expands (around : Surroundings W) (m : Machine W) (c s : String) : Prop where
  isFixed : Template.IsFixed c
  noReference : Template.NoReference s
  expansion : m.expansion around c = s

namespace Expands

/-- Nothing is drawn. -/
theorem expanded (h : Expands around m c s) : m.expanded around c = m := by
  rw [Machine.expanded, Variables.substitute_snd_of_isFixed h.isFixed]
  rfl

/-- The expansion of a command is expanded no further. -/
theorem self_expansion (h : Expands around m c s) : m.expansion around s = s := by
  rw [Machine.expansion, Variables.substitute_of_noReference h.noReference]

/-- Expanding the expansion draws nothing. -/
theorem self_expanded (h : Expands around m c s) : m.expanded around s = m := by
  rw [Machine.expanded, Variables.substitute_of_noReference h.noReference]
  rfl

/-- A command expands to the same text when the token of the last query is forgotten. -/
theorem forgetful (h : Expands around m c s) : Expands around m.forgetful c s :=
  ⟨h.isFixed, h.noReference, h.expansion⟩

/-- A command that is no query has the kind of its expansion. -/
theorem ofCommand_eq (h : Expands around m c s) (hc : CommandKind.ofCommand c ≠ .query) :
    CommandKind.ofCommand s = CommandKind.ofCommand c := by
  rw [← h.expansion]
  exact CommandKind.ofCommand_substitute hc _ _ _

/-- A blank command expands to itself. -/
theorem eq_of_blank (h : Expands around m c s) (hb : Text.trim c = "") : s = c := by
  rw [← h.expansion, expansion_of_blank hb]

/-- Read by one reader, a command and its expansion do the same. -/
theorem alike_carryOut (h : Expands around m c s) (read : String → Except Error α)
    (act : α → Act W Unit) :
    Alike c s ((carryOut around read act c).apply m) ((carryOut around read act s).apply m) := by
  rw [apply_carryOut, apply_carryOut, h.expansion, h.self_expansion, h.expanded, h.self_expanded]
  cases read s with
  | error e => exact .stopped
  | ok x =>
    dsimp only
    rcases (act x).apply m with ⟨halt | ⟨⟩, m'⟩
    · exact .stopped
    · exact .remembered

end Expands

/-! ## Queries -/

/-- A blank command is no statement, and the token of the last query is lost over it. -/
theorem apply_query_of_blank (hb : Text.trim c = "") (token : Option String) (m : Machine W) :
    (query around c token).apply m = (.error (.failed (.unsupported "")), m.forgetful) := by
  rw [query, apply_bind_of_ok (apply_change _ m), if_pos hb]
  exact apply_bind_of_error (apply_fail _ _)

/-- A query that is not blank has the common form too, after the token of the last query is
forgotten. -/
theorem apply_query_of_ne (hb : Text.trim c ≠ "") (token : Option String) (m : Machine W) :
    (query around c token).apply m = (carryOut around Query.ofSource (fun q => do
      reportPage (← call around (.execute q.statement q.effectiveLimit token))) c).apply
        m.forgetful := by
  rw [query, apply_bind_of_ok (apply_change _ m), if_neg hb]
  simp only [carryOut, bind_assoc]
  rfl

/-- Taken for a query, a command and its expansion do the same. -/
theorem alike_query (h : Expands around m c s) (token : Option String) :
    Alike c s ((query around c token).apply m) ((query around s token).apply m) := by
  by_cases hc : Text.trim c = ""
  · obtain rfl := h.eq_of_blank hc
    rw [apply_query_of_blank hc]
    exact .stopped
  · by_cases hs : Text.trim s = ""
    · rw [apply_query_of_ne hc, apply_query_of_blank hs, apply_carryOut, h.forgetful.expansion,
        h.forgetful.expanded, Query.ofSource_of_blank hs]
      exact .stopped
    · rw [apply_query_of_ne hc, apply_query_of_ne hs]
      exact h.forgetful.alike_carryOut _ _

/-- A query whose expansion is none is refused. -/
theorem apply_query_of_not_query (h : Expands around m c s)
    (hc : CommandKind.ofCommand c = .query) (hs : CommandKind.ofCommand s ≠ .query)
    (token : Option String) :
    (query around c token).apply m =
      (.error (.failed (.unsupported (Text.trim s))), m.forgetful) := by
  have hb : Text.trim c ≠ "" := by
    intro hb
    rw [h.eq_of_blank hb] at hs
    exact hs hc
  rw [apply_query_of_ne hb, apply_carryOut, h.forgetful.expansion, h.forgetful.expanded,
    CommandKind.ofSource_of_not_query hs]

/-! ## Any command -/

/-- A command and its expansion do the same, but for the entry of the history, if they are of one
kind. They are of two kinds only if the command is told to be a query, and then it is refused. -/
theorem execute_expansion (h : Expands around m c s) :
    (CommandKind.ofCommand s = CommandKind.ofCommand c →
      (CommandKind.ofCommand c = .again →
        (execute around c).apply m = (execute around s).apply m) ∧
      (CommandKind.ofCommand c ≠ .again →
        Alike c s ((execute around c).apply m) ((execute around s).apply m))) ∧
    (CommandKind.ofCommand s ≠ CommandKind.ofCommand c →
      CommandKind.ofCommand c = .query ∧
        (execute around c).apply m =
          (.error (.failed (.unsupported (Text.trim s))), m.forgetful)) := by
  refine ⟨fun hkind => ⟨fun hagain => ?_, fun hagain => ?_⟩, fun hkind => ?_⟩
  · rw [execute, execute, hkind, hagain]
  · by_cases hquery : CommandKind.ofCommand c = .query
    · rw [execute, execute, hkind, hquery]
      exact alike_query h none
    · have hkinds : CommandKind.ofCommand c ∉ [.again, .query] := by simp [hagain, hquery]
      obtain ⟨α, read, act, hform⟩ := exists_carryOut around hkinds
      rw [hform c rfl, hform s hkind]
      exact h.alike_carryOut read act
  · have hquery : CommandKind.ofCommand c = .query :=
      Decidable.byContradiction fun hquery => hkind (h.ofCommand_eq hquery)
    rw [hquery] at hkind
    rw [execute, hquery]
    exact ⟨rfl, apply_query_of_not_query h hquery hkind none⟩

/-- In memory, a keyword that a variable supplies is refused, and the same keyword is not refused
when it is typed. -/
theorem execute_expansion_supplied_keyword :
    ∃ m, Reachable inMemory m ∧ Expands inMemory m "${v} TABLES;" "SHOW TABLES;" ∧
      (execute inMemory "${v} TABLES;").apply m =
        (.error (.failed (.unsupported "SHOW TABLES;")), m.forgetful) ∧
      ((execute inMemory "SHOW TABLES;").apply m).1 = .ok () := by
  obtain ⟨m, hm, hexpansion, hshow⟩ : ∃ m, Reachable inMemory m ∧
      m.expansion inMemory "${v} TABLES;" = "SHOW TABLES;" ∧
      ((execute inMemory "SHOW TABLES;").apply m).1 = .ok () :=
    ⟨(Machine.over {}).after inMemory (.feed "@v = SHOW;"), (reachable_inMemory _).step _,
      by decide +kernel, eq_ok_of_toOption (by decide +kernel)⟩
  have h : Expands inMemory m "${v} TABLES;" "SHOW TABLES;" :=
    ⟨by decide +kernel, by decide +kernel, hexpansion⟩
  have hrefused := ((execute_expansion h).2 (by decide)).2
  rw [show Text.trim "SHOW TABLES;" = "SHOW TABLES;" by decide +kernel] at hrefused
  exact ⟨m, hm, h, hrefused, hshow⟩

end Session

end TableShell
