import TableShell.Proofs.Session.Command
import TableShell.Proofs.Template

/-!
# The same command at two machines

What a machine has done before plays no part in what it does next. Two machines with the same
session and the same world (`Machine.Alike`) carry out a command with the same outcome, the same
calls and the same reports, and are alike afterwards (`Session.matches_execute`). The one difference
that can show is in the number of fresh texts drawn before. So the machines agree in it, or the text
that is carried out refers to no reserved name.

`Act.Uniform` says this of an action. It is closed under sequences and holds of the steps that
commands are made of (`Session.carries_uniform`), so it holds of the commands.
-/

namespace TableShell

variable {W : Type}

/-- The machines have the same session and the same world and, if draws matter, have drawn as many
fresh texts. What they have done may differ. -/
structure Machine.Alike (draws : Prop) (m₁ m₂ : Machine W) : Prop where
  session : m₂.session = m₁.session
  world : m₂.world = m₁.world
  drawn : draws → m₂.drawn = m₁.drawn

namespace Act

variable {α β : Type} {draws : Prop} {m₁ m₂ : Machine W}

/-- From two machines the same has come: the same outcome, the same events, and machines alike. -/
structure Matches (draws : Prop) (m₁ m₂ : Machine W) (p₁ p₂ : Except Halt α × Machine W) :
    Prop where
  outcome : p₂.1 = p₁.1
  alike : p₁.2.Alike draws p₂.2
  trace : ∃ events, p₁.2.trace = m₁.trace ++ events ∧ p₂.2.trace = m₂.trace ++ events

/-- An action that does nothing. -/
theorem Matches.refl (h : m₁.Alike draws m₂) (r : Except Halt α) :
    Matches draws m₁ m₂ (r, m₁) (r, m₂) :=
  ⟨rfl, h, [], by simp, by simp⟩

/-- The action does the same at machines that are alike. -/
def Uniform (draws : Prop) (a : Act W α) : Prop :=
  ∀ m₁ m₂, m₁.Alike draws m₂ → Matches draws m₁ m₂ (a.apply m₁) (a.apply m₂)

/-- Giving a value is uniform. -/
theorem Uniform.pure (x : α) : Uniform draws (Pure.pure x : Act W α) :=
  fun _ _ h => .refl h _

/-- Halting is uniform. -/
theorem Uniform.throw (halt : Halt) : Uniform draws (MonadExcept.throw halt : Act W α) :=
  fun _ _ h => .refl h _

/-- What follows starts from the same value at machines that are alike again. -/
theorem Uniform.bind {a : Act W α} {f : α → Act W β} (ha : Uniform draws a)
    (hf : ∀ x, Uniform draws (f x)) : Uniform draws (a >>= f) := by
  intro m₁ m₂ h
  obtain ⟨hr, hm, events, ht₁, ht₂⟩ := ha m₁ m₂ h
  rw [apply_bind, apply_bind]
  rcases hp₁ : a.apply m₁ with ⟨r, m₁'⟩
  rcases hp₂ : a.apply m₂ with ⟨_, m₂'⟩
  rw [hp₁] at hr hm ht₁
  rw [hp₂] at hr hm ht₂
  cases hr
  cases r with
  | error halt => exact ⟨rfl, hm, events, ht₁, ht₂⟩
  | ok x =>
    obtain ⟨hr', hm', events', ht₁', ht₂'⟩ := hf x m₁' m₂' hm
    refine ⟨hr', hm', events ++ events', ?_, ?_⟩
    · rw [ht₁', ht₁, List.append_assoc]
    · rw [ht₂', ht₂, List.append_assoc]

/-- A report is uniform. -/
theorem uniform_report (r : Report) : Uniform draws (report r : Act W Unit) :=
  fun _ _ h => ⟨rfl, ⟨h.session, h.world, h.drawn⟩, [.report r], rfl, rfl⟩

/-- A change of the session is uniform. -/
theorem uniform_change (f : Session → Session) : Uniform draws (change f : Act W Unit) :=
  fun _ _ h => ⟨rfl, ⟨congrArg f h.session, h.world, h.drawn⟩, [], by simp, by simp⟩

/-- A call is uniform: its answer depends on the world only. -/
theorem uniform_call (around : Surroundings W) (c : Call) : Uniform draws (call around c) := by
  intro m₁ m₂ h
  obtain ⟨session, world, drawn, trace₁⟩ := m₁
  obtain ⟨_, _, drawn₂, trace₂⟩ := m₂
  obtain ⟨rfl, rfl, hd⟩ := h
  rw [apply_call, apply_call]
  exact ⟨rfl, ⟨rfl, rfl, hd⟩, [_], rfl, rfl⟩

/-- Both machines put the same values in, if the fresh texts are the same or none is asked for. -/
theorem uniform_substitute (around : Surroundings W) {text : String}
    (ht : draws ∨ Template.IsFixed text) : Uniform draws (substitute around text) := by
  intro m₁ m₂ h
  rw [apply_substitute, apply_substitute]
  refine ⟨?_, ⟨h.session, h.world, fun hd => ?_⟩, [], by simp, by simp⟩
  · rw [Machine.expansion, Machine.expansion, h.session]
    rcases ht with hd | hf
    · rw [h.drawn hd]
    · rw [Variables.substitute_of_isFixed hf _ _ m₂.drawn m₁.drawn]
  · simp only [Machine.expanded, Machine.withDrawn, h.session, h.drawn hd]

end Act

namespace Session

open Act

variable {around : Surroundings W} {draws : Prop} {m₁ m₂ : Machine W} {command : String}

/-- The bound on the pages is uniform. -/
theorem uniform_pageLimit (around : Surroundings W) : Uniform draws (pageLimit around) := by
  intro m₁ m₂ h
  rw [apply_pageLimit, apply_pageLimit, h.world]
  exact .refl h _

/-- Every step of a command does the same at machines that are alike. -/
theorem carries_uniform (around : Surroundings W) (draws : Prop) :
    Carries around (Uniform draws) where
  pure := .pure
  throw := .throw
  bind := .bind
  message _ := uniform_report _
  document _ := uniform_report _
  call _ _ := uniform_call around _
  pageLimit := uniform_pageLimit around
  items _ := uniform_report _
  query _ _ _ := uniform_call around _
  keep _ := uniform_change _
  remember _ := uniform_change _
  assign _ _ := uniform_change _

/-! ## Any command -/

/-- The command comes to the same at machines that are alike: draws matter, or no text that is
carried out refers to a reserved name. -/
theorem matches_execute (h : m₁.Alike draws m₂)
    (ht : draws ∨ Template.IsFixed command ∧ (CommandKind.ofCommand command = .again →
      ∀ latest ∈ m₁.session.history.latest?, Template.IsFixed latest)) :
    Matches draws m₁ m₂ ((execute around command).apply m₁)
      ((execute around command).apply m₂) := by
  by_cases hk : CommandKind.ofCommand command = .again
  · rw [execute, hk]
    dsimp only
    rw [apply_again, apply_again, h.session]
    cases hl : m₁.session.history.latest? with
    | none => exact .refl h _
    | some latest =>
      have hlatest : Uniform draws (substitute around latest) :=
        uniform_substitute around (ht.imp_right fun ht => ht.2 hk latest hl)
      exact (carries_uniform around draws).query_of_substitute hlatest _ _ _ h
  · have hcommand : Uniform draws (substitute around command) :=
      uniform_substitute around (ht.imp_right (·.1))
    exact (carries_uniform around draws).execute hcommand hk _ _ h

end Session

end TableShell
