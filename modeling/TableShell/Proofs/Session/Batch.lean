import TableShell.Proofs.Script
import TableShell.Proofs.Session.Frame
import TableShell.Proofs.Session.Run

/-!
# The scripts as one list of lines

A run of the scripts takes its lines off a stack, and a line may put another script on it.
`BatchRun` is the run without a stack: there is one list of lines, its head is taken off and fed,
and the lines of a script that is loaded are put in front of the others. The two do the same, and
the lines that the run leaves on the stack are those that are left of the list
(`Session.run_as_one_list`).

A step of the stack is a step of the list because the scripts that wait play no part in a line
(`Session.framed_feed`): the line is fed to a machine without scripts, and those that wait are put
below what it has loaded (`Session.apply_runScripts_cons`).
-/

namespace TableShell

/-- Putting the scripts of a machine in their own place changes nothing. -/
theorem Machine.withScripts_eq_self {W : Type} {m : Machine W} {scripts : Script.Stack}
    (h : m.session.scripts = scripts) : m.withScripts scripts = m := by
  obtain ⟨⟨connection, client, noStop, bindings, history, scripts, begun, token⟩, w, n, t⟩ := m
  cases h
  rfl

/-- Scripts put below none are the only ones. -/
theorem Machine.above_eq {W : Type} {m : Machine W} (h : m.session.scripts = [])
    (below : Script.Stack) :
    (m.above below).session.scripts = below ∧ (m.above below).withScripts [] = m :=
  ⟨by simp [h], withScripts_eq_self h⟩

namespace Session

open Act Machine

variable {W : Type} {around : Surroundings W}

/-- The lines of the script that a line loads. -/
def loadedLines (around : Surroundings W) (line : String) : List String :=
  (loads? around line).elim [] Script.lines

/-- A run of lines: what it fails with on the way, how it ends, and which lines are left. -/
inductive BatchRun (around : Surroundings W) :
    List String → Machine W → List Error → Except Error Unit → List String → Machine W → Prop
  | ended {m} : BatchRun around [] m [] (.ok ()) [] m
  /-- The line ends the run. -/
  | exited {line lines m m'} : (feed around line).apply m = (.ok .exit, m') →
      BatchRun around (line :: lines) m [] (.ok ()) lines m'
  /-- The line succeeds, and the lines that it loads come before the others. -/
  | fed {line lines m m' failures r left n} : (feed around line).apply m = (.ok .next, m') →
      BatchRun around (loadedLines around line ++ lines) (m'.withScripts []) failures r left n →
      BatchRun around (line :: lines) m failures r left n
  /-- The line fails, and the run goes on after the failure has been reported. -/
  | skipped {line lines m m' e failures r left n} :
      (feed around line).apply m = (.error (.failed e), m') → m.session.noStop = true →
      BatchRun around lines (m'.emit (.report (.error e.message))) failures r left n →
      BatchRun around (line :: lines) m (e :: failures) r left n
  /-- The line fails, and the run ends after the failure has been reported. -/
  | aborted {line lines m m' e} :
      (feed around line).apply m = (.error (.failed e), m') → m.session.noStop = false →
      BatchRun around (line :: lines) m [e] (.error e) lines
        (m'.emit (.report (.error e.message)))

variable {m m' : Machine W} {line : String} {lines left : List String}

/-! ## One step -/

/-- The next line comes from the scripts and changes nothing but them. -/
theorem apply_nextLine (m : Machine W) :
    nextLine.apply m =
      (.ok m.session.scripts.nextLine?.1, m.withScripts m.session.scripts.nextLine?.2) := rfl

/-- Feeding a line with reports: a failure is reported, and ends the run only where the run stops at
failures. -/
theorem apply_feedReporting (around : Surroundings W) (stops : Bool) (line : String)
    (m : Machine W) :
    (feedReporting around stops line).apply m = match (feed around line).apply m with
      | (.ok flow, m') => (.ok flow, m')
      | (.error (.failed e), m') =>
        (if stops then .error (.failed e) else .ok .next, m'.emit (.report (.error e.message)))
      | (.error .unfinished, m') => (.error .unfinished, m') := by
  rw [feedReporting, apply_tryCatch]
  rcases (feed around line).apply m with ⟨(e | _) | flow, m'⟩
  · dsimp only
    rw [apply_bind_of_ok (apply_report _ m')]
    cases stops <;> rfl
  · rfl
  · rfl

/-- A line that is fed puts the lines that it loads in front, and none if the run does not simply
go on after it. -/
theorem scripts_feed {r : Except Halt Flow} (h : (feed around line).apply m = (r, m')) :
    m'.session.scripts.pending = loadedLines around line ++ m.session.scripts.pending ∧
      (r ≠ .ok .next → m'.session.scripts = m.session.scripts) := by
  cases hl : loads? around line with
  | none =>
    have hscripts : m'.session.scripts = m.session.scripts := by
      rw [← scripts_feed_of_none hl m, h]
    rw [loadedLines, hl, hscripts]
    exact ⟨rfl, fun _ => rfl⟩
  | some script =>
    cases h.symm.trans (apply_feed_of_loads hl m)
    rw [loadedLines, hl]
    exact ⟨List.flatMap_cons, fun hne => absurd rfl hne⟩

/-- A run of scripts with no line left is over. -/
theorem apply_runScripts_nil (h : m.session.scripts.pending = []) (steps : Nat) :
    (runScripts around (steps + 1)).apply m = (.ok (), m.withScripts []) := by
  rw [runScripts, apply_bind_of_ok (apply_nextLine m), Script.Stack.nextLine?_of_pending_nil h]
  rfl

/-- The first line is fed without the scripts, and the rest of them waits meanwhile. -/
theorem apply_runScripts_cons (around : Surroundings W)
    (h : m.session.scripts.pending = line :: lines) :
    ∃ below : Script.Stack, below.pending = lines ∧ ∀ steps,
      (runScripts around (steps + 1)).apply m =
        match (feed around line).apply (m.withScripts []) with
        | (.ok .next, m') => (runScripts around steps).apply (m'.above below)
        | (.ok .exit, m') => (.ok (), m'.above below)
        | (.error (.failed e), m') =>
          if m.session.noStop then
            (runScripts around steps).apply ((m'.emit (.report (.error e.message))).above below)
          else (.error (.failed e), (m'.emit (.report (.error e.message))).above below)
        | (.error .unfinished, m') => (.error .unfinished, m'.above below) := by
  obtain ⟨hline, hbelow⟩ := Script.Stack.nextLine?_eq m.session.scripts
  rw [h] at hline hbelow
  refine ⟨m.session.scripts.nextLine?.2, hbelow, fun steps => ?_⟩
  have hfed : (feed around line).apply (m.withScripts m.session.scripts.nextLine?.2) =
      (((feed around line).apply (m.withScripts [])).1,
        ((feed around line).apply (m.withScripts [])).2.above m.session.scripts.nextLine?.2) :=
    framed_feed around line (m.withScripts []) _
  have hstops : (!(m.withScripts m.session.scripts.nextLine?.2).session.noStop) =
      !m.session.noStop := rfl
  rw [runScripts, apply_bind_of_ok (apply_nextLine m), hline]
  change (session >>= _).apply _ = _
  rw [apply_bind_of_ok (apply_session _), apply_bind, hstops, apply_feedReporting, hfed]
  rcases (feed around line).apply (m.withScripts []) with ⟨(e | _) | flow, m'⟩
  · dsimp only
    cases m.session.noStop <;> rfl
  · rfl
  · cases flow <;> rfl

/-- The lines that are pending after a line that succeeded without the scripts. -/
theorem pending_above {m : Machine W} {below : Script.Stack} {r : Except Halt Flow}
    (h : (feed around line).apply (m.withScripts []) = (r, m')) :
    (m'.above below).session.scripts.pending = loadedLines around line ++ below.pending := by
  have hnone : (m.withScripts []).session.scripts.pending = [] := rfl
  rw [above_session, Script.Stack.pending_append, (scripts_feed h).1, hnone, List.append_nil]

/-! ## Whole runs -/

/-- What the stack does is what the list does. -/
theorem batchRun_of_apply {r : Except Error Unit} :
    ∀ {steps : Nat} {m m' : Machine W},
      (runScripts around steps).apply m = (r.mapError .failed, m') →
        ∃ failures, BatchRun around m.session.scripts.pending (m.withScripts []) failures r
          m'.session.scripts.pending (m'.withScripts [])
  | 0, m, m', h => by cases r <;> cases h
  | steps + 1, m, m', h => by
    cases hp : m.session.scripts.pending with
    | nil =>
      rw [apply_runScripts_nil hp] at h
      cases r <;> cases h
      exact ⟨[], .ended⟩
    | cons line lines =>
      obtain ⟨below, rfl, hstep⟩ := apply_runScripts_cons around hp
      rw [hstep] at h
      -- a line after which the run does not simply go on has loaded nothing, so what waits is left
      rcases hfed : (feed around line).apply (m.withScripts []) with ⟨(e | _) | (_ | _), m₁⟩ <;>
        rw [hfed] at h
      · have hscripts : m₁.session.scripts = [] := (scripts_feed hfed).2 nofun
        obtain ⟨hbelow, hflat⟩ :=
          Machine.above_eq (m := m₁.emit (.report (.error e.message))) hscripts below
        cases hn : m.session.noStop with
        | true =>
          rw [hn] at h
          obtain ⟨failures, hrun⟩ := batchRun_of_apply h
          rw [hbelow, hflat] at hrun
          exact ⟨e :: failures, .skipped hfed hn hrun⟩
        | false =>
          rw [hn] at h
          cases r <;> cases h
          rw [hbelow, hflat]
          exact ⟨[e], .aborted hfed hn⟩
      · cases r <;> cases h
      · obtain ⟨failures, hrun⟩ := batchRun_of_apply h
        rw [pending_above hfed] at hrun
        exact ⟨failures, .fed hfed hrun⟩
      · cases r <;> cases h
        obtain ⟨hbelow, hflat⟩ := Machine.above_eq ((scripts_feed hfed).2 nofun) below
        rw [hbelow, hflat]
        exact ⟨[], .exited hfed⟩

/-- What the list does is what the stack does, in some number of steps. -/
theorem BatchRun.exists_apply {n₀ n : Machine W} {failures : List Error} {r : Except Error Unit}
    (h : BatchRun around lines n₀ failures r left n) (hp : m.session.scripts.pending = lines)
    (hm : m.withScripts [] = n₀) :
    ∃ steps m', (runScripts around steps).apply m = (r.mapError .failed, m') ∧
      m'.session.scripts.pending = left ∧ m'.withScripts [] = n := by
  induction h generalizing m with
  | ended => exact ⟨1, _, apply_runScripts_nil hp 0, rfl, hm⟩
  | exited hfed =>
    subst hm
    obtain ⟨below, rfl, hstep⟩ := apply_runScripts_cons around hp
    obtain ⟨hbelow, hflat⟩ := Machine.above_eq ((scripts_feed hfed).2 nofun) below
    exact ⟨1, _, (hstep 0).trans (by rw [hfed]; rfl), by rw [hbelow], hflat⟩
  | fed hfed _ ih =>
    subst hm
    obtain ⟨below, rfl, hstep⟩ := apply_runScripts_cons around hp
    obtain ⟨steps, m', hrun, hleft, hn⟩ := ih (pending_above hfed) rfl
    exact ⟨steps + 1, m', (hstep steps).trans (by rw [hfed]; exact hrun), hleft, hn⟩
  | @skipped line lines _ m₁ e _ _ _ _ hfed hgoes _ ih =>
    subst hm
    obtain ⟨below, rfl, hstep⟩ := apply_runScripts_cons around hp
    have hscripts : m₁.session.scripts = [] := (scripts_feed hfed).2 nofun
    obtain ⟨hbelow, hflat⟩ :=
      Machine.above_eq (m := m₁.emit (.report (.error e.message))) hscripts below
    obtain ⟨steps, m', hrun, hleft, hn⟩ := ih (congrArg _ hbelow) hflat
    refine ⟨steps + 1, m', (hstep steps).trans ?_, hleft, hn⟩
    rw [hfed]
    exact (if_pos hgoes).trans hrun
  | @aborted line lines _ m₁ e hfed hstops =>
    subst hm
    obtain ⟨below, rfl, hstep⟩ := apply_runScripts_cons around hp
    have hscripts : m₁.session.scripts = [] := (scripts_feed hfed).2 nofun
    obtain ⟨hbelow, hflat⟩ :=
      Machine.above_eq (m := m₁.emit (.report (.error e.message))) hscripts below
    refine ⟨1, _, (hstep 0).trans ?_, congrArg _ hbelow, hflat⟩
    rw [hfed]
    exact if_neg (by simpa using hstops)

/-- Each failure is reported once, a session that goes on after failures comes to the end, and
another one ends with its first failure. -/
theorem BatchRun.complaints {n₀ n : Machine W} {failures : List Error} {r : Except Error Unit}
    (h : BatchRun around lines n₀ failures r left n) :
    n.trace.filterMap Event.complaint? =
        n₀.trace.filterMap Event.complaint? ++ failures.map Error.message ∧
      (n₀.session.noStop = true → r = .ok ()) ∧
      (n₀.session.noStop = false → r = .ok () ∧ failures = [] ∨
        ∃ e, r = .error e ∧ failures = [e]) := by
  have calm {line : String} {m m' : Machine W} {r : Except Halt Flow}
      (hfed : (feed around line).apply m = (r, m')) : m.Calm m' := by
    have hcalm := keeps_calm_feed around line m
    rwa [hfed] at hcalm
  have reported {m m' : Machine W} (hcalm : m.Calm m') (e : Error) :
      (m'.emit (.report (.error e.message))).trace.filterMap Event.complaint? =
        m.trace.filterMap Event.complaint? ++ [e.message] := by
    rw [emit_trace, List.filterMap_append, hcalm.complaints]
    rfl
  -- no line reports a failure itself, so what is reported is what the run adds after it
  induction h with
  | ended => exact ⟨(List.append_nil _).symm, fun _ => rfl, fun _ => .inl ⟨rfl, rfl⟩⟩
  | exited hfed =>
    rw [(calm hfed).complaints]
    exact ⟨(List.append_nil _).symm, fun _ => rfl, fun _ => .inl ⟨rfl, rfl⟩⟩
  | fed hfed _ ih =>
    rw [withScripts_trace, withScripts_session, (calm hfed).complaints] at ih
    dsimp only at ih
    rwa [(calm hfed).noStop] at ih
  | @skipped _ _ _ _ e _ _ _ _ hfed hgoes _ ih =>
    obtain ⟨hcomplaints, hgoesOn, -⟩ := ih
    refine ⟨?_, fun _ => hgoesOn ((calm hfed).noStop.trans hgoes), fun hstops => ?_⟩
    · rw [hcomplaints, reported (calm hfed), List.map_cons, List.append_assoc]
      rfl
    · rw [hgoes] at hstops
      cases hstops
  | @aborted _ _ _ _ e hfed hstops =>
    refine ⟨reported (calm hfed) e, fun hgoes => ?_, fun _ => .inr ⟨e, rfl, rfl⟩⟩
    rw [hstops] at hgoes
    cases hgoes

/-- A run of the scripts feeds their lines as one list. It ends exactly if the run of the list does,
with the same outcome and at the same machine, and the lines that are left of the list are those
that the next run starts with. On the way each line that fails is reported once, and nothing else
is; a session that goes on after failures ends well, and another one ends with the first failure if
there is one. -/
theorem run_as_one_list (around : Surroundings W) (m n : Machine W) (r : Except Error Unit)
    (left : List String) :
    ((∃ steps m', (runScripts around steps).apply m = (r.mapError .failed, m') ∧
        m'.session.scripts.pending = left ∧ m'.withScripts [] = n) ↔
      ∃ failures,
        BatchRun around m.session.scripts.pending (m.withScripts []) failures r left n) ∧
    ∀ failures, BatchRun around m.session.scripts.pending (m.withScripts []) failures r left n →
      n.trace.filterMap Event.complaint? =
          m.trace.filterMap Event.complaint? ++ failures.map Error.message ∧
        (m.session.noStop = true → r = .ok ()) ∧
        (m.session.noStop = false → r = .ok () ∧ failures = [] ∨
          ∃ e, r = .error e ∧ failures = [e]) := by
  refine ⟨⟨?_, ?_⟩, fun failures h => h.complaints⟩
  · rintro ⟨steps, m', hrun, rfl, rfl⟩
    exact batchRun_of_apply hrun
  · rintro ⟨failures, h⟩
    exact h.exists_apply rfl rfl

/-- A store in memory, with a script that loads another one in which a line fails. -/
def inMemoryWithScripts : Surroundings MemoryStore :=
  { inMemory with
    file? := FileTree.file? <| FileTree.ofList
      [("outer", .text "@a = 1;\n. inner\n@c = 3;"), ("inner", .text "DESC;\n@b = 2;")] }

/-- What is left of both scripts stays, in order. -/
theorem run_as_one_list_failing_inner_script :
    ∃ m m' e, Reachable inMemoryWithScripts m ∧
      m.session.scripts.pending = ["@a = 1;", ". inner", "@c = 3;"] ∧
      (runScripts inMemoryWithScripts 4).apply m = (.error (.failed e), m') ∧
      m'.session.scripts.pending = ["@b = 2;", "@c = 3;"] ∧
      m'.trace.filterMap Event.complaint? = [e.message] := by
  have hstart : Machine.start inMemoryWithScripts {} {} = .ok (.over {}) := rfl
  obtain ⟨m, hm, hpending, hnone, hstop, hleft, hfails⟩ : ∃ m, Reachable inMemoryWithScripts m ∧
      m.session.scripts.pending = ["@a = 1;", ". inner", "@c = 3;"] ∧
      m.trace.filterMap Event.complaint? = [] ∧ m.session.noStop = false ∧
      ((runScripts inMemoryWithScripts 4).apply m).2.session.scripts.pending =
        ["@b = 2;", "@c = 3;"] ∧
      (match ((runScripts inMemoryWithScripts 4).apply m).1 with
        | .error (.failed _) => true
        | _ => false) = true :=
    ⟨(Machine.over {}).after inMemoryWithScripts (.load "outer"), (Reachable.start hstart).step _,
      rfl, rfl, rfl, by decide +kernel, by decide +kernel⟩
  rcases hrun : (runScripts inMemoryWithScripts 4).apply m with ⟨(e | _) | _, m'⟩ <;>
    rw [hrun] at hfails hleft
  · obtain ⟨hlist, hpolicy⟩ := run_as_one_list inMemoryWithScripts m (m'.withScripts [])
      (.error e) ["@b = 2;", "@c = 3;"]
    obtain ⟨failures, h⟩ := hlist.1 ⟨4, m', hrun, hleft, rfl⟩
    obtain ⟨hcomplaints, -, hstops⟩ := hpolicy failures h
    rcases hstops hstop with ⟨hok, -⟩ | ⟨_, ⟨⟩, rfl⟩
    · cases hok
    · rw [hnone] at hcomplaints
      exact ⟨m, m', e, hm, hpending, hrun, hleft, hcomplaints⟩
  · cases hfails
  · cases hfails

end Session

end TableShell
