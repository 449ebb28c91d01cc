import TableShell.Proofs.Session.Line
import TableShell.Storage.Memory

/-!
# What a session is asked to do

A `Stimulus` is one thing that happens to a session: a line is fed, a command is carried out, a
script is loaded, the world around the service changes by itself. `Machine.after` is the machine
after it, whatever came of it, and `Reachable` holds of the machines that stimuli lead to from a
start.

A run of the scripts, with a user or without one, is a sequence of stimuli too
(`Session.runScripts_leads`, `Session.runReads_leads`).
-/

namespace TableShell

/-- What can happen to a session. -/
inductive Stimulus (W : Type) where
  | feed (line : String)
  | execute (command : String)
  | load (path : String)
  /-- The world changes by itself. -/
  | world (world : W)
  /-- The next line is taken off the scripts. -/
  | scriptLine
  /-- The user gives up the command that has been begun. -/
  | interrupt
  /-- A failure is reported. -/
  | complain (text : String)
  /-- A line is asked for. -/
  | prompt

namespace Stimulus

open Session Act

variable {W : Type}

/-- The action of a stimulus. -/
def act (around : Surroundings W) : Stimulus W → Act W Unit
  | feed line => do let _ ← Session.feed around line
  | execute command => Session.execute around command
  | load path => loadScript around path
  | world w => modify ({ · with world := w })
  | scriptLine => do let _ ← nextLine
  | interrupt => dropBuffer
  | complain text => report (.error text)
  | prompt => do emit (.prompt (← Act.session).prompt)

/-- The command that a stimulus completes in a session. -/
def command? (session : Session) : Stimulus W → Option String
  | feed line => session.completes? line
  | execute command => some command
  | _ => none

end Stimulus

namespace Machine

open Act

variable {W : Type}

/-- What comes of a stimulus. -/
def outcome (m : Machine W) (around : Surroundings W) (stimulus : Stimulus W) : Except Halt Unit :=
  ((stimulus.act around).apply m).1

/-- The machine after a stimulus. -/
def after (m : Machine W) (around : Surroundings W) (stimulus : Stimulus W) : Machine W :=
  ((stimulus.act around).apply m).2

/-- The machine after several stimuli. -/
def afterAll (m : Machine W) (around : Surroundings W) (stimuli : List (Stimulus W)) : Machine W :=
  stimuli.foldl (fun m stimulus => m.after around stimulus) m

/-- Stimuli lead from one machine to the other. -/
def Leads (around : Surroundings W) (m m' : Machine W) : Prop :=
  ∃ stimuli, m' = m.afterAll around stimuli

/-- Stimuli compose. -/
theorem isStepOrder_leads (around : Surroundings W) : IsStepOrder (Leads around) where
  refl m := ⟨[], rfl⟩
  trans := by
    rintro m _ _ ⟨stimuli, rfl⟩ ⟨stimuli', rfl⟩
    exact ⟨stimuli ++ stimuli', by simp [afterAll]⟩

/-- One stimulus leads to the machine after it. -/
theorem leads_after (m : Machine W) (around : Surroundings W) (stimulus : Stimulus W) :
    Leads around m (m.after around stimulus) := ⟨[stimulus], rfl⟩

/-- A fed line leads where feeding it does. -/
theorem after_feed (m : Machine W) (around : Surroundings W) (line : String) :
    m.after around (.feed line) = ((Session.feed around line).apply m).2 := by
  unfold after Stimulus.act
  dsimp only
  rw [apply_bind]
  rcases (Session.feed around line).apply m with ⟨_ | _, m'⟩ <;> rfl

/-- A fed line comes out as feeding it does, without saying whether to go on. -/
theorem outcome_feed (m : Machine W) (around : Surroundings W) (line : String) :
    m.outcome around (.feed line) = ((Session.feed around line).apply m).1.map fun _ => () := by
  unfold outcome Stimulus.act
  dsimp only
  rw [apply_bind]
  rcases (Session.feed around line).apply m with ⟨_ | _, m'⟩ <;> rfl

/-- A connect command with a setting asks for a client, with its settings put over those in use. -/
theorem after_feed_connect {line : String} {changes : Connection}
    (hv : Verb.ofLine? (Text.trim line) = some .connect)
    (hc : Connection.ofCommand (Text.trim line) = .ok changes) (hg : changes.isGiven = true)
    (m : Machine W) (around : Surroundings W) :
    m.after around (.feed line) = match (m.overlaid changes).link around with
      | .error _ => (m.overlaid changes).linked around
      | .ok () => ((m.overlaid changes).linked around).change
          ({ · with client := m.session.connection.overlay changes }) := by
  have h := Session.apply_connect around (Text.trim line) m
  rw [hc] at h
  dsimp only at h
  rw [if_pos hg, Act.apply_connect] at h
  rw [after_feed, Session.apply_feed_verb hv, Session.perform]
  cases hl : (m.overlaid changes).link around with
  | error e =>
    rw [apply_bind_of_error (h.trans (by rw [hl]))]
    rfl
  | ok _ =>
    rw [apply_bind_of_ok (h.trans (by rw [hl]))]
    rfl

/-- An executed command leads where executing it does. -/
theorem after_execute (m : Machine W) (around : Surroundings W) (command : String) :
    m.after around (.execute command) = ((Session.execute around command).apply m).2 := rfl

/-- An executed command comes out as executing it does. -/
theorem outcome_execute (m : Machine W) (around : Surroundings W) (command : String) :
    m.outcome around (.execute command) = ((Session.execute around command).apply m).1 := rfl

end Machine

/-- A machine that stimuli lead to from the start of a session. -/
inductive Reachable {W : Type} (around : Surroundings W) : Machine W → Prop
  | start {config world m} : Machine.start around config world = .ok m → Reachable around m
  | step {m} (stimulus : Stimulus W) :
      Reachable around m → Reachable around (m.after around stimulus)

/-- A store in memory, without files. No fresh text is anything. -/
def inMemory : Surroundings MemoryStore where
  service := MemoryStore.service
  supply := ⟨fun _ => "", fun _ => ""⟩

/-- A session that has just been started over a store in memory. -/
def Machine.over (store : MemoryStore) : Machine MemoryStore where
  session := { connection := {}, client := {}, noStop := false, history := .withCapacity 100 }
  world := store
  trace := [.connect {} (.ok ())]

/-- A session over a store in memory is reachable: starting one succeeds. -/
theorem reachable_inMemory (store : MemoryStore) : Reachable inMemory (.over store) := by
  have h : Machine.start inMemory {} store = .ok (.over store) := rfl
  exact .start h

/-- Stimuli lead from a reachable machine to a reachable one. -/
theorem Reachable.leads {W : Type} {around : Surroundings W} {m m' : Machine W}
    (h : Reachable around m) (hl : m.Leads around m') : Reachable around m' := by
  obtain ⟨stimuli, rfl⟩ := hl
  induction stimuli generalizing m with
  | nil => exact h
  | cons stimulus stimuli ih => exact ih (h.step stimulus)

/-! ## Runs -/

namespace Session

open Act Machine

variable {W : Type} {around : Surroundings W}

/-- What a stimulus does, and gives a value besides. -/
theorem keeps_leads_of_act {α : Type} {a : Act W α} (stimulus : Stimulus W)
    (h : ∀ m, (a.apply m).2 = ((stimulus.act around).apply m).2) : Keeps (Leads around) a :=
  fun m => ⟨[stimulus], h m⟩

/-- Feeding a line is a stimulus. -/
theorem keeps_leads_feed (around : Surroundings W) (line : String) :
    Keeps (Leads around) (feed around line) :=
  keeps_leads_of_act (.feed line) fun m => (m.after_feed around line).symm

/-- Taking a line from the scripts is a stimulus. -/
theorem keeps_leads_nextLine (around : Surroundings W) :
    Keeps (Leads around) (nextLine : Act W (Option String)) :=
  keeps_leads_of_act .scriptLine fun _ => rfl

/-- Feeding a line with reports is a sequence of stimuli. -/
theorem keeps_leads_feedReporting (around : Surroundings W) (stops : Bool) (line : String) :
    Keeps (Leads around) (feedReporting around stops line) := by
  have hR := isStepOrder_leads around
  refine .tryCatch hR (keeps_leads_feed around line) fun halt => ?_
  cases halt with
  | unfinished => exact .throw hR _
  | failed e =>
    refine .bind hR (keeps_leads_of_act (.complain e.message) fun _ => rfl) fun _ => ?_
    split
    · exact .throw hR _
    · exact .pure hR _

/-- A line is fed and reported, and what follows depends on whether more lines are read. -/
theorem keeps_leads_feedReporting_bind {k : Flow → Act W Unit}
    (hnext : Keeps (Leads around) (k .next)) (hexit : Keeps (Leads around) (k .exit))
    (stops : Bool) (line : String) :
    Keeps (Leads around) (feedReporting around stops line >>= k) := by
  have hfeed := keeps_leads_feedReporting around stops line
  refine hfeed.bind (isStepOrder_leads around) fun flow => ?_
  cases flow with
  | next => exact hnext
  | exit => exact hexit

/-- A run of the scripts is a sequence of stimuli. -/
theorem runScripts_leads (around : Surroundings W) :
    ∀ steps, Keeps (Leads around) (runScripts around steps)
  | 0 => .throw (isStepOrder_leads around) _
  | steps + 1 => by
    have hR := isStepOrder_leads around
    refine .bind hR (keeps_leads_nextLine around) fun line => ?_
    cases line with
    | none => exact .pure hR ()
    | some line =>
      refine .bind hR (fun m => hR.refl m) fun s => ?_
      exact keeps_leads_feedReporting_bind (runScripts_leads around steps) (.pure hR ()) _ line

/-- A run of the scripts and of what the user says is a sequence of stimuli. -/
theorem runReads_leads (around : Surroundings W) :
    ∀ steps reads, Keeps (Leads around) (runReads around steps reads)
  | 0, _ => .throw (isStepOrder_leads around) _
  | steps + 1, reads => by
    have hR := isStepOrder_leads around
    refine .bind hR (keeps_leads_nextLine around) fun line => ?_
    cases line with
    | some line =>
      exact keeps_leads_feedReporting_bind (runReads_leads around steps reads) (.pure hR ()) _ line
    | none =>
      intro m
      rw [apply_bind_of_ok (apply_session m), apply_bind_of_ok (apply_emit _ m)]
      refine hR.trans (m.leads_after around .prompt) (?_ : Leads around (m.after around .prompt) _)
      revert m
      cases reads with
      | nil => exact fun m => hR.refl _
      | cons read reads =>
        cases read with
        | ended => exact fun m => hR.refl _
        | line text =>
          exact fun m => keeps_leads_feedReporting_bind (runReads_leads around steps reads)
            (.pure hR ()) false text _
        | interrupt =>
          exact fun m => Keeps.bind hR (keeps_leads_of_act .interrupt fun _ => rfl)
            (fun _ => runReads_leads around steps reads) _

end Session

end TableShell
