import TableShell.Proofs.Session.Run

/-!
# What a failure leaves behind

A line that fails leaves the variables, the history and the scripts as they were, with nothing begun
(`Session.Fed.of_error`). Over any sequence of stimuli, the variables are those of the beginning
with the assignments put in that were carried out, in order (`Machine.bindings_afterAll`).
-/

namespace TableShell

/-- The session has failed: of what it remembers, only the token of the last query may be gone, and
nothing is begun. -/
structure Session.FailedFrom (s s' : Session) : Prop where
  bindings : s'.bindings = s.bindings
  history : s'.history = s.history
  scripts : s'.scripts = s.scripts
  buffer : s'.buffer = ""
  nextToken : s'.nextToken = s.nextToken ∨ s'.nextToken = none

namespace Session

variable {W : Type} {around : Surroundings W} {m m' : Machine W} {line command : String}

/-- A session to which only events were added has failed once its buffer is emptied. -/
theorem failedFrom_of_adds (h : m.Adds m') :
    m.session.FailedFrom (m'.withBuffer "").session := by
  constructor <;> simp [h.session]

/-- A query that fails changes nothing but the token, which is lost. -/
theorem Queried.of_error {token : Option String} {halt : Halt}
    (h : Queried around command token m (.error halt) m') :
    m'.session = { m.session with nextToken := none } := by
  cases h <;> rfl

/-- A command that fails leaves the session as it was, but for the token. -/
theorem Executed.of_error {halt : Halt} (h : Executed around command m (.error halt) m') :
    m'.session = m.session ∨ m'.session = { m.session with nextToken := none } := by
  cases h with
  | kept h => exact .inl h.session
  | queried _ h => exact .inr h.of_error
  | again _ _ h => exact .inr h.of_error

/-- A verb that fails leaves the session as it was, or is a connect command that has found no
client. -/
theorem Performed.of_error {verb : Verb} {halt : Halt}
    (h : Performed around verb line m (.error halt) m') :
    m.session.FailedFrom (m'.withBuffer "").session := by
  cases h with
  | kept h => exact failedFrom_of_adds h
  | refused => exact ⟨rfl, rfl, rfl, rfl, .inr rfl⟩

/-- Whatever the reason for which a line fails, the session has failed from what it was. -/
theorem Fed.of_error {halt : Halt} (h : Fed around line m (.error halt) m') :
    m.session.FailedFrom m'.session := by
  generalize hr : (Except.error halt : Except Halt Flow) = r at h
  cases h with
  | comment | verb | part => cases hr
  | failed _ hp => cases hr; exact hp.of_error
  | @completed _ r _ _ he =>
    cases r with
    | ok _ => cases hr
    | error halt =>
      rcases he.of_error with h | h <;> rw [h]
      · exact ⟨rfl, rfl, rfl, rfl, .inl rfl⟩
      · exact ⟨rfl, rfl, rfl, rfl, .inr rfl⟩

/-! ## Commands that are carried out -/

/-- A query changes no variable. -/
theorem Queried.bindings {token : Option String} {r : Except Halt Unit}
    (h : Queried around command token m r m') : m'.session.bindings = m.session.bindings := by
  cases h <;> rfl

/-- No verb changes a variable or the history. -/
theorem Performed.keeps {verb : Verb} {r : Except Halt Flow}
    (h : Performed around verb line m r m') :
    m'.session.bindings = m.session.bindings ∧ m'.session.history = m.session.history := by
  cases h with
  | kept h => rw [h.session]; exact ⟨rfl, rfl⟩
  | cleared | loaded | refused | connected => exact ⟨rfl, rfl⟩

end Session

namespace Machine

open Session Act

variable {W : Type} {around : Surroundings W} {m m' : Machine W}

/-- The command that a stimulus carries out: the one that it completes, if it succeeds. -/
def carriedOut? (m : Machine W) (around : Surroundings W) (stimulus : Stimulus W) :
    Option String :=
  match m.outcome around stimulus with
  | .ok () => stimulus.command? m.session
  | .error _ => none

/-- What a stimulus does to the variables and the history. -/
inductive Progress (around : Surroundings W) (m : Machine W) (stimulus : Stimulus W)
    (m' : Machine W) : Prop
  /-- No command is carried out, and both stay as they are. -/
  | kept : m.carriedOut? around stimulus = none →
      m'.session.bindings = m.session.bindings ∧ m'.session.history = m.session.history →
      Progress around m stimulus m'
  | carriedOut {command buffer} : m.carriedOut? around stimulus = some command →
      Executed around command (m.withBuffer buffer) (.ok ()) m' → Progress around m stimulus m'

/-- A command that is tried changes both only if it is carried out. -/
theorem progress_of_executed {stimulus : Stimulus W} {command buffer : String}
    {r : Except Halt Unit} (hc : stimulus.command? m.session = some command)
    (hr : m.outcome around stimulus = r)
    (h : Executed around command (m.withBuffer buffer) r m') : Progress around m stimulus m' := by
  cases r with
  | error halt =>
    refine .kept (by rw [carriedOut?, hr]) ?_
    rcases h.of_error with hs | hs <;> rw [hs] <;> exact ⟨rfl, rfl⟩
  | ok _ => exact .carriedOut (by rw [carriedOut?, hr, hc]) h

/-- A stimulus that completes no command carries out none. -/
theorem carriedOut?_eq_none {stimulus : Stimulus W} (h : stimulus.command? m.session = none) :
    m.carriedOut? around stimulus = none := by
  rw [carriedOut?, h]
  cases m.outcome around stimulus <;> rfl

/-- Every stimulus is one of the cases of `Progress`. -/
theorem progress (m : Machine W) (around : Surroundings W) (stimulus : Stimulus W) :
    Progress around m stimulus (m.after around stimulus) := by
  cases stimulus with
  | feed line =>
    have hr := m.outcome_feed around line
    rw [after_feed]
    have h := fed around line m
    generalize (feed around line).apply m = p at h hr ⊢
    obtain ⟨r, m'⟩ := p
    dsimp only at h hr ⊢
    cases h with
    | comment hc => exact .kept (carriedOut?_eq_none (completes?_of_comment hc)) ⟨rfl, rfl⟩
    | verb hv hp => exact .kept (carriedOut?_eq_none (completes?_of_verb hv)) hp.keeps
    | failed hv hp => exact .kept (carriedOut?_eq_none (completes?_of_verb hv)) hp.keeps
    | part hn => exact .kept (carriedOut?_eq_none hn) ⟨rfl, rfl⟩
    | @completed command r _ hs he =>
      refine progress_of_executed hs (hr.trans ?_) he
      cases r <;> rfl
  | execute command =>
    exact progress_of_executed rfl rfl (executed around command m)
  | load path =>
    refine .kept (carriedOut?_eq_none rfl) ?_
    change (((loadScript around path).apply m).2).session.bindings = _ ∧
      (((loadScript around path).apply m).2).session.history = _
    rw [apply_loadScript]
    cases Script.load around.file? path <;> exact ⟨rfl, rfl⟩
  | world | scriptLine | interrupt | complain | prompt =>
    exact .kept (carriedOut?_eq_none rfl) ⟨rfl, rfl⟩

end Machine

/-! ## Variables -/

/-- The variables with the value of an assignment, if there is one. -/
def Variables.assign (vars : Variables) : Option Command.Assignment → Variables
  | none => vars
  | some a => vars.insert a.name a.value

namespace Machine

open Session

variable {W : Type}

/-- The assignment that a command is, with the values of its variables put in. -/
def assignmentOf? (m : Machine W) (around : Surroundings W) (command : String) :
    Option Command.Assignment :=
  if CommandKind.ofCommand command = .assignment then
    (Command.readAssignment (m.expansion around command)).toOption
  else none

/-- The assignment that a stimulus carries out: that of the command it completes, if it succeeds. -/
def assignment? (m : Machine W) (around : Surroundings W) (stimulus : Stimulus W) :
    Option Command.Assignment :=
  match stimulus.command? m.session, m.outcome around stimulus with
  | some command, .ok () => m.assignmentOf? around command
  | _, _ => none

/-- The assignments that stimuli carry out one after the other. -/
def assignments (around : Surroundings W) : Machine W → List (Stimulus W) → List Command.Assignment
  | _, [] => []
  | m, stimulus :: stimuli =>
    (m.assignment? around stimulus).toList ++ assignments around (m.after around stimulus) stimuli

end Machine

namespace Session

variable {W : Type} {around : Surroundings W} {m m' : Machine W} {line command : String}

/-- A command that is no assignment assigns nothing. -/
theorem assign_assignmentOf? (h : CommandKind.ofCommand command ≠ .assignment) :
    m.session.bindings.assign (m.assignmentOf? around command) = m.session.bindings := by
  rw [Machine.assignmentOf?, if_neg h]
  rfl

/-- A command that succeeds sets the variable that it assigns, if it is an assignment. -/
theorem Executed.bindings_of_ok (h : Executed around command m (.ok ()) m') :
    m'.session.bindings = m.session.bindings.assign (m.assignmentOf? around command) := by
  cases h with
  | recorded hk h =>
    rw [h.session, assign_assignmentOf? fun h => hk (by simp [h])]
    rfl
  | assigned hk ha =>
    rw [Machine.assignmentOf?, if_pos hk, ha]
    rfl
  | queried hk h => rw [h.bindings, assign_assignmentOf? (by simp [hk])]
  | again hk _ h => rw [h.bindings, assign_assignmentOf? (by simp [hk])]

end Session

namespace Machine

open Session Act

variable {W : Type} {around : Surroundings W} {m : Machine W}

/-- An assignment is carried out as a command. -/
theorem assignment?_eq_bind (m : Machine W) (around : Surroundings W) (stimulus : Stimulus W) :
    m.assignment? around stimulus =
      (m.carriedOut? around stimulus).bind (m.assignmentOf? around) := by
  rw [assignment?, carriedOut?]
  cases m.outcome around stimulus <;> cases stimulus.command? m.session <;> rfl

/-- A stimulus sets the variable of the assignment that it carries out, and no other one. -/
theorem bindings_after (m : Machine W) (around : Surroundings W) (stimulus : Stimulus W) :
    (m.after around stimulus).session.bindings =
      m.session.bindings.assign (m.assignment? around stimulus) := by
  rw [assignment?_eq_bind]
  cases m.progress around stimulus with
  | kept hc h =>
    rw [hc, h.1]
    rfl
  | carriedOut hc h =>
    rw [hc, h.bindings_of_ok]
    rfl

/-- Over any stimuli, the variables change by the assignments carried out and by nothing else. -/
theorem bindings_afterAll (around : Surroundings W) (stimuli : List (Stimulus W)) (m : Machine W) :
    (m.afterAll around stimuli).session.bindings =
      (assignments around m stimuli).foldl (fun vars a => vars.insert a.name a.value)
        m.session.bindings := by
  induction stimuli generalizing m with
  | nil => rfl
  | cons stimulus stimuli ih =>
    rw [assignments, List.foldl_append]
    change ((m.after around stimulus).afterAll around stimuli).session.bindings = _
    rw [ih, bindings_after]
    cases m.assignment? around stimulus <;> rfl

end Machine

namespace Session

open Machine

variable {W : Type}

/-- A line that fails, for whatever reason, leaves the variables, the history and the scripts as
they were, with nothing begun, and at most the token is gone. Over any run, which is a sequence of
stimuli, the variables change by the assignments that succeeded, in their order, and by nothing
else. -/
theorem failure_atomic (around : Surroundings W) :
    (∀ {m m' : Machine W} {line halt}, (feed around line).apply m = (.error halt, m') →
      m.session.FailedFrom m'.session) ∧
    (∀ (m : Machine W) stimuli, (m.afterAll around stimuli).session.bindings =
      (assignments around m stimuli).foldl (fun vars a => vars.insert a.name a.value)
        m.session.bindings) ∧
    (∀ (m : Machine W) steps, m.Leads around ((runScripts around steps).apply m).2) ∧
    ∀ (m : Machine W) steps reads, m.Leads around ((runReads around steps reads).apply m).2 := by
  refine ⟨fun {m m' line halt} h => ?_, fun m stimuli => bindings_afterAll around stimuli m,
    fun m steps => runScripts_leads around steps m,
    fun m steps reads => runReads_leads around steps reads m⟩
  have hfed := fed around line m
  rw [h] at hfed
  exact hfed.of_error

/-- In memory, a query that spans two lines and fails leaves nothing of itself behind. -/
theorem failure_atomic_two_lines :
    ∃ m m' halt, Reachable inMemory m ∧ m.session.buffer = "SELECT * " ∧
      (feed inMemory "FROM t;").apply m = (.error halt, m') ∧ m'.session.buffer = "" ∧
      m'.session.bindings = m.session.bindings := by
  obtain ⟨m, hm, hb, hfails⟩ : ∃ m, Reachable inMemory m ∧ m.session.buffer = "SELECT * " ∧
      ((feed inMemory "FROM t;").apply m).1.toOption = none :=
    ⟨((Machine.over { results := [.error (.storage "execute" "down")] }).after inMemory
        (.feed "@a = 1;")).after inMemory (.feed "SELECT *"),
      ((reachable_inMemory _).step _).step _, by decide +kernel, by decide +kernel⟩
  rcases hr : (feed inMemory "FROM t;").apply m with ⟨halt | flow, m'⟩
  · have h := (failure_atomic inMemory).1 hr
    exact ⟨m, m', halt, hm, hb, hr, h.buffer, h.bindings⟩
  · rw [hr] at hfails
    cases hfails

end Session

end TableShell
