import TableShell.Proofs.Session.Steps

/-!
# What a command does

`Session.executed` says once what carrying out a command can do to a machine: it leaves the session
as it was and fails, it adds the command to the history (and sets a variable, if it is an
assignment), or it is a query. `Session.queried` says the same of a query: it is refused before the
service is asked, the service fails, or the service gives a page. The other modules open a command
by cases on these two and never by its text.
-/

namespace TableShell

/-- What is shown of a page. -/
def ResultPage.events (page : ResultPage) : List Event :=
  .report (.items page.items) ::
    ((page.lastKey.map fun key => .report (.document (Item.toJson key))).toList ++
      (page.nextToken.map fun token => .report (.message ("NextToken: " ++ token))).toList)

/-- Of the events that show a page, none is a query or a connection. -/
theorem ResultPage.isQuery_of_mem_events {page : ResultPage} {e : Event} (h : e ∈ page.events) :
    e.isQuery = false ∧ e.isConnect = false := by
  rcases List.mem_cons.1 h with rfl | h
  · exact ⟨rfl, rfl⟩
  · rcases List.mem_append.1 h with h | h
    · obtain ⟨key, -, rfl⟩ := by simpa using h
      exact ⟨rfl, rfl⟩
    · obtain ⟨token, -, rfl⟩ := by simpa using h
      exact ⟨rfl, rfl⟩

namespace Machine

variable {W : Type}

/-- The machine that remembers a command. -/
def recorded (m : Machine W) (command : String) : Machine W :=
  m.change fun s => { s with history := s.history.push command }

/-- The machine without the token of the last query. -/
def forgetful (m : Machine W) : Machine W := m.change ({ · with nextToken := none })

/-- The machine that has shown a page and keeps its token. -/
def shown (m : Machine W) (page : ResultPage) : Machine W :=
  { m with
    session := { m.session with nextToken := page.nextToken.or m.session.nextToken }
    trace := m.trace ++ page.events }

@[simp] theorem recorded_session (m : Machine W) (command : String) :
    (m.recorded command).session =
      { m.session with history := m.session.history.push command } := rfl
@[simp] theorem recorded_trace (m : Machine W) (command : String) :
    (m.recorded command).trace = m.trace := rfl
@[simp] theorem recorded_world (m : Machine W) (command : String) :
    (m.recorded command).world = m.world := rfl
@[simp] theorem forgetful_session (m : Machine W) :
    m.forgetful.session = { m.session with nextToken := none } := rfl
@[simp] theorem forgetful_trace (m : Machine W) : m.forgetful.trace = m.trace := rfl
@[simp] theorem forgetful_world (m : Machine W) : m.forgetful.world = m.world := rfl
@[simp] theorem shown_session (m : Machine W) (page : ResultPage) :
    (m.shown page).session =
      { m.session with nextToken := page.nextToken.or m.session.nextToken } := rfl
@[simp] theorem shown_trace (m : Machine W) (page : ResultPage) :
    (m.shown page).trace = m.trace ++ page.events := rfl
@[simp] theorem shown_world (m : Machine W) (page : ResultPage) :
    (m.shown page).world = m.world := rfl

/-- A command remembered before and after an action that leaves the session alone. -/
theorem Adds.recorded {m m' : Machine W} (h : m.Adds m') (command : String) :
    (m.recorded command).Adds (m'.recorded command) :=
  ⟨by simp [h.session], h.trace⟩

/-- The machine that has made the call of a query. -/
def sent (m : Machine W) (around : Surroundings W) (command : String) (q : Query)
    (token : Option String) : Machine W :=
  (m.forgetful.expanded around command).called around
    (.execute q.statement q.effectiveLimit token)

@[simp] theorem sent_session (m : Machine W) (around : Surroundings W) (command : String)
    (q : Query) (token : Option String) :
    (m.sent around command q token).session = { m.session with nextToken := none } := rfl
@[simp] theorem sent_trace (m : Machine W) (around : Surroundings W) (command : String)
    (q : Query) (token : Option String) :
    (m.sent around command q token).trace =
      m.trace ++ [.call m.session.client (.execute q.statement q.effectiveLimit token)
        ((m.forgetful.expanded around command).answer around
          (.execute q.statement q.effectiveLimit token))] := rfl

end Machine

namespace Session

open Act

variable {W : Type} {around : Surroundings W} {m : Machine W} {command : String}

/-! ## Queries -/

/-- Remembering a command pushes it into the history and does nothing else. -/
theorem apply_remember (command : String) (m : Machine W) :
    (remember command).apply m = (.ok (), m.recorded command) := rfl

/-- Showing a page keeps its token if it has one, and prints its items and its remarks. -/
theorem apply_reportPage (page : ResultPage) (m : Machine W) :
    (reportPage page).apply m = (.ok (), m.shown page) := by
  rcases page with ⟨items, nextToken, lastKey⟩
  cases nextToken <;> cases lastKey <;>
    simp [reportPage, apply_bind, Machine.shown, ResultPage.events, Machine.emit, Machine.change]

/-- What a query does from a token on. -/
inductive Queried (around : Surroundings W) (command : String) (token : Option String)
    (m : Machine W) : Except Halt Unit → Machine W → Prop
  /-- There is nothing to carry out. -/
  | blank : Text.trim command = "" →
      Queried around command token m (.error (.failed (.unsupported ""))) m.forgetful
  /-- The text is no query. -/
  | unread {e} : Text.trim command ≠ "" →
      Query.ofSource (m.expansion around command) = .error e →
      Queried around command token m (.error (.failed e)) (m.forgetful.expanded around command)
  /-- The service fails. -/
  | failed {q e} : Text.trim command ≠ "" →
      Query.ofSource (m.expansion around command) = .ok q →
      (m.forgetful.expanded around command).answer around
        (.execute q.statement q.effectiveLimit token) = .error e →
      Queried around command token m (.error (.failed e)) (m.sent around command q token)
  /-- The service gives a page. -/
  | paged {q page} : Text.trim command ≠ "" →
      Query.ofSource (m.expansion around command) = .ok q →
      (m.forgetful.expanded around command).answer around
        (.execute q.statement q.effectiveLimit token) = .ok page →
      Queried around command token m (.ok ())
        (((m.sent around command q token).shown page).recorded command)

/-- Every run of a query is one of the cases of `Queried`. -/
theorem queried (around : Surroundings W) (command : String) (token : Option String)
    (m : Machine W) :
    Queried around command token m ((query around command token).apply m).1
      ((query around command token).apply m).2 := by
  have hexp : m.forgetful.expansion around command = m.expansion around command := rfl
  rw [query, apply_bind_of_ok (apply_change _ m)]
  change Queried around command token m (Act.apply _ m.forgetful).1 (Act.apply _ m.forgetful).2
  by_cases hb : Text.trim command = ""
  · rw [if_pos hb, apply_bind_of_error (apply_fail _ _)]
    exact .blank hb
  · rw [if_neg hb]
    dsimp only
    rw [apply_bind_of_ok (apply_substitute _ _ _), hexp]
    cases hq : Query.ofSource (m.expansion around command) with
    | error e =>
      rw [apply_bind_of_error (apply_ofExcept _ _)]
      exact .unread hb hq
    | ok q =>
      rw [apply_bind_of_ok (apply_ofExcept _ _)]
      cases hp : (m.forgetful.expanded around command).answer around
          (.execute q.statement q.effectiveLimit token) with
      | error e =>
        rw [apply_bind_of_error ((apply_call _ _ _).trans (by rw [hp]; rfl))]
        exact .failed hb hq hp
      | ok page =>
        rw [apply_bind_of_ok ((apply_call _ _ _).trans (by rw [hp]; rfl)),
          apply_bind_of_ok (apply_reportPage _ _), apply_remember]
        exact .paged hb hq hp

/-- A query forgets the token of the last one by itself. -/
theorem apply_query_forgetful (around : Surroundings W) (command : String)
    (token : Option String) (m : Machine W) :
    (query around command token).apply m.forgetful = (query around command token).apply m := by
  rw [query, apply_bind_of_ok (apply_change _ m.forgetful), apply_bind_of_ok (apply_change _ m)]
  rfl

/-- The latest command is carried out again as a query from the token of the last one. -/
theorem apply_again (around : Surroundings W) (m : Machine W) :
    (again around).apply m = match m.session.history.latest? with
      | none => (.error (.failed .noHistory), m)
      | some latest => (query around latest m.session.nextToken).apply m := by
  rw [again, apply_bind_of_ok (apply_session m)]
  cases m.session.history.latest? with
  | none => exact apply_fail _ _
  | some latest =>
    exact (apply_bind_of_ok (apply_change _ m)).trans (apply_query_forgetful around latest _ m)

/-! ## Commands that are remembered only -/

/-- The action adds the command to the history if it succeeds; otherwise it leaves the session as it
is. Either way it makes no query and no connection. -/
structure Records (command : String) (a : Act W Unit) : Prop where
  of_ok : ∀ {m m'}, a.apply m = (.ok (), m') → (m.recorded command).Adds m'
  of_error : ∀ {m halt m'}, a.apply m = (.error halt, m') → m.Adds m'

/-- Remembering a command is an action that adds it to the history. -/
theorem records_remember (command : String) : Records (W := W) command (remember command) where
  of_ok h := by cases h; exact isStepOrder_adds.refl _
  of_error h := by cases h

/-- What is done before and leaves the session alone does not matter. -/
theorem Records.bind {α : Type} {a : Act W α} {f : α → Act W Unit}
    (ha : Keeps Machine.Adds a) (hf : ∀ x, Records command (f x)) :
    Records command (a >>= f) := by
  constructor <;> intro m
  · intro m' h
    rw [apply_bind] at h
    rcases hr : a.apply m with ⟨_ | x, m₁⟩ <;> rw [hr] at h
    · cases h
    · have h₁ : m.Adds m₁ := by simpa [hr] using ha m
      exact isStepOrder_adds.trans (h₁.recorded command) ((hf x).of_ok h)
  · intro halt m' h
    rw [apply_bind] at h
    rcases hr : a.apply m with ⟨_ | x, m₁⟩ <;> rw [hr] at h <;>
      have h₁ : m.Adds m₁ := by simpa [hr] using ha m
    · cases h; exact h₁
    · exact isStepOrder_adds.trans h₁ ((hf x).of_error h)

/-- A command that starts by reading its text and then does something that records it. -/
theorem Records.read {α : Type} (around : Surroundings W) (read : String → Except Error α)
    {f : α → Act W Unit} (hf : ∀ x, Records command (f x)) :
    Records command (do let x ← Act.ofExcept (read (← substitute around command)); f x) :=
  .bind (keeps_adds_substitute around command) fun _ =>
    .bind (Keeps.ofExcept isStepOrder_adds _) hf

/-- The service makes no query and no connection in what is done to tables. -/
theorem handles_adds (around : Surroundings W) : Handles around (Keeps Machine.Adds) where
  toComposes := composes_keeps isStepOrder_adds
  message _ := keeps_adds_report rfl
  document _ := keeps_adds_report rfl
  call _ hc := keeps_adds_call around hc
  pageLimit := isStepOrder_adds.refl

/-- Commands that are neither assignments nor queries are remembered if they succeed, and change
nothing else of the session. -/
theorem records_execute (around : Surroundings W)
    (hk : CommandKind.ofCommand command ∉ [.assignment, .again, .query]) :
    Records command (execute around command) := by
  obtain ⟨_, read, act, hact, hform⟩ := exists_carryOut_handled around hk
  rw [hform command rfl]
  exact .read around read fun x => .bind (hact x (handles_adds around)) fun _ =>
    records_remember command

/-! ## Assignments -/

/-- The machine whose variable has the value that an assignment gives. -/
def assigned (m : Machine W) (a : Command.Assignment) : Machine W :=
  m.change fun s => { s with bindings := s.bindings.insert a.name a.value }

/-- An assignment is read from the expanded command and sets one variable. -/
theorem apply_assign (around : Surroundings W) (command : String) (m : Machine W) :
    (assign around command).apply m =
      match Command.readAssignment (m.expansion around command) with
      | .error e => (.error (.failed e), m.expanded around command)
      | .ok a => (.ok (), (assigned (m.expanded around command) a).recorded command) := by
  rw [assign, apply_bind_of_ok (apply_substitute around command m)]
  cases h : Command.readAssignment (m.expansion around command) with
  | error e => exact apply_bind_of_error (apply_ofExcept _ _)
  | ok a => exact apply_bind_of_ok (apply_ofExcept _ _)

/-! ## Any command -/

/-- What a command does. -/
inductive Executed (around : Surroundings W) (command : String) (m : Machine W) :
    Except Halt Unit → Machine W → Prop
  /-- It fails before it makes a query or changes anything in the session. -/
  | kept {halt m'} : m.Adds m' → Executed around command m (.error halt) m'
  /-- It is carried out and remembered. -/
  | recorded {m'} : CommandKind.ofCommand command ∉ [.assignment, .again, .query] →
      (m.recorded command).Adds m' → Executed around command m (.ok ()) m'
  /-- It sets a variable. -/
  | assigned {a} : CommandKind.ofCommand command = .assignment →
      Command.readAssignment (m.expansion around command) = .ok a →
      Executed around command m (.ok ())
        ((assigned (m.expanded around command) a).recorded command)
  /-- It is a query of its own. -/
  | queried {r m'} : CommandKind.ofCommand command = .query →
      Queried around command none m r m' → Executed around command m r m'
  /-- It is the latest command again. -/
  | again {latest r m'} : CommandKind.ofCommand command = .again →
      m.session.history.latest? = some latest →
      Queried around latest m.session.nextToken m r m' → Executed around command m r m'

/-- An action that records a command does what one of the commands does that is only remembered. -/
theorem Records.executed {a : Act W Unit} (ha : Records command a)
    (hk : CommandKind.ofCommand command ∉ [.assignment, .again, .query]) (m : Machine W) :
    Executed around command m (a.apply m).1 (a.apply m).2 := by
  rcases h : a.apply m with ⟨_ | ⟨⟩, m'⟩
  · exact .kept (ha.of_error h)
  · exact .recorded hk (ha.of_ok h)

/-- Whatever a command does is one of the five. -/
theorem executed (around : Surroundings W) (command : String) (m : Machine W) :
    Executed around command m ((execute around command).apply m).1
      ((execute around command).apply m).2 := by
  cases hk : CommandKind.ofCommand command with
  | describe | createTable | dropTable | showTables | truncateTable =>
    have hkinds : CommandKind.ofCommand command ∉ [.assignment, .again, .query] := by simp [hk]
    exact (records_execute around hkinds).executed hkinds m
  | query =>
    rw [execute, hk]
    exact .queried hk (queried around command none m)
  | assignment =>
    rw [execute, hk]
    dsimp only
    rw [apply_assign]
    cases ha : Command.readAssignment (m.expansion around command) with
    | error e => exact .kept ⟨rfl, [], by simp⟩
    | ok a => exact .assigned hk ha
  | again =>
    rw [execute, hk]
    dsimp only
    rw [apply_again]
    cases hl : m.session.history.latest? with
    | none => exact .kept (isStepOrder_adds.refl m)
    | some latest => exact .again hk hl (queried around latest _ m)

/-- A command changes nothing in the session but the variables, the history and the token. -/
theorem Executed.session_eq {m' : Machine W} {r : Except Halt Unit}
    (h : Executed around command m r m') :
    m'.session =
      { m.session with
        bindings := m'.session.bindings
        history := m'.session.history
        nextToken := m'.session.nextToken } := by
  cases h with
  | kept h => rw [h.session]
  | recorded _ h => rw [h.session, Machine.recorded_session]
  | assigned => rfl
  | queried _ h | again _ _ h => cases h <;> rfl

/-- The command `run;` carries out the latest command again. -/
theorem apply_execute_run {latest : String} (hl : m.session.history.latest? = some latest) :
    (execute around "run;").apply m = (query around latest m.session.nextToken).apply m := by
  have hk : CommandKind.ofCommand "run;" = .again := by decide
  rw [execute, hk]
  dsimp only
  rw [apply_again, hl]

end Session

end TableShell
