import TableShell.Proofs.Act

/-!
# The steps that commands and lines are made of

Every command but `run;` and a blank one is carried out in one way: its expansion is read, something
is done with what was read, and the command is remembered as it was typed (`Session.carryOut`,
`Session.exists_carryOut`).

What is done in between is put together from few steps. `Act.Handles` says that a property of
actions holds of these steps and is closed under sequences, and `Act.Carries` adds the steps of
queries and those that change the session. Such a property holds of a command if it holds of reading
the command (`Act.Carries.execute`). With the steps of the verbs (`Act.Feeds`) it holds of every
line (`Act.Feeds.feed`). So the commands and the lines are followed through once, here, whatever is
to be proved of them.
-/

namespace TableShell

variable {W : Type} {around : Surroundings W}

namespace Act

variable {P : ∀ {α : Type}, Act W α → Prop} {α β : Type}

/-- A property of actions that is closed under sequences. -/
structure Composes (P : ∀ {α : Type}, Act W α → Prop) : Prop where
  pure {α : Type} (x : α) : P (Pure.pure x)
  throw {α : Type} (halt : Halt) : P (throw halt : Act W α)
  bind {α β : Type} {a : Act W α} {f : α → Act W β} : P a → (∀ x, P (f x)) → P (a >>= f)

/-- A property that also holds of what the commands do to tables, and of what they show of them. -/
structure Handles (around : Surroundings W) (P : ∀ {α : Type}, Act W α → Prop) : Prop
    extends Composes P where
  message (text : String) : P (report (.message text))
  document (value : Json) : P (report (.document value))
  call (c : Call) : (∀ statement limit token, c ≠ .execute statement limit token) →
    P (call around c)
  pageLimit : P (Session.pageLimit around)

/-- A property that also holds of what queries do, and of what the commands do to the session. -/
structure Carries (around : Surroundings W) (P : ∀ {α : Type}, Act W α → Prop) : Prop
    extends Handles around P where
  items (items : List Item) : P (report (.items items))
  query (statement : String) (limit : Option Int) (token : Option String) :
    P (Act.call around (.execute statement limit token))
  keep (token : Option String) : P (change ({ · with nextToken := token }))
  remember (command : String) : P (Session.remember command)
  assign (name value : String) :
    P (change fun s => { s with bindings := s.bindings.insert name value })

namespace Composes

/-- A property of halting holds of failing. -/
theorem fail (h : Composes P) (e : Error) : P (fail e : Act W α) := h.throw _

/-- A property that composes holds of a computation outside the machine. -/
theorem ofExcept (h : Composes P) : ∀ x : Except Error α, P (ofExcept x : Act W α)
  | .ok x => h.pure x
  | .error e => h.fail e

/-- An action that is refused under a condition. -/
theorem refuse (h : Composes P) {c : Prop} [Decidable c] {e : Error} {a : Act W α} (ha : P a) :
    P (if c then (do let _ : Unit ← Act.fail e; a) else a) := by
  split
  · exact h.bind (h.fail e) fun _ => ha
  · exact ha

/-- A property that composes holds of an action done for each element of a list. -/
theorem forM (h : Composes P) {f : α → Act W Unit} (hf : ∀ x, P (f x)) :
    ∀ xs : List α, P (xs.forM f)
  | [] => h.pure ()
  | x :: xs => h.bind (hf x) fun _ => h.forM hf xs

end Composes

/-- What an action keeps is kept by sequences. -/
theorem composes_keeps {R : Machine W → Machine W → Prop} (hR : IsStepOrder R) :
    Composes (Keeps R) where
  pure := .pure hR
  throw := .throw hR
  bind := .bind hR

/-! ## Page by page -/

namespace Handles

/-- A property of what commands show holds of showing a description. -/
theorem reportDescription (h : Handles around P) (d : TableDescription) :
    P (Session.reportDescription d : Act W Unit) := h.document _

/-- A property of what commands do holds of listing the tables, by induction on the pages. -/
theorem reportNames (h : Handles around P) :
    ∀ pages after, P (Session.reportNames around pages after)
  | 0, _ => h.throw _
  | pages + 1, after => by
    refine h.bind (h.call _ nofun) fun page => ?_
    refine h.bind (h.forM (fun _ => h.message _) _) fun _ => ?_
    cases page.next with
    | none => exact h.pure ()
    | some next => exact h.reportNames pages (some next)

/-- A property of what commands do holds of deleting items, one after the other. -/
theorem deleteItems (h : Handles around P) (table : String) (schema : List KeyElement) :
    ∀ items, P (Session.deleteItems around table schema items)
  | [] => h.pure ()
  | _ :: items => h.bind (h.ofExcept _) fun _ => h.bind (h.call _ nofun) fun _ =>
      h.deleteItems table schema items

/-- A property of what commands do holds of emptying a table, by induction on the pages. -/
theorem deletePages (h : Handles around P) (table : String) (schema : List KeyElement) :
    ∀ pages deleted, P (Session.deletePages around table schema pages deleted)
  | 0, _ => h.throw _
  | pages + 1, deleted => by
    refine h.bind (h.call _ nofun) fun page => ?_
    split
    · exact h.pure deleted
    · refine h.bind (h.deleteItems table schema page.items) fun _ => ?_
      refine h.bind (h.message _) fun _ => ?_
      split
      · exact h.pure _
      · exact h.deletePages table schema pages _

end Handles

/-- The action is made of these steps, so what holds of them and is closed under sequences holds of
it. -/
def Handled {α : Type} (around : Surroundings W) (a : Act W α) : Prop :=
  ∀ {P : ∀ {α : Type}, Act W α → Prop}, Handles around P → P a

end Act

namespace Session

open Act

variable {α : Type} {command : String}

/-! ## The common form of commands -/

/-- Reads the expansion of a command, does something with what was read, and remembers the
command. -/
def carryOut (around : Surroundings W) (read : String → Except Error α) (act : α → Act W Unit)
    (command : String) : Act W Unit := do
  act (← ofExcept (read (← substitute around command)))
  remember command

/-- An assignment is read and then sets one variable. -/
theorem execute_of_assignment (hk : CommandKind.ofCommand command = .assignment) :
    execute around command = carryOut around Command.readAssignment
      (fun a => change fun s => { s with bindings := s.bindings.insert a.name a.value })
      command := by
  simp [execute, hk, assign, carryOut]

/-- The bound on the pages is that of the service and one more. -/
theorem apply_pageLimit (around : Surroundings W) (m : Machine W) :
    (pageLimit around).apply m = (.ok (around.service.pageBound m.world + 1), m) := rfl

/-- Shows the names of all tables. -/
def listAll (around : Surroundings W) : Act W Unit := do
  reportNames around (← pageLimit around) none

/-- The listing of tables is read and then done. -/
theorem execute_of_showTables (hk : CommandKind.ofCommand command = .showTables) :
    execute around command =
      carryOut around Command.readShowTables (fun _ => listAll around) command := by
  simp [execute, hk, showTables, carryOut, listAll]

/-- Deletes all items of a table, the name of which has been read. -/
def emptyTable (around : Surroundings W) (table : String) : Act W Unit := do
  let description ← call around (.describe table)
  let deleted ← deletePages around table description.keySchema (← pageLimit around) 0
  report (.message ("deleted " ++ toString deleted ++ " items"))

/-- The emptying of a table is read and then done. -/
theorem execute_of_truncateTable (hk : CommandKind.ofCommand command = .truncateTable) :
    execute around command =
      carryOut around Command.readTruncateTable (emptyTable around) command := by
  simp [execute, hk, truncateTable, carryOut, emptyTable]

/-- The commands of a kind that only works on tables have the form, with the same reader and the
same action for all of them. -/
theorem exists_carryOut_handled (around : Surroundings W) {kind : CommandKind}
    (hk : kind ∉ [.assignment, .again, .query]) :
    ∃ (α : Type) (read : String → Except Error α) (act : α → Act W Unit),
      (∀ x, Handled around (act x)) ∧ ∀ command, CommandKind.ofCommand command = kind →
        execute around command = carryOut around read act command := by
  cases kind with
  | describe =>
    refine ⟨_, Command.readDescribe,
      fun table => do reportDescription (← call around (.describe table)),
      fun _ _ h => h.bind (h.call _ nofun) h.reportDescription, fun command hc => ?_⟩
    simp [execute, hc, describe, carryOut]
  | createTable =>
    refine ⟨_, Command.readCreateTable,
      fun d => do reportDescription (← call around (.createTable d)),
      fun _ _ h => h.bind (h.call _ nofun) h.reportDescription, fun command hc => ?_⟩
    simp [execute, hc, createTable, carryOut]
  | dropTable =>
    refine ⟨_, Command.readDropTable, fun drop => do
      let description ← call around (.deleteTable drop.table drop.ifExists)
      description.elim (pure ()) reportDescription, fun _ _ h => ?_, fun command hc => ?_⟩
    · refine h.bind (h.call _ nofun) fun description => ?_
      cases description with
      | none => exact h.pure ()
      | some d => exact h.reportDescription d
    · simp only [execute, hc, dropTable, carryOut, bind_assoc]
      -- the description is the only thing that the two forms nest differently
      refine bind_congr fun text => bind_congr fun drop => bind_congr fun description => ?_
      cases description <;> rfl
  | showTables =>
    exact ⟨_, Command.readShowTables, fun _ => listAll around,
      fun _ _ h => h.bind h.pageLimit fun pages => h.reportNames pages none,
      fun command => execute_of_showTables⟩
  | truncateTable =>
    refine ⟨_, Command.readTruncateTable, emptyTable around, fun _ _ h => ?_,
      fun command => execute_of_truncateTable⟩
    refine h.bind (h.call _ nofun) fun description => h.bind h.pageLimit fun pages => ?_
    exact h.bind (h.deletePages _ _ pages 0) fun _ => h.message _
  | assignment | again | query => exact absurd (by simp) hk

/-- All the commands of a kind have the form. -/
theorem exists_carryOut (around : Surroundings W) {kind : CommandKind}
    (hk : kind ∉ [.again, .query]) :
    ∃ (α : Type) (read : String → Except Error α) (act : α → Act W Unit), ∀ command,
      CommandKind.ofCommand command = kind →
        execute around command = carryOut around read act command := by
  by_cases ha : kind = .assignment
  · subst ha
    exact ⟨_, _, _, fun command => execute_of_assignment⟩
  · obtain ⟨α, read, act, -, hform⟩ :=
      exists_carryOut_handled around (List.not_mem_cons_of_ne_of_not_mem ha hk)
    exact ⟨α, read, act, hform⟩

end Session

/-! ## Any command -/

namespace Act.Carries

open Session

variable {P : ∀ {α : Type}, Act W α → Prop} {α : Type} {command : String}

/-- A property of what queries do holds of showing a page. -/
theorem reportPage (h : Carries around P) (page : ResultPage) :
    P (Session.reportPage page : Act W Unit) := by
  refine h.bind (h.items _) fun _ => ?_
  cases page.nextToken with
  | none =>
    cases page.lastKey with
    | none => exact h.pure ()
    | some key => exact h.bind (h.document _) fun _ => h.pure ()
  | some token =>
    have htoken := h.bind (h.message ("NextToken: " ++ token)) fun _ => h.keep (some token)
    cases page.lastKey with
    | none => exact htoken
    | some key => exact h.bind (h.document _) fun _ => htoken

/-- A property holds of a command that is expanded, read and handled, if it holds of the
substitution and of the handling. -/
theorem carryOut (h : Carries around P) (hs : P (substitute around command))
    (read : String → Except Error α) {act : α → Act W Unit} (hact : ∀ x, P (act x)) :
    P (Session.carryOut around read act command) :=
  h.bind hs fun _ => h.bind (h.ofExcept _) fun x => h.bind (hact x) fun _ => h.remember command

/-- What holds of the steps and of reading a query holds of the query. -/
theorem query_of_substitute (h : Carries around P) (hs : P (substitute around command))
    (token : Option String) : P (Session.query around command token) := by
  refine h.bind (h.keep none) fun _ => h.refuse ?_
  refine h.bind hs fun _ => h.bind (h.ofExcept _) fun q => h.bind (h.query _ _ _) fun page => ?_
  exact h.bind (h.reportPage page) fun _ => h.remember command

/-- What holds of the steps and of reading a command holds of the command, unless it is the latest
one again. -/
theorem execute (h : Carries around P) (hs : P (substitute around command))
    (hk : CommandKind.ofCommand command ≠ .again) : P (Session.execute around command) := by
  by_cases hquery : CommandKind.ofCommand command = .query
  · rw [Session.execute, hquery]
    exact h.query_of_substitute hs none
  · by_cases hassign : CommandKind.ofCommand command = .assignment
    · rw [execute_of_assignment hassign]
      exact h.carryOut hs _ fun a => h.assign a.name a.value
    · have hkinds : CommandKind.ofCommand command ∉ [.assignment, .again, .query] := by
        simp [hassign, hk, hquery]
      obtain ⟨_, read, act, hact, hform⟩ := exists_carryOut_handled around hkinds
      rw [hform command rfl]
      exact h.carryOut hs read fun x => hact x h.toHandles

end Act.Carries

/-! ## Any line -/

namespace Act

open Session

/-- A property that also holds of what the verbs do and of what is done with the parts of a command.
An action may read the session if what it does then does not depend on the scripts. -/
structure Feeds (around : Surroundings W) (P : ∀ {α : Type}, Act W α → Prop) : Prop
    extends Carries around P where
  tryCatch {α : Type} {a : Act W α} {f : Halt → Act W α} :
    P a → (∀ halt, P (f halt)) → P (tryCatch a f)
  reads {α : Type} {f : Session → Act W α} : (∀ s scripts, f { s with scripts } = f s) →
    (∀ s, P (f s)) → P (session >>= f)
  substitute (text : String) : P (Act.substitute around text)
  warning (text : String) : P (report (.warning text))
  clear : P (report .clear)
  sleep (milliseconds : Nat) : P (emit (.sleep milliseconds))
  connect : P (Act.connect around)
  overlay (changes : Connection) : P (change fun s =>
    { s with connection := s.connection.overlay changes, buffer := "", nextToken := none })
  push (script : Script) : P (change fun s => { s with scripts := script :: s.scripts })
  drop : P (dropBuffer : Act W Unit)
  begin (line : String) : P (change fun s => { s with buffer := s.buffer ++ line ++ " " })

namespace Feeds

variable {P : ∀ {α : Type}, Act W α → Prop}

/-- A property of what is done with commands holds of going on with the last query. -/
theorem again (h : Feeds around P) : P (Session.again around) := by
  refine h.reads (fun _ _ => rfl) fun s => ?_
  cases s.history.latest? with
  | none => exact h.fail _
  | some latest =>
    exact h.bind (h.keep none) fun _ => h.query_of_substitute (h.substitute latest) s.nextToken

/-- A property of what is done with commands holds of executing every command. -/
theorem execute (h : Feeds around P) (command : String) : P (Session.execute around command) := by
  by_cases hk : CommandKind.ofCommand command = .again
  · rw [Session.execute, hk]
    exact h.again
  · exact h.toCarries.execute (h.substitute command) hk

/-- A property of what verbs do holds of waiting. -/
theorem sleepLine (h : Feeds around P) (line : String) : P (Session.sleep line : Act W Unit) := by
  unfold Session.sleep
  dsimp only
  refine h.refuse ?_
  cases Number.readNat64 ((tokensOf line)[1]?.getD "").toList with
  | none => exact h.fail _
  | some milliseconds =>
    dsimp only
    split
    · exact h.bind (h.warning _) fun _ => h.sleep milliseconds
    · exact h.sleep milliseconds

/-- A property of what verbs do holds of showing the variables or the history. -/
theorem inspect (h : Feeds around P) (line : String) : P (Session.inspect line : Act W Unit) := by
  refine h.reads (fun _ _ => rfl) fun s => ?_
  cases Inspection.ofLine? line with
  | none => exact h.warning _
  | some inspection =>
    cases inspection with
    | history | values => exact h.forM (fun _ => h.message _) _
    | pending | help => exact h.message _

/-- A property of what verbs do holds of reconnecting. -/
theorem connectLine (h : Feeds around P) (line : String) : P (Session.connect around line) := by
  refine h.bind (h.ofExcept _) fun changes => ?_
  split
  · exact h.bind (h.overlay changes) fun _ => h.connect
  · exact h.pure ()

/-- A property of what verbs do holds of loading a script. -/
theorem load (h : Feeds around P) (line : String) : P (Session.load around line) := by
  unfold Session.load
  cases (Text.words line.toList)[1]? with
  | none => exact h.fail _
  | some path => exact h.bind (h.ofExcept _) fun script => h.push script

/-- A property of what verbs do holds of every verb. -/
theorem perform (h : Feeds around P) (verb : Verb) (line : String) :
    P (Session.perform around verb line) := by
  cases verb with
  | sleep => exact h.bind (h.sleepLine line) fun _ => h.pure _
  | clear => exact h.bind h.clear fun _ => h.bind h.drop fun _ => h.pure _
  | exit => exact h.pure _
  | inspect => exact h.bind (h.inspect line) fun _ => h.pure _
  | connect => exact h.bind (h.connectLine line) fun _ => h.pure _
  | load => exact h.bind (h.load line) fun _ => h.pure _
  | echo =>
    exact h.bind (h.bind (h.substitute _) fun _ => h.message _) fun _ => h.pure _

/-- What holds of the steps holds of every line. -/
theorem feed (h : Feeds around P) (line : String) : P (Session.feed around line) := by
  unfold Session.feed
  dsimp only
  split
  · exact h.pure _
  · cases Verb.ofLine? (Text.trim line) with
    | some verb =>
      exact h.tryCatch (h.perform verb _) fun halt => h.bind h.drop fun _ => h.throw halt
    | none =>
      refine h.bind (h.begin _) fun _ => ?_
      split
      · refine h.reads (fun _ _ => rfl) fun s => h.bind h.drop fun _ => ?_
        exact h.bind (h.execute _) fun _ => h.pure _
      · exact h.pure _

end Feeds

end Act

end TableShell
