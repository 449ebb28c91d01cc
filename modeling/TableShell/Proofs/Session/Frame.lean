import TableShell.Proofs.Session.Line

/-!
# A line and the scripts that wait

The scripts that wait while a line is carried out play no part in it: the line does the same without
them, and they still wait afterwards (`Session.framed_feed`). A line puts at most one script in
front of them, the one of a file that it loads (`Session.scripts_feed`).

A line that fails does not report its failure itself, and no line changes whether the session goes
on after failures (`Session.keeps_calm_feed`).
-/

namespace TableShell

variable {W : Type}

/-- The failure that an event reports. -/
def Event.complaint? : Event → Option String
  | .report (.error text) => some text
  | _ => none

namespace Machine

/-- The machine with these scripts being read. -/
def withScripts (m : Machine W) (scripts : Script.Stack) : Machine W :=
  m.change ({ · with scripts })

/-- The machine with more scripts that wait below those that are being read. -/
def above (m : Machine W) (below : Script.Stack) : Machine W :=
  m.withScripts (m.session.scripts ++ below)

@[simp] theorem withScripts_session (m : Machine W) (scripts : Script.Stack) :
    (m.withScripts scripts).session = { m.session with scripts } := rfl
@[simp] theorem withScripts_trace (m : Machine W) (scripts : Script.Stack) :
    (m.withScripts scripts).trace = m.trace := rfl
@[simp] theorem above_session (m : Machine W) (below : Script.Stack) :
    (m.above below).session = { m.session with scripts := m.session.scripts ++ below } := rfl

/-- No failure has been reported, and whether the session goes on after failures is the same. -/
structure Calm (m m' : Machine W) : Prop where
  complaints : m'.trace.filterMap Event.complaint? = m.trace.filterMap Event.complaint?
  noStop : m'.session.noStop = m.session.noStop

/-- One event that is no complaint keeps a machine calm. -/
theorem Calm.of_trace {m m' : Machine W} {e : Event} (he : e.complaint? = none)
    (ht : m'.trace = m.trace ++ [e]) (hn : m'.session.noStop = m.session.noStop) : m.Calm m' := by
  refine ⟨?_, hn⟩
  rw [ht, List.filterMap_append, List.filterMap_cons_none he]
  exact List.append_nil _

end Machine

namespace Act

variable {α β : Type} {around : Surroundings W}

/-! ## Scripts that wait -/

/-- The action does the same whatever scripts wait below, and leaves them there. -/
def Framed (a : Act W α) : Prop :=
  ∀ (m : Machine W) (below : Script.Stack),
    a.apply (m.above below) = ((a.apply m).1, (a.apply m).2.above below)

/-- A sequence leaves the scripts below alone when both of its parts do. -/
theorem Framed.bind {a : Act W α} {f : α → Act W β} (ha : Framed a) (hf : ∀ x, Framed (f x)) :
    Framed (a >>= f) := by
  intro m below
  rw [apply_bind, apply_bind, ha m below]
  rcases a.apply m with ⟨_ | x, m'⟩
  · rfl
  · exact hf x m' below

/-- Catching a halt leaves the scripts below alone when the action and the handler do. -/
theorem Framed.tryCatch {a : Act W α} {f : Halt → Act W α} (ha : Framed a)
    (hf : ∀ halt, Framed (f halt)) : Framed (tryCatch a f) := by
  intro m below
  rw [apply_tryCatch, apply_tryCatch, ha m below]
  rcases a.apply m with ⟨halt | _, m'⟩
  · exact hf halt m' below
  · rfl

/-- Reading the session leaves the scripts below alone when what is done then does not depend on
them. -/
theorem Framed.reads {f : Session → Act W α} (hs : ∀ s scripts, f { s with scripts } = f s)
    (hf : ∀ s, Framed (f s)) : Framed (session >>= f) := by
  intro m below
  rw [apply_bind_of_ok (apply_session _), apply_bind_of_ok (apply_session m),
    Machine.above_session, hs]
  exact hf _ m below

/-- Emitting an event leaves the scripts below alone. -/
theorem framed_emit (e : Event) : Framed (emit e : Act W Unit) := fun _ _ => rfl

/-- A call leaves the scripts below alone. -/
theorem framed_call (around : Surroundings W) (c : Call) : Framed (call around c) := by
  intro m below
  rw [apply_call, apply_call]
  rfl

/-- Connecting leaves the scripts below alone. -/
theorem framed_connect (around : Surroundings W) : Framed (connect around) := by
  intro m below
  have hlink : (m.above below).link around = m.link around := rfl
  rw [apply_connect, apply_connect, hlink]
  cases m.link around <;> rfl

/-- No step of a line looks at the scripts that wait. -/
theorem feeds_framed (around : Surroundings W) : Feeds around Framed where
  pure _ _ _ := rfl
  throw _ _ _ := rfl
  bind := .bind
  tryCatch := .tryCatch
  reads := .reads
  message _ := framed_emit _
  document _ := framed_emit _
  items _ := framed_emit _
  warning _ := framed_emit _
  clear := framed_emit _
  sleep _ := framed_emit _
  call c _ := framed_call around c
  query _ _ _ := framed_call around _
  connect := framed_connect around
  substitute _ _ _ := rfl
  pageLimit _ _ := rfl
  keep _ _ _ := rfl
  remember _ _ _ := rfl
  assign _ _ _ _ := rfl
  overlay _ _ _ := rfl
  push _ _ _ := rfl
  drop _ _ := rfl
  begin _ _ _ := rfl

/-! ## Failures -/

/-- Calmness composes, so that it can be read off one action at a time. -/
theorem isStepOrder_calm : IsStepOrder (Machine.Calm (W := W)) where
  refl _ := ⟨rfl, rfl⟩
  trans h₁ h₂ := ⟨h₂.complaints.trans h₁.complaints, h₂.noStop.trans h₁.noStop⟩

/-- A call reports no failure. -/
theorem keeps_calm_call (around : Surroundings W) (c : Call) :
    Keeps Machine.Calm (call around c) := by
  intro m
  rw [apply_call]
  exact .of_trace rfl rfl rfl

/-- No step of a line reports a failure or changes what is done after one. -/
theorem feeds_calm (around : Surroundings W) : Feeds around (Keeps Machine.Calm) where
  toComposes := composes_keeps isStepOrder_calm
  tryCatch := .tryCatch isStepOrder_calm
  reads _ hf := .bind isStepOrder_calm isStepOrder_calm.refl hf
  message _ _ := .of_trace rfl rfl rfl
  document _ _ := .of_trace rfl rfl rfl
  items _ _ := .of_trace rfl rfl rfl
  warning _ _ := .of_trace rfl rfl rfl
  clear _ := .of_trace rfl rfl rfl
  sleep _ _ := .of_trace rfl rfl rfl
  call c _ := keeps_calm_call around c
  query _ _ _ := keeps_calm_call around _
  connect m := by
    rw [apply_connect]
    cases m.link around <;> exact .of_trace rfl rfl rfl
  substitute _ _ := ⟨rfl, rfl⟩
  pageLimit _ := ⟨rfl, rfl⟩
  keep _ _ := ⟨rfl, rfl⟩
  remember _ _ := ⟨rfl, rfl⟩
  assign _ _ _ := ⟨rfl, rfl⟩
  overlay _ _ := ⟨rfl, rfl⟩
  push _ _ := ⟨rfl, rfl⟩
  drop _ := ⟨rfl, rfl⟩
  begin _ _ := ⟨rfl, rfl⟩

end Act

namespace Session

open Act

variable {around : Surroundings W} {m m' : Machine W} {line : String} {script : Script}

/-- Feeding a line does the same whatever scripts wait below, and leaves them there. -/
theorem framed_feed (around : Surroundings W) (line : String) : Framed (feed around line) :=
  (feeds_framed around).feed line

/-- Feeding a line reports no failure itself: that is left to the run. -/
theorem keeps_calm_feed (around : Surroundings W) (line : String) :
    Keeps Machine.Calm (feed around line) :=
  (feeds_calm around).feed line

/-! ## Scripts that a line loads -/

/-- The script in the file that a load line names. -/
def named? (around : Surroundings W) (line : String) : Option Script :=
  (Text.words line.toList)[1]?.bind fun path =>
    (Script.load around.file? (String.ofList path)).toOption

/-- The script that a line loads. -/
def loads? (around : Surroundings W) (line : String) : Option Script :=
  if Verb.ofLine? (Text.trim line) = some .load then named? around (Text.trim line) else none

/-- A script that is found is put on top of the others. -/
theorem apply_load_of_some (h : named? around line = some script) (m : Machine W) :
    (load around line).apply m = (.ok (), m.withScripts (script :: m.session.scripts)) := by
  obtain ⟨path, hpath, hscript⟩ := Option.bind_eq_some_iff.1 h
  rw [load, hpath]
  dsimp only
  rw [apply_loadScript, eq_ok_of_toOption hscript]
  rfl

/-- A script that is not found is an error that changes nothing. -/
theorem apply_load_of_none (h : named? around line = none) (m : Machine W) :
    ∃ e, (load around line).apply m = (.error (.failed e), m) := by
  rw [load]
  cases hpath : (Text.words line.toList)[1]? with
  | none => exact ⟨_, rfl⟩
  | some path =>
    rw [named?, hpath, Option.bind_some] at h
    dsimp only
    rw [apply_loadScript]
    cases hs : Script.load around.file? (String.ofList path) with
    | error e => exact ⟨e, rfl⟩
    | ok script =>
      rw [hs] at h
      cases h

/-- A line that loads a script does nothing else. -/
theorem apply_feed_of_loads (h : loads? around line = some script) (m : Machine W) :
    (feed around line).apply m = (.ok .next, m.withScripts (script :: m.session.scripts)) := by
  rw [loads?] at h
  split at h
  · next hv =>
    rw [apply_feed_verb hv, perform, apply_bind_of_ok (apply_load_of_some h m), apply_pure]
  · cases h

/-- Every verb but the loading of a script leaves the scripts as they are. -/
theorem Performed.scripts {verb : Verb} {r : Except Halt Flow}
    (h : Performed around verb line m r m') (hv : verb ≠ .load) :
    m'.session.scripts = m.session.scripts := by
  cases h with
  | kept h => rw [h.session]
  | loaded hload => exact absurd hload hv
  | cleared | refused | connected => rfl

/-- Every line but one that loads a script leaves the scripts as they are. -/
theorem Fed.scripts {r : Except Halt Flow} (h : Fed around line m r m')
    (hv : Verb.ofLine? (Text.trim line) ≠ some .load) :
    m'.session.scripts = m.session.scripts := by
  have hne {verb : Verb} (hverb : Verb.ofLine? (Text.trim line) = some verb) : verb ≠ .load := by
    rintro rfl
    exact hv hverb
  cases h with
  | comment | part => rfl
  | verb hverb hp => exact hp.scripts (hne hverb)
  | failed hverb hp => exact hp.scripts (hne hverb)
  | completed _ he =>
    rw [he.session_eq]
    rfl

/-- A line that loads no script leaves the scripts as they are, and so does one that fails. -/
theorem scripts_feed_of_none (h : loads? around line = none) (m : Machine W) :
    ((feed around line).apply m).2.session.scripts = m.session.scripts := by
  by_cases hv : Verb.ofLine? (Text.trim line) = some .load
  · rw [loads?, if_pos hv] at h
    obtain ⟨e, he⟩ := apply_load_of_none h m
    rw [apply_feed_verb hv, perform, apply_bind_of_error he]
    rfl
  · exact (fed around line m).scripts hv

end Session

end TableShell
