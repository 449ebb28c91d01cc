import TableShell.Proofs.Session.Batch

/-!
# Sessions with a user

A run with a user takes its lines from two places. What comes after what is settled by the lines and
the reads alone: `Dialogue` gives the turns of a run in order, and in it the session asks for a line
only when no line of a script is left. `Taken` is what turns do to a machine one after the other: a
prompt is shown, what has been begun is given up, a line is fed and its failure is reported.

A run is the one followed by the other (`Session.run_with_user`). The scripts that wait play no part
in a turn, so the turns can be taken by a machine that never reads the scripts which it loads
(`Session.Taken.congr`).
-/

namespace TableShell

/-- One thing that happens in a session with a user. -/
inductive Turn where
  /-- The session asks for a line. -/
  | ask
  /-- The user gives up the command that has been begun. -/
  | interrupt
  /-- A line is carried out, of a script or of the user. -/
  | line (text : String)

namespace Machine

variable {W : Type} {m n : Machine W}

/-- The machines differ at most in the scripts that wait. -/
def SameButScripts (m n : Machine W) : Prop := m.withScripts [] = n.withScripts []

/-- An event keeps machines the same but for their scripts. -/
theorem SameButScripts.emit (h : m.SameButScripts n) (e : Event) :
    (m.emit e).SameButScripts (n.emit e) := by
  have hemit := congrArg (fun k : Machine W => k.emit e) h
  exact hemit

/-- The same buffer keeps machines the same but for their scripts. -/
theorem SameButScripts.withBuffer (h : m.SameButScripts n) (buffer : String) :
    (m.withBuffer buffer).SameButScripts (n.withBuffer buffer) := by
  have hbuffer := congrArg (fun k : Machine W => k.withBuffer buffer) h
  exact hbuffer

/-- The prompt does not depend on the scripts. -/
theorem SameButScripts.prompt (h : m.SameButScripts n) : m.session.prompt = n.session.prompt := by
  have hprompt := congrArg (fun k : Machine W => k.session.prompt) h
  exact hprompt

end Machine

/-- Machines that differ in the scripts that wait do the same. -/
theorem Act.Framed.sameButScripts {W α : Type} {a : Act W α} (ha : Framed a) {m n m' : Machine W}
    {r : Except Halt α} (h : m.SameButScripts n) (hm : a.apply m = (r, m')) :
    ∃ n', a.apply n = (r, n') ∧ m'.SameButScripts n' := by
  have hbare (k : Machine W) : a.apply k = ((a.apply (k.withScripts [])).1,
      (a.apply (k.withScripts [])).2.above k.session.scripts) :=
    ha (k.withScripts []) k.session.scripts
  rw [hbare m, h] at hm
  cases hm
  exact ⟨_, hbare n, rfl⟩

namespace Session

open Act Machine

variable {W : Type} {around : Surroundings W}

/-- The line ends the session. -/
def Exits (line : String) : Prop := Verb.ofLine? (Text.trim line) = some .exit

instance (line : String) : Decidable (Exits line) :=
  inferInstanceAs (Decidable (Verb.ofLine? (Text.trim line) = some .exit))

/-- The turns of a run with these lines left of the scripts and these reads to come, the lines that
the run leaves, and the reads that it leaves. -/
inductive Dialogue (around : Surroundings W) :
    List String → List Read → List Turn → List String → List Read → Prop
  /-- The next line ends the run. -/
  | exit {line lines reads} : Exits line →
      Dialogue around (line :: lines) reads [.line line] lines reads
  /-- The next line is carried out, and the lines that it loads come before the others. -/
  | next {line lines reads turns left rest} : ¬ Exits line →
      Dialogue around (loadedLines around line ++ lines) reads turns left rest →
      Dialogue around (line :: lines) reads (.line line :: turns) left rest
  /-- What the user types is the next line. -/
  | typed {text reads turns left rest} : Dialogue around [text] reads turns left rest →
      Dialogue around [] (.line text :: reads) (.ask :: turns) left rest
  | interrupted {reads turns left rest} : Dialogue around [] reads turns left rest →
      Dialogue around [] (.interrupt :: reads) (.ask :: .interrupt :: turns) left rest
  | ended {rest} : Dialogue around [] (.ended :: rest) [.ask] [] rest
  /-- Nothing more is read. -/
  | exhausted : Dialogue around [] [] [.ask] [] []

/-- What turns do to a machine, and the failures of their lines. -/
inductive Taken (around : Surroundings W) :
    List Turn → Machine W → List Error → Machine W → Prop
  | nil {m} : Taken around [] m [] m
  | ask {turns m failures n} : Taken around turns (m.emit (.prompt m.session.prompt)) failures n →
      Taken around (.ask :: turns) m failures n
  | interrupt {turns m failures n} : Taken around turns (m.withBuffer "") failures n →
      Taken around (.interrupt :: turns) m failures n
  | fed {line turns m flow m' failures n} : (feed around line).apply m = (.ok flow, m') →
      Taken around turns m' failures n → Taken around (.line line :: turns) m failures n
  /-- The line fails, and its failure is reported. -/
  | failed {line turns m e m' failures n} :
      (feed around line).apply m = (.error (.failed e), m') →
      Taken around turns (m'.emit (.report (.error e.message))) failures n →
      Taken around (.line line :: turns) m (e :: failures) n

variable {m n : Machine W} {line : String} {lines left : List String} {reads rest : List Read}
  {turns before after : List Turn} {failures : List Error}

/-! ## Turns -/

/-- Turns do the same whatever scripts wait. -/
theorem Taken.congr (h : Taken around turns m failures n) (m₁ : Machine W)
    (hm : m.SameButScripts m₁) :
    ∃ n₁, Taken around turns m₁ failures n₁ ∧ n.SameButScripts n₁ := by
  induction h generalizing m₁ with
  | nil => exact ⟨m₁, .nil, hm⟩
  | ask _ ih =>
    obtain ⟨n₁, htaken, hn⟩ := ih _ (hm.emit _)
    rw [hm.prompt] at htaken
    exact ⟨n₁, .ask htaken, hn⟩
  | interrupt _ ih =>
    obtain ⟨n₁, htaken, hn⟩ := ih _ (hm.withBuffer "")
    exact ⟨n₁, .interrupt htaken, hn⟩
  | @fed line _ _ _ _ _ _ hfed _ ih =>
    obtain ⟨m₂, hfed₁, hsame⟩ := (framed_feed around line).sameButScripts hm hfed
    obtain ⟨n₁, htaken, hn⟩ := ih m₂ hsame
    exact ⟨n₁, .fed hfed₁ htaken, hn⟩
  | @failed line _ _ _ _ _ _ hfed _ ih =>
    obtain ⟨m₂, hfed₁, hsame⟩ := (framed_feed around line).sameButScripts hm hfed
    obtain ⟨n₁, htaken, hn⟩ := ih _ (hsame.emit _)
    exact ⟨n₁, .failed hfed₁ htaken, hn⟩

/-- Turns taken one after the other are taken in two parts, with the failures of each. -/
theorem Taken.of_append : ∀ {before : List Turn} {m : Machine W} {failures : List Error},
    Taken around (before ++ after) m failures n →
      ∃ failures₁ failures₂ m₁, failures = failures₁ ++ failures₂ ∧
        Taken around before m failures₁ m₁ ∧ Taken around after m₁ failures₂ n
  | [], m, failures, h => ⟨[], failures, m, rfl, .nil, h⟩
  | turn :: before, m, failures, h => by
    cases h with
    | ask h =>
      obtain ⟨failures₁, failures₂, m₁, rfl, hbefore, hafter⟩ := h.of_append
      exact ⟨failures₁, failures₂, m₁, rfl, .ask hbefore, hafter⟩
    | interrupt h =>
      obtain ⟨failures₁, failures₂, m₁, rfl, hbefore, hafter⟩ := h.of_append
      exact ⟨failures₁, failures₂, m₁, rfl, .interrupt hbefore, hafter⟩
    | fed hfed h =>
      obtain ⟨failures₁, failures₂, m₁, rfl, hbefore, hafter⟩ := h.of_append
      exact ⟨failures₁, failures₂, m₁, rfl, .fed hfed hbefore, hafter⟩
    | @failed _ _ _ e _ _ _ hfed h =>
      obtain ⟨failures₁, failures₂, m₁, rfl, hbefore, hafter⟩ := h.of_append
      exact ⟨e :: failures₁, failures₂, m₁, rfl, .failed hfed hbefore, hafter⟩

/-- Each failure is reported once, and no other report is one of a failure. -/
theorem Taken.complaints (h : Taken around turns m failures n) :
    n.trace.filterMap Event.complaint? =
      m.trace.filterMap Event.complaint? ++ failures.map Error.message := by
  have calm {line : String} {m m' : Machine W} {r : Except Halt Flow}
      (hfed : (feed around line).apply m = (r, m')) :
      m'.trace.filterMap Event.complaint? = m.trace.filterMap Event.complaint? := by
    have hcalm := (keeps_calm_feed around line m).complaints
    rwa [hfed] at hcalm
  induction h with
  | nil => exact (List.append_nil _).symm
  | ask _ ih =>
    rw [ih, emit_trace, List.filterMap_append]
    simp [Event.complaint?]
  | interrupt _ ih => exact ih
  | fed hfed _ ih => rw [ih, calm hfed]
  | failed hfed _ ih =>
    rw [ih, emit_trace, List.filterMap_append, calm hfed, List.map_cons, List.append_assoc]
    rfl

/-- When the session asks for a line, none is left of the scripts. -/
theorem Dialogue.of_ask (h : Dialogue around lines reads turns left rest)
    (hturns : turns = before ++ .ask :: after) :
    ∃ reads', Dialogue around [] reads' (.ask :: after) left rest := by
  induction h generalizing before with
  | exit =>
    obtain ⟨-, h⟩ | ⟨-, h⟩ := List.singleton_eq_append_iff.1 hturns <;> cases h
  | next _ _ ih =>
    cases before with
    | nil => cases hturns
    | cons turn before => exact ih (List.cons.inj hturns).2
  | @typed _ reads _ _ _ h ih =>
    cases before with
    | nil =>
      cases hturns
      exact ⟨_, .typed h⟩
    | cons turn before => exact ih (List.cons.inj hturns).2
  | interrupted h ih =>
    rcases before with _ | ⟨_, _ | ⟨turn, before⟩⟩
    · cases hturns
      exact ⟨_, .interrupted h⟩
    · cases hturns
    · exact ih (List.cons.inj (List.cons.inj hturns).2).2
  | ended =>
    obtain ⟨-, h⟩ | ⟨-, h⟩ := List.singleton_eq_append_iff.1 hturns <;> cases h
    exact ⟨_, .ended⟩
  | exhausted =>
    obtain ⟨-, h⟩ | ⟨-, h⟩ := List.singleton_eq_append_iff.1 hturns <;> cases h
    exact ⟨_, .exhausted⟩

/-! ## One step of a run -/

/-- A verb other than `exit` does not end the session. -/
theorem flow_of_perform {verb : Verb} {flow : Flow} {m' : Machine W}
    (h : (perform around verb line).apply m = (.ok flow, m')) :
    verb = .exit ↔ flow = .exit := by
  have goes {a : Act W Unit} (ha : (a >>= fun _ => pure Flow.next).apply m = (.ok flow, m')) :
      flow = .next := by
    rw [apply_bind] at ha
    rcases hr : a.apply m with ⟨_ | _, k⟩ <;> rw [hr] at ha <;> cases ha
    rfl
  cases verb with
  | exit | clear =>
    cases h
    simp
  | sleep | inspect | connect | load | echo => simp [goes h]

/-- A line that succeeds ends the session exactly if it says so. -/
theorem exits_iff_of_apply {flow : Flow} {m' : Machine W}
    (h : (feed around line).apply m = (.ok flow, m')) : Exits line ↔ flow = .exit := by
  cases hv : Verb.ofLine? (Text.trim line) with
  | some verb =>
    rw [apply_feed_verb hv] at h
    rcases hp : (perform around verb (Text.trim line)).apply m with ⟨_ | _, _⟩ <;>
      rw [hp] at h <;> cases h
    rw [Exits, hv, Option.some_inj]
    exact flow_of_perform hp
  | none =>
    have hnext : flow = .next := by
      have hfed := fed around line m
      rw [h] at hfed
      generalize hr : (Except.ok flow : Except Halt Flow) = r at hfed
      cases hfed with
      | comment | part =>
        cases hr
        rfl
      | verb hverb => simp [hv] at hverb
      | failed => cases hr
      | @completed _ r =>
        cases r <;> cases hr
        rfl
    simp [Exits, hv, hnext]

/-- A line that ends the session changes nothing. -/
theorem apply_feed_of_exits (h : Exits line) (m : Machine W) :
    (feed around line).apply m = (.ok .exit, m) :=
  apply_feed_verb h m

/-- What a run does after a line. -/
def wentOn (around : Surroundings W) (steps : Nat) (reads : List Read) :
    Except Halt Flow × Machine W → Except Halt Unit × Machine W
  | (.ok .next, m) => (runReads around steps reads).apply m
  | (.ok .exit, m) => (.ok (), m)
  | (.error (.failed e), m) =>
    (runReads around steps reads).apply (m.emit (.report (.error e.message)))
  | (.error .unfinished, m) => (.error .unfinished, m)

/-- A run that goes on after a line goes on as the line lets it. -/
theorem apply_feedReporting_bind (around : Surroundings W) (steps : Nat) (reads : List Read)
    (line : String) (m : Machine W) :
    (feedReporting around false line >>= fun flow => match flow with
      | .next => runReads around steps reads
      | .exit => pure ()).apply m =
      wentOn around steps reads ((feed around line).apply m) := by
  rw [apply_bind, apply_feedReporting]
  rcases (feed around line).apply m with ⟨(e | _) | (_ | _), m'⟩ <;> rfl

/-- The machine that has asked for a line, with no line left of the scripts. -/
def asked (m : Machine W) : Machine W := (m.withScripts []).emit (.prompt m.session.prompt)

/-- A run with a line left in its scripts feeds that line and goes on below it. -/
theorem apply_runReads_of_line (around : Surroundings W)
    (h : m.session.scripts.pending = line :: lines) :
    ∃ below : Script.Stack, below.pending = lines ∧ ∀ steps reads,
      (runReads around (steps + 1) reads).apply m =
        wentOn around steps reads ((feed around line).apply (m.withScripts below)) := by
  obtain ⟨hline, hbelow⟩ := Script.Stack.nextLine?_eq m.session.scripts
  rw [h] at hline hbelow
  refine ⟨m.session.scripts.nextLine?.2, hbelow, fun steps reads => ?_⟩
  rw [runReads.eq_def]
  dsimp only
  rw [apply_bind_of_ok (apply_nextLine m), hline]
  exact apply_feedReporting_bind around steps reads line _

/-- A run with no line left asks the user. -/
theorem apply_runReads_of_ask (h : m.session.scripts.pending = []) (steps : Nat)
    (reads : List Read) :
    (runReads around (steps + 1) reads).apply m = match reads with
      | [] | .ended :: _ => (.ok (), asked m)
      | .interrupt :: reads => (runReads around steps reads).apply ((asked m).withBuffer "")
      | .line text :: reads => wentOn around steps reads ((feed around text).apply (asked m)) := by
  rw [runReads.eq_def]
  dsimp only
  rw [apply_bind_of_ok (apply_nextLine m), Script.Stack.nextLine?_of_pending_nil h]
  dsimp only
  rw [apply_bind_of_ok (apply_session _), apply_bind_of_ok (apply_emit _ _)]
  rcases reads with _ | ⟨_ | _ | _, reads⟩
  · rfl
  · exact apply_feedReporting_bind around steps reads _ _
  · exact apply_bind_of_ok (apply_dropBuffer _)
  · rfl

/-! ## Whole runs -/

/-- The run has gone through the turns of a dialogue: they lead where it leads, and it leaves the
lines that they leave. -/
def Heard (around : Surroundings W) (lines : List String) (reads : List Read) (m m' : Machine W) :
    Prop :=
  ∃ turns rest failures n, Dialogue around lines reads turns m'.session.scripts.pending rest ∧
    Taken around turns m failures n ∧ m'.SameButScripts n

/-- What a run has heard does not depend on the scripts of the machine that it reached. -/
theorem Heard.congr {m₁ m' : Machine W} (h : Heard around lines reads m m')
    (hm : m.SameButScripts m₁) :
    Heard around lines reads m₁ m' := by
  obtain ⟨turns, rest, failures, n, hdialogue, htaken, hn⟩ := h
  obtain ⟨n₁, htaken₁, hn₁⟩ := htaken.congr m₁ hm
  exact ⟨turns, rest, failures, n₁, hdialogue, htaken₁, hn.trans hn₁⟩

/-- From what follows a line to the line. -/
theorem heard_of_wentOn {steps : Nat} {r : Except Halt Unit} {m' : Machine W}
    (ih : ∀ {m : Machine W}, (runReads around steps reads).apply m = (r, m') →
      r = .ok () ∧ Heard around m.session.scripts.pending reads m m')
    (h : wentOn around steps reads ((feed around line).apply m) = (r, m'))
    (hr : r ≠ .error .unfinished) :
    r = .ok () ∧ Heard around (line :: m.session.scripts.pending) reads m m' := by
  rcases hfed : (feed around line).apply m with ⟨(e | _) | (_ | _), m₁⟩ <;> rw [hfed] at h
  · have hgoes : ¬ Exits line := by
      intro hexits
      rw [apply_feed_of_exits hexits] at hfed
      cases hfed
    obtain ⟨rfl, turns, rest, failures, n, hdialogue, htaken, hn⟩ := ih h
    rw [emit_session, (scripts_feed hfed).1] at hdialogue
    exact ⟨rfl, _, rest, _, n, .next hgoes hdialogue, .failed hfed htaken, hn⟩
  · cases h
    exact absurd rfl hr
  · have hgoes : ¬ Exits line := by simp [exits_iff_of_apply hfed]
    obtain ⟨rfl, turns, rest, failures, n, hdialogue, htaken, hn⟩ := ih h
    rw [(scripts_feed hfed).1] at hdialogue
    exact ⟨rfl, _, rest, _, n, .next hgoes hdialogue, .fed hfed htaken, hn⟩
  · cases h
    refine ⟨rfl, _, reads, _, m', ?_, .fed hfed .nil, rfl⟩
    rw [(scripts_feed hfed).2 nofun]
    exact .exit ((exits_iff_of_apply hfed).2 rfl)

/-- A run that ends has succeeded, and it is a dialogue. -/
theorem heard_of_apply {r : Except Halt Unit} {m' : Machine W} (hr : r ≠ .error .unfinished) :
    ∀ {steps : Nat} {reads : List Read} {m : Machine W},
      (runReads around steps reads).apply m = (r, m') →
        r = .ok () ∧ Heard around m.session.scripts.pending reads m m'
  | 0, reads, m, h => by
    cases h
    exact absurd rfl hr
  | steps + 1, reads, m, h => by
    cases hp : m.session.scripts.pending with
    | cons line lines =>
      obtain ⟨below, rfl, hstep⟩ := apply_runReads_of_line around hp
      rw [hstep] at h
      obtain ⟨hok, hheard⟩ := heard_of_wentOn (heard_of_apply hr) h hr
      exact ⟨hok, hheard.congr rfl⟩
    | nil =>
      have hasked : (asked m).SameButScripts (m.emit (.prompt m.session.prompt)) := rfl
      rw [apply_runReads_of_ask hp] at h
      rcases reads with _ | ⟨text | _ | _, reads⟩
      · cases h
        exact ⟨rfl, _, [], _, _, .exhausted, .ask .nil, hasked⟩
      · obtain ⟨hok, hheard⟩ := heard_of_wentOn (heard_of_apply hr) h hr
        obtain ⟨turns, rest, failures, n, hdialogue, htaken, hn⟩ := hheard.congr hasked
        exact ⟨hok, _, rest, failures, n, .typed hdialogue, .ask htaken, hn⟩
      · obtain ⟨hok, hheard⟩ := heard_of_apply hr h
        obtain ⟨turns, rest, failures, n, hdialogue, htaken, hn⟩ :=
          hheard.congr (hasked.withBuffer "")
        exact ⟨hok, _, rest, failures, n, .interrupted hdialogue, .ask (.interrupt htaken), hn⟩
      · cases h
        exact ⟨rfl, _, reads, _, _, .ended, .ask .nil, hasked⟩

/-- Some number of steps leads to a machine like this one, with these lines left. -/
def Ends (left : List String) (n : Machine W) (run : Nat → Except Halt Unit × Machine W) : Prop :=
  ∃ steps m', run steps = (.ok (), m') ∧ m'.session.scripts.pending = left ∧ m'.SameButScripts n

/-- Where a run ends does not depend on the scripts of the machine that it reached. -/
theorem Ends.of_sameButScripts {n₁ : Machine W} {run : Nat → Except Halt Unit × Machine W}
    (h : Ends left n₁ run) (hn : n.SameButScripts n₁) : Ends left n run := by
  obtain ⟨steps, m', hrun, hleft, hm'⟩ := h
  exact ⟨steps, m', hrun, hleft, hm'.trans hn.symm⟩

/-- The steps after the first one are those of the run that it leads to. -/
theorem Ends.step {run run' : Nat → Except Halt Unit × Machine W} (h : Ends left n run)
    (hstep : ∀ steps, run' (steps + 1) = run steps) : Ends left n run' := by
  obtain ⟨steps, m', hrun, hends⟩ := h
  exact ⟨steps + 1, m', (hstep steps).trans hrun, hends⟩

/-- A run whose first line, if there is one, has already been taken off the scripts. -/
def resumed (around : Surroundings W) (reads : List Read) (m : Machine W) :
    List String → Nat → Except Halt Unit × Machine W
  | [], steps => (runReads around steps reads).apply m
  | line :: _, steps => wentOn around steps reads ((feed around line).apply m)

/-- Whatever comes of turns at a machine with these lines, the run comes to it as well. -/
def ComesTo (around : Surroundings W) (turns : List Turn) (lines left : List String)
    (run : Machine W → Nat → Except Halt Unit × Machine W) : Prop :=
  ∀ {m n : Machine W} {failures : List Error}, m.session.scripts.pending = lines →
    Taken around turns m failures n → Ends left n (run m)

/-- Taking the first line off the scripts is all that a run does before. -/
theorem comesTo_of_resumed
    (h : ComesTo around turns lines.tail left fun m => resumed around reads m lines) :
    ComesTo around turns lines left fun m steps => (runReads around steps reads).apply m := by
  intro m n failures hp htaken
  cases lines with
  | nil => exact h hp htaken
  | cons line lines =>
    obtain ⟨below, hbelow, hstep⟩ := apply_runReads_of_line around hp
    obtain ⟨n₁, htaken₁, hn₁⟩ := htaken.congr (m.withScripts below) rfl
    exact ((h hbelow htaken₁).of_sameButScripts hn₁).step fun steps => hstep steps reads

/-- From what follows a line that does not end the session to the line. -/
theorem comesTo_wentOn (hgoes : ¬ Exits line)
    (ih : ComesTo around turns (loadedLines around line ++ lines) left
      fun m steps => (runReads around steps reads).apply m) :
    ComesTo around (.line line :: turns) lines left
      fun m steps => wentOn around steps reads ((feed around line).apply m) := by
  intro m n failures hp htaken
  cases htaken with
  | @fed _ _ _ flow m₁ _ _ hfed htaken =>
    have hpending : m₁.session.scripts.pending = loadedLines around line ++ lines := by
      rw [(scripts_feed hfed).1, hp]
    dsimp only
    rw [hfed]
    cases flow with
    | exit => exact absurd ((exits_iff_of_apply hfed).2 rfl) hgoes
    | next => exact ih hpending htaken
  | @failed _ _ _ e m₁ _ _ hfed htaken =>
    have hpending : (m₁.emit (.report (.error e.message))).session.scripts.pending =
        loadedLines around line ++ lines := by
      rw [emit_session, (scripts_feed hfed).1, hp]
    dsimp only
    rw [hfed]
    exact ih hpending htaken

/-- The turns of a dialogue lead where the run leads. -/
theorem Dialogue.comesTo_resumed (h : Dialogue around lines reads turns left rest) :
    ComesTo around turns lines.tail left fun m => resumed around reads m lines := by
  induction h with
  | @exit line _ _ hexits =>
    intro m n failures hp htaken
    cases htaken with
    | failed hfed =>
      rw [apply_feed_of_exits hexits] at hfed
      cases hfed
    | fed hfed htaken =>
      rw [apply_feed_of_exits hexits] at hfed
      cases hfed
      cases htaken
      refine ⟨0, m, ?_, hp, rfl⟩
      dsimp only [resumed]
      rw [apply_feed_of_exits hexits]
      rfl
  | next hgoes _ ih => exact comesTo_wentOn hgoes (comesTo_of_resumed ih)
  | @typed _ reads _ _ _ _ ih =>
    intro m n failures hp htaken
    cases htaken with
    | ask htaken =>
    obtain ⟨n₁, htaken₁, hn₁⟩ := htaken.congr (asked m) rfl
    exact ((ih rfl htaken₁).of_sameButScripts hn₁).step fun steps =>
      apply_runReads_of_ask hp steps _
  | interrupted _ ih =>
    intro m n failures hp htaken
    cases htaken with
    | ask htaken =>
    cases htaken with
    | interrupt htaken =>
    obtain ⟨n₁, htaken₁, hn₁⟩ := htaken.congr ((asked m).withBuffer "") rfl
    exact ((ih rfl htaken₁).of_sameButScripts hn₁).step fun steps =>
      apply_runReads_of_ask hp steps _
  | ended | exhausted =>
    intro m n failures hp htaken
    cases htaken with
    | ask htaken =>
    cases htaken
    exact ⟨1, asked m, apply_runReads_of_ask hp 0 _, rfl, rfl⟩

/-- A run with a user that ends has succeeded, whatever failed in it, and it is a dialogue: the
scripts and the reads give the turns, and their lines and reads alone do what the run does, to the
session, to the world and to the trace. Conversely, if the turns of a dialogue can be taken then the
run ends, and leaves the same lines of the scripts. On the way each line that fails is reported
once, and nothing else is. When the session asks for a line, none is left of the scripts, and the
prompt says whether a command has been begun at that moment; an interrupt gives up what has been
begun and changes nothing else. -/
theorem run_with_user (around : Surroundings W) (m : Machine W) (reads : List Read) :
    (∀ steps r m', (runReads around steps reads).apply m = (r, m') → r ≠ .error .unfinished →
      r = .ok () ∧ ∃ turns rest failures n,
        Dialogue around m.session.scripts.pending reads turns m'.session.scripts.pending rest ∧
          Taken around turns m failures n ∧ m'.SameButScripts n) ∧
    ∀ turns left rest failures n,
      Dialogue around m.session.scripts.pending reads turns left rest →
      Taken around turns m failures n →
        (∃ steps m', (runReads around steps reads).apply m = (.ok (), m') ∧
          m'.session.scripts.pending = left ∧ m'.SameButScripts n) ∧
        n.trace.filterMap Event.complaint? =
          m.trace.filterMap Event.complaint? ++ failures.map Error.message ∧
        (∀ before after, turns = before ++ .ask :: after →
          (∃ reads', Dialogue around [] reads' (.ask :: after) left rest) ∧
          ∃ failures₁ failures₂ m₁, failures = failures₁ ++ failures₂ ∧
            Taken around before m failures₁ m₁ ∧
            Taken around after (m₁.emit (.prompt
              (if m₁.session.buffer = "" then newPrompt else continuationPrompt))) failures₂ n) ∧
        ∀ before after, turns = before ++ .interrupt :: after →
          ∃ failures₁ failures₂ m₁, failures = failures₁ ++ failures₂ ∧
            Taken around before m failures₁ m₁ ∧
            Taken around after (m₁.withBuffer "") failures₂ n := by
  refine ⟨fun steps r m' hrun hr => heard_of_apply hr hrun, ?_⟩
  intro turns left rest failures n hdialogue htaken
  refine ⟨comesTo_of_resumed hdialogue.comesTo_resumed rfl htaken, htaken.complaints, ?_, ?_⟩
  · rintro before after rfl
    obtain ⟨failures₁, failures₂, m₁, rfl, hbefore, hafter⟩ := htaken.of_append
    cases hafter with
    | ask hafter =>
    exact ⟨hdialogue.of_ask rfl, failures₁, failures₂, m₁, rfl, hbefore, hafter⟩
  · rintro before after rfl
    obtain ⟨failures₁, failures₂, m₁, rfl, hbefore, hafter⟩ := htaken.of_append
    cases hafter with
    | interrupt hafter =>
    exact ⟨failures₁, failures₂, m₁, rfl, hbefore, hafter⟩

/-- A line of a script and a line of the user fail, and each failure is reported once. -/
theorem run_with_user_two_failures :
    ∃ m m' turns rest failures n, Reachable inMemoryWithScripts m ∧
      (runReads inMemoryWithScripts 12 [.line "DESC", .interrupt, .line "DESC;"]).apply m =
        (.ok (), m') ∧
      Dialogue inMemoryWithScripts ["@a = 1;", ". inner", "@c = 3;"]
        [.line "DESC", .interrupt, .line "DESC;"] turns [] rest ∧
      Taken inMemoryWithScripts turns m failures n ∧ m'.SameButScripts n ∧ failures.length = 2 ∧
      m'.trace.filterMap Event.complaint? = failures.map Error.message := by
  have hstart : Machine.start inMemoryWithScripts {} {} = .ok (.over {}) := rfl
  obtain ⟨m, hm, hpending, hnone, hends, hleft, htwo⟩ : ∃ m, Reachable inMemoryWithScripts m ∧
      m.session.scripts.pending = ["@a = 1;", ". inner", "@c = 3;"] ∧
      m.trace.filterMap Event.complaint? = [] ∧
      (match (runReads inMemoryWithScripts 12
          [.line "DESC", .interrupt, .line "DESC;"]).apply m with
        | (.error .unfinished, _) => false
        | _ => true) = true ∧
      ((runReads inMemoryWithScripts 12 [.line "DESC", .interrupt, .line "DESC;"]).apply m
        ).2.session.scripts.pending = [] ∧
      (((runReads inMemoryWithScripts 12 [.line "DESC", .interrupt, .line "DESC;"]).apply m
        ).2.trace.filterMap Event.complaint?).length = 2 :=
    ⟨(Machine.over {}).after inMemoryWithScripts (.load "outer"), (Reachable.start hstart).step _,
      rfl, rfl, by decide +kernel, by decide +kernel, by decide +kernel⟩
  rcases hrun : (runReads inMemoryWithScripts 12
    [.line "DESC", .interrupt, .line "DESC;"]).apply m with ⟨r, m'⟩
  rw [hrun] at hends hleft htwo
  obtain ⟨hdialogues, hturns⟩ := run_with_user inMemoryWithScripts m
    [.line "DESC", .interrupt, .line "DESC;"]
  have hr : r ≠ .error .unfinished := by
    rintro rfl
    cases hends
  obtain ⟨rfl, turns, rest, failures, n, hdialogue, htaken, hsame⟩ := hdialogues 12 r m' hrun hr
  obtain ⟨-, hcomplaints, -⟩ := hturns turns _ rest failures n hdialogue htaken
  have htrace : m'.trace = n.trace := congrArg (·.trace) hsame
  rw [hnone, List.nil_append, ← htrace] at hcomplaints
  rw [hpending] at hdialogue
  dsimp only at hleft htwo
  rw [hleft] at hdialogue
  rw [hcomplaints, List.length_map] at htwo
  exact ⟨m, m', turns, rest, failures, n, hm, hrun, hdialogue, htaken, hsame, htwo, hcomplaints⟩

end Session

end TableShell
