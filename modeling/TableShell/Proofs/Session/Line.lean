import TableShell.Proofs.Session.Command
import TableShell.Proofs.Text

/-!
# What a line does

`Session.feed` has one equation for each kind of line: a comment, a line with a verb, a part of a
command, and the line that closes one. `Session.performed` says once what the verbs can do, and
`Session.fed` puts the two together: whatever a line does to a machine is one of the cases of
`Session.Fed`. Lines that only show something or wait (`Session.isQuiet`) succeed wherever they
stand, and leave the session and the world alone.
-/

namespace TableShell

namespace Machine

variable {W : Type}

/-- The machine with these lines of a command that has been begun. -/
def withBuffer (m : Machine W) (buffer : String) : Machine W := m.change ({ · with buffer })

/-- What comes of building a client for the connection asked for. -/
def link (m : Machine W) (around : Surroundings W) : Except Error Unit :=
  (around.service.connect m.session.connection m.world).1

/-- The machine that has tried to build a client. -/
def linked (m : Machine W) (around : Surroundings W) : Machine W :=
  { m with
    world := (around.service.connect m.session.connection m.world).2
    trace := m.trace ++ [.connect m.session.connection (m.link around)] }

/-- The machine with settings put over those in use, and with nothing begun or remembered that
belongs to the old client. -/
def overlaid (m : Machine W) (changes : Connection) : Machine W :=
  m.change fun s =>
    { s with connection := s.connection.overlay changes, buffer := "", nextToken := none }

@[simp] theorem withBuffer_session (m : Machine W) (b : String) :
    (m.withBuffer b).session = { m.session with buffer := b } := rfl
@[simp] theorem withBuffer_trace (m : Machine W) (b : String) :
    (m.withBuffer b).trace = m.trace := rfl
@[simp] theorem withBuffer_world (m : Machine W) (b : String) :
    (m.withBuffer b).world = m.world := rfl
@[simp] theorem withBuffer_drawn (m : Machine W) (b : String) :
    (m.withBuffer b).drawn = m.drawn := rfl
@[simp] theorem withBuffer_withBuffer (m : Machine W) (b c : String) :
    (m.withBuffer b).withBuffer c = m.withBuffer c := rfl

/-- Putting the buffer of a machine in its own place changes nothing. -/
theorem withBuffer_eq_self {m : Machine W} {buffer : String} (h : m.session.buffer = buffer) :
    m.withBuffer buffer = m := by
  obtain ⟨⟨connection, client, noStop, bindings, history, scripts, begun, token⟩, w, n, t⟩ := m
  cases h
  rfl

@[simp] theorem linked_session (m : Machine W) (around : Surroundings W) :
    (m.linked around).session = m.session := rfl
@[simp] theorem linked_trace (m : Machine W) (around : Surroundings W) :
    (m.linked around).trace = m.trace ++ [.connect m.session.connection (m.link around)] := rfl
@[simp] theorem overlaid_session (m : Machine W) (changes : Connection) :
    (m.overlaid changes).session =
      { m.session with
        connection := m.session.connection.overlay changes, buffer := "", nextToken := none } := rfl
@[simp] theorem overlaid_trace (m : Machine W) (changes : Connection) :
    (m.overlaid changes).trace = m.trace := rfl

end Machine

namespace Act

variable {W : Type}

/-- A connection is built from the settings of the session; a refusal leaves the old client. -/
theorem apply_connect (around : Surroundings W) (m : Machine W) :
    (connect around).apply m = match m.link around with
      | .error e => (.error (.failed e), m.linked around)
      | .ok () =>
        (.ok (), (m.linked around).change ({ · with client := m.session.connection })) := by
  have h : (connect around).apply m = (ofExcept (m.link around) >>= fun _ =>
      change ({ · with client := m.session.connection })).apply (m.linked around) := rfl
  rw [h]
  cases m.link around with
  | error e => exact apply_bind_of_error (apply_ofExcept _ _)
  | ok _ => exact apply_bind_of_ok (apply_ofExcept _ _)

end Act

/-- A line has a verb exactly if it starts as the table of verbs says: at most one start fits. -/
theorem Verb.ofLine?_eq_some_iff {line : String} {verb : Verb} :
    ofLine? line = some verb ↔
      ∃ start, (start, verb) ∈ table ∧ Text.startsWith line start = true := by
  have hapart : ∀ e ∈ table, ∀ e' ∈ table, e.1.toList <+: e'.1.toList → e = e' := by decide
  have hfound {e : String × Verb}
      (he : table.find? (fun entry => Text.startsWith line entry.1) = some e) :
      e ∈ table ∧ Text.startsWith line e.1 = true := by
    have hstart := List.find?_some he
    exact ⟨List.mem_of_find?_eq_some he, hstart⟩
  constructor
  · intro h
    obtain ⟨⟨start, _⟩, he, rfl⟩ := Option.map_eq_some_iff.1 h
    exact ⟨start, hfound he⟩
  · rintro ⟨start, hmem, hstart⟩
    obtain ⟨e, he⟩ : ∃ e, table.find? (fun entry => Text.startsWith line entry.1) = some e :=
      Option.isSome_iff_exists.1 (List.find?_isSome.2 ⟨_, hmem, hstart⟩)
    obtain ⟨hemem, hestart⟩ := hfound he
    rw [Text.startsWith, List.isPrefixOf_iff_prefix] at hestart hstart
    have heq : e = (start, verb) :=
      (List.prefix_or_prefix_of_prefix hestart hstart).elim (hapart _ hemem _ hmem)
        fun h => (hapart _ hmem _ hemem h).symm
    rw [ofLine?, he, heq]
    rfl

namespace Session

open Act

variable {W : Type} {around : Surroundings W} {m : Machine W} {line : String}

/-! ## Verbs -/

/-- The action succeeds at any machine and leaves the session and the world alone. -/
def Says (a : Act W Unit) : Prop := ∀ m, ∃ m', a.apply m = (.ok (), m') ∧ m.Idles m'

/-- Emitting an aside says something. -/
theorem says_emit {e : Event} (he : e.isAside = true) : Says (W := W) (emit e) :=
  fun m => ⟨m.emit e, rfl, rfl, rfl, [e], rfl, by simpa using he⟩

/-- Reporting a message says something. -/
theorem says_message (text : String) : Says (W := W) (report (.message text)) := says_emit rfl

/-- A sequence only says something when both of its parts do. -/
theorem Says.bind {a : Act W Unit} {f : Unit → Act W Unit} (ha : Says a) (hf : Says (f ())) :
    Says (a >>= f) := by
  intro m
  obtain ⟨m₁, h₁, hi₁⟩ := ha m
  obtain ⟨m₂, h₂, hi₂⟩ := hf m₁
  exact ⟨m₂, (apply_bind_of_ok h₁).trans h₂, isStepOrder_idles.trans hi₁ hi₂⟩

/-- Saying something for each element of a list only says something. -/
theorem Says.forM {α : Type} {f : α → Act W Unit} (hf : ∀ x, Says (f x)) :
    ∀ xs : List α, Says (xs.forM f)
  | [] => fun m => ⟨m, rfl, isStepOrder_idles.refl m⟩
  | x :: xs => .bind (hf x) (Says.forM hf xs)

/-- Showing the variables or the history only says something. -/
theorem says_inspect (line : String) : Says (W := W) (inspect line) := by
  have hmessages (texts : List String) :
      Says (W := W) (texts.forM fun t => report (.message t)) :=
    .forM says_message texts
  intro m
  rw [inspect, apply_bind_of_ok (apply_session m)]
  cases Inspection.ofLine? line with
  | none => exact says_emit rfl m
  | some i =>
    cases i with
    | history | values => exact hmessages _ m
    | pending | help => exact says_message _ m

/-- Echoing only says something. -/
theorem says_echo (around : Surroundings W) (line : String) : Says (echo around line) := by
  intro m
  rw [echo, apply_bind_of_ok (apply_substitute around _ m)]
  have hexp : m.Idles (m.expanded around (echoed line)) :=
    ⟨m.expanded_session around _, m.expanded_world around _, [], by simp⟩
  obtain ⟨m', h, hi⟩ := says_message (m.expansion around (echoed line))
    (m.expanded around (echoed line))
  exact ⟨m', h, isStepOrder_idles.trans hexp hi⟩

/-- The milliseconds that a line with the verb sleep asks to wait for. -/
def sleepTime? (line : String) : Option Nat :=
  if (tokensOf line)[0]?.getD "" = "sleep" then
    Number.readNat64 ((tokensOf line)[1]?.getD "").toList
  else none

/-- Waiting for a time only says something. -/
theorem says_sleep {milliseconds : Nat} (h : sleepTime? line = some milliseconds) :
    Says (W := W) (sleep line) := by
  rw [sleepTime?] at h
  split at h
  · next hword =>
    unfold sleep
    dsimp only
    rw [if_neg (not_not_intro hword), h]
    dsimp only
    split
    · exact .bind (says_emit rfl) (says_emit rfl)
    · exact says_emit rfl
  · cases h

/-- Waiting for what is no time is an error that changes nothing. -/
theorem apply_sleep_of_none (h : sleepTime? line = none) (m : Machine W) :
    ∃ e, (sleep line).apply m = (.error (.failed e), m) := by
  unfold sleep
  dsimp only
  rw [sleepTime?] at h
  split at h
  · next hword =>
    rw [if_neg (not_not_intro hword), h]
    exact ⟨_, rfl⟩
  · next hword =>
    rw [if_pos hword]
    exact ⟨_, rfl⟩

/-- Loading a script puts it on top of the others, or changes nothing. -/
theorem apply_loadScript (around : Surroundings W) (path : String) (m : Machine W) :
    (loadScript around path).apply m = match Script.load around.file? path with
      | .error e => (.error (.failed e), m)
      | .ok script => (.ok (), m.change fun s => { s with scripts := script :: s.scripts }) := by
  rw [loadScript]
  cases Script.load around.file? path with
  | error e => exact apply_bind_of_error (apply_ofExcept _ m)
  | ok script => exact apply_bind_of_ok (apply_ofExcept _ m)

/-- A connection is built from the settings of the session; a refusal leaves the old client. -/
theorem apply_connect (around : Surroundings W) (line : String) (m : Machine W) :
    (connect around line).apply m = match Connection.ofCommand line with
      | .error e => (.error (.failed e), m)
      | .ok changes =>
        if changes.isGiven then (Act.connect around).apply (m.overlaid changes)
        else (.ok (), m) := by
  rw [connect]
  cases Connection.ofCommand line with
  | error e => exact apply_bind_of_error (apply_ofExcept _ m)
  | ok changes =>
    refine (apply_bind_of_ok (apply_ofExcept _ m)).trans ?_
    dsimp only
    split
    · exact apply_bind_of_ok (apply_change _ m)
    · rfl

/-- What a verb does. -/
inductive Performed (around : Surroundings W) (verb : Verb) (line : String) (m : Machine W) :
    Except Halt Flow → Machine W → Prop
  /-- It leaves the session alone. -/
  | kept {r m'} : m.Adds m' → Performed around verb line m r m'
  | cleared : verb = .clear →
      Performed around verb line m (.ok .next) ((m.emit (.report .clear)).withBuffer "")
  | loaded {script} : verb = .load →
      Performed around verb line m (.ok .next)
        (m.change fun s => { s with scripts := script :: s.scripts })
  /-- It asks for a client, and the service has none. -/
  | refused {changes e} : verb = .connect → Connection.ofCommand line = .ok changes →
      changes.isGiven = true → (m.overlaid changes).link around = .error e →
      Performed around verb line m (.error (.failed e)) ((m.overlaid changes).linked around)
  | connected {changes} : verb = .connect → Connection.ofCommand line = .ok changes →
      changes.isGiven = true → (m.overlaid changes).link around = .ok () →
      Performed around verb line m (.ok .next)
        (((m.overlaid changes).linked around).change
          ({ · with client := m.session.connection.overlay changes }))

/-- Every run of a verb is one of the cases of `Performed`. -/
theorem performed (around : Surroundings W) (verb : Verb) (line : String) (m : Machine W) :
    Performed around verb line m ((perform around verb line).apply m).1
      ((perform around verb line).apply m).2 := by
  have quiet {a : Act W Unit} (h : Says a) :
      Performed around verb line m ((a >>= fun _ => pure Flow.next).apply m).1
        ((a >>= fun _ => pure Flow.next).apply m).2 := by
    obtain ⟨m', hm, hi⟩ := h m
    rw [apply_bind_of_ok hm]
    exact .kept hi.adds
  cases verb with
  | sleep =>
    cases hs : sleepTime? line with
    | some milliseconds => exact quiet (says_sleep hs)
    | none =>
      obtain ⟨e, he⟩ := apply_sleep_of_none hs m
      unfold perform
      dsimp only
      rw [apply_bind_of_error he]
      exact .kept (isStepOrder_adds.refl m)
  | inspect => exact quiet (says_inspect line)
  | echo => exact quiet (says_echo around line)
  | exit => exact .kept (isStepOrder_adds.refl m)
  | clear => exact .cleared rfl
  | load =>
    unfold perform load
    cases (Text.words line.toList)[1]? with
    | none => exact .kept (isStepOrder_adds.refl m)
    | some path =>
      have h := apply_loadScript around (String.ofList path) m
      dsimp only
      cases hs : Script.load around.file? (String.ofList path) with
      | error e =>
        rw [apply_bind_of_error (h.trans (by rw [hs]))]
        exact .kept (isStepOrder_adds.refl m)
      | ok script =>
        rw [apply_bind_of_ok (h.trans (by rw [hs]))]
        exact .loaded rfl
  | connect =>
    have h := apply_connect around line m
    unfold perform
    dsimp only
    cases hc : Connection.ofCommand line with
    | error e =>
      rw [apply_bind_of_error (h.trans (by rw [hc]))]
      exact .kept (isStepOrder_adds.refl m)
    | ok changes =>
      rw [hc] at h
      dsimp only at h
      cases hg : changes.isGiven with
      | false =>
        rw [apply_bind_of_ok (h.trans (if_neg (by simp [hg])))]
        exact .kept (isStepOrder_adds.refl m)
      | true =>
        rw [if_pos hg, Act.apply_connect] at h
        cases hl : (m.overlaid changes).link around with
        | error e =>
          rw [apply_bind_of_error (h.trans (by rw [hl]))]
          exact .refused rfl hc hg hl
        | ok _ =>
          rw [apply_bind_of_ok (h.trans (by rw [hl]))]
          exact .connected rfl hc hg hl

/-! ## Lines -/

/-- A line with a verb starts as the table of verbs says. -/
theorem exists_start_of_verb {verb : Verb} (h : Verb.ofLine? line = some verb) :
    ∃ start t, (start, verb) ∈ Verb.table ∧ line = start ++ t := by
  obtain ⟨start, hmem, hstart⟩ := Verb.ofLine?_eq_some_iff.1 h
  obtain ⟨t, ht⟩ := Text.startsWith_iff.1 hstart
  exact ⟨start, t, hmem, ht⟩

/-- Whether a line is a comment is told by its first character. -/
theorem isComment_eq (line : String) :
    isComment line = line.toList.head?.all fun c => c == '#' || c == '-' := by
  obtain ⟨cs, rfl⟩ : ∃ cs, line = String.ofList cs := ⟨line.toList, by simp⟩
  cases cs with
  | nil => rfl
  | cons c cs =>
    have hne : (String.ofList (c :: cs) == "") = false := by
      rw [beq_eq_false_iff_ne, ne_eq, ← String.toList_inj]
      simp
    rw [isComment, hne, Text.startsWith, Text.startsWith, String.toList_ofList]
    simp [List.isPrefixOf, Bool.beq_comm]

/-- A line that is a verb is no comment. -/
theorem isComment_of_verb {verb : Verb} (h : Verb.ofLine? line = some verb) :
    isComment line = false := by
  have hstarts : ∀ entry ∈ Verb.table,
      (entry.1.toList.head?.all fun c => c == '#' || c == '-') = false := by decide
  obtain ⟨start, t, he, rfl⟩ := exists_start_of_verb h
  have hstart := hstarts _ he
  rw [isComment_eq, String.toList_append, List.head?_append]
  cases hc : start.toList.head? with
  | none => simp [hc] at hstart
  | some c => simpa [hc] using hstart

/-- The command that a line goes on with. -/
def begun (session : Session) (line : String) : String :=
  session.buffer ++ Text.trim line ++ " "

/-- The command that a line completes, if it completes one. -/
def completes? (session : Session) (line : String) : Option String :=
  if isComment (Text.trim line) || (Verb.ofLine? (Text.trim line)).isSome ||
      !Text.endsWith (Text.trim line) ';' then none
  else some (Text.trim (session.begun line))

/-- A line completes a command when it is neither a comment nor a verb and ends with a semicolon;
the command is what was begun, with the line. -/
theorem completes?_eq_some_iff {session : Session} {command : String} :
    session.completes? line = some command ↔
      isComment (Text.trim line) = false ∧ Verb.ofLine? (Text.trim line) = none ∧
        Text.endsWith (Text.trim line) ';' = true ∧ Text.trim (session.begun line) = command := by
  rw [completes?]
  cases isComment (Text.trim line) <;> cases Verb.ofLine? (Text.trim line) <;>
    cases Text.endsWith (Text.trim line) ';' <;> simp

/-- Where nothing has been begun, a line that is closed is a whole command. -/
theorem completes?_of_tight {session : Session} (hb : session.buffer = "")
    (ht : Text.Tight line.toList) (hc : isComment line = false) (hv : Verb.ofLine? line = none)
    (he : Text.endsWith line ';' = true) : session.completes? line = some line := by
  rw [completes?_eq_some_iff, begun, hb, ht.trim_eq, String.empty_append]
  exact ⟨hc, hv, he, ht.trim_append_space⟩

/-- A comment completes no command. -/
theorem completes?_of_comment {session : Session} (h : isComment (Text.trim line) = true) :
    session.completes? line = none := by simp [completes?, h]

/-- A verb completes no command. -/
theorem completes?_of_verb {session : Session} {verb : Verb}
    (h : Verb.ofLine? (Text.trim line) = some verb) : session.completes? line = none := by
  simp [completes?, h]

/-- Dropping what was begun empties the buffer and does nothing else. -/
theorem apply_dropBuffer (m : Machine W) : dropBuffer.apply m = (.ok (), m.withBuffer "") := rfl

/-- Beginning a command puts the line and a space into the buffer. -/
theorem apply_begin (line : String) (m : Machine W) :
    (change fun s => { s with buffer := s.buffer ++ Text.trim line ++ " " }).apply m =
      (.ok (), m.withBuffer (m.session.begun line)) := rfl

/-- A comment does nothing, also inside a command. -/
theorem apply_feed_comment (h : isComment (Text.trim line) = true) (m : Machine W) :
    (feed around line).apply m = (.ok .next, m) := by
  unfold feed
  dsimp only
  rw [if_pos h]
  rfl

/-- A verb that fails leaves nothing begun. -/
theorem apply_feed_verb {verb : Verb} (hv : Verb.ofLine? (Text.trim line) = some verb)
    (m : Machine W) :
    (feed around line).apply m =
      match (perform around verb (Text.trim line)).apply m with
        | (.ok flow, m') => (.ok flow, m')
        | (.error halt, m') => (.error halt, m'.withBuffer "") := by
  unfold feed
  dsimp only
  rw [if_neg (by simp [isComment_of_verb hv]), hv]
  dsimp only
  rw [apply_tryCatch]
  rcases (perform around verb (Text.trim line)).apply m with ⟨_ | _, m'⟩
  · exact apply_bind_of_ok (apply_change _ m')
  · rfl

/-- A line that is neither a comment nor a verb and does not end with a semicolon is put into the
buffer. -/
theorem apply_feed_part (hc : isComment (Text.trim line) = false)
    (hv : Verb.ofLine? (Text.trim line) = none) (he : Text.endsWith (Text.trim line) ';' = false)
    (m : Machine W) :
    (feed around line).apply m = (.ok .next, m.withBuffer (m.session.begun line)) := by
  unfold feed
  dsimp only
  rw [if_neg (by simp [hc]), hv]
  dsimp only
  rw [apply_bind_of_ok (apply_change _ m), if_neg (by simp [he])]
  rfl

/-- The line that completes a command carries it out with nothing begun any more. -/
theorem apply_feed_of_completes {m : Machine W} {command : String}
    (h : m.session.completes? line = some command) :
    (feed around line).apply m =
      (((execute around command).apply (m.withBuffer "")).1.map fun _ => .next,
        ((execute around command).apply (m.withBuffer "")).2) := by
  obtain ⟨hc, hv, he, rfl⟩ := completes?_eq_some_iff.1 h
  unfold feed
  dsimp only
  rw [if_neg (by simp [hc]), hv]
  dsimp only
  rw [apply_bind_of_ok (apply_begin line m), if_pos he, apply_bind_of_ok (apply_session _),
    apply_bind_of_ok (apply_dropBuffer _), Machine.withBuffer_withBuffer,
    Machine.withBuffer_session, apply_bind]
  rcases (execute around (Text.trim (m.session.begun line))).apply (m.withBuffer "") with
    ⟨_ | _, m'⟩
  · rfl
  · exact apply_pure _ m'

/-! ## Quiet lines -/

/-- A line that shows something or waits, and does nothing else: a comment, an echo or an
inspection, a sleep of a given time, or a connect command without settings. -/
def isQuiet (line : String) : Bool :=
  let line := Text.trim line
  isComment line || match Verb.ofLine? line with
    | some .echo | some .inspect => true
    | some .sleep => (sleepTime? line).isSome
    | some .connect => (Connection.ofCommand line).toOption.any (!·.isGiven)
    | _ => false

/-- A connect command without settings does nothing. -/
theorem says_connect (h : (Connection.ofCommand line).toOption.any (!·.isGiven) = true) :
    Says (connect around line) := by
  intro m
  refine ⟨m, ?_, isStepOrder_idles.refl m⟩
  rw [apply_connect]
  cases hc : Connection.ofCommand line with
  | error e => simp [hc, Except.toOption] at h
  | ok changes =>
    have hg : changes.isGiven = false := by simpa [hc, Except.toOption] using h
    exact if_neg (by simp [hg])

/-- A quiet line succeeds and changes nothing, whatever has been begun. -/
theorem apply_feed_of_isQuiet (h : isQuiet line = true) (m : Machine W) :
    ∃ m', (feed around line).apply m = (.ok .next, m') ∧ m.Idles m' := by
  rw [isQuiet, Bool.or_eq_true] at h
  rcases h with hc | h
  · exact ⟨m, apply_feed_comment hc m, isStepOrder_idles.refl m⟩
  · cases hv : Verb.ofLine? (Text.trim line) with
    | none => simp [hv] at h
    | some verb =>
      have hsays {a : Act W Unit} (ha : Says a)
          (hp : perform around verb (Text.trim line) = (a >>= fun _ => pure .next)) :
          ∃ m', (feed around line).apply m = (.ok .next, m') ∧ m.Idles m' := by
        obtain ⟨m', hm, hi⟩ := ha m
        refine ⟨m', ?_, hi⟩
        rw [apply_feed_verb hv, hp, apply_bind_of_ok hm]
        rfl
      rw [hv] at h
      cases verb with
      | echo => exact hsays (says_echo around _) rfl
      | inspect => exact hsays (says_inspect _) rfl
      | sleep =>
        obtain ⟨milliseconds, hs⟩ := Option.isSome_iff_exists.1 h
        exact hsays (says_sleep hs) rfl
      | connect => exact hsays (says_connect h) rfl
      | clear | exit | load => cases h

/-! ## Any line -/

/-- What a line does. -/
inductive Fed (around : Surroundings W) (line : String) (m : Machine W) :
    Except Halt Flow → Machine W → Prop
  | comment : isComment (Text.trim line) = true → Fed around line m (.ok .next) m
  /-- A verb succeeds. -/
  | verb {verb flow m'} : Verb.ofLine? (Text.trim line) = some verb →
      Performed around verb (Text.trim line) m (.ok flow) m' → Fed around line m (.ok flow) m'
  /-- A verb fails, and nothing stays begun. -/
  | failed {verb halt m'} : Verb.ofLine? (Text.trim line) = some verb →
      Performed around verb (Text.trim line) m (.error halt) m' →
      Fed around line m (.error halt) (m'.withBuffer "")
  | part : m.session.completes? line = none →
      Fed around line m (.ok .next) (m.withBuffer (m.session.begun line))
  | completed {command r m'} : m.session.completes? line = some command →
      Executed around command (m.withBuffer "") r m' → Fed around line m (r.map fun _ => .next) m'

/-- Whatever a line does is one of the five. -/
theorem fed (around : Surroundings W) (line : String) (m : Machine W) :
    Fed around line m ((feed around line).apply m).1 ((feed around line).apply m).2 := by
  cases hc : isComment (Text.trim line) with
  | true =>
    rw [apply_feed_comment hc]
    exact .comment hc
  | false =>
    cases hv : Verb.ofLine? (Text.trim line) with
    | some verb =>
      have hp := performed around verb (Text.trim line) m
      rw [apply_feed_verb hv]
      rcases hr : (perform around verb (Text.trim line)).apply m with ⟨_ | _, m'⟩ <;> rw [hr] at hp
      · exact .failed hv hp
      · exact .verb hv hp
    | none =>
      cases he : Text.endsWith (Text.trim line) ';' with
      | false =>
        rw [apply_feed_part hc hv he]
        exact .part (by simp [completes?, he])
      | true =>
        have h : m.session.completes? line = some (Text.trim (m.session.begun line)) :=
          completes?_eq_some_iff.2 ⟨hc, hv, he, rfl⟩
        rw [apply_feed_of_completes h]
        dsimp only
        exact .completed h (executed around _ _)

end Session

end TableShell
