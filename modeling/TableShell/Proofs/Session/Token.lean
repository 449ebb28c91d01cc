import TableShell.Proofs.CommandKind
import TableShell.Proofs.Session.Run

/-!
# Where a token comes from

The token of the last query, the history and the variables are changed by different commands.
`Machine.Effect` says once what a stimulus can do to the three of them together, and
`Machine.TokenSound` is the invariant that ties them: a token that the session keeps was given by
the last query of the trace, and the latest command of the history either carries that query out
again or is no query at all. Every reachable machine satisfies it (`Reachable.tokenSound`).
-/

namespace TableShell

/-! ## Traces -/

/-- The event shows a page that goes on at the token. -/
def Event.returns (token : String) : Event → Bool
  | .call _ (.execute ..) (.ok page) => page.nextToken == some token
  | _ => false

/-- The event is a query that goes on from the token. -/
def Event.forwards (token : String) (e : Event) : Bool :=
  (e.query?.bind (·.2.2)) == some token

/-- The last query of the trace was this statement with this limit. It succeeded, its page goes on
at the token, and no client was asked for after it. -/
def GoesOn (trace : List Event) (token statement : String) (limit : Option Int) : Prop :=
  ∃ earlier client start page between,
    trace = earlier ++ .call client (.execute statement limit start) (.ok page) :: between ∧
      page.nextToken = some token ∧ ∀ e ∈ between, e.isQuery = false ∧ e.isConnect = false

/-- What comes after the last query does not matter, unless it is a query or a connection. -/
theorem GoesOn.append {trace events : List Event} {token statement : String} {limit : Option Int}
    (h : GoesOn trace token statement limit)
    (he : ∀ e ∈ events, e.isQuery = false ∧ e.isConnect = false) :
    GoesOn (trace ++ events) token statement limit := by
  obtain ⟨earlier, client, start, page, between, rfl, hp, hb⟩ := h
  refine ⟨earlier, client, start, page, between ++ events, by simp, hp, fun e hmem => ?_⟩
  exact (List.mem_append.1 hmem).elim (hb e) (he e)

/-- What is no query returns no token. -/
theorem Event.returns_eq_false {e : Event} (h : e.isQuery = false) (token : String) :
    e.returns token = false := by
  cases e with
  | call client c outcome =>
    cases c with
    | execute s l t => cases h
    | describe | createTable | deleteTable | listTables | scanTable | deleteItem => rfl
  | report | connect | sleep | prompt => rfl

/-- What is no query forwards no token. -/
theorem Event.forwards_eq_false {e : Event} (h : e.isQuery = false) (token : String) :
    e.forwards token = false := by
  simp [forwards, query?_eq_none h]

/-- A statement forwards the token that it starts from. -/
@[simp] theorem Event.forwards_execute (token : String) (client : Connection) (statement : String)
    (limit : Option Int) (start : Option String) (outcome : Except Error ResultPage) :
    (Event.call client (.execute statement limit start) outcome).forwards token =
      (start == some token) := rfl

/-- If only queries count, events without a query count nothing. -/
theorem Event.countP_eq_zero {p : Event → Bool} {events : List Event}
    (hp : ∀ {e : Event}, e.isQuery = false → p e = false)
    (he : ∀ e ∈ events, e.isQuery = false ∧ e.isConnect = false) : events.countP p = 0 := by
  rw [List.countP_eq_zero]
  exact fun e hmem => by simp [hp (he e hmem).1]

/-- If one query was added and then events that are no queries, a query among them is the one. -/
theorem eq_of_cons_eq_append {e e' : Event} {events before rest : List Event}
    (h : e :: events = before ++ e' :: rest) (he' : e'.isQuery = true)
    (he : ∀ e ∈ events, e.isQuery = false) : before = [] ∧ e' = e := by
  cases before with
  | nil => exact ⟨rfl, (List.cons.inj h).1.symm⟩
  | cons b before =>
    have hmem : e' ∈ events := by rw [(List.cons.inj h).2]; simp
    simp [he e' hmem] at he'

namespace Machine

variable {W : Type}

/-- The events added are neither queries nor connections. -/
def Quiet (m m' : Machine W) : Prop :=
  ∃ events, m'.trace = m.trace ++ events ∧ ∀ e ∈ events, e.isQuery = false ∧ e.isConnect = false

/-- Plain events are quiet. -/
theorem Adds.quiet {m m' : Machine W} (h : m.Adds m') : m.Quiet m' := by
  obtain ⟨events, ht, he⟩ := h.trace
  refine ⟨events, ht, fun e hmem => ?_⟩
  obtain ⟨hquery, hconnect, -⟩ := Event.isPlain_iff.1 (he e hmem)
  exact ⟨hquery, hconnect⟩

/-- Between machines with the same trace nothing happened. -/
theorem quiet_of_trace_eq {m m' : Machine W} (h : m'.trace = m.trace) : m.Quiet m' :=
  ⟨[], by simp [h], by simp⟩

/-- What a stimulus does to the token, the history, the variables and the trace. -/
inductive Effect (around : Surroundings W) (m m' : Machine W) : Prop
  /-- It leaves the three as they are. -/
  | aside : m'.session.nextToken = m.session.nextToken →
      m'.session.history = m.session.history → m'.session.bindings = m.session.bindings →
      m.Quiet m' → Effect around m m'
  /-- A command that is no query is remembered. -/
  | recorded {command} : CommandKind.ofCommand command ∉ [.again, .query] →
      m'.session.nextToken = m.session.nextToken →
      m'.session.history = m.session.history.push command → m.Quiet m' → Effect around m m'
  /-- A client is asked for. -/
  | connected {connection outcome} : m'.session.nextToken = none →
      m'.trace = m.trace ++ [.connect connection outcome] → Effect around m m'
  /-- A query is carried out, of its own or as the latest command again. -/
  | queried {command token r buffer} :
      token = none ∨
        (m.session.history.latest? = some command ∧ token = m.session.nextToken) →
      Session.Queried around command token (m.withBuffer buffer) r m' → Effect around m m'

end Machine

namespace Session

open Act Machine

variable {W : Type} {around : Surroundings W} {m m' : Machine W} {line command : String}

/-- Plain events have no effect on the token, with any buffer. -/
theorem effect_of_adds (h : m.Adds m') (buffer : String) :
    Effect around m (m'.withBuffer buffer) := by
  obtain ⟨events, ht, he⟩ := h.quiet
  exact .aside (by simp [h.session]) (by simp [h.session]) (by simp [h.session]) ⟨events, ht, he⟩

/-- A command that was executed has one of the effects. -/
theorem Executed.effect {buffer : String} {r : Except Halt Unit}
    (h : Executed around command (m.withBuffer buffer) r m') : Effect around m m' := by
  cases h with
  | kept h =>
    refine .aside ?_ ?_ ?_ h.quiet <;> rw [h.session] <;> rfl
  | recorded hk h =>
    have hk : CommandKind.ofCommand command ∉ [.again, .query] := fun hq => hk (by simp_all)
    refine .recorded hk ?_ ?_ h.quiet <;> rw [h.session] <;> rfl
  | assigned hk ha =>
    have hk : CommandKind.ofCommand command ∉ [.again, .query] := by simp [hk]
    exact .recorded hk rfl rfl (quiet_of_trace_eq rfl)
  | queried hk h => exact .queried (.inl rfl) h
  | again hk hl h => exact .queried (.inr ⟨hl, rfl⟩) h

/-- A verb that was performed has one of the effects. -/
theorem Performed.effect {verb : Verb} {r : Except Halt Flow}
    (h : Performed around verb line m r m') (buffer : String) :
    Effect around m (m'.withBuffer buffer) := by
  cases h with
  | kept h => exact effect_of_adds h buffer
  | cleared => exact effect_of_adds (keeps_adds_report (r := .clear) rfl m) buffer
  | loaded => exact .aside rfl rfl rfl (quiet_of_trace_eq rfl)
  | refused => exact .connected rfl rfl
  | connected => exact .connected rfl rfl

/-- A line that was fed has one of the effects. -/
theorem Fed.effect {r : Except Halt Flow} (h : Fed around line m r m') : Effect around m m' := by
  cases h with
  | comment => exact effect_of_adds (isStepOrder_adds.refl m) m.session.buffer
  | verb _ hp => exact hp.effect m'.session.buffer
  | failed _ hp => exact hp.effect ""
  | part => exact .aside rfl rfl rfl (quiet_of_trace_eq rfl)
  | completed _ he => exact he.effect

end Session

namespace Machine

open Session Act

variable {W : Type} {around : Surroundings W} {m m' : Machine W}

/-- Every stimulus has one of the four effects. -/
theorem effect_after (m : Machine W) (around : Surroundings W) (stimulus : Stimulus W) :
    Effect around m (m.after around stimulus) := by
  cases stimulus with
  | feed line => exact (m.after_feed around line) ▸ (fed around line m).effect
  | execute command =>
    have h : Executed around command (m.withBuffer m.session.buffer) _ _ :=
      executed around command m
    exact h.effect
  | load path =>
    change Effect around m ((loadScript around path).apply m).2
    rw [apply_loadScript]
    cases Script.load around.file? path <;> exact .aside rfl rfl rfl (quiet_of_trace_eq rfl)
  | world | scriptLine | interrupt => exact .aside rfl rfl rfl (quiet_of_trace_eq rfl)
  | complain text =>
    exact effect_of_adds (keeps_adds_report (r := .error text) rfl m) m.session.buffer
  | prompt =>
    exact effect_of_adds (keeps_adds_emit (e := .prompt m.session.prompt) rfl m) m.session.buffer

/-! ## The invariant -/

/-- The command is no query, or it has been read as this statement with this limit while the
variables were these. -/
def Repeats (around : Surroundings W) (vars : Variables) (command statement : String)
    (limit : Option Int) : Prop :=
  CommandKind.ofCommand command ∉ [.again, .query] ∨
    Text.trim command ≠ "" ∧ ∃ drawn q,
      Query.ofSource (vars.substitute around.supply drawn command).1 = .ok q ∧
        q.statement = statement ∧ q.effectiveLimit = limit

/-- If the command reads as a query now, it has been read as one. -/
theorem Repeats.of_ofSource {vars : Variables} {command statement : String} {limit : Option Int}
    {drawn : Nat} {q : Query} (h : Repeats around vars command statement limit)
    (hq : Query.ofSource (vars.substitute around.supply drawn command).1 = .ok q) :
    Text.trim command ≠ "" ∧
      (Template.IsFixed command → statement = q.statement ∧ limit = q.effectiveLimit) := by
  rcases h with hk | ⟨hne, drawn', q', hq', rfl, rfl⟩
  · rw [CommandKind.ofSource_substitute_of_not_query hk] at hq
    cases hq
  · refine ⟨hne, fun hf => ?_⟩
    rw [Variables.substitute_of_isFixed hf _ _ drawn' drawn] at hq'
    cases hq.symm.trans hq'
    exact ⟨rfl, rfl⟩

/-- The token that the session keeps goes on with the last query, and the latest command is that
query or none. A token that is kept has been returned more often than forwarded. -/
structure TokenSound (around : Surroundings W) (m : Machine W) : Prop where
  goesOn : ∀ token, m.session.nextToken = some token →
    ∃ command statement limit, m.session.history.latest? = some command ∧
      GoesOn m.trace token statement limit ∧
      Repeats around m.session.bindings command statement limit
  spent : ∀ token,
    m.trace.countP (Event.forwards token) + (if m.session.nextToken = some token then 1 else 0) ≤
      m.trace.countP (Event.returns token)

/-- Between quiet machines the number of queries of any kind stays the same. -/
theorem countP_of_quiet {p : Event → Bool} (hp : ∀ {e}, e.isQuery = false → p e = false)
    (h : m.Quiet m') : m'.trace.countP p = m.trace.countP p := by
  obtain ⟨events, ht, he⟩ := h
  rw [ht, List.countP_append, Event.countP_eq_zero hp he, Nat.add_zero]

/-- After an effect on a sound machine, a token goes on with the latest query. -/
theorem TokenSound.goesOn_of_effect (h : TokenSound around m) (he : Effect around m m')
    {token : String} (ht : m'.session.nextToken = some token) :
    ∃ command statement limit, m'.session.history.latest? = some command ∧
      GoesOn m'.trace token statement limit ∧
      Repeats around m'.session.bindings command statement limit := by
  cases he with
  | aside hn hh hb hq =>
    obtain ⟨events, htrace, hev⟩ := hq
    obtain ⟨command, statement, limit, hl, hgo, hr⟩ := h.goesOn token (hn ▸ ht)
    rw [hh, hb, htrace]
    exact ⟨command, statement, limit, hl, hgo.append hev, hr⟩
  | @recorded command hk hn hh hq =>
    obtain ⟨events, htrace, hev⟩ := hq
    obtain ⟨-, statement, limit, -, hgo, -⟩ := h.goesOn token (hn ▸ ht)
    rw [hh, htrace]
    exact ⟨command, statement, limit, by simp, hgo.append hev, .inl hk⟩
  | connected hn _ => cases hn ▸ ht
  | @queried command start _ buffer _ hq =>
    cases hq with
    | blank | unread | failed => cases ht
    | @paged q page hne hr ha =>
      have hp : page.nextToken = some token := by simpa using ht
      have hread : Repeats around m.session.bindings command q.statement q.effectiveLimit :=
        .inr ⟨hne, m.drawn, q, hr, rfl, rfl⟩
      refine ⟨command, q.statement, q.effectiveLimit, by simp, ?_, by simpa using hread⟩
      refine ⟨m.trace, m.session.client, start, page, page.events, ?_, hp,
        fun e => ResultPage.isQuery_of_mem_events⟩
      simp [ha]

/-- After an effect on a sound machine, no token was forwarded more often than it was returned, one
that is kept included. -/
theorem TokenSound.spent_of_effect (h : TokenSound around m) (he : Effect around m m')
    (token : String) :
    m'.trace.countP (Event.forwards token) +
        (if m'.session.nextToken = some token then 1 else 0) ≤
      m'.trace.countP (Event.returns token) := by
  have hs := h.spent token
  cases he with
  | aside hn _ _ hq | recorded _ hn _ hq =>
    rw [countP_of_quiet (Event.forwards_eq_false · token) hq,
      countP_of_quiet (Event.returns_eq_false · token) hq, hn]
    exact hs
  | connected hn ht =>
    rw [hn, ht]
    simp [Event.forwards, Event.query?, Event.returns]
    omega
  | @queried command start _ buffer hstart hq =>
    have hpending : (if start = some token then 1 else 0) ≤
        if m.session.nextToken = some token then 1 else 0 := by
      rcases hstart with rfl | ⟨-, rfl⟩ <;> simp
    cases hq with
    | blank | unread => exact Nat.le_trans (Nat.le_add_right _ _) hs
    | @failed q e hne hr ha =>
      simp only [sent_trace, sent_session, withBuffer_session, withBuffer_trace, ha,
        List.countP_append, List.countP_singleton, Event.forwards_execute, beq_iff_eq,
        Event.returns, reduceCtorEq, if_false, Bool.false_eq_true]
      omega
    | @paged q page hne hr ha =>
      have hno : ∀ e ∈ page.events, e.isQuery = false ∧ e.isConnect = false :=
        fun _ => ResultPage.isQuery_of_mem_events
      have hf := Event.countP_eq_zero (Event.forwards_eq_false · token) hno
      have hr := Event.countP_eq_zero (Event.returns_eq_false · token) hno
      simp only [recorded_trace, shown_trace, sent_trace, withBuffer_session, withBuffer_trace, ha,
        List.countP_append, List.countP_singleton, Event.forwards_execute, beq_iff_eq,
        Event.returns, recorded_session, shown_session, sent_session, Option.or_none, hf, hr]
      omega

/-- Every stimulus keeps a machine sound. -/
theorem TokenSound.after (h : TokenSound around m) (stimulus : Stimulus W) :
    TokenSound around (m.after around stimulus) :=
  have he := m.effect_after around stimulus
  ⟨fun _ => h.goesOn_of_effect he, h.spent_of_effect he⟩

/-- A session starts without a token. -/
theorem tokenSound_of_start {config : Config} {world : W}
    (h : Machine.start around config world = .ok m) : TokenSound around m := by
  unfold Machine.start at h
  split at h
  · cases h
  · split at h
    · cases h
    · cases h
      exact ⟨nofun, fun token => Nat.le_refl 0⟩

end Machine

namespace Machine

open Session Act

variable {W : Type} {around : Surroundings W} {m m' : Machine W}

/-- The trace only grows. -/
theorem Effect.exists_trace (he : Effect around m m') :
    ∃ events, m'.trace = m.trace ++ events := by
  cases he with
  | aside _ _ _ hq | recorded _ _ _ hq => exact hq.imp fun _ h => h.1
  | connected _ ht => exact ⟨_, ht⟩
  | queried _ hq =>
    cases hq with
    | blank | unread => exact ⟨[], (List.append_nil _).symm⟩
    | failed => exact ⟨_, rfl⟩
    | paged => exact ⟨_, List.append_assoc _ _ _⟩

/-- If a call goes on from a token, it is the latest command that is carried out again, and the
token is the one that the session kept. -/
theorem Effect.of_call (he : Effect around m m') {client : Connection} {statement token : String}
    {limit : Option Int} {outcome : Except Error ResultPage} {before rest : List Event}
    (ht : m'.trace =
      m.trace ++ before ++ .call client (.execute statement limit (some token)) outcome :: rest) :
    before = [] ∧ m.session.nextToken = some token ∧
      ∃ command q, m.session.history.latest? = some command ∧
        Query.ofSource (m.expansion around command) = .ok q ∧
        q.statement = statement ∧ q.effectiveLimit = limit := by
  have hcall : (Event.call client (.execute statement limit (some token)) outcome).isQuery = true :=
    rfl
  rw [List.append_assoc] at ht
  have hno {events : List Event} (htrace : m'.trace = m.trace ++ events)
      (hev : ∀ e ∈ events, e.isQuery = false) : False := by
    rw [htrace] at ht
    have := hev (.call client (.execute statement limit (some token)) outcome)
      (by rw [List.append_cancel_left ht]; simp)
    rw [hcall] at this
    cases this
  have hone {start : Option String} {q : Query} {answer : Except Error ResultPage}
      {events : List Event}
      (htrace : m'.trace = m.trace ++
        .call m.session.client (.execute q.statement q.effectiveLimit start) answer :: events)
      (hev : ∀ e ∈ events, e.isQuery = false) :
      before = [] ∧ start = some token ∧ q.statement = statement ∧ q.effectiveLimit = limit := by
    rw [htrace] at ht
    obtain ⟨hb, hc⟩ := eq_of_cons_eq_append (List.append_cancel_left ht) hcall hev
    simp only [Event.call.injEq, Call.execute.injEq] at hc
    obtain ⟨-, ⟨hs, hl, hstart⟩, -⟩ := hc
    exact ⟨hb, hstart.symm, hs.symm, hl.symm⟩
  cases he with
  | aside _ _ _ hq | recorded _ _ _ hq =>
    obtain ⟨events, htrace, hev⟩ := hq
    exact (hno htrace fun e he => (hev e he).1).elim
  | connected _ htrace => exact (hno htrace (by simp [Event.isQuery, Event.query?])).elim
  | @queried command start _ buffer hstart hq =>
    have hlatest (h : start = some token) :
        m.session.nextToken = some token ∧ m.session.history.latest? = some command := by
      rcases hstart with rfl | ⟨hl, rfl⟩
      · cases h
      · exact ⟨h, hl⟩
    cases hq with
    | blank | unread => exact (hno (List.append_nil _).symm (by simp)).elim
    | @failed q e hne hr ha =>
      obtain ⟨hb, hs, hq, hl⟩ := hone (sent_trace _ _ _ _ _) (by simp)
      obtain ⟨hn, hlat⟩ := hlatest hs
      exact ⟨hb, hn, command, q, hlat, hr, hq, hl⟩
    | @paged q page hne hr ha =>
      have htrace : ((((m.withBuffer buffer).sent around command q start).shown page).recorded
          command).trace = m.trace ++
            .call m.session.client (.execute q.statement q.effectiveLimit start) (.ok page) ::
              page.events := by simp [ha]
      obtain ⟨hb, hs, hq, hl⟩ := hone htrace fun e he => (ResultPage.isQuery_of_mem_events he).1
      obtain ⟨hn, hlat⟩ := hlatest hs
      exact ⟨hb, hn, command, q, hlat, hr, hq, hl⟩

/-- A connect command with a setting asks for a client, and the trace shows it. -/
theorem trace_after_connect {line : String} {changes : Connection}
    (hv : Verb.ofLine? (Text.trim line) = some .connect)
    (hc : Connection.ofCommand (Text.trim line) = .ok changes) (hg : changes.isGiven = true)
    (m : Machine W) :
    ∃ connection outcome,
      (m.after around (.feed line)).trace = m.trace ++ [.connect connection outcome] := by
  refine ⟨(m.overlaid changes).session.connection, (m.overlaid changes).link around, ?_⟩
  rw [after_feed_connect hv hc hg]
  cases hl : (m.overlaid changes).link around <;> simp [hl]

end Machine

open Machine in
/-- Whatever a session has been through, its token goes on with the last query. -/
theorem Reachable.tokenSound {W : Type} {around : Surroundings W} {m : Machine W}
    (h : Reachable around m) : TokenSound around m := by
  induction h with
  | start hs => exact tokenSound_of_start hs
  | step stimulus _ ih => exact ih.after stimulus

section

open Machine

variable {W : Type} {around : Surroundings W} {m : Machine W}

/-- Whenever a call goes on from a token, the query before it succeeded and returned that token, and
no client was asked for in between; the call carries out the latest command of the history, which,
without reserved names, makes the statement and the limit of that query once more. No token is
forwarded more often than it was returned. A connect command with a setting always shows in the
trace, whether or not there is a client for it. -/
theorem Reachable.continuation (h : Reachable around m) :
    (∀ {stimulus client statement limit token outcome before rest},
      (m.after around stimulus).trace = m.trace ++ before ++
          .call client (.execute statement limit (some token)) outcome :: rest →
        ∃ command q statement' limit', m.session.history.latest? = some command ∧
          Query.ofSource (m.expansion around command) = .ok q ∧
          q.statement = statement ∧ q.effectiveLimit = limit ∧
          GoesOn (m.trace ++ before) token statement' limit' ∧
          (Template.IsFixed command → statement' = statement ∧ limit' = limit)) ∧
    (∀ token,
      m.trace.countP (Event.forwards token) ≤ m.trace.countP (Event.returns token)) ∧
    ∀ {line changes}, Verb.ofLine? (Text.trim line) = some .connect →
      Connection.ofCommand (Text.trim line) = .ok changes → changes.isGiven = true →
        ∃ connection outcome,
          (m.after around (.feed line)).trace = m.trace ++ [.connect connection outcome] := by
  refine ⟨fun {stimulus client statement limit token outcome before rest} ht => ?_, fun token => ?_,
    fun hv hc hg => trace_after_connect hv hc hg m⟩
  · obtain ⟨rfl, hn, command, q, hl, hq, hs, hlim⟩ := (effect_after m around stimulus).of_call ht
    obtain ⟨command', statement', limit', hl', hgo, hread⟩ := h.tokenSound.goesOn token hn
    cases hl.symm.trans hl'
    refine ⟨command, q, statement', limit', hl, hq, hs, hlim, by simpa using hgo, fun hf => ?_⟩
    obtain ⟨hs', hlim'⟩ := (hread.of_ofSource hq).2 hf
    exact ⟨hs'.trans hs, hlim'.trans hlim⟩
  · exact Nat.le_trans (Nat.le_add_right _ _) (h.tokenSound.spent token)

/-- In memory, `run;` after a query goes on from the token of its page. -/
theorem continuation_second_page :
    let m := (Machine.over { results := [.ok { nextToken := some "t" }] }).after inMemory
      (.feed "SELECT * FROM a.b;")
    Reachable inMemory m ∧ ∃ before client outcome rest,
      (m.after inMemory (.feed "run;")).trace = m.trace ++ before ++
          .call client (.execute "SELECT * FROM \"a.b\" ;" none (some "t")) outcome :: rest ∧
        ∃ command q statement limit, m.session.history.latest? = some command ∧
          Query.ofSource (m.expansion inMemory command) = .ok q ∧
          q.statement = "SELECT * FROM \"a.b\" ;" ∧ q.effectiveLimit = none ∧
          GoesOn (m.trace ++ before) "t" statement limit ∧
          (Template.IsFixed command → statement = "SELECT * FROM \"a.b\" ;" ∧ limit = none) := by
  intro m
  have hm : Reachable inMemory m := (reachable_inMemory _).step _
  obtain ⟨events, hevents⟩ := (effect_after m inMemory (.feed "run;")).exists_trace
  have hcalls : (m.after inMemory (.feed "run;")).trace.filterMap Event.query? =
      m.trace.filterMap Event.query? ++ [("SELECT * FROM \"a.b\" ;", none, some "t")] := by
    decide +kernel
  rw [hevents, List.filterMap_append] at hcalls
  obtain ⟨before, e, rest, rfl, -, he, -⟩ :=
    List.filterMap_eq_cons_iff.1 (List.append_cancel_left hcalls)
  obtain ⟨client, outcome, rfl⟩ := Event.exists_eq_call he
  have htrace := hevents.trans (List.append_assoc m.trace before _).symm
  exact ⟨hm, before, client, outcome, rest, htrace, hm.continuation.1 htrace⟩

end

end TableShell
