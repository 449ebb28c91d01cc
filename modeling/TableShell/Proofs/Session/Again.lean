import TableShell.Proofs.Session.Token

/-!
# The latest command again

`run;` takes the token of the last query, but it carries out the latest command of the history, and
all kinds of commands share that history. So it fetches the next page exactly if no other command
was carried out since (`Session.again_queries_iff`). After any other command it is refused, although
the help says that it fetches the next page of the last query, and the token is lost.
-/

namespace TableShell

/-- After commands were pushed the latest entry is the last of them, or the one before if there was
none. -/
theorem History.latest?_foldl_push (commands : List String) (h : History) :
    (commands.foldl push h).latest? = commands.getLast?.or h.latest? := by
  induction commands generalizing h with
  | nil => rfl
  | cons command commands ih =>
    rw [List.foldl_cons, ih, latest?_push, List.getLast?_cons]
    cases commands.getLast? <;> rfl

namespace Session

open Act Machine

variable {W : Type} {around : Surroundings W} {m m' : Machine W} {command : String}

/-- A command that is no query and succeeds is remembered and leaves the token. -/
theorem Executed.of_not_query (hk : CommandKind.ofCommand command ∉ [.again, .query])
    (h : Executed around command m (.ok ()) m') :
    m'.session.nextToken = m.session.nextToken ∧
      m'.session.history = m.session.history.push command := by
  cases h with
  | recorded _ h => rw [h.session]; exact ⟨rfl, rfl⟩
  | assigned => exact ⟨rfl, rfl⟩
  | queried hq | again hq => exact absurd (by simp [hq]) hk

/-- So do any number of them. -/
theorem forM_execute_of_not_query {commands : List String}
    (hk : ∀ command ∈ commands, CommandKind.ofCommand command ∉ [.again, .query])
    (h : (commands.forM (execute around)).apply m = (.ok (), m')) :
    m'.session.nextToken = m.session.nextToken ∧
      m'.session.history = commands.foldl History.push m.session.history := by
  induction commands generalizing m with
  | nil => cases h; exact ⟨rfl, rfl⟩
  | cons command commands ih =>
    obtain ⟨hk, hks⟩ := List.forall_mem_cons.1 hk
    have he := executed around command m
    rcases hr : (execute around command).apply m with ⟨_ | ⟨⟩, m₁⟩ <;> rw [hr] at he
    · cases (apply_bind_of_error hr).symm.trans h
    · obtain ⟨ht₁, hh₁⟩ := he.of_not_query hk
      obtain ⟨ht, hh⟩ := ih hks ((apply_bind_of_ok hr).symm.trans h)
      exact ⟨ht.trans ht₁, by rw [hh, hh₁, List.foldl_cons]⟩

/-- A command that is no query is refused as one, whatever the variables are. No call is made, and
the token is gone. -/
theorem Queried.of_not_query {token : Option String} {r : Except Halt Unit}
    (hk : CommandKind.ofCommand command ∉ [.again, .query])
    (h : Queried around command token m r m') :
    (∃ text, r = .error (.failed (.unsupported text))) ∧ m'.trace = m.trace ∧
      m'.session.nextToken = none := by
  have hno := CommandKind.ofSource_substitute_of_not_query hk m.session.bindings around.supply
    m.drawn
  cases h with
  | blank => exact ⟨⟨"", rfl⟩, rfl, rfl⟩
  | unread _ hq =>
    cases hno.symm.trans hq
    exact ⟨⟨_, rfl⟩, rfl, rfl⟩
  | failed _ hq | paged _ hq => cases hno.symm.trans hq

/-- What `run;` does. -/
theorem queried_run {latest : String} (hl : m.session.history.latest? = some latest) :
    Queried around latest m.session.nextToken m (m.outcome around (.execute "run;"))
      (m.after around (.execute "run;")) := by
  rw [outcome_execute, after_execute, apply_execute_run hl]
  exact queried around latest _ m

/-- Where the latest command is a query and the session keeps a token, `run;` carries out that query
from the token. -/
theorem trace_after_run (h : Reachable around m) {c token : String} {q : Query}
    (hl : m.session.history.latest? = some c) (ht : m.session.nextToken = some token)
    (hq : Query.ofSource (m.expansion around c) = .ok q) :
    ∃ client outcome rest, (m.after around (.execute "run;")).trace = m.trace ++
      .call client (.execute q.statement q.effectiveLimit (some token)) outcome :: rest := by
  obtain ⟨c', statement, limit, hl', -, hread⟩ := h.tokenSound.goesOn token ht
  cases hl.symm.trans hl'
  have hrun : Queried around c _ m (m.outcome around (.execute "run;")) _ := queried_run hl
  rw [ht] at hrun
  generalize m.outcome around (.execute "run;") = r at hrun
  generalize m.after around (.execute "run;") = m' at hrun ⊢
  cases hrun with
  | blank hb => exact absurd hb (hread.of_ofSource hq).1
  | unread _ hr => cases hq.symm.trans hr
  | failed _ hr =>
    cases hq.symm.trans hr
    exact ⟨_, _, [], sent_trace _ _ _ _ _⟩
  | @paged _ page _ hr hp =>
    cases hq.symm.trans hr
    exact ⟨m.session.client, .ok page, page.events, by simp [hp]⟩

/-- After a query that left a token, and after any other commands that were carried out since,
`run;` carries out the query from the token exactly if there were no such commands. Otherwise it is
refused without a call, and the token is gone. -/
theorem again_queries_iff (h : Reachable around m) {c token : String} {q : Query}
    {commands : List String} (hl : m.session.history.latest? = some c)
    (ht : m.session.nextToken = some token)
    (hq : Query.ofSource (m.expansion around c) = .ok q)
    (hk : ∀ command ∈ commands, CommandKind.ofCommand command ∉ [.again, .query])
    (hok : (commands.forM (execute around)).apply m = (.ok (), m')) :
    ((∃ client outcome rest, (m'.after around (.execute "run;")).trace = m'.trace ++
        .call client (.execute q.statement q.effectiveLimit (some token)) outcome :: rest) ↔
      commands = []) ∧
    (commands ≠ [] →
      (∃ text, m'.outcome around (.execute "run;") = .error (.failed (.unsupported text))) ∧
        (m'.after around (.execute "run;")).trace = m'.trace ∧
        (m'.after around (.execute "run;")).session.nextToken = none) := by
  have hrefused (hne : commands ≠ []) :
      (∃ text, m'.outcome around (.execute "run;") = .error (.failed (.unsupported text))) ∧
        (m'.after around (.execute "run;")).trace = m'.trace ∧
        (m'.after around (.execute "run;")).session.nextToken = none := by
    have hlast : m'.session.history.latest? = some (commands.getLast hne) := by
      rw [(forM_execute_of_not_query hk hok).2, History.latest?_foldl_push,
        List.getLast?_eq_some_getLast hne]
      rfl
    exact (queried_run hlast).of_not_query (hk _ (List.getLast_mem hne))
  refine ⟨⟨?_, ?_⟩, hrefused⟩
  · rintro ⟨client, outcome, rest, htrace⟩
    refine Decidable.byContradiction fun hne => ?_
    rw [(hrefused hne).2.1] at htrace
    simp at htrace
  · rintro rfl
    cases hok
    exact trace_after_run h hl ht hq

/-- In memory, `SHOW TABLES;` after a query with another page keeps `run;` from fetching it. -/
theorem again_queries_iff_after_listing :
    ∃ m m', Reachable inMemory m ∧ m.session.nextToken = some "t" ∧
      (execute inMemory "SHOW TABLES;").apply m = (.ok (), m') ∧
      (¬ ∃ client outcome rest, (m'.after inMemory (.execute "run;")).trace = m'.trace ++
        .call client (.execute "SELECT * FROM \"a.b\" ;" none (some "t")) outcome :: rest) ∧
      (m'.after inMemory (.execute "run;")).session.nextToken = none := by
  obtain ⟨m, hm, hl, ht, hq, hshow⟩ : ∃ m, Reachable inMemory m ∧
      m.session.history.latest? = some "SELECT * FROM a.b;" ∧ m.session.nextToken = some "t" ∧
      Query.ofSource (m.expansion inMemory "SELECT * FROM a.b;") =
        .ok ⟨"SELECT * FROM \"a.b\" ;", none⟩ ∧
      ((execute inMemory "SHOW TABLES;").apply m).1 = .ok () :=
    ⟨(Machine.over { results := [.ok { nextToken := some "t" }] }).after inMemory
        (.feed "SELECT * FROM a.b;"), (reachable_inMemory _).step _, by decide +kernel,
      by decide +kernel, eq_ok_of_toOption (by decide +kernel),
      eq_ok_of_toOption (by decide +kernel)⟩
  rcases hr : (execute inMemory "SHOW TABLES;").apply m with ⟨r, m'⟩
  rw [hr] at hshow
  cases hshow
  have hok : (["SHOW TABLES;"].forM (execute inMemory)).apply m = (.ok (), m') :=
    apply_bind_of_ok hr
  have h := again_queries_iff hm hl ht hq (by decide) hok
  exact ⟨m, m', hm, ht, hr, fun hcall => absurd (h.1.1 hcall) (by decide), (h.2 (by decide)).2.2⟩

end Session

end TableShell
