import TableShell.Proofs.Session.Again
import TableShell.Proofs.Session.Expansion

/-!
# The next page after a failure

`run;` takes the token of the last query out of the session before it asks the service for the next
page, and does not put it back if the service fails. The query is still the latest command of the
history, so the next `run;` carries it out again, but from its start. The help says that `run;`
fetches the next page of the last query; after a failure it does so exactly if there was no token
(`Session.retry_goes_on_iff`).
-/

namespace TableShell

namespace Session

open Act Machine

variable {W : Type} {around : Surroundings W} {m : Machine W} {c : String} {q : Query}

/-- A command that is sent as a query is not blank. -/
theorem ne_blank_of_ofSource (hq : Query.ofSource (m.expansion around c) = .ok q) :
    Text.trim c ≠ "" := by
  intro hb
  rw [expansion_of_blank hb, Query.ofSource_of_blank hb] at hq
  cases hq

/-- If the latest command is a query, `run;` makes its call with the token that the session keeps,
and fails only if the service does. -/
theorem run_of_ofSource (hl : m.session.history.latest? = some c)
    (hq : Query.ofSource (m.expansion around c) = .ok q) :
    (∃ rest, (m.after around (.execute "run;")).trace = m.trace ++
      .call m.session.client (.execute q.statement q.effectiveLimit m.session.nextToken)
        (m.answer around (.execute q.statement q.effectiveLimit m.session.nextToken)) :: rest) ∧
    ∀ e, m.answer around (.execute q.statement q.effectiveLimit m.session.nextToken) = .error e →
      m.outcome around (.execute "run;") = .error (.failed e) ∧
        m.after around (.execute "run;") = m.sent around c q m.session.nextToken := by
  have hrun : Queried around c _ m (m.outcome around (.execute "run;")) _ := queried_run hl
  generalize m.outcome around (.execute "run;") = r at hrun ⊢
  generalize m.after around (.execute "run;") = m' at hrun ⊢
  cases hrun with
  | blank hb => exact absurd hb (ne_blank_of_ofSource hq)
  | unread _ hr => cases hq.symm.trans hr
  | failed _ hr hp =>
    cases hq.symm.trans hr
    refine ⟨⟨[], sent_trace _ _ _ _ _⟩, fun e he => ?_⟩
    cases hp.symm.trans he
    exact ⟨rfl, rfl⟩
  | @paged _ page _ hr hp =>
    cases hq.symm.trans hr
    refine ⟨⟨page.events, ?_⟩, fun e he => ?_⟩
    · rw [recorded_trace, shown_trace, sent_trace, List.append_assoc]
      rfl
    · cases hp.symm.trans he

/-- A session whose latest command is a query asks for the next page, and the service fails. Then
the session has lost its token and is otherwise the same, and the next `run;` carries out the query
from its start, whatever has happened to the world. So it makes the call that failed once more
exactly if there was no token to lose. The query, if it refers to no reserved name, is the one that
returned the token. -/
theorem retry_goes_on_iff (h : Reachable around m) {e : Error}
    (hl : m.session.history.latest? = some c)
    (hq : Query.ofSource (m.expansion around c) = .ok q)
    (ha : m.answer around (.execute q.statement q.effectiveLimit m.session.nextToken) = .error e) :
    m.outcome around (.execute "run;") = .error (.failed e) ∧
    (m.after around (.execute "run;")).trace = m.trace ++
      [.call m.session.client (.execute q.statement q.effectiveLimit m.session.nextToken)
        (.error e)] ∧
    (m.after around (.execute "run;")).session = { m.session with nextToken := none } ∧
    (Template.IsFixed c →
      (∀ token, m.session.nextToken = some token →
        GoesOn m.trace token q.statement q.effectiveLimit) ∧
      ∀ m₂ : Machine W, m₂.session = (m.after around (.execute "run;")).session →
        (∃ outcome rest, (m₂.after around (.execute "run;")).trace = m₂.trace ++
          .call m.session.client (.execute q.statement q.effectiveLimit none) outcome :: rest) ∧
        ((∃ outcome rest, (m₂.after around (.execute "run;")).trace = m₂.trace ++
          .call m.session.client (.execute q.statement q.effectiveLimit m.session.nextToken)
            outcome :: rest) ↔ m.session.nextToken = none)) := by
  obtain ⟨hfailed, hafter⟩ := (run_of_ofSource hl hq).2 e ha
  have hsession : (m.after around (.execute "run;")).session =
      { m.session with nextToken := none } := by rw [hafter, sent_session]
  have htrace : (m.after around (.execute "run;")).trace = m.trace ++
      [.call m.session.client (.execute q.statement q.effectiveLimit m.session.nextToken)
        (.error e)] := by
    rw [hafter, sent_trace]
    exact congrArg (fun r => m.trace ++ [Event.call m.session.client _ r]) ha
  refine ⟨hfailed, htrace, hsession, fun hfixed => ⟨fun token ht => ?_, fun m₂ hm₂ => ?_⟩⟩
  · obtain ⟨c', statement, limit, hl', hgo, hread⟩ := h.tokenSound.goesOn token ht
    cases hl.symm.trans hl'
    obtain ⟨rfl, rfl⟩ := (hread.of_ofSource hq).2 hfixed
    exact hgo
  · rw [hsession] at hm₂
    have hq₂ : Query.ofSource (m₂.expansion around c) = .ok q := by
      rw [← hq, expansion, expansion, hm₂, Variables.substitute_of_isFixed hfixed]
    have hl₂ : m₂.session.history.latest? = some c := by rw [hm₂, hl]
    obtain ⟨rest, hrest⟩ := (run_of_ofSource hl₂ hq₂).1
    rw [hm₂] at hrest
    refine ⟨⟨_, rest, hrest⟩, ?_, ?_⟩
    · rintro ⟨outcome, rest', hrest'⟩
      rw [hrest] at hrest'
      have hcall := (List.cons.inj (List.append_cancel_left hrest')).1
      simp only [Event.call.injEq, Call.execute.injEq] at hcall
      exact hcall.2.1.2.2.symm
    · intro hnone
      rw [hnone]
      exact ⟨_, rest, hrest⟩

/-- In memory, `run;` after a failed `run;` asks for the first page again. -/
theorem retry_goes_on_iff_second_retry :
    ∃ m e, Reachable inMemory m ∧ m.session.nextToken = some "t" ∧
      m.outcome inMemory (.execute "run;") = .error (.failed e) ∧
      ∃ client outcome rest,
        ((m.after inMemory (.execute "run;")).after inMemory (.execute "run;")).trace =
          (m.after inMemory (.execute "run;")).trace ++
            .call client (.execute "SELECT * FROM \"a.b\" ;" none none) outcome :: rest := by
  obtain ⟨m, hm, hl, ht, hq, hfails⟩ : ∃ m, Reachable inMemory m ∧
      m.session.history.latest? = some "SELECT * FROM a.b;" ∧ m.session.nextToken = some "t" ∧
      Query.ofSource (m.expansion inMemory "SELECT * FROM a.b;") =
        .ok ⟨"SELECT * FROM \"a.b\" ;", none⟩ ∧
      (m.answer inMemory
        (.execute "SELECT * FROM \"a.b\" ;" none m.session.nextToken)).isOk = false :=
    ⟨(Machine.over { results := [.ok { nextToken := some "t" },
          .error (.storage "execute statement" "throttled")] }).after inMemory
        (.feed "SELECT * FROM a.b;"), (reachable_inMemory _).step _, by decide +kernel,
      by decide +kernel, eq_ok_of_toOption (by decide +kernel), by decide +kernel⟩
  cases hanswer : m.answer inMemory
      (.execute "SELECT * FROM \"a.b\" ;" none m.session.nextToken) with
  | ok page =>
    rw [hanswer] at hfails
    cases hfails
  | error e =>
    obtain ⟨houtcome, -, -, hretry⟩ := retry_goes_on_iff hm hl hq hanswer
    obtain ⟨-, hagain⟩ := hretry (by decide +kernel)
    obtain ⟨⟨outcome, rest, htrace⟩, -⟩ := hagain (m.after inMemory (.execute "run;")) rfl
    exact ⟨m, _, hm, ht, houtcome, _, outcome, rest, htrace⟩

end Session

end TableShell
