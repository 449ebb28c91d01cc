import TableShell.Proofs.Query.Limit
import TableShell.Proofs.Session.Token

/-!
# Limits that are sent

The number of a LIMIT clause leaves the statement and goes to the service beside it
(`Query.ofSource_append_limit`), unless it is zero or less: every limit that a session sends is
positive (`Reachable.hasPositiveLimit`).
-/

namespace TableShell

/-- The event sends no limit that is zero or less. -/
def Event.HasPositiveLimit : Event → Prop
  | .call _ (.execute _ limit _) _ => ∀ n ∈ limit, 0 < n
  | _ => True

/-- What is no query sends no limit. -/
theorem Event.hasPositiveLimit_of_not_query {e : Event} (h : e.isQuery = false) :
    e.HasPositiveLimit := by
  cases e with
  | call client c outcome =>
    cases c with
    | execute s l t => cases h
    | describe | createTable | deleteTable | listTables | scanTable | deleteItem => trivial
  | report | connect | sleep | prompt => trivial

section

open Machine

variable {W : Type} {around : Surroundings W} {m m' : Machine W}

/-- A query is sent with a positive limit or without one. -/
theorem Machine.sent_hasPositiveLimit (m : Machine W) (around : Surroundings W) (command : String)
    (q : Query) (token : Option String) :
    ∀ e ∈ (m.sent around command q token).trace, e ∈ m.trace ∨ e.HasPositiveLimit := by
  intro e he
  rw [sent_trace, List.mem_append, List.mem_singleton] at he
  refine he.imp_right ?_
  rintro rfl n hn
  exact Query.effectiveLimit_pos hn

/-- No stimulus adds an event that sends a limit of zero or less. -/
theorem Machine.Effect.hasPositiveLimit (he : Effect around m m') :
    ∀ e ∈ m'.trace, e ∈ m.trace ∨ e.HasPositiveLimit := by
  cases he with
  | aside _ _ _ hq | recorded _ _ _ hq =>
    obtain ⟨events, htrace, hev⟩ := hq
    intro e he
    rw [htrace, List.mem_append] at he
    exact he.imp_right fun he => Event.hasPositiveLimit_of_not_query (hev e he).1
  | connected _ htrace =>
    intro e he
    rw [htrace, List.mem_append, List.mem_singleton] at he
    refine he.imp_right ?_
    rintro rfl
    trivial
  | @queried command token _ buffer _ hq =>
    have hsent (q : Query) := (m.withBuffer buffer).sent_hasPositiveLimit around command q token
    cases hq with
    | blank | unread => exact fun e he => .inl he
    | failed => exact hsent _
    | paged =>
      intro e he
      rw [recorded_trace, shown_trace, List.mem_append] at he
      rcases he with he | he
      · exact hsent _ e he
      · exact .inr (Event.hasPositiveLimit_of_not_query (ResultPage.isQuery_of_mem_events he).1)

/-- Starting a session sends no limit. -/
theorem Machine.hasPositiveLimit_of_start {config : Config} {world : W}
    (h : Machine.start around config world = .ok m) : ∀ e ∈ m.trace, e.HasPositiveLimit := by
  unfold Machine.start at h
  split at h
  · cases h
  · split at h
    · cases h
    · cases h
      exact List.forall_mem_singleton.2 trivial

/-- Whatever a session has been through, it has sent no limit of zero or less. -/
theorem Reachable.hasPositiveLimit (h : Reachable around m) :
    ∀ e ∈ m.trace, e.HasPositiveLimit := by
  induction h with
  | start hs => exact hasPositiveLimit_of_start hs
  | @step m stimulus _ ih =>
    exact fun e he => ((m.effect_after around stimulus).hasPositiveLimit e he).elim (ih e) id

end

/-- A limit is lifted out of a SELECT without a trace: behind a space that follows the table, the
clause changes nothing but the limit, and a number beyond 32 bits is refused. A session never sends
a limit of zero or less. -/
theorem limit_lifted :
    (∀ {a b statement keyword : String} {n : Number.Numeral}, Query.EndsAfterTable a →
      Text.sameLetters keyword "LIMIT" = true →
      Query.ofSource (a ++ (";" ++ b)) = .ok ⟨statement, none⟩ →
      Query.ofSource (a ++ (keyword ++ " " ++ n.text ++ (";" ++ b))) =
        if -0x80000000 ≤ n.value ∧ n.value ≤ 0x7FFFFFFF then .ok ⟨statement, some n.value⟩
        else .error (.ofFault .select (a ++ (keyword ++ " " ++ n.text ++ (";" ++ b)))
          (.notInteger "LIMIT" n.text))) ∧
    ∀ {W : Type} {around : Surroundings W} {m : Machine W}, Reachable around m →
      ∀ {client statement limit token outcome},
        .call client (.execute statement limit token) outcome ∈ m.trace → ∀ n ∈ limit, 0 < n :=
  ⟨Query.ofSource_append_limit, fun hm _ _ _ _ _ hcall => hm.hasPositiveLimit _ hcall⟩

/-- A limit beyond 32 bits is refused, and one of seven rows is sent beside the statement. -/
theorem limit_lifted_beyond_32_bits :
    let n : Number.Numeral := ⟨false, [2, 1, 4, 7, 4, 8, 3, 6, 4, 8], List.cons_ne_nil _ _⟩
    let m := (Machine.over {}).after inMemory (.feed "SELECT * FROM t LIMIT 7;")
    Query.ofSource ("SELECT * FROM t " ++ ("Limit" ++ " " ++ n.text ++ (";" ++ ""))) =
        .error (.faulty .select "SELECT * FROM t Limit 2147483648;"
          (.notInteger "LIMIT" "2147483648")) ∧
      Reachable inMemory m ∧
      (∃ client outcome,
        .call client (.execute "SELECT * FROM \"t\" ;" (some 7) none) outcome ∈ m.trace) ∧
      0 < (7 : Int) := by
  intro n m
  have hends : Query.EndsAfterTable "SELECT * FROM t " := by
    refine ⟨⟨.word "SELECT".toList, [.space, .mark '*', .space] ++ [.word "FROM".toList], .space,
      [.word ['t']], [], [.space]⟩, ⟨by decide +kernel, by decide +kernel, ?_⟩, rfl⟩
    refine .select ?_ ?_ ?_ trivial ?_ <;> decide +kernel
  have hplain : Query.ofSource ("SELECT * FROM t " ++ (";" ++ "")) =
      .ok ⟨"SELECT * FROM \"t\" ;", none⟩ := eq_ok_of_toOption (by decide +kernel)
  have hkeyword : Text.sameLetters "Limit" "LIMIT" = true := by decide +kernel
  have hrefused : Query.ofSource ("SELECT * FROM t " ++ ("Limit" ++ " " ++ n.text ++ (";" ++ ""))) =
      if -0x80000000 ≤ n.value ∧ n.value ≤ 0x7FFFFFFF then .ok ⟨_, some n.value⟩
      else .error (.ofFault .select _ (.notInteger "LIMIT" n.text)) :=
    limit_lifted.1 hends hkeyword hplain
  have herror : Error.ofFault .select ("SELECT * FROM t " ++
        ("Limit" ++ " " ++ n.text ++ (";" ++ ""))) (.notInteger "LIMIT" n.text) =
      .faulty .select "SELECT * FROM t Limit 2147483648;" (.notInteger "LIMIT" "2147483648") := by
    decide +kernel
  rw [if_neg (by decide +kernel), herror] at hrefused
  have hm : Reachable inMemory m := (reachable_inMemory _).step _
  have hcalls : ("SELECT * FROM \"t\" ;", some 7, none) ∈ m.trace.filterMap Event.query? := by
    decide +kernel
  obtain ⟨e, he, hquery⟩ := List.mem_filterMap.1 hcalls
  obtain ⟨client, outcome, rfl⟩ := Event.exists_eq_call hquery
  exact ⟨hrefused, hm, ⟨client, outcome, he⟩, limit_lifted.2 hm he 7 rfl⟩

end TableShell
