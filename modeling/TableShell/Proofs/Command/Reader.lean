import TableShell.Command.Reader

/-!
# What a reader takes

A reader takes a phrase off the front of a list of tokens and leaves the rest. For each reader there
is one equation that says which phrases it takes and what it makes of them; the phrases of readers
that run one after the other stand one after the other (`Reader.run_bind_eq_ok`).

The elements of a list are told apart by the separators behind them. A reader of elements may look
at the separator, so it has to take its phrases only in front of one (`Reader.TakesElement`).
-/

namespace TableShell

namespace Reader

variable {α β : Type} {x : Reader α} {a : α} {ts rest : List String}

/-! ## What is taken -/

/-- A sequence of readers succeeds exactly when both do, the second one behind what the first one
took. -/
theorem run_bind_eq_ok {f : α → Reader β} {b : β} :
    (x >>= f).run ts = .ok (b, rest) ↔
      ∃ a mid, x.run ts = .ok (a, mid) ∧ (f a).run mid = .ok (b, rest) := by
  rw [StateT.run_bind, bind_eq_ok]
  exact ⟨fun ⟨(a, mid), h⟩ => ⟨a, mid, h⟩, fun ⟨a, mid, h⟩ => ⟨(a, mid), h⟩⟩

/-- A reader that takes nothing gives its value and leaves the tokens. -/
theorem run_pure_eq_ok {b : α} :
    (pure b : Reader α).run ts = .ok (a, rest) ↔ b = a ∧ ts = rest := by
  rw [StateT.run_pure]
  simp [pure, Except.pure]

/-- A reader that refuses never succeeds. -/
theorem run_throw_ne_ok {fault : Fault} :
    ¬ (throw fault : Reader α).run ts = .ok (a, rest) := nofun

/-- A value that is given on a condition. -/
theorem run_ite_eq_ok {p : Prop} [Decidable p] {b : α} {fault : Fault} :
    (if p then pure b else throw fault : Reader α).run ts = .ok (a, rest) ↔
      p ∧ b = a ∧ ts = rest := by
  split
  · next hp => rw [run_pure_eq_ok, and_iff_right hp]
  · next hp => exact ⟨fun h => absurd h run_throw_ne_ok, fun h => absurd h.1 hp⟩

/-- The reader of any token takes exactly one. -/
theorem token_eq_ok {what t : String} : (token what).run ts = .ok (t, rest) ↔ ts = t :: rest := by
  cases ts with
  | nil => exact ⟨nofun, nofun⟩
  | cons u ts =>
    have hrun : (token what).run (u :: ts) = .ok (u, ts) := rfl
    rw [hrun]
    simp

/-- What is done with the next token. -/
theorem run_token_bind_eq_ok {what : String} {f : String → Reader β} {b : β} :
    (token what >>= f).run ts = .ok (b, rest) ↔
      ∃ t mid, ts = t :: mid ∧ (f t).run mid = .ok (b, rest) := by
  simp only [run_bind_eq_ok, token_eq_ok]

/-- The reader of a name takes exactly one token, which is no mark. -/
theorem name_eq_ok {what t : String} :
    (name what).run ts = .ok (t, rest) ↔ t ∉ marks ∧ ts = t :: rest := by
  rw [name, run_token_bind_eq_ok]
  simp only [← ite_not (p := _ ∈ marks), run_ite_eq_ok]
  constructor
  · rintro ⟨_, _, rfl, ht, rfl, rfl⟩
    exact ⟨ht, rfl⟩
  · rintro ⟨ht, rfl⟩
    exact ⟨t, rest, rfl, ht, rfl, rfl⟩

/-- The reader of a keyword takes exactly one token with the same letters. -/
theorem keyword_eq_ok {word : String} {u : Unit} :
    (keyword word).run ts = .ok (u, rest) ↔
      ∃ k, Text.sameLetters k word = true ∧ ts = k :: rest := by
  rw [keyword, run_token_bind_eq_ok]
  simp only [run_ite_eq_ok]
  constructor
  · rintro ⟨k, _, rfl, hk, -, rfl⟩
    exact ⟨k, hk, rfl⟩
  · rintro ⟨k, hk, rfl⟩
    exact ⟨k, rest, rfl, hk, trivial, rfl⟩

/-- The reader of a mark takes exactly that mark. -/
theorem mark_eq_ok {m : String} {u : Unit} : (mark m).run ts = .ok (u, rest) ↔ ts = m :: rest := by
  rw [mark, run_token_bind_eq_ok]
  simp only [run_ite_eq_ok]
  constructor
  · rintro ⟨_, _, rfl, rfl, -, rfl⟩
    rfl
  · rintro rfl
    exact ⟨m, rest, rfl, rfl, trivial, rfl⟩

/-- The reader of an attribute type takes exactly one word that names the type. -/
theorem attributeType_eq_ok {type : AttributeType} :
    attributeType.run ts = .ok (type, rest) ↔
      ∃ w, AttributeType.ofWord? w = some type ∧ ts = w :: rest := by
  rw [attributeType, run_token_bind_eq_ok]
  constructor
  · rintro ⟨w, mid, rfl, h⟩
    split at h
    · next hw =>
      obtain ⟨rfl, rfl⟩ := run_pure_eq_ok.1 h
      exact ⟨w, hw, rfl⟩
    · exact absurd h run_throw_ne_ok
  · rintro ⟨w, hw, rfl⟩
    exact ⟨w, rest, rfl, by rw [hw]; rfl⟩

/-- How a list goes on after an element, or ends. -/
def separator (last : Bool) : String := if last then ")" else ","

/-- The reader of a separator takes exactly one, and gives whether it was the closing one. -/
theorem closes_eq_ok {last : Bool} :
    closes.run ts = .ok (last, rest) ↔ ts = separator last :: rest := by
  rw [closes, run_token_bind_eq_ok]
  constructor
  · rintro ⟨t, mid, rfl, h⟩
    split at h
    · next ht =>
      obtain ⟨rfl, rfl⟩ := run_pure_eq_ok.1 h
      rw [ht]
      rfl
    · obtain ⟨rfl, rfl, rfl⟩ := run_ite_eq_ok.1 h
      rfl
  · rintro rfl
    exact ⟨_, rest, rfl, by cases last <;> rfl⟩

/-- The end is looked at, and nothing is taken. -/
theorem finish_eq_ok {u : Unit} :
    finish.run ts = .ok (u, rest) ↔ (ts = [] ∨ ts = [";"]) ∧ ts = rest := by
  rw [finish, run_bind_eq_ok]
  constructor
  · rintro ⟨_, _, ⟨⟩, h⟩
    split at h
    · exact ⟨.inl rfl, (run_pure_eq_ok.1 h).2⟩
    · exact ⟨.inr rfl, (run_pure_eq_ok.1 h).2⟩
    · exact absurd h run_throw_ne_ok
    · exact absurd h run_throw_ne_ok
  · rintro ⟨hts, rfl⟩
    exact ⟨ts, ts, rfl, by rcases hts with rfl | rfl <;> rfl⟩

/-- A command is read exactly when its tokens are, whatever is left behind them. -/
theorem read_eq_ok {subject : Subject} {command : String} :
    read subject x command = .ok a ↔ ∃ rest, x.run (tokensOf command) = .ok (a, rest) := by
  rw [read]
  split
  · next h => simp [h]
  · next h => simp [h]

/-! ## Lists -/

/-- A list of phrases with a separator after each, which tells whether the list ends there. -/
inductive Listed {τ : Type} (separator : Bool → τ) (phrase : α → List τ → Prop) :
    List α → List τ → Prop
  | last {a : α} {p : List τ} (h : phrase a p) :
      Listed separator phrase [a] (p ++ [separator true])
  | cons {a : α} {p : List τ} {as : List α} {ps : List τ} (h : phrase a p)
      (hs : Listed separator phrase as ps) :
      Listed separator phrase (a :: as) (p ++ separator false :: ps)

section

variable {τ υ : Type} {sep : Bool → τ} {phrase : α → List τ → Prop} {as : List α} {ps : List τ}

/-- There are not more elements than tokens. -/
theorem Listed.length_le (h : Listed sep phrase as ps) : as.length ≤ ps.length := by
  induction h with
  | last => simp
  | cons _ _ ih =>
    simp only [List.length_cons, List.length_append]
    omega

/-- A list with separators has at least one element. -/
theorem Listed.ne_nil (h : Listed sep phrase as ps) : as ≠ [] := by
  cases h <;> exact List.cons_ne_nil _ _

/-- Every element of a list with separators has a phrase of its own. -/
theorem Listed.exists_of_mem (h : Listed sep phrase as ps) : ∀ a ∈ as, ∃ p, phrase a p := by
  induction h with
  | last h => exact List.forall_mem_cons.2 ⟨⟨_, h⟩, nofun⟩
  | cons h _ ih => exact List.forall_mem_cons.2 ⟨⟨_, h⟩, ih⟩

/-- Elements that have phrases of tokens of a kind can be listed in tokens of that kind. -/
theorem exists_listed {q : τ → Prop} (hne : as ≠ []) (hsep : ∀ last, q (sep last))
    (h : ∀ a ∈ as, ∃ p, phrase a p ∧ ∀ t ∈ p, q t) :
    ∃ ps, Listed sep phrase as ps ∧ ∀ t ∈ ps, q t := by
  induction as with
  | nil => exact absurd rfl hne
  | cons a as ih =>
    obtain ⟨⟨p, hp, hq⟩, h⟩ := List.forall_mem_cons.1 h
    cases as with
    | nil =>
      refine ⟨_, .last hp, List.forall_mem_append.2 ⟨hq, ?_⟩⟩
      exact List.forall_mem_singleton.2 (hsep true)
    | cons b as =>
      obtain ⟨ps, hps, hqs⟩ := ih (List.cons_ne_nil b as) h
      refine ⟨_, .cons hp hps, List.forall_mem_append.2 ⟨hq, ?_⟩⟩
      exact List.forall_mem_cons.2 ⟨hsep false, hqs⟩

/-- Tokens that are taken for others make phrases and their lists into others. -/
theorem Listed.map {sep' : Bool → υ} {phrase' : α → List υ → Prop} {f : τ → υ}
    (h : Listed sep phrase as ps) (hsep : ∀ last, f (sep last) = sep' last)
    (hphrase : ∀ a ∈ as, ∀ p, phrase a p → phrase' a (p.map f)) :
    Listed sep' phrase' as (ps.map f) := by
  induction h with
  | last hp =>
    have hp := hphrase _ List.mem_cons_self _ hp
    have hlast : Listed sep' phrase' [_] _ := .last hp
    simpa [hsep] using hlast
  | cons hp _ ih =>
    obtain ⟨hphrase, hrest⟩ := List.forall_mem_cons.1 hphrase
    have hcons : Listed sep' phrase' (_ :: _) _ := .cons (hphrase _ hp) (ih hrest)
    simpa [hsep] using hcons

end

variable {phrase : α → List String → Prop} {as : List α}

/-- In front of a separator the reader takes the phrases. -/
def TakesElement (element : Reader α) (phrase : α → List String → Prop) : Prop :=
  ∀ ts a last rest, element.run ts = .ok (a, separator last :: rest) ↔
    ∃ p, phrase a p ∧ ts = p ++ separator last :: rest

/-- What is done with an element and with the separator after it. -/
theorem TakesElement.run_bind_eq_ok {element : Reader α} (he : TakesElement element phrase)
    {f : α → Bool → Reader β} {b : β} :
    (do f (← element) (← closes)).run ts = .ok (b, rest) ↔
      ∃ a last p mid, phrase a p ∧ ts = p ++ separator last :: mid ∧
        (f a last).run mid = .ok (b, rest) := by
  simp only [Reader.run_bind_eq_ok, closes_eq_ok]
  constructor
  · rintro ⟨a, _, ha, last, mid, rfl, h⟩
    obtain ⟨p, hp, rfl⟩ := (he _ _ _ _).1 ha
    exact ⟨a, last, p, mid, hp, rfl, h⟩
  · rintro ⟨a, last, p, mid, hp, rfl, h⟩
    exact ⟨a, _, (he _ _ _ _).2 ⟨p, hp, rfl⟩, last, mid, rfl, h⟩

/-- With fuel for so many further elements, the reader of a list takes exactly the lists that are no
longer. -/
theorem separated_eq_ok {element : Reader α} (he : TakesElement element phrase) {n : Nat} :
    (separated element n).run ts = .ok (as, rest) ↔
      ∃ ps, Listed separator phrase as ps ∧ as.length ≤ n + 1 ∧ ts = ps ++ rest := by
  induction n generalizing ts as with
  | zero =>
    rw [separated, he.run_bind_eq_ok]
    simp only [run_ite_eq_ok]
    constructor
    · rintro ⟨a, _, p, _, hp, rfl, rfl, rfl, rfl⟩
      exact ⟨_, .last hp, by simp, by simp [separator]⟩
    · rintro ⟨_, hps, hlength, rfl⟩
      cases hps with
      | @last a p hp => exact ⟨a, true, p, rest, hp, by simp [separator], rfl, rfl, rfl⟩
      | cons _ hps => cases hps <;> simp at hlength
  | succ n ih =>
    rw [separated, he.run_bind_eq_ok]
    constructor
    · rintro ⟨a, last, p, mid, hp, rfl, h⟩
      cases last with
      | true =>
        obtain ⟨rfl, rfl⟩ := run_pure_eq_ok.1 h
        exact ⟨_, .last hp, by simp, by simp [separator]⟩
      | false =>
        obtain ⟨as, _, has, h⟩ := run_bind_eq_ok.1 h
        obtain ⟨rfl, rfl⟩ := run_pure_eq_ok.1 h
        obtain ⟨ps, hps, hlength, rfl⟩ := ih.1 has
        exact ⟨_, .cons hp hps, by simpa using hlength, by simp [separator]⟩
    · rintro ⟨_, hps, hlength, rfl⟩
      cases hps with
      | @last a p hp => exact ⟨a, true, p, rest, hp, by simp [separator], rfl⟩
      | @cons a p as ps hp hps =>
        have has := ih.2 ⟨ps, hps, by simpa using hlength, rfl⟩
        refine ⟨a, false, p, ps ++ rest, hp, by simp [separator], ?_⟩
        exact run_bind_eq_ok.2 ⟨as, rest, has, rfl⟩

/-- The reader of a list takes exactly the lists with separators: the tokens themselves are fuel
enough. -/
theorem commaList_eq_ok {element : Reader α} (he : TakesElement element phrase) :
    (commaList element).run ts = .ok (as, rest) ↔
      ∃ ps, Listed separator phrase as ps ∧ ts = ps ++ rest := by
  have hrun : (commaList element).run ts = (separated element ts.length).run ts := rfl
  rw [hrun, separated_eq_ok he]
  constructor
  · rintro ⟨ps, hps, -, hts⟩
    exact ⟨ps, hps, hts⟩
  · rintro ⟨ps, hps, rfl⟩
    refine ⟨ps, hps, ?_, rfl⟩
    have hlength := hps.length_le
    rw [List.length_append]
    omega

end Reader

end TableShell
