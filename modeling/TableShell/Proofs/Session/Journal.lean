import TableShell.Proofs.Session.Again
import TableShell.Proofs.Session.Failure
import TableShell.Proofs.Session.Paging

/-!
# What the history holds

Whatever a session is asked to do, its history holds the last commands that it carried out, as many
as its capacity allows (`Session.history_eq_journal`). The journal of a run is the list without that
bound. Each command carried out has one entry there: its text as it was typed, or, if it was the
latest command again, the entry before it. A command that failed, a line with a verb, a comment and
a part of a command have none.

The induction over a run keeps the history as the journal so far, pushed entry by entry onto an
empty history; only at the end is that compared with the last entries of the journal.
-/

namespace TableShell

namespace Journal

/-- What a command that is carried out is remembered as, after the latest entry. -/
def record? (latest : Option String) (command : String) : Option String :=
  if CommandKind.ofCommand command = .again then latest else some command

/-- The entries after one more command has been carried out. -/
def enter (entries : List String) (command : String) : List String :=
  entries ++ (record? entries.getLast? command).toList

/-- The entries of the commands that were carried out one after the other. -/
def ofCommands (commands : List String) : List String := commands.foldl enter []

end Journal

namespace Session

variable {W : Type} {around : Surroundings W} {m m' : Machine W} {command : String}

/-- A query that succeeds is remembered. -/
theorem Queried.history_of_ok {token : Option String}
    (h : Queried around command token m (.ok ()) m') :
    m'.session.history = m.session.history.push command := by
  cases h
  rfl

/-- A command that is carried out adds one entry to the history, whatever its kind. -/
theorem Executed.history_of_ok (h : Executed around command m (.ok ()) m') :
    ∃ entry, Journal.record? m.session.history.latest? command = some entry ∧
      m'.session.history = m.session.history.push entry := by
  have typed (hk : CommandKind.ofCommand command ≠ .again)
      (hh : m'.session.history = m.session.history.push command) :
      ∃ entry, Journal.record? m.session.history.latest? command = some entry ∧
        m'.session.history = m.session.history.push entry :=
    ⟨command, if_neg hk, hh⟩
  cases h with
  | recorded hk h =>
    refine typed (fun hagain => hk (by simp [hagain])) ?_
    rw [h.session]
    rfl
  | assigned hk => exact typed (by simp [hk]) rfl
  | queried hk h => exact typed (by simp [hk]) h.history_of_ok
  | @again latest _ _ hk hl h =>
    exact ⟨latest, (if_pos hk).trans hl, h.history_of_ok⟩

end Session

namespace Machine

open Session

variable {W : Type} {around : Surroundings W} {m : Machine W}

/-- The commands that stimuli carry out one after the other. -/
def carriedOut (around : Surroundings W) : Machine W → List (Stimulus W) → List String
  | _, [] => []
  | m, stimulus :: stimuli =>
    (m.carriedOut? around stimulus).toList ++ carriedOut around (m.after around stimulus) stimuli

/-- The history is these entries pushed onto one without any. -/
def Remembers (m : Machine W) (capacity : Nat) (entries : List String) : Prop :=
  m.session.history = entries.foldl History.push (.withCapacity capacity)

/-- What one stimulus adds to the journal, it adds to the history. -/
theorem Remembers.after {capacity : Nat} {entries : List String} (h : m.Remembers capacity entries)
    (stimulus : Stimulus W) :
    (m.after around stimulus).Remembers capacity
        ((m.carriedOut? around stimulus).toList.foldl Journal.enter entries) ∧
      ((m.carriedOut? around stimulus).toList.foldl Journal.enter entries).length =
        entries.length + (m.carriedOut? around stimulus).toList.length := by
  cases m.progress around stimulus with
  | kept hc hkept =>
    rw [hc]
    exact ⟨hkept.2.trans h, rfl⟩
  | @carriedOut command buffer hc he =>
    obtain ⟨entry, hentry, hpush⟩ := he.history_of_ok
    have hlatest : m.session.history.latest? = entries.getLast? := by
      rw [h, History.latest?_foldl_push]
      cases entries.getLast? <;> rfl
    have henter : Journal.enter entries command = entries ++ [entry] := by
      rw [Journal.enter, ← hlatest]
      exact congrArg (entries ++ ·.toList) hentry
    rw [hc]
    change (m.after around stimulus).session.history =
        (Journal.enter entries command).foldl History.push _ ∧
      (Journal.enter entries command).length = entries.length + 1
    rw [henter, List.foldl_append, ← h]
    exact ⟨hpush, List.length_append⟩

/-- What a run adds to the journal, it adds to the history. -/
theorem Remembers.afterAll {capacity : Nat} {entries : List String}
    (h : m.Remembers capacity entries) (stimuli : List (Stimulus W)) :
    (m.afterAll around stimuli).Remembers capacity
        ((carriedOut around m stimuli).foldl Journal.enter entries) ∧
      ((carriedOut around m stimuli).foldl Journal.enter entries).length =
        entries.length + (carriedOut around m stimuli).length := by
  induction stimuli generalizing m entries with
  | nil => exact ⟨h, rfl⟩
  | cons stimulus stimuli ih =>
    obtain ⟨hafter, hlength⟩ := h.after stimulus
    obtain ⟨hall, hlengthAll⟩ := ih hafter
    rw [carriedOut, List.foldl_append, List.length_append]
    exact ⟨hall, by omega⟩

/-- A session starts with an empty journal, and with room for at least one entry. -/
theorem remembers_of_start {config : Config} {world : W}
    (h : Machine.start around config world = .ok m) :
    0 < config.historyCapacity ∧ m.Remembers config.historyCapacity [] := by
  unfold Machine.start at h
  split at h
  · cases h
  · next hc =>
    have hpos : 0 < config.historyCapacity := by
      refine Nat.pos_of_ne_zero fun hzero => ?_
      rw [Config.error?, if_pos hzero] at hc
      cases hc
    split at h
    · cases h
    · cases h
      exact ⟨hpos, rfl⟩

end Machine

namespace Session

open Machine

variable {W : Type} {around : Surroundings W} {m : Machine W}

/-- Over any run, every command that was carried out has exactly one entry in the journal, and the
history holds the last entries of the journal, as many as its capacity allows. A session that keeps
a token remembers a command. -/
theorem history_eq_journal {config : Config} {world : W}
    (hs : Machine.start around config world = .ok m) (stimuli : List (Stimulus W)) :
    let commands := carriedOut around m stimuli
    let journal := Journal.ofCommands commands
    let session := (m.afterAll around stimuli).session
    journal.length = commands.length ∧
      session.history.entries = journal.drop (journal.length - config.historyCapacity) ∧
      session.history.entries.length ≤ config.historyCapacity ∧
      (session.nextToken ≠ none → session.history.entries ≠ []) := by
  intro commands journal session
  obtain ⟨hpos, hstart⟩ := remembers_of_start hs
  obtain ⟨hremembers, hlength⟩ : (m.afterAll around stimuli).Remembers config.historyCapacity
      journal ∧ journal.length = 0 + commands.length := hstart.afterAll stimuli
  have hentries : session.history.entries =
      journal.drop (journal.length - config.historyCapacity) := by
    have hcap : max config.historyCapacity 1 = config.historyCapacity := by omega
    have h := History.entries_foldl_push journal (.withCapacity config.historyCapacity)
    rw [← hremembers] at h
    simpa [History.withCapacity, hcap] using h
  refine ⟨by omega, hentries, ?_, fun htoken hnil => ?_⟩
  · rw [hentries, List.length_drop]
    omega
  · have hreach : Reachable around (m.afterAll around stimuli) :=
      (Reachable.start hs).leads ⟨stimuli, rfl⟩
    obtain ⟨token, ht⟩ := Option.ne_none_iff_exists'.1 htoken
    obtain ⟨command, _, _, hlatest, _⟩ := hreach.tokenSound.goesOn token ht
    rw [History.latest?, hnil] at hlatest
    cases hlatest

/-- In memory, with room for two commands: a query in two lines with a verb in between, the next
page of it, a query that fails and an assignment. -/
theorem history_eq_journal_room_for_two :
    let store : MemoryStore := { results :=
      [.ok { nextToken := some "t" }, .ok {}, .error (.storage "execute" "down")] }
    let stimuli : List (Stimulus MemoryStore) :=
      [.feed "SELECT *", .feed "!h", .feed "FROM a.b;", .feed "run;", .feed "# none",
        .feed "SELECT * FROM c.d;", .execute "@x = ${y}1;"]
    ∃ m, Machine.start inMemory { historyCapacity := 2 } store = .ok m ∧
      carriedOut inMemory m stimuli = ["SELECT * FROM a.b;", "run;", "@x = ${y}1;"] ∧
      (m.afterAll inMemory stimuli).session.history.entries =
        ["SELECT * FROM a.b;", "@x = ${y}1;"] := by
  intro store stimuli
  obtain ⟨m, hs, hcarried⟩ : ∃ m, Machine.start inMemory { historyCapacity := 2 } store = .ok m ∧
      carriedOut inMemory m stimuli = ["SELECT * FROM a.b;", "run;", "@x = ${y}1;"] :=
    ⟨_, rfl, by decide +kernel⟩
  have h := (history_eq_journal hs stimuli).2.1
  rw [hcarried] at h
  exact ⟨m, hs, hcarried, h.trans (by decide +kernel)⟩

end Session

end TableShell
