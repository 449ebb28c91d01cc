import TableShell.Proofs.Command.Grammar
import TableShell.Proofs.CommandKind
import TableShell.Proofs.Lexeme.Typed
import TableShell.Proofs.Session.Run

/-!
# Variables of any value

Any text can be given to a variable: in a literal in which its backslashes, its single quotes and
its opening braces stand behind backslashes (`Command.Assignment.line`). No reference starts in such
a line, so its expansion is the line itself; its literal is read as the value; and the variable
stands for exactly that value afterwards (`Session.feed_assignment`). A reference in the value is
not expanded, neither when the variable is set nor when it is used.
-/

namespace TableShell

namespace Command.Assignment

open Lexeme

/-- The value as it is typed between single quotes. -/
def encoded (value : List Char) : List Char :=
  value.flatMap fun c => if c = '\\' ∨ c = '\'' ∨ c = '{' then ['\\', c] else [c]

/-- The line that makes the assignment. -/
def line (a : Assignment) : String :=
  "@" ++ a.name ++ " = '" ++ String.ofList (encoded a.value.toList) ++ "';"

variable {a : Assignment}

/-- The characters of an assignment as it is typed. -/
theorem toList_line (a : Assignment) :
    a.line.toList =
      '@' :: (a.name.toList ++ ' ' :: '=' :: ' ' :: '\'' ::
        (encoded a.value.toList ++ ['\'', ';'])) := by
  simp [line]

/-- The value is read back. -/
theorem scanLiteral_encoded (value t : List Char) :
    scanLiteral '\'' (encoded value ++ '\'' :: t) = (value, true, t) := by
  refine scanLiteral_flatMap rfl ?_ (.inl rfl) (.inr (.inl rfl)) value t
  rintro c (rfl | rfl | rfl) <;> rfl

/-- An encoded value does not start with a brace, so that no reference starts at the quote. -/
theorem head?_encoded (value : List Char) : (encoded value).head? ≠ some '{' := by
  cases value with
  | nil => nofun
  | cons c value =>
    rw [encoded, List.flatMap_cons]
    split
    · nofun
    · next hc =>
      intro h
      exact hc (.inr (.inr (Option.some.inj h)))

/-- Each opening brace stands behind a backslash. -/
theorem not_infix_encoded (value : List Char) : ¬ ['$', '{'] <:+: encoded value := by
  induction value with
  | nil => decide
  | cons c value ih =>
    rw [encoded, List.flatMap_cons, ← encoded]
    refine Template.not_infix_append ?_ ih (head?_encoded value)
    split
    · intro h
      cases h.eq_of_length rfl
    · intro h
      exact absurd h.length_le (by simp)

/-- A word contains no braces. -/
theorem noBrace_of_isWord {w : List Char} (hw : IsWord w) : ∀ c ∈ w, c ≠ '{' ∧ c ≠ '}' := by
  intro c hc
  have hchar : isWordChar c = true := List.all_eq_true.1 hw.2 c hc
  constructor <;>
  · rintro rfl
    cases hchar

/-- No reference starts in the line. -/
theorem noReference_line (hn : IsWord a.name.toList) : Template.NoReference a.line := by
  have hfront : ¬ ['$', '{'] <:+: '@' :: (a.name.toList ++ [' ', '=', ' ', '\'']) := by
    intro h
    have hbrace : '{' ∈ '@' :: (a.name.toList ++ [' ', '=', ' ', '\'']) := h.subset (by simp)
    have hname : '{' ∈ a.name.toList := by simpa using hbrace
    exact (noBrace_of_isWord hn _ hname).1 rfl
  have hvalue := Template.not_infix_append hfront (not_infix_encoded a.value.toList)
    (head?_encoded a.value.toList)
  have hline := Template.not_infix_append hvalue (t := ['\'', ';']) (by decide) (by decide)
  rw [Template.NoReference, toList_line]
  simpa using hline

/-- The lexemes of the line. -/
theorem tokensOf_line (hn : IsWord a.name.toList) :
    tokensOf a.line = ["@", a.name, "=", a.value, ";"] := by
  have hlexemes : lexemes false a.line.toList = [.mark '@', .word a.name.toList, .mark '=',
      .literal '\'' a.value.toList true, .mark ';'] := by
    rw [toList_line, lexemes_mark rfl, lexemes_word_append hn rfl, lexemes_false_space,
      lexemes_mark rfl, lexemes_false_space, lexemes_quote rfl, scanLiteral_encoded]
    rfl
  rw [tokensOf_eq, hlexemes]
  simp [Lexeme.token, Lexeme.text]

/-- The line is read as the assignment. -/
theorem readAssignment_line (hn : IsWord a.name.toList) : readAssignment a.line = .ok a := by
  have hmarks : ∀ mark ∈ Reader.marks, ¬ IsWord mark.toList := by decide
  have hname : a.name ∉ Reader.marks := fun hmark => hmarks _ hmark hn
  exact readAssignment_eq_ok.2 ⟨[], _, .assignment hname, tokensOf_line hn⟩

/-- The line of an assignment ends with a semicolon. -/
theorem endsWith_line (a : Assignment) : Text.endsWith a.line ';' = true := by
  rw [Text.endsWith, line, String.toList_append, List.getLast?_append]
  rfl

/-- The line of an assignment has no blanks around it. -/
theorem tight_line (a : Assignment) : Text.Tight a.line.toList := by
  refine Text.tight_of_closed ?_ a.endsWith_line
  rw [toList_line]
  rintro c ⟨⟩
  rfl

end Command.Assignment

namespace Session

open Act Machine Command

variable {W : Type} {around : Surroundings W} {m : Machine W} {a : Assignment}

/-- The line of an assignment is no verb. -/
theorem ofLine?_line (a : Assignment) : Verb.ofLine? a.line = none := by
  have hstarts : ∀ entry ∈ Verb.table, entry.1.toList.head?.any (· ≠ '@') = true := by decide
  rw [Option.eq_none_iff_forall_ne_some]
  intro verb hverb
  obtain ⟨start, rest, hmem, hline⟩ := exists_start_of_verb hverb
  have hstart := hstarts _ hmem
  have hlist := congrArg String.toList hline
  rw [Assignment.toList_line, String.toList_append] at hlist
  cases hs : start.toList with
  | nil => simp [hs] at hstart
  | cons c cs =>
    rw [hs] at hstart hlist
    obtain ⟨rfl, -⟩ := List.cons.inj hlist
    simp at hstart

/-- Where nothing has been begun, the line is a whole command. -/
theorem completes?_line (hb : m.session.buffer = "") :
    m.session.completes? a.line = some a.line := by
  have hcomment : isComment a.line = false := by
    rw [isComment_eq, Assignment.toList_line]
    rfl
  exact completes?_of_tight hb a.tight_line hcomment (ofLine?_line a) a.endsWith_line

/-- The line of an assignment is handled as an assignment. -/
theorem ofCommand_line (a : Assignment) : CommandKind.ofCommand a.line = .assignment := by
  have hat : Text.startsWith a.line "@" = true := by
    rw [Text.startsWith, Assignment.toList_line]
    rfl
  rw [CommandKind.ofCommand, if_pos hat]

/-- The line sets the variable, is remembered, and does nothing else. -/
theorem apply_feed_line (around : Surroundings W) (hb : m.session.buffer = "")
    (hn : Lexeme.IsWord a.name.toList) :
    (feed around a.line).apply m = (.ok .next, (assigned m a).recorded a.line) := by
  have hself : m.withBuffer "" = m := withBuffer_eq_self hb
  have hexpansion : m.expansion around a.line = a.line := by
    rw [expansion, Variables.substitute_of_noReference (Assignment.noReference_line hn)]
  have hexpanded : m.expanded around a.line = m := by
    rw [expanded, Variables.substitute_of_noReference (Assignment.noReference_line hn)]
    rfl
  rw [apply_feed_of_completes (completes?_line hb), hself, execute, ofCommand_line]
  dsimp only
  rw [apply_assign, hexpansion, Assignment.readAssignment_line hn, hexpanded]
  rfl

/-- Where nothing has been begun, the line of an assignment to a word succeeds whatever the value
is. The variable has exactly the value then, the others are as they were, the line is remembered,
and nothing else in the session or outside has changed. If the name is not reserved, a reference to
it stands for the value between any two texts without references. -/
theorem feed_assignment (around : Surroundings W) (hb : m.session.buffer = "") {n : String}
    (hn : Lexeme.IsWord n.toList) (v : String) :
    ∃ m', (feed around (Assignment.line ⟨n, v⟩)).apply m = (.ok .next, m') ∧
      m'.session.bindings.get? n = some v ∧
      (∀ other, other ≠ n → m'.session.bindings.get? other = m.session.bindings.get? other) ∧
      m'.session =
        { m.session with
          bindings := m'.session.bindings
          history := m.session.history.push (Assignment.line ⟨n, v⟩) } ∧
      m'.world = m.world ∧ m'.trace = m.trace ∧
      (n ≠ "UUID" → n ≠ "NOW" → ∀ a b, Template.NoReference a → Template.NoReference b →
        ∀ drawn, m'.session.bindings.substitute around.supply drawn
          (a ++ "$\x7b" ++ n ++ "\x7d" ++ b) = (a ++ v ++ b, drawn)) := by
  have hinsert (other : String) : (m.session.bindings.insert n v).get? other =
      if n = other then some v else m.session.bindings.get? other :=
    Dictionary.get?_insert m.session.bindings n other v
  have hv : (m.session.bindings.insert n v).get? n = some v := (hinsert n).trans (if_pos rfl)
  refine ⟨_, apply_feed_line around hb hn, hv, ?_, rfl, rfl, rfl, ?_⟩
  · intro other hother
    exact (hinsert other).trans (if_neg hother.symm)
  · intro huuid hnow a b ha hb drawn
    have hne : n ≠ "" := by
      rintro rfl
      exact hn.1 rfl
    exact Variables.substitute_reference hv hne huuid hnow (Command.Assignment.noBrace_of_isWord hn)
      ha hb around.supply drawn

/-- A value with quotes, a backslash, a line feed and a reference. -/
theorem feed_assignment_quotes_and_braces :
    ∃ m', (feed inMemory "@v-1 = '\\'it\\'s\\' \\\\n\n $\\\x7bUUID\x7d;';").apply (.over {}) =
        (.ok .next, m') ∧
      m'.session.bindings.get? "v-1" = some "'it's' \\n\n $\x7bUUID\x7d;" ∧
      ∀ drawn, m'.session.bindings.substitute inMemory.supply drawn ("$" ++ "$\x7b" ++ "v-1" ++
        "\x7d" ++ "\x7d") = ("$" ++ "'it's' \\n\n $\x7bUUID\x7d;" ++ "\x7d", drawn) := by
  obtain ⟨m', hfeed, hvalue, -, -, -, -, hreference⟩ :=
    feed_assignment inMemory (m := .over {}) rfl (n := "v-1") (by decide)
      "'it's' \\n\n $\x7bUUID\x7d;"
  exact ⟨m', hfeed, hvalue,
    hreference (by decide) (by decide) "$" "\x7d" (by decide) (by decide)⟩

end Session

end TableShell
