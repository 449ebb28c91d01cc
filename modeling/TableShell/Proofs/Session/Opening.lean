import TableShell.Proofs.CommandKind
import TableShell.Proofs.Session.Run

/-!
# How a line opens

A line is given to the verb that its first characters spell, and no blank has to follow them. To the
lexer that means: the word that the line opens with (`openingWord`) starts with the verb, and may go
on as it likes. So a line of a statement that opens with such a word, as `exit_code = 0;` does,
never reaches the statement. Only the verb sleep looks at its word again, and refuses a longer one.

`Session.feed_by_opening` says what becomes of a line by the word that it opens with. The command
that it may complete is told in the same way: no command carries out the latest one again unless it
opens with a word that starts with `run`.
-/

namespace TableShell

open Lexeme

/-- The word that a text opens with, or nothing if its first lexeme is no word. -/
def openingWord (text : String) : String :=
  match lexemes false text.toList with
  | .word letters :: _ => String.ofList letters
  | _ => ""

/-! ## The first word of a text -/

/-- A word starts a text exactly if it starts the word that the text opens with. -/
theorem startsWith_openingWord {keyword text : String} (hk : IsWord keyword.toList)
    (ht : ∀ c ∈ text.toList.head?, Text.isBlank c = false) :
    Text.startsWith (openingWord text) keyword = Text.startsWith text keyword := by
  obtain ⟨hne, hletters⟩ := hk
  have hempty : Text.startsWith "" keyword = false := by
    rw [Bool.eq_false_iff, Text.startsWith, ne_eq, List.isPrefixOf_iff_prefix]
    exact fun h => hne (List.prefix_nil.1 h)
  have hother {c : Char} (cs : List Char) (hc : isWordChar c = false) :
      Text.startsWith (String.ofList (c :: cs)) keyword = false := by
    obtain ⟨k, ks, hkeyword⟩ := List.exists_cons_of_ne_nil hne
    rw [hkeyword, List.all_cons, Bool.and_eq_true] at hletters
    rw [Bool.eq_false_iff, Text.startsWith, ne_eq, List.isPrefixOf_iff_prefix, hkeyword,
      String.toList_ofList, List.cons_prefix_cons]
    rintro ⟨rfl, -⟩
    rw [hc] at hletters
    exact absurd hletters.1 (by decide)
  obtain ⟨cs, rfl⟩ : ∃ cs, text = String.ofList cs := ⟨text.toList, by simp⟩
  rw [openingWord, String.toList_ofList]
  rw [String.toList_ofList] at ht
  cases cs with
  | nil => rfl
  | cons c cs =>
    have hblank : Text.isBlank c = false := ht c rfl
    have hlayout : isLayout c = false := by
      rw [Bool.eq_false_iff]
      intro h
      rcases isLayout_iff.1 h with rfl | rfl | rfl <;> cases hblank
    have hspace : c ≠ ' ' := by
      rintro rfl
      cases hblank
    cases hquote : isQuote c with
    | true =>
      have hword : isWordChar c = false := by
        rcases isQuote_iff.1 hquote with rfl | rfl <;> decide
      rw [lexemes_quote hquote, hother cs hword]
      exact hempty
    | false =>
      cases hword : isWordChar c with
      | false =>
        rw [lexemes_mark (isMark_iff.2 ⟨hlayout, hspace, hquote, hword⟩), hother cs hword]
        exact hempty
      | true =>
        -- the opening word is the longest start of the text that consists of word characters
        have htake : c :: cs.takeWhile isWordChar = (c :: cs).takeWhile isWordChar :=
          (List.takeWhile_cons_of_pos hword).symm
        rw [lexemes_word hword]
        dsimp only
        rw [Bool.eq_iff_iff, Text.startsWith, Text.startsWith, List.isPrefixOf_iff_prefix,
          List.isPrefixOf_iff_prefix, String.toList_ofList, String.toList_ofList, htake]
        refine ⟨fun h => h.trans (List.takeWhile_prefix _), fun h => ?_⟩
        obtain ⟨t, ht⟩ := h
        rw [← ht, List.takeWhile_append_of_pos (List.all_eq_true.1 hletters)]
        exact List.prefix_append _ _

/-- A trimmed line does not start with a blank. -/
theorem isBlank_head_trim (line : String) :
    ∀ c ∈ (Text.trim line).toList.head?, Text.isBlank c = false := by
  intro c hc
  rw [Text.toList_trim] at hc
  refine (Text.tight_trimmed fun h => ?_).head c hc
  rw [h] at hc
  cases hc

/-- The first token of a text that opens with a word is that word. -/
theorem head_tokensOf {text : String} (h : openingWord text ≠ "") :
    (tokensOf text)[0]? = some (openingWord text) := by
  rw [tokensOf_eq]
  unfold openingWord at h ⊢
  split
  · next letters ls hls =>
    rw [hls]
    rfl
  · next hls => simp at h

/-! ## Verbs -/

namespace Verb

/-- How a line opens that is given to the verb. -/
def opens (text : String) : Verb → Bool
  | sleep => Text.startsWith (openingWord text) "sleep"
  | clear => Text.startsWith (openingWord text) "clear"
  | exit => Text.startsWith (openingWord text) "exit"
  | inspect => Text.startsWith text "!"
  | connect => Text.startsWith (openingWord text) "connect"
  | load => Text.startsWith text "."
  | echo => Text.startsWith (openingWord text) "echo"

/-- A line is given to the verb that it opens with. -/
theorem ofLine?_trim_eq_some_iff {line : String} {verb : Verb} :
    ofLine? (Text.trim line) = some verb ↔ opens (Text.trim line) verb = true := by
  have hword (start : String) (hstart : IsWord start.toList) :
      Text.startsWith (openingWord (Text.trim line)) start =
        Text.startsWith (Text.trim line) start :=
    startsWith_openingWord hstart (isBlank_head_trim line)
  rw [ofLine?_eq_some_iff]
  cases verb <;>
    simp [table, opens, hword "sleep" (by decide), hword "clear" (by decide),
      hword "exit" (by decide), hword "connect" (by decide), hword "echo" (by decide)]

/-- No verb opens a line that is given to none. -/
theorem ofLine?_trim_eq_none {line : String} (h : ∀ verb, opens (Text.trim line) verb = false) :
    ofLine? (Text.trim line) = none := by
  rw [Option.eq_none_iff_forall_ne_some]
  intro verb hv
  have hopens := ofLine?_trim_eq_some_iff.1 hv
  rw [h verb] at hopens
  cases hopens

end Verb

/-! ## The latest command again -/

namespace CommandKind

/-- The command opens with a word that starts with `run`, in small letters or in capitals. -/
def opensRun (command : String) : Bool :=
  Text.startsWith (openingWord command) "run" || Text.startsWith (openingWord command) "RUN"

/-- A command is one that goes on with the last query exactly when it starts like the word run. -/
theorem ofCommand_eq_again_iff {command : String} :
    ofCommand command = .again ↔ startsLike command "run" = true := by
  constructor
  · intro h
    unfold ofCommand at h
    split at h
    · cases h
    iterate 5
      split at h
      · cases h
    split at h
    · assumption
    · cases h
  · intro h
    have hrun : ∀ w ∈ ["run".toList, "run".toList.map Char.toUpper],
        w ∈ ['@'] :: openings ∧ ofCommand (String.ofList w) = .again := by decide
    obtain ⟨w, hw, t, rfl⟩ := startsLike_iff.1 h
    rw [ofCommand_append (hrun w hw).1, (hrun w hw).2]

/-- A trimmed line is such a command exactly when it opens with the word. -/
theorem ofCommand_trim_eq_again_iff {line : String} :
    ofCommand (Text.trim line) = .again ↔ opensRun (Text.trim line) = true := by
  have hhead := isBlank_head_trim line
  rw [ofCommand_eq_again_iff, startsLike, opensRun, startsWith_openingWord (by decide) hhead,
    startsWith_openingWord (by decide) hhead]
  rfl

end CommandKind

namespace Machine

variable {W : Type}

/-- Between the machines, nothing but the command itself is asked for, and from its start. -/
def AsksOnly (around : Surroundings W) (command : String) (m m' : Machine W) : Prop :=
  ∃ events, m'.trace = m.trace ++ events ∧ ∀ e ∈ events, ∀ asked ∈ e.query?,
    ∃ q, Query.ofSource (m.expansion around command) = .ok q ∧
      asked = (q.statement, q.effectiveLimit, none)

variable {around : Surroundings W} {command : String} {m m' : Machine W}

/-- Events that are no queries do not matter. -/
theorem AsksOnly.of_events {events : List Event} (ht : m'.trace = m.trace ++ events)
    (he : ∀ e ∈ events, e.isQuery = false) : m.AsksOnly around command m' := by
  refine ⟨events, ht, fun e hmem asked hasked => ?_⟩
  rw [Event.query?_eq_none (he e hmem)] at hasked
  cases hasked

/-- Where only plain events were added nothing else is asked for. -/
theorem AsksOnly.of_adds (h : m.Adds m') : m.AsksOnly around command m' := by
  obtain ⟨events, ht, he⟩ := h.trace
  exact .of_events ht fun e hmem => (Event.isPlain_iff.1 (he e hmem)).1

end Machine

namespace Session

open Act Machine

variable {W : Type} {around : Surroundings W} {m m' : Machine W} {line command : String}

/-- A query from its start asks for nothing but its own statement. -/
theorem Queried.asksOnly {r : Except Halt Unit} (h : Queried around command none m r m') :
    m.AsksOnly around command m' := by
  cases h with
  | blank | unread => exact .of_events (List.append_nil _).symm (by simp)
  | @failed q e _ hq _ =>
    refine ⟨_, sent_trace _ _ _ _ _, ?_⟩
    rintro e (_ | ⟨_, ⟨⟩⟩) asked ⟨⟩
    exact ⟨q, hq, rfl⟩
  | @paged q page _ hq _ =>
    refine ⟨_, List.append_assoc _ _ _, fun e he asked hasked => ?_⟩
    rcases List.mem_append.1 he with he | he
    · cases List.mem_singleton.1 he
      cases hasked
      exact ⟨q, hq, rfl⟩
    · rw [Event.query?_eq_none (ResultPage.isQuery_of_mem_events he).1] at hasked
      cases hasked

/-- A command that does not open with `run` asks for nothing but itself. -/
theorem Executed.asksOnly {r : Except Halt Unit} (h : Executed around command m r m')
    (hk : CommandKind.ofCommand command ≠ .again) : m.AsksOnly around command m' := by
  cases h with
  | kept h => exact .of_adds h
  | recorded _ h => exact AsksOnly.of_adds (m := m.recorded command) h
  | assigned => exact .of_events (List.append_nil _).symm (by simp)
  | queried _ h => exact h.asksOnly
  | again hagain => exact absurd hagain hk

/-! ## Lines -/

/-- A line that opens with a word longer than sleep is refused by that verb. -/
theorem apply_sleep_of_openingWord (h : Verb.opens line .sleep = true)
    (hw : openingWord line ≠ "sleep") (m : Machine W) :
    (sleep line).apply m =
      (.error (.failed (.ofFault .sleep line (.unknownFunction (openingWord line)))), m) := by
  have hne : openingWord line ≠ "" := by
    intro hempty
    rw [Verb.opens, hempty] at h
    cases h
  have hword : (tokensOf line)[0]?.getD "" = openingWord line := by
    rw [head_tokensOf hne]
    rfl
  unfold sleep
  dsimp only
  rw [hword, if_pos hw]
  rfl

/-- What becomes of a line is told by the word that it opens with. A line that opens with a verb is
given to it. Any other one, unless it is a comment, goes on with the command that has been begun,
and completes it if it ends with a semicolon; and a complete command asks for nothing but itself,
unless it opens with a word that starts with `run`. -/
theorem feed_by_opening (around : Surroundings W) (line : String) (m : Machine W) :
    let text := Text.trim line
    (∀ verb, Verb.opens text verb = true →
      (feed around line).apply m = match (perform around verb text).apply m with
        | (.ok flow, m') => (.ok flow, m')
        | (.error halt, m') => (.error halt, m'.withBuffer "")) ∧
    (Verb.opens text .sleep = true → openingWord text ≠ "sleep" →
      (feed around line).apply m =
        (.error (.failed (.ofFault .sleep text (.unknownFunction (openingWord text)))),
          m.withBuffer "")) ∧
    (isComment text = true → (feed around line).apply m = (.ok .next, m)) ∧
    (isComment text = false → (∀ verb, Verb.opens text verb = false) →
      (Text.endsWith text ';' = false →
        (feed around line).apply m = (.ok .next, m.withBuffer (m.session.begun line))) ∧
      (Text.endsWith text ';' = true →
        let command := Text.trim (m.session.begun line)
        let carriedOut := (execute around command).apply (m.withBuffer "")
        (feed around line).apply m = (carriedOut.1.map fun _ => .next, carriedOut.2) ∧
        (CommandKind.opensRun command = false →
          (m.withBuffer "").AsksOnly around command carriedOut.2))) := by
  intro text
  have hverb {verb : Verb} (h : Verb.opens text verb = true) :
      (feed around line).apply m = match (perform around verb text).apply m with
        | (.ok flow, m') => (.ok flow, m')
        | (.error halt, m') => (.error halt, m'.withBuffer "") :=
    apply_feed_verb (Verb.ofLine?_trim_eq_some_iff.2 h) m
  refine ⟨fun verb => hverb, fun hs hw => ?_, fun hc => apply_feed_comment hc m,
    fun hc hopens => ?_⟩
  · rw [hverb hs, perform, apply_bind_of_error (apply_sleep_of_openingWord hs hw m)]
  · have hv : Verb.ofLine? text = none := Verb.ofLine?_trim_eq_none hopens
    refine ⟨fun he => apply_feed_part hc hv he m, fun he => ?_⟩
    refine ⟨apply_feed_of_completes (completes?_eq_some_iff.2 ⟨hc, hv, he, rfl⟩), fun hrun => ?_⟩
    refine (executed around _ _).asksOnly fun hk => ?_
    rw [CommandKind.ofCommand_trim_eq_again_iff.1 hk] at hrun
    cases hrun

/-- In memory, with a statement begun: one line goes on with it, another one completes it, and a
line that opens with a longer word than sleep drops it. -/
theorem feed_by_opening_statement_begun :
    ∃ m, Reachable inMemory m ∧ m.session.buffer = "UPDATE t SET " ∧
      (feed inMemory "a = 1,").apply m = (.ok .next, m.withBuffer "UPDATE t SET a = 1, ") ∧
      (m.withBuffer "").AsksOnly inMemory "UPDATE t SET runs = 1;"
        ((feed inMemory "runs = 1;").apply m).2 ∧
      (feed inMemory "sleepy = 4,").apply m =
        (.error (.failed (.ofFault .sleep "sleepy = 4," (.unknownFunction "sleepy"))),
          m.withBuffer "") := by
  obtain ⟨m, hm, hb⟩ : ∃ m, Reachable inMemory m ∧ m.session.buffer = "UPDATE t SET " :=
    ⟨(Machine.over {}).after inMemory (.feed "UPDATE t SET"), (reachable_inMemory _).step _,
      by decide +kernel⟩
  have hpart := ((feed_by_opening inMemory "a = 1," m).2.2.2 (by decide +kernel)
    (fun verb => by cases verb <;> decide +kernel)).1 (by decide +kernel)
  obtain ⟨hfed, hasks⟩ := ((feed_by_opening inMemory "runs = 1;" m).2.2.2 (by decide +kernel)
    (fun verb => by cases verb <;> decide +kernel)).2 (by decide +kernel)
  have hsleep := (feed_by_opening inMemory "sleepy = 4," m).2.1 (by decide +kernel)
    (by decide +kernel)
  refine ⟨m, hm, hb, ?_, ?_, ?_⟩
  · rw [hpart, begun, hb]
    have htrim : Text.trim "a = 1," = "a = 1," := by decide +kernel
    rw [htrim]
    rfl
  · have hcommand : Text.trim (m.session.begun "runs = 1;") = "UPDATE t SET runs = 1;" := by
      rw [begun, hb]
      decide +kernel
    rw [hfed]
    rw [hcommand] at hasks ⊢
    exact hasks (by decide +kernel)
  · have htrim : Text.trim "sleepy = 4," = "sleepy = 4," := by decide +kernel
    have hword : openingWord "sleepy = 4," = "sleepy" := by decide +kernel
    rw [hsleep, htrim, hword]

/-- A line of a statement that opens with a longer word than exit ends the session. -/
theorem feed_exit_code :
    ∃ m, Reachable inMemory m ∧ m.session.buffer = "UPDATE t SET " ∧
      (tokensOf "exit_code = 0;").head? = some "exit_code" ∧
      (feed inMemory "exit_code = 0;").apply m = (.ok .exit, m) := by
  refine ⟨(Machine.over {}).after inMemory (.feed "UPDATE t SET"), (reachable_inMemory _).step _,
    by decide +kernel, by decide +kernel, ?_⟩
  have hv : Verb.ofLine? (Text.trim "exit_code = 0;") = some .exit := by decide +kernel
  rw [apply_feed_verb hv]
  rfl

end Session

end TableShell
