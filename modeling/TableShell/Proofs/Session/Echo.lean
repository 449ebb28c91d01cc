import TableShell.Proofs.Command.Quoted
import TableShell.Proofs.Session.Run
import TableShell.Proofs.Template

/-!
# What is echoed

Any text can be put in quotes behind the verb echo, and is shown as it is if no reference starts in
it; the quotes keep its blanks, quotes and control characters. Only a single space is lost. A reader
goes by tokens, and takes a literal of one space for the spaces between the verb and the text, so
that nothing is left to show (`Session.feed_echo_quoted`).
-/

namespace TableShell

namespace Session

open Act Lexeme

variable {W : Type} {quote : Char} {text : String}

/-- The line that shows a text in quotes. -/
def echoLine (quote : Char) (text : String) : String := "echo " ++ Command.inLiteral quote text

/-- The characters of an echoed literal as it is typed. -/
theorem toList_echoLine (quote : Char) (text : String) :
    (echoLine quote text).toList =
      "echo".toList ++ ' ' :: quote :: (escaped quote text.toList ++ [quote]) := by
  simp [echoLine, Command.inLiteral, typed]

/-- The verb, the space behind it and the text. -/
theorem lexemes_echoLine (hq : isQuote quote = true) (text : String) :
    lexemes true (echoLine quote text).toList =
      [.word "echo".toList, .space, .literal quote text.toList true] := by
  have hspace : (quote :: (escaped quote text.toList ++ [quote])).head? ≠ some ' ' := by
    intro h
    exact (kind_of_isQuote hq).2 (Option.some.inj h)
  rw [toList_echoLine, lexemes_word_space (by decide) hspace, lexemes_quote hq,
    scanLiteral_escaped hq]
  rfl

/-- Spaces are skipped up to the first token that is none, and a literal of one space is one. -/
theorem echoed_echoLine (hq : isQuote quote = true) (text : String) :
    echoed (echoLine quote text) = if text = " " then "" else text := by
  have hspace : (Lexeme.space.token false == spaceToken) = true := by decide
  have htoken : (Lexeme.literal quote text.toList true).token false = text := String.ofList_toList
  rw [echoed, lexemes_echoLine hq, List.drop_succ_cons, List.drop_zero, List.dropWhile_cons,
    if_pos hspace, List.dropWhile_cons, htoken, spaceToken]
  by_cases hblank : text = " "
  · rw [if_pos hblank, if_pos (beq_iff_eq.2 hblank)]
    rfl
  · rw [if_neg hblank, if_neg (mt beq_iff_eq.1 hblank), List.flatMap_cons, List.flatMap_nil,
      List.append_nil]
    exact String.ofList_toList

/-- The line of an echoed literal has no blanks around it. -/
theorem tight_echoLine (hq : isQuote quote = true) (text : String) :
    Text.Tight (echoLine quote text).toList := by
  have hlast : (echoLine quote text).toList.getLast? = some quote := by
    rw [toList_echoLine, ← List.cons_append, ← List.cons_append, ← List.append_assoc,
      List.getLast?_concat]
  refine ⟨?_, ?_, ?_⟩
  · rw [toList_echoLine]
    exact List.cons_ne_nil _ _
  · rw [toList_echoLine]
    rintro c ⟨⟩
    rfl
  · rw [hlast]
    rintro c ⟨⟩
    rcases isQuote_iff.1 hq with rfl | rfl <;> rfl

/-- The line of an echoed literal is the verb. -/
theorem ofLine?_echoLine (quote : Char) (text : String) :
    Verb.ofLine? (echoLine quote text) = some .echo :=
  Verb.ofLine?_eq_some_iff.2 ⟨"echo", by decide, Text.startsWith_iff.2
    ⟨" " ++ Command.inLiteral quote text, by rw [← String.append_assoc]; rfl⟩⟩

/-- Whatever has been begun, a text in quotes is shown in one message, and nothing else changes. The
message is the text, unless that is a single space. -/
theorem feed_echo_quoted (around : Surroundings W) (m : Machine W) (hq : isQuote quote = true)
    (hr : Template.NoReference text) :
    (feed around (echoLine quote text)).apply m =
      (.ok .next, m.emit (.report (.message (if text = " " then "" else text)))) := by
  have htrim : Text.trim (echoLine quote text) = echoLine quote text :=
    (tight_echoLine hq text).trim_eq
  have hverb : Verb.ofLine? (Text.trim (echoLine quote text)) = some .echo := by
    rw [htrim, ofLine?_echoLine]
  have hshown : Template.NoReference (echoed (echoLine quote text)) := by
    rw [echoed_echoLine hq]
    split
    · decide
    · exact hr
  have hexpansion : m.expansion around (echoed (echoLine quote text)) =
      if text = " " then "" else text := by
    rw [Machine.expansion, Variables.substitute_of_noReference hshown, echoed_echoLine hq]
  have hexpanded : m.expanded around (echoed (echoLine quote text)) = m := by
    rw [Machine.expanded, Variables.substitute_of_noReference hshown]
    rfl
  have hecho : (echo around (echoLine quote text)).apply m =
      (.ok (), m.emit (.report (.message (if text = " " then "" else text)))) := by
    rw [echo, apply_bind_of_ok (apply_substitute around _ m), hexpansion, hexpanded]
    rfl
  rw [apply_feed_verb hverb, htrim, perform, apply_bind_of_ok hecho]
  rfl

/-- Blanks, quotes, a backslash and a line feed are shown as they are, and a single space is not
shown at all. -/
theorem feed_echo_quoted_single_space :
    isQuote '\'' = true ∧ Template.NoReference " it's \\n \n $5 " ∧ Template.NoReference " " ∧
      (feed inMemory "echo ' it\\'s \\\\n \n $5 '").apply (.over {}) =
        (.ok .next, (Machine.over {}).emit (.report (.message " it's \\n \n $5 "))) ∧
      (feed inMemory "echo ' '").apply (.over {}) =
        (.ok .next, (Machine.over {}).emit (.report (.message ""))) := by
  have hquote : isQuote '\'' = true := rfl
  have htext : Template.NoReference " it's \\n \n $5 " := by decide +kernel
  have hspace : Template.NoReference " " := by decide
  have hshown := feed_echo_quoted inMemory (.over {}) hquote htext
  have hlost := feed_echo_quoted inMemory (.over {}) hquote hspace
  rw [if_neg (by decide),
    show echoLine '\'' " it's \\n \n $5 " = "echo ' it\\'s \\\\n \n $5 '" by decide +kernel]
    at hshown
  rw [if_pos rfl, show echoLine '\'' " " = "echo ' '" by decide +kernel] at hlost
  exact ⟨hquote, htext, hspace, hshown, hlost⟩

end Session

end TableShell
