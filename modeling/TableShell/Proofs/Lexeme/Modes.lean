import TableShell.Proofs.Lexeme.Typed

/-!
# What the modes of a lexer change

The modes of a lexer may be switched before each of its calls (`Lexer.calls`). How far a call reads
depends on the text and on whether spaces are tokens, and not on whether quotes are kept. So two
readers of a text that agree on spaces before each call stay together, however they switch the
quotes: they have the same text left after each call, and their tokens differ by the quotes of a
literal at most (`Lexer.Call.Alike`, `Lexer.alike_calls`). If quotes are kept, a token of one space
is a run of spaces, and a reader without spaces gets the tokens that are none
(`Lexer.tokens_without_spaces`).
-/

namespace TableShell

namespace Lexeme

variable {spaces closed : Bool} {c quote : Char} {content s r : List Char} {l : Lexeme}

/-! ## The first literal -/

/-- The text starts with a literal, perhaps after a gap: what the literal is without its quotes and
with them, and what follows it. The second quote is there if the text has one; else the literal is
the rest of the text, up to a last backslash. -/
inductive StartsWithLiteral : List Char → List Char → List Char → List Char → Prop
  | gap {c : Char} {s bare quoted r : List Char} (hc : isGap c = true)
      (h : StartsWithLiteral s bare quoted r) : StartsWithLiteral (c :: s) bare quoted r
  | closed {quote : Char} {body content r : List Char} (hq : quote = '\'' ∨ quote = '"')
      (hbody : Decodes quote body content) :
      StartsWithLiteral (quote :: (body ++ quote :: r)) content (quote :: (content ++ [quote])) r
  | unclosed {quote : Char} {body content : List Char} (hq : quote = '\'' ∨ quote = '"')
      (hbody : Decodes quote body content) :
      StartsWithLiteral (quote :: body) content (quote :: content) []
  | dangling {quote : Char} {body content : List Char} (hq : quote = '\'' ∨ quote = '"')
      (hbody : Decodes quote body content) :
      StartsWithLiteral (quote :: (body ++ ['\\'])) content (quote :: content) []

/-- A text that starts with a quote starts with the literal that the lexer reads. -/
theorem startsWithLiteral_of_quote (hq : isQuote quote = true) (s : List Char) :
    StartsWithLiteral (quote :: s) (scanLiteral quote s).1
      (text true (.literal quote (scanLiteral quote s).1 (scanLiteral quote s).2.1))
      (scanLiteral quote s).2.2 := by
  obtain ⟨body, hbody, ⟨hclosed, htext⟩ | ⟨hopen, htext⟩⟩ := exists_decodes quote s
  · rw [hclosed]
    nth_rewrite 1 [htext]
    exact .closed (isQuote_iff.1 hq) hbody
  · have hquoted : text true (.literal quote (scanLiteral quote s).1 false) =
        quote :: (scanLiteral quote s).1 := List.append_nil _
    rw [hopen, hquoted, scanLiteral_rest_of_open hopen]
    rcases htext with htext | htext
    · nth_rewrite 1 [htext]
      exact .unclosed (isQuote_iff.1 hq) hbody
    · nth_rewrite 1 [htext]
      exact .dangling (isQuote_iff.1 hq) hbody

/-- A literal is read where the text has one. -/
theorem startsWithLiteral_of_scan (h : scan spaces s = some (.literal quote content closed, r)) :
    StartsWithLiteral s content (text true (.literal quote content closed)) r := by
  induction s with
  | nil => cases h
  | cons c s ih =>
    rw [scan] at h
    split at h
    · next hl => exact .gap (Bool.or_eq_true_iff.2 (.inr hl)) (ih h)
    split at h
    · next hs =>
      split at h
      · cases h
      · exact .gap (Bool.or_eq_true_iff.2 (.inl (beq_iff_eq.2 hs))) (ih h)
    split at h
    · next hq =>
      obtain ⟨⟨rfl, rfl, rfl⟩, rfl⟩ := by simpa using h
      exact startsWithLiteral_of_quote hq s
    split at h
    · cases h
    · cases h

/-- With its quotes no literal is taken for a run of spaces, and nothing else is. -/
theorem Sound.token_eq_spaceToken_iff (h : l.Sound) : l.token true = spaceToken ↔ l = .space := by
  constructor
  · intro htoken
    obtain ⟨c, cs, htext, hspace, -⟩ := h.text_eq_cons
    have hlist : c :: cs = [' '] := by rw [← htext, ← toList_token, htoken]; rfl
    exact hspace (List.cons.inj hlist).1
  · rintro rfl
    rfl

end Lexeme

namespace Lexer

variable {a b lexer : Lexer}

/-! ## Calls -/

/-- What is switched between two calls of a lexer. -/
inductive Switch where
  | quotes (on : Bool)
  | spaces (on : Bool)
  deriving DecidableEq, Repr

/-- The lexer with a mode switched. -/
def switch (lexer : Lexer) : Switch → Lexer
  | .quotes on => { lexer with keepQuotes := on }
  | .spaces on => { lexer with keepSpaces := on }

/-- A call of a lexer: the lexer in the modes in which it was called, the token it has handed out
and the lexer after it. -/
structure Call where
  before : Lexer
  token : Option String
  after : Lexer
  deriving DecidableEq, Repr

/-- The call of the lexer as it is. -/
def call (lexer : Lexer) : Call := ⟨lexer, lexer.next.1, lexer.next.2⟩

/-- As many calls as there are lists of switches, which are made one list before each call. -/
def calls (lexer : Lexer) : List (List Switch) → List Call
  | [] => []
  | switches :: later =>
    let call := (switches.foldl switch lexer).call
    call :: calls call.after later

/-- Two calls that read the same. -/
structure Call.Alike (a b : Call) : Prop where
  /-- The same text is left to both. -/
  rest : a.after.rest = b.after.rest
  /-- Both have found a token, or neither has. -/
  found : a.token.isSome = b.token.isSome
  /-- The tokens are equal, or they are one literal without its quotes and with them. -/
  shown : ∀ t ∈ a.token, ∀ u ∈ b.token, t = u ∨
    Lexeme.StartsWithLiteral a.before.rest t.toList u.toList a.after.rest ∨
    Lexeme.StartsWithLiteral a.before.rest u.toList t.toList a.after.rest
  /-- They are equal if both keep quotes or neither does. -/
  same : a.before.keepQuotes = b.before.keepQuotes → a.token = b.token

/-- Switching modes reads nothing. -/
theorem rest_switches (lexer : Lexer) (switches : List Switch) :
    (switches.foldl switch lexer).rest = lexer.rest := by
  induction switches generalizing lexer with
  | nil => rfl
  | cons s switches ih =>
    rw [List.foldl_cons, ih]
    cases s <;> rfl

/-- One lexeme in front of two readers. -/
theorem shown_of_scan {l : Lexeme} {s r : List Char} {spaces : Bool}
    (h : Lexeme.scan spaces s = some (l, r)) (q q' : Bool) :
    l.token q = l.token q' ∨
      Lexeme.StartsWithLiteral s (l.token q).toList (l.token q').toList r ∨
      Lexeme.StartsWithLiteral s (l.token q').toList (l.token q).toList r := by
  cases l with
  | space | word letters | mark c => exact .inl rfl
  | literal quote content closed =>
    have hliteral := Lexeme.startsWithLiteral_of_scan h
    simp only [Lexeme.toList_token]
    cases q <;> cases q'
    · exact .inl rfl
    · exact .inr (.inl hliteral)
    · exact .inr (.inr hliteral)
    · exact .inl rfl

/-- One call: the quotes do not decide how far a lexer reads. -/
theorem alike_call (hrest : a.rest = b.rest) (hspaces : a.keepSpaces = b.keepSpaces) :
    a.call.Alike b.call := by
  cases hscan : Lexeme.scan a.keepSpaces a.rest with
  | none =>
    have ha := next_of_scan_none hscan
    have hb := next_of_scan_none (hrest ▸ hspaces ▸ hscan)
    rw [call, call, ha, hb]
    exact ⟨rfl, rfl, nofun, fun _ => rfl⟩
  | some p =>
    obtain ⟨l, r⟩ := p
    have ha := next_of_scan_some hscan
    have hb := next_of_scan_some (hrest ▸ hspaces ▸ hscan)
    rw [call, call, ha, hb]
    refine ⟨rfl, rfl, ?_, fun hquotes => congrArg (fun q => some (l.token q)) hquotes⟩
    rintro _ ⟨⟩ _ ⟨⟩
    exact shown_of_scan hscan _ _

/-- Readers that start with the same text and agree on spaces before each call stay together. -/
theorem alike_calls {first second : List (List Switch)} (hrest : a.rest = b.rest)
    (hspaces : (a.calls first).map (·.before.keepSpaces) =
      (b.calls second).map (·.before.keepSpaces)) :
    List.Forall₂ Call.Alike (a.calls first) (b.calls second) := by
  induction first generalizing a b second with
  | nil =>
    cases second with
    | nil => exact .nil
    | cons switches second => cases hspaces
  | cons switches first ih =>
    cases second with
    | nil => cases hspaces
    | cons switches' second =>
      -- switching modes leaves the text alone, and alike calls leave the same text to the next ones
      obtain ⟨hhere, hlater⟩ := List.cons.inj hspaces
      have halike : (switches.foldl switch a).call.Alike (switches'.foldl switch b).call :=
        alike_call (by rw [rest_switches, rest_switches, hrest]) hhere
      exact .cons halike (ih halike.rest hlater)

/-! ## Spaces -/

/-- With quotes kept, what a reader without spaces gets are the tokens that are no run of spaces. -/
theorem tokens_without_spaces (lexer : Lexer) :
    ({ lexer with keepQuotes := true, keepSpaces := false } : Lexer).tokens =
      ({ lexer with keepQuotes := true, keepSpaces := true } : Lexer).tokens.filter
        (· ≠ Lexeme.spaceToken) := by
  simp only [tokens]
  rw [Lexeme.lexemes_false, List.filter_map]
  refine congrArg _ (List.filter_congr fun l hl => ?_)
  have hspace := (Lexeme.sound_of_mem_lexemes lexer.rest l hl).token_eq_spaceToken_iff
  exact Bool.eq_iff_iff.2 (bne_iff_ne.trans ((not_congr hspace).symm.trans decide_eq_true_iff.symm))

/-- Two readers of a text switch modes before each call as they like, but agree on spaces. After
equally many calls they have the same text left, both have found a token or neither has, and the two
tokens are equal or one literal without and with its quotes, the second one if the literal is
closed. If quotes are kept all the time, then the tokens without spaces are those with spaces, the
spaces left out. -/
theorem modes_show_the_same (s : String) :
    (∀ first second : List (List Switch),
      ((ofText s).calls first).map (·.before.keepSpaces) =
          ((ofText s).calls second).map (·.before.keepSpaces) →
        List.Forall₂ Call.Alike ((ofText s).calls first) ((ofText s).calls second)) ∧
    ({ ofText s with keepQuotes := true } : Lexer).tokens =
      ({ ofText s with keepQuotes := true, keepSpaces := true } : Lexer).tokens.filter
        (· ≠ Lexeme.spaceToken) :=
  ⟨fun _ _ hspaces => alike_calls rfl hspaces, tokens_without_spaces (ofText s)⟩

/-- Both readers switch the quotes in the middle of the text. It has a closed literal with an escape
and one that is not closed. -/
theorem modes_show_the_same_open_literal :
    ∃ first second : List (List Switch),
      ((ofText "a 'b\\n'  \"c").calls first).map (·.before.keepSpaces) =
        ((ofText "a 'b\\n'  \"c").calls second).map (·.before.keepSpaces) ∧
      List.Forall₂ Call.Alike ((ofText "a 'b\\n'  \"c").calls first)
        ((ofText "a 'b\\n'  \"c").calls second) ∧
      ((ofText "a 'b\\n'  \"c").calls first).map (·.token) =
        [some "a", some " ", some "b\n", some "\"c", none] ∧
      ((ofText "a 'b\\n'  \"c").calls second).map (·.token) =
        [some "a", some " ", some "'b\n'", some "c", none] ∧
      ({ ofText "a 'b\\n'  \"c" with keepQuotes := true } : Lexer).tokens =
        ["a", "'b\n'", "\"c"] := by
  obtain ⟨hcalls, htokens⟩ := modes_show_the_same "a 'b\\n'  \"c"
  refine ⟨[[.spaces true], [], [], [.quotes true, .spaces false], []],
    [[.quotes true, .spaces true], [.spaces false, .spaces true], [],
      [.quotes false, .spaces false], [.quotes true]],
    by decide +kernel, hcalls _ _ (by decide +kernel), by decide +kernel, by decide +kernel, ?_⟩
  rw [htokens]
  decide +kernel

/-- Without quotes a literal of one space is taken for a run of spaces. -/
example : (ofText "a' 'b").tokens = ["a", " ", "b"] ∧
    ({ ofText "a' 'b" with keepSpaces := true } : Lexer).tokens.filter (· ≠ Lexeme.spaceToken) =
      ["a", "b"] := by
  decide +kernel

end Lexer

end TableShell
