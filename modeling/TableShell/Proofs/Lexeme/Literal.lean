import TableShell.Proofs.Lexeme

/-!
# What stands between the quotes of a literal

A content and what is typed for it are related one character or one escape at a time
(`Lexeme.Decodes`). A literal is read along this relation and in no other way: whatever stands for a
content is read as the content, in front of anything (`Lexeme.Decodes.scanLiteral_append`), and what
has been read was typed so (`Lexeme.exists_decodes`).
-/

namespace TableShell

namespace Lexeme

/-- What a character stands for behind a backslash in a literal. -/
inductive Escapes : Char → Char → Prop
  | lineFeed : Escapes 'n' '\n'
  | carriageReturn : Escapes 'r' '\r'
  | tab : Escapes 't' '\t'
  | self {c : Char} (hc : c ≠ 'n' ∧ c ≠ 'r' ∧ c ≠ 't') : Escapes c c

/-- What is typed between the quotes of a literal, and what it stands for. -/
inductive Decodes (quote : Char) : List Char → List Char → Prop
  | nil : Decodes quote [] []
  | plain {c : Char} {body content : List Char} (hc : c ≠ '\\' ∧ c ≠ quote)
      (h : Decodes quote body content) : Decodes quote (c :: body) (c :: content)
  | escape {c d : Char} {body content : List Char} (hc : Escapes c d)
      (h : Decodes quote body content) : Decodes quote ('\\' :: c :: body) (d :: content)

variable {quote c d : Char} {body content s : List Char}

/-! ## One character -/

/-- A character escapes another exactly when decoding gives the other. -/
theorem escapes_iff : Escapes c d ↔ unescape c = d := by
  constructor
  · rintro (_ | _ | _ | hc)
    · rfl
    · rfl
    · rfl
    · unfold unescape
      split <;> simp_all
  · rintro rfl
    unfold unescape
    split
    · exact .lineFeed
    · exact .carriageReturn
    · exact .tab
    · next hn hr ht => exact .self ⟨hn, hr, ht⟩

/-- A backslash in a literal decodes the character behind it, also a quote. -/
theorem scanLiteral_escape (quote e : Char) (s : List Char) :
    scanLiteral quote ('\\' :: e :: s) =
      (unescape e :: (scanLiteral quote s).1, (scanLiteral quote s).2) := by
  rw [scanLiteral.eq_def]
  rfl

/-- Every other character but the quote of the literal stands for itself. -/
theorem scanLiteral_plain (hc : c ≠ '\\' ∧ c ≠ quote) (s : List Char) :
    scanLiteral quote (c :: s) = (c :: (scanLiteral quote s).1, (scanLiteral quote s).2) := by
  rw [scanLiteral.eq_def]
  simp [hc.1, hc.2]

/-- The quote of a literal ends it. -/
theorem scanLiteral_close (h : isQuote quote = true) (s : List Char) :
    scanLiteral quote (quote :: s) = ([], true, s) := by
  have hescape : quote ≠ '\\' := by
    rintro rfl
    cases h
  rw [scanLiteral.eq_def]
  simp [hescape]

/-! ## Contents -/

/-- A content without its quote and without backslashes stands for itself. -/
theorem decodes_self (h : ∀ c ∈ content, c ≠ '\\' ∧ c ≠ quote) : Decodes quote content content := by
  induction content with
  | nil => exact .nil
  | cons c content ih =>
    obtain ⟨hc, h⟩ := List.forall_mem_cons.1 h
    exact .plain hc (ih h)

/-- What stands for a content is read as the content, in front of anything. -/
theorem Decodes.scanLiteral_append (h : Decodes quote body content) (s : List Char) :
    scanLiteral quote (body ++ s) =
      (content ++ (scanLiteral quote s).1, (scanLiteral quote s).2) := by
  induction h with
  | nil => rfl
  | plain hc _ ih => rw [List.cons_append, scanLiteral_plain hc, ih, List.cons_append]
  | escape hc _ ih =>
    rw [List.cons_append, List.cons_append, scanLiteral_escape, escapes_iff.1 hc, ih,
      List.cons_append]

/-- In front of its quote it is the content of a closed literal. -/
theorem Decodes.scanLiteral_closed (h : Decodes quote body content) (hq : isQuote quote = true)
    (s : List Char) : scanLiteral quote (body ++ quote :: s) = (content, true, s) := by
  rw [h.scanLiteral_append, scanLiteral_close hq, List.append_nil]

/-- A literal is what is typed up to its second quote. Without that quote it is the rest of the
text, up to a last backslash. -/
theorem exists_decodes (quote : Char) (s : List Char) :
    ∃ body, Decodes quote body (scanLiteral quote s).1 ∧
      ((scanLiteral quote s).2.1 = true ∧ s = body ++ quote :: (scanLiteral quote s).2.2 ∨
        (scanLiteral quote s).2.1 = false ∧ (s = body ∨ s = body ++ ['\\'])) := by
  fun_induction scanLiteral quote s with
  | case1 => exact ⟨[], .nil, .inr ⟨rfl, .inl rfl⟩⟩
  | case2 => exact ⟨[], .nil, .inr ⟨rfl, .inr rfl⟩⟩
  | case3 e s content closed rest hrest ih =>
    rw [hrest] at ih
    obtain ⟨body, hbody, hends⟩ := ih
    refine ⟨'\\' :: e :: body, .escape (escapes_iff.2 rfl) hbody, ?_⟩
    rcases hends with ⟨hclosed, rfl⟩ | ⟨hopen, rfl | rfl⟩
    · exact .inl ⟨hclosed, rfl⟩
    · exact .inr ⟨hopen, .inl rfl⟩
    · exact .inr ⟨hopen, .inr rfl⟩
  | case4 s hescape => exact ⟨[], .nil, .inl ⟨rfl, rfl⟩⟩
  | case5 c s hescape hquote content closed rest hrest ih =>
    rw [hrest] at ih
    obtain ⟨body, hbody, hends⟩ := ih
    refine ⟨c :: body, .plain ⟨hescape, hquote⟩ hbody, ?_⟩
    rcases hends with ⟨hclosed, rfl⟩ | ⟨hopen, rfl | rfl⟩
    · exact .inl ⟨hclosed, rfl⟩
    · exact .inr ⟨hopen, .inl rfl⟩
    · exact .inr ⟨hopen, .inr rfl⟩

/-! ## What follows -/

/-- An open literal reaches to the end of the text. -/
theorem scanLiteral_rest_of_open (h : (scanLiteral quote s).2.1 = false) :
    (scanLiteral quote s).2.2 = [] := by
  fun_induction scanLiteral quote s <;> simp_all

/-- What is left behind a literal is an end of the text. -/
theorem scanLiteral_suffix (quote : Char) (s : List Char) : (scanLiteral quote s).2.2 <:+ s := by
  obtain ⟨body, -, ⟨-, hs⟩ | ⟨hopen, -⟩⟩ := exists_decodes quote s
  · exact ⟨body ++ [quote], by rw [List.append_assoc, List.singleton_append, ← hs]⟩
  · rw [scanLiteral_rest_of_open hopen]
    exact List.nil_suffix

/-- The text of a literal, and that it is read the same in front of anything if it is closed. -/
theorem exists_scanLiteral (hq : isQuote quote = true) (s : List Char) :
    ∃ u, s = u ++ (scanLiteral quote s).2.2 ∧
      ∀ t, ((scanLiteral quote s).2.1 = false → t = []) →
        scanLiteral quote (u ++ t) = ((scanLiteral quote s).1, (scanLiteral quote s).2.1, t) := by
  obtain ⟨body, hbody, ⟨hclosed, hs⟩ | ⟨hopen, hs⟩⟩ := exists_decodes quote s
  · refine ⟨body ++ [quote], by rw [List.append_assoc, List.singleton_append, ← hs], fun t _ => ?_⟩
    rw [List.append_assoc, List.singleton_append, hbody.scanLiteral_closed hq, hclosed]
  · have hrest := scanLiteral_rest_of_open hopen
    refine ⟨s, by rw [hrest, List.append_nil], fun t ht => ?_⟩
    rw [ht hopen, List.append_nil, ← hrest]

end Lexeme

end TableShell
