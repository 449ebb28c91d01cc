import Mathlib.Data.Nat.Digits.Defs
import TableShell.Json
import TableShell.Proofs.Number.Decimal

/-!
# JSON on one line

What the text of a JSON value on one line is made of (`Json.IsCompact`), said for any way to print
values: three words, the characters of numbers, strings in quotes with their escapes, and lists and
objects with commas between their parts. How a number is laid out is left open. Such a text contains
no control character, however deep the value is nested (`Json.IsCompact.noControl`), and
`Json.compact` is one way to print such texts (`Json.isCompact_compact`).
-/

namespace TableShell

/-! ## Control characters -/

/-- The text contains no character below U+0020. -/
def Text.NoControl (s : List Char) : Prop := ∀ c ∈ s, 0x20 ≤ c.toNat

instance (s : List Char) : Decidable (Text.NoControl s) := List.decidableBAll _ s

namespace Text.NoControl

variable {c : Char} {s t : List Char}

/-- The empty text contains no control character. -/
theorem nil : NoControl [] := List.forall_mem_nil _

/-- A printable character may be put before a text without control characters. -/
theorem cons (hc : 0x20 ≤ c.toNat) (hs : NoControl s) : NoControl (c :: s) :=
  List.forall_mem_cons.2 ⟨hc, hs⟩

/-- Texts without control characters may be put one after the other. -/
theorem append (hs : NoControl s) (ht : NoControl t) : NoControl (s ++ t) :=
  List.forall_mem_append.2 ⟨hs, ht⟩

/-- Texts without control characters may be joined by one. -/
theorem intercalate {pieces : List (List Char)} (hs : NoControl s)
    (hpieces : ∀ piece ∈ pieces, NoControl piece) : NoControl (List.intercalate s pieces) := by
  induction pieces with
  | nil => exact .nil
  | cons piece pieces ih =>
    obtain ⟨hpiece, hpieces⟩ := List.forall_mem_cons.1 hpieces
    cases pieces with
    | nil => rwa [List.intercalate_singleton]
    | cons next pieces =>
      rw [List.intercalate_cons_cons]
      exact (hpiece.append hs).append (ih hpieces)

end Text.NoControl

namespace Json

open Text Number

/-! ## Texts on one line -/

/-- A character of the text of a number. -/
def IsNumberChar (c : Char) : Prop := c.isDigit = true ∨ c ∈ ['-', '+', '.', 'e', 'E']

/-- The marks of the short escapes, each with the character that it stands for. -/
def shortEscapes : List (Char × Char) :=
  [('"', '"'), ('\\', '\\'), ('/', '/'), ('b', Char.ofNat 8), ('f', Char.ofNat 12), ('n', '\n'),
    ('r', '\r'), ('t', '\t')]

/-- The hexadecimal digit of a number, in either case. -/
def IsHexDigit (digit : Char) (n : Fin 16) : Prop :=
  digit = hexDigit n ∨ digit = (hexDigit n).toUpper

/-- The text stands for the character in a string. -/
inductive Spells : List Char → Char → Prop
  /-- Quotes, backslashes and control characters never stand for themselves. -/
  | itself {c : Char} (hcontrol : 0x20 ≤ c.toNat) (hquote : c ≠ '"') (hslash : c ≠ '\\') :
      Spells [c] c
  /-- A backslash and a letter or a mark. -/
  | short {mark c : Char} (hmark : (mark, c) ∈ shortEscapes) : Spells ['\\', mark] c
  /-- The code of the character in four hexadecimal digits. -/
  | code {digits : List Char} {values : List (Fin 16)} {c : Char} (hlength : values.length = 4)
      (hdigits : List.Forall₂ IsHexDigit digits values)
      (hcode : Nat.ofDigits 16 (values.reverse.map Fin.val) = c.toNat) :
      Spells ('\\' :: 'u' :: digits) c

/-- What is printed for a value is JSON on one line, without blanks between the parts of the value.
Nothing is said of a number but what characters it is written with. -/
structure IsCompact (print : Json → List Char) : Prop where
  null : print .null = "null".toList
  bool (b : Bool) : print (.bool b) = (if b then "true" else "false").toList
  int (n : Int) : ∀ c ∈ print (.int n), IsNumberChar c
  float (x : Binary64) : ∀ c ∈ print (.float x), IsNumberChar c
  /-- Each character is written by itself, between two quotes. -/
  str (s : String) : ∃ pieces, List.Forall₂ Spells pieces s.toList ∧
    print (.str s) = '"' :: pieces.flatten ++ ['"']
  arr (items : List Json) :
    print (.arr items) = '[' :: List.intercalate [','] (items.map print) ++ [']']
  /-- Names are written like strings. -/
  obj (fields : List (String × Json)) :
    print (.obj fields) =
      '{' :: List.intercalate [','] (fields.map fun e => print (.str e.1) ++ ':' :: print e.2) ++
        ['}']

/-! ## No control character -/

variable {print : Json → List Char} {c : Char} {s : List Char}

/-- The text of a number contains no control character. -/
theorem noControl_of_isNumberChar (hs : ∀ c ∈ s, IsNumberChar c) : NoControl s := by
  intro c hc
  obtain hdigit | hmark := hs c hc
  · have hle : 48 ≤ c.toNat := (Char.isDigit_iff_toNat.1 hdigit).1
    omega
  · have hmarks : ∀ c ∈ ['-', '+', '.', 'e', 'E'], 0x20 ≤ c.toNat := by simp
    exact hmarks c hmark

/-- Hexadecimal digits are printable. -/
theorem noControl_of_isHexDigit {values : List (Fin 16)} (hs : List.Forall₂ IsHexDigit s values) :
    NoControl s := by
  have hdigits : ∀ n : Fin 16,
      0x20 ≤ (hexDigit n).toNat ∧ 0x20 ≤ (hexDigit n).toUpper.toNat := by decide
  induction hs with
  | nil => exact .nil
  | @cons _ n _ _ hdigit _ ih =>
    obtain rfl | rfl := hdigit
    · exact .cons (hdigits n).1 ih
    · exact .cons (hdigits n).2 ih

/-- Whatever stands for a character in a string contains no control character. -/
theorem Spells.noControl (h : Spells s c) : NoControl s := by
  cases h with
  | itself hcontrol => exact .cons hcontrol .nil
  | @short mark _ hmark =>
    have hmarks : ∀ e ∈ shortEscapes, 0x20 ≤ e.1.toNat := by decide
    exact .cons (by decide) (.cons (hmarks (mark, c) hmark) .nil)
  | code _ hdigits =>
    exact .cons (by decide) (.cons (by decide) (noControl_of_isHexDigit hdigits))

/-- The pieces of a string contain no control character. -/
theorem noControl_flatten {pieces : List (List Char)} (h : List.Forall₂ Spells pieces s) :
    NoControl pieces.flatten := by
  induction h with
  | nil => exact .nil
  | cons hpiece _ ih => exact hpiece.noControl.append ih

namespace IsCompact

/-- The text of a string contains no control character, whatever the string contains. -/
theorem noControl_str (h : IsCompact print) (s : String) : NoControl (print (.str s)) := by
  obtain ⟨pieces, hpieces, hprint⟩ := h.str s
  rw [hprint]
  exact (NoControl.cons (by decide) (noControl_flatten hpieces)).append (by decide)

-- The induction is on the value: the parts of a list and of an object are values of their own.
mutual

/-- No control character reaches the text of a value. -/
theorem noControl (h : IsCompact print) : ∀ v : Json, NoControl (print v)
  | .null => by
    rw [h.null]
    decide
  | .bool b => by
    rw [h.bool]
    cases b <;> decide
  | .int n => noControl_of_isNumberChar (h.int n)
  | .float x => noControl_of_isNumberChar (h.float x)
  | .str s => h.noControl_str s
  | .arr items => by
    rw [h.arr]
    refine .append (.cons (by decide) (.intercalate (by decide) ?_)) (by decide)
    exact List.forall_mem_map.2 (h.noControl_items items)
  | .obj fields => by
    rw [h.obj]
    refine .append (.cons (by decide) (.intercalate (by decide) ?_)) (by decide)
    refine List.forall_mem_map.2 fun e he => ?_
    have hcolon : NoControl (':' :: print e.2) :=
      .cons (by decide) (h.noControl_fields fields e he)
    exact (h.noControl_str e.1).append hcolon

/-- No control character reaches the texts of the values in a list. -/
theorem noControl_items (h : IsCompact print) :
    ∀ items : List Json, ∀ v ∈ items, NoControl (print v)
  | [] => nofun
  | v :: vs => List.forall_mem_cons.2 ⟨h.noControl v, h.noControl_items vs⟩

/-- No control character reaches the texts of the values in an object. -/
theorem noControl_fields (h : IsCompact print) :
    ∀ fields : List (String × Json), ∀ e ∈ fields, NoControl (print e.2)
  | [] => nofun
  | (_, v) :: es => List.forall_mem_cons.2 ⟨h.noControl v, h.noControl_fields es⟩

end

end IsCompact

/-! ## One way to print -/

/-- A digit is a character of a number. -/
theorem isNumberChar_of_mem_digits {n : Nat} (hc : c ∈ Binary64.digits n) : IsNumberChar c :=
  .inl (isDigit_of_mem_digits hc)

/-- An integer is written with digits and perhaps a minus sign. -/
theorem isNumberChar_of_mem_intText {n : Int} (hc : c ∈ intText n) : IsNumberChar c := by
  have hdigits : ∀ c ∈ Nat.toDigits 10 n.natAbs, IsNumberChar c :=
    fun _ => isNumberChar_of_mem_digits
  rw [intText] at hc
  split at hc
  · obtain rfl | hc := List.mem_cons.1 hc
    · exact .inr (by decide)
    · exact hdigits c hc
  · exact hdigits c hc

/-- Digits with a point among them are a number. -/
theorem isNumberChar_of_mem_positional {ds : List Char} (hds : ∀ c ∈ ds, IsNumberChar c)
    (last : Int) : ∀ c ∈ Binary64.positional ds last, IsNumberChar c := by
  have hzeros (n : Nat) : ∀ c ∈ List.replicate n '0', IsNumberChar c := by
    intro c hc
    rw [List.eq_of_mem_replicate hc]
    exact .inl rfl
  have hpoint : IsNumberChar '.' := .inr (by decide)
  cases last with
  | ofNat n =>
    refine List.forall_mem_append.2 ⟨List.forall_mem_append.2 ⟨hds, hzeros n⟩, ?_⟩
    exact List.forall_mem_cons.2 ⟨hpoint, hzeros 1⟩
  | negSucc n =>
    have hpadded := List.forall_mem_append.2 ⟨hzeros (n + 1 + 1 - ds.length), hds⟩
    refine List.forall_mem_append.2 ⟨fun c hc => hpadded c (List.mem_of_mem_take hc), ?_⟩
    exact List.forall_mem_cons.2 ⟨hpoint, fun c hc => hpadded c (List.mem_of_mem_drop hc)⟩

/-- Digits with an exponent are a number. -/
theorem isNumberChar_of_mem_scientific {ds : List Char} (hds : ∀ c ∈ ds, IsNumberChar c)
    (first : Int) : ∀ c ∈ Binary64.scientific ds first, IsNumberChar c := by
  have hsign : IsNumberChar (if first < 0 then '-' else '+') := by
    split
    · exact .inr (by decide)
    · exact .inr (by decide)
  have hpower : ∀ c ∈ 'e' :: (if first < 0 then '-' else '+') :: Binary64.digits first.natAbs,
      IsNumberChar c := by
    refine List.forall_mem_cons.2 ⟨.inr (by decide), List.forall_mem_cons.2 ⟨hsign, ?_⟩⟩
    exact fun _ => isNumberChar_of_mem_digits
  have htail : ∀ c ∈ ds.tail, IsNumberChar c := fun c hc => hds c (List.mem_of_mem_tail hc)
  refine List.forall_mem_append.2 ⟨List.forall_mem_append.2 ⟨?_, ?_⟩, hpower⟩
  · exact fun c hc => hds c (List.mem_of_mem_take hc)
  · split
    · exact List.forall_mem_nil _
    · exact List.forall_mem_cons.2 ⟨.inr (by decide), htail⟩

/-- A floating-point number is written with the characters of a number. -/
theorem isNumberChar_of_mem_text (x : Binary64) : ∀ c ∈ x.text, IsNumberChar c := by
  have hunsigned (ds : List Char) (hds : ∀ c ∈ ds, IsNumberChar c) (last first : Int) :
      ∀ c ∈ if -5 ≤ first ∧ first < 16 then Binary64.positional ds last
        else Binary64.scientific ds first, IsNumberChar c := by
    split
    · exact isNumberChar_of_mem_positional hds last
    · exact isNumberChar_of_mem_scientific hds first
  have hdigits : ∀ c ∈ Binary64.digits x.shortest.1, IsNumberChar c :=
    fun _ => isNumberChar_of_mem_digits
  unfold Binary64.text
  dsimp only
  split
  · exact List.forall_mem_cons.2 ⟨.inr (by decide), hunsigned _ hdigits _ _⟩
  · exact hunsigned _ hdigits _ _

/-- What is written for a character in a string stands for it. -/
theorem spells_escape (c : Char) : Spells (escape c) c := by
  have hshort (mark d : Char) (hc : c.toNat = d.toNat) (hmark : (mark, d) ∈ shortEscapes) :
      Spells ['\\', mark] c := .short (Char.toNat_inj.1 hc ▸ hmark)
  have hcode (n m : Fin 16) (hc : Nat.ofDigits 16 [m.val, n.val, 0, 0] = c.toNat) :
      Spells ['\\', 'u', '0', '0', hexDigit n, hexDigit m] c := by
    have hdigits : List.Forall₂ IsHexDigit ['0', '0', hexDigit n, hexDigit m] [0, 0, n, m] :=
      .cons (.inl rfl) (.cons (.inl rfl) (.cons (.inl rfl) (.cons (.inl rfl) .nil)))
    exact .code rfl hdigits hc
  fun_cases escape c with
  | case3 _ _ hc => exact hshort 'b' (Char.ofNat 8) hc (by decide)
  | case4 _ _ _ hc => exact hshort 'f' (Char.ofNat 12) hc (by decide)
  | case8 _ _ _ _ _ _ _ hc =>
    refine hcode ⟨c.toNat / 16, by omega⟩ ⟨c.toNat % 16, Nat.mod_lt _ (by decide)⟩ ?_
    simp only [Nat.ofDigits_cons, Nat.ofDigits_nil]
    omega
  | case9 hquote hslash => exact .itself (by omega) hquote hslash
  | _ =>
    subst c
    exact .short (by decide)

/-- Values are written with commas between them. -/
theorem compactItems_eq (items : List Json) :
    compactItems items = List.intercalate [','] (items.map compact) := by
  induction items with
  | nil => rfl
  | cons v vs ih =>
    cases vs with
    | nil => rw [compactItems, List.map_singleton, List.intercalate_singleton]
    | cons w vs =>
      rw [compactItems.eq_3 _ _ (List.cons_ne_nil w vs), ih]
      simp only [List.map_cons, List.intercalate_cons_cons, List.append_assoc,
        List.singleton_append]

/-- Fields are written with commas between them. -/
theorem compactFields_eq (fields : List (String × Json)) :
    compactFields fields =
      List.intercalate [','] (fields.map fun e => quote e.1 ++ ':' :: e.2.compact) := by
  induction fields with
  | nil => rfl
  | cons e es ih =>
    cases es with
    | nil => rw [compactFields, List.map_singleton, List.intercalate_singleton]
    | cons f es =>
      rw [compactFields.eq_3 _ _ _ (List.cons_ne_nil f es), ih]
      simp only [List.map_cons, List.intercalate_cons_cons, List.append_assoc, List.cons_append,
        List.nil_append]

/-- The text of a value without blanks is JSON on one line. -/
theorem isCompact_compact : IsCompact compact where
  null := by rw [compact]
  bool b := by rw [compact]
  int n := by
    rw [compact]
    exact fun _ => isNumberChar_of_mem_intText
  float x := by
    rw [compact]
    exact isNumberChar_of_mem_text x
  str s := by
    refine ⟨s.toList.map escape, ?_, ?_⟩
    · exact List.forall₂_map_left_iff.2 (List.forall₂_same.2 fun c _ => spells_escape c)
    · rw [compact, quote, List.flatMap_def]
  arr items := by rw [compact, compactItems_eq]
  obj fields := by
    rw [compact, compactFields_eq]
    simp only [compact]

end Json

end TableShell
