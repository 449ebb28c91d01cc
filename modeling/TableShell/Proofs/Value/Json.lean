import TableShell.Proofs.Number.Decimal
import TableShell.Value.Json

/-!
# Numbers shown as JSON

A floating-point number is shown by its fewest digits, however these are laid out
(`Json.PrintsFewestDigits`). A value is shown with the numbers that it has if each of its number
texts is kept, however deep the text stands in sets, lists and maps (`Value.shows_toJson_iff`). A
text is kept if it is an integer of 64 bits, if it is too large for a floating-point number and
stays a string, or if its number is the one that is shown for some floating-point number
(`Value.showsNumber_numberToJson_iff`). That is so for 15 digits (`Value.kept_of_hasDigits`) and
never for more than 17 (`Value.hasDigits_of_kept`).
-/

namespace TableShell

open Number

/-- The number that a decimal text stands for. -/
def Number.numberOf? (text : List Char) : Option ℚ := (Decimal.read? text).map Decimal.value

/-- The number that is shown for a floating-point number: that of its fewest digits. -/
def Number.Binary64.shown (x : Binary64) : ℚ := if x.negative then -x.written else x.written

/-- What is printed for a floating-point number is a decimal text of its fewest digits, with a point
and an exponent wherever they may stand. -/
def Json.PrintsFewestDigits (print : Json → List Char) : Prop :=
  ∀ x : Binary64, x.Canonical → numberOf? (print (.float x)) = some x.shown

/-- The number that is shown: that of the text that is printed. -/
def Json.number? (print : Json → List Char) : Json → Option ℚ
  | int n => some n
  | float x => numberOf? (print (.float x))
  | str s => numberOf? s.toList
  | _ => none

/-- What is written for a floating-point number stands for the number of its fewest digits. -/
theorem Number.Binary64.numberOf?_text (x : Binary64) : numberOf? x.text = some x.shown := by
  obtain ⟨d, hd, hsign, hmagnitude⟩ := x.read?_text
  rw [numberOf?, hd, Option.map_some, Decimal.value, hsign, hmagnitude, shown]

/-- Without its sign, the number that is shown is the one that is written. -/
theorem Number.Binary64.abs_shown (x : Binary64) : |x.shown| = x.written := by
  rw [shown]
  split
  · rw [abs_neg, abs_of_nonneg x.written_nonneg]
  · exact abs_of_nonneg x.written_nonneg

/-- Values printed on one line have floating-point numbers with their fewest digits. -/
theorem Json.printsFewestDigits_compact : Json.PrintsFewestDigits compact := by
  intro x _
  rw [compact, x.numberOf?_text]

namespace Value

variable {print : Json → List Char} {text : String} {q : ℚ}

/-! ## One number -/

/-- The JSON shows the number that the text stands for. -/
def ShowsNumber (print : Json → List Char) (text : String) (json : Json) : Prop :=
  ∃ q, numberOf? text.toList = some q ∧ json.number? print = some q

/-- A number is the one that is shown for some floating-point number. -/
def IsShown (q : ℚ) : Prop := ∃ x : Binary64, x.Canonical ∧ x.shown = q

/-- The text is an integer of 64 bits, or its number is too large for a floating-point number or is
the one that is shown for such a number. -/
def Kept (text : String) : Prop :=
  (readInt64 text.toList).isSome = true ∨
    ∃ q, numberOf? text.toList = some q ∧ (Binary64.overflow ≤ |q| ∨ IsShown q)

/-- An integer of 64 bits is read as that integer without a bound. -/
theorem readInt_of_readInt64 {n : Int} {s : List Char} (h : readInt64 s = some n) :
    readInt s = some n := by
  rw [readInt64, readIntIn, Option.filter_eq_some_iff] at h
  exact h.1

/-- A number that is an integer of 64 bits is shown exactly. -/
theorem showsNumber_of_readInt64 {n : Int} (h : readInt64 text.toList = some n) :
    ShowsNumber print text (numberToJson text) := by
  obtain ⟨d, hd, hvalue⟩ := Decimal.read?_of_readInt (readInt_of_readInt64 h)
  refine ⟨n, ?_, ?_⟩
  · rw [numberOf?, hd, Option.map_some, hvalue]
  · rw [numberToJson, h]
    rfl

/-- A text that writes a number is read as a decimal of that value. -/
theorem exists_read?_of_numberOf? {s : List Char} (h : numberOf? s = some q) :
    ∃ d, Decimal.read? s = some d ∧ d.value = q := Option.map_eq_some_iff.1 h

/-- A number that is shown for a floating-point number is the one that is rounded to it. -/
theorem IsShown.written_eq (h : IsShown q) {x : Binary64} (hx : x.Canonical)
    (hq : x.Nearest |q|) : x.written = |q| := by
  obtain ⟨y, hy, rfl⟩ := h
  have hnearest : y.Nearest |y.shown| := by
    rw [y.abs_shown]
    exact Binary64.nearest_written hy
  have hsigned : { y with negative := x.negative } = x :=
    Binary64.Canonical.eq_of_nearest ⟨hy.1, hy.2, hy.3, hy.4⟩ hx rfl hnearest hq
  rw [y.abs_shown, ← hsigned]
  rfl

/-- The JSON of a number that is neither an integer of 64 bits nor too large. -/
theorem showsNumber_float_iff (hprint : Json.PrintsFewestDigits print) {d : Decimal} {x : Binary64}
    (hd : Decimal.read? text.toList = some d) (hx : x.Canonical) (hsign : x.negative = d.negative)
    (hq : x.Nearest d.magnitude) : ShowsNumber print text (.float x) ↔ IsShown d.value := by
  have hnumber : numberOf? text.toList = some d.value := by rw [numberOf?, hd, Option.map_some]
  have hshown : (Json.float x).number? print = some x.shown := by rw [Json.number?, hprint x hx]
  constructor
  · rintro ⟨q, hq, hfloat⟩
    obtain rfl : d.value = q := by simpa [hnumber] using hq
    exact ⟨x, hx, Option.some.inj (hshown.symm.trans hfloat)⟩
  · intro h
    have hwritten := h.written_eq hx (by rwa [Decimal.abs_value])
    refine ⟨d.value, hnumber, ?_⟩
    rw [hshown, Binary64.shown, hsign, hwritten, Decimal.abs_value, Decimal.value]

/-- The JSON of a number shows it exactly if its text is kept. -/
theorem showsNumber_numberToJson_iff (hprint : Json.PrintsFewestDigits print)
    (h : numberOf? text.toList = some q) :
    ShowsNumber print text (numberToJson text) ↔ Kept text := by
  obtain ⟨d, hd, rfl⟩ := exists_read?_of_numberOf? h
  cases hint : readInt64 text.toList with
  | some n => simp [Kept, hint, showsNumber_of_readInt64 hint]
  | none =>
    have hkept : Kept text ↔ Binary64.overflow ≤ |d.value| ∨ IsShown d.value := by
      rw [Kept, hint]
      constructor
      · rintro (hsome | ⟨q, hq, hkept⟩)
        · cases hsome
        · obtain rfl : d.value = q := by simpa [h] using hq
          exact hkept
      · exact fun hkept => .inr ⟨_, h, hkept⟩
    rw [hkept, Decimal.abs_value]
    cases hrounded : d.toBinary64? with
    | none =>
      have hjson : numberToJson text = .str text := by simp [numberToJson, hint, hd, hrounded]
      rw [hjson]
      exact ⟨fun _ => .inl (Decimal.toBinary64?_eq_none_iff.1 hrounded), fun _ => ⟨_, h, h⟩⟩
    | some x =>
      have hjson : numberToJson text = .float x := by simp [numberToJson, hint, hd, hrounded]
      rw [hjson]
      obtain ⟨hx, hsign, hq⟩ := Decimal.toBinary64?_eq_some_iff.1 hrounded
      rw [or_iff_right (not_le.2 (hx.lt_overflow hq))]
      exact showsNumber_float_iff hprint hd hx hsign hq

/-! ## How many digits are kept -/

/-- Numbers of 15 digits are kept, unless they are so small that the significand has fewer than 53
bits. -/
theorem kept_of_hasDigits (h : numberOf? text.toList = some q) (hdigits : HasDigits 15 |q|)
    (hsize : q = 0 ∨ 2 ^ (-1022 : Int) ≤ |q|) : Kept text := by
  obtain ⟨d, hd, rfl⟩ := exists_read?_of_numberOf? h
  refine .inr ⟨_, h, ?_⟩
  cases hrounded : d.toBinary64? with
  | none =>
    rw [Decimal.abs_value]
    exact .inl (Decimal.toBinary64?_eq_none_iff.1 hrounded)
  | some x =>
    obtain ⟨hx, hsign, hq⟩ := Decimal.toBinary64?_eq_some_iff.1 hrounded
    rw [← Decimal.abs_value] at hq
    have hwritten : x.written = |d.value| := by
      obtain hzero | hsize := hsize
      · rw [hzero, abs_zero] at hq ⊢
        exact Binary64.written_of_zero (hx.significand_eq_zero hq)
      · exact Binary64.written_eq_of_nearest (hx.full_of_nearest hq hsize) hdigits hq
    refine .inr ⟨x, hx, ?_⟩
    rw [Binary64.shown, hsign, hwritten, Decimal.abs_value, Decimal.value]

/-- Of a number that becomes a floating-point number, no more than 17 digits are kept. -/
theorem hasDigits_of_kept (h : numberOf? text.toList = some q) (hkept : Kept text)
    (hint : readInt64 text.toList = none) (hsize : |q| < Binary64.overflow) : HasDigits 17 |q| := by
  obtain hsome | ⟨p, hp, hover | ⟨x, -, rfl⟩⟩ := hkept
  · rw [hint] at hsome
    cases hsome
  · obtain rfl : q = p := by simpa [h] using hp
    exact absurd hsize (not_lt.2 hover)
  · obtain rfl : q = x.shown := by simpa [h] using hp
    rw [x.abs_shown]
    exact x.hasDigits_written

/-! ## Every number of a value -/

mutual

/-- The texts of the numbers in a value, at any depth. -/
def numberTexts : Value → List String
  | number text => [text]
  | numbers set => set
  | list items => itemsNumberTexts items
  | map entries => entriesNumberTexts entries
  | _ => []

/-- The texts of the numbers in a list of values. -/
def itemsNumberTexts : List Value → List String
  | [] => []
  | v :: vs => numberTexts v ++ itemsNumberTexts vs

/-- The texts of the numbers in a list of entries. -/
def entriesNumberTexts : List (String × Value) → List String
  | [] => []
  | (_, v) :: es => numberTexts v ++ entriesNumberTexts es

end

mutual

/-- The names in every map of a value are in order. -/
def Ordered : Value → Prop
  | list items => ItemsOrdered items
  | map entries => Entries.Sorted entries ∧ EntriesOrdered entries
  | _ => True

/-- The names in every map of a list of values are in order. -/
def ItemsOrdered : List Value → Prop
  | [] => True
  | v :: vs => Ordered v ∧ ItemsOrdered vs

/-- The names in every map of a list of entries are in order. -/
def EntriesOrdered : List (String × Value) → Prop
  | [] => True
  | (_, v) :: es => Ordered v ∧ EntriesOrdered es

end

mutual

/-- The JSON shows the value, with the numbers that it has. -/
def Shows (print : Json → List Char) : Value → Json → Prop
  | number text, json => ShowsNumber print text json
  | numbers set, json => ∃ items, json = .arr items ∧ List.Forall₂ (ShowsNumber print) set items
  | list values, json => ∃ items, json = .arr items ∧ ItemsShow print values items
  | map entries, json => ∃ fields, json = .obj fields ∧ EntriesShow print entries fields
  | string s, json => json = .str s
  | binary bytes, json => json = .ofBytes bytes
  | bool b, json => json = .bool b
  | null, json => json = .null
  | strings set, json => json = .arr (set.map .str)
  | binaries set, json => json = .arr (set.map .ofBytes)

/-- The JSON values show the values. -/
def ItemsShow (print : Json → List Char) : List Value → List Json → Prop
  | [], items => items = []
  | v :: vs, items =>
    ∃ json rest, items = json :: rest ∧ Shows print v json ∧ ItemsShow print vs rest

/-- The fields have the names of the entries and show their values. -/
def EntriesShow (print : Json → List Char) : List (String × Value) → List (String × Json) → Prop
  | [], fields => fields = []
  | (name, v) :: es, fields =>
    ∃ json rest, fields = (name, json) :: rest ∧ Shows print v json ∧ EntriesShow print es rest

end

/-- The entries of a map are converted one by one, under the names they have. -/
theorem entriesToJson_eq_map (entries : List (String × Value)) :
    entriesToJson entries = entries.map fun e => (e.1, e.2.toJson) := by
  induction entries with
  | nil => rfl
  | cons e es ih => rw [entriesToJson, ih, List.map_cons]

/-- Converted entries keep their order, so that none is lost in the object they are put into. -/
theorem ofList_entriesToJson {entries : List (String × Value)} (h : Entries.Sorted entries) :
    Entries.ofList (entriesToJson entries) = entriesToJson entries := by
  refine Entries.Sorted.ofList_eq ?_
  rw [entriesToJson_eq_map]
  exact List.Pairwise.map _ (fun _ _ hlt => hlt) h

mutual

/-- A value is shown with its numbers exactly if their texts are kept. -/
theorem shows_toJson_iff (hprint : Json.PrintsFewestDigits print) : ∀ {v : Value}, v.Ordered →
    (∀ text ∈ v.numberTexts, ∃ q, numberOf? text.toList = some q) →
      (v.Shows print v.toJson ↔ ∀ text ∈ v.numberTexts, Kept text)
  | number text, _, htexts => by
    obtain ⟨q, hq⟩ := htexts text List.mem_cons_self
    rw [Shows, toJson, numberTexts, List.forall_mem_singleton]
    exact showsNumber_numberToJson_iff hprint hq
  | numbers set, _, htexts => by
    rw [numberTexts] at htexts ⊢
    simp only [Shows, toJson, Json.arr.injEq, exists_eq_left', List.forall₂_map_right_iff,
      List.forall₂_same]
    refine forall₂_congr fun text htext => ?_
    obtain ⟨q, hq⟩ := htexts text htext
    exact showsNumber_numberToJson_iff hprint hq
  | list values, hordered, htexts => by
    simp only [Shows, toJson, Json.arr.injEq, exists_eq_left']
    exact itemsShow_itemsToJson_iff hprint hordered htexts
  | map entries, hordered, htexts => by
    rw [toJson, ofList_entriesToJson hordered.1]
    simp only [Shows, Json.obj.injEq, exists_eq_left']
    exact entriesShow_entriesToJson_iff hprint hordered.2 htexts
  | string _, _, _ | binary _, _, _ | bool _, _, _ | null, _, _ | strings _, _, _
  | binaries _, _, _ => by simp [Shows, toJson, numberTexts]

/-- Converted elements show what they stand for exactly when each of their numbers is kept. -/
theorem itemsShow_itemsToJson_iff (hprint : Json.PrintsFewestDigits print) :
    ∀ {values : List Value}, ItemsOrdered values →
    (∀ text ∈ itemsNumberTexts values, ∃ q, numberOf? text.toList = some q) →
      (ItemsShow print values (itemsToJson values) ↔
        ∀ text ∈ itemsNumberTexts values, Kept text)
  | [], _, _ => by simp [ItemsShow, itemsToJson, itemsNumberTexts]
  | v :: vs, hordered, htexts => by
    rw [itemsNumberTexts, List.forall_mem_append] at htexts ⊢
    rw [itemsToJson, ItemsShow, ← shows_toJson_iff hprint hordered.1 htexts.1,
      ← itemsShow_itemsToJson_iff hprint hordered.2 htexts.2]
    constructor
    · rintro ⟨_, _, ⟨⟩, hv, hvs⟩
      exact ⟨hv, hvs⟩
    · exact fun ⟨hv, hvs⟩ => ⟨_, _, rfl, hv, hvs⟩

/-- Converted entries show what they stand for exactly when each of their numbers is kept. -/
theorem entriesShow_entriesToJson_iff (hprint : Json.PrintsFewestDigits print) :
    ∀ {entries : List (String × Value)}, EntriesOrdered entries →
    (∀ text ∈ entriesNumberTexts entries, ∃ q, numberOf? text.toList = some q) →
      (EntriesShow print entries (entriesToJson entries) ↔
        ∀ text ∈ entriesNumberTexts entries, Kept text)
  | [], _, _ => by simp [EntriesShow, entriesToJson, entriesNumberTexts]
  | (name, v) :: es, hordered, htexts => by
    rw [entriesNumberTexts, List.forall_mem_append] at htexts ⊢
    rw [entriesToJson, EntriesShow, ← shows_toJson_iff hprint hordered.1 htexts.1,
      ← entriesShow_entriesToJson_iff hprint hordered.2 htexts.2]
    constructor
    · rintro ⟨_, _, ⟨⟩, hv, hes⟩
      exact ⟨hv, hes⟩
    · exact fun ⟨hv, hes⟩ => ⟨_, _, rfl, hv, hes⟩

end

/-- However the digits of a floating-point number are laid out, a value is shown with all of its
numbers exactly if each of their texts is kept. Numbers of 15 digits are, unless they are very
small, and of a number that is neither an integer of 64 bits nor too large for a floating-point
number no more than 17 digits are. -/
theorem numbers_kept (hprint : Json.PrintsFewestDigits print) {v : Value} (hordered : v.Ordered)
    (hnumbers : ∀ text ∈ v.numberTexts, ∃ q, numberOf? text.toList = some q) :
    (v.Shows print v.toJson ↔ ∀ text ∈ v.numberTexts, Kept text) ∧
      ∀ text ∈ v.numberTexts, ∀ q, numberOf? text.toList = some q →
        (HasDigits 15 |q| → q = 0 ∨ 2 ^ (-1022 : Int) ≤ |q| → Kept text) ∧
        (Kept text → readInt64 text.toList = none → |q| < Binary64.overflow →
          HasDigits 17 |q|) := by
  refine ⟨shows_toJson_iff hprint hordered hnumbers, fun text _ q hq => ⟨?_, ?_⟩⟩
  · exact kept_of_hasDigits hq
  · exact hasDigits_of_kept hq

/-- A number of 19 digits in a set in a list is shown with another value. -/
theorem numbers_kept_nineteen :
    Json.PrintsFewestDigits Json.compact ∧
      numberOf? "0.1234567890123456789".toList = some (1234567890123456789 * 10 ^ (-19 : Int)) ∧
      (Value.list [.numbers ["0.1234567890123456789"]]).Ordered ∧
      ¬ (Value.list [.numbers ["0.1234567890123456789"]]).Shows Json.compact
        (Value.list [.numbers ["0.1234567890123456789"]]).toJson := by
  have hread : Decimal.read? "0.1234567890123456789".toList =
      some ⟨false, 1234567890123456789, -19⟩ := by decide +kernel
  have hnumber : numberOf? "0.1234567890123456789".toList =
      some (1234567890123456789 * 10 ^ (-19 : Int)) := by
    rw [numberOf?, hread]
    simp [Decimal.value, Decimal.magnitude]
  have hint : readInt64 "0.1234567890123456789".toList = none := by decide +kernel
  have hordered : (Value.list [.numbers ["0.1234567890123456789"]]).Ordered :=
    ⟨trivial, trivial⟩
  have htexts : (Value.list [.numbers ["0.1234567890123456789"]]).numberTexts =
      ["0.1234567890123456789"] := rfl
  obtain ⟨hshows, hdigits⟩ := numbers_kept Json.printsFewestDigits_compact hordered
    (by simpa only [htexts, List.forall_mem_singleton] using ⟨_, hnumber⟩)
  simp only [htexts, List.forall_mem_singleton] at hshows hdigits
  have hpositive : |(1234567890123456789 * 10 ^ (-19 : Int) : ℚ)| =
      (1234567890123456789 : Nat) * 10 ^ (-19 : Int) := by
    rw [abs_of_nonneg (by positivity)]
    norm_num
  have hsmall : |(1234567890123456789 * 10 ^ (-19 : Int) : ℚ)| < Binary64.overflow := by
    have hpow : (1 : ℚ) ≤ 2 ^ Binary64.maxExponent := one_le_zpow₀ one_le_two (by decide)
    rw [hpositive, Binary64.overflow]
    norm_num
    linarith
  refine ⟨Json.printsFewestDigits_compact, hnumber, hordered, fun h => ?_⟩
  have hfew := (hdigits _ hnumber).2 (hshows.1 h) hint hsmall
  rw [hpositive] at hfew
  exact not_hasDigits (by norm_num) (by norm_num) hfew

end Value

end TableShell
