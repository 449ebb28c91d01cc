import TableShell.Flags

/-!
# Flags in a command line

The spellings of a flag (`Bears`). Where every flag takes a value and no two are spelled alike
(`FlagGrammar.OnlyValues`), a word that looks like a flag is read as the one flag it is a spelling
of, or refused (`FlagGrammar.OnlyValues.addAny_eq`).
-/

namespace TableShell

/-- The word looks like a flag: it starts with a hyphen and goes on. -/
def LooksLikeFlag (word : String) : Prop := ∃ c cs, word.toList = '-' :: c :: cs

/-- A word looks like a flag when it starts with a hyphen and has more behind it. -/
theorem looksLikeFlag_iff {word : String} :
    LooksLikeFlag word ↔ word.toList.head? = some '-' ∧ word.toList.tail ≠ [] := by
  rw [LooksLikeFlag]
  cases word.toList with
  | nil => simp
  | cons d cs => cases cs <;> simp

instance (word : String) : Decidable (LooksLikeFlag word) := decidable_of_iff' _ looksLikeFlag_iff

/-- The word is a spelling of the flag with the name, with a value attached to it or without one. -/
inductive Bears (flags : List Flag) : String → String → Option String → Prop
  /-- Like `-r`. -/
  | letter {flag : Flag} {c : Char} (hflag : flag ∈ flags) (hc : flag.letter = some c) :
      Bears flags (String.ofList ['-', c]) flag.name none
  /-- Like `-rx`. -/
  | joined {flag : Flag} {c : Char} {value : String} (hflag : flag ∈ flags)
      (hc : flag.letter = some c) (hne : value ≠ "") (hvalue : value.toList.head? ≠ some '=') :
      Bears flags (String.ofList ('-' :: c :: value.toList)) flag.name (some value)
  /-- Like `-r=x`. -/
  | letterEquals {flag : Flag} {c : Char} {value : String} (hflag : flag ∈ flags)
      (hc : flag.letter = some c) :
      Bears flags (String.ofList ('-' :: c :: '=' :: value.toList)) flag.name (some value)
  /-- Like `--region`. -/
  | name {flag : Flag} (hflag : flag ∈ flags) : Bears flags ("--" ++ flag.name) flag.name none
  /-- Like `--region=x`. -/
  | nameEquals {flag : Flag} {value : String} (hflag : flag ∈ flags) :
      Bears flags ("--" ++ flag.name ++ "=" ++ value) flag.name (some value)

namespace FlagGrammar

/-- All flags take values, any value and any other words are allowed, and no two flags are spelled
alike. -/
structure OnlyValues (g : FlagGrammar) : Prop where
  kind_eq : ∀ flag ∈ g.flags, flag.kind = .value
  maxWords_eq : g.maxWords = none
  allowsValue : ∀ name value, g.allowsValue name value = true
  allowsWord : ∀ word, g.allowsWord word = true
  name_ne : ∀ flag ∈ g.flags, flag.name ≠ "" ∧ '=' ∉ flag.name.toList
  letter_ne : ∀ flag ∈ g.flags, flag.letter ≠ some '-'
  name_inj : ∀ flag ∈ g.flags, ∀ other ∈ g.flags, flag.name = other.name → flag = other
  letter_inj : ∀ flag ∈ g.flags, ∀ other ∈ g.flags,
    flag.letter.isSome = true → flag.letter = other.letter → flag = other

/-- The value behind the letter of a flag. -/
def valueBehindLetter : List Char → Option String
  | [] => none
  | '=' :: value => some (String.ofList value)
  | value => some (String.ofList value)

/-- The value behind the name of a flag and an equals sign. -/
def valueBehindName : List Char → Option String
  | [] => none
  | _ :: value => some (String.ofList value)

/-- The flag that a word is a spelling of, and the value attached to it. -/
def flag? (g : FlagGrammar) (word : String) : Option (Flag × Option String) :=
  match word.toList with
  | '-' :: '-' :: cs =>
    (g.flags.find? (·.name == String.ofList (cs.takeWhile (· != '=')))).map fun flag =>
      (flag, valueBehindName (cs.dropWhile (· != '=')))
  | '-' :: c :: cs =>
    (g.flags.find? (·.letter == some c)).map fun flag => (flag, valueBehindLetter cs)
  | _ => none

variable {g : FlagGrammar} {word name value : String} {value? : Option String} {flag : Flag}
  {given : GivenFlags}

/-! ## What a word is a spelling of -/

/-- A flag is found by a property that no other flag has. -/
theorem find?_eq_some {p : Flag → Bool} {flags : List Flag} (hflag : flag ∈ flags)
    (hp : p flag = true) (hunique : ∀ other ∈ flags, p other = true → flag = other) :
    flags.find? p = some flag := by
  obtain ⟨other, hother⟩ := Option.isSome_iff_exists.1 (List.find?_isSome.2 ⟨flag, hflag, hp⟩)
  rw [hother, hunique other (List.mem_of_find?_eq_some hother) (List.find?_some hother)]

/-- A word with one hyphen is found by its letter, with what stands behind the letter as the value.
-/
theorem flag?_letter (g : FlagGrammar) {c : Char} (hc : c ≠ '-') (cs : List Char) :
    g.flag? (String.ofList ('-' :: c :: cs)) =
      (g.flags.find? (·.letter == some c)).map fun flag => (flag, valueBehindLetter cs) := by
  rw [flag?, String.toList_ofList]
  split
  · next heq => exact absurd (List.cons.inj (List.cons.inj heq).2).1 hc
  · next heq =>
    obtain ⟨rfl, rfl⟩ := List.cons.inj (List.cons.inj heq).2
    rfl
  · next h => exact absurd rfl (h c cs)

/-- A word with two hyphens is found by its name up to the equals sign, with what stands behind the
sign as the value. -/
theorem flag?_name (g : FlagGrammar) (cs : List Char) :
    g.flag? (String.ofList ('-' :: '-' :: cs)) =
      (g.flags.find? (·.name == String.ofList (cs.takeWhile (· != '=')))).map fun flag =>
        (flag, valueBehindName (cs.dropWhile (· != '='))) := by
  rw [flag?, String.toList_ofList]
  rfl

/-- A word in which a flag is found looks like one. -/
theorem looksLikeFlag_of_flag? {found : Flag × Option String} (h : g.flag? word = some found) :
    LooksLikeFlag word := by
  rw [flag?] at h
  split at h
  · next cs hword => exact ⟨_, cs, hword⟩
  · next c cs _ hword => exact ⟨c, cs, hword⟩
  · cases h

/-- A letter may be followed by its value without an equals sign. -/
theorem valueBehindLetter_cons {c : Char} (hc : c ≠ '=') (cs : List Char) :
    valueBehindLetter (c :: cs) = some (String.ofList (c :: cs)) := by
  unfold valueBehindLetter
  split
  · next h => cases h
  · next h => exact absurd (List.cons.inj h).1 hc
  · rfl

/-- A value that is not empty and has no equals sign in front is read as it stands behind a letter.
-/
theorem valueBehindLetter_of_ne (hne : value ≠ "") (hvalue : value.toList.head? ≠ some '=') :
    valueBehindLetter value.toList = some value := by
  cases hcs : value.toList with
  | nil => exact absurd (String.toList_inj.1 hcs) hne
  | cons c cs =>
    rw [hcs, List.head?_cons] at hvalue
    rw [valueBehindLetter_cons (fun hc => hvalue (congrArg some hc)), ← hcs, String.ofList_toList]

/-- The characters of a flag written by its name alone. -/
theorem toWord_name (flag : Flag) :
    "--" ++ flag.name = String.ofList ('-' :: '-' :: (flag.name.toList ++ [])) := by
  rw [← String.toList_inj]
  simp

/-- The characters of a flag written by its name, with its value behind an equals sign. -/
theorem toWord_nameEquals (flag : Flag) (value : String) :
    "--" ++ flag.name ++ "=" ++ value =
      String.ofList ('-' :: '-' :: (flag.name.toList ++ '=' :: value.toList)) := by
  rw [← String.toList_inj]
  simp

/-- A word that is read as a flag is a spelling of it. -/
theorem bears_of_flag? (h : g.flag? word = some (flag, value?)) :
    Bears g.flags word flag.name value? := by
  obtain ⟨cs, rfl⟩ : ∃ cs, word = String.ofList cs := ⟨word.toList, by simp⟩
  rw [flag?, String.toList_ofList] at h
  split at h
  · next cs =>
    obtain ⟨flag, hfind, heq⟩ := Option.map_eq_some_iff.1 h
    obtain ⟨rfl, rfl⟩ := Prod.mk.inj heq
    have hflag := List.mem_of_find?_eq_some hfind
    have hname : flag.name = String.ofList (cs.takeWhile (· != '=')) := by
      simpa using List.find?_some hfind
    have hcut : cs = flag.name.toList ++ cs.dropWhile (· != '=') := by
      rw [hname, String.toList_ofList, List.takeWhile_append_dropWhile]
    have hhead := List.head?_dropWhile_not (· != '=') cs
    generalize cs.dropWhile (· != '=') = rest at hcut hhead ⊢
    rw [hcut]
    cases rest with
    | nil =>
      rw [← toWord_name]
      exact .name hflag
    | cons c value =>
      obtain rfl : c = '=' := by simpa using hhead
      have hspelled := toWord_nameEquals flag (String.ofList value)
      rw [String.toList_ofList] at hspelled
      rw [← hspelled]
      exact .nameEquals hflag
  · next c cs _ =>
    obtain ⟨flag, hfind, heq⟩ := Option.map_eq_some_iff.1 h
    obtain ⟨rfl, rfl⟩ := Prod.mk.inj heq
    have hflag := List.mem_of_find?_eq_some hfind
    have hletter : flag.letter = some c := by simpa using List.find?_some hfind
    unfold valueBehindLetter
    split
    · exact .letter hflag hletter
    · next value =>
      have hspelled : Bears g.flags
          (String.ofList ('-' :: c :: '=' :: (String.ofList value).toList)) flag.name
          (some (String.ofList value)) := .letterEquals hflag hletter
      rwa [String.toList_ofList] at hspelled
    · next hnil heq =>
      have hne : String.ofList cs ≠ "" := fun hempty =>
        hnil (by simpa using congrArg String.toList hempty)
      have hvalue : (String.ofList cs).toList.head? ≠ some '=' := by
        rw [String.toList_ofList]
        intro hhead
        obtain ⟨value, rfl⟩ := List.head?_eq_some_iff.1 hhead
        exact heq value rfl
      have hspelled : Bears g.flags _ flag.name _ := .joined hflag hletter hne hvalue
      rwa [String.toList_ofList] at hspelled
  · cases h

namespace OnlyValues

variable (hg : g.OnlyValues)
include hg

/-- A flag is found by its letter. -/
theorem flag?_of_letter {c : Char} (hflag : flag ∈ g.flags) (hc : flag.letter = some c)
    (cs : List Char) :
    g.flag? (String.ofList ('-' :: c :: cs)) = some (flag, valueBehindLetter cs) := by
  have hne : c ≠ '-' := by
    rintro rfl
    exact hg.letter_ne flag hflag hc
  have hfind : g.flags.find? (·.letter == some c) = some flag := by
    refine find?_eq_some hflag (beq_iff_eq.2 hc) fun other hother hletter => ?_
    exact hg.letter_inj flag hflag other hother (Option.isSome_of_eq_some hc)
      (hc.trans (beq_iff_eq.1 hletter).symm)
  rw [flag?_letter g hne, hfind]
  rfl

/-- A flag is found by its name, alone or with an equals sign behind it. -/
theorem flag?_of_name (hflag : flag ∈ g.flags) {rest : List Char}
    (hrest : ∀ c ∈ rest.head?, c = '=') :
    g.flag? (String.ofList ('-' :: '-' :: (flag.name.toList ++ rest))) =
      some (flag, valueBehindName rest) := by
  have hname : ∀ c ∈ flag.name.toList, (c != '=') = true := by
    intro c hc
    rw [bne_iff_ne]
    rintro rfl
    exact (hg.name_ne flag hflag).2 hc
  have hcut : rest.takeWhile (· != '=') = [] ∧ rest.dropWhile (· != '=') = rest := by
    cases rest with
    | nil => exact ⟨rfl, rfl⟩
    | cons c rest =>
      rw [hrest c rfl]
      exact ⟨rfl, rfl⟩
  have hfind : g.flags.find? (·.name == flag.name) = some flag := by
    refine find?_eq_some hflag (beq_self_eq_true _) fun other hother hother' => ?_
    exact hg.name_inj flag hflag other hother (beq_iff_eq.1 hother').symm
  rw [flag?_name, List.takeWhile_append_of_pos hname, List.dropWhile_append_of_pos hname, hcut.1,
    hcut.2, List.append_nil, String.ofList_toList, hfind]
  rfl

/-- The spellings of a flag are the words that are read as it. -/
theorem bears_iff :
    Bears g.flags word name value? ↔
      ∃ flag, g.flag? word = some (flag, value?) ∧ flag.name = name := by
  constructor
  · intro h
    cases h with
    | letter hflag hc => exact ⟨_, hg.flag?_of_letter hflag hc [], rfl⟩
    | @joined flag c value hflag hc hne hvalue =>
      refine ⟨flag, ?_, rfl⟩
      rw [hg.flag?_of_letter hflag hc, valueBehindLetter_of_ne hne hvalue]
    | @letterEquals flag c value hflag hc =>
      refine ⟨flag, ?_, rfl⟩
      rw [hg.flag?_of_letter hflag hc, valueBehindLetter, String.ofList_toList]
    | @name flag hflag =>
      refine ⟨flag, ?_, rfl⟩
      rw [toWord_name, hg.flag?_of_name hflag (by simp)]
      rfl
    | @nameEquals flag value hflag =>
      refine ⟨flag, ?_, rfl⟩
      rw [toWord_nameEquals, hg.flag?_of_name hflag (by simp), valueBehindName,
        String.ofList_toList]
  · rintro ⟨flag, h, rfl⟩
    exact bears_of_flag? h

/-- A word that bears a flag looks like one. -/
theorem looksLikeFlag (h : Bears g.flags word name value?) : LooksLikeFlag word := by
  obtain ⟨flag, hflag, -⟩ := hg.bears_iff.1 h
  exact looksLikeFlag_of_flag? hflag

/-- A word is a spelling of one flag. -/
theorem bears_unique {name' : String} {other? : Option String}
    (h : Bears g.flags word name value?) (h' : Bears g.flags word name' other?) :
    name = name' ∧ value? = other? := by
  obtain ⟨flag, hflag, rfl⟩ := hg.bears_iff.1 h
  obtain ⟨flag', hflag', rfl⟩ := hg.bears_iff.1 h'
  obtain ⟨rfl, rfl⟩ := Prod.mk.inj (Option.some.inj (hflag.symm.trans hflag'))
  exact ⟨rfl, rfl⟩

/-- A word that bears a flag is not the two hyphens that end the flags. -/
theorem ne_dashes (h : Bears g.flags word name value?) : word ≠ "--" := by
  rintro rfl
  obtain ⟨flag, hflag, -⟩ := hg.bears_iff.1 h
  rw [show "--" = String.ofList ['-', '-'] from rfl, flag?_name] at hflag
  obtain ⟨flag, hfind, -⟩ := Option.map_eq_some_iff.1 hflag
  have hname : flag.name = "" := by simpa using List.find?_some hfind
  exact (hg.name_ne flag (List.mem_of_find?_eq_some hfind)).1 hname

end OnlyValues

/-! ## How a word is read -/

/-- A word with one hyphen is read letter by letter. -/
theorem addAny_letter (given : GivenFlags) {c : Char} (hc : c ≠ '-') (cs : List Char) :
    g.addAny given (String.ofList ('-' :: c :: cs)) = g.addLetters given (c :: cs) := by
  rw [addAny, String.toList_ofList]
  split
  · next heq => exact absurd (List.cons.inj (List.cons.inj heq).2).1 hc
  · next heq => rw [(List.cons.inj heq).2]
  · next h => exact absurd rfl (h c cs)

/-- A word with two hyphens is read as a name. -/
theorem addAny_name (given : GivenFlags) (cs : List Char) :
    g.addAny given (String.ofList ('-' :: '-' :: cs)) = g.addLong given cs := by
  rw [addAny, String.toList_ofList]
  rfl

/-- A word that does not look like a flag is the value of the flag that waits, or a plain word. -/
theorem addAny_of_not_looksLikeFlag (given : GivenFlags) (hword : ¬ LooksLikeFlag word) :
    g.addAny given word =
      match given.pending with
      | some (.flag name none) => .ok { given with pending := some (.flag name (some word)) }
      | _ => g.addWord given word := by
  rw [addAny]
  split
  · next cs h => exact absurd ⟨_, cs, h⟩ hword
  · next c cs _ h => exact absurd ⟨c, cs, h⟩ hword
  · rfl

/-- A flag that takes a value and is given alone waits for it, once what was pending is settled. -/
theorem addFlag_of_kind (given : GivenFlags) (hkind : flag.kind = .value) (byLetter : Bool) :
    g.addFlag given flag byLetter =
      g.settle given >>= fun r => .ok { r with pending := some (.flag flag.name none) } := by
  rw [addFlag, hkind]
  rfl

/-- A flag that takes a value and comes with it adds it, once what was pending is settled. -/
theorem addAttached_of_kind (given : GivenFlags) (hkind : flag.kind = .value) (value : String) :
    g.addAttached given flag value = g.settle given >>= fun r => g.addValue r flag.name value := by
  rw [addAttached, hkind]

/-- A word that looks like a flag is read as the flag it is a spelling of. -/
theorem OnlyValues.addAny_eq (hg : g.OnlyValues) (given : GivenFlags) (hw : LooksLikeFlag word) :
    g.addAny given word =
      match g.flag? word with
      | none => .error (.fault .unknown)
      | some (flag, none) =>
        g.settle given >>= fun r => .ok { r with pending := some (.flag flag.name none) }
      | some (flag, some value) => g.settle given >>= fun r => g.addValue r flag.name value := by
  obtain ⟨c, cs, hword⟩ := hw
  obtain rfl : word = String.ofList ('-' :: c :: cs) := by rw [← hword, String.ofList_toList]
  -- a second hyphen makes it a name, and anything else a letter
  by_cases hc : c = '-'
  · subst hc
    rw [addAny_name, flag?_name, addLong]
    cases hfind : g.flags.find? (·.name == String.ofList (cs.takeWhile (· != '='))) with
    | none => rfl
    | some flag =>
      have hkind := hg.kind_eq flag (List.mem_of_find?_eq_some hfind)
      cases hvalue : cs.dropWhile (· != '=') with
      | nil => exact addFlag_of_kind given hkind false
      | cons d value => exact addAttached_of_kind given hkind (String.ofList value)
  · rw [addAny_letter given hc, flag?_letter g hc, addLetters]
    cases hfind : g.flags.find? (·.letter == some c) with
    | none => rfl
    | some flag =>
      have hkind := hg.kind_eq flag (List.mem_of_find?_eq_some hfind)
      simp only [hkind, Option.map_some]
      rcases cs with _ | ⟨d, cs⟩
      · show (g.addFlag given flag true >>= fun r => .ok r) = _
        rw [addFlag_of_kind given hkind true, valueBehindLetter]
        cases g.settle given <;> rfl
      · by_cases hd : d = '='
        · subst hd
          exact addAttached_of_kind given hkind (String.ofList cs)
        · rw [valueBehindLetter_cons hd]
          split
          · next heq => exact absurd (List.cons.inj heq).1 hd
          · exact addAttached_of_kind given hkind (String.ofList (d :: cs))
          · next hflag => exact absurd rfl (hflag d cs rfl)

end FlagGrammar

end TableShell
