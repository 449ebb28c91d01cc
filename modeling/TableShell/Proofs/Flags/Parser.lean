import Mathlib.Data.List.TakeWhile
import Mathlib.Logic.Function.Basic
import TableShell.Proofs.Flags.Fault

/-!
# Libraries that read command lines

What a library that reads command lines is relied on for, where every flag takes a value
(`FlagParser.ReadsWords`). Each of these laws is about the first word after the name of the program,
and says what becomes of a line by what the words behind that one give on their own. Together they
fix what a line gives (`FlagParser.ReadsWords.gives?_eq_some_iff`): the values that its words have
up to the word `--`, if no flag is given twice (`Assigns`). `FlagParser.standard` keeps the laws
(`FlagGrammar.OnlyValues.readsWords_standard`).
-/

namespace TableShell

/-- The words start with a flag and its value, and go on with the rest. -/
inductive GivesFirst (flags : List Flag) (name value : String) (rest : List String) :
    List String → Prop
  /-- The value is a word of its own. -/
  | apart {word : String} (hflag : Bears flags word name none) (hvalue : ¬ LooksLikeFlag value) :
      GivesFirst flags name value rest (word :: value :: rest)
  | attached {word : String} (hflag : Bears flags word name (some value)) :
      GivesFirst flags name value rest (word :: rest)

/-- Up to the word `--`, the words give each flag the value that it has here, and none twice. -/
def Assigns (flags : List Flag) (words : List String) (values : String → Option String) : Prop :=
  ∃ pairs, Arguments flags pairs (words.takeWhile (· ≠ "--")) ∧ GivenOnce pairs ∧
    (fun name => pairs.lookup name) = values

namespace FlagParser

/-- The values that a command line gives the flags, unless it is refused. -/
def gives? (parser : FlagParser) (g : FlagGrammar) (words : List String) :
    Option (String → Option String) :=
  match parser.parse g words with
  | .ok found => some (parser.value? found)
  | .error _ => none

/-- The library reads the flags of a command line, where all of them take a value, word by word. -/
structure ReadsWords (parser : FlagParser) (g : FlagGrammar) : Prop where
  /-- The first word is the name of the program. With no further word, no flag has a value. -/
  name_only (verb : String) : parser.gives? g [verb] = some fun _ => none
  /-- A word that does not look like a flag, where no value is due, changes nothing. -/
  other {verb word : String} {rest : List String} (hword : ¬ LooksLikeFlag word) :
    parser.gives? g (verb :: word :: rest) = parser.gives? g (verb :: rest)
  /-- A flag that is given here only has the value that it is given. -/
  once {verb name value : String} {words rest : List String} {values : String → Option String}
    (hfirst : GivesFirst g.flags name value rest words)
    (hrest : parser.gives? g (verb :: rest) = some values) (hname : values name = none) :
    parser.gives? g (verb :: words) = some (Function.update values name (some value))
  /-- A flag may not be given again. -/
  twice {verb name value : String} {words rest : List String} {values : String → Option String}
    (hfirst : GivesFirst g.flags name value rest words)
    (hrest : parser.gives? g (verb :: rest) = some values) (hname : values name ≠ none) :
    parser.gives? g (verb :: words) = none
  /-- A fault behind a flag stays one. -/
  refused {verb name value : String} {words rest : List String}
    (hfirst : GivesFirst g.flags name value rest words)
    (hrest : parser.gives? g (verb :: rest) = none) : parser.gives? g (verb :: words) = none
  /-- A flag needs a value, and a word that looks like a flag is none. -/
  lacking {verb word name : String} {rest : List String} (hflag : Bears g.flags word name none)
    (hnext : ∀ next ∈ rest.head?, LooksLikeFlag next) :
    parser.gives? g (verb :: word :: rest) = none
  /-- A word that looks like a flag must be one. -/
  unknown {verb word : String} {rest : List String} (hword : LooksLikeFlag word)
    (hdashes : word ≠ "--") (hflag : ∀ name value?, ¬ Bears g.flags word name value?) :
    parser.gives? g (verb :: word :: rest) = none
  /-- The word `--` ends the flags. -/
  dashes (verb : String) (rest : List String) :
    parser.gives? g (verb :: "--" :: rest) = some fun _ => none

end FlagParser

/-! ## The first word of a line -/

variable {flags : List Flag} {name value word : String} {words rest : List String}
  {values : String → Option String}

/-- A line has more words than what follows its first flag. -/
theorem GivesFirst.length_lt (h : GivesFirst flags name value rest words) :
    rest.length < words.length := by
  cases h with
  | apart => simp only [List.length_cons]; omega
  | attached => exact Nat.lt_succ_self _

/-- The first word of a line is of one of five kinds: no flag, the word that ends the flags, an
unknown flag, a flag without a value, or a flag with its value. -/
theorem first_cases (flags : List Flag) (word : String) (rest : List String) :
    ¬ LooksLikeFlag word ∨ word = "--" ∨
      (LooksLikeFlag word ∧ word ≠ "--" ∧ ∀ name value?, ¬ Bears flags word name value?) ∨
      (∃ name, Bears flags word name none ∧ ∀ next ∈ rest.head?, LooksLikeFlag next) ∨
      ∃ name value later, GivesFirst flags name value later (word :: rest) := by
  by_cases hword : LooksLikeFlag word
  · by_cases hdashes : word = "--"
    · exact .inr (.inl hdashes)
    by_cases hflag : ∃ name value?, Bears flags word name value?
    · obtain ⟨name, _ | value, hflag⟩ := hflag
      · by_cases hnext : ∀ next ∈ rest.head?, LooksLikeFlag next
        · exact .inr (.inr (.inr (.inl ⟨name, hflag, hnext⟩)))
        · cases rest with
          | nil => exact absurd nofun hnext
          | cons value later =>
            have hvalue : ¬ LooksLikeFlag value := by simpa using hnext
            exact .inr (.inr (.inr (.inr ⟨name, value, later, .apart hflag hvalue⟩)))
      · exact .inr (.inr (.inr (.inr ⟨name, value, rest, .attached hflag⟩)))
    · simp only [not_exists] at hflag
      exact .inr (.inr (.inl ⟨hword, hdashes, hflag⟩))
  · exact .inl hword

/-- Without words, no flag has a value. -/
theorem assigns_nil_iff : Assigns flags [] values ↔ (fun _ => none) = values := by
  constructor
  · rintro ⟨pairs, ⟨⟩, -, rfl⟩
    rfl
  · rintro rfl
    exact ⟨[], .nil, List.nodup_nil, rfl⟩

/-- Behind the word `--`, no flag has a value. -/
theorem assigns_dashes_iff : Assigns flags ("--" :: rest) values ↔ (fun _ => none) = values :=
  assigns_nil_iff

/-- A pair in front changes the value of its flag. -/
theorem lookup_cons_eq_update (name value : String) (pairs : List (String × String)) :
    (fun other => ((name, value) :: pairs).lookup other) =
      Function.update (fun other => pairs.lookup other) name (some value) := by
  funext other
  by_cases hother : other = name
  · subst hother
    rw [List.lookup_cons_self, Function.update_self]
  · rw [Function.update_of_ne hother, List.lookup_cons, beq_false_of_ne hother]

/-- A line that starts with an unknown flag gives nothing. -/
theorem not_assigns_of_unknown (hword : LooksLikeFlag word) (hdashes : word ≠ "--")
    (hflag : ∀ name value?, ¬ Bears flags word name value?) :
    ¬ Assigns flags (word :: rest) values := by
  rintro ⟨pairs, harguments, -, -⟩
  rw [List.takeWhile_cons, if_pos (decide_eq_true hdashes)] at harguments
  exact not_arguments_of_unknown hword hflag harguments

namespace FlagGrammar.OnlyValues

variable {g : FlagGrammar} (hg : g.OnlyValues)
include hg

/-- A word that looks like no flag gives nothing. -/
theorem assigns_other_iff (hword : ¬ LooksLikeFlag word) :
    Assigns g.flags (word :: rest) values ↔ Assigns g.flags rest values := by
  have hne : word ≠ "--" := by
    rintro rfl
    exact hword (by decide)
  simp only [Assigns, List.takeWhile_cons, hne, ne_eq, not_false_eq_true, decide_true, if_true,
    hg.arguments_other_iff hword]

/-- Before `--`, a flag and its value are followed by what follows them. -/
theorem arguments_givesFirst_iff {pairs : List (String × String)}
    (h : GivesFirst g.flags name value rest words) :
    Arguments g.flags pairs (words.takeWhile (· ≠ "--")) ↔
      ∃ later, pairs = (name, value) :: later ∧
        Arguments g.flags later (rest.takeWhile (· ≠ "--")) := by
  cases h with
  | @apart word hflag hvalue =>
    have hvalueNe : value ≠ "--" := by
      rintro rfl
      exact hvalue (by decide)
    have htake : (word :: value :: rest).takeWhile (· ≠ "--") =
        word :: value :: rest.takeWhile (· ≠ "--") := by
      simp [hg.ne_dashes hflag, hvalueNe]
    rw [htake, hg.arguments_apart_iff hflag]
    constructor
    · rintro ⟨_, _, later, ⟨⟩, rfl, -, h⟩
      exact ⟨later, rfl, h⟩
    · rintro ⟨later, rfl, h⟩
      exact ⟨value, _, later, rfl, rfl, hvalue, h⟩
  | @attached word hflag =>
    have htake : (word :: rest).takeWhile (· ≠ "--") = word :: rest.takeWhile (· ≠ "--") := by
      simp [hg.ne_dashes hflag]
    rw [htake, hg.arguments_attached_iff hflag]

/-- A flag and its value give that value, where the flag is not given again. -/
theorem assigns_givesFirst_iff (h : GivesFirst g.flags name value rest words) :
    Assigns g.flags words values ↔ ∃ before, Assigns g.flags rest before ∧
      before name = none ∧ Function.update before name (some value) = values := by
  constructor
  · rintro ⟨pairs, harguments, hd, rfl⟩
    obtain ⟨later, rfl, hlater⟩ := (hg.arguments_givesFirst_iff h).1 harguments
    obtain ⟨hnew, hd⟩ := List.nodup_cons.1 hd
    refine ⟨_, ⟨later, hlater, hd, rfl⟩, ?_, (lookup_cons_eq_update ..).symm⟩
    exact Option.not_isSome_iff_eq_none.1 (mt isSome_lookup_iff.1 hnew)
  · rintro ⟨_, ⟨later, hlater, hd, rfl⟩, hnew, rfl⟩
    have hname : name ∉ later.map (·.1) :=
      mt isSome_lookup_iff.2 (Option.not_isSome_iff_eq_none.2 hnew)
    exact ⟨(name, value) :: later, (hg.arguments_givesFirst_iff h).2 ⟨later, rfl, hlater⟩,
      List.nodup_cons.2 ⟨hname, hd⟩, lookup_cons_eq_update ..⟩

/-- A line that starts with a flag without a value gives nothing. -/
theorem not_assigns_of_lacking (hflag : Bears g.flags word name none)
    (hnext : ∀ next ∈ rest.head?, LooksLikeFlag next) :
    ¬ Assigns g.flags (word :: rest) values := by
  rintro ⟨pairs, harguments, -, -⟩
  rw [List.takeWhile_cons, if_pos (decide_eq_true (hg.ne_dashes hflag)),
    hg.arguments_apart_iff hflag] at harguments
  obtain ⟨value, later, -, heq, -, hvalue, -⟩ := harguments
  cases rest with
  | nil => cases heq
  | cons next rest =>
    rw [List.takeWhile_cons] at heq
    split at heq
    · cases heq
      exact hvalue (hnext value rfl)
    · cases heq

end FlagGrammar.OnlyValues

/-! ## What the laws fix -/

namespace FlagParser.ReadsWords

variable {parser : FlagParser} {g : FlagGrammar} (h : parser.ReadsWords g) {verb : String}
include h

/-- What a line with a flag and its value in front gives, by what the rest gives. -/
theorem gives?_givesFirst_iff (hfirst : GivesFirst g.flags name value rest words) :
    parser.gives? g (verb :: words) = some values ↔
      ∃ before, parser.gives? g (verb :: rest) = some before ∧ before name = none ∧
        Function.update before name (some value) = values := by
  cases hrest : parser.gives? g (verb :: rest) with
  | none =>
    rw [h.refused hfirst hrest]
    exact ⟨nofun, nofun⟩
  | some before =>
    by_cases hname : before name = none
    · rw [h.once hfirst hrest hname]
      simp [hname]
    · rw [h.twice hfirst hrest hname]
      refine ⟨nofun, ?_⟩
      rintro ⟨_, ⟨⟩, hnone, -⟩
      exact absurd hnone hname

/-- A line gives exactly what its words up to `--` give. -/
theorem gives?_eq_some_iff (hg : g.OnlyValues) (words : List String)
    (values : String → Option String) :
    parser.gives? g (verb :: words) = some values ↔ Assigns g.flags words values := by
  -- the induction is on the number of words: a flag takes the word behind it along
  induction hn : words.length using Nat.strongRecOn generalizing words values with
  | ind n ih =>
  subst hn
  have hgiven {name value : String} {rest : List String}
      (hfirst : GivesFirst g.flags name value rest words) :
      parser.gives? g (verb :: words) = some values ↔ Assigns g.flags words values := by
    rw [h.gives?_givesFirst_iff hfirst, hg.assigns_givesFirst_iff hfirst]
    simp only [ih _ hfirst.length_lt rest _ rfl]
  cases words with
  | nil => rw [h.name_only, Option.some.injEq, assigns_nil_iff]
  | cons word rest =>
    obtain hword | rfl | ⟨hword, hdashes, hunknown⟩ | ⟨name, hflag, hnext⟩ |
      ⟨name, value, later, hfirst⟩ := first_cases g.flags word rest
    · rw [h.other hword, hg.assigns_other_iff hword]
      exact ih rest.length (Nat.lt_succ_self _) rest values rfl
    · rw [h.dashes, Option.some.injEq, assigns_dashes_iff]
    · rw [h.unknown hword hdashes hunknown]
      exact ⟨nofun, fun hassigns =>
        absurd hassigns (not_assigns_of_unknown hword hdashes hunknown)⟩
    · rw [h.lacking hflag hnext]
      exact ⟨nofun, fun hassigns => absurd hassigns (hg.not_assigns_of_lacking hflag hnext)⟩
    · exact hgiven hfirst

/-- A line with a fault before `--` is refused. -/
theorem gives?_of_faulty (hg : g.OnlyValues)
    (hfaulty : Faulty g.flags (words.takeWhile (· ≠ "--"))) :
    parser.gives? g (verb :: words) = none := by
  cases hgives : parser.gives? g (verb :: words) with
  | none => rfl
  | some values =>
    obtain ⟨pairs, harguments, hd, -⟩ := (h.gives?_eq_some_iff hg words values).1 hgives
    exact absurd hfaulty (hg.not_faulty harguments hd)

/-- A line that gives each flag at most one value gives these values. -/
theorem gives?_of_arguments (hg : g.OnlyValues) {pairs : List (String × String)}
    (harguments : Arguments g.flags pairs words) (hd : GivenOnce pairs) :
    parser.gives? g (verb :: words) = some fun name => pairs.lookup name := by
  have hdashes : words.takeWhile (· ≠ "--") = words := by
    refine List.takeWhile_eq_self_iff.2 fun word hmem => decide_eq_true ?_
    rintro rfl
    obtain ⟨name, value?, hbears, -⟩ := exists_bears harguments hmem (by decide)
    exact hg.ne_dashes hbears rfl
  rw [h.gives?_eq_some_iff hg]
  exact ⟨pairs, hdashes.symm ▸ harguments, hd, rfl⟩

end FlagParser.ReadsWords

/-! ## Words read from left to right -/

namespace FlagGrammar

/-- The reading succeeds with these values. -/
def Yields (step : Step) (pairs : List (String × String)) : Prop :=
  ∃ result, step = .ok result ∧ result.values = pairs

/-- A reading in two parts succeeds with values if the second part does, from what the first part
has read. -/
theorem yields_bind_iff {step : Step} {next : GivenFlags → Step} {pairs : List (String × String)} :
    Yields (step >>= next) pairs ↔ ∃ given, step = .ok given ∧ Yields (next given) pairs := by
  constructor
  · rintro ⟨result, h, hpairs⟩
    obtain ⟨given, hgiven, h⟩ := bind_eq_ok.1 h
    exact ⟨given, hgiven, result, h, hpairs⟩
  · rintro ⟨given, hgiven, result, h, hpairs⟩
    exact ⟨result, bind_eq_ok.2 ⟨given, hgiven, h⟩, hpairs⟩

end FlagGrammar

namespace FlagGrammar.OnlyValues

variable {g : FlagGrammar} {pairs : List (String × String)} (hg : g.OnlyValues)
include hg

/-- Once the flags have ended, what has been read is settled and gains no further values. -/
theorem readFrom_ended_iff (given : GivenFlags) :
    Yields (g.readFrom true given words) pairs ↔ Yields (g.settle given) pairs := by
  induction words generalizing given with
  | nil => exact Iff.rfl
  | cons word words ih =>
    have hread : g.readFrom true given (word :: words) = g.settle given >>= fun r =>
        g.readFrom true { r with pending := some (.word word) } words := by
      rw [readFrom, if_pos rfl, addWord, hg.maxWords_eq]
      cases g.settle given <;> rfl
    have hsettle (r : GivenFlags) : g.settle { r with pending := some (.word word) } =
        .ok { r with pending := none, words := r.words ++ [word] } := by
      simp only [settle, hg.allowsWord, if_true]
      rfl
    rw [hread, yields_bind_iff]
    simp only [ih, hsettle]
    simp [Yields]

/-- Only the words before `--` give values. -/
theorem readFrom_takeWhile_iff (given : GivenFlags) :
    Yields (g.readFrom false given words) pairs ↔
      Yields (g.readFrom false given (words.takeWhile (· ≠ "--"))) pairs := by
  induction words generalizing given with
  | nil => exact Iff.rfl
  | cons word words ih =>
    rw [readFrom, if_neg Bool.false_ne_true]
    by_cases hword : word = "--"
    · subst hword
      rw [if_pos rfl, hg.readFrom_ended_iff given]
      exact Iff.rfl
    · rw [if_neg hword, List.takeWhile_cons, if_pos (decide_eq_true hword), readFrom,
        if_neg Bool.false_ne_true, if_neg hword, yields_bind_iff, yields_bind_iff]
      simp only [ih]

/-- Read from left to right, a line gives what its words up to `--` give. -/
theorem gives?_standard_iff {verb : String} :
    FlagParser.standard.gives? g (verb :: words) = some values ↔ Assigns g.flags words values := by
  have hdashes : "--" ∉ words.takeWhile (· ≠ "--") := by
    intro hmem
    simpa using List.all_eq_true.1 List.all_takeWhile "--" hmem
  have hread (pairs : List (String × String)) :
      Yields (g.read words) pairs ↔
        Arguments g.flags pairs (words.takeWhile (· ≠ "--")) ∧ GivenOnce pairs :=
    (hg.readFrom_takeWhile_iff {}).trans (hg.read_iff hdashes)
  have hgives : FlagParser.standard.gives? g (verb :: words) = some values ↔
      ∃ result, g.read words = .ok result ∧ (fun name => result.values.lookup name) = values := by
    cases h : g.read words with
    | ok result => simp [FlagParser.gives?, FlagParser.standard, h, funext_iff, GivenFlags.value?]
    | error stop => simp [FlagParser.gives?, FlagParser.standard, h]
  rw [hgives]
  constructor
  · rintro ⟨result, h, rfl⟩
    obtain ⟨harguments, hd⟩ := (hread result.values).1 ⟨result, h, rfl⟩
    exact ⟨result.values, harguments, hd, rfl⟩
  · rintro ⟨pairs, harguments, hd, rfl⟩
    obtain ⟨result, h, rfl⟩ := (hread pairs).2 ⟨harguments, hd⟩
    exact ⟨result, h, rfl⟩

/-- Read from left to right, a line is refused if its words up to `--` give nothing. -/
theorem gives?_standard_eq_none_iff {verb : String} :
    FlagParser.standard.gives? g (verb :: words) = none ↔
      ∀ values, ¬ Assigns g.flags words values := by
  rw [Option.eq_none_iff_forall_ne_some]
  exact forall_congr' fun values => not_congr hg.gives?_standard_iff

/-- Where every flag takes a value, words read from left to right are read word by word. -/
theorem readsWords_standard : FlagParser.standard.ReadsWords g where
  name_only _ := hg.gives?_standard_iff.2 (assigns_nil_iff.2 rfl)
  other hword := by
    refine Option.ext fun values => ?_
    rw [hg.gives?_standard_iff, hg.gives?_standard_iff, hg.assigns_other_iff hword]
  once hfirst hrest hname := by
    rw [hg.gives?_standard_iff, hg.assigns_givesFirst_iff hfirst]
    exact ⟨_, hg.gives?_standard_iff.1 hrest, hname, rfl⟩
  twice {verb _ _ _ _ _} hfirst hrest hname := by
    rw [hg.gives?_standard_eq_none_iff]
    intro values h
    obtain ⟨before, hbefore, hnone, -⟩ := (hg.assigns_givesFirst_iff hfirst).1 h
    have hsame : FlagParser.standard.gives? g (verb :: _) = some before :=
      hg.gives?_standard_iff.2 hbefore
    rw [hrest] at hsame
    cases hsame
    exact hname hnone
  refused hfirst hrest := by
    rw [hg.gives?_standard_eq_none_iff] at hrest ⊢
    intro values h
    obtain ⟨before, hbefore, -⟩ := (hg.assigns_givesFirst_iff hfirst).1 h
    exact hrest before hbefore
  lacking hflag hnext :=
    hg.gives?_standard_eq_none_iff.2 fun _ => hg.not_assigns_of_lacking hflag hnext
  unknown hword hdashes hflag :=
    hg.gives?_standard_eq_none_iff.2 fun _ => not_assigns_of_unknown hword hdashes hflag
  dashes _ _ := hg.gives?_standard_iff.2 (assigns_dashes_iff.2 rfl)

end FlagGrammar.OnlyValues

end TableShell
