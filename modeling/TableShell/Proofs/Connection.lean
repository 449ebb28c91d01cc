import TableShell.Connection
import TableShell.Proofs.Flags.Parser
import TableShell.Proofs.Text.Fields

/-!
# Connect commands

The flags of a connect command take a value each, in any order and in any of their spellings, and
other words may stand between them. `Connection.ofCommandBy_flags` says which settings such a
command gives, however its words are laid out and whatever semicolons it ends with, and which
commands are refused. The words are read by any library that reads them word by word
(`FlagParser.ReadsWords`).
-/

namespace TableShell

/-- A flag with one value has the value that is given for it. -/
theorem GivenOnce.lookup_eq_some_iff {given : List (String × String)} (h : GivenOnce given)
    {name value : String} : given.lookup name = some value ↔ (name, value) ∈ given := by
  induction given with
  | nil => simp
  | cons first given ih =>
    obtain ⟨firstName, firstValue⟩ := first
    obtain ⟨hnew, h⟩ := List.nodup_cons.1 h
    rw [List.lookup_cons, List.mem_cons, Prod.mk.injEq]
    by_cases hname : name = firstName
    · subst hname
      have hrest : (name, value) ∉ given := fun hmem =>
        hnew (List.mem_map.2 ⟨(name, value), hmem, rfl⟩)
      simp only [beq_self_eq_true, true_and, hrest, or_false, Option.some.injEq]
      exact eq_comm
    · simp only [beq_false_of_ne hname, hname, false_and, false_or]
      exact ih h

namespace Connection

/-! ## Settings -/

/-- All settings, each with the name of its flag. -/
def byFlag (c : Connection) : List (String × Option String) :=
  [("profile", c.profile), ("region", c.region), ("endpoint", c.endpoint),
    ("access_key", c.accessKey), ("secret_access_key", c.secretKey)]

/-- The settings that are set, each with the name of its flag. -/
def assigned (c : Connection) : List (String × String) :=
  c.byFlag.filterMap fun setting => setting.2.map (setting.1, ·)

/-- The assigned settings are those that have a value, under the names of their flags. -/
theorem mem_assigned {c : Connection} {name value : String} :
    (name, value) ∈ c.assigned ↔ (name, some value) ∈ c.byFlag := by
  rw [assigned, List.mem_filterMap]
  constructor
  · rintro ⟨⟨other, value?⟩, hmem, heq⟩
    obtain ⟨other, rfl, heq⟩ := Option.map_eq_some_iff.1 heq
    cases heq
    exact hmem
  · intro hmem
    exact ⟨(name, some value), hmem, rfl⟩

/-- A connection assigns no setting twice. -/
theorem givenOnce_assigned (c : Connection) : GivenOnce c.assigned := by
  have hnames : List.Sublist (c.assigned.map (·.1)) (c.byFlag.map (·.1)) := by
    rw [assigned]
    induction c.byFlag with
    | nil => exact .slnil
    | cons setting settings ih =>
      obtain ⟨name, _ | value⟩ := setting
      · exact ih.cons name
      · exact ih.cons_cons name
  have hnodup : (c.byFlag.map (·.1)).Nodup := by
    show ["profile", "region", "endpoint", "access_key", "secret_access_key"].Nodup
    decide
  exact hnodup.sublist hnames

/-- Pairs that are the settings in some order give no flag two values. -/
theorem givenOnce_of_perm {given : List (String × String)} {c : Connection}
    (h : given.Perm c.assigned) : GivenOnce given := by
  have hnames : (given.map (·.1)).Perm (c.assigned.map (·.1)) := h.map (·.1)
  exact hnames.nodup_iff.2 c.givenOnce_assigned

/-- The settings are found again, in whatever order they are given. -/
theorem ofFlags_lookup_of_perm {given : List (String × String)} {c : Connection}
    (h : given.Perm c.assigned) : ofFlags (fun name => given.lookup name) = c := by
  have hd : GivenOnce given := givenOnce_of_perm h
  have hvalue {name : String} {value? : Option String}
      (hname : ∀ value, (name, some value) ∈ c.byFlag ↔ value? = some value) :
      given.lookup name = value? := by
    refine Option.ext fun value => ?_
    rw [hd.lookup_eq_some_iff, h.mem_iff, mem_assigned, hname]
  obtain ⟨profile, region, endpoint, accessKey, secretKey⟩ := c
  rw [ofFlags, Connection.mk.injEq]
  refine ⟨hvalue ?_, hvalue ?_, hvalue ?_, hvalue ?_, hvalue ?_⟩
  all_goals
    intro value
    simp [byFlag, eq_comm]

/-- The flags of a connect command take a value each, and no two are spelled alike. -/
theorem onlyValues_grammar : grammar.OnlyValues where
  kind_eq := by decide
  maxWords_eq := rfl
  allowsValue _ _ := rfl
  allowsWord _ := rfl
  name_ne := by decide
  letter_ne := by decide
  name_inj := by decide
  letter_inj := by decide

/-! ## Commands -/

/-- The semicolons that a command ends with, and the blanks before them, are no words. -/
theorem wordsOf_laid {words : List String} {text : List Char}
    (hlaid : Text.Laid (words.map String.toList) text) (hwords : words ≠ [])
    (hlast : ∀ last ∈ words.getLast?, Text.endsWith last ';' = false) (n : Nat) :
    wordsOf (String.ofList (text ++ List.replicate n ';')) = words := by
  have hclosed : ∀ w ∈ (words.map String.toList).getLast?, w.getLast? ≠ some ';' := by
    intro w hw
    rw [List.getLast?_map] at hw
    obtain ⟨last, hmem, rfl⟩ := Option.map_eq_some_iff.1 hw
    exact beq_eq_false_iff_ne.1 (hlast last hmem)
  rw [wordsOf, String.toList_ofList,
    hlaid.words_closed (List.map_eq_nil_iff.not.2 hwords) hclosed (by decide) n, List.map_map]
  simp [Function.comp_def]

/-- A command gives the settings that the library finds in its words. -/
theorem ofCommandBy_of_gives {parser : FlagParser} {command : String}
    {values : String → Option String} (h : parser.gives? grammar (wordsOf command) = some values) :
    ofCommandBy parser command = .ok (ofFlags values) := by
  rw [FlagParser.gives?] at h
  rw [ofCommandBy]
  split at h
  · next hparse =>
    rw [hparse]
    cases h
    rfl
  · cases h

/-- A command whose words the library refuses is refused. -/
theorem ofCommandBy_of_gives_none {parser : FlagParser} {command : String}
    (h : parser.gives? grammar (wordsOf command) = none) :
    ∃ fault, ofCommandBy parser command = .error (.connectFlags fault (Text.trim command)) := by
  rw [FlagParser.gives?] at h
  rw [ofCommandBy]
  split at h
  · cases h
  · next stop hparse =>
    rw [hparse]
    cases stop with
    | fault fault => exact ⟨fault, rfl⟩
    | atFlag name byLetter => exact ⟨.unknown, rfl⟩

/-- Whatever library reads the words of a connect command word by word, the settings are those that
its flags have the values of, whatever the order and the spelling of the flags, the words between
them, the blanks around the words and the semicolons at the end. A command is refused that, before a
word `--`, gives a flag twice, an unknown flag or a flag without a value. -/
theorem ofCommandBy_flags {parser : FlagParser} (h : parser.ReadsWords grammar) :
    (∀ (c : Connection) (given : List (String × String)) (verb : String) (words : List String)
        (text : List Char) (n : Nat),
      given.Perm c.assigned → Arguments flags given words →
      Text.Laid ((verb :: words).map String.toList) text →
      (∀ last ∈ (verb :: words).getLast?, Text.endsWith last ';' = false) →
      ofCommandBy parser (String.ofList (text ++ List.replicate n ';')) = .ok c) ∧
    ∀ command : String, Faulty flags ((wordsOf command).tail.takeWhile (· ≠ "--")) →
      ∃ fault, ofCommandBy parser command =
        .error (.connectFlags fault (Text.trim command)) := by
  constructor
  · intro c given verb words text n hgiven harguments hlaid hlast
    have hwords := wordsOf_laid hlaid (List.cons_ne_nil verb words) hlast n
    have hgives : parser.gives? grammar (verb :: words) = some fun name => given.lookup name :=
      h.gives?_of_arguments onlyValues_grammar harguments (givenOnce_of_perm hgiven)
    rw [← hwords] at hgives
    rw [ofCommandBy_of_gives hgives, ofFlags_lookup_of_perm hgiven]
  · intro command hfaulty
    cases hwords : wordsOf command with
    | nil =>
      rw [hwords] at hfaulty
      exact absurd hfaulty not_faulty_nil
    | cons verb words =>
      rw [hwords] at hfaulty
      have hrefused : parser.gives? grammar (verb :: words) = none :=
        h.gives?_of_faulty onlyValues_grammar hfaulty
      exact ofCommandBy_of_gives_none (hwords ▸ hrefused)

/-- Values apart and attached with another word among them, and a flag that lacks its value. -/
theorem ofCommandBy_flags_mixed_spellings :
    FlagParser.standard.ReadsWords grammar ∧
      ofCommandBy .standard "connect -r eu x --profile=dev -Eh:1 --access_key AK ;;" =
        .ok ⟨some "dev", some "eu", some "h:1", some "AK", none⟩ ∧
      ∃ fault, ofCommandBy .standard "connect -pa --region" =
        .error (.connectFlags fault "connect -pa --region") := by
  have hparser := onlyValues_grammar.readsWords_standard
  have hgiven : [("region", "eu"), ("profile", "dev"), ("endpoint", "h:1"),
      ("access_key", "AK")].Perm
        (assigned ⟨some "dev", some "eu", some "h:1", some "AK", none⟩) := by decide
  have hprofile : ⟨"profile", some 'p', .value⟩ ∈ flags := by decide
  have hregion : ⟨"region", some 'r', .value⟩ ∈ flags := by decide
  have hendpoint : ⟨"endpoint", some 'E', .value⟩ ∈ flags := by decide
  have hkey : ⟨"access_key", none, .value⟩ ∈ flags := by decide
  have hwords : Arguments flags _
      ["-r", "eu", "x", "--profile=dev", "-Eh:1", "--access_key", "AK"] :=
    .apart (.letter hregion rfl) (by decide) <| .other (by decide) <|
      .attached (@Bears.nameEquals flags _ "dev" hprofile) <|
        .attached (@Bears.joined flags _ _ "h:1" hendpoint rfl (by decide) (by decide)) <|
          .apart (.name hkey) (by decide) .nil
  have hspace : ∀ c ∈ [' '], Text.isBlank c = true := List.forall_mem_singleton.2 rfl
  have hnext : ∀ s, ∀ c ∈ (' ' :: s).head?, Text.isBlank c = true := by
    rintro s c ⟨⟩
    rfl
  have hlaid : Text.Laid (["connect", "-r", "eu", "x", "--profile=dev", "-Eh:1", "--access_key",
      "AK"].map String.toList) _ :=
    .cons (List.forall_mem_nil _) (by decide) (hnext _) <| .cons hspace (by decide) (hnext _) <|
      .cons hspace (by decide) (hnext _) <| .cons hspace (by decide) (hnext _) <|
        .cons hspace (by decide) (hnext _) <| .cons hspace (by decide) (hnext _) <|
          .cons hspace (by decide) (hnext _) <| .cons hspace (by decide) (hnext _) <| .nil hspace
  have hgives := (ofCommandBy_flags hparser).1 _ _ "connect" _ _ 2 hgiven hwords hlaid (by decide)
  have hlacking : Faulty flags ((wordsOf "connect -pa --region").tail.takeWhile (· ≠ "--")) := by
    have hlast : (wordsOf "connect -pa --region").tail.takeWhile (· ≠ "--") =
        ["-pa", "--region"] := by decide +kernel
    rw [hlast]
    exact .lacking (List.suffix_cons "-pa" ["--region"]) (.name hregion) nofun
  have hrefused := (ofCommandBy_flags hparser).2 "connect -pa --region" hlacking
  have htrim : Text.trim "connect -pa --region" = "connect -pa --region" := by decide +kernel
  rw [htrim] at hrefused
  refine ⟨hparser, Eq.trans (congrArg (ofCommandBy .standard) ?_) hgives, hrefused⟩
  decide +kernel

end Connection

end TableShell
