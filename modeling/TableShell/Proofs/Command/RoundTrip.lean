import TableShell.Proofs.Command.Grammar
import TableShell.Proofs.Lexeme.Typed
import TableShell.Proofs.Text

/-!
# Table definitions written out and read again

A table definition is written as a `CREATE TABLE` command with its names in quotes, its keywords in
any letter case, its attributes and indexes mixed in any way that keeps the order of each, and any
gaps between the lexemes (`Command.IsTextOf`). The definitions that can be read at all are the well
formed ones, and each of them is read from every text that it is written as
(`Command.definition_roundTrip`).
-/

namespace TableShell

open Reader

/-! ## Words in any letter case -/

/-- An attribute type is read in every spelling of its name. -/
theorem AttributeType.ofWord?_of_sameLetters {w : String} {type : AttributeType}
    (h : Text.sameLetters w type.name = true) : ofWord? w = some type := by
  have hcapitals := Text.capitals_eq_of_sameLetters h (by cases type <;> decide)
  rw [← ofWord?_name type]
  simp only [ofWord?, Text.spells_congr hcapitals]

/-- A key role is read in every spelling of its name. -/
theorem KeyRole.ofWord?_of_sameLetters {w : String} {role : KeyRole}
    (h : Text.sameLetters w role.name = true) : ofWord? w = some role := by
  have hcapitals := Text.capitals_eq_of_sameLetters h (by cases role <;> decide)
  rw [← ofWord?_name role]
  simp only [ofWord?, Text.spells_congr hcapitals]

/-- An index scope is read in every spelling of its name. -/
theorem IndexScope.ofWord?_of_sameLetters {w : String} {scope : IndexScope}
    (h : Text.sameLetters w scope.name = true) : ofWord? w = some scope := by
  have hcapitals := Text.capitals_eq_of_sameLetters h (by cases scope <;> decide)
  rw [← ofWord?_name scope]
  simp only [ofWord?, Text.spells_congr hcapitals]

/-! ## Well-formed definitions -/

/-- An index of a name, with attributes that all have names and roles. -/
structure SecondaryIndex.WellFormed (i : SecondaryIndex) : Prop where
  name : i.name ∉ marks
  attributes_ne_nil : i.attributes ≠ []
  attributes : ∀ a ∈ i.attributes, a.name ∉ marks ∧ a.role.isSome = true

/-- A definition with at least one entry, in which nothing is named like a mark and no attribute of
the table is named like the keyword of an index. -/
structure TableDefinition.WellFormed (d : TableDefinition) : Prop where
  table : d.table ∉ marks
  ne_nil : d.attributes ≠ [] ∨ d.indexes ≠ []
  attributes : ∀ a ∈ d.attributes, a.name ∉ marks ∧ Text.sameLetters a.name "INDEX" = false
  indexes : ∀ i ∈ d.indexes, i.WellFormed

namespace Command

open Lexeme

/-! ## Written definitions -/

/-- The word in any letter case. -/
def IsWordFor (word : String) (l : Lexeme) : Prop :=
  ∃ w, l = .word w ∧ Text.sameLetters (String.ofList w) word = true

/-- The name in quotes of either kind. -/
def IsQuoted (name : String) (l : Lexeme) : Prop := ∃ quote, l = .literal quote name.toList true

/-- The mark that stands after an element of a list. -/
def separatorMark (last : Bool) : Lexeme := .mark (if last then ')' else ',')

/-- How an attribute is written. -/
inductive AttributeText : Attribute → List Lexeme → Prop
  | plain {name : String} {type : AttributeType} {n t : Lexeme} (hname : IsQuoted name n)
      (htype : IsWordFor type.name t) : AttributeText ⟨name, type, none⟩ [n, t]
  | key {name : String} {type : AttributeType} {role : KeyRole} {n t r : Lexeme}
      (hname : IsQuoted name n) (htype : IsWordFor type.name t) (hrole : IsWordFor role.name r) :
      AttributeText ⟨name, type, some role⟩ [n, t, r]

/-- How an attribute or an index is written. -/
inductive EntryText : Entry → List Lexeme → Prop
  | ofAttribute {a : Attribute} {ls : List Lexeme} (h : AttributeText a ls) :
      EntryText (.ofAttribute a) ls
  | ofIndex {i : SecondaryIndex} {k s n : Lexeme} {ls : List Lexeme} (hk : IsWordFor "INDEX" k)
      (hscope : IsWordFor i.scope.name s) (hname : IsQuoted i.name n)
      (hattributes : Listed separatorMark AttributeText i.attributes ls) :
      EntryText (.ofIndex i) (k :: s :: n :: .mark '(' :: ls)

/-- How a definition is written: its attributes and its indexes are mixed, each kind in order, and
a semicolon may follow. -/
inductive DefinitionText (d : TableDefinition) : List Lexeme → Prop
  | mk {es : List Entry} {k₁ k₂ n : Lexeme} {ls finish : List Lexeme}
      (hattributes : es.filterMap Entry.attribute? = d.attributes)
      (hindexes : es.filterMap Entry.index? = d.indexes)
      (hk₁ : IsWordFor "CREATE" k₁) (hk₂ : IsWordFor "TABLE" k₂) (hname : IsQuoted d.table n)
      (hentries : Listed separatorMark EntryText es ls)
      (hfinish : finish = [] ∨ finish = [.mark ';']) :
      DefinitionText d (k₁ :: k₂ :: n :: .mark '(' :: (ls ++ finish))

/-- The text is what the definition is written as, with any gaps between the lexemes. -/
def IsTextOf (d : TableDefinition) (text : String) : Prop :=
  ∃ ls, DefinitionText d ls ∧ Spelled ls text.toList

/-! ## Reading what was written -/

variable {word name : String} {l : Lexeme} {ls : List Lexeme} {a : Attribute}

/-- The token of a lexeme written for a keyword has the letters of the keyword. -/
theorem IsWordFor.token (h : IsWordFor word l) :
    Text.sameLetters (l.token false) word = true := by
  obtain ⟨w, rfl, hw⟩ := h
  exact hw

/-- The token of a lexeme that quotes a name is that name. -/
theorem IsQuoted.token (h : IsQuoted name l) : l.token false = name := by
  obtain ⟨quote, rfl⟩ := h
  exact String.ofList_toList

/-- The mark written for a separator is read as that separator. -/
theorem token_separatorMark (last : Bool) : (separatorMark last).token false = separator last := by
  cases last <;> rfl

theorem token_parenthesis : (Lexeme.mark '(').token false = "(" := rfl

/-- The text of an attribute with a key role is read as an attribute of an index. -/
theorem AttributeText.indexAttributePhrase (h : AttributeText a ls) (hname : a.name ∉ marks)
    (hrole : a.role.isSome = true) : IndexAttributePhrase a (ls.map (Lexeme.token false)) := by
  cases h with
  | plain => cases hrole
  | @key name type role n t r hn ht hr =>
    rw [List.map_cons, hn.token]
    exact .mk hname (AttributeType.ofWord?_of_sameLetters ht.token)
      (KeyRole.ofWord?_of_sameLetters hr.token)

/-- The text of an attribute is read as an entry of the table, unless its name has the letters of
INDEX. -/
theorem AttributeText.entryPhrase (h : AttributeText a ls) (hname : a.name ∉ marks)
    (hindex : Text.sameLetters a.name "INDEX" = false) :
    EntryPhrase (.ofAttribute a) (ls.map (Lexeme.token false)) := by
  cases h with
  | plain hn ht =>
    rw [List.map_cons, hn.token]
    exact .plain hname hindex (AttributeType.ofWord?_of_sameLetters ht.token)
  | key hn ht hr =>
    rw [List.map_cons, hn.token]
    exact .key hname hindex (AttributeType.ofWord?_of_sameLetters ht.token)
      (KeyRole.ofWord?_of_sameLetters hr.token)

/-- What an entry of a well-formed definition is written as is the entry's phrase. -/
theorem EntryText.entryPhrase {d : TableDefinition} {e : Entry} (hd : d.WellFormed)
    (ha : ∀ a, e.attribute? = some a → a ∈ d.attributes)
    (hi : ∀ i, e.index? = some i → i ∈ d.indexes) (h : EntryText e ls) :
    EntryPhrase e (ls.map (Lexeme.token false)) := by
  cases h with
  | @ofAttribute a ls h =>
    obtain ⟨hname, hindex⟩ := hd.attributes a (ha a rfl)
    exact h.entryPhrase hname hindex
  | @ofIndex i k s n ls hk hs hn hattributes =>
    obtain ⟨hname, -, hwf⟩ := hd.indexes i (hi i rfl)
    have hlisted := hattributes.map (f := Lexeme.token false) token_separatorMark
      fun a ha ls h => h.indexAttributePhrase (hwf a ha).1 (hwf a ha).2
    have hphrase := EntryPhrase.index hk.token
      (.mk (IndexScope.ofWord?_of_sameLetters hs.token) hname hlisted)
    simpa [hn.token, token_parenthesis] using hphrase

/-- A well-formed definition is read back from every text it is written as. -/
theorem readCreateTable_text {d : TableDefinition} {text : String} (hd : d.WellFormed)
    (h : IsTextOf d text) : readCreateTable text = .ok d := by
  obtain ⟨ls, hls, htext⟩ := h
  rw [readCreateTable_eq_ok, tokensOf_eq, htext.lexemes_eq]
  cases hls with
  | @mk es k₁ k₂ n ls finish hattributes hindexes hk₁ hk₂ hn hentries hfinish =>
    have hlisted := hentries.map (f := Lexeme.token false) token_separatorMark fun e he ls h =>
      h.entryPhrase hd
        (fun a ha => hattributes ▸ List.mem_filterMap.2 ⟨e, he, ha⟩)
        (fun i hi => hindexes ▸ List.mem_filterMap.2 ⟨e, he, hi⟩)
    have hfinish : finish.map (Lexeme.token false) = [] ∨
        finish.map (Lexeme.token false) = [";"] := by
      rcases hfinish with rfl | rfl
      · exact .inl rfl
      · exact .inr rfl
    have hsentence := Sentence.createTable hk₁.token hk₂.token hd.table hlisted hfinish
    rw [definition, hattributes, hindexes] at hsentence
    simpa [hn.token, token_parenthesis] using hsentence

/-! ## What is read -/

/-- An index that has a phrase is well formed. -/
theorem IndexPhrase.wellFormed {i : SecondaryIndex} {ps : List String} (h : IndexPhrase i ps) :
    i.WellFormed := by
  obtain ⟨-, hname, hattributes⟩ := h
  refine ⟨hname, hattributes.ne_nil, fun a ha => ?_⟩
  obtain ⟨_, hname, -, -⟩ := hattributes.exists_of_mem a ha
  exact ⟨hname, rfl⟩

/-- A definition that has a sentence is well formed. -/
theorem Sentence.wellFormed {d : TableDefinition} {ps : List String}
    (h : Sentence (.createTable d) ps) : d.WellFormed := by
  cases h with
  | @createTable k₁ k₂ table es ps finish hk₁ hk₂ htable hes hfinish =>
    refine ⟨htable, ?_, fun a ha => ?_, fun i hi => ?_⟩
    · obtain ⟨e, es, rfl⟩ := List.exists_cons_of_ne_nil hes.ne_nil
      cases e with
      | ofAttribute => exact .inl (List.cons_ne_nil _ _)
      | ofIndex => exact .inr (List.cons_ne_nil _ _)
    · obtain ⟨e, he, hea⟩ := List.mem_filterMap.1 ha
      obtain ⟨p, hp⟩ := hes.exists_of_mem e he
      cases hp with
      | plain hname hindex => cases hea; exact ⟨hname, hindex⟩
      | key hname hindex => cases hea; exact ⟨hname, hindex⟩
      | index => cases hea
    · obtain ⟨e, he, hei⟩ := List.mem_filterMap.1 hi
      obtain ⟨p, hp⟩ := hes.exists_of_mem e he
      cases hp with
      | plain => cases hei
      | key => cases hei
      | index _ hi => cases hei; exact hi.wellFormed

/-! ## Texts of a definition -/

/-- A keyword can be written as itself. -/
theorem isWordFor_self (word : String) : IsWordFor word (.word word.toList) :=
  ⟨_, rfl, by rw [String.ofList_toList]; exact Text.sameLetters_refl word⟩

/-- A name can be written between double quotes. -/
theorem isQuoted_self (name : String) : IsQuoted name (.literal '"' name.toList true) := ⟨_, rfl⟩

/-- A separator can be typed. -/
theorem typable_separatorMark (last : Bool) : (separatorMark last).Typable := by
  cases last <;> rfl

/-- A name can be typed between double quotes. -/
theorem typable_literal (content : List Char) : (Lexeme.literal '"' content true).Typable :=
  ⟨rfl, rfl⟩

/-- Every attribute can be written in lexemes that can be typed. -/
theorem exists_attributeText (a : Attribute) :
    ∃ ls, AttributeText a ls ∧ ∀ l ∈ ls, l.Typable := by
  obtain ⟨name, type, role⟩ := a
  have htype : (Lexeme.word type.name.toList).Typable := by cases type <;> decide
  cases role with
  | none =>
    refine ⟨_, .plain (isQuoted_self name) (isWordFor_self _), ?_⟩
    simpa using ⟨typable_literal _, htype⟩
  | some role =>
    have hrole : (Lexeme.word role.name.toList).Typable := by cases role <;> decide
    refine ⟨_, .key (isQuoted_self name) (isWordFor_self _) (isWordFor_self _), ?_⟩
    simpa using ⟨typable_literal _, htype, hrole⟩

/-- Every entry can be written in lexemes that can be typed, if an index has attributes. -/
theorem exists_entryText (e : Entry) (h : ∀ i, e.index? = some i → i.attributes ≠ []) :
    ∃ ls, EntryText e ls ∧ ∀ l ∈ ls, l.Typable := by
  cases e with
  | ofAttribute a =>
    obtain ⟨ls, hls, htypable⟩ := exists_attributeText a
    exact ⟨ls, .ofAttribute hls, htypable⟩
  | ofIndex i =>
    obtain ⟨ls, hls, htypable⟩ :=
      exists_listed (h i rfl) typable_separatorMark fun a _ => exists_attributeText a
    have hkeyword : (Lexeme.word "INDEX".toList).Typable := by decide
    have hscope : (Lexeme.word i.scope.name.toList).Typable := by cases i.scope <;> decide
    have hmark : (Lexeme.mark '(').Typable := rfl
    refine ⟨_, .ofIndex (isWordFor_self _) (isWordFor_self _) (isQuoted_self _) hls, ?_⟩
    simpa using ⟨hkeyword, hscope, typable_literal _, hmark, htypable⟩

/-- Every well-formed definition can be written. -/
theorem exists_isTextOf {d : TableDefinition} (hd : d.WellFormed) : ∃ text, IsTextOf d text := by
  -- the attributes first and the indexes after them
  obtain ⟨es, hattributes, hindexes⟩ : ∃ es : List Entry,
      es.filterMap Entry.attribute? = d.attributes ∧ es.filterMap Entry.index? = d.indexes := by
    refine ⟨d.attributes.map .ofAttribute ++ d.indexes.map .ofIndex, ?_, ?_⟩
    · simp [List.filterMap_append, List.filterMap_map, Function.comp_def, Entry.attribute?]
    · simp [List.filterMap_append, List.filterMap_map, Function.comp_def, Entry.index?]
  have hne : es ≠ [] := by
    rintro rfl
    rcases hd.ne_nil with hne | hne
    · exact hne hattributes.symm
    · exact hne hindexes.symm
  obtain ⟨ls, hls, htypable⟩ := exists_listed hne typable_separatorMark fun e he =>
    exists_entryText e fun i hi =>
      (hd.indexes i (hindexes ▸ List.mem_filterMap.2 ⟨e, he, hi⟩)).attributes_ne_nil
  have hcreate : (Lexeme.word "CREATE".toList).Typable := by decide
  have htable : (Lexeme.word "TABLE".toList).Typable := by decide
  have hmark : (Lexeme.mark '(').Typable := rfl
  have htext := DefinitionText.mk hattributes hindexes (isWordFor_self _) (isWordFor_self _)
    (isQuoted_self d.table) hls (.inl rfl)
  have htypable : ∀ l ∈ Lexeme.word "CREATE".toList :: .word "TABLE".toList ::
      .literal '"' d.table.toList true :: .mark '(' :: (ls ++ []), l.Typable := by
    simpa using ⟨hcreate, htable, typable_literal _, hmark, htypable⟩
  obtain ⟨s, hs⟩ := exists_spelled htypable
  exact ⟨String.ofList (' ' :: s), _, htext, by simpa using hs⟩

/-- A well-formed definition can be written, and is read from every text that it is written as; and
every definition that is read from any command is well formed. -/
theorem definition_roundTrip :
    (∀ d : TableDefinition, d.WellFormed → (∃ text, IsTextOf d text) ∧
      ∀ text, IsTextOf d text → readCreateTable text = .ok d) ∧
    ∀ command d, readCreateTable command = .ok d → d.WellFormed :=
  ⟨fun _ hd => ⟨exists_isTextOf hd, fun _ h => readCreateTable_text hd h⟩,
    fun _ _ h => (readCreateTable_eq_ok.1 h).wellFormed⟩

/-- A definition with a quote in a name, written with few gaps. -/
theorem definition_roundTrip_quote_in_name :
    let d : TableDefinition := ⟨"t", [⟨"it's", .string, some .hash⟩], []⟩
    let text := "create TABLE\"t\"('it\\'s's\tHASH)"
    d.WellFormed ∧ IsTextOf d text ∧ readCreateTable text = .ok d := by
  intro d text
  have hd : d.WellFormed := ⟨by decide, .inl (by decide), by decide, nofun⟩
  have hentry : EntryText (.ofAttribute ⟨"it's", .string, some .hash⟩)
      [.literal '\'' "it's".toList true, .word ['s'], .word "HASH".toList] :=
    .ofAttribute (.key ⟨_, rfl⟩ ⟨_, rfl, by decide⟩ ⟨_, rfl, by decide⟩)
  have hdefinition : DefinitionText d _ :=
    .mk rfl rfl ⟨"create".toList, rfl, by decide⟩ ⟨"TABLE".toList, rfl, by decide⟩ ⟨'"', rfl⟩
      (.last hentry) (.inl rfl)
  -- from the last lexeme to the first
  have none : ∀ c ∈ ([] : List Char), isGap c = true := nofun
  have h₈ := Spelled.cons (l := .mark ')') none (by decide) (.nil none) (by decide)
  have h₇ := Spelled.cons (l := .word "HASH".toList) (g := ['\t']) (List.forall_mem_singleton.2 rfl)
    (by decide) h₈ (by decide)
  have h₆ := Spelled.cons (l := .word ['s']) none (by decide) h₇ (by decide)
  have h₅ := Spelled.cons (l := .literal '\'' "it's".toList true) none (by decide) h₆ (by decide)
  have h₄ := Spelled.cons (l := .mark '(') none (by decide) h₅ (by decide)
  have h₃ := Spelled.cons (l := .literal '"' "t".toList true) none (by decide) h₄ (by decide)
  have h₂ := Spelled.cons (l := .word "TABLE".toList) (g := [' ']) (List.forall_mem_singleton.2 rfl)
    (by decide) h₃ (by decide)
  have h₁ := Spelled.cons (l := .word "create".toList) none (by decide) h₂ (by decide)
  obtain ⟨_, rfl, hspelled⟩ : ∃ s, s = text.toList ∧ Spelled _ s := ⟨_, by decide +kernel, h₁⟩
  have htext : IsTextOf d text := ⟨_, hdefinition, hspelled⟩
  exact ⟨hd, htext, (definition_roundTrip.1 d hd).2 text htext⟩

end Command

end TableShell
