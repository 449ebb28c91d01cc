import TableShell.Command.Create
import TableShell.Command.Table
import TableShell.Proofs.Command.Reader

/-!
# The sentences of the commands

Each command has its sentences, and its reader accepts a command exactly if the tokens of the
command start with one. Only `CREATE TABLE` looks at what follows its sentence; the other readers
leave it unread (`Command.accepted_iff`).
-/

namespace TableShell

namespace Command

open Reader

variable {ts rest : List String}

/-! ## The phrases of a table definition -/

/-- The phrase of an attribute of an index. -/
inductive IndexAttributePhrase : Attribute → List String → Prop
  | mk {name w r : String} {type : AttributeType} {role : KeyRole} (hname : name ∉ marks)
      (htype : AttributeType.ofWord? w = some type) (hrole : KeyRole.ofWord? r = some role) :
      IndexAttributePhrase ⟨name, type, some role⟩ [name, w, r]

/-- The phrase of an index, after its keyword. -/
inductive IndexPhrase : SecondaryIndex → List String → Prop
  | mk {w name : String} {scope : IndexScope} {as : List Attribute} {ps : List String}
      (hscope : IndexScope.ofWord? w = some scope) (hname : name ∉ marks)
      (has : Listed separator IndexAttributePhrase as ps) :
      IndexPhrase ⟨name, scope, as⟩ (w :: name :: "(" :: ps)

/-- The phrase of an entry. -/
inductive EntryPhrase : Entry → List String → Prop
  | plain {name w : String} {type : AttributeType} (hname : name ∉ marks)
      (hindex : Text.sameLetters name "INDEX" = false)
      (htype : AttributeType.ofWord? w = some type) :
      EntryPhrase (.ofAttribute ⟨name, type, none⟩) [name, w]
  | key {name w r : String} {type : AttributeType} {role : KeyRole} (hname : name ∉ marks)
      (hindex : Text.sameLetters name "INDEX" = false)
      (htype : AttributeType.ofWord? w = some type) (hrole : KeyRole.ofWord? r = some role) :
      EntryPhrase (.ofAttribute ⟨name, type, some role⟩) [name, w, r]
  | index {k : String} {i : SecondaryIndex} {ps : List String}
      (hk : Text.sameLetters k "INDEX" = true) (hi : IndexPhrase i ps) :
      EntryPhrase (.ofIndex i) (k :: ps)

/-- A keyword that is no mark is read where a name is. -/
theorem notMem_marks_of_keyword {k word : String} (h : Text.sameLetters k word = true)
    (hword : ∀ m ∈ marks, Text.sameLetters m word = false) : k ∉ marks := by
  intro hk
  rw [hword k hk] at h
  cases h

/-- The reader of an attribute of an index takes exactly the phrases of one. -/
theorem takesElement_indexAttribute : TakesElement indexAttribute IndexAttributePhrase := by
  intro ts a last rest
  simp only [indexAttribute, run_bind_eq_ok, name_eq_ok, attributeType_eq_ok, token_eq_ok]
  constructor
  · rintro ⟨name, _, ⟨hname, rfl⟩, type, _, ⟨w, htype, rfl⟩, r, mid, rfl, h⟩
    split at h
    · next role hrole =>
      obtain ⟨rfl, rfl⟩ := run_pure_eq_ok.1 h
      exact ⟨_, .mk hname htype hrole, rfl⟩
    · exact absurd h run_throw_ne_ok
  · rintro ⟨_, ⟨hname, htype, hrole⟩, rfl⟩
    exact ⟨_, _, ⟨hname, rfl⟩, _, _, ⟨_, htype, rfl⟩, _, _, rfl, by rw [hrole]; rfl⟩

/-- The reader of an index takes exactly the phrases of one. -/
theorem secondaryIndex_eq_ok {i : SecondaryIndex} :
    secondaryIndex.run ts = .ok (i, rest) ↔ ∃ ps, IndexPhrase i ps ∧ ts = ps ++ rest := by
  rw [secondaryIndex, run_token_bind_eq_ok]
  constructor
  · rintro ⟨w, mid, rfl, h⟩
    split at h
    · exact absurd h run_throw_ne_ok
    · next scope hscope =>
      simp only [run_bind_eq_ok, name_eq_ok, mark_eq_ok,
        commaList_eq_ok takesElement_indexAttribute] at h
      obtain ⟨name, _, ⟨hname, rfl⟩, -, _, rfl, as, mid, ⟨ps, hps, rfl⟩, h⟩ := h
      obtain ⟨rfl, rfl⟩ := run_pure_eq_ok.1 h
      exact ⟨_, .mk hscope hname hps, by simp⟩
  · rintro ⟨_, ⟨hscope, hname, hps⟩, rfl⟩
    refine ⟨_, _, rfl, ?_⟩
    rw [hscope]
    simp only [run_bind_eq_ok, name_eq_ok, mark_eq_ok,
      commaList_eq_ok takesElement_indexAttribute]
    exact ⟨_, _, ⟨hname, rfl⟩, (), _, rfl, _, _, ⟨_, hps, rfl⟩, rfl⟩

/-- No separator is the name of a role. -/
theorem ofWord?_separator (last : Bool) : KeyRole.ofWord? (separator last) = none := by
  cases last <;> decide

/-- The reader of an optional key role stops before a separator: either there is no role, or one
word that names one. -/
theorem role?_eq_ok {role : Option KeyRole} {last : Bool} :
    role?.run ts = .ok (role, separator last :: rest) ↔
      role = none ∧ ts = separator last :: rest ∨
        ∃ r, role.isSome = true ∧ KeyRole.ofWord? r = role ∧ ts = r :: separator last :: rest := by
  cases ts with
  | nil =>
    have hrun : role?.run [] = .ok (none, []) := rfl
    simp [hrun]
  | cons t ts =>
    cases ht : KeyRole.ofWord? t with
    | none =>
      have hrun : role?.run (t :: ts) = .ok (none, t :: ts) := by
        simp [role?, ht]
        rfl
      rw [hrun]
      constructor
      · rintro ⟨⟩
        exact .inl ⟨rfl, rfl⟩
      · rintro (⟨rfl, ⟨⟩⟩ | ⟨r, hsome, hr, ⟨⟩⟩)
        · rfl
        · simp [← hr, ht] at hsome
    | some role' =>
      have hrun : role?.run (t :: ts) = .ok (some role', ts) := by
        simp [role?, ht]
        rfl
      rw [hrun]
      constructor
      · rintro ⟨⟩
        exact .inr ⟨t, rfl, ht, rfl⟩
      · rintro (⟨rfl, ⟨⟩⟩ | ⟨r, hsome, hr, ⟨⟩⟩)
        · rw [ofWord?_separator] at ht
          cases ht
        · rw [← hr, ht]

/-- The role of an attribute is seen from the token behind it, so that an attribute without a role
is read as one only where its list goes on or ends. -/
theorem takesElement_entry : TakesElement entry EntryPhrase := by
  intro ts e last rest
  simp only [entry, run_bind_eq_ok, name_eq_ok]
  constructor
  · rintro ⟨first, mid, ⟨hfirst, rfl⟩, h⟩
    split at h
    · next hindex =>
      simp only [run_bind_eq_ok, secondaryIndex_eq_ok] at h
      obtain ⟨i, _, ⟨ps, hi, rfl⟩, h⟩ := h
      obtain ⟨rfl, rfl⟩ := run_pure_eq_ok.1 h
      exact ⟨_, .index hindex hi, rfl⟩
    · next hindex =>
      rw [Bool.not_eq_true] at hindex
      simp only [run_bind_eq_ok, attributeType_eq_ok] at h
      obtain ⟨type, _, ⟨w, htype, rfl⟩, role, _, hrole, h⟩ := h
      obtain ⟨rfl, rfl⟩ := run_pure_eq_ok.1 h
      rcases role?_eq_ok.1 hrole with ⟨rfl, rfl⟩ | ⟨r, hsome, hr, rfl⟩
      · exact ⟨_, .plain hfirst hindex htype, rfl⟩
      · obtain ⟨role, rfl⟩ := Option.isSome_iff_exists.1 hsome
        exact ⟨_, .key hfirst hindex htype hr, rfl⟩
  · rintro ⟨_, hphrase, rfl⟩
    cases hphrase with
    | @plain name w type hname hindex htype =>
      refine ⟨_, _, ⟨hname, rfl⟩, ?_⟩
      rw [if_neg (by simp [hindex])]
      simp only [run_bind_eq_ok, attributeType_eq_ok]
      exact ⟨type, _, ⟨w, htype, rfl⟩, none, _, role?_eq_ok.2 (.inl ⟨rfl, rfl⟩), rfl⟩
    | @key name w r type role hname hindex htype hrole =>
      refine ⟨_, _, ⟨hname, rfl⟩, ?_⟩
      rw [if_neg (by simp [hindex])]
      simp only [run_bind_eq_ok, attributeType_eq_ok]
      exact ⟨type, _, ⟨w, htype, rfl⟩, some role, _,
        role?_eq_ok.2 (.inr ⟨r, rfl, hrole, rfl⟩), rfl⟩
    | @index k i ps hk hi =>
      refine ⟨k, _, ⟨notMem_marks_of_keyword hk (by decide), rfl⟩, ?_⟩
      rw [if_pos hk]
      simp only [run_bind_eq_ok, secondaryIndex_eq_ok]
      exact ⟨i, _, ⟨ps, hi, rfl⟩, rfl⟩

/-! ## The sentences -/

/-- What a command says. -/
inductive Meaning where
  | describe (table : String)
  | showTables
  | dropTable (d : DropTable)
  | truncateTable (table : String)
  | assignment (a : Assignment)
  | createTable (d : TableDefinition)

/-- The command is read to have the meaning. -/
def Meaning.ReadFrom (command : String) : Meaning → Prop
  | describe table => readDescribe command = .ok table
  | showTables => readShowTables command = .ok ()
  | dropTable d => readDropTable command = .ok d
  | truncateTable table => readTruncateTable command = .ok table
  | assignment a => readAssignment command = .ok a
  | createTable d => readCreateTable command = .ok d

/-- The reader of the command looks at what follows its sentence. -/
def Meaning.EndsCommand : Meaning → Prop
  | createTable _ => True
  | _ => False

/-- The sentences of a meaning. -/
inductive Sentence : Meaning → List String → Prop
  | describe {k table : String} (hk : Text.sameLetters k "DESC" = true) (htable : table ∉ marks) :
      Sentence (.describe table) [k, table, ";"]
  | showTables {k₁ k₂ : String} (hk₁ : Text.sameLetters k₁ "SHOW" = true)
      (hk₂ : Text.sameLetters k₂ "TABLES" = true) : Sentence .showTables [k₁, k₂, ";"]
  | dropTable {k₁ k₂ table : String} (hk₁ : Text.sameLetters k₁ "DROP" = true)
      (hk₂ : Text.sameLetters k₂ "TABLE" = true) (htable : table ∉ marks)
      (hif : Text.sameLetters table "IF" = false) :
      Sentence (.dropTable ⟨table, false⟩) [k₁, k₂, table, ";"]
  | dropTableIfExists {k₁ k₂ k₃ k₄ table : String} (hk₁ : Text.sameLetters k₁ "DROP" = true)
      (hk₂ : Text.sameLetters k₂ "TABLE" = true) (hk₃ : Text.sameLetters k₃ "IF" = true)
      (hk₄ : Text.sameLetters k₄ "EXISTS" = true) (htable : table ∉ marks) :
      Sentence (.dropTable ⟨table, true⟩) [k₁, k₂, k₃, k₄, table, ";"]
  | truncateTable {k₁ k₂ table : String} (hk₁ : Text.sameLetters k₁ "TRUNCATE" = true)
      (hk₂ : Text.sameLetters k₂ "TABLE" = true) (htable : table ∉ marks) :
      Sentence (.truncateTable table) [k₁, k₂, table, ";"]
  | assignment {name value : String} (hname : name ∉ marks) :
      Sentence (.assignment ⟨name, value⟩) ["@", name, "=", value, ";"]
  | createTable {k₁ k₂ table : String} {es : List Entry} {ps finish : List String}
      (hk₁ : Text.sameLetters k₁ "CREATE" = true) (hk₂ : Text.sameLetters k₂ "TABLE" = true)
      (htable : table ∉ marks) (hes : Listed separator EntryPhrase es ps)
      (hfinish : finish = [] ∨ finish = [";"]) :
      Sentence (.createTable (definition table es)) (k₁ :: k₂ :: table :: "(" :: (ps ++ finish))

/-- The tokens of the command start with a sentence of the meaning. -/
def Meaning.Opens (m : Meaning) (command : String) (rest : List String) : Prop :=
  ∃ ps, Sentence m ps ∧ tokensOf command = ps ++ rest

variable {command table : String}

/-- A command is read as describing a table exactly when its tokens open with such a sentence. -/
theorem readDescribe_eq_ok :
    readDescribe command = .ok table ↔ ∃ rest, (Meaning.describe table).Opens command rest := by
  simp only [readDescribe, read_eq_ok, describe, run_bind_eq_ok, keyword_eq_ok, name_eq_ok,
    mark_eq_ok, run_pure_eq_ok]
  constructor
  · rintro ⟨rest, -, _, ⟨k, hk, hts⟩, _, _, ⟨htable, rfl⟩, -, _, rfl, rfl, rfl⟩
    exact ⟨_, _, .describe hk htable, hts⟩
  · rintro ⟨rest, _, ⟨hk, htable⟩, hts⟩
    exact ⟨rest, (), _, ⟨_, hk, hts⟩, _, _, ⟨htable, rfl⟩, (), _, rfl, rfl, rfl⟩

/-- A command is read as listing the tables exactly when its tokens open with that sentence. -/
theorem readShowTables_eq_ok :
    readShowTables command = .ok () ↔ ∃ rest, Meaning.showTables.Opens command rest := by
  simp only [readShowTables, read_eq_ok, showTables, run_bind_eq_ok, keyword_eq_ok, mark_eq_ok]
  constructor
  · rintro ⟨rest, -, _, ⟨k₁, hk₁, hts⟩, -, _, ⟨k₂, hk₂, rfl⟩, rfl⟩
    exact ⟨_, _, .showTables hk₁ hk₂, hts⟩
  · rintro ⟨rest, _, hsentence, hts⟩
    cases hsentence with
    | showTables hk₁ hk₂ => exact ⟨rest, (), _, ⟨_, hk₁, hts⟩, (), _, ⟨_, hk₂, rfl⟩, rfl⟩

/-- A command is read as emptying a table exactly when its tokens open with such a sentence. -/
theorem readTruncateTable_eq_ok :
    readTruncateTable command = .ok table ↔
      ∃ rest, (Meaning.truncateTable table).Opens command rest := by
  simp only [readTruncateTable, read_eq_ok, truncateTable, run_bind_eq_ok, keyword_eq_ok,
    name_eq_ok, mark_eq_ok, run_pure_eq_ok]
  constructor
  · rintro ⟨rest, -, _, ⟨k₁, hk₁, hts⟩, -, _, ⟨k₂, hk₂, rfl⟩, _, _, ⟨htable, rfl⟩, -, _, rfl,
      rfl, rfl⟩
    exact ⟨_, _, .truncateTable hk₁ hk₂ htable, hts⟩
  · rintro ⟨rest, _, hsentence, hts⟩
    cases hsentence with
    | truncateTable hk₁ hk₂ htable =>
      exact ⟨rest, (), _, ⟨_, hk₁, hts⟩, (), _, ⟨_, hk₂, rfl⟩, _, _, ⟨htable, rfl⟩, (), _, rfl,
        rfl, rfl⟩

/-- A command is read as an assignment exactly when its tokens open with such a sentence. -/
theorem readAssignment_eq_ok {a : Assignment} :
    readAssignment command = .ok a ↔ ∃ rest, (Meaning.assignment a).Opens command rest := by
  simp only [readAssignment, read_eq_ok, assignment, run_bind_eq_ok, mark_eq_ok, name_eq_ok,
    token_eq_ok, run_pure_eq_ok]
  constructor
  · rintro ⟨rest, -, _, hts, _, _, ⟨hname, rfl⟩, -, _, rfl, _, _, rfl, -, _, rfl, rfl, rfl⟩
    exact ⟨_, _, .assignment hname, hts⟩
  · rintro ⟨rest, _, hsentence, hts⟩
    cases hsentence with
    | assignment hname =>
      exact ⟨rest, (), _, hts, _, _, ⟨hname, rfl⟩, (), _, rfl, _, _, rfl, (), _, rfl, rfl, rfl⟩

/-- A command is read as dropping a table exactly when its tokens open with such a sentence. -/
theorem readDropTable_eq_ok {d : DropTable} :
    readDropTable command = .ok d ↔ ∃ rest, (Meaning.dropTable d).Opens command rest := by
  simp only [readDropTable, read_eq_ok, dropTable, run_bind_eq_ok, keyword_eq_ok, name_eq_ok]
  constructor
  · rintro ⟨rest, -, _, ⟨k₁, hk₁, hts⟩, -, _, ⟨k₂, hk₂, rfl⟩, first, _, ⟨hfirst, rfl⟩, h⟩
    split at h
    · next hif =>
      simp only [run_bind_eq_ok, keyword_eq_ok, name_eq_ok, mark_eq_ok, run_pure_eq_ok] at h
      obtain ⟨-, _, ⟨k₄, hk₄, rfl⟩, table, _, ⟨htable, rfl⟩, -, _, rfl, rfl, rfl⟩ := h
      exact ⟨_, _, .dropTableIfExists hk₁ hk₂ hif hk₄ htable, hts⟩
    · next hif =>
      simp only [run_bind_eq_ok, mark_eq_ok, run_pure_eq_ok] at h
      obtain ⟨-, _, rfl, rfl, rfl⟩ := h
      exact ⟨_, _, .dropTable hk₁ hk₂ hfirst (Bool.eq_false_iff.2 hif), hts⟩
  · rintro ⟨rest, _, hsentence, hts⟩
    refine ⟨rest, (), ?_⟩
    cases hsentence with
    | dropTable hk₁ hk₂ htable hif =>
      refine ⟨_, ⟨_, hk₁, hts⟩, (), _, ⟨_, hk₂, rfl⟩, _, _, ⟨htable, rfl⟩, ?_⟩
      rw [if_neg (by simp [hif])]
      simp only [run_bind_eq_ok, mark_eq_ok, run_pure_eq_ok]
      exact ⟨(), _, rfl, trivial, rfl⟩
    | dropTableIfExists hk₁ hk₂ hk₃ hk₄ htable =>
      refine ⟨_, ⟨_, hk₁, hts⟩, (), _, ⟨_, hk₂, rfl⟩, _, _,
        ⟨notMem_marks_of_keyword hk₃ (by decide), rfl⟩, ?_⟩
      rw [if_pos hk₃]
      simp only [run_bind_eq_ok, keyword_eq_ok, name_eq_ok, mark_eq_ok, run_pure_eq_ok]
      exact ⟨(), _, ⟨_, hk₄, rfl⟩, _, _, ⟨htable, rfl⟩, (), _, rfl, rfl, rfl⟩

/-- Only `CREATE TABLE` is read to its end. -/
theorem readCreateTable_eq_ok {d : TableDefinition} :
    readCreateTable command = .ok d ↔ Sentence (.createTable d) (tokensOf command) := by
  simp only [readCreateTable, read_eq_ok, createTable, run_bind_eq_ok, keyword_eq_ok, name_eq_ok,
    mark_eq_ok, commaList_eq_ok takesElement_entry, finish_eq_ok, run_pure_eq_ok]
  constructor
  · rintro ⟨rest, -, _, ⟨k₁, hk₁, hts⟩, -, _, ⟨k₂, hk₂, rfl⟩, table, _, ⟨htable, rfl⟩, -, _, rfl,
      es, _, ⟨ps, hps, rfl⟩, -, _, ⟨hfinish, rfl⟩, rfl, rfl⟩
    rw [hts]
    exact .createTable hk₁ hk₂ htable hps hfinish
  · intro h
    generalize tokensOf command = ts at h
    cases h with
    | createTable hk₁ hk₂ htable hes hfinish =>
      exact ⟨_, (), _, ⟨_, hk₁, rfl⟩, (), _, ⟨_, hk₂, rfl⟩, _, _, ⟨htable, rfl⟩, (), _, rfl, _, _,
        ⟨_, hes, rfl⟩, (), _, ⟨hfinish, rfl⟩, rfl, rfl⟩

/-- The sentences of a meaning have one length, but for the end of `CREATE TABLE`. -/
theorem Sentence.length_eq {m : Meaning} {ps qs : List String} (hm : ¬ m.EndsCommand)
    (hp : Sentence m ps) (hq : Sentence m qs) : ps.length = qs.length := by
  cases hp with
  | describe => cases hq; rfl
  | showTables => cases hq; rfl
  | dropTable => cases hq; rfl
  | dropTableIfExists => cases hq; rfl
  | truncateTable => cases hq; rfl
  | assignment => cases hq; rfl
  | createTable => exact absurd trivial hm

/-- A command is accepted exactly if its tokens start with a sentence, after which `CREATE TABLE`
allows no token and every other command allows any tokens; they are one sentence only if nothing
follows it. -/
theorem accepted_iff (m : Meaning) (command : String) :
    (m.ReadFrom command ↔ ∃ rest, m.Opens command rest ∧ (m.EndsCommand → rest = [])) ∧
      (¬ m.EndsCommand → ∀ rest, m.Opens command rest →
        (Sentence m (tokensOf command) ↔ rest = [])) := by
  refine ⟨?_, ?_⟩
  · cases m with
    | describe => simpa [Meaning.ReadFrom, Meaning.EndsCommand] using readDescribe_eq_ok
    | showTables => simpa [Meaning.ReadFrom, Meaning.EndsCommand] using readShowTables_eq_ok
    | dropTable => simpa [Meaning.ReadFrom, Meaning.EndsCommand] using readDropTable_eq_ok
    | truncateTable => simpa [Meaning.ReadFrom, Meaning.EndsCommand] using readTruncateTable_eq_ok
    | assignment => simpa [Meaning.ReadFrom, Meaning.EndsCommand] using readAssignment_eq_ok
    | createTable =>
      simpa [Meaning.ReadFrom, Meaning.EndsCommand, Meaning.Opens] using readCreateTable_eq_ok
  · rintro hm rest ⟨ps, hps, hts⟩
    rw [hts]
    constructor
    · intro hall
      have hlength := hps.length_eq hm hall
      rw [List.length_append] at hlength
      exact List.eq_nil_of_length_eq_zero (by omega)
    · rintro rfl
      rwa [List.append_nil]

/-- The second statement on a line is not looked at. -/
theorem accepted_iff_two_statements :
    readDescribe "DESC users; DROP TABLE users;" = .ok "users" ∧
      ¬ Sentence (.describe "users") (tokensOf "DESC users; DROP TABLE users;") := by
  have hopens : (Meaning.describe "users").Opens "DESC users; DROP TABLE users;"
      ["DROP", "TABLE", "users", ";"] :=
    ⟨["DESC", "users", ";"], .describe (by decide) (by decide), by decide +kernel⟩
  have haccepted := accepted_iff (.describe "users") "DESC users; DROP TABLE users;"
  refine ⟨haccepted.1.2 ⟨_, hopens, nofun⟩, fun hall => ?_⟩
  cases (haccepted.2 nofun _ hopens).1 hall

end Command

end TableShell
