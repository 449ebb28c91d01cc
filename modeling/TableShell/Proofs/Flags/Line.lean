import TableShell.Proofs.Flags.Word
import Mathlib.Data.List.Nodup

/-!
# Command lines of flags with values

Where every flag takes a value, a command line without the word `--` is read by a small grammar
(`Arguments`): a flag with its value attached, a flag and the next word as its value, or a word that
does not matter. The reading succeeds exactly if the words are such a line and no flag is given
twice, and then gives each flag the value that the line has for it, in the order of the line
(`FlagGrammar.OnlyValues.read_iff`).
-/

namespace TableShell

/-- The words give the flags these values, in this order, and perhaps contain other words. -/
inductive Arguments (flags : List Flag) : List (String × String) → List String → Prop
  | nil : Arguments flags [] []
  /-- The value is a word of its own. -/
  | apart {word name value : String} {given : List (String × String)} {words : List String}
      (hflag : Bears flags word name none) (hvalue : ¬ LooksLikeFlag value)
      (h : Arguments flags given words) :
      Arguments flags ((name, value) :: given) (word :: value :: words)
  | attached {word name value : String} {given : List (String × String)} {words : List String}
      (hflag : Bears flags word name (some value)) (h : Arguments flags given words) :
      Arguments flags ((name, value) :: given) (word :: words)
  | other {word : String} {given : List (String × String)} {words : List String}
      (hword : ¬ LooksLikeFlag word) (h : Arguments flags given words) :
      Arguments flags given (word :: words)

/-- A line without words gives nothing. -/
theorem arguments_nil_iff {flags : List Flag} {given : List (String × String)} :
    Arguments flags given [] ↔ given = [] := by
  constructor
  · rintro ⟨⟩
    rfl
  · rintro rfl
    exact .nil

/-- No line starts with an unknown flag. -/
theorem not_arguments_of_unknown {flags : List Flag} {given : List (String × String)}
    {word : String} {words : List String} (hword : LooksLikeFlag word)
    (hunknown : ∀ name value?, ¬ Bears flags word name value?) :
    ¬ Arguments flags given (word :: words) := by
  intro h
  cases h with
  | apart hflag => exact hunknown _ _ hflag
  | attached hflag => exact hunknown _ _ hflag
  | other hother => exact hother hword

/-- The words go on after a flag that waits for its value, or after none. -/
def ArgumentsAfter (flags : List Flag) :
    Option String → List (String × String) → List String → Prop
  | none, given, words => Arguments flags given words
  | some name, given, words => ∃ value rest later, words = value :: rest ∧
      given = (name, value) :: later ∧ ¬ LooksLikeFlag value ∧ Arguments flags later rest

/-- No flag has two values. -/
def GivenOnce (given : List (String × String)) : Prop := (given.map (·.1)).Nodup

/-! ## Values by name -/

/-- A name is looked up with success exactly when it is among the given ones. -/
theorem isSome_lookup_iff {name : String} {given : List (String × String)} :
    (given.lookup name).isSome = true ↔ name ∈ given.map (·.1) := by
  simp [List.lookup_isSome_iff]

/-- What is given first of a line that gives no name twice gives no name twice. -/
theorem GivenOnce.of_append_left {given rest : List (String × String)}
    (h : GivenOnce (given ++ rest)) : GivenOnce given := by
  rw [GivenOnce, List.map_append] at h
  exact h.of_append_left

/-- One more value keeps the names apart exactly when its name is a new one. -/
theorem givenOnce_concat_iff {given : List (String × String)} {name value : String}
    (h : GivenOnce given) :
    GivenOnce (given ++ [(name, value)]) ↔ name ∉ given.map (·.1) := by
  have hmap : (given ++ [(name, value)]).map (·.1) = given.map (·.1) ++ [name] := List.map_append
  rw [GivenOnce, hmap, ← List.concat_eq_append, List.nodup_concat]
  exact and_iff_left h

namespace GivenFlags

variable {given : GivenFlags}

/-- The flag that the next word is the value of, unless that word looks like a flag. -/
def waiting? (given : GivenFlags) : Option String :=
  match given.pending with
  | some (.flag name none) => some name
  | _ => none

/-- The values that have been read, a pending one included. -/
def assigned (given : GivenFlags) : List (String × String) :=
  given.values ++ match given.pending with
    | some (.flag name (some value)) => [(name, value)]
    | _ => []

/-- What has been read, with nothing pending any more. -/
def settled (given : GivenFlags) : GivenFlags :=
  { given with
    values := given.assigned
    words := given.words ++ match given.pending with
      | some (.word text) => [text]
      | _ => []
    pending := none }

/-- A flag that waits for its value is pending without one. -/
theorem pending_of_waiting {name : String} (h : given.waiting? = some name) :
    given.pending = some (.flag name none) := by
  rw [waiting?] at h
  split at h
  · next hpending =>
    cases h
    exact hpending
  · cases h

/-- A flag that waits for its value assigns nothing yet. -/
theorem assigned_of_waiting {name : String} (h : given.waiting? = some name) :
    given.assigned = given.values := by
  rw [assigned, pending_of_waiting h]
  exact List.append_nil _

end GivenFlags

namespace FlagGrammar

/-- With the words that are still to be read, these values are given all in all. -/
def Gives (g : FlagGrammar) (given : GivenFlags) (words : List String)
    (pairs : List (String × String)) : Prop :=
  GivenOnce pairs ∧
    ∃ later, ArgumentsAfter g.flags given.waiting? later words ∧ given.assigned ++ later = pairs

variable {g : FlagGrammar} {word name value : String} {given result : GivenFlags}
  {words : List String} {pairs : List (String × String)}

/-- Nothing can be settled while a flag waits for its value: the value is missing. -/
theorem settle_of_waiting (hw : given.waiting? = some name) :
    g.settle given = .error (.fault .badValue) := by
  rw [settle, given.pending_of_waiting hw]
  rfl

/-- A word behind a flag that waits is the value of that flag. -/
theorem addAny_of_waiting (hword : ¬ LooksLikeFlag word) (hw : given.waiting? = some name) :
    g.addAny given word = .ok { given with pending := some (.flag name (some word)) } := by
  rw [addAny_of_not_looksLikeFlag given hword, given.pending_of_waiting hw]

/-- A word that is read as this much is also read as this much in the grammar. -/
theorem gives_cons_iff_of (next : GivenFlags) (gained : List (String × String))
    (hok : GivenOnce next.assigned → g.addAny given word = .ok next)
    (heq : ∀ other, g.addAny given word = .ok other → next = other)
    (hassigned : next.assigned = given.assigned ++ gained)
    (hafter : ∀ later, ArgumentsAfter g.flags given.waiting? later (word :: words) ↔
      ∃ rest, later = gained ++ rest ∧ ArgumentsAfter g.flags next.waiting? rest words) :
    g.Gives given (word :: words) pairs ↔
      ∃ next, g.addAny given word = .ok next ∧ g.Gives next words pairs := by
  constructor
  · rintro ⟨hd, later, hlater, rfl⟩
    obtain ⟨rest, rfl, hrest⟩ := (hafter later).1 hlater
    rw [← List.append_assoc, ← hassigned] at hd ⊢
    exact ⟨next, hok hd.of_append_left, hd, rest, hrest, rfl⟩
  · rintro ⟨other, hother, hd, rest, hrest, rfl⟩
    obtain rfl := heq other hother
    refine ⟨hd, gained ++ rest, (hafter _).2 ⟨rest, rfl, hrest⟩, ?_⟩
    rw [hassigned, List.append_assoc]

/-- Where the first word is refused and no arguments start with it, nothing is given. -/
theorem gives_cons_of_refused
    (hafter : ∀ later, ¬ ArgumentsAfter g.flags given.waiting? later (word :: words))
    (hadd : ∀ next, g.addAny given word ≠ .ok next) :
    g.Gives given (word :: words) pairs ↔
      ∃ next, g.addAny given word = .ok next ∧ g.Gives next words pairs := by
  constructor
  · rintro ⟨-, later, hlater, -⟩
    exact absurd hlater (hafter later)
  · rintro ⟨next, hnext, -⟩
    exact absurd hnext (hadd next)

/-- What is read of a line, for a first word that is the value of the flag that waits. -/
theorem gives_cons_of_waiting (hword : ¬ LooksLikeFlag word) (hw : given.waiting? = some name) :
    g.Gives given (word :: words) pairs ↔
      ∃ next, g.addAny given word = .ok next ∧ g.Gives next words pairs := by
  have hadd := addAny_of_waiting (g := g) hword hw
  refine gives_cons_iff_of { given with pending := some (.flag name (some word)) } [(name, word)]
    ?_ ?_ ?_ ?_
  · exact fun _ => hadd
  · exact fun other hother => Except.ok.inj (hadd.symm.trans hother)
  · show given.values ++ [(name, word)] = given.assigned ++ [(name, word)]
    rw [GivenFlags.assigned_of_waiting hw]
  · intro later
    rw [hw]
    show (∃ value rest after, word :: words = value :: rest ∧ later = (name, value) :: after ∧
      ¬ LooksLikeFlag value ∧ Arguments g.flags after rest) ↔
        ∃ rest, later = (name, word) :: rest ∧ Arguments g.flags rest words
    constructor
    · rintro ⟨value, rest, after, heq, rfl, -, h⟩
      cases heq
      exact ⟨after, rfl, h⟩
    · rintro ⟨rest, rfl, h⟩
      exact ⟨word, words, rest, rfl, rfl, hword, h⟩

namespace OnlyValues

variable (hg : g.OnlyValues)
include hg

/-! ## One word -/

/-- A value is added unless its flag was given before. -/
theorem addValue_eq (given : GivenFlags) (name value : String) :
    g.addValue given name value =
      if name ∈ given.values.map (·.1) then .error (.fault .repeated)
      else .ok { given with values := given.values ++ [(name, value)] } := by
  rw [addValue, GivenFlags.value?]
  by_cases hname : name ∈ given.values.map (·.1)
  · rw [if_pos (isSome_lookup_iff.2 hname), if_pos hname]
    rfl
  · rw [if_neg (mt isSome_lookup_iff.1 hname), if_neg hname, if_pos (hg.allowsValue name value)]
    rfl

/-- What is pending is settled, unless a flag has two values then. -/
theorem settle_eq_ok (hw : given.waiting? = none) (hd : GivenOnce given.values) :
    g.settle given = .ok result ↔ GivenOnce given.assigned ∧ given.settled = result := by
  obtain ⟨values, switches, texts, pending⟩ := given
  rcases pending with _ | ⟨name, _ | value⟩ | text
  · have hsettle : g.settle ⟨values, switches, texts, none⟩ =
        .ok (GivenFlags.settled ⟨values, switches, texts, none⟩) := by
      simp only [GivenFlags.settled, GivenFlags.assigned, List.append_nil]
      rfl
    have hassigned : GivenFlags.assigned ⟨values, switches, texts, none⟩ = values :=
      List.append_nil values
    rw [hsettle, hassigned, Except.ok.injEq]
    exact (and_iff_right hd).symm
  · cases hw
  · have hsettle : g.settle ⟨values, switches, texts, some (.flag name (some value))⟩ =
        g.addValue ⟨values, switches, texts, none⟩ name value := rfl
    have hassigned : GivenFlags.assigned ⟨values, switches, texts, some (.flag name (some value))⟩ =
        values ++ [(name, value)] := rfl
    have hsettled : GivenFlags.settled ⟨values, switches, texts, some (.flag name (some value))⟩ =
        ⟨values ++ [(name, value)], switches, texts, none⟩ := by
      simp only [GivenFlags.settled, hassigned, List.append_nil]
    rw [hsettle, hg.addValue_eq, hassigned, hsettled, givenOnce_concat_iff hd]
    by_cases hname : name ∈ values.map (·.1)
    · rw [if_pos hname]
      exact ⟨nofun, fun h => absurd hname h.1⟩
    · rw [if_neg hname, Except.ok.injEq]
      exact (and_iff_right hname).symm
  · have hsettle : g.settle ⟨values, switches, texts, some (.word text)⟩ =
        .ok (GivenFlags.settled ⟨values, switches, texts, some (.word text)⟩) := by
      simp only [settle, hg.allowsWord, if_true, GivenFlags.settled, GivenFlags.assigned,
        List.append_nil]
      rfl
    have hassigned : GivenFlags.assigned ⟨values, switches, texts, some (.word text)⟩ = values :=
      List.append_nil values
    rw [hsettle, hassigned, Except.ok.injEq]
    exact (and_iff_right hd).symm

/-- What comes after settling, when no flag waits: it runs on the settled flags unless a name is
given twice. -/
theorem settle_bind_eq_ok {f : GivenFlags → Except FlagStop GivenFlags}
    (hw : given.waiting? = none) (hd : GivenOnce given.values) :
    (g.settle given >>= f) = .ok result ↔
      GivenOnce given.assigned ∧ f given.settled = .ok result := by
  constructor
  · intro h
    obtain ⟨settled, hsettle, h⟩ := bind_eq_ok.1 h
    obtain ⟨hassigned, rfl⟩ := (hg.settle_eq_ok hw hd).1 hsettle
    exact ⟨hassigned, h⟩
  · rintro ⟨hassigned, h⟩
    exact bind_eq_ok.2 ⟨_, (hg.settle_eq_ok hw hd).2 ⟨hassigned, rfl⟩, h⟩

/-- A word that is no flag, where no flag waits, settles what was pending and becomes pending
itself. -/
theorem addAny_of_other (hword : ¬ LooksLikeFlag word) (hw : given.waiting? = none) :
    g.addAny given word =
      g.settle given >>= fun r => .ok { r with pending := some (.word word) } := by
  have hadd : g.addWord given word =
      g.settle given >>= fun r => .ok { r with pending := some (.word word) } := by
    rw [addWord, hg.maxWords_eq]
    rfl
  rw [addAny_of_not_looksLikeFlag given hword]
  split
  · next h =>
    rw [GivenFlags.waiting?, h] at hw
    cases hw
  · exact hadd

/-- A word that is no flag adds nothing to the arguments of a line. -/
theorem arguments_other_iff (hword : ¬ LooksLikeFlag word) :
    Arguments g.flags pairs (word :: words) ↔ Arguments g.flags pairs words := by
  constructor
  · intro h
    cases h with
    | apart hflag => exact absurd (hg.looksLikeFlag hflag) hword
    | attached hflag => exact absurd (hg.looksLikeFlag hflag) hword
    | other _ h => exact h
  · exact .other hword

/-- A word that bears a flag with its value is one argument, in front of those of the later words.
-/
theorem arguments_attached_iff (hflag : Bears g.flags word name (some value)) :
    Arguments g.flags pairs (word :: words) ↔
      ∃ rest, pairs = (name, value) :: rest ∧ Arguments g.flags rest words := by
  constructor
  · intro h
    cases h with
    | apart hflag' => exact nomatch (hg.bears_unique hflag hflag').2
    | attached hflag' h =>
      obtain ⟨rfl, heq⟩ := hg.bears_unique hflag hflag'
      cases heq
      exact ⟨_, rfl, h⟩
    | other hword => exact absurd (hg.looksLikeFlag hflag) hword
  · rintro ⟨rest, rfl, h⟩
    exact .attached hflag h

/-- A word that bears a flag alone leaves the value to the later words. -/
theorem arguments_apart_iff (hflag : Bears g.flags word name none) :
    Arguments g.flags pairs (word :: words) ↔ ArgumentsAfter g.flags (some name) pairs words := by
  constructor
  · intro h
    cases h with
    | apart hflag' hvalue h =>
      obtain ⟨rfl, -⟩ := hg.bears_unique hflag hflag'
      exact ⟨_, _, _, rfl, rfl, hvalue, h⟩
    | attached hflag' => exact nomatch (hg.bears_unique hflag hflag').2
    | other hword => exact absurd (hg.looksLikeFlag hflag) hword
  · rintro ⟨value, rest, later, rfl, rfl, hvalue, h⟩
    exact .apart hflag hvalue h

/-- A word that is not yet all that it will be is left pending. -/
theorem gives_cons_of_pending (pending : PendingFlag) (hd : GivenOnce given.values)
    (hw : given.waiting? = none)
    (hadd : g.addAny given word =
      g.settle given >>= fun r => .ok { r with pending := some pending })
    (hpending : ∀ name value, pending ≠ .flag name (some value))
    (hafter : ∀ later, Arguments g.flags later (word :: words) ↔
      ArgumentsAfter g.flags { given.settled with pending := some pending }.waiting? later words) :
    g.Gives given (word :: words) pairs ↔
      ∃ next, g.addAny given word = .ok next ∧ g.Gives next words pairs := by
  have hassigned : { given.settled with pending := some pending }.assigned = given.assigned := by
    rcases pending with ⟨name, _ | value⟩ | text
    · exact List.append_nil _
    · exact absurd rfl (hpending name value)
    · exact List.append_nil _
  refine gives_cons_iff_of { given.settled with pending := some pending } [] ?_ ?_ ?_ ?_
  · intro hdistinct
    rw [hassigned] at hdistinct
    rw [hadd, hg.settle_bind_eq_ok hw hd]
    exact ⟨hdistinct, rfl⟩
  · intro other hother
    rw [hadd, hg.settle_bind_eq_ok hw hd] at hother
    exact Except.ok.inj hother.2
  · rw [hassigned, List.append_nil]
  · intro later
    rw [hw]
    simp only [List.nil_append, exists_eq_left']
    exact hafter later

/-- What is read of a line, for a first word that bears a flag with its value. -/
theorem gives_cons_of_some (hd : GivenOnce given.values) (hw : given.waiting? = none)
    (hflag : Bears g.flags word name (some value))
    (hadd : g.addAny given word = g.settle given >>= fun r => g.addValue r name value) :
    g.Gives given (word :: words) pairs ↔
      ∃ next, g.addAny given word = .ok next ∧ g.Gives next words pairs := by
  have hvalue : g.addValue given.settled name value =
      if name ∈ given.assigned.map (·.1) then .error (.fault .repeated)
      else .ok { given.settled with values := given.assigned ++ [(name, value)] } :=
    hg.addValue_eq given.settled name value
  refine gives_cons_iff_of { given.settled with values := given.assigned ++ [(name, value)] }
    [(name, value)] ?_ ?_ ?_ ?_
  · intro hassigned
    have hassigned : GivenOnce (given.assigned ++ [(name, value)] ++ []) := hassigned
    rw [List.append_nil] at hassigned
    have hbefore := hassigned.of_append_left
    rw [hadd, hg.settle_bind_eq_ok hw hd, hvalue,
      if_neg ((givenOnce_concat_iff hbefore).1 hassigned)]
    exact ⟨hbefore, rfl⟩
  · intro other hother
    rw [hadd, hg.settle_bind_eq_ok hw hd, hvalue] at hother
    by_cases hname : name ∈ given.assigned.map (·.1)
    · rw [if_pos hname] at hother
      cases hother.2
    · rw [if_neg hname] at hother
      exact Except.ok.inj hother.2
  · exact List.append_nil _
  · intro later
    rw [hw]
    exact hg.arguments_attached_iff hflag

/-- What a line gives is what it gives when its first word has been read. -/
theorem gives_cons_iff (hd : GivenOnce given.values) :
    g.Gives given (word :: words) pairs ↔
      ∃ next, g.addAny given word = .ok next ∧ g.Gives next words pairs := by
  by_cases hword : LooksLikeFlag word
  · have hadd := hg.addAny_eq given hword
    cases hw : given.waiting? with
    | some name =>
      refine gives_cons_of_refused (fun later hlater => ?_) (fun next hnext => ?_)
      · rw [hw] at hlater
        obtain ⟨value, rest, after, heq, -, hvalue, -⟩ := hlater
        cases heq
        exact hvalue hword
      · rw [hadd, settle_of_waiting hw] at hnext
        split at hnext
        · cases hnext
        · cases hnext
        · cases hnext
    | none =>
      cases hflag : g.flag? word with
      | none =>
        rw [hflag] at hadd
        refine gives_cons_of_refused (fun later hlater => ?_) (fun next hnext => ?_)
        · rw [hw] at hlater
          refine not_arguments_of_unknown hword (fun name value? hbears => ?_) hlater
          obtain ⟨flag, hsome, -⟩ := hg.bears_iff.1 hbears
          exact nomatch hflag.symm.trans hsome
        · exact nomatch hadd.symm.trans hnext
      | some found =>
        obtain ⟨flag, _ | value⟩ := found
        · rw [hflag] at hadd
          exact hg.gives_cons_of_pending (.flag flag.name none) hd hw hadd (by simp)
            fun later => hg.arguments_apart_iff (bears_of_flag? hflag)
        · rw [hflag] at hadd
          exact hg.gives_cons_of_some hd hw (bears_of_flag? hflag) hadd
  · cases hw : given.waiting? with
    | some name => exact gives_cons_of_waiting hword hw
    | none =>
      exact hg.gives_cons_of_pending (.word word) hd hw (hg.addAny_of_other hword hw) (by simp)
        fun later => hg.arguments_other_iff hword

/-- At the end of a line, it gives what has been read. -/
theorem gives_nil_iff (hd : GivenOnce given.values) :
    g.Gives given [] pairs ↔ ∃ result, g.settle given = .ok result ∧ result.values = pairs := by
  cases hw : given.waiting? with
  | some name =>
    constructor
    · rintro ⟨-, later, hlater, -⟩
      rw [hw] at hlater
      obtain ⟨value, rest, after, heq, -⟩ := hlater
      cases heq
    · rintro ⟨result, hresult, -⟩
      exact nomatch (settle_of_waiting hw).symm.trans hresult
  | none =>
    constructor
    · rintro ⟨hd', later, hlater, rfl⟩
      rw [hw] at hlater
      obtain rfl := arguments_nil_iff.1 hlater
      rw [List.append_nil] at hd' ⊢
      exact ⟨given.settled, (hg.settle_eq_ok hw hd).2 ⟨hd', rfl⟩, rfl⟩
    · rintro ⟨result, hresult, rfl⟩
      obtain ⟨hd', rfl⟩ := (hg.settle_eq_ok hw hd).1 hresult
      refine ⟨hd', [], ?_, List.append_nil _⟩
      rw [hw]
      exact .nil

/-! ## All words -/

/-- Adding a value keeps the names apart. -/
theorem givenOnce_addValue (hd : GivenOnce given.values)
    (h : g.addValue given name value = .ok result) : GivenOnce result.values := by
  rw [hg.addValue_eq] at h
  by_cases hname : name ∈ given.values.map (·.1)
  · rw [if_pos hname] at h
    cases h
  · rw [if_neg hname] at h
    cases h
    exact (givenOnce_concat_iff hd).2 hname

/-- Settling keeps the names apart. -/
theorem givenOnce_settle (hd : GivenOnce given.values) (h : g.settle given = .ok result) :
    GivenOnce result.values := by
  cases hw : given.waiting? with
  | some name => exact nomatch (settle_of_waiting hw).symm.trans h
  | none =>
    obtain ⟨hd', rfl⟩ := (hg.settle_eq_ok hw hd).1 h
    exact hd'

/-- No word is read so that a flag has two values. -/
theorem givenOnce_addAny (hd : GivenOnce given.values) (h : g.addAny given word = .ok result) :
    GivenOnce result.values := by
  by_cases hword : LooksLikeFlag word
  · rw [hg.addAny_eq given hword] at h
    split at h
    · cases h
    · obtain ⟨settled, hsettle, h⟩ := bind_eq_ok.1 h
      have hsettled := hg.givenOnce_settle hd hsettle
      cases h
      exact hsettled
    · obtain ⟨settled, hsettle, h⟩ := bind_eq_ok.1 h
      exact hg.givenOnce_addValue (hg.givenOnce_settle hd hsettle) h
  · cases hw : given.waiting? with
    | some name =>
      rw [addAny_of_waiting hword hw] at h
      cases h
      exact hd
    | none =>
      rw [hg.addAny_of_other hword hw] at h
      obtain ⟨settled, hsettle, h⟩ := bind_eq_ok.1 h
      have hsettled := hg.givenOnce_settle hd hsettle
      cases h
      exact hsettled

/-- Reading on gives the values that the line gives, and gives some only if the line does. -/
theorem readFrom_iff (hwords : "--" ∉ words) (hd : GivenOnce given.values) :
    (∃ result, g.readFrom false given words = .ok result ∧ result.values = pairs) ↔
      g.Gives given words pairs := by
  induction words generalizing given with
  | nil => exact (hg.gives_nil_iff hd).symm
  | cons word words ih =>
    obtain ⟨hword, hwords⟩ := not_or.1 (mt List.mem_cons.2 hwords)
    have hread : g.readFrom false given (word :: words) =
        g.addAny given word >>= fun next => g.readFrom false next words := by
      rw [readFrom, if_neg Bool.false_ne_true, if_neg (Ne.symm hword)]
    rw [hread, hg.gives_cons_iff hd]
    constructor
    · rintro ⟨result, h, hpairs⟩
      obtain ⟨next, hnext, h⟩ := bind_eq_ok.1 h
      exact ⟨next, hnext, (ih hwords (hg.givenOnce_addAny hd hnext)).1 ⟨result, h, hpairs⟩⟩
    · rintro ⟨next, hnext, h⟩
      obtain ⟨result, h, hpairs⟩ := (ih hwords (hg.givenOnce_addAny hd hnext)).2 h
      exact ⟨result, bind_eq_ok.2 ⟨next, hnext, h⟩, hpairs⟩

/-- The values of a line without `--` are those that its words give, if no flag is given twice. -/
theorem read_iff (hwords : "--" ∉ words) :
    (∃ result, g.read words = .ok result ∧ result.values = pairs) ↔
      Arguments g.flags pairs words ∧ GivenOnce pairs := by
  have hd : GivenOnce ({} : GivenFlags).values := List.nodup_nil
  rw [read, hg.readFrom_iff hwords hd]
  constructor
  · rintro ⟨hd, later, hlater, rfl⟩
    exact ⟨hlater, hd⟩
  · rintro ⟨h, hd⟩
    exact ⟨hd, pairs, h, rfl⟩

end OnlyValues

end FlagGrammar

end TableShell
