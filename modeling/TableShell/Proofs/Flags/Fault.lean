import TableShell.Proofs.Flags.Line

/-!
# Faults in a command line

What is wrong with a command line (`Faulty`): a flag is given twice, is unknown or lacks its value.
Where every flag takes a value, a line that gives each flag at most one value has no such fault
(`FlagGrammar.OnlyValues.not_faulty`).
-/

namespace TableShell

/-- The words give a flag twice, an unknown flag, or a flag without a value. -/
inductive Faulty (flags : List Flag) (words : List String) : Prop
  | repeated {word other name : String} {value? value'? : Option String}
      (hwords : List.Sublist [word, other] words) (hword : Bears flags word name value?)
      (hother : Bears flags other name value'?)
  | unknown {word : String} (hmem : word ∈ words) (hword : LooksLikeFlag word)
      (hflag : ∀ name value?, ¬ Bears flags word name value?)
  /-- Nothing follows the flag, or a word that looks like a flag does. -/
  | lacking {word name : String} {later : List String} (hwords : word :: later <:+ words)
      (hflag : Bears flags word name none) (hnext : ∀ next ∈ later.head?, LooksLikeFlag next)

/-- A line without words has no fault. -/
theorem not_faulty_nil {flags : List Flag} : ¬ Faulty flags [] := by
  intro h
  cases h with
  | repeated hwords => cases hwords
  | unknown hmem => cases hmem
  | lacking hwords => cases List.suffix_nil.1 hwords

/-- In a line that gives values, what looks like a flag is one that is given. -/
theorem exists_bears {flags : List Flag} {pairs : List (String × String)} {word : String}
    {words : List String} (h : Arguments flags pairs words) (hmem : word ∈ words)
    (hword : LooksLikeFlag word) :
    ∃ name value?, Bears flags word name value? ∧ name ∈ pairs.map (·.1) := by
  induction h with
  | nil => cases hmem
  | @apart flag name value pairs words hflag hvalue _ ih =>
    rcases List.mem_cons.1 hmem with rfl | hmem
    · exact ⟨name, none, hflag, List.mem_cons_self⟩
    · rcases List.mem_cons.1 hmem with rfl | hmem
      · exact absurd hword hvalue
      · obtain ⟨name, value?, hbears, hname⟩ := ih hmem
        exact ⟨name, value?, hbears, List.mem_cons_of_mem _ hname⟩
  | @attached flag name value pairs words hflag _ ih =>
    rcases List.mem_cons.1 hmem with rfl | hmem
    · exact ⟨name, value, hflag, List.mem_cons_self⟩
    · obtain ⟨name, value?, hbears, hname⟩ := ih hmem
      exact ⟨name, value?, hbears, List.mem_cons_of_mem _ hname⟩
  | other hother _ ih =>
    rcases List.mem_cons.1 hmem with rfl | hmem
    · exact absurd hword hother
    · exact ih hmem

namespace FlagGrammar.OnlyValues

variable {g : FlagGrammar} {word name : String} {value? : Option String} {words : List String}
  {pairs : List (String × String)}
variable (hg : g.OnlyValues)
include hg

/-- A flag that a word of the line is a spelling of is given. -/
theorem mem_names (h : Arguments g.flags pairs words) (hmem : word ∈ words)
    (hword : Bears g.flags word name value?) : name ∈ pairs.map (·.1) := by
  obtain ⟨other, other?, hother, hname⟩ := exists_bears h hmem (hg.looksLikeFlag hword)
  exact (hg.bears_unique hword hother).1 ▸ hname

/-- A flag that two words of a line are spellings of is given twice. -/
theorem not_givenOnce_of_sublist {other : String} {other? : Option String}
    (h : Arguments g.flags pairs words) (hwords : List.Sublist [word, other] words)
    (hword : Bears g.flags word name value?) (hother : Bears g.flags other name other?) :
    ¬ GivenOnce pairs := by
  induction h with
  | nil => cases hwords
  | @apart flag flagName value pairs words hflag hvalue h ih =>
    intro hd
    obtain ⟨hnew, hd⟩ := List.nodup_cons.1 hd
    rcases List.sublist_cons_iff.1 hwords with hwords | ⟨rest, heq, hwords⟩
    · rcases List.sublist_cons_iff.1 hwords with hwords | ⟨rest, heq, -⟩
      · exact ih hwords hd
      · cases heq
        exact hvalue (hg.looksLikeFlag hword)
    · cases heq
      obtain ⟨rfl, -⟩ := hg.bears_unique hflag hword
      rcases List.mem_cons.1 (List.singleton_sublist.1 hwords) with rfl | hmem
      · exact hvalue (hg.looksLikeFlag hother)
      · exact hnew (hg.mem_names h hmem hother)
  | @attached flag flagName value pairs words hflag h ih =>
    intro hd
    obtain ⟨hnew, hd⟩ := List.nodup_cons.1 hd
    rcases List.sublist_cons_iff.1 hwords with hwords | ⟨rest, heq, hwords⟩
    · exact ih hwords hd
    · cases heq
      obtain ⟨rfl, -⟩ := hg.bears_unique hflag hword
      exact hnew (hg.mem_names h (List.singleton_sublist.1 hwords) hother)
  | @other first pairs words hfirst h ih =>
    rcases List.sublist_cons_iff.1 hwords with hwords | ⟨rest, heq, -⟩
    · exact ih hwords
    · cases heq
      exact absurd (hg.looksLikeFlag hword) hfirst

/-- A flag without a value attached to it has the next word as its value. -/
theorem exists_next_of_suffix {later : List String} (h : Arguments g.flags pairs words)
    (hwords : word :: later <:+ words) (hflag : Bears g.flags word name none) :
    ∃ next ∈ later.head?, ¬ LooksLikeFlag next := by
  induction h with
  | nil => cases List.suffix_nil.1 hwords
  | @apart first flagName value pairs words hfirst hvalue h ih =>
    rcases List.suffix_cons_iff.1 hwords with heq | hwords
    · cases heq
      exact ⟨value, rfl, hvalue⟩
    · rcases List.suffix_cons_iff.1 hwords with heq | hwords
      · cases heq
        exact absurd (hg.looksLikeFlag hflag) hvalue
      · exact ih hwords
  | attached hfirst h ih =>
    rcases List.suffix_cons_iff.1 hwords with heq | hwords
    · cases heq
      exact nomatch (hg.bears_unique hflag hfirst).2
    · exact ih hwords
  | other hfirst h ih =>
    rcases List.suffix_cons_iff.1 hwords with heq | hwords
    · cases heq
      exact absurd (hg.looksLikeFlag hflag) hfirst
    · exact ih hwords

/-- A line that gives every flag at most one value has no fault. -/
theorem not_faulty (h : Arguments g.flags pairs words) (hd : GivenOnce pairs) :
    ¬ Faulty g.flags words := by
  intro hfault
  cases hfault with
  | repeated hwords hword hother => exact hg.not_givenOnce_of_sublist h hwords hword hother hd
  | unknown hmem hword hflag =>
    obtain ⟨name, value?, hbears, -⟩ := exists_bears h hmem hword
    exact hflag name value? hbears
  | lacking hwords hflag hnext =>
    obtain ⟨next, hmem, hother⟩ := hg.exists_next_of_suffix h hwords hflag
    exact hother (hnext next hmem)

end FlagGrammar.OnlyValues

end TableShell
