import TableShell.Proofs.Template

/-!
# The form of a template

A template is a text without references, then references, each with the text without references
that follows it, and in the end perhaps a reference that is never closed. The names of the closed
references have matching braces (`Template.Balanced`), the name of the last one leaves no brace to
close it (`Template.Unclosed`). Every text has such a form (`Template.exists_source_eq`), and its
expansion is the form with values for the names (`Variables.substitute_form`).
-/

namespace TableShell

namespace Template

/-- A closed reference and the text up to the next one. -/
structure Segment where
  name : List Char
  after : List Char
  balanced : Balanced name
  plain : ¬ ['$', '{'] <:+: after

/-- A text as the references in it and what stands around them. -/
structure Form where
  front : List Char
  segments : List Segment
  /-- The reference at the end that is never closed, if there is one. -/
  last : Option { name : List Char // Unclosed name }
  plain : ¬ ['$', '{'] <:+: front

/-- What stands after the front of a form. -/
def sourceFrom : List Segment → Option { name : List Char // Unclosed name } → List Char
  | [], none => []
  | [], some name => '$' :: '{' :: name.1
  | g :: gs, last => '$' :: '{' :: (g.name ++ '}' :: (g.after ++ sourceFrom gs last))

/-- The names after the front of a form, each with the text up to the next reference. -/
def referencesFrom (segments : List Segment) (last : Option { name : List Char // Unclosed name }) :
    List (List Char × List Char) :=
  segments.map (fun g => (g.name, g.after)) ++ last.toList.map fun name => (name.1, [])

namespace Form

/-- The text that has the form. -/
def source (form : Form) : List Char := form.front ++ sourceFrom form.segments form.last

/-- The names of the form, each with the text up to the next reference. -/
def references (form : Form) : List (List Char × List Char) :=
  referencesFrom form.segments form.last

/-- The names that the form refers to. -/
def names (form : Form) : List (List Char) := form.references.map Prod.fst

/-- The form with values in the place of its references. -/
def fill (form : Form) (values : List (List Char)) : List Char :=
  form.front ++ (List.zipWith (· ++ ·) values (form.references.map Prod.snd)).flatten

end Form

/-- A reference to the name stands for a fresh text. -/
def isReserved (name : List Char) : Bool := name = uuidName || name = nowName

/-- What a reference to the name stands for where `drawn` fresh texts have been drawn before. It is
a fresh text for a reserved name, whether or not that has been given a value, and nothing for the
empty name and for a name without a value. -/
def value (vars : Variables) (supply : Supply) (drawn : Nat) (name : List Char) : List Char :=
  if name = uuidName then (supply.uuid drawn).toList
  else if name = nowName then (supply.now drawn).toList
  else if name = [] then []
  else
    match vars.get? (String.ofList name) with
    | some stored => stored.toList
    | none => []

/-- The values of the names. Each reserved name takes the next fresh text. -/
def values (vars : Variables) (supply : Supply) (drawn : Nat) (names : List (List Char)) :
    List (List Char) :=
  names.mapIdx fun i name => value vars supply (drawn + (names.take i).countP isReserved) name

variable {vars other : Variables} {supply : Supply}

/-- The values of names are found from left to right, and a reserved name draws once. -/
theorem values_cons (drawn : Nat) (name : List Char) (names : List (List Char)) :
    values vars supply drawn (name :: names) = value vars supply drawn name ::
      values vars supply (drawn + if isReserved name then 1 else 0) names := by
  rw [values, List.mapIdx_cons]
  congr 1
  refine List.mapIdx_eq_mapIdx_iff.2 fun i hi => ?_
  rw [List.take_succ_cons, List.countP_cons, Nat.add_comm (List.countP _ _), Nat.add_assoc]

/-- A reference stands for the value of its name, and draws a fresh text if that is reserved. -/
theorem resolve_eq_value (drawn : Nat) (name : List Char) :
    resolve vars supply drawn name =
      (value vars supply drawn name, drawn + if isReserved name then 1 else 0) := by
  rw [resolve, value, isReserved]
  by_cases huuid : name = uuidName
  · subst huuid
    rfl
  by_cases hnow : name = nowName
  · subst hnow
    rfl
  simp only [huuid, hnow, if_false, decide_false, Bool.or_false, Bool.false_eq_true, Nat.add_zero]
  by_cases hempty : name = []
  · rw [if_pos hempty, if_pos hempty]
  rw [if_neg hempty, if_neg hempty]
  cases vars.get? (String.ofList name) <;> rfl

/-- What stands around the references stays, and each reference becomes its value. -/
theorem expand_references (drawn : Nat) (refs : List (List Char × List Char)) :
    expand vars supply drawn (refs.flatMap fun r => .reference r.1 :: r.2.map .char) =
      ((List.zipWith (· ++ ·) (values vars supply drawn (refs.map Prod.fst))
          (refs.map Prod.snd)).flatten,
        drawn + (refs.map Prod.fst).countP isReserved) := by
  induction refs generalizing drawn with
  | nil => rfl
  | cons r refs ih =>
    rw [List.flatMap_cons, List.cons_append, expand, resolve_eq_value]
    dsimp only
    rw [expand_append, ih, List.map_cons, List.map_cons, values_cons, List.zipWith_cons_cons,
      List.flatten_cons, List.append_assoc, List.countP_cons, Nat.add_assoc,
      Nat.add_comm (ite _ _ _)]

/-- The value of a name is its own business: other variables do not matter, and for a reserved
name none does. -/
theorem value_congr {name : List Char} (drawn : Nat)
    (h : isReserved name = false → name ≠ [] →
      other.get? (String.ofList name) = vars.get? (String.ofList name)) :
    value other supply drawn name = value vars supply drawn name := by
  rw [value, value]
  by_cases huuid : name = uuidName
  · rw [if_pos huuid, if_pos huuid]
  by_cases hnow : name = nowName
  · simp only [if_neg huuid, if_pos hnow]
  by_cases hempty : name = []
  · simp only [if_neg huuid, if_neg hnow, if_pos hempty]
  have hreserved : isReserved name = false := by simp [isReserved, huuid, hnow]
  simp only [h hreserved hempty]

/-- The values of names depend on the variables of these names only. -/
theorem values_congr {names : List (List Char)} (drawn : Nat)
    (h : ∀ name ∈ names, isReserved name = false → name ≠ [] →
      other.get? (String.ofList name) = vars.get? (String.ofList name)) :
    values other supply drawn names = values vars supply drawn names :=
  List.mapIdx_eq_mapIdx_iff.2 fun _ hi => value_congr _ (h _ (List.getElem_mem hi))

/-! ## The pieces of a form -/

/-- What stands after the front of a form does not start with a brace. -/
theorem head?_sourceFrom (segments : List Segment)
    (last : Option { name : List Char // Unclosed name }) :
    (sourceFrom segments last).head? ≠ some '{' := by
  cases segments with
  | nil => cases last <;> simp [sourceFrom]
  | cons g segments => simp [sourceFrom]

/-- Each name is read up to the brace that closes its reference, and then the text after it. -/
theorem pieces_sourceFrom (segments : List Segment)
    (last : Option { name : List Char // Unclosed name }) :
    pieces (sourceFrom segments last) =
      (referencesFrom segments last).flatMap fun r => .reference r.1 :: r.2.map .char := by
  induction segments with
  | nil =>
    cases last with
    | none => rfl
    | some name => exact name.2.piecesFrom_inside
  | cons g segments ih =>
    have hname : pieces (sourceFrom (g :: segments) last) =
        .reference g.name :: pieces (g.after ++ sourceFrom segments last) :=
      g.balanced.piecesFrom_inside _
    rw [hname, pieces_append_of_noReference g.plain (head?_sourceFrom segments last), ih]
    rfl

/-- The pieces of a form are its front and, for each reference, the name and what stands behind it.
-/
theorem Form.pieces_source (form : Form) :
    pieces form.source = form.front.map .char ++
      form.references.flatMap fun r => .reference r.1 :: r.2.map .char := by
  rw [Form.source, pieces_append_of_noReference form.plain (head?_sourceFrom _ _),
    pieces_sourceFrom, Form.references]

/-! ## Every text has a form -/

/-- What has been read of the reference at a place. -/
def Place.before : Place → List Char
  | .outside => []
  | .inside _ name => '$' :: '{' :: name.reverse

/-- Entering a name one character further reads that character off the text. -/
theorem Place.before_cons {depth depth' : Nat} {name s : List Char} {c : Char} :
    (Place.inside depth' (c :: name)).before ++ s =
      (Place.inside depth name).before ++ c :: s := by
  simp [before]

/-- The depth at a place counts the braces that the name has open. -/
def Place.Counts : Place → Prop
  | .outside => True
  | .inside depth name =>
    Unclosed name.reverse ∧ name.count '{' = name.count '}' + depth

/-- A place counts the braces of its name, also one character further. -/
theorem Place.Counts.concat {depth depth' : Nat} {name : List Char} {c : Char}
    (h : (Place.inside depth name).Counts)
    (hc : (c :: name).count '{' = (c :: name).count '}' + depth') :
    (Place.inside depth' (c :: name)).Counts := by
  refine ⟨?_, hc⟩
  rw [List.reverse_cons]
  apply h.1.concat
  rw [← List.reverse_cons, List.count_reverse, List.count_reverse, hc]
  exact Nat.le_add_right _ _

/-- A character before a form belongs to its front, if it starts no reference. -/
theorem Form.exists_cons {c : Char} (form : Form)
    (hc : c = '$' → form.source.head? ≠ some '{') :
    ∃ form' : Form, form'.source = c :: form.source := by
  have hfront : c = '$' → form.front.head? ≠ some '{' := by
    intro hdollar hhead
    refine hc hdollar ?_
    rw [Form.source, List.head?_append, hhead]
    rfl
  exact ⟨{ form with
    front := c :: form.front
    plain := not_infix_cons_iff.2 ⟨form.plain, hfront⟩ }, rfl⟩

/-- From wherever the reading of a text stands, the rest of it completes a form. -/
theorem exists_source_eq_before (place : Place) (s : List Char) (h : place.Counts) :
    ∃ form : Form, form.source = place.before ++ s := by
  -- along the reading: inside of a reference, `Counts` is what makes its name fit for a form
  fun_induction piecesFrom place s with
  | case1 => exact ⟨⟨[], [], none, by decide⟩, rfl⟩
  | case2 c =>
    have hplain : ¬ ['$', '{'] <:+: [c] := fun h => absurd h.length_le (by simp)
    exact ⟨⟨[c], [], none, hplain⟩, rfl⟩
  | case3 c d cs hcd ih =>
    obtain ⟨rfl, rfl⟩ := hcd
    exact ih ⟨unclosed_nil, rfl⟩
  | case4 c d cs hcd ih =>
    obtain ⟨form, hform⟩ := ih trivial
    obtain ⟨form', hform'⟩ := form.exists_cons (c := c) <| by
      rw [hform]
      exact fun hdollar hbrace => hcd ⟨hdollar, Option.some.inj hbrace⟩
    exact ⟨form', by rw [hform', hform]; rfl⟩
  | case5 depth name =>
    refine ⟨⟨[], [], some ⟨name.reverse, h.1⟩, by decide⟩, ?_⟩
    rw [List.append_nil]
    rfl
  | case6 depth name cs ih =>
    have hcount : ('{' :: name).count '{' = ('{' :: name).count '}' + (depth + 1) := by
      rw [List.count_cons_self, List.count_cons_of_ne (by decide), h.2]
      omega
    rw [← Place.before_cons]
    exact ih (h.concat hcount)
  | case7 name cs _ ih =>
    obtain ⟨form, hform⟩ := ih trivial
    have hbalanced : Balanced name.reverse := by
      refine ⟨h.1, ?_⟩
      rw [List.count_reverse, List.count_reverse, h.2, Nat.add_zero]
    refine ⟨⟨[], ⟨name.reverse, form.front, hbalanced, form.plain⟩ :: form.segments, form.last,
      by decide⟩, ?_⟩
    have hcs : form.front ++ sourceFrom form.segments form.last = cs := hform
    simp [Form.source, sourceFrom, Place.before, hcs]
  | case8 name cs depth _ ih =>
    have hcount : ('}' :: name).count '{' = ('}' :: name).count '}' + depth := by
      rw [List.count_cons_self, List.count_cons_of_ne (by decide), h.2]
      omega
    rw [← Place.before_cons]
    exact ih (h.concat hcount)
  | case9 depth name c cs hopen hclose ih =>
    have hcount : (c :: name).count '{' = (c :: name).count '}' + depth := by
      rw [List.count_cons_of_ne hopen, List.count_cons_of_ne hclose, h.2]
    rw [← Place.before_cons]
    exact ih (h.concat hcount)

/-- Every text has a form. -/
theorem exists_source_eq (s : List Char) : ∃ form : Form, form.source = s :=
  exists_source_eq_before .outside s trivial

end Template

namespace Variables

open Template

/-- A text of a form expands to the form filled with the values of its names, and draws once for
each reserved one. -/
theorem substitute_source (vars : Variables) (supply : Supply) (drawn : Nat) (form : Form) :
    vars.substitute supply drawn (String.ofList form.source) =
      (String.ofList (form.fill (values vars supply drawn form.names)),
        drawn + form.names.countP isReserved) := by
  rw [substitute, String.toList_ofList, form.pieces_source, expand_append, expand_references]
  rfl

/-- Every text has a form. The expansion of a text with a form is the form with the values of its
names, put in as they are, and fresh texts are drawn for the reserved names alone. Variables whose
names the form does not refer to, and variables with reserved names, make no difference. -/
theorem substitute_form (vars : Variables) (supply : Supply) (drawn : Nat) :
    (∀ source : String, ∃ form : Form, String.ofList form.source = source) ∧
    ∀ form : Form,
      vars.substitute supply drawn (String.ofList form.source) =
        (String.ofList (form.fill (values vars supply drawn form.names)),
          drawn + form.names.countP isReserved) ∧
      ∀ other : Variables,
        (∀ name ∈ form.names, isReserved name = false → name ≠ [] →
          other.get? (String.ofList name) = vars.get? (String.ofList name)) →
        other.substitute supply drawn (String.ofList form.source) =
          vars.substitute supply drawn (String.ofList form.source) := by
  refine ⟨?_, ?_⟩
  · intro source
    obtain ⟨form, hform⟩ := exists_source_eq source.toList
    exact ⟨form, by rw [hform, String.ofList_toList]⟩
  · intro form
    refine ⟨substitute_source vars supply drawn form, ?_⟩
    intro other hother
    have hvalues : values other supply drawn form.names = values vars supply drawn form.names :=
      values_congr drawn hother
    rw [substitute_source other, substitute_source vars, hvalues]

/-- A dollar sign before a reference, a name with braces, a value that looks like a reference, a
reserved name that has been given a value, an empty name, and a reference that is never closed. -/
theorem substitute_form_nested :
    ∃ (vars other : Variables) (form : Form),
      String.ofList form.source = "$$\x7ba\x7bb\x7d\x7d-$\x7bUUID\x7d$\x7b\x7d$\x7bc\x7b" ∧
      (∀ name ∈ form.names, isReserved name = false → name ≠ [] →
        other.get? (String.ofList name) = vars.get? (String.ofList name)) ∧
      other.get? "UUID" ≠ vars.get? "UUID" ∧
      vars.substitute ⟨fun _ => "8d3c", fun _ => "17000000000"⟩ 3 (String.ofList form.source) =
        ("$$\x7bv\x7d-8d3c!", 4) ∧
      other.substitute ⟨fun _ => "8d3c", fun _ => "17000000000"⟩ 3 (String.ofList form.source) =
        ("$$\x7bv\x7d-8d3c!", 4) := by
  let vars : Variables := (Dictionary.empty.insert "a\x7bb\x7d" "$\x7bv\x7d").insert "c\x7b" "!"
  let form : Form :=
    { front := ['$']
      segments :=
        [⟨['a', '{', 'b', '}'], ['-'], by decide, by decide⟩, ⟨uuidName, [], by decide, by decide⟩,
          ⟨[], [], by decide, by decide⟩]
      last := some ⟨['c', '{'], by decide⟩
      plain := by decide }
  let other : Variables := vars.insert "UUID" "mine"
  have hother : ∀ name ∈ form.names, isReserved name = false → name ≠ [] →
      other.get? (String.ofList name) = vars.get? (String.ofList name) := by decide
  obtain ⟨hsubstitute, hsame⟩ :=
    (substitute_form vars ⟨fun _ => "8d3c", fun _ => "17000000000"⟩ 3).2 form
  have hfill : vars.substitute ⟨fun _ => "8d3c", fun _ => "17000000000"⟩ 3
      (String.ofList form.source) = ("$$\x7bv\x7d-8d3c!", 4) := hsubstitute.trans (by decide)
  exact ⟨vars, other, form, by decide, hother, by decide, hfill, (hsame other hother).trans hfill⟩

end Variables

end TableShell
