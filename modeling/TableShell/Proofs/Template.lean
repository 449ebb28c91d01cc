import TableShell.Template

/-!
# What an expansion depends on

A text without a reference to a reserved name (`Template.IsFixed`) expands to the same text whatever
has been drawn before, and draws nothing itself (`Variables.substitute_of_isFixed`). Such texts stay
so when a space joins them (`Template.IsFixed.append_space`). Whatever a text starts with up to its
first dollar sign, its expansion starts with too (`Variables.toList_substitute_append`), and a text
in which no reference starts is its own expansion (`Variables.substitute_of_noReference`).
-/

namespace TableShell

namespace Template

variable {vars : Variables} {supply : Supply}

/-- The text refers to neither reserved name. -/
def IsFixed (s : String) : Prop :=
  ∀ p ∈ pieces s.toList, p ≠ .reference uuidName ∧ p ≠ .reference nowName

instance (s : String) : Decidable (IsFixed s) := inferInstanceAs (Decidable (∀ p ∈ _, _))

/-- A name that is not reserved is resolved without drawing, in the same way after any number of
draws. -/
theorem resolve_of_ne {name : List Char} (hu : name ≠ uuidName) (hn : name ≠ nowName)
    (drawn other : Nat) :
    resolve vars supply drawn name = ((resolve vars supply other name).1, drawn) := by
  simp only [resolve, hu, hn, if_false]
  split <;> rfl

/-- Pieces without reserved names expand without drawing, in the same way after any number of draws.
-/
theorem expand_eq {ps : List Piece}
    (h : ∀ p ∈ ps, p ≠ .reference uuidName ∧ p ≠ .reference nowName) (drawn other : Nat) :
    expand vars supply drawn ps = ((expand vars supply other ps).1, drawn) := by
  induction ps generalizing drawn other with
  | nil => rfl
  | cons p ps ih =>
    obtain ⟨hp, hps⟩ := List.forall_mem_cons.1 h
    cases p with
    | char c => simp only [expand, ih hps drawn other]
    | reference name =>
      have hr : resolve vars supply drawn name = ((resolve vars supply other name).1, drawn) :=
        resolve_of_ne (hp.1 <| congrArg Piece.reference ·) (hp.2 <| congrArg Piece.reference ·) _ _
      simp only [expand, hr]
      rw [ih hps drawn (resolve vars supply other name).2]

/-! ## Beginnings -/

/-- A character that opens no reference is a piece of its own. -/
theorem pieces_cons {c : Char} {s : List Char} (hc : c = '$' → s.head? ≠ some '{') :
    pieces (c :: s) = .char c :: pieces s := by
  cases s with
  | nil => rfl
  | cons d s => exact if_neg fun ⟨hdollar, hbrace⟩ => hc hdollar (congrArg some hbrace)

/-- Characters without a dollar are pieces of their own. -/
theorem pieces_append {w : List Char} (hw : ∀ c ∈ w, c ≠ '$') (s : List Char) :
    pieces (w ++ s) = w.map .char ++ pieces s := by
  induction w with
  | nil => rfl
  | cons c w ih =>
    obtain ⟨hc, hw⟩ := List.forall_mem_cons.1 hw
    rw [List.cons_append, pieces_cons (absurd · hc), ih hw, List.map_cons, List.cons_append]

/-- Characters expand to themselves, in front of what the other pieces expand to. -/
theorem expand_append (drawn : Nat) (w : List Char) (ps : List Piece) :
    expand vars supply drawn (w.map .char ++ ps) =
      (w ++ (expand vars supply drawn ps).1, (expand vars supply drawn ps).2) := by
  induction w with
  | nil => rfl
  | cons c w ih => simp only [List.map_cons, List.cons_append, expand, ih]

/-! ## Texts without references -/

/-- No reference starts in the text. -/
def NoReference (s : String) : Prop := ¬ ['$', '{'] <:+: s.toList

instance (s : String) : Decidable (NoReference s) := inferInstanceAs (Decidable (¬ _))

/-- A text opens no reference exactly when its first character opens none and the rest opens none.
-/
theorem not_infix_cons_iff {c : Char} {s : List Char} :
    ¬ ['$', '{'] <:+: c :: s ↔ ¬ ['$', '{'] <:+: s ∧ (c = '$' → s.head? ≠ some '{') := by
  have hhead : ['{'] <+: s ↔ s.head? = some '{' := by
    cases s <;> simp [List.cons_prefix_cons, eq_comm]
  rw [List.infix_cons_iff, List.cons_prefix_cons, hhead, not_or, and_comm, not_and,
    eq_comm (a := '$')]

/-- A text in which no reference starts is taken apart by itself, unless a brace after it opens
one. -/
theorem pieces_append_of_noReference {s t : List Char} (h : ¬ ['$', '{'] <:+: s)
    (ht : t.head? ≠ some '{') : pieces (s ++ t) = s.map .char ++ pieces t := by
  induction s with
  | nil => rfl
  | cons c s ih =>
    obtain ⟨hs, hc⟩ := not_infix_cons_iff.1 h
    have hhead : c = '$' → (s ++ t).head? ≠ some '{' := by
      cases s with
      | nil => exact fun _ => ht
      | cons d s => exact hc
    rw [List.cons_append, pieces_cons hhead, ih hs, List.map_cons, List.cons_append]

/-- A text that opens no reference consists of its characters. -/
theorem pieces_of_noReference {s : List Char} (h : ¬ ['$', '{'] <:+: s) :
    pieces s = s.map .char := by
  have hpieces := pieces_append_of_noReference h (t := []) nofun
  rwa [List.append_nil, show pieces [] = [] from rfl, List.append_nil] at hpieces

/-- No reference starts in two texts, nor where they meet. -/
theorem not_infix_append {s t : List Char} (hs : ¬ ['$', '{'] <:+: s) (ht : ¬ ['$', '{'] <:+: t)
    (hhead : t.head? ≠ some '{') : ¬ ['$', '{'] <:+: s ++ t := by
  induction s with
  | nil => exact ht
  | cons c s ih =>
    obtain ⟨hs, hc⟩ := not_infix_cons_iff.1 hs
    refine not_infix_cons_iff.2 ⟨ih hs, ?_⟩
    cases s with
    | nil => exact fun _ => hhead
    | cons d s => exact hc

/-! ## Names -/

/-- No beginning of the name closes more braces than it opens. -/
def Unclosed (name : List Char) : Prop := ∀ p, p <+: name → p.count '}' ≤ p.count '{'

/-- The braces of the name match. -/
structure Balanced (name : List Char) : Prop where
  unclosed : Unclosed name
  closed : name.count '}' = name.count '{'

instance (name : List Char) : Decidable (Unclosed name) :=
  decidable_of_iff
    (∀ n < name.length + 1, (name.take n).count '}' ≤ (name.take n).count '{') <| by
    constructor
    · intro h p hp
      rw [List.prefix_iff_eq_take.1 hp]
      exact h p.length (Nat.lt_succ_of_le hp.length_le)
    · intro h n _
      exact h _ (List.take_prefix n name)

instance (name : List Char) : Decidable (Balanced name) :=
  decidable_of_iff (Unclosed name ∧ name.count '}' = name.count '{')
    ⟨fun h => ⟨h.1, h.2⟩, fun h => ⟨h.unclosed, h.closed⟩⟩

/-- The empty name is not closed. -/
theorem unclosed_nil : Unclosed [] := by
  intro p hp
  rw [List.prefix_nil.1 hp]
  exact Nat.le_refl _

/-- A name goes on by one character that leaves it with enough open braces. -/
theorem Unclosed.concat {w : List Char} {c : Char} (h : Unclosed w)
    (hc : (w ++ [c]).count '}' ≤ (w ++ [c]).count '{') : Unclosed (w ++ [c]) := by
  intro p hp
  obtain rfl | hp := List.prefix_concat_iff.1 hp
  · exact hc
  · exact h p hp

/-- A name without braces is balanced. -/
theorem Balanced.of_noBrace {w : List Char} (hw : ∀ c ∈ w, c ≠ '{' ∧ c ≠ '}') : Balanced w := by
  have hcount : ∀ p, p <+: w → p.count '{' = 0 ∧ p.count '}' = 0 := by
    intro p hp
    exact ⟨List.count_eq_zero_of_not_mem fun h => (hw _ (hp.subset h)).1 rfl,
      List.count_eq_zero_of_not_mem fun h => (hw _ (hp.subset h)).2 rfl⟩
  refine ⟨?_, ?_⟩
  · intro p hp
    rw [(hcount p hp).2]
    exact Nat.zero_le _
  · rw [(hcount w (List.prefix_refl w)).1, (hcount w (List.prefix_refl w)).2]

variable {c : Char} {depth : Nat} {name s : List Char}

/-- A brace opened in a name goes one level deeper. -/
theorem piecesFrom_open : piecesFrom (.inside depth name) ('{' :: s) =
    piecesFrom (.inside (depth + 1) ('{' :: name)) s := by
  rw [piecesFrom.eq_def]
  exact if_pos rfl

/-- A brace closed in a name comes one level up. -/
theorem piecesFrom_close : piecesFrom (.inside (depth + 1) name) ('}' :: s) =
    piecesFrom (.inside depth ('}' :: name)) s := by
  rw [piecesFrom, if_neg (by decide), if_pos rfl]

/-- The brace closed at the outer level ends the reference. -/
theorem piecesFrom_end :
    piecesFrom (.inside 0 name) ('}' :: s) = .reference name.reverse :: pieces s := by
  rw [piecesFrom, if_neg (by decide), if_pos rfl, pieces]

/-- Any other character belongs to the name. -/
theorem piecesFrom_other (hopen : c ≠ '{') (hclose : c ≠ '}') :
    piecesFrom (.inside depth name) (c :: s) = piecesFrom (.inside depth (c :: name)) s := by
  rw [piecesFrom.eq_def]
  exact (if_neg hopen).trans (if_neg hclose)

/-- While a name is read that closes no more braces than are open, the depth counts them. -/
theorem piecesFrom_inside_append {w : List Char} (depth : Nat) (name t : List Char)
    (hw : ∀ p, p <+: w → p.count '}' ≤ depth + p.count '{') :
    piecesFrom (.inside depth name) (w ++ t) =
      piecesFrom (.inside (depth + w.count '{' - w.count '}') (w.reverse ++ name)) t := by
  induction w generalizing depth name with
  | nil => rfl
  | cons c w ih =>
    have hcons : ∀ p, p <+: w → (c :: p).count '}' ≤ depth + (c :: p).count '{' := by
      intro p hp
      exact hw (c :: p) (List.cons_prefix_cons.2 ⟨rfl, hp⟩)
    rw [List.cons_append, List.reverse_cons, List.append_assoc, List.singleton_append]
    by_cases hopen : c = '{'
    · subst hopen
      simp only [List.count_cons_self, List.count_cons_of_ne (by decide : '{' ≠ '}')] at hcons ⊢
      rw [piecesFrom_open, ih (depth + 1) _ fun p hp => by have := hcons p hp; omega]
      rw [Nat.add_assoc depth, Nat.add_comm 1]
    by_cases hclose : c = '}'
    · subst hclose
      simp only [List.count_cons_self, List.count_cons_of_ne (by decide : '}' ≠ '{')] at hcons ⊢
      -- the brace closes one that was open before
      obtain ⟨d, rfl⟩ : ∃ d, depth = d + 1 := by
        have hnil := hcons [] List.nil_prefix
        rw [List.count_nil, List.count_nil] at hnil
        exact ⟨depth - 1, by omega⟩
      rw [piecesFrom_close, ih d _ fun p hp => by have := hcons p hp; omega]
      rw [Nat.add_right_comm, Nat.add_sub_add_right]
    · simp only [List.count_cons_of_ne hopen, List.count_cons_of_ne hclose] at hcons ⊢
      rw [piecesFrom_other hopen hclose, ih depth _ hcons]

/-- A name whose braces match goes on to the brace after it. -/
theorem Balanced.piecesFrom_inside {w : List Char} (hw : Balanced w) (s : List Char) :
    piecesFrom (.inside 0 []) (w ++ '}' :: s) = .reference w :: pieces s := by
  have hread := piecesFrom_inside_append 0 [] ('}' :: s) fun p hp => by
    rw [Nat.zero_add]
    exact hw.unclosed p hp
  rw [hread, hw.closed, Nat.zero_add, Nat.sub_self, List.append_nil, piecesFrom_end,
    List.reverse_reverse]

/-- A name that leaves no brace for its reference goes on to the end of the text. -/
theorem Unclosed.piecesFrom_inside {w : List Char} (hw : Unclosed w) :
    piecesFrom (.inside 0 []) w = [.reference w] := by
  have hread := piecesFrom_inside_append 0 [] [] fun p hp => by
    rw [Nat.zero_add]
    exact hw p hp
  rw [List.append_nil] at hread
  rw [hread, piecesFrom, List.append_nil, List.reverse_reverse]

/-! ## Texts joined by a space -/

/-- No piece from the place on refers to a reserved name. -/
def FixedFrom (place : Place) (s : List Char) : Prop :=
  ∀ p ∈ piecesFrom place s, p ≠ .reference uuidName ∧ p ≠ .reference nowName

variable {cs t : List Char} {place : Place}

/-- A character that starts no reference is a piece of its own. -/
theorem FixedFrom.char (h : FixedFrom .outside s) (hc : c = '$' → s.head? ≠ some '{') :
    FixedFrom .outside (c :: s) := by
  have hpieces : pieces (c :: s) = .char c :: pieces s := pieces_cons hc
  change ∀ p ∈ pieces (c :: s), _
  rw [hpieces]
  exact List.forall_mem_cons.2 ⟨⟨nofun, nofun⟩, h⟩

/-- A name with a space is not reserved. -/
theorem ne_reserved_of_space (h : ' ' ∈ name) :
    Piece.reference name.reverse ≠ .reference uuidName ∧
      Piece.reference name.reverse ≠ .reference nowName := by
  have hmem : ' ' ∈ name.reverse := List.mem_reverse.2 h
  constructor <;>
  · intro heq
    rw [Piece.reference.inj heq] at hmem
    exact absurd hmem (by decide)

/-- A name with a space that the text ends in is not reserved. -/
theorem fixedFrom_inside_nil (h : ' ' ∈ name) : FixedFrom (.inside depth name) [] := by
  rw [FixedFrom, piecesFrom]
  exact List.forall_mem_singleton.2 (ne_reserved_of_space h)

/-- One character inside a name with a space, by what the character does to the name. -/
theorem fixedFrom_inside_cons (h : ' ' ∈ name)
    (hopen : c = '{' → FixedFrom (.inside (depth + 1) (c :: name)) cs)
    (hend : c = '}' → depth = 0 → FixedFrom .outside cs)
    (hclose : c = '}' → ∀ d, depth = d + 1 → FixedFrom (.inside d (c :: name)) cs)
    (hother : c ≠ '{' → c ≠ '}' → FixedFrom (.inside depth (c :: name)) cs) :
    FixedFrom (.inside depth name) (c :: cs) := by
  rw [FixedFrom]
  by_cases ho : c = '{'
  · subst ho
    rw [piecesFrom_open]
    exact hopen rfl
  by_cases hc : c = '}'
  · subst hc
    cases depth with
    | zero =>
      rw [piecesFrom_end]
      exact List.forall_mem_cons.2 ⟨ne_reserved_of_space h, hend rfl rfl⟩
    | succ depth =>
      rw [piecesFrom_close]
      exact hclose rfl depth rfl
  · rw [piecesFrom_other ho hc]
    exact hother ho hc

/-- The number of open braces in a reference that was begun `depth` braces before a part of a text,
where the reading of that part alone stands at the place. -/
def Place.within (depth : Nat) : Place → Nat
  | .outside => depth
  | .inside k _ => depth + k + 1

/-- A reference with a space in its name that was begun before the text ends, if at all, where the
text alone is outside of any reference. So it uncovers no reserved name. -/
theorem FixedFrom.within (h : FixedFrom place s) (depth : Nat) (hn : ' ' ∈ name) :
    FixedFrom (.inside (place.within depth) name) s := by
  unfold FixedFrom at h
  fun_induction piecesFrom place s generalizing depth name with
  | case1 => exact fixedFrom_inside_nil hn
  | case2 c =>
    have hnil {d : Nat} : FixedFrom (.inside d (c :: name)) [] :=
      fixedFrom_inside_nil (List.mem_cons_of_mem c hn)
    exact fixedFrom_inside_cons hn (fun _ => hnil) nofun (fun _ _ _ => hnil) fun _ _ => hnil
  | case3 c d cs hcd ih =>
    obtain ⟨rfl, rfl⟩ := hcd
    have hn' := List.mem_cons_of_mem '$' hn
    refine fixedFrom_inside_cons hn nofun nofun nofun fun _ _ => ?_
    refine fixedFrom_inside_cons hn' (fun _ => ?_) nofun nofun (absurd rfl ·)
    exact ih h depth (List.mem_cons_of_mem _ hn')
  | case4 c d cs hcd ih =>
    obtain ⟨-, h⟩ := List.forall_mem_cons.1 h
    have hn' := List.mem_cons_of_mem c hn
    refine fixedFrom_inside_cons hn (fun _ => ih h (depth + 1) hn') (fun _ _ => h) ?_ ?_
    · rintro _ d rfl
      exact ih h d hn'
    · exact fun _ _ => ih h depth hn'
  | case5 k n => exact fixedFrom_inside_nil hn
  | case6 k n cs ih =>
    refine fixedFrom_inside_cons hn (fun _ => ?_) nofun nofun (absurd rfl ·)
    exact ih h depth (List.mem_cons_of_mem _ hn)
  | case7 n cs _ ih =>
    obtain ⟨-, h⟩ := List.forall_mem_cons.1 h
    refine fixedFrom_inside_cons hn nofun nofun ?_ (fun _ h => absurd rfl h)
    rintro _ d hd
    obtain rfl : depth = d := Nat.succ.inj hd
    exact ih h depth (List.mem_cons_of_mem _ hn)
  | case8 n cs k _ ih =>
    refine fixedFrom_inside_cons hn nofun nofun ?_ (fun _ h => absurd rfl h)
    rintro _ d hd
    obtain rfl : depth + k + 1 = d := Nat.succ.inj hd
    exact ih h depth (List.mem_cons_of_mem _ hn)
  | case9 k n c cs ho hc ih =>
    refine fixedFrom_inside_cons hn (absurd · ho) (absurd · hc) (absurd · hc) fun _ _ => ?_
    exact ih h depth (List.mem_cons_of_mem _ hn)

/-- Texts without reserved names, joined by a space, have none: a name that goes over the space has
it in it. -/
theorem FixedFrom.append_space (h : FixedFrom place s) (ht : FixedFrom .outside t) :
    FixedFrom place (s ++ ' ' :: t) := by
  have hspace : FixedFrom .outside (' ' :: t) := ht.char (absurd · (by decide))
  unfold FixedFrom at h
  fun_induction piecesFrom place s with
  | case1 => exact hspace
  | case2 c => exact hspace.char fun _ => by simp
  | case3 c d cs hcd ih =>
    have hpieces : piecesFrom .outside (c :: d :: (cs ++ ' ' :: t)) =
        piecesFrom (.inside 0 []) (cs ++ ' ' :: t) := if_pos hcd
    change ∀ p ∈ piecesFrom .outside (c :: d :: (cs ++ ' ' :: t)), _
    rw [hpieces]
    exact ih h
  | case4 c d cs hcd ih =>
    refine (ih (List.forall_mem_cons.1 h).2).char fun hdollar => ?_
    simpa [hdollar] using hcd
  | case5 k n => exact ht.within k List.mem_cons_self
  | case6 k n cs ih => exact ih h
  | case7 n cs _ ih =>
    obtain ⟨hn, h⟩ := List.forall_mem_cons.1 h
    exact List.forall_mem_cons.2 ⟨hn, ih h⟩
  | case8 n cs k _ ih => exact ih h
  | case9 k n c cs ho hc ih =>
    rw [List.cons_append, FixedFrom, piecesFrom_other ho hc]
    exact ih h

/-- Two texts without reserved names have none when a space joins them: a reference that goes on
from one to the other has the space in its name. -/
theorem IsFixed.append_space {a b : String} (ha : IsFixed a) (hb : IsFixed b) :
    IsFixed (a ++ " " ++ b) := by
  have hjoined : (a ++ " " ++ b).toList = a.toList ++ ' ' :: b.toList := by simp
  rw [IsFixed, hjoined]
  exact FixedFrom.append_space ha hb

end Template

namespace Variables

open Template

/-- A text without reserved names expands to the same text whatever has been drawn. -/
theorem substitute_of_isFixed {s : String} (h : IsFixed s) (vars : Variables) (supply : Supply)
    (drawn other : Nat) :
    (vars.substitute supply drawn s).1 = (vars.substitute supply other s).1 := by
  simp only [substitute, expand_eq h drawn other]

/-- A text without reserved names draws nothing. -/
theorem substitute_snd_of_isFixed {s : String} (h : IsFixed s) (vars : Variables)
    (supply : Supply) (drawn : Nat) : (vars.substitute supply drawn s).2 = drawn := by
  simp only [substitute, expand_eq h drawn 0]

/-- A text without references is its own expansion. -/
theorem substitute_of_noReference {s : String} (h : NoReference s) (vars : Variables)
    (supply : Supply) (drawn : Nat) : vars.substitute supply drawn s = (s, drawn) := by
  have hexpand : expand vars supply drawn (s.toList.map .char ++ []) = _ :=
    expand_append drawn s.toList []
  rw [List.append_nil] at hexpand
  simp [substitute, pieces_of_noReference h, hexpand, expand]

/-- The value of a variable is put in as it is between two texts without references. -/
theorem substitute_reference {vars : Variables} {name value a b : String}
    (hv : vars.get? name = some value) (hne : name ≠ "") (huuid : name ≠ "UUID")
    (hnow : name ≠ "NOW") (hbraces : ∀ c ∈ name.toList, c ≠ '{' ∧ c ≠ '}') (ha : NoReference a)
    (hb : NoReference b) (supply : Supply) (drawn : Nat) :
    vars.substitute supply drawn (a ++ "$\x7b" ++ name ++ "\x7d" ++ b) =
      (a ++ value ++ b, drawn) := by
  have htext : (a ++ "$\x7b" ++ name ++ "\x7d" ++ b).toList =
      a.toList ++ '$' :: '{' :: (name.toList ++ '}' :: b.toList) := by simp
  have hpieces : pieces (a ++ "$\x7b" ++ name ++ "\x7d" ++ b).toList =
      a.toList.map .char ++ (.reference name.toList :: (b.toList.map .char ++ [])) := by
    rw [htext, pieces_append_of_noReference ha (by simp), List.append_nil,
      ← pieces_of_noReference hb]
    exact congrArg _ ((Balanced.of_noBrace hbraces).piecesFrom_inside b.toList)
  have hresolve : resolve vars supply drawn name.toList = (value.toList, drawn) := by
    have hne : name.toList ≠ [] := by simpa using hne
    have huuid : name.toList ≠ uuidName := fun h => huuid (String.toList_inj.1 h)
    have hnow : name.toList ≠ nowName := fun h => hnow (String.toList_inj.1 h)
    rw [resolve, if_neg hne, if_neg huuid, if_neg hnow, String.ofList_toList, hv]
    rfl
  rw [substitute, hpieces, expand_append, expand, hresolve]
  dsimp only
  rw [expand_append, expand]
  simp [String.append_assoc]

/-- What a text starts with stays, up to its first dollar sign. -/
theorem toList_substitute_append {w : List Char} (hw : ∀ c ∈ w, c ≠ '$') (s : List Char)
    (vars : Variables) (supply : Supply) (drawn : Nat) :
    ∃ t, (vars.substitute supply drawn (String.ofList (w ++ s))).1 = String.ofList (w ++ t) := by
  simp only [substitute, String.toList_ofList, pieces_append hw, expand_append]
  exact ⟨_, rfl⟩

end Variables

end TableShell
