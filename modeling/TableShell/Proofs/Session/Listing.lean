import TableShell.Proofs.Session.Memory
import TableShell.Proofs.Text.Utf8

/-!
# Listing the tables

`SHOW TABLES` asks for the names of the tables page by page, and each page gives the cursor from
which the next one is asked for, until one gives none. Over a store in memory the cursor of a page
is its last name, and the names after a cursor are those behind it (`MemoryStore.filter_after`).
So a page takes the names off the front of those that are left (`MemoryStore.listTables_cases`), and
every name is shown once, in the order of the bytes, with as many calls as it takes
(`Session.show_tables`).
-/

namespace TableShell

namespace MemoryStore

/-- In an ascending list, the names after one of them are those behind it. -/
theorem filter_after {front more : List String} {name : String}
    (h : (front ++ name :: more).Pairwise (· < ·)) :
    (front ++ name :: more).filter (name < ·) = more := by
  obtain ⟨-, hmore, hfront⟩ := List.pairwise_append.1 h
  have hbefore : front.filter (name < ·) = [] := by
    rw [List.filter_eq_nil_iff]
    intro other hother hlt
    exact String.lt_asymm (hfront other hother name List.mem_cons_self) (of_decide_eq_true hlt)
  have hbehind : more.filter (name < ·) = more := by
    rw [List.filter_eq_self]
    intro other hother
    exact decide_eq_true ((List.pairwise_cons.1 hmore).1 other hother)
  rw [List.filter_append, hbefore, List.nil_append, List.filter_cons_of_neg (by simp), hbehind]

variable {store : MemoryStore} {after : Option String} {rest : List String}

/-- The names are in ascending order. -/
theorem pairwise_names (store : MemoryStore) : store.tables.names.Pairwise (· < ·) :=
  List.pairwise_map.2 store.tables.sorted

/-- The names of a store are those under which it has a table. -/
theorem mem_names_iff (store : MemoryStore) (name : String) :
    name ∈ store.tables.names ↔ ∃ t, store.tables.get? name = some t := by
  simp only [Dictionary.get?, store.tables.sorted.find?_eq_some_iff]
  simp [Dictionary.names]

/-- These are the names after the cursor, and they are all the names from some place on. -/
structure Remains (store : MemoryStore) (after : Option String) (rest : List String) : Prop where
  namesAfter : store.namesAfter after = rest
  suffix : rest <:+ store.tables.names

/-- Before the first page all names remain. -/
theorem remains_none (store : MemoryStore) : store.Remains none store.tables.names :=
  ⟨rfl, List.suffix_rfl⟩

/-- A page shows all names that are left, or so many of them as a page can have, and then the others
are left after its cursor. -/
theorem listTables_cases (h : store.Remains after rest) :
    (rest.length ≤ store.pageSize ∧ store.listTables after = { names := rest }) ∨
      store.pageSize < rest.length ∧ ∃ next,
        store.listTables after = { names := rest.take store.pageSize, next := some next } ∧
        store.Remains (some next) (rest.drop store.pageSize) := by
  have hlist : store.listTables after =
      ⟨rest.take store.pageSize, if (rest.take store.pageSize).length < rest.length then
        (rest.take store.pageSize).getLast? else none⟩ := by
    rw [listTables, h.namesAfter]
  have hpos := store.pageSize_pos
  by_cases hle : rest.length ≤ store.pageSize
  · refine .inl ⟨hle, ?_⟩
    rw [hlist, List.take_of_length_le hle, if_neg (Nat.lt_irrefl _)]
  · have hne : rest.take store.pageSize ≠ [] := by
      rw [Ne, List.take_eq_nil_iff, ← List.length_eq_zero_iff]
      omega
    obtain ⟨page, next, hpage⟩ :=
      (List.eq_nil_or_concat (rest.take store.pageSize)).resolve_left hne
    refine .inr ⟨Nat.lt_of_not_le hle, next, ?_, ?_, (List.drop_suffix _ _).trans h.suffix⟩
    · rw [hlist, List.length_take, if_pos (by omega), hpage]
      simp
    · have hrest : rest = page ++ next :: rest.drop store.pageSize := by
        have hparts := List.take_append_drop store.pageSize rest
        rw [hpage, List.concat_append] at hparts
        exact hparts.symm
      obtain ⟨front, hnames⟩ := h.suffix
      have hsplit : store.tables.names = (front ++ page) ++ next :: rest.drop store.pageSize := by
        rw [← hnames, List.append_assoc]
        exact congrArg (front ++ ·) hrest
      rw [namesAfter, hsplit]
      exact filter_after (hsplit ▸ store.pairwise_names)

end MemoryStore

/-! ## The pages -/

/-- The number of pages for so many names: as many as it takes, and one for none. -/
def pageCount (size n : Nat) : Nat := if n = 0 then 1 else (n + size - 1) / size

/-- Names that fit on one page take one. -/
theorem pageCount_of_le {size n : Nat} (hsize : 0 < size) (h : n ≤ size) :
    pageCount size n = 1 := by
  rw [pageCount]
  split
  · rfl
  · next hn =>
    rw [Nat.div_eq_iff hsize]
    omega

/-- Names that do not fit on one page take one more than those behind the page. -/
theorem pageCount_of_lt {size n : Nat} (hsize : 0 < size) (h : size < n) :
    pageCount size n = pageCount size (n - size) + 1 := by
  have hmore : n + size - 1 = n - size + size - 1 + size := by omega
  rw [pageCount, pageCount, if_neg (by omega), if_neg (by omega), hmore,
    Nat.add_div_right _ hsize]

namespace Machine

variable {W : Type}

/-- The machine with further events in its trace. -/
def emitAll (m : Machine W) (events : List Event) : Machine W :=
  { m with trace := m.trace ++ events }

/-- Emitting no events changes nothing. -/
theorem emitAll_nil (m : Machine W) : m.emitAll [] = m := by rw [emitAll, List.append_nil]

/-- Emitting an event and then others is emitting them all. -/
theorem emit_emitAll (m : Machine W) (e : Event) (events : List Event) :
    (m.emit e).emitAll events = m.emitAll (e :: events) := by
  simp [emit, emitAll]

/-- Emitting events and then others is emitting them all. -/
theorem emitAll_emitAll (m : Machine W) (events more : List Event) :
    (m.emitAll events).emitAll more = m.emitAll (events ++ more) := by
  simp [emitAll]

end Machine

/-- The events of a listing from a cursor on: the call for each page and the names that it shows.
Each page but the first is asked for from the cursor that the one before it gave. -/
def listing (client : Connection) : Option String → List NamePage → List Event
  | _, [] => []
  | after, page :: pages =>
    .call client (.listTables after) (.ok page) ::
      (page.names.map fun name => .report (.message name)) ++ listing client page.next pages

/-- What a listing reports is the names of its pages. -/
theorem filterMap_report?_listing (client : Connection) (after : Option String)
    (pages : List NamePage) :
    (listing client after pages).filterMap Event.report? =
      (pages.flatMap (·.names)).map .message := by
  induction pages generalizing after with
  | nil => rfl
  | cons page pages ih =>
    rw [listing, List.cons_append, List.filterMap_cons_none rfl, List.filterMap_append, ih,
      List.flatMap_cons, List.map_append]
    simp [List.filterMap_map, Function.comp_def, Event.report?]

namespace Session

open Act Machine

variable {around : Surroundings MemoryStore} {m : Machine MemoryStore} {after : Option String}
  {rest : List String}

/-- Showing names reports one message for each. -/
theorem apply_showNames {W : Type} (names : List String) (m : Machine W) :
    (names.forM fun name => report (.message name)).apply m =
      (.ok (), m.emitAll (names.map fun name => .report (.message name))) := by
  induction names generalizing m with
  | nil => rw [List.map_nil, emitAll_nil]; rfl
  | cons name names ih =>
    rw [List.map_cons, ← emit_emitAll, ← ih]
    exact apply_bind_of_ok (apply_report _ m)

/-- A page is shown and changes nothing. -/
theorem apply_reportNames (hs : around.service = MemoryStore.service) (fuel : Nat)
    (after : Option String) (m : Machine MemoryStore) :
    (reportNames around (fuel + 1) after).apply m =
      (match (m.world.listTables after).next with
        | some next => reportNames around fuel (some next)
        | none => pure ()).apply
          (m.emitAll (listing m.session.client after [m.world.listTables after])) := by
  have hcall : (call around (.listTables after)).apply m =
      (.ok (m.world.listTables after),
        m.emit (.call m.session.client (.listTables after) (.ok (m.world.listTables after)))) := by
    rw [apply_call_of_memory hs, called, answer, hs]
    rfl
  have hpage : listing m.session.client after [m.world.listTables after] =
      .call m.session.client (.listTables after) (.ok (m.world.listTables after)) ::
        (m.world.listTables after).names.map fun name => .report (.message name) :=
    congrArg (_ :: ·) (List.append_nil _)
  rw [reportNames, apply_bind_of_ok hcall, apply_bind_of_ok (apply_showNames _ _), emit_emitAll]
  exact congrArg (fun events => Act.apply _ (m.emitAll events)) hpage.symm

/-- The names that are left are shown page by page. -/
theorem exists_reportNames (hs : around.service = MemoryStore.service)
    (h : m.world.Remains after rest) {fuel : Nat} (hfuel : rest.length < fuel) :
    ∃ pages : List NamePage, ∃ cursors : List String,
      (reportNames around fuel after).apply m =
        (.ok (), m.emitAll (listing m.session.client after pages)) ∧
      pages.flatMap (·.names) = rest ∧ pages.map (·.next) = cursors.map some ++ [none] ∧
      pages.length = pageCount m.world.pageSize rest.length := by
  have hpos := m.world.pageSize_pos
  induction fuel generalizing m after rest with
  | zero => exact absurd hfuel (Nat.not_lt_zero _)
  | succ fuel ih =>
    rw [apply_reportNames hs]
    obtain ⟨hle, hpage⟩ | ⟨hlt, next, hpage, hmore⟩ := MemoryStore.listTables_cases h
    · rw [hpage]
      exact ⟨[{ names := rest }], [], rfl, List.append_nil _, rfl, (pageCount_of_le hpos hle).symm⟩
    · rw [hpage]
      have hless : (rest.drop m.world.pageSize).length < fuel := by
        rw [List.length_drop]
        omega
      obtain ⟨pages, cursors, hrun, hnames, hcursors, hcount⟩ :=
        ih (m := m.emitAll (listing m.session.client after
          [⟨rest.take m.world.pageSize, some next⟩])) hmore hless hpos
      refine ⟨⟨rest.take m.world.pageSize, some next⟩ :: pages, next :: cursors, ?_, ?_, ?_, ?_⟩
      · refine hrun.trans ?_
        rw [emitAll_emitAll]
        simp [listing, emitAll]
      · rw [List.flatMap_cons, hnames, List.take_append_drop]
      · rw [List.map_cons, hcursors, List.map_cons, List.cons_append]
      · rw [List.length_cons, hcount, pageCount_of_lt hpos hlt, List.length_drop]
        rfl

/-- `SHOW TABLES` shows the names of the tables, each once and in the order of their bytes, and asks
for as many pages as it takes, each but the first from the cursor that the one before it gave. It
changes nothing but the history. -/
theorem show_tables {command : String} (hs : around.service = MemoryStore.service)
    (hkind : CommandKind.ofCommand command = .showTables)
    (hread : Command.readShowTables (m.expansion around command) = .ok ()) :
    ∃ pages : List NamePage, ∃ cursors : List String, ∃ m',
      (execute around command).apply m = (.ok (), m') ∧
      m'.session = { m.session with history := m.session.history.push command } ∧
      m'.world = m.world ∧ m'.trace = m.trace ++ listing m.session.client none pages ∧
      pages.map (·.next) = cursors.map some ++ [none] ∧
      pages.length = pageCount m.world.pageSize m.world.tables.size ∧
      m'.reports = m.reports ++ m.world.tables.names.map .message ∧
      (m.world.tables.names.Pairwise fun name other => Text.bytes name < Text.bytes other) ∧
      ∀ name, name ∈ m.world.tables.names ↔ ∃ t, m.world.tables.get? name = some t := by
  have hfuel : m.world.tables.names.length < m.world.size + 1 := by
    rw [Dictionary.names, List.length_map]
    exact Nat.lt_succ_of_le m.world.size_tables_le_size
  obtain ⟨pages, cursors, hrun, hnames, hcursors, hcount⟩ :=
    exists_reportNames (m := m.expanded around command) hs (MemoryStore.remains_none m.world) hfuel
  have hlist : (listAll around).apply (m.expanded around command) =
      (.ok (), (m.expanded around command).emitAll (listing m.session.client none pages)) := by
    rw [listAll, apply_bind_of_ok (apply_pageLimit_of_memory hs _)]
    exact hrun
  refine ⟨pages, cursors, ((m.expanded around command).emitAll
    (listing m.session.client none pages)).recorded command, ?_, rfl, rfl, rfl, hcursors, ?_, ?_,
    ?_, m.world.mem_names_iff⟩
  · rw [execute_of_showTables hkind, apply_carryOut, hread]
    dsimp only
    rw [hlist]
  · rw [hcount, Dictionary.names, List.length_map]
    rfl
  · rw [← hnames, ← filterMap_report?_listing m.session.client none]
    exact List.filterMap_append
  · exact m.world.pairwise_names.imp Text.bytes_lt_bytes

/-- In memory, three names are listed on three pages of one name. -/
theorem show_tables_three_pages :
    let t : MemoryTable := { description := .bare "t" }
    let store : MemoryStore :=
      { tables := ((Dictionary.insert .empty "b" t).insert "ab" t).insert "a" t, pageSize := 1 }
    ∃ pages m', (execute inMemory "SHOW TABLES;").apply (.over store) = (.ok (), m') ∧
      m'.trace = (Machine.over store).trace ++ listing {} none pages ∧ pages.length = 3 ∧
      m'.reports = [.message "a", .message "ab", .message "b"] := by
  intro t store
  have hread : Command.readShowTables ((Machine.over store).expansion inMemory "SHOW TABLES;") =
      .ok () := eq_ok_of_toOption (by decide +kernel)
  obtain ⟨pages, -, m', hrun, -, -, htrace, -, hcount, hreports, -, -⟩ :=
    show_tables (m := .over store) rfl (by decide) hread
  have hnames : store.tables.names = ["a", "ab", "b"] := by decide +kernel
  have hthree : pageCount store.pageSize store.tables.size = 3 := by decide +kernel
  refine ⟨pages, m', hrun, htrace, hcount.trans hthree, ?_⟩
  rw [hreports, show (Machine.over store).world.tables.names = _ from hnames]
  rfl

end Session

end TableShell
