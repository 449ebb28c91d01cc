import TableShell.Proofs.Session.Memory
import TableShell.Proofs.Storage.Memory

/-!
# Emptying a table

`TRUNCATE TABLE` scans a table page by page and deletes the items of each page one by one, by their
keys. Over a store in memory each page is the start of what is left of the table, so the next page
starts where the deleted items ended, and items with the key of a deleted one are gone as well
(`Session.exists_deletePages_step`). So a table whose items all have keys is emptied, and if no two
items share a key then the totals shown are those of whole pages. An item without a key stops the
command, after items in front of it have been deleted (`Session.truncate_table`).
-/

namespace TableShell

namespace Item

variable {schema : List KeyElement} {page items rest : List Item}

/-- The items that have no key of a page. -/
def without (schema : List KeyElement) (page items : List Item) : List Item :=
  items.filter fun item => ∀ other ∈ page, ¬ SameKey schema other item

/-- An empty page leaves all items. -/
theorem without_nil (schema : List KeyElement) (items : List Item) :
    without schema [] items = items := by simp [without]

/-- Items are removed one key after the other. -/
theorem without_cons (schema : List KeyElement) (item : Item) (page items : List Item) :
    without schema (item :: page) items =
      without schema page (items.filter fun other => ¬ SameKey schema item other) := by
  simp only [without, List.filter_filter, List.forall_mem_cons, Bool.decide_and, Bool.and_comm]

/-- Nothing is left of the page itself. -/
theorem without_append (schema : List KeyElement) (page rest : List Item) :
    without schema page (page ++ rest) = without schema page rest := by
  have hpage : without schema page page = [] := by
    rw [without, List.filter_eq_nil_iff]
    intro item hitem h
    exact of_decide_eq_true h item hitem (.refl schema item)
  rw [without, List.filter_append]
  exact congrArg (· ++ without schema page rest) hpage

/-- If no two items share a key, everything is left of the rest. -/
theorem without_eq_self (hk : ∀ item ∈ page, Keyed schema item)
    (hd : Distinct schema (page ++ rest)) : without schema page rest = rest := by
  rw [without, List.filter_eq_self]
  intro item hitem
  refine decide_eq_true fun other hother => ?_
  have hkeyed := hk other hother
  obtain ⟨front, back, rfl⟩ := List.append_of_mem hother
  rw [List.append_assoc, List.cons_append] at hd
  exact hd.not_sameKey hkeyed (List.mem_append_right _ (List.mem_append_right _ hitem))

/-- The items behind a page have distinct keys. -/
theorem Distinct.right (hd : Distinct schema (page ++ rest)) : Distinct schema rest := by
  rw [Distinct, List.filter_append, List.pairwise_append] at hd
  exact hd.2.1

end Item

namespace Machine

/-- Between the machines, nothing but a table was changed, which is this one in the end, and these
reports were shown. -/
structure Clears (m₀ : Machine MemoryStore) (name : String) (t : MemoryTable)
    (reports : List Report) (m : Machine MemoryStore) : Prop where
  session : m.session = m₀.session
  world : m₀.world.Leaves name t m.world
  reports : m.reports = m₀.reports ++ reports

variable {around : Surroundings MemoryStore} {m₀ m : Machine MemoryStore} {name : String}
  {t t' : MemoryTable} {shown : List Report}

/-- Nothing done shows nothing and leaves the table as it is. -/
theorem Clears.refl (h : m.world.tables.get? name = some t) : m.Clears name t [] m :=
  ⟨rfl, .refl h, (List.append_nil _).symm⟩

/-- A call that changes only the table changes only the table. -/
theorem Clears.called (hs : around.service = MemoryStore.service) (h : m₀.Clears name t shown m)
    {c : Call} (hw : m₀.world.Leaves name t' (m.world.answer c).2) :
    m₀.Clears name t' shown (m.called around c) := by
  refine ⟨h.session, ?_, ?_⟩
  · rw [called_world_of_memory hs]
    exact hw
  · rw [Machine.reports, called_trace, List.filterMap_append]
    exact (List.append_nil _).trans h.reports

/-- A report adds itself to what was shown. -/
theorem Clears.report (h : m₀.Clears name t shown m) (r : Report) :
    m₀.Clears name t (shown ++ [r]) (m.emit (.report r)) := by
  refine ⟨h.session, h.world, ?_⟩
  rw [Machine.reports, emit_trace, List.filterMap_append, ← List.append_assoc, ← h.reports]
  rfl

end Machine

namespace Session

open Act Machine Item

variable {around : Surroundings MemoryStore} {m₀ m : Machine MemoryStore} {name : String}
  {t : MemoryTable} {shown : List Report} {page more items : List Item}

/-! ## One page -/

/-- Items with keys are deleted, and with them all items that have a key of theirs, before it is the
turn of further items. -/
theorem exists_deleteItems (hs : around.service = MemoryStore.service)
    (hk : ∀ item ∈ page, Keyed t.description.keySchema item)
    (h : m₀.Clears name { t with items } shown m) :
    ∃ m', m₀.Clears name { t with items := without t.description.keySchema page items } shown m' ∧
      ∀ more, (deleteItems around name t.description.keySchema (page ++ more)).apply m =
        (deleteItems around name t.description.keySchema more).apply m' := by
  induction page generalizing items m with
  | nil => exact ⟨m, by rwa [without_nil], fun more => rfl⟩
  | cons item page ih =>
    obtain ⟨hitem, hpage⟩ := List.forall_mem_cons.1 hk
    obtain ⟨hanswer, hleaves⟩ := MemoryStore.deleteItem_restrict h.world hitem
    let delete := Call.deleteItem name (item.restrict t.description.keySchema)
    obtain ⟨m', hclears, hmore⟩ := ih hpage (h.called hs (c := delete) hleaves)
    refine ⟨m', by rwa [without_cons], fun more => ?_⟩
    have hcall : (call around delete).apply m = (.ok (), m.called around delete) := by
      rw [apply_call_of_memory hs]
      exact congrArg (fun r => (Except.mapError Halt.failed r, _)) hanswer
    have hextract : (ofExcept (item.extractKey name t.description.keySchema)).apply m =
        (.ok (item.restrict t.description.keySchema), m) := by
      rw [apply_ofExcept, extractKey_of_keyed name hitem]
      rfl
    rw [List.cons_append, deleteItems, apply_bind_of_ok hextract, apply_bind_of_ok hcall]
    exact hmore more

/-- An item without a key stops the command. -/
theorem exists_deleteItems_of_not_keyed {schema : List KeyElement} {item : Item}
    (hk : ¬ Keyed schema item) (around : Surroundings MemoryStore) (name : String)
    (more : List Item) (m : Machine MemoryStore) : ∃ missing,
      (deleteItems around name schema (item :: more)).apply m =
        (.error (.failed (missingKey name missing)), m) := by
  obtain ⟨element, hfirst⟩ := exists_firstMissing hk
  refine ⟨element.name, ?_⟩
  rw [deleteItems, extractKey_of_firstMissing name hfirst]
  exact apply_bind_of_error (apply_fail _ _)

/-- A page is found, unless its last item has no key. -/
theorem exists_scan (hs : around.service = MemoryStore.service)
    (h : m₀.Clears name { t with items } shown m) :
    m₀.Clears name { t with items } shown (m.called around (.scanTable name)) ∧
      ((∃ lastKey, (lastKey.isNone = true ↔ items.length ≤ 25) ∧
        (call around (.scanTable name)).apply m =
          (.ok { items := items.take 25, lastKey }, m.called around (.scanTable name))) ∨
      (∃ last ∈ items.take 25, ¬ Keyed t.description.keySchema last) ∧ ∃ missing,
        (call around (.scanTable name)).apply m =
          (.error (.failed (missingKey name missing)), m.called around (.scanTable name))) := by
  refine ⟨h.called hs h.world, ?_⟩
  rw [apply_call_of_memory hs]
  change (∃ lastKey, _ ∧ (Except.mapError _ (m.world.scanTable name), _) = _) ∨
    _ ∧ ∃ missing, (Except.mapError _ (m.world.scanTable name), _) = _
  obtain ⟨hle, hscan⟩ | ⟨hlt, last, hlast, hscan⟩ := MemoryStore.scanTable_cases h.world.table
  · exact .inl ⟨none, by simpa using hle, by rw [hscan]; rfl⟩
  · by_cases hk : Keyed t.description.keySchema last
    · refine .inl ⟨some (last.restrict t.description.keySchema), by simpa using hlt, ?_⟩
      rw [hscan, extractKey_of_keyed name hk]
      rfl
    · obtain ⟨element, hfirst⟩ := exists_firstMissing hk
      refine .inr ⟨⟨last, hlast, hk⟩, element.name, ?_⟩
      rw [hscan, extractKey_of_firstMissing name hfirst]
      rfl

/-- What is shown after each page. -/
def progress (name : String) (deleted : Nat) : Report :=
  .message ("  ... " ++ toString deleted ++ " items deleted from [" ++ name ++ "]")

/-- A page of items with keys is deleted, and if items came after it, what is left of them is turned
to. -/
theorem exists_deletePages_step (hs : around.service = MemoryStore.service) (hne : items ≠ [])
    (hk : ∀ item ∈ items.take 25, Keyed t.description.keySchema item)
    (h : m₀.Clears name { t with items } shown m) (deleted : Nat) :
    ∃ m', m₀.Clears name
        { t with items := without t.description.keySchema (items.take 25) (items.drop 25) }
        (shown ++ [progress name (deleted + min 25 items.length)]) m' ∧
      ∀ pages, (deletePages around name t.description.keySchema (pages + 1) deleted).apply m =
        if items.length ≤ 25 then (.ok (deleted + items.length), m')
        else (deletePages around name t.description.keySchema pages (deleted + 25)).apply m' := by
  obtain ⟨hscanned, ⟨lastKey, hlastKey, hscan⟩ | ⟨⟨last, hlast, hnot⟩, -⟩⟩ := exists_scan hs h
  · obtain ⟨m', hclears, hmore⟩ := exists_deleteItems hs hk hscanned
    have hdelete := hmore []
    rw [List.append_nil, deleteItems, apply_pure] at hdelete
    have hpage : (items.take 25).isEmpty = false := by simpa using hne
    refine ⟨m'.emit (.report (progress name (deleted + min 25 items.length))), ?_, fun pages => ?_⟩
    · rw [← without_append, List.take_append_drop]
      exact hclears.report _
    · rw [deletePages, apply_bind_of_ok hscan, hpage, if_neg Bool.false_ne_true,
        apply_bind_of_ok hdelete, apply_bind_of_ok (apply_report _ _), List.length_take]
      split
      · next hnone =>
        have hle := hlastKey.1 hnone
        rw [if_pos hle, Nat.min_eq_right hle]
        rfl
      · next hsome =>
        have hlt : ¬ items.length ≤ 25 := fun hle => hsome (hlastKey.2 hle)
        rw [if_neg hlt, Nat.min_eq_left (Nat.le_of_not_le hlt)]
        rfl
  · exact absurd (hk last hlast) hnot

/-! ## Page by page -/

/-- The totals after each page of so many items. -/
def totals (n : Nat) : List Nat := (List.range ((n + 24) / 25)).map fun i => min (25 * (i + 1)) n

/-- The totals that are shown go up by pages. -/
theorem totals_of_pos {n : Nat} (hn : 0 < n) :
    totals n = min 25 n :: (totals (n - 25)).map (25 + ·) := by
  have hpages : (n + 24) / 25 = (n - 25 + 24) / 25 + 1 := by omega
  rw [totals, totals, hpages, List.range_succ_eq_map, List.map_cons, List.map_map, List.map_map]
  refine congrArg _ (List.map_congr_left fun i hi => ?_)
  have hlt := List.mem_range.1 hi
  simp only [Function.comp_apply]
  omega

/-- A table whose items have keys is emptied. -/
theorem exists_deletePages (hs : around.service = MemoryStore.service)
    (hk : ∀ item ∈ items, Keyed t.description.keySchema item)
    (h : m₀.Clears name { t with items } shown m) {pages : Nat} (hpages : items.length < pages)
    (deleted : Nat) :
    ∃ total more m',
      (deletePages around name t.description.keySchema pages deleted).apply m = (.ok total, m') ∧
      m₀.Clears name { t with items := [] } (shown ++ more) m' ∧
      (Distinct t.description.keySchema items → total = deleted + items.length ∧
        more = (totals items.length).map fun n => progress name (deleted + n)) := by
  induction pages generalizing items shown m deleted with
  | zero => exact absurd hpages (Nat.not_lt_zero _)
  | succ pages ih =>
    by_cases hne : items = []
    · subst hne
      obtain ⟨hscanned, ⟨lastKey, -, hscan⟩ | ⟨⟨last, hlast, -⟩, -⟩⟩ := exists_scan hs h
      · refine ⟨deleted, [], _, ?_, by rwa [List.append_nil], fun _ => ⟨rfl, rfl⟩⟩
        rw [deletePages, apply_bind_of_ok hscan]
        rfl
      · cases hlast
    have hpos : 0 < items.length := List.length_pos_iff.2 hne
    obtain ⟨m', hclears, hstep⟩ :=
      exists_deletePages_step hs hne (fun item hitem => hk item (List.mem_of_mem_take hitem)) h
        deleted
    rw [hstep]
    by_cases hle : items.length ≤ 25
    · rw [if_pos hle]
      rw [List.drop_of_length_le hle] at hclears
      refine ⟨_, _, m', rfl, hclears, fun _ => ⟨rfl, ?_⟩⟩
      rw [totals_of_pos hpos, Nat.sub_eq_zero_of_le hle]
      rfl
    · rw [if_neg hle]
      have hsub {item : Item}
          (hitem : item ∈ without t.description.keySchema (items.take 25) (items.drop 25)) :
          item ∈ items := List.mem_of_mem_drop (List.mem_filter.1 hitem).1
      have hlength : (without t.description.keySchema (items.take 25) (items.drop 25)).length ≤
          items.length - 25 := by
        rw [← List.length_drop]
        exact List.length_filter_le _ _
      obtain ⟨total, more, m'', hrun, hempty, hdistinct⟩ :=
        ih (fun item hitem => hk item (hsub hitem)) hclears (by omega) (deleted + 25)
      rw [List.append_assoc] at hempty
      refine ⟨total, _, m'', hrun, hempty, fun hd => ?_⟩
      rw [← List.take_append_drop 25 items] at hd
      have hrest := without_eq_self (fun item hitem => hk item (List.mem_of_mem_take hitem)) hd
      rw [hrest, List.length_drop] at hdistinct
      obtain ⟨rfl, rfl⟩ := hdistinct hd.right
      refine ⟨by omega, ?_⟩
      rw [totals_of_pos hpos, List.map_cons, List.map_map]
      refine congrArg _ (List.map_congr_left fun n _ => ?_)
      simp only [Function.comp_apply, Nat.add_assoc]

/-- An item without a key on the next page stops the command, when the items in front of it have
been deleted or, if the last item of the page has no key, before. -/
theorem exists_deletePages_of_next (hs : around.service = MemoryStore.service)
    {front back : List Item} {lacking : Item}
    (hfront : ∀ item ∈ front, Keyed t.description.keySchema item)
    (hlacking : ¬ Keyed t.description.keySchema lacking)
    (hd : Distinct t.description.keySchema (front ++ lacking :: back))
    (h : m₀.Clears name { t with items := front ++ lacking :: back } shown m)
    (hlt : front.length < 25) (pages deleted : Nat) :
    ∃ k missing m', (k = front.length ∨ k = 0) ∧
      (deletePages around name t.description.keySchema (pages + 1) deleted).apply m =
        (.error (.failed (missingKey name missing)), m') ∧
      m₀.Clears name { t with items := front.drop k ++ lacking :: back } shown m' := by
  obtain ⟨hscanned, ⟨lastKey, -, hscan⟩ | ⟨-, missing, hscan⟩⟩ := exists_scan hs h
  · have hpage : (front ++ lacking :: back).take 25 =
        front ++ lacking :: back.take (24 - front.length) := by
      rw [List.take_append, List.take_of_length_le (Nat.le_of_lt hlt),
        show 25 - front.length = 24 - front.length + 1 by omega, List.take_succ_cons]
    have hne : (front ++ lacking :: back.take (24 - front.length)).isEmpty = false := by simp
    obtain ⟨m', hclears, hmore⟩ := exists_deleteItems hs hfront hscanned
    obtain ⟨missing, hmissing⟩ := exists_deleteItems_of_not_keyed hlacking around name
      (back.take (24 - front.length)) m'
    refine ⟨front.length, missing, m', .inl rfl, ?_, ?_⟩
    · rw [hpage] at hscan
      rw [deletePages, apply_bind_of_ok hscan, hne, if_neg Bool.false_ne_true]
      exact apply_bind_of_error ((hmore _).trans hmissing)
    · rw [without_append, without_eq_self hfront hd] at hclears
      rwa [List.drop_length]
  · refine ⟨0, missing, _, .inr rfl, ?_, hscanned⟩
    rw [deletePages, apply_bind_of_error hscan]

/-- An item without a key stops the command, at the latest when all items in front of it have been
deleted. -/
theorem exists_deletePages_of_not_keyed (hs : around.service = MemoryStore.service)
    {front back : List Item} {lacking : Item}
    (hfront : ∀ item ∈ front, Keyed t.description.keySchema item)
    (hlacking : ¬ Keyed t.description.keySchema lacking)
    (hd : Distinct t.description.keySchema (front ++ lacking :: back))
    (h : m₀.Clears name { t with items := front ++ lacking :: back } shown m) {pages : Nat}
    (hpages : front.length < pages) (deleted : Nat) :
    ∃ k missing more m', (k = front.length ∨ k = 25 * (front.length / 25)) ∧
      (deletePages around name t.description.keySchema pages deleted).apply m =
        (.error (.failed (missingKey name missing)), m') ∧
      m₀.Clears name { t with items := front.drop k ++ lacking :: back } (shown ++ more) m' := by
  induction pages generalizing front shown m deleted with
  | zero => exact absurd hpages (Nat.not_lt_zero _)
  | succ pages ih =>
    by_cases hlt : front.length < 25
    · obtain ⟨k, missing, m', hcount, hrun, hleft⟩ :=
        exists_deletePages_of_next hs hfront hlacking hd h hlt pages deleted
      exact ⟨k, missing, [], m', by omega, hrun, by rwa [List.append_nil]⟩
    · have hle : 25 ≤ front.length := Nat.le_of_not_lt hlt
      have htake : (front ++ lacking :: back).take 25 = front.take 25 :=
        List.take_append_of_le_length hle
      have hdrop : (front ++ lacking :: back).drop 25 = front.drop 25 ++ lacking :: back :=
        List.drop_append_of_le_length hle
      have hpage : ∀ item ∈ front.take 25, Keyed t.description.keySchema item :=
        fun item hitem => hfront item (List.mem_of_mem_take hitem)
      obtain ⟨m', hclears, hstep⟩ :=
        exists_deletePages_step hs (by simp) (by rwa [htake]) h deleted
      rw [← List.take_append_drop 25 (front ++ lacking :: back), htake, hdrop] at hd
      rw [htake, hdrop, without_eq_self hpage hd] at hclears
      obtain ⟨k, missing, more, m'', hcount, hrun, hleft⟩ :=
        ih (fun item hitem => hfront item (List.mem_of_mem_drop hitem)) hd.right hclears
          (by rw [List.length_drop]; omega) (deleted + 25)
      rw [List.length_drop] at hcount
      rw [List.drop_drop, List.append_assoc] at hleft
      refine ⟨25 + k, missing, _, m'', by omega, ?_, hleft⟩
      rw [hstep, if_neg (by simp; omega)]
      exact hrun

/-! ## The command -/

/-- The number of pages that are scanned at most is greater than the number of the items. -/
theorem exists_emptyTable (hs : around.service = MemoryStore.service)
    (ht : m.world.tables.get? name = some t) :
    ∃ m' pages, m.Clears name t [] m' ∧ t.items.length < pages ∧ (emptyTable around name).apply m =
      (do let deleted ← deletePages around name t.description.keySchema pages 0
          report (.message ("deleted " ++ toString deleted ++ " items"))).apply m' := by
  have hanswer : (m.world.answer (.describe name)).1 = .ok t.description := by
    rw [MemoryStore.answer, MemoryStore.table, ht]
    rfl
  have hcall : (call around (.describe name)).apply m =
      (.ok t.description, m.called around (.describe name)) := by
    rw [apply_call_of_memory hs, hanswer]
    rfl
  have hlimit : (pageLimit around).apply (m.called around (.describe name)) =
      (.ok (m.world.size + 1), m.called around (.describe name)) := by
    rw [apply_pageLimit_of_memory hs, called_world_of_memory hs]
    rfl
  refine ⟨m.called around (.describe name), m.world.size + 1,
    (Clears.refl ht).called hs (.refl ht), Nat.lt_succ_of_le (MemoryStore.length_le_size ht), ?_⟩
  rw [emptyTable, apply_bind_of_ok hcall, apply_bind_of_ok hlimit]

/-- `TRUNCATE TABLE` empties a table whose items have keys, and if no two of them share a key it
shows the totals after each page and the number of the items. If an item has no key, it fails when
the items before the first such item have been deleted, or those of them on whole pages. Nothing
else is changed but the history, by a command that succeeds. -/
theorem truncate_table {command : String} (hs : around.service = MemoryStore.service)
    (hkind : CommandKind.ofCommand command = .truncateTable)
    (hread : Command.readTruncateTable (m.expansion around command) = .ok name)
    (ht : m.world.tables.get? name = some t) :
    ((∀ item ∈ t.items, Keyed t.description.keySchema item) →
      ∃ more m', (execute around command).apply m = (.ok (), m') ∧
        m'.session = { m.session with history := m.session.history.push command } ∧
        m.world.Leaves name { t with items := [] } m'.world ∧ m'.reports = m.reports ++ more ∧
        (Distinct t.description.keySchema t.items →
          more = (totals t.items.length).map (progress name) ++
            [.message ("deleted " ++ toString t.items.length ++ " items")])) ∧
    ((∃ item ∈ t.items, ¬ Keyed t.description.keySchema item) →
      Distinct t.description.keySchema t.items →
      ∃ front lacking back k missing m', t.items = front ++ lacking :: back ∧
        (∀ item ∈ front, Keyed t.description.keySchema item) ∧
        ¬ Keyed t.description.keySchema lacking ∧
        (k = front.length ∨ k = 25 * (front.length / 25)) ∧
        (execute around command).apply m = (.error (.failed (missingKey name missing)), m') ∧
        m'.session = m.session ∧
        m.world.Leaves name { t with items := front.drop k ++ lacking :: back } m'.world) := by
  obtain ⟨m₁, pages, hstart, hpages, hrun⟩ :=
    exists_emptyTable hs (m := m.expanded around command) ht
  rw [execute_of_truncateTable hkind, apply_carryOut, hread]
  dsimp only
  rw [hrun]
  refine ⟨fun hk => ?_, fun hlacking hd => ?_⟩
  · obtain ⟨total, more, m', hdeleted, hclears, hdistinct⟩ :=
      exists_deletePages hs hk hstart hpages 0
    have hreported := hclears.report (.message ("deleted " ++ toString total ++ " items"))
    rw [apply_bind_of_ok hdeleted, apply_report]
    refine ⟨_, _, rfl, ?_, hreported.world, hreported.reports, fun hd => ?_⟩
    · rw [recorded_session, hreported.session]
      rfl
    · obtain ⟨rfl, rfl⟩ := hdistinct hd
      simp only [List.nil_append, Nat.zero_add]
  · obtain ⟨front, lacking, back, hitems, hfront, hnot⟩ := exists_first_lacking hlacking
    rw [show t = { t with items := front ++ lacking :: back } by rw [← hitems]] at hstart
    rw [hitems, List.length_append] at hpages
    obtain ⟨k, missing, _, m', hcount, hfailed, hleft⟩ :=
      exists_deletePages_of_not_keyed hs hfront hnot (hitems ▸ hd) hstart
        (Nat.lt_of_le_of_lt (Nat.le_add_right _ _) hpages) 0
    rw [apply_bind_of_error hfailed]
    exact ⟨front, lacking, back, k, missing, m', hitems, hfront, hnot, hcount, rfl, hleft.session,
      hleft.world⟩

/-- In memory, a table of two pages is emptied, and an item without a key is not passed. -/
theorem truncate_table_missing_key :
    let description := MemoryStore.newDescription ⟨"t", [⟨"id", .number, some .hash⟩], []⟩
    let numbered := fun i : Nat => Dictionary.insert .empty "id" (.number (toString i))
    let full : MemoryTable := ⟨description, (List.range 26).map numbered⟩
    let gap : MemoryTable := ⟨description, [.empty, numbered 0]⟩
    let store : MemoryStore := { tables := (Dictionary.insert .empty "full" full).insert "gap" gap }
    (∃ m', (execute inMemory "TRUNCATE TABLE full;").apply (.over store) = (.ok (), m') ∧
      m'.world.items "full" = [] ∧
      m'.reports = [progress "full" 25, progress "full" 26, .message "deleted 26 items"]) ∧
    ∃ missing m', (execute inMemory "TRUNCATE TABLE gap;").apply (.over store) =
        (.error (.failed (missingKey "gap" missing)), m') ∧
      m'.world.items "gap" = [.empty, numbered 0] := by
  intro description numbered full gap store
  refine ⟨?_, ?_⟩
  · have hread : Command.readTruncateTable ((Machine.over store).expansion inMemory
        "TRUNCATE TABLE full;") = .ok "full" := eq_ok_of_toOption (by decide +kernel)
    have hfull : store.tables.get? "full" = some full := rfl
    obtain ⟨hempties, -⟩ := truncate_table rfl (by decide) hread hfull
    obtain ⟨more, m', hrun, -, hleft, hreports, hmore⟩ := hempties (by decide +kernel)
    refine ⟨m', hrun, ?_, ?_⟩
    · rw [MemoryStore.items, hleft.table]
      rfl
    · have hshown : more = (totals 26).map (progress "full") ++
          [.message ("deleted " ++ toString 26 ++ " items")] := hmore (by decide +kernel)
      have htotals : totals 26 = [25, 26] := by decide
      have hlast : "deleted " ++ toString 26 ++ " items" = "deleted 26 items" := by decide +kernel
      rw [hreports, hshown, htotals, hlast]
      rfl
  · have hread : Command.readTruncateTable ((Machine.over store).expansion inMemory
        "TRUNCATE TABLE gap;") = .ok "gap" := eq_ok_of_toOption (by decide +kernel)
    have hgap : store.tables.get? "gap" = some gap := rfl
    obtain ⟨-, hstops⟩ := truncate_table rfl (by decide) hread hgap
    obtain ⟨front, lacking, back, k, missing, m', hitems, hfront, -, -, hrun, -, hleft⟩ :=
      hstops (by decide +kernel) (by decide +kernel)
    -- the first item has no key, so none is in front of the first such item
    have hnil : front = [] := by
      cases front with
      | nil => rfl
      | cons item front =>
        obtain ⟨rfl, -⟩ := List.cons.inj hitems
        exact absurd (hfront _ List.mem_cons_self) (by decide +kernel)
    subst hnil
    refine ⟨missing, m', hrun, ?_⟩
    rw [MemoryStore.items, hleft.table, List.drop_nil]
    exact hitems.symm

end Session

end TableShell
