import TableShell.Proofs.Session.Run
import TableShell.Proofs.Template
import TableShell.Proofs.Text

/-!
# Page after page

A query and then `run;` again and again fetch the pages of a result one after the other, each from
the token of the page before it, whatever idle lines stand in between (`Session.feedAll_pages`).
Idle lines are those that show something at most. What carries the induction over the pages is that
the latest command of the history stays the query.
-/

namespace TableShell

/-! ## Many pushes -/

/-- What a history holds after several commands. -/
theorem History.entries_foldl_push (commands : List String) (h : History) :
    (commands.foldl push h).entries =
      (h.entries ++ commands).drop (h.entries.length + commands.length - h.capacity) := by
  induction commands generalizing h with
  | nil => simp [Nat.sub_eq_zero_of_le h.length_le]
  | cons command commands ih =>
    have hle := h.length_le
    rw [List.foldl_cons, ih, entries_push, capacity_push, List.length_drop,
      ← List.drop_append_of_le_length (by rw [List.length_append]; simp), List.drop_drop,
      List.append_assoc, List.singleton_append, List.length_append, List.length_cons]
    congr 1
    simp only [List.length_cons, List.length_nil]
    omega

/-- The service answers the statement with these pages, one after the other: the first one from the
token, and each of the others from the token of the page before it. -/
def Service.Serves {W : Type} (service : Service W) (client : Connection) (q : Query) :
    Option String → List ResultPage → W → Prop
  | _, [], _ => True
  | token, page :: pages, w =>
    ∃ w', service.answer client (.execute q.statement q.effectiveLimit token) w = (.ok page, w') ∧
      service.Serves client q page.nextToken pages w'

/-- A store in memory serves the pages that are queued, whatever the statement and the tokens. -/
theorem MemoryStore.serves (client : Connection) (q : Query) (token : Option String)
    {pages : List ResultPage} {store : MemoryStore} (h : store.results = pages.map .ok) :
    MemoryStore.service.Serves client q token pages store := by
  induction pages generalizing token store with
  | nil => exact trivial
  | cons page pages ih =>
    refine ⟨{ store with results := pages.map .ok }, ?_, ih page.nextToken rfl⟩
    simp only [service, answer, execute, h, List.map_cons]

/-! ## Lines that select -/

namespace Session

variable {c : String}

/-- A line that starts with SELECT and ends with a semicolon has no blanks at its ends. -/
theorem tight_select (hs : Text.opens "SELECT" c = true) (he : Text.endsWith c ';' = true) :
    Text.Tight c.toList := by
  obtain ⟨d, ds, hc, hd⟩ := Text.isBlank_head_of_opens (k := 'S') hs (by decide) (by decide)
  exact Text.tight_of_closed (by simpa [hc] using hd) he

/-- No other kind of command starts with the letters of SELECT. -/
theorem ofCommand_select (hs : Text.opens "SELECT" c = true) :
    CommandKind.ofCommand c = .query := by
  have h := Text.startsWith_eq_false_of_opens hs
  have hwords : ∀ word ∈ ["desc", "create", "drop", "show", "truncate", "run"],
      ∀ w ∈ [word, String.ofList (word.toList.map Char.toUpper)],
        ¬ (w.toList.take 6).map Char.toUpper <+: "SELECT".toList.map Char.toUpper := by decide
  have hlike (word : String) (hw : word ∈ ["desc", "create", "drop", "show", "truncate", "run"]) :
      CommandKind.startsLike c word = false := by
    rw [CommandKind.startsLike, h _ (hwords word hw _ (.head _)),
      h _ (hwords word hw _ (.tail _ (.head _)))]
    rfl
  simp only [CommandKind.ofCommand, h "@" (by decide), hlike "desc" (by decide),
    hlike "create" (by decide), hlike "drop" (by decide), hlike "show" (by decide),
    hlike "truncate" (by decide), hlike "run" (by decide), Bool.false_eq_true, if_false]

/-- Nor does any verb. -/
theorem ofLine?_select (hs : Text.opens "SELECT" c = true) : Verb.ofLine? c = none := by
  have hverbs : ∀ entry ∈ Verb.table,
      ¬ (entry.1.toList.take 6).map Char.toUpper <+: "SELECT".toList.map Char.toUpper := by decide
  rw [Verb.ofLine?, Option.map_eq_none_iff, List.find?_eq_none]
  intro entry he
  simp [Text.startsWith_eq_false_of_opens hs entry.1 (hverbs entry he)]

/-- A line that opens with SELECT is no comment. -/
theorem isComment_select (hs : Text.opens "SELECT" c = true) : isComment c = false := by
  have h := Text.startsWith_eq_false_of_opens hs
  obtain ⟨d, ds, hc, -⟩ := Text.isBlank_head_of_opens (k := 'S') hs (by decide) (by decide)
  have hne : c ≠ "" := by rintro rfl; cases hc
  simp [isComment, h "#" (by decide), h "-" (by decide), hne]

/-! ## Idle lines -/

/-- A line that shows something at most: a comment, a line with one of three verbs, or a connect
command without settings. -/
def isIdle (line : String) : Bool :=
  let line := Text.trim line
  isComment line || match Verb.ofLine? line with
    | some .echo | some .clear | some .inspect => true
    | some .connect => (Connection.ofCommand line).toOption.any (!·.isGiven)
    | _ => false

open Act Machine

variable {W : Type} {around : Surroundings W} {m m' : Machine W} {line : String}

/-- With nothing begun, clearing the screen only shows that. -/
theorem apply_clear (hb : m.session.buffer = "") :
    ∃ m', (perform around .clear line).apply m = (.ok .next, m') ∧ m.Idles m' := by
  have hm : (m.emit (.report .clear)).withBuffer "" = m.emit (.report .clear) :=
    withBuffer_eq_self hb
  have hi : m.Idles (m.emit (.report .clear)) :=
    ⟨rfl, rfl, [.report .clear], rfl, List.forall_mem_singleton.2 rfl⟩
  refine ⟨m.emit (.report .clear), ?_, hi⟩
  rw [perform, apply_bind_of_ok (apply_report .clear m), apply_bind_of_ok (apply_dropBuffer _), hm]
  rfl

/-- An idle line is quiet, or it clears the screen. -/
theorem isQuiet_or_clear (h : isIdle line = true) :
    isQuiet line = true ∨ Verb.ofLine? (Text.trim line) = some .clear := by
  rw [isIdle, Bool.or_eq_true] at h
  rw [isQuiet, Bool.or_eq_true]
  rcases h with hc | h
  · exact .inl (.inl hc)
  · cases hv : Verb.ofLine? (Text.trim line) with
    | none => simp [hv] at h
    | some verb =>
      rw [hv] at h
      cases verb with
      | clear => exact .inr rfl
      | echo | inspect => exact .inl (.inr rfl)
      | connect => exact .inl (.inr h)
      | sleep | exit | load => cases h

/-- An idle line changes nothing, if no command has been begun. -/
theorem apply_feed_of_isIdle (h : isIdle line = true) (hb : m.session.buffer = "") :
    ∃ m', (feed around line).apply m = (.ok .next, m') ∧ m.Idles m' := by
  rcases isQuiet_or_clear h with hq | hv
  · exact apply_feed_of_isQuiet hq m
  · obtain ⟨m', hp, hi⟩ : ∃ m', (perform around .clear (Text.trim line)).apply m =
        (.ok .next, m') ∧ m.Idles m' := apply_clear hb
    exact ⟨m', by rw [apply_feed_verb hv, hp], hi⟩

/-! ## Lines that ask for a page -/

/-- In this session, the line carries out the command as a query from the token. -/
def Asks (around : Surroundings W) (s : Session) (line c : String) (token : Option String) : Prop :=
  ∀ m : Machine W, m.session = s → (feed around line).apply m =
    (((query around c token).apply m).1.map fun _ => .next, ((query around c token).apply m).2)

/-- A line that completes a command asks for what the command is carried out as. -/
theorem asks_of_completes {s : Session} {command : String} {token : Option String}
    (hb : s.buffer = "") (hc : s.completes? line = some command)
    (he : ∀ m : Machine W, m.session = s →
      (execute around command).apply m = (query around c token).apply m) :
    Asks around s line c token := by
  rintro m rfl
  rw [apply_feed_of_completes hc, withBuffer_eq_self hb, he m rfl]

/-- A line that selects is a query of its own. -/
theorem asks_select {s : Session} (hb : s.buffer = "") (hs : Text.opens "SELECT" c = true)
    (he : Text.endsWith c ';' = true) : Asks around s c c none := by
  have hc : s.completes? c = some c :=
    completes?_of_tight hb (tight_select hs he) (isComment_select hs) (ofLine?_select hs) he
  refine asks_of_completes hb hc fun m _ => ?_
  rw [execute, ofCommand_select hs]

/-- The line `run;` carries out the latest command from the token of the last query. -/
theorem asks_run {s : Session} (hb : s.buffer = "") (hl : s.history.latest? = some c) :
    Asks around s "run;" c s.nextToken := by
  have hc : s.completes? "run;" = some "run;" := by
    rw [completes?_eq_some_iff, begun, hb]
    decide
  refine asks_of_completes hb hc fun m hm => ?_
  rw [apply_execute_run (hm ▸ hl), hm]

/-! ## Pages -/

/-- The machine has fetched a page. -/
structure Fetched (c : String) (q : Query) (token : Option String) (page : ResultPage)
    (m m' : Machine W) : Prop where
  session : m'.session =
    { m.session with nextToken := page.nextToken, history := m.session.history.push c }
  trace : m'.trace = m.trace ++
    .call m.session.client (.execute q.statement q.effectiveLimit token) (.ok page) :: page.events

/-- A query for which the service has a page fetches it. -/
theorem apply_query_of_answer {c : String} {q : Query} {token : Option String} {page : ResultPage}
    {w : W} (hne : Text.trim c ≠ "") (hq : Query.ofSource (m.expansion around c) = .ok q)
    (ha : around.service.answer m.session.client (.execute q.statement q.effectiveLimit token)
      m.world = (.ok page, w)) :
    ∃ m', (query around c token).apply m = (.ok (), m') ∧ Fetched c q token page m m' ∧
      m'.world = w := by
  have ha₁ : (m.forgetful.expanded around c).answer around
      (.execute q.statement q.effectiveLimit token) = .ok page := congrArg Prod.fst ha
  have hw : ((m.forgetful.expanded around c).called around
      (.execute q.statement q.effectiveLimit token)).world = w := congrArg Prod.snd ha
  have h := queried around c token m
  generalize (query around c token).apply m = p at h ⊢
  obtain ⟨r, m'⟩ := p
  dsimp only at h ⊢
  cases h with
  | blank hb => exact absurd hb hne
  | unread _ hr => cases hq.symm.trans hr
  | failed _ hr hf =>
    cases hq.symm.trans hr
    cases ha₁.symm.trans hf
  | paged _ hr hp =>
    cases hq.symm.trans hr
    cases ha₁.symm.trans hp
    refine ⟨_, rfl, ⟨by simp, by simp [ha₁]⟩, hw⟩

/-- The pages were fetched, the first one from the token and each of the others from the token of
the page before it, and the command was remembered with each of them. -/
structure Follows (c : String) (q : Query) (token : Option String) (pages : List ResultPage)
    (m m' : Machine W) : Prop where
  history : m'.session.history =
    (List.replicate pages.length c).foldl History.push m.session.history
  nextToken : (token :: pages.map (·.nextToken)).getLast? = some m'.session.nextToken
  queries : m'.trace.filterMap Event.query? = m.trace.filterMap Event.query? ++
    (token :: pages.map (·.nextToken)).dropLast.map fun t => (q.statement, q.effectiveLimit, t)
  items : m'.trace.filterMap Event.items? =
    m.trace.filterMap Event.items? ++ pages.map (·.items)

/-- Plain events add nothing to a part of the trace that has none of them. -/
theorem filterMap_of_adds {α : Type} {f : Event → Option α}
    (hf : ∀ e : Event, e.isPlain = true → f e = none) (h : m.Adds m') :
    m'.trace.filterMap f = m.trace.filterMap f := by
  obtain ⟨events, ht, he⟩ := h.trace
  rw [ht, List.filterMap_append, List.filterMap_eq_nil_iff.2 fun e hmem => hf e (he e hmem),
    List.append_nil]

/-- A plain event is no query. -/
theorem query?_of_isPlain (e : Event) (h : e.isPlain = true) : e.query? = none :=
  Event.query?_eq_none (Event.isPlain_iff.1 h).1

/-- A plain event prints no items. -/
theorem items?_of_isPlain (e : Event) (h : e.isPlain = true) : e.items? = none :=
  (Event.isPlain_iff.1 h).2.2

/-- Showing a page sends no query. -/
theorem filterMap_query?_events (page : ResultPage) : page.events.filterMap Event.query? = [] :=
  List.filterMap_eq_nil_iff.2 fun _ he =>
    Event.query?_eq_none (ResultPage.isQuery_of_mem_events he).1

/-- Showing a page prints its items once. -/
theorem filterMap_items?_events (page : ResultPage) :
    page.events.filterMap Event.items? = [page.items] := by
  rcases page with ⟨items, _ | _, _ | _⟩ <;> rfl

/-- No pages were fetched where only plain events were added. -/
theorem follows_nil {c : String} {q : Query} (h : m.Adds m') :
    Follows c q m.session.nextToken [] m m' where
  history := by simp [h.session]
  nextToken := by simp [h.session]
  queries := by simp [filterMap_of_adds query?_of_isPlain h]
  items := by simp [filterMap_of_adds items?_of_isPlain h]

/-- One page more in front of the others. -/
theorem Follows.cons {c : String} {q : Query} {token : Option String} {page : ResultPage}
    {pages : List ResultPage} {m₁ m₂ : Machine W}
    (h : Follows c q page.nextToken pages m₂ m') (hf : Fetched c q token page m₁ m₂)
    (ha : m.Adds m₁) : Follows c q token (page :: pages) m m' where
  history := by rw [h.history, hf.session, ha.session]; rfl
  nextToken := by simpa using h.nextToken
  queries := by
    rw [h.queries, hf.trace, List.filterMap_append, List.filterMap_cons,
      filterMap_query?_events, filterMap_of_adds query?_of_isPlain ha]
    simp [Event.query?]
  items := by
    rw [h.items, hf.trace, List.filterMap_append, List.filterMap_cons,
      filterMap_items?_events, filterMap_of_adds items?_of_isPlain ha]
    simp [Event.items?]

/-! ## Runs -/

/-- Feeds lines one after the other, up to the first one that fails. -/
def feedAll (around : Surroundings W) (lines : List String) : Act W Unit :=
  lines.forM fun line => do let _ ← feed around line

/-- Lines are fed one after the other. -/
theorem apply_feedAll_cons {flow : Flow} {m₁ : Machine W}
    (h : (feed around line).apply m = (.ok flow, m₁)) (lines : List String) :
    (feedAll around (line :: lines)).apply m = (feedAll around lines).apply m₁ :=
  apply_bind_of_ok ((apply_bind_of_ok h).trans rfl)

/-- Idle lines in front of others only idle. -/
theorem apply_feedAll_idle {idles : List String} (h : ∀ line ∈ idles, isIdle line = true)
    (hb : m.session.buffer = "") (lines : List String) :
    ∃ m', (feedAll around (idles ++ lines)).apply m = (feedAll around lines).apply m' ∧
      m.Idles m' := by
  induction idles generalizing m with
  | nil => exact ⟨m, rfl, isStepOrder_idles.refl m⟩
  | cons line idles ih =>
    obtain ⟨hline, hidles⟩ := List.forall_mem_cons.1 h
    obtain ⟨m₁, h₁, hi₁⟩ := apply_feed_of_isIdle hline hb
    obtain ⟨m₂, h₂, hi₂⟩ := ih hidles (by rw [hi₁.session, hb])
    refine ⟨m₂, ?_, isStepOrder_idles.trans hi₁ hi₂⟩
    rw [List.cons_append, apply_feedAll_cons h₁, h₂]

/-- The first line that is not idle fetches a page, if it asks for one. -/
theorem feedAll_page {c : String} {q : Query} {page : ResultPage} {token : Option String} {w : W}
    {lines more : List String} (hne : Text.trim c ≠ "") (hb : m.session.buffer = "")
    (hq : ∀ drawn,
      Query.ofSource (m.session.bindings.substitute around.supply drawn c).1 = .ok q)
    (hasks : Asks around m.session line c token)
    (ha : around.service.answer m.session.client (.execute q.statement q.effectiveLimit token)
      m.world = (.ok page, w))
    (hlines : lines.filter (!isIdle ·) = line :: more) :
    ∃ rest m₁ m₂, (feedAll around lines).apply m = (feedAll around rest).apply m₂ ∧
      rest.filter (!isIdle ·) = more ∧ m.Adds m₁ ∧ Fetched c q token page m₁ m₂ ∧
      m₂.world = w := by
  obtain ⟨idles, rest, rfl, hidle, -, hrest⟩ := List.filter_eq_cons_iff.1 hlines
  have hidle : ∀ line ∈ idles, isIdle line = true := by simpa using hidle
  obtain ⟨m₁, h₁, hi₁⟩ := apply_feedAll_idle hidle hb (line :: rest)
  rw [← hi₁.session, ← hi₁.world] at ha
  have hq₁ : Query.ofSource (m₁.expansion around c) = .ok q := by
    rw [Machine.expansion, hi₁.session]
    exact hq m₁.drawn
  obtain ⟨m₂, h₂, hf, hw₂⟩ := apply_query_of_answer hne hq₁ ha
  have hfeed : (feed around line).apply m₁ = (.ok .next, m₂) := by
    rw [hasks m₁ hi₁.session, h₂]
    rfl
  exact ⟨rest, m₁, m₂, by rw [h₁, apply_feedAll_cons hfeed], hrest, hi₁.adds, hf, hw₂⟩

/-- A line that asks for a page and then `run;` again and again fetch all pages, whatever idle lines
there are. -/
theorem feedAll_pages {c : String} {q : Query} (hne : Text.trim c ≠ "")
    {pages : List ResultPage} {page : ResultPage} {token : Option String} {lines : List String}
    (hb : m.session.buffer = "")
    (hq : ∀ drawn,
      Query.ofSource (m.session.bindings.substitute around.supply drawn c).1 = .ok q)
    (hasks : Asks around m.session line c token)
    (hserves : around.service.Serves m.session.client q token (page :: pages) m.world)
    (hlines : lines.filter (!isIdle ·) = line :: List.replicate pages.length "run;") :
    ∃ m', (feedAll around lines).apply m = (.ok (), m') ∧
      Follows c q token (page :: pages) m m' := by
  induction pages generalizing m page token line lines with
  | nil =>
    obtain ⟨w, ha, -⟩ := hserves
    obtain ⟨rest, m₁, m₂, happly, hrest, ha₁, hf, -⟩ := feedAll_page hne hb hq hasks ha hlines
    have hidle : ∀ line ∈ rest, isIdle line = true := by simpa using hrest
    have hb₂ : m₂.session.buffer = "" := by rw [hf.session, ← hb, ← ha₁.session]
    obtain ⟨m₃, h₃, hi₃⟩ := apply_feedAll_idle hidle hb₂ []
    rw [List.append_nil] at h₃
    refine ⟨m₃, happly.trans h₃, Follows.cons ?_ hf ha₁⟩
    have htoken : m₂.session.nextToken = page.nextToken := by rw [hf.session]
    exact htoken ▸ follows_nil hi₃.adds
  | cons next pages ih =>
    obtain ⟨w, ha, hserves⟩ := hserves
    obtain ⟨rest, m₁, m₂, happly, hrest, ha₁, hf, rfl⟩ := feedAll_page hne hb hq hasks ha hlines
    have hb₂ : m₂.session.buffer = "" := by rw [hf.session, ← hb, ← ha₁.session]
    have htoken : m₂.session.nextToken = page.nextToken := by rw [hf.session]
    have hlatest : m₂.session.history.latest? = some c := by simp [hf.session]
    have hvars : m₂.session.bindings = m.session.bindings := by rw [hf.session, ← ha₁.session]
    have hclient : m₂.session.client = m.session.client := by rw [hf.session, ← ha₁.session]
    obtain ⟨m', hm', hfollow⟩ := ih hb₂ (by rw [hvars]; exact hq) (asks_run hb₂ hlatest)
      (by rw [hclient, htoken]; exact hserves) hrest
    exact ⟨m', happly.trans hm', (htoken ▸ hfollow).cons hf ha₁⟩

/-- A query of which the result has several pages and `run;` for each page after the first fetch all
of them, with any idle lines in between: the statement is carried out once for each page, from the
token of the page before, the items of the pages are shown in order, the query is remembered as
often, and no token is left. -/
theorem fetches_every_page {c : String} {q : Query} {lines tokens : List String}
    {pages : List ResultPage} (hs : Text.opens "SELECT" c = true)
    (he : Text.endsWith c ';' = true) (hf : Template.IsFixed c)
    (hq : Query.ofSource (m.expansion around c) = .ok q) (hb : m.session.buffer = "")
    (hpages : pages.map (·.nextToken) = tokens.map some ++ [none])
    (hserves : around.service.Serves m.session.client q none pages m.world)
    (hlines : lines.filter (!isIdle ·) = c :: List.replicate tokens.length "run;") :
    ∃ m', (feedAll around lines).apply m = (.ok (), m') ∧
      m'.trace.filterMap Event.query? = m.trace.filterMap Event.query? ++
        (none :: tokens.map some).map (fun t => (q.statement, q.effectiveLimit, t)) ∧
      m'.trace.filterMap Event.items? =
        m.trace.filterMap Event.items? ++ pages.map (·.items) ∧
      m'.session.history.entries =
        (m.session.history.entries ++ List.replicate pages.length c).drop
          (m.session.history.entries.length + pages.length - m.session.history.capacity) ∧
      m'.session.nextToken = none := by
  have hlength : pages.length = tokens.length + 1 := by
    simpa using congrArg List.length hpages
  obtain ⟨page, pages, rfl⟩ := List.exists_cons_of_length_eq_add_one hlength
  have hne : Text.trim c ≠ "" := by
    rw [(tight_select hs he).trim_eq]
    rintro rfl
    cases he
  have hread (drawn : Nat) :
      Query.ofSource (m.session.bindings.substitute around.supply drawn c).1 = .ok q := by
    rw [Variables.substitute_of_isFixed hf _ _ drawn m.drawn]
    exact hq
  have hcount : pages.length = tokens.length := by simpa using hlength
  obtain ⟨m', hm', h⟩ := feedAll_pages hne hb hread (asks_select hb hs he) hserves
    (hcount ▸ hlines)
  have hqueries := h.queries
  have htoken := h.nextToken
  rw [hpages, ← List.cons_append, List.dropLast_concat] at hqueries
  rw [hpages, ← List.cons_append, List.getLast?_concat] at htoken
  refine ⟨m', hm', hqueries, h.items, ?_, (Option.some.inj htoken).symm⟩
  rw [h.history, History.entries_foldl_push, List.length_replicate]

/-- In memory, three queued pages are fetched between idle lines of every kind. -/
theorem fetches_every_page_between_idle_lines :
    let pages : List ResultPage :=
      [{ items := [.empty], nextToken := some "t" }, { nextToken := some "u" },
        { items := [.empty] }]
    ∃ m', (feedAll inMemory ["# pages", "sElect * from a.b limit 5;", "!h", "run;", "", "clear",
          " connect", "run;", "echo done"]).apply (.over { results := pages.map .ok }) =
        (.ok (), m') ∧
      m'.trace.filterMap Event.query? = [none, some "t", some "u"].map (fun t =>
        ("sElect * from \"a.b\" ;", some 5, t)) ∧
      m'.trace.filterMap Event.items? = [[.empty], [], [.empty]] ∧
      m'.session.history.entries = List.replicate 3 "sElect * from a.b limit 5;" ∧
      m'.session.nextToken = none := by
  intro pages
  have hq : Query.ofSource ((Machine.over { results := pages.map .ok }).expansion inMemory
      "sElect * from a.b limit 5;") = .ok ⟨"sElect * from \"a.b\" ;", some 5⟩ :=
    eq_ok_of_toOption (by decide +kernel)
  have hpages : pages.map (·.nextToken) = ["t", "u"].map some ++ [none] := rfl
  exact fetches_every_page (by decide) (by decide) (by decide) hq rfl hpages
    (MemoryStore.serves _ _ _ rfl) (by decide +kernel)

end Session

end TableShell
