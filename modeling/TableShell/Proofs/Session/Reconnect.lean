import TableShell.Proofs.Session.Run

/-!
# Which client a session uses

A connect command with a setting puts its settings over those asked for before and asks for a client
for them; nothing else that happens to a session does either (`Machine.reconnects`). So the settings
accumulate: each client is asked for with the latest value of every setting
(`Session.connections_accumulate`).

A service may refuse the client. The session then goes on with the client that it has, but keeps the
settings that were refused, and so the two match exactly if the client asked for last was also built
(`Reachable.client_eq_connection_iff`).
-/

namespace TableShell

/-! ## Settings put over others -/

namespace Connection

/-- The five settings of a connection. -/
def settings : List (Connection → Option String) :=
  [profile, region, endpoint, accessKey, secretKey]

/-- What holds of five settings holds of each of them. -/
theorem forall_settings {p : (Connection → Option String) → Prop} :
    (∀ setting ∈ settings, p setting) ↔
      p profile ∧ p region ∧ p endpoint ∧ p accessKey ∧ p secretKey := by
  simp [settings]

/-- Connections with the same settings are the same. -/
theorem ext_settings {c d : Connection} (h : ∀ setting ∈ settings, setting c = setting d) :
    c = d := by
  obtain ⟨hp, hr, he, ha, hs⟩ := forall_settings.1 h
  cases c
  cases d
  simp_all

/-- A setting of an overlaid connection is the changed one, or the old one if it was not changed. -/
theorem setting_overlay {setting : Connection → Option String} (h : setting ∈ settings)
    (base changes : Connection) :
    setting (base.overlay changes) = (setting changes).or (setting base) := by
  have hall : ∀ setting ∈ settings,
      setting (base.overlay changes) = (setting changes).or (setting base) :=
    forall_settings.2 ⟨rfl, rfl, rfl, rfl, rfl⟩
  exact hall setting h

/-- Settings put over others one after the other: the latest value of each setting counts. -/
theorem setting_foldl_overlay {setting : Connection → Option String} (h : setting ∈ settings)
    (given : List Connection) (base : Connection) :
    setting (given.foldl overlay base) =
      (given.filterMap setting).getLast?.or (setting base) := by
  induction given generalizing base with
  | nil => rfl
  | cons changes given ih =>
    rw [List.foldl_cons, ih, setting_overlay h]
    cases hc : setting changes with
    | none => rw [List.filterMap_cons_none hc, Option.none_or]
    | some value =>
      rw [List.filterMap_cons_some hc, List.getLast?_cons]
      cases (given.filterMap setting).getLast? <;> rfl

/-- Settings put over others change nothing exactly if they repeat them. -/
theorem overlay_eq_self_iff {base changes : Connection} :
    base.overlay changes = base ↔
      ∀ setting ∈ settings, ∀ value ∈ setting changes, setting base = some value := by
  constructor
  · intro h setting hs value hv
    have hover := setting_overlay hs base changes
    rw [h, Option.mem_def.1 hv] at hover
    exact hover
  · refine fun h => ext_settings fun setting hs => ?_
    rw [setting_overlay hs]
    cases hv : setting changes with
    | none => rfl
    | some value => exact (h setting hs value hv).symm

/-- A setting has been given by then: at the start or in one of the changes. -/
theorem isSome_foldl_overlay {setting : Connection → Option String} (h : setting ∈ settings)
    (given : List Connection) (base : Connection) :
    (setting (given.foldl overlay base)).isSome = true ↔
      ∃ c ∈ base :: given, (setting c).isSome = true := by
  induction given generalizing base with
  | nil => simp
  | cons changes given ih =>
    rw [List.foldl_cons, ih]
    simp only [setting_overlay h, Option.isSome_or, Bool.or_eq_true, List.mem_cons,
      exists_eq_or_imp]
    rw [or_assoc, or_left_comm]

/-- Credentials are complete exactly when both keys are given. -/
theorem isSome_credentials? (c : Connection) :
    c.credentials?.isSome = true ↔ c.accessKey.isSome = true ∧ c.secretKey.isSome = true := by
  rw [credentials?]
  cases c.accessKey <;> cases c.secretKey <;> simp

end Connection

/-! ## Clients that were asked for -/

/-- The connection that a client was asked for. -/
def Event.asked? : Event → Option Connection
  | .connect connection _ => some connection
  | _ => none

/-- The connection that a client was built for. -/
def Event.built? : Event → Option Connection
  | .connect connection (.ok ()) => some connection
  | _ => none

/-- The settings of a line that is a connect command and gives any. -/
def Session.settings? (line : String) : Option Connection :=
  if Verb.ofLine? (Text.trim line) = some .connect then
    (Connection.ofCommand (Text.trim line)).toOption.filter Connection.isGiven
  else none

/-- The settings that a stimulus asks to connect with. -/
def Stimulus.settings? {W : Type} : Stimulus W → Option Connection
  | feed line => Session.settings? line
  | _ => none

namespace Session

/-- A line gives settings when it is the verb, its flags can be read and at least one of them is
given. -/
theorem settings?_eq_some_iff {line : String} {changes : Connection} :
    settings? line = some changes ↔
      Verb.ofLine? (Text.trim line) = some .connect ∧
        Connection.ofCommand (Text.trim line) = .ok changes ∧ changes.isGiven = true := by
  rw [settings?]
  split
  · next hv =>
    cases hc : Connection.ofCommand (Text.trim line) with
    | error e => simp [Except.toOption]
    | ok c =>
      simp only [Except.toOption, Option.filter_eq_some_iff, Option.some.injEq, hv, true_and,
        Except.ok.injEq]
  · next hv => simp [hv]

end Session

namespace Machine

open Session Act

variable {W : Type} {around : Surroundings W} {m m' : Machine W}

/-- The settings and the client of a session stay the same, and no client is asked for. -/
structure SameClient (m m' : Machine W) : Prop where
  connection : m'.session.connection = m.session.connection
  client : m'.session.client = m.session.client
  asked : m'.trace.filterMap Event.asked? = m.trace.filterMap Event.asked?
  built : m'.trace.filterMap Event.built? = m.trace.filterMap Event.built?

/-- What is no connection asks for no client and builds none. -/
theorem asked?_of_not_connect {e : Event} (h : e.isConnect = false) :
    e.asked? = none ∧ e.built? = none := by
  cases e with
  | connect => cases h
  | report | call | sleep | prompt => exact ⟨rfl, rfl⟩

/-- Events that ask for no client do not matter. -/
theorem SameClient.of_trace {events : List Event}
    (hconnection : m'.session.connection = m.session.connection)
    (hclient : m'.session.client = m.session.client) (ht : m'.trace = m.trace ++ events)
    (he : ∀ e ∈ events, e.isConnect = false) : m.SameClient m' := by
  have hnone {f : Event → Option Connection} (hf : ∀ e ∈ events, f e = none) :
      m'.trace.filterMap f = m.trace.filterMap f := by
    rw [ht, List.filterMap_append, List.filterMap_eq_nil_iff.2 hf, List.append_nil]
  exact ⟨hconnection, hclient, hnone fun e hmem => (asked?_of_not_connect (he e hmem)).1,
    hnone fun e hmem => (asked?_of_not_connect (he e hmem)).2⟩

/-- Plain events keep the client. -/
theorem SameClient.of_adds (h : m.Adds m') : m.SameClient m' := by
  obtain ⟨events, ht, he⟩ := h.trace
  exact .of_trace (by rw [h.session]) (by rw [h.session]) ht fun e hmem =>
    (Event.isPlain_iff.1 (he e hmem)).2.1

/-- Of what the machine remembers, only the settings and the client matter. -/
theorem SameClient.of_eq (hconnection : m'.session.connection = m.session.connection)
    (hclient : m'.session.client = m.session.client) (ht : m'.trace = m.trace) :
    m.SameClient m' :=
  ⟨hconnection, hclient, by rw [ht], by rw [ht]⟩

/-- What a stimulus does to the settings and the client, by the settings that it gives. -/
inductive Reconnects (m : Machine W) : Option Connection → Machine W → Prop
  /-- It gives none. -/
  | kept {m' : Machine W} : m.SameClient m' → Reconnects m none m'
  /-- The service refuses the client that is asked for. -/
  | refused {changes e} {m' : Machine W} :
      m'.session.connection = m.session.connection.overlay changes →
      m'.session.client = m.session.client →
      m'.trace = m.trace ++ [.connect (m.session.connection.overlay changes) (.error e)] →
      Reconnects m (some changes) m'
  | built {changes} {m' : Machine W} :
      m'.session.connection = m.session.connection.overlay changes →
      m'.session.client = m.session.connection.overlay changes →
      m'.trace = m.trace ++ [.connect (m.session.connection.overlay changes) (.ok ())] →
      Reconnects m (some changes) m'

end Machine

namespace Session

open Machine

variable {W : Type} {around : Surroundings W} {m m' : Machine W} {line command : String}

/-- A query keeps the client. -/
theorem Queried.sameClient {token : Option String} {r : Except Halt Unit}
    (h : Queried around command token m r m') : m.SameClient m' := by
  cases h with
  | blank | unread => exact .of_eq rfl rfl rfl
  | failed =>
    exact .of_trace rfl rfl (sent_trace _ _ _ _ _) (List.forall_mem_singleton.2 rfl)
  | @paged q page =>
    refine .of_trace rfl rfl (List.append_assoc _ _ _) ?_
    refine List.forall_mem_cons.2 ⟨rfl, fun e he => ?_⟩
    exact (ResultPage.isQuery_of_mem_events he).2

/-- No command asks for a client. -/
theorem Executed.sameClient {r : Except Halt Unit} (h : Executed around command m r m') :
    m.SameClient m' := by
  cases h with
  | kept h => exact .of_adds h
  | recorded _ h =>
    obtain ⟨hconnection, hclient, hasked, hbuilt⟩ := SameClient.of_adds h
    exact ⟨hconnection, hclient, hasked, hbuilt⟩
  | assigned => exact .of_eq rfl rfl rfl
  | queried _ h | again _ _ h => exact h.sameClient

/-- A verb that is not given settings asks for none either. -/
theorem Performed.sameClient {verb : Verb} {r : Except Halt Flow}
    (h : Performed around verb line m r m')
    (hn : ∀ changes, verb = .connect → Connection.ofCommand line = .ok changes →
      changes.isGiven = false) : m.SameClient m' := by
  cases h with
  | kept h => exact .of_adds h
  | cleared => exact .of_trace rfl rfl rfl (List.forall_mem_singleton.2 rfl)
  | loaded => exact .of_eq rfl rfl rfl
  | refused hv hc hg _ | connected hv hc hg _ =>
    rw [hn _ hv hc] at hg
    cases hg

/-- A line that gives no settings keeps the client. -/
theorem Fed.sameClient {r : Except Halt Flow} (h : Fed around line m r m')
    (hn : settings? line = none) : m.SameClient m' := by
  have hverb {verb : Verb} (hv : Verb.ofLine? (Text.trim line) = some verb) (changes : Connection)
      (hconnect : verb = .connect) (hc : Connection.ofCommand (Text.trim line) = .ok changes) :
      changes.isGiven = false := by
    rw [Bool.eq_false_iff]
    intro hg
    cases hn.symm.trans (settings?_eq_some_iff.2 ⟨hconnect ▸ hv, hc, hg⟩)
  cases h with
  | comment | part => exact .of_eq rfl rfl rfl
  | verb hv hp => exact hp.sameClient (hverb hv)
  | failed hv hp =>
    obtain ⟨hconnection, hclient, hasked, hbuilt⟩ := hp.sameClient (hverb hv)
    exact ⟨hconnection, hclient, hasked, hbuilt⟩
  | completed _ he =>
    obtain ⟨hconnection, hclient, hasked, hbuilt⟩ := he.sameClient
    exact ⟨hconnection, hclient, hasked, hbuilt⟩

end Session

namespace Machine

open Session Act

variable {W : Type} {around : Surroundings W} {m m' : Machine W}

/-- A stimulus asks for a client exactly if it gives settings. -/
theorem reconnects (m : Machine W) (around : Surroundings W) (stimulus : Stimulus W) :
    Reconnects m stimulus.settings? (m.after around stimulus) := by
  cases stimulus with
  | feed line =>
    change Reconnects m (Session.settings? line) _
    cases hs : Session.settings? line with
    | none => exact .kept ((m.after_feed around line) ▸ (fed around line m).sameClient hs)
    | some changes =>
      obtain ⟨hv, hc, hg⟩ := settings?_eq_some_iff.1 hs
      rw [after_feed_connect hv hc hg]
      cases hl : (m.overlaid changes).link around with
      | error e => exact .refused (e := e) rfl rfl (by simp [hl])
      | ok _ => exact .built rfl rfl (by simp [hl])
  | execute command => exact .kept (executed around command m).sameClient
  | load path =>
    refine .kept ?_
    change m.SameClient ((loadScript around path).apply m).2
    rw [apply_loadScript]
    cases Script.load around.file? path <;> exact .of_eq rfl rfl rfl
  | world | scriptLine | interrupt => exact .kept (.of_eq rfl rfl rfl)
  | complain | prompt => exact .kept (.of_trace rfl rfl rfl (List.forall_mem_singleton.2 rfl))

/-- A stimulus adds the connection that it asks for, if it asks for one. -/
theorem Reconnects.asked {given : Option Connection} (h : Reconnects m given m') :
    m'.session.connection = given.elim m.session.connection m.session.connection.overlay ∧
      m'.trace.filterMap Event.asked? = m.trace.filterMap Event.asked? ++
        (given.map m.session.connection.overlay).toList := by
  cases h with
  | kept h => exact ⟨h.connection, h.asked.trans (List.append_nil _).symm⟩
  | refused hc _ ht | built hc _ ht =>
    refine ⟨hc, ?_⟩
    rw [ht, List.filterMap_append]
    rfl

/-! ## Over a run -/

/-- If the settings are those of the client asked for last, then over a run clients are asked for
with the settings given up to each point put over them. -/
theorem asked_afterAll {earlier : List Connection} (stimuli : List (Stimulus W))
    (h : m.trace.filterMap Event.asked? = earlier ++ [m.session.connection]) :
    (m.afterAll around stimuli).trace.filterMap Event.asked? =
      earlier ++
        (stimuli.filterMap Stimulus.settings?).scanl Connection.overlay m.session.connection := by
  -- what was asked for before the settings of `m` joins `earlier` when a stimulus gives others
  induction stimuli generalizing m earlier with
  | nil => exact h
  | cons stimulus stimuli ih =>
    obtain ⟨hconnection, hasked⟩ := (m.reconnects around stimulus).asked
    rw [h] at hasked
    change ((m.after around stimulus).afterAll around stimuli).trace.filterMap Event.asked? = _
    cases hs : stimulus.settings? with
    | none =>
      rw [hs] at hconnection hasked
      have hlast : (m.after around stimulus).trace.filterMap Event.asked? =
          earlier ++ [(m.after around stimulus).session.connection] := by
        rw [hasked, hconnection]
        exact List.append_nil _
      rw [ih hlast, hconnection, List.filterMap_cons_none hs]
      rfl
    | some changes =>
      rw [hs] at hconnection hasked
      have hlast : (m.after around stimulus).trace.filterMap Event.asked? =
          (earlier ++ [m.session.connection]) ++
            [(m.after around stimulus).session.connection] := by
        rw [hasked, hconnection]
        rfl
      rw [ih hlast, hconnection, List.filterMap_cons_some hs, List.scanl_cons, List.append_assoc]
      rfl

/-- The settings are those of the client that was asked for last, and the client is the one that was
built last. -/
structure Linked (m : Machine W) : Prop where
  asked : (m.trace.filterMap Event.asked?).getLast? = some m.session.connection
  built : (m.trace.filterMap Event.built?).getLast? = some m.session.client

/-- A reconnection keeps the settings and the client linked to the trace. -/
theorem Linked.of_reconnects {given : Option Connection} (h : m.Linked)
    (hr : Reconnects m given m') : m'.Linked := by
  cases hr with
  | kept hs =>
    exact ⟨by rw [hs.asked, hs.connection, h.asked], by rw [hs.built, hs.client, h.built]⟩
  | refused hconnection hclient ht =>
    constructor <;> rw [ht, List.filterMap_append, List.getLast?_append]
    · rw [hconnection]
      rfl
    · rw [hclient, h.built]
      rfl
  | built hconnection hclient ht =>
    constructor <;> rw [ht, List.filterMap_append, List.getLast?_append]
    · rw [hconnection]
      rfl
    · rw [hclient]
      rfl

/-- A session starts with the one client that it asks for. -/
theorem trace_of_start {config : Config} {world : W}
    (h : Machine.start around config world = .ok m) :
    m.trace = [.connect config.connection (.ok ())] ∧
      m.session.connection = config.connection ∧ m.session.client = config.connection := by
  unfold Machine.start at h
  split at h
  · cases h
  · split at h
    · cases h
    · cases h
      exact ⟨rfl, rfl, rfl⟩

end Machine

open Machine in

/-- In every reachable machine the settings and the client are linked to the trace. -/
theorem Reachable.linked {W : Type} {around : Surroundings W} {m : Machine W}
    (h : Reachable around m) : m.Linked := by
  induction h with
  | start hs =>
    obtain ⟨ht, hconnection, hclient⟩ := trace_of_start hs
    exact ⟨by rw [ht, hconnection]; rfl, by rw [ht, hclient]; rfl⟩
  | @step m stimulus _ ih => exact ih.of_reconnects (m.reconnects around stimulus)

/-- The client in use is the one for the settings asked for exactly if the client that was asked for
last is also the one that was built last. A connect command that is refused a client leaves the
client in use and the settings that it gave: the settings stay what they were exactly if it only
repeated them, and the next connect command asks for a client with them. -/
theorem Reachable.client_eq_connection_iff {W : Type} {around : Surroundings W} {m : Machine W}
    (h : Reachable around m) :
    (m.session.client = m.session.connection ↔
      (m.trace.filterMap Event.built?).getLast? = (m.trace.filterMap Event.asked?).getLast?) ∧
    ∀ {line changes e}, Session.settings? line = some changes →
      (m.overlaid changes).link around = .error e →
        let m' := m.after around (.feed line)
        m'.session.client = m.session.client ∧
        (m'.session.connection = m.session.connection ↔ ∀ setting ∈ Connection.settings,
          ∀ value ∈ setting changes, setting m.session.connection = some value) ∧
        ∀ {line' changes'}, Session.settings? line' = some changes' →
          ((m'.after around (.feed line')).trace.filterMap Event.asked?).getLast? =
            some ((m.session.connection.overlay changes).overlay changes') := by
  refine ⟨by rw [h.linked.asked, h.linked.built, Option.some_inj], ?_⟩
  intro line changes e hs hrefused m'
  have hm' : m' = (m.overlaid changes).linked around := by
    obtain ⟨hv, hc, hg⟩ := Session.settings?_eq_some_iff.1 hs
    exact (Machine.after_feed_connect hv hc hg m around).trans (by rw [hrefused])
  have hconnection : m'.session.connection = m.session.connection.overlay changes := by
    rw [hm']
    rfl
  refine ⟨by rw [hm']; rfl, ?_, fun {line' changes'} hs' => ?_⟩
  · rw [hconnection]
    exact Connection.overlay_eq_self_iff
  · obtain ⟨-, hasked⟩ := (m'.reconnects around (.feed line')).asked
    have hgiven : (Stimulus.feed (W := W) line').settings? = some changes' := hs'
    rw [hasked, hgiven, hconnection]
    exact List.getLast?_concat

/-- A store in memory that can be made to fail. -/
def inFailingMemory : Surroundings (MemoryStore × Faults) where
  service := MemoryStore.service.failing
  supply := ⟨fun _ => "", fun _ => ""⟩

/-- Once a client for a region has been refused, the region stays with the next connect command. -/
theorem Reachable.client_eq_connection_refused_region :
    ∃ m m' : Machine (MemoryStore × Faults), Reachable inFailingMemory m ∧
      m' = m.after inFailingMemory (.feed "connect -r bad") ∧
      m'.session.client = m.session.client ∧ m'.session.connection ≠ m.session.connection ∧
      (((m'.after inFailingMemory (.feed "connect -p dev")).trace.filterMap Event.asked?).getLast? =
        some { profile := some "dev", region := some "bad" }) := by
  obtain ⟨m₀, hstart, hnone⟩ : ∃ m₀, Machine.start inFailingMemory {} ({}, .empty) = .ok m₀ ∧
      m₀.session.connection = {} := ⟨_, rfl, rfl⟩
  let faults : Faults := Dictionary.empty.insert "connect" "down"
  let m := m₀.after inFailingMemory (.world ({}, faults))
  have hm : Reachable inFailingMemory m := (Reachable.start hstart).step _
  have hconnection : m.session.connection = {} := hnone
  have hsettings : Session.settings? "connect -r bad" = some { region := some "bad" } := by
    decide +kernel
  have hrefused : (m.overlaid { region := some "bad" }).link inFailingMemory =
      .error (.storage "connect" "down") := rfl
  obtain ⟨hclient, hkept, hnext⟩ := hm.client_eq_connection_iff.2 hsettings hrefused
  have hdev : Session.settings? "connect -p dev" = some { profile := some "dev" } := by
    decide +kernel
  refine ⟨m, _, hm, rfl, hclient, fun heq => ?_, ?_⟩
  · have hregion := hkept.1 heq Connection.region (by simp [Connection.settings]) "bad" rfl
    rw [hconnection] at hregion
    cases hregion
  · rw [hnext hdev, hconnection]
    rfl

namespace Session

open Machine

variable {W : Type} {around : Surroundings W} {m : Machine W}

/-- Over any run a client is asked for once at the start and then once for each connect command that
gives a setting, in their order, and never otherwise: this holds at every point of the run, whether
or not the service has the clients. The connection that is asked for after so many of these commands
has in each setting the latest value that one of them gave, or else the value of the beginning, and
it has credentials exactly if both keys have been given by then. -/
theorem connections_accumulate {config : Config} {world : W}
    (hs : Machine.start around config world = .ok m) (stimuli : List (Stimulus W)) :
    let given := stimuli.filterMap Stimulus.settings?
    let asked := (m.afterAll around stimuli).trace.filterMap Event.asked?
    asked.length = given.length + 1 ∧
      ∀ i connection, asked[i]? = some connection →
        (∀ setting ∈ Connection.settings, setting connection =
          ((given.take i).filterMap setting).getLast?.or (setting config.connection)) ∧
        (connection.credentials?.isSome = true ↔
          (∃ c ∈ config.connection :: given.take i, c.accessKey.isSome = true) ∧
            ∃ c ∈ config.connection :: given.take i, c.secretKey.isSome = true) := by
  intro given asked
  obtain ⟨ht, hconnection, -⟩ := trace_of_start hs
  have hasked : asked = given.scanl Connection.overlay config.connection := by
    have h : m.trace.filterMap Event.asked? = [] ++ [m.session.connection] := by
      rw [ht, hconnection]
      rfl
    rw [← hconnection]
    exact asked_afterAll stimuli h
  rw [hasked]
  refine ⟨List.length_scanl, fun i connection hi => ?_⟩
  obtain rfl : (given.take i).foldl Connection.overlay config.connection = connection := by
    rw [List.getElem?_scanl] at hi
    split at hi
    · exact Option.some.inj hi
    · cases hi
  refine ⟨fun setting hsetting => Connection.setting_foldl_overlay hsetting _ _, ?_⟩
  rw [Connection.isSome_credentials?,
    Connection.isSome_foldl_overlay (by simp [Connection.settings]),
    Connection.isSome_foldl_overlay (by simp [Connection.settings])]

/-- The two keys may be given in different commands. -/
theorem connections_accumulate_two_keys :
    Machine.start inMemory {} {} = .ok (.over {}) ∧
      ∃ (stimuli : List (Stimulus MemoryStore)) (connection : Connection),
        stimuli.filterMap Stimulus.settings? =
          [{ profile := some "dev", accessKey := some "id" },
            { profile := some "test", secretKey := some "key" }] ∧
        (((Machine.over {}).afterAll inMemory stimuli).trace.filterMap Event.asked?)[2]? =
          some connection ∧
        connection.profile = some "test" ∧ connection.credentials?.isSome = true := by
  have hstart : Machine.start inMemory {} {} = .ok (.over {}) := rfl
  let stimuli : List (Stimulus MemoryStore) :=
    [.feed "connect --access_key id -p dev", .feed "SHOW TABLES;", .feed "connect",
      .feed "connect --secret_access_key key -p test"]
  have hgiven : stimuli.filterMap Stimulus.settings? =
      [{ profile := some "dev", accessKey := some "id" },
        { profile := some "test", secretKey := some "key" }] := by
    decide +kernel
  obtain ⟨hlength, hsettings⟩ := connections_accumulate hstart stimuli
  rw [hgiven] at hlength hsettings
  have hlast : 2 < (((Machine.over {}).afterAll inMemory stimuli).trace.filterMap
      Event.asked?).length := by
    rw [hlength]
    exact Nat.lt_succ_self 2
  obtain ⟨hlatest, hkeys⟩ := hsettings 2 _ (List.getElem?_eq_getElem hlast)
  exact ⟨hstart, stimuli, _, hgiven, List.getElem?_eq_getElem hlast,
    hlatest _ List.mem_cons_self, hkeys.2 (by simp)⟩

end Session

end TableShell
