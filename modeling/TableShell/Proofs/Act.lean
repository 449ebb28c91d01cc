import TableShell.Session.Run

/-!
# Actions at a machine

`Act.apply` runs an action at a machine and gives its outcome and the machine after it. Each of the
primitive actions has one equation here, and the other modules open an action by these equations
only.

`Act.Keeps R a` says that `a` relates the machine before it to the machine after it by `R`, whatever
its outcome. For a preorder it is closed under sequences, so it is proved of an action by following
its text. The preorder used most is `Machine.Adds`: the session stays as it is, and every
event added is a plain one, which is neither a statement carried out nor a connection nor the rows
of a result.
-/

namespace TableShell

/-! ## Events -/

/-- The statement, the limit and the token of a call that carries out a statement. -/
def Event.query? : Event → Option (String × Option Int × Option String)
  | .call _ (.execute statement limit token) _ => some (statement, limit, token)
  | _ => none

/-- An event that is a query is a call of the service that executes a statement. -/
theorem Event.exists_eq_call {e : Event} {statement : String} {limit : Option Int}
    {token : Option String} (h : e.query? = some (statement, limit, token)) :
    ∃ client outcome, e = .call client (.execute statement limit token) outcome := by
  cases e with
  | call client c outcome =>
    cases c with
    | execute => cases h; exact ⟨client, outcome, rfl⟩
    | describe | createTable | deleteTable | listTables | scanTable | deleteItem => cases h
  | report | connect | sleep | prompt => cases h

/-- A call that carries out a statement. -/
def Event.isQuery (e : Event) : Bool := e.query?.isSome

/-- A client that was built, or was not. -/
def Event.isConnect : Event → Bool
  | .connect .. => true
  | _ => false

/-- The rows that were shown. -/
def Event.items? : Event → Option (List Item)
  | .report (.items items) => some items
  | _ => none

/-- An event that is neither a query nor a connection and shows no rows. -/
def Event.isPlain (e : Event) : Bool := !e.isQuery && !e.isConnect && e.items?.isNone

/-- An event that is no query has no statement, limit and token. -/
theorem Event.query?_eq_none {e : Event} (h : e.isQuery = false) : e.query? = none := by
  simpa [isQuery] using h

/-- A plain event is none of the three kinds that later statements count: no query, no connect and
no printed items. -/
theorem Event.isPlain_iff {e : Event} :
    e.isPlain = true ↔ e.isQuery = false ∧ e.isConnect = false ∧ e.items? = none := by
  simp [isPlain, and_assoc]

/-- A plain event in which the service has no part. -/
def Event.isAside (e : Event) : Bool :=
  e.isPlain && match e with
    | .call .. => false
    | _ => true

namespace Machine

variable {W : Type}

/-- The machine with so many fresh texts drawn. -/
def withDrawn (m : Machine W) (drawn : Nat) : Machine W := { m with drawn }

/-- The machine with its session changed. -/
def change (m : Machine W) (f : Session → Session) : Machine W := { m with session := f m.session }

/-- The machine with an event added to its trace. -/
def emit (m : Machine W) (event : Event) : Machine W := { m with trace := m.trace ++ [event] }

/-- What the service answers to a call. -/
def answer (m : Machine W) (around : Surroundings W) (c : Call) : Except Error c.Reply :=
  (around.service.answer m.session.client c m.world).1

/-- The machine after a call. -/
def called (m : Machine W) (around : Surroundings W) (c : Call) : Machine W :=
  { m with
    world := (around.service.answer m.session.client c m.world).2
    trace := m.trace ++ [.call m.session.client c (m.answer around c)] }

/-- The text with the values of its variables. -/
def expansion (m : Machine W) (around : Surroundings W) (text : String) : String :=
  (m.session.bindings.substitute around.supply m.drawn text).1

/-- The machine after a text has been given the values of its variables. -/
def expanded (m : Machine W) (around : Surroundings W) (text : String) : Machine W :=
  m.withDrawn (m.session.bindings.substitute around.supply m.drawn text).2

@[simp] theorem withDrawn_session (m : Machine W) (n : Nat) : (m.withDrawn n).session = m.session :=
  rfl
@[simp] theorem withDrawn_world (m : Machine W) (n : Nat) : (m.withDrawn n).world = m.world := rfl
@[simp] theorem withDrawn_trace (m : Machine W) (n : Nat) : (m.withDrawn n).trace = m.trace := rfl
@[simp] theorem change_session (m : Machine W) (f : Session → Session) :
    (m.change f).session = f m.session := rfl
@[simp] theorem change_world (m : Machine W) (f : Session → Session) :
    (m.change f).world = m.world := rfl
@[simp] theorem change_trace (m : Machine W) (f : Session → Session) :
    (m.change f).trace = m.trace := rfl
@[simp] theorem change_drawn (m : Machine W) (f : Session → Session) :
    (m.change f).drawn = m.drawn := rfl
@[simp] theorem emit_session (m : Machine W) (e : Event) : (m.emit e).session = m.session := rfl
@[simp] theorem emit_world (m : Machine W) (e : Event) : (m.emit e).world = m.world := rfl
@[simp] theorem emit_trace (m : Machine W) (e : Event) : (m.emit e).trace = m.trace ++ [e] := rfl
@[simp] theorem called_session (m : Machine W) (around : Surroundings W) (c : Call) :
    (m.called around c).session = m.session := rfl
@[simp] theorem called_trace (m : Machine W) (around : Surroundings W) (c : Call) :
    (m.called around c).trace = m.trace ++ [.call m.session.client c (m.answer around c)] := rfl
@[simp] theorem expanded_session (m : Machine W) (around : Surroundings W) (text : String) :
    (m.expanded around text).session = m.session := rfl
@[simp] theorem expanded_world (m : Machine W) (around : Surroundings W) (text : String) :
    (m.expanded around text).world = m.world := rfl
@[simp] theorem expanded_trace (m : Machine W) (around : Surroundings W) (text : String) :
    (m.expanded around text).trace = m.trace := rfl

end Machine

/-! ## Equations -/

namespace Act

variable {W α β : Type}

/-- The outcome of an action at a machine, and the machine after it. -/
def apply (a : Act W α) (m : Machine W) : Except Halt α × Machine W := a.run.run m

/-- Giving a value leaves the machine as it was. -/
@[simp] theorem apply_pure (x : α) (m : Machine W) : (pure x : Act W α).apply m = (.ok x, m) := rfl

/-- A sequence stops where its first action stops. -/
theorem apply_bind (a : Act W α) (f : α → Act W β) (m : Machine W) :
    (a >>= f).apply m = match a.apply m with
      | (.ok x, m') => (f x).apply m'
      | (.error h, m') => (.error h, m') := by
  simp only [apply, ExceptT.run_bind, StateT.run_bind]
  rcases StateT.run (ExceptT.run a) m with ⟨_ | _, m'⟩ <;> rfl

/-- A sequence whose first action gives a value goes on with that value, from the machine the first
action leaves. -/
theorem apply_bind_of_ok {a : Act W α} {f : α → Act W β} {m m' : Machine W} {x : α}
    (h : a.apply m = (.ok x, m')) : (a >>= f).apply m = (f x).apply m' := by
  rw [apply_bind, h]

/-- A sequence whose first action halts halts there, and the second action never runs. -/
theorem apply_bind_of_error {a : Act W α} {f : α → Act W β} {m m' : Machine W} {halt : Halt}
    (h : a.apply m = (.error halt, m')) : (a >>= f).apply m = (.error halt, m') := by
  rw [apply_bind, h]

/-- An action that failed is followed by its handler, at the machine that it left. -/
theorem apply_tryCatch (a : Act W α) (f : Halt → Act W α) (m : Machine W) :
    (tryCatch a f).apply m = match a.apply m with
      | (.ok x, m') => (.ok x, m')
      | (.error h, m') => (f h).apply m' := by
  change StateT.run (ExceptT.tryCatch a f) m = match StateT.run a m with
    | (.ok x, m') => (.ok x, m')
    | (.error h, m') => StateT.run (f h) m'
  simp only [ExceptT.tryCatch, ExceptT.mk]
  rw [StateT.run_bind]
  rcases StateT.run a m with ⟨_ | _, m'⟩ <;> rfl

/-- A failed command leaves the machine as it was. -/
@[simp] theorem apply_fail (e : Error) (m : Machine W) :
    (fail e : Act W α).apply m = (.error (.failed e), m) := rfl

/-- A computation outside the machine leaves it as it was; its error becomes a failed command. -/
@[simp] theorem apply_ofExcept (x : Except Error α) (m : Machine W) :
    (ofExcept x : Act W α).apply m = (x.mapError .failed, m) := by
  cases x <;> rfl

/-- An emitted event is added to the trace. -/
@[simp] theorem apply_emit (e : Event) (m : Machine W) : (emit e).apply m = (.ok (), m.emit e) :=
  rfl

/-- A report is an emitted event. -/
@[simp] theorem apply_report (r : Report) (m : Machine W) :
    (report r).apply m = (.ok (), m.emit (.report r)) := rfl

/-- Reading the session leaves the machine as it was. -/
@[simp] theorem apply_session (m : Machine W) :
    (session : Act W Session).apply m = (.ok m.session, m) := rfl

/-- A change of the session changes nothing else. -/
@[simp] theorem apply_change (f : Session → Session) (m : Machine W) :
    (change f).apply m = (.ok (), m.change f) := rfl

/-- Substitution changes nothing but how many fresh texts have been drawn. -/
@[simp] theorem apply_substitute (around : Surroundings W) (text : String) (m : Machine W) :
    (substitute around text).apply m = (.ok (m.expansion around text), m.expanded around text) :=
  rfl

/-- A call records itself with its answer in the trace, and an error of the service becomes a failed
command. -/
theorem apply_call (around : Surroundings W) (c : Call) (m : Machine W) :
    (call around c).apply m = ((m.answer around c).mapError .failed, m.called around c) := by
  have h : (call around c).apply m =
      (ofExcept (m.answer around c)).apply (m.called around c) := rfl
  rw [h, apply_ofExcept]

/-! ## What an action keeps -/

/-- A relation between machines that holds over no step at all and over two steps. -/
structure IsStepOrder (R : Machine W → Machine W → Prop) : Prop where
  refl : ∀ m, R m m
  trans : ∀ {m₁ m₂ m₃}, R m₁ m₂ → R m₂ m₃ → R m₁ m₃

/-- The action relates the machine before it to the machine after it, whatever its outcome. -/
def Keeps (R : Machine W → Machine W → Prop) (a : Act W α) : Prop := ∀ m, R m (a.apply m).2

variable {R : Machine W → Machine W → Prop}

/-- Giving a value keeps every step order. -/
theorem Keeps.pure (hR : IsStepOrder R) (x : α) : Keeps R (Pure.pure x : Act W α) :=
  fun m => hR.refl m

/-- Halting keeps every step order. -/
theorem Keeps.throw (hR : IsStepOrder R) (h : Halt) : Keeps R (MonadExcept.throw h : Act W α) :=
  fun m => hR.refl m

/-- A computation outside the machine keeps every step order. -/
theorem Keeps.ofExcept (hR : IsStepOrder R) (x : Except Error α) :
    Keeps R (ofExcept x : Act W α) := by
  intro m
  rw [apply_ofExcept]
  exact hR.refl m

/-- A sequence keeps a step order when both of its parts do. -/
theorem Keeps.bind (hR : IsStepOrder R) {a : Act W α} {f : α → Act W β} (ha : Keeps R a)
    (hf : ∀ x, Keeps R (f x)) : Keeps R (a >>= f) := by
  intro m
  have h := ha m
  rw [apply_bind]
  rcases hr : a.apply m with ⟨_ | x, m'⟩ <;> rw [hr] at h
  · exact h
  · exact hR.trans h (hf x m')

/-- Catching a halt keeps a step order when the action and the handler do. -/
theorem Keeps.tryCatch (hR : IsStepOrder R) {a : Act W α} {f : Halt → Act W α} (ha : Keeps R a)
    (hf : ∀ h, Keeps R (f h)) : Keeps R (tryCatch a f) := by
  intro m
  have h := ha m
  rw [apply_tryCatch]
  rcases hr : a.apply m with ⟨halt | _, m'⟩ <;> rw [hr] at h
  · exact hR.trans h (hf halt m')
  · exact h

end Act

/-! ## Only plain events -/

/-- Events that satisfy `p` were added between two traces, and then between the second and a third
one. -/
theorem exists_append_trans {p : Event → Bool} {t₁ t₂ t₃ : List Event}
    (h₁ : ∃ events, t₂ = t₁ ++ events ∧ ∀ e ∈ events, p e = true)
    (h₂ : ∃ events, t₃ = t₂ ++ events ∧ ∀ e ∈ events, p e = true) :
    ∃ events, t₃ = t₁ ++ events ∧ ∀ e ∈ events, p e = true := by
  obtain ⟨es₁, rfl, hes₁⟩ := h₁
  obtain ⟨es₂, rfl, hes₂⟩ := h₂
  refine ⟨es₁ ++ es₂, by rw [List.append_assoc], ?_⟩
  exact fun e he => (List.mem_append.1 he).elim (hes₁ e) (hes₂ e)

/-- The session is the same, and the events added are plain. -/
structure Machine.Adds {W : Type} (m m' : Machine W) : Prop where
  session : m'.session = m.session
  trace : ∃ events, m'.trace = m.trace ++ events ∧ ∀ e ∈ events, e.isPlain = true

/-- The session and the world are the same, and the service had no part in the events added. -/
structure Machine.Idles {W : Type} (m m' : Machine W) : Prop where
  session : m'.session = m.session
  world : m'.world = m.world
  trace : ∃ events, m'.trace = m.trace ++ events ∧ ∀ e ∈ events, e.isAside = true

/-- What the service had no part in is plain, so a machine that only idles adds plain events only.
-/
theorem Machine.Idles.adds {W : Type} {m m' : Machine W} (h : m.Idles m') : m.Adds m' := by
  obtain ⟨events, ht, hes⟩ := h.trace
  refine ⟨h.session, events, ht, fun e he => ?_⟩
  obtain ⟨hplain, -⟩ := Bool.and_eq_true_iff.1 (hes e he)
  exact hplain

namespace Act

variable {W α : Type}

/-- Adding plain events composes, so that it can be read off one action at a time. -/
theorem isStepOrder_adds : IsStepOrder (Machine.Adds (W := W)) where
  refl m := ⟨rfl, [], by simp⟩
  trans h₁ h₂ := ⟨h₂.session.trans h₁.session, exists_append_trans h₁.trace h₂.trace⟩

/-- Idling composes, so that it can be read off one action at a time. -/
theorem isStepOrder_idles : IsStepOrder (Machine.Idles (W := W)) where
  refl m := ⟨rfl, rfl, [], by simp⟩
  trans h₁ h₂ := ⟨h₂.session.trans h₁.session, h₂.world.trans h₁.world,
    exists_append_trans h₁.trace h₂.trace⟩

/-- Emitting a plain event adds plain events only. -/
theorem keeps_adds_emit {e : Event} (he : e.isPlain = true) :
    Keeps (Machine.Adds (W := W)) (emit e) :=
  fun _ => ⟨rfl, [e], rfl, by simpa using he⟩

/-- Reporting adds plain events only, when the report is a plain one. -/
theorem keeps_adds_report {r : Report} (hr : (Event.report r).isPlain = true) :
    Keeps (Machine.Adds (W := W)) (report r) :=
  keeps_adds_emit hr

/-- Substitution adds no event. -/
theorem keeps_adds_substitute (around : Surroundings W) (text : String) :
    Keeps Machine.Adds (substitute around text) :=
  fun _ => ⟨rfl, [], by simp⟩

/-- A call that is not a query adds itself, a plain event. -/
theorem keeps_adds_call (around : Surroundings W) {c : Call}
    (hc : ∀ s l t, c ≠ .execute s l t) : Keeps Machine.Adds (call around c) := by
  intro m
  rw [apply_call]
  refine ⟨rfl, [.call m.session.client c (m.answer around c)], rfl, fun e he => ?_⟩
  rw [List.mem_singleton.1 he]
  cases c with
  | execute s l t => exact absurd rfl (hc s l t)
  | describe | createTable | deleteTable | listTables | scanTable | deleteItem => rfl

end Act

end TableShell
