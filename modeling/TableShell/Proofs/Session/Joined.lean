import TableShell.Proofs.Session.Paging
import TableShell.Proofs.Session.Uniform

/-!
# A command in several lines

A command may be typed in several lines, with quiet lines in between. Until the line that closes it
nothing happens but what the quiet lines show (`Session.feedAll_parts`), and then the command is the
text of its lines, without the blanks around them, joined by spaces. So it comes to the same as that
text typed in one line (`Session.feed_joined`).

What has to be shown of the one line is that it is no comment and starts with no verb: it starts as
the first of the several lines does, and no verb has a space in it.
-/

namespace TableShell

namespace Session

open Act

variable {W : Type} {around : Surroundings W} {m m' : Machine W} {line last : String}
  {lines fed : List String}

/-! ## Parts of a command -/

/-- A text that is a part of a command, given without the blanks around it, and that draws no fresh
text. -/
structure IsPart (text : String) : Prop where
  comment : isComment text = false
  verb : Verb.ofLine? text = none
  fixed : Template.IsFixed text

/-- The text of a command that is typed in several lines. -/
def joined (lines : List String) (last : String) : String :=
  " ".intercalate ((lines ++ [last]).map Text.trim)

/-- No lines in front leave the last line, trimmed. -/
@[simp] theorem joined_nil (last : String) : joined [] last = Text.trim last :=
  String.intercalate_singleton

/-- A line in front is trimmed and followed by a space. -/
@[simp] theorem joined_cons (line : String) (lines : List String) (last : String) :
    joined (line :: lines) last = Text.trim line ++ " " ++ joined lines last :=
  String.intercalate_cons_of_ne_nil (by simp)

instance : DecidablePred IsPart := fun text =>
  decidable_of_iff
    (isComment text = false ∧ Verb.ofLine? text = none ∧ Template.IsFixed text)
    ⟨fun ⟨comment, verb, fixed⟩ => ⟨comment, verb, fixed⟩,
      fun ⟨comment, verb, fixed⟩ => ⟨comment, verb, fixed⟩⟩

/-- Two parts joined by a space are a part. -/
theorem IsPart.append_space {a b : String} (ha : IsPart a) (hb : IsPart b) :
    IsPart (a ++ " " ++ b) where
  comment := by
    have h := ha.comment
    rw [isComment_eq] at h ⊢
    cases hs : a.toList with
    | nil => simp [hs] at h
    | cons c cs => simpa [hs] using h
  verb := by
    have hverbs : ∀ entry ∈ Verb.table, ' ' ∉ entry.1.toList := by decide
    have h := ha.verb
    rw [Verb.ofLine?, Option.map_eq_none_iff, List.find?_eq_none] at h ⊢
    intro entry he hstart
    exact h entry he (Text.startsWith_of_append_space hstart (hverbs entry he))
  fixed := ha.fixed.append_space hb.fixed

/-- Lines that are parts, joined by spaces, are a part. -/
theorem isPart_joined (hlines : ∀ line ∈ lines, IsPart (Text.trim line))
    (hlast : IsPart (Text.trim last)) : IsPart (joined lines last) := by
  induction lines with
  | nil => rwa [joined_nil]
  | cons line lines ih =>
    obtain ⟨hline, hlines⟩ := List.forall_mem_cons.1 hlines
    rw [joined_cons]
    exact hline.append_space (ih hlines)

/-- A part has no blanks around it. -/
theorem IsPart.tight (h : IsPart (Text.trim line)) : Text.Tight (Text.trim line).toList := by
  have hne : Text.trimmed line.toList ≠ [] := by
    intro hnil
    have hcomment := h.comment
    rw [isComment_eq, Text.toList_trim, hnil] at hcomment
    cases hcomment
  rw [Text.toList_trim]
  exact Text.tight_trimmed hne

/-- Lines that are parts, joined by spaces, have no blanks around them. -/
theorem tight_joined (hlines : ∀ line ∈ lines, IsPart (Text.trim line))
    (hlast : IsPart (Text.trim last)) : Text.Tight (joined lines last).toList := by
  induction lines with
  | nil =>
    rw [joined_nil]
    exact hlast.tight
  | cons line lines ih =>
    obtain ⟨hline, hlines⟩ := List.forall_mem_cons.1 hlines
    have h := hline.tight.append_space (ih hlines)
    rw [joined_cons]
    simpa using h

/-- Joined lines end as the last one does. -/
theorem endsWith_joined (lines : List String) (hlast : Text.endsWith (Text.trim last) ';' = true) :
    Text.endsWith (joined lines last) ';' = true := by
  induction lines with
  | nil => rwa [joined_nil]
  | cons line lines ih =>
    rw [Text.endsWith, beq_iff_eq] at ih ⊢
    rw [joined_cons, String.toList_append, List.getLast?_append, ih]
    rfl

/-! ## The lines one by one -/

/-- What has been begun after further parts. -/
def begunAll (buffer : String) (lines : List String) : String :=
  lines.foldl (fun buffer line => buffer ++ Text.trim line ++ " ") buffer

/-- Beginning the lines one after the other and ending with the last one gives the joined lines. -/
theorem begunAll_append (buffer : String) (lines : List String) (last : String) :
    begunAll buffer lines ++ Text.trim last = buffer ++ joined lines last := by
  induction lines generalizing buffer with
  | nil => rw [joined_nil]; rfl
  | cons line lines ih =>
    have h := ih (buffer ++ Text.trim line ++ " ")
    rw [joined_cons]
    simpa [begunAll, String.append_assoc] using h

/-- Idling does not depend on the buffer. -/
theorem idles_withBuffer (h : m.Idles m') (buffer : String) :
    (m.withBuffer buffer).Idles (m'.withBuffer buffer) :=
  ⟨by simp [h.session], h.world, h.trace⟩

/-- Parts of a command and quiet lines between them: the parts are begun, and nothing happens but
what the quiet lines show. -/
theorem feedAll_parts (hlines : ∀ line ∈ lines,
      IsPart (Text.trim line) ∧ Text.endsWith (Text.trim line) ';' = false)
    (hfed : fed.filter (!isQuiet ·) = lines) :
    ∃ m₁, (feedAll around fed).apply m = (.ok (), m₁) ∧
      (m.withBuffer (begunAll m.session.buffer lines)).Idles m₁ := by
  induction fed generalizing m lines with
  | nil =>
    obtain rfl : lines = [] := hfed.symm
    have hself : m.withBuffer (begunAll m.session.buffer []) = m := Machine.withBuffer_eq_self rfl
    refine ⟨m, rfl, ?_⟩
    rw [hself]
    exact isStepOrder_idles.refl m
  | cons line fed ih =>
    cases hq : isQuiet line with
    | true =>
      rw [List.filter_cons_of_neg (by simp [hq])] at hfed
      obtain ⟨m', h', hi'⟩ : ∃ m', (feed around line).apply m = (.ok .next, m') ∧ m.Idles m' :=
        apply_feed_of_isQuiet hq m
      obtain ⟨m₁, h₁, hi₁⟩ := ih (m := m') hlines hfed
      rw [hi'.session] at hi₁
      exact ⟨m₁, (apply_feedAll_cons h' fed).trans h₁,
        isStepOrder_idles.trans (idles_withBuffer hi' _) hi₁⟩
    | false =>
      rw [List.filter_cons_of_pos (by simp [hq])] at hfed
      subst hfed
      obtain ⟨⟨hpart, hopen⟩, hlines⟩ := List.forall_mem_cons.1 hlines
      have hfeed : (feed around line).apply m =
          (.ok .next, m.withBuffer (m.session.begun line)) :=
        apply_feed_part hpart.comment hpart.verb hopen m
      obtain ⟨m₁, h₁, hi₁⟩ := ih (m := m.withBuffer (m.session.begun line)) hlines rfl
      exact ⟨m₁, (apply_feedAll_cons hfeed fed).trans h₁, hi₁⟩

/-! ## The last line -/

/-- The line that closes a command carries out the text of all its lines. -/
theorem completes_joined {session : Session} (hb : session.buffer = begunAll "" lines)
    (hlines : ∀ line ∈ lines, IsPart (Text.trim line)) (hlast : IsPart (Text.trim last))
    (hclosed : Text.endsWith (Text.trim last) ';' = true) :
    session.completes? last = some (joined lines last) := by
  have hbegun : session.begun last = joined lines last ++ " " := by
    rw [begun, hb, begunAll_append]
    simp
  rw [completes?_eq_some_iff, hbegun]
  exact ⟨hlast.comment, hlast.verb, hclosed, (tight_joined hlines hlast).trim_append_space⟩

/-- Where nothing has been begun, that text does so as one line too. -/
theorem completes_of_joined {session : Session} (hb : session.buffer = "")
    (hlines : ∀ line ∈ lines, IsPart (Text.trim line)) (hlast : IsPart (Text.trim last))
    (hclosed : Text.endsWith (Text.trim last) ';' = true) :
    session.completes? (joined lines last) = some (joined lines last) := by
  have hpart := isPart_joined hlines hlast
  exact completes?_of_tight hb (tight_joined hlines hlast) hpart.comment hpart.verb
    (endsWith_joined lines hclosed)

/-- Lines that complete the same command come to the same. -/
theorem matches_feed {draws : Prop} {m₁ m₂ : Machine W} {line₁ line₂ command : String}
    (h : (m₁.withBuffer "").Alike draws (m₂.withBuffer ""))
    (hc₁ : m₁.session.completes? line₁ = some command)
    (hc₂ : m₂.session.completes? line₂ = some command)
    (ht : draws ∨ Template.IsFixed command ∧ (CommandKind.ofCommand command = .again →
      ∀ latest ∈ m₁.session.history.latest?, Template.IsFixed latest)) :
    Matches draws m₁ m₂ ((feed around line₁).apply m₁) ((feed around line₂).apply m₂) := by
  obtain ⟨hr, halike, htrace⟩ : Matches draws _ _ ((execute around command).apply _)
      ((execute around command).apply _) := matches_execute h ht
  rw [apply_feed_of_completes hc₁, apply_feed_of_completes hc₂]
  exact ⟨congrArg (Except.map fun _ => Flow.next) hr, halike, htrace⟩

/-- A command that is typed in several lines, with quiet lines in between, comes to the same as the
text of its lines joined by spaces and typed in one line: with the same outcome, the same calls and
reports, and the same session and world afterwards. Before the last line only the command that has
been begun changes, and the quiet lines show what they show.

The one line is typed where the several lines were begun. If it repeats a command that draws fresh
texts, the same texts have to be drawn. -/
theorem feed_joined (hb : m.session.buffer = "")
    (hlines : ∀ line ∈ lines,
      IsPart (Text.trim line) ∧ Text.endsWith (Text.trim line) ';' = false)
    (hlast : IsPart (Text.trim last)) (hclosed : Text.endsWith (Text.trim last) ';' = true)
    (hfed : fed.filter (!isQuiet ·) = lines) :
    ∃ m₁ buffer, (feedAll around fed).apply m = (.ok (), m₁) ∧ (m.withBuffer buffer).Idles m₁ ∧
      ∀ m₀ : Machine W, m₀.session = m.session → m₀.world = m.world →
        (m₀.drawn = m₁.drawn ∨ (CommandKind.ofCommand (joined lines last) = .again →
          ∀ latest ∈ m.session.history.latest?, Template.IsFixed latest)) →
        Matches (m₀.drawn = m₁.drawn) m₁ m₀ ((feed around last).apply m₁)
          ((feed around (joined lines last)).apply m₀) := by
  obtain ⟨m₁, h₁, hi₁⟩ : ∃ m₁, (feedAll around fed).apply m = (.ok (), m₁) ∧
      (m.withBuffer (begunAll m.session.buffer lines)).Idles m₁ := feedAll_parts hlines hfed
  rw [hb] at hi₁
  refine ⟨m₁, _, h₁, hi₁, fun m₀ hsession hworld hdrawn => ?_⟩
  have hparts : ∀ line ∈ lines, IsPart (Text.trim line) := fun line hl => (hlines line hl).1
  have hseveral : m₁.session.completes? last = some (joined lines last) := by
    have hbuffer : m₁.session.buffer = begunAll "" lines := by rw [hi₁.session]; rfl
    exact completes_joined hbuffer hparts hlast hclosed
  have hsingle : m₀.session.completes? (joined lines last) = some (joined lines last) :=
    completes_of_joined (by rw [hsession, hb]) hparts hlast hclosed
  have halike : (m₁.withBuffer "").Alike (m₀.drawn = m₁.drawn) (m₀.withBuffer "") :=
    ⟨by simp [hsession, hi₁.session], hworld.trans hi₁.world.symm, id⟩
  have hfixed : Template.IsFixed (joined lines last) := (isPart_joined hparts hlast).fixed
  refine matches_feed halike hseveral hsingle (hdrawn.imp_right fun hagain => ⟨hfixed, ?_⟩)
  rw [hi₁.session]
  exact hagain

/-- In memory, a query in three lines with quiet lines of every kind in between. -/
theorem feed_joined_three_lines :
    let m : Machine MemoryStore := .over { results := [.ok {}] }
    let fed :=
      ["SELECT *", "# note", "", "echo ${UUID}", " sleep 0;", "!c", "connect", " FROM a.b "]
    ∃ m₁ m₂, (feedAll inMemory fed).apply m = (.ok (), m₁) ∧
      (feed inMemory "LIMIT 1;").apply m₁ = (.ok .next, m₂) ∧
      m₂.session.history.entries = ["SELECT * FROM a.b LIMIT 1;"] := by
  intro m fed
  have hlines : ∀ line ∈ ["SELECT *", " FROM a.b "],
      IsPart (Text.trim line) ∧ Text.endsWith (Text.trim line) ';' = false := by decide +kernel
  have hlast : IsPart (Text.trim "LIMIT 1;") := by decide +kernel
  have hclosed : Text.endsWith (Text.trim "LIMIT 1;") ';' = true := by decide +kernel
  have hfed : fed.filter (!isQuiet ·) = ["SELECT *", " FROM a.b "] := by decide +kernel
  have hnext : ((feed inMemory (joined ["SELECT *", " FROM a.b "] "LIMIT 1;")).apply m).1 =
      .ok .next := eq_ok_of_toOption (by decide +kernel)
  have hentries : ((feed inMemory (joined ["SELECT *", " FROM a.b "] "LIMIT 1;")).apply
      m).2.session.history.entries = ["SELECT * FROM a.b LIMIT 1;"] := by decide +kernel
  have hkind : CommandKind.ofCommand (joined ["SELECT *", " FROM a.b "] "LIMIT 1;") ≠ .again := by
    decide +kernel
  obtain ⟨m₁, -, h₁, -, hsame⟩ :=
    @feed_joined MemoryStore inMemory m "LIMIT 1;" _ fed rfl hlines hlast hclosed hfed
  have hmatch := hsame m rfl rfl (.inr fun hagain => absurd hagain hkind)
  rcases hp : (feed inMemory "LIMIT 1;").apply m₁ with ⟨r, m₂⟩
  rw [hp] at hmatch
  generalize (feed inMemory (joined ["SELECT *", " FROM a.b "] "LIMIT 1;")).apply m = single
    at hnext hentries hmatch
  obtain rfl : r = .ok .next := hmatch.outcome.symm.trans hnext
  refine ⟨m₁, m₂, h₁, hp, ?_⟩
  rw [← hmatch.alike.session]
  exact hentries

end Session

end TableShell
