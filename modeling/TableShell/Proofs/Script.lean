import TableShell.Proofs.Text.Fields
import TableShell.Script

/-!
# The scripts that are read as one list of lines

Scripts are pushed while others are half read, and a script whose last line has been read stays on
the stack until another line is asked for. None of this shows in the lines that are read: whatever
is done with a stack, the answers are those of the one list of lines that are pending
(`Script.Stack.runs_as_lines`), and the next line is missing only when no script has a line left
(`Script.Stack.nextLine?_eq_none_iff`). The lines of a text are the ones that make up the text when
line feeds are put between them (`Script.lines_ofText_iff`).
-/

namespace TableShell.Script

/-! ## The lines of a text -/

/-- The lines of a text are those texts without line feeds that are the text when they are joined by
line feeds. There is at least one of them. -/
theorem lines_ofText_iff {name text : String} {lines : List String} :
    (ofText name text).lines = lines ↔
      lines ≠ [] ∧ (∀ line ∈ lines, '\n' ∉ line.toList) ∧ "\n".intercalate lines = text := by
  have hjoin : (ofText name text).lines = lines ↔
      Text.fields (· == '\n') text.toList = lines.map String.toList := by
    rw [ofText]
    constructor
    · rintro rfl
      simp
    · intro h
      simp [h]
  rw [hjoin]
  constructor
  · intro h
    refine ⟨?_, ?_, ?_⟩
    · rintro rfl
      exact Text.fields_ne_nil _ _ h
    · intro line hline hfeed
      have hpiece : line.toList ∈ Text.fields (· == '\n') text.toList :=
        h ▸ List.mem_map_of_mem hline
      exact absurd (Text.sep_of_mem_fields hpiece _ hfeed) (by decide)
    · rw [← String.toList_inj, String.toList_intercalate, ← h]
      exact Text.intercalate_fields '\n' text.toList
  · rintro ⟨hne, hlines, rfl⟩
    rw [String.toList_intercalate]
    refine Text.fields_intercalate rfl (by simpa using hne) ?_
    simp only [List.forall_mem_map, beq_eq_false_iff_ne]
    rintro line hline _ hc rfl
    exact hlines line hline hc

/-! ## What is done with scripts -/

/-- What is done with the scripts that are being read. -/
inductive Operation where
  | push (script : Script)
  | nextLine
  | clear
  deriving DecidableEq, Repr

namespace Operation

/-- The answers to an operation on a stack, and the stack after it. Only the next line is an
answer. -/
def onStack (stack : Stack) : Operation → List (Option String) × Stack
  | push script => ([], script :: stack)
  | nextLine => ([stack.nextLine?.1], stack.nextLine?.2)
  | clear => ([], [])

/-- The answers to an operation on a list of lines, and the list after it. -/
def onLines (lines : List String) : Operation → List (Option String) × List String
  | push script => ([], script.lines ++ lines)
  | nextLine => ([lines.head?], lines.tail)
  | clear => ([], [])

/-- The answers to operations one after the other, and what is there after them. -/
def runAll {State : Type} (step : State → Operation → List (Option String) × State) :
    State → List Operation → List (Option String) × State
  | s, [] => ([], s)
  | s, op :: ops =>
    ((step s op).1 ++ (runAll step (step s op).2 ops).1, (runAll step (step s op).2 ops).2)

end Operation

namespace Stack

open Operation

/-- An operation on a stack is one on the lines that are pending. -/
theorem onLines_pending (stack : Stack) (op : Operation) :
    onLines stack.pending op = ((onStack stack op).1, (onStack stack op).2.pending) := by
  cases op with
  | push script => rfl
  | nextLine =>
    obtain ⟨hline, hlater⟩ := nextLine?_eq stack
    rw [onLines, onStack, hline, hlater]
  | clear => rfl

/-- Operations on a stack are the same operations on the lines that are pending. -/
theorem runAll_onLines_pending (stack : Stack) (ops : List Operation) :
    runAll onLines stack.pending ops =
      ((runAll onStack stack ops).1, (runAll onStack stack ops).2.pending) := by
  induction ops generalizing stack with
  | nil => rfl
  | cons op ops ih => rw [runAll, onLines_pending, ih, runAll]

/-- The lines that a stack still has are those of its upper part and then those of the lower. -/
theorem pending_append (stack below : Stack) :
    pending (stack ++ below) = pending stack ++ pending below :=
  List.flatMap_append

/-! ## No line -/

/-- No line is left exactly when every script on the stack is read to its end. -/
theorem pending_eq_nil_iff {stack : Stack} :
    stack.pending = [] ↔ ∀ script ∈ stack, script.lines = [] :=
  List.flatMap_eq_nil_iff

/-- A stack without lines is left behind. -/
theorem nextLine?_of_pending_nil {stack : Stack} (h : stack.pending = []) :
    nextLine? stack = (none, []) := by
  induction stack with
  | nil => rfl
  | cons script stack ih =>
    obtain ⟨hlines, hstack⟩ : script.lines = [] ∧ pending stack = [] := List.append_eq_nil_iff.1 h
    rw [nextLine?, hlines]
    exact ih hstack

/-- There is no next line only when no script has one left. -/
theorem nextLine?_eq_none_iff {stack : Stack} :
    stack.nextLine?.1 = none ↔ ∀ script ∈ stack, script.lines = [] := by
  rw [(nextLine?_eq stack).1, List.head?_eq_none_iff, pending_eq_nil_iff]

/-! ## A stack as one list of lines -/

/-- A stack of scripts answers like one list of lines: a script that is pushed puts its lines in
front, the next line is the head, and clearing leaves nothing. There is no next line only when no
script has a line left, and the stack is empty then. The lines of a text, joined by line feeds, are
the text, and there is no other way to cut it at its line feeds. -/
theorem runs_as_lines :
    (∀ (stack : Stack) (ops : List Operation),
      (runAll onStack stack ops).1 = (runAll onLines stack.pending ops).1 ∧
      (runAll onStack stack ops).2.pending = (runAll onLines stack.pending ops).2) ∧
    (∀ stack : Stack, (stack.nextLine?.1 = none ↔ ∀ script ∈ stack, script.lines = []) ∧
      (stack.nextLine?.1 = none → stack.nextLine?.2.length = 0)) ∧
    ∀ (name text : String) (lines : List String), (ofText name text).lines = lines ↔
      lines ≠ [] ∧ (∀ line ∈ lines, '\n' ∉ line.toList) ∧ "\n".intercalate lines = text := by
  refine ⟨fun stack ops => ?_, fun stack => ⟨nextLine?_eq_none_iff, fun hnone => ?_⟩, ?_⟩
  · rw [runAll_onLines_pending]
    exact ⟨rfl, rfl⟩
  · have hpending := pending_eq_nil_iff.2 (nextLine?_eq_none_iff.1 hnone)
    rw [nextLine?_of_pending_nil hpending]
    rfl
  · exact fun _ _ _ => lines_ofText_iff

/-- A script is pushed while another one is half read, and an empty text is one empty line. -/
theorem runs_as_lines_nested_script :
    (runAll onStack []
        [.push (ofText "outer" "a\nb\n"), .nextLine, .push (ofText "inner" ""), .nextLine,
          .nextLine, .push (ofText "inner" "c"), .nextLine, .nextLine, .nextLine]).1 =
      [some "a", some "", some "b", some "c", some "", none] ∧
    Stack.nextLine? [⟨"inner", []⟩, ⟨"outer", []⟩] = (none, []) ∧
    (Stack.nextLine? [⟨"inner", []⟩, ⟨"outer", []⟩]).2.length = 0 ∧
    "\n".intercalate (ofText "outer" "a\nb\n").lines = "a\nb\n" := by
  obtain ⟨hruns, hnone, hlines⟩ := runs_as_lines
  have hempty : Stack.nextLine? [⟨"inner", []⟩, ⟨"outer", []⟩] = (none, []) := rfl
  refine ⟨?_, hempty, (hnone _).2 (congrArg Prod.fst hempty), ((hlines _ _ _).1 rfl).2.2⟩
  rw [(hruns _ _).1]
  decide +kernel

end Stack

end TableShell.Script
