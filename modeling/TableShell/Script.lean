import TableShell.Error

/-!
# Scripts

A script is a file of lines. The scripts being read form a stack: a script that loads another one is
continued after it. `Script.Stack.pending` is the one list of lines that the stack still has to
give, and `nextLine?` takes its head.

Scripts are loaded from files by their paths. `FileTree.file?` finds a file in a tree by a path
relative to its root.
-/

namespace TableShell

/-! ## Files -/

/-- What a file holds. -/
inductive FileContent where
  | text (content : String)
  /-- Bytes that are no text. -/
  | binary
  deriving DecidableEq, Repr

/-- The files below a root, each with the names on the way to it. -/
abbrev FileTree := List (List String × FileContent)

namespace FileTree

/-- The names that a path is made of. -/
def names (path : String) : List String :=
  (Text.fields (· == '/') path.toList).map String.ofList

/-- A directory is what lies on the way to a file. -/
def hasDirectory (tree : FileTree) (directory : List String) : Bool :=
  tree.any fun f => directory.isPrefixOf f.1.dropLast

/-- The file that a path leads to from a directory. A path that leaves the tree, or goes through
what is no directory, leads nowhere. -/
def walk (tree : FileTree) (directory : List String) : List String → Option FileContent
  | [] => none
  | [name] => (tree.find? fun f => f.1 == directory ++ [name]).map (·.2)
  | name :: rest =>
    if name = "" ∨ name = "." then walk tree directory rest
    else if name = ".." then
      if directory.isEmpty then none else walk tree directory.dropLast rest
    else if hasDirectory tree (directory ++ [name]) then walk tree (directory ++ [name]) rest
    else none

/-- The file at a path. -/
def file? (tree : FileTree) (path : String) : Option FileContent :=
  if path.toList.head? = some '/' then none else walk tree [] (names path)

/-- The tree with the given files. -/
def ofList (files : List (String × FileContent)) : FileTree :=
  files.map fun f => ((names f.1).filter fun n => n ≠ "" ∧ n ≠ ".", f.2)

end FileTree

/-! ## Scripts -/

/-- A script and the lines of it that have not been read. -/
structure Script where
  name : String
  lines : List String
  deriving DecidableEq, Repr

namespace Script

/-- The script with the lines of a text, which are separated by line feeds. -/
def ofText (name text : String) : Script :=
  ⟨name, (Text.fields (· == '\n') text.toList).map String.ofList⟩

/-- The script in a file, where `file?` says what the files hold. -/
def load (file? : String → Option FileContent) (path : String) : Except Error Script :=
  match file? path with
  | none => .error (.scriptNotFound path)
  | some .binary => .error .notText
  | some (.text content) => .ok (ofText path content)

/-- The scripts being read, the innermost one first. -/
abbrev Stack := List Script

namespace Stack

/-- The next line, and the stack without it. Scripts without lines are left behind. -/
def nextLine? : Stack → Option String × Stack
  | [] => (none, [])
  | script :: stack =>
    match script.lines with
    | [] => nextLine? stack
    | line :: lines => (some line, { script with lines } :: stack)

/-- The lines that are left, in the order in which they are read. -/
def pending (stack : Stack) : List String := stack.flatMap (·.lines)

/-- The next line is the first one pending, and the others stay pending. -/
theorem nextLine?_eq (stack : Stack) :
    (nextLine? stack).1 = stack.pending.head? ∧
      Stack.pending (nextLine? stack).2 = stack.pending.tail := by
  induction stack with
  | nil => simp [nextLine?, pending]
  | cons script stack ih =>
    rw [nextLine?]
    split
    · next h => simpa [pending, h] using ih
    · next h => simp [pending, h]

end Stack

end Script

end TableShell
