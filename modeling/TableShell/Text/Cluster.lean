import TableShell.Text.Emoji
import TableShell.Text.Marks

/-!
# Clusters

A cluster is what a reader takes for one character: a letter with its marks, the parts of a Korean
syllable, the consonants of a conjunct, a flag, or a sequence of emoji. The clusters of a text are
the extended grapheme clusters: a border lies between any two characters that no rule joins
(`Left.joins`), and whether a rule does depends on the character to the right and on some of what
stands to the left (`Left`). Put together, the clusters are the text.
-/

namespace TableShell.Text

/-! ## The properties -/

/-- Characters beyond U+001F that stand alone. -/
def controls : Ranges := [
  (0x7F, 0x9F), (0xAD, 0xAD), (0x61C, 0x61C), (0x180E, 0x180E), (0x200B, 0x200B), (0x200E, 0x200F),
  (0x2028, 0x202E), (0x2060, 0x206F), (0xFEFF, 0xFEFF), (0xFFF0, 0xFFFB), (0x13430, 0x1343F),
  (0x1BCA0, 0x1BCA3), (0x1D173, 0x1D17A), (0xE0000, 0xE001F), (0xE0080, 0xE00FF), (0xE01F0, 0xE0FFF)
]

/-- Consonants of the scripts that form conjuncts. -/
def consonants : Ranges := [
  (0x915, 0x939), (0x958, 0x95F), (0x978, 0x97F), (0x995, 0x9A8), (0x9AA, 0x9B0), (0x9B2, 0x9B2),
  (0x9B6, 0x9B9), (0x9DC, 0x9DD), (0x9DF, 0x9DF), (0x9F0, 0x9F1), (0xA95, 0xAA8), (0xAAA, 0xAB0),
  (0xAB2, 0xAB3), (0xAB5, 0xAB9), (0xAF9, 0xAF9), (0xB15, 0xB28), (0xB2A, 0xB30), (0xB32, 0xB33),
  (0xB35, 0xB39), (0xB5C, 0xB5D), (0xB5F, 0xB5F), (0xB71, 0xB71), (0xC15, 0xC28), (0xC2A, 0xC39),
  (0xC58, 0xC5A), (0xD15, 0xD3A), (0x1000, 0x102A), (0x103F, 0x103F), (0x1050, 0x1055),
  (0x105A, 0x105D), (0x1061, 0x1061), (0x1065, 0x1066), (0x106E, 0x1070), (0x1075, 0x1081),
  (0x108E, 0x108E), (0x1780, 0x17B3), (0x1A20, 0x1A54), (0x1B0B, 0x1B0C), (0x1B13, 0x1B33),
  (0x1B45, 0x1B4C), (0x1B83, 0x1BA0), (0x1BAE, 0x1BAF), (0x1BBB, 0x1BBD), (0xA989, 0xA98B),
  (0xA98F, 0xA9B2), (0xA9E0, 0xA9E4), (0xA9E7, 0xA9EF), (0xA9FA, 0xA9FE), (0xAA60, 0xAA6F),
  (0xAA71, 0xAA73), (0xAA7A, 0xAA7A), (0xAA7E, 0xAA7F), (0xAAE0, 0xAAEA), (0xABC0, 0xABDA),
  (0x10A00, 0x10A00), (0x10A10, 0x10A13), (0x10A15, 0x10A17), (0x10A19, 0x10A35),
  (0x11103, 0x11126), (0x11144, 0x11144), (0x11147, 0x11147), (0x11380, 0x11389),
  (0x1138B, 0x1138B), (0x1138E, 0x1138E), (0x11390, 0x113B5), (0x11900, 0x11906),
  (0x11909, 0x11909), (0x1190C, 0x11913), (0x11915, 0x11916), (0x11918, 0x1192F),
  (0x11A00, 0x11A00), (0x11A0B, 0x11A32), (0x11A50, 0x11A50), (0x11A5C, 0x11A83),
  (0x11F04, 0x11F10), (0x11F12, 0x11F33)
]

/-- Marks that tie a consonant to the next one. -/
def linkers : Ranges := [
  (0x94D, 0x94D), (0x9CD, 0x9CD), (0xACD, 0xACD), (0xB4D, 0xB4D), (0xC4D, 0xC4D), (0xD4D, 0xD4D),
  (0x1039, 0x1039), (0x17D2, 0x17D2), (0x1A60, 0x1A60), (0x1B44, 0x1B44), (0x1BAB, 0x1BAB),
  (0xA9C0, 0xA9C0), (0xAAF6, 0xAAF6), (0x10A3F, 0x10A3F), (0x11133, 0x11133), (0x113D0, 0x113D0),
  (0x1193E, 0x1193E), (0x11A47, 0x11A47), (0x11A99, 0x11A99), (0x11F42, 0x11F42)
]

/-- How a character behaves where it meets another one. -/
inductive Edge where
  | other
  /-- It stands alone. -/
  | control
  /-- It is written on, or not shown after, the one before it. -/
  | mark
  | joiner
  /-- It is written beside the one before it. -/
  | sideMark
  /-- It belongs to the one after it. -/
  | foreMark
  | indicator
  | leadJamo
  | vowelJamo
  | trailJamo
  | openSyllable
  | closedSyllable
  deriving DecidableEq, Repr

/-- How a character behaves. The Kirat Rai vowel signs behave as the vowels of a Korean syllable. -/
def Edge.ofChar (n : Nat) : Edge :=
  if n < 0x20 || inRanges n controls then .control
  else if n = 0x200D then .joiner
  else if inRanges n extending || isModifier n then .mark
  else if inRanges n spacing then .sideMark
  else if inRanges n leading then .foreMark
  else if isIndicator n then .indicator
  else if isLeadJamo n then .leadJamo
  else if isVowelJamo n || n == 0x16D63 || (0x16D67 ≤ n && n ≤ 0x16D6A) then .vowelJamo
  else if isTrailJamo n then .trailJamo
  else if isOpenSyllable n then .openSyllable
  else if isSyllable n then .closedSyllable
  else .other

/-! ## Borders -/

/-- What stands to the left of a character; by default, nothing. -/
structure Left where
  /-- The last character. -/
  last : Nat := 0
  /-- How it behaves. -/
  edge : Edge := .control
  /-- It is an indicator that is not the second one of a flag. -/
  unpaired : Bool := false
  /-- A pictograph with its marks, and perhaps a joiner, come last. -/
  pictograph : Bool := false
  /-- A consonant with its marks comes last. -/
  consonant : Bool := false
  /-- One of those marks ties the consonant to the next one. -/
  linked : Bool := false
  deriving DecidableEq, Repr

namespace Left

/-- What stands to the left after one more character. -/
def push (l : Left) (n : Nat) : Left :=
  let edge := Edge.ofChar n
  let isMark := edge == .mark || edge == .joiner
  let isConsonant := inRanges n consonants
  let stays := isMark && n != 0x200C && l.consonant
  { last := n
    edge
    unpaired := edge == .indicator && !(l.edge == .indicator && l.unpaired)
    pictograph := inRanges n pictographs || (isMark && l.pictograph && l.edge != .joiner)
    consonant := isConsonant || stays
    linked := !isConsonant && stays && (l.linked || inRanges n linkers) }

/-- A character is in one cluster with what stands to its left. -/
def joins (l : Left) (n : Nat) : Bool :=
  match l.edge, Edge.ofChar n with
  | .control, _ => l.last == 0xD && n == 0xA
  | _, .control => false
  | _, .mark | _, .joiner | _, .sideMark => true
  | .foreMark, _ => true
  | .leadJamo, .leadJamo | .leadJamo, .vowelJamo => true
  | .leadJamo, .openSyllable | .leadJamo, .closedSyllable => true
  | .vowelJamo, .vowelJamo | .openSyllable, .vowelJamo => true
  | .vowelJamo, .trailJamo | .openSyllable, .trailJamo => true
  | .trailJamo, .trailJamo | .closedSyllable, .trailJamo => true
  | .indicator, .indicator => l.unpaired
  | edge, _ =>
    (edge == .joiner && l.pictograph && inRanges n pictographs) ||
      (l.linked && inRanges n consonants)

end Left

/-! ## A text -/

/-- What of a text belongs to the cluster to its left, and the clusters after that. -/
def clustersAfter (l : Left) : List Char → List Char × List (List Char)
  | [] => ([], [])
  | c :: cs =>
    let (own, others) := clustersAfter (l.push c.toNat) cs
    if l.joins c.toNat then (c :: own, others) else ([], (c :: own) :: others)

/-- The clusters of a text. -/
def clusters (s : List Char) : List (List Char) := (clustersAfter {} s).2

end TableShell.Text
