import TableShell.Text.Emoji
import TableShell.Text.Marks

/-!
# The width of a text in a terminal

A character by itself takes two columns if it is wide or full-width by its `East_Asian_Width`, no
column if it belongs to a neighbour or is not shown, and one column otherwise (`columns`). In a
text, some sequences of characters are shown as one: emoji with a selector, a modifier or joiners,
and the ligatures of some scripts. So a text is read from its end: at every character it is known
what stands after it, as far as that matters (`Follower`), and so how much wider the character makes
the text (`Reading.before`).

Up to U+00A0 a character takes one column and what stands before it is read afresh.
-/

namespace TableShell.Text

/-! ## A character by itself -/

/-- Characters of two columns. -/
def wide : Ranges := [
  (0x1100, 0x115F), (0x231A, 0x231B), (0x2329, 0x232A), (0x23E9, 0x23EC), (0x23F0, 0x23F0),
  (0x23F3, 0x23F3), (0x25FD, 0x25FE), (0x2614, 0x2615), (0x2630, 0x2637), (0x2648, 0x2653),
  (0x267F, 0x267F), (0x268A, 0x268F), (0x2693, 0x2693), (0x26A1, 0x26A1), (0x26AA, 0x26AB),
  (0x26BD, 0x26BE), (0x26C4, 0x26C5), (0x26CE, 0x26CE), (0x26D4, 0x26D4), (0x26EA, 0x26EA),
  (0x26F2, 0x26F3), (0x26F5, 0x26F5), (0x26FA, 0x26FA), (0x26FD, 0x26FD), (0x2705, 0x2705),
  (0x270A, 0x270B), (0x2728, 0x2728), (0x274C, 0x274C), (0x274E, 0x274E), (0x2753, 0x2755),
  (0x2757, 0x2757), (0x2795, 0x2797), (0x27B0, 0x27B0), (0x27BF, 0x27BF), (0x2B1B, 0x2B1C),
  (0x2B50, 0x2B50), (0x2B55, 0x2B55), (0x2E80, 0x2E99), (0x2E9B, 0x2EF3), (0x2F00, 0x2FD5),
  (0x2FF0, 0x303E), (0x3041, 0x3096), (0x309B, 0x30FF), (0x3105, 0x312F), (0x3131, 0x318E),
  (0x3190, 0x31E5), (0x31EF, 0x321E), (0x3220, 0x3247), (0x3250, 0xA48C), (0xA490, 0xA4C6),
  (0xA960, 0xA97C), (0xAC00, 0xD7A3), (0xF900, 0xFAFF), (0xFE10, 0xFE19), (0xFE30, 0xFE52),
  (0xFE54, 0xFE66), (0xFE68, 0xFE6B), (0xFF01, 0xFF60), (0xFFE0, 0xFFE6), (0x16FE0, 0x16FE3),
  (0x16FF2, 0x16FF6), (0x17000, 0x18CDA), (0x18CFF, 0x18D20), (0x18D80, 0x18DF2),
  (0x18E00, 0x19191), (0x191A0, 0x191D2), (0x1AFF0, 0x1AFF3), (0x1AFF5, 0x1AFFB),
  (0x1AFFD, 0x1AFFE), (0x1B000, 0x1B128), (0x1B132, 0x1B132), (0x1B150, 0x1B152),
  (0x1B155, 0x1B155), (0x1B164, 0x1B168), (0x1B170, 0x1B2FB), (0x1D300, 0x1D356),
  (0x1D360, 0x1D376), (0x1F004, 0x1F004), (0x1F0CF, 0x1F0CF), (0x1F18E, 0x1F18E),
  (0x1F191, 0x1F19A), (0x1F1AE, 0x1F1AE), (0x1F200, 0x1F202), (0x1F210, 0x1F23B),
  (0x1F240, 0x1F248), (0x1F250, 0x1F251), (0x1F260, 0x1F265), (0x1F300, 0x1F320),
  (0x1F32D, 0x1F335), (0x1F337, 0x1F37C), (0x1F37E, 0x1F393), (0x1F3A0, 0x1F3CA),
  (0x1F3CF, 0x1F3D3), (0x1F3E0, 0x1F3F0), (0x1F3F4, 0x1F3F4), (0x1F3F8, 0x1F43E),
  (0x1F440, 0x1F440), (0x1F442, 0x1F4FC), (0x1F4FF, 0x1F53D), (0x1F54B, 0x1F54E),
  (0x1F550, 0x1F567), (0x1F57A, 0x1F57A), (0x1F595, 0x1F596), (0x1F5A4, 0x1F5A4),
  (0x1F5FB, 0x1F64F), (0x1F680, 0x1F6C5), (0x1F6CC, 0x1F6CC), (0x1F6D0, 0x1F6D2),
  (0x1F6D5, 0x1F6D9), (0x1F6DC, 0x1F6DF), (0x1F6EB, 0x1F6EC), (0x1F6F4, 0x1F6FC),
  (0x1F7DA, 0x1F7DA), (0x1F7E0, 0x1F7EB), (0x1F7F0, 0x1F7F0), (0x1F90C, 0x1F93A),
  (0x1F93C, 0x1F945), (0x1F947, 0x1F9FF), (0x1FA70, 0x1FA7C), (0x1FA80, 0x1FAC6),
  (0x1FAC8, 0x1FAC8), (0x1FACC, 0x1FADD), (0x1FADF, 0x1FAEB), (0x1FAEF, 0x1FAFA),
  (0x20000, 0x2FFFD), (0x30000, 0x3FFFD)
]

/-- Marks that take no column, although no cluster goes on with them. -/
def bareMarks : Ranges := [
  (0x5C8, 0x5C9), (0xB53, 0xB54), (0x1ADE, 0x1ADF), (0x1AEC, 0x1AF0), (0x10ECB, 0x10ECF),
  (0x10EF0, 0x10EF9), (0x11DF0, 0x11DF0), (0x1D127, 0x1D128), (0x1D250, 0x1D252),
  (0x1D255, 0x1D25C), (0x1D25F, 0x1D25F), (0x1D280, 0x1D281)
]

/-- Signs over a number, or before a number or a word, that are shown in columns of their own. -/
def shownSigns : Ranges := [(0x600, 0x604), (0x6DD, 0x6DD), (0x110BD, 0x110BD), (0x110CD, 0x110CD)]

/-- The character takes no column. -/
def isZeroWidth (n : Nat) : Bool :=
  (inRanges n extending && n != 0x2D7F && n != 0xFF9E && n != 0xFF9F) || inRanges n bareMarks ||
    (inRanges n hidden && n != 0x115F) || isVowelJamo n || isTrailJamo n ||
    (inRanges n leading && !inRanges n shownSigns) || n == 0xA8FA

/-- The columns that a character takes by itself. -/
def columns (n : Nat) : Nat :=
  if n < 0xAD then 1
  else if n = 0x17D8 then 3
  else if n = 0x17A4 then 2
  else if isZeroWidth n then 0
  else if inRanges n wide then 2
  else 1

/-! ## What stands after a character -/

/-- A letter, or part of a word, that is written in one column with what stands before it. -/
inductive Partner where
  /-- The Hebrew letter lamed, after alef. -/
  | lamed
  /-- The Buginese letter ya, after the vowel sign i. -/
  | ya
  /-- The same after that vowel sign. -/
  | vowelAndYa
  /-- A Tifinagh consonant, after another one. -/
  | consonant
  /-- The same after the consonant joiner. -/
  | joinerAndConsonant
  /-- A Lisu tone letter, after another one. -/
  | tone
  /-- The Old Turkic letter i, after the letter it is tied to. -/
  | turkicI
  /-- A Khmer letter, written below the line after the sign for that. -/
  | subscript
  deriving DecidableEq, Repr

/-- What stands after a character, as far as their common width depends on it. -/
inductive Follower where
  /-- Nothing that matters. -/
  | plain
  /-- A modifier of the skin tone. -/
  | modifier
  /-- One regional indicator. -/
  | indicator
  /-- More than one regional indicator. -/
  | indicators
  /-- An emoji. -/
  | emoji
  /-- A joiner before an emoji. -/
  | joined
  /-- An enclosing keycap before such a joiner. -/
  | joinedKeycap
  /-- So many regional indicators before such a joiner. -/
  | joinedIndicators (count : Nat)
  /-- The end of a tag sequence before such a joiner, with so many letters or digits before it. -/
  | joinedTags (letters digits : Nat)
  /-- The Arabic letter alef. -/
  | alef
  /-- A letter that may be written with the one before it, and whether a joiner ties it to that. -/
  | letter (partner : Partner) (tied : Bool)
  /-- The Kirat Rai vowel sign e. -/
  | vowelE
  /-- The Kirat Rai vowel sign ai. -/
  | vowelAi
  deriving DecidableEq, Repr

/-- A variation selector. -/
inductive Selector where
  /-- It asks for text. -/
  | text
  /-- It asks for an emoji. -/
  | emoji
  /-- It asks for a quotation mark of two columns. -/
  | wide
  deriving DecidableEq, Repr

/-- The variation selector that a character is. -/
def Selector.ofChar? (n : Nat) : Option Selector :=
  if n = 0xFE01 then some .wide
  else if n = 0xFE0E then some .text
  else if n = 0xFE0F then some .emoji
  else none

/-! ## The letters of ligatures -/

/-- The letters of the Arabic joining group lam. -/
def lams : Ranges :=
  [(0x644, 0x644), (0x6B5, 0x6B8), (0x76A, 0x76A), (0x8A6, 0x8A6), (0x8C7, 0x8C7)]

/-- The letters of the Arabic joining group alef. -/
def alefs : Ranges := [
  (0x622, 0x623), (0x625, 0x625), (0x627, 0x627), (0x671, 0x673), (0x675, 0x675), (0x773, 0x774),
  (0x870, 0x882)
]

/-- The Khmer letters that are written below the line. -/
def subscripts : Ranges := [
  (0x1780, 0x1782), (0x1784, 0x1787), (0x1789, 0x178C), (0x178E, 0x1793), (0x1795, 0x1798),
  (0x179B, 0x179D), (0x17A0, 0x17A0), (0x17A2, 0x17A2), (0x17A7, 0x17A7), (0x17AB, 0x17AC),
  (0x17AF, 0x17AF)
]

/-- The Tifinagh consonants that form one letter with another. -/
def biconsonants : Ranges := [(0x2D31, 0x2D65), (0x2D6F, 0x2D6F)]

/-- Marks of no shape of their own, which may stand inside a ligature. -/
def shapeless : Ranges := [
  (0x34F, 0x34F), (0x17B4, 0x17B5), (0x180B, 0x180D), (0x180F, 0x180F), (0xFE00, 0xFE0F),
  (0xE0100, 0xE01EF)
]

/-- Characters of no column that letters are not joined across. -/
def unjoined : Ranges := [
  (0x605, 0x605), (0x890, 0x891), (0x8E2, 0x8E2), (0x9BE, 0x9BE), (0x9D7, 0x9D7), (0xB3E, 0xB3E),
  (0xB57, 0xB57), (0xBBE, 0xBBE), (0xBD7, 0xBD7), (0xCC0, 0xCC0), (0xCC2, 0xCC2), (0xCC7, 0xCC8),
  (0xCCA, 0xCCB), (0xCD5, 0xCD6), (0xD3E, 0xD3E), (0xD4E, 0xD4E), (0xD57, 0xD57), (0xDCF, 0xDCF),
  (0xDDF, 0xDDF), (0x1160, 0x11FF), (0x1715, 0x1715), (0x1734, 0x1734), (0x180E, 0x180E),
  (0x1B35, 0x1B35), (0x1B3B, 0x1B3B), (0x1B3D, 0x1B3D), (0x1B43, 0x1B44), (0x1BAA, 0x1BAA),
  (0x1BF2, 0x1BF3), (0x200C, 0x200D), (0x2065, 0x2069), (0x302E, 0x302F), (0x3164, 0x3164),
  (0xA8FA, 0xA8FA), (0xA953, 0xA953), (0xA9C0, 0xA9C0), (0xD7B0, 0xD7C6), (0xD7CB, 0xD7FB),
  (0xFFA0, 0xFFA0), (0xFFF0, 0xFFF8), (0x111C0, 0x111C0), (0x111C2, 0x111C3), (0x11235, 0x11235),
  (0x1133E, 0x1133E), (0x1134D, 0x1134D), (0x11357, 0x11357), (0x113B8, 0x113B8),
  (0x113C2, 0x113C2), (0x113C5, 0x113C5), (0x113C7, 0x113C9), (0x113CF, 0x113CF),
  (0x113D1, 0x113D1), (0x114B0, 0x114B0), (0x114BD, 0x114BD), (0x115AF, 0x115AF),
  (0x116B6, 0x116B6), (0x11930, 0x11930), (0x1193D, 0x1193D), (0x1193F, 0x1193F),
  (0x11941, 0x11941), (0x11A84, 0x11A89), (0x11D46, 0x11D46), (0x11F02, 0x11F02),
  (0x11F41, 0x11F41), (0x16FF0, 0x16FF1), (0x1D165, 0x1D166), (0x1D16D, 0x1D172),
  (0xE0000, 0xE0000), (0xE0002, 0xE001F), (0xE0080, 0xE00FF), (0xE01F0, 0xE0FFF)
]

/-- The character may stand between an Arabic lam and alef that are written as one. -/
def isJoinedAcross (n : Nat) : Bool := isZeroWidth n && !inRanges n unjoined

/-- A quotation mark that has a form of two columns. -/
def isQuote (n : Nat) : Bool := n == 0x2018 || n == 0x2019 || n == 0x201C || n == 0x201D

/-! ## Together with what stands after it -/

namespace Follower

/-- What a character is to the one before it, whatever stands after it. -/
def ofChar (n : Nat) : Follower :=
  if n = 0x5DC then .letter .lamed false
  else if n = 0x1A10 then .letter .ya false
  else if n = 0xA4FC ∨ n = 0xA4FD then .letter .tone false
  else if n = 0x10C03 then .letter .turkicI false
  else if n = 0x16D67 then .vowelE
  else if n = 0x16D68 then .vowelAi
  else if inRanges n alefs then .alef
  else if inRanges n subscripts then .letter .subscript false
  else if inRanges n biconsonants then .letter .consonant false
  else if isIndicator n then .indicator
  else if isModifier n then .modifier
  else if inRanges n presented then .emoji
  else .plain

/-- A ligature may still come about. -/
def isLetter : Follower → Bool
  | alef | letter .. => true
  | _ => false

/-- A joiner, or a keycap before it, ties an emoji to what comes before. -/
def isJoined : Follower → Bool
  | joined | joinedKeycap => true
  | _ => false

/-- What remains of it when a variation selector comes before it. -/
def behind (f : Follower) (s : Selector) : Follower :=
  if f.isLetter || (f.isJoined && s = .emoji) then f else .plain

/-- What remains of it when the character before it has no use for the selector in between. -/
def past (f : Follower) : Option Selector → Follower
  | some .emoji => if f.isJoined then .plain else f
  | _ => f

/-- The width from a character on that is shown as one with a letter of a ligature after it. -/
def ligature? (n width : Nat) (tied : Bool) : Partner → Option (Nat × Follower)
  | .lamed => if tied && n == 0x5D0 then some (width, plain) else none
  | .ya => if tied && n == 0x1A17 then some (width, letter .vowelAndYa true) else none
  | .vowelAndYa => if n = 0x1A15 then some (width, plain) else none
  | .consonant =>
    if n = 0x2D7F then some (width + 1, letter .joinerAndConsonant true)
    else if tied && inRanges n biconsonants then some (width, plain) else none
  | .joinerAndConsonant => if inRanges n biconsonants then some (width - 1, plain) else none
  | .tone => if 0xA4F8 ≤ n ∧ n ≤ 0xA4FB then some (width, plain) else none
  | .turkicI => if tied && n == 0x10C32 then some (width, plain) else none
  | .subscript => if n = 0x17D2 then some (width - 1, plain) else none

/-- The width from a character on that is tied to an emoji by a joiner. -/
def tiedEmoji? (n width : Nat) : Option (Nat × Follower) :=
  if n = 0x20E3 then some (width, joinedKeycap)
  else if n = 0xE007F then some (width, joinedTags 0 0)
  else if isIndicator n then some (width + 1, joinedIndicators 1)
  else if isModifier n then some (width, modifier)
  else if inRanges n presented then some (width, emoji)
  else none

/-- The width from a tag on. The tags of a flag are two letters or three digits for a region and
others for a part of it; the black flag stands before them. -/
def tiedTag? (n width letters digits : Nat) : Option (Nat × Follower) :=
  if isTagLetter n && digits == 0 && letters < 6 then some (width, joinedTags (letters + 1) 0)
  else if isTagDigit n && digits < 3 && letters < 5 then some (width, joinedTags 0 (digits + 1))
  else if n == 0x1F3F4 && (3 ≤ letters || digits == 3) then some (width, emoji)
  else none

/-- The width from a character on that is shown as one with what stands after it, if the two go
together. -/
def together? (n width : Nat) : Follower → Option (Nat × Follower)
  | plain | joinedKeycap => none
  | modifier =>
    if inRanges n modified then some (width, emoji)
    else if n = 0x200D then some (width, joined) else none
  | indicator => if isIndicator n then some (width + 1, indicators) else none
  | indicators =>
    if isIndicator n then some (width + 1, indicators)
    else if n = 0x200D then some (width, joined) else none
  | emoji => if n = 0x200D then some (width, joined) else none
  | joined => tiedEmoji? n width
  | joinedIndicators count =>
    if isIndicator n then
      some (if count % 2 = 1 then width - 1 else width + 3, joinedIndicators (count + 1))
    else if n = 0x200D ∧ 2 ≤ count then some (width, joined) else none
  | joinedTags letters digits => tiedTag? n width letters digits
  | alef =>
    if inRanges n lams then some (width, plain)
    else if isJoinedAcross n then some (width, alef) else none
  | letter partner tied =>
    if n = 0x200D then some (width, letter partner true)
    else if inRanges n shapeless then some (width, letter partner tied)
    else ligature? n width tied partner
  | vowelE =>
    if n = 0x16D63 ∨ n = 0x16D69 then some (width, plain)
    else if n = 0x16D67 then some (width, vowelAi)
    else if n = 0x16D68 then some (width + 1, vowelE) else none
  | vowelAi => if n = 0x16D63 then some (width, plain) else none

end Follower

/-! ## A text -/

/-- What has been read of a text from its end. -/
structure Reading where
  /-- The columns so far. -/
  width : Nat := 0
  /-- What is next to a character that comes before it. -/
  next : Follower := .plain
  /-- The selector that stands before that. -/
  selector : Option Selector := none
  deriving DecidableEq, Repr

/-- Reads the character before what has been read. -/
def Reading.before (c : Char) (r : Reading) : Reading :=
  let n := c.toNat
  let next := r.next.past r.selector
  if r.selector == some .emoji && inRanges n varied then
    { width := if r.next.isJoined then r.width else r.width + 2, next := .emoji }
  else if n ≤ 0xA0 then { width := r.width + 1 }
  else if let some s := Selector.ofChar? n then
    { width := r.width, next := next.behind s, selector := some s }
  else if r.selector == some .text && isTextBase n then { width := r.width + 1 }
  else if r.selector == some .wide && isQuote n then { width := r.width + 2 }
  else match next.together? n r.width with
    | some (width, next) => { width, next }
    | none => { width := r.width + columns n, next := .ofChar n }

/-- The columns that a text takes. -/
def width (s : List Char) : Nat := (s.foldr Reading.before {}).width

end TableShell.Text
