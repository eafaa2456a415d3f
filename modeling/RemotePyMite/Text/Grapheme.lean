import RemotePyMite.Text.Grapheme.Joining
import RemotePyMite.Text.Width.Picture
import RemotePyMite.Text.Width.Zero

/-! # Graphemes

A text falls into graphemes, pieces that a reader takes for one sign.  A line that is too
long is cut only between two of them.  Whether a character goes on with a grapheme is
known by what the grapheme ends with so far.
-/
namespace RemotePyMite.Grapheme

/-- What a grapheme ends with so far, as far as it matters for the character behind it. -/
inductive Ending where
  /-- Nothing that joins what comes. -/
  | plain
  | control
  /-- A sign that stays in front of a character. -/
  | prepended
  | leadingLetter
  /-- A Korean syllable, perhaps not whole yet. -/
  | syllable
  | consonant
  /-- An Indic consonant and the sign that makes a conjunct of it and another one. -/
  | openConjunct
  | picture
  /-- A picture and the joiner behind it. -/
  | boundPicture
  | indicator
  deriving DecidableEq, Repr

/-- Whether a character is a picture, or can be shown as one. -/
def isPicture (c : Char) : Bool :=
  Width.pictures.contains c || 0xA0 < c.toNat && Width.selectable.contains c

/-- Whether a character goes on with any grapheme but a control character. -/
def isMark (c : Char) : Bool :=
  (Width.zero.contains c || marks.contains c) && !prependedSigns.contains c &&
    !laterLetters.contains c

/-- The number of the joiner of pictures. -/
def joiner : Nat := 0x200D

def nonJoiner : Nat := 0x200C

namespace Ending

/-- What a grapheme ends with that consists of one character. -/
def ofChar (c : Char) : Ending :=
  if c.toNat < 0x20 || 0x7F ≤ c.toNat && c.toNat < 0xA0 then .control
  else if prependedSigns.contains c then .prepended
  else if leadingLetters.contains c then .leadingLetter
  else if syllables.contains c || laterLetters.contains c then .syllable
  else if consonants.contains c then .consonant
  else if Width.regionalIndicators.contains c then .indicator
  else if isPicture c then .picture
  else .plain

/-- Whether a character goes on with the grapheme. -/
def joins (ending : Ending) (c : Char) : Bool :=
  match ending with
  | .control => false
  | .plain | .consonant | .picture => isMark c
  | .prepended => isMark c || ofChar c ≠ .control
  | .leadingLetter =>
    isMark c || leadingLetters.contains c || syllables.contains c || laterLetters.contains c
  | .syllable => isMark c || laterLetters.contains c
  | .openConjunct => isMark c || consonants.contains c
  | .boundPicture => isMark c || isPicture c
  | .indicator => isMark c || Width.regionalIndicators.contains c

/-- What the grapheme ends with behind a mark that has joined it. -/
def afterMark (ending : Ending) (c : Char) : Ending :=
  match ending with
  | .picture =>
    if c.toNat = joiner then .boundPicture
    else if Width.zero.contains c || Width.skinTones.contains c then .picture
    else .plain
  | .consonant =>
    if conjunctSigns.contains c then .openConjunct
    else if Width.zero.contains c && c.toNat ≠ nonJoiner then .consonant
    else .plain
  | .openConjunct =>
    if Width.zero.contains c && c.toNat ≠ nonJoiner then .openConjunct else .plain
  | _ => .plain

/-- What the grapheme ends with behind one more character, be it the same grapheme or the
next one. -/
def next (ending : Ending) (c : Char) : Ending :=
  if isMark c then ending.afterMark c
  else if ending = .indicator && Width.regionalIndicators.contains c then .plain
  else ofChar c

end Ending

def divide : Ending → List Char → List Char × List (List Char)
  | _, [] => ([], [])
  | ending, c :: rest =>
    let (own, more) := divide (ending.next c) rest
    if ending.joins c then (c :: own, more) else ([], (c :: own) :: more)

def split : List Char → List (List Char)
  | [] => []
  | c :: rest =>
    let (own, more) := divide (.ofChar c) rest
    (c :: own) :: more

theorem append_flatten_divide (ending : Ending) (text : List Char) :
    (divide ending text).1 ++ (divide ending text).2.flatten = text := by
  induction text generalizing ending with
  | nil => rfl
  | cons c rest ih =>
    unfold divide
    dsimp only
    split <;> simp [ih]

/-- The graphemes of a text, put together, are the text. -/
theorem flatten_split (text : List Char) : (split text).flatten = text := by
  cases text with
  | nil => rfl
  | cons c rest => simp [split, append_flatten_divide]

end RemotePyMite.Grapheme
