import RemotePyMite.Text.Width.Letter
import RemotePyMite.Text.Width.Picture
import RemotePyMite.Text.Width.Wide
import RemotePyMite.Text.Width.Zero

/-! # Clusters

Some characters are drawn as one with those behind them: letters join to ligatures, people
get a tone of skin, several pictures become one.  A text is therefore measured from its
end.  What stands behind a character is known by the cluster it begins, and a character
that joins it adds fewer columns than it has alone, or takes some back.
-/
namespace RemotePyMite.Width

/-- What begins behind a character, as far as the character may join it.  A letter or a
picture is `bound` if a joiner stands in front of it. -/
inductive Cluster where
  /-- Nothing to join. -/
  | plain
  | lineFeed
  /-- An Arabic alef, perhaps with marks in front of it. -/
  | alef
  /-- A Hebrew lamed. -/
  | lamed (bound : Bool)
  /-- A Buginese ya. -/
  | ya (bound : Bool)
  /-- A Buginese vowel sign and the bound ya behind it. -/
  | vowelYa
  | consonant (bound : Bool)
  /-- The joiner of Tifinagh and the consonant behind it. -/
  | joinedConsonant
  /-- An Old Turkic letter that ends a ligature. -/
  | orkhonI (bound : Bool)
  | toneLetter
  /-- A Khmer letter that may be written below another one. -/
  | subscript
  /-- A Kirat Rai vowel sign, single. -/
  | vowelE
  /-- A Kirat Rai vowel sign, doubled. -/
  | vowelAi
  | skinTone
  | indicator
  | indicators
  | picture
  /-- A picture and the joiner in front of it. -/
  | boundPicture
  /-- The frame of a key that is bound to a picture. -/
  | boundKey
  /-- Letters of flags that are bound to a picture: only one, or else an even or an odd
  number. -/
  | boundIndicator
  | boundPairs
  | boundOdd
  /-- The end of the name of a region, which is bound to a picture: so many letters, and
  in front of them so many digits. -/
  | region (letters digits : Nat)
  deriving DecidableEq, Repr

namespace Cluster

def skipsMarks : Cluster → Bool
  | .lamed _ | .ya _ | .vowelYa | .consonant _ | .joinedConsonant | .orkhonI _ | .toneLetter
  | .subscript => true
  | _ => false

/-- Whether a selector leaves the ligature as it is. -/
def skipsSelectors (cluster : Cluster) : Bool :=
  cluster = .alef || cluster.skipsMarks

/-- Whether the cluster is bound, by the joiner in front of it, to become one with a
picture that a selector makes. -/
def bindsPicture : Cluster → Bool
  | .boundPicture | .boundKey => true
  | _ => false

/-- The number of the joiner. -/
def joiner : Nat := 0x200D

/-- The same with a joiner in front of it. -/
def bind : Cluster → Cluster
  | .lamed _ => .lamed true
  | .ya _ => .ya true
  | .consonant _ => .consonant true
  | .orkhonI _ => .orkhonI true
  | cluster => cluster

/-- The cluster that a character begins alone. -/
def ofChar (c : Char) : Cluster :=
  match c.toNat with
  | 0x05DC => .lamed false
  | 0x1A10 => .ya false
  | 0x10C03 => .orkhonI false
  | 0x16D67 => .vowelE
  | 0x16D68 => .vowelAi
  | _ =>
    if alefs.contains c then .alef
    else if subscripts.contains c then .subscript
    else if consonants.contains c then .consonant false
    else if lastToneLetters.contains c then .toneLetter
    else if regionalIndicators.contains c then .indicator
    else if skinTones.contains c then .skinTone
    else if pictures.contains c then .picture
    else .plain

/-- The name of a region with one more character `c` in front, or the black flag that it
is the name for: three to six letters, or three digits and at most four letters. -/
def joinRegion (letters digits : Nat) (c : Char) : Option Cluster :=
  if tagLetters.contains c then
    if digits = 0 ∧ letters < 6 then some (.region (letters + 1) 0) else none
  else if tagDigits.contains c then
    if digits = 0 ∧ letters ≤ 4 ∨ 0 < digits ∧ digits < 3 then
      some (.region letters (digits + 1))
    else none
  else if c.toNat = 0x1F3F4 ∧ (digits = 0 ∧ 3 ≤ letters ∨ digits = 3) then some .picture
  else none

/-- What a picture that is bound joins. -/
def joinPicture (c : Char) : Option (Int × Cluster) :=
  if c.toNat = 0x20E3 then some (0, .boundKey)
  else if c.toNat = 0xE007F then some (0, .region 0 0)
  else if regionalIndicators.contains c then some (1, .boundIndicator)
  else if skinTones.contains c then some (0, .skinTone)
  else if pictures.contains c then some (0, .picture)
  else none

/-- A character that joins the cluster behind it: the columns it adds, and the cluster it
then begins. -/
def join? (cluster : Cluster) (c : Char) : Option (Int × Cluster) :=
  if cluster.skipsMarks && c.toNat = joiner then some (0, cluster.bind)
  else if cluster.skipsMarks && ignorableMarks.contains c then some (0, cluster)
  else
    match cluster, c.toNat with
    | .lamed true, 0x05D0 => some (0, .plain)
    | .ya true, 0x1A17 => some (0, .vowelYa)
    | .vowelYa, 0x1A15 => some (0, .plain)
    | .orkhonI true, 0x10C32 => some (0, .plain)
    | .subscript, 0x17D2 => some (-1, .plain)
    | .consonant _, 0x2D7F => some (1, .joinedConsonant)
    | .vowelE, 0x16D63 | .vowelE, 0x16D69 | .vowelAi, 0x16D63 => some (0, .plain)
    | .vowelE, 0x16D67 => some (0, .vowelAi)
    | .vowelE, 0x16D68 => some (1, .vowelE)
    | .picture, 0x200D | .skinTone, 0x200D | .indicators, 0x200D | .boundPairs, 0x200D
    | .boundOdd, 0x200D => some (0, .boundPicture)
    | .boundPicture, _ => joinPicture c
    | .region letters digits, _ => (joinRegion letters digits c).map (0, ·)
    | .alef, _ =>
      if lams.contains c then some (0, .plain)
      else if zero.contains c && !unjoining.contains c then some (0, .alef)
      else none
    | .consonant true, _ => if consonants.contains c then some (0, .plain) else none
    | .joinedConsonant, _ => if consonants.contains c then some (-1, .plain) else none
    | .toneLetter, _ => if toneLetters.contains c then some (0, .plain) else none
    | .skinTone, _ => if skinBases.contains c then some (0, .picture) else none
    | .indicator, _ | .indicators, _ =>
      if regionalIndicators.contains c then some (1, .indicators) else none
    | .boundIndicator, _ | .boundOdd, _ =>
      if regionalIndicators.contains c then some (-1, .boundPairs) else none
    | .boundPairs, _ => if regionalIndicators.contains c then some (3, .boundOdd) else none
    | _, _ => none

end Cluster

end RemotePyMite.Width
