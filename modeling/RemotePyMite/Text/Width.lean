import RemotePyMite.Text.Width.Cluster

/-! # Columns of a text

How many columns of a character grid a text takes.  A character alone takes none, one or
two, one of them three; control characters take one.  Behind a character may stand
selectors that say how it is shown, or a cluster that it joins.
-/
namespace RemotePyMite.Width

/-- A character without a picture of its own that chooses one for the character in front
of it. -/
inductive Selector where
  | text
  | picture
  /-- The form of a quotation mark that is as wide as the writing of East Asia. -/
  | wide
  deriving DecidableEq, Repr

/-- The selector that a character is. -/
def Selector.ofChar? (c : Char) : Option Selector :=
  match c.toNat with
  | 0xFE01 => some .wide
  | 0xFE0E => some .text
  | 0xFE0F => some .picture
  | _ => none

/-- The selectors in front of a cluster.  Only a ligature keeps more than one. -/
structure Selection where
  text : Bool
  picture : Bool
  wide : Bool
  deriving DecidableEq, Repr

namespace Selection

def none : Selection := ⟨false, false, false⟩

def add (s : Selection) : Selector → Selection
  | .text => { s with text := true }
  | .picture => { s with picture := true }
  | .wide => { s with wide := true }

end Selection

/-- What stands behind a character: selectors, and the cluster behind them. -/
structure Ahead where
  cluster : Cluster
  selection : Selection
  deriving DecidableEq, Repr

namespace Ahead

def ofCluster (cluster : Cluster) : Ahead := ⟨cluster, .none⟩

/-- A selector for a picture that does not apply is passed over.  A ligature goes on behind
it, and all else ends there. -/
def dropPicture (a : Ahead) : Ahead :=
  if a.selection.picture then
    if a.cluster.skipsSelectors then
      { a with selection := { a.selection with picture := false } }
    else .ofCluster .plain
  else a

/-- A selector in front of what stands behind. -/
def select (a : Ahead) (selector : Selector) : Ahead :=
  if a.cluster.skipsSelectors ∨ (selector = .picture ∧ a.cluster.bindsPicture) then
    ⟨a.cluster, a.selection.add selector⟩
  else ⟨.plain, Selection.none.add selector⟩

end Ahead

/-- The columns of one character alone. -/
def ofChar (c : Char) : Nat :=
  if c.toNat = 0x17D8 then 3
  else if zero.contains c then 0
  else if wide.contains c then 2
  else 1

/-- The greatest number of a character that is always one column wide. -/
def lastPlain : Nat := 0xA0

/-- The columns that a control character or a sign of the plainest scripts adds: one, but
none for a carriage return in front of a line feed. -/
def addPlain (c : Char) (cluster : Cluster) : Int × Ahead :=
  if c = '\n' then (1, .ofCluster .lineFeed)
  else if c = '\r' ∧ cluster = .lineFeed then (0, .ofCluster .plain)
  else (1, .ofCluster .plain)

/-- The columns that a character adds to the cluster behind it. -/
def addJoined (c : Char) (cluster : Cluster) : Int × Ahead :=
  match cluster.join? c with
  | some (columns, joined) => (columns, .ofCluster joined)
  | none => (ofChar c, .ofCluster (.ofChar c))

/-- The columns that a character adds where no selector makes it a picture. -/
def addUnpictured (c : Char) (a : Ahead) : Int × Ahead :=
  if c.toNat ≤ lastPlain then addPlain c a.cluster
  else
    match Selector.ofChar? c with
    | some selector => (0, a.select selector)
    | none =>
      if a.selection.text && textual.contains c then (1, .ofCluster .plain)
      else if a.selection.wide && quotationMarks.contains c then (2, .ofCluster .plain)
      else addJoined c a.cluster

/-- The columns that a character adds to what stands behind it. -/
def add (c : Char) (a : Ahead) : Int × Ahead :=
  if a.selection.picture && selectable.contains c then
    (if a.cluster.bindsPicture then 0 else 2, .ofCluster .picture)
  else addUnpictured c a.dropPicture

def ofText (text : List Char) : Nat :=
  (text.foldr (fun c (columns, a) =>
    let (more, a) := add c a
    (columns + more, a)) ((0 : Int), Ahead.ofCluster .plain)).1.toNat

end RemotePyMite.Width
