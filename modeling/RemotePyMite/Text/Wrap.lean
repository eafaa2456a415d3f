import RemotePyMite.Text.Grapheme
import RemotePyMite.Text.Separated
import RemotePyMite.Text.Width

/-! # Lines that are too wide

A line that does not fit into a width is set anew in several lines that do.  It is parted
at its blanks as far as possible, and a word that is wider than a line is cut between two
graphemes.  Nothing but blanks gets lost.
-/
namespace RemotePyMite.Wrap

/-- The graphemes that fit into `room` columns, and those behind them. -/
def fitting : Nat → List (List Char) → List Char × List Char
  | _, [] => ([], [])
  | room, grapheme :: rest =>
    let columns := Width.ofText grapheme
    if columns ≤ room then
      let (front, back) := fitting (room - columns) rest
      (grapheme ++ front, back)
    else ([], grapheme ++ rest.flatten)

theorem fitting_append (room : Nat) (graphemes : List (List Char)) :
    (fitting room graphemes).1 ++ (fitting room graphemes).2 = graphemes.flatten := by
  induction graphemes generalizing room with
  | nil => rfl
  | cons grapheme rest ih =>
    unfold fitting
    dsimp only
    split <;> simp [ih]

/-- The front of a word that fits into `room` columns, and the rest of it. -/
def cut (room : Nat) (word : List Char) : List Char × List Char :=
  fitting room (Grapheme.split word)

theorem cut_append (room : Nat) (word : List Char) :
    (cut room word).1 ++ (cut room word).2 = word := by
  rw [cut, fitting_append, Grapheme.flatten_split]

/-- The same, but at least one character is taken. -/
def cutSome (room : Nat) (word : List Char) : List Char × List Char :=
  match cut room word with
  | ([], c :: rest) => ([c], rest)
  | parts => parts

theorem length_cutSome_lt {room : Nat} {word : List Char} (h : word ≠ []) :
    (cutSome room word).2.length < word.length := by
  have hcut := congrArg List.length (cut_append room word)
  have hpos := List.length_pos_iff.mpr h
  unfold cutSome
  split
  · next c rest heq =>
    simp only [heq, List.nil_append, List.length_cons] at hcut
    exact Nat.lt_of_lt_of_eq (Nat.lt_succ_self _) hcut
  · next hne =>
    match heq : cut room word with
    | ([], []) => simp only [heq, List.nil_append, List.length_nil] at hcut; omega
    | ([], c :: rest) => exact absurd heq (hne c rest)
    | (c :: front, back) =>
      simp only [heq, List.length_append, List.length_cons] at hcut ⊢
      omega

/-- A text as far as it is set. -/
structure Setting where
  done : List (List Char)
  /-- The line that is being filled, its last character first. -/
  line : List Char
  columns : Nat

namespace Setting

def start : Setting := ⟨[], [], 0⟩

def endLine (s : Setting) : Setting :=
  ⟨s.line.reverse :: s.done, [], 0⟩

/-- The columns that are too few to go on with a line. -/
def leastRoom : Nat := 2

/-- The line is done if there is hardly any room left in it. -/
def endFullLine (width : Nat) (s : Setting) : Setting :=
  if width - leastRoom < s.columns then s.endLine else s

/-- A word of so many columns on a line of its own; what is too wide for it goes to the
lines that follow. -/
def putFirst (width : Nat) (done : List (List Char)) (word : List Char) : Setting :=
  if _h : width < Width.ofText word then
    putFirst width ((cutSome width word).1 :: done) (cutSome width word).2
  else endFullLine width ⟨done, word.reverse, Width.ofText word⟩
termination_by word.length
decreasing_by
  refine length_cutSome_lt fun hnil => ?_
  subst hnil
  simp [Width.ofText] at _h

/-- A blank and a word at the end of the line. -/
def append (s : Setting) (word : List Char) (columns : Nat) : Setting :=
  ⟨s.done, word.reverse ++ ' ' :: s.line, s.columns + 1 + columns⟩

/-- The next word.  It goes to the end of the line if it fits there.  If not even a whole
line has room for it, it fills what is left of this line. -/
def put (width : Nat) (s : Setting) (word : List Char) : Setting :=
  let columns := Width.ofText word
  let room := width - s.columns - 1
  if s.line.isEmpty then putFirst width s.done word
  else if s.columns + 1 + columns ≤ width then (s.append word columns).endFullLine width
  else if columns ≤ width ∨ room ≤ leastRoom then putFirst width s.endLine.done word
  else
    let (front, back) := cut room word
    putFirst width (s.append front 0).endLine.done back

def lines (s : Setting) : List (List Char) :=
  (if s.line.isEmpty then s.done else s.endLine.done).reverse

end Setting

/-- The lines of a line in a width. -/
def lines (width : Nat) (line : List Char) : List (List Char) :=
  if Width.ofText line ≤ width then [line]
  else ((Separated.parts ' ' line).foldl (Setting.put width) .start).lines

end RemotePyMite.Wrap
