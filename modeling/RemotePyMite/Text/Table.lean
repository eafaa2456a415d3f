import RemotePyMite.Text.Wrap

/-! # Boxed tables

A header and rows of cells between ruled lines.  Every column is as wide as the widest
line of its cells, with a blank on either side; a cell of several lines makes its row
that many lines high.  Widths are counted to a limit, and a line beyond it is set in
several lines.
-/
namespace RemotePyMite

/-- A table: one title for each column, and rows of as many cells. -/
structure Table where
  header : List String
  rows : List (List String)

namespace Table

/-- The lines of a cell, which is cut at its line feeds. -/
def cellLines (cell : String) : List (List Char) :=
  Separated.parts '\n' cell.toList

/-- The greatest width that is counted. -/
def maxWidth : Nat := UInt16.size - 1

/-- The columns a cell needs, as far as they are counted. -/
def cellWidth (cell : String) : Nat :=
  min maxWidth (((cellLines cell).map Width.ofText).foldl max 0)

/-- The wider of two widths for each column. -/
def widest : List Nat → List Nat → List Nat
  | a :: as, b :: bs => max a b :: widest as bs
  | [], bs => bs
  | as, [] => as

def widths (table : Table) : List Nat :=
  ((table.header :: table.rows).map (·.map cellWidth)).foldl widest []

/-- The width of a column with the blanks on either side, as far as it is counted. -/
def outerWidth (width : Nat) : Nat :=
  min maxWidth (width + 2)

/-- A ruled line: `left`, the columns drawn with `stroke` and parted by `cross`, `right`. -/
def rule (left stroke cross right : Char) (widths : List Nat) : List Char :=
  left :: List.intercalate [cross] (widths.map fun w => List.replicate (outerWidth w) stroke) ++ [right]

/-- A line of a cell in a column of `width`, set to the left. -/
def field (width : Nat) (line : List Char) : List Char :=
  ' ' :: line ++ List.replicate (width - Width.ofText line) ' ' ++ [' ']

def fields (width : Nat) (cell : String) : List (List Char) :=
  ((cellLines cell).flatMap (Wrap.lines width)).map (field width)

/-- The lines of one row; below its last field a column is blank. -/
def rowLines (widths : List Nat) (cells : List String) : List (List Char) :=
  let columns := List.zipWith (fun w cell => (w, fields w cell)) widths cells
  let height := (columns.map (·.2.length)).foldl max 0
  (List.range height).map fun i =>
    '│' :: List.intercalate ['┆']
      (columns.map fun (w, column) => column.getD i (List.replicate (outerWidth w) ' ')) ++ ['│']

/-- The lines of the rows, with a broken rule between any two. -/
def body (widths : List Nat) : List (List String) → List (List Char)
  | [] => []
  | [cells] => rowLines widths cells
  | cells :: rest =>
    rowLines widths cells ++ rule '├' '╌' '┼' '┤' widths :: body widths rest

def allLines (table : Table) : List (List Char) :=
  let w := table.widths
  rule '┌' '─' '┬' '┐' w :: rowLines w table.header ++ rule '╞' '═' '╪' '╡' w ::
    body w table.rows ++ [rule '└' '─' '┴' '┘' w]

def render (table : Table) : String :=
  String.ofList (List.intercalate ['\n'] table.allLines)

end Table

end RemotePyMite
