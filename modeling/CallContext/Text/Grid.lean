import CallContext.Text.Cut
import CallContext.Text.Lines
import CallContext.Text.Width

/-!
Grids: rows of cells with lines around them. A column is as wide as its widest line, a row as high as
its highest cell, and cells are filled up with spaces on the right and below.
-/

namespace CallContext.Text

abbrev Cell := List String

namespace Grid

def cell (text : String) : Cell :=
  (splitAt '\n' text.toList).map String.ofList

def cellWidth (cell : Cell) : Nat :=
  (cell.map width).foldl max 0

def columnWidths (rows : List (List Cell)) : List Nat :=
  rows.foldl (fun widths row => widen widths (row.map cellWidth)) []
where
  widen : List Nat → List Nat → List Nat
    | [], other => other
    | one, [] => one
    | a :: one, b :: other => max a b :: widen one other

def copies (count : Nat) (c : Char) : String :=
  String.ofList (List.replicate count c)

def rule (widths : List Nat) : String :=
  "+" ++ String.join (widths.map fun width => copies (width + 2) '-' ++ "+")

def padded (columns : Nat) (line : String) : String :=
  line ++ copies (columns - width line) ' '

def lineOf (widths : List Nat) (row : List Cell) (number : Nat) : String :=
  "|" ++ String.join ((widths.zip row).map fun (columns, cell) =>
    " " ++ padded columns (cell[number]?.getD "") ++ " |")

def rowLines (widths : List Nat) (row : List Cell) : List String :=
  (List.range ((row.map List.length).foldl max 0)).map (lineOf widths row)

def gridLines (rows : List (List Cell)) : List String :=
  let widths := columnWidths rows
  rule widths :: rows.flatMap fun row => rowLines widths row ++ [rule widths]

def draw (rows : List (List String)) : String :=
  joinWith "\n" (gridLines (rows.map (·.map cell)))

end Grid

end CallContext.Text
