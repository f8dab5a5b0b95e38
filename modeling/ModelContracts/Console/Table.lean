import ModelContracts.Console.Wrap

/-!
Tables. The columns are as wide as their cells need; when that is too much, the widest ones are
narrowed until the table fits.
-/

namespace ModelContracts.Console

def roundedQuotient (n d : Nat) : Nat :=
  let q := n / d
  let r := 2 * (n % d)
  if d < r || (d = r && q % 2 = 1) then q + 1 else q

/-- Takes `total` from some values in equal shares, of which there are `shares`. Each value comes
behind the most that may be taken from it; one from which nothing may be taken has no share. -/
def shareFrom (total shares : Nat) : List (Nat × Nat) → List Nat
  | [] => []
  | (most, v) :: rest =>
    if most ≠ 0 && shares ≠ 0 then
      let n := min most (roundedQuotient total shares)
      (v - n) :: shareFrom (total - n) (shares - 1) rest
    else v :: shareFrom total shares rest

def reduce (total : Nat) (values : List (Nat × Nat)) : List Nat :=
  shareFrom total (values.countP (·.1 ≠ 0)) values

def wholeWidth (widths : List Nat) : Nat := widths.foldr (fun w n => w + n) 0

/-- Narrows the widest columns to the width of the next ones until all fit into `room`. -/
def collapse (room : Nat) : Nat → List Nat → List Nat
  | 0, widths => widths
  | fuel + 1, widths =>
    let total := wholeWidth widths
    if total ≤ room then widths
    else
      let widest := widths.foldl max 0
      let second := (widths.filter (· ≠ widest)).foldl max 0
      if widest = second then widths
      else
        let most := min (total - room) (widest - second)
        collapse room fuel
          (reduce (total - room) (widths.map fun w => (if w = widest then most else 0, w)))

/-- The width of a column for some cells, of which each has a space on either side. -/
def columnWidth (room : Nat) (cells : List (List Char)) : Nat :=
  (cells.map fun c => if room < 3 then room else min (longest c) (room - 2) + 2).foldl max 0

def columnWidths (room : Nat) (columns : List (List (List Char))) : List Nat :=
  let natural := columns.map fun c => max 1 (columnWidth room c)
  if wholeWidth natural ≤ room then natural
  else
    let narrowed := collapse room (wholeWidth natural + 1) natural
    let fitted := if wholeWidth narrowed ≤ room then narrowed
      else reduce (wholeWidth narrowed - room) (narrowed.map fun w => (w, w))
    (columns.zip fitted).map fun (c, w) => columnWidth w c

/-- A line of a border: its ends, what is between the columns, and what runs along them. -/
def borderLine (left across between right : Char) (widths : List Nat) : List Char :=
  [left] ++ [between].intercalate (widths.map fun w => List.replicate w across) ++ [right]

def cellLines (w : Nat) (cell : List Char) : List (List Char) :=
  (wrap (w - 2) .ellipsis cell).map fun line => ' ' :: padded (w - 2) line ++ [' ']

def rowLines (bar : Char) (widths : List Nat) (row : List (List Char)) : List (List Char) :=
  let cells := (row.zip widths).map fun (c, w) => (w, cellLines w c)
  let height := (cells.map fun c => c.2.length).foldl max 1
  (List.range height).map fun i =>
    [bar] ++ [bar].intercalate (cells.map fun (w, ls) => ls[i]?.getD (List.replicate w ' ')) ++ [bar]

def fullRow (n : Nat) (row : List (List Char)) : List (List Char) :=
  row ++ List.replicate (n - row.length) []

def tableLines (screen : Nat) (title : List Char) (head : List (List Char))
    (rows : List (List (List Char))) : List (List Char) :=
  let n := (rows.map List.length).foldl max head.length
  if n = 0 then [[]]
  else
    let all := (head :: rows).map (fullRow n)
    let columns := (List.range n).map fun i => all.map fun row => row[i]?.getD []
    let widths := columnWidths (screen - (n + 1)) columns
    let titleLines := if title.isEmpty then [] else wrap (wholeWidth widths + n + 1) .fold title
    titleLines ++ [borderLine '┏' '━' '┳' '┓' widths] ++ rowLines '┃' widths (fullRow n head)
      ++ [borderLine '┡' '━' '╇' '┩' widths] ++ (rows.map (fullRow n)).flatMap (rowLines '│' widths)
      ++ [borderLine '└' '─' '┴' '┘' widths]

end ModelContracts.Console
