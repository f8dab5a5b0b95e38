import ModelContracts.Console.Markup
import ModelContracts.Console.Table

/-!
What a command shows: each notice, and the lines in which it appears on a screen of eighty cells.
-/

namespace ModelContracts.Console

inductive Notice where
  | text (message style : String)
  | header (title subtitle : String)
  | heading (title : String)
  | success (message : String)
  | error (message : String)
  | info (message : String)
  | status (name : String) (ok : Bool) (detail : String)
  | table (title : String) (columns : List String) (rows : List (List String))
  | code (source : String)
deriving DecidableEq, Repr

def screenWidth : Nat := 80

def textLines (s : String) : Except MarkupError (List (List Char)) :=
  (Markup.plain s).map (wrap screenWidth .fold)

def boxLines (s : String) : Except MarkupError (List (List Char)) := do
  let cs ← Markup.plain s
  let w := min (longest cs) (screenWidth - 4)
  let edge (left right : Char) := left :: List.replicate (w + 2) '─' ++ [right]
  let inner := (wrap w .fold cs).map fun line => ['│', ' '] ++ padded w line ++ [' ', '│']
  return [edge '╭' '╮'] ++ inner ++ [edge '╰' '╯']

namespace Notice

def headerText (title subtitle : String) : String :=
  let first := Markup.styled "bold" title
  if subtitle.isEmpty then first else first ++ "\n" ++ Markup.styled "dim" subtitle

def statusText (name : String) (ok : Bool) (detail : String) : String :=
  let mark := if ok then Markup.styled "green" "✓" else Markup.styled "red" "✗"
  let note := if detail.isEmpty then "" else " " ++ Markup.styled "dim" ("(" ++ detail ++ ")")
  "  " ++ mark ++ " " ++ name ++ note

def codeLines (source : String) : List (List Char) :=
  let lines := Text.pieces '\n' source.toList
  let lines := if lines.getLast? = some [] then lines.dropLast else lines
  let digits := (toString lines.length).length
  lines.zipIdx.map fun (line, i) =>
    let number := (toString (i + 1)).toList
    [' ', ' '] ++ List.replicate (digits - number.length) ' ' ++ number ++ [' '] ++ line

def lines (n : Notice) : Except MarkupError (List (List Char)) :=
  match n with
  | .text message style => textLines (if style.isEmpty then message else Markup.styled style message)
  | .header title subtitle => boxLines (headerText title subtitle)
  | .heading title => textLines ("\n" ++ Markup.styled "bold cyan" title)
  | .success message => textLines (Markup.styled "green" "✓" ++ " " ++ message)
  | .error message => textLines (Markup.styled "red" "✗" ++ " " ++ message)
  | .info message => textLines (Markup.styled "dim" message)
  | .status name ok detail => textLines (statusText name ok detail)
  | .table title columns rows => do
    let title ← Markup.plain title
    let head ← columns.mapM Markup.plain
    let rows ← rows.mapM fun row => row.mapM Markup.plain
    return tableLines screenWidth title head rows
  | .code source => .ok (codeLines source)

def transcript (ns : List Notice) : Except MarkupError (List String) := do
  let all ← ns.mapM lines
  return all.flatten.map fun line => String.ofList (line.reverse.dropWhile (· = ' ')).reverse

end Notice

end ModelContracts.Console
