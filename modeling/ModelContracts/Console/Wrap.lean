import ModelContracts.Text.Blank
import ModelContracts.Text.Pieces
import ModelContracts.Text.Width

/-!
Texts in lines of a given width. Lines break between words; a word that is too long for a line is
folded, or cut off with an ellipsis.
-/

namespace ModelContracts.Console

open Text

/-- What becomes of a word that does not fit into a line. -/
inductive Overflow where
  | fold | ellipsis
deriving DecidableEq, Repr

def tabStop : Nat := 8

def withoutTabs (column : Nat) : List Char → List Char
  | [] => []
  | '\t' :: rest =>
    let n := tabStop - column % tabStop
    List.replicate n ' ' ++ withoutTabs (column + n) rest
  | c :: rest => c :: withoutTabs (column + charWidth c) rest

def withoutEnd (cs : List Char) : List Char := (cs.reverse.dropWhile isBlank).reverse

/-- The words of a line, each with the blanks after it and the first also with those before it. -/
def wordsFrom : Nat → List Char → List (List Char)
  | 0, _ => []
  | fuel + 1, cs =>
    let before := cs.takeWhile isBlank
    let rest := cs.drop before.length
    let word := rest.takeWhile (!isBlank ·)
    let rest := rest.drop word.length
    let after := rest.takeWhile isBlank
    if word.isEmpty then []
    else (before ++ word ++ after) :: wordsFrom fuel (rest.drop after.length)

def words (cs : List Char) : List (List Char) := wordsFrom cs.length cs

/-- The pieces of a word of at most `w` cells each, after a piece that was begun. -/
def chopFrom (w : Nat) (begun : List Char) : List Char → List (List Char)
  | [] => [begun]
  | c :: rest =>
    if w < width begun + charWidth c then begun :: chopFrom w [c] rest
    else chopFrom w (begun ++ [c]) rest

def chop (w : Nat) (word : List Char) : List (List Char) := chopFrom w [] word

/-- Where the pieces of a word begin that starts at an index; a line does not break at its start. -/
def chopBreaks (start : Nat) : List (List Char) → List Nat
  | [] => []
  | piece :: rest => (if start = 0 then [] else [start]) ++ chopBreaks (start + piece.length) rest

/-- The indices at which a line breaks, of which `cells` are taken before the word at `start`. -/
def breaksFrom (w : Nat) (mode : Overflow) (start cells : Nat) : List (List Char) → List Nat
  | [] => []
  | word :: rest =>
    let needed := width (withoutEnd word)
    let next := start + word.length
    if cells + needed ≤ w then breaksFrom w mode next (cells + width word) rest
    else if w < needed then
      match mode with
      | .fold =>
        let pieces := chop w word
        chopBreaks start pieces ++ breaksFrom w mode next (width (pieces.getLastD [])) rest
      | .ellipsis =>
        (if start = 0 then [] else [start]) ++ breaksFrom w mode next (width word) rest
    else if cells = 0 || start = 0 then breaksFrom w mode next cells rest
    else start :: breaksFrom w mode next (width word) rest

/-- The parts of a line between some indices in order; `offset` characters are gone. -/
def cutAt (offset : Nat) : List Nat → List Char → List (List Char)
  | [], cs => [cs]
  | i :: rest, cs => cs.take (i - offset) :: cutAt i rest (cs.drop (i - offset))

def withoutExcess (w : Nat) (cs : List Char) : List Char :=
  let blanks := cs.length - (withoutEnd cs).length
  cs.take (cs.length - min blanks (cs.length - w))

def crop (w : Nat) : List Char → List Char
  | [] => []
  | c :: rest =>
    if charWidth c ≤ w then c :: crop (w - charWidth c) rest else List.replicate w ' '

def shorten (w : Nat) (mode : Overflow) (cs : List Char) : List Char :=
  if width cs ≤ w then cs
  else match mode with
    | .fold => crop w cs
    | .ellipsis => crop (w - 1) cs ++ ['…']

/-- The lines of at most `w` cells in which a line without line breaks is shown. -/
def wrapLine (w : Nat) (mode : Overflow) (line : List Char) : List (List Char) :=
  let line := withoutTabs 0 line
  (cutAt 0 (breaksFrom w mode 0 0 (words line)) line).map fun part =>
    shorten w mode (withoutExcess w part)

def wrap (w : Nat) (mode : Overflow) (cs : List Char) : List (List Char) :=
  (pieces '\n' cs).flatMap (wrapLine w mode)

def padded (w : Nat) (cs : List Char) : List Char := cs ++ List.replicate (w - width cs) ' '

def longest (cs : List Char) : Nat := ((pieces '\n' cs).map width).foldl max 0

end ModelContracts.Console
