import ModelContracts.Text.Pieces

/-!
Path names. Empty parts and single dots vanish, double dots stay. The stem of a path is its last
part without the last suffix; neither a dot in front nor one at the end makes a suffix.
-/

namespace ModelContracts

structure Path where
  /-- How many slashes the name starts with: none for a relative path, one, or two. -/
  root : Nat := 0
  parts : List String
deriving DecidableEq, Repr, Inhabited

namespace Path

def leadingSlashes (s : String) : Nat := (s.toList.takeWhile (· = '/')).length

def ofText (s : String) : Path :=
  { root := match leadingSlashes s with
      | 0 => 0
      | 2 => 2
      | _ => 1
    parts := (Text.split '/' s).filter fun p => p ≠ "" && p ≠ "." }

def text (p : Path) : String :=
  let inner := String.intercalate "/" p.parts
  if p.root = 0 then (if p.parts.isEmpty then "." else inner)
  else String.ofList (List.replicate p.root '/') ++ inner

def join (p q : Path) : Path := if q.root = 0 then { p with parts := p.parts ++ q.parts } else q

def child (p : Path) (name : String) : Path := p.join (ofText name)

def parent (p : Path) : Path := { p with parts := p.parts.dropLast }

def name (p : Path) : String := p.parts.getLast?.getD ""

def stemOf (name : String) : String :=
  match (Text.split '.' name).reverse with
  | last :: before@(_ :: _) =>
    let start := String.intercalate "." before.reverse
    if last = "" || start = "" then name else start
  | _ => name

def stem (p : Path) : String := stemOf p.name

theorem ofText_empty : ofText "" = { parts := [] } := by decide

theorem parent_child_parts (p q : Path) (h : q.root = 0) :
    (p.join q).parts = p.parts ++ q.parts := by simp [join, h]

end Path

end ModelContracts
