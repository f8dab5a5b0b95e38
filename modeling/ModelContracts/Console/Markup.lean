import ModelContracts.Text.Order
import ModelContracts.Text.Pieces

/-!
Texts with markup. A tag in square brackets begins with a small letter, a number sign or an at sign;
a slash in it ends the style of that name, or the last one. Brackets of any other kind, and those
behind a backslash, stand for themselves.
-/

namespace ModelContracts.Console

inductive MarkupPiece where
  | plain (cs : List Char)
  | tag (name : String)
deriving DecidableEq, Repr

/-- A tag ends a style that was not begun. -/
structure MarkupError where
  name : String
deriving DecidableEq, Repr

namespace Markup

def beginsTag (c : Char) : Bool := ('a' ≤ c && c ≤ 'z') || c = '#' || c = '/' || c = '@'

def tag? (cs : List Char) : Option (List Char × List Char) :=
  match cs with
  | c :: rest =>
    let body := rest.takeWhile fun d => d ≠ '[' && d ≠ ']'
    match rest.drop body.length with
    | ']' :: after => if beginsTag c then some (c :: body, after) else none
    | _ => none
  | [] => none

def unescaped : List Char → List Char
  | '\\' :: '[' :: rest => '[' :: unescaped rest
  | c :: rest => c :: unescaped rest
  | [] => []

/-- The pieces of a text; `before` is the plain text that is not in a piece yet, backwards. -/
def piecesFrom : Nat → List Char → List Char → List MarkupPiece
  | 0, before, cs => [.plain (unescaped (before.reverse ++ cs))]
  | fuel + 1, before, cs =>
    let slashes := (cs.takeWhile (· = '\\')).length
    match cs.drop slashes with
    | [] => [.plain (unescaped (before.reverse ++ cs))]
    | '[' :: rest =>
      match tag? rest with
      | some (body, after) =>
        let kept := List.replicate (slashes / 2) '\\'
        let piece := if slashes % 2 = 1 then .plain ('[' :: body ++ [']'])
          else MarkupPiece.tag (String.ofList (body.takeWhile (· ≠ '=')))
        .plain (unescaped before.reverse) :: .plain kept :: piece :: piecesFrom fuel [] after
      | none => piecesFrom fuel ('[' :: List.replicate slashes '\\' ++ before) rest
    | c :: rest => piecesFrom fuel (c :: List.replicate slashes '\\' ++ before) rest

def pieces (s : String) : List MarkupPiece := piecesFrom (s.length + 1) [] s.toList

def styleName (s : String) : List String :=
  Text.sorted (((Text.split ' ' s).filter (· ≠ "")).map String.toLower)

/-- Characters that move the cursor are not printed. -/
def isPrinted (c : Char) : Bool := !([7, 8, 11, 12, 13].contains c.toNat)

/-- The text without its tags; the styles that are begun come with it. -/
def plainFrom : List (List String) → List MarkupPiece → Except MarkupError (List Char)
  | _, [] => .ok []
  | styles, .plain cs :: rest => do return cs.filter isPrinted ++ (← plainFrom styles rest)
  | styles, .tag name :: rest =>
    match name.toList with
    | '/' :: ended =>
      let style := styleName (String.ofList ended)
      if style.isEmpty then
        match styles with
        | [] => .error ⟨name⟩
        | _ :: outer => plainFrom outer rest
      else if styles.contains style then plainFrom (styles.erase style) rest
      else .error ⟨name⟩
    | _ => plainFrom (styleName name :: styles) rest

def plain (s : String) : Except MarkupError (List Char) := plainFrom [] (pieces s)

def styled (style s : String) : String := "[" ++ style ++ "]" ++ s ++ "[/" ++ style ++ "]"

end Markup

end ModelContracts.Console
