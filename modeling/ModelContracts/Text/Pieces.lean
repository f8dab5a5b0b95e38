/-! Texts cut at a separator. There is always at least one piece, and joining gives the text back. -/

namespace ModelContracts.Text

def pieces (sep : Char) : List Char → List (List Char)
  | [] => [[]]
  | c :: rest =>
    if c = sep then [] :: pieces sep rest
    else match pieces sep rest with
      | [] => [[c]]
      | p :: ps => (c :: p) :: ps

def joined (sep : Char) : List (List Char) → List Char
  | [] => []
  | [p] => p
  | p :: q :: rest => p ++ sep :: joined sep (q :: rest)

theorem pieces_ne_nil (sep : Char) (cs : List Char) : pieces sep cs ≠ [] := by
  cases cs with
  | nil => simp [pieces]
  | cons c rest =>
    simp only [pieces]
    split
    · simp
    · split <;> simp

theorem joined_pieces (sep : Char) (cs : List Char) : joined sep (pieces sep cs) = cs := by
  induction cs with
  | nil => rfl
  | cons c rest ih =>
    simp only [pieces]
    split
    next h =>
      subst h
      cases hp : pieces c rest with
      | nil => exact absurd hp (pieces_ne_nil _ _)
      | cons p ps => simp [joined, ← hp, ih]
    next h =>
      cases hp : pieces sep rest with
      | nil => exact absurd hp (pieces_ne_nil _ _)
      | cons p ps =>
        cases ps with
        | nil => simpa [joined, hp] using ih
        | cons q qs => simpa [joined, hp] using ih

def split (sep : Char) (s : String) : List String :=
  (pieces sep s.toList).map String.ofList

/-- The last piece: the whole text when there is no separator. -/
def lastPiece (sep : Char) (s : String) : String :=
  String.ofList ((pieces sep s.toList).getLast (pieces_ne_nil _ _))

/-- The first piece: the whole text when there is no separator. -/
def firstPiece (sep : Char) (s : String) : String :=
  String.ofList (s.toList.takeWhile (· ≠ sep))

def cut (sep : Char) (s : String) : Option (String × String) :=
  match s.toList.dropWhile (· ≠ sep) with
  | [] => none
  | _ :: rest => some (firstPiece sep s, String.ofList rest)

def occurs (part : List Char) : List Char → Bool
  | [] => part.isEmpty
  | c :: rest => part.isPrefixOf (c :: rest) || occurs part rest

def contains (part s : String) : Bool := occurs part.toList s.toList

def startsWith (start s : String) : Bool := start.toList.isPrefixOf s.toList

def endsWith (ending s : String) : Bool := ending.toList.isSuffixOf s.toList

def after? : List Char → List Char → Option (List Char)
  | [], cs => some cs
  | _ :: _, [] => none
  | a :: start, c :: cs => if a = c then after? start cs else none

theorem after?_append (start cs : List Char) : after? start (start ++ cs) = some cs := by
  induction start with
  | nil => rfl
  | cons a rest ih => simp [after?, ih]

def commaList (parts : List String) : String := String.intercalate ", " parts

end ModelContracts.Text
