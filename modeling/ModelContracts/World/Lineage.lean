import ModelContracts.ClassId

/-!
The lineage of a class: itself, then all its ancestors, each before its own ancestors and in the
order in which the bases are named. Merging takes the first head that stands in no other tail; it
fails when there is none.
-/

namespace ModelContracts

namespace Lineage

def behind (c : ClassId) (lists : List (List ClassId)) : Bool :=
  lists.any fun l => l.tail.contains c

/-- The first head that stands behind no head. -/
def nextHead (lists : List (List ClassId)) : Option ClassId :=
  (lists.filterMap List.head?).find? fun c => !behind c lists

def advance (c : ClassId) (lists : List (List ClassId)) : List (List ClassId) :=
  (lists.map fun l => if l.head? = some c then l.tail else l).filter (!·.isEmpty)

def mergeSteps : Nat → List (List ClassId) → Option (List ClassId)
  | _, [] => some []
  | 0, _ => none
  | fuel + 1, lists => do
    let c ← nextHead lists
    return c :: (← mergeSteps fuel (advance c lists))

def merge (lists : List (List ClassId)) : Option (List ClassId) :=
  let lists := lists.filter (!·.isEmpty)
  mergeSteps lists.flatten.length lists

def ofBases (c : ClassId) (bases : List ClassId) (lineages : List (List ClassId)) :
    Option (List ClassId) :=
  if bases.Nodup then (merge (lineages ++ [bases])).map (c :: ·) else none

theorem head_ofBases {c : ClassId} {bases : List ClassId} {ls : List (List ClassId)}
    {l : List ClassId} (h : ofBases c bases ls = some l) : l.head? = some c := by
  unfold ofBases at h
  split at h
  · obtain ⟨m, _, rfl⟩ := Option.map_eq_some_iff.1 h
    rfl
  · simp at h

end Lineage

end ModelContracts
