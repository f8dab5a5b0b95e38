import ModelContracts.World.Basic

/-!
Looking up the member of an enumeration that a raw value stands for. Values are compared across
types, and the first member wins. An enumeration of flags also accepts combinations: their label
joins the labels of the single flags that they hold, and what no flag covers is added as a number.
-/

namespace ModelContracts

inductive LookupError where
  | unknown (v : Value)
  | noMembers (c : ClassId)
  /-- A signalling number refuses to be compared. -/
  | incomparable
deriving Inhabited

namespace Enumeration

/-- The names of the members that are no aliases, with their values. -/
def canonical : List (String × Value) → List (String × Value)
  | [] => []
  | (name, v) :: rest => (name, v) :: (canonical rest).filter fun m => !m.2.equal v

def signaling : Value → Bool
  | .decimal (.nan _ true _) => true
  | _ => false

/-- The first member with the value. A value that can be hashed finds only such members. -/
def lookup? (members : List (String × Value)) (v : Value) : Option (String × Value) :=
  if signaling v then none
  else members.find? fun m => m.2.equal v && (!v.hashable || m.2.hashable)

/-! Flags. -/

def bits (members : List (String × Value)) : List (String × Nat) :=
  members.filterMap fun (name, v) => match v with
    | .int n => if 0 ≤ n then some (name, n.toNat) else none
    | .bool b => some (name, if b then 1 else 0)
    | _ => none

def isSingle (n : Nat) : Bool := n ≠ 0 && n &&& (n - 1) = 0

def mask (flags : List (String × Nat)) : Nat := flags.foldl (fun m f => m ||| f.2) 0

def singleMask (flags : List (String × Nat)) : Nat :=
  mask (flags.filter fun f => isSingle f.2)

def bitLength (n : Nat) : Nat := if n = 0 then 0 else n.log2 + 1

def allBits (flags : List (String × Nat)) : Nat := Nat.pow 2 (bitLength (mask flags)) - 1

/-- A negative number counts down from the least power of two above every flag and itself. -/
def foldNegative (flags : List (String × Nat)) (n : Int) : Nat :=
  let all : Int := allBits flags
  if 0 ≤ n then n.toNat
  else if -(all + 1) ≤ n then (all + 1 + n).toNat
  else (max (all + 1) (Int.pow 2 (bitLength n.natAbs)) + n).toNat

/-- The single flags in `n`, then the wider ones that it holds entirely when single flags alone do
not make it up. -/
def parts (flags : List (String × Nat)) (n : Nat) : List (String × Nat) :=
  let singles := flags.filter fun f => isSingle f.2 && n &&& f.2 ≠ 0
  if n &&& singleMask flags = n then singles
  else singles ++ flags.filter fun f => f.2 ≠ 0 && !isSingle f.2 && f.2 &&& n = f.2

def label? (flags : List (String × Nat)) (n : Nat) : Option String :=
  let ps := parts flags n
  let combined := mask ps
  if combined = 0 then none
  else
    let names := String.intercalate "|" (ps.map (·.1))
    let unknown := n ^^^ combined
    some (if unknown = 0 then names else names ++ "|" ++ toString unknown)

def whole? : Value → Option Int
  | .bool b => some (if b then 1 else 0)
  | .int n => some n
  | .number _ n => some n
  | .member _ .number _ (.int n) => some n
  | _ => none

end Enumeration

namespace World

open Enumeration

def memberOf? (w : World) (c : ClassId) (v : Value) : Except LookupError Value :=
  let members := ((w.find? c).map (·.members)).getD []
  if w.isInstance v c then .ok v
  else if members.isEmpty then .error (.noMembers c)
  else if signaling v && members.any (fun m => m.2.number?.isSome) then .error .incomparable
  else match lookup? members v with
    | some (name, raw) => .ok (.member c (w.mixin c) (some name) raw)
    | none =>
      if w.derives c ClassId.flag then
        match whole? v with
        | none => .error (.unknown v)
        | some n =>
          let flags := bits (canonical members)
          let n := foldNegative flags n
          .ok (.member c (w.mixin c) (label? flags n) (.int n))
      else .error (.unknown v)

end World

end ModelContracts
