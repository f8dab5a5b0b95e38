import ModelContracts.Marker.Shape
import ModelContracts.Number.Decimal

/-!
Type expressions and the values that they, and markers, can hold. The two refer to each other: a
literal type lists values, an annotation carries any, and a value may itself be a type.
-/

namespace ModelContracts

open Number

/-- Forms that qualify an attribute and are no types of values. -/
inductive Qualifier where
  | final | classVar
deriving DecidableEq, Repr

/-- How a parameterised type came about, which its printed form shows. -/
inductive AliasForm where
  /-- A generic alias of the typing module by itself, such as `List`. -/
  | bare
  | typing
  /-- A builtin or collection class with arguments, such as `list[int]`. -/
  | builtin
  | user
deriving DecidableEq, Repr

/-- What the members of an enumeration are besides being members. -/
inductive Mixin where
  | plain | number | text
deriving DecidableEq, Repr

mutual

inductive TypeExpr where
  | cls (c : ClassId)
  /-- `bar` tells the form `A | B` from the form with `Union` or `Optional`. -/
  | union (bar : Bool) (members : List TypeExpr)
  | literal (values : List Value)
  | annotated (base : TypeExpr) (notes : List Value)
  | generic (form : AliasForm) (origin : ClassId) (args : List TypeExpr)
  | qualifier (q : Qualifier)
  | qualified (q : Qualifier) (arg : TypeExpr)
  /-- A text where a type is expected. -/
  | forward (text : String)
  | forwardRef (text : String)
  | typeVar (name : String)
  | ellipsis
  | params (types : List TypeExpr)
  /-- A value that is no type. -/
  | value (v : Value)

inductive Value where
  | none
  | bool (b : Bool)
  | int (n : Int)
  | text (s : String)
  | float (x : Binary64)
  | complex (re im : Binary64)
  | decimal (d : Decimal)
  | fraction (f : Fraction)
  | bytes (data : List UInt8)
  | buffer (data : List UInt8)
  /-- A member of an enumeration; a combination of flags may have no label. -/
  | member (owner : ClassId) (mixin : Mixin) (label : Option String) (raw : Value)
  | type (t : TypeExpr)
  | list (items : List Value)
  | tuple (items : List Value)
  | dict (entries : List (Value × Value))
  | date (year month day : Nat)
  /-- A date with the second of the day, and how many minutes the clock is ahead of the universal
  time if that is known. -/
  | moment (year month day second micro : Nat) (ahead : Option Int)
  /-- An instance of a class derived from the integers. -/
  | number (owner : ClassId) (n : Int)
  | marker (kind : ClassId) (shape : MarkerShape) (args : List Value)

end

instance : Inhabited Value := ⟨.none⟩
instance : Inhabited TypeExpr := ⟨.cls ClassId.object⟩

namespace TypeExpr

def noneType : TypeExpr := .cls ClassId.noneType

/-- Whether the expression is exactly the class `c`. -/
def isClass (c : ClassId) : TypeExpr → Bool
  | .cls d => d = c
  | _ => false

def isNoneType (t : TypeExpr) : Bool := t.isClass ClassId.noneType

def class? : TypeExpr → Option ClassId
  | .cls c => some c
  | _ => none

end TypeExpr

/-- A type in the place of a value; texts, `None` and plain values count as themselves. -/
def Value.toType : Value → TypeExpr
  | .type t => t
  | .text s => .forward s
  | .none => .noneType
  | v => .value v

end ModelContracts
