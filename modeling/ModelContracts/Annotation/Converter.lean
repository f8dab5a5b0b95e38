import ModelContracts.Property.Filter

/-!
Type converters. A converter named by text is found by importing the longest dotted start of its
name that is a module and following the rest; the outcome is remembered. Converters that are not
public, or serve design time only, are passed over.
-/

namespace ModelContracts

namespace Converter

def memorySize : Nat := 256

def remembered? (m : ConverterMemory) (name : String) : Option (Option ClassId) := m.lookup name

def remember (m : ConverterMemory) (name : String) (c : Option ClassId) : ConverterMemory :=
  let others := m.filter (·.1 ≠ name)
  (if others.length < memorySize then others else others.tail) ++ [(name, c)]

def locateFrom (w : World) (pieces : List String) : Nat → Except ImportError (Option ClassId)
  | 0 => .ok none
  | count + 1 =>
    match w.import? (String.intercalate "." (pieces.take (count + 1))) with
    | .ok m => .ok ((w.walk? (.module m) (pieces.drop (count + 1))).bind Entity.class?)
    | .error (.missing ..) => locateFrom w pieces count
    | .error e => .error e

def locate (w : World) (name : String) : Except ImportError (Option ClassId) :=
  let pieces := Text.split '.' name
  locateFrom w pieces (pieces.length - 1)

def locateRemembered (w : World) (name : String) : Emitting (Option ClassId) := do
  match remembered? (← get).memory name with
  | some c =>
    modify fun s => { s with memory := remember s.memory name c }
    return c
  | none =>
    match locate w name with
    | .error e => throw (.converterImport e)
    | .ok c =>
      modify fun s => { s with memory := remember s.memory name c }
      return c

def isDesignName (name : String) : Bool :=
  let low := Text.lowerAscii name
  Text.contains ".design." low || Text.endsWith ".design" low

def isPublicName (name : String) : Bool := (Text.split '.' name).all fun s => !Text.startsWith "_" s

def isUsable (c : ClassId) : Bool :=
  isPublicName c.fullName && !Text.contains "<locals>" c.fullName && !isDesignName c.fullName

def named (m : Marker) (w : World) (name : String) : Emitting (Option ClassId) :=
  match m.field "converter" with
  | .type (.cls c) => return some c
  | _ => locateRemembered w name

def resolve (w : World) (m : Marker) : Emitting (Option ClassId) := do
  match m.converterName with
  | .error e => throw e
  | .ok name =>
    if isDesignName name then return none
    return (← named m w name).filter isUsable

end Converter

end ModelContracts
