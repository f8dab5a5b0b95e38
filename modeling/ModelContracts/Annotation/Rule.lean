import ModelContracts.Annotation.Converter
import ModelContracts.Emission.Literal

/-!
Rules that turn markers into annotation texts. A rule belongs to a marker kind, either exactly or
with all kinds that derive from it, and may be guarded by the property.
-/

namespace ModelContracts

/-- When a rule applies besides its kind. -/
inductive Guard where
  | always | never
  /-- Only on properties whose type is the text type itself. -/
  | onText
  /-- A condition of the caller's own. -/
  | own (condition : Marker → Descriptor → Bool)

inductive Emitter where
  /-- The way of the stock rule for a kind. -/
  | stock (shape : MarkerShape)
  | fixed (text : Option String)
  /-- A call of the marker's own class without arguments. -/
  | ownCall
deriving DecidableEq, Repr

structure Rule where
  kind : ClassId
  exact : Bool
  guard : Guard
  emitter : Emitter

def Guard.holds (m : Marker) (d : Descriptor) : Guard → Bool
  | .always => true
  | .never => false
  | .onText => d.type.isClass ClassId.str
  | .own condition => condition m d

def Rule.applies (w : World) (r : Rule) (m : Marker) (d : Descriptor) : Bool :=
  (if r.exact then m.kind = r.kind else w.derives m.kind r.kind) && r.guard.holds m d

mutual

def dataText? : Value → Option String
  | .none => some "null"
  | .bool b => some (if b then "true" else "false")
  | .int n => some (toString n)
  | .number _ n => some (toString n)
  | .text s => some (Text.quote s)
  | .float x => some (match x with
    | .nan => "NaN"
    | .infinite negative => if negative then "-Infinity" else "Infinity"
    | x => x.text)
  | .member _ .text _ (.text s) => some (Text.quote s)
  | .member _ .number _ (.int n) => some (toString n)
  | .list items => (dataTexts? items).map fun ts => "[" ++ Text.commaList ts ++ "]"
  | .tuple items => (dataTexts? items).map fun ts => "[" ++ Text.commaList ts ++ "]"
  | .dict es => (entryTexts? es).map fun ts => "\x7b" ++ Text.commaList ts ++ "\x7d"
  | _ => none
termination_by structural v => v

def dataTexts? : List Value → Option (List String)
  | [] => some []
  | v :: vs => do
    let s ← dataText? v
    return s :: (← dataTexts? vs)
termination_by structural vs => vs

def entryTexts? : List (Value × Value) → Option (List String)
  | [] => some []
  | e :: es => do
    let s ← entryText? e
    return s :: (← entryTexts? es)
termination_by structural es => es

def entryText? : Value × Value → Option String
  | (k, v) => do
    let key ← match k with
      | .text s => some (Text.quote s)
      | .member .. | .list _ | .tuple _ | .dict _ => none
      | k => (dataText? k).map Text.quote
    return key ++ ": " ++ (← dataText? v)
termination_by structural e => e

end

open Emitting

def quoted (v : Value) : Emitting String :=
  match dataText? v with
  | some s => pure s
  | none => throw (.unquotable v)

def stockCall (w : World) (shape : MarkerShape) (args : Emitting String) : Emitting String := do
  return (← cls w shape.kind) ++ "(" ++ (← args) ++ ")"

def defaultType (w : World) (m : Marker) (d : Descriptor) : Option TypeExpr :=
  match m.field "value_type" with
  | .none =>
    let v := m.field "value"
    let isBool := match v with
      | .bool _ => true
      | _ => false
    let declared := d.type.unwrap
    if w.isInstance v ClassId.int && !isBool && w.isEnumType declared then some declared else none
  | v => some v.toType

def refreshText (w : World) (v : Value) : Emitting String := do
  let head ← cls w (World.classOf v)
  match v with
  | .member _ _ label _ => return head ++ "." ++ label.getD "None"
  | v => throw (.malformedField v)

/-- The text that the stock rule for a kind writes for a marker; `none` suppresses the marker. -/
def stockText (w : World) (m : Marker) (d : Descriptor) :
    MarkerShape → Emitting (Option String)
  | .localizable =>
    some <$> stockCall w .localizable (literal w none (m.field "is_localizable"))
  | .category => some <$> stockCall w .category (quoted (m.field "category"))
  | .editor => some <$> stockCall w .editor do
      let name ← quoted (m.field "editor_type_name")
      return name ++ ", " ++ (← quoted (m.field "editor_base_type_name"))
  | .refreshProperties =>
    some <$> stockCall w .refreshProperties (refreshText w (m.field "refresh"))
  | .typeConverter => do
    match ← Converter.resolve w m with
    | none => return none
    | some c => some <$> stockCall w .typeConverter (cls w c)
  | .localizedDescription | .description =>
    some <$> stockCall w .description (quoted (m.field "description"))
  | .defaultValue =>
    some <$> stockCall w .defaultValue (literal w (defaultType w m d) (m.field "value"))
  | .modelValueCalculatorWrapper =>
    match m.field "calculator_type" with
    | .none => some <$> stockCall w .modelValueCalculator do
        return "link_value=" ++ (← literal w none (m.field "link_value"))
    | v => some <$> stockCall w .modelValueCalculator (type w v.toType)
  | .modelReadOnly =>
    some <$> stockCall w .modelReadOnly (type w (m.field "calculator_type").toType)
  | .readOnly => some <$> stockCall w .readOnly (literal w none (m.field "is_read_only"))
  | _ => do return some ((← cls w m.kind) ++ "()")

def Emitter.text (w : World) (m : Marker) (d : Descriptor) : Emitter → Emitting (Option String)
  | .stock shape => stockText w m d shape
  | .fixed text => pure text
  | .ownCall => do return some ((← cls w m.kind) ++ "()")

end ModelContracts
