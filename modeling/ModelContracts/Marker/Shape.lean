import ModelContracts.ClassId

/-!
The stock marker kinds. A shape names the fields of a kind in order; a custom kind that derives
from a stock kind has the same shape.
-/

namespace ModelContracts

inductive MarkerShape where
  | browsable | obsolete | serializable | localizable | category | required | editor
  | refreshProperties | typeConverter | description | localizedDescription | defaultValue
  | nullValue | modelValueCalculator | modelValueCalculatorWrapper | modelReadOnly | readOnly
  | className | modelAbstractClass | modelDisplayName
  /-- A marker without fields of its own. -/
  | bare
deriving DecidableEq, Repr

/-- What stands in a field that is left out. -/
inductive FieldDefault where
  | mandatory | none | true | emptyText | noRefresh
deriving DecidableEq, Repr

namespace MarkerShape

def stock : List MarkerShape :=
  [browsable, obsolete, serializable, localizable, category, required, editor, refreshProperties,
    typeConverter, description, localizedDescription, defaultValue, nullValue,
    modelValueCalculator, modelValueCalculatorWrapper, modelReadOnly, readOnly, className,
    modelAbstractClass, modelDisplayName]

def stockName : MarkerShape → String
  | browsable => "Browsable"
  | obsolete => "Obsolete"
  | serializable => "Serializable"
  | localizable => "Localizable"
  | category => "Category"
  | required => "Required"
  | editor => "Editor"
  | refreshProperties => "RefreshProperties"
  | typeConverter => "TypeConverter"
  | description => "Description"
  | localizedDescription => "LocalizedDescription"
  | defaultValue => "DefaultValue"
  | nullValue => "NullValue"
  | modelValueCalculator => "ModelValueCalculator"
  | modelValueCalculatorWrapper => "ModelValueCalculatorWrapper"
  | modelReadOnly => "ModelReadOnly"
  | readOnly => "ReadOnly"
  | className => "ClassName"
  | modelAbstractClass => "ModelAbstractClass"
  | modelDisplayName => "ModelDisplayName"
  | bare => "Marker"

def kind (s : MarkerShape) : ClassId := ClassId.marker s.stockName

/-- Kinds that are applied to classes and not to properties. -/
def onClasses : MarkerShape → Bool
  | className | modelAbstractClass | modelDisplayName => true
  | _ => false

def fields : MarkerShape → List (String × FieldDefault)
  | browsable => [("browsable", .true)]
  | obsolete => [("message", .emptyText)]
  | serializable | required | nullValue | modelAbstractClass | bare => []
  | localizable => [("is_localizable", .true)]
  | category => [("category", .mandatory)]
  | editor => [("editor_type_name", .mandatory), ("editor_base_type_name", .mandatory)]
  | refreshProperties => [("refresh", .noRefresh)]
  | typeConverter => [("converter", .mandatory)]
  | description | localizedDescription => [("description", .mandatory)]
  | defaultValue => [("value", .mandatory), ("value_type", .none)]
  | modelValueCalculator =>
    [("calculator_type", .none), ("link_value", .none), ("node_name", .none), ("node_type", .none),
      ("property_name", .none)]
  | modelValueCalculatorWrapper =>
    [("calculator_type", .none), ("link_value", .none), ("node_name", .none),
      ("node_type_name", .none), ("property_name", .none)]
  | modelReadOnly => [("calculator_type", .mandatory)]
  | readOnly => [("is_read_only", .true)]
  | className => [("type_name", .mandatory)]
  | modelDisplayName => [("name", .mandatory)]

end MarkerShape

end ModelContracts
