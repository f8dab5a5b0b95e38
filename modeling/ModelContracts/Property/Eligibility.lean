import ModelContracts.Property.Reflection

/-!
The stock rule on which properties are emitted. A property declared on the component's base view
qualifies by its type, which must derive from an option group or be value-like; one declared
elsewhere qualifies when its class derives from an option group and its type is value-like.
-/

namespace ModelContracts

structure Eligibility where
  componentBase : ClassId
  /-- Option groups besides the stock ones. -/
  optionTypes : List ClassId := []
  /-- Marker kinds of which a property needs one; none are needed when the list is empty. -/
  required : List ClassId := [MarkerShape.serializable.kind]

namespace Eligibility

variable (w : World)

def stockOptions : List ClassId :=
  [ClassId.option "BaseOptions", ClassId.option "AppearanceOptions", ClassId.option "FormatOptions",
    ClassId.option "TextOptions"]

def reservedNames : List String := ["IsReadOnly"]

def knownOptions (e : Eligibility) : List ClassId := stockOptions ++ e.optionTypes

/-- Whether no marker hides the property. -/
def isBrowsable (d : Descriptor) : Bool :=
  (d.markersOf w MarkerShape.browsable.kind).all fun m => (m.field "browsable").truthy

def carriesOne (d : Descriptor) (kinds : List ClassId) : Bool := kinds.any (d.has w)

def typeDerives (t : TypeExpr) (bases : List ClassId) : Bool :=
  (t.core.class?.map fun c => w.derivesAny c bases).getD false

def qualifies (e : Eligibility) (d : Descriptor) : Bool :=
  if w.derives d.declaring e.componentBase then
    typeDerives w d.type e.knownOptions || w.valueLike d.type
  else
    typeDerives w (.cls d.declaring) e.knownOptions && w.valueLike d.type

def accepts (e : Eligibility) (d : Descriptor) : Bool :=
  isBrowsable w d && (e.required.isEmpty || carriesOne w d e.required) &&
    !reservedNames.contains d.name && e.qualifies w d

end Eligibility

end ModelContracts
