import ModelContracts.World.Nature

/-!
Descriptors: the view of one property that callers may rename, retype or mark differently before it
is emitted. Markers are attached one by one; the same attachment may be added twice, and removing
one removes its first occurrence only. Default values found on the class itself are left out.
-/

namespace ModelContracts

/-- One marker put on a descriptor. Equal markers attached separately have different serials. -/
structure Attachment where
  serial : Nat
  marker : Marker

structure Descriptor where
  name : String
  type : TypeExpr
  declaring : ClassId
  reflected : ClassId
  readable : Bool
  writable : Bool
  attachments : List Attachment := []
  fresh : Nat := 0

namespace Descriptor

variable (w : World)

def markers (d : Descriptor) : List Marker := d.attachments.map (·.marker)

def isOf (kind : ClassId) (m : Marker) : Bool := w.derives m.kind kind

def markersOf (d : Descriptor) (kind : ClassId) : List Marker := d.markers.filter (isOf w kind)

def has (d : Descriptor) (kind : ClassId) : Bool := d.markers.any (isOf w kind)

def attach (d : Descriptor) (m : Marker) : Descriptor :=
  { d with attachments := d.attachments ++ [⟨d.fresh, m⟩], fresh := d.fresh + 1 }

def attachAgain (d : Descriptor) (i : Nat) : Descriptor :=
  { d with attachments := d.attachments ++ d.attachments[i]?.toList }

def eraseFirst (serial : Nat) : List Attachment → List Attachment
  | [] => []
  | a :: rest => if a.serial = serial then rest else a :: eraseFirst serial rest

def detach (d : Descriptor) (serial : Nat) : Descriptor :=
  { d with attachments := eraseFirst serial d.attachments }

def detachAt (d : Descriptor) (i : Nat) : Descriptor :=
  match d.attachments[i]? with
  | some a => d.detach a.serial
  | none => d

def removeKind (d : Descriptor) (kind : ClassId) : Descriptor :=
  { d with attachments := d.attachments.filter fun a => !isOf w kind a.marker }

def withMarkers (d : Descriptor) (ms : List Marker) : Descriptor :=
  (ms.filter fun m => !isOf w MarkerShape.defaultValue.kind m).foldl attach
    { d with attachments := [], fresh := 0 }

/-- Whether the property may be emitted at all: obsolete ones and collections never are, and a
value must be readable and writable. -/
def isValid (d : Descriptor) : Bool :=
  !d.has w MarkerShape.obsolete.kind && !w.isEnumerable d.type &&
    (!w.valueLike d.type || (d.readable && d.writable))

def spelled (d : Descriptor) : String :=
  let truth (b : Bool) := if b then "True" else "False"
  "PropertyDescriptor(" ++ Text.commaList
    ["name=" ++ Text.spell d.name, "type=" ++ d.type.spelled w.sort,
      "declaring_type=" ++ d.declaring.simpleName, "can_read=" ++ truth d.readable,
      "can_write=" ++ truth d.writable] ++ ")"

theorem markers_attach (d : Descriptor) (m : Marker) : (d.attach m).markers = d.markers ++ [m] := by
  simp [attach, markers]

theorem has_removeKind (d : Descriptor) (kind : ClassId) :
    (d.removeKind w kind).has w kind = false := by
  simp [has, removeKind, markers, List.any_map]

end Descriptor

end ModelContracts
