import ModelContracts.Annotation.Rule

/-!
Rule books: the rules in the order in which they are consulted. A book holds one rule for each kind
and way of matching; a refused registration leaves it unchanged.
-/

namespace ModelContracts

structure RuleBook where
  name : String
  rules : List Rule := []

/-- A rule to be registered. Its kind may turn out not to be one. -/
structure RuleRequest where
  kind : Value
  exact : Bool
  guard : Guard
  emitter : Emitter
  before : Option ClassId := none

inductive RuleError where
  | notMarkerKind (book : String) (kind : Value)
  | duplicate (book : String) (kind : ClassId)
  | nothingBefore (book : String) (kind : ClassId)

namespace RuleError

def message (w : World) : RuleError → String
  | .notMarkerKind book v => book ++ " rule kind must be a Marker class, got " ++ v.spelled w.sort
  | .duplicate book c => "Duplicate " ++ book ++ " rule for " ++ Text.spell c.simpleName
  | .nothingBefore book c =>
    "Cannot insert before " ++ Text.spell c.simpleName ++ ": no " ++ book ++ " rule registered"

end RuleError

namespace RuleBook

variable (w : World)

def insertBefore (kind : ClassId) (r : Rule) : List Rule → List Rule
  | [] => []
  | s :: rest => if s.kind = kind then r :: s :: rest else s :: insertBefore kind r rest

def markerKind? (v : Value) : Option ClassId :=
  match v with
  | .type (.cls c) => if w.derives c (ClassId.marker "Marker") then some c else none
  | _ => none

def register (b : RuleBook) (q : RuleRequest) : Except RuleError RuleBook :=
  match markerKind? w q.kind with
  | none => .error (.notMarkerKind b.name q.kind)
  | some kind =>
    let r : Rule := ⟨kind, q.exact, q.guard, q.emitter⟩
    if b.rules.any fun s => s.kind = kind && s.exact == q.exact then .error (.duplicate b.name kind)
    else match q.before with
      | none => .ok { b with rules := b.rules ++ [r] }
      | some c =>
        if b.rules.any (·.kind = c) then .ok { b with rules := insertBefore c r b.rules }
        else .error (.nothingBefore b.name c)

def registered (b : RuleBook) (kind : ClassId) : LogRecord :=
  .registry ("Registered " ++ b.name ++ " rule: " ++ Text.spell kind.simpleName)

def find? (b : RuleBook) (m : Marker) (d : Descriptor) : Option Rule :=
  b.rules.find? fun r => r.applies w m d

def stock : RuleBook :=
  let rule (shape : MarkerShape) (exact : Bool) (guard : Guard) : Rule :=
    ⟨shape.kind, exact, guard, .stock shape⟩
  { name := "attribute"
    rules :=
      [rule .localizable false .onText, rule .category true .always, rule .required false .always,
        rule .editor false .always, rule .refreshProperties false .always,
        rule .typeConverter false .always, rule .localizedDescription true .always,
        rule .description false .always, rule .defaultValue true .always,
        rule .modelValueCalculatorWrapper true .always, rule .modelReadOnly true .always,
        rule .readOnly true .always] }

/-- The book to consult: an empty one gives way to the stock rules. -/
def orStock (b : RuleBook) : RuleBook := if b.rules.isEmpty then stock else b

def translate (b : RuleBook) (m : Marker) (d : Descriptor) : Emitting (Option String) := do
  match b.orStock.find? w m d with
  | none => return none
  | some r => return (← r.emitter.text w m d).filter (· ≠ "")

/-- The markers to translate: those attached, and on texts that do not say whether they are
localizable, that they are. -/
def markersToTranslate (d : Descriptor) : List Marker :=
  if d.type.isClass ClassId.str && !d.has w MarkerShape.localizable.kind then
    d.markers ++ [Marker.stock .localizable [.bool true]]
  else d.markers

def translateAll (b : RuleBook) (d : Descriptor) : Emitting (List String) := do
  return (← (markersToTranslate w d).mapM fun m => b.translate w m d).filterMap id

theorem orStock_stock : stock.orStock = stock := rfl

theorem mem_insertBefore {kind : ClassId} {r s : Rule} {l : List Rule}
    (h : l.any (·.kind = kind) = true) : s ∈ insertBefore kind r l ↔ s = r ∨ s ∈ l := by
  induction l with
  | nil => simp at h
  | cons x rest ih =>
    simp only [insertBefore]
    split
    · simp
    next hx =>
      have : rest.any (·.kind = kind) = true := by simpa [hx] using h
      simp only [List.mem_cons, ih this]
      constructor
      · rintro (h | h | h) <;> simp [h]
      · rintro (h | h | h) <;> simp [h]

end RuleBook

end ModelContracts
