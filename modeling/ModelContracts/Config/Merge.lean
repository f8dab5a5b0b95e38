import ModelContracts.TypeExpr.Entries

/-!
Merging of nested mappings. A value of the second mapping takes the place of the first one's, except
that two mappings at the same key are merged in turn. The keys of the first keep their order.
-/

namespace ModelContracts

mutual

def mergeValue (v : Value) (before : Option Value) : Value :=
  match v with
  | .dict entries => match before with
    | some (.dict base) => .dict (mergeEntries base entries)
    | _ => .dict entries
  | v => v
termination_by structural v

def mergeEntries (base : Entries) (entries : Entries) : Entries :=
  match entries with
  | [] => base
  | e :: rest => mergeEntries (mergeEntry base e) rest
termination_by structural entries

def mergeEntry (base : Entries) (e : Value × Value) : Entries :=
  match e with
  | (k, v) => base.set k (mergeValue v (base.find? k))
termination_by structural e

end

theorem mergeEntries_nil (base : Entries) : mergeEntries base [] = base := by
  simp [mergeEntries]

end ModelContracts
