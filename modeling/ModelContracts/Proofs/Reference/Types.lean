import ModelContracts.Proofs.Reference.Phrases

/-!
The phrase of a type expression. It tells which classes and which forms of the typing module the text
mentions and where they stand in it. Rendering a type, if it does not fail, writes this phrase.
-/

namespace ModelContracts

open Ledger

variable {w : World}

/-- A member of an enumeration, through its class. -/
def ClassId.memberPhrase (c : ClassId) (label : Option String) : Phrase :=
  c.phrase ++ [.word ("." ++ label.getD "None")]

theorem Written.member {L : Ledger} {c : ClassId} {head : String} (h : Written w L c.phrase head)
    (label : Option String) : Written w L (c.memberPhrase label) (head ++ "." ++ label.getD "None") := by
  rw [String.append_assoc]
  exact h.append (.word _)

namespace World

variable (w : World)

/-- What stands for a value of a literal type. -/
def literalPhrase : Value → Phrase
  | .member owner _ label _ => owner.memberPhrase label
  | v => [.word (v.spelled w.sort)]

mutual

/-- What is written for a type that can be written. -/
def typePhrase : TypeExpr → Phrase
  | .cls c => c.phrase
  | .forward s => [.word s]
  | .forwardRef s => [.word s]
  | .annotated base _ => typePhrase base
  | .union _ ts =>
    if (ts.filter (!·.isNoneType)).length = 1 && ts.any (·.isNoneType) then
      Phrase.bracketed (Phrase.form "Optional") (otherPhrases ts)
    else Phrase.bracketed (Phrase.form "Union") (typePhrases ts)
  | .literal vs => Phrase.bracketed (Phrase.form "Literal") (literalPhrases vs)
  | .generic _ origin args =>
    let inner := typePhrases args
    if inner.isEmpty then origin.phrase else Phrase.bracketed (origin.phrase) inner
  | .qualified q t => Phrase.bracketed (Phrase.form q.name) [typePhrase t]
  | .qualifier _ => []
  | .typeVar _ => []
  | .ellipsis => [.word "..."]
  | .params ts => .word "[" :: Phrase.commas (typePhrases ts) ++ [.word "]"]
  | .value v => valuePhrase v
termination_by structural t => t

def typePhrases : List TypeExpr → List Phrase
  | [] => []
  | t :: ts => typePhrase t :: typePhrases ts
termination_by structural ts => ts

/-- The phrases of all types but that of `None`. -/
def otherPhrases : List TypeExpr → List Phrase
  | [] => []
  | t :: ts => if t.isNoneType then otherPhrases ts else typePhrase t :: otherPhrases ts
termination_by structural ts => ts

def valuePhrase : Value → Phrase
  | .list items => .word "[" :: Phrase.commas (valuePhrases items) ++ [.word "]"]
  | .tuple items => .word "[" :: Phrase.commas (valuePhrases items) ++ [.word "]"]
  | .type t => typePhrase t
  | .text s => [.word s]
  | .none => [.word "None"]
  | _ => []
termination_by structural v => v

def valuePhrases : List Value → List Phrase
  | [] => []
  | v :: vs => valuePhrase v :: valuePhrases vs
termination_by structural vs => vs

def literalPhrases : List Value → List Phrase
  | [] => []
  | v :: vs => w.literalPhrase v :: literalPhrases vs
termination_by structural vs => vs

end

end World

namespace Recording

def literalText (w : World) : Value → Recording String
  | .member owner _ label _ => do return (← className w owner) ++ "." ++ label.getD none
  | v => pure (v.spelled w.sort)

theorem literals_cons (v : Value) (vs : List Value) :
    literals w (v :: vs) = (do
      let s ← literalText w v
      return s :: (← literals w vs)) := by
  cases v <;> simp [literals, literalText]

theorem literalText_tells (v : Value) :
    Tells w id (fun L s => Written w L (w.literalPhrase v) s) (literalText w v) := by
  unfold literalText World.literalPhrase
  split
  · exact (className_tells _).bind fun _ => .pure fun _ hhead => hhead.member _
  · exact .pure fun _ => .word _

theorem qualifier_mem_forms (q : Qualifier) : q.name ∈ typingForms := by cases q <;> decide

mutual

theorem text_tells (inside : Bool) : (t : TypeExpr) →
    Tells w id (fun L s => Written w L (w.typePhrase t) s) (text w inside t)
  | .cls c => className_tells c
  | .forward s => .pure fun _ => .word s
  | .forwardRef s => .pure fun _ => .word s
  | .annotated base _ => text_tells false base
  | .union _ ts => by
    unfold text World.typePhrase
    split_ifs
    · exact (form_tells (by decide)).bind fun _ => (others_tells ts).bind fun _ =>
        .pure fun _ hs hhead => hhead.bracketed hs
    · exact (form_tells (by decide)).bind fun _ => (texts_tells false ts).bind fun _ =>
        .pure fun _ hs hhead => hhead.bracketed hs
  | .literal vs => (literals_tells vs).bind fun _ => (form_tells (by decide)).bind fun _ =>
      .pure fun _ hhead hs => hhead.bracketed hs
  | .generic _ origin args => (className_tells origin).bind fun _ =>
      (texts_tells true args).bind fun _ => .pure fun L hs hhead => by
        unfold World.typePhrase
        rw [hs.isEmpty_eq]
        dsimp only
        split_ifs
        · exact hhead
        · exact hhead.bracketed hs
  | .qualified q t => (form_tells (qualifier_mem_forms q)).bind fun _ => (text_tells true t).bind fun _ =>
      .pure fun _ hs hhead => hhead.bracketed (.cons hs .nil)
  | .qualifier q => .throw _
  | .typeVar s => .throw _
  | .ellipsis => by
    unfold text
    split_ifs
    · exact .pure fun _ => .word _
    · exact .throw _
  | .params ts => by
    unfold text
    split_ifs
    · exact (texts_tells true ts).bind fun _ => .pure fun _ hs => hs.squared
    · exact .throw _
  | .value v => by
    unfold text
    split_ifs
    · exact listed_tells v
    · exact .throw _
termination_by structural t => t

theorem texts_tells (inside : Bool) : (ts : List TypeExpr) →
    Tells w id (fun L ss => WrittenAll w L (w.typePhrases ts) ss) (texts w inside ts)
  | [] => .pure fun _ => .nil
  | t :: ts => (text_tells inside t).bind fun _ => (texts_tells inside ts).bind fun _ =>
      .pure fun _ hrest hs => .cons hs hrest
termination_by structural ts => ts

theorem others_tells : (ts : List TypeExpr) →
    Tells w id (fun L ss => WrittenAll w L (w.otherPhrases ts) ss) (others w ts)
  | [] => .pure fun _ => .nil
  | t :: ts => by
    unfold others World.otherPhrases
    split_ifs
    · exact others_tells ts
    · exact (text_tells false t).bind fun _ => (others_tells ts).bind fun _ =>
        .pure fun _ hrest hs => .cons hs hrest
termination_by structural ts => ts

theorem listed_tells : (v : Value) →
    Tells w id (fun L s => Written w L (w.valuePhrase v) s) (listed w v)
  | .list items => (listedAll_tells items).bind fun _ => .pure fun _ hs => hs.squared
  | .tuple items => (listedAll_tells items).bind fun _ => .pure fun _ hs => hs.squared
  | .type t => text_tells true t
  | .text s => .pure fun _ => .word s
  | .none => .pure fun _ => .word _
  | .bool _ => .throw _
  | .int _ => .throw _
  | .float _ => .throw _
  | .complex _ _ => .throw _
  | .decimal _ => .throw _
  | .fraction _ => .throw _
  | .bytes _ => .throw _
  | .buffer _ => .throw _
  | .member _ _ _ _ => .throw _
  | .dict _ => .throw _
  | .date _ _ _ => .throw _
  | .moment _ _ _ _ _ _ => .throw _
  | .number _ _ => .throw _
  | .marker _ _ _ => .throw _
termination_by structural v => v

theorem listedAll_tells : (vs : List Value) →
    Tells w id (fun L ss => WrittenAll w L (w.valuePhrases vs) ss) (listedAll w vs)
  | [] => .pure fun _ => .nil
  | v :: vs => (listed_tells v).bind fun _ => (listedAll_tells vs).bind fun _ =>
      .pure fun _ hrest hs => .cons hs hrest
termination_by structural vs => vs

theorem literals_tells : (vs : List Value) →
    Tells w id (fun L ss => WrittenAll w L (w.literalPhrases vs) ss) (literals w vs)
  | [] => .pure fun _ => .nil
  | v :: vs => by
    rw [literals_cons]
    exact (literalText_tells v).bind fun _ => (literals_tells vs).bind fun _ =>
      .pure fun _ hrest hs => .cons hs hrest
termination_by structural vs => vs

end

end Recording

end ModelContracts
