import ModelContracts.Proofs.Expression.Syntax
import ModelContracts.Proofs.Source.Reading

/-!
The lines of a contract as a class statement. Every text stands in it as it was written: the decorators above
the class, the name, the base, and for each member the name, the type and whether it is a function under a
decorator. Where the members have names and each text is on one line, the statement is read back from the
lines; and the language takes it just when it takes the texts, unless the class is to have the one name that
nothing can have.
-/

namespace ModelContracts

open Text

/-! Names on a line. -/

namespace Text

/-- A character of a name. -/
def inName (c : Char) : Bool := identifierStart.contains c || identifierContinue.contains c

theorem inName_of_isPart {p : List Char} (h : isPart p = true) :
    p ≠ [] ∧ ∀ c ∈ p, inName c = true := by
  cases p with
  | nil => cases h
  | cons c cs =>
    simp only [isPart, Bool.and_eq_true, List.all_eq_true] at h
    refine ⟨List.cons_ne_nil c cs, List.forall_mem_cons.2 ⟨?_, h.1.2⟩⟩
    rw [inName, h.1.1, Bool.true_or]

/-- At no character of a name a reader takes a line apart. -/
theorem inName_of_isMark {c : Char} (h : isMark c = true) : inName c = false := by
  have hblanks : ∀ r ∈ runs blankChars.edges, ∀ k < r.2 - r.1,
      CharSet.inside false identifierStart.edges (r.1 + k) = false ∧
        CharSet.inside false identifierContinue.edges (r.1 + k) = false := by decide +kernel
  have hothers : ∀ d ∈ marks, inName d = false := by decide +kernel
  rw [isMark, Bool.or_eq_true] at h
  rcases h with hblank | hother
  · obtain ⟨r, hr, k, hk, hpoint⟩ := mem_runs (by decide) hblank
    obtain ⟨hstart, hcontinue⟩ := hblanks r hr k hk
    rw [inName, CharSet.contains, CharSet.contains, hpoint, hstart, hcontinue]
    rfl
  · exact hothers c (List.contains_iff_mem.1 hother)

theorem plain_of_isPart {s : String} (h : isPart s.toList = true) : Plain s where
  nonempty := (inName_of_isPart h).1
  marks c hc := by
    have hname := (inName_of_isPart h).2 c hc
    by_contra hmark
    rw [inName_of_isMark (by simpa using hmark)] at hname
    cases hname

/-- A name at the start of a line, and what stands behind the mark that follows it. -/
def named? (mark cs : List Char) : Option (String × List Char) :=
  if isPart (cs.takeWhile inName) then
    (after? mark (cs.dropWhile inName)).map fun rest => (String.ofList (cs.takeWhile inName), rest)
  else none

theorem named?_append {name : String} (h : isPart name.toList = true) {c : Char}
    (hc : inName c = false) (mark rest : List Char) :
    named? (c :: mark) (name.toList ++ (c :: mark ++ rest)) = some (name, rest) := by
  have hall := (inName_of_isPart h).2
  have htake : (name.toList ++ (c :: mark ++ rest)).takeWhile inName = name.toList := by
    rw [List.takeWhile_append_of_pos hall, List.cons_append,
      List.takeWhile_cons_of_neg (by simp [hc]), List.append_nil]
  have hdrop : (name.toList ++ (c :: mark ++ rest)).dropWhile inName = c :: mark ++ rest := by
    rw [List.dropWhile_append_of_pos hall, List.cons_append,
      List.dropWhile_cons_of_neg (by simp [hc])]
  rw [named?, htake, if_pos h, hdrop, after?_append, Option.map_some, String.ofList_toList]

/-- What stands before an ending. -/
def before? (ending cs : List Char) : Option (List Char) :=
  (after? ending.reverse cs.reverse).map List.reverse

theorem before?_append (cs ending : List Char) : before? ending (cs ++ ending) = some cs := by
  rw [before?, List.reverse_append, after?_append, Option.map_some, List.reverse_reverse]

/-- The lines of a text in which each line is ended. -/
def lines? (s : String) : Option (List (List Char)) :=
  if (pieces '\n' s.toList).getLast? = some [] then some (pieces '\n' s.toList).dropLast else none

theorem lines?_intercalate {ls : List String} (hne : ls ≠ []) (h : ∀ l ∈ ls, OneLine l) :
    lines? (String.intercalate "\n" ls ++ "\n") = some (ls.map String.toList) := by
  rw [lines?, toList_lines hne, pieces_lines fun l hl => (h l hl).1]
  simp

end Text

/-! Reading a class statement. -/

/-- A member as the body of a class has it: a name with a type, or a function under a decorator. -/
inductive BodyItem where
  | annotated (name type : String)
  | decorated (decorator name type : String)
deriving DecidableEq, Repr

namespace BodyItem

def name : BodyItem → String
  | .annotated name _ | .decorated _ name _ => name

def type : BodyItem → String
  | .annotated _ type | .decorated _ _ type => type

def isAnnotated : BodyItem → Bool
  | .annotated .. => true
  | .decorated .. => false

def decorator? : BodyItem → Option String
  | .annotated .. => none
  | .decorated decorator .. => some decorator

end BodyItem

/-- A class statement. Above it, for its base and for the types of its members stands any text. -/
structure ClassText where
  header : List String
  name : String
  base : String
  items : List BodyItem
deriving DecidableEq, Repr

namespace ClassText

def annotation? (cs : List Char) : Option BodyItem :=
  (after? indent.toList cs).bind fun rest =>
    (named? ": ".toList rest).map fun (name, type) => .annotated name (String.ofList type)

def decorator? (cs : List Char) : Option String :=
  (after? (indent ++ "@").toList cs).map String.ofList

def function? (decorator : String) (cs : List Char) : Option BodyItem :=
  (after? (indent ++ "def ").toList cs).bind fun rest =>
    (named? "(self) -> ".toList rest).bind fun (name, rest) =>
      (before? ": ...".toList rest).map fun type => .decorated decorator name (String.ofList type)

/-- The members on the lines of a body, where a decorator may wait for its function. -/
def items? : Option String → List (List Char) → Option (List BodyItem)
  | none, [] => some []
  | some _, [] => none
  | waiting, [] :: rest => items? waiting rest
  | some d, (c :: cs) :: rest =>
    (function? d (c :: cs)).bind fun i => (items? none rest).map (i :: ·)
  | none, (c :: cs) :: rest => match decorator? (c :: cs) with
    | some d => items? (some d) rest
    | none => (annotation? (c :: cs)).bind fun i => (items? none rest).map (i :: ·)

/-- A body is not empty: what has no members passes. -/
def body? (lines : List (List Char)) : Option (List BodyItem) :=
  if lines = [(indent ++ "pass").toList] then some []
  else (items? none lines).filter (!·.isEmpty)

/-- A line above the class that decorates it. -/
def isHeader (cs : List Char) : Bool := cs.head? = some '@'

def ofLines? (lines : List (List Char)) : Option ClassText :=
  let header := lines.takeWhile isHeader
  match lines.dropWhile isHeader with
  | [] => none
  | l :: body =>
    (after? "class ".toList l).bind fun rest => (named? ['('] rest).bind fun (name, rest) =>
      (before? "):".toList rest).bind fun base => (body? body).map fun items =>
        ⟨header.map String.ofList, name, String.ofList base, items⟩

/-- Reading a text as one class statement. -/
def ofText? (s : String) : Option ClassText := (lines? s).bind ofLines?

/-- Where a class statement takes expressions. -/
inductive Slot where
  | header
  | base
  | type

/-- A name that can be bound: it is no keyword and not the constant. -/
def Bindable (s : String) : Prop := isPart s.toList = true ∧ s ≠ Statement.constantName

/-- The language takes the statement, given which texts it takes where. -/
structure Accepted (takes : Slot → String → Prop) (t : ClassText) : Prop where
  name : Bindable t.name
  names : ∀ i ∈ t.items, Bindable i.name
  decorators : ∀ i ∈ t.items, ∀ d ∈ i.decorator?, isDotted d = true
  header : ∀ s ∈ t.header, takes .header s
  base : takes .base t.base
  types : ∀ i ∈ t.items, takes .type i.type

end ClassText

namespace Member

/-- A member as the lines of its contract have it. -/
def item (m : Member) (annotatedText decorator : String) : BodyItem :=
  if m.writable then .annotated m.name (m.annotatedType annotatedText)
  else .decorated decorator m.name (m.annotatedType annotatedText)

variable {m : Member} {annotatedText d : String}

@[simp] theorem name_item : (m.item annotatedText d).name = m.name := by
  unfold item
  split_ifs <;> rfl

@[simp] theorem type_item : (m.item annotatedText d).type = m.annotatedType annotatedText := by
  unfold item
  split_ifs <;> rfl

@[simp] theorem isAnnotated_item : (m.item annotatedText d).isAnnotated = m.writable := by
  unfold item
  split_ifs with h
  · exact h.symm
  · exact (Bool.not_eq_true _ ▸ h).symm

theorem decorator?_item {e : String} (h : e ∈ (m.item annotatedText d).decorator?) : e = d := by
  unfold item at h
  split_ifs at h
  · cases h
  · exact (Option.some.inj h).symm

end Member

namespace ClassText

variable {m : Member} {d : String} {rest : List (List Char)}

theorem annotation?_line {name : String} (h : isPart name.toList = true) (type : String) :
    annotation? (indent ++ name ++ ": " ++ type).toList = some (.annotated name type) := by
  have hline : (indent ++ name ++ ": " ++ type).toList =
      indent.toList ++ (name.toList ++ (':' :: [' '] ++ type.toList)) := by
    simp
  have hnamed := named?_append h (c := ':') (by decide +kernel) [' '] type.toList
  rw [annotation?, hline, after?_append, Option.bind_some]
  show (named? (':' :: [' ']) _).map _ = _
  rw [hnamed, Option.map_some]
  dsimp only
  rw [String.ofList_toList]

theorem decorator?_annotation {name : String} (h : isPart name.toList = true) (type : String) :
    decorator? (indent ++ name ++ ": " ++ type).toList = none := by
  obtain ⟨c, cs, hcs⟩ := List.exists_cons_of_ne_nil (inName_of_isPart h).1
  have hc : '@' ≠ c := by
    rintro rfl
    exact (plain_of_isPart h).not_mem (c := '@') (by decide) (by rw [hcs]; exact List.mem_cons_self)
  simp [decorator?, indent, hcs, after?, hc]

theorem decorator?_line (d : String) : decorator? (indent ++ "@" ++ d).toList = some d := by
  have hline : (indent ++ "@" ++ d).toList = (indent ++ "@").toList ++ d.toList := by simp
  rw [decorator?, hline, after?_append, Option.map_some, String.ofList_toList]

theorem function?_line {name : String} (h : isPart name.toList = true) (d type : String) :
    function? d (indent ++ "def " ++ name ++ "(self) -> " ++ type ++ ": ...").toList =
      some (.decorated d name type) := by
  have hline : (indent ++ "def " ++ name ++ "(self) -> " ++ type ++ ": ...").toList =
      (indent ++ "def ").toList ++ (name.toList ++
        ('(' :: "self) -> ".toList ++ (type.toList ++ ": ...".toList))) := by
    simp
  have hnamed := named?_append h (c := '(') (by decide +kernel) "self) -> ".toList
    (type.toList ++ ": ...".toList)
  rw [function?, hline, after?_append, Option.bind_some]
  show (named? ('(' :: "self) -> ".toList) _).bind _ = _
  rw [hnamed, Option.bind_some]
  dsimp only
  rw [before?_append, Option.map_some, String.ofList_toList]

theorem items?_blank (waiting : Option String) : items? waiting ([] :: rest) = items? waiting rest := by
  cases waiting <;> rfl

theorem items?_annotated {name : String} (h : isPart name.toList = true) (type : String) :
    items? none ((indent ++ name ++ ": " ++ type).toList :: rest) =
      (items? none rest).map (.annotated name type :: ·) := by
  have htyped := annotation?_line h type
  have hdecorator := decorator?_annotation h type
  have hstart : ∃ cs, (indent ++ name ++ ": " ++ type).toList = ' ' :: cs := by
    simp [indent]
  obtain ⟨cs, hcs⟩ := hstart
  rw [hcs] at htyped hdecorator ⊢
  rw [items?, hdecorator]
  dsimp only
  rw [htyped, Option.bind_some]

theorem items?_decorated {name : String} (h : isPart name.toList = true) (d type : String) :
    items? none ((indent ++ "@" ++ d).toList ::
        (indent ++ "def " ++ name ++ "(self) -> " ++ type ++ ": ...").toList :: rest) =
      (items? none rest).map (.decorated d name type :: ·) := by
  have hdecorator := decorator?_line d
  have hfunction := function?_line h d type
  have hstart : ∃ cs, (indent ++ "@" ++ d).toList = ' ' :: cs := by
    simp [indent]
  have hnext : ∃ cs, (indent ++ "def " ++ name ++ "(self) -> " ++ type ++ ": ...").toList =
      ' ' :: cs := by
    simp [indent]
  obtain ⟨cs, hcs⟩ := hstart
  obtain ⟨ds, hds⟩ := hnext
  rw [hcs] at hdecorator ⊢
  rw [hds] at hfunction ⊢
  rw [items?, hdecorator]
  dsimp only
  rw [items?, hfunction, Option.bind_some]

/-- The lines of members are read as these members, in order. -/
theorem items?_members {members : List Member} (h : ∀ m ∈ members, isPart m.name.toList = true)
    (annotatedText d : String) :
    items? none ((members.flatMap fun m => m.lines annotatedText d).map String.toList) =
      some (members.map fun m => m.item annotatedText d) := by
  -- A member is one line, or a blank line, a decorator and a function; no decorator waits between members.
  induction members with
  | nil => rfl
  | cons m members ih =>
    have hname := h m List.mem_cons_self
    have hmembers := ih fun k hk => h k (List.mem_cons_of_mem m hk)
    rw [List.flatMap_cons, List.map_append, Member.lines, List.map_cons, Member.item]
    cases hwritable : m.writable with
    | true =>
      simp only [if_true, List.map_cons, List.map_nil, List.cons_append, List.nil_append]
      rw [items?_annotated hname, hmembers]
      rfl
    | false =>
      simp only [Bool.false_eq_true, if_false, List.map_cons, List.map_nil, List.cons_append,
        List.nil_append, String.toList_empty]
      rw [items?_blank, items?_decorated hname, hmembers]
      rfl

end ClassText

/-! The lines of a contract. -/

/-- A name of ASCII characters that is no keyword. -/
def Text.IsAsciiName (s : String) : Prop := isPart s.toList = true ∧ ∀ c ∈ s.toList, c.toNat < 128

instance (s : String) : Decidable (IsAsciiName s) := inferInstanceAs (Decidable (_ ∧ _))

/-- A contract with names for its members, each its own, and texts that stand in one line. -/
structure Contract.Orderly (k : Contract) (annotatedText : String) : Prop where
  name : IsAsciiName k.name
  members : ∀ m ∈ k.members, IsAsciiName m.name ∧ m.name.toList.head? ≠ some '_'
  distinct : k.memberNames.Nodup
  header : ∀ l ∈ k.header, l.toList.head? = some '@' ∧ OneLine l
  base : OneLine k.baseText
  types : ∀ m ∈ k.members, OneLine (m.annotatedType annotatedText)

namespace Contract

/-- The lines of a contract as a text of its own. -/
def block (k : Contract) (annotatedText : String) : String :=
  String.intercalate "\n" (k.lines annotatedText) ++ "\n"

/-- The class statement that a contract stands for. -/
def classText (k : Contract) (annotatedText : String) : ClassText :=
  ⟨k.header, k.name, k.baseText, k.members.map fun m => m.item annotatedText k.decorator⟩

variable {k : Contract} {annotatedText : String}

theorem Orderly.lines_oneLine (h : k.Orderly annotatedText) :
    ∀ l ∈ k.lines annotatedText, OneLine l := by
  intro l hl
  rcases List.mem_append.1 hl with hl | hl
  · exact (h.header l hl).2
  rcases List.mem_cons.1 hl with rfl | hl
  · exact ((((by decide : OneLine "class ").append (plain_of_isPart h.name.1).oneLine).append
      (by decide)).append h.base).append (by decide)
  · exact (Statement.bodyLine_of_mem (fun m hm => ⟨plain_of_isPart (h.members m hm).1.1,
      h.types m hm⟩) l hl).oneLine

theorem body?_bodyLines (annotatedText : String) (h : ∀ m ∈ k.members, isPart m.name.toList = true) :
    ClassText.body? ((k.bodyLines annotatedText).map String.toList) =
      some (k.members.map fun m => m.item annotatedText k.decorator) := by
  unfold bodyLines
  split_ifs with hnone
  · rw [List.isEmpty_iff.1 hnone]
    rfl
  · have hitems := ClassText.items?_members h annotatedText k.decorator
    have hpass : ClassText.items? none [(indent ++ "pass").toList] = none := by decide +kernel
    rw [ClassText.body?, if_neg, hitems, Option.filter_some, if_pos]
    · cases hmembers : k.members with
      | nil => exact (hnone (by rw [hmembers]; rfl)).elim
      | cons => rfl
    · intro hsame
      rw [hsame, hpass] at hitems
      cases hitems

/-- The text of a contract is read as the class statement that it stands for. -/
theorem ofText?_lines (h : k.Orderly annotatedText) :
    ClassText.ofText? (k.block annotatedText) = some (k.classText annotatedText) := by
  have hne : k.lines annotatedText ≠ [] := by simp [lines]
  have hheader : ∀ cs ∈ k.header.map String.toList, ClassText.isHeader cs = true := by
    intro cs hcs
    obtain ⟨l, hl, rfl⟩ := List.mem_map.1 hcs
    exact decide_eq_true (h.header l hl).1
  have hlines : (k.lines annotatedText).map String.toList = k.header.map String.toList ++
      k.classLine.toList :: (k.bodyLines annotatedText).map String.toList := by
    simp [lines]
  have hclass : k.classLine.toList =
      "class ".toList ++ (k.name.toList ++ ('(' :: [] ++ (k.baseText.toList ++ "):".toList))) := by
    simp [toList_classLine, classHead]
  have hstop : ¬ClassText.isHeader k.classLine.toList = true := by
    rw [hclass]
    simp [ClassText.isHeader]
  have hnamed := named?_append h.name.1 (c := '(') (by decide +kernel) []
    (k.baseText.toList ++ "):".toList)
  have hbody := body?_bodyLines annotatedText fun m hm => (h.members m hm).1.1
  have htexts : (k.header.map String.toList).map String.ofList = k.header := by
    rw [List.map_map]
    simp
  rw [block, ClassText.ofText?, lines?_intercalate hne h.lines_oneLine, Option.bind_some, hlines,
    ClassText.ofLines?, List.takeWhile_append_of_pos hheader, List.dropWhile_append_of_pos hheader,
    List.takeWhile_cons_of_neg hstop, List.dropWhile_cons_of_neg hstop, List.append_nil]
  dsimp only
  rw [hclass, after?_append, Option.bind_some, hnamed, Option.bind_some]
  dsimp only
  rw [before?_append, Option.bind_some, hbody, Option.map_some, htexts, String.ofList_toList]
  rfl

theorem Orderly.bindable (h : k.Orderly annotatedText) {m : Member} (hm : m ∈ k.members) :
    ClassText.Bindable m.name := by
  obtain ⟨hname, hstart⟩ := h.members m hm
  refine ⟨hname.1, fun hsame => hstart ?_⟩
  rw [hsame]
  rfl

theorem isDotted_decorator (k : Contract) : isDotted k.decorator = true := by
  unfold decorator
  split_ifs <;> decide +kernel

/-- The language takes the class statement just when it takes its texts. -/
theorem Orderly.accepted_iff (h : k.Orderly annotatedText) (hname : k.name ≠ Statement.constantName)
    (takes : ClassText.Slot → String → Prop) : (k.classText annotatedText).Accepted takes ↔
      (∀ s ∈ k.header, takes .header s) ∧ takes .base k.baseText ∧
        ∀ m ∈ k.members, takes .type (m.annotatedType annotatedText) := by
  constructor
  · intro ha
    refine ⟨ha.header, ha.base, fun m hm => ?_⟩
    have htype := ha.types _ (List.mem_map_of_mem hm)
    rwa [Member.type_item] at htype
  · rintro ⟨hheader, hbase, htypes⟩
    refine ⟨⟨h.name.1, hname⟩, fun i hi => ?_, fun i hi d hd => ?_, hheader, hbase, fun i hi => ?_⟩
    · obtain ⟨m, hm, rfl⟩ := List.mem_map.1 hi
      rw [Member.name_item]
      exact h.bindable hm
    · obtain ⟨m, hm, rfl⟩ := List.mem_map.1 hi
      rw [Member.decorator?_item hd]
      exact isDotted_decorator k
    · obtain ⟨m, hm, rfl⟩ := List.mem_map.1 hi
      rw [Member.type_item]
      exact htypes m hm

end Contract

end ModelContracts
