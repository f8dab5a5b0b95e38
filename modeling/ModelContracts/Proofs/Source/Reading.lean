import Mathlib.Data.List.Forall2
import ModelContracts.Proofs.Source.Stamped
import ModelContracts.Proofs.Text.Pieces
import ModelContracts.Proofs.Text.Plain
import ModelContracts.Reference.Rendering

/-!
The statements of a rendered source. A reader takes a line apart at blanks, brackets, colons, commas and
the signs of decorators. So where no name has any of these, each import is read as that import, and the
lines of each contract as the declaration of one class, in the order in which they were rendered.
-/

namespace ModelContracts

open Text

/-! Trimming and cutting. -/

namespace Text

variable {s : String}

/-- What neither starts nor ends with a blank is trimmed already. -/
theorem trimmedChars_of_ends {cs : List Char} (hhead : ∀ c ∈ cs.head?, isBlank c = false)
    (hlast : ∀ c ∈ cs.getLast?, isBlank c = false) : trimmedChars cs = cs := by
  rcases cs.eq_nil_or_concat with rfl | ⟨front, last, rfl⟩
  · rfl
  rcases front with _ | ⟨first, middle⟩
  · have hblank := hlast last (by simp)
    simp [trimmedChars, hblank]
  · rw [List.concat_eq_append] at hhead hlast ⊢
    exact Statement.trimmedChars_eq middle (hhead first rfl) (hlast last List.getLast?_concat)

theorem trimmedChars_blank {c : Char} (cs : List Char) (h : isBlank c = true) :
    trimmedChars (c :: cs) = trimmedChars cs := by
  rw [trimmedChars, List.dropWhile_cons_of_pos h, trimmedChars]

end Text

namespace Statement

variable {m a : String} {names : List String}

theorem string_of_plain (h : Plain m) : string m.toList = m := by
  rw [string, h.trimmed, String.ofList_toList]

/-! Imports. -/

/-- A word between two blanks is found behind what has no blanks. -/
theorem around_append (word : String) {left : List Char} (right : List Char) (h : ' ' ∉ left) :
    around word (left ++ ((" " ++ word ++ " ").toList ++ right)) = some (left, right) := by
  have hword : (" " ++ word ++ " ").toList ++ right = ' ' :: ((word ++ " ").toList ++ right) := by
    simp
  induction left with
  | nil =>
    have hafter := after?_append (" " ++ word ++ " ").toList right
    rw [hword] at hafter
    rw [List.nil_append, hword, around, hafter]
  | cons c rest ih =>
    obtain ⟨hc, hrest⟩ := List.ne_and_not_mem_of_not_mem_cons h
    have hnot : after? (" " ++ word ++ " ").toList
        (c :: (rest ++ ((" " ++ word ++ " ").toList ++ right))) = none := by
      have hstart : (" " ++ word ++ " ").toList = ' ' :: (word ++ " ").toList := by simp
      rw [hstart, after?, if_neg hc]
    rw [List.cons_append, around, hnot, ih hrest]
    rfl

/-- Names with commas between them are told apart again. -/
theorem namesOf_commaList (hne : names ≠ []) (h : ∀ n ∈ names, Plain n) :
    namesOf (commaList names).toList = names := by
  have hrest : ∀ names : List String, names ≠ [] → (∀ n ∈ names, Plain n) →
      (pieces ',' (commaList names).toList).map string = names := by
    intro names
    induction names with
    | nil => exact fun hne _ => (hne rfl).elim
    | cons n rest ih =>
      intro _ h
      have hn := h n List.mem_cons_self
      have hcomma : ',' ∉ n.toList := hn.not_mem (by decide)
      cases rest with
      | nil =>
        have hone : commaList [n] = n := by simp [commaList]
        rw [hone, pieces_of_not_mem hcomma, List.map_singleton, string_of_plain hn]
      | cons m rest =>
        have htail := ih (List.cons_ne_nil m rest) fun k hk => h k (List.mem_cons_of_mem n hk)
        have hlist : (commaList (n :: m :: rest)).toList =
            n.toList ++ ',' :: (' ' :: (commaList (m :: rest)).toList) := by
          simp [commaList, String.intercalate_cons_cons]
        -- The blank behind a comma is trimmed with the name that follows it.
        have hblank (cs : List Char) : (pieces ',' (' ' :: cs)).map string =
            (pieces ',' cs).map string := by
          rw [pieces, if_neg (by decide)]
          rcases hp : pieces ',' cs with _ | ⟨p, ps⟩
          · exact (pieces_ne_nil _ _ hp).elim
          · simp only [List.map_cons, string, trimmedChars_blank p (by decide : isBlank ' ' = true)]
        rw [hlist, pieces_line _ hcomma, List.map_cons, string_of_plain hn, hblank, htail]
  exact hrest names hne h

/-- The last of some names is the end of the text that lists them. -/
theorem last_commaList (hne : names ≠ []) (h : ∀ n ∈ names, Plain n) :
    (commaList names).toList ≠ [] ∧
      ∀ c ∈ (commaList names).toList.getLast?, isBlank c = false := by
  induction names with
  | nil => exact (hne rfl).elim
  | cons n rest ih =>
    have hn := h n List.mem_cons_self
    cases rest with
    | nil =>
      have hone : commaList [n] = n := by simp [commaList]
      rw [hone]
      exact ⟨hn.nonempty, fun c hc => hn.not_blank (List.mem_of_getLast? hc)⟩
    | cons m rest =>
      obtain ⟨hrest, hlast⟩ :=
        ih (List.cons_ne_nil m rest) fun k hk => h k (List.mem_cons_of_mem n hk)
      have hlist : (commaList (n :: m :: rest)).toList =
          n.toList ++ ", ".toList ++ (commaList (m :: rest)).toList := by
        simp [commaList, String.intercalate_cons_cons]
      rw [hlist, List.getLast?_append_of_ne_nil _ hrest]
      exact ⟨List.append_ne_nil_of_right_ne_nil _ hrest, hlast⟩

theorem plainOf_importNames (hm : Plain m) (hfuture : m ≠ "__future__") (hne : names ≠ [])
    (hnames : ∀ n ∈ names, Plain n) :
    plainOf ("from " ++ m ++ " import " ++ commaList names).toList = .importNames m names := by
  have hline : ("from " ++ m ++ " import " ++ commaList names).toList =
      "from ".toList ++ (m.toList ++ ((" " ++ "import" ++ " ").toList ++ (commaList names).toList)) := by
    simp
  obtain ⟨hlist, hlast⟩ := last_commaList hne hnames
  have htrimmed : trimmedChars ("from " ++ m ++ " import " ++ commaList names).toList =
      ("from " ++ m ++ " import " ++ commaList names).toList := by
    refine trimmedChars_of_ends (fun c hc => ?_) fun c hc => hlast c ?_
    · rw [hline] at hc
      cases hc
      decide
    · rwa [String.toList_append, List.getLast?_append_of_ne_nil _ hlist] at hc
  have hstart : ∀ cs : List Char, (("from ".toList ++ cs).isEmpty ||
      ("from ".toList ++ cs).head? = some '#' || "from ".toList ++ cs = "pass".toList) = false := by
    intro cs
    simp
  rw [plainOf, htrimmed, hline, hstart, after?_append]
  simp only [Bool.false_eq_true, if_false, importNames]
  rw [around_append _ _ (hm.not_mem (by decide))]
  simp only [string_of_plain hm, if_neg hfuture, namesOf_commaList hne hnames]

theorem plainOf_importModule (hm : Plain m) (ha : Plain a) :
    plainOf ("import " ++ m ++ " as " ++ a).toList = .importModule m a := by
  have hline : ("import " ++ m ++ " as " ++ a).toList =
      "import ".toList ++ (m.toList ++ ((" " ++ "as" ++ " ").toList ++ a.toList)) := by
    simp
  have htrimmed : trimmedChars ("import " ++ m ++ " as " ++ a).toList =
      ("import " ++ m ++ " as " ++ a).toList := by
    refine trimmedChars_of_ends (fun c hc => ?_) fun c hc =>
      ha.not_blank (List.mem_of_getLast? ?_)
    · rw [hline] at hc
      cases hc
      decide
    · rwa [String.toList_append, List.getLast?_append_of_ne_nil _ ha.nonempty] at hc
  have hstart : ∀ cs : List Char, (("import ".toList ++ cs).isEmpty ||
      ("import ".toList ++ cs).head? = some '#' || "import ".toList ++ cs = "pass".toList) = false := by
    intro cs
    simp
  have hfrom : ∀ cs : List Char, after? "from ".toList ("import ".toList ++ cs) = none := by
    intro cs
    simp [after?]
  rw [plainOf, htrimmed, hline, hstart, hfrom, after?_append]
  simp only [Bool.false_eq_true, if_false, importModule]
  rw [around_append _ _ (hm.not_mem (by decide))]
  simp only [string_of_plain hm, string_of_plain ha]

/-! Lines and blocks. -/

theorem numbered_append (n : Nat) (ls ks : List (List Char)) :
    numbered n (ls ++ ks) = numbered n ls ++ numbered (n + ls.length) ks := by
  induction ls generalizing n with
  | nil => rfl
  | cons l ls ih =>
    rw [List.cons_append, numbered, ih, numbered, List.length_cons, Nat.add_right_comm]
    rfl

theorem mem_numbered {n : Nat} {ls : List (List Char)} {l : Line} (h : l ∈ numbered n ls) :
    l.2 ∈ ls := by
  induction ls generalizing n with
  | nil => cases h
  | cons k ls ih =>
    rcases List.mem_cons.1 h with rfl | h
    · exact List.mem_cons_self
    · exact List.mem_cons_of_mem k (ih h)

theorem blocks_append {ls : List Line} (lines : List Line) (h : ∀ l ∈ ls, isInner l = true) :
    blocks (ls ++ lines) = blocks lines := by
  induction ls with
  | nil => rfl
  | cons l ls ih =>
    rw [List.cons_append, blocks_inner _ (h l List.mem_cons_self),
      ih fun k hk => h k (List.mem_cons_of_mem l hk)]

/-- A line that is read as a plain statement wherever it stands. -/
structure PlainLine (l : String) (p : PlainStatement) : Prop where
  margin : ∀ n, isInner (n, l.toList) = false
  undecorated : l.toList.head? ≠ some '@'
  noClass : after? "class ".toList l.toList = none
  noFunction : after? "def ".toList l.toList = none
  reads : plainOf l.toList = p

/-- A statement that is a plain one, on whichever line. -/
def IsPlain (p : PlainStatement) (s : Statement) : Prop := ∃ n, s = .plain n p

theorem ofBlocks_plains {ls : List String} {ps : List PlainStatement}
    (h : List.Forall₂ PlainLine ls ps) (n : Nat) (lines : List Line) :
    ∃ sts, ofBlocks [] (blocks (numbered n (ls.map String.toList) ++ lines)) =
      sts ++ ofBlocks [] (blocks lines) ∧ List.Forall₂ IsPlain ps sts := by
  induction h generalizing n with
  | nil => exact ⟨[], rfl, .nil⟩
  | @cons l p _ _ hl _ ih =>
    obtain ⟨sts, hsts, hplain⟩ := ih (n + 1)
    refine ⟨.plain n p :: sts, ?_, .cons ⟨n, rfl⟩ hplain⟩
    rw [List.map_cons, numbered, List.cons_append,
      ofBlocks_plain _ (hl.margin n) hl.undecorated hl.noClass hl.noFunction, hl.reads, hsts]
    rfl

/-- The decorators on some lines. -/
def decoratorsOf (n : Nat) (header : List String) : List Decorator :=
  (numbered n (header.map String.toList)).map fun l => decorator l.1 l.2

theorem ofBlocks_decorators {header : List String} (h : ∀ l ∈ header, l.toList.head? = some '@')
    (ds : List Decorator) (n : Nat) (lines : List Line) :
    ofBlocks ds (blocks (numbered n (header.map String.toList) ++ lines)) =
      ofBlocks (ds ++ decoratorsOf n header) (blocks lines) := by
  induction header generalizing n ds with
  | nil => simp [numbered, decoratorsOf]
  | cons l header ih =>
    have hl := h l List.mem_cons_self
    have hmargin : isInner (n, l.toList) = false := by
      rcases hcs : l.toList with _ | ⟨c, cs⟩ <;> rw [hcs] at hl <;> cases hl
      rfl
    have hds : ds ++ decoratorsOf n (l :: header) =
        ds ++ [decorator n l.toList] ++ decoratorsOf (n + 1) header := by
      simp [decoratorsOf, numbered]
    rw [List.map_cons, numbered, List.cons_append, blocks_margin _ hmargin, ofBlocks, if_pos hl,
      ih (fun k hk => h k (List.mem_cons_of_mem l hk)), hds]

/-- What stands before a bracket and inside, up to the bracket that ends the line. -/
theorem called_append {name : List Char} (inner : List Char) (h : '(' ∉ name) :
    called (name ++ '(' :: (inner ++ [')'])) = (name, some inner) := by
  obtain ⟨htake, hdrop⟩ := span_upto h (inner ++ [')'])
  rw [called, hdrop, htake]
  simp

/-- What stands before a bracket, whatever is inside. -/
theorem called_fst {name : List Char} (rest : List Char) (h : '(' ∉ name) :
    (called (name ++ '(' :: rest)).1 = name := by
  obtain ⟨htake, hdrop⟩ := span_upto h rest
  rw [called, hdrop]
  exact htake

/-- What is not called has no brackets. -/
theorem called_of_not_mem {name : List Char} (h : '(' ∉ name) : called name = (name, none) := by
  have hdrop : name.dropWhile (· ≠ '(') = [] := by
    rw [List.dropWhile_eq_nil_iff]
    intro c hc
    refine decide_eq_true ?_
    rintro rfl
    exact h hc
  rw [called, hdrop]

end Statement

namespace Contract

/-- What stands between the word of a class statement and its colon. -/
def classHead (k : Contract) : List Char := k.name.toList ++ '(' :: (k.baseText.toList ++ [')'])

variable {k : Contract}

theorem toList_classLine (k : Contract) :
    k.classLine.toList = "class ".toList ++ (k.classHead ++ [':']) := by
  simp [classLine, classHead]

theorem colon_not_mem_classHead (hname : Plain k.name) (hbase : ':' ∉ k.baseText.toList) :
    ':' ∉ k.classHead := by
  intro hmem
  simp only [classHead, List.mem_append, List.mem_cons, List.not_mem_nil, or_false] at hmem
  rcases hmem with hmem | hmem | hmem | hmem
  · exact hname.not_mem (by decide) hmem
  · cases hmem
  · exact hbase hmem
  · cases hmem

end Contract

namespace Statement

theorem ofBlocks_class {k : Contract} (hname : Plain k.name) (hbase : Plain k.baseText)
    (ds : List Decorator) (n : Nat) (lines : List Line) :
    ofBlocks ds (blocks ((n, k.classLine.toList) :: lines)) =
      .classDef ds n k.name (some k.baseText) (definitions [] (lines.takeWhile isInner)) ::
        ofBlocks [] (blocks lines) := by
  have hhead := (span_upto (k.colon_not_mem_classHead hname (hbase.not_mem (by decide))) []).1
  have hkept : (some k.baseText).filter (· ≠ "") = some k.baseText := by
    have hne : k.baseText ≠ "" := by
      rintro hempty
      exact hbase.nonempty (by rw [hempty]; rfl)
    simp [hne]
  have hmargin : isInner (n, k.classLine.toList) = false := by
    rw [k.toList_classLine]
    rfl
  have hat : k.classLine.toList.head? ≠ some '@' := by
    rw [k.toList_classLine]
    simp
  rw [blocks_margin _ hmargin, ofBlocks, if_neg hat, k.toList_classLine, after?_append]
  dsimp only
  rw [classOf, hhead, Contract.classHead, called_append _ (hname.not_mem (by decide))]
  simp only [string_of_plain hname, Option.map_some, string_of_plain hbase, hkept]

end Statement

/-! Contracts. -/

/-- A contract of which every line is read as it was rendered: its names are not taken apart, and the
types of its members stand in one line. -/
structure Contract.Legible (k : Contract) (annotatedText : String) : Prop where
  name : Plain k.name
  base : Plain k.baseText
  header : ∀ l ∈ k.header, l.toList.head? = some '@' ∧ OneLine l
  members : ∀ m ∈ k.members, Plain m.name ∧ OneLine (m.annotatedType annotatedText)

/-- The definition as which the lines of a read-only member are read. -/
def Member.ReadAs (decorator : String) (m : Member) (f : Definition) : Prop :=
  f.name = m.name ∧ ∃ n, f.decorators = [⟨n, decorator, none⟩]

/-- The members that are read through a property. -/
def Contract.accessors (k : Contract) : List Member := k.members.filter (!·.writable)

/-- The declaration of a class as which the lines of a contract are read. -/
inductive Contract.ReadAs (k : Contract) : Statement → Prop
  | declaration (n line : Nat) {body : List Definition}
    (h : List.Forall₂ (Member.ReadAs k.decorator) k.accessors body) :
    ReadAs k (.classDef (Statement.decoratorsOf n k.header) line k.name (some k.baseText) body)

namespace Statement

theorem trimmedChars_indent (s : String) :
    trimmedChars (indent ++ s).toList = trimmedChars s.toList := by
  have hindent : (indent ++ s).toList = ' ' :: ' ' :: ' ' :: ' ' :: s.toList := by
    simp [indent]
  have hblank : isBlank ' ' = true := by decide
  rw [hindent]
  simp only [trimmedChars_blank _ hblank]

theorem isInner_indent (n : Nat) (s : String) : isInner (n, (indent ++ s).toList) = true := by
  have hindent : (indent ++ s).toList = ' ' :: ' ' :: ' ' :: ' ' :: s.toList := by
    simp [indent]
  rw [hindent]
  rfl

/-- Up to a character that is no blank nothing is trimmed but blanks at the start. -/
theorem trimmedChars_upto {front : List Char} {c : Char} (hc : isBlank c = false)
    (hfront : ∀ d ∈ front.head?, isBlank d = false) (rest : List Char) :
    ∃ rest', trimmedChars (front ++ c :: rest) = front ++ c :: rest' := by
  have hstart : (front ++ c :: rest).dropWhile isBlank = front ++ c :: rest := by
    rcases front with _ | ⟨d, front⟩
    · exact List.dropWhile_cons_of_neg (by simp [hc])
    · exact List.dropWhile_cons_of_neg (by simp [hfront d rfl])
  have hend (xs : List Char) : (xs ++ c :: front.reverse).dropWhile isBlank =
      xs.dropWhile isBlank ++ c :: front.reverse := by
    induction xs with
    | nil => simp [hc]
    | cons a xs ih =>
      rw [List.cons_append, List.dropWhile_cons, List.dropWhile_cons, ih]
      split_ifs <;> rfl
  refine ⟨(rest.reverse.dropWhile isBlank).reverse, ?_⟩
  rw [trimmedChars, hstart, List.reverse_append, List.reverse_cons, List.append_assoc,
    List.singleton_append, hend]
  simp

theorem trimmedChars_first {c : Char} (hc : isBlank c = false) (rest : List Char) :
    ∃ rest', trimmedChars (c :: rest) = c :: rest' :=
  @trimmedChars_upto [] c hc (by simp) rest

theorem plain_decorator (k : Contract) : Plain k.decorator := by
  unfold Contract.decorator
  split_ifs <;> decide

/-! The lines of members. -/

section Members

variable {m : Member} {annotatedText d : String} {waiting : List Decorator}

/-- No word with a blank stands before a mark that has no blank before it and is not in the word. -/
theorem after?_word {front : List Char} {mark : Char} (hfront : ' ' ∉ front) (rest : List Char)
    {word : List Char} (hmark : mark ∉ word) (hblank : ' ' ∈ word) :
    after? word (front ++ mark :: rest) = none := by
  induction front generalizing word with
  | nil =>
    cases word with
    | nil => cases hblank
    | cons a word =>
      have hne : a ≠ mark := by
        rintro rfl
        exact hmark List.mem_cons_self
      simp [after?, hne]
  | cons c front ih =>
    obtain ⟨hc, hnext⟩ := List.ne_and_not_mem_of_not_mem_cons hfront
    cases word with
    | nil => cases hblank
    | cons a word =>
      rw [List.cons_append, after?]
      split_ifs with heq
      · subst heq
        exact ih hnext (fun hmem => hmark (List.mem_cons_of_mem _ hmem))
          ((List.mem_cons.1 hblank).resolve_left hc)
      · rfl

/-- What starts with a name and a colon defines nothing. -/
theorem definedName?_annotation {name : List Char} (rest : List Char) (h : ' ' ∉ name) :
    definedName? (name ++ ':' :: rest) = none := by
  rw [definedName?, after?_word h rest (by decide) (by decide),
    after?_word h rest (by decide) (by decide)]

theorem definitions_skipped {n : Nat} {cs : List Char} (rest : List Line)
    (hat : (trimmedChars cs).head? ≠ some '@') (hnone : definedName? (trimmedChars cs) = none) :
    definitions waiting ((n, cs) :: rest) = definitions waiting rest := by
  rw [definitions, if_neg hat, hnone]

theorem definitions_blank (n : Nat) (rest : List Line) :
    definitions waiting ((n, []) :: rest) = definitions waiting rest :=
  definitions_skipped rest (by simp [trimmedChars]) rfl

theorem definitions_pass (n : Nat) (rest : List Line) :
    definitions waiting ((n, (indent ++ "pass").toList) :: rest) = definitions waiting rest :=
  definitions_skipped rest (by decide +kernel) (by decide +kernel)

/-- A name, up to the colon behind it, is not trimmed. -/
theorem trimmedChars_annotated {name : String} (hname : Plain name) (type : String) :
    ∃ tail, trimmedChars (indent ++ name ++ ": " ++ type).toList = name.toList ++ ':' :: tail := by
  have hhead : ∀ d ∈ name.toList.head?, isBlank d = false :=
    fun d hd => hname.not_blank (List.mem_of_mem_head? hd)
  obtain ⟨tail, htail⟩ := trimmedChars_upto (by decide : isBlank ':' = false) hhead
    (' ' :: type.toList)
  have hchars : (name ++ (": " ++ type)).toList = name.toList ++ ':' :: ' ' :: type.toList := by
    simp
  exact ⟨tail, by rw [String.append_assoc, String.append_assoc, trimmedChars_indent, hchars, htail]⟩

/-- The name of a function, up to the bracket behind it, is not trimmed. -/
theorem trimmedChars_function (name type : String) :
    ∃ tail, trimmedChars (indent ++ "def " ++ name ++ "(self) -> " ++ type ++ ": ...").toList =
      "def ".toList ++ (name.toList ++ '(' :: tail) := by
  have hhead : ∀ c ∈ ("def ".toList ++ name.toList).head?, isBlank c = false := by
    intro c hc
    cases hc
    decide
  obtain ⟨tail, htail⟩ := trimmedChars_upto (by decide : isBlank '(' = false) hhead
    ("self) -> " ++ type ++ ": ...").toList
  have hchars : ("def " ++ (name ++ ("(self) -> " ++ (type ++ ": ...")))).toList =
      "def ".toList ++ name.toList ++ '(' :: ("self) -> " ++ type ++ ": ...").toList := by
    simp
  refine ⟨tail, ?_⟩
  simp only [String.append_assoc] at htail hchars ⊢
  rw [trimmedChars_indent, hchars, htail, List.append_assoc]

theorem trimmedChars_decorator (hd : Plain d) :
    trimmedChars (indent ++ "@" ++ d).toList = '@' :: d.toList := by
  have hlist : ("@" ++ d).toList = '@' :: d.toList := by simp
  rw [String.append_assoc, trimmedChars_indent, hlist]
  refine trimmedChars_of_ends (fun c hc => ?_) fun c hc => ?_
  · cases hc
    decide
  · rcases List.mem_cons.1 (List.mem_of_getLast? hc) with rfl | hmem
    · decide
    · exact hd.not_blank hmem

theorem definitions_annotated (hname : Plain m.name) (type : String) (n : Nat) (rest : List Line) :
    definitions waiting ((n, (indent ++ m.name ++ ": " ++ type).toList) :: rest) =
      definitions waiting rest := by
  obtain ⟨tail, htrimmed⟩ := trimmedChars_annotated hname type
  refine definitions_skipped rest ?_ ?_
  · obtain ⟨c, cs, hcs⟩ := List.exists_cons_of_ne_nil hname.nonempty
    rw [htrimmed, hcs]
    simp only [List.cons_append, List.head?_cons, ne_eq, Option.some.injEq]
    rintro rfl
    exact hname.not_mem (c := '@') (by decide) (by rw [hcs]; exact List.mem_cons_self)
  · rw [htrimmed]
    exact definedName?_annotation tail (hname.not_mem (by decide))

theorem definitions_decorator (hd : Plain d) (n : Nat) (rest : List Line) :
    definitions waiting ((n, (indent ++ "@" ++ d).toList) :: rest) =
      definitions (waiting ++ [⟨n, d, none⟩]) rest := by
  have hat : ('@' :: d.toList).head? = some '@' := rfl
  rw [definitions, trimmedChars_decorator hd, if_pos hat, decorator, List.drop_one, List.tail_cons,
    called_of_not_mem (hd.not_mem (by decide))]
  simp only [string_of_plain hd, Option.bind_none]

theorem definitions_function (hname : Plain m.name) (type : String) (n : Nat) (rest : List Line) :
    definitions waiting
        ((n, (indent ++ "def " ++ m.name ++ "(self) -> " ++ type ++ ": ...").toList) :: rest) =
      ⟨waiting, m.name⟩ :: definitions [] rest := by
  obtain ⟨tail, htrimmed⟩ := trimmedChars_function m.name type
  have hdefined : definedName? ("def ".toList ++ (m.name.toList ++ '(' :: tail)) = some m.name := by
    rw [definedName?, after?_append]
    simp only [called_fst tail (hname.not_mem (by decide)), string_of_plain hname]
  have hat : ("def ".toList ++ (m.name.toList ++ '(' :: tail)).head? ≠ some '@' := by simp
  rw [definitions, htrimmed, if_neg hat, hdefined]

end Members

/-- The lines of members define the read-only ones, in order. -/
theorem definitions_members {annotatedText d : String} (hd : Plain d) {members : List Member}
    (h : ∀ m ∈ members, Plain m.name) (n : Nat) {rest : List Line}
    (hrest : definitions [] rest = []) :
    List.Forall₂ (Member.ReadAs d) (members.filter (!·.writable))
      (definitions [] (numbered n ((members.flatMap fun m => m.lines annotatedText d).map
        String.toList) ++ rest)) := by
  induction members generalizing n with
  | nil =>
    rw [List.flatMap_nil, List.map_nil, numbered, List.nil_append, hrest]
    exact .nil
  | cons m members ih =>
    have hname := h m List.mem_cons_self
    have hmembers := ih fun k hk => h k (List.mem_cons_of_mem m hk)
    rw [List.flatMap_cons, List.map_append, numbered_append, List.append_assoc]
    cases hwritable : m.writable with
    | true =>
      rw [List.filter_cons_of_neg (by simp [hwritable]), Member.lines, hwritable]
      simp only [if_true, List.map_cons, List.map_nil, numbered, List.cons_append, List.nil_append]
      rw [definitions_annotated hname]
      exact hmembers _
    | false =>
      rw [List.filter_cons_of_pos (by simp [hwritable]), Member.lines, hwritable]
      simp only [Bool.false_eq_true, if_false, List.map_cons, List.map_nil, numbered,
        List.cons_append, List.nil_append, String.toList_empty]
      rw [definitions_blank, definitions_decorator hd, definitions_function hname]
      exact .cons ⟨rfl, _, rfl⟩ (hmembers _)

theorem definitions_body {k : Contract} (annotatedText : String) (h : ∀ m ∈ k.members, Plain m.name)
    (n : Nat) {rest : List Line} (hrest : definitions [] rest = []) :
    List.Forall₂ (Member.ReadAs k.decorator) k.accessors
      (definitions [] (numbered n ((k.bodyLines annotatedText).map String.toList) ++ rest)) := by
  unfold Contract.bodyLines Contract.accessors
  split_ifs with hnone
  · rw [List.isEmpty_iff.1 hnone, List.map_singleton, numbered, numbered, List.cons_append,
      List.nil_append, definitions_pass, hrest]
    exact .nil
  · exact definitions_members (plain_decorator k) h n hrest

theorem definitions_blanks {lines : List Line} (h : ∀ l ∈ lines, l.2 = []) :
    definitions waiting lines = [] := by
  induction lines with
  | nil => rfl
  | cons l lines ih =>
    obtain ⟨n, cs⟩ := l
    obtain rfl : cs = [] := h _ List.mem_cons_self
    rw [definitions_blank, ih fun k hk => h k (List.mem_cons_of_mem _ hk)]

/-- A line of the body of a class. -/
structure BodyLine (l : String) : Prop where
  inner : ∀ n, isInner (n, l.toList) = true
  oneLine : OneLine l

theorem bodyLine_indent {s : String} (h : OneLine s) : BodyLine (indent ++ s) :=
  ⟨fun n => isInner_indent n s, OneLine.append (by decide) h⟩

theorem bodyLine_of_mem {k : Contract} {annotatedText : String}
    (h : ∀ m ∈ k.members, Plain m.name ∧ OneLine (m.annotatedType annotatedText)) :
    ∀ l ∈ k.bodyLines annotatedText, BodyLine l := by
  unfold Contract.bodyLines
  split_ifs
  · intro l hl
    rw [List.mem_singleton.1 hl]
    exact bodyLine_indent (by decide)
  · intro l hl
    obtain ⟨m, hm, hl⟩ := List.mem_flatMap.1 hl
    obtain ⟨hname, htype⟩ := h m hm
    unfold Member.lines at hl
    dsimp only at hl
    split_ifs at hl
    · rw [List.mem_singleton.1 hl, String.append_assoc, String.append_assoc]
      exact bodyLine_indent (hname.oneLine.append (OneLine.append (by decide) htype))
    · rcases List.mem_cons.1 hl with rfl | hl
      · exact ⟨fun _ => rfl, by decide⟩
      rcases List.mem_cons.1 hl with rfl | hl
      · rw [String.append_assoc]
        exact bodyLine_indent (OneLine.append (by decide) (plain_decorator k).oneLine)
      · rw [List.mem_singleton.1 hl]
        simp only [String.append_assoc]
        exact bodyLine_indent (OneLine.append (by decide) (hname.oneLine.append
          (OneLine.append (by decide) (htype.append (by decide)))))

/-- The lines of some contracts, to the end of the source. -/
def contractLines (annotatedText : String) (ks : List Contract) : List (List Char) :=
  (ks.flatMap fun k => "" :: "" :: k.lines annotatedText).map String.toList ++ [[]]

/-- The lines at the start of contracts that belong to what stands before are empty. -/
theorem contractLines_start {annotatedText : String} {ks : List Contract}
    (h : ∀ k ∈ ks, k.Legible annotatedText) {n : Nat} {l : Line}
    (hl : l ∈ (numbered n (contractLines annotatedText ks)).takeWhile isInner) : l.2 = [] := by
  cases ks with
  | nil => exact List.mem_singleton.1 (mem_numbered ((List.takeWhile_subset _) hl))
  | cons k ks =>
    have hfirst : ∃ first more, (k.lines annotatedText).map String.toList ++
        contractLines annotatedText ks = first :: more ∧ ∀ i, isInner (i, first) = false := by
      rcases hheader : k.header with _ | ⟨s, header⟩
      · refine ⟨k.classLine.toList, (k.bodyLines annotatedText).map String.toList ++
          contractLines annotatedText ks, ?_, fun i => ?_⟩
        · rw [Contract.lines, hheader]
          rfl
        · have hline : k.classLine.toList = 'c' :: ("lass " ++ k.name ++ "(" ++ k.baseText ++
              "):").toList := by simp [Contract.classLine]
          rw [hline]
          rfl
      · refine ⟨s.toList, (header ++ k.classLine :: k.bodyLines annotatedText).map String.toList ++
          contractLines annotatedText ks, ?_, fun i => ?_⟩
        · rw [Contract.lines, hheader]
          rfl
        · have hat := ((h k List.mem_cons_self).header s
            (by rw [hheader]; exact List.mem_cons_self)).1
          rcases hs : s.toList with _ | ⟨c, cs⟩ <;> rw [hs] at hat <;> cases hat
          rfl
    obtain ⟨first, more, hlines, hmargin⟩ := hfirst
    have hstart : contractLines annotatedText (k :: ks) = [] :: [] :: first :: more := by
      rw [← hlines]
      simp [contractLines]
    rw [hstart, numbered, numbered, numbered, List.takeWhile_cons_of_pos rfl,
      List.takeWhile_cons_of_pos rfl, List.takeWhile_cons_of_neg (by simp [hmargin])] at hl
    simp only [List.mem_cons, List.not_mem_nil, or_false] at hl
    rcases hl with rfl | rfl <;> rfl

/-- The lines of contracts are read as one declaration for each contract. -/
theorem ofBlocks_contracts {annotatedText : String} {ks : List Contract}
    (h : ∀ k ∈ ks, k.Legible annotatedText) (n : Nat) :
    List.Forall₂ Contract.ReadAs ks
      (ofBlocks [] (blocks (numbered n (contractLines annotatedText ks)))) := by
  induction ks generalizing n with
  | nil => exact .nil
  | cons k ks ih =>
    have hk := h k List.mem_cons_self
    have hks : ∀ j ∈ ks, j.Legible annotatedText := fun j hj => h j (List.mem_cons_of_mem k hj)
    have hlines : contractLines annotatedText (k :: ks) = [] :: [] :: (k.header.map String.toList ++
        (k.classLine.toList :: ((k.bodyLines annotatedText).map String.toList ++
          contractLines annotatedText ks))) := by
      simp [contractLines, Contract.lines]
    have hbody (i : Nat) : ∀ l ∈ numbered i ((k.bodyLines annotatedText).map String.toList),
        isInner l = true := by
      intro l hl
      obtain ⟨s, hs, hsl⟩ := List.mem_map.1 (mem_numbered hl)
      have hinner := (bodyLine_of_mem hk.members s hs).inner l.1
      rwa [hsl] at hinner
    rw [hlines, numbered, numbered, blocks_inner _ rfl, blocks_inner _ rfl, numbered_append,
      ofBlocks_decorators fun l hl => (hk.header l hl).1, numbered, ofBlocks_class hk.name hk.base,
      numbered_append, blocks_append _ (hbody _), List.nil_append,
      List.takeWhile_append_of_pos (hbody _)]
    refine .cons (.declaration _ _ ?_) (ih hks _)
    exact definitions_body annotatedText (fun m hm => (hk.members m hm).1) _
      (definitions_blanks fun l hl => contractLines_start hks hl)

end Statement

/-! Imports. -/

namespace Ledger

/-- The modules from which names are imported, in order. -/
def importedModules (L : Ledger) : List String :=
  sorted (L.bindings.foldl (fun ms b => addOnce b.module ms) [])

/-- The names that are imported from a module, in order. -/
def namesFrom (L : Ledger) (m : String) : List String :=
  sorted ((L.bindings.filter (·.module = m)).map (·.name))

/-- The statements that import every recorded name. -/
def imports (L : Ledger) : List PlainStatement :=
  L.importedModules.map (fun m => .importNames m (L.namesFrom m)) ++
    (sorted L.aliased).map fun m => .importModule m (moduleAlias m)

/-- A ledger of names that are not taken apart. -/
structure Legible (L : Ledger) : Prop where
  bindings : ∀ b ∈ L.bindings, Plain b.name ∧ Plain b.module ∧ b.module ≠ "__future__"
  aliased : ∀ m ∈ L.aliased, Plain m

variable {L : Ledger}

theorem mem_sorted {s : String} {l : List String} : s ∈ sorted l ↔ s ∈ l := (sorted_perm l).mem_iff

theorem mem_importedModules {m : String} :
    m ∈ L.importedModules ↔ ∃ b ∈ L.bindings, b.module = m := by
  have hfold : ∀ (bs : List Binding) (ms : List String),
      m ∈ bs.foldl (fun ms b => addOnce b.module ms) ms ↔
        m ∈ ms ∨ ∃ b ∈ bs, b.module = m := by
    intro bs
    induction bs with
    | nil => simp
    | cons b bs ih =>
      intro ms
      rw [List.foldl_cons, ih, mem_addOnce]
      simp only [List.mem_cons, exists_eq_or_imp]
      constructor
      · rintro ((h | h) | h)
        · exact Or.inr (Or.inl h.symm)
        · exact Or.inl h
        · exact Or.inr (Or.inr h)
      · rintro (h | h | h)
        · exact Or.inl (Or.inr h)
        · exact Or.inl (Or.inl h.symm)
        · exact Or.inr h
  rw [importedModules, mem_sorted, hfold]
  simp

theorem mem_namesFrom {m name : String} :
    name ∈ L.namesFrom m ↔ ∃ b ∈ L.bindings, b.module = m ∧ b.name = name := by
  rw [namesFrom, mem_sorted]
  simp [and_assoc]

/-- The lines of imports are read as the imports of the recorded names. -/
theorem importLines_read (h : L.Legible) :
    List.Forall₂ Statement.PlainLine L.importLines L.imports := by
  have hnamed : ∀ m ∈ L.importedModules, Statement.PlainLine
      ("from " ++ m ++ " import " ++ commaList (L.namesFrom m)) (.importNames m (L.namesFrom m)) := by
    intro m hm
    obtain ⟨b, hb, rfl⟩ := mem_importedModules.1 hm
    obtain ⟨-, hmodule, hfuture⟩ := h.bindings b hb
    have hne : L.namesFrom b.module ≠ [] :=
      List.ne_nil_of_mem (mem_namesFrom.2 ⟨b, hb, rfl, rfl⟩)
    have hnames : ∀ n ∈ L.namesFrom b.module, Plain n := by
      intro n hn
      obtain ⟨c, hc, -, rfl⟩ := mem_namesFrom.1 hn
      exact (h.bindings c hc).1
    have hline : ("from " ++ b.module ++ " import " ++ commaList (L.namesFrom b.module)).toList =
        'f' :: 'r' :: ("om " ++ b.module ++ " import " ++
          commaList (L.namesFrom b.module)).toList := by
      simp
    exact ⟨fun n => by rw [hline]; rfl, by rw [hline]; simp, by rw [hline]; rfl,
      by rw [hline]; rfl, Statement.plainOf_importNames hmodule hfuture hne hnames⟩
  have hwhole : ∀ m ∈ sorted L.aliased, Statement.PlainLine
      ("import " ++ m ++ " as " ++ moduleAlias m) (.importModule m (moduleAlias m)) := by
    intro m hm
    have hmodule := h.aliased m (mem_sorted.1 hm)
    have hline : ("import " ++ m ++ " as " ++ moduleAlias m).toList =
        'i' :: 'm' :: ("port " ++ m ++ " as " ++ moduleAlias m).toList := by
      simp
    exact ⟨fun n => by rw [hline]; rfl, by rw [hline]; simp, by rw [hline]; rfl,
      by rw [hline]; rfl, Statement.plainOf_importModule hmodule (plain_moduleAlias m)⟩
  have hboth {f : String → String} {g : String → PlainStatement} {l : List String}
      (hread : ∀ m ∈ l, Statement.PlainLine (f m) (g m)) :
      List.Forall₂ Statement.PlainLine (l.map f) (l.map g) :=
    List.forall₂_map_left_iff.2 (List.forall₂_map_right_iff.2 (List.forall₂_same.2 hread))
  exact List.rel_append (hboth hnamed) (hboth hwhole)

theorem importLines_oneLine (h : L.Legible) : ∀ l ∈ L.importLines, OneLine l := by
  have hlist : ∀ names : List String, (∀ n ∈ names, OneLine n) → OneLine (commaList names) := by
    intro names
    induction names with
    | nil => exact fun _ => by decide
    | cons n rest ih =>
      intro hnames
      have hn := hnames n List.mem_cons_self
      have hrest := ih fun k hk => hnames k (List.mem_cons_of_mem n hk)
      cases rest with
      | nil => simpa [commaList] using hn
      | cons m rest =>
        rw [commaList, String.intercalate_cons_cons]
        exact (hn.append (by decide)).append hrest
  intro l hl
  rcases List.mem_append.1 hl with hl | hl
  · obtain ⟨m, hm, rfl⟩ := List.mem_map.1 hl
    obtain ⟨b, hb, rfl⟩ := mem_importedModules.1 hm
    refine (((by decide : OneLine "from ").append (h.bindings b hb).2.1.oneLine).append
      (by decide)).append (hlist _ fun n hn => ?_)
    obtain ⟨c, hc, -, rfl⟩ := mem_namesFrom.1 hn
    exact (h.bindings c hc).1.oneLine
  · obtain ⟨m, hm, rfl⟩ := List.mem_map.1 hl
    exact (((by decide : OneLine "import ").append (h.aliased m (mem_sorted.1 hm)).oneLine).append
      (by decide)).append (plain_moduleAlias m).oneLine

end Ledger

/-! Whole sources. -/

namespace Text

theorem toList_lines {ls : List String} (h : ls ≠ []) :
    (String.intercalate "\n" ls ++ "\n").toList = ls.flatMap fun l => l.toList ++ ['\n'] := by
  induction ls with
  | nil => exact (h rfl).elim
  | cons l rest ih =>
    cases rest with
    | nil => simp
    | cons k rest =>
      rw [String.intercalate_cons_cons, String.append_assoc, String.toList_append,
        ih (List.cons_ne_nil k rest), List.flatMap_cons, String.toList_append]
      rfl

theorem pieces_lines {ls : List String} (h : ∀ l ∈ ls, '\n' ∉ l.toList) :
    pieces '\n' (ls.flatMap fun l => l.toList ++ ['\n']) = ls.map String.toList ++ [[]] := by
  induction ls with
  | nil => rfl
  | cons l rest ih =>
    rw [List.flatMap_cons, List.append_assoc, List.singleton_append,
      pieces_line _ (h l List.mem_cons_self), ih fun k hk => h k (List.mem_cons_of_mem l hk)]
    rfl

/-- Ended lines are told apart, whichever ends of lines a reader knows. -/
theorem pieces_unixLines {ls : List String} (hne : ls ≠ []) (h : ∀ l ∈ ls, OneLine l) :
    pieces '\n' (unixLines (String.intercalate "\n" ls ++ "\n").toList) =
      ls.map String.toList ++ [[]] := by
  have hreturn : '\r' ∉ ls.flatMap fun l => l.toList ++ ['\n'] := by
    intro hmem
    obtain ⟨l, hl, hmem⟩ := List.mem_flatMap.1 hmem
    rcases List.mem_append.1 hmem with hmem | hmem
    · exact (h l hl).2 hmem
    · cases List.mem_singleton.1 hmem
  rw [toList_lines hne, unixLines_of_no_return hreturn]
  exact pieces_lines fun l hl => (h l hl).1

end Text

namespace Blueprint

variable {b : Blueprint} {L : Ledger}

/-- The statements that import what a source refers to. -/
def imports (b : Blueprint) (L : Ledger) : List PlainStatement :=
  L.imports ++
    if b.contracts.any (·.hidesDecorator) then [.importModule "builtins" builtinsAlias] else []

/-- A blueprint whose source is read as it was rendered. -/
structure Legible (b : Blueprint) (L : Ledger) : Prop where
  imports : b.importLines = L.importLines
  ledger : L.Legible
  contracts : ∀ k ∈ b.contracts, k.Legible b.annotatedText

theorem importBlock_read (h : b.Legible L) :
    List.Forall₂ Statement.PlainLine b.importBlock (b.imports L) := by
  have hledger := Ledger.importLines_read h.ledger
  have hbuiltins : Statement.PlainLine ("import builtins as " ++ builtinsAlias)
      (.importModule "builtins" builtinsAlias) :=
    ⟨fun _ => rfl, by decide, rfl, rfl, by decide +kernel⟩
  unfold importBlock imports
  rw [h.imports]
  split_ifs
  · exact List.rel_append hledger (.cons hbuiltins .nil)
  · rwa [List.append_nil]

/-- The lines of the source. -/
def lines (b : Blueprint) : List String := b.headLines ++ (b.importBlock ++ b.contractLines)

theorem forall_importBlock {P : String → Prop} (h : b.importLines = L.importLines)
    (hledger : ∀ l ∈ L.importLines, P l) (hbuiltins : P ("import builtins as " ++ builtinsAlias)) :
    ∀ l ∈ b.importBlock, P l := by
  unfold importBlock
  rw [h]
  split_ifs
  · intro l hl
    rcases List.mem_append.1 hl with hl | hl
    · exact hledger l hl
    · rwa [List.mem_singleton.1 hl]
  · exact hledger

theorem forall_contractLines {P : String → Prop} (hblank : P "")
    (hheader : ∀ k ∈ b.contracts, ∀ l ∈ k.header, P l) (hclass : ∀ k ∈ b.contracts, P k.classLine)
    (hbody : ∀ k ∈ b.contracts, ∀ l ∈ k.bodyLines b.annotatedText, P l) :
    ∀ l ∈ b.contractLines, P l := by
  intro l hl
  obtain ⟨k, hk, hl⟩ := List.mem_flatMap.1 hl
  rcases List.mem_cons.1 hl with rfl | hl
  · exact hblank
  rcases List.mem_cons.1 hl with rfl | hl
  · exact hblank
  rcases List.mem_append.1 hl with hl | hl
  · exact hheader k hk l hl
  rcases List.mem_cons.1 hl with rfl | hl
  · exact hclass k hk
  · exact hbody k hk l hl

theorem lines_oneLine (h : b.Legible L) : ∀ l ∈ b.lines, OneLine l := by
  have hhead : ∀ l ∈ b.headLines, OneLine l := by
    intro l hl
    simp only [headLines, List.mem_cons, List.not_mem_nil, or_false] at hl
    rcases hl with rfl | rfl | rfl | rfl | rfl
    · decide
    · decide
    · decide
    · exact lineEnd_not_mem_stampLine b.version
    · decide
  have himports : ∀ l ∈ b.importBlock, OneLine l :=
    forall_importBlock h.imports (Ledger.importLines_oneLine h.ledger) (by decide)
  have hclass : ∀ k ∈ b.contracts, OneLine k.classLine := by
    intro k hk
    have hlegible := h.contracts k hk
    exact ((((by decide : OneLine "class ").append hlegible.name.oneLine).append
      (by decide)).append hlegible.base.oneLine).append (by decide)
  have hcontracts : ∀ l ∈ b.contractLines, OneLine l :=
    forall_contractLines (by decide) (fun k hk l hl => ((h.contracts k hk).header l hl).2) hclass
      fun k hk l hl => (Statement.bodyLine_of_mem (h.contracts k hk).members l hl).oneLine
  intro l hl
  rcases List.mem_append.1 hl with hl | hl
  · exact hhead l hl
  · exact (List.mem_append.1 hl).elim (himports l) (hcontracts l)

theorem pieces_source (h : b.Legible L) :
    pieces '\n' (unixLines b.source.toList) = b.lines.map String.toList ++ [[]] := by
  rw [source, List.append_assoc]
  exact pieces_unixLines (by simp [headLines]) (lines_oneLine h)

/-- A source is read as two lines that do nothing, the stamp, the imports and the contracts. -/
theorem ofSource_read (h : b.Legible L) {statements : List Statement}
    (hsource : Statement.ofSource b.source = .ok statements) :
    ∃ imports classes, statements = .plain 1 .nothing :: .plain 2 .nothing ::
        .plain 4 (.setText versionName b.version) :: (imports ++ classes) ∧
      List.Forall₂ Statement.IsPlain (b.imports L) imports ∧
      List.Forall₂ Contract.ReadAs b.contracts classes := by
  have hlines : b.lines.map String.toList ++ [[]] =
      "# Generated by modelgen. Do not edit.".toList ::
        "from __future__ import annotations".toList :: [] :: (stampLine b.version).toList :: [] ::
          (b.importBlock.map String.toList ++
            Statement.contractLines b.annotatedText b.contracts) := by
    simp [lines, headLines, contractLines, Statement.contractLines]
  have hcomment : Statement.plainOf "# Generated by modelgen. Do not edit.".toList = .nothing := by
    decide +kernel
  have hfuture : Statement.plainOf "from __future__ import annotations".toList = .nothing := by
    decide +kernel
  have hstamp := Statement.plainOf_stampLine b.version
  obtain ⟨stamp, hstart⟩ : ∃ stamp, (stampLine b.version).toList = '_' :: stamp :=
    ⟨_, toList_stampLine b.version⟩
  obtain ⟨imports, himports, hplain⟩ := Statement.ofBlocks_plains (importBlock_read h) 6
    (Statement.numbered (6 + b.importBlock.length)
      (Statement.contractLines b.annotatedText b.contracts))
  refine ⟨imports, _, ?_, hplain, Statement.ofBlocks_contracts h.contracts (6 + b.importBlock.length)⟩
  rw [Statement.ofSource, pieces_source h, hlines] at hsource
  rw [hstart] at hsource hstamp
  split at hsource
  · cases hsource
  · cases hsource
    simp only [Statement.numbered, Nat.reduceAdd]
    rw [Statement.ofBlocks_plain _ (by decide) (by decide) (by decide) (by decide), hcomment,
      Statement.ofBlocks_plain _ (by decide) (by decide) (by decide) (by decide), hfuture,
      Statement.blocks_inner _ rfl, Statement.ofBlocks_plain _ rfl (by simp) rfl rfl, hstamp,
      Statement.blocks_inner _ rfl, Statement.numbered_append, List.length_map, himports]

end Blueprint

end ModelContracts
