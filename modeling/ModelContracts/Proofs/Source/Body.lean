import Mathlib.Data.List.Nodup
import ModelContracts.Proofs.Reference.Importing
import ModelContracts.Proofs.Source.ClassText

/-!
The body of the class of a contract. In its lines no fault is found. Run in a module that keeps the builtin
decorator, the body leaves each read-only member as a property and nothing else, wherever a member takes the
name of the decorator itself: what the body has defined hides what the module has, so that the decorator is
then found by another name, which no member can have.
-/

namespace ModelContracts

open Text

/-! Faults. -/

namespace Statement

/-- A line in which no fault is found, wherever it stands. -/
def Faultless (cs : List Char) : Prop := ∀ n, fault? (n, cs) = none

variable {cs front : List Char} {mark c : Char} {name : String}

theorem faultless_of (hunclosed : ∀ n, unclosed? (n, cs) = none)
    (hbound : constantName ∉ boundOn (trimmedChars cs)) : Faultless cs := by
  intro n
  have hrebound : rebound? (n, cs) = none := by
    unfold rebound?
    rw [if_neg (by simpa using hbound)]
  rw [fault?, hunclosed, hrebound]
  rfl

theorem faultless_of_bound (hclass : after? "class ".toList (trimmedChars cs) = none)
    (hbound : constantName ∉ boundOn (trimmedChars cs)) : Faultless cs := by
  refine faultless_of (fun n => ?_) hbound
  unfold unclosed?
  dsimp only
  rw [hclass]

theorem string_head (hc : isBlank c = false) (cs : List Char) :
    (string (c :: cs)).toList.head? = some c := by
  obtain ⟨rest, hrest⟩ := trimmedChars_first hc cs
  rw [string, hrest, String.toList_ofList]
  rfl

theorem around_head {word : String} {left right : List Char} (hc : c ≠ ' ')
    (h : around word (c :: cs) = some (left, right)) : ∃ rest, left = c :: rest := by
  have hnone : after? (" " ++ word ++ " ").toList (c :: cs) = none := by
    have hstart : (" " ++ word ++ " ").toList = ' ' :: (word ++ " ").toList := by simp
    rw [hstart, after?, if_neg hc.symm]
  rw [around, hnone] at h
  obtain ⟨p, -, hp⟩ := Option.map_eq_some_iff.1 h
  exact ⟨p.1, (congrArg Prod.fst hp).symm⟩

theorem binds_assignment {value : List Char} (hc : isBlank c = false) :
    ∀ name ∈ (assignment (c :: cs) value).binds, name.toList.head? = some c := by
  unfold assignment
  split
  · intro name hname
    rw [List.mem_singleton.1 hname]
    exact string_head hc cs
  · split
    · intro name hname
      rw [List.mem_singleton.1 hname]
      exact string_head hc cs
    · exact fun name hname => by cases hname

/-- The words that a statement starts with when it binds names or fails. -/
def openingWords : List String := ["class ", "def ", "from ", "import ", "raise "]

/-- What has a colon or the sign of a decorator before the first blank starts with none of these words. -/
theorem after?_marked (hmark : mark ∈ [':', '@']) (hfront : ' ' ∉ front) {word : String}
    (hword : word ∈ openingWords) (rest : List Char) :
    after? word.toList (front ++ mark :: rest) = none := by
  have hwords : ∀ word ∈ openingWords, ∀ m ∈ [':', '@'], m ∉ word.toList ∧ ' ' ∈ word.toList := by
    decide
  obtain ⟨hnot, hblank⟩ := hwords word hword mark hmark
  exact after?_word hfront rest hnot hblank

/-- As a plain statement it binds at most a name that starts as the line does. -/
theorem binds_marked (hmark : mark ∈ [':', '@']) (hfront : ' ' ∉ front) {rest : List Char}
    (hline : front ++ mark :: rest = c :: cs) (hblank : isBlank c = false) :
    ∀ name ∈ (plainOf (front ++ mark :: rest)).binds, name.toList.head? = some c := by
  have hmarked : isBlank mark = false := by
    have hmarks : ∀ m ∈ [':', '@'], isBlank m = false := by decide
    exact hmarks mark hmark
  have hspace : c ≠ ' ' := by
    rintro rfl
    revert hblank
    decide
  have hstart : ∀ d ∈ front.head?, isBlank d = false := by
    intro d hd
    cases front with
    | nil => cases hd
    | cons f front =>
      cases hd
      rw [(List.cons.inj hline).1]
      exact hblank
  -- A plain statement is trimmed again before it is read, which may only change what is behind the mark.
  obtain ⟨tail, htail⟩ := trimmedChars_upto hmarked hstart rest
  obtain ⟨ds, hds⟩ : ∃ ds, front ++ mark :: tail = c :: ds := by
    cases front with
    | nil => exact ⟨tail, by rw [List.nil_append, ← (List.cons.inj hline).1]⟩
    | cons f front => exact ⟨_, by rw [List.cons_append, ← (List.cons.inj hline).1]⟩
  rw [plainOf, htail]
  split_ifs
  · exact fun name hname => by cases hname
  rw [after?_marked hmark hfront (by decide) tail, after?_marked hmark hfront (by decide) tail,
    after?_marked hmark hfront (by decide) tail]
  dsimp only
  split
  next name value haround =>
    rw [hds] at haround
    obtain ⟨left, rfl⟩ := around_head hspace haround
    exact binds_assignment hblank
  next =>
    split <;> exact fun name hname => by cases hname

theorem boundOn_marked (hmark : mark ∈ [':', '@']) (hfront : ' ' ∉ front) {rest : List Char}
    (hline : front ++ mark :: rest = c :: cs) (hblank : isBlank c = false) (hcolon : c ≠ ':') :
    ∀ name ∈ boundOn (front ++ mark :: rest), name.toList.head? = some c := by
  intro name hname
  rw [boundOn, after?_marked hmark hfront (by decide) rest,
    after?_marked hmark hfront (by decide) rest] at hname
  rcases List.mem_cons.1 hname with rfl | hname
  · rw [hline, List.takeWhile_cons_of_pos (by simpa using hcolon)]
    exact string_head hblank _
  · exact binds_marked hmark hfront hline hblank name hname

/-- A line that binds nothing but what starts with another character than the constant is faultless. -/
theorem faultless_marked (hmark : mark ∈ [':', '@']) (hfront : ' ' ∉ front) {rest ds : List Char}
    (htrimmed : trimmedChars cs = front ++ mark :: rest) (hline : front ++ mark :: rest = c :: ds)
    (hblank : isBlank c = false) (hcolon : c ≠ ':') (hconstant : c ≠ '_') : Faultless cs := by
  refine faultless_of_bound ?_ fun hmem => ?_
  · rw [htrimmed]
    exact after?_marked hmark hfront (by decide) rest
  · rw [htrimmed] at hmem
    have hhead := boundOn_marked hmark hfront hline hblank hcolon _ hmem
    cases hhead
    exact hconstant rfl

theorem faultless_annotated (hname : isPart name.toList = true) (hstart : name.toList.head? ≠ some '_')
    (type : String) : Faultless (indent ++ name ++ ": " ++ type).toList := by
  have hplain := plain_of_isPart hname
  obtain ⟨tail, htail⟩ := trimmedChars_annotated hplain type
  obtain ⟨c, cs, hcs⟩ := List.exists_cons_of_ne_nil hplain.nonempty
  have hc : c ∈ name.toList := by
    rw [hcs]
    exact List.mem_cons_self
  have hline : name.toList ++ ':' :: tail = c :: (cs ++ ':' :: tail) := by
    rw [hcs]
    rfl
  refine faultless_marked (by decide) (hplain.not_mem (by decide)) htail hline (hplain.not_blank hc)
    ?_ ?_
  · rintro rfl
    exact hplain.not_mem (by decide) hc
  · rintro rfl
    exact hstart (by rw [hcs]; rfl)

theorem faultless_at {rest : List Char} (htrimmed : trimmedChars cs = '@' :: rest) :
    Faultless cs := by
  have hfront : ' ' ∉ ([] : List Char) := by simp
  exact faultless_marked (by decide) hfront htrimmed rfl (by decide) (by decide) (by decide)

theorem faultless_header {l : String} (h : l.toList.head? = some '@') : Faultless l.toList := by
  obtain ⟨cs, hcs⟩ := List.head?_eq_some_iff.1 h
  obtain ⟨tail, htail⟩ := trimmedChars_first (by decide : isBlank '@' = false) cs
  rw [hcs]
  exact faultless_at htail

theorem faultless_function (hname : isPart name.toList = true) (hconstant : name ≠ constantName)
    (type : String) :
    Faultless (indent ++ "def " ++ name ++ "(self) -> " ++ type ++ ": ...").toList := by
  have hplain := plain_of_isPart hname
  obtain ⟨tail, htail⟩ := trimmedChars_function name type
  have hclass : ∀ cs : List Char, after? "class ".toList ("def ".toList ++ cs) = none := by
    intro cs
    simp [after?]
  refine faultless_of_bound (by rw [htail]; exact hclass _) fun hmem => ?_
  rw [htail, boundOn, hclass, after?_append] at hmem
  simp only [called_fst tail (hplain.not_mem (by decide)), string_of_plain hplain] at hmem
  exact hconstant (List.mem_singleton.1 hmem).symm

theorem faultless_class {k : Contract} (hname : isPart k.name.toList = true)
    (hconstant : k.name ≠ constantName) (hcolon : ':' ∉ k.baseText.toList) :
    Faultless k.classLine.toList := by
  have hplain := plain_of_isPart hname
  have hhead := k.colon_not_mem_classHead hplain hcolon
  have htrimmed : trimmedChars k.classLine.toList = k.classLine.toList := by
    rw [k.toList_classLine]
    refine trimmedChars_of_ends (fun c hc => ?_) fun c hc => ?_
    · cases hc
      decide
    · rw [← List.append_assoc, List.getLast?_concat] at hc
      cases hc
      decide
  have hword : ':' ∉ "class ".toList ++ k.classHead := by
    rw [List.mem_append, not_or]
    exact ⟨by decide, hhead⟩
  have hclosed : (k.classLine.toList.takeWhile (· ≠ ':')).contains ')' = true := by
    rw [k.toList_classLine, ← List.append_assoc, (span_upto hword []).1]
    simp [Contract.classHead]
  have hbound : boundOn (trimmedChars k.classLine.toList) = [k.name] := by
    rw [htrimmed, k.toList_classLine, boundOn, after?_append]
    dsimp only
    rw [(span_upto hhead []).1, Contract.classHead, called_fst _ (hplain.not_mem (by decide)),
      string_of_plain hplain]
  refine faultless_of (fun n => ?_) ?_
  · unfold unclosed?
    dsimp only
    split
    · rfl
    · rw [if_neg (by rw [hclosed]; simp)]
  · rw [hbound]
    simpa using hconstant.symm

end Statement

namespace Contract

variable {k : Contract} {annotatedText : String}

theorem Orderly.lines_faultless (h : k.Orderly annotatedText) (hname : k.name ≠ Statement.constantName)
    (hcolon : ':' ∉ k.baseText.toList) : ∀ l ∈ k.lines annotatedText, Statement.Faultless l.toList := by
  intro l hl
  rcases List.mem_append.1 hl with hl | hl
  · exact Statement.faultless_header (h.header l hl).1
  rcases List.mem_cons.1 hl with rfl | hl
  · exact Statement.faultless_class h.name.1 hname hcolon
  unfold bodyLines at hl
  split_ifs at hl
  · rw [List.mem_singleton.1 hl]
    exact Statement.faultless_of_bound (by decide +kernel) (by decide +kernel)
  obtain ⟨m, hm, hl⟩ := List.mem_flatMap.1 hl
  obtain ⟨hpart, hstart⟩ := h.members m hm
  unfold Member.lines at hl
  dsimp only at hl
  split_ifs at hl
  · rw [List.mem_singleton.1 hl]
    exact Statement.faultless_annotated hpart.1 hstart _
  · rcases List.mem_cons.1 hl with rfl | hl
    · exact Statement.faultless_of_bound (by decide) (by decide)
    rcases List.mem_cons.1 hl with rfl | hl
    · exact Statement.faultless_at (Statement.trimmedChars_decorator (Statement.plain_decorator k))
    · rw [List.mem_singleton.1 hl]
      exact Statement.faultless_function hpart.1 (h.bindable hm).2 _

/-- No fault is found in the text of a contract. -/
theorem Orderly.ofSource_block (h : k.Orderly annotatedText) (hname : k.name ≠ Statement.constantName)
    (hcolon : ':' ∉ k.baseText.toList) :
    ∃ statements, Statement.ofSource (k.block annotatedText) = .ok statements := by
  have hne : k.lines annotatedText ≠ [] := by simp [lines]
  have hnone : Statement.firstFault? (Statement.numbered 1
      ((k.lines annotatedText).map String.toList ++ [[]])) = none := by
    refine Statement.firstFault?_none (List.findSome?_eq_none_iff.2 fun l hl => ?_)
    rcases List.mem_append.1 (Statement.mem_numbered hl) with hmem | hmem
    · obtain ⟨s, hs, hsl⟩ := List.mem_map.1 hmem
      have hfaultless := h.lines_faultless hname hcolon s hs l.1
      rwa [hsl] at hfaultless
    · have hblank : Statement.Faultless [] :=
        Statement.faultless_of_bound (by decide) (by decide)
      have hfaultless := hblank l.1
      rwa [← List.mem_singleton.1 hmem] at hfaultless
  rw [Statement.ofSource, block, pieces_unixLines hne h.lines_oneLine, hnone]
  exact ⟨_, rfl⟩

end Contract

/-! Running the body. -/

theorem setEntry_fresh {α β : Type} [DecidableEq α] {key : α} {l : List (α × β)}
    (h : key ∉ l.map (·.1)) (value : β) : setEntry key value l = l ++ [(key, value)] := by
  induction l with
  | nil => rfl
  | cons e l ih =>
    obtain ⟨k, v⟩ := e
    rw [List.map_cons, List.mem_cons, not_or] at h
    rw [setEntry, if_neg (Ne.symm h.1), ih h.2]
    rfl

namespace Execution

/-- The module has the builtin decorator under its name, and where a contract needs it the module of the
builtins under the alias. -/
structure Decorates (x : Execution) (k : Contract) : Prop where
  free : x.attributes.lookup "property" = none
  builtin : x.world.attribute? (.module "builtins") "property" =
    some (.cls (ClassId.builtin "property"))
  aliased : k.hidesDecorator = true → x.attributes.lookup builtinsAlias = some (.module "builtins")

variable {x : Execution} {k : Contract}

theorem Decorates.decorateOuter (h : x.Decorates k) (n : Nat) :
    x.decorateOuter ⟨n, k.decorator, none⟩ = .ok .property := by
  have hresolve : x.resolve n k.decorator = .ok (.cls (ClassId.builtin "property")) := by
    unfold Contract.decorator
    split_ifs with hhides
    · have hpieces : Text.split '.' (builtinsAlias ++ ".property") = [builtinsAlias, "property"] := by
        decide
      have hfirst : Text.firstPiece '.' (builtinsAlias ++ ".property") = builtinsAlias := by decide
      have hlookup : x.lookup? builtinsAlias = some (.module "builtins") := by
        rw [lookup?, h.aliased hhides]
      rw [resolve_first (by decide) (hfirst ▸ hlookup) n, hpieces, List.tail_cons, walk, h.builtin]
      rfl
    · have hpieces : Text.split '.' "property" = ["property"] := by decide
      have hlookup : x.lookup? "property" = some (.cls (ClassId.builtin "property")) := by
        rw [lookup?, h.free]
        exact h.builtin
      exact resolve_undotted (by decide) hpieces hlookup n
  unfold Execution.decorateOuter
  rw [hresolve]
  rfl

/-- A read-only member becomes a property where no member above it has the name of the decorator. -/
theorem Decorates.define (h : x.Decorates k) {scope : List (String × Defined)} {m : Member}
    {f : Definition} (hread : m.ReadAs k.decorator f)
    (hfree : Text.firstPiece '.' k.decorator ∉ scope.map (·.1)) (hnew : m.name ∉ scope.map (·.1)) :
    x.define scope f = .ok (scope ++ [(m.name, .property)]) := by
  obtain ⟨hname, n, hdecorators⟩ := hread
  have hlookup : scope.lookup (Text.firstPiece '.' k.decorator) = none := by
    refine List.lookup_eq_none_iff.2 fun e he => ?_
    rw [bne_iff_ne]
    rintro hsame
    exact hfree (hsame ▸ List.mem_map_of_mem he)
  have hdecorate : x.decorate scope ⟨n, k.decorator, none⟩ = .ok .property := by
    unfold decorate
    dsimp only
    rw [hlookup]
    exact h.decorateOuter n
  unfold Execution.define
  rw [hdecorators, List.mapM_cons, hdecorate, hname]
  show Except.ok (setEntry m.name Defined.property scope) = _
  rw [setEntry_fresh hnew]

/-- The definitions of read-only members with names of their own leave each as a property, in order. -/
theorem Decorates.foldlM_define (h : x.Decorates k) {done members : List Member}
    {body : List Definition} (hread : List.Forall₂ (Member.ReadAs k.decorator) members body)
    (hnodup : ((done ++ members).map (·.name)).Nodup)
    (hfree : ∀ m ∈ done ++ members, m.name ≠ Text.firstPiece '.' k.decorator) :
    body.foldlM x.define (done.map fun m => (m.name, Defined.property)) =
      .ok ((done ++ members).map fun m => (m.name, Defined.property)) := by
  -- What is done already is the scope in which the next decorator is looked up.
  induction hread generalizing done with
  | nil =>
    rw [List.append_nil]
    rfl
  | @cons m f members body hm _ ih =>
    have hnames : (done.map fun m => (m.name, Defined.property)).map (·.1) = done.map (·.name) := by
      rw [List.map_map]
      rfl
    have hdecorator : Text.firstPiece '.' k.decorator ∉ done.map (·.name) := by
      intro hmem
      obtain ⟨j, hj, hname⟩ := List.mem_map.1 hmem
      exact hfree j (List.mem_append_left _ hj) hname
    have hnew : m.name ∉ done.map (·.name) := by
      rw [List.map_append, List.map_cons] at hnodup
      exact fun hmem => (List.nodup_append.1 hnodup).2.2 _ hmem _ List.mem_cons_self rfl
    have hdefine := h.define hm (hnames ▸ hdecorator) (hnames ▸ hnew)
    have hmoved : done ++ m :: members = (done ++ [m]) ++ members := by simp
    rw [hmoved] at hnodup hfree ⊢
    rw [List.foldlM_cons, hdefine, ← ih hnodup hfree, List.map_append]
    rfl

end Execution

namespace Contract

variable {k : Contract} {annotatedText : String} {x : Execution}

/-- No read-only member has the name with which the decorator starts. -/
theorem Orderly.decorator_free (h : k.Orderly annotatedText) :
    ∀ m ∈ k.accessors, m.name ≠ Text.firstPiece '.' k.decorator := by
  intro m hm hname
  obtain ⟨hmem, hwritable⟩ := List.mem_filter.1 hm
  unfold decorator at hname
  split_ifs at hname with hhides
  -- The alias starts with an underscore, as no member does; without it no member hides the builtin.
  · have hstart : (Text.firstPiece '.' (builtinsAlias ++ ".property")).toList.head? = some '_' := by
      decide
    exact (h.members m hmem).2 (hname ▸ hstart)
  · have hfirst : Text.firstPiece '.' "property" = "property" := by decide
    refine hhides (List.any_eq_true.2 ⟨m, hmem, ?_⟩)
    rw [hname, hfirst, hwritable]
    rfl

/-- The body of the class leaves the read-only members as properties, in order. -/
theorem Orderly.runBody (h : k.Orderly annotatedText) (hx : x.Decorates k) (n : Nat) :
    x.runBody (Statement.definitions []
      (Statement.numbered n ((k.bodyLines annotatedText).map String.toList))) =
        .ok (k.accessors.map fun m => (m.name, Defined.property)) := by
  have hend : Statement.definitions [] ([] : List Statement.Line) = [] := rfl
  have hread := Statement.definitions_body annotatedText
    (fun m hm => plain_of_isPart (h.members m hm).1.1) n hend
  rw [List.append_nil] at hread
  have hnodup : ((([] : List Member) ++ k.accessors).map (·.name)).Nodup :=
    h.distinct.sublist (List.filter_sublist.map _)
  exact hx.foldlM_define hread hnodup h.decorator_free

/-- What a contract with names for its members stands for is read back from its lines, and in a module
that keeps the decorator its body leaves just the read-only members, in order and as properties. It is
taken as a class just when its texts are, and no fault is found in it. -/
theorem block_declares (h : k.Orderly annotatedText) (hname : k.name ≠ Statement.constantName)
    (hx : x.Decorates k) (takes : ClassText.Slot → String → Prop) :
    ∃ t, ClassText.ofText? (k.block annotatedText) = some t ∧
      (t.header = k.header ∧ t.name = k.name ∧ t.base = k.baseText ∧
        t.items.map (fun i => (i.name, i.isAnnotated, i.type)) =
          k.members.map fun m => (m.name, m.writable, m.annotatedType annotatedText)) ∧
      (t.Accepted takes ↔ (∀ s ∈ k.header, takes .header s) ∧ takes .base k.baseText ∧
        ∀ m ∈ k.members, takes .type (m.annotatedType annotatedText)) ∧
      (':' ∉ k.baseText.toList →
        ∃ statements, Statement.ofSource (k.block annotatedText) = .ok statements) ∧
      ∀ n, ∃ scope, x.runBody (Statement.definitions []
          (Statement.numbered n ((k.bodyLines annotatedText).map String.toList))) = .ok scope ∧
        scope = (k.accessors.map fun m => (m.name, Defined.property)) ∧
        ∀ m ∈ k.members, m.writable = true → scope.lookup m.name = none := by
  refine ⟨k.classText annotatedText, ofText?_lines h, ⟨rfl, rfl, rfl, ?_⟩,
    h.accepted_iff hname takes, h.ofSource_block hname, fun n => ⟨_, h.runBody hx n, rfl, ?_⟩⟩
  · rw [classText, List.map_map]
    exact List.map_congr_left fun m _ => by simp
  · intro m hm hwritable
    refine List.lookup_eq_none_iff.2 fun e he => ?_
    obtain ⟨j, hj, rfl⟩ := List.mem_map.1 he
    obtain ⟨hj, hread⟩ := List.mem_filter.1 hj
    rw [bne_iff_ne]
    intro hsame
    obtain rfl := List.inj_on_of_nodup_map h.distinct hm hj hsame
    rw [hwritable] at hread
    cases hread

end Contract

/-! Contracts of one class. -/

namespace Shadowing

def members : List Member :=
  [⟨"X", "Optional[int]", true, false, []⟩, ⟨"property", "str", false, false, []⟩,
    ⟨"Y", "Optional[str]", false, false, ["Category(\"x\")", "Required()"]⟩,
    ⟨"Z", "List[int]", true, false, ["ReadOnly(False)"]⟩]

def contract (name : String) (shown : List Member) : Contract :=
  { backing := ⟨"app", "A", 0⟩
    name := name
    baseText := "ModelNodeEnabled"
    header := ["@ClassName(\"app.A\")"]
    members := shown }

def builtins : Module := ⟨"builtins", [("property", .cls (ClassId.builtin "property"))], 0⟩

/-- A module that has imported the builtins under the alias. -/
def module : Execution :=
  { world := { World.standard with modules := [builtins] }
    name := "modelgen_generated_App"
    number := 1
    attributes := [(builtinsAlias, .module "builtins")] }

theorem contract_orderly {name : String} (h : IsAsciiName name) {shown : List Member}
    (hshown : ∀ m ∈ shown, (IsAsciiName m.name ∧ m.name.toList.head? ≠ some '_') ∧
      OneLine (m.annotatedType "Annotated")) (hnodup : (shown.map (·.name)).Nodup) :
    (contract name shown).Orderly "Annotated" where
  name := h
  members m hm := (hshown m hm).1
  distinct := hnodup
  header := (by decide :
    ∀ l ∈ ["@ClassName(\"app.A\")"], l.toList.head? = some '@' ∧ OneLine l)
  base := (by decide : OneLine "ModelNodeEnabled")
  types m hm := (hshown m hm).2

theorem module_decorates (k : Contract) : module.Decorates k := ⟨rfl, rfl, fun _ => rfl⟩

/-- The property below the member that has the name of the decorator is a property as well. -/
theorem shadowed_declared : (contract "IModelAppA" members).Orderly "Annotated" ∧
    (contract "IModelAppA" members).name ≠ Statement.constantName ∧
    module.Decorates (contract "IModelAppA" members) ∧
    (∃ t, ClassText.ofText? ((contract "IModelAppA" members).block "Annotated") = some t ∧
      t.Accepted fun _ _ => True) ∧
    module.runBody (Statement.definitions [] (Statement.numbered 3
      (((contract "IModelAppA" members).bodyLines "Annotated").map String.toList))) =
        .ok [("property", .property), ("Y", .property)] := by
  have horderly : (contract "IModelAppA" members).Orderly "Annotated" :=
    contract_orderly (by decide +kernel) (by decide +kernel) (by decide)
  have hname : (contract "IModelAppA" members).name ≠ Statement.constantName := by decide
  have hmodule := module_decorates (contract "IModelAppA" members)
  obtain ⟨t, ht, -, haccepted, -, hbody⟩ :=
    Contract.block_declares horderly hname hmodule fun _ _ => True
  obtain ⟨scope, hrun, hscope, -⟩ := hbody 3
  refine ⟨horderly, hname, hmodule, ⟨t, ht, haccepted.2 ⟨?_, trivial, ?_⟩⟩, ?_⟩
  · exact fun _ _ => trivial
  · exact fun _ _ => trivial
  · rw [hrun, hscope]
    rfl

def constant : Contract := contract Statement.constantName (members.take 1)

def unclosed : Contract := contract "IModelAppA" [⟨"X", "(", true, false, []⟩]

/-- The constant is a name and no keyword, but no class can have it. And no class can have a type that the
language does not take. -/
theorem constant_refused : constant.Orderly "Annotated" ∧ module.Decorates constant ∧
    (∀ t, ClassText.ofText? (constant.block "Annotated") = some t → ∀ takes, ¬t.Accepted takes) ∧
    Statement.ofSource (constant.block "Annotated") =
      .error ⟨2, 1, "cannot assign to __debug__"⟩ ∧
    unclosed.Orderly "Annotated" ∧ module.Decorates unclosed ∧
    ∀ t, ClassText.ofText? (unclosed.block "Annotated") = some t →
      ∀ takes : ClassText.Slot → String → Prop, ¬takes .type "(" → ¬t.Accepted takes := by
  have hconstant : constant.Orderly "Annotated" :=
    contract_orderly (by decide +kernel) (by decide +kernel) (by decide)
  have hunclosed : unclosed.Orderly "Annotated" :=
    contract_orderly (by decide +kernel) (by decide +kernel) (by decide)
  have hfault : Statement.firstFault? (Statement.numbered 1
      ((constant.lines "Annotated").map String.toList ++ [[]])) =
        some ⟨2, 1, "cannot assign to __debug__"⟩ := by decide +kernel
  refine ⟨hconstant, module_decorates constant, fun t ht takes haccepted => ?_, ?_, hunclosed,
    module_decorates unclosed, fun t ht takes htype haccepted => ?_⟩
  · rw [Contract.ofText?_lines hconstant] at ht
    cases ht
    exact haccepted.name.2 rfl
  · rw [Statement.ofSource, Contract.block, pieces_unixLines (by simp [Contract.lines])
      hconstant.lines_oneLine, hfault]
  · rw [Contract.ofText?_lines hunclosed] at ht
    cases ht
    exact htype (haccepted.types _ List.mem_cons_self)

end Shadowing

end ModelContracts
