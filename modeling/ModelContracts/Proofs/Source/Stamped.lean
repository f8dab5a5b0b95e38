import Mathlib.Data.List.TakeWhile
import ModelContracts.Contract.Stamp
import ModelContracts.Proofs.Source.Binding
import ModelContracts.Proofs.Text.Decoding
import ModelContracts.Proofs.Text.Pieces

/-!
The stamp of a rendered source. It stands in the fourth line, so a source that is read back from its
file shows it whatever follows; and the module that the source becomes has the version, unless a later
statement binds the name of the version again.
-/

namespace ModelContracts

open Text

/-! Quoted texts. -/

namespace Text

theorem not_mem_hexChars_of_lt {n : Nat} (h : n < 32) :
    '\n' ∉ hexChars 4 n ∧ '\r' ∉ hexChars 4 n := by
  revert n
  decide

theorem lineEnd_not_mem_escaped (c : Char) : '\n' ∉ escaped c ∧ '\r' ∉ escaped c := by
  unfold escaped
  split_ifs with _ _ hn hr _ _ _ hcontrol
  · decide
  · decide
  · decide
  · decide
  · decide
  · decide
  · decide
  · obtain ⟨hfeed, hreturn⟩ := not_mem_hexChars_of_lt hcontrol
    simp [hfeed, hreturn]
  · simp [Ne.symm hn, Ne.symm hr]

/-- A quoted text stands in one line. -/
theorem lineEnd_not_mem_quotedChars (cs : List Char) :
    '\n' ∉ quotedChars cs ∧ '\r' ∉ quotedChars cs := by
  have hinner : '\n' ∉ cs.flatMap escaped ∧ '\r' ∉ cs.flatMap escaped := by
    simp only [List.mem_flatMap, not_exists, not_and]
    exact ⟨fun c _ => (lineEnd_not_mem_escaped c).1, fun c _ => (lineEnd_not_mem_escaped c).2⟩
  simp [quotedChars, hinner]

end Text

namespace Statement

theorem unescape_control {n : Nat} (h : n < 32) (rest : List Char) :
    unescape '\"' ('\\' :: 'u' :: hexChars 4 n ++ rest) = Char.ofNat n :: unescape '\"' rest := by
  have hnumber : ∀ n < 32, hexNumber? 0 (hexChars 4 n) = some n := by decide
  have hdigits : hexChars 4 n = [hexDigit (n / 16 / 16 / 16 % 16), hexDigit (n / 16 / 16 % 16),
      hexDigit (n / 16 % 16), hexDigit (n % 16)] := rfl
  have hvalue := hnumber n h
  rw [hdigits] at hvalue ⊢
  simp only [List.cons_append, List.nil_append, unescape, hvalue, Option.getD_some]

theorem unescape_escaped (c : Char) (rest : List Char) :
    unescape '\"' (escaped c ++ rest) = c :: unescape '\"' rest := by
  unfold escaped
  split_ifs with h₁ h₂ h₃ h₄ h₅ h₆ h₇ hcontrol
  · subst h₁
    rfl
  · subst h₂
    rfl
  · subst h₃
    rfl
  · subst h₄
    rfl
  · subst h₅
    rfl
  · subst h₆
    rfl
  · subst h₇
    rfl
  · rw [unescape_control hcontrol, Char.ofNat_toNat]
  · simp [unescape, h₁, h₂]

/-- A quoted text is read as the text that was quoted. -/
theorem text?_quotedChars (s : String) : text? (quotedChars s.toList) = some s := by
  have hinner : ∀ cs : List Char, unescape '\"' (cs.flatMap escaped ++ ['\"']) = cs := by
    intro cs
    induction cs with
    | nil => rfl
    | cons c rest ih => rw [List.flatMap_cons, List.append_assoc, unescape_escaped, ih]
  rw [quotedChars, List.cons_append, text?, if_pos (by decide), hinner, String.ofList_toList]

end Statement

/-! The lines above the imports. -/

namespace Blueprint

def openingText : String :=
  "# Generated by modelgen. Do not edit.\nfrom __future__ import annotations\n\n"

/-- The start of every rendered source of a version, to the end of the line with the stamp. -/
def header (version : String) : List Char :=
  openingText.toList ++ ((stampLine version).toList ++ ['\n'])

theorem toList_stampLine (version : String) :
    (stampLine version).toList = "__generator_version__ = ".toList ++ quotedChars version.toList := by
  simp [stampLine, versionName, quote]

theorem lineEnd_not_mem_stampLine (version : String) :
    '\n' ∉ (stampLine version).toList ∧ '\r' ∉ (stampLine version).toList := by
  have hstart : '\n' ∉ "__generator_version__ = ".toList ∧
      '\r' ∉ "__generator_version__ = ".toList := by decide
  have hquoted := lineEnd_not_mem_quotedChars version.toList
  rw [toList_stampLine, List.mem_append, List.mem_append, not_or, not_or]
  exact ⟨⟨hstart.1, hquoted.1⟩, hstart.2, hquoted.2⟩

/-- The lines behind the stamp: a blank one, the imports and the contracts. -/
def following (b : Blueprint) : String :=
  String.intercalate "\n" ("" :: (b.importBlock ++ b.contractLines)) ++ "\n"

theorem source_eq_header (b : Blueprint) :
    b.source.toList = header b.version ++ b.following.toList := by
  have hopening : openingText = "# Generated by modelgen. Do not edit." ++ ("\n" ++
      ("from __future__ import annotations" ++ ("\n" ++ ("" ++ "\n")))) := by decide
  simp only [source, headLines, header, following, hopening, List.cons_append, List.nil_append,
    String.intercalate_cons_cons, String.toList_append, List.append_assoc]
  rfl

theorem unixLines_source (b : Blueprint) :
    unixLines b.source.toList = header b.version ++ unixLines b.following.toList := by
  have hend : Parted (header b.version) b.following.toList := by
    intro hlast
    rw [header, ← List.append_assoc, List.getLast?_concat] at hlast
    cases hlast
  have hreturn : '\r' ∉ header b.version := by
    have hopening : '\r' ∉ openingText.toList := by decide
    have hstamp := (lineEnd_not_mem_stampLine b.version).2
    simp [header, hopening, hstamp]
  rw [source_eq_header, unixLines_append hend, unixLines_of_no_return hreturn]

end Blueprint

/-! Reading the stamp. -/

namespace Stamp

/-- The stamp of a version is read back from the lines above the imports. -/
def ReadsBack (version : String) : Prop :=
  find? true ((Blueprint.header version).take window) = some version.toList

theorem after?_append {start cs rest : List Char} (more : List Char)
    (h : after? start cs = some rest) : after? start (cs ++ more) = some (rest ++ more) := by
  induction start generalizing cs with
  | nil =>
    cases h
    rfl
  | cons a start ih =>
    cases cs with
    | nil => cases h
    | cons c cs =>
      simp only [List.cons_append, after?] at h ⊢
      split_ifs at h ⊢
      exact ih h

theorem dropWhile_append {p : Char → Bool} {cs : List Char} {c : Char} {rest : List Char}
    (more : List Char) (h : cs.dropWhile p = c :: rest) :
    (cs ++ more).dropWhile p = c :: (rest ++ more) := by
  rw [List.dropWhile_append, h]
  rfl

theorem quoted?_append {cs inner : List Char} (more : List Char) (h : quoted? cs = some inner) :
    quoted? (cs ++ more) = some inner := by
  cases cs with
  | nil => cases h
  | cons q rest =>
    simp only [quoted?] at h
    split_ifs at h with hq hclosed
    obtain rfl := Option.some.inj h
    obtain ⟨after, hafter⟩ := List.head?_eq_some_iff.1 hclosed
    -- The text ends at the first quote, which stands before whatever is appended.
    have hrest : rest = rest.takeWhile (!isQuote ·) ++ q :: after := by
      rw [← hafter]
      exact (List.prefix_iff_eq_append.1 (List.takeWhile_prefix _)).symm
    have hplain : ∀ c ∈ rest.takeWhile (!isQuote ·), (!isQuote c) = true :=
      fun _ hc => List.mem_takeWhile_imp (p := (!isQuote ·)) hc
    have hinner : (rest ++ more).takeWhile (!isQuote ·) = rest.takeWhile (!isQuote ·) := by
      conv => lhs; rw [hrest, List.append_assoc]
      rw [List.takeWhile_append_of_pos hplain, List.cons_append,
        List.takeWhile_cons_of_neg (by simp [hq]), List.append_nil]
    have hclosing : ((rest ++ more).drop (rest.takeWhile (!isQuote ·)).length).head? = some q := by
      rw [List.drop_append_of_le_length (List.takeWhile_prefix _).length_le, hafter]
      rfl
    simp only [List.cons_append, quoted?, if_pos hq, hinner, if_pos hclosing]

/-- What stands behind a stamp does not matter. -/
theorem at?_append {cs version : List Char} (more : List Char) (h : at? cs = some version) :
    at? (cs ++ more) = some version := by
  obtain ⟨rest, hrest, hversion⟩ := Option.bind_eq_some_iff.1 h
  dsimp only at hversion
  split at hversion
  next after hafter =>
    rcases hblank : after.dropWhile isBlank with _ | ⟨q, quoted⟩
    · rw [hblank] at hversion
      cases hversion
    · rw [hblank] at hversion
      have hmore := after?_append more hrest
      simp only [at?, hmore, bind, Option.bind_some, dropWhile_append more hafter,
        dropWhile_append more hblank]
      exact quoted?_append more hversion
  · cases hversion

/-- Within a line there is no start of a line. -/
theorem find?_of_line {cs : List Char} (lineStart : Bool) (h : '\n' ∉ cs.dropLast) :
    find? lineStart cs = if lineStart then at? cs else none := by
  induction cs generalizing lineStart with
  | nil =>
    rw [find?]
    split_ifs <;> rfl
  | cons c rest ih =>
    have hrest : find? (c = '\n') rest = none := by
      cases rest with
      | nil =>
        rw [find?]
        split_ifs <;> rfl
      | cons d rest =>
        rw [List.dropLast_cons_cons, List.mem_cons, not_or] at h
        rw [ih _ h.2, decide_eq_false (Ne.symm h.1)]
        rfl
    rw [find?, hrest]
    rcases (if lineStart then at? (c :: rest) else none) with _ | v <;> rfl

theorem find?_of_at? {cs version : List Char} (h : at? cs = some version) :
    find? true cs = some version := by
  rw [find?.eq_def, if_pos rfl, h]

theorem find?_opening (cs : List Char) :
    find? true (Blueprint.openingText.toList ++ cs) = find? true cs := rfl

theorem lineEnd_not_mem_line (version : String) (n : Nat) :
    '\n' ∉ (((Blueprint.stampLine version).toList ++ ['\n']).take n).dropLast := by
  intro hmem
  have hline := (Blueprint.lineEnd_not_mem_stampLine version).1
  generalize (Blueprint.stampLine version).toList = line at hmem hline
  by_cases hn : n ≤ line.length
  · rw [List.take_append_of_le_length hn] at hmem
    exact hline (List.mem_of_mem_take ((List.dropLast_sublist _).subset hmem))
  · rw [List.take_of_length_le (by simp; omega), List.dropLast_concat] at hmem
    exact hline hmem

theorem ReadsBack.find? {version : String} (h : ReadsBack version) (tail : List Char) :
    find? true ((Blueprint.header version ++ tail).take window) = some version.toList := by
  have hlength : Blueprint.openingText.toList.length ≤ window := by decide
  unfold ReadsBack at h
  rw [Blueprint.header, List.take_append, List.take_of_length_le hlength, find?_opening,
    find?_of_line true (lineEnd_not_mem_line _ _), if_pos rfl] at h
  rw [Blueprint.header, List.append_assoc, List.take_append, List.take_of_length_le hlength,
    find?_opening, List.take_append]
  exact find?_of_at? (at?_append _ h)

/-- A version that reads back is read from the file of every source of that version. -/
theorem ReadsBack.ofData? {b : Blueprint} (h : ReadsBack b.version) :
    ofData? (encodeUtf8 b.source) = some b.version := by
  rw [Stamp.ofData?, fileHead_encodeUtf8 (by decide), b.unixLines_source, Option.bind_some, h.find?]
  exact congrArg some String.ofList_toList

end Stamp

/-! The statements of a rendered source. -/

namespace Statement

/-- Another line in front: it goes with the lines that wait for one at the margin, or takes them. -/
def gather (l : Line) (p : List Line × List (Line × List Line)) : List Line × List (Line × List Line) :=
  if isInner l then (l :: p.1, p.2) else ([], (l, p.1) :: p.2)

theorem blocks_eq (lines : List Line) : blocks lines = (lines.foldr gather ([], [])).2 := rfl

theorem gather_fst (lines : List Line) : (lines.foldr gather ([], [])).1 = lines.takeWhile isInner := by
  induction lines with
  | nil => rfl
  | cons k lines ih =>
    rw [List.foldr_cons, List.takeWhile_cons, gather]
    split_ifs
    · rw [← ih]
    · rfl

theorem blocks_margin {l : Line} (lines : List Line) (h : isInner l = false) :
    blocks (l :: lines) = (l, lines.takeWhile isInner) :: blocks lines := by
  rw [blocks_eq, blocks_eq, List.foldr_cons, gather, h, if_neg Bool.false_ne_true, gather_fst]

theorem blocks_inner {l : Line} (lines : List Line) (h : isInner l = true) :
    blocks (l :: lines) = blocks lines := by
  rw [blocks_eq, blocks_eq, List.foldr_cons, gather, if_pos h]

theorem bindingOrder_subset (lines : List Line) : bindingOrder lines ⊆ lines := by
  induction lines with
  | nil => exact List.nil_subset _
  | cons l lines ih =>
    unfold bindingOrder at ih ⊢
    by_cases hl : isInner l = true
    · rw [blocks_inner lines hl]
      exact fun k hk => List.mem_cons_of_mem l (ih hk)
    · rw [blocks_margin lines (Bool.eq_false_iff.2 hl), List.flatMap_cons]
      intro k hk
      rcases List.mem_append.1 hk with hk | hk
      · rcases List.mem_append.1 hk with hk | hk
        · exact List.mem_cons_of_mem l (List.takeWhile_subset _ hk)
        · rw [List.mem_singleton.1 hk]
          exact List.mem_cons_self
      · exact List.mem_cons_of_mem l (ih hk)

theorem firstFault?_none {lines : List Line} (h : lines.findSome? fault? = none) :
    firstFault? lines = none := by
  have hline : ∀ l ∈ lines, unclosed? l = none ∧ rebound? l = none :=
    fun l hl => Option.or_eq_none_iff.1 (List.findSome?_eq_none_iff.1 h l hl)
  have hunclosed : lines.findSome? unclosed? = none :=
    List.findSome?_eq_none_iff.2 fun l hl => (hline l hl).1
  have hrebound : (bindingOrder lines).findSome? rebound? = none :=
    List.findSome?_eq_none_iff.2 fun l hl => (hline l (bindingOrder_subset lines hl)).2
  rw [firstFault?, hunclosed, hrebound]
  rfl

theorem trimmedChars_eq {first last : Char} (cs : List Char) (hfirst : isBlank first = false)
    (hlast : isBlank last = false) :
    trimmedChars (first :: cs ++ [last]) = first :: cs ++ [last] := by
  rw [trimmedChars, List.cons_append, List.dropWhile_cons_of_neg (by simp [hfirst]),
    ← List.cons_append, List.reverse_concat, List.dropWhile_cons_of_neg (by simp [hlast]),
    ← List.reverse_concat, List.reverse_reverse]

theorem plainOf_assignment {cs name value : List Char} {text : String}
    (htrimmed : trimmedChars cs = cs)
    (hstart : (cs.isEmpty || cs.head? = some '#' || cs = "pass".toList) = false)
    (hfrom : after? "from ".toList cs = none) (himport : after? "import ".toList cs = none)
    (hraise : after? "raise ".toList cs = none) (haround : around "=" cs = some (name, value))
    (hvalue : text? (trimmedChars value) = some text) :
    plainOf cs = .setText (string name) text := by
  simp only [plainOf, htrimmed, hstart, Bool.false_eq_true, if_false, hfrom, himport, hraise,
    haround, assignment, hvalue]

theorem plainOf_stampLine (version : String) :
    plainOf (Blueprint.stampLine version).toList = .setText versionName version := by
  have hsplit : (Blueprint.stampLine version).toList =
      '_' :: ("_generator_version__ = \"".toList ++ version.toList.flatMap escaped) ++ ['\"'] := by
    rw [Blueprint.toList_stampLine]
    rfl
  have hwhole : trimmedChars (Blueprint.stampLine version).toList =
      (Blueprint.stampLine version).toList := by
    rw [hsplit]
    exact trimmedChars_eq _ (by decide) (by decide)
  have hvalue : text? (trimmedChars (quotedChars version.toList)) = some version := by
    rw [quotedChars, trimmedChars_eq _ (by decide) (by decide)]
    exact text?_quotedChars version
  have hname : string "__generator_version__".toList = versionName := by decide
  rw [Blueprint.toList_stampLine] at hwhole ⊢
  rw [← hname]
  exact plainOf_assignment hwhole rfl rfl rfl rfl rfl hvalue

/-- A line at the margin that starts neither a block nor a decorated one is a plain statement. -/
theorem ofBlocks_plain {n : Nat} {cs : List Char} (lines : List Line)
    (hmargin : isInner (n, cs) = false) (hat : cs.head? ≠ some '@')
    (hclass : after? "class ".toList cs = none) (hdef : after? "def ".toList cs = none) :
    ofBlocks [] (blocks ((n, cs) :: lines)) = .plain n (plainOf cs) :: ofBlocks [] (blocks lines) := by
  rw [blocks_margin lines hmargin, ofBlocks, if_neg hat, hclass, hdef]

theorem header_append (version : String) (tail : List Char) :
    Blueprint.header version ++ tail = "# Generated by modelgen. Do not edit.".toList ++ '\n' ::
      ("from __future__ import annotations".toList ++ '\n' ::
        ([] ++ '\n' :: ((Blueprint.stampLine version).toList ++ '\n' :: tail))) := by
  have hopening : Blueprint.openingText.toList = "# Generated by modelgen. Do not edit.".toList ++
      ('\n' :: ("from __future__ import annotations".toList ++ ['\n', '\n'])) := by decide
  simp only [Blueprint.header, hopening, List.append_assoc, List.cons_append, List.nil_append]

/-- A rendered source starts with two lines that do nothing and the stamp. -/
theorem ofSource_source {b : Blueprint} {statements : List Statement}
    (h : ofSource b.source = .ok statements) :
    ∃ rest, statements = .plain 1 .nothing :: .plain 2 .nothing ::
      .plain 4 (.setText versionName b.version) :: rest := by
  have hcomment : plainOf "# Generated by modelgen. Do not edit.".toList = .nothing := by
    decide +kernel
  have hfuture : plainOf "from __future__ import annotations".toList = .nothing := by
    decide +kernel
  have hstamp := plainOf_stampLine b.version
  have hline := (Blueprint.lineEnd_not_mem_stampLine b.version).1
  obtain ⟨stamp, hstart⟩ : ∃ stamp, (Blueprint.stampLine b.version).toList = '_' :: stamp :=
    ⟨_, Blueprint.toList_stampLine b.version⟩
  rw [ofSource, b.unixLines_source, header_append, pieces_line _ (by decide), pieces_line _ (by decide),
    pieces_line _ List.not_mem_nil, pieces_line _ hline] at h
  rw [hstart] at h hstamp
  simp only [numbered] at h
  split at h
  · cases h
  · rw [ofBlocks_plain _ (by decide) (by decide) (by decide) (by decide), hcomment,
      ofBlocks_plain _ (by decide) (by decide) (by decide) (by decide), hfuture,
      blocks_inner _ rfl, ofBlocks_plain _ rfl (by simp) rfl rfl, hstamp] at h
    cases h
    exact ⟨_, rfl⟩

/-- The statements of a source behind the one that sets the version. -/
def later (source : String) : List Statement :=
  match ofSource source with
  | .ok statements => statements.drop 3
  | .error _ => []

/-- A source binds the name of the version again behind its stamp: by an import, a class or an
assignment. -/
def Rebinds (source : String) : Prop := ∃ s ∈ later source, versionName ∈ s.binds

/-- A rendered source sets its version, unless it binds the name again. -/
theorem setsVersion_source {b : Blueprint} {statements : List Statement}
    (h : ofSource b.source = .ok statements) (hrebinds : ¬ Rebinds b.source) :
    SetsVersion b.source b.version := by
  obtain ⟨rest, rfl⟩ := ofSource_source h
  have hlater : later b.source = rest := by
    rw [later, h]
    rfl
  have hrest : ∀ s ∈ rest, versionName ∉ s.binds :=
    fun s hs hbinds => hrebinds ⟨s, hlater ▸ hs, hbinds⟩
  refine ⟨_, h, ?_⟩
  have hstamp : lastText? versionName
      ([.plain 1 .nothing, .plain 2 .nothing] ++ [.plain 4 (.setText versionName b.version)]) =
        some b.version := by
    have hbinds : versionName ∈ (plain 4 (.setText versionName b.version)).binds :=
      List.mem_singleton.2 rfl
    rw [lastText?_concat, if_pos hbinds, textFor?, if_pos rfl]
  exact (lastText?_append hrest _).trans hstamp

end Statement

end ModelContracts
