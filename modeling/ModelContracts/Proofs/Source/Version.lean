import ModelContracts.Proofs.Source.Reading

/-!
Which versions are read back from the stamp. A version is read back just when quoting leaves it as it is,
apart from single quotes, and its closing quote lies within the window. What follows the stamp is only
looked at when a single quote keeps the line of the stamp from being read, and then it never shows the
version.
-/

namespace ModelContracts

open Text

namespace Text

/-- A character that a quoted text has as it is and that ends no quoted text. -/
def Bare (c : Char) : Prop := c ≠ '\"' ∧ c ≠ '\'' ∧ c ≠ '\\' ∧ 0x20 ≤ c.toNat

instance : DecidablePred Bare := fun _ => inferInstanceAs (Decidable (_ ∧ _))

theorem escaped_of_bare {c : Char} (h : Bare c) : escaped c = [c] := by
  obtain ⟨hdouble, -, hbackslash, hcontrol⟩ := h
  have hne {d : Char} (hd : d.toNat < 0x20) : c ≠ d := by
    rintro rfl
    omega
  unfold escaped
  rw [if_neg hdouble, if_neg hbackslash, if_neg (hne (by decide)), if_neg (hne (by decide)),
    if_neg (hne (by decide)), if_neg (hne (by decide)), if_neg (hne (by decide)), if_neg (by omega)]

/-- Of the characters that stand for themselves only the single quote ends a quoted text. -/
theorem bare_of_escaped {c : Char} (h : (escaped c).length = 1) (hc : c ≠ '\'') : Bare c := by
  unfold escaped at h
  split_ifs at h with hdouble hbackslash _ _ _ _ _ hcontrol
  case neg => exact ⟨hdouble, hc, hbackslash, by omega⟩
  all_goals simp at h

theorem escaped_ne_nil (c : Char) : 1 ≤ (escaped c).length := by
  unfold escaped
  split_ifs <;> simp

theorem length_le_flatMap_escaped (cs : List Char) : cs.length ≤ (cs.flatMap escaped).length := by
  induction cs with
  | nil => exact Nat.le_refl _
  | cons c cs ih =>
    have hc := escaped_ne_nil c
    rw [List.flatMap_cons, List.length_append, List.length_cons]
    omega

/-- A text without single quotes is quoted as it is just when all its characters stand for themselves. -/
theorem flatMap_escaped_eq_self_iff {cs : List Char} (h : '\'' ∉ cs) :
    cs.flatMap escaped = cs ↔ ∀ c ∈ cs, Bare c := by
  induction cs with
  | nil => simp
  | cons c cs ih =>
    obtain ⟨hc, hcs⟩ := List.ne_and_not_mem_of_not_mem_cons h
    rw [List.flatMap_cons, List.forall_mem_cons, ← ih hcs]
    constructor
    · intro heq
      have hlength := congrArg List.length heq
      have hrest := length_le_flatMap_escaped cs
      have hfirst := escaped_ne_nil c
      rw [List.length_append, List.length_cons] at hlength
      have hbare : Bare c := bare_of_escaped (by omega) hc.symm
      rw [escaped_of_bare hbare] at heq
      exact ⟨hbare, (List.cons.inj heq).2⟩
    · rintro ⟨hbare, heq⟩
      rw [escaped_of_bare hbare, heq, List.singleton_append]

theorem not_mem_hexChars {n : Nat} (h : n < 0x20) : '\"' ∉ hexChars 4 n ∧ '\'' ∉ hexChars 4 n := by
  revert n
  decide

/-- Quoting brings no quotes into a text that are not there. -/
theorem not_mem_escaped {c q : Char} (hq : q = '\"' ∨ q = '\'') (h : q ≠ c) : q ∉ escaped c := by
  unfold escaped
  split_ifs with hdouble _ _ _ _ _ _ hcontrol
  · subst hdouble
    obtain rfl := hq.resolve_left h
    decide
  · rcases hq with rfl | rfl <;> decide
  · rcases hq with rfl | rfl <;> decide
  · rcases hq with rfl | rfl <;> decide
  · rcases hq with rfl | rfl <;> decide
  · rcases hq with rfl | rfl <;> decide
  · rcases hq with rfl | rfl <;> decide
  · obtain ⟨hdouble, hsingle⟩ := not_mem_hexChars hcontrol
    rcases hq with rfl | rfl <;> simp [hdouble, hsingle]
  · simpa using h

end Text

namespace Stamp

open Blueprint

/-! Quoted texts within a window. -/

theorem isQuote_iff {c : Char} : isQuote c = true ↔ c = '\"' ∨ c = '\'' := by simp [isQuote]

theorem isQuote_eq_false_iff {c : Char} : isQuote c = false ↔ c ≠ '\"' ∧ c ≠ '\'' := by
  rw [← Bool.not_eq_true, isQuote_iff, not_or]

/-- A text up to its closing quote is read when the quote is still in the window. -/
theorem quoted?_take {inner : List Char} (rest : List Char) (h : ∀ c ∈ inner, isQuote c = false)
    (n : Nat) : quoted? ('\"' :: (inner ++ '\"' :: rest).take n) =
      if inner.length < n then some inner else none := by
  have hplain : ∀ c ∈ inner, (!isQuote c) = true := fun c hc => by rw [h c hc]; rfl
  have hquote : isQuote '\"' = true := rfl
  split_ifs with hn
  · obtain ⟨k, rfl⟩ : ∃ k, n = inner.length + (k + 1) := ⟨n - inner.length - 1, by omega⟩
    rw [List.take_length_add_append, List.take_succ_cons]
    have hinner : (inner ++ '\"' :: rest.take k).takeWhile (!isQuote ·) = inner := by
      rw [List.takeWhile_append_of_pos hplain, List.takeWhile_cons_of_neg (by simp [hquote]),
        List.append_nil]
    simp only [quoted?, hquote, if_true, hinner, List.drop_left, List.head?_cons]
  · rw [List.take_append_of_le_length (by omega)]
    have hinner : (inner.take n).takeWhile (!isQuote ·) = inner.take n :=
      List.takeWhile_eq_self_iff.2 fun c hc => hplain c (List.mem_of_mem_take hc)
    simp only [quoted?, hquote, if_true, hinner, List.drop_length, List.head?_nil, reduceCtorEq,
      if_false]

/-- What stands behind the first quote does not matter. -/
theorem quoted?_of_mem {q : Char} {cs : List Char} (more : List Char) (h : ∃ c ∈ cs, isQuote c = true) :
    quoted? (q :: (cs ++ more)) = quoted? (q :: cs) := by
  obtain ⟨inner, c, rest, rfl, hc, hinner⟩ : ∃ inner c rest, cs = inner ++ c :: rest ∧
      isQuote c = true ∧ ∀ d ∈ inner, (!isQuote d) = true := by
    induction cs with
    | nil => simp at h
    | cons d cs ih =>
      cases hd : isQuote d with
      | true => exact ⟨[], d, cs, rfl, hd, nofun⟩
      | false =>
        obtain ⟨c, hmem, hc⟩ := h
        rcases List.mem_cons.1 hmem with rfl | hmem
        · rw [hd] at hc
          cases hc
        · obtain ⟨inner, e, rest, rfl, he, hinner⟩ := ih ⟨c, hmem, hc⟩
          exact ⟨d :: inner, e, rest, rfl, he, List.forall_mem_cons.2 ⟨by rw [hd]; rfl, hinner⟩⟩
  have htake (tail : List Char) : (inner ++ c :: tail).takeWhile (!isQuote ·) = inner := by
    rw [List.takeWhile_append_of_pos hinner, List.takeWhile_cons_of_neg (by simp [hc]), List.append_nil]
  rw [List.append_assoc, List.cons_append]
  simp only [quoted?, htake, List.drop_left, List.head?_cons]

theorem unquoted_of_quoted? {cs v : List Char} (h : quoted? cs = some v) :
    ∀ c ∈ v, isQuote c = false := by
  cases cs with
  | nil => cases h
  | cons q rest =>
    simp only [quoted?] at h
    split_ifs at h
    obtain rfl := Option.some.inj h
    intro c hc
    simpa using List.mem_takeWhile_imp hc

/-- No version that is read has a quote. -/
theorem unquoted_of_find? {lineStart : Bool} {cs v : List Char} (h : find? lineStart cs = some v) :
    ∀ c ∈ v, isQuote c = false := by
  have hat : ∀ {cs}, at? cs = some v → ∀ c ∈ v, isQuote c = false := by
    intro cs h
    obtain ⟨rest, -, hversion⟩ := Option.bind_eq_some_iff.1 h
    dsimp only at hversion
    split at hversion
    · exact unquoted_of_quoted? hversion
    · cases hversion
  have hstart : ∀ {lineStart : Bool} {cs}, (if lineStart then at? cs else none) = some v →
      ∀ c ∈ v, isQuote c = false := by
    intro lineStart cs h
    split_ifs at h
    exact hat h
  induction cs generalizing lineStart with
  | nil =>
    rw [find?] at h
    split at h
    next hv =>
      cases h
      exact hstart hv
    · cases h
  | cons c cs ih =>
    rw [find?] at h
    split at h
    next hv =>
      cases h
      exact hstart hv
    · exact ih h

/-! The line of the stamp. -/

/-- What is read as a version, if anything: it ends with the first quote. -/
def shown (version : String) : List Char :=
  (version.toList.flatMap escaped ++ ['\"']).takeWhile (!isQuote ·)

/-- A version that is read back: its characters stand for themselves, and its closing quote lies within
the window. -/
structure Readable (version : String) : Prop where
  bare : ∀ c ∈ version.toList, Bare c
  short : (openingText ++ stampLine version).length ≤ window

theorem shown_of_unquoted {version : String} (h : ∀ c ∈ version.toList, isQuote c = false) :
    shown version = version.toList.flatMap escaped := by
  have hplain : ∀ c ∈ version.toList.flatMap escaped, (!isQuote c) = true := by
    intro c hc
    obtain ⟨d, hd, hcd⟩ := List.mem_flatMap.1 hc
    have hquotes : ∀ q, q = '\"' ∨ q = '\'' → q ≠ c := by
      rintro q hq rfl
      refine not_mem_escaped hq ?_ hcd
      rintro rfl
      exact absurd (isQuote_iff.2 hq) (by simp [h q hd])
    simp only [Bool.not_eq_true', isQuote_eq_false_iff]
    exact ⟨(hquotes _ (Or.inl rfl)).symm, (hquotes _ (Or.inr rfl)).symm⟩
  rw [shown, List.takeWhile_append_of_pos hplain, List.takeWhile_cons_of_neg (by decide), List.append_nil]

/-- Without single quotes in it, what is shown of a version ends with a quote like the one before it. -/
theorem quotedChars_shown {version : String} (h : '\'' ∉ version.toList) :
    ∃ rest, quotedChars version.toList = '\"' :: (shown version ++ '\"' :: rest) := by
  have hsingle : '\'' ∉ version.toList.flatMap escaped ++ ['\"'] := by
    rw [List.mem_append, List.mem_flatMap, not_or]
    refine ⟨fun ⟨c, hc, hmem⟩ => not_mem_escaped (Or.inr rfl) ?_ hmem, by decide⟩
    rintro rfl
    exact h hc
  have hsplit := List.takeWhile_append_dropWhile (p := (!isQuote ·))
    (l := version.toList.flatMap escaped ++ ['\"'])
  rcases hdrop : (version.toList.flatMap escaped ++ ['\"']).dropWhile (!isQuote ·) with _ | ⟨q, rest⟩
  · have hall := List.dropWhile_eq_nil_iff.1 hdrop '\"' (by simp)
    cases hall
  · have hq : isQuote q = true := by
      have hne : (version.toList.flatMap escaped ++ ['\"']).dropWhile (!isQuote ·) ≠ [] := by
        rw [hdrop]
        exact List.cons_ne_nil q rest
      have hhead := List.head_dropWhile_not (!isQuote ·) hne
      simpa [hdrop] using hhead
    rw [hdrop] at hsplit
    obtain rfl : q = '\"' := by
      refine (isQuote_iff.1 hq).resolve_right ?_
      rintro rfl
      exact hsingle (hsplit ▸ by simp)
    exact ⟨rest, by rw [quotedChars, List.cons_append, shown, hsplit]⟩

/-- How many characters of the window are left behind the opening quote. -/
def room : Nat := window - (openingText ++ "__generator_version__ = \"").length

theorem window_eq : window =
    openingText.toList.length + ("__generator_version__ = ".toList.length + (room + 1)) := by decide

theorem take_header {version : String} {inner rest : List Char}
    (h : quotedChars version.toList = '\"' :: (inner ++ '\"' :: rest)) :
    (header version).take window = openingText.toList ++ ("__generator_version__ = ".toList ++
      '\"' :: (inner ++ '\"' :: (rest ++ ['\n'])).take room) := by
  rw [header, toList_stampLine, h, window_eq, List.take_length_add_append, List.append_assoc,
    List.take_length_add_append, List.cons_append, List.take_succ_cons, List.append_assoc,
    List.cons_append]

theorem at?_lead (cs : List Char) :
    at? ("__generator_version__ = ".toList ++ '\"' :: cs) = quoted? ('\"' :: cs) := rfl

/-- Of a version without single quotes the line of the stamp shows what stands before the next quote, if
that is still in the window. -/
theorem find?_header {version : String} (h : '\'' ∉ version.toList) :
    find? true ((header version).take window) =
      if (shown version).length < room then some (shown version) else none := by
  obtain ⟨rest, hrest⟩ := quotedChars_shown h
  have hshown : ∀ c ∈ shown version, isQuote c = false := fun c hc => by
    simpa using List.mem_takeWhile_imp hc
  have hline := lineEnd_not_mem_line version (window - openingText.toList.length)
  have htake := take_header hrest
  have hlength : openingText.toList.length ≤ window := by
    rw [window_eq]
    exact Nat.le_add_right ..
  rw [header, List.take_append, List.take_of_length_le hlength, List.append_cancel_left_eq] at htake
  rw [header, List.take_append, List.take_of_length_le hlength, find?_opening,
    find?_of_line true hline, if_pos rfl, htake, at?_lead, quoted?_take _ hshown]

/-! What follows the stamp. -/

theorem find?_nil (lineStart : Bool) : find? lineStart [] = none := by cases lineStart <;> rfl

theorem find?_line {line : List Char} (lineStart : Bool) (rest : List Char) (h : '\n' ∉ line) :
    find? lineStart (line ++ '\n' :: rest) =
      (if lineStart then at? (line ++ '\n' :: rest) else none).or (find? true rest) := by
  induction line generalizing lineStart with
  | nil =>
    rw [List.nil_append, find?]
    rcases (if lineStart then at? ('\n' :: rest) else none) with _ | v <;> rfl
  | cons c line ih =>
    obtain ⟨hc, hline⟩ := List.ne_and_not_mem_of_not_mem_cons h
    rw [List.cons_append, find?, ih _ hline, decide_eq_false hc.symm, if_neg Bool.false_ne_true,
      Option.none_or]
    rcases (if lineStart then at? (c :: (line ++ '\n' :: rest)) else none) with _ | v <;> rfl

/-- The line of the stamp is read the same whatever follows it. -/
theorem at?_stampLine (version : String) (tail : List Char) :
    at? ((stampLine version).toList ++ '\n' :: tail) = at? ((stampLine version).toList ++ ['\n']) := by
  have hquote : ∃ c ∈ version.toList.flatMap escaped ++ ['\"'], isQuote c = true :=
    ⟨'\"', by simp, rfl⟩
  have hline (more : List Char) : (stampLine version).toList ++ '\n' :: more =
      "__generator_version__ = ".toList ++
        '\"' :: ((version.toList.flatMap escaped ++ ['\"']) ++ '\n' :: more) := by
    rw [toList_stampLine, quotedChars, List.append_assoc, List.cons_append, List.cons_append]
  rw [hline, hline, at?_lead, at?_lead, quoted?_of_mem _ hquote, quoted?_of_mem _ hquote]

/-- A source shows what its stamp shows, or else what is shown behind it within the window. -/
theorem find?_source (version : String) (tail : List Char) :
    find? true ((header version ++ tail).take window) = (find? true ((header version).take window)).or
      (find? true (tail.take (window - (header version).length))) := by
  by_cases hlong : window ≤ (header version).length
  · rw [List.take_append_of_le_length hlong, Nat.sub_eq_zero_of_le hlong, List.take_zero, find?_nil,
      Option.or_none]
  · have hline := (lineEnd_not_mem_stampLine version).1
    rw [List.take_append, List.take_of_length_le (by omega), header, List.append_assoc, List.append_assoc,
      find?_opening, find?_opening, List.singleton_append, find?_line true _ hline, find?_line true _ hline,
      if_pos rfl, if_pos rfl, at?_stampLine, find?_nil, Option.or_none]

/-- Nothing behind the stamp of a version without single quotes is looked at. -/
theorem find?_single {version : String} (h : '\'' ∉ version.toList) (tail : List Char) :
    find? true ((header version ++ tail).take window) = find? true ((header version).take window) := by
  rw [find?_source, find?_header h]
  split_ifs with hroom
  · rfl
  · -- the stamp is not read because it fills the window, so nothing is left for what follows
    obtain ⟨rest, hrest⟩ := quotedChars_shown h
    have hlong : window ≤ (header version).length := by
      rw [header, toList_stampLine, hrest, window_eq]
      simp only [List.length_append, List.length_cons]
      omega
    rw [Nat.sub_eq_zero_of_le hlong, List.take_zero, find?_nil, Option.none_or]

theorem single_of_unquoted {cs : List Char} (h : ∀ c ∈ cs, isQuote c = false) : '\'' ∉ cs :=
  fun hmem => absurd (h _ hmem) (by decide)

theorem ReadsBack.single {version : String} (h : ReadsBack version) : '\'' ∉ version.toList :=
  single_of_unquoted (unquoted_of_find? h)

/-- The line of the stamp gives the version back just when the version is readable. -/
theorem readsBack_iff {version : String} : ReadsBack version ↔ Readable version := by
  have hroom : (openingText ++ stampLine version).length ≤ window ↔
      (version.toList.flatMap escaped).length < room := by
    rw [window_eq, ← String.length_toList, String.toList_append, toList_stampLine, quotedChars]
    simp only [List.length_append, List.length_cons, List.length_nil]
    omega
  constructor
  · intro h
    -- what is read ends with the first quote, so it is the version only if quoting keeps all of it
    have hunquoted := unquoted_of_find? h
    have hshown := find?_header h.single
    rw [shown_of_unquoted hunquoted, h] at hshown
    split_ifs at hshown with hlength
    have hself := (Option.some.inj hshown).symm
    exact ⟨(flatMap_escaped_eq_self_iff h.single).1 hself, hroom.2 hlength⟩
  · intro h
    have hunquoted : ∀ c ∈ version.toList, isQuote c = false :=
      fun c hc => isQuote_eq_false_iff.2 ⟨(h.bare c hc).1, (h.bare c hc).2.1⟩
    have hsingle := single_of_unquoted hunquoted
    have hself := (flatMap_escaped_eq_self_iff hsingle).2 h.bare
    have hlength := hroom.1 h.short
    unfold ReadsBack
    rw [find?_header hsingle, shown_of_unquoted hunquoted, if_pos hlength, hself]

/-- Whatever follows the stamp, a source shows its version just when the stamp does. -/
theorem find?_source_iff {version : String} (tail : List Char) :
    find? true ((header version ++ tail).take window) = some version.toList ↔ ReadsBack version := by
  refine ⟨fun h => ?_, fun h => h.find? tail⟩
  rwa [find?_single (single_of_unquoted (unquoted_of_find? h))] at h

/-- Where nothing is read as a stamp, nothing is read in less of it. -/
theorem find?_take {lineStart : Bool} {cs : List Char} (h : find? lineStart cs = none) (n : Nat) :
    find? lineStart (cs.take n) = none := by
  have hmore : ∀ {lineStart : Bool} {cs v : List Char} (more : List Char),
      find? lineStart cs = some v → find? lineStart (cs ++ more) ≠ none := by
    intro lineStart cs v more
    induction cs generalizing lineStart with
    | nil =>
      intro hv
      rw [find?_nil] at hv
      cases hv
    | cons c cs ih =>
      intro hv
      rw [find?] at hv
      rw [List.cons_append, find?]
      split
      · exact Option.some_ne_none _
      next hnone =>
        refine ih ?_
        split at hv
        next hstart =>
          split_ifs at hstart hnone
          rw [← List.cons_append, at?_append more hstart] at hnone
          cases hnone
        · exact hv
  rcases hv : find? lineStart (cs.take n) with _ | v
  · rfl
  · have hwhole := hmore (cs.drop n) hv
    rw [List.take_append_drop] at hwhole
    exact (hwhole h).elim

end Stamp

namespace Blueprint

variable {b : Blueprint} {L : Ledger} {t : FileTree} {p : Path}

/-- No line behind the stamp can be taken for one. -/
def Unstamped (b : Blueprint) : Prop := Stamp.find? true (unixLines b.following.toList) = none

/-- Lines that start otherwise than the name of the version are not taken for a stamp. -/
theorem find?_lines {ls : List String} (h : ∀ l ∈ ls, OneLine l ∧ l.toList.head? ≠ some '_') :
    Stamp.find? true (ls.flatMap fun l => l.toList ++ ['\n']) = none := by
  induction ls with
  | nil => rfl
  | cons l ls ih =>
    obtain ⟨hline, hhead⟩ := h l List.mem_cons_self
    have hat : Stamp.at? (l.toList ++ '\n' :: ls.flatMap fun l => l.toList ++ ['\n']) = none := by
      cases hl : l.toList with
      | nil => rfl
      | cons c cs =>
        rw [hl] at hhead
        have hc : c ≠ '_' := fun hc => hhead (by rw [hc]; rfl)
        have hafter : after? versionName.toList (c :: cs ++ '\n' :: ls.flatMap fun l =>
            l.toList ++ ['\n']) = none := if_neg hc.symm
        rw [Stamp.at?, hafter]
        rfl
    rw [List.flatMap_cons, List.append_assoc, List.singleton_append, Stamp.find?_line true _ hline.1,
      if_pos rfl, hat, Option.none_or, ih fun k hk => h k (List.mem_cons_of_mem l hk)]

/-- A line of imports starts with what it imports by. -/
theorem head?_importBlock (h : b.importLines = L.importLines) :
    ∀ l ∈ b.importBlock, l.toList.head? ≠ some '_' := by
  have hledger : ∀ l ∈ L.importLines, l.toList.head? ≠ some '_' := by
    intro l hl
    rcases List.mem_append.1 hl with hl | hl
    · obtain ⟨m, -, rfl⟩ := List.mem_map.1 hl
      simp
    · obtain ⟨m, -, rfl⟩ := List.mem_map.1 hl
      simp
  exact forall_importBlock h hledger (by decide)

theorem head?_contractLines (h : ∀ k ∈ b.contracts, k.Legible b.annotatedText) :
    ∀ l ∈ b.contractLines, l.toList.head? ≠ some '_' := by
  refine forall_contractLines (by decide) ?header ?first ?body
  case header =>
    intro k hk l hl
    rw [((h k hk).header l hl).1]
    decide
  case first =>
    intro k _
    simp [Contract.classLine]
  case body =>
    intro k hk l hl hhead
    have hinner := (Statement.bodyLine_of_mem (h k hk).members l hl).inner 0
    obtain ⟨cs, hcs⟩ := List.head?_eq_some_iff.1 hhead
    have hmargin : Statement.isInner (0, '_' :: cs) = false := rfl
    rw [hcs, hmargin] at hinner
    cases hinner

/-- The lines of imports and contracts whose names are not taken apart start otherwise than a stamp does. -/
theorem unstamped_of_legible (h : b.Legible L) : b.Unstamped := by
  have hline : ∀ l ∈ "" :: (b.importBlock ++ b.contractLines),
      OneLine l ∧ l.toList.head? ≠ some '_' := by
    intro l hl
    rcases List.mem_cons.1 hl with rfl | hl
    · decide
    · refine ⟨lines_oneLine h l (List.mem_append_right _ hl), ?_⟩
      exact (List.mem_append.1 hl).elim (head?_importBlock h.imports l)
        (head?_contractLines h.contracts l)
  have hfollowing : b.following.toList =
      ("" :: (b.importBlock ++ b.contractLines)).flatMap fun l => l.toList ++ ['\n'] :=
    toList_lines (List.cons_ne_nil _ _)
  have hreturn : '\r' ∉ b.following.toList := by
    rw [hfollowing]
    intro hmem
    obtain ⟨l, hl, hmem⟩ := List.mem_flatMap.1 hmem
    rcases List.mem_append.1 hmem with hmem | hmem
    · exact (hline l hl).1.2 hmem
    · cases List.mem_singleton.1 hmem
  rw [Unstamped, unixLines_of_no_return hreturn, hfollowing]
  exact find?_lines hline

/-- What a file shows that holds a source. -/
theorem ofFile?_source (h : t.read? p = .ok (encodeUtf8 b.source)) : Stamp.ofFile? t p =
    (Stamp.find? true ((header b.version ++ unixLines b.following.toList).take Stamp.window)).map
      String.ofList := by
  rw [Stamp.ofFile?, h]
  dsimp only
  rw [Stamp.ofData?, fileHead_encodeUtf8 (by decide), Option.bind_some, b.unixLines_source]

theorem ofFile?_source_iff (h : t.read? p = .ok (encodeUtf8 b.source)) :
    Stamp.ofFile? t p = some b.version ↔ Stamp.Readable b.version := by
  rw [← Stamp.readsBack_iff, ← Stamp.find?_source_iff (unixLines b.following.toList), ofFile?_source h,
    Option.map_eq_some_iff]
  constructor
  · rintro ⟨v, hv, hversion⟩
    rw [hv, ← hversion, String.toList_ofList]
  · exact fun hv => ⟨_, hv, String.ofList_toList⟩

end Blueprint

/-! Two sources of one version, the second with what could be taken for another stamp. -/

namespace Stamped

def blueprint (version : String) : Blueprint := { stem := "App", version }

def crowded (version : String) : Blueprint :=
  { blueprint version with importLines := ["__generator_version__ = \"2\"", "from app import A"] }

/-- The files with a source. -/
def holding (b : Blueprint) : FileTree := { files := [(["App.py"], Text.encodeUtf8 b.source)] }

def place : Path := Path.ofText "App.py"

theorem read_holding (b : Blueprint) :
    (holding b).read? place = .ok (Text.encodeUtf8 b.source) := rfl

theorem readable_one : Stamp.Readable "1" := ⟨by decide, by decide +kernel⟩

/-- A version with a single quote is not read, and then the line behind it is. -/
example : Stamp.ofFile? (holding (crowded "it's")) place = some "2" := by decide +kernel

end Stamped

end ModelContracts
