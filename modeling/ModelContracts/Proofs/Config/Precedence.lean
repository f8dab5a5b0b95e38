import ModelContracts.Proofs.Config.Reporting

/-!
Which layer a setting comes from. Under every name, validation is given what the caller gives, else what
the environment gives, else what the settings file has, else the default; no other names reach it, and
all of these do, so a name that is no setting is always refused. It makes no difference whether the file
holds the settings in their section or all by themselves.
-/

namespace ModelContracts

theorem Value.sameKey_text (a b : String) : (Value.text a).sameKey (.text b) = decide (a = b) := by
  have hequal : (Value.text a).equal (.text b) = decide (a = b) := by
    rw [Bool.eq_iff_iff, Value.equal_text rfl, decide_eq_true_iff, Value.text?, Option.some.injEq,
      eq_comm]
  rw [Value.sameKey, hequal, Value.sameNumber, Bool.or_false]
  all_goals simp

theorem Entries.Keyed.merged {K : Value → Prop} {base upper : Entries} (hbase : base.Keyed K)
    (hupper : ∀ e ∈ upper, K e.1) : (mergeEntries base upper).Keyed K := by
  induction upper generalizing base with
  | nil => rwa [mergeEntries_nil]
  | cons e upper ih =>
    obtain ⟨k, v⟩ := e
    obtain ⟨hk, hrest⟩ := List.forall_mem_cons.1 hupper
    rw [mergeEntries_cons]
    exact ih (hbase.set hk _) hrest

/-! The environment. -/

namespace Environment

/-- The base folder is taken as it is written, everything else is a flag. -/
def reading (setting raw : String) : Option Value :=
  if setting = "base_dir" then some (.text raw) else (flag? raw).map .bool

/-- What the environment gives for a setting. -/
def override? (env : Environment) (setting : String) : Option Value :=
  overrides.findSome? fun e => if e.2 = setting then (env.lookup e.1).bind (reading setting) else none

/-- Every flag that is set can be read. -/
def Readable (env : Environment) : Prop :=
  ∀ e ∈ overrides, ∀ raw ∈ env.lookup e.1, (reading e.2 raw).isSome = true

instance (env : Environment) : Decidable env.Readable :=
  inferInstanceAs <| Decidable <|
    ∀ e ∈ overrides, ∀ raw ∈ env.lookup e.1, (reading e.2 raw).isSome = true

theorem settingOf_of_reading {setting raw : String} {v : Value} (h : reading setting raw = some v)
    (name : String) : settingOf name setting raw = .ok v := by
  rw [reading] at h
  rw [settingOf]
  split at h
  next hsetting => rw [if_pos hsetting, Option.some.inj h]
  next hsetting =>
    obtain ⟨b, hb, rfl⟩ := Option.map_eq_some_iff.1 h
    rw [if_neg hsetting, hb]

theorem reading_plain {setting raw : String} {v : Value} (h : reading setting raw = some v) :
    v.isDict = false := by
  rw [reading] at h
  split at h
  · rw [← Option.some.inj h]
    rfl
  · obtain ⟨b, -, rfl⟩ := Option.map_eq_some_iff.1 h
    rfl

end Environment

namespace Settings

variable {given base upper : List (String × Value)}

/-- Each name is given once. -/
def Distinct (given : List (String × Value)) : Prop := (given.map (·.1)).Nodup

instance (given : List (String × Value)) : Decidable (Distinct given) :=
  inferInstanceAs (Decidable (given.map (·.1)).Nodup)

/-- No value is a mapping. -/
def Plain (given : List (String × Value)) : Prop := ∀ e ∈ given, e.2.isDict = false

instance (given : List (String × Value)) : Decidable (Plain given) :=
  inferInstanceAs (Decidable (∀ e ∈ given, e.2.isDict = false))

/-! Settings by name as entries of a mapping. -/

theorem find?_keywords (given : List (String × Value)) (name : String) :
    (keywords given).find? (.text name) = given.lookup name := by
  induction given with
  | nil => rfl
  | cons e given ih =>
    obtain ⟨a, v⟩ := e
    have htail : Entries.find? (.text name) (given.map fun e => (Value.text e.1, e.2)) =
        given.lookup name := ih
    rw [keywords, List.map_cons, Entries.find?, htail, lookup_cons_ite, Value.sameKey_text]
    by_cases h : name = a
    · simp [h]
    · rw [if_neg h, if_neg (by simpa using fun heq : a = name => h heq.symm)]

theorem keyed_keywords : (keywords given).Keyed Value.Simple ↔ Distinct given := by
  induction given with
  | nil => exact ⟨fun _ => List.nodup_nil, fun _ => .nil⟩
  | cons e given ih =>
    rw [Distinct, List.map_cons, List.nodup_cons]
    constructor
    · intro h
      obtain ⟨-, hnew, hrest⟩ := h.of_cons
      refine ⟨fun hmem => ?_, ih.1 hrest⟩
      obtain ⟨d, hd, hname⟩ := List.mem_map.1 hmem
      have hother := hnew _ (List.mem_map_of_mem hd)
      simp [Value.sameKey_text, hname] at hother
    · intro ⟨hnew, hrest⟩
      refine .cons (Value.simple_text e.1) (fun d hd => ?_) (ih.2 hrest)
      obtain ⟨c, hc, rfl⟩ := List.mem_map.1 hd
      have hne : e.1 ≠ c.1 := fun heq => hnew (heq ▸ List.mem_map_of_mem hc)
      simpa [Value.sameKey_text] using hne

theorem named_keywords_eq (given : List (String × Value)) : named (keywords given) = .ok given := by
  induction given with
  | nil => rfl
  | cons e given ih =>
    rw [keywords, List.map_cons, named]
    rw [keywords] at ih
    rw [ih]
    rfl

theorem exists_keywords {es : Entries} (h : es.Named) : ∃ given, es = keywords given := by
  induction es with
  | nil => exact ⟨[], rfl⟩
  | cons e es ih =>
    obtain ⟨⟨name, hname⟩, hrest⟩ := List.forall_mem_cons.1 h
    obtain ⟨given, rfl⟩ := ih hrest
    obtain ⟨k, v⟩ := e
    cases hname
    exact ⟨(name, v) :: given, rfl⟩

theorem ofEntries_keywords (given : List (String × Value)) :
    ofEntries (keywords given) = (validate given).mapError .invalid := by
  rw [ofEntries, named_keywords_eq]
  rfl

/-! One layer upon another. -/

/-- Under every name `merged` has what `upper` has, or else what `base` has. -/
structure Overlaid (base upper merged : List (String × Value)) : Prop where
  distinct : Distinct merged
  lookup : ∀ name, merged.lookup name = (upper.lookup name).or (base.lookup name)

theorem isDict_of_lookup (h : Plain given) {name : String} {v : Value}
    (hv : given.lookup name = some v) : v.isDict = false := by
  obtain ⟨before, behind, rfl, -⟩ := List.lookup_eq_some_iff.1 hv
  exact h (name, v) (List.mem_append_right before List.mem_cons_self)

theorem mem_names_iff {name : String} : name ∈ given.map (·.1) ↔ (given.lookup name).isSome = true := by
  rw [List.lookup_isSome_iff, List.mem_map]
  exact ⟨fun ⟨e, he, heq⟩ => ⟨e, he, beq_iff_eq.2 heq.symm⟩,
    fun ⟨e, he, heq⟩ => ⟨e, he, (beq_iff_eq.1 heq).symm⟩⟩

theorem mergeEntries_keywords (hbase : Distinct base) (hupper : Distinct upper)
    (hplain : ∀ name v, base.lookup name = some v → v.isDict = false) :
    ∃ merged, mergeEntries (keywords base) (keywords upper) = keywords merged ∧
      Overlaid base upper merged := by
  have hb := keyed_keywords.2 hbase
  have hu := keyed_keywords.2 hupper
  obtain ⟨merged, hmerged⟩ := exists_keywords (named_merged (named_keywords base) (named_keywords upper))
  refine ⟨merged, hmerged, ?_, fun name => ?_⟩
  · rw [← keyed_keywords, ← hmerged]
    exact hb.merged hu.keys
  · rw [← find?_keywords, ← hmerged,
      find?_mergeEntries Value.comparable_simple hb hu (Value.simple_text name), find?_keywords,
      find?_keywords]
    cases hfound : base.lookup name with
    | none => simp [mergeValue_none]
    | some u =>
      have hmerge : ∀ v, mergeValue v (some u) = v := fun v =>
        mergeValue_plain (Or.inr (hplain name u hfound))
      simp [hmerge]

/-! The environment as settings by name. -/

theorem settingsOf_keywords {env : Environment} {l : List (String × String)}
    (hreadable : ∀ e ∈ l, ∀ raw ∈ env.lookup e.1, (Environment.reading e.2 raw).isSome = true) :
    ∃ given, env.settingsOf l = .ok (keywords given) ∧ (given.map (·.1)).Sublist (l.map (·.2)) ∧
      Plain given ∧
      ∀ name, given.lookup name = l.findSome? fun e =>
        if e.2 = name then (env.lookup e.1).bind (Environment.reading name) else none := by
  induction l with
  | nil => exact ⟨[], rfl, .slnil, by simp [Plain], fun name => rfl⟩
  | cons e l ih =>
    obtain ⟨source, setting⟩ := e
    obtain ⟨hfirst, hreadable⟩ := List.forall_mem_cons.1 hreadable
    obtain ⟨given, hgiven, hsub, hplain, hlookup⟩ := ih hreadable
    cases hraw : env.lookup source with
    | none =>
      refine ⟨given, ?_, hsub.cons _, hplain, fun name => ?_⟩
      · rw [Environment.settingsOf, hraw]
        exact hgiven
      · rw [hlookup, List.findSome?_cons, hraw]
        simp
    | some raw =>
      obtain ⟨v, hv⟩ := Option.isSome_iff_exists.1 (hfirst raw hraw)
      refine ⟨(setting, v) :: given, ?_, hsub.cons_cons setting,
        List.forall_mem_cons.2 ⟨Environment.reading_plain hv, hplain⟩, fun name => ?_⟩
      · rw [Environment.settingsOf, hraw]
        simp only [Environment.settingOf_of_reading hv, hgiven]
        rfl
      · rw [lookup_cons_ite, List.findSome?_cons, hraw, ← hlookup]
        by_cases hname : name = setting
        · subst hname
          simp [hv]
        · rw [if_neg hname, if_neg fun heq => hname heq.symm]

theorem settings_keywords {env : Environment} (h : env.Readable) :
    ∃ given, env.settings = .ok (keywords given) ∧ Distinct given ∧ Plain given ∧
      ∀ name, given.lookup name = env.override? name := by
  obtain ⟨given, hgiven, hsub, hplain, hlookup⟩ := settingsOf_keywords h
  have hdistinct : (Environment.overrides.map (·.2)).Nodup := by decide
  exact ⟨given, hgiven, hdistinct.sublist hsub, hplain, hlookup⟩

/-! The settings file. -/

/-- The settings that a file holds, in its section or by themselves; a standard file that is missing
holds none. -/
inductive Stored (t : FileTree) (w : Workspace) : Option Path → List (String × Value) → Prop
  | flat {p : Option Path} {given : List (String × Value)}
      (content : Says t w p (.ok (.dict (keywords given)))) : Stored t w p given
  | nested {p : Option Path} {given : List (String × Value)} {es : Entries}
      (content : Says t w p (.ok (.dict es)))
      (within : es.find? (.text "build") = some (.dict (keywords given))) : Stored t w p given
  | missing (absent : t.exists? (w.settingsFile t) = false) : Stored t w none []

theorem sectionOf_of_plain (h : Plain given) : sectionOf (keywords given) = keywords given := by
  rw [sectionOf, find?_keywords]
  split
  next inner hinner => cases isDict_of_lookup h hinner
  next => rfl

theorem fromWorkspace_of_stored {t : FileTree} {w : Workspace} {p : Option Path}
    (h : Stored t w p given) (hplain : Plain given) :
    fromWorkspace t w p = .ok (keywords given) := by
  cases h with
  | flat content => rw [fromWorkspace_of_dict content, sectionOf_of_plain hplain]
  | nested content within => rw [fromWorkspace_of_dict content, sectionOf, within]
  | missing absent =>
    rw [fromWorkspace, absent]
    rfl

/-! Validation. -/

/-- A name that is no setting is among the faults that are found. -/
theorem validate_of_unknown {name : String} (h : name ∈ given.map (·.1)) (hunknown : name ∉ names) :
    ∃ details, validate given = .error details ∧ Detail.mk name .unknown ∈ details := by
  have hlisted : name ∈ (given.map (·.1)).filter fun n => !names.contains n :=
    List.mem_filter.2 ⟨h, by simpa using hunknown⟩
  rw [validate]
  generalize names.foldl (assignGiven given) ({}, []) = assigned
  have hdetail : Detail.mk name .unknown ∈ assigned.2 ++
      ((given.map (·.1)).filter fun n => !names.contains n).map (Detail.mk · .unknown) :=
    List.mem_append_right _ (List.mem_map_of_mem hlisted)
  refine ⟨_, if_neg fun hempty => ?_, hdetail⟩
  rw [List.isEmpty_iff] at hempty
  rw [hempty] at hdetail
  cases hdetail

/-! The layers. -/

section

variable {env : Environment} {workspace : List (String × Value)}

theorem plain_values (s : Settings) : Plain s.values := by
  intro e he
  simp only [values, names, List.zip_cons_cons, List.zip_nil_right, List.mem_cons,
    List.not_mem_nil, or_false] at he
  rcases he with rfl | rfl | rfl | rfl | rfl | rfl | rfl | rfl | rfl
  all_goals first | rfl | cases s.baseDir <;> rfl

theorem layers_keywords {environment : List (String × Value)} (hworkspace : Distinct workspace)
    (hplain : Plain workspace) (henvironment : Distinct environment) (henv : Plain environment)
    (hgiven : Distinct given) :
    ∃ handed, layers (keywords workspace) (keywords environment) (keywords given) = keywords handed ∧
      Distinct handed ∧
      ∀ name, handed.lookup name = (given.lookup name).or ((environment.lookup name).or
        ((workspace.lookup name).or (({} : Settings).values.lookup name))) := by
  have hdefaults : Distinct ({} : Settings).values := by decide
  obtain ⟨file, hfile, hoverfile⟩ := mergeEntries_keywords hdefaults hworkspace
    fun name v hv => isDict_of_lookup (plain_values {}) hv
  have hplainFile : ∀ name v, file.lookup name = some v → v.isDict = false := by
    intro name v hv
    rw [hoverfile.lookup, Option.or_eq_some_iff] at hv
    obtain hv | ⟨-, hv⟩ := hv
    · exact isDict_of_lookup hplain hv
    · exact isDict_of_lookup (plain_values {}) hv
  obtain ⟨host, hhost, hoverhost⟩ := mergeEntries_keywords hoverfile.distinct henvironment hplainFile
  have hplainHost : ∀ name v, host.lookup name = some v → v.isDict = false := by
    intro name v hv
    rw [hoverhost.lookup, Option.or_eq_some_iff] at hv
    obtain hv | ⟨-, hv⟩ := hv
    · exact isDict_of_lookup henv hv
    · exact hplainFile name v hv
  obtain ⟨handed, hhanded, hover⟩ := mergeEntries_keywords hoverhost.distinct hgiven hplainHost
  refine ⟨handed, ?_, hover.distinct, fun name => ?_⟩
  · have hentries : entries ({} : Settings) = keywords ({} : Settings).values := rfl
    rw [layers, hentries, hfile, hhost, hhanded]
  · rw [hover.lookup, hoverhost.lookup, hoverfile.lookup]

/-- Validation is given every name that some layer has, once, with the value of the last layer that has
it; so what a name that is no setting leads to is a refusal, and the form of the settings file does not
count. -/
theorem load_layered {t : FileTree} {w : Workspace} {p : Option Path}
    (hstored : Stored t w p workspace) (hworkspace : Distinct workspace) (hplain : Plain workspace)
    (henv : env.Readable) (hgiven : Distinct given) :
    (∃ handed, load t w p env (keywords given) = (validate handed).mapError .invalid ∧
      Distinct handed ∧
      (∀ name, handed.lookup name = (given.lookup name).or ((env.override? name).or
        ((workspace.lookup name).or (({} : Settings).values.lookup name)))) ∧
      ∀ name, name ∈ handed.map (·.1) ↔ name ∈ given.map (·.1) ∨ (env.override? name).isSome = true ∨
        name ∈ workspace.map (·.1) ∨ name ∈ names) ∧
    (∀ name, name ∈ given.map (·.1) ∨ name ∈ workspace.map (·.1) → name ∉ names →
      ∃ details, load t w p env (keywords given) = .error (.invalid details) ∧
        Detail.mk name .unknown ∈ details) ∧
    ∀ (t' : FileTree) (w' : Workspace) (p' : Option Path), Stored t' w' p' workspace →
      load t' w' p' env (keywords given) = load t w p env (keywords given) := by
  obtain ⟨environment, hsettings, hdistinct, hplainEnv, hoverride⟩ := settings_keywords henv
  obtain ⟨handed, hlayers, hhanded, hlookup⟩ :=
    layers_keywords hworkspace hplain hdistinct hplainEnv hgiven
  have hload : ∀ {t : FileTree} {w : Workspace} {p : Option Path}, Stored t w p workspace →
      load t w p env (keywords given) = (validate handed).mapError .invalid := by
    intro t w p h
    rw [load_of_ok (fromWorkspace_of_stored h hplain) hsettings, hlayers, ofEntries_keywords]
  have hnames : ∀ name, name ∈ handed.map (·.1) ↔ name ∈ given.map (·.1) ∨
      (env.override? name).isSome = true ∨ name ∈ workspace.map (·.1) ∨ name ∈ names := by
    intro name
    rw [← names_values {}]
    simp only [mem_names_iff, hlookup, hoverride, Option.isSome_or, Bool.or_eq_true]
  refine ⟨⟨handed, hload hstored, hhanded, fun name => ?_, hnames⟩, fun name hname hunknown => ?_,
    fun t' w' p' h => ?_⟩
  · rw [hlookup, hoverride]
  · have hmem : name ∈ handed.map (·.1) :=
      (hnames name).2 (hname.imp_right fun h => Or.inr (Or.inl h))
    obtain ⟨details, hdetails, hdetail⟩ := validate_of_unknown hmem hunknown
    refine ⟨details, ?_, hdetail⟩
    rw [hload hstored, hdetails]
    rfl
  · rw [hload hstored, hload h]

end

end Settings

namespace Overridden

open Settings

def path : Path := ⟨0, ["settings.yaml"]⟩

def holding (text : String) : FileTree :=
  { files := [(["settings.yaml"], Text.encodeUtf8 text)] }

def inSection : String := "build:\n  runtime_mode: false\n  base_dir: out\n  colour: red\nname: x\n"

def alone : String := "runtime_mode: false\nbase_dir: out\ncolour: red\n"

def workspace : List (String × Value) :=
  [("runtime_mode", .bool false), ("base_dir", .text "out"), ("colour", .text "red")]

def environment : Environment := [("MODELGEN_RUNTIME_MODE", " ON ")]

def given : List (String × Value) := [("base_dir", .none)]

def isWorkspace : Entries → Bool
  | [(.text a, .bool b), (.text c, .text d), (.text e, .text f)] =>
    (a, b, c, d, e, f) = ("runtime_mode", false, "base_dir", "out", "colour", "red")
  | _ => false

theorem eq_workspace {es : Entries} (h : isWorkspace es = true) : es = keywords workspace := by
  unfold isWorkspace at h
  split at h
  · simp only [decide_eq_true_eq, Prod.mk.injEq] at h
    obtain ⟨rfl, rfl, rfl, rfl, rfl, rfl⟩ := h
    rfl
  · cases h

def readsWorkspace : Except Document.Fault Value → Bool
  | .ok (.dict es) => isWorkspace es
  | _ => false

def readsSection : Except Document.Fault Value → Bool
  | .ok (.dict [(.text a, .dict es), _]) => a = "build" && isWorkspace es
  | _ => false

theorem alone_stored : Stored (holding alone) {} (some path) workspace := by
  have hread : readsWorkspace (Document.read alone) = true := by decide +kernel
  unfold readsWorkspace at hread
  split at hread
  next es hes =>
    rw [eq_workspace hread] at hes
    exact .flat ⟨Text.encodeUtf8 alone, alone, rfl, by decide +kernel, hes⟩
  next => cases hread

theorem inSection_stored : Stored (holding inSection) {} (some path) workspace := by
  have hread : readsSection (Document.read inSection) = true := by decide +kernel
  unfold readsSection at hread
  split at hread
  next a es e hes =>
    simp only [Bool.and_eq_true, decide_eq_true_eq] at hread
    refine .nested ⟨Text.encodeUtf8 inSection, inSection, rfl, by decide +kernel, hes⟩ ?_
    rw [Entries.find?, hread.1, Value.sameKey_text, eq_workspace hread.2]
    rfl
  next => cases hread

theorem environment_readable : environment.Readable := by
  decide +kernel

theorem plain_workspace : Plain workspace := by
  decide

/-- The environment turns the mode on again, the caller takes the folder back, and `colour` is refused
wherever it stands. -/
theorem colour_refused :
    Stored (holding inSection) {} (some path) workspace ∧ Distinct workspace ∧ Plain workspace ∧
      environment.Readable ∧ Distinct given ∧
      (∃ handed, load (holding inSection) {} (some path) environment (keywords given) =
          (validate handed).mapError .invalid ∧
        handed.lookup "runtime_mode" = some (.bool true) ∧ handed.lookup "base_dir" = some .none ∧
        handed.lookup "colour" = some (.text "red") ∧
        handed.lookup "name_prefix" = some (.text "IModel")) ∧
      (∃ details, load (holding inSection) {} (some path) environment (keywords given) =
          .error (.invalid details) ∧ Detail.mk "colour" .unknown ∈ details) ∧
      load (holding alone) {} (some path) environment (keywords given) =
        load (holding inSection) {} (some path) environment (keywords given) := by
  have hgiven : Distinct given := by decide
  have hlayered :=
    load_layered inSection_stored (by decide) plain_workspace environment_readable hgiven
  obtain ⟨⟨handed, hload, -, hlookup, -⟩, hunknown, hsame⟩ := hlayered
  refine ⟨inSection_stored, by decide, plain_workspace, environment_readable, hgiven,
    ⟨handed, hload, ?_, ?_, ?_, ?_⟩, hunknown "colour" (Or.inr (by decide)) (by decide),
    hsame _ _ _ alone_stored⟩
  · have hflag : Environment.flag? " ON " = some true := by decide +kernel
    rw [hlookup]
    simp [given, environment, Environment.override?, Environment.overrides, Environment.reading,
      hflag, lookup_cons_ite]
  all_goals
    rw [hlookup]
    rfl

end Overridden

end ModelContracts
