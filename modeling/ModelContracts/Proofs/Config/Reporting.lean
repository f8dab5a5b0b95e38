import ModelContracts.Config.Layers
import ModelContracts.Proofs.Config.Merging
import ModelContracts.Proofs.Document.Keys
import ModelContracts.Proofs.Files

/-!
What loading the settings can end with. The settings or an error that tells of the configuration come
out of it, except where the settings file is no text, where one of its values stands for nothing, and
where it names a setting by something else than a text. The last is noticed only once the environment
has been read.
-/

namespace ModelContracts

/-- Every key is a text. -/
def Entries.Named (es : Entries) : Prop := ∀ k ∈ es.keys, ∃ s, k = .text s

theorem Entries.named_nil : Entries.Named [] := by simp [Named, keys]

namespace Settings

/-- The settings, or an error that tells of the configuration. -/
def Reported (r : Except ConfigError Settings) : Prop :=
  (∃ s, r = .ok s) ∨ ∃ e, r = .error e ∧ e.isReported = true

theorem reported_error {e : ConfigError} : Reported (.error e) ↔ e.isReported = true := by
  simp [Reported]

instance (r : Except ConfigError Settings) : Decidable (Reported r) :=
  match r with
  | .ok s => .isTrue (Or.inl ⟨s, rfl⟩)
  | .error _ => decidable_of_iff _ reported_error.symm

/-- Settings that are given by name. -/
def keywords (given : List (String × Value)) : Entries := given.map fun e => (.text e.1, e.2)

/-! The settings file. -/

section

variable (t : FileTree) (w : Workspace) (p : Option Path)

/-- The octets of the settings file, the one that is named or the standard one. -/
def Holds (data : List UInt8) : Prop := t.read? (p.getD (w.settingsFile t)) = .ok data

/-- The settings file is there and is no text. -/
def Undecodable : Prop := ∃ data, Holds t w p data ∧ fileText data = none

/-- What the settings file says when it is read as a document. -/
def Says (r : Except Document.Fault Value) : Prop :=
  ∃ data text, Holds t w p data ∧ fileText data = some text ∧ Document.read text = r

/-- The settings file is well written, and a value in it stands for nothing. -/
def Meaningless (f : Document.Fault) : Prop := f ≠ .malformed ∧ Says t w p (.error f)

/-- The settings file names a setting by something else than a text. -/
def Misnamed : Prop := ∃ es : Entries, Says t w p (.ok (.dict es)) ∧ ¬ (sectionOf es).Named

end

/-! Names. -/

section

variable {es base upper : Entries} {k v : Value}

theorem named_of (h : es.Named) : ∃ given, named es = .ok given := by
  induction es with
  | nil => exact ⟨[], rfl⟩
  | cons e es ih =>
    obtain ⟨k, v⟩ := e
    obtain ⟨⟨s, hs⟩, hrest⟩ := List.forall_mem_cons.1 h
    obtain ⟨given, hgiven⟩ := ih hrest
    cases hs
    exact ⟨(s, v) :: given, by rw [named, hgiven]; rfl⟩

theorem named_of_not (h : ¬ es.Named) : named es = .error .notNamed := by
  induction es with
  | nil => exact absurd Entries.named_nil h
  | cons e es ih =>
    obtain ⟨k, v⟩ := e
    cases k with
    | text s =>
      have hrest : ¬ Entries.Named es := fun hes => h (List.forall_mem_cons.2 ⟨⟨s, rfl⟩, hes⟩)
      rw [named, ih hrest]
      rfl
    | _ => rfl

theorem key_kept (h : k ∈ es.keys) (key v : Value) : k ∈ (es.set key v).keys := by
  rw [Entries.keys_set]
  split
  · exact h
  · exact List.mem_append_left _ h

theorem key_kept_merged (h : k ∈ base.keys) : k ∈ (mergeEntries base upper).keys := by
  induction upper generalizing base with
  | nil => rwa [mergeEntries_nil]
  | cons e upper ih =>
    rw [mergeEntries_cons]
    exact ih (key_kept h _ _)

theorem key_merged (h : k ∈ upper.keys) :
    ∃ a ∈ (mergeEntries base upper).keys, a = k ∨ a.sameKey k = true := by
  induction upper generalizing base with
  | nil => cases h
  | cons e upper ih =>
    obtain ⟨key, v⟩ := e
    rw [mergeEntries_cons]
    cases h with
    | head =>
      cases hfound : base.find? key with
      | none =>
        refine ⟨key, key_kept_merged ?_, Or.inl rfl⟩
        rw [Entries.keys_set, hfound]
        exact List.mem_append_right _ (List.mem_singleton_self key)
      | some u =>
        obtain ⟨d, hd, hsame, -⟩ := Entries.mem_of_find? hfound
        exact ⟨d.1, key_kept_merged (key_kept (List.mem_map_of_mem hd) _ _), Or.inr hsame⟩
    | tail _ h => exact ih h

theorem text?_of_sameKey {s : String} (h : (Value.text s).sameKey k = true) : k.text? = some s := by
  rw [Value.sameKey, Bool.or_eq_true] at h
  cases h with
  | inl h => exact (Value.equal_text rfl).1 h
  | inr h => cases k <;> cases h

theorem named_set (hes : es.Named) {key : Value} (hkey : ∃ s, key = .text s) (v : Value) :
    (es.set key v).Named := by
  intro k hk
  rw [Entries.keys_set] at hk
  split at hk
  · exact hes k hk
  · cases List.mem_append.1 hk with
    | inl hk => exact hes k hk
    | inr hk => exact List.mem_singleton.1 hk ▸ hkey

theorem named_merged (hbase : base.Named) (hupper : upper.Named) : (mergeEntries base upper).Named := by
  induction upper generalizing base with
  | nil => rwa [mergeEntries_nil]
  | cons e upper ih =>
    obtain ⟨hfirst, hrest⟩ := List.forall_mem_cons.1 hupper
    rw [mergeEntries_cons]
    exact ih (named_set hbase hfirst _) hrest

/-- A key that is no text stays one in every merged mapping, for it is the same key as no text. -/
theorem named_of_merged (hupper : ∀ k ∈ upper.keys, k.Unmixed) (h : (mergeEntries base upper).Named) :
    base.Named ∧ upper.Named := by
  refine ⟨fun k hk => h k (key_kept_merged hk), fun k hk => ?_⟩
  obtain ⟨a, ha, hsame⟩ : ∃ a ∈ (mergeEntries base upper).keys, a = k ∨ a.sameKey k = true :=
    key_merged hk
  obtain ⟨s, rfl⟩ := h a ha
  cases hsame with
  | inl heq => exact ⟨s, heq.symm⟩
  | inr hsame => exact ⟨s, hupper k hk s (text?_of_sameKey hsame)⟩

theorem unmixed_of_named (h : es.Named) : ∀ k ∈ es.keys, k.Unmixed := by
  intro k hk
  obtain ⟨s, rfl⟩ := h k hk
  exact Value.unmixed_text s

theorem named_keywords (given : List (String × Value)) : (keywords given).Named := by
  intro k hk
  obtain ⟨e, he, rfl⟩ := List.mem_map.1 hk
  obtain ⟨d, -, rfl⟩ := List.mem_map.1 he
  exact ⟨d.1, rfl⟩

theorem named_entries (s : Settings) : s.entries.Named := named_keywords s.values

theorem named_settingsOf {env : Environment} {l : List (String × String)}
    (h : env.settingsOf l = .ok es) : es.Named := by
  induction l generalizing es with
  | nil =>
    cases h
    exact Entries.named_nil
  | cons e l ih =>
    obtain ⟨name, setting⟩ := e
    rw [Environment.settingsOf] at h
    split at h
    · exact ih h
    next raw _ =>
      cases hv : Environment.settingOf name setting raw with
      | error f =>
        rw [hv] at h
        cases h
      | ok v =>
        cases hes : env.settingsOf l with
        | error f =>
          rw [hv, hes] at h
          cases h
        | ok fs =>
          rw [hv, hes] at h
          cases h
          exact List.forall_mem_cons.2 ⟨⟨setting, rfl⟩, ih hes⟩

theorem layers_named {workspace environment given : Entries}
    (hworkspace : ∀ k ∈ workspace.keys, k.Unmixed) (henvironment : environment.Named)
    (hgiven : given.Named) : (layers workspace environment given).Named ↔ workspace.Named := by
  constructor
  · intro h
    have henv := (named_of_merged (unmixed_of_named hgiven) h).1
    have hws := (named_of_merged (unmixed_of_named henvironment) henv).1
    exact (named_of_merged hworkspace hws).2
  · intro h
    exact named_merged (named_merged (named_merged (named_entries {}) h) henvironment) hgiven

end

/-! Loading. -/

section

variable {t : FileTree} {w : Workspace} {p : Option Path} {env : Environment} {given : Entries}
  {workspace : Entries}

theorem load_of_error {e : ConfigError} (h : fromWorkspace t w p = .error e) :
    load t w p env given = .error e := by
  rw [load, h]
  rfl

theorem load_of_fault {f : FlagFault} (h : fromWorkspace t w p = .ok workspace)
    (henv : env.settings = .error f) : load t w p env given = .error (.notFlag f) := by
  rw [load, h, henv]
  rfl

theorem load_of_ok {environment : Entries} (h : fromWorkspace t w p = .ok workspace)
    (henv : env.settings = .ok environment) :
    load t w p env given = ofEntries (layers workspace environment given) := by
  rw [load, h, henv]
  rfl

theorem ofEntries_of_named {es : Entries} (h : es.Named) : Reported (ofEntries es) := by
  obtain ⟨names, hnames⟩ := named_of h
  rw [ofEntries, hnames]
  cases hvalid : validate names with
  | ok s => exact Or.inl ⟨s, by simp [hvalid, bind, Except.bind, Except.mapError]⟩
  | error details =>
    exact Or.inr ⟨.invalid details, by simp [hvalid, bind, Except.bind, Except.mapError], rfl⟩

theorem ofEntries_of_not_named {es : Entries} (h : ¬ es.Named) :
    ofEntries es = .error .notNamed := by
  rw [ofEntries, named_of_not h]
  rfl

/-! The settings of the workspace. -/

theorem exists_of_holds {data : List UInt8} (h : Holds t w p data) :
    t.exists? (p.getD (w.settingsFile t)) = true := by
  rw [FileTree.exists?, FileTree.isFile_of_read? h, Bool.true_or]

theorem fromWorkspace_of_holds {data : List UInt8} (h : Holds t w p data) :
    fromWorkspace t w p = sectionOf <$> readConfig t (p.getD (w.settingsFile t)) := by
  have hexists := exists_of_holds h
  cases p with
  | none =>
    rw [Option.getD_none] at hexists
    rw [fromWorkspace, if_pos hexists, Option.getD_none]
  | some p => rfl

theorem fromWorkspace_of_undecodable (h : Undecodable t w p) :
    fromWorkspace t w p = .error .undecodable := by
  obtain ⟨data, hdata, htext⟩ := h
  have hread : t.read? (p.getD (w.settingsFile t)) = .ok data := hdata
  rw [fromWorkspace_of_holds hdata, readConfig, exists_of_holds hdata]
  simp [hread, htext, Functor.map, Except.map]

theorem fromWorkspace_of_meaningless {f : Document.Fault} (h : Meaningless t w p f) :
    fromWorkspace t w p = .error (.noValue f) := by
  obtain ⟨hf, data, text, hdata, htext, hsays⟩ := h
  have hread : t.read? (p.getD (w.settingsFile t)) = .ok data := hdata
  rw [fromWorkspace_of_holds hdata, readConfig, exists_of_holds hdata]
  cases f <;> simp_all [Functor.map, Except.map]

theorem fromWorkspace_of_dict {es : Entries} (h : Says t w p (.ok (.dict es))) :
    fromWorkspace t w p = .ok (sectionOf es) := by
  obtain ⟨data, text, hdata, htext, hsays⟩ := h
  have hread : t.read? (p.getD (w.settingsFile t)) = .ok data := hdata
  rw [fromWorkspace_of_holds hdata, readConfig, exists_of_holds hdata]
  simp [hread, htext, hsays, Functor.map, Except.map]

theorem readConfig_of_unread {q : Path} (h : ∀ data, t.read? q ≠ .ok data) :
    ∃ e, readConfig t q = .error e ∧ e.isReported = true := by
  rw [readConfig]
  split
  · exact ⟨_, rfl, rfl⟩
  · split
    · exact ⟨_, rfl, rfl⟩
    next data hdata => exact absurd hdata (h data)

theorem fromWorkspace_of_unread (h : ∀ data, ¬ Holds t w p data) :
    (∃ e, fromWorkspace t w p = .error e ∧ e.isReported = true) ∨ fromWorkspace t w p = .ok [] := by
  obtain ⟨e, he, hreported⟩ := readConfig_of_unread h
  cases p with
  | none =>
    rw [Option.getD_none] at he
    rw [fromWorkspace, he]
    split
    · exact Or.inl ⟨e, rfl, hreported⟩
    · exact Or.inr rfl
  | some p =>
    rw [Option.getD_some] at he
    rw [fromWorkspace, he]
    exact Or.inl ⟨e, rfl, hreported⟩

theorem readConfig_of_value {q : Path} {data : List UInt8} {text : String} {v : Value}
    (hexists : t.exists? q = true) (hdata : t.read? q = .ok data) (htext : fileText data = some text)
    (hv : Document.read text = .ok v) (hplain : v.isDict = false) :
    (∃ e, readConfig t q = .error e ∧ e.isReported = true) ∨ readConfig t q = .ok [] := by
  simp only [readConfig, hexists, hdata, htext, hv, Bool.not_true, Bool.false_eq_true, if_false]
  cases v with
  | dict es => cases hplain
  | _ =>
    dsimp only
    split
    · exact Or.inl ⟨_, rfl, rfl⟩
    · exact Or.inr rfl

/-- The rest of what the settings of the workspace can be. -/
theorem fromWorkspace_cases (hundecodable : ¬ Undecodable t w p)
    (hmeaningless : ∀ f, ¬ Meaningless t w p f) :
    (∃ e, fromWorkspace t w p = .error e ∧ e.isReported = true) ∨ fromWorkspace t w p = .ok [] ∨
      ∃ es, Says t w p (.ok (.dict es)) ∧ fromWorkspace t w p = .ok (sectionOf es) := by
  by_cases hheld : ∃ data, Holds t w p data
  · obtain ⟨data, hdata⟩ := hheld
    have hread : t.read? (p.getD (w.settingsFile t)) = .ok data := hdata
    have hexists := exists_of_holds hdata
    cases htext : fileText data with
    | none => exact absurd ⟨data, hdata, htext⟩ hundecodable
    | some text =>
      cases hsaid : Document.read text with
      | error f =>
        by_cases hf : f = .malformed
        · left
          refine ⟨.malformed (p.getD (w.settingsFile t)), ?_, rfl⟩
          rw [fromWorkspace_of_holds hdata, readConfig, hexists]
          simp [hread, htext, hsaid, hf, Functor.map, Except.map]
        · exact absurd ⟨hf, data, text, hdata, htext, hsaid⟩ (hmeaningless f)
      | ok v =>
        by_cases hdict : v.isDict = true
        · obtain ⟨es, rfl⟩ := Value.dict_of_isDict hdict
          have hsays : Says t w p (.ok (.dict es)) := ⟨data, text, hdata, htext, hsaid⟩
          exact Or.inr (Or.inr ⟨es, hsays, fromWorkspace_of_dict hsays⟩)
        · rw [fromWorkspace_of_holds hdata]
          rw [Bool.not_eq_true] at hdict
          cases readConfig_of_value hexists hread htext hsaid hdict with
          | inl h =>
            obtain ⟨e, he, hreported⟩ := h
            exact Or.inl ⟨e, by rw [he]; rfl, hreported⟩
          | inr h => exact Or.inr (Or.inl (by rw [h]; rfl))
  · have hunread : ∀ data, ¬ Holds t w p data := fun data hdata => hheld ⟨data, hdata⟩
    exact (fromWorkspace_of_unread hunread).imp_right Or.inl

theorem sectionOf_unmixed {es : Entries} (h : Says t w p (.ok (.dict es))) :
    ∀ k ∈ (sectionOf es).keys, k.Unmixed := by
  obtain ⟨-, text, -, -, hread⟩ := h
  have hnested := Document.read_nested hread
  have hsection : (Value.dict (sectionOf es)).Nested Value.Simple := by
    rw [sectionOf]
    split
    next inner hinner => exact hnested.of_find? hinner
    next => exact hnested
  intro k hk
  obtain ⟨e, he, rfl⟩ := List.mem_map.1 hk
  exact (hsection.keyed.keys e he).2

end

/-! What loading ends with. -/

section

variable {t : FileTree} {w : Workspace} {p : Option Path} {env : Environment}
  {given : List (String × Value)}

theorem Reported.ne {r : Except ConfigError Settings} (h : Reported r) {e : ConfigError}
    (he : e.isReported = false) : r ≠ .error e := by
  intro hr
  rw [hr, reported_error, he] at h
  cases h

theorem load_of_workspace {workspace environment : Entries}
    (hworkspace : fromWorkspace t w p = .ok workspace) (hunmixed : ∀ k ∈ workspace.keys, k.Unmixed)
    (henv : env.settings = .ok environment) :
    (workspace.Named → Reported (load t w p env (keywords given))) ∧
      (¬ workspace.Named →
        load t w p env (keywords given) = .error .notNamed) := by
  have hnamed := layers_named hunmixed (named_settingsOf henv) (named_keywords given)
  rw [load_of_ok hworkspace henv]
  constructor
  · intro h
    exact ofEntries_of_named (hnamed.2 h)
  · intro h
    exact ofEntries_of_not_named fun hall => h (hnamed.1 hall)

theorem load_of_misnamed (h : Misnamed t w p) {environment : Entries}
    (henv : env.settings = .ok environment) :
    load t w p env (keywords given) = .error .notNamed := by
  obtain ⟨es, hsays, hes⟩ := h
  exact (load_of_workspace (fromWorkspace_of_dict hsays) (sectionOf_unmixed hsays) henv).2 hes

theorem load_of_tidy {workspace : Entries} (hworkspace : fromWorkspace t w p = .ok workspace)
    (hunmixed : ∀ k ∈ workspace.keys, k.Unmixed)
    (hnamed : ¬ workspace.Named → ∃ f, env.settings = .error f) :
    Reported (load t w p env (keywords given)) := by
  cases henv : env.settings with
  | error f =>
    rw [load_of_fault hworkspace henv]
    exact Or.inr ⟨.notFlag f, rfl, rfl⟩
  | ok environment =>
    refine (load_of_workspace hworkspace hunmixed henv).1 ?_
    by_cases hws : workspace.Named
    · exact hws
    · obtain ⟨f, hf⟩ := hnamed hws
      rw [hf] at henv
      cases henv

theorem load_reported (hundecodable : ¬ Undecodable t w p) (hmeaningless : ∀ f, ¬ Meaningless t w p f)
    (hmisnamed : Misnamed t w p → ∃ f, env.settings = .error f) :
    Reported (load t w p env (keywords given)) := by
  obtain ⟨e, he, hreported⟩ | hnothing | ⟨es, hsays, hes⟩ :=
    fromWorkspace_cases hundecodable hmeaningless
  · rw [load_of_error he]
    exact Or.inr ⟨e, rfl, hreported⟩
  · exact load_of_tidy hnothing (by simp [Entries.keys]) fun h => absurd Entries.named_nil h
  · exact load_of_tidy hes (sectionOf_unmixed hsays) fun h => hmisnamed ⟨es, hsays, h⟩

/-- The three ways in which an error comes out that does not tell of the configuration. -/
theorem escape_cases (h : ¬ Reported (load t w p env (keywords given))) :
    Undecodable t w p ∨ (∃ f, Meaningless t w p f) ∨
      Misnamed t w p ∧ ∃ environment, env.settings = .ok environment := by
  by_cases hundecodable : Undecodable t w p
  · exact Or.inl hundecodable
  · by_cases hmeaningless : ∃ f, Meaningless t w p f
    · exact Or.inr (Or.inl hmeaningless)
    · have hno : ∀ f, ¬ Meaningless t w p f := fun f hf => hmeaningless ⟨f, hf⟩
      right
      right
      by_cases hmisnamed : Misnamed t w p
      · cases henv : env.settings with
        | error f => exact absurd (load_reported hundecodable hno fun _ => ⟨f, henv⟩) h
        | ok environment => exact ⟨hmisnamed, environment, rfl⟩
      · exact absurd (load_reported hundecodable hno fun hmis => absurd hmis hmisnamed) h

/-- Loading ends with the settings or an error that tells of the configuration, unless the settings
file is no text, has a value that stands for nothing, or names a setting by something else than a text
while the environment is in order. -/
theorem load_reports (t : FileTree) (w : Workspace) (p : Option Path) (env : Environment)
    (given : List (String × Value)) :
    (Reported (load t w p env (keywords given)) ↔
      ¬ Undecodable t w p ∧ (∀ f, ¬ Meaningless t w p f) ∧
        (Misnamed t w p → ∃ f, env.settings = .error f)) ∧
    (load t w p env (keywords given) = .error .undecodable ↔
      Undecodable t w p) ∧
    (load t w p env (keywords given) = .error .notNamed ↔
      Misnamed t w p ∧ ∃ environment, env.settings = .ok environment) := by
  have hundecodable : Undecodable t w p →
      load t w p env (keywords given) = .error .undecodable :=
    fun h => load_of_error (fromWorkspace_of_undecodable h)
  have hmeaningless : ∀ f, Meaningless t w p f →
      load t w p env (keywords given) = .error (.noValue f) :=
    fun f h => load_of_error (fromWorkspace_of_meaningless h)
  have hmisnamed : (Misnamed t w p ∧ ∃ environment, env.settings = .ok environment) →
      load t w p env (keywords given) = .error .notNamed :=
    fun ⟨h, _, henv⟩ => load_of_misnamed h henv
  refine ⟨⟨fun h => ⟨?_, ?_, ?_⟩, fun ⟨hu, hm, hn⟩ => load_reported hu hm hn⟩,
    ⟨fun h => ?_, hundecodable⟩, ⟨fun h => ?_, hmisnamed⟩⟩
  · intro hu
    exact h.ne rfl (hundecodable hu)
  · intro f hf
    exact h.ne rfl (hmeaningless f hf)
  · intro hn
    cases henv : env.settings with
    | error f => exact ⟨f, rfl⟩
    | ok environment => exact absurd (hmisnamed ⟨hn, environment, henv⟩) (h.ne rfl)
  · obtain hu | ⟨f, hf⟩ | hn := escape_cases fun hreported => hreported.ne rfl h
    · exact hu
    · rw [hmeaningless f hf] at h
      cases h
    · rw [hmisnamed hn] at h
      cases h
  · obtain hu | ⟨f, hf⟩ | hn := escape_cases fun hreported => hreported.ne rfl h
    · rw [hundecodable hu] at h
      cases h
    · rw [hmeaningless f hf] at h
      cases h
    · exact hn

end

end Settings

namespace Garbled

def path : Path := ⟨0, ["settings.yaml"]⟩

def holding (data : List UInt8) : FileTree := { files := [(["settings.yaml"], data)] }

/-- An octet that begins no character, and the line `1: x`. -/
theorem file_escapes :
    ¬ Settings.Reported (Settings.load (holding [0xff]) {} (some path) [] []) ∧
      ¬ Settings.Reported (Settings.load (holding [49, 58, 32, 120, 10]) {} (some path) [] []) := by
  decide +kernel

end Garbled

end ModelContracts
