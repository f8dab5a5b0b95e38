import ModelContracts.Proofs.Build.Recompiling
import ModelContracts.Proofs.Source.Resolving
import ModelContracts.Proofs.Synthesis.Uniqueness
import ModelContracts.Proofs.Synthesis.Wording

/-!
What a build plans: the contracts that it derives from where the session stands, and the ledger of their
names. A module that a build compiled was made from the source of its plan, and the source is read as the
plan says.
-/

namespace ModelContracts

open Ledger Building Session

namespace Text

theorem oneLine_quote (s : String) : OneLine (quote s) := by
  unfold OneLine quote
  rw [String.toList_ofList]
  exact lineEnd_not_mem_quotedChars s.toList

end Text

/-- A text stands in one line when all its words and names do. -/
theorem Phrase.oneLine_text {name : Mention → String} {p : Phrase}
    (hwords : ∀ s, Piece.word s ∈ p → Text.OneLine s)
    (hnames : ∀ m ∈ p.mentions, Text.OneLine (name m)) : Text.OneLine (p.text name) := by
  induction p with
  | nil => exact ⟨List.not_mem_nil, List.not_mem_nil⟩
  | cons a p ih =>
    have hrest := ih fun s hs => hwords s (List.mem_cons_of_mem a hs)
    cases a with
    | word s => exact (hwords s List.mem_cons_self).append (hrest hnames)
    | mention m =>
      have hname := hnames m List.mem_cons_self
      exact hname.append (hrest fun n hn => hnames n (List.mem_cons_of_mem m hn))

namespace Ledger

variable {w : World} {into : String} {L : Ledger}

theorem grows_start (w : World) (host : ClassId) : Grows w {} (Ledger.start w host) := by
  have hrun : (Recording.className w host).run {} =
      (.ok ((Recording.className w host).run {}).1.toOption.get!, Ledger.start w host) := by
    unfold Ledger.start Recording.className
    split_ifs <;> rfl
  exact (Recording.className_tells host hrun).1

theorem founded_start (w : World) (host : ClassId) : (Ledger.start w host).Founded w :=
  (grows_start w host).founded ⟨List.nodup_nil, nofun, nofun⟩

end Ledger

def Blueprint.namings (p : Blueprint) : List Naming := p.contracts.map fun k => (k.backing, k.name)

/-- The names of contracts and of their members are not taken apart, and each type stands in one line. -/
structure Blueprint.Tidy (p : Blueprint) : Prop where
  names : ∀ k ∈ p.contracts, Text.Plain k.name
  members : ∀ k ∈ p.contracts, ∀ m ∈ k.members,
    Text.Plain m.name ∧ Text.OneLine (m.annotatedType p.annotatedText)

instance (p : Blueprint) : Decidable p.Tidy :=
  decidable_of_iff ((∀ k ∈ p.contracts, Text.Plain k.name) ∧ ∀ k ∈ p.contracts, ∀ m ∈ k.members,
    Text.Plain m.name ∧ Text.OneLine (m.annotatedType p.annotatedText))
    ⟨fun h => ⟨h.1, h.2⟩, fun h => ⟨h.names, h.members⟩⟩

namespace Blueprint

variable {p : Blueprint} {L : Ledger}

def numberedLines (p : Blueprint) : List Statement.Line :=
  Statement.numbered 1 (p.lines.map String.toList ++ [[]])

/-- The statements as which the lines of a source are read. -/
def statements (p : Blueprint) : List Statement := Statement.ofBlocks [] (Statement.blocks p.numberedLines)

theorem ofSource_lines (h : p.Legible L)
    (hfaultless : p.numberedLines.findSome? Statement.fault? = none) :
    Statement.ofSource p.source = .ok p.statements := by
  have hlines : Statement.numbered 1 (Text.pieces '\n' (Text.unixLines p.source.toList)) =
      p.numberedLines := by rw [pieces_source h, numberedLines]
  rw [Statement.ofSource, hlines, Statement.firstFault?_none hfaultless, statements]

/-- The lines of a source are statements, and these can be run to their end. -/
structure Runs (p : Blueprint) (w : World) (into : String) (serial : Nat) : Prop where
  faultless : p.numberedLines.findSome? Statement.fault? = none
  finishes : ∃ x, Execution.runAll { world := w.opened into serial, name := into, number := serial }
    p.statements = .ok x

instance (w : World) (into : String) (serial : Nat) : Decidable (p.Runs w into serial) :=
  decidable_of_iff (p.numberedLines.findSome? Statement.fault? = none ∧
    (Execution.runAll { world := w.opened into serial, name := into, number := serial }
      p.statements).isOk = true) <| by
    constructor
    · rintro ⟨hfaultless, hruns⟩
      refine ⟨hfaultless, ?_⟩
      generalize Execution.runAll _ p.statements = r at hruns
      cases r with
      | error e => cases hruns
      | ok x => exact ⟨x, rfl⟩
    · rintro ⟨hfaultless, x, hx⟩
      exact ⟨hfaultless, by rw [hx]; rfl⟩

end Blueprint

namespace Synthesizer

variable {s : Synthesizer} {L : Ledger}

theorem plain_base (hspells : s.world.Spells L) {c : ClassId} {text : String}
    (h : Written s.world L c.phrase text) : Text.Plain text := by
  obtain ⟨htext, hsettled⟩ := h
  unfold ClassId.phrase at htext hsettled
  split_ifs at htext hsettled with hnone
  · have hword : text = "None" := by simpa [Phrase.text] using htext
    rw [hword]
    decide
  · have hname : text = L.nameOf s.world (.cls c) := by simpa [Phrase.text] using htext
    rw [hname]
    exact plain_nameOf hspells (hsettled _ List.mem_cons_self)

theorem headerPhrases_words {c : ClassId} {isAbstract : Bool} {p : Phrase}
    (h : p ∈ headerPhrases c isAbstract) : ∃ q, p = .word "@" :: q ∧
      ∀ t, Piece.word t ∈ q → t ∈ ["(", Text.quote c.fullName, ")", "()"] := by
  have hidentity : identityPhrase c = .word "@" :: [.mention (.cls MarkerShape.className.kind),
      .word "(", .word (Text.quote c.fullName), .word ")"] := rfl
  have habstract : MarkerShape.modelAbstractClass.kind.ownCallPhrase =
      [.mention (.cls MarkerShape.modelAbstractClass.kind), .word "()"] := rfl
  have hline : p = identityPhrase c ∨
      p = .word "@" :: MarkerShape.modelAbstractClass.kind.ownCallPhrase := by
    unfold headerPhrases at h
    split_ifs at h
    · simpa using h
    · exact Or.inl (List.mem_singleton.1 h)
  rcases hline with rfl | rfl
  · exact ⟨_, hidentity, by simp⟩
  · exact ⟨_, by rw [habstract], by simp⟩

theorem identityPhrase_mem (c : ClassId) (isAbstract : Bool) :
    identityPhrase c ∈ headerPhrases c isAbstract := by
  cases isAbstract
  · exact List.mem_cons_self
  · exact List.mem_cons_self

theorem header_legible (hspells : s.world.Spells L) {c : ClassId} {isAbstract : Bool}
    {header : List String} (h : WrittenAll s.world L (headerPhrases c isAbstract) header) :
    ∀ l ∈ header, l.toList.head? = some '@' ∧ Text.OneLine l := by
  obtain ⟨rfl, hsettled⟩ := h
  intro l hl
  obtain ⟨p, hp, rfl⟩ := List.mem_map.1 hl
  obtain ⟨q, rfl, hwords⟩ := headerPhrases_words hp
  refine ⟨by simp [Phrase.text], Phrase.oneLine_text (fun t ht => ?_) fun m hm => ?_⟩
  · have hmarks : Text.OneLine "@" ∧ Text.OneLine "(" ∧ Text.OneLine ")" ∧ Text.OneLine "()" := by
      decide
    rcases List.mem_cons.1 ht with ht | ht
    · rw [Piece.word.inj ht]
      exact hmarks.1
    · have hmem := hwords t ht
      simp only [List.mem_cons, List.not_mem_nil, or_false] at hmem
      rcases hmem with h | h | h | h
      · rw [h]
        exact hmarks.2.1
      · rw [h]
        exact Text.oneLine_quote c.fullName
      · rw [h]
        exact hmarks.2.2.1
      · rw [h]
        exact hmarks.2.2.2
  · exact (plain_nameOf hspells (hsettled _ hp m hm)).oneLine

end Synthesizer

namespace Builder

variable (b : Builder)

def synthesizer (w : World) (path : Path) : Synthesizer where
  world := w
  stem := Artifact.stem path
  version := b.version
  namePrefix := b.settings.namePrefix
  book := b.book

/-- Deriving contracts from where a session stands. -/
def drafting (components : List Component) (path : Path) (s : Session) :
    Except EmissionError Blueprint × Draft :=
  ((b.synthesizer s.world path).synthesize components).run
    { emission := { Emission.start s.world ClassId.modelNode with
        memory := s.converters, formed := s.formed, log := s.log } }

/-- The contracts that are derived from where a session stands, and the ledger of their names. -/
def Plans (components : List Component) (path : Path) (s : Session) (plan : Blueprint) (L : Ledger) :
    Prop :=
  ∃ d, b.drafting components path s = (.ok plan, d) ∧ d.ledger = L

variable {b} {components : List Component} {path : Path} {s s' t : Session} {plan : Blueprint}
  {L : Ledger}

theorem Plans.derive (h : b.Plans components path s plan L) :
    ((b.derive components path).run s).1 = .ok plan := by
  obtain ⟨d, hdraft, -⟩ := h
  have hresult : ((b.derive components path).run s).1 =
      (b.drafting components path s).1.mapError BuildError.emission := rfl
  rw [hresult, hdraft]
  rfl

theorem plans_of_derive (h : ((b.derive components path).run s).1 = .ok plan) :
    ∃ L, b.Plans components path s plan L := by
  have hresult : (b.drafting components path s).1 = .ok plan := mapError_ok h
  exact ⟨_, _, Prod.ext hresult rfl, rfl⟩

theorem Plans.unique {plan' : Blueprint} {L' : Ledger} (h : b.Plans components path s plan L)
    (h' : b.Plans components path s plan' L') : plan' = plan ∧ L' = L := by
  obtain ⟨d, hdraft, rfl⟩ := h
  obtain ⟨d', hdraft', rfl⟩ := h'
  rw [hdraft] at hdraft'
  cases hdraft'
  exact ⟨rfl, rfl⟩

theorem Plans.founded (h : b.Plans components path s plan L) (hsure : L.Sure s.world) :
    L.Founded s.world := by
  obtain ⟨d, hdraft, rfl⟩ := h
  obtain ⟨hgrows, -⟩ := Synthesizer.synthesize_worded (s := b.synthesizer s.world path) (.start _) rfl
    hdraft hsure
  exact hgrows.founded (founded_start s.world ClassId.modelNode)

/-- The contracts of a plan are worded in the names of its ledger. -/
theorem Plans.worded (h : b.Plans components path s plan L) (hsure : L.Sure s.world) :
    plan.importLines = L.importLines ∧ ∀ k ∈ plan.contracts,
      (b.synthesizer s.world path).WordedFor L plan.namings components k := by
  obtain ⟨d, hdraft, rfl⟩ := h
  obtain ⟨-, hworded, -, hlines, hcontracts⟩ :=
    Synthesizer.synthesize_worded (s := b.synthesizer s.world path) (.start _) rfl hdraft hsure
  have hnamings : plan.namings = d.namings := by rw [Blueprint.namings, hcontracts, Draft.namings]
  rw [hnamings]
  exact ⟨hlines, hworded⟩

theorem Plans.names_nodup (h : b.Plans components path s plan L) :
    (plan.contracts.map (·.name)).Nodup := by
  obtain ⟨d, hdraft, -⟩ := h
  obtain ⟨hcontracts, hsound, -⟩ :=
    Synthesizer.synthesize_ok (b.synthesizer s.world path) (.start _) hdraft
  rw [hcontracts]
  exact hsound.names_nodup

theorem Plans.legible (h : b.Plans components path s plan L) (hspells : s.world.Spells L)
    (htidy : plan.Tidy) : plan.Legible L := by
  obtain ⟨hlines, hworded⟩ := h.worded hspells.sure
  refine ⟨hlines, legible_of_spells hspells (h.founded hspells.sure), fun k hk => ?_⟩
  obtain ⟨c, -, hk'⟩ := hworded k hk
  exact ⟨htidy.names k hk, Synthesizer.plain_base hspells hk'.base,
    Synthesizer.header_legible hspells hk'.header, htidy.members k hk⟩

theorem Plans.started {serial : Nat} (h : b.Plans components path s plan L)
    (himports : s.world.Imports (Artifact.moduleName path) L) (hnumbered : s.Numbered)
    (hserial : s.sources.length < serial) :
    Blueprint.Started L s.world (Artifact.moduleName path) serial where
  imports := himports
  founded := h.founded (sure_of_imports himports)
  within := ⟨_, hserial, hnumbered⟩

/-! What a build compiles. -/

theorem fromMemory_run (name : String) (s : Session) :
    ∃ o, (b.fromMemory name).run s = (.ok o, s) := by
  unfold fromMemory
  split_ifs
  · exact ⟨_, rfl⟩
  · exact ⟨_, rfl⟩

theorem fromDisk_none {wanted : Bool} (hwanted : wanted = true → Stamp.isMatch s.files path b.version = true)
    (h : (b.fromDisk path (Artifact.moduleName path) wanted).run s = (.ok none, s')) : Steady s s' := by
  unfold fromDisk at h
  split_ifs at h with hdisk
  · obtain ⟨data, hread, -⟩ := read_of_isMatch (of_decide_eq_true (hwanted (Bool.and_eq_true_iff.1 hdisk).2))
    rcases b.loadArtifact_ends hread h with ⟨m, hm, -⟩ | ⟨-, hsteady⟩ | ⟨e, he, -⟩
    · cases hm
    · exact hsteady
    · cases he
  · cases h
    exact refl_of Steady s

/-- A build that finds nothing to reuse goes by the same world as before. -/
theorem reuse_none (h : (b.reuse path (Artifact.moduleName path)).run s = (.ok none, s')) :
    Steady s s' := by
  obtain ⟨wanted, t, hsurvey, hwanted⟩ := b.survey_succeeds path s
  have hsteady := b.survey_steady.of_run hsurvey
  unfold reuse at h
  rw [run_bind_of_ok hsurvey] at h
  obtain ⟨o, u, hdisk, hrest⟩ := run_bind_ok h
  cases o with
  | some m => cases hrest
  | none =>
    have hsame : Steady t u := fromDisk_none hwanted hdisk
    obtain ⟨o, hmemory⟩ := fromMemory_run (b := b) (Artifact.moduleName path) u
    dsimp only at hrest
    rw [run_bind_of_ok hmemory] at hrest
    cases o <;> cases hrest
    exact trans_of Steady hsteady hsame

/-- A module that a build compiled was made from the source of the plan. -/
theorem build_plans {result : BuildResult Module}
    (h : (b.build components path).run s = (.ok result, s')) (hstate : result.state = .compiled) :
    ∃ plan L, b.Plans components path s plan L ∧
      (∃ info, result.artifact = some info ∧ info.source = plan.source) ∧
        Born plan.source (Artifact.moduleName path) result.module s s' := by
  obtain ⟨t, rfl, ⟨m, -, rfl⟩ | ⟨s₁, hreuse, hcompile⟩⟩ := b.build_ok path h
  · cases hstate
  · have hsteady := reuse_none hreuse
    have halike : Alike s s₁ := { hsteady with }
    obtain ⟨-, plan, s₂, s₃, s₄, hartifact, hderive, -, -, -⟩ := b.compile_ok hcompile
    obtain ⟨-, plan', hderive', hborn⟩ := compile_born hcompile
    obtain rfl : plan' = plan := by
      rw [hderive] at hderive'
      exact (Except.ok.inj hderive').symm
    rw [derive_alike b halike] at hderive'
    obtain ⟨L, hplans⟩ := plans_of_derive hderive'
    refine ⟨plan', L, hplans, ⟨_, hartifact, rfl⟩, ?_⟩
    have hborn' := hborn.after hsteady.world hsteady.sources
    exact { hborn' with }

/-! When a plan compiles. -/

/-- A plan whose source runs in a world is compiled by a build that finds no file at its path. -/
theorem Plans.compiles {into : String} (h : b.Plans components path s plan L)
    (hinto : Artifact.moduleName path = into) (hspells : s.world.Spells L) (htidy : plan.Tidy)
    (hruntime : b.settings.runtimeMode = true) (hnumbered : s.Numbered) (hnested : s.files.Nested)
    (hmissing : s.files.file? (s.files.resolve path) = none) {l : Location}
    (hlocate : s.files.locate path = .ok l) (hfolder : s.files.isFolderAt l = false)
    (hreferences : Compilation.unresolvedReferences s.world plan.references path = [])
    (hloader : Compilation.loader path = .source)
    (hruns : plan.Runs s.world into (s.sources.length + 1)) :
    ∃ result s', (b.build components path).run s = (.ok result, s') ∧ result.state = .compiled := by
  subst hinto
  obtain ⟨hfaultless, x, hx⟩ := hruns
  have hsource := Blueprint.ofSource_lines (h.legible hspells htidy) hfaultless
  have hsyntax : Compilation.syntaxDiagnostics plan.source path = [] := by
    rw [Compilation.syntaxDiagnostics, hsource]
  have hending : Compilation.ending s.world (path ∈ s.files.locked) (s.sources.length + 1)
      plan.source plan.references path (Artifact.moduleName path) = .ok x.module := by
    rw [World.opened] at hx
    unfold Compilation.ending Compilation.outcome
    rw [hreferences, hsyntax, hloader, hsource]
    dsimp only [List.nil_append, List.isEmpty_nil, if_true]
    rw [hx]
    rfl
  obtain ⟨t, hreuse, hsteady⟩ := b.reuse_missing (s := takeOff path s) hruntime hmissing
  have halike : Alike s t := { hsteady with }
  have hgrown : s.sources.length ≤ t.sources.length := hsteady.sources.length_le
  have hderive : ((b.derive components path).run t).1 = .ok plan := by
    rw [derive_alike b halike]
    exact h.derive
  have hcompile := b.compile_result components (Artifact.moduleName path) hruntime
    (halike.locate hlocate) ((halike.isFolderAt l).trans hfolder) (halike.nested hnested)
  rw [hderive, halike.world, halike.locked] at hcompile
  rcases Compilation.ending_again plan.source plan.references path (Artifact.moduleName path)
    (path ∈ s.files.locked) hnumbered (Nat.lt_succ_self _) (Nat.lt_succ_of_le hgrown) with
    ⟨e, herror, -⟩ | ⟨m, m', -, hagain⟩
  · rw [hending] at herror
    cases herror
  · rw [Except.bind, hagain] at hcompile
    rcases hrun : (b.compile components path (Artifact.moduleName path)).run t with ⟨r, t'⟩
    rw [hrun] at hcompile
    dsimp only at hcompile
    have hwhole : (b.run components path).run (takeOff path s) = (r, t') := by
      unfold run
      rw [run_bind_of_ok hreuse]
      exact hrun
    rw [build_eq, hwhole, hcompile]
    exact ⟨_, _, rfl, rfl⟩

end Builder

end ModelContracts
