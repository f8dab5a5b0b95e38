import ModelContracts.Proofs.Build.Rebuilding
import ModelContracts.Proofs.Command.Relisting

/-!
A build on the command line and the inspection of its artifact. A build that keeps files leaves an artifact
with the stamp, from whose source its module was made, whether it was compiled or loaded. So an inspection
that finds the artifact as it was left makes the module again, and lists the same contracts; and of a build
that compiled these are the contracts of its plan.
-/

namespace ModelContracts

open Building FileTree Session Ledger

namespace Session

/-- What a build leaves that made a module and keeps files: the artifact has the stamp, and is read as the
source from which the module was made. -/
structure Leaves (path : Path) (version : String) (m : Module) (s s' : Session) : Prop where
  loader : Compilation.loader path = .source
  source : ∃ source, Born source (Artifact.moduleName path) m s s' ∧ ∃ data text,
    s'.files.read? path = .ok data ∧ Stamp.ofData? data = some version ∧ fileText data = some text ∧
      Statement.ofSource text = Statement.ofSource source

/-- Since a build the artifact at a path was not touched, and the world is the one before the build, as far
as other modules and older classes go. -/
structure Untouched (path : Path) (s s' t : Session) : Prop where
  file : t.files.read? path = s'.files.read? path
  numbered : t.Numbered
  grown : s.sources.length ≤ t.sources.length
  world : World.Same [] (Artifact.moduleName path) s.sources.length s.world t.world

variable {path : Path} {version : String} {m : Module} {s s' t : Session}

/-- So it is right after the build. -/
theorem Leaves.untouched (h : Leaves path version m s s') (hs : s.Numbered) :
    Untouched path s s' s' := by
  obtain ⟨source, hborn, -⟩ := h.source
  have hfresh := hborn.fresh
  have hnumber := hborn.number
  constructor
  case file => rfl
  case numbered =>
    unfold Numbered
    rw [← hnumber]
    exact World.within_outcome hs hfresh hborn.outcome
  case grown => omega
  case world => exact (World.Same.refl ..).outcome (Or.inl rfl) hfresh hborn.outcome

/-- So it is, too, where the build did not run, with the files that it left. -/
theorem untouched_elsewhere (hs : s.Numbered) (s' : Session) :
    Untouched path s s' { s with files := s'.files } where
  file := rfl
  numbered := hs
  grown := Nat.le_refl _
  world := .refl ..

end Session

namespace Builder

variable {b : Builder} {components : List Component} {path : Path} {s s' : Session}
  {result : BuildResult Module}

/-- A module that is reused without a table was loaded from the artifact now. -/
theorem reuse_leaves {m : Module} (hruntime : b.settings.runtimeMode = true)
    (hempty : s.cache.loaded? path = none)
    (h : (b.reuse path (Artifact.moduleName path)).run s = (.ok (some m), s')) :
    Leaves path b.version m s s' := by
  obtain ⟨wanted, t, hsurvey, hwanted⟩ := b.survey_succeeds path s
  have hsteady := b.survey_steady.of_run hsurvey
  have hundone := (b.survey_undone path).of_run hsurvey
  unfold reuse at h
  rw [run_bind_of_ok hsurvey] at h
  obtain ⟨o, u, hdisk, hrest⟩ := run_bind_ok h
  cases o with
  | none =>
    dsimp only at hrest
    rw [run_bind_of_ok (b.fromMemory_runtime hruntime _ u)] at hrest
    cases hrest
  | some m' =>
    cases hrest
    by_cases hwants : (!b.settings.forceRebuild && wanted) = true
    · obtain ⟨data, hread, hstamp⟩ :=
        read_of_isMatch (of_decide_eq_true (hwanted (Bool.and_eq_true_iff.1 hwants).2))
      rcases b.fromDisk_cases path hdisk with ⟨-, m₁, hentry, -⟩ | ⟨m₁, u₁, hload, hm, rfl⟩ |
        ⟨-, hnone⟩
      · rw [some_of_same_or_gone hundone.entry hentry] at hempty
        cases hempty
      · cases hm
        obtain ⟨hloader, data', text, hdata', htext, hmade⟩ := Compilation.load_made hload
        obtain rfl : data' = data := Option.some.inj (hdata'.symm.trans (file?_of_read? hread))
        have hborn := hmade.toBorn.after hsteady.world hsteady.sources
        refine ⟨hloader, text, { hborn with }, data', text, ?_, hstamp, htext, rfl⟩
        dsimp only
        rw [hmade.files]
        exact hread
      · exact (hnone m rfl).elim
    · rw [fromDisk, if_neg hwants] at hdisk
      cases hdisk

/-- Every build that keeps files and succeeds leaves its artifact, when nothing was in the table. -/
theorem build_leaves (hruntime : b.settings.runtimeMode = true) (hstamp : Stamp.ReadsBack b.version)
    (hempty : s.cache.loaded? path = none)
    (h : (b.build components path).run s = (.ok result, s')) :
    Leaves path b.version result.module s s' := by
  obtain ⟨t, hland, ⟨m, hreuse, rfl⟩ | ⟨s₁, -, hmade⟩⟩ := b.build_ok path h
  · have hleaves := reuse_leaves hruntime (s := takeOff path s) hempty hreuse
    obtain ⟨source, hborn, hfile⟩ := hleaves.source
    subst hland
    exact ⟨hleaves.loader, source, { hborn with }, hfile⟩
  · obtain ⟨hstate, -⟩ := b.compile_ok hmade
    obtain ⟨plan, -, hcompiles⟩ := build_compiles hruntime h hstate
    refine ⟨hcompiles.loader, plan.source, hcompiles.born, _, _, hcompiles.read, ?_,
      fileText_encodeUtf8 plan.source, ofSource_unixLines plan.source⟩
    rw [← hcompiles.version] at hstamp ⊢
    exact hstamp.ofData?

end Builder

namespace Commanding

variable {h₀ : Host} {r : BuildRequest} {c c' u : CommandState}

/-! What a build is made of. -/

/-- The path of the artifact: the one that is asked for, or one in the workspace. -/
def destination (h : Host) (r : BuildRequest) (b : Builder) : Commanding Path :=
  match r.output with
  | some p => pure p
  | none =>
    buildingOrEscape (Building.filing (h.workspace.artifact modelName b.version b.settings.baseDir))

/-- What a build finds out before it starts: by what settings, for which components and where to. -/
def prepare (h : Host) (r : BuildRequest) : Commanding (Builder × List Component × Path) := do
  let settings ← settings h r.config (overrides r)
  let components ← components r
  let b : Builder := { settings := settings }
  let path ← destination h r b
  return (b, components, path)

/-- The build itself, and what is shown of it. -/
def carryOut (r : BuildRequest) (b : Builder) (components : List Component) (path : Path) :
    Commanding Unit := do
  let mode := if r.designTime then "design-time" else "runtime"
  tell (.header "modelgen build"
    (toString components.length ++ " component(s) -> " ++ path.text ++ " (" ++ mode ++ ")"))
  modify fun s => { s with session := { s.session with cache := {} } }
  let result ← match ← building (b.build components path) with
    | .ok result => pure result
    | .error e => buildFailed r.showSource e
  let w ← world
  tell (.heading "Contracts")
  tell (.table "" ["Contract", "Backing type"]
    ((contracts w result.module).map fun (name, c) => [name, backing w c]))
  if let (true, some artifact) := (r.showSource, result.artifact) then
    tell (.heading "Source")
    tell (.code artifact.source)
  tell (.success (result.state.display ++ ": " ++ path.text))

theorem build_eq (h : Host) (r : BuildRequest) :
    build h r = prepare h r >>= fun (b, components, path) => carryOut r b components path := by
  unfold build prepare destination
  rw [bind_assoc]
  refine bind_congr fun settings => ?_
  rw [bind_assoc]
  refine bind_congr fun components => ?_
  dsimp only
  cases r.output with
  | none => simp only [bind_assoc, pure_bind]; rfl
  | some p => rfl

theorem run_tell (n : Console.Notice) (c : CommandState) :
    (tell n).run c = (.ok ⟨⟩, { c with notices := c.notices ++ [n] }) := rfl

theorem run_world (c : CommandState) : world.run c = (.ok c.session.world, c) := rfl

theorem run_files (c : CommandState) : files.run c = (.ok c.session.files, c) := rfl

theorem run_building {α : Type} (m : Building α) (c : CommandState) : (building m).run c =
    (.ok (m.run c.session).1, { c with session := (m.run c.session).2 }) := rfl

theorem settings_ok {config : Option Path} {given : Entries} {x : Settings}
    (h : (settings h₀ config given).run c = (.ok x, c')) : c' = c := by
  unfold settings at h
  rw [run_bind_of_ok (run_files c)] at h
  split at h
  · cases h
    rfl
  · split_ifs at h
    · obtain ⟨_, _, -, hthrow⟩ := run_bind_ok h
      cases hthrow
    · cases h

theorem target_keeps (spec : String) : Keeps Eq (target spec) := by
  intro c
  unfold target
  rw [run_bind_of_ok (run_world c)]
  split <;> rfl

theorem components_keeps (r : BuildRequest) : Keeps Eq (components r) := by
  have hoption : ∀ o : Option String, Keeps Eq (o.mapM target) := by
    intro o
    cases o with
    | none => exact .pure _
    | some spec => exact (target_keeps spec).map
  refine (hoption r.base).bind fun base => (hoption r.rootBase).bind fun rootBase => ?_
  generalize r.targets = specs
  induction specs with
  | nil => exact .pure _
  | cons spec specs ih =>
    rw [List.mapM_cons]
    exact ((target_keeps spec).bind fun _ => .pure _).bind fun _ => ih.bind fun _ => .pure _

/-- Before a build starts nothing is shown and no source is executed. -/
theorem prepare_ok {b : Builder} {components : List Component} {path : Path}
    (h : (prepare h₀ r).run c = (.ok (b, components, path), c')) : c'.notices = c.notices ∧
      c'.session.world = c.session.world ∧ c'.session.sources = c.session.sources ∧
        b.version = standardVersion := by
  obtain ⟨x, c₁, hsettings, h₁⟩ := run_bind_ok h
  obtain ⟨l, c₂, hcomponents, h₂⟩ := run_bind_ok h₁
  obtain rfl := settings_ok hsettings
  obtain rfl := (components_keeps r).of_run hcomponents
  obtain ⟨p, c₃, hpath, h₃⟩ := run_bind_ok h₂
  cases h₃
  have hstays : c'.notices = c₁.notices ∧ c'.session.world = c₁.session.world ∧
      c'.session.sources = c₁.session.sources := by
    unfold destination at hpath
    split at hpath
    · cases hpath
      exact ⟨rfl, rfl, rfl⟩
    · unfold buildingOrEscape at hpath
      rw [run_bind_of_ok (run_building _ _), run_filing] at hpath
      split at hpath
      · cases hpath
        exact ⟨rfl, rfl, rfl⟩
      · cases hpath
  exact ⟨hstays.1, hstays.2.1, hstays.2.2, rfl⟩

theorem buildFailed_ne_ok {α : Type} {a : α} (showSource : Bool) (e : BuildError)
    (c c' : CommandState) : (buildFailed showSource e).run c ≠ (.ok a, c') := by
  have hthrow {m : Commanding PUnit} (c : CommandState) :
      (m >>= fun _ => (throw .reported : Commanding α)).run c ≠ (.ok a, c') := by
    intro h
    obtain ⟨_, _, -, hthrow⟩ := run_bind_ok h
    cases hthrow
  intro h
  unfold buildFailed at h
  split at h
  next f =>
    obtain ⟨_, _, -, h₁⟩ := run_bind_ok h
    obtain ⟨_, c₁, -, h₂⟩ := run_bind_ok h₁
    split_ifs at h₂
    · exact hthrow c₁ h₂
    · cases h₂
  next e =>
    rw [run_bind_of_ok (run_world c)] at h
    split at h
    · exact hthrow c h
    · cases h

/-- The tables that are shown, with their columns and rows. -/
def tables (ns : List Console.Notice) : List (List String × List (List String)) :=
  ns.filterMap fun n => match n with
    | .table _ columns rows => some (columns, rows)
    | _ => none

/-- A build that succeeds is carried out to its end, and the contracts of its module are shown in a table. -/
theorem carryOut_run (r : BuildRequest) {b : Builder} {components : List Component} {path : Path}
    {result : BuildResult Module} {s' : Session}
    (h : (b.build components path).run { c.session with cache := {} } = (.ok result, s')) :
    ∃ notices, (carryOut r b components path).run c = (.ok ⟨⟩, ⟨s', notices⟩) ∧
      tables notices = tables c.notices ++
        [(["Contract", "Backing type"], (rows s'.world result.module).map Row.cells)] := by
  unfold carryOut
  dsimp only
  rw [run_bind_of_ok (run_tell _ _), run_bind_of_ok (run_modify _ _),
    run_bind_of_ok (run_building _ _), h]
  dsimp only
  rw [pure_bind, run_bind_of_ok (run_world _), run_bind_of_ok (run_tell _ _),
    run_bind_of_ok (run_tell _ _), cells_rows]
  split
  · rw [run_bind_of_ok (run_tell _ _), run_bind_of_ok (run_tell _ _), run_tell]
    exact ⟨_, rfl, by simp [tables]⟩
  · rw [run_tell]
    exact ⟨_, rfl, by simp [tables]⟩

/-- A build that is carried out to its end succeeded. -/
theorem carryOut_ok {b : Builder} {components : List Component} {path : Path}
    (h : (carryOut r b components path).run c = (.ok ⟨⟩, u)) : ∃ result,
      (b.build components path).run { c.session with cache := {} } = (.ok result, u.session) ∧
        tables u.notices = tables c.notices ++ [(["Contract", "Backing type"],
          (rows u.session.world result.module).map Row.cells)] := by
  rcases hbuild : (b.build components path).run { c.session with cache := {} } with ⟨_ | result, s'⟩
  · unfold carryOut at h
    dsimp only at h
    rw [run_bind_of_ok (run_tell _ _), run_bind_of_ok (run_modify _ _),
      run_bind_of_ok (run_building _ _), hbuild] at h
    obtain ⟨result, _, hfailed, -⟩ := run_bind_ok h
    exact (buildFailed_ne_ok _ _ _ _ hfailed).elim
  · obtain ⟨notices, hrun, htables⟩ := carryOut_run r hbuild
    rw [hrun] at h
    cases h
    exact ⟨result, rfl, htables⟩

/-- What an inspection shows of an artifact of this version. -/
def inspection (path : Path) (rows : List Row) : List Console.Notice :=
  [.header "modelgen inspect" path.text, .status "Version stamp" true standardVersion,
    .status "Matches generator" true standardVersion, .heading "Contracts",
    .table "" ["Contract", "Backing type", "Abstract"] (rows.map Row.allCells)]

/-- An inspection makes the module of an artifact again, and lists the same contracts. -/
theorem inspect_run {path : Path} {m : Module} {s s' t : Session} (hs : s.Numbered)
    (hleaves : Leaves path standardVersion m s s') (h : Untouched path s s' t) : ∃ w,
      (inspect path).run { session := t } = (.ok ⟨⟩, w) ∧
        w.notices = inspection path (rows s'.world m) := by
  obtain ⟨source, hborn, data, text, hread', hstamp, htext, hsource⟩ := hleaves.source
  obtain ⟨statements, _, hstatements, -⟩ := Compilation.outcome_ok hborn.outcome
  have hagain : Statement.ofSource text = .ok statements := hsource.trans hstatements
  have hread : t.files.read? path = .ok data := h.file.trans hread'
  obtain ⟨v, m', houtcome, hrows⟩ := Compilation.rows_again hborn.outcome hstatements hagain hs
    hborn.fresh h.numbered h.grown (Nat.lt_succ_self _) h.world
  obtain ⟨log, hload⟩ := Compilation.load_ok hread htext hagain hleaves.loader houtcome
  have hfile : Stamp.ofFile? t.files path = some standardVersion := by
    unfold Stamp.ofFile?
    rw [hread]
    exact hstamp
  have hshown : ((some standardVersion).filter fun v => !v.isEmpty).getD "missing" = standardVersion := by
    decide
  unfold inspect
  rw [run_bind_of_ok (run_files _)]
  dsimp only
  rw [isFile_of_read? hread, hfile, hshown]
  simp only [Bool.not_true, Bool.false_eq_true, if_false, Option.isSome_some, decide_true]
  rw [run_bind_of_ok (run_tell _ _), run_bind_of_ok (run_tell _ _), run_bind_of_ok (run_tell _ _),
    run_bind_of_ok (run_building _ _)]
  dsimp only
  rw [hload]
  dsimp only
  rw [pure_bind, run_bind_of_ok (run_world _), run_bind_of_ok (run_tell _ _), run_tell, allCells_rows,
    hrows]
  exact ⟨_, rfl, rfl⟩

theorem standardVersion_readsBack : Stamp.ReadsBack standardVersion := by
  unfold Stamp.ReadsBack
  decide +kernel

end Commanding

/-! What is around an application, so far as the sources below refer to it. -/

namespace Surroundings

def classes : List ClassInfo :=
  [Standard.markerClass .className, Standard.markerClass .modelAbstractClass,
    Standard.markerClass .modelDisplayName] ++ Standard.contracts

def modules : List Module :=
  [{ name := "modelgen.contracts"
     attributes := [("ModelNode", .cls ClassId.modelNode),
      ("ModelNodeEnabled", .cls ClassId.modelNodeEnabled)] },
    { name := "modelgen.markers"
      attributes := [("ClassName", .cls MarkerShape.className.kind),
        ("ModelAbstractClass", .cls MarkerShape.modelAbstractClass.kind),
        ("ModelDisplayName", .cls MarkerShape.modelDisplayName.kind)] },
    { name := "typing", attributes := [("Annotated", .other), ("Any", .cls ClassId.any)] },
    { name := "builtins"
      attributes := [("float", .cls ClassId.float),
        ("property", .cls (ClassId.builtin "property"))] }]

end Surroundings

/-! An abstract component with a part, and one that is sorted before it. -/

namespace Listed

open Commanding

def whole : ClassId := ⟨"app", "Whole", 0⟩

def part : ClassId := ⟨"app", "Part", 0⟩

def board : ClassId := ⟨"app", "Board", 0⟩

def root : ClassId := ⟨"app", "Root", 0⟩

def session : Session where
  world :=
    { classes := [{ Standard.classOf whole [] with attributes := [("first", .cls part)] },
        Standard.classOf part [], Standard.classOf board [],
        Standard.classOf root [ClassId.modelNode]] ++ Surroundings.classes
      modules := { name := "app", attributes := [("Whole", .cls whole), ("Part", .cls part),
        ("Board", .cls board), ("Root", .cls root)] } :: Surroundings.modules }

def place : Path := Path.ofText "App.py"

def request : BuildRequest where
  targets := ["app:Whole", "app:Board"]
  output := some place
  rootBase := some "app:Root"
  isAbstract := true

def builder : Builder := {}

def components : List Component :=
  [{ type := whole, rootBase := some root, isAbstract := true },
    { type := board, rootBase := some root, isAbstract := true }]

theorem session_numbered : session.Numbered :=
  World.within_of_forall (by decide) (by decide) (by decide) (by decide)

theorem session_stocked : session.world.Stocked (Artifact.moduleName place) where
  markers s hs := by
    cases s <;> first | rfl | cases hs
  held := ⟨_, rfl, fun s hs => by cases s <;> first | rfl | cases hs⟩
  apart s _ := by
    cases s <;> decide +kernel
  direct name m hm a ha := by
    have hall : ∀ m ∈ session.world.modules, ∀ a ∈ m.attributes, a.2.isDirect = true := by decide
    exact hall m (List.mem_of_find?_eq_some hm) a ha

theorem prepared : (prepare {} request).run { session := session } =
    (.ok (builder, components, place), { session := session }) := rfl

def draft : Except EmissionError Blueprint × Draft := builder.drafting components place session

/-- What is planned for the three classes, in the order in which it is planned, and compiled. -/
theorem sound : ∃ plan L, builder.Sound components place session plan L ∧
    plan.contracts.map Row.ofContract = [⟨"IModelAppWhole", "app.Whole", true⟩,
      ⟨"IModelAppWholeAppPart", "app.Part", false⟩, ⟨"IModelAppBoard", "app.Board", true⟩] ∧
    ∃ result s', (builder.build components place).run session = (.ok result, s') ∧
      result.state = .compiled := by
  have hdraft : draft.1.toOption.map (fun plan => (decide (plan.Tidy ∧
      plan.Apart draft.2.ledger session.world (Artifact.moduleName place) ∧
        (∀ c ∈ components, c.Grounded session.world) ∧
          plan.Runs session.world (Artifact.moduleName place) 1 ∧
            Compilation.unresolvedReferences session.world plan.references place = []),
      plan.contracts.map Row.ofContract)) =
      some (true, [⟨"IModelAppWhole", "app.Whole", true⟩,
        ⟨"IModelAppWholeAppPart", "app.Part", false⟩, ⟨"IModelAppBoard", "app.Board", true⟩]) := by
    decide +kernel
  have hclasses : ∀ c ∈ ClassId.any :: (draft.2.ledger.types ++ session.world.implicitClasses),
      session.world.Importable (Artifact.moduleName place) c := by decide +kernel
  rcases h : draft with ⟨e | plan, d⟩
  · rw [h] at hdraft
    cases hdraft
  rw [h] at hdraft hclasses
  obtain ⟨hplan, hcontracts⟩ := Prod.mk.inj (Option.some.inj hdraft)
  obtain ⟨htidy, hapart, hgrounded, hruns, hreferences⟩ := of_decide_eq_true hplan
  have himports := imports_of_forall hclasses (by decide)
  have hplans : builder.Plans components place session plan d.ledger := ⟨d, h, rfl⟩
  have hlocated : session.files.locate place = .ok ["App.py"] := rfl
  exact ⟨plan, d.ledger, ⟨hplans, himports, session_stocked, htidy, hapart, hgrounded⟩, hcontracts,
    hplans.compiles rfl (spells_of_imports himports) htidy rfl session_numbered nofun rfl hlocated rfl
      hreferences (by decide) hruns⟩

end Listed

/-! Two modules with one alias: the base of the contracts is named by the alias, and the other module has a
class of its name that is not below the model node. -/

namespace Confused

open Commanding

def model : ClassId := ⟨"app", "A", 0⟩

def base : ClassId := ⟨"lib.x", "ModelNode", 0⟩

def namesake : ClassId := ⟨"lib_x", "ModelNode", 0⟩

def session : Session where
  world :=
    { classes := [{ Standard.classOf model [] with attributes := [("X", .cls namesake)] },
        Standard.classOf base [ClassId.modelNode], Standard.classOf namesake []] ++
          Surroundings.classes
      modules := [{ name := "app", attributes := [("A", .cls model)] },
        { name := "lib", attributes := [("x", .module "lib.x")] },
        { name := "lib.x", attributes := [("ModelNode", .cls base)] },
        { name := "lib_x", attributes := [("ModelNode", .cls namesake)] }] ++ Surroundings.modules }

def place : Path := Path.ofText "App.py"

def into : String := Artifact.moduleName place

def request : BuildRequest where
  targets := ["app:A"]
  output := some place
  base := some "lib.x:ModelNode"

def builder : Builder := {}

def components : List Component := [{ type := model, base := base }]

theorem session_numbered : session.Numbered :=
  World.within_of_forall (by decide) (by decide) (by decide) (by decide)

theorem prepared : (prepare {} request).run { session := session } =
    (.ok (builder, components, place), { session := session }) := rfl

def draft : Except EmissionError Blueprint × Draft := builder.drafting components place session

/-- Runs the statements of a plan in the world of the session. -/
def execution (p : Blueprint) : Execution.Step :=
  Execution.runAll { world := session.world.opened into 1, name := into, number := 1 } p.statements

/-- No attribute of a module is listed as a contract. -/
def unlisted (x : Execution) : Bool :=
  x.attributes.all fun a => (contract? x.world x.module a).isNone

theorem rows_of_unlisted {x : Execution} (h : unlisted x = true) : rows x.world x.module = [] := by
  have hnone : ∀ a ∈ x.module.attributes.mergeSort fun a b => a.1 ≤ b.1,
      contract? x.world x.module a = none := fun a ha =>
    Option.isNone_iff_eq_none.1 (List.all_eq_true.1 h a (List.mem_mergeSort.1 ha))
  rw [rows, contracts_eq, List.filterMap_eq_nil_iff.2 hnone]
  rfl

end Confused

end ModelContracts
