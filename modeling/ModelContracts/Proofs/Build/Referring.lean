import ModelContracts.Proofs.Build.Planning

/-!
References in the source of a module. All that a contract mentions goes by the names of the ledger of the
plan, and where the contract is declared a name leads to what it was given for, unless an alias, a
contract above it or, for a builtin name, an import has taken its first part.
-/

namespace ModelContracts

open Ledger Building Session

/-- How far the run of a source has come when some contracts are left. -/
def Blueprint.Reaches (p : Blueprint) (w : World) (into : String) (serial : Nat)
    (rest : List Contract) (x : Execution) : Prop :=
  ∃ statements classes, Statement.ofSource p.source = .ok (statements ++ classes) ∧
    List.Forall₂ Contract.ReadAs rest classes ∧
      Execution.runAll { world := w.opened into serial, name := into, number := serial }
        statements = .ok x

namespace Builder

variable {b : Builder} {components : List Component} {path : Path} {s s' : Session} {plan : Blueprint}
  {L : Ledger}

/-- In a world of classes that can be imported, the run of a source that was compiled comes by each of its
contracts, which are worded in the names of the ledger, and there each name that is not qualified and not
captured leads to just what it was given for. -/
theorem references_resolve {result : BuildResult Module} (hplans : b.Plans components path s plan L)
    (himports : s.world.Imports (Artifact.moduleName path) L) (htidy : plan.Tidy)
    (hnumbered : s.Numbered) (hbuild : (b.build components path).run s = (.ok result, s'))
    (hstate : result.state = .compiled) :
    (∃ info, result.artifact = some info ∧ info.source = plan.source) ∧
      ∀ before k after, plan.contracts = before ++ k :: after →
        (b.synthesizer s.world path).WordedFor L plan.namings components k ∧
        ∃ x, plan.Reaches s.world (Artifact.moduleName path) result.module.number (k :: after) x ∧
          ∀ m, L.Settled s.world m → L.Unqualified s.world m → ¬ plan.Captured L s.world before m →
            ∀ line, ∃ e, x.resolve line (L.nameOf s.world m) = .ok e ∧
              (s.world.opened (Artifact.moduleName path) result.module.number).Stands m e := by
  obtain ⟨plan', L', hplans', hartifact, hborn⟩ := build_plans hbuild hstate
  obtain ⟨rfl, rfl⟩ := hplans.unique hplans'
  refine ⟨hartifact, fun before k after hcontracts => ?_⟩
  have hsure := sure_of_imports himports
  have hk : k ∈ plan'.contracts := by simp [hcontracts]
  refine ⟨(hplans.worded hsure).2 k hk, ?_⟩
  obtain ⟨statements, classes, x, y, hsource, hread, hrun, -, -, -, hscope⟩ := Blueprint.scope_of_run
    (hplans.legible (spells_of_imports himports) htidy) (hplans.founded hsure).nodup hcontracts hborn.outcome
  have hstarted := hplans.started himports hnumbered hborn.fresh
  exact ⟨x, ⟨statements, classes, hsource, hread, hrun⟩, fun m hm hunqualified hfree line =>
    hscope.resolve hstarted hm hunqualified hfree line⟩

end Builder

/-! Three classes, of which the second has a contract that is named like a marker class. -/

namespace Crowded

def model : ClassId := ⟨"app", "A", 0⟩

def namesake : ClassId := ⟨"app", "ame", 0⟩

def last : ClassId := ⟨"app", "C", 0⟩

def session : Session where
  world :=
    { classes := [Standard.classOf model [], Standard.classOf namesake [], Standard.classOf last [],
        Standard.markerClass .className, Standard.markerClass .modelDisplayName] ++ Standard.contracts
      modules := [
        { name := "app", attributes := [("A", .cls model), ("ame", .cls namesake), ("C", .cls last)] },
        { name := "modelgen.contracts"
          attributes := [("ModelNode", .cls ClassId.modelNode),
            ("ModelNodeEnabled", .cls ClassId.modelNodeEnabled)] },
        { name := "modelgen.markers"
          attributes := [("ClassName", .cls MarkerShape.className.kind),
            ("ModelDisplayName", .cls MarkerShape.modelDisplayName.kind)] },
        { name := "typing", attributes := [("Annotated", .other), ("Any", .cls ClassId.any)] },
        { name := "builtins"
          attributes := [("float", .cls ClassId.float),
            ("property", .cls (ClassId.builtin "property"))] }] }

def builder : Builder where
  settings := { namePrefix := "Class" }
  version := "1"

def place : Path := Path.ofText "N.py"

def components : List Component :=
  [{ type := model }, { type := namesake, base := MarkerShape.modelDisplayName.kind }, { type := last }]

theorem session_numbered : session.Numbered :=
  World.within_of_forall (by decide) (by decide) (by decide) (by decide)

def draft : Except EmissionError Blueprint × Draft := builder.drafting components place session

def mention : Mention := .cls MarkerShape.className.kind

/-- What is derived for the three classes, and compiled. -/
structure Derived (plan : Blueprint) (L : Ledger) (first second third : Contract) : Prop where
  plans : builder.Plans components place session plan L
  imports : session.world.Imports (Artifact.moduleName place) L
  tidy : plan.Tidy
  contracts : plan.contracts = [first, second, third]
  second : second.name = "ClassName"
  third : third.backing = last
  compiles : ∃ result s', (builder.build components place).run session = (.ok result, s') ∧
    result.state = .compiled
  unqualified : L.Unqualified session.world mention
  name : L.nameOf session.world mention = "ClassName"
  free : ¬ plan.Captured L session.world [] mention

theorem derived : ∃ plan L first second third, Derived plan L first second third := by
  have hdraft : draft.1.toOption.map (fun plan => (decide (plan.Tidy ∧
      plan.Runs session.world (Artifact.moduleName place) 1 ∧
        Compilation.unresolvedReferences session.world plan.references place = [] ∧
          ¬ plan.Captured draft.2.ledger session.world [] mention),
      plan.contracts.map fun k => (k.name, k.backing))) =
        some (true, [("ClassNA", model), ("ClassName", namesake), ("ClassNC", last)]) := by
    decide +kernel
  have hclasses : ∀ c ∈ ClassId.any :: (draft.2.ledger.types ++ session.world.implicitClasses),
      session.world.Importable (Artifact.moduleName place) c := by decide +kernel
  have hname : draft.2.ledger.Unqualified session.world mention ∧
      draft.2.ledger.nameOf session.world mention = "ClassName" := by decide +kernel
  rcases h : draft with ⟨e | plan, d⟩
  · rw [h] at hdraft
    cases hdraft
  rw [h] at hdraft hclasses hname
  obtain ⟨hplan, hcontracts⟩ := Prod.mk.inj (Option.some.inj hdraft)
  obtain ⟨htidy, hruns, hreferences, hfree⟩ := of_decide_eq_true hplan
  obtain ⟨first, second, third, hthree⟩ := List.length_eq_three.1
    (by simpa using congrArg List.length hcontracts)
  rw [hthree] at hcontracts
  simp only [List.map_cons, List.map_nil, List.cons.injEq, Prod.mk.injEq, and_true] at hcontracts
  have himports := imports_of_forall hclasses (by decide)
  have hplans : builder.Plans components place session plan d.ledger := ⟨d, h, rfl⟩
  have hlocated : session.files.locate place = .ok ["N.py"] := rfl
  have hcompiles := hplans.compiles rfl (spells_of_imports himports) htidy rfl session_numbered nofun rfl hlocated rfl
    hreferences (by decide) hruns
  exact ⟨plan, d.ledger, first, second, third, hplans, himports, htidy, hthree, hcontracts.2.1.1,
    hcontracts.2.2.2, hcompiles, hname.1, hname.2, hfree⟩

/-- The marker class is mentioned above each contract. -/
theorem mention_settled {k : Contract} {L : Ledger} {ns : List Naming}
    (h : (builder.synthesizer session.world place).WordedFor L ns components k) :
    L.Settled session.world mention ∧
      ∃ line ∈ k.header, Written session.world L (Synthesizer.identityPhrase k.backing) line := by
  obtain ⟨c, -, hk⟩ := h
  have hline := Synthesizer.identityPhrase_mem k.backing k.isAbstract
  have hmention : mention ∈ (Synthesizer.identityPhrase k.backing).mentions := List.mem_cons_self
  refine ⟨hk.header.settled _ hline _ hmention, _, ?_, rfl, hk.header.settled _ hline⟩
  rw [hk.header.texts]
  exact List.mem_map_of_mem hline

/-- Above the first contract the name of the marker class leads to it. -/
theorem first_resolves : ∃ plan L first rest result s' x e,
    builder.Plans components place session plan L ∧
    session.world.Imports (Artifact.moduleName place) L ∧ plan.Tidy ∧
      (builder.build components place).run session = (.ok result, s') ∧ result.state = .compiled ∧
        plan.contracts = first :: rest ∧ plan.Reaches session.world (Artifact.moduleName place)
          result.module.number (first :: rest) x ∧ x.resolve 1 "ClassName" = .ok e ∧
            e.class? = some MarkerShape.className.kind := by
  obtain ⟨plan, L, first, second, third, h⟩ := derived
  obtain ⟨result, s', hbuild, hstate⟩ := h.compiles
  obtain ⟨-, hresolve⟩ := Builder.references_resolve h.plans h.imports h.tidy session_numbered hbuild
    hstate
  obtain ⟨hworded, x, hreaches, hnames⟩ := hresolve [] first [second, third] h.contracts
  obtain ⟨e, he, hstands⟩ := hnames mention (mention_settled hworded).1 h.unqualified h.free 1
  rw [h.name] at he
  exact ⟨plan, L, first, _, result, s', x, e, h.plans, h.imports, h.tidy, hbuild, hstate, h.contracts,
    hreaches, he, hstands⟩

/-- Above the third contract the same name leads to the second contract. -/
theorem third_captured : ∃ plan L before third result s' x e,
    builder.Plans components place session plan L ∧
    session.world.Imports (Artifact.moduleName place) L ∧ plan.Tidy ∧
      (builder.build components place).run session = (.ok result, s') ∧ result.state = .compiled ∧
        plan.contracts = before ++ [third] ∧
        (∃ line ∈ third.header, Written session.world L (Synthesizer.identityPhrase last) line) ∧
        mention ∈ (Synthesizer.identityPhrase last).mentions ∧ L.Unqualified session.world mention ∧
          plan.Reaches session.world (Artifact.moduleName place) result.module.number [third] x ∧
            x.resolve 1 (L.nameOf session.world mention) = .ok e ∧
              ¬ (session.world.opened (Artifact.moduleName place) result.module.number).Stands
                mention e := by
  obtain ⟨plan, L, first, second, third, h⟩ := derived
  obtain ⟨result, s', hbuild, hstate⟩ := h.compiles
  obtain ⟨plan', L', hplans', -, hborn⟩ := Builder.build_plans hbuild hstate
  obtain ⟨rfl, rfl⟩ := h.plans.unique hplans'
  have hsure := sure_of_imports h.imports
  have hcontracts : plan'.contracts = [first, second] ++ [third] := h.contracts
  have hworded := (h.plans.worded hsure).2 third (by simp [h.contracts])
  obtain ⟨statements, classes, x, y, hsource, hread, hrun, -, -, -, hscope⟩ := Blueprint.scope_of_run
    (h.plans.legible (spells_of_imports h.imports) h.tidy) (h.plans.founded hsure).nodup hcontracts hborn.outcome
  have hresolve := hscope.resolve_contract (k := second) (by simp) (by rw [h.second]; decide)
    (by rw [h.second]; decide) 1
  rw [h.second] at hresolve
  have hheader := (mention_settled hworded).2
  rw [h.third] at hheader
  refine ⟨plan', L', [first, second], third, result, s', x, _, h.plans, h.imports, h.tidy, hbuild, hstate,
    hcontracts, hheader, List.mem_cons_self, h.unqualified, ⟨statements, classes, hsource, hread, hrun⟩,
    by rw [h.name]; exact hresolve, fun hstands => ?_⟩
  have hmodule : Artifact.moduleName place = MarkerShape.className.kind.moduleName :=
    congrArg ClassId.moduleName (Option.some.inj hstands)
  exact absurd hmodule (by decide)

end Crowded

end ModelContracts
