import ModelContracts.Proofs.Build.Planning
import ModelContracts.Proofs.Extension.Resolving
import ModelContracts.Proofs.Source.Decorating
import ModelContracts.Proofs.Text.Pieces

/-!
Contracts found again. The class that a contract becomes records the full name of the class behind it, and
is the only class of its module that records a name with the same last part, unless the module has
another such class. So the contract is found by the class behind it, by its simple and by its full name.
-/

namespace ModelContracts

open Ledger Building Session

namespace Text

theorem lastPiece_lastPiece (sep : Char) (s : String) :
    lastPiece sep (lastPiece sep s) = lastPiece sep s := by
  have hmem := not_mem_of_mem_pieces (List.getLast_mem (pieces_ne_nil sep s.toList))
  have hone : pieces sep (lastPiece sep s).toList = [(lastPiece sep s).toList] := by
    rw [lastPiece, String.toList_ofList]
    exact pieces_of_not_mem hmem
  conv_lhs => rw [lastPiece]
  simp [hone]

end Text

theorem ClassId.lastPiece_fullName (c : ClassId) : Text.lastPiece '.' c.fullName = c.simpleName :=
  Text.lastPiece_append '.' (t := c.moduleName) (by simp [fullName, String.toList_append])

namespace World

variable {w : World} {m : Module} {c : ClassId} {name : String}

/-- Every name that a class of a module records, but for one class, has another last part. -/
def Solely (w : World) (m : Module) (c : ClassId) (name : String) : Prop :=
  ∀ d ∈ moduleClasses m, d ≠ c → ∀ k ∈ w.classMarkersOf d MarkerShape.className.kind,
    ∃ text, (k.field "type_name").text? = some text ∧ Marker.simpleName text ≠ name

/-- The only contract that records the name of a request is found. -/
theorem resolveContract_sole {request : ContractRequest} (hmem : c ∈ moduleClasses m)
    (hown : w.recordedSimpleNames c = .ok [request.simpleName])
    (hsole : w.Solely m c request.simpleName)
    (hnode : ∀ d, request = .cls d → w.derives d ClassId.modelNode = false) :
    w.resolveContract m request = .ok c := by
  have hheld := mem_moduleClasses.1 hmem
  have hother : ∀ d, m.Holds d → d ≠ c → w.RecordsTexts d ∧ ¬ w.Records d request.simpleName := by
    intro d hd hdc
    have htexts := hsole d (mem_moduleClasses.2 hd) hdc
    refine ⟨fun k hk hkind => ?_, ?_⟩
    · obtain ⟨text, htext, -⟩ := htexts k (mem_classMarkersOf.2 ⟨hk, hkind⟩)
      exact ⟨text, htext⟩
    · rintro ⟨k, hk, hkind, text, htext, hname⟩
      obtain ⟨text', htext', hne⟩ := htexts k (mem_classMarkersOf.2 ⟨hk, hkind⟩)
      rw [htext, Option.some.injEq] at htext'
      exact hne (htext' ▸ hname)
  have hself : w.RecordsTexts c := by
    by_contra hbad
    obtain ⟨v, hv⟩ := recordedSimpleNames_malformed hbad
    rw [hown] at hv
    cases hv
  have htexts : ∀ d, m.Holds d → w.RecordsTexts d := fun d hd =>
    if hdc : d = c then hdc ▸ hself else (hother d hd hdc).1
  refine (resolveContract_eq_ok hnode htexts).2 fun d => ⟨fun hd => ?_, ?_⟩
  · by_contra hdc
    exact (hother d hd.1 hdc).2 hd.2
  · rintro rfl
    obtain ⟨names, hnames, hrecords⟩ := recordedSimpleNames_texts hself
    rw [hown, Except.ok.injEq] at hnames
    exact ⟨hheld, (hrecords _).1 (hnames ▸ List.mem_singleton_self _)⟩

end World

/-- The markers that a contract has when it is declared. -/
def Contract.markers (k : Contract) : List Marker :=
  (if k.isAbstract then [Marker.stock .modelAbstractClass []] else []) ++
    [Marker.stock .className [.text k.backing.fullName]]

namespace World

variable {w : World} {c : ClassId}

theorem markersOf_within {bound : Nat} (hw : w.Within bound) (hc : bound < c.generation) :
    w.markersOf c = [] := by
  rcases h : w.markersOf c with _ | ⟨m, ms⟩
  · rfl
  · obtain ⟨hle, -⟩ := hw.markers c m (by simp [h])
    omega

/-- Of the markers of a contract only the first that was written records a name. -/
theorem classMarkersOf_contract {k : Contract}
    (hmarkers : ∀ s : MarkerShape, s.onClasses = true → w.find? s.kind = some (Standard.markerClass s))
    (h : w.markersOf c = k.markers) : w.classMarkersOf c MarkerShape.className.kind =
      [Marker.stock .className [.text k.backing.fullName]] := by
  have hname : w.derives MarkerShape.className.kind MarkerShape.className.kind = true := by
    rw [derives, lineage, hmarkers .className rfl]
    decide
  have hother : w.derives MarkerShape.modelAbstractClass.kind MarkerShape.className.kind = false := by
    rw [derives, lineage, hmarkers .modelAbstractClass rfl]
    decide
  rw [classMarkersOf, h, Contract.markers]
  split_ifs
  · simp [Marker.stock, hname, hother]
  · simp [Marker.stock, hname]

end World

theorem Artifact.moduleName_ne_markers (path : Path) : moduleName path ≠ "modelgen.markers" := by
  have hlength : 9 ≤ "modelgen_generated_".toList.length := by decide +kernel
  have hdiffer : "modelgen_generated_".toList.take 9 ≠ "modelgen.markers".toList.take 9 := by
    decide +kernel
  intro h
  have hchars : "modelgen_generated_".toList ++ (stem path).toList = "modelgen.markers".toList := by
    rw [← String.toList_append]
    exact congrArg String.toList h
  refine hdiffer ?_
  rw [← hchars]
  exact (List.take_append_of_le_length hlength).symm

/-- A source that names no class by what is taken apart is run, under a number that no class has, where the
marker classes are found. -/
structure Blueprint.Equipped (L : Ledger) (w : World) (into : String) (serial : Nat) : Prop where
  spells : w.Spells L
  founded : L.Founded w
  stocked : w.Stocked into
  into : into ≠ "modelgen.markers"
  within : ∃ bound, bound < serial ∧ w.Within bound

/-- The marker classes stay what they are when a source is run. -/
theorem World.Stocked.find?_outcome {w w' : World} {into source : String} {serial : Nat} {m : Module}
    (hstocked : w.Stocked into) (hserial : 0 < serial)
    (h : Compilation.outcome w serial source into = .ok (w', m)) (shape : MarkerShape)
    (hshape : shape.onClasses = true) : w'.find? shape.kind = some (Standard.markerClass shape) := by
  have hgeneration : shape.kind.generation = 0 := rfl
  have hold : ¬ (shape.kind.moduleName = into ∧ shape.kind.generation = serial) := by omega
  rw [(World.remade_outcome h).find _ hold]
  exact hstocked.markers shape hshape

namespace Blueprint.Scope

variable {b : Blueprint} {L : Ledger} {s : Synthesizer} {into : String} {serial : Nat}
  {before : List Contract} {k : Contract} {x y : Execution} {st : Statement} {w : World}

theorem decoratorMarker_onClasses (hs : b.Scope L (w.opened into serial) into serial before x)
    (hequipped : Equipped L w into serial)
    (hbefore : ∀ n ∈ before.map (·.name), n ∉ L.bindings.map (·.name) ∧ n ∉ b.aliases L)
    (hunique : ∀ m ∈ b.aliasedModules L, ∀ n ∈ b.aliasedModules L,
      moduleAlias n = moduleAlias m → n = m) {shape : MarkerShape} (hshape : shape.onClasses = true)
    (hm : L.Settled w (.cls shape.kind)) (n : Nat) (argument : Option String) :
    x.decoratorMarker ⟨n, L.nameOf w (.cls shape.kind), argument⟩ =
      .ok (Marker.make? shape.kind shape (argument.toList.map Value.text)) := by
  have hfind : x.world.find? shape.kind = some (Standard.markerClass shape) := by
    obtain ⟨bound, hbound, -⟩ := hequipped.within
    have hgeneration : shape.kind.generation = 0 := rfl
    rw [hs.grown.find shape.kind (by rw [hgeneration]; omega), World.opened, World.find?_putModule]
    exact hequipped.stocked.markers shape hshape
  exact Execution.decoratorMarker_stock (hs.resolve_stock hequipped.founded hequipped.stocked
    hequipped.into hshape hm hbefore hunique n) hfind

/-- The class of a contract gets its markers when it is declared. -/
theorem marks (hs : b.Scope L (s.world.opened into serial) into serial before x)
    (hequipped : Equipped L s.world into serial)
    (hbefore : ∀ n ∈ before.map (·.name), n ∉ L.bindings.map (·.name) ∧ n ∉ b.aliases L)
    (hunique : ∀ m ∈ b.aliasedModules L, ∀ n ∈ b.aliasedModules L,
      moduleAlias n = moduleAlias m → n = m) (hnew : k.name ∉ before.map (·.name))
    (hheader : WrittenAll s.world L (Synthesizer.headerPhrases k.backing k.isAbstract) k.header)
    (hread : k.ReadAs st) (hrun : x.run st = .ok y) :
    y.world.markersOf ⟨into, k.name, serial⟩ = k.markers := by
  obtain ⟨n, line, -⟩ := hread
  obtain ⟨ms, hms, hmarked⟩ := Execution.runClass_markers hrun
  have hbare : x.world.markersOf ⟨into, k.name, serial⟩ = [] := by
    obtain ⟨bound, hbound, hwithin⟩ := hequipped.within
    rw [hs.unmarked k.name hnew, World.opened, World.markersOf_putModule]
    exact World.markersOf_within hwithin hbound
  rw [hmarked, if_pos (by rw [hs.name, hs.number]), hbare, List.nil_append, Contract.markers]
  rw [Synthesizer.decoratorsOf_header hequipped.spells hheader] at hms
  have hline := Synthesizer.identityPhrase_mem k.backing k.isAbstract
  have hidentity : x.decoratorMarker (Synthesizer.identityDecorator s.world L k.backing n) =
      .ok (some (Marker.stock .className [.text k.backing.fullName])) :=
    hs.decoratorMarker_onClasses hequipped hbefore hunique rfl
      (hheader.settled _ hline _ List.mem_cons_self) n _
  cases habstract : k.isAbstract with
  | false =>
    rw [habstract, if_neg Bool.false_ne_true, List.mapM_cons, hidentity] at hms
    cases hms
    rfl
  | true =>
    have hmark : x.decoratorMarker (Synthesizer.abstractDecorator s.world L (n + 1)) =
        .ok (some (Marker.stock .modelAbstractClass [])) := by
      rw [habstract] at hheader
      exact hs.decoratorMarker_onClasses hequipped hbefore hunique rfl
        (hheader.settled _ (List.mem_cons_of_mem _ List.mem_cons_self) _ List.mem_cons_self) (n + 1) _
    rw [habstract, if_pos rfl, List.mapM_cons, hidentity, List.mapM_cons, hmark] at hms
    cases hms
    rfl

end Blueprint.Scope

/-- No contract has the name of an import or an alias, and each alias stands for one module. -/
structure Blueprint.Clear (p : Blueprint) (L : Ledger) : Prop where
  names : ∀ k ∈ p.contracts, k.name ∉ L.bindings.map (·.name) ∧ k.name ∉ p.aliases L
  aliases : ∀ m ∈ p.aliasedModules L, ∀ n ∈ p.aliasedModules L, moduleAlias n = moduleAlias m → n = m

instance (p : Blueprint) (L : Ledger) : Decidable (p.Clear L) :=
  decidable_of_iff ((∀ k ∈ p.contracts, k.name ∉ L.bindings.map (·.name) ∧ k.name ∉ p.aliases L) ∧
    ∀ m ∈ p.aliasedModules L, ∀ n ∈ p.aliasedModules L, moduleAlias n = moduleAlias m → n = m)
    ⟨fun h => ⟨h.1, h.2⟩, fun h => ⟨h.names, h.aliases⟩⟩

namespace Builder

variable {b : Builder} {components : List Component} {path : Path} {s s' : Session} {plan : Blueprint}
  {L : Ledger} {k : Contract} {result : BuildResult Module}

theorem Plans.equipped (hplans : b.Plans components path s plan L) (hspells : s.world.Spells L)
    (hnumbered : s.Numbered) (hstocked : s.world.Stocked (Artifact.moduleName path)) {serial : Nat}
    (hserial : s.sources.length < serial) :
    Blueprint.Equipped L s.world (Artifact.moduleName path) serial where
  spells := hspells
  founded := hplans.founded hspells.sure
  stocked := hstocked
  into := Artifact.moduleName_ne_markers path
  within := ⟨_, hserial, hnumbered⟩

/-- In a module that was compiled each contract is an attribute with its markers. -/
theorem Plans.marked (hplans : b.Plans components path s plan L) (hspells : s.world.Spells L)
    (htidy : plan.Tidy) (hnumbered : s.Numbered)
    (hstocked : s.world.Stocked (Artifact.moduleName path)) (hclear : plan.Clear L)
    {m : Module} (hborn : Born plan.source (Artifact.moduleName path) m s s')
    (hk : k ∈ plan.contracts) :
    s'.world.markersOf ⟨Artifact.moduleName path, k.name, m.number⟩ = k.markers ∧
      ⟨Artifact.moduleName path, k.name, m.number⟩ ∈ World.moduleClasses m := by
  have hlegible := hplans.legible hspells htidy
  have hequipped := hplans.equipped hspells hnumbered hstocked hborn.fresh
  obtain ⟨before, after, hcontracts⟩ := List.append_of_mem hk
  have hnodup := hplans.names_nodup
  rw [hcontracts, List.map_append, List.map_cons, List.nodup_append, List.nodup_cons] at hnodup
  obtain ⟨-, ⟨hafter, -⟩, hbefore⟩ := hnodup
  obtain ⟨statements, classes, x, y, -, hread, -, hrun, hworld, hmodule, hscope⟩ :=
    Blueprint.scope_of_run hlegible hequipped.founded.nodup hcontracts hborn.outcome
  have hnew : k.name ∉ before.map (·.name) := by
    intro hmem
    exact hbefore _ hmem _ List.mem_cons_self rfl
  have hapart : ∀ n ∈ before.map (·.name), n ∉ L.bindings.map (·.name) ∧ n ∉ plan.aliases L := by
    intro n hn
    obtain ⟨j, hj, rfl⟩ := List.mem_map.1 hn
    exact hclear.names j (by simp [hcontracts, hj])
  obtain ⟨c, -, hworded⟩ := (hplans.worded hspells.sure).2 k hk
  cases hread with
  | @cons _ st _ rest hst hrest =>
    unfold Execution.runAll at hrun
    rw [List.foldlM_cons] at hrun
    obtain ⟨x₁, hfirst, hsecond⟩ := except_bind_ok hrun
    have hmarks := hscope.marks (s := b.synthesizer s.world path) hequipped hapart
      hclear.aliases hnew hworded.header hst hfirst
    have hgrows := Execution.run_grows hfirst
    obtain ⟨-, hothers, -⟩ := Execution.runAll_contracts hrest hsecond
    obtain ⟨hlookup, hmarkers⟩ := hothers k.name hafter
    have hown : x₁.attributes.lookup k.name =
        some (.cls ⟨Artifact.moduleName path, k.name, m.number⟩) := by
      obtain ⟨n, line, -⟩ := hst
      rw [Execution.runClass_lookup_self hfirst, hscope.name, hscope.number]
    rw [hgrows.name, hgrows.number, hscope.name, hscope.number] at hmarkers
    refine ⟨by rw [hworld, World.markersOf_putModule, hmarkers, hmarks], ?_⟩
    have hattribute : (k.name, Entity.cls ⟨Artifact.moduleName path, k.name, m.number⟩) ∈
        m.attributes := by
      have hattributes : m.attributes = y.attributes := by
        rw [hmodule]
        rfl
      rw [hattributes]
      exact mem_of_lookup (hlookup.trans hown)
    exact List.mem_eraseDups.2 (List.mem_filterMap.2 ⟨_, List.mem_mergeSort.2 hattribute, rfl⟩)

/-- A contract alone records the simple name of its class when the other contracts are made for classes of
other names, and no class recorded the name before. -/
theorem Plans.solely (hplans : b.Plans components path s plan L) (hspells : s.world.Spells L)
    (htidy : plan.Tidy) (hnumbered : s.Numbered)
    (hstocked : s.world.Stocked (Artifact.moduleName path)) (hclear : plan.Clear L)
    (hborn : Born plan.source (Artifact.moduleName path) result.module s s')
    (hothers : ∀ j ∈ plan.contracts, j.name ≠ k.name → j.backing.simpleName ≠ k.backing.simpleName)
    (hbefore : ∀ d, ∀ m ∈ s.world.classMarkersOf d MarkerShape.className.kind,
      ∃ text, (m.field "type_name").text? = some text ∧ Marker.simpleName text ≠ k.backing.simpleName) :
    s'.world.Solely result.module ⟨Artifact.moduleName path, k.name, result.module.number⟩
      k.backing.simpleName := by
  have hequipped := hplans.equipped hspells hnumbered hstocked hborn.fresh
  have hremade := World.remade_outcome hborn.outcome
  obtain ⟨bound, hbound, hwithin⟩ := hequipped.within
  intro d _ hd m hm
  by_cases hnew : d.moduleName = Artifact.moduleName path ∧ d.generation = result.module.number
  · obtain ⟨name, n, number⟩ := d
    obtain ⟨rfl, rfl⟩ := hnew
    by_cases hname : n ∈ plan.contracts.map (·.name)
    · obtain ⟨j, hj, rfl⟩ := List.mem_map.1 hname
      have hserial : 0 < result.module.number := Nat.zero_lt_of_lt hborn.fresh
      have hmarkers := (hplans.marked hspells htidy hnumbered hstocked hclear hborn hj).1
      rw [World.classMarkersOf_contract (hstocked.find?_outcome hserial hborn.outcome) hmarkers] at hm
      rw [List.mem_singleton.1 hm]
      refine ⟨j.backing.fullName, rfl, ?_⟩
      rw [Marker.simpleName, j.backing.lastPiece_fullName]
      refine hothers j hj fun heq => hd ?_
      rw [heq]
    · -- What is not a contract had no markers before, and got none.
      obtain ⟨_, classes, x, y, -, hread, -, hrun, hworld, -, hscope⟩ := Blueprint.scope_of_run
        (hplans.legible hspells htidy) hequipped.founded.nodup (List.append_nil _).symm hborn.outcome
      cases hread
      cases hrun
      have hnone : s'.world.markersOf ⟨Artifact.moduleName path, n, result.module.number⟩ = [] := by
        rw [hworld, World.markersOf_putModule, hscope.unmarked n hname, World.opened,
          World.markersOf_putModule]
        exact World.markersOf_within hwithin hbound
      simp [World.classMarkersOf, hnone] at hm
  · have hold := hremade.markers d hnew
    have hkinds : ∀ j ∈ s.world.markersOf d, s'.world.derives j.kind MarkerShape.className.kind =
        s.world.derives j.kind MarkerShape.className.kind := by
      intro j hj
      have hkind := (hwithin.markers d j hj).2
      rw [World.derives, World.lineage, hremade.find _ (by omega), World.derives, World.lineage]
    refine hbefore d m ?_
    rw [World.classMarkersOf, hold, List.filter_congr hkinds] at hm
    exact hm

end Builder

/-! A class that is declared in another one, and an abstract class. -/

namespace Inner

def outer : ClassId := ⟨"app", "Outer", 0⟩

def model : ClassId := ⟨"app", "Outer.Größe", 0⟩

def last : ClassId := ⟨"app", "C", 0⟩

def session : Session where
  world :=
    { classes := [Standard.classOf outer [], Standard.classOf model [], Standard.classOf last [],
        Standard.markerClass .className, Standard.markerClass .modelAbstractClass,
        Standard.markerClass .modelDisplayName] ++ Standard.contracts
      nested := [((outer, "Größe"), model)]
      modules := [
        { name := "app", attributes := [("Outer", .cls outer), ("C", .cls last)] },
        { name := "modelgen.contracts"
          attributes := [("ModelNode", .cls ClassId.modelNode),
            ("ModelNodeEnabled", .cls ClassId.modelNodeEnabled)] },
        { name := "modelgen.markers"
          attributes := [("ClassName", .cls MarkerShape.className.kind),
            ("ModelAbstractClass", .cls MarkerShape.modelAbstractClass.kind),
            ("ModelDisplayName", .cls MarkerShape.modelDisplayName.kind)] },
        { name := "typing", attributes := [("Annotated", .other), ("Any", .cls ClassId.any)] },
        { name := "builtins"
          attributes := [("float", .cls ClassId.float),
            ("property", .cls (ClassId.builtin "property"))] }] }

def builder : Builder where
  settings := { namePrefix := "Class" }
  version := "1"

def place : Path := Path.ofText "N.py"

def into : String := Artifact.moduleName place

def components : List Component := [{ type := model }, { type := last, isAbstract := true }]

theorem session_numbered : session.Numbered :=
  World.within_of_forall (by decide) (by decide) (by decide) (by decide)

theorem session_stocked : session.world.Stocked into where
  markers s hs := by
    cases s <;> first | rfl | cases hs
  held := ⟨_, rfl, fun s hs => by cases s <;> first | rfl | cases hs⟩
  apart s _ := by
    cases s <;> decide +kernel
  direct name m hm a ha := by
    have hall : ∀ m ∈ session.world.modules, ∀ a ∈ m.attributes, a.2.isDirect = true := by decide
    exact hall m (List.mem_of_find?_eq_some hm) a ha

def draft : Except EmissionError Blueprint × Draft := builder.drafting components place session

/-- What is derived for the two classes, and compiled. -/
structure Derived (plan : Blueprint) (L : Ledger) (first second : Contract) : Prop where
  plans : builder.Plans components place session plan L
  spells : session.world.Spells L
  tidy : plan.Tidy
  clear : plan.Clear L
  contracts : plan.contracts = [first, second]
  first : first.name = "ClassNGröße" ∧ first.backing = model
  second : second.name = "ClassNC" ∧ second.backing = last
  compiles : ∃ result s', (builder.build components place).run session = (.ok result, s') ∧
    result.state = .compiled

theorem derived : ∃ plan L first second, Derived plan L first second := by
  have hdraft : draft.1.toOption.map (fun plan => (decide (plan.Tidy ∧ plan.Clear draft.2.ledger ∧
      plan.Runs session.world into 1 ∧
        Compilation.unresolvedReferences session.world plan.references place = []),
      plan.contracts.map fun k => (k.name, k.backing))) =
        some (true, [("ClassNGröße", model), ("ClassNC", last)]) := by
    decide +kernel
  have hclasses : ∀ c ∈ ClassId.any :: (draft.2.ledger.types ++ session.world.implicitClasses),
      session.world.Importable into c := by decide +kernel
  rcases h : draft with ⟨e | plan, d⟩
  · rw [h] at hdraft
    cases hdraft
  rw [h] at hdraft hclasses
  obtain ⟨hplan, hcontracts⟩ := Prod.mk.inj (Option.some.inj hdraft)
  obtain ⟨htidy, hclear, hruns, hreferences⟩ := of_decide_eq_true hplan
  obtain ⟨first, second, htwo⟩ := List.length_eq_two.1
    (by simpa using congrArg List.length hcontracts)
  rw [htwo] at hcontracts
  simp only [List.map_cons, List.map_nil, List.cons.injEq, Prod.mk.injEq, and_true] at hcontracts
  have hspells := spells_of_imports (imports_of_forall hclasses (by decide))
  have hplans : builder.Plans components place session plan d.ledger := ⟨d, h, rfl⟩
  have hlocated : session.files.locate place = .ok ["N.py"] := rfl
  have hcompiles := hplans.compiles rfl hspells htidy rfl session_numbered nofun rfl hlocated rfl
    hreferences (by decide) hruns
  exact ⟨plan, d.ledger, first, second, hplans, hspells, htidy, hclear, htwo, hcontracts.1, hcontracts.2,
    hcompiles⟩

end Inner

end ModelContracts
