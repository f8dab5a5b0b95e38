import ModelContracts.Proofs.Reference.Covering
import ModelContracts.Proofs.Source.Decorating

/-!
What aliases lead to. An alias has an underscore for each character that no word has, so names of modules
that differ in such characters only share an alias, and an alias can be the same as an imported name. Aliases
are bound after all imported names, in the order of their modules. So an alias leads to the last of the
modules that share it, and an imported name that is an alias is lost.
-/

namespace ModelContracts

open Ledger

/-! Names that share an alias. -/

namespace Text

/-- Characters for which the same stands in an alias. -/
def AlikeChars (c d : Char) : Prop := c = d ∨ wordOrUnderscore c = '_' ∧ wordOrUnderscore d = '_'

/-- Names that are equal up to characters for which an underscore stands in an alias. -/
def Alike (m n : String) : Prop := List.Forall₂ AlikeChars m.toList n.toList

theorem wordOrUnderscore_eq_or (c : Char) : wordOrUnderscore c = c ∨ wordOrUnderscore c = '_' := by
  unfold wordOrUnderscore
  split_ifs
  · exact Or.inl rfl
  · exact Or.inr rfl

theorem wordOrUnderscore_eq_iff {c d : Char} :
    wordOrUnderscore c = wordOrUnderscore d ↔ AlikeChars c d := by
  constructor
  · intro h
    rcases wordOrUnderscore_eq_or c with hc | hc
    · rcases wordOrUnderscore_eq_or d with hd | hd
      · exact Or.inl (hc.symm.trans (h.trans hd))
      · exact Or.inr ⟨h.trans hd, hd⟩
    · exact Or.inr ⟨hc, h.symm.trans hc⟩
  · rintro (rfl | ⟨hc, hd⟩)
    · rfl
    · rw [hc, hd]

/-- Two modules share an alias just when their names are alike. -/
theorem moduleAlias_eq_iff {m n : String} : moduleAlias m = moduleAlias n ↔ Alike m n := by
  have hchars : moduleAlias m = moduleAlias n ↔
      m.toList.map wordOrUnderscore = n.toList.map wordOrUnderscore := by
    rw [← String.toList_inj]
    simp only [moduleAlias, String.toList_append, String.toList_ofList, List.append_cancel_left_eq]
  rw [hchars, ← List.forall₂_eq_eq_eq, List.forall₂_map_left_iff, List.forall₂_map_right_iff]
  simp only [wordOrUnderscore_eq_iff, Alike]

/-- Names without underscores, in which dots alone stand between words, are alike only when they are the
same. -/
theorem alike_iff_eq {m n : String} (hm : ∀ c ∈ m.toList, wordOrUnderscore c = '_' → c = '.')
    (hn : ∀ c ∈ n.toList, wordOrUnderscore c = '_' → c = '.') : Alike m n ↔ m = n := by
  rw [Alike, ← String.toList_inj, ← List.forall₂_eq_eq_eq]
  generalize m.toList = cs at hm
  generalize n.toList = ds at hn
  constructor
  · intro h
    induction h with
    | nil => exact .nil
    | @cons c d _ _ hcd _ ih =>
      obtain ⟨hc, hcs⟩ := List.forall_mem_cons.1 hm
      obtain ⟨hd, hds⟩ := List.forall_mem_cons.1 hn
      refine .cons ?_ (ih hcs hds)
      rcases hcd with rfl | ⟨hgap, hgap'⟩
      · rfl
      · rw [hc hgap, hd hgap']
  · exact fun h => h.imp fun _ _ => Or.inl

end Text

/-! Imports that succeed. -/

namespace PlainStatement

/-- An import of a module that is there, with all names that are imported from it. -/
def Available (w : World) : PlainStatement → Prop
  | .importNames m names =>
    (w.import? m).isOk = true ∧ ∀ n ∈ names, (w.attribute? (.module m) n).isSome = true
  | .importModule m _ => (w.import? m).isOk = true
  | _ => False

theorem Available.isImport {w : World} {p : PlainStatement} (h : p.Available w) : p.IsImport := by
  cases p <;> trivial

end PlainStatement

namespace Execution

variable {x y : Execution} {line : Nat}

theorem foldlM_importName_ok {m : String} {names : List String}
    (h : ∀ n ∈ names, (x.world.attribute? (.module m) n).isSome = true) :
    ∃ y, names.foldlM (importName line m) x = .ok y := by
  induction names generalizing x with
  | nil => exact ⟨x, rfl⟩
  | cons n rest ih =>
    obtain ⟨hn, hrest⟩ := List.forall_mem_cons.1 h
    obtain ⟨e, he⟩ := Option.isSome_iff_exists.1 hn
    have hfirst : importName line m x n = .ok (x.set n e) := by rw [importName, he]
    rw [List.foldlM_cons, hfirst]
    exact @ih (x.set n e) hrest

theorem runPlain_available (line : Nat) {p : PlainStatement} (h : p.Available x.world) :
    ∃ y, runPlain line x p = .ok y := by
  cases p with
  | importNames m names =>
    obtain ⟨himport, hnames⟩ := h
    simp only [runPlain, runSimple, importNames]
    split
    next heq =>
      rw [heq] at himport
      cases himport
    · exact foldlM_importName_ok hnames
  | importModule m n =>
    have himport : (x.world.import? m).isOk = true := h
    simp only [runPlain, runSimple, importModule]
    split
    next heq =>
      rw [heq] at himport
      cases himport
    · exact ⟨_, rfl⟩
  | _ => exact h.elim

theorem runAll_available {ps : List PlainStatement} {sts : List Statement}
    (hread : List.Forall₂ Statement.IsPlain ps sts) (h : ∀ p ∈ ps, p.Available x.world) :
    ∃ y, x.runAll sts = .ok y := by
  induction hread generalizing x with
  | nil => exact ⟨x, rfl⟩
  | @cons p s ps sts hp _ ih =>
    obtain ⟨n, rfl⟩ := hp
    obtain ⟨hfirst, hrest⟩ := List.forall_mem_cons.1 h
    obtain ⟨x₁, hx₁⟩ := runPlain_available n hfirst
    have hworld := (runPlain_gives hx₁ hfirst.isImport).1
    obtain ⟨y, hy⟩ := ih (hworld ▸ hrest)
    refine ⟨y, ?_⟩
    have hrun : x.run (.plain n p) = .ok x₁ := hx₁
    rw [runAll, List.foldlM_cons, hrun]
    exact hy

/-- A name has what the last import gives to it that binds it. -/
theorem runAll_last {before after : List PlainStatement} {p : PlainStatement} {sts : List Statement}
    {name : String} (hread : List.Forall₂ Statement.IsPlain (before ++ p :: after) sts)
    (himports : ∀ q ∈ before ++ p :: after, q.IsImport) (h : x.runAll sts = .ok y)
    (hp : name ∈ p.binds) (hafter : ∀ q ∈ after, name ∉ q.binds) :
    ∃ e, p.Gives x.world name e ∧ y.attributes.lookup name = some e := by
  obtain ⟨sts₁, sts₂, rfl, hbefore, hrest⟩ := Blueprint.forall₂_append hread
  obtain ⟨z, hz, hy⟩ := runAll_append h
  obtain ⟨hworld, -⟩ := runAll_imports hbefore (fun q hq => himports q (List.mem_append_left _ hq)) hz
  obtain ⟨-, -, -, hnames⟩ :=
    runAll_imports hrest (fun q hq => himports q (List.mem_append_right _ hq)) hy
  obtain ⟨q, hq, hbinds, e, he, hlookup⟩ := (hnames name).2 ⟨p, List.mem_cons_self, hp⟩
  rcases List.mem_cons.1 hq with rfl | hq
  · exact ⟨e, hworld ▸ he, hlookup⟩
  · exact (hafter q hq hbinds).elim

end Execution

/-! What the names lead to. -/

namespace Ledger

variable {L : Ledger} {x y : Execution} {sts : List Statement}

theorem exists_last {α : Type} {p : α → Prop} [DecidablePred p] {l : List α} (h : ∃ a ∈ l, p a) :
    ∃ before a after, l = before ++ a :: after ∧ p a ∧ ∀ b ∈ after, ¬ p b := by
  induction l with
  | nil => simp at h
  | cons c l ih =>
    by_cases hlater : ∃ a ∈ l, p a
    · obtain ⟨before, a, after, rfl, ha, hafter⟩ := ih hlater
      exact ⟨c :: before, a, after, rfl, ha, hafter⟩
    · obtain ⟨a, ha, hpa⟩ := h
      rcases List.mem_cons.1 ha with rfl | ha
      · exact ⟨[], a, l, rfl, hpa, fun b hb hpb => hlater ⟨b, hb, hpb⟩⟩
      · exact (hlater ⟨a, ha, hpa⟩).elim

theorem isImport_of_mem {p : PlainStatement} (h : p ∈ L.imports) : p.IsImport := by
  rcases List.mem_append.1 h with h | h
  · obtain ⟨m, -, rfl⟩ := List.mem_map.1 h
    trivial
  · obtain ⟨m, -, rfl⟩ := List.mem_map.1 h
    trivial

/-- An alias leads to the last of the modules that share it. -/
theorem lookup_alias (hread : List.Forall₂ Statement.IsPlain L.imports sts) (h : x.runAll sts = .ok y)
    {m : String} (hm : m ∈ L.aliased) : ∃ n ∈ L.aliased, Text.Alike n m ∧
      (∀ k ∈ L.aliased, Text.Alike k m → k ≤ n) ∧
        y.attributes.lookup (moduleAlias m) = some (.module n) := by
  obtain ⟨before, n, after, hsplit, hn, hafter⟩ := exists_last
    (p := fun k => moduleAlias k = moduleAlias m) ⟨m, mem_sorted.2 hm, rfl⟩
  have hmem {k : String} : k ∈ L.aliased ↔ k ∈ before ++ n :: after := by rw [← hsplit, mem_sorted]
  have himports : L.imports = (L.importedModules.map (fun m => .importNames m (L.namesFrom m)) ++
      before.map fun m => .importModule m (moduleAlias m)) ++ .importModule n (moduleAlias n) ::
        after.map fun m => .importModule m (moduleAlias m) := by
    rw [imports, hsplit, List.map_append, List.map_cons, List.append_assoc]
  have hall : ∀ p ∈ L.imports, p.IsImport := fun p => isImport_of_mem
  rw [himports] at hread hall
  have hlast : ∀ q ∈ after.map fun m => PlainStatement.importModule m (moduleAlias m),
      moduleAlias m ∉ q.binds := by
    intro q hq hbinds
    obtain ⟨k, hk, rfl⟩ := List.mem_map.1 hq
    exact hafter k hk (List.mem_singleton.1 hbinds).symm
  obtain ⟨e, ⟨-, he⟩, hlookup⟩ :=
    Execution.runAll_last hread hall h (List.mem_singleton.2 hn.symm) hlast
  rw [if_neg (Blueprint.moduleAlias_ne_firstPiece n)] at he
  refine ⟨n, hmem.2 (by simp), Text.moduleAlias_eq_iff.1 hn, fun k hk halike => ?_, he ▸ hlookup⟩
  -- what stands behind `n` shares no alias with it, and what stands before it is less
  have hordered := Text.sorted_pairwise L.aliased
  rw [hsplit, List.pairwise_append] at hordered
  rcases List.mem_append.1 (hmem.1 hk) with hk | hk
  · exact hordered.2.2 k hk n List.mem_cons_self
  · rcases List.mem_cons.1 hk with rfl | hk
    · exact String.le_refl k
    · exact (hafter k hk (Text.moduleAlias_eq_iff.2 halike)).elim

/-- An imported name that is no alias has what was imported under it. -/
theorem lookup_name (hnodup : (L.bindings.map (·.name)).Nodup)
    (hread : List.Forall₂ Statement.IsPlain L.imports sts) (h : x.runAll sts = .ok y) {b : Binding}
    (hb : b ∈ L.bindings) (hfree : ∀ m ∈ L.aliased, moduleAlias m ≠ b.name) :
    ∃ e, x.world.attribute? (.module b.module) b.name = some e ∧
      y.attributes.lookup b.name = some e := by
  obtain ⟨-, -, -, hnames⟩ := Execution.runAll_imports hread (fun p => isImport_of_mem) h
  obtain ⟨himport, hname⟩ := importNames_mem hb
  obtain ⟨p, hp, hbinds, e, he, hlookup⟩ := (hnames b.name).2 ⟨_, himport, hname⟩
  rcases List.mem_append.1 hp with hp | hp
  · obtain ⟨m, -, rfl⟩ := List.mem_map.1 hp
    obtain ⟨γ, hγ, rfl, hsame⟩ := mem_namesFrom.1 hbinds
    obtain rfl : γ = b := List.inj_on_of_nodup_map hnodup hγ hb hsame
    exact ⟨e, he.2, hlookup⟩
  · obtain ⟨m, hm, rfl⟩ := List.mem_map.1 hp
    exact (hfree m (mem_sorted.1 hm) (List.mem_singleton.1 hbinds).symm).elim

/-- The statements as which the lines of imports are read. -/
def importStatements (L : Ledger) : List Statement :=
  Statement.ofBlocks [] (Statement.blocks (Statement.numbered 1 (L.importLines.map String.toList)))

theorem importStatements_read (h : L.Legible) :
    List.Forall₂ Statement.IsPlain L.imports L.importStatements := by
  obtain ⟨sts, hsts, hread⟩ := Statement.ofBlocks_plains (importLines_read h) 1 []
  rw [List.append_nil] at hsts
  rw [importStatements, hsts]
  exact (List.append_nil sts).symm ▸ hread

end Ledger

namespace World

variable {w : World} {into : String}

/-- What can be mentioned and imported: its module is there, and has its first name. -/
def Available (w : World) (into : String) (m : Mention) : Prop :=
  w.Mentionable into m ∧ ((w.placeOf? m).all fun p =>
    (w.import? p.module).isOk && (w.attribute? (.module p.module) p.top).isSome) = true

instance (w : World) (into : String) : DecidablePred (w.Available into) :=
  fun _ => inferInstanceAs (Decidable (_ ∧ _))

theorem Available.present {m : Mention} {p : Place} (h : w.Available into m)
    (hp : w.placeOf? m = some p) :
    (w.import? p.module).isOk = true ∧ (w.attribute? (.module p.module) p.top).isSome = true := by
  have hpresent := h.2
  rw [hp, Option.all_some, Bool.and_eq_true] at hpresent
  exact hpresent

theorem Holds.attribute? {module name : String} {d : ClassId} (h : w.Holds module name d) :
    ∃ e, w.attribute? (.module module) name = some e ∧ e.class? = some d := by
  obtain ⟨k, e, hk, he, hd⟩ := h
  refine ⟨e, ?_, hd⟩
  rw [World.attribute?, hk, Option.bind_some, he]

end World

namespace Ledger

variable {w : World} {into : String} {L : Ledger} {x y : Execution}

theorem Grounded.available (h : L.Grounded w (w.Available into)) :
    ∀ s ∈ L.imports, s.Available w := by
  intro s hs
  rcases List.mem_append.1 hs with hs | hs
  · obtain ⟨module, hmodule, rfl⟩ := List.mem_map.1 hs
    refine ⟨?_, fun n hn => ?_⟩
    · obtain ⟨b, hb, rfl⟩ := mem_importedModules.1 hmodule
      obtain ⟨m, p, hp, hm, heq⟩ := h.made b hb
      rw [heq]
      exact (hm.present hp).1
    · obtain ⟨b, hb, rfl, rfl⟩ := mem_namesFrom.1 hn
      obtain ⟨m, p, hp, hm, heq⟩ := h.made b hb
      rw [heq]
      exact (hm.present hp).2
  · obtain ⟨module, hmodule, rfl⟩ := List.mem_map.1 hs
    obtain ⟨m, p, hp, hm, rfl⟩ := h.aliased module (mem_sorted.1 hmodule)
    exact (hm.present hp).1

/-- Where the names in a source lead that has run the imports of a ledger. -/
structure Denotes (w : World) (into : String) (L : Ledger) (y : Execution) : Prop where
  /-- An alias leads to its module, unless one with an alike name comes later in order. -/
  aliases : ∀ m ∈ L.aliased, y.attributes.lookup (moduleAlias m) = some (.module m) ↔
    ∀ n ∈ L.aliased, Text.Alike n m → n ≤ m
  /-- An imported name leads to its class, unless it is an alias. -/
  names : ∀ b ∈ L.bindings, ∀ d, b.anchor = .cls d →
    ((∃ e, y.attributes.lookup b.name = some e ∧ e.class? = some d) ↔
      ∀ m ∈ L.aliased, moduleAlias m ≠ b.name)
  /-- A class that goes by the alias of its module is found, if the alias leads to the module. -/
  classes : ∀ c, w.Importable into c → c.moduleName ∈ L.aliased →
    (∀ n ∈ L.aliased, Text.Alike n c.moduleName → n ≤ c.moduleName) →
      ∀ line, ∃ e, y.resolve line (qualified c.moduleName c.qualName) = .ok e ∧ e.class? = some c

/-- A class is found through its module. -/
theorem resolve_class {c : ClassId} (hc : y.world.Importable into c)
    (halias : y.attributes.lookup (moduleAlias c.moduleName) = some (.module c.moduleName))
    (line : Nat) :
    ∃ e, y.resolve line (qualified c.moduleName c.qualName) = .ok e ∧ e.class? = some c := by
  obtain ⟨m, e, d, hm, he, hd, hinner⟩ := hc.found
  obtain ⟨e₁, hattribute, hclass⟩ := World.Holds.attribute? ⟨m, e, hm, he, hd⟩
  obtain ⟨e₂, hwalk, hfinal⟩ := Execution.walk_inner line hclass hinner
  refine ⟨e₂, ?_, hfinal⟩
  rw [Execution.resolve_qualified halias, Text.split_eq, Execution.walk, hattribute]
  exact hwalk

theorem Grounded.denotes (h : L.Grounded w (w.Available into))
    {sts : List Statement} (hread : List.Forall₂ Statement.IsPlain L.imports sts)
    (hrun : x.runAll sts = .ok y) (hworld : x.world = w) : L.Denotes w into y := by
  have haliases : ∀ m ∈ L.aliased, y.attributes.lookup (moduleAlias m) = some (.module m) ↔
      ∀ n ∈ L.aliased, Text.Alike n m → n ≤ m := by
    intro m hm
    obtain ⟨n, hn, halike, hlast, hlookup⟩ := lookup_alias hread hrun hm
    rw [hlookup]
    constructor
    · intro heq k hk hkm
      cases heq
      exact hlast k hk hkm
    · intro hall
      have hself : Text.Alike m m := Text.moduleAlias_eq_iff.1 rfl
      rw [String.le_antisymm (hall n hn halike) (hlast m hm hself)]
  constructor
  case aliases => exact haliases
  case names =>
    intro b hb d hd
    constructor
    · rintro ⟨e, he, hclass⟩ m hm hname
      -- the alias has a module, which is no class
      obtain ⟨n, -, -, -, hlookup⟩ := lookup_alias hread hrun hm
      rw [← hname, hlookup] at he
      cases he
      cases hclass
    · intro hfree
      obtain ⟨e, he, hlookup⟩ := lookup_name h.nodup hread hrun hb hfree
      obtain ⟨m, p, hp, hm, rfl⟩ := h.made b hb
      obtain ⟨e', he', hclass⟩ := (hm.1.held hp hd).2.attribute?
      rw [hworld] at he
      obtain rfl : e' = e := Option.some.inj (he'.symm.trans he)
      exact ⟨e', hlookup, hclass⟩
  case classes =>
    intro c hc hm hlast line
    obtain ⟨hsame, -⟩ := Execution.runAll_imports hread (fun p => isImport_of_mem) hrun
    exact resolve_class (hsame.trans hworld ▸ hc) ((haliases _ hm).2 hlast) line

end Ledger

/-- After any demands two modules have the same alias just when their names are alike. If the classes can be
imported, the imports run, and then each alias leads to its module, and each imported name to its class,
unless an alias that is bound later is the same. -/
theorem Demand.aliases_denote (w : World) (host : ClassId) (rs : List Demand) :
    (∀ m ∈ ((start w host).afterAll w rs).aliased, ∀ n ∈ ((start w host).afterAll w rs).aliased,
      moduleAlias m = moduleAlias n ↔ Text.Alike m n) ∧
    ∀ {into : String}, host.phrase.Over (w.Available into) →
      (∀ r ∈ rs, (r.phrase w).Over (w.Available into)) → ∀ {x : Execution}, x.world = w →
        ∃ y, x.runAll ((start w host).afterAll w rs).importStatements = .ok y ∧
          ((start w host).afterAll w rs).Denotes w into y := by
  refine ⟨fun m _ n _ => Text.moduleAlias_eq_iff, fun {into} hhost hrs {x} hworld => ?_⟩
  subst hworld
  have hL := grounded_demands hhost hrs
  have hread := importStatements_read (hL.mono fun _ h => h.1).legible
  obtain ⟨y, hy⟩ := Execution.runAll_available hread hL.available
  exact ⟨y, hy, hL.denotes hread hy rfl⟩

/-! Modules whose names are alike, and a class that is named as an alias. -/

namespace Namesakes

def execution : Execution := { world := fullWorld, name := "contracts", number := 1 }

theorem demands_denote : ClassId.modelNode.phrase.Over (fullWorld.Available "") ∧
    (∀ r ∈ demands, (r.phrase fullWorld).Over (fullWorld.Available "")) ∧
      ∃ y, execution.runAll
          ((start fullWorld ClassId.modelNode).afterAll fullWorld demands).importStatements = .ok y ∧
        ((start fullWorld ClassId.modelNode).afterAll fullWorld demands).Denotes fullWorld "" y := by
  have hhost : ClassId.modelNode.phrase.Over (fullWorld.Available "") := by decide +kernel
  have hdemands : ∀ r ∈ demands, (r.phrase fullWorld).Over (fullWorld.Available "") := by
    decide +kernel
  exact ⟨hhost, hdemands,
    (Demand.aliases_denote fullWorld ClassId.modelNode demands).2 hhost hdemands rfl⟩

def dotted : ClassId := ⟨"lib.x", "N", 0⟩

def underscored : ClassId := ⟨"lib_x", "N", 0⟩

def aliasNamed : ClassId := ⟨"lib", "_lib_x", 0⟩

def alikeWorld : World where
  classes := [dotted, underscored, aliasNamed].map fun c => { id := c, lineage := [c] }
  modules := [
    { name := "lib", attributes := [("_lib_x", .cls aliasNamed)] },
    { name := "lib.x", attributes := [("N", .cls dotted)] },
    { name := "lib_x", attributes := [("N", .cls underscored)] }]

def mixed : Ledger :=
  (start alikeWorld ClassId.modelNode).afterAll alikeWorld
    [.type (.cls aliasNamed), .reserve "N", .type (.cls dotted), .type (.cls underscored)]

/-- Two modules share an alias, which is an imported name as well, and two classes have one text. -/
theorem mixed_aliases : "lib.x" ∈ mixed.aliased ∧ "lib_x" ∈ mixed.aliased ∧
    moduleAlias "lib.x" = moduleAlias "lib_x" ∧ moduleAlias "lib.x" ∈ mixed.importedNames ∧
      dotted ≠ underscored ∧
        ((Demand.type (.cls dotted)).run alikeWorld mixed).1 = some "_lib_x.N" ∧
          ((Demand.type (.cls underscored)).run alikeWorld mixed).1 = some "_lib_x.N" := by
  decide +kernel

end Namesakes

end ModelContracts
