import Mathlib.Data.List.Nodup
import ModelContracts.Proofs.Reference.Importing
import ModelContracts.Proofs.Reference.Repeating
import ModelContracts.Proofs.Source.Reading

/-!
The imports behind a sequence of demands. Each name is imported once, from a module that has under it what was
referred to. Whatever was answered before, the imports in the end have all that the answers need, and no
other modules.
-/

namespace ModelContracts

open Ledger

variable {w : World} {into : String} {P : Mention → Prop}

/-! Where the records of a ledger come from. -/

namespace Ledger

variable {l : Ledger}

/-- All that is recorded is for things of a kind, and only the modules of these are. -/
structure Grounded (w : World) (P : Mention → Prop) (l : Ledger) : Prop extends l.Rooted w P where
  modules : ∀ module, module ∈ l.modules ↔
    module ∈ l.aliased ∨ ∃ b ∈ l.bindings, b.module = module
  types : ∀ c ∈ l.types, P (.cls c)

theorem Grounded.mono {Q : Mention → Prop} (h : l.Grounded w P) (hPQ : ∀ m, P m → Q m) :
    l.Grounded w Q :=
  ⟨h.toRooted.mono hPQ, h.modules, fun c hc => hPQ _ (h.types c hc)⟩

theorem grounded_empty : Grounded w P {} := ⟨⟨List.nodup_nil, nofun, nofun⟩, by simp, nofun⟩

theorem Grounded.reserve (h : l.Grounded w P) (name : String) : (l.reserve name).Grounded w P :=
  ⟨⟨h.nodup, h.made, h.aliased⟩, h.modules, h.types⟩

theorem Grounded.addType (h : l.Grounded w P) {c : ClassId} (hc : P (.cls c)) :
    ({ l with types := addOnce c l.types } : Ledger).Grounded w P := by
  refine ⟨⟨h.nodup, h.made, h.aliased⟩, h.modules, fun d hd => ?_⟩
  rcases mem_addOnce.1 hd with rfl | hd
  · exact hc
  · exact h.types d hd

theorem Grounded.importAlias (h : l.Grounded w P) {m : Mention} {p : Place}
    (hp : w.placeOf? m = some p) (hm : P m) : (l.importAlias p.module).Grounded w P := by
  refine ⟨h.toRooted.importAlias hp hm, fun module => ?_, h.types⟩
  have hmodules : module ∈ (l.importAlias p.module).modules ↔
      module = p.module ∨ module ∈ l.modules := mem_addOnce
  have haliased : module ∈ (l.importAlias p.module).aliased ↔
      module = p.module ∨ module ∈ l.aliased := mem_addOnce
  rw [hmodules, haliased, h.modules module, or_assoc]
  rfl

theorem Grounded.bind (h : l.Grounded w P) {m : Mention} {p : Place} (hp : w.placeOf? m = some p)
    (hm : P m) : (l.bind p.module p.top p.anchor).Grounded w P := by
  refine ⟨h.toRooted.bind hp hm, fun module => ?_, by rw [types_bind]; exact h.types⟩
  unfold Ledger.bind
  split_ifs
  · exact h.modules module
  · have hmodules : module ∈ (addModule { l with
        bindings := l.bindings ++ [⟨p.top, p.module, p.anchor⟩] } p.module).modules ↔
          module = p.module ∨ module ∈ l.modules := mem_addOnce
    rw [hmodules, h.modules module]
    simp only [addModule, List.mem_append, List.mem_singleton, or_and_right, exists_or,
      exists_eq_left, eq_comm (a := module)]
    exact or_comm.trans or_assoc

theorem Grounded.reference (h : l.Grounded w P) {m : Mention} {p : Place} (hp : w.placeOf? m = some p)
    (hm : P m) : (l.reference p.module p.top p.path p.anchor).2.Grounded w P := by
  unfold Ledger.reference
  split_ifs
  · exact h.bind hp hm
  · exact h.importAlias hp hm

theorem Grounded.typingName (h : l.Grounded w P) {name : String} (hP : (Phrase.form name).Over P) :
    (l.typingName name).2.Grounded w P :=
  h.reference (w.placeOf?_form name) (Phrase.over_mention.1 hP).1

theorem Grounded.classText (h : l.Grounded w P) {c : ClassId} (hany : c ≠ ClassId.any)
    (hc : P (.cls c)) : (classText w l c).2.Grounded w P := by
  by_cases himplicit : isImplicit w c = true
  · unfold Ledger.classText
    rwa [if_pos himplicit]
  have hexplicit : isImplicit w c = false := Bool.not_eq_true _ ▸ himplicit
  have hplace : w.placeOf? (.cls c) = some (w.place c) := by
    simp [World.placeOf?, hany, himplicit]
  have htyped := h.addType hc
  by_cases hplaced : w.Placed c
  · rw [classText_of_placed l hexplicit hplaced]
    exact htyped.reference hplace hc
  · rcases classText_of_unplaced l hexplicit hplaced with heq | heq <;> rw [heq]
    · exact htyped
    · exact htyped.importAlias hplace hc

end Ledger

/-- What is recorded by a run that refers to mentions of a kind only is of that kind. -/
theorem Recording.Refers.grounded {α : Type} {m : Recording α} (h : Refers w P m) {l : Ledger}
    (hl : l.Grounded w P) : (m.run l).2.Grounded w P := by
  induction h generalizing l with
  | pure a => exact hl
  | throw e => exact hl
  | @cls c hc =>
    unfold className
    unfold ClassId.phrase at hc
    split_ifs at hc ⊢ with hnone hany
    · exact hl
    · subst hany
      exact hl.typingName hc
    · exact hl.classText hany (Phrase.over_mention.1 hc).1
  | form hname => exact hl.typingName hname
  | @bind _ _ m _ _ _ ihm ihf =>
    have hfirst := ihm hl
    rw [run_bind]
    rcases hm : m.run l with ⟨e | a, l'⟩ <;> rw [hm] at hfirst
    · exact hfirst
    · exact ihf a hfirst

namespace Demand

theorem grounded {r : Demand} (hr : (r.phrase w).Over P) {l : Ledger} (hl : l.Grounded w P) :
    (r.run w l).2.Grounded w P := by
  cases r with
  | type t =>
    have hgrounded := (Recording.text_refers false t hr).grounded hl
    simp only [run, Recording.type]
    split <;> next heq => rwa [heq] at hgrounded
  | form name => exact hl.typingName hr
  | reserve name => exact hl.reserve name

theorem grounded_afterAll {rs : List Demand} (hrs : ∀ r ∈ rs, (r.phrase w).Over P) {l : Ledger}
    (hl : l.Grounded w P) : (l.afterAll w rs).Grounded w P := by
  induction rs generalizing l with
  | nil => exact hl
  | cons r rs ih =>
    obtain ⟨hr, hrest⟩ := List.forall_mem_cons.1 hrs
    exact ih hrest (grounded hr hl)

end Demand

/-! The imports of a ledger. -/

namespace PlainStatement

/-- The names that are imported from a module, each for what the module has under it. -/
def importedNames : PlainStatement → List String
  | .importNames _ names => names
  | _ => []

/-- The module that is imported, or from which something is. -/
def importedFrom? : PlainStatement → Option String
  | .importNames m _ | .importModule m _ => some m
  | _ => none

end PlainStatement

namespace Ledger

variable {l L : Ledger}

/-- All names that are imported from modules, as often as they are. -/
def importedNames (L : Ledger) : List String := L.imports.flatMap (·.importedNames)

theorem importedNames_eq : L.importedNames = L.importedModules.flatMap L.namesFrom := by
  have hwhole : ((Text.sorted L.aliased).map fun m =>
      PlainStatement.importModule m (moduleAlias m)).flatMap (·.importedNames) = [] := by
    simp [List.flatMap_eq_nil_iff, PlainStatement.importedNames]
  rw [importedNames, imports, List.flatMap_append, hwhole, List.append_nil, List.flatMap_map]
  rfl

theorem mem_importedNames {name : String} :
    name ∈ L.importedNames ↔ ∃ b ∈ L.bindings, b.name = name := by
  simp only [importedNames_eq, List.mem_flatMap, mem_importedModules, mem_namesFrom]
  constructor
  · rintro ⟨m, -, b, hb, -, hname⟩
    exact ⟨b, hb, hname⟩
  · rintro ⟨b, hb, hname⟩
    exact ⟨b.module, ⟨b, hb, rfl⟩, b, hb, rfl, hname⟩

theorem binding?_eq_none_iff {name : String} : l.binding? name = none ↔ name ∉ l.importedNames := by
  simp [binding?, mem_importedNames]

theorem nodup_importedModules (L : Ledger) : L.importedModules.Nodup := by
  have hfold : ∀ (bs : List Binding) (ms : List String), ms.Nodup →
      (bs.foldl (fun ms b => addOnce b.module ms) ms).Nodup := by
    intro bs
    induction bs with
    | nil => exact fun _ h => h
    | cons b bs ih =>
      intro ms hms
      refine ih _ ?_
      dsimp only
      unfold addOnce
      split_ifs with hmem
      · exact hms
      · exact List.nodup_append_comm.1 (List.nodup_cons.2 ⟨hmem, hms⟩)
  exact (Text.sorted_perm _).nodup_iff.2 (hfold _ _ List.nodup_nil)

/-- Where each name is bound once, it is imported once. -/
theorem nodup_importedNames (h : (L.bindings.map (·.name)).Nodup) : L.importedNames.Nodup := by
  rw [importedNames_eq, List.nodup_flatMap]
  refine ⟨fun m _ => (Text.sorted_perm _).nodup_iff.2 (h.sublist (List.filter_sublist.map _)), ?_⟩
  refine (nodup_importedModules L).imp fun hne n hn hn' => hne ?_
  obtain ⟨b, hb, rfl, hname⟩ := mem_namesFrom.1 hn
  obtain ⟨b', hb', rfl, hname'⟩ := mem_namesFrom.1 hn'
  rw [List.inj_on_of_nodup_map h hb hb' (hname.trans hname'.symm)]

theorem mem_references {module : String} : module ∈ L.references ↔ module ∈ L.modules :=
  mem_sorted

/-- The modules that the imports name have names bound, or an alias. -/
theorem exists_importedFrom {module : String} :
    (∃ p ∈ L.imports, p.importedFrom? = some module) ↔
      module ∈ L.aliased ∨ ∃ b ∈ L.bindings, b.module = module := by
  simp only [imports, List.mem_append, List.mem_map, or_and_right, exists_or, exists_exists_and_eq_and,
    mem_sorted, mem_importedModules, PlainStatement.importedFrom?, Option.some.injEq]
  rw [or_comm]
  simp

theorem Grounded.legible (h : L.Grounded w (w.Mentionable into)) : L.Legible where
  bindings b hb := by
    obtain ⟨m, p, hp, hm, rfl⟩ := h.made b hb
    have hplain := hm.plain hp
    exact ⟨hplain.top, hplain.module, hplain.present⟩
  aliased module hmodule := by
    obtain ⟨m, p, hp, hm, rfl⟩ := h.aliased module hmodule
    exact (hm.plain hp).module

theorem Grounded.sure (h : L.Grounded w (w.Mentionable into)) : L.Sure w :=
  fun c hc => (show w.Importable into c from h.types c hc).placed

end Ledger

/-! What answers need. -/

/-- The imports have what a mention goes by. -/
inductive Covered (w : World) (L : Ledger) : Mention → Prop
  /-- A builtin class goes by its own name. -/
  | builtin {m : Mention} (hp : w.placeOf? m = none) (hname : L.nameOf w m = m.ownName) : Covered w L m
  /-- The first name of a class is imported from a module that has the same under it as the class's own,
  and the others lead from there to the class. -/
  | cls {c d : ClassId} {module : String} {names : List String}
    (hname : L.nameOf w (.cls c) = c.qualName) (himport : .importNames module names ∈ L.imports)
    (htop : Text.firstPiece '.' c.qualName ∈ names)
    (hheld : w.Holds module (Text.firstPiece '.' c.qualName) d)
    (hown : w.Holds c.moduleName (Text.firstPiece '.' c.qualName) d)
    (hinner : w.inner? d (Text.split '.' c.qualName).tail = some c) : Covered w L (.cls c)
  | form {n : String} {names : List String} (hname : L.nameOf w (.form n) = n)
    (himport : .importNames "typing" names ∈ L.imports) (hmem : n ∈ names) : Covered w L (.form n)
  /-- A class that goes by the alias of its module has this module imported under the alias. -/
  | qualifiedClass {c : ClassId} (hname : L.nameOf w (.cls c) = qualified c.moduleName c.qualName)
    (himport : .importModule c.moduleName (moduleAlias c.moduleName) ∈ L.imports) : Covered w L (.cls c)
  | qualifiedForm {n : String} (hname : L.nameOf w (.form n) = qualified "typing" n)
    (himport : .importModule "typing" (moduleAlias "typing") ∈ L.imports) : Covered w L (.form n)

namespace Ledger

variable {L : Ledger}

theorem importNames_mem {b : Binding} (hb : b ∈ L.bindings) :
    .importNames b.module (L.namesFrom b.module) ∈ L.imports ∧ b.name ∈ L.namesFrom b.module :=
  ⟨List.mem_append_left _ (List.mem_map_of_mem (mem_importedModules.2 ⟨b, hb, rfl⟩)),
    mem_namesFrom.2 ⟨b, hb, rfl, rfl⟩⟩

theorem importModule_mem {module : String} (h : module ∈ L.aliased) :
    .importModule module (moduleAlias module) ∈ L.imports :=
  List.mem_append_right _ (List.mem_map_of_mem (mem_sorted.2 h))

theorem binding?_mem {name : String} {b : Binding} (h : L.binding? name = some b) :
    b ∈ L.bindings ∧ b.name = name := by
  have hname := List.find?_some h
  exact ⟨List.mem_of_find?_eq_some h, of_decide_eq_true hname⟩

/-- What has a name is covered. -/
theorem Grounded.covered (h : L.Grounded w (w.Mentionable into)) {m : Mention}
    (hm : w.Mentionable into m) (hnames : ∀ p, w.placeOf? m = some p → L.Names p (L.nameOf w m)) :
    Covered w L m := by
  rcases hp : w.placeOf? m with _ | p
  · exact .builtin hp (by rw [nameOf, hp])
  have hname := hnames p hp
  generalize hs : L.nameOf w m = s at hname
  cases m with
  | cls c =>
    have himportable : w.Importable into c := hm
    obtain ⟨hmodule, hpath, d, hfound⟩ := himportable.place hp
    have htop : p.top = Text.firstPiece '.' c.qualName := hfound.top.trans (by rw [hpath])
    cases hname with
    | @bound b hb ha =>
      obtain ⟨hmem, hbname⟩ := binding?_mem hb
      obtain ⟨himport, hnamed⟩ := importNames_mem hmem
      obtain ⟨m', p', hp', hm', rfl⟩ := h.made b hmem
      -- the name may have been bound for another class, with the same anchor from another module
      have hheld := (hm'.held hp' (ha.trans hfound.anchor)).2
      have hown : w.Holds p.module p.top d := hfound.held
      have hinner := hfound.inner
      dsimp only at hbname
      rw [hbname, htop] at hheld hnamed
      rw [hmodule, htop] at hown
      rw [hpath] at hs hinner
      exact .cls hs himport hnamed hheld hown hinner
    | qualified _ haliased =>
      rw [hmodule] at hs haliased
      rw [hpath] at hs
      exact .qualifiedClass hs (importModule_mem haliased)
  | form n =>
    cases hp
    cases hname with
    | @bound b hb ha =>
      obtain ⟨hmem, hbname⟩ := binding?_mem hb
      obtain ⟨himport, hnamed⟩ := importNames_mem hmem
      obtain ⟨m', p', hp', hm', rfl⟩ := h.made b hmem
      dsimp only at hbname
      rw [hm'.typing hp' ha] at himport hnamed
      rw [hbname] at hnamed
      exact .form hs himport hnamed
    | qualified _ haliased => exact .qualifiedForm hs (importModule_mem haliased)
  | builtin n => cases hp

end Ledger

namespace Demand

variable {L : Ledger} {r : Demand} {s : String}

/-- An answer that stays has the names that the ledger gives. -/
theorem answer_named (hrun : r.run w L = (some s, L)) (hsure : L.Sure w) :
    s = (r.phrase w).text (L.nameOf w) ∧
      ∀ m ∈ (r.phrase w).mentions, ∀ p, w.placeOf? m = some p → L.Names p (L.nameOf w m) := by
  cases r with
  | type t =>
    simp only [run, Recording.type] at hrun
    rcases htext : (Recording.text w false t).run L with ⟨e | s', L'⟩ <;> rw [htext] at hrun <;>
      cases hrun
    have hwritten := (Recording.text_tells false t htext).2 L (.refl L) hsure
    exact ⟨hwritten.text, fun m hm => (hwritten.settled m hm).names⟩
  | form n =>
    have hname : L.typingName n = (s, L) := by
      have hanswer := congrArg Prod.fst hrun
      have hend := congrArg Prod.snd hrun
      exact Prod.ext (Option.some.inj hanswer) hend
    have hplace := w.placeOf?_form n
    have hgiven : L.nameOf w (if n = "Any" then .cls ClassId.any else .form n) = s := by
      unfold nameOf
      rw [hplace]
      exact congrArg Prod.fst hname
    refine ⟨?_, fun m hm p hp => ?_⟩
    · rw [phrase, Phrase.form, Phrase.text, Phrase.text, String.append_empty, hgiven]
    · rw [phrase, Phrase.form, Phrase.mentions, Phrase.mentions, List.mem_singleton] at hm
      subst hm
      rw [hplace] at hp
      cases hp
      have hnames := names_reference L
        ⟨"typing", n, n, if n = "Any" then .cls ClassId.any else .form n⟩
      have hreference : L.reference "typing" n n (if n = "Any" then .cls ClassId.any else .form n) =
        (s, L) := hname
      rw [hreference] at hnames
      rwa [hgiven]
  | reserve name => cases hrun

/-- All that is mentioned in some demands and for the host. -/
def allMentions (w : World) (host : ClassId) (rs : List Demand) : List Mention :=
  host.phrase.mentions ++ rs.flatMap fun r => (r.phrase w).mentions

/-- The imports of a ledger are those that some demands need, made one after the other. -/
structure Covers (w : World) (host : ClassId) (rs : List Demand) (L : Ledger) : Prop where
  lines : List.Forall₂ Statement.PlainLine L.importLines L.imports
  once : L.importedNames.Nodup
  /-- Each answer is written with names that the imports cover. -/
  answers : ∀ before r more s, rs = before ++ r :: more →
    (r.run w ((start w host).afterAll w before)).1 = some s →
      s = (r.phrase w).text (L.nameOf w) ∧ ∀ m ∈ (r.phrase w).mentions, Covered w L m
  /-- Only first names of what was mentioned are imported. -/
  mentioned : ∀ n ∈ L.importedNames,
    ∃ m ∈ allMentions w host rs, ∃ p, w.placeOf? m = some p ∧ p.top = n
  /-- What was kept for a contract before it was imported is never imported. -/
  kept : ∀ before more n, rs = before ++ more → n ∈ ((start w host).afterAll w before).reserved →
    n ∉ ((start w host).afterAll w before).importedNames → n ∉ L.importedNames
  modules : ∀ module, module ∈ L.references ↔ ∃ p ∈ L.imports, p.importedFrom? = some module

theorem afterAll_append (l : Ledger) (rs ts : List Demand) :
    l.afterAll w (rs ++ ts) = (l.afterAll w rs).afterAll w ts := List.foldl_append ..

theorem grounded_demands {host : ClassId} {rs : List Demand} (hhost : host.phrase.Over P)
    (hrs : ∀ r ∈ rs, (r.phrase w).Over P) : ((start w host).afterAll w rs).Grounded w P :=
  grounded_afterAll hrs ((Recording.Refers.cls hhost).grounded grounded_empty)

/-- After any demands for importable classes, the imports cover all that was answered, and no more. -/
theorem imports_cover {host : ClassId} {rs : List Demand} (hhost : host.phrase.Over (w.Mentionable into))
    (hrs : ∀ r ∈ rs, (r.phrase w).Over (w.Mentionable into)) :
    Covers w host rs ((start w host).afterAll w rs) := by
  have hL := grounded_demands hhost hrs
  constructor
  case lines => exact importLines_read hL.legible
  case once => exact nodup_importedNames hL.nodup
  case answers =>
    rintro before r more s rfl hanswer
    have hr := hrs r (List.mem_append_right _ List.mem_cons_self)
    have hplaced : ∀ c, .cls c ∈ (r.phrase w).mentions → w.Placed c :=
      fun c hc => (show w.Importable into c from hr _ hc).placed
    -- asked once more in the end, the ledger gives the same answer, with the names it has then
    have hrun := run_later hanswer hplaced (later_afterAll (w := w) _ more)
    have hsplit : (start w host).afterAll w (before ++ r :: more) =
        (r.run w ((start w host).afterAll w before)).2.afterAll w more := afterAll_append ..
    rw [hsplit] at hL ⊢
    obtain ⟨htext, hnames⟩ := answer_named hrun hL.sure
    exact ⟨htext, fun m hm => hL.covered (hr m hm) (hnames m hm)⟩
  case mentioned =>
    intro n hn
    -- the same invariant as above, for the kind of exactly what is mentioned
    have hmentioned : ((start w host).afterAll w rs).Grounded w (· ∈ allMentions w host rs) :=
      grounded_demands (fun m hm => List.mem_append_left _ hm)
        fun r hr m hm => List.mem_append_right _ (List.mem_flatMap.2 ⟨r, hr, hm⟩)
    obtain ⟨b, hb, rfl⟩ := mem_importedNames.1 hn
    obtain ⟨m, p, hp, hm, rfl⟩ := hmentioned.made b hb
    exact ⟨m, hm, p, hp, rfl⟩
  case kept =>
    rintro before more n rfl hreserved hfree
    rw [← binding?_eq_none_iff] at hfree ⊢
    rw [afterAll_append]
    exact binding?_reserved (later_afterAll _ more).bindings hfree hreserved
  case modules =>
    intro module
    rw [mem_references, hL.modules, exists_importedFrom]

end Demand

/-! A nested class, two classes of one name, and a name that is kept. -/

namespace Namesakes

def outer : ClassId := ⟨"app", "Outer", 0⟩

def inner : ClassId := ⟨"app", "Outer.Inner", 0⟩

def fullWorld : World where
  classes := [color, namesake, outer, inner, ClassId.modelNode].map fun c => { id := c, lineage := [c] }
  modules := [
    { name := "app", attributes := [("Color", .cls color), ("Outer", .cls outer)] },
    { name := "lib", attributes := [("Color", .cls namesake)] },
    { name := "modelgen.contracts", attributes := [("ModelNode", .cls ClassId.modelNode)] },
    { name := "typing", attributes := [("Optional", .other), ("Union", .other)] }]
  nested := [((outer, "Inner"), inner)]

def demands : List Demand :=
  [.type (.cls inner), .type (.cls namesake), optional color, .reserve "Union", .form "Union",
    .reserve "Outer"]

theorem demands_cover : ClassId.modelNode.phrase.Over (fullWorld.Mentionable "") ∧
    (∀ r ∈ demands, (r.phrase fullWorld).Over (fullWorld.Mentionable "")) ∧
      Demand.Covers fullWorld ClassId.modelNode demands
        ((start fullWorld ClassId.modelNode).afterAll fullWorld demands) := by
  have hhost : ClassId.modelNode.phrase.Over (fullWorld.Mentionable "") := by decide +kernel
  have hdemands : ∀ r ∈ demands, (r.phrase fullWorld).Over (fullWorld.Mentionable "") := by
    decide +kernel
  exact ⟨hhost, hdemands, Demand.imports_cover hhost hdemands⟩

example : ((start fullWorld ClassId.modelNode).afterAll fullWorld demands).importLines =
    ["from app import Outer", "from lib import Color", "from modelgen.contracts import ModelNode",
      "from typing import Optional", "import app as _app", "import typing as _typing"] := by
  decide +kernel

end Namesakes

end ModelContracts
