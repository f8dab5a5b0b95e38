import ModelContracts.Proofs.Source.Resolving
import ModelContracts.Proofs.Synthesis.Wording

/-!
The decorators above a contract. The lines of a header are read as calls of the marker classes, by the
names that the ledger gives, and of a name that is bound or qualified for a top-level class the class is
found. So the class of a contract gets the marker that records the full name of the class behind it.
-/

namespace ModelContracts

open Ledger Text

/-- What stands for a class is the class itself, and not a value that holds it. -/
def Entity.isDirect : Entity → Bool
  | .value (.type (.cls _)) => false
  | _ => true

theorem Entity.eq_of_isDirect {e : Entity} {c : ClassId} (h : e.isDirect = true)
    (hc : e.class? = some c) : e = .cls c := by
  unfold class? at hc
  split at hc
  · rw [Option.some.inj hc]
  · cases h
  · cases hc

/-- The marker classes for contracts are in their module, no submodule of the module that is made goes by
their names, and each class that a module has stands for itself. -/
structure World.Stocked (w : World) (into : String) : Prop where
  markers : ∀ s : MarkerShape, s.onClasses = true → w.find? s.kind = some (Standard.markerClass s)
  held : ∃ k, w.module? "modelgen.markers" = some k ∧ ∀ s : MarkerShape, s.onClasses = true →
    k.attributes.lookup s.kind.qualName = some (.cls s.kind)
  apart : ∀ s : MarkerShape, s.onClasses = true →
    w.hasModule (into ++ "." ++ s.kind.qualName) = false
  direct : ∀ name m, w.module? name = some m → ∀ a ∈ m.attributes, a.2.isDirect = true

namespace Statement

theorem decorator_call (n : Nat) {name : String} (inner : List Char) (h : Plain name) :
    decorator n ('@' :: (name.toList ++ '(' :: (inner ++ [')']))) = ⟨n, name, text? inner⟩ := by
  have hname : '(' ∉ name.toList := h.not_mem (by decide)
  rw [decorator, List.drop_succ_cons, List.drop_zero, called_append inner hname]
  simp [string_of_plain h]

end Statement

namespace Synthesizer

variable {s : Synthesizer} {L : Ledger}

/-- The decorator that records the name of a class. -/
def identityDecorator (w : World) (L : Ledger) (c : ClassId) (n : Nat) : Decorator :=
  ⟨n, L.nameOf w (.cls MarkerShape.className.kind), some c.fullName⟩

def abstractDecorator (w : World) (L : Ledger) (n : Nat) : Decorator :=
  ⟨n, L.nameOf w (.cls MarkerShape.modelAbstractClass.kind), none⟩

theorem decorator_identity (hspells : s.world.Spells L) {c : ClassId} (n : Nat)
    (h : L.Settled s.world (.cls MarkerShape.className.kind)) :
    Statement.decorator n ((identityPhrase c).text (L.nameOf s.world)).toList =
      identityDecorator s.world L c n := by
  have hplain := plain_nameOf hspells h
  have htext : (identityPhrase c).text (L.nameOf s.world) =
      "@" ++ (L.nameOf s.world (.cls MarkerShape.className.kind) ++ ("(" ++
        (Text.quote c.fullName ++ (")" ++ "")))) := rfl
  have hchars : ((identityPhrase c).text (L.nameOf s.world)).toList =
      '@' :: ((L.nameOf s.world (.cls MarkerShape.className.kind)).toList ++
        '(' :: (quotedChars c.fullName.toList ++ [')'])) := by
    rw [htext]
    simp [Text.quote, String.toList_append]
  rw [hchars, Statement.decorator_call n _ hplain, Statement.text?_quotedChars]
  rfl

theorem decorator_abstract (hspells : s.world.Spells L) (n : Nat)
    (h : L.Settled s.world (.cls MarkerShape.modelAbstractClass.kind)) :
    Statement.decorator n (Phrase.text (L.nameOf s.world)
      (.word "@" :: MarkerShape.modelAbstractClass.kind.ownCallPhrase)).toList =
        abstractDecorator s.world L n := by
  have hplain := plain_nameOf hspells h
  have htext : Phrase.text (L.nameOf s.world)
      (.word "@" :: MarkerShape.modelAbstractClass.kind.ownCallPhrase) =
        "@" ++ (L.nameOf s.world (.cls MarkerShape.modelAbstractClass.kind) ++ ("()" ++ "")) := rfl
  have hchars : (Phrase.text (L.nameOf s.world)
      (.word "@" :: MarkerShape.modelAbstractClass.kind.ownCallPhrase)).toList =
        '@' :: ((L.nameOf s.world (.cls MarkerShape.modelAbstractClass.kind)).toList ++
          '(' :: ([] ++ [')'])) := by
    rw [htext]
    simp [String.toList_append]
  rw [hchars, Statement.decorator_call n _ hplain]
  rfl

/-- The lines above a contract are read as the decorators for which they were written. -/
theorem decoratorsOf_header (hspells : s.world.Spells L) {c : ClassId} {isAbstract : Bool}
    {header : List String} (h : WrittenAll s.world L (headerPhrases c isAbstract) header) (n : Nat) :
    Statement.decoratorsOf n header = identityDecorator s.world L c n ::
      if isAbstract then [abstractDecorator s.world L (n + 1)] else [] := by
  obtain ⟨rfl, hsettled⟩ := h
  cases isAbstract with
  | false =>
    have hname := hsettled _ List.mem_cons_self _ List.mem_cons_self
    simp [headerPhrases, Statement.decoratorsOf, Statement.numbered,
      decorator_identity hspells n hname]
  | true =>
    have hname := hsettled _ List.mem_cons_self _ List.mem_cons_self
    have hmark := hsettled _ (List.mem_cons_of_mem _ List.mem_cons_self) _ List.mem_cons_self
    simp [headerPhrases, Statement.decoratorsOf, Statement.numbered,
      decorator_identity hspells n hname, decorator_abstract hspells (n + 1) hmark]

end Synthesizer

namespace Execution

variable {x : Execution}

theorem decoratorMarker_stock {s : MarkerShape} {d : Decorator}
    (hresolve : x.resolve d.line d.name = .ok (.cls s.kind))
    (hfind : x.world.find? s.kind = some (Standard.markerClass s)) :
    x.decoratorMarker d = .ok (Marker.make? s.kind s (d.argument.toList.map Value.text)) := by
  have hshape : x.world.shape? s.kind = some s := by
    have hlineage : ∃ rest, x.world.lineage s.kind = s.kind :: rest := by
      rw [World.lineage, hfind]
      exact ⟨_, rfl⟩
    obtain ⟨rest, hrest⟩ := hlineage
    rw [World.shape?, hrest, List.findSome?_cons, hfind]
    rfl
  unfold decoratorMarker
  rw [hresolve]
  dsimp only [Bind.bind, Except.bind]
  rw [hshape]
  rfl

end Execution

namespace Text

theorem split_qualified (module path : String) :
    split '.' (Ledger.qualified module path) = moduleAlias module :: split '.' path := by
  have hdot : '.' ∉ (moduleAlias module).toList := by
    have hword : ∀ c, wordOrUnderscore c ≠ '.' := by
      intro c
      unfold wordOrUnderscore
      split_ifs with hc
      · rintro rfl
        revert hc
        decide +kernel
      · decide
    simp [moduleAlias, hword]
  have hchars : (Ledger.qualified module path).toList =
      (moduleAlias module).toList ++ '.' :: path.toList := by
    simp [Ledger.qualified, String.toList_append]
  rw [split, hchars, pieces_line _ hdot, List.map_cons, String.ofList_toList, split]

end Text

theorem Ledger.qualified_ne_none (module path : String) : qualified module path ≠ "None" := by
  intro heq
  have hpieces := congrArg (Text.split '.') heq
  have hone : Text.split '.' "None" = ["None"] := by decide
  rw [Text.split_qualified, hone, Text.split_eq '.' path] at hpieces
  exact List.cons_ne_nil _ _ (List.cons.inj hpieces).2

/-- Behind the alias of a module the names are followed from the module. -/
theorem Execution.resolve_qualified {x : Execution} {module : String}
    (h : x.attributes.lookup (moduleAlias module) = some (.module module)) (line : Nat) (path : String) :
    x.resolve line (Ledger.qualified module path) = x.walk line (.module module) (Text.split '.' path) := by
  rw [resolve, if_neg (Ledger.qualified_ne_none module path), Text.split_qualified]
  dsimp only
  rw [lookup?, h]

namespace Ledger

variable {w : World} {L : Ledger}

/-- What is bound for a top-level class is an attribute of a module that is the class. -/
theorem Founded.module_of_top (hfounded : L.Founded w) {c : ClassId} {β : Binding}
    (hβ : β ∈ L.bindings) (ha : β.anchor = .cls c) (hglobal : Text.contains "<locals>" c.qualName = false)
    (hone : Text.firstPiece '.' c.qualName = c.qualName) (hname : β.name = c.qualName) :
    β.module = c.moduleName ∨ ∃ k e, w.module? β.module = some k ∧
      k.attributes.lookup c.qualName = some e ∧ e.class? = some c := by
  obtain ⟨m, p, hp, hm, rfl⟩ := hfounded.made β hβ
  dsimp only at ha hname ⊢
  cases m with
  | form n =>
    cases hp
    cases ha
  | builtin n => cases hp
  | cls d =>
    simp only [World.placeOf?] at hp
    split_ifs at hp with hany himplicit
    · cases hp
      cases ha
      exact Or.inl rfl
    · cases hp
      unfold World.place at ha hname ⊢
      split_ifs at ha hname ⊢ with hlocal
      · cases ha
        rw [hglobal] at hlocal
        cases hlocal
      · dsimp only at ha hname ⊢
        by_cases htop : Text.firstPiece '.' d.qualName = d.qualName
        · rw [if_pos htop] at ha
          cases ha
          exact Or.inl rfl
        · rw [if_neg htop] at ha
          -- The class is found through the first part of the name of a nested one.
          have hown : c ≠ d := by
            rintro rfl
            exact htop hone
          rw [hname] at ha
          rcases hanchor : topAnchor? w d c.qualName with _ | a
          · rw [hanchor] at ha
            exact (hown (Anchor.cls.inj ha).symm).elim
          · rw [hanchor, Option.getD_some] at ha
            rw [ha] at hanchor
            exact Or.inr (World.class_of_topAnchor? hanchor hown)

end Ledger

/-- A module that is being made has no attributes. -/
theorem World.attribute?_opened_self {w : World} {into n : String} {serial : Nat}
    (hapart : w.hasModule (into ++ "." ++ n) = false) (hn : n.toList.head? ≠ some '_') :
    (w.opened into serial).attribute? (.module into) n = none := by
  have hlonger : into ++ "." ++ n ≠ into := by
    intro heq
    have hlength := congrArg (fun s : String => s.toList.length) heq
    simp only [String.toList_append, List.length_append] at hlength
    have hdot : ".".toList.length = 1 := rfl
    omega
  have hmodule : (w.opened into serial).hasModule (into ++ "." ++ n) = false := by
    rw [World.hasModule, World.opened, World.module?_putModule, if_neg hlonger,
      World.importable_putModule]
    exact hapart
  have hobject : ∀ name ∈ World.objectNames, name.toList.head? = some '_' := by decide +kernel
  have hown : ∀ name ∈ ["__name__", "__dict__", "__loader__", "__spec__", "__class__"],
      name.toList.head? = some '_' := by decide
  have hnone : ∀ l : List String, (∀ name ∈ l, name.toList.head? = some '_') →
      l.contains n = false := by
    intro l hl
    rw [← Bool.not_eq_true, List.contains_iff_mem]
    exact fun hmem => hn (hl n hmem)
  rw [World.attribute?, World.opened, World.module?_putModule, if_pos rfl, ← World.opened, hmodule,
    hnone _ hobject, hnone _ hown]
  rfl

namespace MarkerShape

theorem kind_named (s : MarkerShape) : Text.split '.' s.kind.qualName = [s.kind.qualName] ∧
    Text.firstPiece '.' s.kind.qualName = s.kind.qualName ∧
      Text.contains "<locals>" s.kind.qualName = false ∧ s.kind.qualName ≠ "None" ∧
        s.kind.qualName.toList.head? ≠ some '_' := by
  cases s <;> decide

theorem placeOf?_kind (w : World) (s : MarkerShape) : w.placeOf? (.cls s.kind) =
    some ⟨"modelgen.markers", s.kind.qualName, s.kind.qualName, .cls s.kind⟩ := by
  obtain ⟨-, hfirst, hglobal, -⟩ := s.kind_named
  have hmodule : s.kind.moduleName = "modelgen.markers" := rfl
  have hany : s.kind ≠ ClassId.any := by
    cases s <;> decide
  simp [World.placeOf?, hany, Ledger.isImplicit, hmodule, World.place, hfirst, hglobal]

end MarkerShape

namespace Blueprint.Scope

variable {b : Blueprint} {L : Ledger} {w : World} {into : String} {serial : Nat}
  {before : List Contract} {x : Execution}

/-- The name of a marker class leads to it, whether it is bound or qualified, where no contract above has
the name of an import. -/
theorem resolve_stock (hs : b.Scope L (w.opened into serial) into serial before x)
    (hfounded : L.Founded w) (hstocked : w.Stocked into) (hinto : into ≠ "modelgen.markers")
    {shape : MarkerShape} (hshape : shape.onClasses = true) (hm : L.Settled w (.cls shape.kind))
    (hbefore : ∀ n ∈ before.map (·.name), n ∉ L.bindings.map (·.name) ∧ n ∉ b.aliases L)
    (hunique : ∀ m ∈ b.aliasedModules L, ∀ n ∈ b.aliasedModules L,
      moduleAlias n = moduleAlias m → n = m) (line : Nat) :
    x.resolve line (L.nameOf w (.cls shape.kind)) = .ok (.cls shape.kind) := by
  obtain ⟨hone, hfirst, hglobal, hnamed, hstart⟩ := shape.kind_named
  obtain ⟨k, hk, hheld⟩ := hstocked.held
  have hown := hheld shape hshape
  have hnames := hm.names _ (shape.placeOf?_kind w)
  generalize L.nameOf w (.cls shape.kind) = s at hnames ⊢
  cases hnames with
  | @bound β hb ha =>
    have hfree : shape.kind.qualName ∉ b.aliases L := by
      intro hmem
      obtain ⟨m, -, hname⟩ := List.mem_map.1 hmem
      rw [← hname] at hstart
      simp [moduleAlias] at hstart
    have hnot : shape.kind.qualName ∉ before.map (·.name) := by
      intro hmem
      have hname : β.name = shape.kind.qualName := by simpa using List.find?_some hb
      refine (hbefore _ hmem).1 ?_
      rw [← hname]
      exact List.mem_map_of_mem (List.mem_of_find?_eq_some hb)
    obtain ⟨hmem, hname, e, he, hlookup⟩ := hs.lookup?_bound hb hfree hnot
    have hinside : ∃ k e', w.module? β.module = some k ∧
        k.attributes.lookup shape.kind.qualName = some e' ∧ e'.class? = some shape.kind := by
      rcases hfounded.module_of_top hmem ha hglobal hfirst hname with hsame | hother
      · have hmodule : β.module = "modelgen.markers" := hsame
        exact ⟨k, _, by rw [hmodule, hk], hown, rfl⟩
      · exact hother
    obtain ⟨k', e', hk', he', hclass⟩ := hinside
    have houtside : β.module ≠ into := by
      intro heq
      rw [heq, World.attribute?_opened_self (hstocked.apart shape hshape) hstart] at he
      cases he
    rw [World.attribute?_opened houtside hk' he'] at he
    obtain rfl : e' = e := Option.some.inj he
    have hdirect : e' = .cls shape.kind :=
      Entity.eq_of_isDirect (hstocked.direct _ k' hk' _ (mem_of_lookup he')) hclass
    exact Execution.resolve_undotted hnamed hone (hdirect ▸ hlookup) line
  | qualified _ hmodules =>
    have haliased : "modelgen.markers" ∈ b.aliasedModules L :=
      List.mem_append_left _ (mem_sorted.2 hmodules)
    have hnot : moduleAlias "modelgen.markers" ∉ before.map (·.name) := fun hmem =>
      (hbefore _ hmem).2 (List.mem_map_of_mem haliased)
    have hlookup := hs.aliased _ haliased (hunique _ haliased) hnot
    have hattribute : x.world.attribute? (.module "modelgen.markers") shape.kind.qualName =
        some (.cls shape.kind) := by
      rw [World.attribute?_module_grown hs.grown]
      exact World.attribute?_opened hinto.symm hk hown
    rw [Execution.resolve_qualified hlookup, hone, Execution.walk, hattribute]
    rfl

end Blueprint.Scope

end ModelContracts
