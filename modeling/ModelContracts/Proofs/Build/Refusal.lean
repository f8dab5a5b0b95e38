import ModelContracts.Proofs.Build.Answering
import ModelContracts.Proofs.Property.ClassVariable
import ModelContracts.Proofs.Synthesis.Blaming

/-!
Builds that are refused over a class variable without a type. Deriving the contracts is the only step of a
build that refuses an expression, and it does so over one that it was given. Where all annotations of class
variables have a type, no such annotation is among what it was given.
-/

namespace ModelContracts

open Building Session

/-- Deriving contracts is not what failed. -/
def BuildError.IsForeign (e : BuildError) : Prop := ∀ e', e ≠ .emission e'

open BuildError

theorem filing_foreign {α : Type} (m : Filing α) : FailsWith IsForeign (filing m) := by
  intro s e t h
  have hresult : (m.run s.files).1.mapError BuildError.file = .error e := congrArg Prod.fst h
  rcases hm : (m.run s.files).1 with e' | a <;> rw [hm] at hresult <;> cases hresult
  exact nofun

namespace Compilation

variable (source name : String) (path : Path)

theorem check_foreign (references : List String) : FailsWith IsForeign (check source references path) := by
  intro s e t h
  obtain ⟨f, rfl⟩ := check_error h
  exact nofun

theorem runSource_foreign (origin : String) : FailsWith IsForeign (runSource source path name origin) := by
  intro s e t h
  obtain ⟨-, f, rfl⟩ := runSource_error h
  exact nofun

theorem execute_foreign (fromFile : Bool) : FailsWith IsForeign (execute source path name fromFile) := by
  unfold execute
  split_ifs
  · refine FailsWith.bind ?_ fun _ => runSource_foreign source name path "disk"
    unfold checkLoader
    split
    · exact .pure _
    · exact .throw nofun
    · exact .throw nofun
  · exact runSource_foreign source name path "memory"

theorem deleteIfThere_foreign : FailsWith IsForeign (deleteIfThere path) := by
  refine (filing_foreign _).tryCatch fun e he => ?_
  split
  · exact .pure _
  · exact .throw he

theorem compile_foreign (references : List String) (persist : Bool) :
    FailsWith IsForeign (compile source references path name persist) := by
  refine (FailsWith.modify _).bind fun _ => (check_foreign source path references).bind fun _ => ?_
  split_ifs
  · refine (filing_foreign _).bind fun _ => (filing_foreign _).bind fun _ => ?_
    refine FailsWith.bind (.modify _) fun _ => ?_
    refine (execute_foreign source name path true).tryCatch fun e he => ?_
    split
    · exact (deleteIfThere_foreign path).bind fun _ => .throw he
    · exact .throw he
  · exact execute_foreign source name path false

theorem load_foreign : FailsWith IsForeign (load path name) := by
  unfold load
  refine (FailsWith.modify _).bind fun _ => FailsWith.get.bind fun _ => ?_
  split
  · exact .throw nofun
  · split
    · exact .throw nofun
    · exact (check_foreign _ path []).bind fun _ => execute_foreign _ name path true

end Compilation

namespace Builder

variable (b : Builder) {path : Path} {name : String} {s s' : Session} {components : List Component}

theorem reuse_foreign : FailsWith IsForeign (b.reuse path name) := by
  have hload : FailsWith IsForeign (tryLoad path name) := by
    refine ((Compilation.load_foreign name path).map).tryCatch fun e he => ?_
    split
    · exact FailsWith.bind (.modify _) fun _ => .pure _
    · exact .throw he
  have hdisk (wanted : Bool) : FailsWith IsForeign (b.fromDisk path name wanted) := by
    unfold fromDisk
    split_ifs
    · refine FailsWith.get.bind fun _ => ?_
      split
      · exact .pure _
      · refine hload.bind fun o => ?_
        cases o with
        | none => exact .pure _
        | some m => exact FailsWith.bind (.modify _) fun _ => .pure _
    · exact .pure _
  have hmemory : FailsWith IsForeign (b.fromMemory name) := by
    unfold fromMemory
    split_ifs
    · exact FailsWith.get.bind fun _ => .pure _
    · exact .pure _
  have hsurvey : FailsWith IsForeign (b.survey path) := .of_ok fun s => by
    obtain ⟨wanted, t, hrun, -⟩ := b.survey_succeeds path s
    exact ⟨wanted, t, hrun⟩
  refine hsurvey.bind fun wanted => (hdisk wanted).bind fun o => ?_
  cases o with
  | some m => exact FailsWith.bind (.modify _) fun _ => .pure _
  | none =>
    refine hmemory.bind fun o => ?_
    cases o with
    | some m => exact FailsWith.bind (.modify _) fun _ => .pure _
    | none => exact .pure _

theorem compileSource_foreign (plan : Blueprint) : FailsWith IsForeign (b.compileSource plan path name) := by
  refine (Compilation.compile_foreign _ _ _ _ _).tryCatch fun e he => ?_
  refine FailsWith.bind ?_ fun _ => .throw he
  unfold logFailure
  split
  · exact .modify _
  · exact .pure _

theorem record_foreign (m : Module) : FailsWith IsForeign (b.record path name m) := .of_ok fun s => by
  obtain ⟨cache, hrecord, -⟩ := b.run_record path name m s
  exact ⟨_, _, hrecord⟩

variable {b}

/-- A build that fails over the contracts fails where it derives them. -/
theorem build_refused {e : EmissionError}
    (h : (b.build components path).run s = (.error (.emission e), s')) :
    ∃ t d, t.world = s.world ∧ t.formed = s.formed ∧ b.drafting components path t = (.error e, d) := by
  obtain ⟨t, hrun, -⟩ := b.run_of_build path h
  rcases b.run_cases path hrun with ⟨e', hreuse, he⟩ | ⟨m, -, hr⟩ | ⟨t₁, hreuse, h₁⟩
  · cases he
    exact absurd rfl (b.reuse_foreign hreuse e)
  · cases hr
  · have hsteady := reuse_none hreuse
    rcases run_bind_error h₁ with hderive | ⟨plan, t₂, -, h₂⟩
    · have hresult : (b.drafting components path t₁).1.mapError BuildError.emission = .error (.emission e) :=
        congrArg Prod.fst hderive
      rcases hdraft : b.drafting components path t₁ with ⟨e' | plan, d⟩ <;> rw [hdraft] at hresult <;>
        cases hresult
      exact ⟨t₁, d, hsteady.world, hsteady.formed, hdraft⟩
    · rcases run_bind_error h₂ with hfolders | ⟨_, t₃, -, h₃⟩
      · exact absurd rfl (filing_foreign _ hfolders e)
      rcases run_bind_error h₃ with hsource | ⟨m, t₄, -, h₄⟩
      · exact absurd rfl (b.compileSource_foreign plan hsource e)
      rcases run_bind_error h₄ with hrecord | ⟨_, t₅, -, h₅⟩
      · exact absurd rfl (b.record_foreign m hrecord e)
      · cases h₅

end Builder

/-! Where a refused expression comes from. -/

/-- The declared type has the expression as a part, or one of its markers holds a type that has it. -/
def DeclaredType.Holds (w : World) (p : TypeExpr) (a : DeclaredType) : Prop :=
  p ∈ a.type.parts ∨ ∃ m ∈ w.markersAmong a.notes, ¬ m.Spares p

/-- Where an expression comes from that stands in a text of the contracts, unless it is the annotation of an
attribute as a variable of its class. -/
inductive BroughtIn (w : World) (formed : FormMemory) (components : List Component) (p : TypeExpr) : Prop
  | reference {c : Component} {t : TypeExpr} (mem : c ∈ components) (type : t ∈ c.referenceTypes)
      (part : p ∈ t.parts)
  | formed {f : FormedType} (mem : f ∈ formed) (part : p ∈ f.result.parts)
  | filter {c : Component} {k : ClassId} {ds kept : List Descriptor} {d : Descriptor} (mem : c ∈ components)
      (told : w.candidates? k = .ok ds) (accepted : c.filter.apply w ds = .ok kept) (chosen : d ∈ kept)
      (brings : ¬ d.Spares p) (before : ∀ d' ∈ ds, d'.Spares p)
  | property {k : ClassId} {q : Property} {t u : TypeExpr} (declared : q.result = some t)
      (resolved : w.resolve? k t = .ok u) (holds : DeclaredType.Holds w p ⟨u.base, u.notes, q.writable⟩)
  | annotated {c k : ClassId} {name : String} {t u : TypeExpr} {a : DeclaredType}
      (first : w.annotation? c name = some (k, t)) (resolved : w.resolve? k t = .ok u)
      (typed : ¬ u.IsVariable) (declared : DeclaredType.ofAnnotation u = some a) (holds : a.Holds w p)

theorem DeclaredType.holds_of_descriptor {w : World} {p : TypeExpr} {a : DeclaredType} {d : Descriptor}
    (htype : d.type = a.type) (hmarkers : d.markers = w.markersAmong a.notes) (h : ¬ d.Spares p) :
    a.Holds w p := by
  by_contra hnot
  obtain ⟨hfree, hspares⟩ := not_or.1 hnot
  refine h ⟨htype ▸ hfree, fun m hm => ?_⟩
  by_contra hm'
  exact hspares ⟨m, hmarkers ▸ hm, hm'⟩

theorem ClassMember.Gives.of_property {w : World} {k : ClassId} {q : Property} {d : DeclaredType}
    (h : ClassMember.Gives w (.property k q) d) :
    ∃ t u, q.result = some t ∧ w.resolve? k t = .ok u ∧ TypeExpr.Under u d.type d.notes := by
  cases h with
  | property ht hu hv => exact ⟨_, _, ht, hu, hv⟩

namespace World

variable {w : World} {c : ClassId} {formed : FormMemory} {components : List Component} {p : TypeExpr}

/-- A candidate that holds the expression has it from where it stems. -/
theorem broughtIn_of_candidate (hsub : w.Subscripted) {ds : List Descriptor} {d : Descriptor}
    (hds : w.candidates? c = .ok ds) (hd : d ∈ ds) (h : ¬ d.Spares p) :
    BroughtIn w formed components p := by
  obtain ⟨all, hall, hkept⟩ := except_bind_ok hds
  cases hkept
  cases stems_reflect? hall d (List.mem_filter.1 hd).1 with
  | annotated first resolved declared type markers =>
    refine .annotated first resolved (fun hvar => ?_) declared
      (DeclaredType.holds_of_descriptor type markers h)
    exact DeclaredType.not_isClassVar declared (hsub _ _ _ _ _ first resolved hvar)
  | @property k q mem describes =>
    obtain ⟨notes, hgives, hmarkers⟩ := describes.own
    obtain ⟨t, u, ht, hu, hv⟩ := hgives.of_property
    obtain ⟨hbase, hnotes⟩ := hv.strip_eq
    refine .property ht hu (DeclaredType.holds_of_descriptor (d := d) hbase.symm ?_ h)
    rw [hmarkers, hnotes]

end World

namespace Builder

variable {b : Builder} {path : Path} {components : List Component}

/-- The refused expression was brought in by something that the components lead to. -/
theorem broughtIn_of_refused {s s' : Session} {p : TypeExpr} (hsub : s.world.Subscripted) (hp : p.Textless)
    (h : (b.build components path).run s = (.error (.emission (.unrenderable p)), s')) :
    BroughtIn s.world s.formed components p := by
  obtain ⟨t, d, hworld, hformed, hdraft⟩ := build_refused h
  rw [← hworld] at hsub ⊢
  rw [← hformed]
  by_contra hnot
  have hmemory : t.formed.Spares p := fun f hf hpart => hnot (.formed hf hpart)
  have hspares : Synthesis.Spares p ((b.synthesizer t.world path).synthesize components) := by
    refine Synthesizer.synthesize_spares hp (fun c hc r hr hpart => hnot (.reference hc hr hpart)) ?_
    intro c hc k kept hkept d hd
    by_contra hbrings
    unfold Synthesizer.accepted at hkept
    split at hkept
    · cases hkept
    next ds hds =>
      refine hnot (.filter hc hds hkept hd hbrings fun d' hd' => ?_)
      by_contra hd''
      exact hnot (World.broughtIn_of_candidate hsub hds hd' hd'')
  let start : Draft := { emission := { Emission.start t.world ClassId.modelNode with
    memory := t.converters, formed := t.formed, log := t.log } }
  obtain ⟨-, herror⟩ := hspares start hmemory
  exact herror _ (congrArg Prod.fst hdraft) rfl

end Builder

/-- Where class variables have types, the annotations that are class variables are passed over, and no build
is refused over one: a class variable that it is refused over was brought in by something else. -/
theorem World.Subscripted.classVariables_harmless {w : World} (hsub : w.Subscripted) :
    (∀ c name k t u, w.annotation? c name = some (k, t) → w.resolve? k t = .ok u → u.IsVariable →
      w.PassesOver c name) ∧
    ∀ (b : Builder) (components : List Component) (path : Path) (s s' : Session), s.world = w →
      (b.build components path).run s = (.error (.emission (.unrenderable (.qualifier .classVar))), s') →
        BroughtIn w s.formed components (.qualifier .classVar) := by
  refine ⟨fun c name k t u hfirst hu hvar => ?_, fun b components path s s' hs h => ?_⟩
  · exact World.passesOver_of_classVar hfirst hu (hsub c name k t u hfirst hu hvar)
  · subst hs
    exact Builder.broughtIn_of_refused hsub trivial h

/-! A size that the left class makes a variable of the class. -/

namespace Diamond

theorem size_harmless : world.Subscripted ∧ world.PassesOver bottom "size" ∧
    ∀ (b : Builder) (components : List Component) (path : Path) (s s' : Session), s.world = world →
      (b.build components path).run s = (.error (.emission (.unrenderable (.qualifier .classVar))), s') →
        BroughtIn world s.formed components (.qualifier .classVar) := by
  have hsub : world.Subscripted := World.subscripted_of_classes (by decide)
  obtain ⟨hpassed, hbuilds⟩ := hsub.classVariables_harmless
  refine ⟨hsub, ?_, hbuilds⟩
  exact hpassed bottom "size" left (.qualified .classVar (.cls ClassId.int)) _ rfl rfl
    (.inl ⟨_, [], .bare rfl⟩)

end Diamond

namespace Sparse

def refusedOverVariable {α : Type} : Except BuildError α → Bool
  | .error (.emission (.unrenderable (.qualifier .classVar))) => true
  | _ => false

theorem eq_of_refusedOverVariable {α : Type} {r : Except BuildError α} (h : refusedOverVariable r = true) :
    r = .error (.emission (.unrenderable (.qualifier .classVar))) := by
  unfold refusedOverVariable at h
  split at h
  · rfl
  · cases h

/-- An attribute that is annotated as a class variable without a type: it is reflected, and a build for its
class is refused. -/
theorem bare_variable_refused :
    (noting (.qualifier .classVar)).world.annotation? model "X" = some (model, .qualifier .classVar) ∧
    (TypeExpr.qualifier .classVar).IsVariable ∧
    ¬ (noting (.qualifier .classVar)).world.PassesOver model "X" ∧
    ∃ s', (builder.build [component] place).run (noting (.qualifier .classVar)) =
      (.error (.emission (.unrenderable (.qualifier .classVar))), s') := by
  refine ⟨rfl, .inr ⟨[], .bare rfl⟩, fun h => ?_, ?_⟩
  · have hadded := h.considered [("X", .qualifier .classVar)] [] model (.qualifier .classVar) rfl
    have hnames := congrArg (fun r => (Except.toOption r).map World.namesOf) hadded
    exact absurd hnames (by decide)
  · have hrefused : refusedOverVariable
        ((builder.build [component] place).run (noting (.qualifier .classVar))).1 = true := by
      decide +kernel
    rcases hrun : (builder.build [component] place).run (noting (.qualifier .classVar)) with ⟨r, s'⟩
    rw [hrun] at hrefused
    obtain rfl : r = _ := eq_of_refusedOverVariable hrefused
    exact ⟨s', rfl⟩

end Sparse

end ModelContracts
