import ModelContracts.Proofs.Annotation.Translating
import ModelContracts.Proofs.Synthesis.Refusing

/-!
Converters that are named by a text. A name leads to a class when its longest proper start that is a module
is imported, and the rest of the name, followed from there, ends at the class. The stock rule writes a
converter exactly when its name leads to a class that is public and not for design time. A name that starts
with a dot is refused instead: nothing is there that it could be relative to.
-/

namespace ModelContracts

open Emitting

/-! Following a name. -/

namespace World

variable (w : World)

/-- A module of this name is there. -/
def Provides (name : String) : Prop := w.import? name = .ok name

/-- Attributes that are followed one after the other; nothing is followed from `None`. -/
inductive Follows : Entity → List String → Entity → Prop
  | here (e : Entity) : Follows e [] e
  | next {e f g : Entity} {name : String} {names : List String} (there : e ≠ .value .none)
    (found : w.attribute? e name = some f) (rest : Follows f names g) : Follows e (name :: names) g

variable {w}

theorem import?_ok {name m : String} (h : w.import? name = .ok m) : m = name := by
  unfold import? at h
  split_ifs at h
  · exact (Except.ok.inj h).symm
  · split at h
    · exact (Except.ok.inj h).symm
    · cases h

theorem walk?_none (names : List String) : w.walk? (.value .none) names = none := by
  unfold walk?
  rfl

theorem walk?_nil {e : Entity} (h : e ≠ .value .none) : w.walk? e [] = some e := by
  rw [walk?]
  exact h

theorem walk?_cons {e : Entity} {name : String} {names : List String} (h : e ≠ .value .none) :
    w.walk? e (name :: names) = (w.attribute? e name).bind fun f => w.walk? f names := by
  rw [walk?]
  exact h

theorem class?_walk? {e : Entity} {names : List String} {c : ClassId} :
    (w.walk? e names).bind Entity.class? = some c ↔ ∃ f, w.Follows e names f ∧ f.class? = some c := by
  induction names generalizing e with
  | nil =>
    by_cases he : e = .value .none
    · rw [he, walk?_none]
      constructor
      · intro h
        cases h
      · rintro ⟨f, ⟨⟩, hclass⟩
        cases hclass
    · rw [walk?_nil he]
      constructor
      · exact fun h => ⟨e, .here e, h⟩
      · rintro ⟨f, ⟨⟩, hclass⟩
        exact hclass
  | cons name names ih =>
    by_cases he : e = .value .none
    · rw [he, walk?_none]
      constructor
      · intro h
        cases h
      · rintro ⟨f, hfollows, -⟩
        cases hfollows with
        | next there => exact (there rfl).elim
    · rw [walk?_cons he, Option.bind_assoc]
      constructor
      · intro h
        obtain ⟨f, hattribute, hrest⟩ := Option.bind_eq_some_iff.1 h
        obtain ⟨g, hfollows, hclass⟩ := ih.1 hrest
        exact ⟨g, .next he hattribute hfollows, hclass⟩
      · rintro ⟨g, hfollows, hclass⟩
        cases hfollows with
        | next there found rest =>
          rw [found]
          exact ih.2 ⟨g, rest, hclass⟩

end World

namespace Converter

variable {w : World} {name : String} {c : ClassId}

/-- The first pieces of a dotted name. -/
def start (name : String) (count : Nat) : String := String.intercalate "." ((Text.split '.' name).take count)

/-- The longest proper start of the name that is a module is imported, and the rest of the name leads from
there to the class. -/
inductive LeadsTo (w : World) (name : String) (c : ClassId) : Prop
  | intro {count : Nat} {e : Entity} (some_start : 0 < count) (proper : count < (Text.split '.' name).length)
    (imported : w.Provides (start name count))
    (longest : ∀ more, count < more → more < (Text.split '.' name).length → ¬ w.Provides (start name more))
    (follows : w.Follows (.module (start name count)) ((Text.split '.' name).drop count) e)
    (ends : e.class? = some c)

/-- Trying the starts of a name one after the other, from some length downwards, when none is refused. -/
theorem locateFrom_eq_some {bound : Nat}
    (h : ∀ k, 0 < k → k ≤ bound → ∀ e, w.import? (start name k) = .error e →
      ∃ missing around, e = .missing missing around) :
    locateFrom w (Text.split '.' name) bound = .ok (some c) ↔ ∃ count, 0 < count ∧ count ≤ bound ∧
      w.Provides (start name count) ∧
      (∀ more, count < more → more ≤ bound → ¬ w.Provides (start name more)) ∧
      ∃ e, w.Follows (.module (start name count)) ((Text.split '.' name).drop count) e ∧
        e.class? = some c := by
  induction bound with
  | zero =>
    constructor
    · intro hnone
      cases hnone
    · rintro ⟨count, hpos, hle, -⟩
      omega
  | succ bound ih =>
    have hshorter := ih fun k hpos hle => h k hpos (Nat.le_succ_of_le hle)
    unfold locateFrom
    rw [← start]
    split
    next m hm =>
      obtain rfl := World.import?_ok hm
      rw [Except.ok.injEq, World.class?_walk?]
      constructor
      · intro hclass
        exact ⟨bound + 1, Nat.succ_pos _, le_rfl, hm, fun more hmore hle => by omega, hclass⟩
      · rintro ⟨count, hpos, hle, -, hlongest, hclass⟩
        rcases Nat.lt_or_eq_of_le hle with hlt | rfl
        · exact (hlongest _ hlt le_rfl hm).elim
        · exact hclass
    next missing around hmissing =>
      have hno : ¬ w.Provides (start name (bound + 1)) := by
        intro himports
        rw [World.Provides, hmissing] at himports
        cases himports
      rw [hshorter]
      constructor
      · rintro ⟨count, hpos, hle, himports, hlongest, hclass⟩
        refine ⟨count, hpos, Nat.le_succ_of_le hle, himports, fun more hmore hmorele => ?_, hclass⟩
        rcases Nat.lt_or_eq_of_le hmorele with hlt | rfl
        · exact hlongest more hmore (Nat.le_of_lt_succ hlt)
        · exact hno
      · rintro ⟨count, hpos, hle, himports, hlongest, hclass⟩
        have hcount : count ≠ bound + 1 := by
          rintro rfl
          exact hno himports
        exact ⟨count, hpos, by omega, himports, fun more hmore hmorele =>
          hlongest more hmore (Nat.le_succ_of_le hmorele), hclass⟩
    next e hother he =>
      obtain ⟨missing, around, rfl⟩ := h (bound + 1) (Nat.succ_pos _) le_rfl e he
      exact (hother missing around rfl).elim

/-! Looking up. -/

/-- How a name that starts with a dot is refused: before the only dot stands no name, and with further dots
the start that is tried first is relative. -/
def refusal (name : String) : ImportError :=
  if (Text.split '.' name).length = 2 then .emptyName else .relative

theorem split_of_dot (h : Text.startsWith "." name = true) :
    ∃ p ps, Text.split '.' name = "" :: p :: ps := by
  obtain ⟨rest, hname⟩ : ∃ rest, name.toList = '.' :: rest := by
    rw [Text.startsWith, List.isPrefixOf_iff_prefix] at h
    obtain ⟨rest, hrest⟩ := h
    exact ⟨rest, hrest.symm⟩
  have hne := Text.pieces_ne_nil '.' rest
  rw [Text.split, hname, Text.pieces, if_pos rfl]
  cases hpieces : Text.pieces '.' rest with
  | nil => exact (hne hpieces).elim
  | cons p ps => exact ⟨_, _, rfl⟩

/-- Joined pieces of which the first is empty are a relative name. -/
theorem import?_relative (p : String) (ps : List String) :
    w.import? (String.intercalate "." ("" :: p :: ps)) = .error .relative := by
  have hname : (String.intercalate "." ("" :: p :: ps)).toList =
      '.' :: (String.intercalate "." (p :: ps)).toList := by
    rw [String.intercalate_cons_cons, String.toList_append, String.toList_append]
    rfl
  have hdot : Text.startsWith "." (String.intercalate "." ("" :: p :: ps)) = true := by
    simp [Text.startsWith]
  have hsome : (String.intercalate "." ("" :: p :: ps)).isEmpty = false := by
    rw [Bool.eq_false_iff, ne_eq, String.isEmpty_iff]
    intro hempty
    rw [hempty] at hname
    cases hname
  unfold World.import?
  rw [hsome, hdot]
  rfl

theorem locate_of_dot (h : Text.startsWith "." name = true) : locate w name = .error (refusal name) := by
  obtain ⟨p, ps, hsplit⟩ := split_of_dot h
  unfold locate refusal
  rw [hsplit]
  cases ps with
  | nil => rfl
  | cons q qs =>
    have hrefused : w.import? (String.intercalate "." (("" :: p :: q :: qs).take (qs.length + 2))) =
        .error .relative := by
      rw [List.take_succ_cons, List.take_succ_cons]
      exact import?_relative _ _
    show locateFrom w ("" :: p :: q :: qs) (qs.length + 1 + 1) = _
    rw [locateFrom, hrefused]
    simp

/-- No name that starts with a dot leads to a class. -/
theorem LeadsTo.undotted (h : LeadsTo w name c) : Text.startsWith "." name = false := by
  rw [Bool.eq_false_iff]
  intro hdot
  obtain ⟨p, ps, hsplit⟩ := split_of_dot hdot
  obtain ⟨some_start, -, imported, -, -, -⟩ := h
  rename_i count e
  obtain ⟨n, rfl⟩ := Nat.exists_eq_succ_of_ne_zero (Nat.ne_of_gt some_start)
  rw [start, hsplit, List.take_succ_cons] at imported
  cases n with
  | zero => cases imported
  | succ n =>
    rw [List.take_succ_cons, World.Provides, import?_relative] at imported
    cases imported

theorem missing_of_undotted (h : Text.startsWith "." name = false) {k : Nat} (hpos : 0 < k)
    (hproper : k < (Text.split '.' name).length) {e : ImportError} (he : w.import? (start name k) = .error e) :
    ∃ missing around, e = .missing missing around := by
  rcases hname : name.toList with _ | ⟨c, rest⟩
  · have hsplit : Text.split '.' name = [""] := by simp [Text.split, hname, Text.pieces]
    rw [hsplit, List.length_singleton] at hproper
    omega
  · have hc : c ≠ '.' := by
      rintro rfl
      simp [Text.startsWith, hname] at h
    obtain ⟨more, hmore⟩ := toList_start hpos hname hc
    rcases import?_error he with hmissing | hempty | hdot
    · exact hmissing
    · rw [start, hmore] at hempty
      cases hempty
    · rw [Text.startsWith, start, hmore] at hdot
      simp [Ne.symm hc] at hdot

/-- Looking a name up tells the class that it leads to. -/
theorem locate_eq_some : locate w name = .ok (some c) ↔ LeadsTo w name c := by
  by_cases hdot : Text.startsWith "." name = true
  · rw [locate_of_dot hdot]
    constructor
    · intro h
      cases h
    · intro h
      rw [h.undotted] at hdot
      cases hdot
  · have hlength : (Text.split '.' name).length ≠ 0 := by
      rw [Text.split, List.length_map, ne_eq, List.length_eq_zero_iff]
      exact Text.pieces_ne_nil _ _
    have hundotted : Text.startsWith "." name = false := Bool.eq_false_iff.2 hdot
    rw [locate, locateFrom_eq_some fun k hpos hle e => missing_of_undotted hundotted hpos (by omega)]
    constructor
    · rintro ⟨count, hpos, hle, himported, hlongest, e, hfollows, hends⟩
      exact ⟨hpos, by omega, himported, fun more hmore hlt => hlongest more hmore (by omega), hfollows, hends⟩
    · rintro ⟨hpos, hproper, himported, hlongest, hfollows, hends⟩
      exact ⟨_, hpos, by omega, himported, fun more hmore hle => hlongest more hmore (by omega), _, hfollows,
        hends⟩

theorem locate_of_undotted (h : Text.startsWith "." name = false) : ∃ o, locate w name = .ok o := by
  cases hlocated : locate w name with
  | error e =>
    rw [locate_error hlocated] at h
    cases h
  | ok o => exact ⟨o, rfl⟩

/-- A class that is shown: it is public, stands in no function and is not for design time. -/
structure Shown (c : ClassId) : Prop where
  isPublic : ∀ s ∈ Text.split '.' c.fullName, Text.startsWith "_" s = false
  outside : Text.contains "<locals>" c.fullName = false
  runtime : isDesignName c.fullName = false

theorem isUsable_iff : isUsable c = true ↔ Shown c := by
  simp only [isUsable, isPublicName, Bool.and_eq_true, Bool.not_eq_true', List.all_eq_true]
  constructor
  · rintro ⟨⟨isPublic, outside⟩, runtime⟩
    exact ⟨isPublic, outside, runtime⟩
  · rintro ⟨isPublic, outside, runtime⟩
    exact ⟨⟨isPublic, outside⟩, runtime⟩

/-! Looking up with a memory. -/

variable {m : Marker} {s : Emission}

/-- What is remembered of a name is what looking it up would tell. -/
def Fresh (w : World) (memory : ConverterMemory) (name : String) : Prop :=
  ∀ o, remembered? memory name = some o → locate w name = .ok o

theorem locateRemembered_run (h : Fresh w s.memory name) {o : Option ClassId} (ho : locate w name = .ok o) :
    (locateRemembered w name).run s = (.ok o, { s with memory := remember s.memory name o }) := by
  unfold locateRemembered
  rw [run_bind_of_ok (run_get s)]
  cases hremembered : remembered? s.memory name with
  | none =>
    dsimp only
    rw [ho]
    rfl
  | some known =>
    rw [h known hremembered] at ho
    cases ho
    rfl

theorem locateRemembered_refused (h : Fresh w s.memory name) {e : ImportError}
    (he : locate w name = .error e) :
    (locateRemembered w name).run s = (.error (.converterImport e), s) := by
  unfold locateRemembered
  rw [run_bind_of_ok (run_get s)]
  cases hremembered : remembered? s.memory name with
  | none =>
    dsimp only
    rw [he]
    rfl
  | some known =>
    rw [h known hremembered] at he
    cases he

theorem converterName_of_text (h : m.field "converter" = .text name) : m.converterName = .ok name := by
  rw [Marker.converterName, h]

/-- A name that serves design time is passed over without being looked up. -/
theorem resolve_design (h : m.field "converter" = .text name) (hdesign : isDesignName name = true) :
    (resolve w m).run s = (.ok none, s) := by
  unfold resolve
  rw [converterName_of_text h]
  dsimp only
  rw [if_pos hdesign]
  rfl

theorem resolve_named (h : m.field "converter" = .text name) (hdesign : isDesignName name = false) :
    resolve w m = (·.filter isUsable) <$> locateRemembered w name := by
  have hnamed : named m w name = locateRemembered w name := by
    unfold named
    rw [h]
  unfold resolve
  rw [converterName_of_text h]
  dsimp only
  rw [hdesign, hnamed]
  rfl

end Converter

open Converter

/-! Translating. -/

section

variable {w : World} {m : Marker} {d : Descriptor} {name : String} {s t : Emission} {o : Option ClassId}

/-- A marker with a converter that is named by a text, for which no rule stands before that of converters. -/
structure Marker.Converts (w : World) (d : Descriptor) (m : Marker) (name : String) : Prop where
  name : m.field "converter" = .text name
  kind : w.derives m.kind MarkerShape.typeConverter.kind = true
  earlier : ∀ s ∈ [MarkerShape.required, .editor, .refreshProperties], w.derives m.kind s.kind = false
  unlocalized : (w.derives m.kind MarkerShape.localizable.kind && d.type.isClass ClassId.str) = false

theorem Marker.Converts.find? (hw : w.Shipped) (h : m.Converts w d name) :
    ∃ r, RuleBook.stock.find? w m d = some r ∧ r.emitter = .stock .typeConverter := by
  have hcategory : m.kind ≠ MarkerShape.category.kind := by
    intro heq
    have hkind := h.kind
    rw [heq, World.derives, hw.lineage (by decide)] at hkind
    exact absurd hkind (by decide)
  have hearlier := h.earlier
  simp only [List.forall_mem_cons, List.not_mem_nil, false_imp_iff, implies_true, and_true] at hearlier
  obtain ⟨hrequired, heditor, hrefresh⟩ := hearlier
  refine ⟨⟨MarkerShape.typeConverter.kind, false, .always, .stock .typeConverter⟩, ?_, rfl⟩
  simp [RuleBook.find?, RuleBook.stock, Rule.applies, Guard.holds, h.unlocalized, hcategory, hrequired,
    heditor, hrefresh, h.kind]

theorem RuleBook.translate_eq {b : RuleBook} {r : Rule} (hfind : b.orStock.find? w m d = some r) :
    b.translate w m d = (·.filter (· ≠ "")) <$> r.emitter.text w m d := by
  unfold RuleBook.translate
  rw [hfind]
  rfl

theorem stockText_converter : stockText w m d .typeConverter =
    resolve w m >>= fun o => o.elim (pure none) fun c => some <$> stockCall w .typeConverter (cls w c) := by
  refine bind_congr fun o => ?_
  cases o <;> rfl

/-- A converter that is resolved is written as an argument; without one nothing is. -/
theorem stockText_of_resolved (h : (resolve w m).run s = (.ok o, t)) :
    ∃ text u, (stockText w m d .typeConverter).run s = (.ok text, u) ∧ text ≠ some "" ∧
      (text.isSome = true ↔ o.isSome = true) := by
  rw [stockText_converter, run_bind_of_ok h]
  cases o with
  | none => exact ⟨none, t, rfl, by simp, Iff.rfl⟩
  | some c =>
    obtain ⟨head, t₁, hhead⟩ := cls_succeeds w MarkerShape.typeConverter.kind t
    obtain ⟨argument, t₂, hargument⟩ := cls_succeeds w c t₁
    refine ⟨some (head ++ "(" ++ argument ++ ")"), t₂, ?_, by simp, Iff.rfl⟩
    rw [Option.elim_some, run_map, stockCall, run_bind_of_ok hhead, run_bind_of_ok hargument]
    rfl

end

namespace Notes

/-- A converter of a name. -/
def converter (name : String) : Marker := .stock .typeConverter [.text name]

theorem number_converted (name : String) : (converter name).Converts World.standard number name := by
  have hfirst : ∀ s ∈ [MarkerShape.required, .editor, .refreshProperties],
      World.standard.derives MarkerShape.typeConverter.kind s.kind = false := by
    unfold World.derives
    rw [standard_shipped.lineage (by decide)]
    decide
  exact ⟨rfl, by rfl, hfirst, by rfl⟩

end Notes

end ModelContracts
