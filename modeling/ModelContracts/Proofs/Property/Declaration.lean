import Mathlib.Data.List.Forall2
import ModelContracts.Proofs.Reflection
import ModelContracts.Proofs.TypeExpr.Nature

/-!
The descriptors that reflection finds, in terms of what the classes declare. A class declares its
annotated attributes, then its property objects. An attribute counts where the lineage annotates its
name first, a property object wherever its getter has a result type; of the declarations of a name
that count the first one is described.
-/

namespace ModelContracts

/-! Of two places in a list, one comes first. -/

theorem mem_before_of_split {α : Type} {p q r s : List α} {a b : α} (h : p ++ a :: q = r ++ b :: s)
    (hb : b ∉ p) : a = b ∨ a ∈ r := by
  rcases List.append_eq_append_iff.1 h with ⟨m, hr, hm⟩ | ⟨m, hp, hm⟩
  · cases m with
    | nil => exact .inl (List.cons.inj hm).1
    | cons x m =>
      obtain ⟨rfl, -⟩ := List.cons.inj hm
      exact .inr (by simp [hr])
  · cases m with
    | nil => exact .inl (List.cons.inj hm).1.symm
    | cons x m =>
      obtain ⟨rfl, -⟩ := List.cons.inj hm
      exact absurd (by simp [hp]) hb

theorem subset_of_split {α : Type} {p q r s : List α} {b : α} (h : p ++ q = r ++ b :: s)
    (hb : b ∉ p) : p ⊆ r := by
  rcases List.append_eq_append_iff.1 h with ⟨m, hr, -⟩ | ⟨m, hp, hm⟩
  · exact hr ▸ List.subset_append_left p m
  · cases m with
    | nil => simp [hp]
    | cons x m =>
      obtain ⟨rfl, -⟩ := List.cons.inj hm
      exact absurd (by simp [hp]) hb

theorem exists_of_forall₂ {α β : Type} {R : α → β → Prop} {as : List α} {bs : List β} {b : β}
    (h : List.Forall₂ R as bs) (hb : b ∈ bs) : ∃ a ∈ as, R a b := by
  induction h with
  | nil => cases hb
  | cons hab _ ih =>
    rcases List.mem_cons.1 hb with rfl | hb
    · exact ⟨_, List.mem_cons_self, hab⟩
    · obtain ⟨a, ha, hr⟩ := ih hb
      exact ⟨a, List.mem_cons_of_mem _ ha, hr⟩

theorem mapM_ok_of_forall {α β ε : Type} {f : α → Except ε β} {l : List α}
    (h : ∀ a ∈ l, ∃ b, f a = .ok b) : ∃ bs, l.mapM f = .ok bs := by
  induction l with
  | nil => exact ⟨[], rfl⟩
  | cons a l ih =>
    obtain ⟨b, hb⟩ := h a List.mem_cons_self
    obtain ⟨bs, hbs⟩ := ih fun x hx => h x (List.mem_cons_of_mem a hx)
    exact ⟨b :: bs, by rw [List.mapM_cons, hb, hbs]; rfl⟩

namespace Descriptor

theorem foldl_attach (l : List Marker) (d : Descriptor) :
    ∃ as n, l.foldl attach d = { d with attachments := d.attachments ++ as, fresh := n } ∧
      as.map (·.marker) = l := by
  induction l generalizing d with
  | nil => exact ⟨[], d.fresh, by simp, rfl⟩
  | cons m l ih =>
    obtain ⟨as, n, hl, has⟩ := ih (d.attach m)
    refine ⟨⟨d.fresh, m⟩ :: as, n, ?_, by simp [has]⟩
    rw [List.foldl_cons, hl]
    simp [attach]

end Descriptor

namespace TypeExpr

/-- A variable of the class: a subscripted `ClassVar` under annotation layers. -/
def IsClassVar (t : TypeExpr) : Prop := ∃ a vs, Under t (.qualified .classVar a) vs

end TypeExpr

open TypeExpr

/-- What the annotation of an attribute declares: the type under the annotation layers, and for a
final attribute the type that it is final with, also without its layers. -/
inductive DeclaredType.Of : TypeExpr → DeclaredType → Prop
  | plain {t u : TypeExpr} {vs : List Value} (h : Under t u vs) (hb : u ≠ .qualifier .final)
      (hq : ∀ q a, u ≠ .qualified q a) : Of t ⟨u, vs, true⟩
  | final {t a u : TypeExpr} {vs us : List Value} (h : Under t (.qualified .final a) vs)
      (ha : Under a u us) : Of t ⟨u, vs ++ us, false⟩
  | bareFinal {t : TypeExpr} {vs : List Value} (h : Under t (.qualifier .final) vs) :
      Of t ⟨.cls ClassId.any, vs, false⟩

theorem DeclaredType.of_ofAnnotation {t : TypeExpr} {d : DeclaredType}
    (h : DeclaredType.ofAnnotation t = some d) : DeclaredType.Of t d := by
  have ht := under_strip t
  unfold DeclaredType.ofAnnotation at h
  split at h
  · cases h
  · next a hbase =>
    rw [hbase] at ht
    cases h
    exact .final ht (under_strip a)
  · next hbase =>
    rw [hbase] at ht
    cases h
    exact .bareFinal ht
  · next hc hf hb =>
    cases h
    refine .plain ht hb fun q a hq => ?_
    cases q with
    | final => exact hf a hq
    | classVar => exact hc a hq

theorem DeclaredType.isClassVar_of_none {t : TypeExpr} (h : DeclaredType.ofAnnotation t = none) :
    t.IsClassVar := by
  unfold DeclaredType.ofAnnotation at h
  split at h
  · next a hbase => exact ⟨a, t.notes, hbase ▸ under_strip t⟩
  all_goals cases h

theorem DeclaredType.not_isClassVar {t : TypeExpr} {d : DeclaredType}
    (h : DeclaredType.ofAnnotation t = some d) : ¬ t.IsClassVar := by
  rintro ⟨a, vs, ht⟩
  simp [DeclaredType.ofAnnotation, ht.strip_eq.1] at h

/-- A member that a class declares: an annotated attribute or a property object. -/
inductive ClassMember where
  | annotated (owner : ClassId) (name : String) (type : TypeExpr)
  | property (owner : ClassId) (property : Property)

namespace ClassMember

def owner : ClassMember → ClassId
  | .annotated k _ _ => k
  | .property k _ => k

def name : ClassMember → String
  | .annotated _ name _ => name
  | .property _ p => p.name

/-- The type, the notes and the writability that the declaration gives. -/
inductive Gives (w : World) : ClassMember → DeclaredType → Prop
  | annotated {k : ClassId} {name : String} {t u : TypeExpr} {d : DeclaredType}
      (hu : w.resolve? k t = .ok u) (hd : DeclaredType.Of u d) :
      Gives w (.annotated k name t) { d with writable := d.writable && !w.isFrozen k }
  | property {k : ClassId} {p : Property} {t u v : TypeExpr} {vs : List Value}
      (ht : p.result = some t) (hu : w.resolve? k t = .ok u) (hv : Under u v vs) :
      Gives w (.property k p) ⟨v, vs, p.writable⟩

end ClassMember

namespace World

variable (w : World) (c : ClassId)

def declarationsOf (k : ClassId) : List ClassMember :=
  (w.ownAttributes k).map (fun a => .annotated k a.1 a.2) ++ (w.ownProperties k).map (.property k)

/-- The lineage, without `object`. -/
def ancestry : List ClassId := (w.lineage c).filter (· ≠ ClassId.object)

def declarations : List ClassMember := (w.ancestry c).flatMap w.declarationsOf

/-- The first class of the lineage to annotate the name, and its annotation. -/
def annotation? (name : String) : Option (ClassId × TypeExpr) :=
  (w.lineage c).findSome? fun k => ((w.ownAttributes k).lookup name).map (k, ·)

/-- An attribute counts if its class is the first to annotate the name and it is no variable of the
class, a property object if it has a getter with a result type. -/
def Counts : ClassMember → Prop
  | .annotated k name t =>
    w.annotation? c name = some (k, t) ∧ ∃ u, w.resolve? k t = .ok u ∧ ¬ u.IsClassVar
  | .property _ p => p.readable = true ∧ p.result.isSome = true

/-- The declaration counts, and none before it for the same name does. -/
def Leads (e : ClassMember) : Prop :=
  ∃ before after, w.declarations c = before ++ e :: after ∧ w.Counts c e ∧
    ∀ e' ∈ before, e'.name = e.name → ¬ w.Counts c e'

/-- The class `k` has a declaration of the name that counts. -/
def Offers (k : ClassId) (name : String) : Prop :=
  ∃ e ∈ w.declarationsOf k, e.name = name ∧ w.Counts c e

/-- The markers among the notes, without default values. -/
def markersAmong (notes : List Value) : List Marker :=
  (notes.filterMap Marker.ofValue?).filter fun m => !Descriptor.isOf w MarkerShape.defaultValue.kind m

/-- The descriptor is what the declaration gives when reflecting the class `c`. -/
structure Describes (e : ClassMember) (d : Descriptor) : Prop where
  name : d.name = e.name
  declaring : d.declaring = e.owner
  reflected : d.reflected = c
  readable : d.readable = true
  own : ∃ notes, e.Gives w ⟨d.type, notes, d.writable⟩ ∧ d.markers = w.markersAmong notes

/-- The annotations and the result types that the lineage declares lead to types. -/
structure Resolves : Prop where
  attributes : ∀ k ∈ w.lineage c, ∀ a ∈ w.ownAttributes k, ∃ u, w.resolve? k a.2 = .ok u
  results : ∀ k ∈ w.lineage c, ∀ p ∈ w.ownProperties k, ∀ t, p.result = some t →
    ∃ u, w.resolve? k t = .ok u

/-- What the descriptors of a class are. -/
structure Reflects (ds : List Descriptor) : Prop where
  nodup : (namesOf ds).Nodup
  isPublic : ∀ d ∈ ds, World.isPublic d.name = true
  ordered : ∃ es, es.Sublist (w.declarations c) ∧ List.Forall₂ (w.Describes c) es ds ∧
    ∀ e ∈ es, w.Leads c e
  appears : ∀ name, World.isPublic name = true →
    (name ∈ namesOf ds ↔ ∃ k ∈ w.lineage c, k ≠ ClassId.object ∧ w.Offers c k name)
  declaring : ∀ d ∈ ds, ∃ before after, w.ancestry c = before ++ d.declaring :: after ∧
    w.Offers c d.declaring d.name ∧ ∀ k ∈ before, ¬ w.Offers c k d.name

variable {w c}

theorem owner_of_mem {e : ClassMember} {k : ClassId} (h : e ∈ w.declarationsOf k) : e.owner = k := by
  rcases List.mem_append.1 h with h | h
  · obtain ⟨a, -, rfl⟩ := List.mem_map.1 h
    rfl
  · obtain ⟨p, -, rfl⟩ := List.mem_map.1 h
    rfl

theorem mem_ancestry {k : ClassId} : k ∈ w.ancestry c ↔ k ∈ w.lineage c ∧ k ≠ ClassId.object := by
  simp [ancestry]

/-! The hints, which are merged over the whole lineage. -/

theorem resolved_lookup {k : ClassId} {as hs : List (String × TypeExpr)}
    (h : as.mapM (fun a => return (a.1, ← w.resolve? k a.2)) = .ok hs) (name : String) :
    (as.lookup name = none ∧ hs.lookup name = none) ∨
      ∃ t u, as.lookup name = some t ∧ w.resolve? k t = .ok u ∧ hs.lookup name = some u := by
  induction as generalizing hs with
  | nil =>
    cases h
    exact .inl ⟨rfl, rfl⟩
  | cons a as ih =>
    rw [List.mapM_cons] at h
    obtain ⟨b, hb, h⟩ := except_bind_ok h
    obtain ⟨u, hu, hb⟩ := except_bind_ok hb
    obtain ⟨rest, hrest, h⟩ := except_bind_ok h
    cases hb
    cases h
    by_cases hname : name = a.1
    · subst hname
      exact .inr ⟨a.2, u, List.lookup_cons_self, hu, List.lookup_cons_self⟩
    · have hne : (name == a.1) = false := by simpa using hname
      rw [List.lookup_cons, List.lookup_cons, hne]
      exact ih hrest

theorem merged_lookup {ks : List ClassId} {ls : List (List (String × TypeExpr))}
    (h : ks.mapM w.resolvedAttributes? = .ok ls) (name : String) :
    ((ks.findSome? fun k => ((w.ownAttributes k).lookup name).map (k, ·)) = none ∧
        ls.flatten.lookup name = none) ∨
      ∃ k t u, (ks.findSome? fun k => ((w.ownAttributes k).lookup name).map (k, ·)) = some (k, t) ∧
        w.resolve? k t = .ok u ∧ ls.flatten.lookup name = some u := by
  induction ks generalizing ls with
  | nil =>
    cases h
    exact .inl ⟨rfl, rfl⟩
  | cons k ks ih =>
    rw [List.mapM_cons] at h
    obtain ⟨hs, hhs, h⟩ := except_bind_ok h
    obtain ⟨rest, hrest, h⟩ := except_bind_ok h
    cases h
    rw [List.flatten_cons, List.lookup_append]
    rcases resolved_lookup hhs name with ⟨hown, hnone⟩ | ⟨t, u, hown, hu, hsome⟩
    · rw [List.findSome?_cons, hown, hnone]
      exact ih hrest
    · exact .inr ⟨k, t, u, by simp [hown], hu, by simp [hsome]⟩

theorem hints_lookup {hints : List (String × TypeExpr)} (h : w.hints? c = .ok hints) (name : String) :
    (w.annotation? c name = none ∧ hints.lookup name = none) ∨
      ∃ k t u, w.annotation? c name = some (k, t) ∧ w.resolve? k t = .ok u ∧
        hints.lookup name = some u := by
  obtain ⟨ls, hls, hh⟩ := except_bind_ok h
  cases hh
  exact merged_lookup hls name

/-- Before the first annotation of a name stands no attribute of that name. -/
theorem declarations_first {k : ClassId} {name : String} {t : TypeExpr}
    (ho : w.ownAttributes ClassId.object = []) (h : w.annotation? c name = some (k, t)) :
    ∃ before after, w.declarations c = before ++ .annotated k name t :: after ∧
      ∀ k' t', .annotated k' name t' ∉ before := by
  obtain ⟨ks, k', ks', hks, hk, hbefore⟩ := List.findSome?_eq_some_iff.1 h
  obtain ⟨t', ht', hkt⟩ := Option.map_eq_some_iff.1 hk
  obtain ⟨rfl, rfl⟩ := Prod.mk.inj hkt
  obtain ⟨as, as', has, hname⟩ := List.lookup_eq_some_iff.1 ht'
  have hobject : k' ≠ ClassId.object := by
    rintro rfl
    rw [ho] at ht'
    cases ht'
  refine ⟨(ks.filter (· ≠ ClassId.object)).flatMap w.declarationsOf ++
      as.map (fun a => .annotated k' a.1 a.2),
    as'.map (fun a => .annotated k' a.1 a.2) ++ (w.ownProperties k').map (.property k') ++
      (ks'.filter (· ≠ ClassId.object)).flatMap w.declarationsOf, ?_, ?_⟩
  · simp [declarations, ancestry, hks, hobject, declarationsOf, has]
  · intro d u hmem
    rcases List.mem_append.1 hmem with hmem | hmem
    · obtain ⟨d', hd', hmem⟩ := List.mem_flatMap.1 hmem
      have hnone : (w.ownAttributes d').lookup name = none := by
        simpa using hbefore d' (List.mem_filter.1 hd').1
      rcases List.mem_append.1 hmem with hmem | hmem
      · obtain ⟨a, ha, hat⟩ := List.mem_map.1 hmem
        cases hat
        simpa using List.lookup_eq_none_iff.1 hnone a ha
      · obtain ⟨p, -, hp⟩ := List.mem_map.1 hmem
        cases hp
    · obtain ⟨a, ha, hat⟩ := List.mem_map.1 hmem
      cases hat
      simpa using hname a ha

/-! Reflection goes through the declarations one by one. -/

variable (w c) in
def consider (hints : List (String × TypeExpr)) (found : List Descriptor) :
    ClassMember → Except UnresolvedName (List Descriptor)
  | .annotated k name _ => .ok (w.reflectAttributes c k hints [name] found)
  | .property k p => w.reflectProperties c k [p] found

theorem reflectAttributes_cons (k : ClassId) (hints : List (String × TypeExpr)) (name : String)
    (rest : List String) (found : List Descriptor) :
    w.reflectAttributes c k hints (name :: rest) found =
      w.reflectAttributes c k hints rest (w.reflectAttributes c k hints [name] found) := rfl

theorem reflectProperties_cons (k : ClassId) (p : Property) (rest : List Property)
    (found : List Descriptor) :
    w.reflectProperties c k (p :: rest) found =
      w.reflectProperties c k [p] found >>= w.reflectProperties c k rest := by
  simp only [reflectProperties]
  split
  · rfl
  · cases p.result with
    | none => rfl
    | some t =>
      dsimp only
      cases w.resolve? k t <;> rfl

theorem reflectClass_eq (k : ClassId) (hints : List (String × TypeExpr)) (found : List Descriptor) :
    w.reflectClass c k hints found = (w.declarationsOf k).foldlM (w.consider c hints) found := by
  have hattributes : ∀ (as : List (String × TypeExpr)) (found : List Descriptor),
      (as.map fun a => ClassMember.annotated k a.1 a.2).foldlM (w.consider c hints) found =
        .ok (w.reflectAttributes c k hints (as.map (·.1)) found) := by
    intro as
    induction as with
    | nil => exact fun _ => rfl
    | cons a as ih =>
      intro found
      rw [List.map_cons, List.foldlM_cons, List.map_cons, reflectAttributes_cons]
      exact ih _
  have hproperties : ∀ (ps : List Property) (found : List Descriptor),
      (ps.map (ClassMember.property k)).foldlM (w.consider c hints) found =
        w.reflectProperties c k ps found := by
    intro ps
    induction ps with
    | nil => exact fun _ => rfl
    | cons p ps ih =>
      intro found
      rw [List.map_cons, List.foldlM_cons, reflectProperties_cons]
      exact congrArg _ (funext ih)
  rw [declarationsOf, List.foldlM_append, hattributes, reflectClass]
  exact (hproperties _ _).symm

theorem reflect?_eq {hints : List (String × TypeExpr)} (h : w.hints? c = .ok hints) :
    w.reflect? c = (w.declarations c).foldlM (w.consider c hints) [] := by
  have hfold : ∀ (ks : List ClassId) (found : List Descriptor),
      ks.foldlM (fun found k => w.reflectClass c k hints found) found =
        (ks.flatMap w.declarationsOf).foldlM (w.consider c hints) found := by
    intro ks
    induction ks with
    | nil => exact fun _ => rfl
    | cons k ks ih =>
      intro found
      rw [List.foldlM_cons, List.flatMap_cons, List.foldlM_append, reflectClass_eq]
      exact congrArg _ (funext ih)
  rw [reflect?, h]
  exact hfold _ _

/-- What is found after the first declarations. -/
structure Chosen (w : World) (c : ClassId) (before : List ClassMember) (found : List Descriptor) :
    Prop where
  nodup : (namesOf found).Nodup
  described : ∃ es, es.Sublist before ∧ List.Forall₂ (w.Describes c) es found ∧
    ∀ e ∈ es, World.isPublic e.name = true ∧ w.Leads c e
  complete : ∀ e ∈ before, World.isPublic e.name = true → w.Counts c e → e.name ∈ namesOf found

theorem Chosen.skip {before : List ClassMember} {found : List Descriptor} {e : ClassMember}
    (h : w.Chosen c before found)
    (he : World.isPublic e.name = true → w.Counts c e → e.name ∈ namesOf found) :
    w.Chosen c (before ++ [e]) found := by
  obtain ⟨es, hsub, hdesc, hlead⟩ := h.described
  refine ⟨h.nodup, ⟨es, hsub.trans (List.sublist_append_left _ _), hdesc, hlead⟩, ?_⟩
  intro e' hmem
  rcases List.mem_append.1 hmem with hmem | hmem
  · exact h.complete e' hmem
  · rw [List.mem_singleton.1 hmem]
    exact he

theorem Chosen.add {before after : List ClassMember} {found : List Descriptor} {e : ClassMember}
    {d : Descriptor} (h : w.Chosen c before found) (hsplit : w.declarations c = before ++ e :: after)
    (hpublic : World.isPublic e.name = true) (hnew : e.name ∉ namesOf found)
    (hcounts : w.Counts c e) (hd : w.Describes c e d) : w.Chosen c (before ++ [e]) (found ++ [d]) := by
  obtain ⟨es, hsub, hdesc, hlead⟩ := h.described
  have hleads : w.Leads c e := by
    refine ⟨before, after, hsplit, hcounts, fun e' he' hname hcounts' => hnew ?_⟩
    rw [← hname]
    exact h.complete e' he' (by rw [hname, hpublic]) hcounts'
  refine ⟨?_, ⟨es ++ [e], hsub.append (List.Sublist.refl _),
    List.rel_append hdesc (List.Forall₂.cons hd .nil), ?_⟩, ?_⟩
  · simp only [namesOf, List.map_append, List.map_cons, List.map_nil, hd.name]
    exact List.nodup_append.2 ⟨h.nodup, by simp, fun a ha b hb hab => hnew (by simp_all [namesOf])⟩
  · intro e' hmem
    rcases List.mem_append.1 hmem with hmem | hmem
    · exact hlead e' hmem
    · rw [List.mem_singleton.1 hmem]
      exact ⟨hpublic, hleads⟩
  · intro e' hmem hp hc
    simp only [namesOf, List.map_append, List.mem_append]
    rcases List.mem_append.1 hmem with hmem | hmem
    · exact .inl (h.complete e' hmem hp hc)
    · rw [List.mem_singleton.1 hmem, ← hd.name]
      exact .inr (by simp)

/-! What a single declaration adds. -/

theorem describes_described {e : ClassMember} {d : DeclaredType} {writable : Bool}
    (h : e.Gives w { d with writable := writable }) :
    w.Describes c e (w.described c e.owner e.name d writable) := by
  obtain ⟨as, n, heq, has⟩ := Descriptor.foldl_attach (w.markersAmong d.notes)
    { name := e.name, type := d.type, declaring := e.owner, reflected := c, readable := true
      writable := writable }
  have hdescribed : w.described c e.owner e.name d writable =
      { name := e.name, type := d.type, declaring := e.owner, reflected := c, readable := true
        writable := writable, attachments := as, fresh := n } := heq
  rw [hdescribed]
  exact ⟨rfl, rfl, rfl, rfl, d.notes, h, has⟩

theorem any_name_iff {name : String} {found : List Descriptor} :
    (found.any fun d => decide (d.name = name)) = true ↔ name ∈ namesOf found := by
  simp [namesOf]

theorem Chosen.annotated {before after : List ClassMember} {found : List Descriptor} {k : ClassId}
    {name : String} {t : TypeExpr} {hints : List (String × TypeExpr)}
    (ho : w.ownAttributes ClassId.object = []) (hh : w.hints? c = .ok hints)
    (h : w.Chosen c before found)
    (hsplit : w.declarations c = before ++ .annotated k name t :: after) :
    w.Chosen c (before ++ [.annotated k name t]) (w.reflectAttributes c k hints [name] found) := by
  simp only [reflectAttributes]
  split
  · next hseen =>
    refine h.skip fun hpublic _ => ?_
    simp only [ClassMember.name] at hpublic ⊢
    rw [← any_name_iff]
    simpa only [hpublic, Bool.not_true, Bool.false_or] using hseen
  · next hseen =>
    obtain ⟨hpublic, hnew⟩ := Bool.or_eq_false_iff.1 (Bool.not_eq_true _ ▸ hseen)
    have hpublic : World.isPublic name = true := by simpa using hpublic
    have hnew : name ∉ namesOf found := by simp [← any_name_iff, hnew]
    split
    · next hnone =>
      -- a variable of the class in the first class to annotate the name
      refine h.skip fun _ hcounts => ?_
      obtain ⟨hfirst, u, hu, hvar⟩ := hcounts
      rcases hints_lookup hh name with ⟨hno, -⟩ | ⟨k', t', u', hfirst', hu', hlookup⟩
      · rw [hfirst] at hno
        cases hno
      · rw [hfirst, Option.some.injEq, Prod.mk.injEq] at hfirst'
        obtain ⟨rfl, rfl⟩ := hfirst'
        rw [hu, Except.ok.injEq] at hu'
        subst hu'
        rw [hlookup, Option.bind_some] at hnone
        exact absurd (DeclaredType.isClassVar_of_none hnone) hvar
    · next d hd =>
      rcases hints_lookup hh name with ⟨-, hno⟩ | ⟨k', t', u, hfirst, hu, hlookup⟩
      · rw [hno] at hd
        cases hd
      · rw [hlookup, Option.bind_some] at hd
        have hcounts : w.Counts c (.annotated k' name t') :=
          ⟨hfirst, u, hu, DeclaredType.not_isClassVar hd⟩
        obtain ⟨first, rest, hsplit', hfree⟩ := declarations_first ho hfirst
        rcases mem_before_of_split (hsplit'.symm.trans hsplit) (hfree k t) with heq | hmem
        · cases heq
          exact h.add hsplit hpublic hnew hcounts
            (describes_described (e := .annotated k name t)
              (.annotated hu (DeclaredType.of_ofAnnotation hd)))
        · exact absurd (h.complete _ hmem hpublic hcounts) hnew

theorem Chosen.property {before after : List ClassMember} {found : List Descriptor} {k : ClassId}
    {p : Property} (hr : ∀ t, p.result = some t → ∃ u, w.resolve? k t = .ok u)
    (h : w.Chosen c before found) (hsplit : w.declarations c = before ++ .property k p :: after) :
    ∃ next, w.reflectProperties c k [p] found = .ok next ∧
      w.Chosen c (before ++ [.property k p]) next := by
  simp only [reflectProperties]
  split
  · next hseen =>
    refine ⟨found, rfl, h.skip fun hpublic hcounts => ?_⟩
    simp only [ClassMember.name] at hpublic ⊢
    rw [← any_name_iff]
    simpa only [hpublic, hcounts.1, Bool.not_true, Bool.false_or, Bool.or_false] using hseen
  · next hseen =>
    simp only [Bool.not_eq_true, Bool.or_eq_false_iff, Bool.not_eq_false'] at hseen
    obtain ⟨⟨hpublic, hnew⟩, hreadable⟩ := hseen
    cases hres : p.result with
    | none =>
      refine ⟨found, rfl, h.skip fun _ hcounts => ?_⟩
      simp [Counts, hres] at hcounts
    | some t =>
      obtain ⟨u, hu⟩ := hr t hres
      refine ⟨found ++ [w.described c k p.name ⟨u.base, u.notes, true⟩ p.writable], by dsimp only; rw [hu]; rfl, ?_⟩
      exact h.add hsplit hpublic (by simp [← any_name_iff, hnew, ClassMember.name]) ⟨hreadable, by simp [hres]⟩
        (describes_described (e := .property k p) (.property hres hu (under_strip u)))

theorem Chosen.step {before after : List ClassMember} {found : List Descriptor} {e : ClassMember}
    {hints : List (String × TypeExpr)} (hr : w.Resolves c) (ho : w.ownAttributes ClassId.object = [])
    (hh : w.hints? c = .ok hints) (h : w.Chosen c before found)
    (hsplit : w.declarations c = before ++ e :: after) :
    ∃ next, w.consider c hints found e = .ok next ∧ w.Chosen c (before ++ [e]) next := by
  cases e with
  | annotated k name t => exact ⟨_, rfl, h.annotated ho hh hsplit⟩
  | property k p =>
    refine h.property (fun t ht => ?_) hsplit
    obtain ⟨k', hk', hmem⟩ := List.mem_flatMap.1 (hsplit ▸ List.mem_append_cons_self :
      ClassMember.property k p ∈ w.declarations c)
    have hk : k = k' := owner_of_mem hmem
    have hp : p ∈ w.ownProperties k := by
      subst hk
      simpa [declarationsOf] using hmem
    exact hr.results k (hk ▸ (mem_ancestry.1 hk').1) p hp t ht

theorem Chosen.run {before after : List ClassMember} {found : List Descriptor}
    {hints : List (String × TypeExpr)} (hr : w.Resolves c) (ho : w.ownAttributes ClassId.object = [])
    (hh : w.hints? c = .ok hints) (h : w.Chosen c before found)
    (hsplit : w.declarations c = before ++ after) :
    ∃ ds, after.foldlM (w.consider c hints) found = .ok ds ∧ w.Chosen c (w.declarations c) ds := by
  induction after generalizing before found with
  | nil => exact ⟨found, rfl, by simpa [hsplit] using h⟩
  | cons e after ih =>
    obtain ⟨next, hnext, hfound⟩ := h.step hr ho hh hsplit
    obtain ⟨ds, hds, hall⟩ := ih hfound (by simp [hsplit])
    refine ⟨ds, ?_, hall⟩
    rw [List.foldlM_cons, hnext]
    exact hds

/-- The types that a class declares its members with. -/
def declaredTypes (w : World) (k : ClassId) : List TypeExpr :=
  (w.ownAttributes k).map (·.2) ++ (w.ownProperties k).filterMap (·.result)

theorem resolves_of_all
    (h : ((w.lineage c).all fun k => (w.declaredTypes k).all fun t => (w.resolve? k t).isOk) = true) :
    w.Resolves c := by
  have hall : ∀ k ∈ w.lineage c, ∀ t ∈ w.declaredTypes k, ∃ u, w.resolve? k t = .ok u := by
    intro k hk t ht
    have hok := List.all_eq_true.1 (List.all_eq_true.1 h k hk) t ht
    cases hu : w.resolve? k t with
    | ok u => exact ⟨u, rfl⟩
    | error e =>
      rw [hu] at hok
      cases hok
  refine ⟨fun k hk a ha => hall k hk a.2 ?_, fun k hk p hp t ht => hall k hk t ?_⟩
  · exact List.mem_append_left _ (List.mem_map_of_mem ha)
  · exact List.mem_append_right _ (List.mem_filterMap.2 ⟨p, hp, ht⟩)

theorem Resolves.hints (hr : w.Resolves c) : ∃ hints, w.hints? c = .ok hints := by
  obtain ⟨ls, hls⟩ := mapM_ok_of_forall (f := w.resolvedAttributes?) (l := w.lineage c) fun k hk =>
    mapM_ok_of_forall fun a ha => by
      obtain ⟨u, hu⟩ := hr.attributes k hk a ha
      exact ⟨(a.1, u), by simp only [hu]; rfl⟩
  exact ⟨ls.flatten, by rw [hints?, hls]; rfl⟩

/-! The answer in terms of the classes. -/

theorem offers_iff {name : String} : (∃ e ∈ w.declarations c, e.name = name ∧ w.Counts c e) ↔
    ∃ k ∈ w.lineage c, k ≠ ClassId.object ∧ w.Offers c k name := by
  constructor
  · rintro ⟨e, he, hname, hcounts⟩
    obtain ⟨k, hk, hmem⟩ := List.mem_flatMap.1 he
    exact ⟨k, (mem_ancestry.1 hk).1, (mem_ancestry.1 hk).2, e, hmem, hname, hcounts⟩
  · rintro ⟨k, hk, hobject, e, hmem, hname, hcounts⟩
    exact ⟨e, List.mem_flatMap.2 ⟨k, mem_ancestry.2 ⟨hk, hobject⟩, hmem⟩, hname, hcounts⟩

/-- The class of the declaration that leads is the first to offer the name. -/
theorem Leads.first {e : ClassMember} (h : w.Leads c e) : ∃ before after,
    w.ancestry c = before ++ e.owner :: after ∧ w.Offers c e.owner e.name ∧
      ∀ k ∈ before, ¬ w.Offers c k e.name := by
  obtain ⟨earlier, later, hsplit, hcounts, hno⟩ := h
  obtain ⟨k, hk, hmem⟩ := List.mem_flatMap.1 (hsplit ▸ List.mem_append_cons_self :
    e ∈ w.declarations c)
  obtain rfl := owner_of_mem hmem
  obtain ⟨before, after, hks, hfirst⟩ := List.eq_append_cons_of_mem hk
  refine ⟨before, after, hks, ⟨e, hmem, rfl, hcounts⟩, ?_⟩
  rintro k hk' ⟨e', he', hname, hcounts'⟩
  have hparts : before.flatMap w.declarationsOf ++ (e.owner :: after).flatMap w.declarationsOf =
      earlier ++ e :: later := by
    rw [← List.flatMap_append, ← hks, ← hsplit, declarations]
  have hout : e ∉ before.flatMap w.declarationsOf := by
    intro hmem'
    obtain ⟨k', hk', hmem'⟩ := List.mem_flatMap.1 hmem'
    exact hfirst (owner_of_mem hmem' ▸ hk')
  exact hno e' (subset_of_split hparts hout (List.mem_flatMap.2 ⟨k, hk', he'⟩)) hname hcounts'

theorem Chosen.reflects {ds : List Descriptor} (h : w.Chosen c (w.declarations c) ds) :
    w.Reflects c ds := by
  obtain ⟨es, hsub, hdesc, hlead⟩ := h.described
  have hfrom : ∀ d ∈ ds, ∃ e ∈ es, w.Describes c e d := fun _ hd => exists_of_forall₂ hdesc hd
  refine ⟨h.nodup, ?_, ⟨es, hsub, hdesc, fun e he => (hlead e he).2⟩, ?_, ?_⟩
  · intro d hd
    obtain ⟨e, he, hde⟩ := hfrom d hd
    rw [hde.name]
    exact (hlead e he).1
  · intro name hpublic
    rw [← offers_iff]
    constructor
    · intro hmem
      obtain ⟨d, hd, rfl⟩ := List.mem_map.1 hmem
      obtain ⟨e, he, hde⟩ := hfrom d hd
      obtain ⟨before, after, hsplit, hcounts, -⟩ := (hlead e he).2
      exact ⟨e, hsub.subset he, hde.name.symm, hcounts⟩
    · rintro ⟨e, he, rfl, hcounts⟩
      exact h.complete e he hpublic hcounts
  · intro d hd
    obtain ⟨e, he, hde⟩ := hfrom d hd
    rw [hde.name, hde.declaring]
    exact (hlead e he).2.first

end World

/-! A class with two bases of one origin. -/

namespace Diamond

def origin : ClassId := ⟨"shapes", "Origin", 0⟩
def left : ClassId := ⟨"shapes", "Left", 0⟩
def right : ClassId := ⟨"shapes", "Right", 0⟩
def bottom : ClassId := ⟨"shapes", "Bottom", 0⟩

/-- The left class makes the size a variable of the class and gives it as a property object, the
right one makes the label final. -/
def world : World where
  modules := []
  classes := [
    { id := origin, lineage := [origin, ClassId.object]
      attributes := [("size", .cls ClassId.int), ("label", .cls ClassId.str)]
      properties := [⟨"note", some (.cls ClassId.str), true, false⟩] },
    { id := left, lineage := [left, origin, ClassId.object]
      attributes := [("size", .qualified .classVar (.cls ClassId.int))]
      properties := [⟨"note", none, true, true⟩, ⟨"size", some (.cls ClassId.float), true, true⟩] },
    { id := right, lineage := [right, origin, ClassId.object]
      attributes := [("label", .qualified .final (.annotated (.cls ClassId.str) [.text "fixed"]))] },
    { id := bottom, lineage := [bottom, left, right, origin, ClassId.object] }]

example : (world.reflect? bottom).toOption.map World.namesOf = some ["size", "label", "note"] := by
  decide

end Diamond

end ModelContracts
