import Mathlib.Data.List.Forall2
import ModelContracts.Proofs.Reference.Naming

/-!
Texts as phrases: words that stand as they are, and mentions that go by the names that a ledger gives.
What is written while names are still being recorded is written with the names that everything has in
the end. The types of properties are texts of this kind.
-/

namespace ModelContracts

open Ledger

inductive Piece where
  | word (s : String)
  | mention (m : Mention)
deriving DecidableEq, Repr

abbrev Phrase := List Piece

namespace Phrase

def text (name : Mention → String) : Phrase → String
  | [] => ""
  | .word s :: p => s ++ text name p
  | .mention m :: p => name m ++ text name p

def mentions : Phrase → List Mention
  | [] => []
  | .word _ :: p => mentions p
  | .mention m :: p => m :: mentions p

def commas : List Phrase → Phrase
  | [] => []
  | [p] => p
  | p :: q :: rest => p ++ .word ", " :: commas (q :: rest)

def bracketed (head : Phrase) (parts : List Phrase) : Phrase :=
  head ++ .word "[" :: commas parts ++ [.word "]"]

/-- A call with its arguments. -/
def call (head inner : Phrase) : Phrase := head ++ .word "(" :: inner ++ [.word ")"]

variable {name : Mention → String}

@[simp] theorem text_append (p q : Phrase) : (p ++ q).text name = p.text name ++ q.text name := by
  induction p with
  | nil => simp [text]
  | cons a p ih => cases a <;> simp [text, ih, String.append_assoc]

@[simp] theorem mentions_append (p q : Phrase) : (p ++ q).mentions = p.mentions ++ q.mentions := by
  induction p with
  | nil => rfl
  | cons a p ih => cases a <;> simp [mentions, ih]

theorem text_commas (ps : List Phrase) :
    (commas ps).text name = Text.commaList (ps.map (text name)) := by
  unfold Text.commaList
  induction ps with
  | nil => rfl
  | cons p rest ih =>
    cases rest with
    | nil => simp [commas]
    | cons q rest =>
      rw [commas, text_append, text, ih, List.map_cons, List.map_cons, List.map_cons,
        String.intercalate_cons_cons, String.append_assoc]

theorem mentions_commas {ps : List Phrase} {m : Mention} (h : m ∈ (commas ps).mentions) :
    ∃ p ∈ ps, m ∈ p.mentions := by
  induction ps with
  | nil => cases h
  | cons p rest ih =>
    cases rest with
    | nil => exact ⟨p, List.mem_cons_self, h⟩
    | cons q rest =>
      rw [commas, mentions_append, mentions, List.mem_append] at h
      rcases h with h | h
      · exact ⟨p, List.mem_cons_self, h⟩
      · obtain ⟨r, hr, hm⟩ := ih h
        exact ⟨r, List.mem_cons_of_mem p hr, hm⟩

end Phrase

/-! Writing with the names of a ledger. -/

variable {w : World} {L : Ledger}

/-- A text is written for a phrase: it has the names that the ledger gives, and gives ever after. -/
structure Written (w : World) (L : Ledger) (p : Phrase) (s : String) : Prop where
  text : s = p.text (L.nameOf w)
  settled : ∀ m ∈ p.mentions, L.Settled w m

/-- Some texts are written for as many phrases. -/
structure WrittenAll (w : World) (L : Ledger) (ps : List Phrase) (ss : List String) : Prop where
  texts : ss = ps.map (Phrase.text (L.nameOf w))
  settled : ∀ p ∈ ps, ∀ m ∈ p.mentions, L.Settled w m

namespace Written

variable {p q : Phrase} {s t : String} {ps : List Phrase} {ss : List String}

theorem word (s : String) : Written w L [.word s] s := ⟨by simp [Phrase.text], nofun⟩

theorem mention {m : Mention} (h : L.Settled w m) : Written w L [.mention m] (L.nameOf w m) :=
  ⟨by simp [Phrase.text], fun _ hn => List.mem_singleton.1 hn ▸ h⟩

theorem append (hp : Written w L p s) (hq : Written w L q t) : Written w L (p ++ q) (s ++ t) where
  text := by rw [Phrase.text_append, ← hp.text, ← hq.text]
  settled m hm := by
    rw [Phrase.mentions_append] at hm
    exact (List.mem_append.1 hm).elim (hp.settled m) (hq.settled m)

theorem call (hp : Written w L p s) (hq : Written w L q t) :
    Written w L (Phrase.call p q) (s ++ "(" ++ t ++ ")") := by
  have hwhole := (hp.append (word "(")).append (hq.append (word ")"))
  rw [← String.append_assoc] at hwhole
  simpa [Phrase.call] using hwhole

end Written

namespace WrittenAll

variable {p : Phrase} {s : String} {ps : List Phrase} {ss : List String}

theorem nil : WrittenAll w L [] [] := ⟨rfl, nofun⟩

theorem cons (hp : Written w L p s) (hps : WrittenAll w L ps ss) :
    WrittenAll w L (p :: ps) (s :: ss) where
  texts := by rw [List.map_cons, ← hp.text, ← hps.texts]
  settled q hq := by
    rcases List.mem_cons.1 hq with rfl | hq
    · exact hp.settled
    · exact hps.settled q hq

theorem append {qs : List Phrase} {ts : List String} (hp : WrittenAll w L ps ss)
    (hq : WrittenAll w L qs ts) : WrittenAll w L (ps ++ qs) (ss ++ ts) where
  texts := by rw [List.map_append, ← hp.texts, ← hq.texts]
  settled p hp' := (List.mem_append.1 hp').elim (hp.settled p) (hq.settled p)

theorem commas (h : WrittenAll w L ps ss) :
    Written w L (Phrase.commas ps) (Text.commaList ss) where
  text := by rw [Phrase.text_commas, ← h.texts]
  settled m hm := by
    obtain ⟨p, hp, hm⟩ := Phrase.mentions_commas hm
    exact h.settled p hp m hm

theorem squared (h : WrittenAll w L ps ss) :
    Written w L (.word "[" :: Phrase.commas ps ++ [.word "]"]) ("[" ++ Text.commaList ss ++ "]") :=
  ((Written.word "[").append h.commas).append (.word "]")

theorem isEmpty_eq (h : WrittenAll w L ps ss) : ss.isEmpty = ps.isEmpty := by
  rw [h.texts, List.isEmpty_map]

end WrittenAll

theorem Written.bracketed {p : Phrase} {s : String} {ps : List Phrase} {ss : List String}
    (hp : Written w L p s) (h : WrittenAll w L ps ss) :
    Written w L (Phrase.bracketed p ps) (ModelContracts.bracketed s ss) := by
  have hwhole := (hp.append (word "[")).append (h.commas.append (word "]"))
  rw [← String.append_assoc] at hwhole
  simpa [Phrase.bracketed, ModelContracts.bracketed] using hwhole

/-- A ledger in which all classes that were met have places. -/
def Ledger.Sure (w : World) (L : Ledger) : Prop := ∀ c ∈ L.types, w.Placed c

section

variable {ε σ α β : Type}

/-- Every run that succeeds makes the ledger grow, and what is said of its result is true by each
ledger that comes later. -/
def Tells (w : World) (ledger : σ → Ledger) (Q : Ledger → α → Prop) (m : ExceptT ε (StateM σ) α) :
    Prop :=
  ∀ ⦃s a t⦄, m.run s = (.ok a, t) →
    Grows w (ledger s) (ledger t) ∧ ∀ L, Grows w (ledger t) L → L.Sure w → Q L a

namespace Tells

variable {ledger : σ → Ledger} {P Q : Ledger → α → Prop} {R : Ledger → β → Prop}
  {m : ExceptT ε (StateM σ) α}

theorem mono (h : Tells w ledger P m) (hPQ : ∀ L a, P L a → Q L a) : Tells w ledger Q m := by
  intro s a t hr
  obtain ⟨hg, hP⟩ := h hr
  exact ⟨hg, fun L hL hs => hPQ L a (hP L hL hs)⟩

theorem pure {a : α} (h : ∀ L, Q L a) : Tells w ledger Q (pure a : ExceptT ε (StateM σ) α) := by
  intro s a' t hr
  cases hr
  exact ⟨.refl _, fun L _ _ => h L⟩

theorem throw (e : ε) : Tells w ledger Q (throw e : ExceptT ε (StateM σ) α) := by
  intro s a t hr
  cases hr

theorem bind {f : α → ExceptT ε (StateM σ) β} (hm : Tells w ledger P m)
    (hf : ∀ a, Tells w ledger (fun L b => P L a → R L b) (f a)) : Tells w ledger R (m >>= f) := by
  intro s b u hr
  obtain ⟨a, t, hma, hfb⟩ := run_bind_ok hr
  obtain ⟨hg, hP⟩ := hm hma
  obtain ⟨hg', hR⟩ := hf a hfb
  exact ⟨hg.trans hg', fun L hL hs => hR L hL hs (hP L (hg'.trans hL) hs)⟩

/-- What the first run told does not count. -/
theorem seq {f : α → ExceptT ε (StateM σ) β} (hm : Tells w ledger P m)
    (hf : ∀ a, Tells w ledger R (f a)) : Tells w ledger R (m >>= f) :=
  hm.bind fun a => (hf a).mono fun _ _ h _ => h

theorem map {f : α → β} (hm : Tells w ledger P m) (hf : ∀ L a, P L a → R L (f a)) :
    Tells w ledger R (f <$> m) := by
  intro s b t hr
  rw [run_map] at hr
  rcases h : m.run s with ⟨e | a, u⟩ <;> rw [h] at hr <;> cases hr
  obtain ⟨hg, hP⟩ := hm h
  exact ⟨hg, fun L hL hs => hf L a (hP L hL hs)⟩

/-- A run that leaves the ledger alone. -/
theorem of_same (h : ∀ ⦃s a t⦄, m.run s = (.ok a, t) → ledger t = ledger s ∧ ∀ L, Q L a) :
    Tells w ledger Q m := by
  intro s a t hr
  obtain ⟨hsame, hQ⟩ := h hr
  rw [hsame]
  exact ⟨.refl _, fun L _ _ => hQ L⟩

theorem mapM {f : α → ExceptT ε (StateM σ) β} {S : Ledger → α → β → Prop}
    (hf : ∀ a, Tells w ledger (fun L => S L a) (f a)) (l : List α) :
    Tells w ledger (fun L => List.Forall₂ (S L) l) (l.mapM f) := by
  induction l with
  | nil => exact .pure fun _ => .nil
  | cons a l ih =>
    rw [List.mapM_cons]
    exact (hf a).bind fun _ => ih.bind fun _ => .pure fun _ hrest hfirst => .cons hfirst hrest

end Tells

end

/-! Classes and forms. -/

def ClassId.phrase (c : ClassId) : Phrase :=
  if c = ClassId.noneType then [.word "None"] else [.mention (.cls c)]

def Phrase.form (name : String) : Phrase :=
  [.mention (if name = "Any" then .cls ClassId.any else .form name)]

theorem World.placeOf?_form (w : World) (name : String) :
    w.placeOf? (if name = "Any" then .cls ClassId.any else .form name) =
      some ⟨"typing", name, name, if name = "Any" then .cls ClassId.any else .form name⟩ := by
  split_ifs with hany
  · rw [hany]
    simp [World.placeOf?]
  · rfl

namespace Recording

/-- What is recorded for a place of something that was met. -/
theorem reference_tells {l : Ledger} {m : Mention} {p : Place} (hp : w.placeOf? m = some p)
    (hm : l.Met w m) :
    Grows w l (l.reference p.module p.top p.path p.anchor).2 ∧
      ∀ L, Grows w (l.reference p.module p.top p.path p.anchor).2 L →
        Written w L [.mention m] (l.reference p.module p.top p.path p.anchor).1 := by
  have hg := grows_reference hp hm
  have hnames := names_reference l p
  refine ⟨hg, fun L hL => ?_⟩
  obtain ⟨hsettled, hname⟩ := (hnames.grows hL).settled hp ((hm.grows hg).grows hL)
  rw [hname]
  exact .mention hsettled

theorem of_tells {f : Ledger → String × Ledger} {Q : Ledger → String → Prop}
    (h : ∀ l, Grows w l (f l).2 ∧ ∀ L, Grows w (f l).2 L → L.Sure w → Q L (f l).1) :
    Tells w id Q (of f) := by
  intro l s l' hr
  have hrun : (of f).run l = (.ok (f l).1, (f l).2) := rfl
  rw [hrun] at hr
  obtain ⟨hs, rfl⟩ := Prod.mk.inj hr
  obtain rfl := Except.ok.inj hs
  exact h l

theorem typingName_written {name : String} (hname : name ∈ typingForms) (l : Ledger) :
    Grows w l (l.typingName name).2 ∧ ∀ L, Grows w (l.typingName name).2 L →
      Written w L (Phrase.form name) (l.typingName name).1 := by
  unfold typingName
  have hmet : l.Met w (if name = "Any" then .cls ClassId.any else .form name) := by
    split_ifs
    · exact Or.inl rfl
    · exact hname
  exact reference_tells (w.placeOf?_form name) hmet

theorem form_tells {name : String} (hname : name ∈ typingForms) :
    Tells w id (fun L s => Written w L (Phrase.form name) s) (form name) :=
  of_tells fun l => (typingName_written hname l).imp_right fun hw L hL _ => hw L hL

/-- The text for a class, if it has a place, is its name, now and by each ledger that comes later. -/
theorem classText_written (l : Ledger) {c : ClassId} (hc : c ≠ ClassId.any) :
    Grows w l (classText w l c).2 ∧ ((isImplicit w c = false → w.Placed c) →
      ∀ L, Grows w (classText w l c).2 L → Written w L [.mention (.cls c)] (classText w l c).1) := by
  by_cases himplicit : isImplicit w c = true
  · unfold classText
    rw [if_pos himplicit]
    have hnone : w.placeOf? (.cls c) = Option.none := by
      simp [World.placeOf?, hc, himplicit]
    refine ⟨.refl l, fun _ L _ => ?_⟩
    have hname : L.nameOf w (.cls c) = c.qualName := by simp [nameOf, hnone, Mention.ownName]
    have hsettled : L.Settled w (.cls c) :=
      ⟨Or.inr (Or.inr himplicit), fun p hp => by rw [hnone] at hp; cases hp⟩
    simpa only [hname] using Written.mention hsettled
  have hexplicit : isImplicit w c = false := Bool.not_eq_true _ ▸ himplicit
  have hplace : w.placeOf? (.cls c) = some (w.place c) := by simp [World.placeOf?, hc, himplicit]
  have hmet : ({ l with types := addOnce c l.types } : Ledger).Met w (.cls c) :=
    Or.inr (Or.inl (mem_addOnce.2 (Or.inl rfl)))
  have hgrows := grows_types (w := w) l c
  by_cases hplaced : w.Placed c
  · obtain ⟨hg, hw⟩ := reference_tells hplace hmet
    rw [classText_of_placed l hexplicit hplaced]
    exact ⟨hgrows.trans hg, fun _ => hw⟩
  · have hunplaced : ¬ (isImplicit w c = false → w.Placed c) := fun h => hplaced (h hexplicit)
    refine ⟨?_, fun h => (hunplaced h).elim⟩
    rcases classText_of_unplaced l hexplicit hplaced with heq | heq <;> rw [heq]
    · exact hgrows
    · exact hgrows.trans (grows_importAlias hplace hmet)

theorem cls_tells {c : ClassId} (hc : c ≠ ClassId.any) :
    Tells w id (fun L s => Written w L [.mention (.cls c)] s) (cls w c) := by
  refine of_tells fun l => ?_
  obtain ⟨hg, hw⟩ := classText_written l hc
  refine ⟨hg, fun L hL hsure => hw (fun hnamed => hsure c (hL.types ?_)) L hL⟩
  rw [types_classText l hnamed]
  exact mem_addOnce.2 (Or.inl rfl)

theorem className_tells (c : ClassId) :
    Tells w id (fun L s => Written w L c.phrase s) (className w c) := by
  unfold className ClassId.phrase
  split_ifs with hnone hany
  · exact .pure fun L => .word _
  · subst hany
    exact form_tells (by decide)
  · exact cls_tells hany

/-- A class that has a place is written whatever was recorded before. -/
theorem className_written {c : ClassId} (hc : w.Placed c) (l : Ledger) :
    ∃ text l', (className w c).run l = (.ok text, l') ∧ Grows w l l' ∧
      ∀ L, Grows w l' L → Written w L c.phrase text := by
  unfold className ClassId.phrase
  split_ifs with hnone hany
  · exact ⟨_, l, rfl, .refl l, fun _ _ => .word _⟩
  · subst hany
    exact ⟨_, _, rfl, typingName_written (by decide) l⟩
  · obtain ⟨hg, hw⟩ := classText_written l hany
    exact ⟨_, _, rfl, hg, hw fun _ => hc⟩

end Recording

end ModelContracts
