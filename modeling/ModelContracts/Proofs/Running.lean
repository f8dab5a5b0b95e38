import Mathlib.Order.Defs.Unbundled

/-!
Programs with a state that may fail, run from a state. A step that binds two programs runs the
first and, unless it fails, the second where the first ended; so what every program does to the
state, and what it can fail with, is put together from its parts.
-/

namespace ModelContracts

variable {ε σ α β : Type}

section

variable (s : σ)

theorem run_pure (a : α) : (pure a : ExceptT ε (StateM σ) α).run s = (.ok a, s) := rfl

theorem run_throw (e : ε) : (throw e : ExceptT ε (StateM σ) α).run s = (.error e, s) := rfl

theorem run_get : (get : ExceptT ε (StateM σ) σ).run s = (.ok s, s) := rfl

theorem run_set (t : σ) : (set t : ExceptT ε (StateM σ) PUnit).run s = (.ok ⟨⟩, t) := rfl

theorem run_modify (f : σ → σ) :
    (modify f : ExceptT ε (StateM σ) PUnit).run s = (.ok ⟨⟩, f s) := rfl

theorem run_bind (m : ExceptT ε (StateM σ) α) (f : α → ExceptT ε (StateM σ) β) :
    (m >>= f).run s = match m.run s with
      | (.ok a, t) => (f a).run t
      | (.error e, t) => (.error e, t) := by
  simp only [bind, ExceptT.bind, ExceptT.run, ExceptT.mk, StateT.bind]
  rcases m s with ⟨_ | a, t⟩ <;> rfl

theorem run_map (f : α → β) (m : ExceptT ε (StateM σ) α) :
    (f <$> m).run s = ((m.run s).1.map f, (m.run s).2) := by
  simp only [Functor.map, ExceptT.map, ExceptT.run, ExceptT.mk, bind, StateT.bind]
  rcases m s with ⟨_ | a, t⟩ <;> rfl

theorem run_tryCatch (m : ExceptT ε (StateM σ) α) (h : ε → ExceptT ε (StateM σ) α) :
    (tryCatch m h).run s = match m.run s with
      | (.ok a, t) => (.ok a, t)
      | (.error e, t) => (h e).run t := by
  simp only [tryCatch, tryCatchThe, MonadExceptOf.tryCatch, ExceptT.tryCatch, ExceptT.run,
    ExceptT.mk, bind, StateT.bind]
  rcases m s with ⟨_ | a, t⟩ <;> rfl

theorem run_bind_of_ok {m : ExceptT ε (StateM σ) α} {f : α → ExceptT ε (StateM σ) β} {s t : σ}
    {a : α} (h : m.run s = (.ok a, t)) : (m >>= f).run s = (f a).run t := by rw [run_bind, h]

theorem run_bind_of_error {m : ExceptT ε (StateM σ) α} {f : α → ExceptT ε (StateM σ) β}
    {s t : σ} {e : ε} (h : m.run s = (.error e, t)) : (m >>= f).run s = (.error e, t) := by
  rw [run_bind, h]

theorem run_bind_ok {m : ExceptT ε (StateM σ) α} {f : α → ExceptT ε (StateM σ) β} {s u : σ}
    {b : β} (h : (m >>= f).run s = (.ok b, u)) :
    ∃ a t, m.run s = (.ok a, t) ∧ (f a).run t = (.ok b, u) := by
  rw [run_bind] at h
  rcases hm : m.run s with ⟨_ | a, t⟩ <;> rw [hm] at h
  · cases h
  · exact ⟨a, t, rfl, h⟩

theorem run_bind_error {m : ExceptT ε (StateM σ) α} {f : α → ExceptT ε (StateM σ) β} {s u : σ}
    {e : ε} (h : (m >>= f).run s = (.error e, u)) :
    m.run s = (.error e, u) ∨ ∃ a t, m.run s = (.ok a, t) ∧ (f a).run t = (.error e, u) := by
  rw [run_bind] at h
  rcases hm : m.run s with ⟨e' | a, t⟩ <;> rw [hm] at h
  · cases h
    exact Or.inl rfl
  · exact Or.inr ⟨a, t, rfl, h⟩

theorem run_of_isError {m : ExceptT ε (StateM σ) α} {s : σ} (h : (m.run s).1.isOk = false) :
    ∃ e t, m.run s = (.error e, t) := by
  rcases hr : m.run s with ⟨e | a, t⟩
  · exact ⟨e, t, rfl⟩
  · rw [hr] at h
    cases h

theorem run_of_isOk {m : ExceptT ε (StateM σ) α} {s : σ} (h : (m.run s).1.isOk = true) :
    ∃ a t, m.run s = (.ok a, t) := by
  rcases hr : m.run s with ⟨e | a, t⟩
  · rw [hr] at h
    cases h
  · exact ⟨a, t, rfl⟩

end

theorem except_bind_ok {x : Except ε α} {f : α → Except ε β} {b : β} (h : x >>= f = .ok b) :
    ∃ a, x = .ok a ∧ f a = .ok b := by
  cases x with
  | error e => cases h
  | ok a => exact ⟨a, rfl, h⟩

theorem except_bind_error {x : Except ε α} {f : α → Except ε β} {e : ε}
    (h : x >>= f = .error e) : x = .error e ∨ ∃ a, x = .ok a ∧ f a = .error e := by
  cases x with
  | error e' =>
    cases h
    exact Or.inl rfl
  | ok a => exact Or.inr ⟨a, rfl, h⟩

/-- What each step of a fold keeps, the whole fold keeps. -/
theorem foldlM_ok {P : β → Prop} {f : β → α → Except ε β}
    (hf : ∀ b a b', P b → f b a = .ok b' → P b') {l : List α} {b b' : β} (hb : P b)
    (h : l.foldlM f b = .ok b') : P b' := by
  induction l generalizing b with
  | nil =>
    cases h
    exact hb
  | cons a l ih =>
    rw [List.foldlM_cons] at h
    obtain ⟨next, hnext, hr⟩ := except_bind_ok h
    exact ih (hf b a next hb hnext) hr

/-! What every run does to the state, whether it fails or not. -/

/-- Every run relates the state in which it starts to the one in which it ends. -/
def Keeps (R : σ → σ → Prop) (m : ExceptT ε (StateM σ) α) : Prop := ∀ s, R s (m.run s).2

namespace Keeps

variable {R : σ → σ → Prop} {m : ExceptT ε (StateM σ) α}

theorem of_run (h : Keeps R m) {s t : σ} {r : Except ε α} (hr : m.run s = (r, t)) : R s t := by
  have hs := h s
  rwa [hr] at hs

theorem imp {R' : σ → σ → Prop} (h : Keeps R m) (hR : ∀ s t, R s t → R' s t) : Keeps R' m :=
  fun s => hR _ _ (h s)

theorem modify {f : σ → σ} (h : ∀ s, R s (f s)) :
    Keeps R (modify f : ExceptT ε (StateM σ) PUnit) := fun s => h s

theorem map {f : α → β} (h : Keeps R m) : Keeps R (f <$> m) := by
  intro s
  rw [run_map]
  exact h s

variable [IsPreorder σ R]

theorem pure (a : α) : Keeps R (pure a : ExceptT ε (StateM σ) α) := fun s => refl_of R s

theorem throw (e : ε) : Keeps R (throw e : ExceptT ε (StateM σ) α) := fun s => refl_of R s

theorem get : Keeps R (get : ExceptT ε (StateM σ) σ) := fun s => refl_of R s

theorem bind {f : α → ExceptT ε (StateM σ) β} (hm : Keeps R m) (hf : ∀ a, Keeps R (f a)) :
    Keeps R (m >>= f) := by
  intro s
  rw [run_bind]
  rcases h : m.run s with ⟨_ | a, t⟩
  · exact hm.of_run h
  · exact trans_of R (hm.of_run h) (hf a t)

theorem tryCatch {f : ε → ExceptT ε (StateM σ) α} (hm : Keeps R m) (hf : ∀ e, Keeps R (f e)) :
    Keeps R (tryCatch m f) := by
  intro s
  rw [run_tryCatch]
  rcases h : m.run s with ⟨e | a, t⟩
  · exact trans_of R (hm.of_run h) (hf e t)
  · exact hm.of_run h

theorem forM {f : α → ExceptT ε (StateM σ) PUnit} (hf : ∀ a, Keeps R (f a)) (l : List α) :
    Keeps R (l.forM f) := by
  induction l with
  | nil => exact pure _
  | cons a l ih => exact (hf a).bind fun _ => ih

end Keeps

/-- Every run that fails fails with an error of a kind. -/
def FailsWith (P : ε → Prop) (m : ExceptT ε (StateM σ) α) : Prop :=
  ∀ ⦃s e t⦄, m.run s = (.error e, t) → P e

namespace FailsWith

variable {P : ε → Prop} {m : ExceptT ε (StateM σ) α}

theorem of_ok (h : ∀ s, ∃ a t, m.run s = (.ok a, t)) : FailsWith P m := by
  intro s e t hr
  obtain ⟨a, u, ha⟩ := h s
  rw [ha] at hr
  cases hr

theorem pure (a : α) : FailsWith P (pure a : ExceptT ε (StateM σ) α) :=
  of_ok fun s => ⟨a, s, rfl⟩

theorem get : FailsWith P (get : ExceptT ε (StateM σ) σ) := of_ok fun s => ⟨s, s, rfl⟩

theorem modify (f : σ → σ) : FailsWith P (modify f : ExceptT ε (StateM σ) PUnit) :=
  of_ok fun s => ⟨⟨⟩, f s, rfl⟩

theorem throw {e : ε} (h : P e) : FailsWith P (throw e : ExceptT ε (StateM σ) α) := by
  intro s e' t hr
  cases hr
  exact h

theorem bind {f : α → ExceptT ε (StateM σ) β} (hm : FailsWith P m)
    (hf : ∀ a, FailsWith P (f a)) : FailsWith P (m >>= f) := by
  intro s e t hr
  rcases run_bind_error hr with h | ⟨a, u, -, h⟩
  · exact hm h
  · exact hf a h

theorem map {f : α → β} (hm : FailsWith P m) : FailsWith P (f <$> m) := by
  intro s e t hr
  rw [run_map] at hr
  rcases h : m.run s with ⟨e' | a, u⟩ <;> rw [h] at hr <;> cases hr
  exact hm h

theorem tryCatch {Q : ε → Prop} {f : ε → ExceptT ε (StateM σ) α} (hm : FailsWith Q m)
    (hf : ∀ e, Q e → FailsWith P (f e)) : FailsWith P (tryCatch m f) := by
  intro s e t hr
  rw [run_tryCatch] at hr
  rcases h : m.run s with ⟨e' | a, u⟩ <;> rw [h] at hr
  · exact hf e' (hm h) hr
  · cases hr

theorem forM_of_mem {f : α → ExceptT ε (StateM σ) PUnit} {l : List α}
    (hf : ∀ a ∈ l, FailsWith P (f a)) : FailsWith P (l.forM f) := by
  induction l with
  | nil => exact pure _
  | cons a l ih =>
    obtain ⟨ha, hl⟩ := List.forall_mem_cons.1 hf
    exact ha.bind fun _ => ih hl

theorem forM {f : α → ExceptT ε (StateM σ) PUnit} (hf : ∀ a, FailsWith P (f a)) (l : List α) :
    FailsWith P (l.forM f) := forM_of_mem fun a _ => hf a

theorem mapM_of_mem {f : α → ExceptT ε (StateM σ) β} {l : List α}
    (hf : ∀ a ∈ l, FailsWith P (f a)) : FailsWith P (l.mapM f) := by
  induction l with
  | nil => exact pure _
  | cons a l ih =>
    obtain ⟨ha, hl⟩ := List.forall_mem_cons.1 hf
    rw [List.mapM_cons]
    exact ha.bind fun _ => (ih hl).bind fun _ => pure _

theorem mapM {f : α → ExceptT ε (StateM σ) β} (hf : ∀ a, FailsWith P (f a)) (l : List α) :
    FailsWith P (l.mapM f) := mapM_of_mem fun a _ => hf a

end FailsWith

/-! What does not matter to a run. -/

/-- Runs from related states have the same result and end in related states. -/
def Blind (R : σ → σ → Prop) (m : ExceptT ε (StateM σ) α) : Prop :=
  ∀ s t, R s t → (m.run t).1 = (m.run s).1 ∧ R (m.run s).2 (m.run t).2

namespace Blind

variable {R : σ → σ → Prop} {m : ExceptT ε (StateM σ) α}

theorem pure (a : α) : Blind R (pure a : ExceptT ε (StateM σ) α) := fun _ _ h => ⟨rfl, h⟩

theorem throw (e : ε) : Blind R (throw e : ExceptT ε (StateM σ) α) := fun _ _ h => ⟨rfl, h⟩

theorem modify {f : σ → σ} (h : ∀ s t, R s t → R (f s) (f t)) :
    Blind R (modify f : ExceptT ε (StateM σ) PUnit) := fun s t hst => ⟨rfl, h s t hst⟩

theorem bind {f : α → ExceptT ε (StateM σ) β} (hm : Blind R m) (hf : ∀ a, Blind R (f a)) :
    Blind R (m >>= f) := by
  intro s t h
  obtain ⟨hresult, hstate⟩ := hm s t h
  rw [run_bind, run_bind]
  rcases hs : m.run s with ⟨e | a, s'⟩ <;> rcases ht : m.run t with ⟨e' | a', t'⟩ <;>
    rw [hs, ht] at hresult hstate <;> cases hresult
  · exact ⟨rfl, hstate⟩
  · exact hf a s' t' hstate

/-- A program that goes by what it finds in the state, where related states give the same. -/
theorem get_bind {f : σ → ExceptT ε (StateM σ) β} (heq : ∀ s t, R s t → f t = f s)
    (hf : ∀ s, Blind R (f s)) : Blind R (MonadState.get >>= f) := by
  intro s t h
  rw [run_bind_of_ok (run_get s), run_bind_of_ok (run_get t), heq s t h]
  exact hf s s t h

theorem map {f : α → β} (h : Blind R m) : Blind R (f <$> m) := by
  intro s t hst
  obtain ⟨hresult, hstate⟩ := h s t hst
  rw [run_map, run_map, hresult]
  exact ⟨rfl, hstate⟩

theorem forM {f : α → ExceptT ε (StateM σ) PUnit} (hf : ∀ a, Blind R (f a)) (l : List α) :
    Blind R (l.forM f) := by
  induction l with
  | nil => exact pure _
  | cons a l ih => exact (hf a).bind fun _ => ih

theorem mapM {f : α → ExceptT ε (StateM σ) β} (hf : ∀ a, Blind R (f a)) (l : List α) :
    Blind R (l.mapM f) := by
  induction l with
  | nil => exact pure _
  | cons a l ih =>
    rw [List.mapM_cons]
    exact (hf a).bind fun _ => ih.bind fun _ => pure _

end Blind

/-! Two programs side by side. -/

/-- Two outcomes are of one kind, and so are their values or their errors. -/
inductive Pairs {α β : Type} (E : ε → ε → Prop) (Q : α → β → Prop) : Except ε α → Except ε β → Prop
  | ok {a : α} {b : β} (h : Q a b) : Pairs E Q (.ok a) (.ok b)
  | error {e e' : ε} (h : E e e') : Pairs E Q (.error e) (.error e')

/-- Runs from related states have related outcomes and end in related states. -/
def Parallel (R : σ → σ → Prop) (E : ε → ε → Prop) (Q : α → β → Prop) (m : ExceptT ε (StateM σ) α)
    (n : ExceptT ε (StateM σ) β) : Prop :=
  ∀ s t, R s t → Pairs E Q (m.run s).1 (n.run t).1 ∧ R (m.run s).2 (n.run t).2

namespace Parallel

variable {α' β' : Type} {R : σ → σ → Prop} {E : ε → ε → Prop} {Q : α → β → Prop} {Q' : α' → β' → Prop}
  {m : ExceptT ε (StateM σ) α} {n : ExceptT ε (StateM σ) β}

theorem pure {a : α} {b : β} (h : Q a b) :
    Parallel R E Q (pure a : ExceptT ε (StateM σ) α) (pure b : ExceptT ε (StateM σ) β) :=
  fun _ _ hst => ⟨.ok h, hst⟩

theorem throw {e e' : ε} (h : E e e') :
    Parallel R E Q (throw e : ExceptT ε (StateM σ) α) (throw e' : ExceptT ε (StateM σ) β) :=
  fun _ _ hst => ⟨.error h, hst⟩

theorem modify {f g : σ → σ} (h : ∀ s t, R s t → R (f s) (g t)) :
    Parallel R E Eq (modify f : ExceptT ε (StateM σ) PUnit) (modify g : ExceptT ε (StateM σ) PUnit) :=
  fun s t hst => ⟨.ok rfl, h s t hst⟩

theorem bind {f : α → ExceptT ε (StateM σ) α'} {g : β → ExceptT ε (StateM σ) β'} (hm : Parallel R E Q m n)
    (hf : ∀ a b, Q a b → Parallel R E Q' (f a) (g b)) : Parallel R E Q' (m >>= f) (n >>= g) := by
  intro s t hst
  obtain ⟨hpairs, hends⟩ := hm s t hst
  rw [run_bind, run_bind]
  rcases hs : m.run s with ⟨e | a, s'⟩ <;> rcases ht : n.run t with ⟨e' | b, t'⟩ <;>
    rw [hs, ht] at hpairs hends <;> cases hpairs
  case ok.ok h => exact hf a b h s' t' hends
  case error.error h => exact ⟨.error h, hends⟩

theorem bind_eq {n : ExceptT ε (StateM σ) α} {f : α → ExceptT ε (StateM σ) α'}
    {g : α → ExceptT ε (StateM σ) β'} (hm : Parallel R E Eq m n)
    (hf : ∀ a, Parallel R E Q' (f a) (g a)) : Parallel R E Q' (m >>= f) (n >>= g) :=
  hm.bind fun a _ h => h ▸ hf a

/-- Programs that go by what they find in the state. -/
theorem get_bind {f : σ → ExceptT ε (StateM σ) α} {g : σ → ExceptT ε (StateM σ) β}
    (h : ∀ s t, R s t → Parallel R E Q (f s) (g t)) :
    Parallel R E Q (MonadState.get >>= f) (MonadState.get >>= g) := by
  intro s t hst
  rw [run_bind_of_ok (run_get s), run_bind_of_ok (run_get t)]
  exact h s t hst s t hst

theorem tryCatch {f : ε → ExceptT ε (StateM σ) α} {g : ε → ExceptT ε (StateM σ) β}
    (hm : Parallel R E Q m n) (hf : ∀ e e', E e e' → Parallel R E Q (f e) (g e')) :
    Parallel R E Q (tryCatch m f) (tryCatch n g) := by
  intro s t hst
  obtain ⟨hpairs, hends⟩ := hm s t hst
  rw [run_tryCatch, run_tryCatch]
  rcases hs : m.run s with ⟨e | a, s'⟩ <;> rcases ht : n.run t with ⟨e' | b, t'⟩ <;>
    rw [hs, ht] at hpairs hends <;> cases hpairs
  case ok.ok h => exact ⟨.ok h, hends⟩
  case error.error h => exact hf e e' h s' t' hends

theorem map {m n : ExceptT ε (StateM σ) α} {f : α → α'} (h : Parallel R E Eq m n) :
    Parallel R E Eq (f <$> m) (f <$> n) := by
  intro s t hst
  obtain ⟨hpairs, hends⟩ := h s t hst
  rw [run_map, run_map]
  refine ⟨?_, hends⟩
  rcases hs : (m.run s).1 with e | a <;> rcases ht : (n.run t).1 with e' | b <;>
    rw [hs, ht] at hpairs <;> cases hpairs
  case ok.ok h => exact .ok (congrArg f h)
  case error.error h => exact .error h

end Parallel

end ModelContracts
