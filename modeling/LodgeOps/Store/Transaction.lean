import Mathlib.Tactic

abbrev Transaction (ε σ α : Type) := StateT σ (Except ε) α

section Guards
variable {ε α β : Type}

def refuse (c : Prop) [Decidable c] (e : ε) : Except ε Unit :=
  if c then .error e else .ok ()

def found (o : Option α) (e : ε) : Except ε α :=
  match o with
  | some a => .ok a
  | none => .error e

@[simp] theorem bind_eq_ok {x : Except ε α} {f : α → Except ε β} {b : β} :
    (x >>= f) = .ok b ↔ ∃ a, x = .ok a ∧ f a = .ok b := by
  cases x <;> simp [bind, Except.bind]

@[simp] theorem refuse_eq_ok {c : Prop} [Decidable c] {e : ε} {u : Unit} :
    refuse c e = .ok u ↔ ¬ c := by
  unfold refuse
  split_ifs with h <;> simp [h]

@[simp] theorem found_eq_ok {o : Option α} {e : ε} {a : α} : found o e = .ok a ↔ o = some a := by
  cases o <;> simp [found]

theorem map_eq_ok {f : α → β} {x : Except ε α} {b : β} :
    f <$> x = .ok b ↔ ∃ a, x = .ok a ∧ f a = b := by
  cases x with
  | error e => simp [Functor.map, Except.map]
  | ok a => simp [Functor.map, Except.map]

theorem exists_ok_of_any {x : Except ε α} {p : α → Bool} (h : x.toOption.any p = true) :
    ∃ a, x = .ok a ∧ p a = true := by
  cases x with
  | error e => cases h
  | ok a => exact ⟨a, rfl, h⟩

theorem forM_eq_ok {xs : List α} {f : α → Except ε Unit} {u : Unit} :
    xs.forM f = .ok u ↔ ∀ x ∈ xs, f x = .ok () := by
  induction xs with
  | nil => simp [List.forM, pure, Except.pure]
  | cons x xs ih =>
    have hc : (x :: xs).forM f = (f x >>= fun _ => xs.forM f) := rfl
    rw [hc, bind_eq_ok, List.forall_mem_cons, ← ih]
    constructor
    · rintro ⟨_, hx, hs⟩
      exact ⟨hx, hs⟩
    · rintro ⟨hx, hs⟩
      exact ⟨(), hx, hs⟩

theorem foldlM_invariant {xs : List α} {f : β → α → Except ε β} {I : β → Prop}
    (hf : ∀ b a b', I b → f b a = .ok b' → I b') :
    ∀ {b b' : β}, I b → xs.foldlM f b = .ok b' → I b' := by
  induction xs with
  | nil =>
    intro b b' hb h
    obtain rfl : b = b' := by simpa [pure, Except.pure] using h
    exact hb
  | cons x xs ih =>
    intro b b' hb h
    rw [List.foldlM_cons, bind_eq_ok] at h
    obtain ⟨c, hc, hrest⟩ := h
    exact ih (hf b x c hb hc) hrest

theorem length_of_mapM {f : α → Except ε β} {xs : List α} :
    ∀ {ys : List β}, xs.mapM f = .ok ys → ys.length = xs.length := by
  induction xs with
  | nil =>
    intro ys h
    obtain rfl : [] = ys := by simpa [pure, Except.pure] using h
    rfl
  | cons x xs ih =>
    intro ys h
    simp only [List.mapM_cons, bind_eq_ok] at h
    obtain ⟨y, _, zs, hzs, hys⟩ := h
    obtain rfl : y :: zs = ys := by simpa [pure, Except.pure] using hys
    simp [ih hzs]

end Guards

namespace Transaction
variable {ε σ α β ι : Type}

def Commits (x : Transaction ε σ α) (s : σ) (a : α) (s' : σ) : Prop :=
  x.run s = .ok (a, s')

def reject (c : Prop) [Decidable c] (e : ε) : Transaction ε σ Unit :=
  if c then throw e else pure ()

def orFail (o : Option α) (e : ε) : Transaction ε σ α :=
  match o with
  | some a => pure a
  | none => throw e

def check (f : σ → Except ε α) : Transaction ε σ α := fun s =>
  match f s with
  | .ok a => .ok (a, s)
  | .error e => .error e

def attempt (x : Transaction ε σ α) : Transaction ε σ (Except ε α) := fun s =>
  match x.run s with
  | .ok (a, s') => .ok (.ok a, s')
  | .error e => .ok (.error e, s)

def perform (x : Transaction ε σ α) (s : σ) : σ :=
  match x.run s with
  | .ok (_, s') => s'
  | .error _ => s

section Commits
variable {x : Transaction ε σ α} {f : α → Transaction ε σ β} {s s' : σ} {a : α} {b : β} {e : ε}

@[simp] theorem commits_bind : Commits (x >>= f) s b s' ↔
    ∃ a s₁, Commits x s a s₁ ∧ Commits (f a) s₁ b s' := by
  simp only [Commits, StateT.run_bind]
  cases hx : x.run s with
  | error e => simp [bind, Except.bind]
  | ok p =>
    obtain ⟨a, t⟩ := p
    simp only [bind, Except.bind, Except.ok.injEq, Prod.mk.injEq]
    constructor
    · intro h
      exact ⟨a, t, ⟨rfl, rfl⟩, h⟩
    · rintro ⟨_, _, ⟨rfl, rfl⟩, h⟩
      exact h

@[simp] theorem commits_map {g : α → β} : Commits (g <$> x) s b s' ↔
    ∃ a, Commits x s a s' ∧ g a = b := by
  simp only [Commits, StateT.run_map]
  cases hx : x.run s with
  | error e => simp [Functor.map, Except.map]
  | ok p => simp [Functor.map, Except.map, Prod.ext_iff, and_comm]

@[simp] theorem commits_pure {c : α} :
    Commits (pure a : Transaction ε σ α) s c s' ↔ a = c ∧ s = s' := by
  rw [Commits, StateT.run_pure]
  simp [pure, Except.pure]

@[simp] theorem commits_get {v : σ} : Commits (get : Transaction ε σ σ) s v s' ↔ s = v ∧ s = s' := by
  simp [Commits, pure, Except.pure]

@[simp] theorem commits_set {v : σ} {u : PUnit} :
    Commits (set v : Transaction ε σ PUnit) s u s' ↔ v = s' := by
  simp [Commits, pure, Except.pure]

@[simp] theorem commits_modify {g : σ → σ} {u : PUnit} :
    Commits (modify g : Transaction ε σ PUnit) s u s' ↔ g s = s' := by
  simp [Commits, pure, Except.pure]

@[simp] theorem commits_throw : ¬ Commits (throw e : Transaction ε σ α) s a s' := by
  simp [Commits, throw, throwThe, MonadExceptOf.throw, StateT.lift, StateT.run, bind, Except.bind]

@[simp] theorem commits_reject {c : Prop} [Decidable c] {u : Unit} :
    Commits (reject c e : Transaction ε σ Unit) s u s' ↔ ¬ c ∧ s = s' := by
  unfold reject
  split_ifs with h <;> simp [h]

@[simp] theorem commits_orFail {o : Option α} :
    Commits (orFail o e : Transaction ε σ α) s a s' ↔ o = some a ∧ s = s' := by
  cases o <;> simp [orFail]

@[simp] theorem commits_check {g : σ → Except ε α} :
    Commits (check g) s a s' ↔ g s = .ok a ∧ s = s' := by
  simp only [Commits, check, StateT.run]
  cases g s <;> simp

theorem commits_attempt {r : Except ε α} : Commits (attempt x) s r s' ↔
    (∃ a, r = .ok a ∧ Commits x s a s') ∨ (∃ e, r = .error e ∧ x.run s = .error e ∧ s = s') := by
  have hr : (attempt x).run s = match x.run s with
      | .ok (a, t) => .ok (.ok a, t)
      | .error e => .ok (.error e, s) := rfl
  simp only [Commits, hr]
  cases hx : x.run s with
  | error e => simp [eq_comm]
  | ok p =>
    obtain ⟨a, t⟩ := p
    constructor
    · intro h
      obtain ⟨rfl, rfl⟩ : Except.ok a = r ∧ t = s' := by simpa using h
      exact Or.inl ⟨a, rfl, rfl⟩
    · rintro (⟨b, rfl, h⟩ | ⟨e, _, h, _⟩)
      · obtain ⟨rfl, rfl⟩ : a = b ∧ t = s' := by simpa using h
        rfl
      · cases h

@[simp] theorem commits_ite {c : Prop} [Decidable c] {y : Transaction ε σ α} :
    Commits (if c then x else y) s a s' ↔ (c ∧ Commits x s a s') ∨ (¬ c ∧ Commits y s a s') := by
  split_ifs with h <;> simp [h]

section Stages
variable {c : Prop} [Decidable c]

theorem commits_get_bind {f : σ → Transaction ε σ β} :
    Commits (get >>= f) s b s' ↔ Commits (f s) s b s' := by
  simp

theorem commits_set_bind {v : σ} {f : PUnit → Transaction ε σ β} :
    Commits (set v >>= f) s b s' ↔ Commits (f ⟨⟩) v b s' := by
  simp [Unique.exists_iff]

theorem commits_modify_bind {g : σ → σ} {f : PUnit → Transaction ε σ β} :
    Commits (modify g >>= f) s b s' ↔ Commits (f ⟨⟩) (g s) b s' := by
  simp [Unique.exists_iff]

theorem commits_reject_bind {f : Unit → Transaction ε σ β} :
    Commits (reject c e >>= f) s b s' ↔ ¬ c ∧ Commits (f ()) s b s' := by
  simp [and_assoc, Unique.exists_iff]

theorem commits_orFail_bind {o : Option α} :
    Commits (orFail o e >>= f) s b s' ↔ ∃ a, o = some a ∧ Commits (f a) s b s' := by
  simp [and_assoc]

theorem commits_check_bind {g : σ → Except ε α} :
    Commits (check g >>= f) s b s' ↔ ∃ a, g s = .ok a ∧ Commits (f a) s b s' := by
  simp [and_assoc]

end Stages

theorem Commits.det {a' : α} {t t' : σ} (h : Commits x s a t) (h' : Commits x s a' t') :
    a = a' ∧ t = t' := by
  have he := h.symm.trans h'
  simpa using he

theorem perform_of_commits (h : Commits x s a s') : perform x s = s' := by
  have hr : x.run s = .ok (a, s') := h
  simp [perform, hr]

theorem perform_cases : (∃ a, Commits x s a (perform x s)) ∨ perform x s = s := by
  unfold perform Commits
  cases hx : x.run s with
  | error e => exact Or.inr rfl
  | ok p => exact Or.inl ⟨p.1, rfl⟩

theorem exists_commits (h : (x.run s).toOption.isSome = true) : ∃ a s', Commits x s a s' := by
  unfold Commits
  cases hx : x.run s with
  | error e => simp [hx, Except.toOption] at h
  | ok p => exact ⟨p.1, p.2, rfl⟩

end Commits

theorem exists_commits_of_result {x : Transaction ε σ α} {s : σ} {p : α × σ → Bool}
    (h : (x.run s).toOption.any p = true) : ∃ a s', Commits x s a s' ∧ p (a, s') = true := by
  unfold Commits
  cases hx : x.run s with
  | error e => simp [hx, Except.toOption] at h
  | ok r => exact ⟨r.1, r.2, rfl, by simpa [hx, Except.toOption] using h⟩

theorem exists_commits_of_run {x : Transaction ε σ Unit} {s : σ} {p : σ → Bool}
    (h : (x.run s).toOption.any (fun r => p r.2) = true) :
    ∃ s', Commits x s () s' ∧ p s' = true := by
  obtain ⟨_, s', hc, hp⟩ := exists_commits_of_result h
  exact ⟨s', hc, hp⟩

theorem commits_forM_cons {x : ι → Transaction ε σ Unit} {i : ι} {is : List ι} {s s' : σ} :
    Commits ((i :: is).forM x) s () s' ↔ ∃ t, Commits (x i) s () t ∧ Commits (is.forM x) t () s' := by
  have hc : (i :: is).forM x = (x i >>= fun _ => is.forM x) := rfl
  rw [hc, commits_bind]
  constructor
  · rintro ⟨_, t, hi, hr⟩
    exact ⟨t, hi, hr⟩
  · rintro ⟨t, hi, hr⟩
    exact ⟨(), t, hi, hr⟩

theorem commits_forM_nil {x : ι → Transaction ε σ Unit} {s s' : σ} :
    Commits (([] : List ι).forM x) s () s' ↔ s = s' := by
  have hn : ([] : List ι).forM x = pure () := rfl
  simp [hn]

theorem forM_invariant {x : ι → Transaction ε σ Unit} {I : σ → Prop} {is : List ι}
    (hx : ∀ i ∈ is, ∀ s s', I s → Commits (x i) s () s' → I s') :
    ∀ {s s' : σ}, I s → Commits (is.forM x) s () s' → I s' := by
  induction is with
  | nil =>
    intro s s' hs h
    exact commits_forM_nil.mp h ▸ hs
  | cons i is ih =>
    intro s s' hs h
    obtain ⟨t, hi, hrest⟩ := commits_forM_cons.mp h
    exact ih (fun j hj => hx j (List.mem_cons_of_mem i hj))
      (hx i List.mem_cons_self s t hs hi) hrest

end Transaction

section Runs
open Transaction
variable {ε σ ι : Type}

inductive Reaches (next : ι → Transaction ε σ Unit) (admits : ι → σ → Prop) (s : σ) : σ → Prop
  | refl : Reaches next admits s s
  | step {t u : σ} {i : ι} : Reaches next admits s t → admits i t →
      Commits (next i) t () u → Reaches next admits s u

namespace Reaches
variable {next : ι → Transaction ε σ Unit} {admits : ι → σ → Prop} {s t u : σ}

theorem invariant {I : σ → Prop} (h : Reaches next admits s t) (hs : I s)
    (hstep : ∀ i t u, I t → admits i t → Commits (next i) t () u → I u) : I t := by
  induction h with
  | refl => exact hs
  | step _ ha hc ih => exact hstep _ _ _ ih ha hc

theorem trans (h : Reaches next admits s t) (h' : Reaches next admits t u) :
    Reaches next admits s u := by
  induction h' with
  | refl => exact h
  | step _ ha hc ih => exact ih.step ha hc

theorem mono {allows : ι → σ → Prop} (h : Reaches next admits s t)
    (ha : ∀ i s, admits i s → allows i s) : Reaches next allows s t := by
  induction h with
  | refl => exact refl
  | step _ hi hc ih => exact ih.step (ha _ _ hi) hc

theorem single {i : ι} (ha : admits i s) (hc : Commits (next i) s () t) :
    Reaches next admits s t :=
  refl.step ha hc

def execute (next : ι → Transaction ε σ Unit) (allowed : ι → σ → Bool) : List ι → σ → Option σ
  | [], s => some s
  | i :: is, s =>
    if allowed i s then
      match (next i).run s with
      | .ok (_, t) => execute next allowed is t
      | .error _ => none
    else none

theorem of_execute {allowed : ι → σ → Bool} {is : List ι}
    (ha : ∀ i s, allowed i s = true → admits i s) (h : execute next allowed is s = some t) :
    Reaches next admits s t := by
  induction is generalizing s with
  | nil =>
    obtain rfl : s = t := by simpa [execute] using h
    exact refl
  | cons i is ih =>
    rw [execute] at h
    split_ifs at h with hi
    split at h
    · next u hu => exact (single (ha i s hi) hu).trans (ih h)
    · cases h

theorem exists_of_execute {allowed : ι → σ → Bool} {p : σ → Bool}
    (ha : ∀ i s, allowed i s = true → admits i s) (is : List ι)
    (h : (execute next allowed is s).any p = true) :
    ∃ t, Reaches next admits s t ∧ p t = true := by
  obtain ⟨t, ht, hp⟩ := (Option.any_eq_true _ _).mp h
  exact ⟨t, of_execute ha ht, hp⟩

theorem exists_of_run {p : σ → Bool} (is : List ι)
    (h : (execute next (fun _ _ => true) is s).any p = true) :
    ∃ t, Reaches next (fun _ _ => True) s t ∧ p t = true :=
  exists_of_execute (fun _ _ _ => trivial) is h

theorem exists_of_two_runs (allowed : ι → σ → Bool) {p : σ → σ → Bool}
    (ha : ∀ i s, allowed i s = true → admits i s) (is js : List ι)
    (h : ((execute next allowed is s).any fun t => (execute next allowed js t).any (p t)) = true) :
    ∃ t u, Reaches next admits s t ∧ Reaches next admits t u ∧ p t u = true := by
  obtain ⟨t, ht, hp⟩ := exists_of_execute ha is h
  obtain ⟨u, hu, hq⟩ := exists_of_execute ha js hp
  exact ⟨t, u, ht, hu, hq⟩

end Reaches
end Runs
