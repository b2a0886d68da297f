import LodgeOps.Store.Transaction

namespace Transaction
variable {ε σ α β γ ι : Type}

-- From `s`, a transaction that commits leaves what `g` sees as it was.
def Spares (g : σ → γ) (x : Transaction ε σ α) (s : σ) : Prop :=
  ∀ a s', Commits x s a s' → g s' = g s

def Reads (x : Transaction ε σ α) : Prop := ∀ s a s', Commits x s a s' → s = s'

namespace Spares
variable {g : σ → γ} {x : Transaction ε σ α} {f : α → Transaction ε σ β} {s s' t : σ} {a : α}
variable {e : ε}

theorem eq (h : Spares g x s) (hc : Commits x s a s') : g s' = g s := h a s' hc

theorem mono {δ : Type} {k : σ → δ} (h : Spares g x s) (hk : ∀ t u, g t = g u → k t = k u) :
    Spares k x s :=
  fun a s' hc => hk s' s (h a s' hc)

theorem pure : Spares g (pure a : Transaction ε σ α) s := by
  intro b s' hc
  rw [(commits_pure.mp hc).2]

theorem throw : Spares g (throw e : Transaction ε σ α) s := fun _ _ hc => absurd hc commits_throw

theorem set (h : g t = g s) : Spares g (set t : Transaction ε σ PUnit) s := by
  intro u s' hc
  rw [← commits_set.mp hc, h]

theorem modify {k : σ → σ} (h : g (k s) = g s) :
    Spares g (modify k : Transaction ε σ PUnit) s := by
  intro u s' hc
  rw [← commits_modify.mp hc, h]

theorem bind (hx : Spares g x s) (hf : ∀ a t, Commits x s a t → Spares g (f a) t) :
    Spares g (x >>= f) s := by
  intro b s' hc
  obtain ⟨a, t, ha, hb⟩ := commits_bind.mp hc
  exact (hf a t ha b s' hb).trans (hx a t ha)

theorem map {k : α → β} (hx : Spares g x s) : Spares g (k <$> x) s := by
  intro b s' hc
  obtain ⟨a, ha, _⟩ := commits_map.mp hc
  exact hx a s' ha

theorem get_bind {f : σ → Transaction ε σ β} (hf : Spares g (f s) s) :
    Spares g (get >>= f) s := by
  intro b s' hc
  obtain ⟨_, _, hg, hb⟩ := commits_bind.mp hc
  obtain ⟨rfl, rfl⟩ := commits_get.mp hg
  exact hf b s' hb

theorem read_bind (hx : Reads x) (hf : ∀ a, Spares g (f a) s) : Spares g (x >>= f) s := by
  intro b s' hc
  obtain ⟨a, _, hr, hb⟩ := commits_bind.mp hc
  obtain rfl := hx _ _ _ hr
  exact hf a b s' hb

theorem reject_bind {c : Prop} [Decidable c] {f : Unit → Transaction ε σ β}
    (hf : ¬ c → Spares g (f ()) s) : Spares g (reject c e >>= f) s := by
  intro b s' hc
  obtain ⟨_, _, hr, hb⟩ := commits_bind.mp hc
  obtain ⟨hn, rfl⟩ := commits_reject.mp hr
  exact hf hn b s' hb

theorem orFail_bind {o : Option α} (hf : ∀ a, o = some a → Spares g (f a) s) :
    Spares g (orFail o e >>= f) s := by
  intro b s' hc
  obtain ⟨a, _, hr, hb⟩ := commits_bind.mp hc
  obtain ⟨ho, rfl⟩ := commits_orFail.mp hr
  exact hf a ho b s' hb

theorem check_bind {k : σ → Except ε α} (hf : ∀ a, k s = .ok a → Spares g (f a) s) :
    Spares g (check k >>= f) s := by
  intro b s' hc
  obtain ⟨a, _, hr, hb⟩ := commits_bind.mp hc
  obtain ⟨hk, rfl⟩ := commits_check.mp hr
  exact hf a hk b s' hb

theorem orFail {o : Option α} : Spares g (orFail o e : Transaction ε σ α) s := by
  intro a s' hc
  rw [(commits_orFail.mp hc).2]

theorem attempt (hx : Spares g x s) : Spares g (attempt x) s := by
  intro r s' hc
  rcases commits_attempt.mp hc with ⟨a, _, ha⟩ | ⟨_, _, _, rfl⟩
  · exact hx a s' ha
  · rfl

theorem ite {c : Prop} [Decidable c] {y : Transaction ε σ α} (hx : c → Spares g x s)
    (hy : ¬ c → Spares g y s) : Spares g (if c then x else y) s := by
  split_ifs with h
  · exact hx h
  · exact hy h

theorem forM {y : ι → Transaction ε σ Unit} {is : List ι} (hy : ∀ i ∈ is, ∀ s, Spares g (y i) s) :
    ∀ s, Spares g (is.forM y) s := by
  intro s u s' hc
  have hrun : g s' = g s := forM_invariant (I := fun t => g t = g s)
    (fun i hi t t' ht hct => (hy i hi t () t' hct).trans ht) rfl hc
  exact hrun

theorem foldlM {y : β → ι → Transaction ε σ β} (hy : ∀ b i s, Spares g (y b i) s) (is : List ι) :
    ∀ b s, Spares g (is.foldlM y b) s := by
  induction is with
  | nil => exact fun _ _ => pure
  | cons i is ih =>
    intro b s
    rw [List.foldlM_cons]
    exact bind (hy b i s) fun c t _ => ih c t

end Spares

-- From `s`, a transaction that commits goes to a state that `R` allows.
def Moves (R : σ → σ → Prop) (x : Transaction ε σ α) (s : σ) : Prop :=
  ∀ a s', Commits x s a s' → R s s'

namespace Moves
variable {R : σ → σ → Prop} {x y : Transaction ε σ α} {f : α → Transaction ε σ β} {s t : σ} {a : α}
variable {e : ε}

theorem throw : Moves R (throw e : Transaction ε σ α) s := fun _ _ hc => absurd hc commits_throw

theorem set (h : R s t) : Moves R (set t : Transaction ε σ PUnit) s := by
  intro u s' hc
  exact commits_set.mp hc ▸ h

theorem modify {k : σ → σ} (h : R s (k s)) : Moves R (modify k : Transaction ε σ PUnit) s := by
  intro u s' hc
  exact commits_modify.mp hc ▸ h

theorem get_bind {f : σ → Transaction ε σ β} (hf : Moves R (f s) s) : Moves R (get >>= f) s := by
  intro b s' hc
  obtain ⟨_, _, hg, hb⟩ := commits_bind.mp hc
  obtain ⟨rfl, rfl⟩ := commits_get.mp hg
  exact hf b s' hb

theorem reject_bind {c : Prop} [Decidable c] {f : Unit → Transaction ε σ β}
    (hf : ¬ c → Moves R (f ()) s) : Moves R (reject c e >>= f) s := by
  intro b s' hc
  obtain ⟨_, _, hr, hb⟩ := commits_bind.mp hc
  obtain ⟨hn, rfl⟩ := commits_reject.mp hr
  exact hf hn b s' hb

theorem orFail_bind {o : Option α} (hf : ∀ a, o = some a → Moves R (f a) s) :
    Moves R (orFail o e >>= f) s := by
  intro b s' hc
  obtain ⟨a, _, hr, hb⟩ := commits_bind.mp hc
  obtain ⟨ho, rfl⟩ := commits_orFail.mp hr
  exact hf a ho b s' hb

theorem check_bind {k : σ → Except ε α} (hf : ∀ a, k s = .ok a → Moves R (f a) s) :
    Moves R (check k >>= f) s := by
  intro b s' hc
  obtain ⟨a, _, hr, hb⟩ := commits_bind.mp hc
  obtain ⟨hk, rfl⟩ := commits_check.mp hr
  exact hf a hk b s' hb

theorem read_bind (hx : Reads x) (hf : ∀ a, Moves R (f a) s) : Moves R (x >>= f) s := by
  intro b s' hc
  obtain ⟨a, _, hr, hb⟩ := commits_bind.mp hc
  obtain rfl := hx _ _ _ hr
  exact hf a b s' hb

theorem ite {c : Prop} [Decidable c] (hx : c → Moves R x s) (hy : ¬ c → Moves R y s) :
    Moves R (if c then x else y) s := by
  split_ifs with h
  · exact hx h
  · exact hy h

theorem map {k : α → β} (hx : Moves R x s) : Moves R (k <$> x) s := by
  intro b s' hc
  obtain ⟨a, ha, _⟩ := commits_map.mp hc
  exact hx a s' ha

theorem bind [IsTrans σ R] (hx : Moves R x s) (hf : ∀ a t, Commits x s a t → Moves R (f a) t) :
    Moves R (x >>= f) s := by
  intro b s' hc
  obtain ⟨a, t, ha, hb⟩ := commits_bind.mp hc
  exact IsTrans.trans _ _ _ (hx a t ha) (hf a t ha b s' hb)

variable [Std.Refl R]

theorem pure : Moves R (pure a : Transaction ε σ α) s := by
  intro b s' hc
  obtain ⟨_, rfl⟩ := commits_pure.mp hc
  exact Std.Refl.refl s

theorem attempt (hx : Moves R x s) : Moves R (attempt x) s := by
  intro r s' hc
  rcases commits_attempt.mp hc with ⟨a, _, ha⟩ | ⟨_, _, _, rfl⟩
  · exact hx a s' ha
  · exact Std.Refl.refl s

theorem forM [IsTrans σ R] {y : ι → Transaction ε σ Unit} {is : List ι}
    (hy : ∀ i ∈ is, ∀ s, Moves R (y i) s) :
    ∀ s, Moves R (is.forM y) s := by
  intro s u s' hc
  exact forM_invariant (I := fun t => R s t)
    (fun i hi t t' ht hct => IsTrans.trans _ _ _ ht (hy i hi t () t' hct)) (Std.Refl.refl s) hc

end Moves

section Zoom
variable {τ : Type} {read : σ → τ} {write : σ → τ → σ}

-- A transaction on a part of the state.
def zoom (read : σ → τ) (write : σ → τ → σ) (x : Transaction ε τ α) : Transaction ε σ α := fun s =>
  match x.run (read s) with
  | .ok (a, t) => .ok (a, write s t)
  | .error e => .error e

@[simp] theorem commits_zoom {x : Transaction ε τ α} {s s' : σ} {a : α} :
    Commits (zoom read write x) s a s' ↔ ∃ t, Commits x (read s) a t ∧ s' = write s t := by
  simp only [Commits, zoom, StateT.run]
  cases x (read s) with
  | error e => simp
  | ok v =>
    simp only [Except.ok.injEq, Prod.mk.injEq]
    constructor
    · rintro ⟨rfl, rfl⟩
      exact ⟨v.2, rfl, rfl⟩
    · rintro ⟨t, rfl, rfl⟩
      exact ⟨rfl, rfl⟩

end Zoom

theorem run_bind_error {x : Transaction ε σ α} {f : α → Transaction ε σ β} {s : σ} {e : ε}
    (h : (x >>= f).run s = .error e) :
    x.run s = .error e ∨ ∃ a t, Commits x s a t ∧ (f a).run t = .error e := by
  rw [StateT.run_bind] at h
  cases hx : x.run s with
  | error d =>
    rw [hx] at h
    obtain rfl : d = e := Except.error.inj h
    exact Or.inl rfl
  | ok v =>
    rw [hx] at h
    exact Or.inr ⟨v.1, v.2, hx, h⟩

section Rethrow
variable {δ : Type} {g : ε → δ} {x : Transaction ε σ α} {s s' : σ} {a : α}

def rethrow (g : ε → δ) (x : Transaction ε σ α) : Transaction δ σ α := fun s =>
  match x.run s with
  | .ok v => .ok v
  | .error e => .error (g e)

@[simp] theorem commits_rethrow : Commits (rethrow g x) s a s' ↔ Commits x s a s' := by
  simp only [Commits, rethrow, StateT.run]
  cases x s with
  | error e => simp
  | ok v => simp

theorem Spares.rethrow {k : σ → γ} (hx : Spares k x s) : Spares k (rethrow g x) s :=
  fun a s' hc => hx a s' (commits_rethrow.mp hc)

theorem Moves.rethrow {R : σ → σ → Prop} (hx : Moves R x s) : Moves R (rethrow g x) s :=
  fun a s' hc => hx a s' (commits_rethrow.mp hc)

end Rethrow
end Transaction
