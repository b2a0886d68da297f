import LodgeOps.Store.Table

namespace Table
variable {ρ : Type} [Keyed ρ] {P : ρ → Prop} {t t' u : Table ρ} {p : ρ → Bool} {f : ρ → ρ}
variable {mk : ℕ → ρ} {i : ℕ} {r : ρ}

-- Every row of the kind P is still there, and still of that kind.
def Persists (P : ρ → Prop) (t t' : Table ρ) : Prop :=
  ∀ i r, t.find? i = some r → P r → ∃ r', t'.find? i = some r' ∧ P r'

-- Every row of the kind P was there before, and was of that kind.
def Reflects (P : ρ → Prop) (t t' : Table ρ) : Prop :=
  ∀ i r', t'.find? i = some r' → P r' → ∃ r, t.find? i = some r ∧ P r

theorem find?_updateWhere (hf : Keeps f := by first | assumption | (intro r; rfl)) :
    (t.updateWhere p f hf).find? i = (t.find? i).map fun r => if p r then f r else r := by
  cases h : t.find? i with
  | none =>
    simp only [Option.map_none]
    rw [find?_eq_none] at h ⊢
    intro s hs
    rcases (mem_updateWhere hf).mp hs with ⟨hs, _⟩ | ⟨q, hq, _, rfl⟩
    · exact h s hs
    · rw [hf]
      exact h q hq
  | some r =>
    obtain ⟨hr, hi⟩ := find?_eq_some.mp h
    refine find?_eq_some.mpr ?_
    dsimp only
    split_ifs with hp
    · exact ⟨(mem_updateWhere hf).mpr (Or.inr ⟨r, hr, hp, rfl⟩), (hf r).trans hi⟩
    · exact ⟨(mem_updateWhere hf).mpr (Or.inl ⟨hr, by simpa using hp⟩), hi⟩

section Persists

theorem Persists.refl : Persists P t t := fun _ r h hp => ⟨r, h, hp⟩

theorem Persists.trans (h : Persists P t t') (h' : Persists P t' u) : Persists P t u := by
  intro i r hr hp
  obtain ⟨s, hs, hps⟩ := h i r hr hp
  exact h' i s hs hps

theorem persists_update (h : ∀ r, t.find? i = some r → P r → P (f r))
    (hf : Keeps f := by first | assumption | (intro r; rfl)) :
    Persists P t (t.update i f hf) := by
  intro j r hr hp
  rw [find?_update hf]
  by_cases hj : j = i
  · subst hj
    exact ⟨f r, by simp [hr], h r hr hp⟩
  · exact ⟨r, by simp [hj, hr], hp⟩

theorem persists_updateWhere (h : ∀ r, p r = true → P r → P (f r))
    (hf : Keeps f := by first | assumption | (intro r; rfl)) :
    Persists P t (t.updateWhere p f hf) := by
  intro j r hr hp
  refine ⟨if p r then f r else r, by rw [find?_updateWhere hf, hr]; rfl, ?_⟩
  split_ifs with hpr
  · exact h r hpr hp
  · exact hp

theorem persists_insert (hk : Names mk := by first | assumption | (intro i; rfl)) :
    Persists P t (t.insert mk hk) :=
  fun _ r hr hp => ⟨r, find?_insert_of_some hr hk, hp⟩

-- The same for a single row, named by its key.
def Marked (i : ℕ) (P : ρ → Prop) (r : ρ) : Prop := Keyed.id r = i ∧ P r

theorem marked_update {j : ℕ} (h : ∀ r, t.find? i = some r → j = i → P r → P (f r))
    (hf : Keeps f := by first | assumption | (intro r; rfl)) :
    Persists (Marked j P) t (t.update i f hf) := by
  refine persists_update (fun r hr hp => ⟨(hf r).trans hp.1, h r hr ?_ hp.2⟩) hf
  exact hp.1.symm.trans (find?_eq_some.mp hr).2

theorem marked_updateWhere {j : ℕ} (h : ∀ r, p r = true → P r → P (f r))
    (hf : Keeps f := by first | assumption | (intro r; rfl)) :
    Persists (Marked j P) t (t.updateWhere p f hf) :=
  persists_updateWhere (fun r hr hp => ⟨(hf r).trans hp.1, h r hr hp.2⟩) hf

end Persists

section Reflects

theorem Reflects.refl : Reflects P t t := fun _ r h hp => ⟨r, h, hp⟩

theorem Reflects.trans (h : Reflects P t t') (h' : Reflects P t' u) : Reflects P t u := by
  intro i r hr hp
  obtain ⟨s, hs, hps⟩ := h' i r hr hp
  exact h i s hs hps

theorem reflects_update (h : ∀ r, t.find? i = some r → P (f r) → P r)
    (hf : Keeps f := by first | assumption | (intro r; rfl)) :
    Reflects P t (t.update i f hf) := by
  intro j r' hr hp
  rw [find?_update hf] at hr
  split_ifs at hr with hj
  · subst hj
    obtain ⟨r, hfind, rfl⟩ := Option.map_eq_some_iff.mp hr
    exact ⟨r, hfind, h r hfind hp⟩
  · exact ⟨r', hr, hp⟩

theorem reflects_updateWhere (h : ∀ r, p r = true → P (f r) → P r)
    (hf : Keeps f := by first | assumption | (intro r; rfl)) :
    Reflects P t (t.updateWhere p f hf) := by
  intro j r' hr hp
  rw [find?_updateWhere hf] at hr
  obtain ⟨r, hfind, rfl⟩ := Option.map_eq_some_iff.mp hr
  refine ⟨r, hfind, ?_⟩
  split_ifs at hp with hpr
  · exact h r hpr hp
  · exact hp

theorem reflects_insert (h : ¬ P (mk t.next))
    (hk : Names mk := by first | assumption | (intro i; rfl)) :
    Reflects P t (t.insert mk hk) := by
  intro j r' hr hp
  obtain ⟨hm, hj⟩ := find?_eq_some.mp hr
  rcases (mem_insert hk).mp hm with hm | rfl
  · exact ⟨r', find?_eq_some.mpr ⟨hm, hj⟩, hp⟩
  · exact absurd hp h

end Reflects
end Table
