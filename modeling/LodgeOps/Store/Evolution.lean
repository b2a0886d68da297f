import LodgeOps.Store.Transaction
import LodgeOps.Store.Table

namespace Table
variable {ρ : Type} [Keyed ρ] {R : ρ → ρ → Prop} {N : ρ → Prop} {t t' u : Table ρ}
variable {p : ρ → Bool} {f : ρ → ρ} {mk : ℕ → ρ} {i : ℕ} {r r' x : ρ}

-- Every row is still there and has gone on by R; a row under a new key is one of the kind N.
structure Evolves (R : ρ → ρ → Prop) (N : ρ → Prop) (t t' : Table ρ) : Prop where
  next : t.next ≤ t'.next
  kept : ∀ i r, t.find? i = some r → ∃ r', t'.find? i = some r' ∧ R r r'
  new : ∀ i r', t'.find? i = some r' → t.find? i = none → t.next ≤ i ∧ N r'

namespace Evolves

theorem refl [Std.Refl R] : Evolves R N t t where
  next := le_rfl
  kept _ r hr := ⟨r, hr, Std.Refl.refl r⟩
  new _ _ hr hn := by simp [hr] at hn

theorem of_eq [Std.Refl R] (h : t' = t) : Evolves R N t t' := h ▸ refl

theorem row (h : Evolves R N t t') (hr : t'.find? i = some r') :
    (∃ r, t.find? i = some r ∧ R r r') ∨ (t.next ≤ i ∧ N r') := by
  cases hi : t.find? i with
  | none => exact Or.inr (h.new i r' hr hi)
  | some r =>
    obtain ⟨s, hs, hrs⟩ := h.kept i r hi
    obtain rfl := Option.some.inj (hs.symm.trans hr)
    exact Or.inl ⟨r, rfl, hrs⟩

theorem old (h : Evolves R N t t') (hr : t'.find? i = some r') (hi : i < t.next) :
    ∃ r, t.find? i = some r ∧ R r r' := by
  rcases h.row hr with hold | ⟨hle, _⟩
  · exact hold
  · omega

theorem trans [IsTrans ρ R] (hN : ∀ r r', N r → R r r' → N r') (h : Evolves R N t t')
    (h' : Evolves R N t' u) : Evolves R N t u where
  next := h.next.trans h'.next
  kept i r hr := by
    obtain ⟨s, hs, hrs⟩ := h.kept i r hr
    obtain ⟨v, hv, hsv⟩ := h'.kept i s hs
    exact ⟨v, hv, IsTrans.trans _ _ _ hrs hsv⟩
  new i v hv hn := by
    rcases h'.row hv with ⟨s, hs, hsv⟩ | ⟨hle, hNv⟩
    · obtain ⟨hle, hNs⟩ := h.new i s hs hn
      exact ⟨hle, hN s v hNs hsv⟩
    · exact ⟨h.next.trans hle, hNv⟩

theorem mono {S : ρ → ρ → Prop} {M : ρ → Prop} (h : Evolves R N t t')
    (hR : ∀ r r', R r r' → S r r') (hN : ∀ r, N r → M r) : Evolves S M t t' where
  next := h.next
  kept i r hr := by
    obtain ⟨s, hs, hrs⟩ := h.kept i r hr
    exact ⟨s, hs, hR r s hrs⟩
  new i s hs hn := (h.new i s hs hn).imp_right (hN s)

theorem updates [Std.Refl R] (h : Updates t t' i f)
    (hf : ∀ r, t.find? i = some r → R r (f r)) : Evolves R N t t' where
  next := h.next.ge
  kept j r hr := by
    obtain ⟨hm, hid⟩ := find?_eq_some.mp hr
    by_cases hj : j = i
    · subst hj
      exact ⟨f r, h.find?_self hr, hf r hr⟩
    · exact ⟨r, find?_eq_some.mpr ⟨h.mem_ne hm (hid ▸ hj), hid⟩, Std.Refl.refl r⟩
  new j s hs hn := by
    obtain ⟨hm, hid⟩ := find?_eq_some.mp hs
    rcases h.mem.mp hm with ⟨hm, _⟩ | ⟨q, hq, _, rfl⟩
    · exact absurd hid (find?_eq_none.mp hn s hm)
    · exact absurd ((h.keeps q).symm.trans hid) (find?_eq_none.mp hn q hq)

theorem update [Std.Refl R] (hf : ∀ r, t.find? i = some r → R r (f r))
    (hk : Keeps f := by first | assumption | (intro r; rfl)) : Evolves R N t (t.update i f hk) :=
  updates (updates_update hk) hf

theorem updateWhere [Std.Refl R] (hf : ∀ r, p r = true → R r (f r))
    (hk : Keeps f := by first | assumption | (intro r; rfl)) :
    Evolves R N t (t.updateWhere p f hk) where
  next := le_rfl
  kept j r hr := by
    obtain ⟨hm, hid⟩ := find?_eq_some.mp hr
    by_cases hp : p r = true
    · exact ⟨f r, find?_eq_some.mpr ⟨(mem_updateWhere hk).mpr (Or.inr ⟨r, hm, hp, rfl⟩),
        (hk r).trans hid⟩, hf r hp⟩
    · exact ⟨r, find?_eq_some.mpr ⟨(mem_updateWhere hk).mpr (Or.inl ⟨hm, by simpa using hp⟩), hid⟩,
        Std.Refl.refl r⟩
  new j s hs hn := by
    obtain ⟨hm, hid⟩ := find?_eq_some.mp hs
    rcases (mem_updateWhere hk).mp hm with ⟨hm, _⟩ | ⟨q, hq, _, rfl⟩
    · exact absurd hid (find?_eq_none.mp hn s hm)
    · exact absurd ((hk q).symm.trans hid) (find?_eq_none.mp hn q hq)

theorem appends [Std.Refl R] (h : Appends t t' x) (hN : N x) : Evolves R N t t' where
  next := by
    rw [h.next]
    omega
  kept _ r hr := ⟨r, h.find?_old hr, Std.Refl.refl r⟩
  new j s hs hn := by
    obtain ⟨hm, hid⟩ := find?_eq_some.mp hs
    rcases h.mem.mp hm with hm | rfl
    · exact absurd hid (find?_eq_none.mp hn s hm)
    · exact ⟨(h.id.symm.trans hid).le, hN⟩

theorem insert [Std.Refl R] (hN : N (mk t.next))
    (hk : Names mk := by first | assumption | (intro i; rfl)) : Evolves R N t (t.insert mk hk) :=
  appends (appends_insert hk) hN

end Evolves
end Table

namespace Transaction
variable {ε σ ι β : Type} {s t : σ}

-- What holds of the state and of what is still to be done, until nothing is.
theorem forM_remaining {x : ι → Transaction ε σ Unit} {I : List ι → σ → Prop} {is : List ι}
    (hx : ∀ i is s t, I (i :: is) s → Commits (x i) s () t → I is t) (hs : I is s)
    (h : Commits (is.forM x) s () t) : I [] t := by
  induction is generalizing s with
  | nil =>
    obtain rfl := commits_forM_nil.mp h
    exact hs
  | cons i is ih =>
    obtain ⟨u, hu, h⟩ := commits_forM_cons.mp h
    exact ih (hx i is s u hs hu) h

theorem foldlM_kept {x : β → ι → Transaction ε σ β} {I : σ → Prop} {is : List ι} {b c : β}
    (hx : ∀ b i c s t, I s → Commits (x b i) s c t → I t) (hs : I s)
    (h : Commits (is.foldlM x b) s c t) : I t := by
  induction is generalizing s b with
  | nil =>
    obtain ⟨_, rfl⟩ := commits_pure.mp h
    exact hs
  | cons i is ih =>
    rw [List.foldlM_cons] at h
    obtain ⟨d, u, hu, h⟩ := commits_bind.mp h
    exact ih (hx b i d s u hs hu) h

end Transaction
