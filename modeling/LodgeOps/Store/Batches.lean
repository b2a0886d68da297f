import LodgeOps.Store.Transaction
import LodgeOps.Store.Quotas

namespace Table
variable {ρ κ : Type} [Keyed ρ] {t t' u : Table ρ} {r r' : ρ} {rs : List ρ} {p : ρ → Bool}
variable {f : ρ → ρ} {i : ℕ} {R S : ρ → ρ → List κ → Prop} {log log' log'' : ℕ → List κ}

-- Rows that were read from the table and stand there as they were read.
structure Loaded (rs : List ρ) (t : Table ρ) : Prop where
  rows : ∀ r ∈ rs, r ∈ t.rows
  nodup : (rs.map Keyed.id).Nodup

theorem loaded_select : Loaded (t.select p) t where
  rows _ hr := (mem_select.mp hr).1
  nodup := t.nodup.sublist (List.filter_sublist.map _)

theorem mem_ids_select (hr : r ∈ t.rows) : Keyed.id r ∈ (t.select p).map Keyed.id ↔ p r = true := by
  constructor
  · intro h
    obtain ⟨q, hq, he⟩ := List.mem_map.mp h
    obtain ⟨hq, hp⟩ := mem_select.mp hq
    rwa [← eq_of_id hq hr he]
  · intro hp
    exact List.mem_map_of_mem (mem_select.mpr ⟨hr, hp⟩)

theorem Loaded.head (h : Loaded (r :: rs) t) : r ∈ t.rows := h.rows r List.mem_cons_self

theorem Loaded.fresh (h : Loaded (r :: rs) t) : Keyed.id r ∉ rs.map Keyed.id :=
  (List.nodup_cons.mp h.nodup).1

theorem Loaded.tail (h : Loaded (r :: rs) t) (hu : Updates t t' (Keyed.id r) f) : Loaded rs t' where
  rows q hq := by
    have hne : Keyed.id q ≠ Keyed.id r := fun he => h.fresh (he ▸ List.mem_map_of_mem hq)
    exact hu.mem_ne (h.rows q (List.mem_cons_of_mem r hq)) hne
  nodup := (List.nodup_cons.mp h.nodup).2

theorem Loaded.mono (h : Loaded rs t) (hk : ∀ r ∈ t.rows, r ∈ t'.rows) : Loaded rs t' where
  rows r hr := hk r (h.rows r hr)
  nodup := h.nodup

-- One row goes on by R, and what R notes of it is filed behind the rest.
structure Handles (R : ρ → ρ → List κ → Prop) (r : ρ) (t t' : Table ρ)
    (log log' : ℕ → List κ) : Prop where
  handled : ∃ f ks, Updates t t' (Keyed.id r) f ∧ R r (f r) ks ∧
    log' (Keyed.id r) = log (Keyed.id r) ++ ks
  others : ∀ i, i ≠ Keyed.id r → log' i = log i

theorem handles_filed {k : κ} (hu : Updates t t' (Keyed.id r) f) (hR : R r (f r) [k])
    (h : ∀ i, log' i = log i ++ if Keyed.id r == i then [k] else []) :
    Handles R r t t' log log' where
  handled := ⟨f, [k], hu, hR, by simpa using h (Keyed.id r)⟩
  others i hi := by simpa [hi.symm] using h i

theorem handles_passed (hR : R r r []) : Handles R r t t log log where
  handled := ⟨id, [], ⟨by simp, rfl, fun _ => rfl⟩, hR, by simp⟩
  others _ _ := rfl

structure Revises (R : ρ → ρ → List κ → Prop) (t t' : Table ρ) (log log' : ℕ → List κ) : Prop where
  rows : List.Forall₂ (fun r r' => Keyed.id r' = Keyed.id r ∧
    ∃ ks, R r r' ks ∧ log' (Keyed.id r) = log (Keyed.id r) ++ ks) t.rows t'.rows
  next : t'.next = t.next
  others : ∀ i, (∀ r ∈ t.rows, Keyed.id r ≠ i) → log' i = log i

def Among (R : ρ → ρ → List κ → Prop) (ids : List ℕ) (r r' : ρ) (ks : List κ) : Prop :=
  (Keyed.id r ∈ ids → R r r' ks) ∧ (Keyed.id r ∉ ids → r' = r ∧ ks = [])

theorem counterpart {α β : Type} {P : α → β → Prop} {l : List α} {l' : List β} {a : α}
    (h : List.Forall₂ P l l') (ha : a ∈ l) : ∃ b ∈ l', P a b := by
  induction h with
  | nil => cases ha
  | cons hp _ ih =>
    rcases List.mem_cons.mp ha with rfl | ha
    · exact ⟨_, List.mem_cons_self, hp⟩
    · obtain ⟨b, hb, hp⟩ := ih ha
      exact ⟨b, List.mem_cons_of_mem _ hb, hp⟩

namespace Revises

theorem mono (h : Revises R t t' log log')
    (hR : ∀ r ∈ t.rows, ∀ r' ks, R r r' ks → S r r' ks) : Revises S t t' log log' where
  rows := by
    have hrows := (List.forall₂_and_left t.rows t'.rows).mpr ⟨fun _ hr => hr, h.rows⟩
    refine hrows.imp fun r r' hr => ?_
    obtain ⟨hr, hid, ks, hks, hlog⟩ := hr
    exact ⟨hid, ks, hR r hr r' ks hks, hlog⟩
  next := h.next
  others := h.others

theorem row (h : Revises R t t' log log') (hr : r' ∈ t'.rows) :
    ∃ r ∈ t.rows, Keyed.id r' = Keyed.id r ∧ ∃ ks, R r r' ks ∧
      log' (Keyed.id r) = log (Keyed.id r) ++ ks :=
  counterpart h.rows.flip hr

theorem kept (h : Revises R t t' log log') (hr : r ∈ t.rows) :
    ∃ r' ∈ t'.rows, Keyed.id r' = Keyed.id r ∧ ∃ ks, R r r' ks ∧
      log' (Keyed.id r) = log (Keyed.id r) ++ ks :=
  counterpart h.rows hr

theorem seen_sublist {α : Type} {counts counts' : ρ → Bool} {view : ρ → α}
    (h : Revises R t t' log log')
    (hR : ∀ r ∈ t.rows, ∀ r' ks, R r r' ks → Keyed.id r' = Keyed.id r → counts' r' = true →
      counts r = true ∧ view r' = view r) :
    List.Sublist (t'.seen counts' view) (t.seen counts view) := by
  have hrows := h.rows
  simp only [seen, select]
  revert hrows hR
  generalize t.rows = l
  generalize t'.rows = l'
  intro hR hrows
  induction hrows with
  | nil => simp
  | cons hq _ ih =>
    rename_i q q' l l' _
    obtain ⟨hid, ks, hks, _⟩ := hq
    have hrest := ih fun r hr => hR r (List.mem_cons_of_mem q hr)
    have hq := hR q List.mem_cons_self q' ks hks hid
    simp only [List.filter_cons]
    cases hc : counts' q' with
    | true =>
      obtain ⟨hcq, hv⟩ := hq hc
      simpa [hcq, hv] using hrest
    | false =>
      cases counts q with
      | true => simpa using hrest.cons (view q)
      | false => simpa using hrest

end Revises

theorem revises_none : Revises (Among R []) t t log log where
  rows := List.forall₂_same.mpr fun r _ => ⟨rfl, [], ⟨by simp, fun _ => ⟨rfl, rfl⟩⟩, by simp⟩
  next := rfl
  others _ _ := rfl

theorem Handles.andThen {ids : List ℕ} (h : Handles R r t t' log log') (hr : r ∈ t.rows)
    (hi : Keyed.id r ∉ ids) (h' : Revises (Among R ids) t' u log' log'') :
    Revises (Among R (Keyed.id r :: ids)) t u log log'' := by
  obtain ⟨f, ks, hup, hR, hlog⟩ := h.handled
  refine ⟨?_, h'.next.trans hup.next, fun i hi => ?_⟩
  · have hrows := h'.rows
    rw [hup.rows, List.forall₂_map_left_iff] at hrows
    have hrows := (List.forall₂_and_left t.rows u.rows).mpr ⟨fun _ hq => hq, hrows⟩
    refine hrows.imp fun q q' hq => ?_
    obtain ⟨hm, hid, ls, hls, hlogq⟩ := hq
    by_cases he : Keyed.id q = Keyed.id r
    · obtain rfl := eq_of_id hm hr he
      simp only [if_true] at hid hls hlogq
      rw [hup.keeps] at hid hlogq
      obtain ⟨rfl, rfl⟩ := hls.2 (by rwa [hup.keeps])
      refine ⟨hid, ks, ⟨fun _ => hR, fun hn => absurd List.mem_cons_self hn⟩, ?_⟩
      rw [hlogq, hlog, List.append_nil]
    · simp only [if_neg he] at hid hls hlogq
      refine ⟨hid, ls, ⟨fun hn => hls.1 ?_, fun hn => hls.2 fun hq => hn (List.mem_cons_of_mem _ hq)⟩, ?_⟩
      · exact (List.mem_cons.mp hn).resolve_left he
      · rw [hlogq, h.others _ he]
  · have hne : ∀ q ∈ t'.rows, Keyed.id q ≠ i := by
      intro q hq
      rcases hup.mem.mp hq with ⟨hq, _⟩ | ⟨p, hp, _, rfl⟩
      · exact hi q hq
      · rw [hup.keeps]
        exact hi p hp
    rw [h'.others i hne, h.others i (hi r hr).symm]

end Table

namespace Transaction
variable {ε σ ρ κ : Type} [Keyed ρ] {x : ρ → Transaction ε σ Unit} (table : σ → Table ρ)
variable (log : σ → ℕ → List κ) {I : σ → Prop} {R : ρ → ρ → List κ → Prop} {rs : List ρ} {s t : σ}

theorem forM_among
    (hx : ∀ r ∈ rs, ∀ s t, I s → Commits (x r) s () t →
      I t ∧ Table.Handles R r (table s) (table t) (log s) (log t))
    (hl : Table.Loaded rs (table s)) (hs : I s) (h : Commits (rs.forM x) s () t) :
    I t ∧ Table.Revises (Table.Among R (rs.map Keyed.id)) (table s) (table t) (log s) (log t) := by
  induction rs generalizing s with
  | nil =>
    obtain rfl := commits_forM_nil.mp h
    exact ⟨hs, Table.revises_none⟩
  | cons r rs ih =>
    obtain ⟨u, hu, h⟩ := commits_forM_cons.mp h
    obtain ⟨hIu, hhandles⟩ := hx r List.mem_cons_self s u hs hu
    obtain ⟨f, ks, hup, _⟩ := hhandles.handled
    obtain ⟨hIt, hrest⟩ := ih (fun q hq => hx q (List.mem_cons_of_mem r hq)) (hl.tail hup) hIu h
    exact ⟨hIt, hhandles.andThen hl.head hl.fresh hrest⟩

-- A loop over rows that were read sends each of them on by R, and the rest of them stay.
theorem forM_revises
    (hx : ∀ r ∈ rs, ∀ s t, I s → Commits (x r) s () t →
      I t ∧ Table.Handles R r (table s) (table t) (log s) (log t))
    (hl : Table.Loaded rs (table s)) (hs : I s)
    (hrest : ∀ r ∈ (table s).rows, Keyed.id r ∉ rs.map Keyed.id → R r r [])
    (h : Commits (rs.forM x) s () t) :
    I t ∧ Table.Revises R (table s) (table t) (log s) (log t) := by
  obtain ⟨hI, hr⟩ := forM_among table log hx hl hs h
  refine ⟨hI, hr.mono fun r hm r' ks hks => ?_⟩
  by_cases hi : Keyed.id r ∈ rs.map Keyed.id
  · exact hks.1 hi
  · obtain ⟨rfl, rfl⟩ := hks.2 hi
    exact hrest _ hm hi

end Transaction
