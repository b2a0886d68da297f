import LodgeOps.Store.Table

namespace Quotas
variable {α : Type} {uses sub : List α} {x : α}

-- A bound on what the uses weigh together.
structure Cap (α : Type) where
  weight : α → ℤ
  bound : ℤ

namespace Cap
variable (c : Cap α)

def load (uses : List α) : ℤ := (uses.map c.weight).sum

@[simp] theorem load_nil : c.load [] = 0 := rfl

@[simp] theorem load_append (us vs : List α) : c.load (us ++ vs) = c.load us + c.load vs := by
  simp [load]

@[simp] theorem load_singleton : c.load [x] = c.weight x := by simp [load]

theorem load_sublist (hs : List.Sublist sub uses) (hw : ∀ x ∈ uses, 0 ≤ c.weight x) :
    c.load sub ≤ c.load uses := by
  induction hs with
  | slnil => exact le_rfl
  | cons x hs ih =>
    have hx := hw x List.mem_cons_self
    have hle := ih fun y hy => hw y (List.mem_cons_of_mem x hy)
    simp only [load, List.map_cons, List.sum_cons] at hle ⊢
    omega
  | cons_cons x hs ih =>
    have hle := ih fun y hy => hw y (List.mem_cons_of_mem x hy)
    simp only [load, List.map_cons, List.sum_cons] at hle ⊢
    omega

end Cap

def counting (p : α → Bool) (n : ℕ) : Cap α where
  weight x := if p x then 1 else 0
  bound := n

@[simp] theorem load_counting {p : α → Bool} {n : ℕ} :
    (counting p n).load uses = (uses.countP p : ℕ) := by
  induction uses with
  | nil => rfl
  | cons x uses ih =>
    simp only [Cap.load, counting, List.map_cons, List.sum_cons, List.countP_cons] at ih ⊢
    rw [ih]
    split <;> simp_all [add_comm]

theorem counting_nonneg {p : α → Bool} {n : ℕ} (x : α) : 0 ≤ (counting p n).weight x := by
  simp only [counting]
  split <;> omega

def Respects (caps : Set (Cap α)) (uses : List α) : Prop := ∀ c ∈ caps, c.load uses ≤ c.bound

variable {caps : Set (Cap α)}

theorem Respects.sublist (h : Respects caps uses) (hs : List.Sublist sub uses)
    (hw : ∀ c ∈ caps, ∀ x ∈ uses, 0 ≤ c.weight x) : Respects caps sub :=
  fun c hc => (c.load_sublist hs (hw c hc)).trans (h c hc)

-- A use is taken on where there is room for it under every cap.
theorem Respects.append (h : ∀ c ∈ caps, c.load uses + c.weight x ≤ c.bound) :
    Respects caps (uses ++ [x]) := by
  intro c hc
  simpa using h c hc

theorem respects_nil (h : ∀ c ∈ caps, 0 ≤ c.bound) : Respects caps ([] : List α) :=
  fun c hc => h c hc

end Quotas

namespace Table
variable {ρ α : Type} [Keyed ρ] {t t' : Table ρ} {counts p : ρ → Bool} {view : ρ → α} {f : ρ → ρ}
variable {mk : ℕ → ρ} {i : ℕ}

-- The rows that count, as they are looked at.
def seen (t : Table ρ) (counts : ρ → Bool) (view : ρ → α) : List α := (t.select counts).map view

theorem mem_seen {x : α} : x ∈ t.seen counts view ↔ ∃ r ∈ t.rows, counts r = true ∧ view r = x := by
  simp [seen, select, and_assoc]

theorem seen_congr {counts' : ρ → Bool} (h : ∀ r ∈ t.rows, counts r = counts' r) :
    t.seen counts view = t.seen counts' view := by
  simp only [seen, select, List.filter_congr h]

theorem seen_sublist {counts' : ρ → Bool} (h : ∀ r ∈ t.rows, counts r = true → counts' r = true) :
    List.Sublist (t.seen counts view) (t.seen counts' view) := by
  have hboth : t.rows.filter counts = (t.rows.filter counts').filter counts := by
    rw [List.filter_filter]
    refine List.filter_congr fun r hr => ?_
    cases hc : counts r with
    | true => simp [h r hr hc]
    | false => simp
  refine List.Sublist.map view ?_
  show List.Sublist (t.rows.filter counts) _
  rw [hboth]
  exact List.filter_sublist

theorem Appends.seen {x : ρ} (h : Appends t t' x) :
    t'.seen counts view = t.seen counts view ++ if counts x then [view x] else [] := by
  simp only [Table.seen, select, h.rows, List.filter_append, List.map_append, List.filter_cons,
    List.filter_nil]
  split <;> simp

theorem seen_insert (hk : Names mk := by first | assumption | (intro i; rfl)) :
    (t.insert mk hk).seen counts view =
      t.seen counts view ++ if counts (mk t.next) then [view (mk t.next)] else [] :=
  (appends_insert hk).seen

theorem Updates.seen_sublist {counts' : ρ → Bool} (h : Updates t t' i f)
    (hi : ∀ r ∈ t.rows, Keyed.id r = i → counts' (f r) = true →
      counts r = true ∧ view (f r) = view r)
    (hne : ∀ r ∈ t.rows, Keyed.id r ≠ i → counts' r = true → counts r = true) :
    List.Sublist (t'.seen counts' view) (t.seen counts view) := by
  simp only [seen, select, h.rows]
  revert hi hne
  generalize t.rows = rows
  intro hi hne
  induction rows with
  | nil => simp
  | cons r rows ih =>
    have hrest := ih (fun s hs => hi s (List.mem_cons_of_mem r hs))
      fun s hs => hne s (List.mem_cons_of_mem r hs)
    simp only [List.map_cons, List.filter_cons]
    by_cases he : Keyed.id r = i
    · have hr := hi r List.mem_cons_self he
      simp only [he, if_true]
      cases hc : counts' (f r) with
      | true =>
        obtain ⟨hcr, hv⟩ := hr hc
        simpa [hcr, hv] using hrest
      | false =>
        cases counts r with
        | true => simpa using hrest.cons (view r)
        | false => simpa using hrest
    · have hr := hne r List.mem_cons_self he
      simp only [he, if_false]
      cases hc : counts' r with
      | true => simpa [hr hc] using hrest
      | false =>
        cases counts r with
        | true => simpa using hrest.cons (view r)
        | false => simpa using hrest

end Table
