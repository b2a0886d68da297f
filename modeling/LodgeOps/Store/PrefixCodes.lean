import Mathlib.Tactic

namespace PrefixCodes
variable {α β γ : Type} {f : α → List γ} {marks : γ → Prop} {s t : List γ}

-- What follows a code starts with a mark, or there is nothing.
def Stops (marks : γ → Prop) (s : List γ) : Prop := ∀ c ∈ s.head?, marks c

theorem stops_cons {c : γ} : Stops marks (c :: s) ↔ marks c := by simp [Stops]

-- However the two texts go on, one text read from its start shows what was written.
def ReadsAs (marks : γ → Prop) (f : α → List γ) (R : α → α → Prop) (x y : α) : Prop :=
  ∀ s t, Stops marks s → Stops marks t → f x ++ s = f y ++ t → R x y ∧ s = t

section Words
variable {P : γ → Prop} {xs ys : List γ}

theorem append_eq_of_word (hxs : ∀ c ∈ xs, P c) (hys : ∀ c ∈ ys, P c)
    (hs : ∀ c ∈ s.head?, ¬ P c) (ht : ∀ c ∈ t.head?, ¬ P c) (h : xs ++ s = ys ++ t) :
    xs = ys ∧ s = t := by
  induction xs generalizing ys with
  | nil =>
    cases ys with
    | nil => exact ⟨rfl, h⟩
    | cons y ys =>
      have hhead : s = y :: (ys ++ t) := h
      exact absurd (hys y (by simp)) (hs y (by simp [hhead]))
  | cons x xs ih =>
    cases ys with
    | nil =>
      have hhead : t = x :: (xs ++ s) := h.symm
      exact absurd (hxs x (by simp)) (ht x (by simp [hhead]))
    | cons y ys =>
      obtain ⟨hxy, htail⟩ := List.cons.inj h
      obtain ⟨hrest, hst⟩ := ih (fun c hc => hxs c (by simp [hc]))
        (fun c hc => hys c (by simp [hc])) htail
      exact ⟨by rw [hxy, hrest], hst⟩

end Words

section Letters
variable {code : α → List γ} {close : γ} {xs ys : List α}

-- Letters whose codes read themselves, up to a sign no code starts with.
theorem flatMap_reads (hcode : ∀ a b s t, code a ++ s = code b ++ t → a = b ∧ s = t)
    (hclose : ∀ a s t, code a ++ s ≠ close :: t)
    (h : xs.flatMap code ++ close :: s = ys.flatMap code ++ close :: t) : xs = ys ∧ s = t := by
  induction xs generalizing ys with
  | nil =>
    cases ys with
    | nil => exact ⟨rfl, (List.cons.inj h).2⟩
    | cons y ys =>
      rw [List.flatMap_cons, List.append_assoc] at h
      exact absurd h.symm (hclose _ _ _)
  | cons x xs ih =>
    rw [List.flatMap_cons, List.append_assoc] at h
    cases ys with
    | nil => exact absurd h (hclose _ _ _)
    | cons y ys =>
      rw [List.flatMap_cons, List.append_assoc] at h
      obtain ⟨hxy, htail⟩ := hcode _ _ _ _ h
      obtain ⟨hrest, hst⟩ := ih htail
      exact ⟨by rw [hxy, hrest], hst⟩

end Letters

section Sequences
variable {R : α → α → Prop} {sep close : γ} {xs ys : List α}

def sequence (f : α → List γ) (sep close : γ) : List α → List γ
  | [] => [close]
  | [x] => f x ++ [close]
  | x :: y :: xs => f x ++ sep :: sequence f sep close (y :: xs)

theorem intercalate_append : [sep].intercalate (xs.map f) ++ [close] = sequence f sep close xs := by
  induction xs with
  | nil => rfl
  | cons x xs ih =>
    cases xs with
    | nil => simp [sequence]
    | cons y ys =>
      rw [sequence, ← ih]
      simp

-- After an entry comes the separator or the end, and the rest is a sequence again.
theorem sequence_cons (f : α → List γ) (sep close : γ) (x : α) (xs : List α) : ∃ c, sequence f sep close (x :: xs) =
    f x ++ c :: (if xs = [] then [] else sequence f sep close xs) ∧
      c = if xs = [] then close else sep := by
  cases xs with
  | nil => exact ⟨close, by simp [sequence], by simp⟩
  | cons y ys => exact ⟨sep, by simp [sequence], by simp⟩

theorem sequence_reads (hsep : marks sep) (hclose : marks close) (hne : sep ≠ close)
    (hxs : ∀ x ∈ xs, ∀ y ∈ ys, ReadsAs marks f R x y)
    (hstart : ∀ x s t, f x ++ s ≠ close :: t)
    (h : sequence f sep close xs ++ s = sequence f sep close ys ++ t) :
    List.Forall₂ R xs ys ∧ s = t := by
  induction xs generalizing ys with
  | nil =>
    cases ys with
    | nil => exact ⟨List.Forall₂.nil, (List.cons.inj h).2⟩
    | cons y ys =>
      obtain ⟨c, hy, _⟩ := sequence_cons f sep close y ys
      rw [hy, List.append_assoc] at h
      exact absurd h.symm (hstart _ _ _)
  | cons x xs ih =>
    obtain ⟨c, hx, hc⟩ := sequence_cons f sep close x xs
    rw [hx, List.append_assoc] at h
    cases ys with
    | nil => exact absurd h (hstart _ _ _)
    | cons y ys =>
      obtain ⟨d, hy, hd⟩ := sequence_cons f sep close y ys
      rw [hy, List.append_assoc, List.cons_append, List.cons_append] at h
      have hmark : marks c ∧ marks d := by
        constructor
        · rw [hc]
          split_ifs <;> assumption
        · rw [hd]
          split_ifs <;> assumption
      obtain ⟨hxy, h⟩ := hxs x (by simp) y (by simp) _ _ (stops_cons.mpr hmark.1)
        (stops_cons.mpr hmark.2) h
      obtain ⟨hcd, h⟩ := List.cons.inj h
      rw [hc, hd] at hcd
      by_cases hnil : xs = []
      · by_cases hnil' : ys = []
        · subst hnil hnil'
          exact ⟨List.Forall₂.cons hxy List.Forall₂.nil, h⟩
        · rw [if_pos hnil, if_neg hnil'] at hcd
          exact absurd hcd.symm hne
      · by_cases hnil' : ys = []
        · rw [if_neg hnil, if_pos hnil'] at hcd
          exact absurd hcd hne
        · rw [if_neg hnil, if_neg hnil'] at h
          obtain ⟨hrest, hst⟩ := ih (fun x hx y hy => hxs x (by simp [hx]) y (by simp [hy])) h
          exact ⟨List.Forall₂.cons hxy hrest, hst⟩

end Sequences
end PrefixCodes
