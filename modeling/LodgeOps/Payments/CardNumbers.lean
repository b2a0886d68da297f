import LodgeOps.Payments.SensitiveData

namespace SensitivePaymentDataGuard
open Schema Transaction Patterns

section Numbers

-- Digits in a row, at most one separator between two of them.
inductive Spaced : ℕ → List Char → Prop
  | one {d : Char} (hd : digit d = true) : Spaced 1 [d]
  | next {d : Char} {k : ℕ} {w : List Char} (hd : digit d = true) (h : Spaced k w) :
    Spaced (k + 1) (d :: w)
  | gap {d s : Char} {k : ℕ} {w : List Char} (hd : digit d = true) (hs : separator s = true)
    (h : Spaced k w) : Spaced (k + 1) (d :: s :: w)

def startsDigit (xs : List Char) : Bool := xs.head?.any digit

def endsDigit (behind : Bool) : List Char → Bool
  | [] => behind
  | x :: xs => endsDigit (digit x) xs

-- A number of 13 to 19 digits that no further digit touches; `behind` tells what precedes the text.
structure Occurs (behind : Bool) (text pre number post : List Char) : Prop where
  split : text = pre ++ (number ++ post)
  spaced : ∃ k, 13 ≤ k ∧ k ≤ 19 ∧ Spaced k number
  left : endsDigit behind pre = false
  right : startsDigit post = false

structure First (behind : Bool) (text pre number post : List Char) : Prop
    extends Occurs behind text pre number post where
  first : ∀ pre' number' post', Occurs behind text pre' number' post' →
    pre.length < pre'.length ∨ pre.length = pre'.length ∧ number'.length ≤ number.length

-- The numbers of a text as they are met from the left, each of them as long as it can be.
inductive Scanned : Bool → List Char → List (List Char) → Prop
  | clear {behind : Bool} {text : List Char}
    (h : ∀ pre number post, ¬ Occurs behind text pre number post) : Scanned behind text []
  | found {behind : Bool} {text pre number post : List Char} {numbers : List (List Char)}
    (h : First behind text pre number post) (hs : Scanned true post numbers) :
    Scanned behind text (number :: numbers)

end Numbers

variable {behind : Bool} {text pre number post pre' number' post' w rest xs : List Char}
variable {ns ms : List (List Char)} {x d s : Char} {k l : ℕ} {c e : Cursor}

section Occurrences

theorem separator_not_digit (h : separator s = true) : digit s = false := by
  simp only [separator, Bool.or_eq_true, beq_iff_eq] at h
  rcases h with rfl | rfl
  · rfl
  · rfl

theorem spaced_cons (h : Spaced k w) : ∃ d v, w = d :: v ∧ digit d = true := by
  cases h with
  | one hd => exact ⟨_, _, rfl, hd⟩
  | next hd _ => exact ⟨_, _, rfl, hd⟩
  | gap hd _ _ => exact ⟨_, _, rfl, hd⟩

theorem spaced_ends (h : Spaced k w) : endsDigit behind w = true := by
  induction h generalizing behind with
  | one hd => exact hd
  | next _ _ ih => exact ih
  | gap _ _ _ ih => exact ih

theorem reverse_starts_digit (h : Spaced k w) : startsDigit (w.reverse ++ rest) = true := by
  induction h generalizing rest with
  | one hd => simpa [startsDigit] using hd
  | @next d k w _ _ ih => simpa using @ih (d :: rest)
  | @gap d s k w _ _ _ ih => simpa using @ih (s :: d :: rest)

theorem endsDigit_append : endsDigit behind (xs ++ w) = endsDigit (endsDigit behind xs) w := by
  induction xs generalizing behind with
  | nil => rfl
  | cons x xs ih => exact ih

theorem occurs_cons : Occurs behind (x :: xs) (x :: pre) number post ↔
    Occurs (digit x) xs pre number post := by
  constructor
  · exact fun h => ⟨List.tail_eq_of_cons_eq h.split, h.spaced, h.left, h.right⟩
  · exact fun h => ⟨congrArg (x :: ·) h.split, h.spaced, h.left, h.right⟩

theorem occurs_cases (h : Occurs behind (x :: xs) pre number post) :
    pre = [] ∨ ∃ pre', pre = x :: pre' ∧ Occurs (digit x) xs pre' number post := by
  cases pre with
  | nil => exact Or.inl rfl
  | cons y pre' =>
    obtain rfl : x = y := List.head_eq_of_cons_eq h.split
    exact Or.inr ⟨pre', rfl, occurs_cons.mp h⟩

theorem not_occurs_nil : ¬ Occurs behind [] pre number post := by
  intro h
  obtain ⟨k, _, _, hs⟩ := h.spaced
  obtain ⟨d, v, rfl, _⟩ := spaced_cons hs
  simpa using h.split

-- Where no number starts, the scan goes on with the next character.
theorem scanned_skip (h : ∀ number post, ¬ Occurs behind (x :: xs) [] number post)
    (hs : Scanned (digit x) xs ns) : Scanned behind (x :: xs) ns := by
  cases hs with
  | clear hc =>
    refine .clear fun pre number post ho => ?_
    rcases occurs_cases ho with rfl | ⟨pre', rfl, ho'⟩
    · exact h number post ho
    · exact hc pre' number post ho'
  | found hf hs =>
    refine .found ⟨occurs_cons.mpr hf.toOccurs, fun pre' number' post' ho => ?_⟩ hs
    rcases occurs_cases ho with rfl | ⟨pre', rfl, ho'⟩
    · exact absurd ho (h number' post')
    · have hfirst := hf.first pre' number' post' ho'
      simp only [List.length_cons]
      omega

theorem first_unique (h : First behind text pre number post)
    (h' : First behind text pre' number' post') : number = number' ∧ post = post' := by
  have hle := h.first _ _ _ h'.toOccurs
  have hge := h'.first _ _ _ h.toOccurs
  have hsplit : pre ++ (number ++ post) = pre' ++ (number' ++ post') := h.split.symm.trans h'.split
  obtain ⟨_, hrest⟩ := List.append_inj hsplit (by omega)
  exact List.append_inj hrest (by omega)

theorem scanned_unique (h : Scanned behind text ns) (h' : Scanned behind text ms) : ns = ms := by
  induction h generalizing ms with
  | clear hc =>
    cases h' with
    | clear _ => rfl
    | found hf _ => exact absurd hf.toOccurs (hc _ _ _)
  | found hf _ ih =>
    cases h' with
    | clear hc => exact absurd hf.toOccurs (hc _ _ _)
    | found hf' hs' =>
      obtain ⟨rfl, rfl⟩ := first_unique hf hf'
      rw [ih hs']

end Occurrences

section Engine

theorem mem_cardDigit : e ∈ results cardDigit c ↔ ∃ d, digit d = true ∧
    (c.after = d :: e.after ∧ e.before = d :: c.before ∨
      ∃ s, separator s = true ∧ c.after = d :: s :: e.after ∧ e.before = s :: d :: c.before) := by
  rw [cardDigit, mem_seq]
  constructor
  · rintro ⟨u, hu, he⟩
    obtain ⟨d, hd, hafter, hbefore⟩ := mem_one.mp hu
    rcases mem_perhaps.mp he with he | rfl
    · obtain ⟨s, hs, hrest, hfront⟩ := mem_one.mp he
      exact ⟨d, hd, Or.inr ⟨s, hs, by rw [hafter, hrest], by rw [hfront, hbefore]⟩⟩
    · exact ⟨d, hd, Or.inl ⟨hafter, hbefore⟩⟩
  · rintro ⟨d, hd, ⟨hafter, hbefore⟩ | ⟨s, hs, hafter, hbefore⟩⟩
    · exact ⟨e, mem_one.mpr ⟨d, hd, hafter, hbefore⟩, mem_perhaps.mpr (Or.inr rfl)⟩
    · exact ⟨⟨d :: c.before, s :: e.after⟩, mem_one.mpr ⟨d, hd, hafter, rfl⟩,
        mem_perhaps.mpr (Or.inl (mem_one.mpr ⟨s, hs, rfl, hbefore⟩))⟩

theorem cardDigit_shortens : Shortens (results cardDigit) := by
  intro c e he
  unfold Longer
  obtain ⟨d, _, ⟨hafter, _⟩ | ⟨s, _, hafter, _⟩⟩ := mem_cardDigit.mp he
  · rw [hafter]
    exact Nat.lt_succ_self _
  · rw [hafter]
    simp

theorem stuck_of_not_digit (h : startsDigit c.after = false) : results cardDigit c = [] := by
  apply List.eq_nil_iff_forall_not_mem.mpr
  intro e he
  obtain ⟨d, hd, ⟨hafter, _⟩ | ⟨s, _, hafter, _⟩⟩ := mem_cardDigit.mp he
  · simp [startsDigit, hafter, hd] at h
  · simp [startsDigit, hafter, hd] at h

-- After a digit that stops before its separator no other digit can follow.
theorem cardDigit_committed : Committed (results cardDigit) := by
  intro c
  simp only [cardDigit, results, perhaps]
  unfold one
  split
  · exact List.Pairwise.nil
  · next x xs _ =>
    split_ifs with hx
    · simp only [List.flatMap_cons, List.flatMap_nil, List.append_nil]
      cases xs with
      | nil => exact List.pairwise_singleton _ _
      | cons s ys =>
        cases hs : separator s with
        | false => simp [hs]
        | true =>
          have hstuck : results cardDigit ⟨x :: c.before, s :: ys⟩ = [] :=
            stuck_of_not_digit (by simp [startsDigit, separator_not_digit hs])
          simp only [hs, if_true, List.cons_append, List.nil_append, List.pairwise_cons,
            List.mem_singleton, forall_eq]
          exact ⟨⟨Nat.lt_succ_self _, hstuck⟩, by simp, List.Pairwise.nil⟩
    · exact List.Pairwise.nil

theorem spaced_of_iterates (h : Iterates (results cardDigit) k c e) (hk : k ≠ 0) :
    ∃ w, Spaced k w ∧ (c.after = w ++ e.after ∧ e.before = w.reverse ++ c.before ∨
      ∃ s, separator s = true ∧ c.after = w ++ s :: e.after ∧
        e.before = s :: (w.reverse ++ c.before)) := by
  induction h with
  | refl _ => exact absurd rfl hk
  | @step k c u e hu hrest ih =>
    obtain ⟨d, hd, hfirst⟩ := mem_cardDigit.mp hu
    cases k with
    | zero =>
      cases hrest
      exact ⟨[d], .one hd, hfirst⟩
    | succ k =>
      obtain ⟨w, hw, hlast⟩ := ih (Nat.succ_ne_zero k)
      rcases hfirst with ⟨hafter, hbefore⟩ | ⟨s, hs, hafter, hbefore⟩
      · refine ⟨d :: w, .next hd hw, ?_⟩
        rcases hlast with ⟨ha, hb⟩ | ⟨t, ht, ha, hb⟩
        · exact Or.inl ⟨by rw [hafter, ha]; rfl, by rw [hb, hbefore]; simp⟩
        · exact Or.inr ⟨t, ht, by rw [hafter, ha]; rfl, by rw [hb, hbefore]; simp⟩
      · refine ⟨d :: s :: w, .gap hd hs hw, ?_⟩
        rcases hlast with ⟨ha, hb⟩ | ⟨t, ht, ha, hb⟩
        · exact Or.inl ⟨by rw [hafter, ha]; rfl, by rw [hb, hbefore]; simp⟩
        · exact Or.inr ⟨t, ht, by rw [hafter, ha]; rfl, by rw [hb, hbefore]; simp⟩

theorem iterates_of_spaced (h : Spaced k w) (hc : c.after = w ++ rest) :
    Iterates (results cardDigit) k c ⟨w.reverse ++ c.before, rest⟩ := by
  induction h generalizing c with
  | @one d hd =>
    have hu : (⟨d :: c.before, rest⟩ : Cursor) ∈ results cardDigit c :=
      mem_cardDigit.mpr ⟨d, hd, Or.inl ⟨hc, rfl⟩⟩
    exact .step hu (.refl _)
  | @next d k w hd _ ih =>
    have hu : (⟨d :: c.before, w ++ rest⟩ : Cursor) ∈ results cardDigit c :=
      mem_cardDigit.mpr ⟨d, hd, Or.inl ⟨hc, rfl⟩⟩
    simpa using Iterates.step hu (ih rfl)
  | @gap d s k w hd hs _ ih =>
    have hu : (⟨s :: d :: c.before, w ++ rest⟩ : Cursor) ∈ results cardDigit c :=
      mem_cardDigit.mpr ⟨d, hd, Or.inr ⟨s, hs, hc, rfl⟩⟩
    simpa using Iterates.step hu (ih rfl)

-- Whether the last character read is a digit.
def follows (c : Cursor) : Bool := c.before.head?.any digit

theorem mem_cardPattern : e ∈ results cardPattern c ↔ follows c = false ∧
    startsDigit e.after = false ∧ ∃ k, 13 ≤ k ∧ k ≤ 19 ∧ Iterates (results cardDigit) k c e := by
  have hpattern : cardPattern = .seq (.notBehind digit)
      (.seq (.repeated cardDigit 13 6) (.notAhead digit)) := rfl
  rw [hpattern, results_notBehind, results_notAhead]
  unfold follows startsDigit
  cases c.before.head?.any digit with
  | true => simp
  | false =>
    simp only [Bool.false_eq_true, if_false, List.mem_filter, results, mem_times, true_and,
      Bool.not_eq_true']
    exact and_comm

theorem cardPattern_ordered : (results cardPattern c).Pairwise Longer := by
  have hpattern : cardPattern = .seq (.notBehind digit)
      (.seq (.repeated cardDigit 13 6) (.notAhead digit)) := rfl
  rw [hpattern, results_notBehind, results_notAhead]
  split_ifs
  · exact List.Pairwise.nil
  · exact (times_ordered cardDigit_shortens cardDigit_committed).filter _

theorem mem_of_occurs (h : Occurs (follows c) c.after [] number post) :
    ⟨number.reverse ++ c.before, post⟩ ∈ results cardPattern c := by
  obtain ⟨k, hk, hk', hs⟩ := h.spaced
  exact mem_cardPattern.mpr ⟨h.left, h.right, k, hk, hk', iterates_of_spaced hs h.split⟩

theorem none_of_head (h : (results cardPattern c).head? = none) :
    ¬ Occurs (follows c) c.after [] number post := by
  intro ho
  have hmem := mem_of_occurs ho
  rw [List.head?_eq_none_iff.mp h] at hmem
  exact List.not_mem_nil hmem

-- A match takes the longest number that starts here, and the separator after it if no digit follows.
structure Taken (c e : Cursor) (number post : List Char) : Prop where
  first : First (follows c) c.after [] number post
  rest : post = e.after ∧ e.before = number.reverse ++ c.before ∨
    ∃ s, separator s = true ∧ post = s :: e.after ∧ e.before = s :: (number.reverse ++ c.before)

theorem first_of_longest (h : Occurs behind text [] number post)
    (hle : ∀ number' post', Occurs behind text [] number' post' → number'.length ≤ number.length) :
    First behind text [] number post where
  toOccurs := h
  first pre' number' post' h' := by
    cases pre' with
    | cons x pre' => exact Or.inl (Nat.succ_pos _)
    | nil => exact Or.inr ⟨rfl, hle number' post' h'⟩

-- A number that is one character longer would end in the separator.
theorem separator_ends (hs : separator s = true) (h : Occurs behind (w ++ s :: rest) [] number post)
    (hle : rest.length ≤ post.length) : number.length ≤ w.length := by
  have heq : (w ++ [s]) ++ rest = number ++ post := by
    rw [List.append_assoc]
    exact h.split
  have hlen := congrArg List.length heq
  simp only [List.length_append, List.length_singleton] at hlen
  by_contra hgt
  have hsame : (w ++ [s]).length = number.length := by
    rw [List.length_append, List.length_singleton]
    omega
  obtain ⟨rfl, _⟩ := List.append_inj heq hsame
  obtain ⟨l, _, _, hl⟩ := h.spaced
  have hend : endsDigit false (w ++ [s]) = true := spaced_ends hl
  rw [endsDigit_append] at hend
  simp [endsDigit, separator_not_digit hs] at hend

theorem taken_of_head (h : (results cardPattern c).head? = some e) :
    ∃ number post, Taken c e number post := by
  obtain ⟨hleft, hright, k, hk, hk', hit⟩ := mem_cardPattern.mp (List.mem_of_head? h)
  obtain ⟨w, hw, hrest⟩ := spaced_of_iterates hit (by omega)
  have hlongest : ∀ number' post', Occurs (follows c) c.after [] number' post' →
      e.after.length ≤ post'.length := by
    intro number' post' ho
    rcases longest_of_head cardPattern_ordered h (mem_of_occurs ho) with heq | hlt
    · rw [← heq]
    · exact hlt.le
  rcases hrest with ⟨hafter, hbefore⟩ | ⟨s, hs, hafter, hbefore⟩
  · refine ⟨w, e.after, first_of_longest ⟨hafter, ⟨k, hk, hk', hw⟩, hleft, hright⟩ ?_,
      Or.inl ⟨rfl, hbefore⟩⟩
    intro number' post' ho
    have hle := hlongest number' post' ho
    have hlen := congrArg List.length (hafter.symm.trans ho.split)
    simp only [List.length_append, List.nil_append] at hlen
    omega
  · have hstop : startsDigit (s :: e.after) = false := by
      simp [startsDigit, separator_not_digit hs]
    refine ⟨w, s :: e.after, first_of_longest ⟨hafter, ⟨k, hk, hk', hw⟩, hleft, hstop⟩ ?_,
      Or.inr ⟨s, hs, rfl, hbefore⟩⟩
    intro number' post' ho
    exact separator_ends hs (hafter ▸ ho) (hlongest number' post' ho)

theorem taken_digits (h : Taken c e number post) :
    (consumed c e).filter digit = number.filter digit := by
  have hsplit : c.after = number ++ post := h.first.split
  unfold consumed
  rcases h.rest with ⟨rfl, _⟩ | ⟨s, hs, rfl, _⟩
  · simp [hsplit]
  · have htake : (number ++ s :: e.after).take (number.length + 1) = number ++ [s] := by
      simp [List.take_append]
    have hlen : (number ++ s :: e.after).length - e.after.length = number.length + 1 := by
      simp only [List.length_append, List.length_cons]
      omega
    rw [hsplit, hlen, htake, List.filter_append]
    simp [separator_not_digit hs]

theorem taken_shorter (h : Taken c e number post) : e.after.length < c.after.length := by
  obtain ⟨k, _, _, hs⟩ := h.first.spaced
  obtain ⟨d, v, rfl, _⟩ := spaced_cons hs
  have hlen := congrArg List.length h.first.split
  simp only [List.length_append, List.length_cons, List.nil_append] at hlen
  rcases h.rest with ⟨hpost, _⟩ | ⟨s, _, hpost, _⟩
  · rw [hpost] at hlen
    omega
  · rw [hpost, List.length_cons] at hlen
    omega

theorem scanned_after (h : Taken c e number post) (hs : Scanned (follows e) e.after ns) :
    Scanned true post ns := by
  obtain ⟨k, _, _, hsp⟩ := h.first.spaced
  rcases h.rest with ⟨hpost, hbefore⟩ | ⟨s, hsep, hpost, hbefore⟩
  · have hfollows : follows e = true := by
      unfold follows
      rw [hbefore]
      exact reverse_starts_digit hsp
    rw [hpost, ← hfollows]
    exact hs
  · have hfollows : follows e = digit s := by simp [follows, hbefore]
    rw [hpost]
    refine scanned_skip (fun number' post' ho => ?_) (hfollows ▸ hs)
    exact absurd ho.left (by simp [endsDigit])

end Engine

section Scan

def numbers (ps : List Piece) : List (List Char) :=
  (ps.filterMap Piece.text?).map (List.filter digit)

theorem scan (n : ℕ) (h : c.after.length < n) :
    ∃ ns, Scanned (follows c) c.after ns ∧
      numbers (pieces cardPattern n c) = ns.map (List.filter digit) := by
  induction n generalizing c with
  | zero => exact absurd h (Nat.not_lt_zero _)
  | succ n ih =>
    unfold pieces
    cases hr : (results cardPattern c).head? with
    | some e =>
      obtain ⟨number, post, ht⟩ := taken_of_head hr
      have hlt := taken_shorter ht
      obtain ⟨ns, hs, he⟩ := ih (c := e) (by omega)
      refine ⟨number :: ns, .found ht.first (scanned_after ht hs), ?_⟩
      rw [List.map_cons, ← taken_digits ht, ← he]
      rfl
    | none =>
      obtain ⟨before, after⟩ := c
      cases after with
      | nil => exact ⟨[], .clear fun _ _ _ => not_occurs_nil, rfl⟩
      | cons x xs =>
        obtain ⟨ns, hs, he⟩ := ih (c := ⟨x :: before, xs⟩) (Nat.lt_of_succ_lt_succ h)
        refine ⟨ns, scanned_skip (fun _ _ => none_of_head hr) hs, ?_⟩
        rw [← he]
        rfl

theorem candidates_scanned (value : String) :
    ∃ ns, Scanned false (withoutUuids value) ns ∧
      candidates value = ns.map (List.filter digit) :=
  scan (c := ⟨[], withoutUuids value⟩) _ (Nat.lt_succ_self _)

theorem numbers_spaced (h : Scanned behind text ns) :
    ∀ n ∈ ns, ∃ k, 13 ≤ k ∧ k ≤ 19 ∧ Spaced k n := by
  induction h with
  | clear _ => simp
  | found hf _ ih =>
    intro n hn
    rcases List.mem_cons.mp hn with rfl | hn
    · exact hf.spaced
    · exact ih n hn

end Scan

section CheckDigit

-- Every second digit from the right counts as the digits of its double.
def checkSum : List Char → ℕ
  | [] => 0
  | x :: xs =>
    (if xs.length % 2 = 1 then digitValue x * 2 / 10 + digitValue x * 2 % 10 else digitValue x) +
      checkSum xs

def OneDigit (ds : List Char) : Prop := ∃ x, ∀ y ∈ ds, y = x

def IsCard (number : List Char) : Prop :=
  checkSum (number.filter digit) % 10 = 0 ∧ ¬ OneDigit (number.filter digit)

theorem digitValue_le (h : digit x = true) : digitValue x ≤ 9 := by
  simp only [digit, Bool.and_eq_true, decide_eq_true_eq] at h
  have hle : x.toNat ≤ 57 := h.2
  unfold digitValue
  omega

theorem luhnSum_eq {parity index : ℕ} (hd : ∀ x ∈ xs, digit x = true)
    (hp : parity = (index + xs.length) % 2) : luhnSum parity index xs = checkSum xs := by
  induction xs generalizing index with
  | nil => rfl
  | cons x xs ih =>
    have hx := digitValue_le (hd x List.mem_cons_self)
    have hrest : luhnSum parity (index + 1) xs = checkSum xs := by
      apply ih fun y hy => hd y (List.mem_cons_of_mem _ hy)
      rw [hp, List.length_cons]
      congr 1
      omega
    rw [luhnSum, checkSum, hrest]
    congr 1
    unfold weighed
    rw [List.length_cons] at hp
    by_cases hodd : xs.length % 2 = 1
    · rw [if_pos (by omega), if_pos hodd]
      split_ifs
      · omega
      · omega
    · rw [if_neg (by omega), if_neg hodd]

theorem repeatedDigit_iff (h : 2 ≤ xs.length) : repeatedDigit xs = true ↔ OneDigit xs := by
  match xs, h with
  | x :: y :: xs, _ =>
    simp only [repeatedDigit, Bool.and_eq_true, beq_iff_eq, List.all_eq_true]
    constructor
    · rintro ⟨rfl, hall⟩
      refine ⟨y, fun z hz => ?_⟩
      rcases List.mem_cons.mp hz with rfl | hz
      · rfl
      · rcases List.mem_cons.mp hz with rfl | hz
        · rfl
        · exact hall z hz
    · rintro ⟨z, hz⟩
      have hx : x = z := hz x List.mem_cons_self
      have hy : y = z := hz y (List.mem_cons_of_mem _ List.mem_cons_self)
      refine ⟨hy.trans hx.symm, fun u hu => ?_⟩
      exact (hz u (List.mem_cons_of_mem _ (List.mem_cons_of_mem _ hu))).trans hx.symm

theorem spaced_length (h : Spaced k w) : (w.filter digit).length = k := by
  induction h with
  | one hd => simp [hd]
  | next hd _ ih => simp [hd, ih]
  | gap hd hs _ ih => simp [hd, separator_not_digit hs, ih]

theorem luhn_iff (h : Spaced k number) (hk : 13 ≤ k) (hk' : k ≤ 19) :
    luhn (number.filter digit) = true ↔ IsCard number := by
  have hlen := spaced_length h
  have hdigits : ∀ x ∈ number.filter digit, digit x = true := fun x hx =>
    (List.mem_filter.mp hx).2
  have hsum : luhnSum ((number.filter digit).length % 2) 0 (number.filter digit) =
      checkSum (number.filter digit) := luhnSum_eq hdigits (by rw [Nat.zero_add])
  have hsame : repeatedDigit (number.filter digit) = true ↔ OneDigit (number.filter digit) :=
    repeatedDigit_iff (by omega)
  unfold luhn IsCard
  rw [hsum, ← hsame, hlen]
  simp only [Bool.and_eq_true, Bool.not_eq_true', Bool.or_eq_false_iff, decide_eq_false_iff_not,
    beq_iff_eq, Bool.not_eq_true]
  constructor
  · exact fun h => ⟨h.2, h.1.2⟩
  · exact fun h => ⟨⟨⟨by omega, by omega⟩, h.2⟩, h.1⟩

-- Some number that the scan from the left stops at is a card number.
def Met (text : List Char) : Prop := ∃ ns, Scanned false text ns ∧ ∃ n ∈ ns, IsCard n

theorem candidates_luhn_iff {value : String} :
    (candidates value).any luhn = true ↔ Met (withoutUuids value) := by
  obtain ⟨ns, hs, he⟩ := candidates_scanned value
  have hspaced := numbers_spaced hs
  rw [he, List.any_map, List.any_eq_true]
  constructor
  · rintro ⟨n, hn, hl⟩
    obtain ⟨k, hk, hk', h⟩ := hspaced n hn
    exact ⟨ns, hs, n, hn, (luhn_iff h hk hk').mp hl⟩
  · rintro ⟨ms, hms, n, hn, hc⟩
    obtain rfl := scanned_unique hs hms
    obtain ⟨k, hk, hk', h⟩ := hspaced n hn
    exact ⟨n, hn, (luhn_iff h hk hk').mpr hc⟩

end CheckDigit

section Rejection
variable {json : JsonDecoder} {value : Value} {field path : String}
variable {scopedFields fields resolved : List String}

-- A card number in a string that the guard has to look at.
def HoldsCard (value : Value) (field : String) (resolved : List String) : Prop :=
  ∃ leaf ∈ value.leaves field, isGeneratedStorageLocator leaf.1 leaf.2 = false ∧
    isExempt leaf.1 leaf.2 = false ∧ isResolvedReferencePath leaf.1 resolved = false ∧
    ∃ pre number post, Occurs false (withoutUuids leaf.2) pre number post ∧ IsCard number

structure Reported (resolved : List String) (leaf : String × String) : Prop where
  located : isGeneratedStorageLocator leaf.1 leaf.2 = false
  cause : containsSensitiveAuthenticationData (withoutUuids leaf.2) = true ∨
    isExempt leaf.1 leaf.2 = false ∧ isResolvedReferencePath leaf.1 resolved = false ∧
      Met (withoutUuids leaf.2)

theorem assertLeaf_ok {leaf : String × String} :
    assertLeaf resolved leaf.1 leaf.2 = .ok () ↔ ¬ Reported resolved leaf := by
  have hreported : Reported resolved leaf ↔ isGeneratedStorageLocator leaf.1 leaf.2 = false ∧
      (containsSensitiveAuthenticationData (withoutUuids leaf.2) = true ∨
        isExempt leaf.1 leaf.2 = false ∧ isResolvedReferencePath leaf.1 resolved = false ∧
          Met (withoutUuids leaf.2)) := ⟨fun h => ⟨h.1, h.2⟩, fun h => ⟨h.1, h.2⟩⟩
  rw [hreported, ← candidates_luhn_iff]
  unfold assertLeaf
  cases isGeneratedStorageLocator leaf.1 leaf.2 with
  | true => simp [pure, Except.pure]
  | false =>
    simp only [Bool.false_eq_true, if_false, bind_eq_ok, refuse_eq_ok, true_and]
    cases containsSensitiveAuthenticationData (withoutUuids leaf.2) with
    | true => simp
    | false => cases isExempt leaf.1 leaf.2 <;>
        cases isResolvedReferencePath leaf.1 resolved <;> simp

theorem validated_ok {checked : List String} :
    validateResolutionFields fields = .ok checked ↔
      (∀ f ∈ fields, f ∈ resolvableReferenceFields) ∧ checked = fields.eraseDups := by
  have hpure : (pure fields.eraseDups : Except Failure (List String)) = .ok checked ↔
      checked = fields.eraseDups := by
    simp only [pure, Except.pure, Except.ok.injEq]
    exact eq_comm
  simp only [validateResolutionFields, bind_eq_ok, refuse_eq_ok, hpure]
  simp

theorem resolved_eraseDups (path : String) (fields : List String) :
    isResolvedReferencePath path fields.eraseDups = isResolvedReferencePath path fields := by
  unfold isResolvedReferencePath
  rw [Bool.eq_iff_iff, List.any_eq_true, List.any_eq_true]
  simp

theorem reported_eraseDups {leaf : String × String} :
    Reported fields.eraseDups leaf ↔ Reported fields leaf := by
  have heq := resolved_eraseDups leaf.1 fields
  constructor
  · exact fun h => ⟨h.located, h.cause.imp_right fun h => ⟨h.1, heq ▸ h.2.1, h.2.2⟩⟩
  · exact fun h => ⟨h.located, h.cause.imp_right fun h => ⟨h.1, heq.trans h.2.1, h.2.2⟩⟩

theorem assertSafe_ok : assertSafe json scopedFields value field fields = .ok () ↔
    (∀ f ∈ fields, f ∈ resolvableReferenceFields) ∧
      ∀ leaf ∈ strings json value field, ¬ Reported (scopedFields ++ fields.eraseDups) leaf := by
  simp only [assertSafe, bind_eq_ok, validated_ok, forM_eq_ok, assertLeaf_ok]
  constructor
  · rintro ⟨_, ⟨hfields, rfl⟩, hall⟩
    exact ⟨hfields, fun leaf hl hr => hall leaf hl (reported_eraseDups.mpr hr)⟩
  · rintro ⟨hfields, hall⟩
    exact ⟨_, ⟨hfields, rfl⟩, fun leaf hl hr => hall leaf hl (reported_eraseDups.mp hr)⟩

theorem error_iff {ε : Type} {x : Except ε Unit} : (∃ e, x = .error e) ↔ x ≠ .ok () := by
  cases x with
  | error e => simp
  | ok u => simp

theorem cards_rejected_iff (json : JsonDecoder) (scopedFields : List String) (value : Value)
    (field : String) (fields : List String) :
    (HoldsCard value field (scopedFields ++ fields.eraseDups) →
      ∃ e, assertSafe json scopedFields value field fields = .error e) ↔
    ¬ HoldsCard value field (scopedFields ++ fields.eraseDups) ∨
      (∃ f ∈ fields, f ∉ resolvableReferenceFields) ∨
        ∃ leaf ∈ strings json value field, Reported (scopedFields ++ fields.eraseDups) leaf := by
  have hthrows : (∃ e, assertSafe json scopedFields value field fields = .error e) ↔
      (∃ f ∈ fields, f ∉ resolvableReferenceFields) ∨
        ∃ leaf ∈ strings json value field, Reported (scopedFields ++ fields.eraseDups) leaf := by
    rw [error_iff, Ne, assertSafe_ok, not_and_or]
    simp only [not_forall, not_not, exists_prop]
  rw [hthrows, imp_iff_not_or]

end Rejection

section Scenario

theorem spaced_digits (hne : xs ≠ []) (h : ∀ x ∈ xs, digit x = true) : Spaced xs.length xs := by
  induction xs with
  | nil => exact absurd rfl hne
  | cons x xs ih =>
    have hx : digit x = true := h x List.mem_cons_self
    cases xs with
    | nil => exact .one hx
    | cons y ys =>
      exact .next hx (ih (List.cons_ne_nil _ _) fun z hz => h z (List.mem_cons_of_mem _ hz))

def visa : List Char := "4111111111111111".toList

def shadowed : String := "4111111111111111 5"

def bracketed : String := "[4111111111111111]"

-- Reads the one list of a number that the example needs.
def oneList : JsonDecoder where
  decode s := if s = bracketed then some [("0", .scalar)] else none
  shorter s items h := by
    split at h
    · obtain rfl := Option.some.inj h
      intro leaf hleaf
      cases hleaf
    · cases h

def note (s : String) : Value := .array [("note", .str s)]

theorem visa_is_card : IsCard visa := by
  refine ⟨by decide, fun h => ?_⟩
  obtain ⟨x, hx⟩ := h
  have hfour : '4' = x := hx '4' (by decide)
  have hone : '1' = x := hx '1' (by decide)
  exact absurd (hfour.trans hone.symm) (by decide)

theorem visa_spaced : Spaced 16 visa := by
  have hall : visa.all digit = true := by decide
  have h : Spaced visa.length visa := spaced_digits (by decide) (List.all_eq_true.mp hall)
  exact h

theorem note_holds_card {s : String} (hsplit : withoutUuids s = pre ++ (visa ++ post))
    (hleft : endsDigit false pre = false) (hright : startsDigit post = false)
    (hpath : isGeneratedStorageLocator "payload.note" s = false ∧
      isExempt "payload.note" s = false) : HoldsCard (note s) "payload" [] :=
  ⟨("payload.note", s), by simp [note, Value.leaves, leavesOf, joined], hpath.1, hpath.2, rfl, pre,
    visa, post, ⟨hsplit, ⟨16, by decide, by decide, visa_spaced⟩, hleft, hright⟩, visa_is_card⟩

-- The digit after the space is taken for the seventeenth; the decoded list holds no string.
theorem card_numbers_pass :
    (HoldsCard (note shadowed) "payload" [] ∧
      assertSafe oneList [] (note shadowed) "payload" [] = .ok ()) ∧
    HoldsCard (note bracketed) "payload" [] ∧
      assertSafe oneList [] (note bracketed) "payload" [] = .ok () := by
  have hshadowed : withoutUuids shadowed = [] ++ (visa ++ " 5".toList) := by decide
  have hbracketed : withoutUuids bracketed = "[".toList ++ (visa ++ "]".toList) := by decide
  refine ⟨⟨note_holds_card hshadowed rfl (by decide) ⟨by decide, by decide⟩, ?_⟩,
    note_holds_card hbracketed (by decide) (by decide) ⟨by decide, by decide⟩, ?_⟩
  · decide
  · decide

end Scenario
end SensitivePaymentDataGuard
