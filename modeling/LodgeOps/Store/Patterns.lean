import Mathlib.Data.List.Basic
import Mathlib.Tactic.Ring

-- Patterns as a backtracking engine reads them: the ways to match, the preferred one first.
namespace Patterns

structure Cursor where
  before : List Char := []
  after : List Char
deriving DecidableEq

inductive Pattern
  | empty
  | set (p : Char → Bool)
  | many (p : Char → Bool)
  | seq (a b : Pattern)
  | alt (a b : Pattern)
  | repeated (a : Pattern) (least more : ℕ)
  | notBehind (p : Char → Bool)
  | notAhead (p : Char → Bool)
  | start
  | finish
  | lineEnd

section Matching

def one (p : Char → Bool) (c : Cursor) : List Cursor :=
  match c.after with
  | [] => []
  | x :: xs => if p x then [⟨x :: c.before, xs⟩] else []

def longest (p : Char → Bool) (before : List Char) : List Char → List Cursor
  | [] => [⟨before, []⟩]
  | x :: xs => if p x then longest p (x :: before) xs ++ [⟨before, x :: xs⟩] else [⟨before, x :: xs⟩]

def upTo (f : Cursor → List Cursor) : ℕ → Cursor → List Cursor
  | 0, c => [c]
  | n + 1, c => (f c).flatMap (upTo f n) ++ [c]

-- At least so many times, then up to so many times more as long as it goes.
def times (f : Cursor → List Cursor) (n : ℕ) : ℕ → Cursor → List Cursor
  | 0, c => upTo f n c
  | m + 1, c => (f c).flatMap (times f n m)

def keptIf (b : Bool) (c : Cursor) : List Cursor := if b then [c] else []

def results : Pattern → Cursor → List Cursor
  | .empty, c => [c]
  | .set p, c => one p c
  | .many p, c => longest p c.before c.after
  | .seq a b, c => (results a c).flatMap (results b)
  | .alt a b, c => results a c ++ results b c
  | .repeated a m n, c => times (results a) n m c
  | .notBehind p, c => keptIf (!c.before.head?.any p) c
  | .notAhead p, c => keptIf (!c.after.head?.any p) c
  | .start, c => keptIf c.before.isEmpty c
  | .finish, c => keptIf c.after.isEmpty c
  | .lineEnd, c => keptIf (c.after.isEmpty || c.after == ['\n']) c

def perhaps (a : Pattern) : Pattern := .alt a .empty

def sequence : List Pattern → Pattern
  | [] => .empty
  | [a] => a
  | a :: as => .seq a (sequence as)

def choice : List Pattern → Pattern
  | [] => .set fun _ => false
  | [a] => a
  | a :: as => .alt a (choice as)

end Matching

section Searching

def occursFrom (a : Pattern) (before : List Char) : List Char → Bool
  | [] => !(results a ⟨before, []⟩).isEmpty
  | x :: xs => !(results a ⟨before, x :: xs⟩).isEmpty || occursFrom a (x :: before) xs

def occurs (a : Pattern) (text : List Char) : Bool := occursFrom a [] text

-- A text in pieces: the characters that no match covers, and the matches.
inductive Piece
  | skipped (x : Char)
  | matched (text : List Char)

def consumed (c e : Cursor) : List Char := c.after.take (c.after.length - e.after.length)

-- For a pattern that takes at least one character.
def pieces (a : Pattern) : ℕ → Cursor → List Piece
  | 0, _ => []
  | n + 1, c =>
    match (results a c).head? with
    | some e => .matched (consumed c e) :: pieces a n e
    | none =>
      match c.after with
      | [] => []
      | x :: xs => .skipped x :: pieces a n ⟨x :: c.before, xs⟩

def Piece.text? : Piece → Option (List Char)
  | skipped _ => none
  | matched text => some text

def Piece.char? : Piece → Option Char
  | skipped x => some x
  | matched _ => none

def findAll (a : Pattern) (text : List Char) : List (List Char) :=
  (pieces a (text.length + 1) ⟨[], text⟩).filterMap Piece.text?

def removeAll (a : Pattern) (text : List Char) : List Char :=
  (pieces a (text.length + 1) ⟨[], text⟩).filterMap Piece.char?

end Searching

variable {f : Cursor → List Cursor} {c d e x y : Cursor} {m n k : ℕ} {a b : Pattern}

section Membership
variable {p : Char → Bool}

theorem mem_one : e ∈ one p c ↔
    ∃ x, p x = true ∧ c.after = x :: e.after ∧ e.before = x :: c.before := by
  obtain ⟨before, after⟩ := c
  obtain ⟨before', after'⟩ := e
  cases after with
  | nil => simp [one]
  | cons y ys =>
    simp only [one]
    split_ifs with h
    · simp only [List.mem_singleton, Cursor.mk.injEq, List.cons.injEq]
      constructor
      · rintro ⟨rfl, rfl⟩
        exact ⟨y, h, ⟨rfl, rfl⟩, rfl⟩
      · rintro ⟨x, _, ⟨rfl, rfl⟩, rfl⟩
        exact ⟨rfl, rfl⟩
    · simp only [List.not_mem_nil, List.cons.injEq, false_iff]
      rintro ⟨x, hx, ⟨rfl, _⟩, _⟩
      exact h hx

theorem mem_seq : e ∈ results (.seq a b) c ↔ ∃ d ∈ results a c, e ∈ results b d :=
  List.mem_flatMap

theorem mem_perhaps : e ∈ results (perhaps a) c ↔ e ∈ results a c ∨ e = c := by
  simp [perhaps, results]

end Membership

section Repetition

inductive Iterates (f : Cursor → List Cursor) : ℕ → Cursor → Cursor → Prop
  | refl (c : Cursor) : Iterates f 0 c c
  | step {k : ℕ} {c d e : Cursor} (hd : d ∈ f c) (h : Iterates f k d e) : Iterates f (k + 1) c e

theorem mem_upTo : e ∈ upTo f n c ↔ ∃ k ≤ n, Iterates f k c e := by
  induction n generalizing c with
  | zero =>
    rw [upTo, List.mem_singleton]
    constructor
    · rintro rfl
      exact ⟨0, le_rfl, .refl _⟩
    · rintro ⟨k, hk, h⟩
      obtain rfl := Nat.le_zero.mp hk
      cases h
      rfl
  | succ n ih =>
    simp only [upTo, List.mem_append, List.mem_flatMap, List.mem_singleton, ih]
    constructor
    · rintro (⟨d, hd, k, hk, h⟩ | rfl)
      · exact ⟨k + 1, Nat.succ_le_succ hk, .step hd h⟩
      · exact ⟨0, Nat.zero_le _, .refl _⟩
    · rintro ⟨k, hk, h⟩
      cases h with
      | refl => exact Or.inr rfl
      | step hd h => exact Or.inl ⟨_, hd, _, Nat.succ_le_succ_iff.mp hk, h⟩

theorem mem_times : e ∈ times f n m c ↔ ∃ k, m ≤ k ∧ k ≤ m + n ∧ Iterates f k c e := by
  induction m generalizing c with
  | zero => simp [times, mem_upTo]
  | succ m ih =>
    simp only [times, List.mem_flatMap, ih]
    constructor
    · rintro ⟨d, hd, k, hm, hk, h⟩
      exact ⟨k + 1, by omega, by omega, .step hd h⟩
    · rintro ⟨k, hm, hk, h⟩
      cases h with
      | refl => omega
      | step hd h => exact ⟨_, hd, _, by omega, by omega, h⟩

def Longer (x y : Cursor) : Prop := x.after.length < y.after.length

def Shortens (f : Cursor → List Cursor) : Prop := ∀ c, ∀ x ∈ f c, Longer x c

-- Only the preferred way of a step can be followed by another step.
def Committed (f : Cursor → List Cursor) : Prop :=
  ∀ c, (f c).Pairwise fun x y => Longer x y ∧ f y = []

theorem iterates_le (hs : Shortens f) (h : Iterates f k c e) :
    e.after.length + k ≤ c.after.length := by
  induction h with
  | refl c => exact le_rfl
  | step hd _ ih =>
    have hlt := hs _ _ hd
    unfold Longer at hlt
    omega

theorem iterates_stuck (hf : f c = []) (h : Iterates f k c e) : e = c := by
  cases h with
  | refl => rfl
  | step hd _ => simp [hf] at hd

-- Whatever follows the preferred step is longer than what follows the other one.
theorem branches_longer (hs : Shortens f) (h : Longer x y ∧ f y = []) {u v : Cursor} {k l : ℕ}
    (hu : Iterates f k x u) (hv : Iterates f l y v) : Longer u v := by
  obtain rfl : v = y := iterates_stuck h.2 hv
  have hle := iterates_le hs hu
  have hlt := h.1
  unfold Longer at hlt ⊢
  omega

theorem upTo_ordered (hs : Shortens f) (hc : Committed f) : (upTo f n c).Pairwise Longer := by
  induction n generalizing c with
  | zero => exact List.pairwise_singleton _ _
  | succ n ih =>
    have hmore : ((f c).flatMap (upTo f n)).Pairwise Longer := by
      refine List.pairwise_flatMap.mpr ⟨fun d _ => ih, (hc c).imp fun h u hu v hv => ?_⟩
      obtain ⟨_, _, hu⟩ := mem_upTo.mp hu
      obtain ⟨_, _, hv⟩ := mem_upTo.mp hv
      exact branches_longer hs h hu hv
    refine List.pairwise_append.mpr ⟨hmore, List.pairwise_singleton _ _, fun u hu v hv => ?_⟩
    obtain ⟨d, hd, hmem⟩ := List.mem_flatMap.mp hu
    obtain rfl := List.mem_singleton.mp hv
    obtain ⟨k, _, hit⟩ := mem_upTo.mp hmem
    have hle := iterates_le hs hit
    have hlt := hs _ _ hd
    unfold Longer at hlt ⊢
    omega

theorem times_ordered (hs : Shortens f) (hc : Committed f) : (times f n m c).Pairwise Longer := by
  induction m generalizing c with
  | zero => exact upTo_ordered hs hc
  | succ m ih =>
    rw [times]
    refine List.pairwise_flatMap.mpr ⟨fun d _ => ih, (hc c).imp fun h u hu v hv => ?_⟩
    obtain ⟨_, _, _, hu⟩ := mem_times.mp hu
    obtain ⟨_, _, _, hv⟩ := mem_times.mp hv
    exact branches_longer hs h hu hv

end Repetition

section Preference

-- The first of an ordered list is the longest way to match.
theorem longest_of_head {l : List Cursor} (hl : l.Pairwise Longer) (h : l.head? = some e)
    (hx : x ∈ l) : x = e ∨ Longer e x := by
  cases l with
  | nil => cases h
  | cons y l =>
    obtain rfl : y = e := Option.some.inj h
    rcases List.mem_cons.mp hx with rfl | hx
    · exact Or.inl rfl
    · exact Or.inr ((List.pairwise_cons.mp hl).1 x hx)

theorem results_notAhead (p : Char → Bool) :
    results (.seq a (.notAhead p)) c = (results a c).filter fun e => !e.after.head?.any p := by
  simp only [results]
  induction results a c with
  | nil => rfl
  | cons y l ih =>
    rw [List.flatMap_cons, ih, List.filter_cons]
    unfold keptIf
    split_ifs with h
    · rfl
    · rfl

theorem results_notBehind (p : Char → Bool) :
    results (.seq (.notBehind p) a) c = if c.before.head?.any p then [] else results a c := by
  simp only [results, keptIf]
  cases c.before.head?.any p
  · simp
  · simp

end Preference
end Patterns
