import LodgeOps.Commands.CanonicalText

namespace CanonicalJson
open PrefixCodes

section Identity

mutual

-- Equal up to the order of the entries of the arrays that are no lists.
inductive Same : Value → Value → Prop
  | scalar {v : Value} (h : ∀ es, v ≠ .array es) : Same v v
  | list {es fs : List (Key × Value)} (hes : isList es = true) (h : SameAll es fs) :
      Same (.array es) (.array fs)
  | map {es fs gs : List (Key × Value)} (hes : isList es = false) (h : SameAll es fs)
      (hp : fs.Perm gs) (hgs : isList gs = false) : Same (.array es) (.array gs)

inductive SameAll : List (Key × Value) → List (Key × Value) → Prop
  | nil : SameAll [] []
  | cons {k : Key} {v w : Value} {es fs : List (Key × Value)} (h : Same v w) (hs : SameAll es fs) :
      SameAll ((k, v) :: es) ((k, w) :: fs)

end

-- The keys are those of a list of up to ten entries, in another order.
def Shuffled (es : List (Key × Value)) : Prop :=
  isList es = false ∧ es.length ≤ 10 ∧ ∀ i < es.length, Key.int i ∈ es.map Prod.fst

instance (es : List (Key × Value)) : Decidable (Shuffled es) := by unfold Shuffled; infer_instance

def sorted (es : List (Key × Value)) : List (Key × Value) := es.insertionSort keyOrder

def inOrder (es : List (Key × Value)) : List (Key × Value) := if Shuffled es then sorted es else es

mutual

def relist : Value → Value
  | .array es => .array (inOrder (relistAll es))
  | .null => .null
  | .bool b => .bool b
  | .int n => .int n
  | .str s => .str s
  | .backedEnum k => .backedEnum k
  | .date a => .date a

def relistAll : List (Key × Value) → List (Key × Value)
  | [] => []
  | (k, v) :: es => (k, relist v) :: relistAll es

end

mutual

def Settled : Value → Prop
  | .array es => ¬ Shuffled es ∧ SettledAll es
  | _ => True

def SettledAll : List (Key × Value) → Prop
  | [] => True
  | (_, v) :: es => Settled v ∧ SettledAll es

end

theorem relistAll_eq_map (es : List (Key × Value)) :
    relistAll es = es.map fun e => (e.1, relist e.2) := by
  induction es with
  | nil => rfl
  | cons e es ih => simp [relistAll, ih]

theorem settledAll_iff {es : List (Key × Value)} : SettledAll es ↔ ∀ e ∈ es, Settled e.2 := by
  induction es with
  | nil => simp [SettledAll]
  | cons e es ih => simp [SettledAll, ih]

end Identity

section Keys
variable {es fs : List (Key × Value)}

def indices (n : ℕ) : List Key := (List.range n).map fun i : ℕ => Key.int i

theorem listed_iff {k : ℕ} : listed k es = true ↔
    es.map Prod.fst = (List.range' k es.length).map fun i : ℕ => Key.int i := by
  induction es generalizing k with
  | nil => simp [listed]
  | cons e es ih =>
    obtain ⟨key, v⟩ := e
    rw [List.length_cons, List.range'_succ, List.map_cons, List.map_cons, List.cons.injEq, ← ih]
    cases key <;> simp [listed]

theorem isList_iff : isList es = true ↔ es.map Prod.fst = indices es.length := by
  rw [isList, listed_iff, indices, List.range_eq_range']

theorem isList_congr (h : es.map Prod.fst = fs.map Prod.fst) : isList es = isList fs := by
  have hlength : es.length = fs.length := by simpa using congrArg List.length h
  rw [Bool.eq_iff_iff, isList_iff, isList_iff, h, hlength]

theorem shuffled_congr (h : es.map Prod.fst = fs.map Prod.fst) : Shuffled es ↔ Shuffled fs := by
  have hlength : es.length = fs.length := by simpa using congrArg List.length h
  rw [Shuffled, Shuffled, isList_congr h, hlength, h]

theorem keyOrder_total : Std.Total keyOrder := ⟨fun a b => le_total a.1.text b.1.text⟩

theorem keyOrder_trans : IsTrans (Key × Value) keyOrder :=
  ⟨fun _ _ _ hab hbc => le_trans (α := String) hab hbc⟩

theorem pairwise_sorted (es : List (Key × Value)) : (sorted es).Pairwise keyOrder :=
  have := keyOrder_total
  have := keyOrder_trans
  List.pairwise_insertionSort _ _

theorem perm_sorted (es : List (Key × Value)) : (sorted es).Perm es := List.perm_insertionSort _ _

theorem length_sorted (es : List (Key × Value)) : (sorted es).length = es.length :=
  (perm_sorted es).length_eq

theorem sorted_sorted (es : List (Key × Value)) : sorted (sorted es) = sorted es :=
  (pairwise_sorted es).insertionSort_eq

theorem map_sorted (f : Value → Value) (es : List (Key × Value)) :
    sorted (es.map fun e => (e.1, f e.2)) = (sorted es).map fun e => (e.1, f e.2) :=
  (List.map_insertionSort keyOrder keyOrder (fun e => (e.1, f e.2)) es fun _ _ _ _ => Iff.rfl).symm

theorem pairwise_text (h : (sorted es).map Prod.fst = indices es.length) :
    ((List.range es.length).map fun i : ℕ => toString (i : ℤ)).Pairwise (· ≤ ·) := by
  have hkeys : ((sorted es).map Prod.fst).Pairwise fun k l => k.text ≤ l.text :=
    List.pairwise_map.mpr (pairwise_sorted es)
  rw [h, indices, List.pairwise_map] at hkeys
  exact List.pairwise_map.mpr hkeys

theorem pairwise_upto_ten {n : ℕ} (h : n ≤ 10) :
    ((List.range n).map fun i : ℕ => toString (i : ℤ)).Pairwise (· ≤ ·) := by
  interval_cases n <;> decide

-- As texts, the key 10 comes before the key 2.
theorem le_ten_of_pairwise {n : ℕ}
    (h : ((List.range n).map fun i : ℕ => toString (i : ℤ)).Pairwise (· ≤ ·)) : n ≤ 10 := by
  by_contra hn
  rw [List.pairwise_map, List.pairwise_iff_getElem] at h
  have hle := h 2 10 (by simp; omega) (by simp; omega) (by norm_num)
  rw [List.getElem_range, List.getElem_range] at hle
  exact absurd hle (by decide)

theorem isList_sorted_of_shuffled (h : Shuffled es) :
    isList (sorted es) = true := by
  obtain ⟨_, hle, hkeys⟩ := h
  have hindices : (indices es.length).Nodup :=
    List.Nodup.map (fun i j hij => by simpa using hij) List.nodup_range
  have hsub : indices es.length ⊆ es.map Prod.fst := by
    intro k hk
    obtain ⟨i, hi, rfl⟩ := List.mem_map.mp hk
    exact hkeys i (List.mem_range.mp hi)
  have hperm : (indices es.length).Perm (es.map Prod.fst) :=
    (List.subperm_of_subset hindices hsub).perm_of_length_le (by simp [indices])
  have hsorted : ((sorted es).map Prod.fst).Perm (indices es.length) :=
    ((perm_sorted es).map _).trans hperm.symm
  rw [isList_iff, length_sorted]
  have hkeys : ((sorted es).map Prod.fst).Pairwise fun k l => k.text ≤ l.text :=
    List.pairwise_map.mpr (pairwise_sorted es)
  refine hsorted.eq_of_pairwise ?_ hkeys ?_
  · intro k l hk hl hkl hlk
    obtain ⟨i, _, rfl⟩ := List.mem_map.mp (hsorted.mem_iff.mp hk)
    obtain ⟨j, _, rfl⟩ := List.mem_map.mp hl
    exact congrArg Key.int (toString_int_inj (le_antisymm hkl hlk))
  · exact List.pairwise_map.mpr (List.pairwise_map.mp (pairwise_upto_ten hle))

theorem shuffled_of_isList_sorted (hl : isList es = false) (h : isList (sorted es) = true) :
    Shuffled es := by
  rw [isList_iff, length_sorted] at h
  refine ⟨hl, le_ten_of_pairwise (pairwise_text h), fun i hi => ?_⟩
  have hmem : Key.int i ∈ (sorted es).map Prod.fst :=
    h ▸ List.mem_map.mpr ⟨i, List.mem_range.mpr hi, rfl⟩
  exact ((perm_sorted es).map Prod.fst).mem_iff.mp hmem

end Keys

section Forms
variable {es fs : List (Key × Value)} {v w : Value}

theorem ksort_eq : ksort es = if isList es then es else sorted es := rfl

theorem map_fst_relabelled (f : Value → Value) (es : List (Key × Value)) :
    (es.map fun e => (e.1, f e.2)).map Prod.fst = es.map Prod.fst := by simp

theorem perm_inOrder : (inOrder es).Perm es := by
  unfold inOrder
  split_ifs
  · exact perm_sorted es
  · exact List.Perm.refl es

theorem ksort_inOrder : ksort (inOrder es) = ksort es := by
  unfold inOrder
  split_ifs with h
  · rw [ksort_eq, ksort_eq, sorted_sorted, ite_self, if_neg (by simp [h.1])]
  · rfl

theorem map_inOrder (f : Value → Value) (es : List (Key × Value)) :
    inOrder (es.map fun e => (e.1, f e.2)) = (inOrder es).map fun e => (e.1, f e.2) := by
  unfold inOrder
  rw [map_sorted]
  by_cases h : Shuffled es
  · rw [if_pos h, if_pos ((shuffled_congr (map_fst_relabelled f es)).mpr h)]
  · rw [if_neg h, if_neg (mt (shuffled_congr (map_fst_relabelled f es)).mp h)]

theorem not_shuffled_inOrder : ¬ Shuffled (inOrder es) := by
  unfold inOrder
  split_ifs with h
  · intro hs
    have hl := isList_sorted_of_shuffled h
    rw [hs.1] at hl
    cases hl
  · exact h

theorem isList_ksort (h : ¬ Shuffled es) : isList (ksort es) = isList es := by
  rw [ksort_eq]
  split_ifs with hl
  · rfl
  · rw [Bool.not_eq_true] at hl
    rw [hl]
    by_contra hs
    exact h (shuffled_of_isList_sorted hl (by simpa using hs))

-- Putting shuffled entries in order first changes nothing.
theorem normalize_relist (v : Value) : normalize (relist v) = normalize v := by
  induction v using Value.nested with
  | hscalar v hv =>
    cases v with
    | array es => exact absurd rfl (hv es)
    | _ => rfl
  | harray es ih =>
    have hitems : normalizeAll (relistAll es) = normalizeAll es := by
      rw [relistAll_eq_map, normalizeAll_eq_map, normalizeAll_eq_map, List.map_map]
      exact List.map_congr_left fun e he => Prod.ext rfl (ih e he)
    have hordered : normalizeAll (inOrder (relistAll es)) = inOrder (normalizeAll es) := by
      rw [normalizeAll_eq_map, ← map_inOrder, ← normalizeAll_eq_map, hitems]
    rw [relist, normalize, normalize, hordered, ksort_inOrder]

theorem settled_relist (v : Value) : Settled (relist v) := by
  induction v using Value.nested with
  | hscalar v hv =>
    cases v with
    | array es => exact absurd rfl (hv es)
    | _ => trivial
  | harray es ih =>
    refine ⟨not_shuffled_inOrder, settledAll_iff.mpr fun e he => ?_⟩
    rw [perm_inOrder.mem_iff, relistAll_eq_map] at he
    obtain ⟨d, hd, rfl⟩ := List.mem_map.mp he
    exact ih d hd

-- Whatever is done to the entries one by one and to their order leaves an array plain.
theorem plain_array {f : Value → Value} (hes : Plain (.array es))
    (hf : ∀ e ∈ es, Plain (f e.2)) (hp : fs.Perm (es.map fun e => (e.1, f e.2))) :
    Plain (.array fs) := by
  refine ⟨?_, plainAll_iff.mpr fun e he => ?_⟩
  · rw [(hp.map Prod.fst).nodup_iff, map_fst_relabelled]
    exact hes.1
  · obtain ⟨d, hd, rfl⟩ := List.mem_map.mp (hp.mem_iff.mp he)
    exact ⟨(plainAll_iff.mp hes.2 d hd).1, hf d hd⟩

theorem plain_relist (v : Value) : Plain v → Plain (relist v) := by
  induction v using Value.nested with
  | hscalar v hv =>
    cases v with
    | array es => exact absurd rfl (hv es)
    | _ => exact id
  | harray es ih =>
    intro h
    refine plain_array (f := relist) h (fun e he => ih e he (plainAll_iff.mp h.2 e he).2) ?_
    rw [← relistAll_eq_map]
    exact perm_inOrder

theorem plain_normalize (v : Value) : Plain v → Plain (normalize v) := by
  induction v using Value.nested with
  | hscalar v hv =>
    cases v with
    | array es => exact absurd rfl (hv es)
    | backedEnum k => exact False.elim
    | date a => exact False.elim
    | _ => exact id
  | harray es ih =>
    intro h
    refine plain_array (f := normalize) h (fun e he => ih e he (plainAll_iff.mp h.2 e he).2) ?_
    rw [← normalizeAll_eq_map, ksort_eq]
    split_ifs
    · exact List.Perm.refl _
    · exact perm_sorted _

theorem encode_eq_iff (hv : Plain v) (hw : Plain w) :
    encode v = encode w ↔ normalize v = normalize w :=
  ⟨jsonEncode_inj (plain_normalize v hv) (plain_normalize w hw), congrArg jsonEncode⟩

end Forms

section Agreement
variable {es fs : List (Key × Value)} {v w : Value}

theorem SameAll.keys (h : SameAll es fs) : es.map Prod.fst = fs.map Prod.fst := by
  induction es generalizing fs with
  | nil =>
    cases h
    rfl
  | cons e es ih =>
    cases h with
    | cons _ hs => rw [List.map_cons, List.map_cons, ih hs]

theorem sorted_perm (hp : es.Perm fs) (h : Plain (.array es)) : sorted es = sorted fs := by
  have hkeys := plainAll_iff.mp h.2
  have htexts : ((es.map Prod.fst).map Key.text).Nodup := by
    refine List.Nodup.map_on (fun k hk l hl hkl => ?_) h.1
    obtain ⟨e, he, rfl⟩ := List.mem_map.mp hk
    obtain ⟨f, hf, rfl⟩ := List.mem_map.mp hl
    exact Key.text_inj (hkeys e he).1 (hkeys f hf).1 hkl
  exact insertionSort_perm_eq hp (by simpa [Function.comp_def] using htexts)

theorem normalize_list (h : isList es = true) : normalize (.array es) = .array (normalizeAll es) := by
  have hl : isList (normalizeAll es) = true := by
    rwa [normalizeAll_eq_map, isList_congr (map_fst_relabelled normalize es)]
  rw [normalize, ksort_eq, if_pos hl]

theorem normalize_map (h : isList es = false) :
    normalize (.array es) = .array (sorted (normalizeAll es)) := by
  have hl : isList (normalizeAll es) = false := by
    rwa [normalizeAll_eq_map, isList_congr (map_fst_relabelled normalize es)]
  rw [normalize, ksort_eq, if_neg (by simp [hl])]

theorem plain_normalizeAll (h : Plain (.array es)) : Plain (.array (normalizeAll es)) :=
  plain_array h (fun e he => plain_normalize _ (plainAll_iff.mp h.2 e he).2)
    (normalizeAll_eq_map es ▸ List.Perm.refl _)

mutual

theorem Same.normalize_eq {v w : Value} : Same v w → Plain v → Plain w →
    normalize v = normalize w
  | .scalar _, _, _ => rfl
  | .list hes h, hv, hw => by
    rw [normalize_list hes, normalize_list (isList_congr h.keys ▸ hes), h.normalizeAll_eq hv.2 hw.2]
  | @Same.map es fs gs hes h hp hgs, hv, hw => by
    have hfs : PlainAll fs := plainAll_iff.mpr fun e he => plainAll_iff.mp hw.2 e (hp.mem_iff.mp he)
    have hitems := h.normalizeAll_eq hv.2 hfs
    have hperm : (normalizeAll es).Perm (normalizeAll gs) := by
      rw [hitems, normalizeAll_eq_map, normalizeAll_eq_map]
      exact hp.map _
    rw [normalize_map hes, normalize_map hgs, sorted_perm hperm (plain_normalizeAll hv)]

theorem SameAll.normalizeAll_eq {es fs : List (Key × Value)} : SameAll es fs → PlainAll es →
    PlainAll fs → normalizeAll es = normalizeAll fs
  | .nil, _, _ => rfl
  | .cons h hs, hes, hfs => by
    rw [normalizeAll, normalizeAll, h.normalize_eq hes.1.2 hfs.1.2, hs.normalizeAll_eq hes.2 hfs.2]

end

theorem sameAll_of_normalizeAll (hsame : ∀ e ∈ es, ∀ f ∈ fs, normalize e.2 = normalize f.2 →
    Same e.2 f.2) (h : normalizeAll es = normalizeAll fs) : SameAll es fs := by
  induction es generalizing fs with
  | nil =>
    cases fs with
    | nil => exact SameAll.nil
    | cons f fs => cases h
  | cons e es ih =>
    cases fs with
    | nil => cases h
    | cons f fs =>
      obtain ⟨k, v⟩ := e
      obtain ⟨l, w⟩ := f
      simp only [normalizeAll, List.cons.injEq, Prod.mk.injEq] at h
      obtain ⟨⟨rfl, hvw⟩, hrest⟩ := h
      have htail : ∀ e ∈ es, ∀ f ∈ fs, normalize e.2 = normalize f.2 → Same e.2 f.2 :=
        fun e he f hf => hsame e (List.mem_cons_of_mem _ he) f (List.mem_cons_of_mem _ hf)
      exact SameAll.cons (hsame _ List.mem_cons_self _ List.mem_cons_self hvw) (ih htail hrest)

theorem normalize_scalar (h : Plain v) (hv : ∀ es, v ≠ .array es) : normalize v = v := by
  cases v with
  | array es => exact absurd rfl (hv es)
  | backedEnum k => exact h.elim
  | date a => exact h.elim
  | _ => rfl

theorem exists_array_of_normalize (hw : Plain w) (h : normalize w = .array fs) :
    ∃ gs, w = .array gs := by
  by_contra hn
  push Not at hn
  rw [normalize_scalar hw hn] at h
  exact hn fs h

theorem same_of_normalize (v : Value) : ∀ w, Plain v → Plain w → Settled v → Settled w →
    normalize v = normalize w → Same v w := by
  induction v using Value.nested with
  | hscalar v hv =>
    intro w hpv hpw _ _ h
    rw [normalize_scalar hpv hv] at h
    by_cases hw : ∃ gs, w = .array gs
    · obtain ⟨gs, rfl⟩ := hw
      exact absurd h (hv _)
    · push Not at hw
      rw [normalize_scalar hpw hw] at h
      exact h ▸ Same.scalar hv
  | harray es ih =>
    intro w hpv hpw hsv hsw h
    obtain ⟨fs, rfl⟩ := exists_array_of_normalize hpw h.symm
    have hsame : ∀ gs : List (Key × Value), gs.Perm fs → ∀ e ∈ es, ∀ f ∈ gs, normalize e.2 = normalize f.2 →
        Same e.2 f.2 := by
      intro gs hp e he f hf
      have hf := hp.mem_iff.mp hf
      exact ih e he f.2 (plainAll_iff.mp hpv.2 e he).2 (plainAll_iff.mp hpw.2 f hf).2
        (settledAll_iff.mp hsv.2 e he) (settledAll_iff.mp hsw.2 f hf)
    have hlists : ∀ xs : List (Key × Value), Settled (.array xs) →
        isList (ksort (normalizeAll xs)) = isList xs := by
      intro xs hxs
      have hkeys := map_fst_relabelled normalize xs
      rw [normalizeAll_eq_map, isList_ksort (mt (shuffled_congr hkeys).mp hxs.1), isList_congr hkeys]
    have hksort : ksort (normalizeAll es) = ksort (normalizeAll fs) := Value.array.inj h
    have hlist : isList es = isList fs := by rw [← hlists es hsv, hksort, hlists fs hsw]
    cases hl : isList es with
    | true =>
      rw [normalize_list hl, normalize_list (hlist ▸ hl)] at h
      exact Same.list hl (sameAll_of_normalizeAll (hsame fs (List.Perm.refl _)) (Value.array.inj h))
    | false =>
      have hl' : isList fs = false := hlist ▸ hl
      rw [normalize_map hl, normalize_map hl'] at h
      have hperm : (normalizeAll es).Perm (fs.map fun e => (e.1, normalize e.2)) := by
        rw [← normalizeAll_eq_map]
        exact (perm_sorted _).symm.trans (Value.array.inj h ▸ perm_sorted _)
      obtain ⟨gs, hgs, hp⟩ : Relation.Comp (fun xs ys => xs = ys.map fun e => (e.1, normalize e.2))
          List.Perm (normalizeAll es) fs := by
        rw [List.eq_map_comp_perm]
        exact hperm
      rw [← normalizeAll_eq_map] at hgs
      exact Same.map hl (sameAll_of_normalizeAll (hsame gs hp) hgs) hp hl'

-- Two values are misread when they differ only in that one has an array in another order where the
-- other one has the list.
def Misread (v w : Value) : Prop := Same (relist v) (relist w) ∧ ¬ Same v w

theorem encode_eq_iff_relist (hv : Plain v) (hw : Plain w) :
    encode v = encode w ↔ Same (relist v) (relist w) := by
  rw [encode_eq_iff hv hw, ← normalize_relist v, ← normalize_relist w]
  have hpv := plain_relist v hv
  have hpw := plain_relist w hw
  exact ⟨same_of_normalize _ _ hpv hpw (settled_relist v) (settled_relist w),
    fun h => h.normalize_eq hpv hpw⟩

theorem encode_identifies_iff (hv : Plain v) (hw : Plain w) :
    (encode v = encode w ↔ Same v w) ↔ ¬ Misread v w := by
  have hsame : Same v w → encode v = encode w :=
    fun h => (encode_eq_iff hv hw).mpr (h.normalize_eq hv hw)
  rw [Misread, ← encode_eq_iff_relist hv hw]
  tauto

-- Where no array is shuffled there is nothing to misread.
theorem encode_eq_iff_of_settled (hv : Plain v) (hw : Plain w) (hsv : Settled v) (hsw : Settled w) :
    encode v = encode w ↔ Same v w := by
  rw [encode_eq_iff hv hw]
  exact ⟨same_of_normalize v w hv hw hsv hsw, fun h => h.normalize_eq hv hw⟩

end Agreement

section Scenario

def pair : Value := .array [(.int 0, .str "a"), (.int 1, .str "b")]

def reversedPair : Value := .array [(.int 1, .str "b"), (.int 0, .str "a")]

theorem plain_pair : Plain pair := by simp [pair, Plain, PlainAll, Key.WellFormed]

theorem plain_reversedPair : Plain reversedPair := by
  simp [reversedPair, Plain, PlainAll, Key.WellFormed]

theorem pair_misread_iff :
    (encode pair = encode reversedPair ↔ Same pair reversedPair) ↔ ¬ Misread pair reversedPair :=
  encode_identifies_iff plain_pair plain_reversedPair

theorem reversed_pair_encoded_as_list :
    encode pair = encode reversedPair ∧ ¬ Same pair reversedPair := by
  constructor
  · decide
  · intro h
    cases h with
    | list _ h => cases h
    | map hes => exact absurd hes (by decide)

end Scenario
end CanonicalJson
