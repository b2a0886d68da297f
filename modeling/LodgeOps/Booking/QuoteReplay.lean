import LodgeOps.Booking.Proposals
import LodgeOps.Booking.QuoteLedger

namespace QuoteReplay
open Schema Transaction CommercialPromotionService BookingQuoteService QuoteTotals QuoteLedger
open PromotionBounds ProposalService BookedTotals TaxAllocation

section Services
variable {kept xs : List OptionalService} {x : OptionalService}

def keep (kept : List OptionalService) (x : OptionalService) : List OptionalService :=
  if kept.any (fun y => y.id == x.id) then kept.map fun y => if y.id = x.id then x else y
  else kept ++ [x]

def Distinct (xs : List OptionalService) : Prop := (xs.map OptionalService.id).Nodup

theorem keyById_eq : keyById xs = xs.foldl keep [] := rfl

theorem distinct_keep (h : Distinct kept) : Distinct (keep kept x) := by
  unfold keep
  split_ifs with hany
  · have hids : (kept.map fun y => if y.id = x.id then x else y).map OptionalService.id =
        kept.map OptionalService.id := by
      rw [List.map_map]
      apply List.map_congr_left
      intro y _
      by_cases hy : y.id = x.id
      · simp [hy]
      · simp [hy]
    unfold Distinct
    rw [hids]
    exact h
  · unfold Distinct
    rw [List.map_append, List.nodup_append]
    refine ⟨h, List.nodup_singleton _, ?_⟩
    intro i hi j hj
    obtain ⟨y, hy, rfl⟩ := List.mem_map.mp hi
    rw [List.mem_singleton.mp hj]
    intro he
    exact hany (List.any_eq_true.mpr ⟨y, hy, beq_iff_eq.mpr he⟩)

theorem distinct_foldl (h : Distinct kept) : Distinct (xs.foldl keep kept) := by
  induction xs generalizing kept with
  | nil => exact h
  | cons x xs ih => exact ih (distinct_keep h)

theorem foldl_of_distinct (h : Distinct (kept ++ xs)) : xs.foldl keep kept = kept ++ xs := by
  induction xs generalizing kept with
  | nil => exact (List.append_nil _).symm
  | cons x xs ih =>
    have hnew : kept.any (fun y => y.id == x.id) = false := by
      rw [List.any_eq_false]
      intro y hy he
      unfold Distinct at h
      rw [List.map_append, List.nodup_append] at h
      exact h.2.2 _ (List.mem_map_of_mem hy) _ (by simp) (beq_iff_eq.mp he)
    have hkeep : keep kept x = kept ++ [x] := by
      unfold keep
      rw [if_neg (by simp [hnew])]
    have hassoc : kept ++ x :: xs = kept ++ [x] ++ xs := by simp
    rw [List.foldl_cons, hkeep, hassoc]
    apply ih
    rw [← hassoc]
    exact h

theorem keyById_keyById : keyById (keyById xs) = keyById xs := by
  rw [keyById_eq, foldl_of_distinct]
  · exact List.nil_append _
  · rw [List.nil_append, keyById_eq]
    exact distinct_foldl List.nodup_nil

end Services

section Requests
variable {db : Database} {input : BookingInput} {q : Request} {s : Stay} {d : Discounts}

-- The request that the stored inputs of a quote make.
def replayed (q : Request) (s : Stay) (d : Discounts) : Request :=
  { q with input := inputOf (quoteInputs q s d) }

structure Resolved (q : Request) (s : Stay) : Prop where
  plan : s.plan.id = q.ratePlanId
  category : s.category.id = q.categoryId
  resource : s.resource.map Resource.id = q.input.resourceId

theorem resource_of_stayResource {category : ResourceCategory} {resource : Option Resource}
    (h : stayResource db q category = .ok resource) :
    resource.map Resource.id = q.input.resourceId := by
  unfold stayResource at h
  cases hi : q.input.resourceId with
  | none =>
    rw [hi] at h
    obtain rfl : none = resource := Except.ok.inj h
    rfl
  | some i =>
    rw [hi] at h
    simp only [bind_eq_ok, found_eq_ok] at h
    obtain ⟨r, hr, _, _, h⟩ := h
    obtain rfl : some r = resource := Except.ok.inj h
    have hfound : db.catalogue.resource? i = some r := (Option.filter_eq_some_iff.mp hr).1
    exact congrArg some (Table.find?_eq_some.mp hfound).2

theorem resolved_of_stayFor (h : stayFor db q = .ok s) : Resolved q s := by
  simp only [stayFor, bind_eq_ok, refuse_eq_ok] at h
  obtain ⟨_, _, category, hcategory, resource, hresource, _, _, _, _, plan, hplan, _, _, h⟩ := h
  obtain rfl := Except.ok.inj h
  simp only [stayCategory, found_eq_ok] at hcategory
  have hfound : db.catalogue.category? q.categoryId = some category :=
    (Option.filter_eq_some_iff.mp hcategory).1
  simp only [publishedPlan, bind_eq_ok, found_eq_ok] at hplan
  obtain ⟨plan', hplan', _, _, _, _, hplan⟩ := hplan
  obtain rfl := Except.ok.inj hplan
  have hpublished : db.ratePlans.find? q.ratePlanId = some plan' :=
    (Option.filter_eq_some_iff.mp hplan').1
  exact ⟨(Table.find?_eq_some.mp hpublished).2, (Table.find?_eq_some.mp hfound).2,
    resource_of_stayResource hresource⟩

theorem plan_mem (h : stayFor db q = .ok s) : s.plan ∈ db.ratePlans.rows := by
  simp only [stayFor, bind_eq_ok] at h
  obtain ⟨_, _, category, _, resource, _, _, _, _, _, plan, hplan, _, _, h⟩ := h
  obtain rfl := Except.ok.inj h
  simp only [publishedPlan, bind_eq_ok, found_eq_ok] at hplan
  obtain ⟨plan', hplan', _, _, _, _, hplan⟩ := hplan
  obtain rfl := Except.ok.inj hplan
  have hpublished : db.ratePlans.find? q.ratePlanId = some plan' :=
    (Option.filter_eq_some_iff.mp hplan').1
  exact (Table.find?_eq_some.mp hpublished).1

theorem requested_replayed (h : requested input = .ok q) (hr : Resolved q s) :
    requested (inputOf (quoteInputs q s d)) = .ok (replayed q s d) := by
  simp only [requested, bind_eq_ok, found_eq_ok, refuse_eq_ok] at h ⊢
  obtain ⟨starts, _, ends, _, p, _, c, _, r, _, _, hends, _, hguests, h⟩ := h
  obtain rfl := Except.ok.inj h
  refine ⟨starts, rfl, ends, rfl, p, rfl, s.category.id, rfl, s.plan.id, rfl, (), hends, (),
    hguests, ?_⟩
  rw [hr.plan, hr.category]
  rfl

theorem stayFor_replayed (h : stayFor db q = .ok s) : stayFor db (replayed q s d) = .ok s := by
  have hresource : (replayed q s d).input.resourceId = q.input.resourceId :=
    (resolved_of_stayFor h).resource
  have hamendment : (replayed q s d).input.amendmentOfReservationId =
      q.input.amendmentOfReservationId := rfl
  have hoccupancy : (replayed q s d).occupancy = q.occupancy := rfl
  rw [← h]
  simp only [stayFor, stayResource, stayCategory, assertOffered, publishedPlan, hresource,
    hamendment, hoccupancy]
  rfl

end Requests

section Rules
variable {db : Database} {q : Request} {s : Stay} {d : Discounts} {rule rule' : RateRule}
variable {lines lines' : List BookingQuoteLine} {l : BookingQuoteLine} {n : ℕ}
variable {buyout arrival departure : Bool} {date : ℤ}

def governing (q : Request) (s : Stay) (date : ℤ) (buyout : Bool) : Option RateRule :=
  (orderedRules s.plan).find? fun r => governs r s.category.id q.input.programId date buyout

-- The rules that price and allow the stay are the same without the buyout flag.
structure SameRules (db : Database) (q : Request) (s : Stay) : Prop where
  nights : ∀ n < s.nights, governing q s (s.arrival + n) false =
    governing q s (s.arrival + n) q.input.isBuyout
  departure : ∃ rule, governing q s s.departure false = some rule ∧
    blocked rule (stayFacts db q s) false true = false

def sameRules (db : Database) (q : Request) (s : Stay) : Bool :=
  ((List.range s.nights).all fun n => decide (governing q s (s.arrival + n) false =
    governing q s (s.arrival + n) q.input.isBuyout)) &&
  (governing q s s.departure false).any fun r => !blocked r (stayFacts db q s) false true

theorem sameRules_iff : sameRules db q s = true ↔ SameRules db q s := by
  unfold sameRules
  rw [Bool.and_eq_true, List.all_eq_true, Option.any_eq_true]
  constructor
  · rintro ⟨hnights, rule, hrule, hopen⟩
    exact ⟨fun n hn => of_decide_eq_true (hnights n (List.mem_range.mpr hn)), rule, hrule,
      by simpa using hopen⟩
  · rintro ⟨hnights, rule, hrule, hopen⟩
    exact ⟨fun n hn => decide_eq_true (hnights n (List.mem_range.mp hn)), rule, hrule, by simp [hopen]⟩

theorem ruleFor_eq_ok : ruleFor s.plan s.category.id q.input.programId date (stayFacts db q s)
    buyout arrival departure = .ok rule ↔ governing q s date buyout = some rule ∧
      blocked rule (stayFacts db q s) arrival departure = false := by
  simp only [ruleFor, bind_eq_ok, found_eq_ok, refuse_eq_ok, governing]
  constructor
  · rintro ⟨r, hr, _, hblocked, h⟩
    obtain rfl := Except.ok.inj h
    exact ⟨hr, Bool.eq_false_of_not_eq_true hblocked⟩
  · rintro ⟨hr, hblocked⟩
    exact ⟨rule, hr, (), by simp [hblocked], rfl⟩

theorem governing_mem (h : governing q s date buyout = some rule) : rule ∈ s.plan.rules := by
  have hmem : rule ∈ orderedRules s.plan := List.mem_of_find?_eq_some h
  unfold orderedRules at hmem
  exact (List.perm_insertionSort _ _).mem_iff.mp hmem

-- A night's line names the rule that governs it.
def NightOf (q : Request) (s : Stay) (n : ℕ) (l : BookingQuoteLine) : Prop :=
  ∃ rule, governing q s (s.arrival + n) q.input.isBuyout = some rule ∧
    l.metadata = .nightly s.plan.id s.plan.version rule.id rule.version rule.priceType
      (s.arrival + n)

theorem nightLine_names (h : nightLine db q s lines n = .ok lines') :
    ∃ l, lines' = lines ++ [l] ∧ NightOf q s n l := by
  simp only [nightLine, bind_eq_ok] at h
  obtain ⟨rule, hrule, price, _, h⟩ := h
  obtain rfl := Except.ok.inj h
  exact ⟨_, rfl, rule, (ruleFor_eq_ok.mp hrule).1, rfl⟩

theorem nights_name {ns : List ℕ} (h : ns.foldlM (nightLine db q s) lines = .ok lines') :
    ∃ added, lines' = lines ++ added ∧ List.Forall₂ (NightOf q s) ns added := by
  induction ns generalizing lines with
  | nil =>
    obtain rfl : lines = lines' := Except.ok.inj h
    exact ⟨[], (List.append_nil _).symm, .nil⟩
  | cons n ns ih =>
    rw [List.foldlM_cons, bind_eq_ok] at h
    obtain ⟨next, hnext, hrest⟩ := h
    obtain ⟨l, rfl, hl⟩ := nightLine_names hnext
    obtain ⟨added, rfl, hadded⟩ := ih hrest
    exact ⟨l :: added, by simp, .cons hl hadded⟩

theorem prefix_of_charges (h : Charges lines lines') : lines <+: lines' := by
  rcases h with rfl | ⟨l, _, rfl⟩
  · exact List.prefix_refl _
  · exact List.prefix_append _ _

theorem nights_of_baseLines (h : baseLines db q s = .ok lines) :
    (∃ nightly rest, lines = nightly ++ rest ∧
      List.Forall₂ (NightOf q s) (List.range s.nights) nightly) ∧
    ∃ rule, governing q s s.departure q.input.isBuyout = some rule ∧
      blocked rule (stayFacts db q s) false true = false := by
  simp only [baseLines, nightLines, bind_eq_ok] at h
  obtain ⟨nightly, hnights, rule, hrule, programmed, hprogram, hservices⟩ := h
  refine ⟨?_, rule, ruleFor_eq_ok.mp hrule⟩
  obtain ⟨added, hadded, hnamed⟩ := nights_name hnights
  rw [List.nil_append] at hadded
  have hprefix : nightly <+: lines :=
    foldlM_invariant (fun _ _ _ hi hs => hi.trans (prefix_of_charges (charges_serviceLine hs)))
      (prefix_of_charges (charges_programLines hprogram)) hservices
  obtain ⟨rest, rfl⟩ := hprefix
  exact ⟨nightly, rest, rfl, hadded ▸ hnamed⟩

theorem eq_of_ids (hids : (s.plan.rules.map RateRule.id).Nodup) (h : rule ∈ s.plan.rules)
    (h' : rule' ∈ s.plan.rules) (hid : rule.id = rule'.id) : rule = rule' :=
  List.inj_on_of_nodup_map hids h h' hid

theorem same_night (hids : (s.plan.rules.map RateRule.id).Nodup) (h : NightOf q s n l)
    (h' : NightOf (replayed q s d) s n l) :
    governing q s (s.arrival + n) false = governing q s (s.arrival + n) q.input.isBuyout := by
  obtain ⟨rule, hrule, hl⟩ := h
  obtain ⟨rule', hrule', hl'⟩ := h'
  have hopen : governing q s (s.arrival + n) false = some rule' := hrule'
  have hmeta := hl.symm.trans hl'
  injection hmeta with _ _ hid
  rw [hopen, hrule, eq_of_ids hids (governing_mem hrule) (governing_mem hrule') hid]

theorem sameRules_of_lines (hids : (s.plan.rules.map RateRule.id).Nodup)
    (h : baseLines db q s = .ok lines) (h' : baseLines db (replayed q s d) s = .ok lines) :
    SameRules db q s := by
  obtain ⟨⟨nightly, rest, hlines, hnights⟩, _⟩ := nights_of_baseLines h
  obtain ⟨⟨nightly', rest', hlines', hnights'⟩, rule, hrule, hblocked⟩ := nights_of_baseLines h'
  refine ⟨?_, rule, hrule, hblocked⟩
  have hlength : nightly.length = nightly'.length :=
    hnights.length_eq.symm.trans hnights'.length_eq
  obtain ⟨rfl, _⟩ := List.append_inj (hlines.symm.trans hlines') hlength
  intro n hn
  have hrange : n < (List.range s.nights).length := by simpa using hn
  have hat := List.Forall₂.get hnights hrange (hnights.length_eq ▸ hrange)
  have hat' := List.Forall₂.get hnights' hrange (hnights'.length_eq ▸ hrange)
  simp only [List.get_eq_getElem, List.getElem_range] at hat hat'
  exact same_night hids hat hat'

theorem foldlM_congr_mem {α β : Type} {f g : β → α → Except Failure β} {xs : List α} {b : β}
    (h : ∀ b, ∀ x ∈ xs, f b x = g b x) : xs.foldlM f b = xs.foldlM g b := by
  induction xs generalizing b with
  | nil => rfl
  | cons x xs ih =>
    rw [List.foldlM_cons, List.foldlM_cons, h b x List.mem_cons_self]
    congr 1
    funext c
    exact ih fun b y hy => h b y (List.mem_cons_of_mem _ hy)

theorem nightLine_replayed (h : governing q s (s.arrival + n) false =
    governing q s (s.arrival + n) q.input.isBuyout) :
    nightLine db (replayed q s d) s lines n = nightLine db q s lines n := by
  have hrule : ruleFor s.plan s.category.id q.input.programId (s.arrival + n) (stayFacts db q s)
      false (n == 0) false = ruleFor s.plan s.category.id q.input.programId (s.arrival + n)
        (stayFacts db q s) q.input.isBuyout (n == 0) false := by
    unfold ruleFor
    unfold governing at h
    rw [h]
  unfold nightLine
  dsimp only
  rw [← hrule]
  rfl

theorem serviceLine_replayed : serviceLine db (replayed q s d) s = serviceLine db q s := by
  funext lines service
  have hservices : (replayed q s d).input.optionalServices = keyById q.input.optionalServices := rfl
  unfold serviceLine
  rw [hservices, keyById_keyById]
  rfl

theorem baseLines_replayed (h : baseLines db q s = .ok lines) (hsame : SameRules db q s) :
    baseLines db (replayed q s d) s = .ok lines := by
  obtain ⟨rule, hrule⟩ := hsame.departure
  have hnights : nightLines db (replayed q s d) s = nightLines db q s := by
    apply foldlM_congr_mem
    intro lines n hn
    exact nightLine_replayed (hsame.nights n (List.mem_range.mp hn))
  simp only [baseLines, bind_eq_ok] at h ⊢
  obtain ⟨nightly, hnightly, _, _, programmed, hprogram, hservices⟩ := h
  refine ⟨nightly, hnights.trans hnightly, rule, ruleFor_eq_ok.mpr hrule, programmed, hprogram, ?_⟩
  rw [serviceLine_replayed]
  exact hservices

end Rules

section Prices
variable {db : Database} {input : BookingInput} {c c' : Calculation} {p p' : Priced} {t : Taxes}
variable {rules : List TaxRule} {lines : List BookingQuoteLine} {base discount : ℤ}

def Replays (db : Database) (c : Calculation) : Prop :=
  ∃ c', preview db (inputOf c.inputs) = .ok c' ∧ c'.lines = c.lines ∧
    c'.subtotalMinor = c.subtotalMinor ∧ c'.discountMinor = c.discountMinor ∧
      c'.taxMinor = c.taxMinor ∧ c'.totalMinor = c.totalMinor

def stored (p : Priced) : QuoteInputs := quoteInputs p.request p.stay p.discounts

theorem preview_of (hp : priced db input = .ok p)
    (ht : (p.rules db).foldlM (taxWith p.lines p.base p.discount) p.untaxed = .ok t) :
    preview db input = .ok (total db p.request p.stay p.base p.discounts t) := by
  simp only [priced, bind_eq_ok] at hp
  obtain ⟨q, hq, s, hs, lines, hlines, promotions, hpromotions, d, hd, hp⟩ := hp
  obtain rfl := Except.ok.inj hp
  simp only [preview, bind_eq_ok]
  exact ⟨q, hq, s, hs, lines, hlines, promotions, hpromotions, d, hd, t, ht, rfl⟩

theorem charged_lines : ∃ added, (rules.foldl (charge lines base discount) t).lines =
    t.lines ++ added ∧ added.length = rules.length := by
  induction rules generalizing t with
  | nil => exact ⟨[], (List.append_nil _).symm, rfl⟩
  | cons rule rules ih =>
    obtain ⟨added, hadded, hlength⟩ := @ih (charge lines base discount t rule)
    refine ⟨taxLine rule (ruleDue lines base discount rule) (base - discount + (t.exclusiveTax +
      addedBy rule (ruleDue lines base discount rule))) :: added, ?_, by simp [hlength]⟩
    rw [List.foldl_cons, hadded]
    simp [charge, taxed]

theorem discountLines_untaxed (hp : priced db input = .ok p) :
    discountLines p.untaxed.lines = p.discounts.lines := by
  have hlines := (priced_lines hp).1
  simp only [priced, bind_eq_ok] at hp
  obtain ⟨q, _, s, _, lines, _, promotions, _, d, hd, hp⟩ := hp
  obtain rfl := Except.ok.inj hp
  have hall : discountLines d.lines = d.lines :=
    List.filter_eq_self.mpr fun l hl => by simpa using discount_calculate hd l hl
  have hnone : discountLines lines = [] := discountLines_nil (notDiscount_baseLines hlines)
  have hsplit : discountLines (lines ++ d.lines) = discountLines lines ++ discountLines d.lines :=
    List.filter_append _ _
  rw [hnone, hall, List.nil_append] at hsplit
  exact hsplit

theorem same_discount (hp : priced db input = .ok p) {input' : BookingInput}
    (hp' : priced db input' = .ok p') (h : p'.untaxed.lines = p.untaxed.lines) :
    p'.lines = p.lines ∧ p'.discounts.lines = p.discounts.lines ∧ p'.discount = p.discount := by
  have hdiscounts : p'.discounts.lines = p.discounts.lines := by
    rw [← discountLines_untaxed hp', ← discountLines_untaxed hp, h]
  refine ⟨?_, hdiscounts, ?_⟩
  · have happend : p'.lines ++ p'.discounts.lines = p.lines ++ p.discounts.lines := h
    rw [hdiscounts] at happend
    exact List.append_cancel_right happend
  · rw [discountMinor_eq hp', discountMinor_eq hp, h]

-- A quote replays when its prices and its discounts come out line by line as they were.
theorem replays_iff_priced (hp : priced db input = .ok p)
    (ht : (p.rules db).foldlM (taxWith p.lines p.base p.discount) p.untaxed = .ok t)
    (hrules : ∀ p', priced db (inputOf (stored p)) = .ok p' → p'.rules db = p.rules db) :
    Replays db (total db p.request p.stay p.base p.discounts t) ↔
      ∃ p', priced db (inputOf (stored p)) = .ok p' ∧ p'.lines = p.lines ∧
        p'.discounts.lines = p.discounts.lines := by
  constructor
  · rintro ⟨c', hc', hlines, _⟩
    obtain ⟨p', t', hp', ht', rfl⟩ := preview_cases hc'
    refine ⟨p', hp', ?_⟩
    obtain ⟨added, hadded, hlength⟩ := @charged_lines p.untaxed (p.rules db) p.lines p.base p.discount
    obtain ⟨added', hadded', hlength'⟩ :=
      @charged_lines p'.untaxed (p'.rules db) p'.lines p'.base p'.discount
    rw [← (taxes_eq ht).1] at hadded
    rw [← (taxes_eq ht').1] at hadded'
    have hsame : p'.untaxed.lines ++ added' = p.untaxed.lines ++ added :=
      hadded'.symm.trans (hlines.trans hadded)
    have huntaxed := List.append_inj_left' hsame (by rw [hlength, hlength', hrules p' hp'])
    obtain ⟨hl, hd, _⟩ := same_discount hp hp' huntaxed
    exact ⟨hl, hd⟩
  · rintro ⟨p', hp', hlines, hdiscounts⟩
    have huntaxed : p'.untaxed = p.untaxed := by
      unfold Priced.untaxed
      rw [hlines, hdiscounts]
    have hbase : p'.base = p.base := by
      unfold Priced.base
      rw [hlines]
    obtain ⟨_, _, hdiscount⟩ := same_discount hp hp' (congrArg Taxes.lines huntaxed)
    have ht' : (p'.rules db).foldlM (taxWith p'.lines p'.base p'.discount) p'.untaxed = .ok t := by
      rw [hrules p' hp', hlines, hbase, hdiscount, huntaxed]
      exact ht
    refine ⟨_, preview_of hp' ht', rfl, ?_, hdiscount, rfl, ?_⟩
    · show p'.base - p'.discount - _ = p.base - p.discount - _
      rw [hbase, hdiscount]
    · show p'.base - p'.discount + _ = p.base - p.discount + _
      rw [hbase, hdiscount]

end Prices

section Sessions
variable {d d' e : Discounts} {x y : Eligible × ℕ} {promotions promotions' : List Eligible}

def Eligible.bare (e : Eligible) : Eligible := { e with resolvedSessionHash := none }

def Discounts.bare (d : Discounts) : Discounts := { d with sessionHash := none }

theorem lines_of_bare (h : Discounts.bare d = Discounts.bare d') : d.lines = d'.lines := by
  have hlines : (Discounts.bare d).lines = (Discounts.bare d').lines := by rw [h]
  exact hlines

def bareAt (x : Eligible × ℕ) : Eligible × ℕ := (Eligible.bare x.1, x.2)

-- The session is carried along and never looked at.
theorem applyPromotion_bare (h : applyPromotion d x = .ok d') :
    applyPromotion (Discounts.bare d) (bareAt x) = .ok (Discounts.bare d') := by
  simp only [applyPromotion, bind_eq_ok] at h ⊢
  obtain ⟨amount, hamount, h⟩ := h
  obtain rfl := Except.ok.inj h
  refine ⟨amount, hamount, ?_⟩
  split_ifs
  · rfl
  · rfl

theorem applyPromotion_session (h : applyPromotion d x = .ok d')
    (hd : Discounts.bare e = Discounts.bare d) (hx : bareAt y = bareAt x) :
    ∃ e', applyPromotion e y = .ok e' ∧ Discounts.bare e' = Discounts.bare d' := by
  have hbare := applyPromotion_bare h
  rw [← hd, ← hx] at hbare
  simp only [applyPromotion, bind_eq_ok] at hbare ⊢
  obtain ⟨amount, hamount, hbare⟩ := hbare
  refine ⟨_, ⟨amount, hamount, rfl⟩, ?_⟩
  rw [← Except.ok.inj hbare]
  split_ifs
  · rfl
  · rfl

theorem applyPromotions_session {xs ys : List (Eligible × ℕ)}
    (h : xs.foldlM applyPromotion d = .ok d') (hd : Discounts.bare e = Discounts.bare d)
    (hx : ys.map bareAt = xs.map bareAt) :
    ∃ e', ys.foldlM applyPromotion e = .ok e' ∧ Discounts.bare e' = Discounts.bare d' := by
  induction xs generalizing d e ys with
  | nil =>
    obtain rfl : d = d' := Except.ok.inj h
    obtain rfl := List.map_eq_nil_iff.mp hx
    exact ⟨e, rfl, hd⟩
  | cons x xs ih =>
    obtain ⟨y, ys', rfl, hy, hrest⟩ := List.map_eq_cons_iff.mp hx
    rw [List.foldlM_cons, bind_eq_ok] at h
    obtain ⟨next, hnext, h⟩ := h
    obtain ⟨e₁, he₁, hbare⟩ := applyPromotion_session hnext hd hy
    obtain ⟨e', he', hlast⟩ := ih h hbare hrest
    refine ⟨e', ?_, hlast⟩
    rw [List.foldlM_cons, bind_eq_ok]
    exact ⟨e₁, he₁, he'⟩

theorem zipIdx_bare : promotions.zipIdx.map bareAt = (promotions.map Eligible.bare).zipIdx := by
  rw [List.zipIdx_map]
  rfl

theorem calculate_session {base : ℤ} (h : calculate promotions base = .ok d)
    (hp : promotions'.map Eligible.bare = promotions.map Eligible.bare) :
    ∃ d', calculate promotions' base = .ok d' ∧ Discounts.bare d' = Discounts.bare d := by
  apply applyPromotions_session h rfl
  rw [zipIdx_bare, zipIdx_bare, hp]

end Sessions

section Codes
variable {d d' : Discounts} {x : Eligible × ℕ} {promotions : List Eligible} {base : ℤ} {v : ℕ}
variable {ps : List CommercialPromotion} {wanted : CommercialPromotion → Bool} {seen : List String}

-- A discount line that names the voucher it was granted for.
def Names (lines : List BookingQuoteLine) (v : ℕ) : Prop :=
  ∃ l ∈ lines, ∃ f, l.metadata = .promotion f ∧ f.voucherId = some v

theorem voucher_named (h : calculate promotions base = .ok d) (hv : d.voucherId = some v) :
    Names d.lines v := by
  refine foldlM_invariant (I := fun d : Discounts => ∀ v, d.voucherId = some v → Names d.lines v)
    (fun d x d' hi hs v hv => ?_) (fun v hv => by cases hv) h v hv
  obtain rfl | ⟨amount, _, _, rfl⟩ := applyPromotion_cases hs
  · exact hi v hv
  · cases hd : d.voucherId with
    | some w =>
      have hw : d.voucherId = some v := by simpa [discounted, hd] using hv
      obtain ⟨l, hl, f, hf⟩ := hi v hw
      exact ⟨l, List.mem_append_left _ hl, f, hf⟩
    | none =>
      have hresolved : x.1.resolvedVoucherId = some v := by simpa [discounted, hd] using hv
      exact ⟨_, List.mem_append_right _ List.mem_cons_self, facts x.1, rfl, hresolved⟩

theorem named_offered (h : calculate promotions base = .ok d) (hn : Names d.lines v) :
    ∃ e ∈ promotions, e.resolvedVoucherId = some v := by
  obtain ⟨l, hl, f, hf, hv⟩ := hn
  have hmeta : QuoteLineMetadata.promotion f ∈ d.lines.map BookingQuoteLine.metadata :=
    List.mem_map.mpr ⟨l, hl, hf⟩
  rw [(discounting_calculate h).recorded] at hmeta
  obtain ⟨x, hx, hfacts⟩ := List.mem_map.mp hmeta
  injection hfacts with hfacts
  have hgranted := (applied_calculate h).subset (List.mem_map_of_mem hx)
  rw [hfacts] at hgranted
  obtain ⟨e, he, rfl⟩ := List.mem_map.mp hgranted
  exact ⟨e, he, hv⟩

theorem unstacked_filter (h : ∀ p ∈ unstacked seen ps, wanted p = true) :
    unstacked seen (ps.filter wanted) = unstacked seen ps := by
  induction ps generalizing seen with
  | nil => rfl
  | cons p ps ih =>
    cases hg : p.stackingGroup with
    | none =>
      have hcons : unstacked seen (p :: ps) = p :: unstacked seen ps := by
        simp only [unstacked, hg]
      rw [hcons] at h ⊢
      obtain ⟨hp, hrest⟩ := List.forall_mem_cons.mp h
      rw [List.filter_cons_of_pos hp]
      simp only [unstacked, hg]
      rw [ih hrest]
    | some group =>
      by_cases hs : seen.contains group = true
      · have hcons : unstacked seen (p :: ps) = unstacked seen ps := by
          simp only [unstacked, hg, hs, if_true]
        rw [hcons] at h ⊢
        rw [List.filter_cons]
        split_ifs
        · simp only [unstacked, hg, hs, if_true]
          exact ih h
        · exact ih h
      · have hcons : unstacked seen (p :: ps) = p :: unstacked (group :: seen) ps := by
          simp only [unstacked, hg, hs, if_false, Bool.false_eq_true]
        rw [hcons] at h ⊢
        obtain ⟨hp, hrest⟩ := List.forall_mem_cons.mp h
        rw [List.filter_cons_of_pos hp]
        simp only [unstacked, hg, hs, if_false, Bool.false_eq_true]
        rw [ih hrest]

theorem combined_filter (h : ∀ p ∈ combined ps, wanted p = true) :
    combined (ps.filter wanted) = combined ps := by
  unfold combined at h ⊢
  rw [List.find?_filter]
  cases hf : ps.find? CommercialPromotion.exclusive with
  | none =>
    have hnone : ps.find? (fun p => decide (wanted p = true ∧ p.exclusive = true)) = none := by
      rw [List.find?_eq_none] at hf ⊢
      intro p hp
      simp [hf p hp]
    rw [hf] at h
    simp only [hnone]
    exact unstacked_filter h
  | some p =>
    rw [hf] at h
    have hp := h p (List.mem_singleton_self p)
    have hsome : ps.find? (fun p => decide (wanted p = true ∧ p.exclusive = true)) = some p := by
      rw [List.find?_eq_some_iff_append] at hf ⊢
      obtain ⟨hexclusive, before, after, hsplit, hbefore⟩ := hf
      refine ⟨by simp [hp, hexclusive], before, after, hsplit, fun a ha => ?_⟩
      have hplain := hbefore a ha
      simp_all
    simp only [hsome]

end Codes

section Offers
variable {db : Database} {q : Request} {s : Stay} {d : Discounts} {v : Option Voucher} {w : Voucher}
variable {promotions : List Eligible} {lines : List BookingQuoteLine} {i r : ℕ}

def granted (voucher : Option Voucher) (session : Option String) (p : CommercialPromotion) :
    Eligible where
  promotion := p
  resolvedVoucherId := if p.requiresCode then voucher.map Voucher.id else none
  resolvedSessionHash := session

def chosen (db : Database) (q : Request) (s : Stay) (voucher : Option Voucher) :
    List CommercialPromotion :=
  combined ((published db q.propertyId s.plan.currency s.arrival).filter
    (applies (promotionRequest q s) voucher))

-- The code that a quote was asked for with does not matter to it, or is found again.
inductive CodeKept (db : Database) (q : Request) (s : Stay) (storedVoucher : Option ℕ) : Prop
  | codeless (h : ∀ v, voucher db (promotionRequest q s) = .ok v →
      ∀ p ∈ chosen db q s v, p.requiresCode = false)
  | retained {i r : ℕ} {x : VoucherRedemption} (hv : storedVoucher = some i)
      (hr : q.input.amendmentOfReservationId = some r) (hx : x ∈ db.voucherRedemptions.rows)
      (hxv : x.voucherId = i) (hxr : x.reservationId = r)
  | idle (hv : storedVoucher = none) (h : ∀ v lines d, voucher db (promotionRequest q s) = .ok v →
      baseLines db q s = .ok lines →
        calculate ((chosen db q s v).map (granted v none)) (grossTotal lines) = .ok d →
          ∃ d', calculate ((chosen db q s none).map (granted none none)) (grossTotal lines) =
            .ok d' ∧ d'.lines = d.lines)

theorem eligible_eq_ok :
    eligible db (promotionRequest q s) s.plan.currency s.arrival = .ok promotions ↔
      ∃ v, voucher db (promotionRequest q s) = .ok v ∧
        promotions = (chosen db q s v).map (granted v q.input.promotionSessionHash) := by
  simp only [eligible, bind_eq_ok]
  constructor
  · rintro ⟨v, hv, h⟩
    exact ⟨v, hv, (Except.ok.inj h).symm⟩
  · rintro ⟨v, hv, rfl⟩
    exact ⟨v, hv, rfl⟩

theorem chosen_replayed : chosen db (replayed q s d) s v = chosen db q s v := rfl

theorem bare_granted (session session' : Option String) {ps : List CommercialPromotion} :
    (ps.map (granted v session)).map Eligible.bare = (ps.map (granted v session')).map Eligible.bare := by
  rw [List.map_map, List.map_map]
  rfl

theorem voucher_replayed_none (hd : d.voucherId = none) :
    voucher db (promotionRequest (replayed q s d) s) = .ok none := by
  have hstored : (promotionRequest (replayed q s d) s).voucherId = none := hd
  have hcode : (promotionRequest (replayed q s d) s).voucherCode = none := rfl
  unfold voucher
  rw [hstored, hcode]

theorem voucher_replayed_open (hr : q.input.amendmentOfReservationId = none) :
    voucher db (promotionRequest (replayed q s d) s) = .ok none := by
  have hamendment : (promotionRequest (replayed q s d) s).amendmentOfReservationId = none := hr
  have hcode : (promotionRequest (replayed q s d) s).voucherCode = none := rfl
  unfold voucher
  rw [hamendment, hcode]
  cases (promotionRequest (replayed q s d) s).voucherId with
  | none => rfl
  | some _ => rfl

theorem voucher_replayed_some (hd : d.voucherId = some i)
    (hr : q.input.amendmentOfReservationId = some r) :
    voucher db (promotionRequest (replayed q s d) s) = some <$> retainedVoucher db i r := by
  have hstored : (promotionRequest (replayed q s d) s).voucherId = some i := hd
  have hamendment : (promotionRequest (replayed q s d) s).amendmentOfReservationId = some r := hr
  have hcode : (promotionRequest (replayed q s d) s).voucherCode = none := rfl
  unfold voucher
  rw [hstored, hamendment, hcode]

theorem stored_entered {p : ℕ} {code : String} (h : enteredVoucher db p code = .ok w) :
    w ∈ db.vouchers.rows := by
  simp only [enteredVoucher, bind_eq_ok, found_eq_ok] at h
  obtain ⟨_, _, x, hx, _, _, h⟩ := h
  obtain rfl := Except.ok.inj h
  exact (Table.first?_some hx).1

theorem stored_retained (h : retainedVoucher db i r = .ok w) : w ∈ db.vouchers.rows ∧ w.id = i ∧
    ∃ x ∈ db.voucherRedemptions.rows, x.voucherId = i ∧ x.reservationId = r := by
  obtain ⟨hw, hkeys⟩ := Table.first?_some (found_eq_ok.mp h)
  simp only [Bool.and_eq_true, beq_iff_eq] at hkeys
  obtain ⟨x, hx⟩ := Option.isSome_iff_exists.mp hkeys.2
  obtain ⟨hmem, hxkeys⟩ := Table.first?_some hx
  simp only [Bool.and_eq_true, beq_iff_eq] at hxkeys
  exact ⟨hw, hkeys.1, x, hmem, hxkeys.1.trans hkeys.1, hxkeys.2⟩

theorem stored_voucher {input : PromotionRequest} (h : voucher db input = .ok (some w)) :
    w ∈ db.vouchers.rows := by
  unfold voucher at h
  split at h
  · obtain ⟨u, hu, hw⟩ := map_eq_ok.mp h
    exact Option.some.inj hw ▸ stored_entered hu
  · obtain ⟨u, hu, hw⟩ := map_eq_ok.mp h
    exact Option.some.inj hw ▸ (stored_retained hu).1
  · cases h

theorem retained_again {x : VoucherRedemption} (hw : w ∈ db.vouchers.rows)
    (hx : x ∈ db.voucherRedemptions.rows) (hxv : x.voucherId = w.id) (hxr : x.reservationId = r) :
    retainedVoucher db w.id r = .ok w := by
  cases h : retainedVoucher db w.id r with
  | ok u =>
    obtain ⟨hu, hid, _⟩ := stored_retained h
    rw [Table.eq_of_id hu hw hid]
  | error e =>
    exfalso
    have hredeemed : (db.voucherRedemptions.first? fun y =>
        y.voucherId == w.id && y.reservationId == r).isSome = true := by
      cases hf : db.voucherRedemptions.first? fun y =>
          y.voucherId == w.id && y.reservationId == r with
      | some _ => rfl
      | none =>
        have hno := Table.first?_eq_none.mp hf x hx
        simp [hxv, hxr] at hno
    unfold retainedVoucher at h
    cases hf : db.vouchers.first? fun v => v.id == w.id &&
        (db.voucherRedemptions.first? fun y =>
          y.voucherId == v.id && y.reservationId == r).isSome with
    | some u =>
      rw [hf] at h
      cases h
    | none =>
      have hno := Table.first?_eq_none.mp hf w hw
      simp [hredeemed] at hno

theorem granted_voucher {ps : List CommercialPromotion} {session : Option String} {e : Eligible}
    (he : e ∈ ps.map (granted v session)) (hi : e.resolvedVoucherId = some i) :
    (∃ w, v = some w ∧ w.id = i) ∧ ∃ p ∈ ps, p.requiresCode = true := by
  obtain ⟨p, hp, rfl⟩ := List.mem_map.mp he
  have hif : (if p.requiresCode then v.map Voucher.id else none) = some i := hi
  split_ifs at hif with hcode
  exact ⟨Option.map_eq_some_iff.mp hif, p, hp, hcode⟩

theorem codeless_selection (h : ∀ p ∈ chosen db q s v, p.requiresCode = false) :
    chosen db q s none = chosen db q s v := by
  have hfilter : (published db q.propertyId s.plan.currency s.arrival).filter
      (applies (promotionRequest q s) none) =
        ((published db q.propertyId s.plan.currency s.arrival).filter
          (applies (promotionRequest q s) v)).filter fun p => !p.requiresCode := by
    rw [List.filter_filter]
    congr 1
    funext p
    unfold applies
    cases p.requiresCode with
    | true => simp
    | false => simp
  unfold chosen at h ⊢
  rw [hfilter]
  exact combined_filter fun p hp => by simp [h p hp]

end Offers

section Replay
variable {db : Database} {input : BookingInput} {c : Calculation} {p p' : Priced}

structure Parts (db : Database) (input : BookingInput) (p : Priced) (v : Option Voucher) : Prop where
  requested : requested input = .ok p.request
  stay : stayFor db p.request = .ok p.stay
  lines : baseLines db p.request p.stay = .ok p.lines
  code : voucher db (promotionRequest p.request p.stay) = .ok v
  discounts : calculate ((chosen db p.request p.stay v).map
    (granted v p.request.input.promotionSessionHash)) p.base = .ok p.discounts

theorem parts_of_priced (hp : priced db input = .ok p) : ∃ v, Parts db input p v := by
  simp only [priced, bind_eq_ok] at hp
  obtain ⟨q, hq, s, hs, lines, hlines, promotions, hpromotions, d, hd, hp⟩ := hp
  obtain rfl := Except.ok.inj hp
  obtain ⟨v, hv, rfl⟩ := eligible_eq_ok.mp hpromotions
  exact ⟨v, hq, hs, hlines, hv, hd⟩

theorem priced_of_parts {v : Option Voucher} (h : Parts db input p v) : priced db input = .ok p := by
  simp only [priced, bind_eq_ok]
  exact ⟨_, h.requested, _, h.stay, _, h.lines, _, eligible_eq_ok.mpr ⟨v, h.code, rfl⟩, _,
    h.discounts, rfl⟩

theorem parts_replayed (hp : priced db input = .ok p)
    (hp' : priced db (inputOf (stored p)) = .ok p') :
    p'.request = replayed p.request p.stay p.discounts ∧ p'.stay = p.stay := by
  obtain ⟨v, hparts⟩ := parts_of_priced hp
  obtain ⟨v', hparts'⟩ := parts_of_priced hp'
  have hrequest : p'.request = replayed p.request p.stay p.discounts :=
    Except.ok.inj (hparts'.requested.symm.trans
      (requested_replayed hparts.requested (resolved_of_stayFor hparts.stay)))
  have hstay := hparts'.stay
  rw [hrequest, stayFor_replayed hparts.stay] at hstay
  exact ⟨hrequest, (Except.ok.inj hstay).symm⟩

theorem codeKept_of_replay (hp : priced db input = .ok p)
    (hp' : priced db (inputOf (stored p)) = .ok p') (hlines : p'.lines = p.lines)
    (hdiscounts : p'.discounts.lines = p.discounts.lines) :
    CodeKept db p.request p.stay p.discounts.voucherId := by
  obtain ⟨v, hparts⟩ := parts_of_priced hp
  obtain ⟨v', hparts'⟩ := parts_of_priced hp'
  obtain ⟨hrequest, hstay⟩ := parts_replayed hp hp'
  have hcode := hparts'.code
  have hoffered := hparts'.discounts
  rw [hrequest, hstay] at hcode hoffered
  cases hv : p.discounts.voucherId with
  | none =>
    apply CodeKept.idle rfl
    intro u lines d hu hbase hd
    obtain rfl := Except.ok.inj ((voucher_replayed_none hv).symm.trans hcode)
    obtain rfl := Except.ok.inj (hparts.lines.symm.trans hbase)
    obtain rfl := Except.ok.inj (hparts.code.symm.trans hu)
    have hsame : p'.base = grossTotal p.lines := congrArg grossTotal hlines
    rw [hsame] at hoffered
    obtain ⟨d', hd', hbare⟩ := calculate_session hoffered (bare_granted none _)
    obtain ⟨d₀, hd₀, hbare₀⟩ := calculate_session hparts.discounts (bare_granted none _)
    obtain rfl := Except.ok.inj (hd₀.symm.trans hd)
    refine ⟨d', hd', ?_⟩
    have hfirst : d'.lines = p'.discounts.lines := lines_of_bare hbare
    have hsecond : d₀.lines = p.discounts.lines := lines_of_bare hbare₀
    rw [hfirst, hsecond, hdiscounts]
  | some i =>
    have hnamed := voucher_named hparts.discounts hv
    rw [← hdiscounts] at hnamed
    obtain ⟨e, he, hresolved⟩ := named_offered hoffered hnamed
    obtain ⟨⟨w, rfl, hid⟩, _⟩ := granted_voucher he hresolved
    cases hr : p.request.input.amendmentOfReservationId with
    | none =>
      rw [voucher_replayed_open hr] at hcode
      cases hcode
    | some r =>
      rw [voucher_replayed_some hv hr] at hcode
      obtain ⟨u, hu, _⟩ := map_eq_ok.mp hcode
      obtain ⟨_, _, x, hx, hxv, hxr⟩ := stored_retained hu
      exact CodeKept.retained rfl hr hx hxv hxr

-- The discounts of the replay, once its prices and its voucher are known.
theorem replay_of_offers {v : Option Voucher} {d : Discounts} (hp : priced db input = .ok p)
    (hrules : SameRules db p.request p.stay)
    (hcode : voucher db (promotionRequest (replayed p.request p.stay p.discounts) p.stay) = .ok v)
    (hd : calculate ((chosen db p.request p.stay v).map (granted v none)) p.base = .ok d)
    (hlines : d.lines = p.discounts.lines) :
    ∃ p', priced db (inputOf (stored p)) = .ok p' ∧ p'.lines = p.lines ∧
      p'.discounts.lines = p.discounts.lines := by
  obtain ⟨_, hparts⟩ := parts_of_priced hp
  obtain ⟨d', hd', hbare⟩ := calculate_session hd
    (bare_granted (replayed p.request p.stay p.discounts).input.promotionSessionHash none)
  refine ⟨⟨replayed p.request p.stay p.discounts, p.stay, p.lines, d'⟩, ?_, rfl, ?_⟩
  · exact priced_of_parts ⟨requested_replayed hparts.requested (resolved_of_stayFor hparts.stay),
      stayFor_replayed hparts.stay, baseLines_replayed hparts.lines hrules, hcode, hd'⟩
  · exact (lines_of_bare hbare).trans hlines

theorem replay_of_kept (hp : priced db input = .ok p) (hrules : SameRules db p.request p.stay)
    (hkept : CodeKept db p.request p.stay p.discounts.voucherId) :
    ∃ p', priced db (inputOf (stored p)) = .ok p' ∧ p'.lines = p.lines ∧
      p'.discounts.lines = p.discounts.lines := by
  obtain ⟨v, hparts⟩ := parts_of_priced hp
  obtain ⟨d, hd, hbare⟩ := calculate_session hparts.discounts (bare_granted none _)
  have hlines : d.lines = p.discounts.lines := lines_of_bare hbare
  cases hkept with
  | codeless h =>
    have hplain := h v hparts.code
    have hnone : p.discounts.voucherId = none := by
      cases hv : p.discounts.voucherId with
      | none => rfl
      | some i =>
        obtain ⟨e, he, hresolved⟩ := named_offered hparts.discounts (voucher_named hparts.discounts hv)
        obtain ⟨_, q, hq, hcode⟩ := granted_voucher he hresolved
        rw [hplain q hq] at hcode
        cases hcode
    have hoffers : (chosen db p.request p.stay none).map (granted none none) =
        (chosen db p.request p.stay v).map (granted v none) := by
      rw [codeless_selection hplain]
      apply List.map_congr_left
      intro q hq
      simp [granted, hplain q hq]
    rw [← hoffers] at hd
    exact replay_of_offers hp hrules (voucher_replayed_none hnone) hd hlines
  | retained hv hr hx hxv hxr =>
    obtain ⟨e, he, hresolved⟩ := named_offered hparts.discounts (voucher_named hparts.discounts hv)
    obtain ⟨⟨w, rfl, rfl⟩, _⟩ := granted_voucher he hresolved
    have hagain := retained_again (stored_voucher hparts.code) hx hxv hxr
    have hcode : voucher db (promotionRequest (replayed p.request p.stay p.discounts) p.stay) =
        some <$> retainedVoucher db w.id _ := voucher_replayed_some hv hr
    rw [hagain] at hcode
    exact replay_of_offers hp hrules hcode hd hlines
  | idle hv h =>
    obtain ⟨d', hd', hsame⟩ := h v p.lines d hparts.code hparts.lines hd
    exact replay_of_offers hp hrules (voucher_replayed_none hv) hd' (hsame.trans hlines)

theorem replays_iff (db : Database) (input : BookingInput) (c : Calculation)
    (hids : ∀ plan ∈ db.ratePlans.rows, (plan.rules.map RateRule.id).Nodup)
    (h : preview db input = .ok c) :
    Replays db c ↔ ∃ q s, requested input = .ok q ∧ stayFor db q = .ok s ∧ SameRules db q s ∧
      CodeKept db q s c.inputs.voucherId := by
  obtain ⟨p, t, hp, ht, rfl⟩ := preview_cases h
  obtain ⟨v, hparts⟩ := parts_of_priced hp
  have hrules : ∀ p', priced db (inputOf (stored p)) = .ok p' → p'.rules db = p.rules db := by
    intro p' hp'
    obtain ⟨hrequest, hstay⟩ := parts_replayed hp hp'
    unfold Priced.rules
    rw [hrequest, hstay]
    rfl
  rw [replays_iff_priced hp ht hrules]
  constructor
  · rintro ⟨p', hp', hlines, hdiscounts⟩
    refine ⟨p.request, p.stay, hparts.requested, hparts.stay, ?_,
      codeKept_of_replay hp hp' hlines hdiscounts⟩
    obtain ⟨hrequest, hstay⟩ := parts_replayed hp hp'
    have hbase := (priced_lines hp').1
    rw [hrequest, hstay, hlines] at hbase
    exact sameRules_of_lines (hids _ (plan_mem hparts.stay)) hparts.lines hbase
  · rintro ⟨q, s, hq, hs, hsame, hkept⟩
    obtain rfl := Except.ok.inj (hparts.requested.symm.trans hq)
    obtain rfl := Except.ok.inj (hparts.stay.symm.trans hs)
    exact replay_of_kept hp hsame hkept

end Replay

section Scenario

-- Taken whole, the lodge is charged by a rule of its own.
def wholeLodge (i : ℕ) : RateRule :=
  { flatRate i with
    priority := 10
    amountMinor := 50000
    buyoutOnly := true }

def lodgeOrCabin : Database :=
  { desk 700 250 .empty with
    ratePlans := Table.empty.insert fun i =>
      { standardPlan i with rules := [wholeLodge 1, flatRate 0] } }

def whole (input : BookingInput) : BookingInput := { input with isBuyout := true }

theorem whole_lodge_does_not_replay : ∃ c,
    preview lodgeOrCabin (whole (nightsFrom 10 2)) = .ok c ∧ ¬ Replays lodgeOrCabin c := by
  obtain ⟨c, hc, hdiffers⟩ : ∃ c, preview lodgeOrCabin (whole (nightsFrom 10 2)) = .ok c ∧
      (preview lodgeOrCabin (inputOf c.inputs)).toOption.all
        (fun c' => decide (c'.lines ≠ c.lines)) = true := exists_ok_of_any (by decide)
  refine ⟨c, hc, fun hr => ?_⟩
  obtain ⟨c', hc', hlines, _⟩ := hr
  rw [hc'] at hdiffers
  exact of_decide_eq_true hdiffers hlines

def plainly (db : Database) (q : Request) (s : Stay) : Bool :=
  sameRules db q s && (voucher db (promotionRequest q s)).toOption.all fun v =>
    (chosen db q s v).all fun p => !p.requiresCode

theorem plain_nights_replay : ∃ c,
    preview (desk 700 250 .empty) (whole (nightsFrom 10 2)) = .ok c ∧
      Replays (desk 700 250 .empty) c := by
  obtain ⟨c, hc, _⟩ : ∃ c, preview (desk 700 250 .empty) (whole (nightsFrom 10 2)) = .ok c ∧
      decide (0 < c.discountMinor) = true := exists_ok_of_any (by decide)
  obtain ⟨q, hq, hstay⟩ : ∃ q, requested (whole (nightsFrom 10 2)) = .ok q ∧
      (stayFor (desk 700 250 .empty) q).toOption.any (plainly (desk 700 250 .empty) q) = true :=
    exists_ok_of_any (by decide)
  obtain ⟨s, hs, hplain⟩ := exists_ok_of_any hstay
  unfold plainly at hplain
  rw [Bool.and_eq_true] at hplain
  refine ⟨c, hc, (replays_iff _ _ c (by decide) hc).mpr
    ⟨q, s, hq, hs, sameRules_iff.mp hplain.1, .codeless fun v hv p hp => ?_⟩⟩
  rw [hv] at hplain
  simpa using List.all_eq_true.mp hplain.2 p hp

end Scenario
end QuoteReplay
