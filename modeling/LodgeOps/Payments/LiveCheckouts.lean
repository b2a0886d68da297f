import LodgeOps.Payments.Checkouts
import LodgeOps.Payments.AbsorbingEvents

namespace CreateProviderCheckout
open Schema Transaction ProcessProviderEvent RevokeOrSupersedePaymentRequest

section Evolution
variable {db db' : Database} {a row : PaymentAttempt} {i : ℕ}

def Accepting (db : Database) (i : ℕ) : Prop :=
  ∃ q, db.paymentRequests.find? i = some q ∧ accepting q = true

-- The hosted checkout is still being made or is ready.
def starting (a : PaymentAttempt) : Bool := a.state == .creating || a.state == .checkoutReady

structure Orderly (db : Database) : Prop where
  alone : ∀ a ∈ db.paymentAttempts.rows, ∀ b ∈ db.paymentAttempts.rows, live a = true →
    live b = true → a.paymentRequestId = b.paymentRequestId → a.id = b.id
  payable : ∀ a ∈ db.paymentAttempts.rows, live a = true → Accepting db a.paymentRequestId

structure Evolves (db db' : Database) : Prop where
  orderly : Orderly db → Orderly db'
  kept : ∀ i a, db.paymentAttempts.find? i = some a → starting a = false →
    ∃ a', db'.paymentAttempts.find? i = some a' ∧ starting a' = false

theorem live_of_starting (h : starting a = true) : live a = true := by
  simp only [starting, Bool.or_eq_true, beq_iff_eq] at h
  rcases h with h | h <;> simp [live, h]

theorem not_starting (h : live a = false) : starting a = false := by
  by_contra hs
  rw [live_of_starting (by simpa using hs)] at h
  cases h

theorem evolves_refl : Evolves db db := ⟨id, fun _ a ha hs => ⟨a, ha, hs⟩⟩

theorem Evolves.trans {t : Database} (h : Evolves db t) (h' : Evolves t db') : Evolves db db' := by
  refine ⟨fun ho => h'.orderly (h.orderly ho), fun i a ha hs => ?_⟩
  obtain ⟨a₁, ha₁, hs₁⟩ := h.kept i a ha hs
  exact h'.kept i a₁ ha₁ hs₁

-- The attempts are what they were, and a request with a live attempt still accepts it.
theorem evolves_of_requests (ha : db'.paymentAttempts = db.paymentAttempts)
    (hq : ∀ a ∈ db.paymentAttempts.rows, live a = true → Accepting db a.paymentRequestId →
      Accepting db' a.paymentRequestId) : Evolves db db' := by
  refine ⟨fun ho => ⟨?_, fun a hmem hl => ?_⟩, fun i a h hs => ⟨a, ha ▸ h, hs⟩⟩
  · rw [ha]
    exact ho.alone
  · rw [ha] at hmem
    exact hq a hmem hl (ho.payable a hmem hl)

theorem evolves_update {f : PaymentAttempt → PaymentAttempt} {hf : Keeps f}
    (hr : db.paymentAttempts.find? i = some row)
    (hreq : (f row).paymentRequestId = row.paymentRequestId)
    (hstart : starting (f row) = true → starting row = true)
    (hlive : live (f row) = true → live row = true ∨ Accepting db row.paymentRequestId)
    (hone : live (f row) = true → ∀ b ∈ db.paymentAttempts.rows, clashes (f row) b = false) :
    Evolves db { db with paymentAttempts := db.paymentAttempts.update i f hf } := by
  obtain ⟨hrow, hid⟩ := Table.find?_eq_some.mp hr
  have hcases : ∀ x ∈ (db.paymentAttempts.update i f hf).rows,
      (x ∈ db.paymentAttempts.rows ∧ x.id ≠ i) ∨ x = f row := by
    intro x hx
    rcases (Table.mem_update hf).mp hx with h | ⟨y, hy, hyi, rfl⟩
    · exact Or.inl h
    · exact Or.inr (congrArg f (Table.eq_of_id hy hrow (hyi.trans hid.symm)))
  have hfid : (f row).id = i := (hf row).trans hid
  -- A live row that is written and another live one of its request would clash.
  have hself : ∀ x ∈ db.paymentAttempts.rows, x.id ≠ i → live x = true → live (f row) = true →
      (f row).paymentRequestId ≠ x.paymentRequestId := by
    intro x hx hne hlx hlf heq
    have hclash := hone hlf x hx
    rw [clashes, heq, hlx, hlf, hfid] at hclash
    simp [bne_iff_ne.mpr (Ne.symm hne)] at hclash
  refine ⟨fun ho => ⟨fun x hx y hy hlx hly hxy => ?_, fun x hx hlx => ?_⟩,
    fun j a ha hs => ?_⟩
  · rcases hcases x hx with ⟨hx, hxi⟩ | rfl
    · rcases hcases y hy with ⟨hy, _⟩ | rfl
      · exact ho.alone x hx y hy hlx hly hxy
      · exact absurd hxy.symm (hself x hx hxi hlx hly)
    · rcases hcases y hy with ⟨hy, hyi⟩ | rfl
      · exact absurd hxy (hself y hy hyi hly hlx)
      · rfl
  · rcases hcases x hx with ⟨hx, _⟩ | rfl
    · exact ho.payable x hx hlx
    · rw [hreq]
      rcases hlive hlx with h | h
      · exact ho.payable row hrow h
      · exact h
  · rw [Table.find?_update hf]
    split_ifs with hj
    · subst hj
      obtain rfl : row = a := Option.some.inj (hr.symm.trans ha)
      refine ⟨f row, by rw [ha, Option.map_some], ?_⟩
      by_contra hn
      rw [hstart (by simpa using hn)] at hs
      cases hs
    · exact ⟨a, ha, hs⟩

theorem evolves_insert {mk : ℕ → PaymentAttempt} {hk : Names mk}
    (hq : Accepting db (mk db.paymentAttempts.next).paymentRequestId)
    (hone : ∀ b ∈ db.paymentAttempts.rows, clashes (mk db.paymentAttempts.next) b = false) :
    Evolves db { db with paymentAttempts := db.paymentAttempts.insert mk hk } := by
  have hself : ∀ x ∈ db.paymentAttempts.rows, live x = true →
      live (mk db.paymentAttempts.next) = true →
      (mk db.paymentAttempts.next).paymentRequestId ≠ x.paymentRequestId := by
    intro x hx hlx hlm heq
    have hclash := hone x hx
    have hlt : x.id < db.paymentAttempts.next := Table.id_lt_next hx
    have hid : (mk db.paymentAttempts.next).id = db.paymentAttempts.next := hk _
    rw [clashes, heq, hlx, hlm, hid] at hclash
    simp [bne_iff_ne.mpr hlt.ne'] at hclash
  refine ⟨fun ho => ⟨fun x hx y hy hlx hly hxy => ?_, fun x hx hlx => ?_⟩,
    fun i a ha hs => ⟨a, Table.find?_insert_of_some ha hk, hs⟩⟩
  · rcases (Table.mem_insert hk).mp hx with hx | rfl
    · rcases (Table.mem_insert hk).mp hy with hy | rfl
      · exact ho.alone x hx y hy hlx hly hxy
      · exact absurd hxy.symm (hself x hx hlx hly)
    · rcases (Table.mem_insert hk).mp hy with hy | rfl
      · exact absurd hxy (hself y hy hly hlx)
      · rfl
  · rcases (Table.mem_insert hk).mp hx with hx | rfl
    · exact ho.payable x hx hlx
    · exact hq

-- The live attempts of one request are closed with it.
theorem evolves_close {f : PaymentAttempt → PaymentAttempt} (hf : Keeps f)
    (ha : db'.paymentAttempts = db.paymentAttempts.updateWhere (liveOf i) f hf)
    (hlive : ∀ a, live (f a) = false)
    (hq : ∀ j, j ≠ i → Accepting db j → Accepting db' j) : Evolves db db' := by
  have hold : ∀ x ∈ db'.paymentAttempts.rows, live x = true →
      x ∈ db.paymentAttempts.rows ∧ x.paymentRequestId ≠ i := by
    intro x hx hlx
    rw [ha] at hx
    rcases (Table.mem_updateWhere hf).mp hx with ⟨hx, hp⟩ | ⟨y, _, _, rfl⟩
    · exact ⟨hx, fun h => by simp [liveOf, h, hlx] at hp⟩
    · rw [hlive y] at hlx
      cases hlx
  refine ⟨fun ho => ⟨fun x hx y hy hlx hly hxy => ?_, fun x hx hlx => ?_⟩,
    fun j a hja hs => ?_⟩
  · exact ho.alone x (hold x hx hlx).1 y (hold y hy hly).1 hlx hly hxy
  · obtain ⟨hx, hne⟩ := hold x hx hlx
    exact hq _ hne (ho.payable x hx hlx)
  · obtain ⟨hmem, hid⟩ := Table.find?_eq_some.mp hja
    rw [ha]
    by_cases hp : liveOf i a = true
    · exact ⟨f a, Table.find?_eq_some.mpr
        ⟨(Table.mem_updateWhere hf).mpr (Or.inr ⟨a, hmem, hp, rfl⟩), (hf a).trans hid⟩,
          not_starting (hlive a)⟩
    · exact ⟨a, Table.find?_eq_some.mpr
        ⟨(Table.mem_updateWhere hf).mpr (Or.inl ⟨hmem, by simpa using hp⟩), hid⟩, hs⟩

end Evolution

section Operations
variable {db db' : Database} {q : PaymentRequest} {i j : ℕ} {old new a : PaymentAttempt}

theorem accepting_update {f : PaymentRequest → PaymentRequest} {hf : Keeps f}
    (h : accepting q = true → accepting (f q) = true) (hq : db.paymentRequests.find? i = some q)
    (ha : Accepting db j) :
    Accepting { db with paymentRequests := db.paymentRequests.update i f hf } j := by
  obtain ⟨p, hp, hacc⟩ := ha
  by_cases hj : j = i
  · subst hj
    obtain rfl : q = p := Option.some.inj (hq.symm.trans hp)
    exact ⟨f q, Table.find?_update_self hq hf, h hacc⟩
  · exact ⟨p, by rw [Table.find?_update_ne hj hf, hp], hacc⟩

theorem accepting_update_ne {f : PaymentRequest → PaymentRequest} {hf : Keeps f} (hj : j ≠ i)
    (ha : Accepting db j) :
    Accepting { db with paymentRequests := db.paymentRequests.update i f hf } j := by
  obtain ⟨p, hp, hacc⟩ := ha
  exact ⟨p, by rw [Table.find?_update_ne hj hf, hp], hacc⟩

-- A write brings no checkout back, and revives an attempt only while its request accepts one.
def Mild (db : Database) (old new : PaymentAttempt) : Prop :=
  ∀ row, db.paymentAttempts.find? old.id = some row →
    (starting (written old new row) = true → starting row = true) ∧
      (live (written old new row) = true → live row = true ∨ Accepting db row.paymentRequestId)

theorem mild_of_state (h : new.state = old.state ∨ live new = false) : Mild db old new := by
  intro row _
  by_cases hs : new.state = old.state
  · have hrow : (written old new row).state = row.state := if_pos hs
    have hstart : starting (written old new row) = starting row := by rw [starting, hrow, starting]
    have hlive : live (written old new row) = live row := by rw [live, hrow, live]
    rw [hstart, hlive]
    exact ⟨id, Or.inl⟩
  · have hrow : (written old new row).state = new.state := if_neg hs
    have hlive : live (written old new row) = false := by
      rw [live, hrow]
      exact h.resolve_left hs
    rw [not_starting hlive, hlive]
    exact ⟨fun h => absurd h Bool.false_ne_true, fun h => absurd h Bool.false_ne_true⟩

theorem saveAttempt_evolves (hm : Mild db old new) {u : Unit}
    (hc : Commits (saveAttempt old new) db u db') : Evolves db db' := by
  unfold saveAttempt at hc
  obtain ⟨_, _, hg, hc⟩ := commits_bind.mp hc
  obtain ⟨rfl, rfl⟩ := commits_get.mp hg
  split at hc
  · rw [(commits_pure.mp hc).2]
    exact evolves_refl
  next row hrow =>
    obtain ⟨_, _, hr, hc⟩ := commits_bind.mp hc
    obtain ⟨hn, rfl⟩ := commits_reject.mp hr
    rw [← commits_set.mp hc]
    refine evolves_update hrow rfl (hm row hrow).1 (hm row hrow).2 fun _ b hb => ?_
    simpa using (List.any_eq_false.mp (by simpa using hn)) b hb

theorem expire_evolves {message : String} {db₁ : Database}
    (ha : db₁.paymentAttempts = db.paymentAttempts)
    (hq : ∀ j, j ≠ i → Accepting db j → Accepting db₁ j) {u : Unit}
    (hc : Commits (expireAttempts i message) db₁ u db') : Evolves db db' := by
  rw [← commits_modify.mp hc]
  exact evolves_close (keeps_closed _ _) (by rw [ha]) (fun _ => rfl) hq

theorem commits_lockedRequest' {s s' : Database}
    (hc : Commits (PaymentService.lockedRequest i) s q s') :
    s.paymentRequests.find? i = some q ∧ q.id = i ∧ s = s' := by
  obtain ⟨hq, rfl⟩ := PaymentService.commits_lockedRequest.mp hc
  exact ⟨hq, (Table.find?_eq_some.mp hq).2, rfl⟩

theorem revoke_evolves {request p : PaymentRequest} {reason : String} {actorId : Option ℕ}
    {superseded : Bool}
    (hc : Commits (RevokeOrSupersedePaymentRequest.handle request reason actorId superseded) db p db') :
    Evolves db db' := by
  unfold RevokeOrSupersedePaymentRequest.handle at hc
  obtain ⟨_, _, hr, hc⟩ := commits_bind.mp hc
  obtain ⟨_, rfl⟩ := commits_lockedReservation.mp hr
  obtain ⟨locked, _, hl, hc⟩ := commits_bind.mp hc
  obtain ⟨_, rfl⟩ := PaymentService.commits_lockedRequest.mp hl
  obtain ⟨_, _, hrej, hc⟩ := commits_bind.mp hc
  obtain ⟨_, rfl⟩ := commits_reject.mp hrej
  split at hc
  · rw [(commits_pure.mp hc).2]
    exact evolves_refl
  · obtain ⟨_, _, hrej, hc⟩ := commits_bind.mp hc
    obtain ⟨_, rfl⟩ := commits_reject.mp hrej
    obtain ⟨_, _, hset, hc⟩ := commits_bind.mp hc
    obtain ⟨_, _, hexp, hc⟩ := commits_bind.mp hc
    obtain ⟨_, rfl⟩ := PaymentService.commits_lockedRequest.mp hc
    have hdb := commits_modify.mp hset
    refine expire_evolves (i := locked.id) (by rw [← hdb]) (fun j hj ha => ?_) hexp
    rw [← hdb]
    exact accepting_update_ne hj ha

theorem visit_evolves : Evolves db { db with
    paymentRequests := db.paymentRequests.update i (ResolvePaymentRequest.visited db.clock)
      (ResolvePaymentRequest.keeps_visited _) } := by
  refine evolves_of_requests rfl fun a _ _ hq => ?_
  obtain ⟨p, hp, hacc⟩ := hq
  by_cases ha : a.paymentRequestId = i
  · rw [ha] at hp ⊢
    exact ⟨ResolvePaymentRequest.visited db.clock p, Table.find?_update_self hp, hacc⟩
  · exact accepting_update_ne ha ⟨p, hp, hacc⟩

theorem resolve_evolves {token : String} {p : Option PaymentRequest}
    (hc : Commits (ResolvePaymentRequest.handle token) db p db') : Evolves db db' := by
  unfold ResolvePaymentRequest.handle at hc
  obtain ⟨_, _, hg, hc⟩ := commits_bind.mp hc
  obtain ⟨rfl, rfl⟩ := commits_get.mp hg
  split at hc
  · rw [(commits_pure.mp hc).2]
    exact evolves_refl
  · obtain ⟨q, _, hl, hc⟩ := commits_bind.mp hc
    obtain ⟨hq, hid, rfl⟩ := commits_lockedRequest' hl
    obtain ⟨_, t, hexp, hc⟩ := commits_bind.mp hc
    obtain ⟨_, _, hvis, hc⟩ := commits_bind.mp hc
    obtain ⟨_, hfresh, _⟩ := commits_map.mp hc
    obtain ⟨_, rfl⟩ := PaymentService.commits_lockedRequest.mp hfresh
    rw [← commits_modify.mp hvis]
    refine Evolves.trans ?_ (visit_evolves (i := q.id))
    unfold ResolvePaymentRequest.expire at hexp
    split at hexp
    · obtain ⟨_, t₁, hatt, hreq⟩ := commits_bind.mp hexp
      rw [← commits_modify.mp hreq, ← commits_modify.mp hatt]
      exact evolves_close (keeps_closed _ _) rfl (fun _ => rfl) fun j hj ha =>
        accepting_update_ne hj ha
    · rw [(commits_pure.mp hexp).2]
      exact evolves_refl

theorem existing_evolves {o : Option PaymentAttempt} (hc : Commits (existing i) db o db') :
    Evolves db db' ∧ db'.paymentRequests = db.paymentRequests := by
  unfold existing at hc
  obtain ⟨_, _, hg, hc⟩ := commits_bind.mp hc
  obtain ⟨rfl, rfl⟩ := commits_get.mp hg
  split at hc
  · rw [(commits_pure.mp hc).2]
    exact ⟨evolves_refl, rfl⟩
  next a ha =>
    split at hc
    · obtain ⟨_, _, hset, hc⟩ := commits_bind.mp hc
      rw [← (commits_pure.mp hc).2, ← commits_set.mp hset]
      have hrow := Table.find?_eq_some.mpr ⟨(Table.first?_some ha).1, rfl⟩
      have hgone : live (CreateProviderCheckout.expired a) = false := rfl
      refine ⟨evolves_update hrow rfl (fun h => ?_) (fun h => ?_) fun h => ?_, rfl⟩
      · rw [not_starting hgone] at h
        cases h
      · rw [hgone] at h
        cases h
      · rw [hgone] at h
        cases h
    · rw [(commits_pure.mp hc).2]
      exact ⟨evolves_refl, rfl⟩

theorem insertAttempt_evolves {mk : ℕ → PaymentAttempt} {hk : Names mk}
    (hc : Commits (insertAttempt mk hk) db a db')
    (hreq : ∀ n, (mk n).paymentRequestId = i) (hq : Accepting db i) :
    Evolves db db' ∧ db'.paymentRequests = db.paymentRequests := by
  unfold insertAttempt at hc
  obtain ⟨_, _, hg, hc⟩ := commits_bind.mp hc
  obtain ⟨rfl, rfl⟩ := commits_get.mp hg
  obtain ⟨_, _, hrej, hc⟩ := commits_bind.mp hc
  obtain ⟨hn, rfl⟩ := commits_reject.mp hrej
  obtain ⟨_, _, hset, hc⟩ := commits_bind.mp hc
  rw [← (commits_pure.mp hc).2, ← commits_set.mp hset]
  refine ⟨evolves_insert ((hreq _).symm ▸ hq) fun b hb => ?_, rfl⟩
  simpa using (List.any_eq_false.mp (by simpa using hn)) b hb

theorem attemptFor_evolves {c : CheckoutConnection} {accepted : Bool} {rateId : Option ℕ}
    {reference key : String}
    (hc : Commits (attemptFor i c accepted rateId reference key) db a db') : Evolves db db' := by
  unfold attemptFor at hc
  obtain ⟨q, _, hl, hc⟩ := commits_bind.mp hc
  obtain ⟨hq, hid, rfl⟩ := commits_lockedRequest' hl
  obtain ⟨r, _, hr, hc⟩ := commits_bind.mp hc
  obtain ⟨_, rfl⟩ := commits_lockedReservation.mp hr
  obtain ⟨_, _, hg, hc⟩ := commits_bind.mp hc
  obtain ⟨rfl, rfl⟩ := commits_get.mp hg
  obtain ⟨_, _, hrej, hc⟩ := commits_bind.mp hc
  obtain ⟨hpay, rfl⟩ := commits_reject.mp hrej
  obtain ⟨environment, _, hck, hc⟩ := commits_bind.mp hc
  obtain ⟨_, rfl⟩ := commits_check.mp hck
  obtain ⟨o, t, hex, hc⟩ := commits_bind.mp hc
  obtain ⟨hev, hreqs⟩ := existing_evolves hex
  have hacc : accepting q = true := by
    have hp : PaymentService.payable db q = true := by simpa using hpay
    rw [PaymentService.payable, Bool.and_eq_true] at hp
    exact hp.1
  split at hc
  · rw [← (commits_pure.mp hc).2]
    exact hev
  · refine hev.trans ?_
    unfold create at hc
    obtain ⟨_, _, hg, hc⟩ := commits_bind.mp hc
    obtain ⟨rfl, rfl⟩ := commits_get.mp hg
    obtain ⟨_, _, hrej, hc⟩ := commits_bind.mp hc
    obtain ⟨_, rfl⟩ := commits_reject.mp hrej
    obtain ⟨_, _, hrej, hc⟩ := commits_bind.mp hc
    obtain ⟨_, rfl⟩ := commits_reject.mp hrej
    obtain ⟨charge, _, hck, hc⟩ := commits_bind.mp hc
    obtain ⟨_, rfl⟩ := commits_check.mp hck
    obtain ⟨a, t', hins, hc⟩ := commits_bind.mp hc
    obtain ⟨_, _, hmod, hc⟩ := commits_bind.mp hc
    rw [← (commits_pure.mp hc).2, ← commits_modify.mp hmod]
    have hrow : t.paymentRequests.find? q.id = some q := by rw [hreqs, hid, hq]
    obtain ⟨hstep, hsame⟩ := insertAttempt_evolves hins (fun _ => rfl) ⟨q, hrow, hacc⟩
    refine hstep.trans (evolves_of_requests rfl fun x _ _ hx => ?_)
    exact accepting_update (fun _ => rfl) (by rw [hsame, hrow]) hx

end Operations

section Notifications
variable {γ : Type} {g : Database → γ} {db db' : Database} {e : ProviderEvent} {i : ℕ}
variable {attempt' : PaymentAttempt} {remote : ProviderPayment}

def requestView (db : Database) (i : ℕ) : Option Bool := (db.paymentRequests.find? i).map accepting

theorem accepting_iff : Accepting db i ↔ requestView db i = some true := by
  simp [Accepting, requestView, Option.map_eq_some_iff]

theorem requestView_update {f : PaymentRequest → PaymentRequest} {hf : Keeps f} {j : ℕ}
    (h : ∀ q, accepting (f q) = accepting q) :
    requestView { db with paymentRequests := db.paymentRequests.update j f hf } i =
      requestView db i := by
  unfold requestView
  rw [Table.find?_update hf]
  split_ifs
  · rw [Option.map_map]
    exact congrArg (fun k => Option.map k _) (funext h)
  · rfl

-- All that matters here of a database, and the same without the one request.
def view (db : Database) : Table PaymentAttempt × (ℕ → Option Bool) :=
  (db.paymentAttempts, requestView db)

def besides (i : ℕ) (db : Database) (j : ℕ) : Option Bool :=
  if j = i then none else requestView db j

def viewBesides (i : ℕ) (db : Database) : Table PaymentAttempt × (ℕ → Option Bool) :=
  (db.paymentAttempts, besides i db)

theorem evolves_of_view (h : view db' = view db) : Evolves db db' := by
  obtain ⟨ha, hq⟩ := Prod.mk.inj h
  refine evolves_of_requests ha fun a _ _ hacc => ?_
  rw [accepting_iff] at hacc ⊢
  rw [hq, hacc]

theorem evolves_of_viewBesides (h : viewBesides i db' = viewBesides i db)
    (hnone : ∀ a ∈ db.paymentAttempts.rows, a.paymentRequestId = i → live a = false) :
    Evolves db db' := by
  obtain ⟨ha, hq⟩ := Prod.mk.inj h
  refine evolves_of_requests ha fun a hmem hlive hacc => ?_
  have hne : a.paymentRequestId ≠ i := fun heq => by
    rw [hnone a hmem heq] at hlive
    cases hlive
  have hsame := congrFun hq a.paymentRequestId
  rw [besides, besides, if_neg hne, if_neg hne] at hsame
  rw [accepting_iff] at hacc ⊢
  rw [hsame, hacc]

theorem overlooks_view : Overlooks view where
  reconciler :=
    { orders := fun _ _ _ => rfl
      reservations := fun _ _ => rfl
      requests := fun _ _ _ => Prod.ext rfl (funext fun _ => requestView_update fun _ => rfl)
      stay := fun t u h => by
        have ha : t.paymentAttempts = u.paymentAttempts := (congrArg Database.paymentAttempts h :)
        have hq : t.paymentRequests = u.paymentRequests := (congrArg Database.paymentRequests h :)
        exact Prod.ext ha (funext fun i =>
          congrArg (fun ps : Table PaymentRequest => (ps.find? i).map accepting) hq)
      documents := fun _ _ => rfl
      tasks := fun _ _ => rfl }
  disputes := ⟨fun _ _ => rfl, fun _ _ => rfl, fun _ _ => rfl⟩
  payments _ _ := rfl
  entries _ _ := rfl
  revisions _ _ := rfl

theorem recordProvider_besides :
    Spares (viewBesides attempt'.paymentRequestId) (PaymentService.recordProvider attempt' remote) db := by
  refine PaymentService.recordProvider_spares ⟨fun _ _ => rfl, fun _ _ => rfl, fun _ _ => rfl,
    fun _ _ => rfl, fun db paymentId paidAt => Prod.ext rfl (funext fun j => ?_)⟩
  by_cases hj : j = attempt'.paymentRequestId
  · exact (if_pos hj).trans (if_pos hj).symm
  · refine (if_neg hj).trans (Eq.trans ?_ (if_neg hj).symm)
    exact congrArg (Option.map accepting) (Table.find?_update_ne hj)

-- Nothing is written for a request that is not payable any more.
theorem recordProvider_stale
    (h : ∀ q, db.paymentRequests.find? attempt'.paymentRequestId = some q →
      PaymentService.payable db q = false) :
    Spares view (PaymentService.recordProvider attempt' remote) db := by
  refine Spares.read_bind reads_lockedReservation fun _ => ?_
  intro payment t hc
  obtain ⟨request, _, hr, hrest⟩ := commits_bind.mp hc
  obtain ⟨hrow, rfl⟩ := PaymentService.commits_lockedRequest.mp hr
  have hstale := h request hrow
  refine Spares.read_bind PaymentService.reads_lockedAttempt (fun _ => Spares.reject_bind fun _ =>
    Spares.get_bind ?_) payment t hrest
  split
  · refine Spares.check_bind fun _ _ => Spares.ite (fun _ => ?_) fun _ => ?_
    · exact Spares.bind (Spares.get_bind (Spares.ite (fun _ => Spares.pure) fun _ =>
        PaymentService.requestDocument_spares fun _ _ => rfl)) fun _ _ _ => Spares.pure
    · exact Spares.get_bind (Spares.reject_bind fun hn => absurd (Or.inl hstale) hn)
  · exact Spares.get_bind (Spares.reject_bind fun hn => absurd hstale hn)

def TaskCareful (db : Database) : Task → Prop
  | .save a u => Mild db a (u.apply db.clock a)
  | .recordProvider a _ => ∀ current q, db.paymentAttempts.find? a.id = some current →
      db.paymentRequests.find? current.paymentRequestId = some q →
        PaymentService.payable db q = true →
          ∀ b ∈ db.paymentAttempts.rows, b.paymentRequestId = q.id → live b = false
  | _ => True

theorem recordProvider_evolves {current : PaymentAttempt} {a : PaymentAttempt}
    (hcare : TaskCareful db (.recordProvider a remote))
    (hcur : db.paymentAttempts.find? a.id = some current) {p : Payment}
    (hc : Commits (PaymentService.recordProvider current remote) db p db') : Evolves db db' := by
  by_cases hpay : ∃ q, db.paymentRequests.find? current.paymentRequestId = some q ∧
      PaymentService.payable db q = true
  · obtain ⟨q, hq, hpay⟩ := hpay
    have hid : q.id = current.paymentRequestId := (Table.find?_eq_some.mp hq).2
    exact evolves_of_viewBesides (recordProvider_besides p db' hc) (hid ▸ hcare current q hcur hq hpay)
  · refine evolves_of_view (recordProvider_stale (fun q hq => ?_) p db' hc)
    by_contra hn
    exact hpay ⟨q, hq, by simpa using hn⟩

theorem work_evolves {t : Task} {rest tasks : List Task} (hcare : TaskCareful db t)
    (hc : Commits (work e t rest) db tasks db') : Evolves db db' := by
  by_cases hs : t.saves = true
  · cases t with
    | save a u =>
      obtain ⟨_, _, hg, hc⟩ := commits_bind.mp hc
      obtain ⟨rfl, rfl⟩ := commits_get.mp hg
      obtain ⟨_, _, hsave, hc⟩ := commits_bind.mp hc
      rw [← (commits_pure.mp hc).2]
      exact saveAttempt_evolves hcare hsave
    | mark a m =>
      obtain ⟨_, _, hsave, hc⟩ := commits_bind.mp hc
      rw [← (commits_pure.mp hc).2]
      exact saveAttempt_evolves (mild_of_state (Or.inr rfl)) hsave
    | _ => cases hs
  by_cases hp : t.pays = true
  · cases t with
    | recordProvider a remote =>
      obtain ⟨current, _, hf, hc⟩ := commits_bind.mp hc
      simp only [fresh, commits_bind, commits_get, commits_orFail] at hf
      obtain ⟨_, _, ⟨rfl, rfl⟩, hcur, rfl⟩ := hf
      obtain ⟨r, t, hrec, hc⟩ := commits_bind.mp hc
      have hrest : Evolves t db' := by
        refine evolves_of_view ?_
        split at hc
        · rw [(commits_pure.mp hc).2]
        · rw [(commits_pure.mp hc).2]
        · exact absurd hc commits_throw
      refine Evolves.trans ?_ hrest
      rcases commits_attempt.mp hrec with ⟨p, _, hrec⟩ | ⟨_, _, _, rfl⟩
      · exact recordProvider_evolves hcare hcur hrec
      · exact evolves_refl
    | _ => cases hp
  exact evolves_of_view (work_spares overlooks_view t rest (fun h => absurd h hs)
    (fun h => absurd h hp) tasks db' hc)

end Notifications

section Runs
variable {w w' : World} {a : Action} {k : Caller}

-- Whatever else happens leaves the attempts and the states of the requests as they are.
def Action.Honest (a : Action) (w : World) : Prop :=
  match a with
  | event (.elsewhere db) => db.paymentAttempts = w.db.paymentAttempts ∧
      ∀ i q, w.db.paymentRequests.find? i = some q →
        ∃ q', db.paymentRequests.find? i = some q' ∧ q'.state = q.state
  | _ => True

def Action.Careful (a : Action) (w : World) : Prop :=
  match a with
  | hosted c h => ∀ k, w.callers.find? c = some k →
      Mild w.db k.copy (CreateProviderCheckout.hosted h k.copy)
  | recover c m => ∀ k unsaved, w.callers.find? c = some k → k.stage = .broken unsaved →
      Mild w.db k.copy (CreateProviderCheckout.refused m unsaved)
  | event (.advance j) => ∀ k t rest, w.queue.jobs.find? j = some k → k.tasks = t :: rest →
      TaskCareful w.db t
  | a => a.Honest w

theorem store_evolves {new : PaymentAttempt} {after : Stage} (hm : Mild w.db k.copy new)
    (h : store w k new after = .ok w') : Evolves w.db w'.db := by
  unfold store at h
  split at h
  next u db hrun =>
    obtain rfl := Except.ok.inj h
    exact saveAttempt_evolves hm hrun
  · obtain rfl := Except.ok.inj h
    exact evolves_refl

theorem commit_evolves {α : Type} {x : Tx α}
    (hx : ∀ a db', Commits x w.db a db' → Evolves w.db db') (h : commit w x = .ok w') :
    Evolves w.db w'.db := by
  unfold commit at h
  split at h
  next a db hrun =>
    obtain rfl := Except.ok.inj h
    exact hx a db hrun
  · cases h

theorem call_evolves {x : Tx PaymentAttempt}
    (hx : ∀ a db', Commits x w.db a db' → Evolves w.db db') (h : call w x = .ok w') :
    Evolves w.db w'.db := by
  unfold call at h
  split at h
  · cases h
  next a db hrun =>
    split_ifs at h <;> obtain rfl := Except.ok.inj h
    · exact hx a db hrun
    · exact hx a db hrun

theorem onCaller_ok {c : ℕ} {f : Caller → Except Failure World} (h : onCaller w c f = .ok w') :
    ∃ k, w.callers.find? c = some k ∧ f k = .ok w' := by
  unfold onCaller at h
  split at h
  next k hk => exact ⟨k, hk, h⟩
  · cases h

theorem advance_evolves {q q' : Queue} {k : Job}
    (hcare : ∀ t rest, k.tasks = t :: rest → TaskCareful q.db t) (h : advance q k = .ok q') :
    Evolves q.db q'.db := by
  unfold advance at h
  split at h
  · cases h
  · obtain rfl := Except.ok.inj h
    exact evolves_of_view rfl
  next t rest _ htasks =>
    split at h
    next tasks db hrun =>
      obtain rfl := Except.ok.inj h
      exact work_evolves (hcare t rest htasks) hrun
    · obtain rfl := Except.ok.inj h
      exact evolves_refl

theorem event_evolves {b : ProcessProviderEvent.Action} {q : Queue}
    (hcare : Action.Careful (.event b) w) (h : ProcessProviderEvent.step w.queue b = .ok q) :
    Evolves w.db q.db := by
  have hjob : ∀ {j : ℕ} {f : Job → Except Failure Queue}, onJob w.queue j f = .ok q →
      ∃ k, w.queue.jobs.find? j = some k ∧ f k = .ok q := by
    intro j f h
    unfold onJob at h
    split at h
    next k hk => exact ⟨k, hk, h⟩
    · cases h
  cases b with
  | claim i =>
    have hclaim : ProcessProviderEvent.claim w.queue i = .ok q := h
    unfold ProcessProviderEvent.claim at hclaim
    split at hclaim
    · cases hclaim
    · split_ifs at hclaim <;> obtain rfl := Except.ok.inj hclaim
      · exact evolves_of_view rfl
      · exact evolves_refl
  | answer j r =>
    obtain ⟨k, _, h⟩ := hjob h
    split at h
    · obtain rfl := Except.ok.inj h
      exact evolves_refl
    · cases h
  | advance j =>
    have hrun : onJob w.queue j (advance w.queue) = .ok q := h
    obtain ⟨k, hk, hadv⟩ := hjob hrun
    exact advance_evolves (fun t rest => hcare k t rest hk) hadv
  | interrupt j m =>
    obtain ⟨k, _, h⟩ := hjob h
    split_ifs at h
    obtain rfl := Except.ok.inj h
    exact evolves_refl
  | crash j =>
    obtain ⟨k, _, h⟩ := hjob h
    split_ifs at h
    obtain rfl := Except.ok.inj h
    exact evolves_refl
  | exhaust j m =>
    obtain ⟨k, _, h⟩ := hjob h
    split_ifs at h
    obtain rfl := Except.ok.inj h
    exact evolves_of_view rfl
  | wait seconds =>
    obtain rfl := Except.ok.inj h
    exact evolves_of_view rfl
  | elsewhere db =>
    obtain rfl := Except.ok.inj h
    refine evolves_of_requests hcare.1 fun a _ _ hq => ?_
    obtain ⟨p, hp, hacc⟩ := hq
    obtain ⟨p', hp', hstate⟩ := hcare.2 _ p hp
    exact ⟨p', hp', by rw [accepting, hstate]; exact hacc⟩

theorem step_evolves (hcare : a.Careful w) (h : step w a = .ok w') : Evolves w.db w'.db := by
  cases a with
  | call i c accepted rateId reference key =>
    have hcall : call w (attemptFor i c accepted rateId reference key) = .ok w' := h
    exact call_evolves (fun _ _ hc => attemptFor_evolves hc) hcall
  | hosted c checkout =>
    obtain ⟨k, hk, h⟩ := onCaller_ok h
    split at h
    · exact store_evolves (hcare k hk) h
    · cases h
  | interrupted c checkout =>
    obtain ⟨k, hk, h⟩ := onCaller_ok h
    split at h
    · obtain rfl := Except.ok.inj h
      exact evolves_refl
    · cases h
  | refused c m =>
    obtain ⟨k, hk, h⟩ := onCaller_ok h
    split at h
    · refine store_evolves ?_ h
      exact mild_of_state (Or.inl rfl)
    · cases h
  | recover c m =>
    obtain ⟨k, hk, h⟩ := onCaller_ok h
    split at h
    next unsaved hstage => exact store_evolves (hcare k unsaved hk hstage) h
    · cases h
  | crash c =>
    obtain ⟨k, hk, h⟩ := onCaller_ok h
    obtain rfl := Except.ok.inj h
    exact evolves_refl
  | revoke q reason actorId superseded =>
    have hrevoke : commit w (RevokeOrSupersedePaymentRequest.handle q reason actorId superseded) =
      .ok w' := h
    exact commit_evolves (fun _ _ hc => revoke_evolves hc) hrevoke
  | resolve token =>
    have hresolve : commit w (ResolvePaymentRequest.handle token) = .ok w' := h
    exact commit_evolves (fun _ _ hc => resolve_evolves hc) hresolve
  | event b =>
    simp only [step] at h
    split at h
    next q hq =>
      obtain rfl := Except.ok.inj h
      exact event_evolves hcare hq
    · cases h

theorem commits_act {u : Unit} : Commits (act a) w u w' ↔ step w a = .ok w' := by
  simp only [Commits, act, StateT.run]
  cases step w a <;> simp

theorem run_evolves (h : Reaches act Action.Careful w w') : Evolves w.db w'.db :=
  h.invariant (I := fun u => Evolves w.db u.db) evolves_refl fun _ _ _ hu hcare hc =>
    hu.trans (step_evolves hcare (commits_act.mp hc))

-- An attempt that was expired or approved has no checkout again.
def StaysClosed (w w' : World) : Prop :=
  ∀ i a, w.db.paymentAttempts.find? i = some a → a.state = .expired ∨ a.state = .approved →
    ∃ a', w'.db.paymentAttempts.find? i = some a' ∧ a'.state ≠ .checkoutReady

theorem careful_runs_keep_one_checkout {db : Database} (ho : Orderly db)
    (h : Reaches act Action.Careful { queue := { db := db } } w) (h' : Reaches act Action.Careful w w') :
    Orderly w.db ∧ StaysClosed w w' := by
  refine ⟨(run_evolves h).orderly ho, fun i a ha hs => ?_⟩
  have hnot : starting a = false := by rcases hs with hs | hs <;> simp [starting, hs]
  obtain ⟨a', ha', hstart⟩ := (run_evolves h').kept i a ha hnot
  refine ⟨a', ha', fun hready => ?_⟩
  rw [starting, hready] at hstart
  cases hstart

end Runs

section Scenario
variable {w w' : World}

def account : CheckoutConnection where
  id := 0
  propertyId := none
  type := "payment"
  provider := "mercado_pago"
  product := "checkout_pro"
  environment := some .production
  externalAccountId := "lodge-account"
  isEnabled := true
  revokedAt := none
  secretReference := some "vault:mercado-pago"
  chargeCurrency := some "usd"
  hostedCheckoutEnabled := true

def balanceRequest (i : ℕ) : PaymentRequest where
  id := i
  propertyId := 0
  reservationId := 0
  state := .opened
  sourceAmountMinor := 10000
  sourceCurrency := "USD"
  expiresAt := 7200
  accessTokenHash := "guest-link"

def requested : Database :=
  { LedgerRuns.opening with paymentRequests := Table.empty.insert balanceRequest }

def page (expiresAt : Option ℤ) : HostedCheckout := ⟨"pref-0", "pay-here", expiresAt⟩

theorem requested_orderly : Orderly requested :=
  ⟨fun _ ha => absurd ha List.not_mem_nil, fun _ ha => absurd ha List.not_mem_nil⟩

def mildly (db : Database) (old new : PaymentAttempt) : Bool :=
  (db.paymentAttempts.find? old.id).all fun row =>
    (!starting (written old new row) || starting row) && (!live (written old new row) || live row)

def carefully (a : Action) (w : World) : Bool :=
  match a with
  | .hosted c h => (w.callers.find? c).all fun k =>
      mildly w.db k.copy (CreateProviderCheckout.hosted h k.copy)
  | .recover _ _ | .event (.advance _) | .event (.elsewhere _) => false
  | _ => true

theorem mild_of_mildly {db : Database} {old new : PaymentAttempt} (h : mildly db old new = true) :
    Mild db old new := by
  intro row hrow
  simp only [mildly, hrow, Option.all_some, Bool.and_eq_true, Bool.or_eq_true,
    Bool.not_eq_true'] at h
  refine ⟨fun hs => h.1.resolve_left (by simp [hs]), fun hl => Or.inl (h.2.resolve_left (by simp [hl]))⟩

theorem careful_of_carefully (a : Action) (w : World) (h : carefully a w = true) : a.Careful w := by
  cases a with
  | hosted c page =>
    intro k hk
    simp only [carefully, hk, Option.all_some] at h
    exact mild_of_mildly h
  | recover c m => cases h
  | event b =>
    cases b with
    | advance j => cases h
    | elsewhere db => cases h
    | _ => trivial
  | _ => trivial

def honestly (a : Action) (_ : World) : Bool :=
  match a with
  | .event (.elsewhere _) => false
  | _ => true

theorem honest_of_honestly (a : Action) (w : World) (h : honestly a w = true) : a.Honest w := by
  cases a with
  | event b =>
    cases b with
    | elsewhere db => cases h
    | _ => trivial
  | _ => trivial

def attemptState (w : World) (i : ℕ) : Option PaymentAttemptState :=
  (w.db.paymentAttempts.find? i).map PaymentAttempt.state

-- The first checkout runs out, the second one is revoked with its request.
theorem expired_checkout_makes_room : ∃ w w', attemptState w 0 = some .expired ∧
    attemptState w 1 = some .checkoutReady ∧ attemptState w' 1 = some .expired ∧
      Orderly w.db ∧ StaysClosed w w' := by
  obtain ⟨w, w', hw, hw', hp⟩ : ∃ w w', Reaches act Action.Careful { queue := { db := requested } } w ∧
      Reaches act Action.Careful w w' ∧ (decide (attemptState w 0 = some .expired) &&
        decide (attemptState w 1 = some .checkoutReady) &&
          decide (attemptState w' 1 = some .expired)) = true :=
    Reaches.exists_of_two_runs carefully careful_of_carefully
      [.call 0 account false none "ref-0" "key-0", .hosted 0 (page (some 900)), .event (.wait 1800),
        .call 0 account false none "ref-1" "key-1", .hosted 1 (page none)]
      [.revoke (balanceRequest 0) "Guest paid in cash." none false] (by decide)
  simp only [Bool.and_eq_true, decide_eq_true_eq] at hp
  obtain ⟨horder, hclosed⟩ := careful_runs_keep_one_checkout requested_orderly hw hw'
  exact ⟨w, w', hp.1.1, hp.1.2, hp.2, horder, hclosed⟩

-- The request is revoked while the gateway makes the checkout, which is then stored as ready.
theorem late_checkout_revives_attempt : Orderly requested ∧
    ∃ w w', Reaches act Action.Honest { queue := { db := requested } } w ∧
      Reaches act Action.Honest w w' ∧ ¬ Orderly w'.db ∧ ¬ StaysClosed w w' := by
  obtain ⟨w, w', hw, hw', hp⟩ : ∃ w w', Reaches act Action.Honest { queue := { db := requested } } w ∧
      Reaches act Action.Honest w w' ∧ (decide (attemptState w 0 = some .expired) &&
        (w'.db.paymentAttempts.find? 0).any fun a => a.state == .checkoutReady &&
          (w'.db.paymentRequests.find? a.paymentRequestId).any fun q => !accepting q) = true :=
    Reaches.exists_of_two_runs honestly honest_of_honestly
      [.call 0 account false none "ref-0" "key-0",
        .revoke (balanceRequest 0) "Guest paid in cash." none false]
      [.hosted 0 (page none)] (by decide)
  simp only [Bool.and_eq_true, decide_eq_true_eq, Option.any_eq_true, beq_iff_eq,
    Bool.not_eq_true'] at hp
  obtain ⟨hexp, a, ha, hready, q, hq, hnot⟩ := hp
  refine ⟨requested_orderly, w, w', hw, hw', fun ho => ?_, fun hs => ?_⟩
  · obtain ⟨q', hq', hacc⟩ := ho.payable a (Table.find?_eq_some.mp ha).1 (by simp [live, hready])
    rw [hq] at hq'
    rw [← Option.some.inj hq', hnot] at hacc
    cases hacc
  · obtain ⟨a₀, ha₀, hst⟩ := Option.map_eq_some_iff.mp hexp
    obtain ⟨a', ha', hne⟩ := hs 0 a₀ ha₀ (Or.inl hst)
    exact hne ((Option.some.inj (ha'.symm.trans ha)) ▸ hready)

end Scenario
end CreateProviderCheckout
