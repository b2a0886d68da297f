import LodgeOps.Payments.ProviderEvents
import LodgeOps.Ledger.LedgerRuns

namespace ProcessProviderEvent
open Schema Transaction

section Frames
variable {db : Database} {e : ProviderEvent} {a n : PaymentAttempt} {i : ℕ}

theorem overlooks_events : Overlooks Database.providerEvents where
  reconciler :=
    { orders := fun _ _ _ => rfl
      reservations := fun _ _ => rfl
      requests := fun _ _ _ => rfl
      stay := fun _ _ h => (congrArg Database.providerEvents h :)
      documents := fun _ _ => rfl
      tasks := fun _ _ => rfl }
  disputes := ⟨fun _ _ => rfl, fun _ _ => rfl, fun _ _ => rfl⟩
  payments _ _ := rfl
  entries _ _ := rfl
  revisions _ _ := rfl

theorem saveAttempt_events : Spares Database.providerEvents (saveAttempt a n) db := by
  refine Spares.get_bind ?_
  split
  · exact Spares.pure
  · exact Spares.reject_bind fun _ => Spares.set rfl

theorem recordProvider_events {remote : ProviderPayment} :
    Spares Database.providerEvents (PaymentService.recordProvider a remote) db :=
  PaymentService.recordProvider_spares
    ⟨fun _ _ => rfl, fun _ _ => rfl, fun _ _ => rfl, fun _ _ => rfl, fun _ _ _ => rfl⟩

-- No task of a worker writes an event; only its claim and its outcome do.
theorem work_events (t : Task) (rest : List Task) :
    Spares Database.providerEvents (work e t rest) db :=
  work_spares overlooks_events t rest (fun _ _ _ _ => saveAttempt_events)
    fun _ _ _ _ => recordProvider_events

end Frames

section Claims
variable {w w' : Queue} {k : Job} {a : Action} {i j : ℕ} {e : ProviderEvent}

def Job.Active (k : Job) : Prop := k.tasks ≠ [] ∨ k.raised = true

-- No other worker has claimed the event since this one did.
def HoldsClaim (w : Queue) (k : Job) : Prop :=
  ∀ e, w.db.providerEvents.find? k.event.id = some e → e.attemptCount = k.event.attemptCount

def concludes : List Task → Bool
  | .conclude _ _ :: _ => true
  | _ => false

-- Whatever else happens does not touch the events that are there.
def Action.Honest (a : Action) (w : Queue) : Prop :=
  match a with
  | elsewhere db => ∀ i e, w.db.providerEvents.find? i = some e → db.providerEvents.find? i = some e
  | _ => True

def Action.Fenced (a : Action) (w : Queue) : Prop :=
  match a with
  | advance j => ∀ k, w.jobs.find? j = some k → concludes k.tasks = true → HoldsClaim w k
  | exhaust j _ => ∀ k, w.jobs.find? j = some k → HoldsClaim w k
  | a => a.Honest w

structure Sound (w : Queue) : Prop where
  copies : ∀ k ∈ w.jobs.rows, k.event.processingState = .processing
  known : ∀ k ∈ w.jobs.rows, ∃ e, w.db.providerEvents.find? k.event.id = some e ∧
    k.event.attemptCount ≤ e.attemptCount
  distinct : ∀ k ∈ w.jobs.rows, ∀ k' ∈ w.jobs.rows, k.Active → k'.Active →
    k.event.id = k'.event.id → k.event.attemptCount = k'.event.attemptCount → k = k'
  rested : ∀ k ∈ w.jobs.rows, k.Active → ∀ e, w.db.providerEvents.find? k.event.id = some e →
    absorbing e.processingState = true → k.event.attemptCount ≠ e.attemptCount

def Absorbs (w w' : Queue) : Prop :=
  ∀ i e, w.db.providerEvents.find? i = some e → absorbing e.processingState = true →
    ∃ e', w'.db.providerEvents.find? i = some e' ∧ e'.processingState = e.processingState

theorem absorbs_refl : Absorbs w w := fun _ e he _ => ⟨e, he, rfl⟩

theorem Absorbs.trans {u : Queue} (h : Absorbs w u) (h' : Absorbs u w') : Absorbs w w' := by
  intro i e he hs
  obtain ⟨e₁, he₁, hst⟩ := h i e he hs
  obtain ⟨e₂, he₂, hst₂⟩ := h' i e₁ he₁ (hst ▸ hs)
  exact ⟨e₂, he₂, hst₂.trans hst⟩

theorem absorbs_of_eq (h : w'.db.providerEvents = w.db.providerEvents) : Absorbs w w' :=
  fun _ e he _ => ⟨e, h ▸ he, rfl⟩

theorem sound_start {db : Database} : Sound { db := db } :=
  ⟨fun _ hk => absurd hk List.not_mem_nil, fun _ hk => absurd hk List.not_mem_nil,
    fun _ hk => absurd hk List.not_mem_nil, fun _ hk => absurd hk List.not_mem_nil⟩

theorem mem_assign {tasks : List Task} {raised : Bool} (h : k ∈ (assign w j tasks raised).jobs.rows) :
    ∃ k' ∈ w.jobs.rows, k'.id = k.id ∧ k'.event = k.event ∧
      ((k.id ≠ j ∧ k = k') ∨ (k.id = j ∧ k.tasks = tasks ∧ k.raised = raised)) := by
  rcases (Table.mem_update).mp h with ⟨hk, hne⟩ | ⟨k', hk', hj, rfl⟩
  · exact ⟨k, hk, rfl, rfl, Or.inl ⟨hne, rfl⟩⟩
  · exact ⟨k', hk', rfl, rfl, Or.inr ⟨hj, rfl, rfl⟩⟩

-- A worker that is still active goes on to other tasks; the events are what they were.
theorem sound_assign {db : Database} {tasks : List Task} {raised : Bool} (hs : Sound w)
    (hk : k ∈ w.jobs.rows) (ha : k.Active)
    (hdb : ∀ i e, w.db.providerEvents.find? i = some e → db.providerEvents.find? i = some e) :
    Sound (assign { w with db := db } k.id tasks raised) := by
  have hactive : ∀ x ∈ (assign { w with db := db } k.id tasks raised).jobs.rows, x.Active →
      ∃ y ∈ w.jobs.rows, y.Active ∧ y.id = x.id ∧ y.event = x.event := by
    intro x hx hxa
    obtain ⟨y, hy, hid, hev, hcase⟩ := mem_assign hx
    rcases hcase with ⟨_, rfl⟩ | ⟨hxk, _⟩
    · exact ⟨x, hy, hxa, rfl, rfl⟩
    · obtain rfl : y = k := Table.eq_of_id hy hk (hid.trans hxk)
      exact ⟨y, hy, ha, hid, hev⟩
  refine ⟨fun x hx => ?_, fun x hx => ?_, fun x hx y hy hxa hya hid hn => ?_,
    fun x hx hxa e he hab => ?_⟩
  · obtain ⟨y, hy, _, hev, _⟩ := mem_assign hx
    exact hev ▸ hs.copies y hy
  · obtain ⟨y, hy, _, hev, _⟩ := mem_assign hx
    obtain ⟨e, he, hle⟩ := hs.known y hy
    exact ⟨e, hdb _ _ (hev ▸ he), hev ▸ hle⟩
  · obtain ⟨x', hx', hxa', hxi, hxe⟩ := hactive x hx hxa
    obtain ⟨y', hy', hya', hyi, hye⟩ := hactive y hy hya
    have hsame := hs.distinct x' hx' y' hy' hxa' hya' (hxe ▸ hye ▸ hid) (hxe ▸ hye ▸ hn)
    exact Table.eq_of_id hx hy (hxi.symm.trans ((congrArg Job.id hsame).trans hyi))
  · obtain ⟨y, hy, hya, _, hev⟩ := hactive x hx hxa
    obtain ⟨e', he', _⟩ := hs.known y hy
    obtain rfl : e' = e := Option.some.inj ((hdb _ _ he').symm.trans (hev ▸ he))
    exact hev ▸ hs.rested y hy hya e' he' hab

theorem find?_writeEvent {f : ProviderEvent → ProviderEvent} {hf : Keeps f} :
    (writeEvent w i f hf).db.providerEvents.find? j =
      if j = i then (w.db.providerEvents.find? j).map f else w.db.providerEvents.find? j := by
  simp only [writeEvent]
  rw [Table.find?_update hf]

-- The outcome of a worker that still holds its claim, which leaves the event to nobody else.
theorem outcome {f : ProviderEvent → ProviderEvent} {hf : Keeps f} {raised : Bool} (hs : Sound w)
    (hk : k ∈ w.jobs.rows) (ha : k.Active) (hh : HoldsClaim w k)
    (hcount : ∀ e, (f e).attemptCount = e.attemptCount)
    (hraised : ∀ e, absorbing (f e).processingState = true → raised = false) :
    Sound (assign (writeEvent w k.event.id f hf) k.id [] raised) ∧
      Absorbs w (assign (writeEvent w k.event.id f hf) k.id [] raised) := by
  have hactive : ∀ x ∈ (assign (writeEvent w k.event.id f hf) k.id [] raised).jobs.rows, x.Active →
      (x ∈ w.jobs.rows ∧ x.id ≠ k.id) ∨ (x.id = k.id ∧ x.event = k.event ∧ raised = true) := by
    intro x hx hxa
    obtain ⟨y, hy, hid, hev, hcase⟩ := mem_assign hx
    rcases hcase with ⟨hne, rfl⟩ | ⟨hxk, htasks, hxr⟩
    · exact Or.inl ⟨hy, hne⟩
    · obtain rfl : y = k := Table.eq_of_id hy hk (hid.trans hxk)
      rcases hxa with hxa | hxa
      · exact absurd htasks hxa
      · exact Or.inr ⟨hxk, hev.symm, hxr.symm.trans hxa⟩
  refine ⟨⟨fun x hx => ?_, fun x hx => ?_, fun x hx y hy hxa hya hid hn => ?_,
    fun x hx hxa e he hab => ?_⟩, fun i e he hab => ?_⟩
  · obtain ⟨y, hy, _, hev, _⟩ := mem_assign hx
    exact hev ▸ hs.copies y hy
  · obtain ⟨y, hy, _, hev, _⟩ := mem_assign hx
    obtain ⟨e, he, hle⟩ := hs.known y hy
    rw [← hev]
    by_cases hi : y.event.id = k.event.id
    · exact ⟨f e, by rw [assign, find?_writeEvent, if_pos hi, he]; rfl, (hcount e).symm ▸ hle⟩
    · exact ⟨e, by rw [assign, find?_writeEvent, if_neg hi, he], hle⟩
  · rcases hactive x hx hxa with ⟨hxm, hxk⟩ | ⟨hxk, hxe, _⟩
    · rcases hactive y hy hya with ⟨hym, _⟩ | ⟨_, hye, _⟩
      · exact hs.distinct x hxm y hym hxa hya hid hn
      · have hsame := hs.distinct x hxm k hk hxa ha (hye ▸ hid) (hye ▸ hn)
        exact absurd (congrArg Job.id hsame) hxk
    · rcases hactive y hy hya with ⟨hym, hyk⟩ | ⟨hyk, _, _⟩
      · have hsame := hs.distinct k hk y hym ha hya (hxe ▸ hid) (hxe ▸ hn)
        exact absurd (congrArg Job.id hsame).symm hyk
      · exact Table.eq_of_id hx hy (hxk.trans hyk.symm)
  · rw [assign, find?_writeEvent] at he
    split_ifs at he with hi
    · obtain ⟨e₀, he₀, rfl⟩ := Option.map_eq_some_iff.mp he
      rw [hcount]
      rcases hactive x hx hxa with ⟨hxm, hxk⟩ | ⟨_, _, hr⟩
      · intro hn
        have hcurrent := hh e₀ (hi ▸ he₀)
        have hsame := hs.distinct x hxm k hk hxa ha hi (hn.trans hcurrent)
        exact hxk (congrArg Job.id hsame)
      · rw [hraised e₀ hab] at hr
        cases hr
    · rcases hactive x hx hxa with ⟨hxm, _⟩ | ⟨_, hxe, _⟩
      · exact hs.rested x hxm hxa e he hab
      · exact absurd (congrArg ProviderEvent.id hxe) hi
  · by_cases hi : i = k.event.id
    · subst hi
      exact absurd (hh e he).symm (hs.rested k hk ha e he hab)
    · exact ⟨e, by rw [assign, find?_writeEvent, if_neg hi, he], rfl⟩

theorem claimable_of_absorbing {now : ℤ} (h : absorbing e.processingState = true) :
    claimable now e = false := by
  cases hst : e.processingState <;> simp_all [absorbing, claimable]

theorem claim_step (hs : Sound w) (h : claim w i = .ok w') : Sound w' ∧ Absorbs w w' := by
  unfold claim at h
  split at h
  · cases h
  next e he =>
    split_ifs at h with hc
    · obtain rfl := Except.ok.inj h
      have hnot : absorbing e.processingState = false := by
        by_contra hn
        rw [claimable_of_absorbing (Bool.not_eq_false _ ▸ hn)] at hc
        cases hc
      have hnew : (claimed w.db.clock e).attemptCount = e.attemptCount + 1 := rfl
      have hid : e.id = i := (Table.find?_eq_some.mp he).2
      refine ⟨⟨fun x hx => ?_, fun x hx => ?_, fun x hx y hy hxa hya hxy hn => ?_,
        fun x hx hxa e' he' hab => ?_⟩, fun j e' he' hab => ?_⟩
      · rcases (Table.mem_insert).mp hx with hx | rfl
        · exact hs.copies x hx
        · rfl
      · rcases (Table.mem_insert).mp hx with hx | rfl
        · obtain ⟨e', he', hle⟩ := hs.known x hx
          by_cases hxi : x.event.id = i
          · obtain rfl : e' = e := Option.some.inj ((hxi ▸ he').symm.trans he)
            exact ⟨claimed w.db.clock e', by rw [find?_writeEvent, if_pos hxi, he']; rfl,
              hle.trans (Nat.le_succ _)⟩
          · exact ⟨e', by rw [find?_writeEvent, if_neg hxi, he'], hle⟩
        · refine ⟨claimed w.db.clock e, ?_, le_rfl⟩
          have hce : (claimed w.db.clock e).id = i := hid
          rw [find?_writeEvent, if_pos hce, hce, he]
          rfl
      · have hold : ∀ z ∈ w.jobs.rows, z.event.id = e.id →
            z.event.attemptCount ≠ e.attemptCount + 1 := by
          intro z hz hze
          obtain ⟨e', he', hle⟩ := hs.known z hz
          obtain rfl : e' = e := Option.some.inj ((hid ▸ hze ▸ he').symm.trans he)
          exact (Nat.lt_succ_of_le hle).ne
        rcases (Table.mem_insert).mp hx with hx | rfl
        · rcases (Table.mem_insert).mp hy with hy | rfl
          · exact hs.distinct x hx y hy hxa hya hxy hn
          · exact absurd hn (hold x hx hxy)
        · rcases (Table.mem_insert).mp hy with hy | rfl
          · exact absurd hn.symm (hold y hy hxy.symm)
          · rfl
      · rw [find?_writeEvent] at he'
        split_ifs at he' with hxi
        · obtain ⟨e₀, _, rfl⟩ := Option.map_eq_some_iff.mp he'
          cases hab
        · rcases (Table.mem_insert).mp hx with hx | rfl
          · exact hs.rested x hx hxa e' he' hab
          · exact absurd hid hxi
      · by_cases hj : j = i
        · subst hj
          obtain rfl : e' = e := Option.some.inj (he'.symm.trans he)
          rw [hnot] at hab
          cases hab
        · exact ⟨e', by rw [find?_writeEvent, if_neg hj, he'], rfl⟩
    · obtain rfl := Except.ok.inj h
      exact ⟨hs, absorbs_refl⟩

theorem advance_step (hs : Sound w) (hk : k ∈ w.jobs.rows)
    (hf : concludes k.tasks = true → HoldsClaim w k) (h : advance w k = .ok w') :
    Sound w' ∧ Absorbs w w' := by
  unfold advance at h
  split at h
  · cases h
  next s m _ htasks =>
    obtain rfl := Except.ok.inj h
    refine outcome hs hk (Or.inl (by simp [htasks])) (hf (by simp [htasks, concludes]))
      (fun _ => rfl) fun e hab => ?_
    by_contra hr
    obtain rfl : s = .failed := by simpa using hr
    rw [concluded, changed, if_neg (by simp [hs.copies k hk])] at hab
    cases hab
  next t rest _ htasks =>
    have ha : k.Active := Or.inl (by simp [htasks])
    split at h
    next tasks db hrun =>
      obtain rfl := Except.ok.inj h
      have heq : db.providerEvents = w.db.providerEvents := work_events t rest _ _ hrun
      exact ⟨sound_assign hs hk ha fun _ _ he => heq ▸ he, absorbs_of_eq heq⟩
    · obtain rfl := Except.ok.inj h
      exact ⟨sound_assign hs hk ha fun _ _ he => he, absorbs_refl⟩

theorem step_sound (hs : Sound w) (hf : a.Fenced w) (h : step w a = .ok w') :
    Sound w' ∧ Absorbs w w' := by
  have hjob : ∀ {j : ℕ} {f : Job → Except Failure Queue}, onJob w j f = .ok w' →
      ∃ k, w.jobs.find? j = some k ∧ k ∈ w.jobs.rows ∧ k.id = j ∧ f k = .ok w' := by
    intro j f h
    unfold onJob at h
    split at h
    next k hk =>
      obtain ⟨hmem, hid⟩ := Table.find?_eq_some.mp hk
      exact ⟨k, hk, hmem, hid, h⟩
    · cases h
  cases a with
  | claim i => exact claim_step hs h
  | answer j r =>
    obtain ⟨k, _, hmem, rfl, h⟩ := hjob h
    split at h
    next tasks hr =>
      obtain rfl := Except.ok.inj h
      have ha : k.Active := Or.inl fun hnil => by
        rw [hnil] at hr
        cases r <;> cases hr
      exact ⟨sound_assign hs hmem ha fun _ _ he => he, absorbs_refl⟩
    · cases h
  | advance j =>
    have hrun : onJob w j (advance w) = .ok w' := h
    obtain ⟨k, hk, hmem, _, hk'⟩ := hjob hrun
    exact advance_step hs hmem (hf k hk) hk'
  | interrupt j m =>
    obtain ⟨k, _, hmem, rfl, h⟩ := hjob h
    split_ifs at h with hnil
    obtain rfl := Except.ok.inj h
    exact ⟨sound_assign hs hmem (Or.inl (by simpa using hnil)) fun _ _ he => he, absorbs_refl⟩
  | crash j =>
    obtain ⟨k, _, hmem, rfl, h⟩ := hjob h
    split_ifs at h with hnil
    obtain rfl := Except.ok.inj h
    exact ⟨sound_assign hs hmem (Or.inl (by simpa using hnil)) fun _ _ he => he, absorbs_refl⟩
  | exhaust j m =>
    obtain ⟨k, hk, hmem, rfl, h⟩ := hjob h
    split_ifs at h with hr
    obtain rfl := Except.ok.inj h
    exact outcome hs hmem (Or.inr hr) (hf k hk) (fun _ => rfl) fun _ hab => by cases hab
  | wait seconds =>
    obtain rfl := Except.ok.inj h
    exact ⟨⟨hs.copies, hs.known, hs.distinct, hs.rested⟩, absorbs_refl⟩
  | elsewhere db =>
    obtain rfl := Except.ok.inj h
    refine ⟨⟨hs.copies, fun k hk => ?_, hs.distinct, fun k hk ha e he hab => ?_⟩,
      fun i e he _ => ⟨e, hf i e he, rfl⟩⟩
    · obtain ⟨e, he, hle⟩ := hs.known k hk
      exact ⟨e, hf _ e he, hle⟩
    · obtain ⟨e', he', _⟩ := hs.known k hk
      obtain rfl : e' = e := Option.some.inj ((hf _ e' he').symm.trans he)
      exact hs.rested k hk ha e' he' hab

theorem commits_act {u : Unit} : Commits (act a) w u w' ↔ step w a = .ok w' := by
  simp only [Commits, act, StateT.run]
  cases step w a <;> simp

theorem terminal_events_absorb {db : Database} (h : Reaches act Action.Fenced { db := db } w)
    (h' : Reaches act Action.Fenced w w') : Absorbs w w' := by
  have hs : Sound w := h.invariant sound_start fun _ _ _ hs hf hc =>
    (step_sound hs hf (commits_act.mp hc)).1
  refine (h'.invariant (I := fun u => Sound u ∧ Absorbs w u) ⟨hs, absorbs_refl⟩
    fun a u v ⟨hu, habs⟩ hf hc => ?_).2
  have hstep := step_sound hu hf (commits_act.mp hc)
  exact ⟨hstep.1, habs.trans hstep.2⟩

end Claims

section Scenario

def checkout (i : ℕ) : PaymentAttempt where
  id := i
  propertyId := 0
  reservationId := 0
  paymentRequestId := 0
  integrationConnectionId := 0
  provider := "mercado_pago"
  environment := .production
  providerAccount := "lodge-account"
  externalReference := "attempt-0"
  state := .checkoutReady
  sourceAmountMinor := 10000
  sourceCurrency := "USD"
  chargeAmountMinor := 10000
  chargeCurrency := "USD"

def notification (i : ℕ) : ProviderEvent where
  id := i
  integrationConnectionId := 0
  provider := "mercado_pago"
  environment := .production
  providerAccount := "lodge-account"
  resourceId := "pay-0"
  topic := "payment"
  processingState := .received

def pendingPayment : ProviderPayment where
  id := "pay-0"
  externalReference := "attempt-0"
  status := "in_process"
  amountMinor := 10000
  currency := "USD"
  providerAccount := "lodge-account"

def notified : Database :=
  { LedgerRuns.opening with
    paymentAttempts := Table.empty.insert checkout
    providerEvents := Table.empty.insert notification }

def fencedly (a : Action) (w : Queue) : Bool :=
  match a with
  | .advance j | .exhaust j _ => (w.jobs.find? j).all fun k =>
    (w.db.providerEvents.find? k.event.id).all fun e => e.attemptCount == k.event.attemptCount
  | .elsewhere _ => false
  | _ => true

theorem holdsClaim_of_all {w : Queue} {k : Job} {j : ℕ} (hk : w.jobs.find? j = some k)
    (h : ((w.jobs.find? j).all fun k => (w.db.providerEvents.find? k.event.id).all
      fun e => e.attemptCount == k.event.attemptCount) = true) : HoldsClaim w k := by
  intro e he
  simpa [hk, he] using h

theorem fenced_of_fencedly (a : Action) (w : Queue) (h : fencedly a w = true) : a.Fenced w := by
  cases a with
  | advance j => exact fun k hk _ => holdsClaim_of_all hk h
  | exhaust j m => exact fun k hk => holdsClaim_of_all hk h
  | elsewhere db => cases h
  | _ => trivial

def plainly (a : Action) (_ : Queue) : Bool :=
  match a with
  | .elsewhere _ => false
  | _ => true

theorem honest_of_plainly (a : Action) (w : Queue) (h : plainly a w = true) : a.Honest w := by
  cases a with
  | elsewhere db => cases h
  | _ => trivial

def stateOf (w : Queue) (i : ℕ) : Option ProviderEventState :=
  (w.db.providerEvents.find? i).map ProviderEvent.processingState

-- The second worker reclaims the event, settles it, and the event does not move any more.
theorem reclaimed_event_is_settled_once : ∃ w w', stateOf w 0 = some .processed ∧
    w.db.clock < w'.db.clock ∧ Absorbs w w' := by
  obtain ⟨w, w', hw, hw', hp⟩ : ∃ w w', Reaches act Action.Fenced { db := notified } w ∧
      Reaches act Action.Fenced w w' ∧
      (decide (stateOf w 0 = some .processed) && decide (w.db.clock < w'.db.clock)) = true :=
    Reaches.exists_of_two_runs fencedly fenced_of_fencedly
      [.claim 0, .wait 90, .claim 0, .answer 1 (.payment pendingPayment), .advance 1, .advance 1,
        .advance 1]
      [.interrupt 0 "Timed out.", .wait 90, .claim 0, .crash 0] (by decide)
  simp only [Bool.and_eq_true, decide_eq_true_eq] at hp
  exact ⟨w, w', hp.1, hp.2, terminal_events_absorb hw hw'⟩

-- The first worker's gateway call times out after the second one has settled the event.
theorem late_failure_reopens_event : ∃ w w', Reaches act Action.Honest { db := notified } w ∧
    Reaches act Action.Honest w w' ∧ ¬ Absorbs w w' := by
  obtain ⟨w, w', hw, hw', hp⟩ : ∃ w w', Reaches act Action.Honest { db := notified } w ∧
      Reaches act Action.Honest w w' ∧
      (decide (stateOf w 0 = some .processed) && decide (stateOf w' 0 = some .failed)) = true :=
    Reaches.exists_of_two_runs plainly honest_of_plainly
      [.claim 0, .wait 90, .claim 0, .answer 1 (.payment pendingPayment), .advance 1, .advance 1,
        .advance 1]
      [.interrupt 0 "Timed out.", .advance 0] (by decide)
  simp only [Bool.and_eq_true, decide_eq_true_eq] at hp
  refine ⟨w, w', hw, hw', fun h => ?_⟩
  obtain ⟨e, he, hst⟩ := Option.map_eq_some_iff.mp hp.1
  obtain ⟨e', he', hsame⟩ := h 0 e he (by rw [hst]; rfl)
  have hlate := hp.2
  rw [stateOf, he', Option.map_some, hsame, hst] at hlate
  cases hlate

end Scenario
end ProcessProviderEvent
