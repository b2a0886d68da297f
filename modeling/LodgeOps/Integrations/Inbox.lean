import LodgeOps.Integrations.Webhooks

open CanonicalJson (Value)
open AutomationContext (field scalar?)

namespace IntegrationEventService
open Schema Transaction IntegrationConnectionService
open StandardWebhookVerifier (Headers)

section Conditions

-- The account that a body was signed for is another than the connection's.
def Delivery.Foreign (d : Delivery) : Prop :=
  d.accountId ≠ .null ∧ scalar? d.accountId ≠ some d.externalAccountId

def Foreign (s : Inbox) (i : ℕ) : Prop := ∃ r ∈ s.receipts, r.eventId = i ∧ r.delivery.Foreign

def Processed (s : Inbox) (i : ℕ) : Prop :=
  ∃ e, s.kernel.events.find? i = some e ∧ e.disposition = .processed

-- An account that the check of a delivery looks at, or one that it need not look at.
def Legible (external : String) (account : Value) : Prop :=
  account = .null ∨ (∃ a, account = .str a ∧ a ≠ "") ∨ scalar? account = some external

def Trusted (p : WebhookPlatform) (op : Operation) (s : Inbox) : Prop :=
  match op with
  | .receive endpointKey rawBody _ => ∀ endpoint payload, endpoint? s endpointKey = some endpoint →
      p.jsonDecode rawBody = .ok payload →
      Legible endpoint.2.externalAccountId (field payload "account_id")
  | .replay eventId _ _ => ¬ Foreign s eventId
  | _ => True

def On (s : Inbox) (i : ℕ) : Prop := ∀ e c, s.kernel.events.find? i = some e →
  s.kernel.connections.find? e.connectionId = some c → c.off = false

-- No late worker and no failure callback writes over a processed event.
def Spared (op : Operation) (s : Inbox) : Prop :=
  match op with
  | .fail worker _ => ¬ Processed s worker.eventId
  | .deadLetter eventId _ => ¬ Processed s eventId
  | .settle eventId => Processed s eventId → On s eventId
  | _ => True

-- A processed event changes its disposition only when an operator replays it.
def Final (op : Operation) (s u : Inbox) : Prop :=
  ∀ i, Processed s i → (∀ actorId reason, op ≠ .replay i actorId reason) → Processed u i

theorem foreign_of_unknownAccount {d : Delivery} (h : d.unknownAccount = true) : d.Foreign := by
  unfold Delivery.unknownAccount at h
  split at h
  · next account ha =>
    simp only [Bool.and_eq_true, bne_iff_ne, ne_eq] at h
    refine ⟨by simp [ha], ?_⟩
    rw [ha, scalar?]
    exact fun he => h.2 (Option.some.inj he)
  · cases h

theorem unknownAccount_of_foreign {d : Delivery} (hf : d.Foreign)
    (hl : Legible d.externalAccountId d.accountId) : d.unknownAccount = true := by
  rcases hl with hn | ⟨a, ha, hne⟩ | hs
  · exact absurd hn hf.1
  · have hother : a ≠ d.externalAccountId := by
      intro he
      apply hf.2
      rw [ha, he, scalar?]
    simp [Delivery.unknownAccount, ha, hne, hother]
  · exact absurd hs hf.2

end Conditions

section Effects

def Due (e : IntegrationEvent) : Prop := e.disposition = .received ∨ e.disposition = .retryable

-- A step of these leaves a processed event alone.
def Operation.Steady : Operation → Prop
  | settle _ | fail _ _ | deadLetter _ _ | replay _ _ _ => False
  | _ => True

-- What a step that stores no new event writes to the events.
inductive Writes (s : Inbox) : Operation → Table IntegrationEvent → Prop
  | same {op : Operation} (h : op.Steady) : Writes s op s.kernel.events
  | blocked {i : ℕ} {e : IntegrationEvent} {message : String} (he : s.kernel.events.find? i = some e)
      (hdue : Due e) :
      Writes s (.process i) (s.kernel.events.update i (blockedEvent message s.kernel.clock))
  | claimed {i : ℕ} {e : IntegrationEvent} (he : s.kernel.events.find? i = some e) (hdue : Due e) :
      Writes s (.process i) (s.kernel.events.update i (claimedEvent s.kernel.clock))
  | fenced {i : ℕ} {e : IntegrationEvent} {c : IntegrationConnection} (hw : ⟨i, true⟩ ∈ s.workers)
      (he : s.kernel.events.find? i = some e)
      (hc : s.kernel.connections.find? e.connectionId = some c)
      (hoff : c.off = true ∨ e.disposition = .blocked) :
      Writes s (.settle i) (s.kernel.events.update i
        (blockedEvent "Connection disabled after event claim." s.kernel.clock))
  | settled {i : ℕ} {e : IntegrationEvent} {c : IntegrationConnection} (hw : ⟨i, true⟩ ∈ s.workers)
      (he : s.kernel.events.find? i = some e)
      (hc : s.kernel.connections.find? e.connectionId = some c) (hon : c.off = false) :
      Writes s (.settle i) (s.kernel.events.update i (processedEvent s.kernel.clock))
  | failed {w : Worker} {error : String} (hw : w ∈ s.workers) :
      Writes s (.fail w error)
        (s.kernel.events.update w.eventId (retryableEvent error s.kernel.clock))
  | dead {i : ℕ} {error : String} :
      Writes s (.deadLetter i error) (s.kernel.events.update i (deadEvent error s.kernel.clock))
  | replayed {i : ℕ} {actorId : Option ℕ} {reason : String} :
      Writes s (.replay i actorId reason)
        (s.kernel.events.update i (replayedEvent s.kernel.clock))
  | recovered {i : ℕ} {e : IntegrationEvent} {message : String}
      (he : s.kernel.events.find? i = some e) (hclaimed : e.disposition = .processing) :
      Writes s (.recover i)
        (s.kernel.events.update i (retryableEvent message s.kernel.clock))
  | halted {op : Operation} {c : ℕ} {message : String} (h : op.Steady) :
      Writes s op (s.kernel.events.updateWhere (awaiting c) (haltedEvent message s.kernel.clock))

structure Delivers (p : WebhookPlatform) (s : Inbox) (endpointKey : ℕ) (rawBody : String)
    (d : Delivery) : Prop where
  source : ∃ endpoint payload, endpoint? s endpointKey = some endpoint ∧
    p.jsonDecode rawBody = .ok payload ∧ d.externalAccountId = endpoint.2.externalAccountId ∧
    d.accountId = field payload "account_id"

structure Carries (s u : Inbox) : Prop where
  receipts : u.receipts = s.receipts
  workers : ∀ w ∈ u.workers, (∃ v ∈ s.workers, v.eventId = w.eventId) ∨
    ∃ e, s.kernel.events.find? w.eventId = some e ∧ Due e
  consumed : ∀ i ∈ u.consumed, i ∈ s.consumed ∨ ∃ v ∈ s.workers, v.eventId = i

inductive Step (p : WebhookPlatform) (s u : Inbox) : Operation → Prop
  | stored {endpointKey : ℕ} {rawBody : String} {headers : Headers} (d : Delivery)
      (hd : Delivers p s endpointKey rawBody d) (hu : u = created d s) :
      Step p s u (.receive endpointKey rawBody headers)
  | moved {op : Operation} (hc : Carries s u) (hw : Writes s op u.kernel.events) : Step p s u op

variable {p : WebhookPlatform} {s t u : Inbox} {i : ℕ} {d : Delivery} {op : Operation}

theorem carries_of_same (hr : u.receipts = s.receipts) (hw : u.workers = s.workers)
    (hc : u.consumed = s.consumed) : Carries s u where
  receipts := hr
  workers w h := Or.inl ⟨w, hw ▸ h, rfl⟩
  consumed _ h := Or.inl (hc ▸ h)

theorem commits_release {w : Worker} {x : Unit} (h : Commits (release w) s x u) :
    w ∈ s.workers ∧ u = { s with workers := s.workers.erase w } := by
  simp only [release, commits_bind, commits_get, commits_reject, commits_set, not_not] at h
  obtain ⟨_, _, ⟨rfl, rfl⟩, _, _, ⟨hw, rfl⟩, rfl⟩ := h
  exact ⟨hw, rfl⟩

theorem carries_released {w : Worker} {k : Kernel} :
    Carries s { s with kernel := k, workers := s.workers.erase w } where
  receipts := rfl
  workers v h := Or.inl ⟨v, List.mem_of_mem_erase h, rfl⟩
  consumed _ h := Or.inl h

theorem commits_storeDelivery (h : Commits (storeDelivery d) s i u) :
    u = created d s ∨ u = { s with reconciliations := u.reconciliations } := by
  simp only [storeDelivery, commits_bind, commits_get] at h
  obtain ⟨_, _, ⟨rfl, rfl⟩, h⟩ := h
  cases hfind : s.receipts.find? (clashes d) with
  | some existing =>
    simp only [hfind, noteCollision, commits_bind, commits_ite, commits_reject, commits_modify,
      commits_pure] at h
    obtain ⟨_, _, rfl⟩ | ⟨_, _, _, ⟨_, _, ⟨_, rfl⟩, rfl⟩, _, rfl⟩ := h
    · exact Or.inr rfl
    · exact Or.inr rfl
  | none =>
    simp only [hfind, commits_bind, commits_reject, commits_modify, commits_pure] at h
    obtain ⟨_, _, ⟨_, rfl⟩, _, _, rfl, _, rfl⟩ := h
    exact Or.inl rfl

theorem delivers_of_ok {endpointKey : ℕ} {rawBody : String} {headers : Headers}
    {endpoint : IntegrationConnection × ConnectionProfile} {payload : Value}
    (he : endpoint? s endpointKey = some endpoint) (hp : payloadOf p rawBody = .ok payload)
    (hd : deliveryOf endpoint.2 rawBody headers payload = .ok d) :
    Delivers p s endpointKey rawBody d := by
  simp only [payloadOf, bind_eq_ok, refuse_eq_ok] at hp
  obtain ⟨v, hv, _, _, hp⟩ := hp
  obtain rfl : v = payload := Except.ok.inj hp
  simp only [deliveryOf, bind_eq_ok] at hd
  obtain ⟨eventType, _, version, _, hd⟩ := hd
  obtain rfl := Except.ok.inj hd
  exact ⟨endpoint, v, he, hv, rfl, rfl⟩

theorem step_receive {endpointKey : ℕ} {rawBody : String} {headers : Headers}
    (h : Commits (receive p endpointKey rawBody headers) s i u) :
    Step p s u (.receive endpointKey rawBody headers) := by
  simp only [receive, commits_bind, commits_get, commits_orFail, commits_reject,
    commits_check] at h
  obtain ⟨_, _, ⟨rfl, rfl⟩, endpoint, _, ⟨he, rfl⟩, _, _, ⟨_, rfl⟩, _, _, ⟨_, rfl⟩, h⟩ := h
  obtain ⟨reference, _, ⟨_, rfl⟩, secret, _, ⟨_, rfl⟩, _, _, ⟨_, rfl⟩, h⟩ := h
  obtain ⟨payload, _, ⟨hp, rfl⟩, d, _, ⟨hd, rfl⟩, _, _, ⟨_, rfl⟩, h⟩ := h
  rcases commits_storeDelivery h with hu | hu
  · exact .stored d (delivers_of_ok he hp hd) hu
  · rw [hu]
    exact .moved (carries_of_same rfl rfl rfl) (.same trivial)

theorem step_process (h : Commits (takeEvent i) s () u) : Step p s u (.process i) := by
  simp only [takeEvent, onKernel, process, claimEvent, enter, saveEvent, commits_bind, commits_zoom,
    commits_ite, commits_lockedEvent, commits_lockedConnection, commits_get, commits_modify,
    commits_pure, not_not] at h
  obtain ⟨taken, t, ⟨k, ⟨e, _, ⟨he, rfl⟩, h⟩, rfl⟩, ht⟩ := h
  obtain rfl := event_id he
  rcases h with ⟨_, rfl, rfl⟩ | ⟨hdue, c, _, ⟨_, rfl⟩, _, _, ⟨rfl, rfl⟩, h⟩
  · obtain ⟨hf, _⟩ | ⟨_, _, rfl⟩ := ht
    · cases hf
    · exact .moved (carries_of_same rfl rfl rfl) (.same trivial)
  · rcases h with ⟨_, _, _, rfl, rfl, rfl⟩ | ⟨_, ⟨_, _, _, rfl, rfl, rfl⟩ | ⟨_, _, _, rfl, rfl, rfl⟩⟩
    · obtain ⟨hf, _⟩ | ⟨_, _, rfl⟩ := ht
      · cases hf
      · exact .moved (carries_of_same rfl rfl rfl) (.blocked he hdue)
    · obtain ⟨hf, _⟩ | ⟨_, _, rfl⟩ := ht
      · cases hf
      · exact .moved (carries_of_same rfl rfl rfl) (.blocked he hdue)
    · obtain ⟨_, rfl⟩ | ⟨hf, _⟩ := ht
      · refine .moved ⟨rfl, fun w hw => ?_, fun _ hi => Or.inl hi⟩ (.claimed he hdue)
        rcases List.mem_cons.mp hw with rfl | hw
        · exact Or.inr ⟨e, he, hdue⟩
        · exact Or.inl ⟨w, hw, rfl⟩
      · exact absurd rfl hf

theorem step_settle (h : Commits (Operation.run p (.settle i)) s () u) : Step p s u (.settle i) := by
  simp only [Operation.run, onKernel, consumed, settleEvent, saveEvent,
    IntegrationRunService.resolveLetters, commits_bind, commits_zoom, commits_ite,
    commits_lockedEvent, commits_lockedConnection, commits_modify, not_or] at h
  obtain ⟨_, _, hrel, k, ⟨e, _, ⟨he, rfl⟩, c, _, ⟨hc, rfl⟩, h⟩, rfl⟩ := h
  obtain ⟨hw, rfl⟩ := commits_release hrel
  obtain rfl := event_id he
  rcases h with ⟨hoff, rfl⟩ | ⟨⟨hon, _⟩, _, _, rfl, rfl⟩
  · exact .moved carries_released (.fenced hw he hc hoff)
  · exact .moved carries_released (.settled hw he hc (by simpa using hon))

theorem step_recover (h : Commits (Operation.run p (.recover i)) s () u) :
    Step p s u (.recover i) := by
  simp only [Operation.run, onKernel, commits_zoom] at h
  obtain ⟨k, hk, rfl⟩ := h
  cases recovers_recover hk with
  | fresh => exact .moved (carries_of_same rfl rfl rfl) (.same trivial)
  | recovered he hclaimed => exact .moved (carries_of_same rfl rfl rfl) (.recovered he hclaimed)

theorem step_run (h : Commits (op.run p) s () u) : Step p s u op := by
  cases op with
  | receive endpointKey rawBody headers =>
    simp only [Operation.run, commits_bind, commits_pure] at h
    obtain ⟨_, _, h, _, rfl⟩ := h
    exact step_receive h
  | process i => exact step_process h
  | consume i =>
    simp only [Operation.run, handOver, commits_bind, commits_modify] at h
    obtain ⟨_, _, hrel, rfl⟩ := h
    obtain ⟨hw, rfl⟩ := commits_release hrel
    refine .moved ⟨rfl, fun w h => ?_, fun j h => ?_⟩ (.same trivial)
    · rcases List.mem_cons.mp h with rfl | h
      · exact Or.inl ⟨_, hw, rfl⟩
      · exact Or.inl ⟨w, List.mem_of_mem_erase h, rfl⟩
    · rcases List.mem_append.mp h with h | h
      · exact Or.inl h
      · exact Or.inr ⟨_, hw, (List.mem_singleton.mp h).symm⟩
  | settle i => exact step_settle h
  | fail w error =>
    simp only [Operation.run, onKernel, commits_bind, commits_zoom] at h
    obtain ⟨_, _, hrel, k, hk, rfl⟩ := h
    obtain ⟨hw, rfl⟩ := commits_release hrel
    rw [commits_failEvent hk]
    exact .moved carries_released (.failed hw)
  | deadLetter i error =>
    simp only [Operation.run, onKernel, commits_zoom] at h
    obtain ⟨k, hk, rfl⟩ := h
    obtain ⟨letters, rfl⟩ := commits_deadLetter hk
    exact .moved (carries_of_same rfl rfl rfl) .dead
  | replay i actorId reason =>
    simp only [Operation.run, onKernel, commits_zoom] at h
    obtain ⟨k, hk, rfl⟩ := h
    obtain ⟨operations, rfl⟩ := commits_replay hk
    exact .moved (carries_of_same rfl rfl rfl) .replayed
  | recover i => exact step_recover h
  | enable snapshot actorId reason =>
    simp only [Operation.run, onKernel, commits_zoom] at h
    obtain ⟨k, hk, rfl⟩ := h
    have he : k.events = s.kernel.events := (commits_enable hk).events
    have hw : Writes s (.enable snapshot actorId reason) s.kernel.events := .same trivial
    exact .moved (carries_of_same rfl rfl rfl) (he ▸ hw)
  | disable c actorId reason =>
    simp only [Operation.run, onKernel, commits_zoom] at h
    obtain ⟨k, hk, rfl⟩ := h
    have he := (commits_disable hk).events
    exact .moved (carries_of_same rfl rfl rfl) (he ▸ .halted trivial)
  | revoke c actorId reason =>
    simp only [Operation.run, onKernel, commits_zoom] at h
    obtain ⟨k, hk, rfl⟩ := h
    have he := (commits_revoke hk).events
    exact .moved (carries_of_same rfl rfl rfl) (he ▸ .halted trivial)
  | turnKeys op =>
    simp only [Operation.run, onRing, commits_zoom] at h
    obtain ⟨r, _, rfl⟩ := h
    exact .moved (carries_of_same rfl rfl rfl) (.same trivial)
  | configure c reference =>
    obtain rfl := commits_modify.mp h
    exact .moved (carries_of_same rfl rfl rfl) (.same trivial)
  | wait seconds =>
    obtain rfl := commits_modify.mp h
    exact .moved (carries_of_same rfl rfl rfl) (.same trivial)

end Effects

section Finality
variable {p : WebhookPlatform} {s t u : Inbox} {i : ℕ} {e : IntegrationEvent} {op : Operation}

theorem processed_update {f : IntegrationEvent → IntegrationEvent} {hf : Keeps f} {j : ℕ}
    (hu : u.kernel.events = s.kernel.events.update j f hf) (hp : Processed s i)
    (hj : ∀ e, s.kernel.events.find? j = some e → e.disposition = .processed →
      (f e).disposition = .processed) : Processed u i := by
  obtain ⟨e, he, hd⟩ := hp
  by_cases hij : i = j
  · subst hij
    refine ⟨f e, ?_, hj e he hd⟩
    rw [hu, Table.find?_update_self he hf]
  · refine ⟨e, ?_, hd⟩
    rw [hu, Table.find?_update_ne hij hf, he]

theorem processed_update_ne {f : IntegrationEvent → IntegrationEvent} {hf : Keeps f} {j : ℕ}
    (hu : u.kernel.events = s.kernel.events.update j f hf) (hp : Processed s i) (hij : i ≠ j) :
    Processed u i := by
  obtain ⟨e, he, hd⟩ := hp
  refine ⟨e, ?_, hd⟩
  rw [hu, Table.find?_update_ne hij hf, he]

theorem not_processed_update {f : IntegrationEvent → IntegrationEvent} {hf : Keeps f}
    (hu : u.kernel.events = s.kernel.events.update i f hf)
    (hd : ∀ e, (f e).disposition ≠ .processed) : ¬ Processed u i := by
  rintro ⟨e, he, hp⟩
  rw [hu, Table.find?_update hf, if_pos rfl] at he
  obtain ⟨e', _, rfl⟩ := Option.map_eq_some_iff.mp he
  exact hd e' hp

theorem not_due (hd : e.disposition = .processed) : ¬ Due e := by
  intro h
  rcases h with h | h
  · exact absurd (hd.symm.trans h) (by decide)
  · exact absurd (hd.symm.trans h) (by decide)

theorem processed_halted {c : ℕ} {message : String}
    (hu : u.kernel.events =
      s.kernel.events.updateWhere (awaiting c) (haltedEvent message s.kernel.clock))
    (hp : Processed s i) : Processed u i := by
  obtain ⟨e, he, hd⟩ := hp
  obtain ⟨hmem, hid⟩ := Table.find?_eq_some.mp he
  have hout : awaiting c e = false := by simp [awaiting, hd]
  refine ⟨e, Table.find?_eq_some.mpr ⟨?_, hid⟩, hd⟩
  rw [hu]
  exact (Table.mem_updateWhere).mpr (Or.inl ⟨hmem, hout⟩)

theorem processed_created {d : Delivery} (hp : Processed s i) : Processed (created d s) i := by
  obtain ⟨e, he, hd⟩ := hp
  exact ⟨e, Table.find?_insert_of_some he (names_eventOf _ _), hd⟩

theorem final_of_writes (h : Writes s op u.kernel.events) (hs : Spared op s) : Final op s u := by
  intro i hp hreplay
  generalize ht : u.kernel.events = events at h
  cases h with
  | same _ =>
    obtain ⟨e, he, hd⟩ := hp
    exact ⟨e, ht ▸ he, hd⟩
  | blocked he hdue =>
    refine processed_update ht hp fun e' he' hd => ?_
    obtain rfl := Option.some.inj (he.symm.trans he')
    exact absurd hdue (not_due hd)
  | claimed he hdue =>
    refine processed_update ht hp fun e' he' hd => ?_
    obtain rfl := Option.some.inj (he.symm.trans he')
    exact absurd hdue (not_due hd)
  | @fenced j e c hw he hc hoff =>
    refine processed_update ht hp fun e' he' hd => ?_
    obtain rfl := Option.some.inj (he.symm.trans he')
    have hon : c.off = false := hs ⟨e, he, hd⟩ e c he hc
    rcases hoff with hoff | hblocked
    · exact absurd (hoff.symm.trans hon) (by decide)
    · exact absurd (hd.symm.trans hblocked) (by decide)
  | settled hw he hc hon => exact processed_update ht hp fun _ _ _ => rfl
  | @failed w error hw =>
    apply processed_update_ne ht hp
    rintro rfl
    exact hs hp
  | @dead j error =>
    apply processed_update_ne ht hp
    rintro rfl
    exact hs hp
  | @replayed j actorId reason =>
    apply processed_update_ne ht hp
    rintro rfl
    exact hreplay actorId reason rfl
  | recovered he hclaimed =>
    refine processed_update ht hp fun e' he' hd => ?_
    obtain rfl := Option.some.inj (he.symm.trans he')
    exact absurd (hd.symm.trans hclaimed) (by decide)
  | halted _ => exact processed_halted ht hp

theorem spared_of_writes (h : Writes s op u.kernel.events) (hf : Final op s u) : Spared op s := by
  cases op with
  | settle i =>
    intro hp e c he hc
    have hu : Processed u i := hf i hp (fun _ _ => Operation.noConfusion)
    generalize ht : u.kernel.events = events at h
    cases h with
    | same hsteady => exact hsteady.elim
    | fenced _ _ _ _ => exact absurd hu (not_processed_update ht fun _ => by simp [blockedEvent])
    | @settled _ e' c' _ he' hc' hon =>
      obtain rfl := Option.some.inj (he.symm.trans he')
      obtain rfl := Option.some.inj (hc.symm.trans hc')
      exact hon
    | halted hsteady => exact hsteady.elim
  | fail w error =>
    intro hp
    have hu : Processed u w.eventId := hf w.eventId hp (fun _ _ => Operation.noConfusion)
    generalize ht : u.kernel.events = events at h
    cases h with
    | same hsteady => exact hsteady.elim
    | failed _ => exact not_processed_update ht (fun _ => by simp [retryableEvent]) hu
    | halted hsteady => exact hsteady.elim
  | deadLetter i error =>
    intro hp
    have hu : Processed u i := hf i hp (fun _ _ => Operation.noConfusion)
    generalize ht : u.kernel.events = events at h
    cases h with
    | same hsteady => exact hsteady.elim
    | dead => exact not_processed_update ht (fun _ => by simp [deadEvent]) hu
    | halted hsteady => exact hsteady.elim
  | _ => trivial

theorem final_iff_spared (h : Commits (op.run p) s () u) : Final op s u ↔ Spared op s := by
  cases step_run h with
  | stored d hd hu =>
    refine ⟨fun _ => trivial, fun _ i hp _ => ?_⟩
    rw [hu]
    exact processed_created hp
  | moved hc hw => exact ⟨spared_of_writes hw, final_of_writes hw⟩

end Finality

section Trust
variable {p : WebhookPlatform} {s t u : Inbox} {i : ℕ} {r : Receipt} {e : IntegrationEvent}
variable {d : Delivery} {op : Operation}

-- An event that no worker may claim until an operator replays it.
def Closed (e : IntegrationEvent) : Prop :=
  e.disposition = .unmatched ∨ e.disposition = .deadLetter

-- A foreign event is closed, and neither held by a worker nor handed to a consumer.
structure Shut (s : Inbox) (i : ℕ) : Prop where
  closed : ∀ e, s.kernel.events.find? i = some e → Closed e
  unheld : ∀ w ∈ s.workers, w.eventId ≠ i
  unconsumed : i ∉ s.consumed

structure Guarded (s : Inbox) : Prop where
  receipts : ∀ r ∈ s.receipts, r.eventId < s.kernel.events.next
  workers : ∀ w ∈ s.workers, w.eventId < s.kernel.events.next
  consumed : ∀ i ∈ s.consumed, i < s.kernel.events.next
  shut : ∀ r ∈ s.receipts, r.delivery.Foreign → Shut s r.eventId

theorem open_of_due (h : Due e) : ¬ Closed e := by
  rintro (hc | hc)
  · rcases h with h | h
    · exact absurd (h.symm.trans hc) (by decide)
    · exact absurd (h.symm.trans hc) (by decide)
  · rcases h with h | h
    · exact absurd (h.symm.trans hc) (by decide)
    · exact absurd (h.symm.trans hc) (by decide)

theorem next_writes {events : Table IntegrationEvent} (h : Writes s op events) :
    events.next = s.kernel.events.next := by
  cases h <;> rfl

theorem closed_update {f : IntegrationEvent → IntegrationEvent} {hf : Keeps f} {j : ℕ}
    (hs : ∀ e, s.kernel.events.find? i = some e → Closed e)
    (hj : ∀ e, s.kernel.events.find? j = some e → j = i → Closed e → Closed (f e)) :
    ∀ e, (s.kernel.events.update j f hf).find? i = some e → Closed e := by
  intro e he
  rw [Table.find?_update hf] at he
  split_ifs at he with hij
  · obtain ⟨e', he', rfl⟩ := Option.map_eq_some_iff.mp he
    exact hj e' (hij ▸ he') hij.symm (hs e' he')
  · exact hs e he

-- A closed event stays closed in every step but its replay, if no worker holds it.
theorem closed_writes {events : Table IntegrationEvent} (h : Writes s op events)
    (hs : Shut s i) (hreplay : ∀ actorId reason, op ≠ .replay i actorId reason) :
    ∀ e, events.find? i = some e → Closed e := by
  cases h with
  | same _ => exact hs.closed
  | blocked he hdue =>
    refine closed_update hs.closed fun e' he' _ hc => ?_
    obtain rfl := Option.some.inj (he.symm.trans he')
    exact absurd hc (open_of_due hdue)
  | claimed he hdue =>
    refine closed_update hs.closed fun e' he' _ hc => ?_
    obtain rfl := Option.some.inj (he.symm.trans he')
    exact absurd hc (open_of_due hdue)
  | fenced hw _ _ _ => exact closed_update hs.closed fun _ _ hij _ => absurd hij (hs.unheld _ hw)
  | settled hw _ _ _ => exact closed_update hs.closed fun _ _ hij _ => absurd hij (hs.unheld _ hw)
  | failed hw => exact closed_update hs.closed fun _ _ hij _ => absurd hij (hs.unheld _ hw)
  | dead => exact closed_update hs.closed fun _ _ _ _ => Or.inr rfl
  | @replayed j actorId reason =>
    refine closed_update hs.closed fun _ _ hij _ => ?_
    subst hij
    exact absurd rfl (hreplay actorId reason)
  | recovered he hclaimed =>
    refine closed_update hs.closed fun e' he' _ hc => ?_
    obtain rfl := Option.some.inj (he.symm.trans he')
    rcases hc with hc | hc
    · exact absurd (hclaimed.symm.trans hc) (by decide)
    · exact absurd (hclaimed.symm.trans hc) (by decide)
  | halted _ =>
    intro e he
    obtain ⟨hmem, hid⟩ := Table.find?_eq_some.mp he
    rcases (Table.mem_updateWhere).mp hmem with ⟨hrow, _⟩ | ⟨e', hrow, haw, rfl⟩
    · exact hs.closed e (Table.find?_eq_some.mpr ⟨hrow, hid⟩)
    · rcases hs.closed e' (Table.find?_eq_some.mpr ⟨hrow, hid⟩) with hc | hc
      · simp [awaiting, hc] at haw
      · simp [awaiting, hc] at haw

theorem shut_moved (hc : Carries s u) (hw : Writes s op u.kernel.events) (hs : Shut s i)
    (hreplay : ∀ actorId reason, op ≠ .replay i actorId reason) : Shut u i where
  closed := closed_writes hw hs hreplay
  unheld w h := by
    rintro rfl
    rcases hc.workers w h with ⟨v, hv, he⟩ | ⟨e, he, hdue⟩
    · exact hs.unheld v hv he
    · exact open_of_due hdue (hs.closed e he)
  unconsumed h := by
    rcases hc.consumed i h with h | ⟨v, hv, he⟩
    · exact hs.unconsumed h
    · exact hs.unheld v hv he

theorem guarded_moved (hg : Guarded s) (hc : Carries s u) (hw : Writes s op u.kernel.events)
    (ht : Trusted p op s) : Guarded u where
  receipts r hr := by
    rw [next_writes hw]
    exact hg.receipts r (hc.receipts ▸ hr)
  workers w h := by
    rw [next_writes hw]
    rcases hc.workers w h with ⟨v, hv, he⟩ | ⟨e, he, _⟩
    · exact he ▸ hg.workers v hv
    · obtain ⟨hmem, hid⟩ := Table.find?_eq_some.mp he
      exact hid ▸ Table.id_lt_next hmem
  consumed i h := by
    rw [next_writes hw]
    rcases hc.consumed i h with h | ⟨v, hv, he⟩
    · exact hg.consumed i h
    · exact he ▸ hg.workers v hv
  shut r hr hf := by
    rw [hc.receipts] at hr
    apply shut_moved hc hw (hg.shut r hr hf)
    rintro actorId reason rfl
    exact ht ⟨r, hr, rfl, hf⟩

theorem guarded_created (hg : Guarded s) (hd : d.Foreign → d.unknownAccount = true) :
    Guarded (created d s) where
  receipts r hr := by
    rcases List.mem_append.mp hr with hr | hr
    · exact Nat.lt_succ_of_lt (hg.receipts r hr)
    · obtain rfl := List.mem_singleton.mp hr
      exact Nat.lt_succ_self _
  workers w h := Nat.lt_succ_of_lt (hg.workers w h)
  consumed i h := Nat.lt_succ_of_lt (hg.consumed i h)
  shut r hr hf := by
    have hmem : ∀ e, (created d s).kernel.events.find? r.eventId = some e →
        e ∈ s.kernel.events.rows ∧ e.id = r.eventId ∨
          e = eventOf d s.kernel.clock s.kernel.events.next ∧ e.id = r.eventId := by
      intro e he
      obtain ⟨hmem, hid⟩ := Table.find?_eq_some.mp he
      rcases (Table.mem_insert (names_eventOf _ _)).mp hmem with hmem | rfl
      · exact Or.inl ⟨hmem, hid⟩
      · exact Or.inr ⟨rfl, hid⟩
    rcases List.mem_append.mp hr with hr | hr
    · have hs := hg.shut r hr hf
      refine ⟨fun e he => ?_, hs.unheld, hs.unconsumed⟩
      rcases hmem e he with ⟨hrow, hid⟩ | ⟨rfl, hid⟩
      · exact hs.closed e (Table.find?_eq_some.mpr ⟨hrow, hid⟩)
      · exact absurd hid (hg.receipts r hr).ne'
    · obtain rfl := List.mem_singleton.mp hr
      refine ⟨fun e he => ?_, fun w h => (hg.workers w h).ne, fun h => (hg.consumed _ h).ne rfl⟩
      rcases hmem e he with ⟨hrow, hid⟩ | ⟨rfl, _⟩
      · exact absurd hid (Table.id_lt_next hrow).ne
      · simp [Closed, eventOf, hd hf]

theorem guarded_step (hg : Guarded s) (ht : Trusted p op s) (h : Commits (op.run p) s () u) :
    Guarded u := by
  cases step_run h with
  | stored d hd hu =>
    obtain ⟨endpoint, payload, he, hp, hx, ha⟩ := hd.source
    rw [hu]
    refine guarded_created hg fun hf => unknownAccount_of_foreign hf ?_
    rw [hx, ha]
    exact ht endpoint payload he hp
  | moved hc hw => exact guarded_moved hg hc hw ht

-- Nothing has arrived yet.
structure Opening (s : Inbox) : Prop where
  receipts : s.receipts = []
  workers : s.workers = []
  consumed : s.consumed = []

theorem guarded_of_opening (h : Opening s) : Guarded s where
  receipts := by simp [h.receipts]
  workers := by simp [h.workers]
  consumed := by simp [h.consumed]
  shut := by simp [h.receipts]

theorem trusted_inbox_is_final_iff (hs : Opening s) (h : Reaches (Operation.run p) (Trusted p) s t) :
    (∀ i ∈ t.consumed, ¬ Foreign t i) ∧
    ∀ op u, Commits (op.run p) t () u → (Final op t u ↔ Spared op t) := by
  have hg : Guarded t :=
    h.invariant (guarded_of_opening hs) fun _ _ _ hg ht hc => guarded_step hg ht hc
  refine ⟨?_, fun _ _ hc => final_iff_spared hc⟩
  rintro i hi ⟨r, hr, rfl, hf⟩
  exact (hg.shut r hr hf).unconsumed hi

end Trust

section Scenario
variable {p : WebhookPlatform} {s t : Inbox}

-- A body stands for the account that it was signed for, and every signature is good.
def platform : WebhookPlatform where
  base64Decode _ := some (List.replicate 32 0)
  signature _ _ := "c2lnbmVk"
  jsonDecode rawBody := .ok (.array [(.str "account_id", .str rawBody)])
  resolve _ := .ok "whsec_c2VjcmV0"
  isDatetime _ := true

def webhooks (i : ℕ) : IntegrationConnection where
  id := i
  propertyId := none
  capabilities := [.webhookInbound]
  isEnabled := true
  status := .connected
  secretReference := some "vault://channel"
  revokedAt := none

theorem names_webhooks : Names webhooks := fun _ => rfl

def inbound (i : ℕ) : IntegrationConnectionCapability where
  id := i
  connectionId := 0
  capability := .webhookInbound
  direction := .inbound
  state := .enabled

theorem names_inbound : Names inbound := fun _ => rfl

def hotel (i : ℕ) : ConnectionProfile where
  id := i
  externalAccountId := "hotel"
  signingSecretReference := some "env:STANDARD_WEBHOOK_SECRET"

theorem names_hotel : Names hotel := fun _ => rfl

def emptyInbox : Inbox where
  kernel := {
    clock := 1800000000
    connections := Table.empty.insert webhooks names_webhooks
    capabilities := Table.empty.insert inbound names_inbound }
  ring := EndpointKeyService.ring
  profiles := Table.empty.insert hotel names_hotel

theorem opening_emptyInbox : Opening emptyInbox := ⟨rfl, rfl, rfl⟩

-- A signed request for an account, accepted and worked off by one worker.
def arrival (account : String) : List Operation :=
  [.turnKeys (.rotate 0 0 none "Webhook endpoint" none),
    .receive 0 account [("webhook-id", "msg-1"), ("webhook-timestamp", "1800000000"),
      ("webhook-signature", "v1,c2lnbmVk")]]

def work : List Operation := [.process 0, .consume 0, .settle 0]

def processedFirst (t : Inbox) : Bool :=
  (t.kernel.events.find? 0).any fun e => e.disposition == .processed

theorem processed_first (h : processedFirst t = true) : Processed t 0 := by
  obtain ⟨e, he, hd⟩ := (Option.any_eq_true _ _).mp h
  exact ⟨e, he, beq_iff_eq.mp hd⟩

def buries (t : Inbox) : Bool :=
  (((Operation.deadLetter 0 "Retry exhausted.").run platform).run t).toOption.isSome

theorem exists_burial (h : buries t = true) :
    ∃ u, Commits ((Operation.deadLetter 0 "Retry exhausted.").run platform) t () u := by
  obtain ⟨_, u, hu⟩ := exists_commits h
  exact ⟨u, hu⟩

-- An operator replays an event of another account: it is consumed, and a failure callback then
-- writes over its disposition.
theorem replayed_stranger_is_consumed : Opening emptyInbox ∧
    ∃ t, Reaches (Operation.run platform) (fun _ _ => True) emptyInbox t ∧
      0 ∈ t.consumed ∧ Foreign t 0 ∧
      ∃ u, Commits ((Operation.deadLetter 0 "Retry exhausted.").run platform) t () u ∧
        ¬ Final (.deadLetter 0 "Retry exhausted.") t u := by
  obtain ⟨t, ht, hp⟩ : ∃ t, Reaches (Operation.run platform) (fun _ _ => True) emptyInbox t ∧
      (decide (0 ∈ t.consumed) && processedFirst t && buries t &&
        t.receipts.any fun r => r.eventId == 0 && r.delivery.unknownAccount) = true :=
    Reaches.exists_of_run (arrival "elsewhere" ++ [.replay 0 none "Checked."] ++ work)
      (by decide +kernel)
  simp only [Bool.and_eq_true, decide_eq_true_eq, List.any_eq_true, beq_iff_eq] at hp
  obtain ⟨⟨⟨hconsumed, hprocessed⟩, hburies⟩, r, hr, hi, hunknown⟩ := hp
  obtain ⟨u, hu⟩ := exists_burial hburies
  refine ⟨opening_emptyInbox, t, ht, hconsumed, ⟨r, hr, hi, foreign_of_unknownAccount hunknown⟩,
    u, hu, fun hf => ?_⟩
  exact (final_iff_spared hu).mp hf (processed_first hprocessed)

def admitted (op : Operation) (_ : Inbox) : Bool :=
  match op with
  | .receive _ rawBody _ => rawBody != ""
  | .replay _ _ _ => false
  | _ => true

theorem trusted_of_admitted (op : Operation) (s : Inbox) (h : admitted op s = true) :
    Trusted platform op s := by
  cases op with
  | receive endpointKey rawBody headers =>
    rintro endpoint payload _ hp
    obtain rfl := Except.ok.inj hp
    exact Or.inr (Or.inl ⟨rawBody, rfl, bne_iff_ne.mp h⟩)
  | replay i actorId reason => cases h
  | _ => trivial

theorem welcome_event_is_final : ∃ t, Reaches (Operation.run platform) (Trusted platform)
    emptyInbox t ∧ 0 ∈ t.consumed ∧ ¬ Foreign t 0 ∧
    ∃ u, Commits ((Operation.deadLetter 0 "Retry exhausted.").run platform) t () u ∧
      (Final (.deadLetter 0 "Retry exhausted.") t u ↔ ¬ Processed t 0) := by
  obtain ⟨t, ht, hp⟩ : ∃ t, Reaches (Operation.run platform) (Trusted platform) emptyInbox t ∧
      (decide (0 ∈ t.consumed) && buries t) = true :=
    Reaches.exists_of_execute trusted_of_admitted (arrival "hotel" ++ work) (by decide +kernel)
  simp only [Bool.and_eq_true, decide_eq_true_eq] at hp
  obtain ⟨hconsumed, hburies⟩ := hp
  obtain ⟨u, hu⟩ := exists_burial hburies
  obtain ⟨hforeign, hfinal⟩ := trusted_inbox_is_final_iff opening_emptyInbox ht
  exact ⟨t, ht, hconsumed, hforeign 0 hconsumed, u, hu, hfinal _ u hu⟩

end Scenario
end IntegrationEventService
