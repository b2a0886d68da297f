import LodgeOps.DirectBooking.StateMachine
import LodgeOps.Store.Journal
import LodgeOps.Ledger.LedgerRuns

namespace EventLog
open Schema Transaction DirectBookingStateMachine

section Calls

inductive Call
  | transition (next : DirectBookingOrderState) (authority : DirectBookingTransitionAuthority)
      (expectedVersion : ℤ) (identity : String) (metadata : SafeMetadata)
  | recordPiiScrubbed (identity purged : String)

def Call.identity : Call → String
  | transition _ _ _ identity _ => identity
  | recordPiiScrubbed identity _ => identity

def Call.facts : Call → TransitionFacts
  | transition next authority version _ metadata =>
    .transition next authority version (canonical metadata)
  | recordPiiScrubbed _ _ => .piiScrubbed

def Call.run (orderId : ℕ) : Call → Tx TransitionResult
  | transition next authority version identity metadata =>
    DirectBookingStateMachine.transition orderId next authority version identity metadata
  | recordPiiScrubbed identity purged =>
    DirectBookingStateMachine.recordPiiScrubbed orderId identity purged

inductive Step
  | call (orderId : ℕ) (c : Call)
  | elsewhere (result : Database)

def Step.run : Step → Tx Unit
  | call i c => LedgerRuns.quietly (c.run i)
  | elsewhere result => set result

-- Other services write their own columns of an order, never its state, its version or its events.
structure Spares (db result : Database) (i : ℕ) : Prop where
  events : result.orderEvents = db.orderEvents
  order : ∀ o, db.orders.find? i = some o → ∃ o', result.orders.find? i = some o' ∧
    o'.state = o.state ∧ o'.stateVersion = o.stateVersion

def Step.Honest (i : ℕ) (s : Step) (db : Database) : Prop :=
  match s with
  | elsewhere result => Spares db result i
  | _ => True

end Calls
section Log

def log (db : Database) (i : ℕ) : List DirectBookingOrderEvent :=
  db.orderEvents.select fun e => e.orderId == i

def Permitted (e : DirectBookingOrderEvent) : Prop :=
  authorized e.fromState e.toState e.authority = true

def Path : DirectBookingOrderState → List DirectBookingOrderEvent → DirectBookingOrderState → Prop :=
  Walk DirectBookingOrderEvent.fromState DirectBookingOrderEvent.toState Permitted

structure Intact (db : Database) (i : ℕ) (o : DirectBookingOrder) : Prop where
  row : db.orders.find? i = some o
  sequences : Numbered DirectBookingOrderEvent.sequence (log db i)
  version : o.stateVersion = (log db i).length + 1
  path : Path .started (log db i) o.state

end Log

variable {db t u v : Database} {o : DirectBookingOrder} {res : TransitionResult} {c : Call}
variable {i j : ℕ} {identity : String} {facts : TransitionFacts} {e : DirectBookingOrderEvent}

section Recording

theorem log_append (h : Table.Appends db.orderEvents u.orderEvents e) :
    log u i = if e.orderId = i then log db i ++ [e] else log db i := by
  unfold log Table.select
  rw [h.rows, List.filter_append]
  by_cases hi : e.orderId = i
  · simp [hi]
  · simp [hi]

theorem commits_call (h : Commits (c.run i) db res u) : ∃ o, db.orders.find? i = some o ∧
    ((event? db o.id c.identity = some res.event ∧ res.event.requestChecksum = c.facts ∧
        res.order = o ∧ res.replayed = true ∧ u = db) ∨
      (event? db o.id c.identity = none ∧ Records db u o c.identity c.facts res)) := by
  cases c with
  | transition next authority version identity metadata =>
    obtain ⟨_, _, o, ho, hcase | ⟨hn, rfl, ht⟩⟩ := commits_transition h
    · exact ⟨o, ho, Or.inl hcase⟩
    · exact ⟨o, ho, Or.inr ⟨hn, ht.toRecords⟩⟩
  | recordPiiScrubbed identity purged =>
    obtain ⟨_, o, ho, ⟨he, _, hf, hrest⟩ | ⟨hn, _, hs⟩⟩ := commits_recordPiiScrubbed h
    · exact ⟨o, ho, Or.inl ⟨he, hf, hrest⟩⟩
    · exact ⟨o, ho, Or.inr ⟨hn, hs.toRecords⟩⟩

theorem intact_records (h : Intact db i o) (hr : Records db u o identity facts res) :
    Intact u i res.order := by
  obtain ⟨f, hu, hf⟩ := hr.order
  have hid : o.id = i := (Table.find?_eq_some.mp h.row).2
  have hlog : log u i = log db i ++ [res.event] := by
    rw [log_append hr.appended, if_pos (hr.owner.trans hid)]
  refine ⟨?_, ?_, ?_, ?_⟩
  · rw [← hf, ← hid]
    exact hu.find?_self (hid ▸ h.row)
  · rw [hlog]
    exact numbered_snoc h.sequences (hr.sequence.trans h.version)
  · rw [hlog, hr.version, h.version]
    simp
  · rw [hlog]
    exact h.path.extend hr.source hr.allowed hr.target

theorem intact_other {o' : DirectBookingOrder} (h : Intact db i o) (hne : o'.id ≠ i)
    (hr : Records db u o' identity facts res) : Intact u i o := by
  obtain ⟨f, hu, _⟩ := hr.order
  have hlog : log u i = log db i := by
    rw [log_append hr.appended, if_neg fun hi => hne (hr.owner.symm.trans hi)]
  obtain ⟨hmem, hid⟩ := Table.find?_eq_some.mp h.row
  have hkept : o ∈ u.orders.rows := hu.mem_ne hmem fun hi => hne (hi.symm.trans hid)
  exact ⟨Table.find?_eq_some.mpr ⟨hkept, hid⟩, by rw [hlog]; exact h.sequences,
    by rw [hlog]; exact h.version, by rw [hlog]; exact h.path⟩

theorem intact_elsewhere (h : Intact db i o) (hs : Spares db u i) : ∃ o', Intact u i o' := by
  obtain ⟨o', ho', hstate, hversion⟩ := hs.order o h.row
  have hlog : log u i = log db i := by
    unfold log
    rw [hs.events]
  exact ⟨o', ho', by rw [hlog]; exact h.sequences, by rw [hlog, hversion]; exact h.version,
    by rw [hlog, hstate]; exact h.path⟩

theorem intact_step {s : Step} (h : Intact db i o) (ha : s.Honest i db)
    (hc : Commits s.run db () u) : ∃ o', Intact u i o' := by
  cases s with
  | call j c =>
    obtain ⟨res, hc⟩ := LedgerRuns.commits_quietly hc
    obtain ⟨o', ho', ⟨_, _, _, _, rfl⟩ | ⟨_, hr⟩⟩ := commits_call hc
    · exact ⟨o, h⟩
    · by_cases hj : j = i
      · subst hj
        obtain rfl : o = o' := Option.some.inj (h.row.symm.trans ho')
        exact ⟨res.order, intact_records h hr⟩
      · have hid : o'.id = j := (Table.find?_eq_some.mp ho').2
        exact ⟨o, intact_other h (hid ▸ hj) hr⟩
  | elsewhere result =>
    obtain rfl : result = u := by simpa [Step.run] using hc
    exact intact_elsewhere h ha

theorem intact_reaches (h : Intact db i o) (hr : Reaches Step.run (Step.Honest i) db t) :
    ∃ o', Intact t i o' :=
  hr.invariant (I := fun db => ∃ o, Intact db i o) ⟨o, h⟩
    fun _ _ _ ⟨_, hi⟩ ha hc => intact_step hi ha hc

end Recording
section Replay

theorem event_append (h : Table.Appends db.orderEvents u.orderEvents e)
    {m : DirectBookingOrderEvent} (hm : event? db j identity = some m) :
    event? u j identity = some m := by
  unfold event? Table.first? at hm ⊢
  rw [h.rows, List.find?_append, hm]
  rfl

theorem event_recorded (hr : Records db u o identity facts res)
    (hn : event? db o.id identity = none) : event? u o.id identity = some res.event := by
  unfold event? Table.first? at hn ⊢
  rw [hr.appended.rows, List.find?_append, hn]
  simp [hr.owner, hr.identity]

theorem event_kept {m : DirectBookingOrderEvent} (hm : event? db j identity = some m)
    (hr : Reaches Step.run (Step.Honest i) db t) : event? t j identity = some m := by
  refine hr.invariant (I := fun db => event? db j identity = some m) hm ?_
  intro s db u hm ha hc
  cases s with
  | call k c =>
    obtain ⟨res, hc⟩ := LedgerRuns.commits_quietly hc
    obtain ⟨_, _, ⟨_, _, _, _, rfl⟩ | ⟨_, hrec⟩⟩ := commits_call hc
    · exact hm
    · exact event_append hrec.appended hm
  | elsewhere result =>
    obtain rfl : result = u := by simpa [Step.run] using hc
    have hs : Spares db result i := ha
    unfold event?
    rw [hs.events]
    exact hm

theorem call_recorded (h : Commits (c.run i) db res u) :
    event? u i c.identity = some res.event ∧ res.event.requestChecksum = c.facts := by
  obtain ⟨o, ho, ⟨he, hf, _, _, rfl⟩ | ⟨hn, hr⟩⟩ := commits_call h
  · obtain rfl : o.id = i := (Table.find?_eq_some.mp ho).2
    exact ⟨he, hf⟩
  · obtain rfl : o.id = i := (Table.find?_eq_some.mp ho).2
    exact ⟨event_recorded hr hn, hr.facts⟩

theorem call_replays (h : Commits (c.run i) db res u) (ho : t.orders.find? i = some o)
    (he : event? t i c.identity = some res.event) :
    Commits (c.run i) t { order := o, event := res.event, replayed := true } t := by
  have hf := (call_recorded h).2
  obtain rfl : o.id = i := (Table.find?_eq_some.mp ho).2
  cases c with
  | transition next authority version identity metadata =>
    obtain ⟨hw, hm, _⟩ := commits_transition h
    simp only [Call.run, DirectBookingStateMachine.transition, commits_bind, commits_reject,
      commits_check, commits_lockedOrder, commits_get]
    refine ⟨(), t, ⟨by simp [hw], rfl⟩, (), t, ⟨hm, rfl⟩, o, t, ⟨ho, rfl⟩, t, t, ⟨rfl, rfl⟩, ?_⟩
    have he' : event? t o.id identity = some res.event := he
    simp only [he', commits_bind, commits_reject, commits_pure]
    exact ⟨(), t, ⟨not_not.mpr hf, rfl⟩, trivial, rfl⟩
  | recordPiiScrubbed identity purged =>
    obtain ⟨hw, o', _, ⟨_, htype, _⟩ | ⟨_, htype, _⟩⟩ := commits_recordPiiScrubbed h
    all_goals
      simp only [Call.run, DirectBookingStateMachine.recordPiiScrubbed, commits_bind,
        commits_reject, commits_lockedOrder, commits_get]
      refine ⟨(), t, ⟨by simp [hw], rfl⟩, o, t, ⟨ho, rfl⟩, t, t, ⟨rfl, rfl⟩, ?_⟩
      have he' : event? t o.id identity = some res.event := he
      simp only [he', commits_bind, commits_reject, commits_pure]
      have hf' : res.event.requestChecksum = .piiScrubbed := hf
      exact ⟨(), t, ⟨by simp [htype, hf'], rfl⟩, trivial, rfl⟩

end Replay
section Rejection

-- What the machine objects to: a stale version, a foreign edge, a reused identity, a missing hold.
inductive Objection (db : Database) (i : ℕ) : Call → Prop
  | reused (c : Call) (e : DirectBookingOrderEvent) (he : event? db i c.identity = some e)
      (hf : e.requestChecksum ≠ c.facts) : Objection db i c
  | stale (o : DirectBookingOrder) (next : DirectBookingOrderState)
      (authority : DirectBookingTransitionAuthority) (version : ℤ) (identity : String)
      (metadata : SafeMetadata) (ho : db.orders.find? i = some o)
      (hn : event? db i identity = none) (hv : o.stateVersion ≠ version) :
      Objection db i (.transition next authority version identity metadata)
  | edge (o : DirectBookingOrder) (next : DirectBookingOrderState)
      (authority : DirectBookingTransitionAuthority) (version : ℤ) (identity : String)
      (metadata : SafeMetadata) (ho : db.orders.find? i = some o)
      (hn : event? db i identity = none) (he : authorized o.state next authority = false) :
      Objection db i (.transition next authority version identity metadata)
  | unheld (o : DirectBookingOrder) (next : DirectBookingOrderState)
      (authority : DirectBookingTransitionAuthority) (version : ℤ) (identity : String)
      (metadata : SafeMetadata) (ho : db.orders.find? i = some o)
      (hn : event? db i identity = none)
      (hnext : next = .held ∨ (o.state = .paymentPending ∧ next = .paymentPending))
      (hh : ∀ h, ¬ Holding db o h) :
      Objection db i (.transition next authority version identity metadata)
  | retained (o : DirectBookingOrder) (identity purged : String) (ho : db.orders.find? i = some o)
      (hn : event? db i identity = none) (he : scrubbable db o = false) :
      Objection db i (.recordPiiScrubbed identity purged)

theorem transition_conditions {next : DirectBookingOrderState}
    {authority : DirectBookingTransitionAuthority} {version : ℤ} {metadata : SafeMetadata}
    (ho : db.orders.find? i = some o) (hn : event? db i identity = none)
    (h : Commits (Call.run i (.transition next authority version identity metadata)) db res u) :
    o.stateVersion = version ∧ Transitions db u o next authority identity metadata res := by
  obtain ⟨_, _, o', ho', hcase⟩ := commits_transition h
  obtain rfl : o = o' := Option.some.inj (ho.symm.trans ho')
  obtain rfl : o.id = i := (Table.find?_eq_some.mp ho).2
  rcases hcase with ⟨he, _⟩ | ⟨_, hv, ht⟩
  · simp [hn] at he
  · exact ⟨hv, ht⟩

theorem objection_refused (h : Objection db i c) : ¬ Commits (c.run i) db res u := by
  intro hc
  cases h with
  | reused _ e he hf =>
    obtain ⟨o, ho, ⟨he', hf', _⟩ | ⟨hn, _⟩⟩ := commits_call hc
    · obtain rfl : o.id = i := (Table.find?_eq_some.mp ho).2
      obtain rfl : e = res.event := Option.some.inj (he.symm.trans he')
      exact hf hf'
    · obtain rfl : o.id = i := (Table.find?_eq_some.mp ho).2
      simp [he] at hn
  | stale o next authority version identity metadata ho hn hv =>
    exact hv (transition_conditions ho hn hc).1
  | edge o next authority version identity metadata ho hn he =>
    have hedge := (transition_conditions ho hn hc).2.edge
    simp [he] at hedge
  | unheld o next authority version identity metadata ho hn hnext hh =>
    obtain ⟨t, ha, _⟩ := (transition_conditions ho hn hc).2.adjusted
    obtain ⟨held, hheld⟩ := ha.held hnext
    exact hh held hheld
  | retained o identity purged ho hn he =>
    obtain ⟨_, o', ho', hcase⟩ := commits_recordPiiScrubbed hc
    obtain rfl : o = o' := Option.some.inj (ho.symm.trans ho')
    obtain rfl : o.id = i := (Table.find?_eq_some.mp ho).2
    rcases hcase with ⟨he', _⟩ | ⟨_, _, hs⟩
    · simp [hn] at he'
    · simp [hs.eligible] at he

theorem refused_unchanged (h : ∀ res u, ¬ Commits (c.run i) db res u) :
    perform (c.run i) db = db := by
  rcases perform_cases (x := c.run i) (s := db) with ⟨res, hc⟩ | hsame
  · exact absurd hc (h res _)
  · exact hsame

end Rejection
section Runs

structure Referential (db : Database) : Prop where
  events : ∀ e ∈ db.orderEvents.rows, e.orderId < db.orders.next

theorem intact_of_issue {setting : DirectBookingPropertySetting} {locale currency ref : String}
    {session : DirectBookingTokenService.Session} (hf : Referential db)
    (h : Commits (DirectBookingTokenService.issue setting locale currency session ref) db o t) :
    Intact t o.id o := by
  simp only [DirectBookingTokenService.issue, commits_bind, commits_get, commits_set,
    commits_pure] at h
  obtain ⟨_, _, ⟨rfl, rfl⟩, _, t, hset, ho, rfl⟩ := h
  obtain ⟨hid, hstate, hversion⟩ : o.id = db.orders.next ∧ o.state = .started ∧
      o.stateVersion = 1 := by
    rw [← ho]
    exact ⟨rfl, rfl, rfl⟩
  have hlog : log t o.id = [] := by
    unfold log Table.select
    rw [← hset, List.filter_eq_nil_iff]
    intro e he
    have hlt := hf.events e he
    simp
    omega
  refine ⟨?_, by rw [hlog]; exact numbered_nil, by rw [hlog, hversion]; rfl, ?_⟩
  · rw [← hset, ← ho]
    exact (Table.appends_insert).find?_new
  · rw [hlog, hstate]
    exact .start

theorem log_integrity {setting : DirectBookingPropertySetting} {locale currency ref : String}
    {session : DirectBookingTokenService.Session} {s : Database} (hf : Referential db)
    (hi : Commits (DirectBookingTokenService.issue setting locale currency session ref) db o s)
    (hr : Reaches Step.run (Step.Honest o.id) s t) :
    ∃ o', t.orders.find? o.id = some o' ∧
      o'.stateVersion = (log t o.id).length + 1 ∧
      (log t o.id).map DirectBookingOrderEvent.sequence =
        (List.range (log t o.id).length).map (fun n : ℕ => (n : ℤ) + 1) ∧
      Path .started (log t o.id) o'.state ∧
      (∀ c res u v, Reaches Step.run (Step.Honest o.id) s u → Commits (Call.run o.id c) u res v →
        Reaches Step.run (Step.Honest o.id) v t →
          Commits (Call.run o.id c) t { order := o', event := res.event, replayed := true } t) ∧
      (∀ c, Objection t o.id c → ∀ res u, ¬ Commits (Call.run o.id c) t res u) ∧
      ∀ c, (∀ res u, ¬ Commits (Call.run o.id c) t res u) → perform (Call.run o.id c) t = t := by
  obtain ⟨o', h⟩ := intact_reaches (intact_of_issue hf hi) hr
  refine ⟨o', h.row, h.version, h.sequences, h.path, fun c res u v _ hc hvt => ?_,
    fun c hobj _ _ => objection_refused hobj, fun c => refused_unchanged⟩
  exact call_replays hc h.row (event_kept (call_recorded hc).1 hvt)

end Runs
section Scenario

def setting : DirectBookingPropertySetting where
  propertyId := 0
  initialHoldMinutes := 30
  checkoutExtensionMinutes := 15
  maximumHoldMinutes := 60
  sessionTtlMinutes := 120
  recoveryTtlMinutes := 10080
  retentionDays := 30

def session : DirectBookingTokenService.Session where
  token := "token-0"
  recoveryToken := "recovery-0"

def issued : Database :=
  { LedgerRuns.opening with
    orders := Table.empty.insert (DirectBookingTokenService.opened LedgerRuns.opening setting "es"
      "usd" session "order-0") }

def order₀ : DirectBookingOrder :=
  DirectBookingTokenService.opened LedgerRuns.opening setting "es" "usd" session "order-0" 0

def expire : Call := .transition .expired .scheduler 1 "expire-session-0001" []

def reopen : Call := .transition .started .recovery 2 "recover-session-0002" []

def calling : Step → Bool
  | .call _ _ => true
  | .elsewhere _ => false

theorem honest_of_calling {s : Step} (h : calling s = true) : s.Honest i db := by
  cases s with
  | call _ _ => trivial
  | elsewhere _ => cases h

theorem expired_session_reopens : ∃ t o, Reaches Step.run (Step.Honest 0) issued t ∧
    t.orders.find? 0 = some o ∧ o.stateVersion = 3 ∧ o.state = .started ∧
    (log t 0).map DirectBookingOrderEvent.sequence = [1, 2] ∧ Path .started (log t 0) .started := by
  have hissue : Commits (DirectBookingTokenService.issue setting "es" "usd" session "order-0")
      LedgerRuns.opening order₀ issued := by
    simp only [DirectBookingTokenService.issue, commits_bind, commits_get, commits_set,
      commits_pure]
    exact ⟨_, _, ⟨rfl, rfl⟩, (), _, rfl, rfl, rfl⟩
  have hfk : Referential LedgerRuns.opening := ⟨by simp [LedgerRuns.opening, Table.empty]⟩
  obtain ⟨t, hr, hp⟩ : ∃ t, Reaches Step.run (Step.Honest 0) issued t ∧
      decide ((t.orders.find? 0).map (fun o => (o.stateVersion, o.state)) = some (3, .started) ∧
        (log t 0).map DirectBookingOrderEvent.sequence = [1, 2]) = true :=
    Reaches.exists_of_execute (fun _ _ => honest_of_calling)
      [.call 0 expire, .call 0 reopen, .call 0 expire] (by decide)
  obtain ⟨horder, hseq⟩ := of_decide_eq_true hp
  obtain ⟨o, ho, hversion, _, hpath, _⟩ := log_integrity hfk hissue hr
  have ho : t.orders.find? 0 = some o := ho
  obtain ⟨hv, hst⟩ : o.stateVersion = 3 ∧ o.state = .started := by simpa [ho] using horder
  exact ⟨t, o, hr, ho, hv, hst, hseq, hst ▸ hpath⟩

end Scenario
end EventLog
