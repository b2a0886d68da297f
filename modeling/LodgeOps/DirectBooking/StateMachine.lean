import LodgeOps.Schema.Database

namespace DirectBookingPrivacy
open Schema

def attributionKeys : List String :=
  ["utm_source", "utm_medium", "utm_campaign", "utm_content", "utm_term", "referrer_host",
    "landing_path"]

def hostChar (c : Char) : Bool := c.isAlphanum || c == '.' || c == '-'

def attributable (key value : String) : Bool :=
  value != "" && value.utf8ByteSize ≤ 200 && value.toList.all (fun c => 32 ≤ c.toNat) &&
    (key != "landing_path" || (value.toList.head? == some '/' && !value.toList.contains '?')) &&
    (key != "referrer_host" || value.toList.all hostChar)

def attribution (input : List (String × String)) : List (String × String) :=
  ((input.filter fun e => attributionKeys.contains e.1).map fun e => (e.1, trim e.2)).filter
    fun e => attributable e.1 e.2

def allowedFacts : List String :=
  ["reason_code", "failure_code", "provider_event_reference_hash", "reservation_revision",
    "payment_request_reference", "scheduler_outcome", "recovery_mode", "hold_extension_minutes"]

def revealing : Scalar → Bool
  | .string s => decide (160 < s.utf8ByteSize) || s.toList.contains '@'
  | _ => false

def safeEventMetadata (metadata : SafeMetadata) : Except Failure Unit := do
  refuse (metadata.any (fun e => !allowedFacts.contains e.1) = true) (.invalidArgument
    "Direct-booking events may contain only allowlisted non-PII facts.")
  refuse (metadata.any (fun e => revealing e.2) = true) (.invalidArgument
    "Direct-booking event facts must not contain contact details.")

end DirectBookingPrivacy

namespace DirectBookingTokenService
open Schema Transaction

-- Tokens stand for their hashes.
structure Session where
  token : String
  recoveryToken : String
  attribution : List (String × String) := []
  ipPrefixHash : Option String := none

def opened (db : Database) (setting : DirectBookingPropertySetting) (locale currency : String)
    (session : Session) (publicReference : String) (i : ℕ) : DirectBookingOrder where
  id := i
  propertyId := setting.propertyId
  publicReference := publicReference
  state := .started
  stateVersion := 1
  tokenHash := session.token
  recoveryTokenHash := some session.recoveryToken
  attribution := some (DirectBookingPrivacy.attribution session.attribution)
  ipPrefixHash := session.ipPrefixHash
  locale := locale
  currency := currency.map Char.toUpper
  sessionExpiresAt := db.clock + 60 * setting.sessionTtlMinutes
  recoveryExpiresAt := some (db.clock + 60 * setting.recoveryTtlMinutes)
  retainedUntil := db.clock + 86400 * setting.retentionDays

def issue (setting : DirectBookingPropertySetting) (locale currency : String) (session : Session)
    (publicReference : String) : Tx DirectBookingOrder := do
  let db ← get
  set { db with orders := db.orders.insert (opened db setting locale currency session
    publicReference) }
  pure (opened db setting locale currency session publicReference db.orders.next)

end DirectBookingTokenService

namespace DirectBookingStateMachine
open Schema Transaction DirectBookingOrderState DirectBookingTransitionAuthority

section Transitions

def transitions : DirectBookingOrderState →
    List (DirectBookingOrderState × DirectBookingTransitionAuthority)
  | started => [(quoted, pricing), (expired, scheduler)]
  | quoted => [(held, inventory), (expired, scheduler)]
  | held => [(paymentPending, paymentOrchestrator), (awaitingManualPayment, paymentOrchestrator),
      (expired, scheduler)]
  | paymentPending => [(paymentPending, paymentOrchestrator),
      (paidPendingConfirmation, providerLookup), (paymentFailed, providerLookup),
      (paidNeedsReview, providerLookup), (expired, scheduler)]
  | awaitingManualPayment => [(evidencePending, guestEvidence), (expired, scheduler)]
  | evidencePending => [(financeReview, evidenceScanner), (financeReview, scheduler),
      (evidenceRejected, evidenceScanner)]
  | financeReview => [(confirmed, finance), (evidenceRejected, finance), (refunded, refund)]
  | paidPendingConfirmation => [(confirmed, reservation), (paidNeedsReview, reservation)]
  | paymentFailed => [(paymentPending, paymentOrchestrator), (expired, scheduler)]
  | evidenceRejected => [(awaitingManualPayment, paymentOrchestrator), (expired, scheduler)]
  | expired => [(started, recovery), (paidNeedsReview, providerLookup), (expired, scheduler)]
  | paidNeedsReview => [(confirmed, finance), (refunded, refund)]
  | confirmed => [(canceled, cancellation), (refunded, refund), (confirmed, scheduler)]
  | canceled => [(refunded, refund), (canceled, scheduler)]
  | refunded => [(refunded, scheduler)]

def authorized (current next : DirectBookingOrderState)
    (authority : DirectBookingTransitionAuthority) : Bool :=
  decide ((next, authority) ∈ transitions current)

def identityChar (c : Char) : Bool :=
  c.isAlphanum || c == '.' || c == '_' || c == ':' || c == '-'

-- The pattern's closing anchor also matches before a final newline.
def identityBody (identity : String) : List Char :=
  if identity.toList.getLast? = some '\n' then identity.toList.dropLast else identity.toList

def wellFormed (identity : String) : Bool :=
  (identityBody identity).all identityChar && 16 ≤ (identityBody identity).length &&
    (identityBody identity).length ≤ 160

def canonical (metadata : SafeMetadata) : SafeMetadata :=
  metadata.insertionSort fun e f => e.1 ≤ f.1

def leadingInt (s : String) : ℤ :=
  let s := s.toList.dropWhile blank
  let digits := fun (l : List Char) =>
    (l.takeWhile Char.isDigit).foldl (fun n c => 10 * n + (c.toNat - 48 : ℤ)) 0
  match s with
  | '-' :: rest => -digits rest
  | '+' :: rest => digits rest
  | rest => digits rest

def scalarInt : Scalar → ℤ
  | .null => 0
  | .bool b => if b then 1 else 0
  | .int n => n
  | .string s => leadingInt s

def extensionMinutes (metadata : SafeMetadata) : ℤ :=
  scalarInt (((metadata.find? fun e => e.1 == "hold_extension_minutes").map Prod.snd).getD .null)

end Transitions

section Failures

def invalidIdentity : Failure := .directBooking .validation "The retry identity is invalid."

def reusedIdentity : Failure := .directBooking .idempotencyConflict
  "This retry identity was already used for different transition facts."

def conflictingMaintenance : Failure :=
  .directBooking .idempotencyConflict "The maintenance retry identity conflicts."

def staleVersion : Failure := .directBooking .conflict
  "The booking state version changed. Refresh status before retrying."

def retainedSession : Failure := .directBooking .conflict
  "The retained booking session has already been closed."

def unauthorized : Failure := .directBooking .conflict
  "The requested booking transition is not authorized from the current state."

def staleQuote : Failure := .directBooking .quoteStale
  "The authoritative booking quote is missing or expired."

def missingHold : Failure := .directBooking .holdExpired
  "The authoritative reservation hold is missing or expired."

end Failures

section Adjustments

-- The columns a transition sets besides the state, its version and its time stamps.
structure Adjustment where
  quoteExpiresAt : Option ℤ := none
  holdExpiresAt : Option ℤ := none
  checkoutExpiresAt : Option ℤ := none
  holdExtendedAt : Option ℤ := none

def quoteAdjustment (o : DirectBookingOrder) : Tx Adjustment := do
  let db ← get
  let quote ← orFail (o.bookingQuoteId.bind db.quotes.find?) staleQuote
  reject (quote.propertyId ≠ o.propertyId ∨ db.isFuture quote.expiresAt = false) staleQuote
  pure { quoteExpiresAt := some quote.expiresAt }

structure HeldReservation where
  reservation : Reservation
  expiresAt : ℤ

def lockedHeldReservation (o : DirectBookingOrder) : Tx HeldReservation := do
  let db ← get
  let r ← orFail (o.reservationId.bind db.reservation?) missingHold
  let expiresAt ← orFail r.holdExpiresAt missingHold
  reject (r.propertyId ≠ o.propertyId ∨ r.bookingQuoteId ≠ o.bookingQuoteId ∨ r.status ≠ .hold ∨
    db.isFuture expiresAt = false) missingHold
  pure { reservation := r, expiresAt }

def holdAdjustment (o : DirectBookingOrder) : Tx Adjustment := do
  let db ← get
  let setting ← orFail (db.settings o.propertyId) .modelNotFound
  let held ← lockedHeldReservation o
  reject (db.clock + 60 * setting.initialHoldMinutes < held.expiresAt) (.directBooking .conflict
    "The authoritative reservation hold exceeds direct-booking policy.")
  pure { holdExpiresAt := some held.expiresAt }

def heldUntil (expiresAt : ℤ) (r : Reservation) : Reservation :=
  { r with holdExpiresAt := some expiresAt }

def payableUntil (expiresAt : ℤ) (q : PaymentRequest) : PaymentRequest :=
  { q with expiresAt := expiresAt }

def extendRequest (o : DirectBookingOrder) (expiresAt : ℤ) : Tx Unit :=
  match o.paymentRequestId with
  | none => pure ()
  | some i => do
    let db ← get
    let request ← orFail (db.paymentRequests.find? i) .modelNotFound
    set { db with
      paymentRequests := db.paymentRequests.update request.id (payableUntil expiresAt) }

def noExtension : Failure := .directBooking .conflict
  "The hosted-checkout hold extension is unavailable."

def nextExpiry (holdExpiresAt heldAt requested : ℤ) (setting : DirectBookingPropertySetting) : ℤ :=
  min (holdExpiresAt + 60 * requested) (heldAt + 60 * setting.maximumHoldMinutes)

def extensionAdjustment (o : DirectBookingOrder) (metadata : SafeMetadata) : Tx Adjustment := do
  let db ← get
  let setting ← orFail (db.settings o.propertyId) .modelNotFound
  let held ← lockedHeldReservation o
  reject (o.holdExtendedAt ≠ none) noExtension
  let heldAt ← orFail o.heldAt noExtension
  let holdExpiresAt ← orFail o.holdExpiresAt noExtension
  reject (held.expiresAt ≠ holdExpiresAt) noExtension
  let requested := extensionMinutes metadata
  reject (requested < 1 ∨ setting.checkoutExtensionMinutes < requested) (.directBooking .validation
    "The hosted-checkout hold extension exceeds policy.")
  let expiresAt := nextExpiry holdExpiresAt heldAt requested setting
  reject (db.isFuture expiresAt = false ∨ expiresAt ≤ holdExpiresAt) (.directBooking .holdExpired
    "The reservation hold can no longer be extended.")
  set { db with reservations := db.reservations.update held.reservation.id (heldUntil expiresAt) }
  extendRequest o expiresAt
  pure
    { holdExpiresAt := some expiresAt
      checkoutExpiresAt := some expiresAt
      holdExtendedAt := some db.clock }

def adjustment (o : DirectBookingOrder) (next : DirectBookingOrderState)
    (metadata : SafeMetadata) : Tx Adjustment :=
  if next = quoted then quoteAdjustment o
  else if next = held then holdAdjustment o
  else if o.state = paymentPending ∧ next = paymentPending then extensionAdjustment o metadata
  else pure {}

def stamped (next : DirectBookingOrderState) (now : ℤ) (o : DirectBookingOrder) :
    DirectBookingOrder :=
  match next with
  | quoted => { o with quotedAt := some now }
  | held => { o with heldAt := some now }
  | paymentPending | awaitingManualPayment => { o with paymentStartedAt := some now }
  | paidPendingConfirmation | paidNeedsReview => { o with paidAt := some now }
  | confirmed => { o with confirmedAt := some now }
  | _ => o

def failureCode (next : DirectBookingOrderState) (o : DirectBookingOrder) :
    Option DirectBookingErrorCode :=
  match next with
  | paymentFailed => some .paymentFailed
  | paidNeedsReview => some .paidNeedsReview
  | quoted | held | paymentPending => none
  | _ => o.safeFailureCode

def moved (next : DirectBookingOrderState) (version now : ℤ) (a : Adjustment)
    (o : DirectBookingOrder) : DirectBookingOrder :=
  { stamped next now o with
    state := next
    stateVersion := version
    safeFailureCode := failureCode next o
    quoteExpiresAt := a.quoteExpiresAt.orElse fun _ => o.quoteExpiresAt
    holdExpiresAt := a.holdExpiresAt.orElse fun _ => o.holdExpiresAt
    checkoutExpiresAt := a.checkoutExpiresAt.orElse fun _ => o.checkoutExpiresAt
    holdExtendedAt := a.holdExtendedAt.orElse fun _ => o.holdExtendedAt }

theorem keeps_moved (next : DirectBookingOrderState) (version now : ℤ) (a : Adjustment) :
    Keeps (moved next version now a) := by
  intro o
  cases next <;> rfl

end Adjustments

section Operations

structure TransitionResult where
  order : DirectBookingOrder
  event : DirectBookingOrderEvent
  replayed : Bool
deriving DecidableEq

def lockedOrder (i : ℕ) : Tx DirectBookingOrder := do
  let db ← get
  orFail (db.orders.find? i) .modelNotFound

def event? (db : Database) (orderId : ℕ) (identity : String) : Option DirectBookingOrderEvent :=
  db.orderEvents.first? fun e => e.orderId == orderId && e.retryIdentity == identity

def logged (o : DirectBookingOrder) (next : DirectBookingOrderState)
    (authority : DirectBookingTransitionAuthority) (identity : String) (metadata : SafeMetadata)
    (now : ℤ) (i : ℕ) : DirectBookingOrderEvent where
  id := i
  orderId := o.id
  eventType := .transition
  sequence := o.stateVersion + 1 - 1
  fromState := o.state
  toState := next
  authority := authority
  retryIdentity := identity
  requestChecksum := .transition next authority o.stateVersion (canonical metadata)
  stateVersion := o.stateVersion + 1
  safeMetadata := if metadata = [] then none else some metadata
  occurredAt := now

def move (o : DirectBookingOrder) (next : DirectBookingOrderState)
    (authority : DirectBookingTransitionAuthority) (identity : String)
    (metadata : SafeMetadata) : Tx TransitionResult := do
  let a ← adjustment o next metadata
  let db ← get
  set { db with
    orders := db.orders.update o.id (moved next (o.stateVersion + 1) db.clock a)
      (keeps_moved _ _ _ _)
    orderEvents := db.orderEvents.insert (logged o next authority identity metadata db.clock) }
  pure
    { order := moved next (o.stateVersion + 1) db.clock a o
      event := logged o next authority identity metadata db.clock db.orderEvents.next
      replayed := false }

def transition (orderId : ℕ) (next : DirectBookingOrderState)
    (authority : DirectBookingTransitionAuthority) (expectedVersion : ℤ) (identity : String)
    (metadata : SafeMetadata := []) : Tx TransitionResult := do
  reject (wellFormed identity = false) invalidIdentity
  check fun _ => DirectBookingPrivacy.safeEventMetadata metadata
  let locked ← lockedOrder orderId
  let db ← get
  match event? db locked.id identity with
  | some existing => do
    reject (existing.requestChecksum ≠
      .transition next authority expectedVersion (canonical metadata)) reusedIdentity
    pure { order := locked, event := existing, replayed := true }
  | none => do
    reject (locked.stateVersion ≠ expectedVersion) staleVersion
    reject (locked.piiScrubbedAt ≠ none ∧ next ≠ locked.state) retainedSession
    reject (authorized locked.state next authority = false) unauthorized
    move locked next authority identity metadata

def scrubbable (db : Database) (o : DirectBookingOrder) : Bool :=
  (o.state == expired || o.state == confirmed || o.state == canceled || o.state == refunded) &&
    !db.isFuture o.retainedUntil && o.piiScrubbedAt.isNone

def scrubbed (purged : String) (version now : ℤ) (o : DirectBookingOrder) : DirectBookingOrder :=
  { o with
    stateVersion := version
    tokenHash := "purged:" ++ purged
    recoveryTokenHash := none
    guestContact := none
    guestContactChecksum := none
    attribution := none
    ipPrefixHash := none
    revokedAt := some (o.revokedAt.getD now)
    piiScrubbedAt := some now }

def scrubLogged (o : DirectBookingOrder) (identity : String) (now : ℤ) (i : ℕ) :
    DirectBookingOrderEvent where
  id := i
  orderId := o.id
  eventType := .piiScrubbed
  sequence := o.stateVersion + 1 - 1
  fromState := o.state
  toState := o.state
  authority := .scheduler
  retryIdentity := identity
  requestChecksum := .piiScrubbed
  stateVersion := o.stateVersion + 1
  safeMetadata := some [("scheduler_outcome", .string "session_pii_scrubbed")]
  occurredAt := now

def scrub (o : DirectBookingOrder) (identity purged : String) : Tx TransitionResult := do
  let db ← get
  set { db with
    orders := db.orders.update o.id (scrubbed purged (o.stateVersion + 1) db.clock)
    orderEvents := db.orderEvents.insert (scrubLogged o identity db.clock) }
  pure
    { order := scrubbed purged (o.stateVersion + 1) db.clock o
      event := scrubLogged o identity db.clock db.orderEvents.next
      replayed := false }

def recordPiiScrubbed (orderId : ℕ) (identity purged : String) : Tx TransitionResult := do
  reject (wellFormed identity = false) invalidIdentity
  let locked ← lockedOrder orderId
  let db ← get
  match event? db locked.id identity with
  | some existing => do
    reject (existing.eventType ≠ .piiScrubbed ∨ existing.requestChecksum ≠ .piiScrubbed)
      conflictingMaintenance
    pure { order := locked, event := existing, replayed := true }
  | none => do
    reject (scrubbable db locked = false) (.directBooking .conflict
      "The booking order is not eligible for PII retention cleanup.")
    scrub locked identity purged

end Operations
section Commits
variable {db t u : Database} {o : DirectBookingOrder} {next : DirectBookingOrderState}
variable {authority : DirectBookingTransitionAuthority} {identity purged : String}
variable {metadata : SafeMetadata} {a : Adjustment} {res : TransitionResult} {i : ℕ} {version : ℤ}

theorem commits_lockedOrder : Commits (lockedOrder i) db o t ↔ db.orders.find? i = some o ∧ db = t := by
  simp [lockedOrder, and_comm]

structure Holding (db : Database) (o : DirectBookingOrder) (h : HeldReservation) : Prop where
  row : o.reservationId.bind db.reservation? = some h.reservation
  expiry : h.reservation.holdExpiresAt = some h.expiresAt
  status : h.reservation.status = .hold
  property : h.reservation.propertyId = o.propertyId
  quote : h.reservation.bookingQuoteId = o.bookingQuoteId
  future : db.isFuture h.expiresAt = true

theorem commits_lockedHeldReservation {h : HeldReservation}
    (hc : Commits (lockedHeldReservation o) db h t) : Holding db o h ∧ t = db := by
  simp only [lockedHeldReservation, commits_bind, commits_get, commits_orFail, commits_reject,
    commits_pure] at hc
  obtain ⟨_, _, ⟨rfl, rfl⟩, r, _, ⟨hr, rfl⟩, e, _, ⟨he, rfl⟩, _, _, ⟨hok, rfl⟩, rfl, rfl⟩ := hc
  simp only [not_or, not_not, Bool.not_eq_false] at hok
  exact ⟨⟨hr, he, hok.2.2.1, hok.1, hok.2.1, hok.2.2.2⟩, rfl⟩

-- What the side conditions of a transition leave behind: at most a longer hold.
structure Adjusted (db t : Database) (o : DirectBookingOrder) (next : DirectBookingOrderState) :
    Prop where
  reservations : t.reservations = db.reservations ∨
    ∃ i e, Table.Updates db.reservations t.reservations i (heldUntil e)
  requests : t.paymentRequests = db.paymentRequests ∨
    ∃ i e, Table.Updates db.paymentRequests t.paymentRequests i (payableUntil e)
  frame : t = { db with reservations := t.reservations, paymentRequests := t.paymentRequests }
  still : next ≠ paymentPending → t = db
  held : next = held ∨ (o.state = paymentPending ∧ next = paymentPending) → ∃ h, Holding db o h

theorem adjusted_same (h : ¬ (next = held ∨ (o.state = paymentPending ∧ next = paymentPending))) :
    Adjusted db db o next :=
  ⟨Or.inl rfl, Or.inl rfl, rfl, fun _ => rfl, fun hc => absurd hc h⟩

theorem commits_extendRequest {e : ℤ} {x : Unit} (h : Commits (extendRequest o e) db x t) :
    (t.paymentRequests = db.paymentRequests ∨
      ∃ i e, Table.Updates db.paymentRequests t.paymentRequests i (payableUntil e)) ∧
    t = { db with paymentRequests := t.paymentRequests } := by
  unfold extendRequest at h
  cases ho : o.paymentRequestId with
  | none =>
    simp only [ho, commits_pure] at h
    obtain ⟨_, rfl⟩ := h
    exact ⟨Or.inl rfl, rfl⟩
  | some i =>
    simp only [ho, commits_bind, commits_get, commits_orFail, commits_set] at h
    obtain ⟨_, _, ⟨rfl, rfl⟩, q, _, ⟨_, rfl⟩, rfl⟩ := h
    exact ⟨Or.inr ⟨q.id, e, Table.updates_update⟩, rfl⟩

theorem commits_extensionAdjustment (hs : o.state = paymentPending ∧ next = paymentPending)
    (h : Commits (extensionAdjustment o metadata) db a t) : Adjusted db t o next := by
  unfold extensionAdjustment at h
  obtain ⟨g, _, h⟩ := commits_orFail_bind.mp (commits_get_bind.mp h)
  obtain ⟨held, _, hlock, h⟩ := commits_bind.mp h
  obtain ⟨hheld, rfl⟩ := commits_lockedHeldReservation hlock
  obtain ⟨_, h⟩ := commits_reject_bind.mp h
  obtain ⟨b, _, h⟩ := commits_orFail_bind.mp h
  obtain ⟨e, _, h⟩ := commits_orFail_bind.mp h
  obtain ⟨_, h⟩ := commits_reject_bind.mp h
  obtain ⟨_, h⟩ := commits_reject_bind.mp h
  obtain ⟨_, h⟩ := commits_reject_bind.mp h
  obtain ⟨_, v, hset, h⟩ := commits_bind.mp h
  obtain ⟨_, _, hext, h⟩ := commits_bind.mp h
  obtain ⟨_, rfl⟩ := commits_pure.mp h
  rw [commits_set] at hset
  obtain ⟨hreq, hf⟩ := commits_extendRequest hext
  rw [← hset] at hreq hf
  refine ⟨Or.inr ⟨held.reservation.id, nextExpiry e b (extensionMinutes metadata) g, ?_⟩, hreq, ?_,
    fun hn => absurd hs.2 hn, fun _ => ⟨held, hheld⟩⟩
  · rw [hf]
    exact Table.updates_update
  · rw [hf]

theorem commits_adjustment (h : Commits (adjustment o next metadata) db a t) :
    Adjusted db t o next := by
  simp only [adjustment, commits_ite] at h
  rcases h with ⟨rfl, h⟩ | ⟨_, ⟨rfl, h⟩ | ⟨hn, ⟨hs, h⟩ | ⟨hn', h⟩⟩⟩
  · simp only [quoteAdjustment, commits_bind, commits_get, commits_orFail, commits_reject,
      commits_pure] at h
    obtain ⟨_, _, ⟨rfl, rfl⟩, _, _, ⟨_, rfl⟩, _, _, ⟨_, rfl⟩, _, rfl⟩ := h
    exact adjusted_same (by simp)
  · simp only [holdAdjustment, commits_bind, commits_get, commits_orFail, commits_reject,
      commits_pure] at h
    obtain ⟨_, _, ⟨rfl, rfl⟩, _, _, ⟨_, rfl⟩, held, _, hlock, _, _, ⟨_, rfl⟩, _, rfl⟩ := h
    obtain ⟨hheld, rfl⟩ := commits_lockedHeldReservation hlock
    exact ⟨Or.inl rfl, Or.inl rfl, rfl, fun _ => rfl, fun _ => ⟨held, hheld⟩⟩
  · exact commits_extensionAdjustment hs h
  · simp only [commits_pure] at h
    obtain ⟨_, rfl⟩ := h
    exact adjusted_same (by simp [hn, hn'])

-- One written step: the order moves on and exactly one event tells how.
structure Records (db u : Database) (o : DirectBookingOrder) (identity : String)
    (facts : TransitionFacts) (res : TransitionResult) : Prop where
  order : ∃ f, Table.Updates db.orders u.orders o.id f ∧ f o = res.order
  appended : Table.Appends db.orderEvents u.orderEvents res.event
  owner : res.event.orderId = o.id
  identity : res.event.retryIdentity = identity
  facts : res.event.requestChecksum = facts
  sequence : res.event.sequence = o.stateVersion
  source : res.event.fromState = o.state
  target : res.event.toState = res.order.state
  version : res.order.stateVersion = o.stateVersion + 1
  allowed : authorized res.event.fromState res.event.toState res.event.authority = true
  fresh : res.replayed = false

structure Transitions (db u : Database) (o : DirectBookingOrder) (next : DirectBookingOrderState)
    (authority : DirectBookingTransitionAuthority) (identity : String) (metadata : SafeMetadata)
    (res : TransitionResult) : Prop extends Records db u o identity
      (.transition next authority o.stateVersion (canonical metadata)) res where
  edge : authorized o.state next authority = true
  retained : o.piiScrubbedAt = none ∨ next = o.state
  moved : ∃ a, Table.Updates db.orders u.orders o.id (moved next (o.stateVersion + 1) db.clock a) ∧
    res.order = DirectBookingStateMachine.moved next (o.stateVersion + 1) db.clock a o
  adjusted : ∃ t, Adjusted db t o next ∧
    u = { t with orders := u.orders, orderEvents := u.orderEvents }

theorem commits_move (he : authorized o.state next authority = true)
    (hp : o.piiScrubbedAt = none ∨ next = o.state)
    (h : Commits (move o next authority identity metadata) db res u) :
    Transitions db u o next authority identity metadata res := by
  simp only [move, commits_bind, commits_get, commits_set, commits_pure] at h
  obtain ⟨a, t, hadj, _, _, ⟨rfl, rfl⟩, _, u, hset, rfl, rfl⟩ := h
  have ha := commits_adjustment hadj
  have hclock : t.clock = db.clock := by rw [ha.frame]
  have horders : t.orders = db.orders := by rw [ha.frame]
  have hevents : t.orderEvents = db.orderEvents := by rw [ha.frame]
  have hu : Table.Updates db.orders u.orders o.id
      (DirectBookingStateMachine.moved next (o.stateVersion + 1) t.clock a) := by
    rw [← hset, ← horders]
    exact Table.updates_update (keeps_moved _ _ _ _)
  have hstate : (DirectBookingStateMachine.moved next (o.stateVersion + 1) t.clock a o).state =
      next := rfl
  refine ⟨⟨⟨_, hu, rfl⟩, ?_, rfl, rfl, rfl, ?_, rfl, hstate.symm, rfl, he, rfl⟩, he, hp,
    ⟨a, hclock ▸ hu, by rw [hclock]⟩, t, ha, ?_⟩
  · rw [← hset, ← hevents]
    exact Table.appends_insert
  · exact add_sub_cancel_right _ _
  · rw [← hset]

theorem commits_transition (h : Commits (transition i next authority version identity metadata)
    db res u) : wellFormed identity = true ∧
      DirectBookingPrivacy.safeEventMetadata metadata = .ok () ∧
      ∃ o, db.orders.find? i = some o ∧
        ((event? db o.id identity = some res.event ∧ res.event.requestChecksum =
            .transition next authority version (canonical metadata) ∧ res.order = o ∧
            res.replayed = true ∧ u = db) ∨
          (event? db o.id identity = none ∧ o.stateVersion = version ∧
            Transitions db u o next authority identity metadata res)) := by
  simp only [transition, commits_bind, commits_reject, commits_check, commits_lockedOrder,
    commits_get] at h
  obtain ⟨_, _, ⟨hw, rfl⟩, _, _, ⟨hm, rfl⟩, o, _, ⟨ho, rfl⟩, _, _, ⟨rfl, rfl⟩, h⟩ := h
  refine ⟨by simpa using hw, hm, o, ho, ?_⟩
  cases hx : event? db o.id identity with
  | some existing =>
    simp only [hx, commits_bind, commits_reject, commits_pure] at h
    obtain ⟨_, _, ⟨hc, rfl⟩, rfl, rfl⟩ := h
    exact Or.inl ⟨rfl, not_not.mp hc, rfl, rfl, rfl⟩
  | none =>
    simp only [hx, commits_bind, commits_reject] at h
    obtain ⟨_, _, ⟨hv, rfl⟩, _, _, ⟨hp, rfl⟩, _, _, ⟨he, rfl⟩, hmove⟩ := h
    rw [not_and_or, not_not, not_not] at hp
    exact Or.inr ⟨rfl, not_not.mp hv, commits_move (by simpa using he) hp hmove⟩

structure Scrubs (db u : Database) (o : DirectBookingOrder) (identity purged : String)
    (res : TransitionResult) : Prop extends Records db u o identity .piiScrubbed res where
  eligible : scrubbable db o = true
  scrubbed : Table.Updates db.orders u.orders o.id (scrubbed purged (o.stateVersion + 1) db.clock)
  frame : u = { db with orders := u.orders, orderEvents := u.orderEvents }

theorem scrubbable_loop (h : scrubbable db o = true) :
    authorized o.state o.state .scheduler = true := by
  simp only [scrubbable, Bool.and_eq_true, Bool.or_eq_true, beq_iff_eq] at h
  obtain ⟨⟨((hs | hs) | hs) | hs, _⟩, _⟩ := h
  all_goals
    rw [hs]
    decide

theorem commits_recordPiiScrubbed (h : Commits (recordPiiScrubbed i identity purged) db res u) :
    wellFormed identity = true ∧ ∃ o, db.orders.find? i = some o ∧
      ((event? db o.id identity = some res.event ∧ res.event.eventType = .piiScrubbed ∧
          res.event.requestChecksum = .piiScrubbed ∧ res.order = o ∧ res.replayed = true ∧ u = db) ∨
        (event? db o.id identity = none ∧ res.event.eventType = .piiScrubbed ∧
          Scrubs db u o identity purged res)) := by
  simp only [recordPiiScrubbed, commits_bind, commits_reject, commits_lockedOrder,
    commits_get] at h
  obtain ⟨_, _, ⟨hw, rfl⟩, o, _, ⟨ho, rfl⟩, _, _, ⟨rfl, rfl⟩, h⟩ := h
  refine ⟨by simpa using hw, o, ho, ?_⟩
  cases hx : event? db o.id identity with
  | some existing =>
    simp only [hx, commits_bind, commits_reject, commits_pure, not_or, not_not] at h
    obtain ⟨_, _, ⟨hc, rfl⟩, rfl, rfl⟩ := h
    exact Or.inl ⟨rfl, hc.1, hc.2, rfl, rfl, rfl⟩
  | none =>
    simp only [hx, scrub, commits_bind, commits_reject, commits_get, commits_set,
      commits_pure] at h
    obtain ⟨_, _, ⟨he, rfl⟩, _, _, ⟨rfl, rfl⟩, _, _, rfl, rfl, rfl⟩ := h
    have he : scrubbable db o = true := by simpa using he
    refine Or.inr ⟨rfl, rfl, ⟨⟨_, Table.updates_update, rfl⟩, Table.appends_insert, rfl, rfl, rfl,
      add_sub_cancel_right _ _, rfl, rfl, rfl, scrubbable_loop he, rfl⟩, he,
      Table.updates_update, rfl⟩

end Commits
end DirectBookingStateMachine
