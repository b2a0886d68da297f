import LodgeOps.Automation.Templates

open CanonicalJson (Value Key)
open Schema (trim)

namespace OutboxRecorder
open Automation

def message (tenantId : ℕ) (eventType : String) (payload : Value) (now : ℤ) (i : ℕ) : Outbox where
  id := i
  tenantId := tenantId
  eventType := eventType
  payload := payload
  occurredAt := now
  availableAt := now

def record (tenantId : ℕ) (eventType : String) (payload : Value) : AutomationTx Unit :=
  modify fun s => { s with outbox := s.outbox.insert (message tenantId eventType payload s.clock) }

def communicationQueued (c : Communication) : AutomationTx Unit :=
  record c.tenantId "communication.queued" (.array
    [(.str "communication_id", .str (toString c.id)), (.str "channel", .str c.channel)])

end OutboxRecorder

namespace MessageTemplateService
open Automation Transaction

structure Draft where
  guestId : Option String
  reservationId : Option String
  channel : String
  status : String
  subject : Option String
  body : Option String
  metadata : CommunicationMetadata

def communication (tenantId : ℕ) (key : String) (d : Draft) (i : ℕ) : Communication where
  id := i
  tenantId := tenantId
  automationKey := some key
  guestId := d.guestId
  reservationId := d.reservationId
  channel := d.channel
  status := d.status
  subject := d.subject
  body := d.body
  metadata := d.metadata

def keyed? (s : AutomationStore) (tenantId : ℕ) (key : String) : Option Communication :=
  s.communications.first? fun c => c.tenantId == tenantId && c.automationKey == some key

-- The row, and whether it was recently created.
def firstOrCreate (tenantId : ℕ) (key : String) (d : Draft) :
    AutomationTx (Communication × Bool) := do
  let s ← get
  match keyed? s tenantId key with
  | some c => pure (c, false)
  | none => do
    set { s with communications := s.communications.insert (communication tenantId key d) }
    pure (communication tenantId key d s.communications.next, true)

def queued (tenantId : ℕ) (key : String) (d : Draft) : AutomationTx Communication := do
  let created ← firstOrCreate tenantId key d
  if created.2 = true then do
    OutboxRecorder.communicationQueued created.1
    pure created.1
  else pure created.1

def recipient (g : AddressedGuest) (channel : String) : Option String :=
  if channel = "email" then g.email else g.phone

-- The hash of the address stands for it.
def recipientHash (address : String) : String :=
  String.ofList ((trim address).toList.map Char.toLower)

def isSuppressed (s : AutomationStore) (g : AddressedGuest) (channel : String) : Bool :=
  ((recipient g channel).filter fun a => trim a != "").any fun a =>
    s.suppressions.any fun x => x.tenantId == g.tenantId && x.channel == channel &&
      x.recipientHash == recipientHash a && x.expiresAt.all (s.clock < ·)

def latest (versions : List TemplateVersion) (p : TemplateVersion → Bool) :
    Option TemplateVersion :=
  (versions.filter fun v => v.isPublished && p v).argmax TemplateVersion.version

def versionFor (t : MessageTemplate) (language : String) : Option TemplateVersion :=
  (latest t.versions (·.language == language)).or (latest t.versions fun _ => true)

def suppressed : AutomationException := .domain "Communication to this recipient is suppressed."

def queue (t : MessageTemplate) (g : AddressedGuest) (language key : String) (context : Value)
    (reservationId : Option String) : AutomationTx Communication := do
  let address ← orFail ((recipient g t.channel).filter (· != ""))
    (.domain "The guest has no recipient address for this channel.")
  let s ← get
  reject (isSuppressed s g t.channel = true) suppressed
  let version ← orFail (versionFor t language)
    (.domain "No published template version is available.")
  queued t.tenantId key
    { guestId := some g.id
      reservationId := reservationId
      channel := t.channel
      status := "queued"
      subject := version.subject.map (AutomationTemplateRenderer.render · context)
      body := version.body.map (AutomationTemplateRenderer.render · context)
      metadata :=
        { template := some (t.id, version.version, version.language)
          recipientHash := some (recipientHash address) } }

end MessageTemplateService

namespace GuestPortalTokenService
open Automation Transaction

def access (tenantId : ℕ) (reservationId guestId : String) (expiresAt : ℤ) (i : ℕ) :
    GuestPortalAccessToken where
  id := i
  tenantId := tenantId
  reservationId := reservationId
  guestId := guestId
  expiresAt := expiresAt

-- The random text of the token is that of its row's id.
def issue (r : ArrayRow) (g : AddressedGuest) : AutomationTx ℕ := do
  let s ← get
  reject (AutomationContext.text? (AutomationContext.field r.attributes "primary_guest_id") ≠ some g.id ∧
      s.companions.contains (r.id, g.id) = false)
    (.logic "Guest portal access can only be issued to a guest on the reservation.")
  set { s with
    portalTokens := s.portalTokens.insert
      (access r.tenantId r.id g.id (s.clock + 60 * s.linkMinutes)) }
  pure s.portalTokens.next

end GuestPortalTokenService

namespace AutomationActionExecutor
open Automation Transaction AutomationContext

-- One action of one rule, fired by one message.
structure Firing where
  tenant : Tenant
  message : Outbox
  rule : AutomationRule
  actionIndex : ℕ
  action : Value
  context : Value

namespace Firing

def automationKey (f : Firing) (suffix : String) : String :=
  ":".intercalate [toString f.message.id, toString f.rule.id, toString f.actionIndex, suffix]

def origin (f : Firing) (type : String) : AutomationOrigin where
  ruleId := f.rule.id
  outboxId := f.message.id
  actionIndex := f.actionIndex
  actionType := type

def within (f : Firing) (key : String) (v : Value) : Firing :=
  { f with context := .array (entries f.context ++ [(.str key, v)]) }

def text (f : Firing) (key : String) (default : Option String) : AutomationTx (Option String) :=
  match field f.action key with
  | .null => pure default
  | v =>
    match scalar? v with
    | some t => pure (some t)
    | none => throw (.type "Array to string conversion")

def rendered (f : Firing) (key : String) (default : Option String) :
    AutomationTx (Option String) := do
  let template ← f.text key default
  pure (template.map (AutomationTemplateRenderer.render · f.context))

def channel (f : Firing) : AutomationTx String := do
  let channel ← f.text "channel" (some "email")
  pure (channel.getD "email")

def reservationId (f : Firing) : Option String := text? (dataGet f.context "reservation.id")

def guest? (f : Firing) (s : AutomationStore) : Option AddressedGuest :=
  (text? (dataGet f.context "reservation.primary_guest_id")).bind fun i =>
    s.guests.find? fun g => g.id == i && g.tenantId == f.tenant.id

end Firing

section Tasks

def task (f : Firing) (propertyId : String) (title description : Option String)
    (priority : String) (now : ℤ) (i : ℕ) : OperationalTask where
  id := i
  tenantId := f.tenant.id
  automationKey := some (f.automationKey "task")
  propertyId := propertyId
  reservationId := f.reservationId
  title := title
  description := description
  status := "todo"
  priority := priority
  dueAt := now + 60 * max 0 (intOf (field f.action "due_in_minutes"))
  origin := some (f.origin "task")

def createTask (f : Firing) : AutomationTx Unit := do
  let propertyId ← orFail (named? (orElse (dataGet f.context "reservation.property_id")
      (field f.action "property_id")))
    (.domain "Task automations require a reservation or property_id.")
  let title ← f.rendered "title" (some "Reservation follow-up")
  let description ← f.rendered "description" none
  let priority ← f.text "priority" (some "normal")
  let s ← get
  if (s.tasks.first? fun t => t.tenantId == f.tenant.id &&
      t.automationKey == some (f.automationKey "task")).isSome then pure ()
  else set { s with
    tasks := s.tasks.insert
      (task f propertyId title description (priority.getD "normal") s.clock) }

end Tasks

section Communications

def recordSuppressed (f : Firing) (key : String) (g : AddressedGuest)
    (reservationId : Option String) (channel type : String)
    (extra : CommunicationMetadata → CommunicationMetadata) : AutomationTx Unit := do
  let s ← get
  let _ ← MessageTemplateService.firstOrCreate f.tenant.id key
    { guestId := some g.id
      reservationId := reservationId
      channel := channel
      status := "suppressed"
      subject := none
      body := some ""
      metadata := extra
        { origin := some (f.origin type)
          suppressedAt := some s.clock
          recipientHash := some (MessageTemplateService.recipientHash
            ((MessageTemplateService.recipient g channel).getD "")) } }
  pure ()

def templated (f : Firing) (type : String) (extra : CommunicationMetadata → CommunicationMetadata)
    (c : Communication) : Communication :=
  { c with metadata := extra { c.metadata with origin := some (f.origin type) } }

theorem keeps_templated (f : Firing) (type : String)
    (extra : CommunicationMetadata → CommunicationMetadata) : Keeps (templated f type extra) :=
  fun _ => rfl

-- Whether the action names a template, and with it the whole of the message.
def queueConfiguredTemplate (f : Firing) (key type : String)
    (extra : CommunicationMetadata → CommunicationMetadata) : AutomationTx Bool :=
  match named? (field f.action "template_key") with
  | none => pure false
  | some templateKey => do
    let channel ← f.channel
    let s ← get
    let template ← orFail (s.templates.find? fun t => t.tenantId == f.tenant.id &&
      t.key == templateKey && t.channel == channel && t.isActive) .modelNotFound
    let g ← orFail (f.guest? s) (.domain "Template automations require a guest recipient.")
    let reservationId := f.reservationId.filter fun i =>
      s.reservations.any fun r => r.id == i && r.tenantId == f.tenant.id
    let language ← f.text "language" (some (g.language.getD "en"))
    let sent ← attempt (MessageTemplateService.queue template g (language.getD "en") key f.context
      reservationId)
    match sent with
    | .error e =>
      if e = MessageTemplateService.suppressed then do
        recordSuppressed f key g reservationId channel type extra
        pure true
      else throw e
    | .ok c => do
      modify fun s => { s with
        communications := s.communications.update c.id (templated f type extra)
          (keeps_templated f type extra) }
      pure true

-- The two kinds of plain message differ in their texts and in what their metadata adds.
def queuePlain (f : Firing) (key type : String) (subject : Option String) (body : String)
    (extra : CommunicationMetadata → CommunicationMetadata) : AutomationTx Unit := do
  let channel ← f.channel
  let s ← get
  match (f.guest? s).filter fun g => MessageTemplateService.isSuppressed s g channel with
  | some g => recordSuppressed f key g f.reservationId channel type extra
  | none => do
    let subject ← f.rendered "subject" subject
    let body ← f.rendered "body" (some body)
    let _ ← MessageTemplateService.queued f.tenant.id key
      { guestId := text? (dataGet f.context "reservation.primary_guest_id")
        reservationId := f.reservationId
        channel := channel
        status := "queued"
        subject := subject
        body := body
        metadata := extra { origin := some (f.origin type) } }
    pure ()

def queueCommunication (f : Firing) : AutomationTx Unit := do
  let key := f.automationKey "communication"
  let done ← queueConfiguredTemplate f key "communication" id
  if done = true then pure ()
  else queuePlain f key "communication" none "A reservation update is ready." id

def reminded (d : RemindedDeposit) : Value := .array
  [(.str "id", .str d.id), (.str "amount_minor", .int d.amountMinor),
    (.str "currency", .str d.currency),
    (.str "due_at", (d.dueAt.map fun t => Value.str (toString t)).getD .null)]

def dueDeposits (f : Firing) (s : AutomationStore) (reservationId : String) :
    List RemindedDeposit :=
  s.deposits.filter fun d => d.tenantId == f.tenant.id && d.reservationId == reservationId &&
    d.isDue && (match field f.action "due_within_hours" with
      | .null => true
      | v => d.dueAt.any (· ≤ s.clock + 3600 * intOf v))

def depositReminder (f : Firing) (d : RemindedDeposit) : AutomationTx Unit := do
  let key := f.automationKey ("deposit-reminder-" ++ d.id)
  let about := f.within "deposit" (reminded d)
  let done ← queueConfiguredTemplate about key "deposit_reminder" id
  if done = true then pure ()
  else
    queuePlain about key "deposit_reminder" (some "Deposit reminder")
      ("Your deposit of \x7b\x7bdeposit.amount_minor\x7d\x7d " ++
        "\x7b\x7bdeposit.currency\x7d\x7d is due.")
      fun m => { m with depositId := some d.id }

def queueDepositReminders (f : Firing) : AutomationTx Unit := do
  let reservationId ← orFail (named? (dataGet f.context "reservation.id"))
    (.domain "Deposit reminder automations require a reservation.")
  let s ← get
  (dueDeposits f s reservationId).forM (depositReminder f)

def emailed? (g : AddressedGuest) : Bool := g.email.any fun a => a != "" && a != "0"

def portalUrl (s : AutomationStore) (token : ℕ) : String :=
  String.ofList (s.appUrl.toList.reverse.dropWhile (· == '/')).reverse ++ "/guest/access/" ++
    toString token

def invite (f : Firing) (key : String) (r : ArrayRow) (g : AddressedGuest) :
    AutomationTx Unit := do
  let token ← GuestPortalTokenService.issue r g
  let s ← get
  let invited := f.within "guest_portal" (.array [(.str "url", .str (portalUrl s token))])
  let purpose ← f.text "purpose" (some "stay")
  let extra := fun m : CommunicationMetadata =>
    { m with
      portalAccessId := some token
      purpose := purpose }
  let done ← queueConfiguredTemplate invited key "guest_portal_invitation" extra
  if done = true then pure ()
  else do
    let subject ← invited.rendered "subject" (some "Your private lodge stay link")
    let body ← invited.rendered "body"
      (some "Open your secure reservation center: \x7b\x7bguest_portal.url\x7d\x7d")
    let _ ← MessageTemplateService.queued f.tenant.id key
      { guestId := some g.id
        reservationId := some r.id
        channel := "email"
        status := "queued"
        subject := subject
        body := body
        metadata := extra { origin := some (f.origin "guest_portal_invitation") } }
    pure ()

def queueGuestPortalInvitation (f : Firing) : AutomationTx Unit := do
  let reservationId ← orFail (named? (dataGet f.context "reservation.id"))
    (.domain "Guest portal invitations require a reservation.")
  let key := f.automationKey "guest-portal-invitation"
  let s ← get
  if (MessageTemplateService.keyed? s f.tenant.id key).isSome then pure ()
  else do
    let r ← orFail (s.reservations.find? fun r => r.id == reservationId &&
      r.tenantId == f.tenant.id) .modelNotFound
    let g ← orFail (((text? (field r.attributes "primary_guest_id")).bind fun i =>
        s.guests.find? fun g => g.id == i && g.tenantId == f.tenant.id).filter emailed?)
      (.domain "Guest portal invitations require a primary guest email address.")
    if MessageTemplateService.isSuppressed s g "email" = true then
      recordSuppressed f key g (some r.id) "email" "guest_portal_invitation" id
    else invite f key r g

end Communications

section Notifications

def membershipRoles : List String :=
  ["administrator", "owner", "manager", "sales", "operations", "guide", "kitchen", "housekeeping",
    "finance", "viewer"]

def filterValues (action : Value) (key : String) : Option (List String) :=
  (valueAt? action key).map fun v =>
    match v with
    | .str s => [s].filter (· != "")
    | v => ((entries v).filterMap fun e => scalar? e.2).filter (· != "")

-- The property that the context names; the action may not name another one.
def notifiedProperty (f : Firing) (s : AutomationStore) : Option String :=
  let named := orElse (dataGet f.context "reservation.property_id")
    (orElse (dataGet f.context "payload.property_id") (dataGet f.context "property_id"))
  let own := field f.action "property_id"
  if (!identical named .null && !identical own .null && !identical named own) = true then none
  else (named? named).or (((named? (dataGet f.context "payment.reservation_id")).bind fun i =>
    (s.reservations.find? fun r => r.id == i && r.tenantId == f.tenant.id).bind fun r =>
      named? (field r.attributes "property_id")).or (named? own))

def notified (f : Firing) (s : AutomationStore) (propertyId : String)
    (roles recipients : Option (List String)) : List String :=
  (s.staff.filter fun m => m.tenantId == f.tenant.id && m.isActive &&
    m.propertyId.all (· == propertyId) && roles.all (·.contains m.role) &&
      recipients.all fun l => l.contains m.userId || l.contains m.email).map StaffMembership.userId

def notification (f : Firing) (propertyId title : String) (body : Option String)
    (status key userId : String) (i : ℕ) : InboxNotification where
  id := i
  tenantId := f.tenant.id
  userId := userId
  automationKey := key
  title := title
  body := body
  status := status
  propertyId := propertyId
  origin := f.origin "internal_notify"

-- The id of a notification is the hash of its key.
def notify (f : Firing) (propertyId title : String) (body : Option String) (status userId : String) :
    AutomationTx Unit := do
  let key := f.automationKey ("internal_notify:" ++ userId)
  let s ← get
  if (s.notifications.first? fun n => n.userId == userId && n.automationKey == key).isSome then
    pure ()
  else do
    reject ((s.notifications.first? fun n => n.automationKey == key).isSome = true)
      (.other "Integrity constraint violation: the notification id is taken.")
    set { s with
      notifications := s.notifications.insert
        (notification f propertyId title body status key userId) }

def severity (v : Value) : String :=
  match text? v with
  | some s => if ["danger", "info", "success", "warning"].contains s then s else "info"
  | none => "info"

def addressees? (f : Firing) (s : AutomationStore) (propertyId : String) : Option (List String) :=
  let roles := (filterValues f.action "roles").or (filterValues f.action "role")
  let recipients := (filterValues f.action "recipients").or (filterValues f.action "recipient_ids")
  if roles.any (fun l => l.isEmpty || l.any fun r => !membershipRoles.contains r) = true then none
  else if recipients = some [] then none
  else some (notified f s propertyId roles recipients)

def active (f : Firing) (s : AutomationStore) (propertyId : String) : Bool :=
  f.tenant.isActive && s.properties.any fun q =>
    q.id == propertyId && q.tenantId == f.tenant.id && q.isActive

def alert (f : Firing) (propertyId : String) (users : List String) : AutomationTx Unit := do
  let title ← f.rendered "title" (some "Inn operational alert")
  let body ← f.rendered (if identical (field f.action "body") .null = true then "description"
    else "body") none
  users.forM (notify f propertyId
    ((title.filter fun t => t != "" && t != "0").getD "Inn operational alert") body
    (severity (field f.action "status")))

def internalNotify (f : Firing) : AutomationTx Unit := do
  let s ← get
  match (notifiedProperty f s).filter (active f s) with
  | none => pure ()
  | some propertyId =>
    match addressees? f s propertyId with
    | none => pure ()
    | some users => alert f propertyId users

end Notifications

def execute (f : Firing) : AutomationTx Unit :=
  match (scalar? (field f.action "type")).getD "" with
  | "task" | "create_task" => createTask f
  | "communication" | "queue_communication" => queueCommunication f
  | "deposit_reminder" | "send_deposit_reminder" => queueDepositReminders f
  | "guest_portal_invitation" | "queue_guest_portal_invitation" => queueGuestPortalInvitation f
  | "internal_notify" => internalNotify f
  | type => throw (.domain ("Unsupported automation action [" ++ type ++ "]."))

end AutomationActionExecutor
