import LodgeOps.Commands.CanonicalJson
import LodgeOps.Schema.Database
import LodgeOps.Store.Frames
import LodgeOps.Store.Table

namespace Automation
open CanonicalJson (Value)

structure Tenant where
  id : ℕ
  isActive : Bool
  name : String
  currency : String
  timezone : String
deriving DecidableEq

structure Outbox where
  id : ℕ
  tenantId : ℕ
  eventType : String
  payload : Value
  occurredAt : ℤ
  availableAt : ℤ
  publishedAt : Option ℤ := none
  claimToken : Option ℕ := none
  claimedAt : Option ℤ := none
  attempts : ℕ := 0
  lastError : Option String := none

structure AutomationRule where
  id : ℕ
  tenantId : ℕ
  trigger : String
  isActive : Bool
  conditions : Value
  actions : Value
  lastRanAt : Option ℤ := none

-- Where an automated row comes from.
structure AutomationOrigin where
  ruleId : ℕ
  outboxId : ℕ
  actionIndex : ℕ
  actionType : String
deriving DecidableEq

structure OperationalTask where
  id : ℕ
  tenantId : ℕ
  automationKey : Option String
  propertyId : String
  reservationId : Option String
  title : Option String
  description : Option String
  status : String
  priority : String
  dueAt : ℤ
  origin : Option AutomationOrigin := none
deriving DecidableEq

structure CommunicationMetadata where
  origin : Option AutomationOrigin := none
  recipient : Option String := none
  recipientHash : Option String := none
  suppressedAt : Option ℤ := none
  depositId : Option String := none
  portalAccessId : Option ℕ := none
  purpose : Option String := none
  template : Option (ℕ × ℕ × String) := none
  generatedDocumentId : Option String := none
deriving DecidableEq

structure Communication where
  id : ℕ
  tenantId : ℕ
  automationKey : Option String
  guestId : Option String
  reservationId : Option String
  channel : String
  status : String
  subject : Option String
  body : Option String
  sentAt : Option ℤ := none
  deliveredAt : Option ℤ := none
  metadata : CommunicationMetadata := {}
deriving DecidableEq

structure DeliveryAttempt where
  id : ℕ
  tenantId : ℕ
  communicationId : ℕ
  status : String
  attempt : ℕ
  attemptedAt : ℤ
  response : Option String := none
deriving DecidableEq

structure InboxNotification where
  id : ℕ
  tenantId : ℕ
  userId : String
  automationKey : String
  title : String
  body : Option String
  status : String
  propertyId : String
  origin : AutomationOrigin
deriving DecidableEq

structure GuestPortalAccessToken where
  id : ℕ
  tenantId : ℕ
  reservationId : String
  guestId : String
  expiresAt : ℤ
deriving DecidableEq

instance : Keyed Outbox := ⟨Outbox.id⟩
instance : Keyed AutomationRule := ⟨AutomationRule.id⟩
instance : Keyed OperationalTask := ⟨OperationalTask.id⟩
instance : Keyed Communication := ⟨Communication.id⟩
instance : Keyed DeliveryAttempt := ⟨DeliveryAttempt.id⟩
instance : Keyed InboxNotification := ⟨InboxNotification.id⟩
instance : Keyed GuestPortalAccessToken := ⟨GuestPortalAccessToken.id⟩

-- A row of which the automations read nothing but its array form.
structure ArrayRow where
  id : String
  tenantId : ℕ
  attributes : Value

structure AddressedGuest where
  id : String
  tenantId : ℕ
  email : Option String
  phone : Option String
  language : Option String
deriving DecidableEq

structure RemindedDeposit where
  id : String
  tenantId : ℕ
  reservationId : String
  isDue : Bool
  amountMinor : ℤ
  currency : String
  dueAt : Option ℤ
deriving DecidableEq

structure TemplateVersion where
  version : ℕ
  language : String
  subject : Option String
  body : Option String
  isPublished : Bool
deriving DecidableEq

structure MessageTemplate where
  id : ℕ
  tenantId : ℕ
  key : String
  channel : String
  isActive : Bool
  versions : List TemplateVersion
deriving DecidableEq

structure CommunicationSuppression where
  tenantId : ℕ
  channel : String
  recipientHash : String
  expiresAt : Option ℤ
deriving DecidableEq

structure StaffMembership where
  tenantId : ℕ
  userId : String
  email : String
  propertyId : Option String
  role : String
  isActive : Bool
deriving DecidableEq

structure TenantProperty where
  id : String
  tenantId : ℕ
  isActive : Bool
deriving DecidableEq

structure AutomationStore where
  clock : ℤ := 0
  nextToken : ℕ := 0
  tenants : List Tenant := []
  outbox : Table Outbox := .empty
  rules : Table AutomationRule := .empty
  tasks : Table OperationalTask := .empty
  communications : Table Communication := .empty
  attempts : Table DeliveryAttempt := .empty
  notifications : Table InboxNotification := .empty
  portalTokens : Table GuestPortalAccessToken := .empty
  reservations : List ArrayRow := []
  payments : List ArrayRow := []
  guests : List AddressedGuest := []
  companions : List (String × String) := []
  deposits : List RemindedDeposit := []
  templates : List MessageTemplate := []
  suppressions : List CommunicationSuppression := []
  properties : List TenantProperty := []
  staff : List StaffMembership := []
  appUrl : String := ""
  appName : String := ""
  linkMinutes : ℤ := 0

structure Mail where
  communicationId : ℕ
  recipient : String
  subject : String
  body : Option String
  generatedDocumentId : Option String
deriving DecidableEq

-- A message handed to the mail transport; the error is what it threw.
structure TransportCall where
  mail : Mail
  error : Option String
deriving DecidableEq

inductive AutomationException
  | domain (message : String)
  | modelNotFound
  | logic (message : String)
  | type (message : String)
  | other (message : String)
deriving DecidableEq

def AutomationException.message : AutomationException → String
  | domain m => m
  | modelNotFound => "No query results for model."
  | logic m => m
  | type m => m
  | other m => m

-- What leaves the outbox worker's transaction: the transport is the only one outside the database.
inductive Thrown
  | automation (e : AutomationException)
  | transport (call : TransportCall)
deriving DecidableEq

namespace Thrown

def message : Thrown → String
  | automation e => e.message
  | transport call => call.error.getD ""

def calls : Thrown → List TransportCall
  | automation _ => []
  | transport call => [call]

end Thrown

abbrev AutomationTx (α : Type) := Transaction AutomationException AutomationStore α

abbrev PublishingTx (α : Type) := Transaction Thrown AutomationStore α

end Automation
