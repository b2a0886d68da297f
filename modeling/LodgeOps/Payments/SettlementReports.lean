import LodgeOps.Payments.Checkouts

namespace ImportMercadoPagoSettlementReport
open Schema Transaction CreateProviderCheckout

section Records

inductive ReportType
  | accountMoney | releasedMoney
deriving DecidableEq

def reportType? (s : String) : Option ReportType :=
  if s = "account_money" then some .accountMoney
  else if s = "released_money" then some .releasedMoney
  else none

abbrev Row := List (String × String)

inductive ApplicationState
  | applied | mismatched | unmatched | accountLevel
deriving DecidableEq

structure ReportIdentity where
  provider : String
  environment : Environment
  providerAccount : String
  reportType : ReportType
  providerReportId : String
deriving DecidableEq

structure SettlementReportImport where
  id : ℕ
  integrationConnectionId : ℕ
  identity : ReportIdentity
  revision : ℕ
  fileName : String
  fileChecksum : String
  isFixture : Bool
  rowCount : ℕ
  importedAt : ℤ
deriving DecidableEq

-- The canonical row stands for its checksum, with the occurrence for the identity of the row.
structure SettlementReportRow where
  id : ℕ
  settlementReportImportId : ℕ
  paymentAttemptId : Option ℕ
  propertyId : Option ℕ
  occurrence : ℕ
  sourceId : Option String
  externalReference : Option String
  currency : Option String
  rowKind : String
  applicationState : ApplicationState
  canonicalRow : Row
  recordedAt : ℤ
deriving DecidableEq

instance : Keyed SettlementReportImport := ⟨SettlementReportImport.id⟩
instance : Keyed SettlementReportRow := ⟨SettlementReportRow.id⟩

-- The tenant's books, and beside them the settlement reports that were imported.
structure Reports where
  books : Database
  imports : Table SettlementReportImport := .empty
  rows : Table SettlementReportRow := .empty

abbrev ReportTx (α : Type) := Transaction Failure Reports α

def Reports.withBooks (s : Reports) (db : Database) : Reports := { s with books := db }

def onBooks {α : Type} (x : Tx α) : ReportTx α := zoom Reports.books Reports.withBooks x

-- The CSV reader of a report's bytes, and exact decimal amounts in minor units.
structure Formats where
  read : String → ReportType → Except Failure (List Row)
  decimal : String → Option ℤ

structure ReportFile where
  name : String
  bytes : String

end Records

section Fields

def field (row : Row) (key : String) : String := (row.lookup key).getD ""

def value (row : Row) (key : String) : Option String := (row.lookup key).filter (· != "")

def allowedColumns : ReportType → List String
  | .accountMoney => ["USER_ID", "SITE", "TRANSACTION_TYPE", "SOURCE_ID", "EXTERNAL_REFERENCE",
      "TRANSACTION_AMOUNT", "TRANSACTION_CURRENCY", "FEE_AMOUNT", "SETTLEMENT_NET_AMOUNT",
      "SETTLEMENT_CURRENCY", "SETTLEMENT_DATE", "REAL_AMOUNT", "MONEY_RELEASE_DATE", "IS_RELEASED",
      "FINANCING_FEE_AMOUNT", "TAXES_AMOUNT", "TAX_DETAIL", "TAXES_DISAGGREGATED"]
  | .releasedMoney => ["DATE", "SOURCE_ID", "EXTERNAL_REFERENCE", "RECORD_TYPE", "DESCRIPTION",
      "NET_CREDIT_AMOUNT", "NET_DEBIT_AMOUNT", "GROSS_AMOUNT", "MP_FEE_AMOUNT",
      "FINANCING_FEE_AMOUNT", "TAXES_AMOUNT", "CURRENCY"]

def canonical (type : ReportType) (row : Row) : Row :=
  (row.filter fun c => (allowedColumns type).contains c.1).insertionSort fun a b => a.1 ≤ b.1

def lower (s : String) : String := String.ofList (s.toList.map Char.toLower)

def startsWith (s start : String) : Bool := start.toList.isPrefixOf s.toList

def endsWith (s ending : String) : Bool := ending.toList.isSuffixOf s.toList

def withholds (description : String) : Bool :=
  startsWith description "tax_withdholding" || startsWith description "tax_withholding"

def releasedKind (description : String) : String :=
  if description = "payment" then "PAYMENT"
  else if description = "refund" then "REFUND"
  else if description = "chargeback" then "CHARGEBACK"
  else if description = "dispute" then "DISPUTE"
  else if description = "payout" then "PAYOUT"
  else if description = "withdrawal_cancel" then "WITHDRAWAL_CANCEL"
  else if description = "withdrawal" then "WITHDRAWAL"
  else if withholds description && endsWith description "_cancel" then "WITHHOLDING_CANCEL"
  else if withholds description then "WITHHOLDING"
  else if startsWith description "tax_" && endsWith description "_cancel" then "TAX_CANCEL"
  else if startsWith description "tax_" then "TAX"
  else "RELEASE_OTHER"

def kind (type : ReportType) (row : Row) : String :=
  match type with
  | .accountMoney => upper ((value row "TRANSACTION_TYPE").getD "")
  | .releasedMoney =>
    let recordType := lower ((value row "RECORD_TYPE").getD "")
    if recordType = "release" then releasedKind (lower ((value row "DESCRIPTION").getD ""))
    else "ACCOUNT_" ++ upper (if recordType = "" then "UNKNOWN" else recordType)

variable (f : Formats)

def amount (major : String) : Except Failure ℤ :=
  found (f.decimal major) (.commercialWorkflow
    "A settlement money value is not an exact two-decimal amount.")

def minor? (major : String) : Except Failure (Option ℤ) :=
  if major = "" then pure none else some <$> amount f major

def minor (major : String) : Except Failure ℤ := do
  refuse (major = "") (.commercialWorkflow "A mandatory settlement money value is empty.")
  amount f major

end Fields

section Groups

structure Entry where
  kind : String
  row : Row
deriving DecidableEq

variable (f : Formats)

def sum (field' : String) : List Entry → Except Failure ℤ
  | [] => pure 0
  | e :: es => do
    let n ← minor? f (field e.row field')
    let rest ← sum field' es
    pure (n.getD 0 + rest)

def ofKinds (kinds : List String) (group : List Entry) : List Entry :=
  group.filter fun e => kinds.contains e.kind

def sumKinds (group : List Entry) (kinds : List String) (field' : String) : Except Failure ℤ :=
  abs <$> sum f field' (ofKinds kinds group)

def nonzero (n : ℤ) : Option ℤ := if n = 0 then none else some n

def releasedMoneyDeduction (group : List Entry) (kinds : List String) :
    Except Failure (Option ℤ) :=
  if (ofKinds kinds group).isEmpty then pure none
  else do
    let debit ← sum f "NET_DEBIT_AMOUNT" (ofKinds kinds group)
    let credit ← sum f "NET_CREDIT_AMOUNT" (ofKinds kinds group)
    pure (nonzero (debit - credit))

def supportedKinds : ReportType → List String
  | .accountMoney => ["SETTLEMENT", "REFUND", "CHARGEBACK", "DISPUTE"]
  | .releasedMoney => ["PAYMENT", "REFUND", "CHARGEBACK", "DISPUTE", "TAX", "TAX_CANCEL",
      "WITHHOLDING", "WITHHOLDING_CANCEL"]

def primaryKind : ReportType → String
  | .accountMoney => "SETTLEMENT"
  | .releasedMoney => "PAYMENT"

def amountField : ReportType → String
  | .accountMoney => "TRANSACTION_AMOUNT"
  | .releasedMoney => "GROSS_AMOUNT"

def accountLevel (kind : String) : Bool :=
  ["PAYOUT", "WITHDRAWAL", "WITHDRAWAL_CANCEL"].contains kind || startsWith kind "ACCOUNT_"

def attempt? (db : Database) (c : CheckoutConnection) (environment : Environment)
    (sourceId : String) : Option PaymentAttempt :=
  db.paymentAttempts.first? fun a => a.integrationConnectionId == c.id &&
    a.provider == c.provider && a.environment == environment &&
      a.providerAccount == c.externalAccountId && a.providerPaymentId == some sourceId

def primaryMatches (type : ReportType) (row : Row) (kind : String) (a : PaymentAttempt) :
    Except Failure Bool :=
  if kind = primaryKind type then do
    let n ← minor f (field row (amountField type))
    match type with
    | .accountMoney => pure (n == a.chargeAmountMinor)
    | .releasedMoney => pure (!(|n| == 0 || decide (a.chargeAmountMinor < |n|)))
  else pure true

def differs (row : Row) (externalReference : Option String) (currency : String)
    (a : PaymentAttempt) : Bool :=
  (value row "USER_ID").any (· != a.providerAccount) ||
    externalReference.any (· != a.externalReference) || currency != a.chargeCurrency

def matchAttempt (type : ReportType) (row : Row) (kind : String)
    (externalReference : Option String) (currency : String) (a : PaymentAttempt) :
    Except Failure ApplicationState :=
  if (supportedKinds type).contains kind = false then pure .mismatched
  else if differs row externalReference currency a then pure .mismatched
  else do
    let ok ← primaryMatches f type row kind a
    pure (if ok then .applied else .mismatched)

structure Prepared where
  attempt : Option PaymentAttempt
  state : ApplicationState
  kind : String
  row : Row
  occurrence : ℕ
  sourceId : Option String
  externalReference : Option String
  currency : String

def currencyOf (row : Row) : String :=
  upper ((((value row "CURRENCY").or (value row "TRANSACTION_CURRENCY")).or
    (value row "SETTLEMENT_CURRENCY")).getD "")

def matched (db : Database) (c : CheckoutConnection) (environment : Environment)
    (type : ReportType) (row : Row) : Except Failure (Option PaymentAttempt × ApplicationState) :=
  if accountLevel (kind type row) then pure (none, .accountLevel)
  else
    match (value row "SOURCE_ID").bind (attempt? db c environment) with
    | none => pure (none, .unmatched)
    | some a => do
      let state ← matchAttempt f type row (kind type row) (value row "EXTERNAL_REFERENCE")
        (currencyOf row) a
      pure (some a, state)

def prepare (db : Database) (c : CheckoutConnection) (environment : Environment)
    (type : ReportType) (seen : List Row) : List Row → Except Failure (List Prepared)
  | [] => pure []
  | raw :: raws => do
    let row := canonical type raw
    let m ← matched f db c environment type row
    let rest ← prepare db c environment type (row :: seen) raws
    pure ({ attempt := m.1, state := m.2, kind := kind type row, row
            occurrence := seen.count row + 1, sourceId := value row "SOURCE_ID"
            externalReference := value row "EXTERNAL_REFERENCE"
            currency := currencyOf row } :: rest)

def belongs (i : ℕ) (x : Prepared) : Bool := x.attempt.any (·.id == i)

def rowsOf (i : ℕ) (prepared : List Prepared) : List Prepared := prepared.filter (belongs i)

def entries (rows : List Prepared) : List Entry := rows.map fun x => ⟨x.kind, x.row⟩

def deducted (type : ReportType) (group : List Entry) (kinds : List String) : Except Failure ℤ :=
  match type with
  | .accountMoney => pure 0
  | .releasedMoney => do
    let n ← releasedMoneyDeduction f group kinds
    pure (max 0 (n.getD 0))

def within (major : String) (limit : ℤ) : Except Failure Bool := do
  let n ← minor? f major
  pure (!decide (limit < |n.getD 0|))

def primaryWithin (type : ReportType) (group : List Entry) (limit : ℤ) : Except Failure Bool :=
  match type with
  | .accountMoney =>
    match (ofKinds ["SETTLEMENT"] group).head? with
    | none => pure false
    | some primary => do
      let fee ← within f (field primary.row "FEE_AMOUNT") limit
      if fee = false then pure false
      else do
        let taxes ← within f (field primary.row "TAXES_AMOUNT") limit
        if taxes = false then pure false
        else within f (field primary.row "FINANCING_FEE_AMOUNT") limit
  | .releasedMoney => do
    let gross ← sumKinds f group ["PAYMENT"] "GROSS_AMOUNT"
    pure (!(gross == 0 || decide (limit < gross)))

def primaryCounted (type : ReportType) (group : List Entry) : Bool :=
  match type with
  | .accountMoney => (ofKinds ["SETTLEMENT"] group).length == 1
  | .releasedMoney => !(ofKinds ["PAYMENT"] group).isEmpty

def reversalKinds : List String := ["REFUND", "CHARGEBACK", "DISPUTE"]

-- The sum runs over refunds and chargebacks together before its sign is dropped.
def deductionsWithin (type : ReportType) (group : List Entry) (limit : ℤ) : Except Failure Bool := do
  let refundAndChargeback ← sumKinds f group reversalKinds (amountField type)
  let tax ← deducted f type group ["TAX", "TAX_CANCEL"]
  let withholding ← deducted f type group ["WITHHOLDING", "WITHHOLDING_CANCEL"]
  pure (decide (refundAndChargeback + tax + withholding ≤ limit))

def validFinancialGroup (type : ReportType) (group : List Entry) (limit : ℤ) :
    Except Failure Bool :=
  if primaryCounted type group = false then pure false
  else
    match type with
    | .accountMoney => do
      let deductions ← deductionsWithin f type group limit
      let primary ← primaryWithin f type group limit
      pure (primary && deductions)
    | .releasedMoney => do
      let primary ← primaryWithin f type group limit
      if primary = false then pure false else deductionsWithin f type group limit

def applicable (type : ReportType) (prepared : List Prepared) (a : PaymentAttempt) :
    Except Failure Bool :=
  if (rowsOf a.id prepared).any (fun x => x.state != .applied) then pure false
  else validFinancialGroup f type (entries (rowsOf a.id prepared)) a.chargeAmountMinor

def judge (type : ReportType) (prepared : List Prepared) :
    List PaymentAttempt → Except Failure (List PaymentAttempt)
  | [] => pure []
  | a :: as => do
    let ok ← applicable f type prepared a
    let rest ← judge type prepared as
    pure (if ok then a :: rest else rest)

def attemptsOf (prepared : List Prepared) : List PaymentAttempt :=
  (prepared.filterMap Prepared.attempt).eraseDups

end Groups

section Facts
variable (f : Formats)

def reportFacts (source : String) (x : SettlementReportImport) (release : Option String)
    (group : List Entry) : ReportFacts where
  factSource := source
  reportImportId := x.id
  reportRevision := x.revision
  fileChecksum := x.fileChecksum
  expectedReleaseAt := release
  rows := group.map Entry.row

def released (row : Row) : Bool := ["true", "yes", "1"].contains (lower (field row "IS_RELEASED"))

def accountMoneyFacts (group : List Entry) (x : SettlementReportImport) :
    Except Failure ProviderSettlement := do
  let row := (((ofKinds ["SETTLEMENT"] group).head?.or group.head?).map Entry.row).getD []
  let refund ← sumKinds f group ["REFUND"] "TRANSACTION_AMOUNT"
  let chargeback ← sumKinds f group ["CHARGEBACK", "DISPUTE"] "TRANSACTION_AMOUNT"
  let gross ← minor f (field row "TRANSACTION_AMOUNT")
  let fee ← minor f (field row "FEE_AMOUNT")
  let taxes ← minor? f (field row "TAXES_AMOUNT")
  let financing ← minor? f (field row "FINANCING_FEE_AMOUNT")
  let net ← sum f "SETTLEMENT_NET_AMOUNT" group
  pure { grossMinor := some gross, feeMinor := some |fee|, taxMinor := none
         withholdingMinor := taxes, financingMinor := financing
         refundedMinor := nonzero refund, chargebackMinor := nonzero chargeback
         netMinor := some net, netIsAuthoritative := true
         settlementCurrency := some (field row "SETTLEMENT_CURRENCY")
         settlementDate := some (field row "SETTLEMENT_DATE")
         settlementStatus := some (if released row then "released" else "pending_release")
         report := some (reportFacts "account_money_report" x (value row "MONEY_RELEASE_DATE") group) }

def releasedMoneyFacts (group : List Entry) (x : SettlementReportImport) :
    Except Failure ProviderSettlement := do
  let row := (((ofKinds ["PAYMENT", "SETTLEMENT"] group).head?.or group.head?).map Entry.row).getD []
  let gross ← sumKinds f group ["PAYMENT"] "GROSS_AMOUNT"
  let fee ← sumKinds f group ["PAYMENT"] "MP_FEE_AMOUNT"
  let tax ← releasedMoneyDeduction f group ["TAX", "TAX_CANCEL"]
  let withholding ← releasedMoneyDeduction f group ["WITHHOLDING", "WITHHOLDING_CANCEL"]
  let financing ← sumKinds f group ["PAYMENT"] "FINANCING_FEE_AMOUNT"
  let refund ← sumKinds f group ["REFUND"] "GROSS_AMOUNT"
  let chargeback ← sumKinds f group ["CHARGEBACK", "DISPUTE"] "GROSS_AMOUNT"
  let credit ← sum f "NET_CREDIT_AMOUNT" group
  let debit ← sum f "NET_DEBIT_AMOUNT" group
  pure { grossMinor := some gross, feeMinor := some fee, taxMinor := tax
         withholdingMinor := withholding, financingMinor := nonzero financing
         refundedMinor := nonzero refund, chargebackMinor := nonzero chargeback
         netMinor := some (credit - debit), netIsAuthoritative := true
         settlementCurrency := some (field row "CURRENCY")
         settlementDate := some (field row "DATE"), settlementStatus := some "released"
         report := some (reportFacts "released_money_report" x none group) }

def settlementFacts (type : ReportType) (group : List Entry) (x : SettlementReportImport) :
    Except Failure ProviderSettlement :=
  match type with
  | .accountMoney => accountMoneyFacts f group x
  | .releasedMoney => releasedMoneyFacts f group x

def reportedPayment (a : PaymentAttempt) (settlement : ProviderSettlement) : ProviderPayment where
  id := a.providerPaymentId.getD ""
  externalReference := a.externalReference
  status := "approved"
  amountMinor := settlement.grossMinor.getD 0
  currency := a.chargeCurrency
  providerAccount := a.providerAccount
  settlement := settlement

end Facts

section Import
variable (f : Formats)

def existing? (s : Reports) (identity : ReportIdentity) (bytes : String) :
    Option SettlementReportImport :=
  s.imports.first? fun x => decide (x.identity = identity) && x.fileChecksum == bytes

def previousRevisions (s : Reports) (identity : ReportIdentity) : List ℕ :=
  (s.imports.select fun x => decide (x.identity = identity)).map SettlementReportImport.revision

def opened (c : CheckoutConnection) (identity : ReportIdentity) (file : ReportFile)
    (isFixture : Bool) (revision rowCount : ℕ) (now : ℤ) (i : ℕ) : SettlementReportImport where
  id := i
  integrationConnectionId := c.id
  identity := identity
  revision := revision
  fileName := file.name
  fileChecksum := file.bytes
  isFixture := isFixture
  rowCount := rowCount
  importedAt := now

def finalState (applied : List PaymentAttempt) (x : Prepared) : ApplicationState :=
  match x.attempt with
  | none => x.state
  | some a => if applied.any (·.id == a.id) then x.state else .mismatched

def ledgerRow (importId : ℕ) (applied : List PaymentAttempt) (now : ℤ) (x : Prepared) (i : ℕ) :
    SettlementReportRow where
  id := i
  settlementReportImportId := importId
  paymentAttemptId := x.attempt.map PaymentAttempt.id
  propertyId := x.attempt.map PaymentAttempt.propertyId
  occurrence := x.occurrence
  sourceId := x.sourceId
  externalReference := x.externalReference
  currency := if x.currency = "" then none else some x.currency
  rowKind := x.kind
  applicationState := finalState applied x
  canonicalRow := x.row
  recordedAt := now

def record (importId : ℕ) (applied : List PaymentAttempt) (x : Prepared) : ReportTx Unit :=
  modify fun s => { s with
    rows := s.rows.insert (ledgerRow importId applied s.books.clock x) (fun _ => rfl) }

def reissued (e : SettlementEntry) : SettlementEntry :=
  { e with
    matched := some false
    resolutionReason := some "Provider report identity was reissued with different file bytes." }

def varied (db : Database) (a : PaymentAttempt) (p : ProviderPayment) : Database :=
  match RecordSettlementRevision.recorded? db a p with
  | none => db
  | some e => { db with
      settlementEntries := db.settlementEntries.update e.id reissued (fun _ => rfl) }

def settle (type : ReportType) (prepared : List Prepared) (x : SettlementReportImport)
    (again : Bool) (a : PaymentAttempt) : ReportTx Unit := do
  let settlement ← check fun _ =>
    settlementFacts f type (entries (rowsOf a.id prepared)) x
  onBooks (RecordSettlementRevision.handle a (reportedPayment a settlement))
  modify fun s =>
    if again then s.withBooks (varied s.books a (reportedPayment a settlement)) else s

def importRows (c : CheckoutConnection) (identity : ReportIdentity) (file : ReportFile)
    (isFixture : Bool) (raws : List Row) : ReportTx ℕ := do
  let s ← get
  let revision := (previousRevisions s identity).foldl max 0 + 1
  let mk := opened c identity file isFixture revision raws.length s.books.clock
  set { s with imports := s.imports.insert mk (fun _ => rfl) }
  let prepared ← check fun s =>
    prepare f s.books c identity.environment identity.reportType [] raws
  let applied ← check fun _ => judge f identity.reportType prepared (attemptsOf prepared)
  prepared.forM (record s.imports.next applied)
  applied.forM (settle f identity.reportType prepared (mk s.imports.next)
    (!(previousRevisions s identity).isEmpty))
  pure raws.length

def identityOf (c : CheckoutConnection) (environment : Environment) (type : ReportType)
    (providerReportId : String) : ReportIdentity where
  provider := c.provider
  environment := environment
  providerAccount := c.externalAccountId
  reportType := type
  providerReportId := providerReportId

def handle (c : CheckoutConnection) (file : ReportFile) (reportType providerReportId : String)
    (isFixture : Bool) : ReportTx ℕ := do
  let environment ← check fun _ => assertAvailable c (c.propertyId.getD 0)
  let type ← orFail (reportType? reportType) (.commercialWorkflow
    "The settlement report type must be account_money or released_money.")
  reject (providerReportId = "")
    (.commercialWorkflow "The settlement report identity or file is invalid.")
  let raws ← check fun _ => f.read file.bytes type
  let s ← get
  match existing? s (identityOf c environment type providerReportId) file.bytes with
  | some x => pure x.rowCount
  | none => importRows f c (identityOf c environment type providerReportId) file isFixture raws

end Import
end ImportMercadoPagoSettlementReport
