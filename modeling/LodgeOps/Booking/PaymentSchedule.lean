import LodgeOps.Inventory.Closure

namespace ReservationPaymentScheduleService
open Schema Transaction CloseReservationWithPolicy

def day : ℤ := 86400

def percentageDeposit (totalMinor basisPoints : ℤ) : ℤ :=
  (totalMinor * basisPoints + 9999).tdiv 10000

def requiredDeposit (r : Reservation) : ℤ :=
  match r.depositPolicy.map DepositPolicy.requirement with
  | some (.fixed amountMinor) => min r.totalMinor amountMinor
  | some (.percentage basisPoints) => percentageDeposit r.totalMinor basisPoints
  | none => percentageDeposit r.totalMinor 5000

def remainingMinor (r : Reservation) (paid : ℤ) : ℤ := max 0 (r.totalMinor - paid)

def depositOutstanding (r : Reservation) (paid : ℤ) : ℤ :=
  min (remainingMinor r paid) (max 0 (requiredDeposit r - paid))

def balanceOutstanding (r : Reservation) (paid : ℤ) : ℤ :=
  remainingMinor r paid - depositOutstanding r paid

def depositDueAt (r : Reservation) (now : ℤ) : ℤ :=
  now + (r.depositPolicy.map DepositPolicy.depositDueOffsetDays).getD 0 * day

def balanceDueAt (r : Reservation) (now : ℤ) : ℤ :=
  max now (r.startsAt - (r.depositPolicy.map DepositPolicy.balanceDueOffsetDays).getD 30 * day)

def scheduled (r : Reservation) (kind : String) (amount dueAt : ℤ) (i : ℕ) : Deposit where
  id := i
  reservationId := r.id
  scheduleType := "revision_" ++ toString r.revision ++ "_" ++ kind
  status := .due
  currency := r.currency
  amountMinor := amount
  dueAt := dueAt

def schedule (r : Reservation) (kind : String) (amount dueAt : ℤ) (deposits : Table Deposit) :
    Table Deposit :=
  if amount ≤ 0 then deposits else deposits.insert (scheduled r kind amount dueAt)

def rescheduled (r : Reservation) (paid now : ℤ) (deposits : Table Deposit) : Table Deposit :=
  if 0 < remainingMinor r paid then
    schedule r "balance" (balanceOutstanding r paid) (balanceDueAt r now)
      (schedule r "deposit" (depositOutstanding r paid) (depositDueAt r now) deposits)
  else deposits

def paymentEffects (r : Reservation) (paid : ℤ) : PaymentEffects where
  paidMinor := paid
  dueMinor := remainingMinor r paid
  refundRequirementMinor := max 0 (paid - r.totalMinor)

def rebuild (r : Reservation) (reason : String) : Tx PaymentEffects := do
  let db ← get
  let paid := paidMinor db r.id
  set { db with deposits := rescheduled r paid db.clock (waivedOf r.id reason db.deposits) }
  pure (paymentEffects r paid)

section Commits
variable {db db' : Database} {r : Reservation} {reason : String} {effects : PaymentEffects}

theorem commits_rebuild (h : Commits (rebuild r reason) db effects db') :
    effects = paymentEffects r (paidMinor db r.id) ∧
      db'.deposits = rescheduled r (paidMinor db r.id) db.clock
        (waivedOf r.id reason db.deposits) ∧
      db' = { db with deposits := db'.deposits } := by
  simp only [rebuild, commits_bind, commits_get, commits_set, commits_pure] at h
  obtain ⟨_, _, ⟨rfl, rfl⟩, _, _, rfl, rfl, rfl⟩ := h
  exact ⟨rfl, rfl, rfl⟩

end Commits
end ReservationPaymentScheduleService
