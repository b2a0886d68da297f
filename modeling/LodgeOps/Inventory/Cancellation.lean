import LodgeOps.Inventory.Closure
import LodgeOps.Ledger.LedgerRuns

namespace Cancellation
open Schema Transaction CloseReservationWithPolicy

variable {db db' : Database} {r : Reservation} {target : ReservationStatus} {i : ℕ}
variable {reason : String} {actorId : Option ℕ}

section Fee

theorem fee_nonneg (h : 0 ≤ r.totalMinor) : 0 ≤ feeMinor db r :=
  le_min h (le_max_left _ _)

theorem fee_le_total : feeMinor db r ≤ r.totalMinor := min_le_left _ _

end Fee

section Balance

theorem lineTotal_congr {f : FolioLine → ℤ} (h : db'.folioLines = db.folioLines) :
    Folio.lineTotal db' i f = Folio.lineTotal db i f := by
  unfold Folio.lineTotal
  rw [h]

theorem lineTotal_posted {d : Folio.LineDraft} {f : FolioLine → ℤ} :
    Folio.lineTotal (Folio.posted db r d) i f = Folio.lineTotal db i f +
      if r.id = i then f (Folio.line r d db.clock db.folioLines.next) else 0 :=
  Table.total_insert

theorem delta_posted {d : Folio.LineDraft} (hq : d.quantityThousandths = 1000)
    (hm : d.metadata.includedInBookedTotal = false) :
    (Folio.summary (Folio.posted db r d) r).ledgerDeltaMinor =
      (Folio.summary db r).ledgerDeltaMinor + (d.unitAmountMinor + d.taxAmountMinor) := by
  have hl : Folio.lineAmount d.unitAmountMinor d.quantityThousandths = d.unitAmountMinor := by
    rw [hq]
    exact Folio.lineAmount_thousand _
  simp only [Folio.summary, lineTotal_posted, Folio.line, hl, hm, if_true, Bool.false_eq_true,
    if_false]
  ring

theorem delta_congr {r' : Reservation} (hid : r'.id = r.id)
    (h : db'.folioLines = db.folioLines) :
    (Folio.summary db' r').ledgerDeltaMinor = (Folio.summary db r).ledgerDeltaMinor := by
  simp only [Folio.summary, hid, lineTotal_congr h]

theorem balance_eq : (Folio.summary db r).balanceMinor =
    r.totalMinor + (Folio.summary db r).ledgerDeltaMinor := rfl

theorem delta_adjusted {metadata : LineMetadata} {t : Database}
    (hsplit : r.totalMinor = r.subtotalMinor + r.taxMinor)
    (h : Commits (adjustFolio r target (feeMinor db r) metadata actorId) db () t) :
    (Folio.summary t r).ledgerDeltaMinor =
      (Folio.summary db r).ledgerDeltaMinor + (feeMinor db r - r.totalMinor) := by
  rcases commits_adjustFolio h with ⟨_, _, rfl⟩ | ⟨hle, rfl⟩
  · have hp : (Folio.summary (Folio.posted db r
        (policyDraft r target (feeMinor db r) metadata actorId)) r).ledgerDeltaMinor =
        (Folio.summary db r).ledgerDeltaMinor + (feeMinor db r - r.subtotalMinor + -r.taxMinor) :=
      delta_posted rfl rfl
    rw [hp, hsplit]
    ring
  · have hfee : feeMinor t r = r.totalMinor := le_antisymm fee_le_total hle
    rw [hfee]
    ring

end Balance

section Effects

theorem released_after {allocations : Table Allocation} {a : Allocation}
    (ha : a ∈ (releasedOf i allocations).rows) (hi : a.reservationId = i) :
    a.status = .released := by
  rcases (Table.mem_updateWhere).mp ha with ⟨_, hp⟩ | ⟨b, _, _, rfl⟩
  · by_contra hne
    simp [hi, hne] at hp
  · rfl

theorem waived_after {deposits : Table Deposit} {d : Deposit}
    (hd : d ∈ deposits.rows) (hi : openDeposit i d = true) :
    { d with status := .waived, waiverReason := some reason } ∈ (waivedOf i reason deposits).rows :=
  (Table.mem_updateWhere).mpr (Or.inr ⟨d, hd, hi, rfl⟩)

theorem none_due_after {deposits : Table Deposit} {d : Deposit}
    (hd : d ∈ (waivedOf i reason deposits).rows) (hi : d.reservationId = i) : d.status ≠ .due := by
  rcases (Table.mem_updateWhere).mp hd with ⟨_, hp⟩ | ⟨e, _, _, rfl⟩
  · simpa [openDeposit, hi] using hp
  · simp

theorem handle_again (hr : db.reservation? i = some r) (hs : r.status = target)
    (ht : target = .cancelled ∨ target = .noShow) :
    Commits (handle i target reason actorId) db () db := by
  simp only [handle, commits_bind, commits_reject, commits_lockedReservation, commits_ite,
    commits_pure]
  exact ⟨(), db, ⟨not_not.mpr ht, rfl⟩, r, db, ⟨hr, rfl⟩, Or.inl ⟨hs, trivial, rfl⟩⟩

-- What a closing call leaves behind, against the state it found.
structure Settled (db db' : Database) (r : Reservation) (target : ReservationStatus) : Prop where
  balance : ∃ r', db'.reservation? r.id = some r' ∧ r'.status = target ∧
    (Folio.summary db' r').balanceMinor = feeMinor db r + (Folio.summary db r).ledgerDeltaMinor
  fee : 0 ≤ feeMinor db r ∧ feeMinor db r ≤ r.totalMinor
  released : ∀ a ∈ db'.allocations.rows, a.reservationId = r.id → a.status = .released
  settled : ∀ d ∈ db'.deposits.rows, d.reservationId = r.id → d.status ≠ .due
  waived : ∀ d ∈ db.deposits.rows, d.reservationId = r.id → d.status = .due →
    ∃ d' ∈ db'.deposits.rows, d'.id = d.id ∧ d'.status = .waived

theorem balance_closes {r' : Reservation} (hsplit : r.totalMinor = r.subtotalMinor + r.taxMinor)
    (h : Closes db db' r target reason actorId) (hid : r'.id = r.id)
    (htotal : r'.totalMinor = r.totalMinor) :
    (Folio.summary db' r').balanceMinor =
      feeMinor db r + (Folio.summary db r).ledgerDeltaMinor := by
  obtain ⟨t, hfolio, hw⟩ := h.writes
  have hlines : db'.folioLines = t.folioLines := by rw [hw]; rfl
  rw [balance_eq, delta_congr hid hlines, delta_adjusted hsplit hfolio, htotal]
  ring

theorem settled_of_closes (hr : db.reservation? i = some r)
    (hsplit : r.totalMinor = r.subtotalMinor + r.taxMinor) (htotal : 0 ≤ r.totalMinor)
    (h : Closes db db' r target reason actorId) : Settled db db' r target := by
  have hid : r.id = i := Folio.reservation_id_eq hr
  obtain ⟨t, hfolio, hw⟩ := h.writes
  have hframe : t = { db with folioLines := t.folioLines } := by
    rcases commits_adjustFolio hfolio with ⟨_, _, rfl⟩ | ⟨_, rfl⟩
    · rfl
    · rfl
  have hallocations : db'.allocations = releasedOf r.id db.allocations := by rw [hw, hframe]; rfl
  have hdeposits : db'.deposits = waivedOf r.id (waiverReason target reason) db.deposits := by
    rw [hw, hframe]; rfl
  have hfind : db'.reservation? r.id = some (closed target reason r) := by
    have hrt : t.reservation? r.id = some r := by rw [hframe, hid]; exact hr
    have hf : (settledState db t r target reason).reservation? r.id =
        some (closed target reason r) := Table.find?_update_self hrt
    rw [hw, hf]
  refine ⟨⟨_, hfind, rfl, balance_closes hsplit h rfl rfl⟩, ⟨fee_nonneg htotal, fee_le_total⟩,
    ?_, ?_, ?_⟩
  · intro a ha
    rw [hallocations] at ha
    exact released_after ha
  · intro d hd
    rw [hdeposits] at hd
    exact none_due_after hd
  · intro d hd hi hdue
    rw [hdeposits]
    exact ⟨_, waived_after hd (by simp [openDeposit, hi, hdue]), rfl, rfl⟩

end Effects

section Closing

theorem closure_settles_folio (hr : db.reservation? i = some r)
    (hsplit : r.totalMinor = r.subtotalMinor + r.taxMinor) (htotal : 0 ≤ r.totalMinor) :
    (∀ db', Commits (handle i target reason actorId) db () db' →
      (r.status = target → db' = db) ∧ (r.status ≠ target → Settled db db' r target) ∧
        ∀ reason' actorId', perform (handle i target reason' actorId') db' = db') ∧
    (∀ e, (handle i target reason actorId).run db = .error e →
      perform (handle i target reason actorId) db = db) := by
  constructor
  · intro db' h
    obtain ⟨htarget, r', hr', hcase⟩ := commits_handle h
    obtain rfl : r = r' := Option.some.inj (hr.symm.trans hr')
    rcases hcase with ⟨hs, rfl⟩ | hcl
    · refine ⟨fun _ => rfl, fun hne => absurd hs hne, fun _ _ => ?_⟩
      exact perform_of_commits (handle_again hr hs htarget)
    · have hset := settled_of_closes hr hsplit htotal hcl
      obtain ⟨q, hq, hqs, _⟩ := hset.balance
      refine ⟨fun hs => absurd hs hcl.fresh, fun _ => hset, fun _ _ => ?_⟩
      rw [Folio.reservation_id_eq hr] at hq
      exact perform_of_commits (handle_again hq hqs htarget)
  · intro e he
    simp [perform, he]

def taxedStay (i : ℕ) : Reservation :=
  { LedgerRuns.stay i with
    subtotalMinor := 9000
    taxMinor := 1000
    cancellationTiers := [⟨30, 5000, 0⟩] }

def booked : Database where
  clock := 0
  catalogue := .empty
  reservations := Table.empty.insert taxedStay

theorem late_cancellation_settles : feeMinor booked (taxedStay 0) = 5000 ∧
    ∃ db', Commits (handle 0 .cancelled "Storm" none) booked () db' ∧
      Settled booked db' (taxedStay 0) .cancelled := by
  have hr : booked.reservation? 0 = some (taxedStay 0) := by decide
  obtain ⟨_, db', h⟩ := exists_commits
    (x := handle 0 .cancelled "Storm" none) (s := booked) (by decide)
  have hset := ((closure_settles_folio hr (by decide) (by decide)).1 db' h).2.1 (by decide)
  exact ⟨by decide, db', h, hset⟩

end Closing
end Cancellation
