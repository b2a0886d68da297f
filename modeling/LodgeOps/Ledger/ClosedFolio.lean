import LodgeOps.Ledger.Retail

namespace ClosedFolio
open Schema Transaction Folio RetailPostingService

section Runs

inductive Operation
  | append (reservationId : ℕ) (type : FolioLineType) (description : String)
      (quantityThousandths unitAmountMinor : ℤ) (actorId : Option ℕ) (metadata : LineMetadata)
      (taxAmountMinor : ℤ) (includedInBookedTotal : Bool)
  | postPayment (payment : Payment) (actorId : Option ℕ)
  | postRefund (payment : Payment) (refund : ReservationChange) (actorId : Option ℕ)
  | postProviderAdjustment (payment : Payment) (type : FolioLineType) (description : String)
      (amountMinor : ℤ) (metadata : LineMetadata)
  | reverse (lineId : ℕ) (reason : String) (actorId : Option ℕ)
  | close (reservationId : ℕ)
  | reopen (reservationId : ℕ)
  | post (locationId : ℕ) (reference : String) (lines : List SaleLine) (reservationId : Option ℕ)
      (taxMinor : ℤ)

def quietly {α : Type} (x : Tx α) : Tx Unit := do
  let _ ← x
  pure ()

def soldTo : Option ℕ → Tx (Option Reservation)
  | none => pure none
  | some i => some <$> lockedReservation i

def Operation.run : Operation → Tx Unit
  | append i type description quantity unit actor metadata tax included => do
    let r ← lockedReservation i
    quietly (Folio.append r type description quantity unit actor metadata tax included)
  | postPayment payment actor => quietly (Folio.postPayment payment actor)
  | postRefund payment refund actor => quietly (Folio.postRefund payment refund actor)
  | postProviderAdjustment payment type description amount metadata =>
    quietly (Folio.postProviderAdjustment payment type description amount metadata)
  | reverse i reason actor => quietly (Folio.reverse i reason actor)
  | close i => Folio.close i
  | reopen i => Folio.reopen i
  | post locationId reference lines reservationId taxMinor => do
    let reservation ← soldTo reservationId
    quietly (RetailPostingService.post locationId reference lines reservation taxMinor)

-- A sale that is not a replay goes to a folio that is still open.
def SaleOpen (db : Database) (reference : String) (reservationId : Option ℕ) : Prop :=
  (sale? db reference).isSome = true ∨
    ∀ i, reservationId = some i → ∀ r, db.reservation? i = some r → r.folioStatus ≠ .closed

def Operation.Open (op : Operation) (db : Database) : Prop :=
  match op with
  | post _ reference _ reservationId _ => SaleOpen db reference reservationId
  | _ => True

end Runs

section Balances
variable {db db' : Database} {r : Reservation} {i : ℕ}

def linesOf (db : Database) (i : ℕ) : List FolioLine :=
  db.folioLines.select fun l => l.reservationId == i

def balance (db : Database) (i : ℕ) : Option ℤ :=
  (db.reservation? i).map fun r => (summary db r).balanceMinor

def Settled (db : Database) : Prop :=
  ∀ r ∈ db.reservations.rows, r.folioStatus = .closed → (summary db r).balanceMinor = 0

theorem lineTotal_linesOf (f : FolioLine → ℤ) : lineTotal db i f = ((linesOf db i).map f).sum := by
  unfold lineTotal Table.total linesOf Table.select
  induction db.folioLines.rows with
  | nil => rfl
  | cons l ls ih =>
    by_cases hl : l.reservationId = i
    · simp [hl, ih]
    · simp [hl, ih]

theorem balance_congr (hl : linesOf db' r.id = linesOf db r.id) :
    (summary db' r).balanceMinor = (summary db r).balanceMinor := by
  simp only [summary, lineTotal_linesOf, hl]

end Balances

section Steps
variable {db db' : Database} {r : Reservation} {op : Operation} {i : ℕ}

-- Lines are only ever posted to one open folio; closing asks for a zero balance.
structure Posts (db db' : Database) (r : Reservation) : Prop where
  found : db.reservation? r.id = some r
  opened : r.folioStatus ≠ .closed
  reservations : db'.reservations = db.reservations
  lines : ∃ ls : List FolioLine, (∀ l ∈ ls, l.reservationId = r.id) ∧
    db'.folioLines.rows = db.folioLines.rows ++ ls

structure Turns (db db' : Database) (r : Reservation) (status : FolioStatus) : Prop where
  found : db.reservation? r.id = some r
  lines : db'.folioLines = db.folioLines
  reservations : db'.reservations =
    db.reservations.update r.id fun r => { r with folioStatus := status }

inductive Step (db db' : Database) : Operation → Prop
  | quiet {op : Operation} : db'.folioLines = db.folioLines → db'.reservations = db.reservations →
      Step db db' op
  | posts {op : Operation} (r : Reservation) : Posts db db' r → Step db db' op
  | closes (r : Reservation) : Turns db db' r .closed → (summary db r).balanceMinor = 0 →
      Step db db' (.close r.id)
  | reopens (r : Reservation) : Turns db db' r .opened → Step db db' (.reopen r.id)

theorem commits_quietly {α : Type} {x : Tx α} :
    Commits (quietly x) db () db' ↔ ∃ a, Commits x db a db' := by
  simp [quietly]

theorem posts_posted {d : LineDraft} (hr : db.reservation? i = some r)
    (ho : r.folioStatus ≠ .closed) : Posts db (posted db r d) r := by
  obtain rfl := reservation_id_eq hr
  exact ⟨hr, ho, rfl, [line r d db.clock db.folioLines.next], by simp [line], rfl⟩

theorem step_append {type : FolioLineType} {description : String} {quantity unit tax : ℤ}
    {actor : Option ℕ} {metadata : LineMetadata} {included : Bool}
    (h : Commits (Operation.append i type description quantity unit actor metadata tax included).run
      db () db') : ∃ r, Posts db db' r := by
  simp only [Operation.run, commits_bind, commits_lockedReservation, commits_quietly, Folio.append,
    commits_check, commits_reject, commits_createLine, assertOpen, refuse_eq_ok] at h
  obtain ⟨r, _, ⟨hr, rfl⟩, _, _, _, ⟨ho, rfl⟩, _, _, ⟨_, rfl⟩, _, rfl⟩ := h
  exact ⟨r, posts_posted hr ho⟩

theorem turns_update (hr : db.reservation? i = some r) (status : FolioStatus) :
    Turns db { db with reservations := db.reservations.update r.id fun r =>
      { r with folioStatus := status } } r status := by
  obtain rfl := reservation_id_eq hr
  exact ⟨hr, rfl, rfl⟩

theorem step_close (h : Commits (Folio.close i) db () db') : Step db db' (.close i) := by
  simp only [Folio.close, commits_bind, commits_lockedReservation, commits_ite, commits_pure,
    commits_reject, commits_get, commits_set] at h
  obtain ⟨r, _, ⟨hr, rfl⟩, ⟨_, _, rfl⟩ | ⟨_, _, _, ⟨_, rfl⟩, _, _, ⟨rfl, rfl⟩, _, _, ⟨hz, rfl⟩, rfl⟩⟩ := h
  · exact .quiet rfl rfl
  · obtain rfl := reservation_id_eq hr
    exact .closes r (turns_update hr .closed) (not_not.mp hz)

theorem step_reopen (h : Commits (Folio.reopen i) db () db') : Step db db' (.reopen i) := by
  simp only [Folio.reopen, commits_bind, commits_lockedReservation, commits_ite, commits_pure,
    commits_modify] at h
  obtain ⟨r, _, ⟨hr, rfl⟩, ⟨_, _, rfl⟩ | ⟨_, rfl⟩⟩ := h
  · exact .quiet rfl rfl
  · obtain rfl := reservation_id_eq hr
    exact .reopens r (turns_update hr .opened)

theorem commits_soldTo {reservationId : Option ℕ} {reservation : Option Reservation} :
    Commits (soldTo reservationId) db reservation db' ↔
      db' = db ∧ reservation.map Reservation.id = reservationId ∧
        ∀ r, reservation = some r → db.reservation? r.id = some r := by
  cases reservationId with
  | none =>
    simp only [soldTo, commits_pure]
    constructor
    · rintro ⟨rfl, rfl⟩
      simp
    · rintro ⟨rfl, hn, _⟩
      exact ⟨by simpa [eq_comm] using hn, rfl⟩
  | some i =>
    simp only [soldTo, commits_map, commits_lockedReservation]
    constructor
    · rintro ⟨r, ⟨hr, rfl⟩, rfl⟩
      obtain rfl := reservation_id_eq hr
      simpa using hr
    · rintro ⟨rfl, hid, hfound⟩
      obtain ⟨r, rfl, rfl⟩ := Option.map_eq_some_iff.mp hid
      exact ⟨r, ⟨hfound r rfl, rfl⟩, rfl⟩

theorem step_post {locationId : ℕ} {reference : String} {lines : List SaleLine}
    {reservationId : Option ℕ} {taxMinor : ℤ} (ho : SaleOpen db reference reservationId)
    (h : Commits (Operation.post locationId reference lines reservationId taxMinor).run db () db') :
    Step db db' (.post locationId reference lines reservationId taxMinor) := by
  simp only [Operation.run, commits_bind, commits_soldTo, commits_quietly] at h
  obtain ⟨reservation, _, ⟨rfl, hid, hfound⟩, s, hs⟩ := h
  rcases commits_post hs with ⟨_, rfl⟩ | ⟨hnone, items, _, hc⟩
  · exact .quiet rfl rfl
  · cases reservation with
    | none => exact .quiet (hc.uncharged rfl) hc.reservations
    | some r =>
      obtain ⟨ls, _, hown, hrows⟩ := hc.charged r rfl
      have hr := hfound r rfl
      rcases ho with ho | ho
      · simp [hnone] at ho
      · exact .posts r ⟨hr, ho r.id hid.symm r hr, hc.reservations, ls, hown, hrows⟩

theorem step_run (ha : op.Open db) (h : Commits op.run db () db') : Step db db' op := by
  cases op with
  | append i type description quantity unit actor metadata tax included =>
    obtain ⟨r, hp⟩ := step_append h
    exact .posts r hp
  | postPayment payment actor =>
    obtain ⟨l, hl⟩ := commits_quietly.mp h
    obtain ⟨_, rfl⟩ | ⟨_, r, hr, ho, rfl⟩ := commits_postPayment hl
    · exact .quiet rfl rfl
    · exact .posts r (posts_posted hr ho)
  | postRefund payment refund actor =>
    obtain ⟨l, hl⟩ := commits_quietly.mp h
    obtain ⟨_, rfl⟩ | ⟨_, r, hr, ho, rfl⟩ := commits_postRefund hl
    · exact .quiet rfl rfl
    · exact .posts r (posts_posted hr ho)
  | postProviderAdjustment payment type description amount metadata =>
    obtain ⟨l, hl⟩ := commits_quietly.mp h
    obtain ⟨_, _, r, hr, ho, rfl⟩ := commits_postProviderAdjustment hl
    exact .posts r (posts_posted hr ho)
  | reverse i reason actor =>
    obtain ⟨l, hl⟩ := commits_quietly.mp h
    obtain ⟨_, _, ⟨_, rfl⟩ | ⟨_, _, r, hr, ho, rfl⟩⟩ := commits_reverse hl
    · exact .quiet rfl rfl
    · exact .posts r (posts_posted hr ho)
  | close i => exact step_close h
  | reopen i => exact step_reopen h
  | post locationId reference lines reservationId taxMinor => exact step_post ha h

end Steps

section Frozen
variable {db db' t : Database} {r s : Reservation} {op : Operation} {status : FolioStatus}

theorem find_of_mem (hr : r ∈ db.reservations.rows) : db.reservation? r.id = some r :=
  Table.find?_eq_some.mpr ⟨hr, rfl⟩

theorem Posts.elsewhere (h : Posts db db' s) (hne : s.id ≠ r.id) :
    linesOf db' r.id = linesOf db r.id := by
  obtain ⟨ls, hown, hrows⟩ := h.lines
  have hnone : ls.filter (fun l => l.reservationId == r.id) = [] :=
    List.filter_eq_nil_iff.mpr fun l hl => by simp [hown l hl, hne]
  simp [linesOf, Table.select, hrows, hnone]

theorem Turns.lines_eq (h : Turns db db' s status) (i : ℕ) : linesOf db' i = linesOf db i := by
  simp only [linesOf, h.lines]

theorem Turns.balance_eq (h : Turns db db' s status) (i : ℕ) : balance db' i = balance db i := by
  have hsum : ∀ q : Reservation, (summary db' q).balanceMinor = (summary db q).balanceMinor :=
    fun q => balance_congr (h.lines_eq q.id)
  simp only [balance, Database.reservation?, h.reservations]
  rw [Table.find?_update]
  split_ifs
  · cases db.reservations.find? i with
    | none => rfl
    | some q => exact congrArg some (hsum q)
  · exact congrArg (Option.map · _) (funext hsum)

theorem balance_of_lines (hr : db'.reservations = db.reservations)
    (hl : linesOf db' r.id = linesOf db r.id) : balance db' r.id = balance db r.id := by
  simp only [balance, Database.reservation?, hr]
  cases hf : db.reservations.find? r.id with
  | none => rfl
  | some q =>
    have hid : q.id = r.id := reservation_id_eq hf
    exact congrArg some (balance_congr (by rw [hid, hl]))

-- Nothing but a closing leaves a folio closed that was not, and a closed one is not written to.
theorem step_frozen (h : Step db db' op) (hr : r ∈ db.reservations.rows)
    (hc : r.folioStatus = .closed) :
    linesOf db' r.id = linesOf db r.id ∧ balance db' r.id = balance db r.id := by
  cases h with
  | quiet hl hres =>
    have hlines : linesOf db' r.id = linesOf db r.id := by simp only [linesOf, hl]
    exact ⟨hlines, balance_of_lines hres hlines⟩
  | posts s hp =>
    have hne : s.id ≠ r.id := by
      intro he
      have hs := hp.found
      rw [he, find_of_mem hr] at hs
      obtain rfl : r = s := Option.some.inj hs
      exact hp.opened hc
    exact ⟨hp.elsewhere hne, balance_of_lines hp.reservations (hp.elsewhere hne)⟩
  | closes s ht hz => exact ⟨ht.lines_eq _, ht.balance_eq _⟩
  | reopens s ht => exact ⟨ht.lines_eq _, ht.balance_eq _⟩

theorem step_settled (h : Step db db' op) (hs : Settled db) : Settled db' := by
  have hstep := fun r hr hc => step_frozen (r := r) h hr hc
  intro r hr hc
  cases h with
  | quiet hl hres =>
    rw [hres] at hr
    rw [balance_congr (hstep r hr hc).1]
    exact hs r hr hc
  | posts s hp =>
    rw [hp.reservations] at hr
    rw [balance_congr (hstep r hr hc).1]
    exact hs r hr hc
  | closes s ht hz =>
    rw [balance_congr (ht.lines_eq r.id)]
    rw [ht.reservations] at hr
    rcases (Table.mem_update).mp hr with ⟨hr, _⟩ | ⟨q, hq, hid, rfl⟩
    · exact hs r hr hc
    · have hfound := find_of_mem hq
      rw [show q.id = s.id from hid, ht.found] at hfound
      obtain rfl : s = q := Option.some.inj hfound
      exact hz
  | reopens s ht =>
    rw [balance_congr (ht.lines_eq r.id)]
    rw [ht.reservations] at hr
    rcases (Table.mem_update).mp hr with ⟨hr, _⟩ | ⟨q, _, _, rfl⟩
    · exact hs r hr hc
    · cases hc

theorem closed_folio_is_frozen (h0 : Settled db) (h : Reaches Operation.run Operation.Open db db') :
    Settled db' ∧ ∀ (op : Operation) t, op.Open db' → Commits op.run db' () t →
      ∀ r ∈ db'.reservations.rows, r.folioStatus = .closed →
        linesOf t r.id = linesOf db' r.id ∧ balance t r.id = balance db' r.id :=
  ⟨h.invariant h0 fun _ _ _ hs ha hc => step_settled (step_run ha hc) hs,
    fun _ _ ha hc _ hr hclosed => step_frozen (step_run ha hc) hr hclosed⟩

-- The condition leaves out no sale that would have been harmless.
theorem sale_lands_on_closed_folio {locationId : ℕ} {reference : String} {lines : List SaleLine}
    {reservationId : Option ℕ} {taxMinor : ℤ} (ho : ¬ SaleOpen db reference reservationId)
    (h : Commits (Operation.post locationId reference lines reservationId taxMinor).run db () db') :
    ∃ r ∈ db.reservations.rows, r.folioStatus = .closed ∧
      (linesOf db r.id).length < (linesOf db' r.id).length := by
  simp only [SaleOpen, not_or, not_forall, not_not] at ho
  obtain ⟨hnone, i, rfl, r, hr, hc⟩ := ho
  simp only [Operation.run, commits_bind, commits_soldTo, commits_quietly] at h
  obtain ⟨reservation, _, ⟨rfl, hid, hfound⟩, s, hs⟩ := h
  obtain ⟨q, rfl, hq⟩ := Option.map_eq_some_iff.mp hid
  have hqr := hfound q rfl
  rw [hq, hr] at hqr
  obtain rfl : r = q := Option.some.inj hqr
  rcases commits_post hs with ⟨hsome, _⟩ | ⟨_, items, hne, hcharges⟩
  · simp [hsome] at hnone
  · obtain ⟨ls, hlen, hown, hrows⟩ := hcharges.charged r rfl
    refine ⟨r, (Table.find?_eq_some.mp hr).1, hc, ?_⟩
    have hall : ls.filter (fun l => l.reservationId == r.id) = ls :=
      List.filter_eq_self.mpr fun l hl => by simp [hown l hl]
    have hpos : 0 < ls.length := hlen ▸ List.length_pos_of_ne_nil hne
    simp only [linesOf, Table.select, hrows, List.filter_append, hall, List.length_append]
    omega

end Frozen

section Scenario

def departed (i : ℕ) : Reservation where
  id := i
  propertyId := 0
  programId := none
  bookingQuoteId := none
  status := .checkedOut
  startsAt := 1000
  endsAt := 2000
  holdExpiresAt := none
  adults := 2
  children := 0
  currency := "USD"
  subtotalMinor := 10000
  taxMinor := 0
  totalMinor := 10000
  depositPolicy := none
  cancellationTiers := []
  folioStatus := .opened
  closureReason := none
  revision := 1

def fly (i : ℕ) : CatalogItem where
  id := i
  name := "Hand-tied fly"
  currency := "USD"
  priceMinor := 1250
  isActive := true

def opening : Database where
  clock := 0
  catalogue := .empty
  reservations := Table.empty.insert departed
  catalogItems := Table.empty.insert fly

def transfer : Payment where
  id := 0
  reservationId := 0
  status := .succeeded
  method := "bank_transfer"
  channel := .bankTransfer
  entryMode := .staffRecorded
  origin := .manual
  currency := "USD"
  amountMinor := 10000
  metadata := {}

def openly (op : Operation) (db : Database) : Bool :=
  match op with
  | .post _ reference _ (some i) _ => (sale? db reference).isSome ||
      (db.reservation? i).all fun r => r.folioStatus != .closed
  | _ => true

theorem open_of_openly {op : Operation} {db : Database} (h : openly op db = true) : op.Open db := by
  cases op with
  | post locationId reference lines reservationId taxMinor =>
    cases reservationId with
    | none => exact Or.inr fun i hi => by cases hi
    | some i =>
      simp only [openly, Bool.or_eq_true, Option.all_eq_true, bne_iff_ne] at h
      refine h.imp id fun hall j hj => ?_
      obtain rfl : i = j := Option.some.inj hj
      exact hall
  | _ => trivial

theorem opening_settled : Settled opening := by
  intro r hr hc
  obtain rfl : r = departed 0 := by simpa [opening, Table.insert, Table.empty] using hr
  cases hc

-- A sale before the folio is closed, its replay afterwards, and another sale once it is reopened.
theorem reopened_folio_takes_a_sale : ∃ t, Reaches Operation.run Operation.Open opening t ∧
    (linesOf t 0).length = 4 ∧ Settled t := by
  obtain ⟨t, hr, hp⟩ : ∃ t, Reaches Operation.run Operation.Open opening t ∧
      decide ((linesOf t 0).length = 4) = true :=
    Reaches.exists_of_execute (fun _ _ => open_of_openly)
      [.postPayment transfer none, .post 0 "SALE-1" [⟨0, 1500⟩] (some 0) 0,
        .append 0 .adjustment "Courtesy" 1000 (-1875) none {} 0 false, .close 0,
        .post 0 "SALE-1" [⟨0, 1500⟩] (some 0) 0, .reopen 0,
        .post 0 "SALE-2" [⟨0, 1000⟩] (some 0) 0]
      (by decide)
  exact ⟨t, hr, of_decide_eq_true hp, (closed_folio_is_frozen opening_settled hr).1⟩

-- The shop charges a folio that has been settled and closed.
theorem sale_reaches_closed_folio : Settled opening ∧
    ∃ t, Reaches Operation.run (fun _ _ => True) opening t ∧ ¬ Settled t := by
  obtain ⟨t, hr, hp⟩ : ∃ t, Reaches Operation.run (fun _ _ => True) opening t ∧
      (t.reservations.rows.any fun r =>
        decide (r.folioStatus = .closed ∧ (summary t r).balanceMinor = 1250)) = true :=
    Reaches.exists_of_run
      [.postPayment transfer none, .close 0, .post 0 "SALE-1" [⟨0, 1000⟩] (some 0) 0]
      (by decide)
  obtain ⟨r, hmem, hbad⟩ := List.any_eq_true.mp hp
  obtain ⟨hc, hb⟩ := of_decide_eq_true hbad
  refine ⟨opening_settled, t, hr, fun hs => ?_⟩
  have hz := hs r hmem hc
  omega

end Scenario
end ClosedFolio
