import LodgeOps.Ledger.Folio

namespace RetailPostingService
open Schema Transaction

section Quantities

structure SaleLine where
  catalogItemId : ℕ
  quantityMilli : ℤ
deriving DecidableEq

def addQuantity (i : ℕ) (n : ℤ) : List (ℕ × ℤ) → List (ℕ × ℤ)
  | [] => [(i, n)]
  | (j, m) :: qs => if j = i then (j, m + n) :: qs else (j, m) :: addQuantity i n qs

def gather (qs : List (ℕ × ℤ)) (l : SaleLine) : Except Failure (List (ℕ × ℤ)) := do
  refuse (l.quantityMilli ≤ 0) (.domain "Sale quantities must be positive thousandths.")
  .ok (addQuantity l.catalogItemId l.quantityMilli qs)

def quantities (lines : List SaleLine) : Except Failure (List (ℕ × ℤ)) := lines.foldlM gather []

end Quantities

section Items

structure Sold where
  item : CatalogItem
  quantityMilli : ℤ
deriving DecidableEq

def soldItem (db : Database) (q : ℕ × ℤ) : Except Failure Sold := do
  let item ← found (db.catalogItems.find? q.1) (.domain "A catalog item is unavailable.")
  .ok ⟨item, q.2⟩

def balanceMilli (db : Database) (itemId locationId : ℕ) : ℤ :=
  db.stockMovements.total fun m =>
    if m.catalogItemId = itemId ∧ m.stockLocationId = locationId then m.quantityThousandths else 0

def multiplyMinor (unitMinor quantityMilli : ℤ) : ℤ := (unitMinor * quantityMilli + 500).tdiv 1000

def Sold.amount (x : Sold) : ℤ := multiplyMinor x.item.priceMinor x.quantityMilli

structure Basket where
  currency : Option String
  subtotalMinor : ℤ
deriving DecidableEq

def priced (db : Database) (locationId : ℕ) (reservation : Option Reservation) (b : Basket)
    (x : Sold) : Except Failure Basket := do
  refuse (x.item.isActive = false) (.domain "Inactive catalog items cannot be sold.")
  refuse (b.currency.getD x.item.currency ≠ x.item.currency ∨
      reservation.any (fun r => r.currency != x.item.currency) = true)
    (.domain "Mixed-currency sales are forbidden.")
  refuse (x.item.trackStock = true ∧ balanceMilli db x.item.id locationId < x.quantityMilli)
    (.domain ("Insufficient stock for " ++ x.item.name ++ "."))
  .ok ⟨some (b.currency.getD x.item.currency), b.subtotalMinor + x.amount⟩

def amounts (items : List Sold) : ℤ := (items.map Sold.amount).sum

theorem amounts_append (xs ys : List Sold) : amounts (xs ++ ys) = amounts xs + amounts ys := by
  simp [amounts]

theorem amounts_cons (x : Sold) (xs : List Sold) : amounts (x :: xs) = x.amount + amounts xs := by
  simp [amounts]

theorem priced_eq_ok {db : Database} {locationId : ℕ} {reservation : Option Reservation}
    {b b' : Basket} {x : Sold} (h : priced db locationId reservation b x = .ok b') :
    b'.subtotalMinor = b.subtotalMinor + x.amount ∧
      (x.item.trackStock = true → x.quantityMilli ≤ balanceMilli db x.item.id locationId) := by
  simp only [priced, bind_eq_ok, refuse_eq_ok] at h
  obtain ⟨_, _, _, _, _, hstock, h⟩ := h
  obtain rfl : (⟨some (b.currency.getD x.item.currency), b.subtotalMinor + x.amount⟩ : Basket) = b' :=
    Except.ok.inj h
  exact ⟨rfl, fun ht => not_lt.mp fun hlt => hstock ⟨ht, hlt⟩⟩

end Items

section Writes

def sale (locationId : ℕ) (reference : String) (reservation : Option Reservation) (taxMinor : ℤ)
    (b : Basket) (now : ℤ) (i : ℕ) : RetailSale where
  id := i
  reservationId := reservation.map Reservation.id
  stockLocationId := locationId
  reference := reference
  status := "posted"
  currency := b.currency.getD ""
  subtotalMinor := b.subtotalMinor
  taxMinor := taxMinor
  totalMinor := b.subtotalMinor + taxMinor
  postedAt := now

-- The line is created without net, tax and gross amounts, which the model's creating hook fills in.
def charge (r : Reservation) (reference : String) (x : Sold) (now : ℤ) (i : ℕ) : FolioLine where
  id := i
  reservationId := r.id
  paymentId := none
  reversesFolioLineId := none
  type := .charge
  description := x.item.name
  quantityThousandths := x.quantityMilli
  unitAmountMinor := x.item.priceMinor
  netAmountMinor := x.amount
  taxAmountMinor := 0
  grossAmountMinor := x.amount
  currency := x.item.currency
  postedAt := now
  createdBy := none
  metadata := { source := some "retail_sale", saleReference := some reference }

def charged (reservation : Option Reservation) (reference : String) (x : Sold) (db : Database) :
    Database :=
  match reservation with
  | none => db
  | some r => { db with folioLines := db.folioLines.insert (charge r reference x db.clock) }

def saleLine (saleId : ℕ) (folioLineId : Option ℕ) (x : Sold) (i : ℕ) : RetailSaleLine where
  id := i
  retailSaleId := saleId
  catalogItemId := x.item.id
  folioLineId := folioLineId
  quantityThousandths := x.quantityMilli
  unitAmountMinor := x.item.priceMinor
  amountMinor := x.amount

def movement (s : RetailSale) (x : Sold) (now : ℤ) (i : ℕ) : StockMovement where
  id := i
  catalogItemId := x.item.id
  stockLocationId := s.stockLocationId
  retailSaleId := some s.id
  type := "sale"
  quantityThousandths := -x.quantityMilli
  unitCostMinor := x.item.costMinor
  reference := s.reference ++ ":" ++ toString x.item.id
  occurredAt := now

def moved (s : RetailSale) (x : Sold) (db : Database) : Database :=
  if x.item.trackStock then
    { db with stockMovements := db.stockMovements.insert (movement s x db.clock) }
  else db

def entered (locationId : ℕ) (reference : String) (reservation : Option Reservation)
    (taxMinor : ℤ) (b : Basket) (db : Database) : Database :=
  { db with
    retailSales := db.retailSales.insert (sale locationId reference reservation taxMinor b db.clock) }

def sold (s : RetailSale) (reservation : Option Reservation) (db : Database) (x : Sold) :
    Database :=
  let folioLineId := reservation.map fun _ => db.folioLines.next
  let db := charged reservation s.reference x db
  moved s x { db with
    retailSaleLines := db.retailSaleLines.insert (saleLine s.id folioLineId x) }

end Writes

def createSale (locationId : ℕ) (reference : String) (lines : List SaleLine)
    (reservation : Option Reservation) (taxMinor : ℤ) : Tx RetailSale := do
  let db ← get
  let qs ← check fun _ => quantities lines
  let items ← check fun db => qs.mapM (soldItem db)
  let basket ← check fun db => items.foldlM (priced db locationId reservation) ⟨none, 0⟩
  let s := sale locationId reference reservation taxMinor basket db.clock db.retailSales.next
  set (items.foldl (sold s reservation)
    (entered locationId reference reservation taxMinor basket db))
  pure s

def sale? (db : Database) (reference : String) : Option RetailSale :=
  db.retailSales.first? fun s => s.reference == reference

def post (locationId : ℕ) (reference : String) (lines : List SaleLine)
    (reservation : Option Reservation) (taxMinor : ℤ) : Tx RetailSale := do
  reject (lines.isEmpty = true ∨ taxMinor < 0)
    (.domain "A sale needs at least one line and a non-negative tax.")
  let db ← get
  match sale? db reference with
  | some existing => pure existing
  | none => createSale locationId reference lines reservation taxMinor

section Commits
variable {db db' : Database} {s : RetailSale} {reference : String} {lines : List SaleLine}
variable {reservation : Option Reservation} {taxMinor : ℤ} {locationId : ℕ} {qs : List (ℕ × ℤ)}

theorem addQuantity_ne_nil (i : ℕ) (n : ℤ) : addQuantity i n qs ≠ [] := by
  cases qs with
  | nil => simp [addQuantity]
  | cons q qs =>
    simp only [addQuantity]
    split_ifs <;> simp

theorem quantities_ne_nil (hl : lines ≠ []) (h : quantities lines = .ok qs) : qs ≠ [] := by
  cases lines with
  | nil => exact absurd rfl hl
  | cons l ls =>
    simp only [quantities, List.foldlM_cons, gather, bind_eq_ok, refuse_eq_ok] at h
    obtain ⟨first, ⟨_, _, hfirst⟩, hrest⟩ := h
    refine foldlM_invariant (I := fun b => b ≠ []) ?_ (b := first) ?_ hrest
    · intro b a b' _ hb
      simp only [gather, bind_eq_ok, refuse_eq_ok] at hb
      obtain ⟨_, _, hb⟩ := hb
      obtain rfl : addQuantity a.catalogItemId a.quantityMilli b = b' := by simpa using hb
      exact addQuantity_ne_nil _ _
    · obtain rfl : addQuantity l.catalogItemId l.quantityMilli [] = first := by simpa using hfirst
      exact addQuantity_ne_nil _ _

-- What a sale writes beside its own rows: one charge for each item when it names a reservation.
structure Charges (db db' : Database) (reservation : Option Reservation) (items : List Sold) :
    Prop where
  reservations : db'.reservations = db.reservations
  charged : ∀ r, reservation = some r → ∃ ls : List FolioLine, ls.length = items.length ∧
    (∀ l ∈ ls, l.reservationId = r.id) ∧ db'.folioLines.rows = db.folioLines.rows ++ ls
  uncharged : reservation = none → db'.folioLines = db.folioLines

theorem charges_sold (x : Sold) : Charges db (sold s reservation db x) reservation [x] := by
  have hm : ∀ t : Database, (moved s x t).reservations = t.reservations ∧
      (moved s x t).folioLines = t.folioLines := by
    intro t
    unfold moved
    split_ifs
    · exact ⟨rfl, rfl⟩
    · exact ⟨rfl, rfl⟩
  cases reservation with
  | none =>
    refine ⟨(hm _).1, fun _ h => ?_, fun _ => (hm _).2⟩
    cases h
  | some r =>
    refine ⟨(hm _).1, fun r' h => ?_, fun h => ?_⟩
    · obtain rfl : r = r' := Option.some.inj h
      refine ⟨[charge r s.reference x db.clock db.folioLines.next], rfl, ?_, ?_⟩
      · simp [charge]
      · exact congrArg Table.rows (hm _).2
    · cases h

theorem Charges.trans {t u : Database} {xs ys : List Sold} (h : Charges db t reservation xs)
    (h' : Charges t u reservation ys) : Charges db u reservation (xs ++ ys) := by
  refine ⟨h'.reservations.trans h.reservations, fun r hr => ?_, fun hn =>
    (h'.uncharged hn).trans (h.uncharged hn)⟩
  obtain ⟨ls, hlen, hown, hrows⟩ := h.charged r hr
  obtain ⟨ms, hlen', hown', hrows'⟩ := h'.charged r hr
  refine ⟨ls ++ ms, by simp [hlen, hlen'], fun l hl => ?_, by rw [hrows', hrows, List.append_assoc]⟩
  exact (List.mem_append.mp hl).elim (hown l) (hown' l)

theorem charges_nil (h : db'.reservations = db.reservations)
    (hl : db'.folioLines = db.folioLines) : Charges db db' reservation [] :=
  ⟨h, fun _ _ => ⟨[], rfl, by simp, by simp [hl]⟩, fun _ => hl⟩

theorem charges_foldl (items : List Sold) :
    Charges db (items.foldl (sold s reservation) db) reservation items := by
  induction items generalizing db with
  | nil => exact charges_nil rfl rfl
  | cons x xs ih =>
    rw [List.foldl_cons]
    exact (charges_sold x).trans ih

theorem charges_from {t : Database} (hr : t.reservations = db.reservations)
    (hl : t.folioLines = db.folioLines) (items : List Sold) :
    Charges db (items.foldl (sold s reservation) t) reservation items :=
  (charges_nil hr hl).trans (charges_foldl items)

-- The basket is priced on the rows the sale then writes from.
structure Sells (db : Database) (locationId : ℕ) (reference : String) (lines : List SaleLine)
    (reservation : Option Reservation) (taxMinor : ℤ) (s : RetailSale) (db' : Database)
    (items : List Sold) (basket : Basket) : Prop where
  gathered : ∃ qs, quantities lines = .ok qs ∧ qs.mapM (soldItem db) = .ok items
  priced : items.foldlM (priced db locationId reservation) ⟨none, 0⟩ = .ok basket
  sale : s = sale locationId reference reservation taxMinor basket db.clock db.retailSales.next
  written : db' = items.foldl (sold s reservation)
    (entered locationId reference reservation taxMinor basket db)

theorem commits_createSale
    (h : Commits (createSale locationId reference lines reservation taxMinor) db s db') :
    ∃ items basket, Sells db locationId reference lines reservation taxMinor s db' items basket := by
  simp only [createSale, commits_bind, commits_get, commits_check, commits_set, commits_pure] at h
  obtain ⟨_, _, ⟨rfl, rfl⟩, qs, _, ⟨hq, rfl⟩, items, _, ⟨hi, rfl⟩, basket, _, ⟨hb, rfl⟩, _, _, rfl,
    rfl, rfl⟩ := h
  exact ⟨items, basket, ⟨qs, hq, hi⟩, hb, rfl, rfl⟩

theorem Sells.charges {items : List Sold} {basket : Basket}
    (h : Sells db locationId reference lines reservation taxMinor s db' items basket) :
    Charges db db' reservation items := by
  rw [h.written]
  apply charges_from
  · rfl
  · rfl

theorem commits_post_sells
    (h : Commits (post locationId reference lines reservation taxMinor) db s db') :
    (sale? db reference = some s ∧ db' = db) ∨
      (sale? db reference = none ∧ lines ≠ [] ∧ 0 ≤ taxMinor ∧ ∃ items basket,
        Sells db locationId reference lines reservation taxMinor s db' items basket) := by
  simp only [post, commits_bind, commits_reject, commits_get] at h
  obtain ⟨_, _, ⟨hok, rfl⟩, _, _, ⟨rfl, rfl⟩, h⟩ := h
  cases hx : sale? db reference with
  | some existing =>
    simp only [hx, commits_pure] at h
    exact Or.inl ⟨by rw [h.1], h.2.symm⟩
  | none =>
    simp only [hx] at h
    have hlines : lines ≠ [] := by
      intro hn
      simp [hn] at hok
    exact Or.inr ⟨rfl, hlines, not_lt.mp fun ht => hok (Or.inr ht), commits_createSale h⟩

theorem commits_post (h : Commits (post locationId reference lines reservation taxMinor) db s db') :
    (sale? db reference = some s ∧ db' = db) ∨
      (sale? db reference = none ∧ ∃ items, items ≠ [] ∧ Charges db db' reservation items) := by
  obtain h | ⟨hx, hlines, _, items, basket, hs⟩ := commits_post_sells h
  · exact Or.inl h
  · refine Or.inr ⟨hx, items, ?_, hs.charges⟩
    rintro rfl
    obtain ⟨qs, hq, hi⟩ := hs.gathered
    exact quantities_ne_nil hlines hq (List.length_eq_zero_iff.mp (length_of_mapM hi).symm)

end Commits
end RetailPostingService
