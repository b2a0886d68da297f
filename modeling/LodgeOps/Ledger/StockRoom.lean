import LodgeOps.Ledger.Retail
import LodgeOps.Store.Workers

namespace StockRoom
open Schema Transaction RetailPostingService Crew

section Receipts

structure Delivery where
  catalogItemId : ℕ
  stockLocationId : ℕ
  quantityMilli : ℤ
  unitCostMinor : Option ℤ
  reference : String
deriving DecidableEq

def movement? (db : Database) (reference : String) : Option StockMovement :=
  db.stockMovements.first? fun m => m.reference == reference

def receipt (item : CatalogItem) (d : Delivery) (now : ℤ) (i : ℕ) : StockMovement where
  id := i
  catalogItemId := item.id
  stockLocationId := d.stockLocationId
  retailSaleId := none
  type := "receipt"
  quantityThousandths := d.quantityMilli
  unitCostMinor := d.unitCostMinor.getD item.costMinor
  reference := d.reference
  occurredAt := now

end Receipts

section Sessions

structure Order where
  locationId : ℕ
  reference : String
  lines : List SaleLine
  reservation : Option Reservation
  taxMinor : ℤ
deriving DecidableEq

-- A request between two of its statements. Item rows stay locked from the pricing to the commit.
inductive Stage
  | opened (o : Order)
  | pricing (o : Order) (checked unchecked : List Sold) (basket : Basket)
  | receiving (d : Delivery) (item : CatalogItem)
deriving DecidableEq

def Stage.locked : Stage → List ℕ
  | pricing _ checked unchecked _ => (checked ++ unchecked).map fun x => x.item.id
  | _ => []

abbrev Shop := Crew Database Unit Stage
abbrev ShopTx := Transaction Failure Shop

def gone : Failure := .runtime "The request is not at this statement."
def busy : Failure := .runtime "A catalog item is locked by another sale."
def uniqueViolation : Failure := .runtime "The reference has been taken."

end Sessions

section Statements

def post (o : Order) : ShopTx Unit := do
  reject (o.lines.isEmpty = true ∨ o.taxMinor < 0)
    (.domain "A sale needs at least one line and a non-negative tax.")
  let w ← get
  match sale? w.db o.reference with
  | some _ => pure ()
  | none => enter (.opened o)

def itemsOf (db : Database) (o : Order) : Except Failure (List Sold) := do
  let qs ← quantities o.lines
  qs.mapM (soldItem db)

def lock (o : Order) : ShopTx Unit := do
  leave (.opened o) gone
  let items ← check fun w => itemsOf w.db o
  let w ← get
  reject (∃ k ∈ w.workers, ∃ x ∈ items, x.item.id ∈ k.locked) busy
  match sale? w.db o.reference with
  | some _ => pure ()
  | none => enter (.pricing o [] items ⟨none, 0⟩)

-- Each item's balance is read by a statement of its own.
def price (o : Order) (checked : List Sold) (x : Sold) (unchecked : List Sold) (b : Basket) :
    ShopTx Unit := do
  leave (.pricing o checked (x :: unchecked) b) gone
  let b' ← check fun w => priced w.db o.locationId o.reservation b x
  enter (.pricing o (checked ++ [x]) unchecked b')

def saleOf (db : Database) (o : Order) (b : Basket) : RetailSale :=
  sale o.locationId o.reference o.reservation o.taxMinor b db.clock db.retailSales.next

def written (db : Database) (o : Order) (items : List Sold) (b : Basket) : Database :=
  items.foldl (sold (saleOf db o b) o.reservation)
    (entered o.locationId o.reference o.reservation o.taxMinor b db)

def insertSale (o : Order) (items : List Sold) (b : Basket) : Tx Unit := do
  let db ← get
  reject ((sale? db o.reference).isSome = true) uniqueViolation
  reject (∃ x ∈ items, x.item.trackStock = true ∧
    (movement? db (o.reference ++ ":" ++ toString x.item.id)).isSome = true) uniqueViolation
  set (written db o items b)

def commit (o : Order) (items : List Sold) (b : Basket) : ShopTx Unit := do
  leave (.pricing o items [] b) gone
  onDb (insertSale o items b)

def rollBack (k : Stage) : ShopTx Unit := leave k gone

def receiveStock (d : Delivery) : ShopTx Unit := do
  reject (d.quantityMilli < 1) (.validation "quantity_milli" "The quantity must be at least 1.")
  let w ← get
  let item ← orFail (w.db.catalogItems.find? d.catalogItemId) .modelNotFound
  match movement? w.db d.reference with
  | some _ => pure ()
  | none => enter (.receiving d item)

def insertReceipt (d : Delivery) (item : CatalogItem) : Tx Unit := do
  let db ← get
  reject ((movement? db d.reference).isSome = true) uniqueViolation
  set { db with stockMovements := db.stockMovements.insert (receipt item d db.clock) }

def storeReceipt (d : Delivery) (item : CatalogItem) : ShopTx Unit := do
  leave (.receiving d item) gone
  onDb (insertReceipt d item)

def wait (seconds : ℕ) : ShopTx Unit :=
  onDb (modify fun db => { db with clock := db.clock + seconds })

inductive Action
  | post (o : Order)
  | lock (o : Order)
  | price (o : Order) (checked : List Sold) (x : Sold) (unchecked : List Sold) (b : Basket)
  | commit (o : Order) (items : List Sold) (b : Basket)
  | rollBack (k : Stage)
  | receiveStock (d : Delivery)
  | storeReceipt (d : Delivery) (item : CatalogItem)
  | wait (seconds : ℕ)
deriving DecidableEq

def Action.run : Action → ShopTx Unit
  | post o => StockRoom.post o
  | lock o => StockRoom.lock o
  | price o checked x unchecked b => StockRoom.price o checked x unchecked b
  | commit o items b => StockRoom.commit o items b
  | rollBack k => StockRoom.rollBack k
  | receiveStock d => StockRoom.receiveStock d
  | storeReceipt d item => StockRoom.storeReceipt d item
  | wait seconds => StockRoom.wait seconds

end Statements

section Steps
variable {w w' : Shop} {db db' : Database} {o : Order} {d : Delivery} {item : CatalogItem}
variable {items checked unchecked : List Sold} {x : Sold} {b : Basket} {k : Stage}

-- A new stage beside the workers that are left.
inductive Opens (db : Database) (workers : List Stage) : Stage → Prop
  | opened (o : Order) : Opens db workers (.opened o)
  | pricing (o : Order) (items : List Sold) : itemsOf db o = .ok items →
      (∀ k ∈ workers, ∀ x ∈ items, x.item.id ∉ k.locked) →
      Opens db workers (.pricing o [] items ⟨none, 0⟩)
  | receiving (d : Delivery) (item : CatalogItem) : 0 < d.quantityMilli →
      db.catalogItems.find? d.catalogItemId = some item → Opens db workers (.receiving d item)

inductive Stores (db : Database) : Stage → Database → Prop
  | sale (o : Order) (items : List Sold) (b : Basket) : sale? db o.reference = none →
      Stores db (.pricing o items [] b) (written db o items b)
  | receipt (d : Delivery) (item : CatalogItem) : movement? db d.reference = none →
      Stores db (.receiving d item)
        { db with stockMovements := db.stockMovements.insert (receipt item d db.clock) }

inductive Step (w w' : Shop) : Prop
  | opens (left : List Stage) (k : Stage) : left.Sublist w.workers →
      Opens w.db left k → w' = { w with workers := k :: left } → Step w w'
  | prices (o : Order) (checked : List Sold) (x : Sold) (unchecked : List Sold) (b b' : Basket) :
      .pricing o checked (x :: unchecked) b ∈ w.workers →
      priced w.db o.locationId o.reservation b x = .ok b' →
      w' = { w with workers := .pricing o (checked ++ [x]) unchecked b' ::
        w.workers.erase (.pricing o checked (x :: unchecked) b) } → Step w w'
  | stores (k : Stage) (db : Database) : k ∈ w.workers → Stores w.db k db →
      w' = { w with db := db, workers := w.workers.erase k } → Step w w'
  | leaves (left : List Stage) : left.Sublist w.workers → w' = { w with workers := left } → Step w w'
  | waits (now : ℤ) : w' = { w with db := { w.db with clock := now } } → Step w w'

theorem step_post (h : Commits (post o) w () w') : Step w w' := by
  simp only [post, commits_bind, commits_reject, commits_get] at h
  obtain ⟨_, _, ⟨_, rfl⟩, _, _, ⟨rfl, rfl⟩, h⟩ := h
  cases hx : sale? w.db o.reference with
  | some existing =>
    simp only [hx, commits_pure] at h
    exact .leaves w.workers (List.Sublist.refl _) h.2.symm
  | none =>
    simp only [hx, commits_enter] at h
    exact .opens w.workers _ (List.Sublist.refl _) (.opened o) h

theorem step_lock (h : Commits (lock o) w () w') : Step w w' := by
  simp only [lock, commits_bind, commits_leave, commits_check, commits_get, commits_reject] at h
  obtain ⟨_, _, ⟨_, rfl⟩, items, _, ⟨hi, rfl⟩, _, _, ⟨rfl, rfl⟩, _, _, ⟨hfree, rfl⟩, h⟩ := h
  have hsub := List.erase_sublist (a := Stage.opened o) (l := w.workers)
  cases hx : sale? w.db o.reference with
  | some existing =>
    simp only [hx, commits_pure] at h
    exact .leaves _ hsub h.2.symm
  | none =>
    simp only [hx, commits_enter] at h
    push Not at hfree
    exact .opens _ _ hsub (.pricing o items hi hfree) h

theorem step_price (h : Commits (price o checked x unchecked b) w () w') : Step w w' := by
  simp only [price, commits_bind, commits_leave, commits_check, commits_enter] at h
  obtain ⟨_, _, ⟨hk, rfl⟩, b', _, ⟨hb, rfl⟩, h⟩ := h
  exact .prices o checked x unchecked b b' hk hb h

theorem commits_insertSale (h : Commits (insertSale o items b) db () db') :
    sale? db o.reference = none ∧ db' = written db o items b := by
  simp only [insertSale, commits_bind, commits_get, commits_reject, commits_set] at h
  obtain ⟨_, _, ⟨rfl, rfl⟩, _, _, ⟨hs, rfl⟩, _, _, ⟨_, rfl⟩, rfl⟩ := h
  exact ⟨by simpa using hs, rfl⟩

theorem step_commit (h : Commits (commit o items b) w () w') : Step w w' := by
  simp only [commit, commits_bind, commits_leave, commits_onDb] at h
  obtain ⟨_, _, ⟨hk, rfl⟩, db', hdb, rfl⟩ := h
  obtain ⟨hs, rfl⟩ := commits_insertSale hdb
  exact .stores _ _ hk (.sale o items b hs) rfl

theorem step_rollBack (h : Commits (rollBack k) w () w') : Step w w' := by
  simp only [rollBack, commits_leave] at h
  exact .leaves _ List.erase_sublist h.2

theorem step_receiveStock (h : Commits (receiveStock d) w () w') : Step w w' := by
  simp only [receiveStock, commits_bind, commits_reject, commits_get, commits_orFail] at h
  obtain ⟨_, _, ⟨hd, rfl⟩, _, _, ⟨rfl, rfl⟩, item, _, ⟨hi, rfl⟩, h⟩ := h
  cases hx : movement? w.db d.reference with
  | some existing =>
    simp only [hx, commits_pure] at h
    exact .leaves w.workers (List.Sublist.refl _) h.2.symm
  | none =>
    simp only [hx, commits_enter] at h
    exact .opens w.workers _ (List.Sublist.refl _) (.receiving d item (by omega) hi) h

theorem commits_insertReceipt (h : Commits (insertReceipt d item) db () db') :
    movement? db d.reference = none ∧
      db' = { db with stockMovements := db.stockMovements.insert (receipt item d db.clock) } := by
  simp only [insertReceipt, commits_bind, commits_get, commits_reject, commits_set] at h
  obtain ⟨_, _, ⟨rfl, rfl⟩, _, _, ⟨hs, rfl⟩, rfl⟩ := h
  exact ⟨by simpa using hs, rfl⟩

theorem step_storeReceipt (h : Commits (storeReceipt d item) w () w') : Step w w' := by
  simp only [storeReceipt, commits_bind, commits_leave, commits_onDb] at h
  obtain ⟨_, _, ⟨hk, rfl⟩, db', hdb, rfl⟩ := h
  obtain ⟨hs, rfl⟩ := commits_insertReceipt hdb
  exact .stores _ _ hk (.receipt d item hs) rfl

theorem step_of_commits {a : Action} (h : Commits a.run w () w') : Step w w' := by
  cases a with
  | post o => exact step_post h
  | lock o => exact step_lock h
  | price o checked x unchecked b => exact step_price h
  | commit o items b => exact step_commit h
  | rollBack k => exact step_rollBack h
  | receiveStock d => exact step_receiveStock h
  | storeReceipt d item => exact step_storeReceipt h
  | wait seconds =>
    simp only [Action.run, wait, commits_onDb, commits_modify] at h
    obtain ⟨_, rfl, h⟩ := h
    exact .waits _ h

end Steps
end StockRoom
