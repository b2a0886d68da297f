import LodgeOps.Ledger.StockRoom

namespace StockRoom
open Schema Transaction RetailPostingService Crew

section Quantities
variable {qs qs' : List (ℕ × ℤ)} {db : Database} {items : List Sold} {o : Order} {x : Sold}

theorem mem_addQuantity {i j : ℕ} {n : ℤ} :
    j ∈ (addQuantity i n qs).map Prod.fst ↔ j = i ∨ j ∈ qs.map Prod.fst := by
  induction qs with
  | nil => simp [addQuantity]
  | cons q qs ih =>
    simp only [addQuantity]
    split_ifs with hq
    · subst hq
      simp
    · simp only [List.map_cons, List.mem_cons, ih]
      tauto

theorem nodup_addQuantity {i : ℕ} {n : ℤ} (h : (qs.map Prod.fst).Nodup) :
    ((addQuantity i n qs).map Prod.fst).Nodup := by
  induction qs with
  | nil => simp [addQuantity]
  | cons q qs ih =>
    rw [List.map_cons, List.nodup_cons] at h
    simp only [addQuantity]
    split_ifs with hq
    · rw [List.map_cons, List.nodup_cons]
      exact h
    · rw [List.map_cons, List.nodup_cons, mem_addQuantity]
      exact ⟨fun hm => hm.elim hq h.1, ih h.2⟩

-- Lines that repeat an item have been added up, so an item is sold in one quantity.
theorem nodup_quantities {lines : List SaleLine} (h : quantities lines = .ok qs) :
    (qs.map Prod.fst).Nodup := by
  refine foldlM_invariant (I := fun qs => (qs.map Prod.fst).Nodup) ?_ ?_ h
  · intro b l b' hb hl
    simp only [gather, bind_eq_ok] at hl
    obtain ⟨_, _, hl⟩ := hl
    obtain rfl : addQuantity l.catalogItemId l.quantityMilli b = b' := Except.ok.inj hl
    exact nodup_addQuantity hb
  · simp

theorem soldItem_eq_ok {q : ℕ × ℤ} (h : soldItem db q = .ok x) :
    x.item.id = q.1 ∧ db.catalogItems.find? x.item.id = some x.item := by
  simp only [soldItem, bind_eq_ok, found_eq_ok] at h
  obtain ⟨item, hi, h⟩ := h
  obtain rfl : (⟨item, q.2⟩ : Sold) = x := Except.ok.inj h
  have hid : item.id = q.1 := (Table.find?_eq_some.mp hi).2
  exact ⟨hid, hid ▸ hi⟩

theorem soldItems_eq_ok (h : qs.mapM (soldItem db) = .ok items) :
    (items.map fun x => x.item.id) = qs.map Prod.fst ∧
      ∀ x ∈ items, db.catalogItems.find? x.item.id = some x.item := by
  induction qs generalizing items with
  | nil =>
    obtain rfl : [] = items := Except.ok.inj h
    simp
  | cons q qs ih =>
    simp only [List.mapM_cons, bind_eq_ok] at h
    obtain ⟨x, hx, xs, hxs, h⟩ := h
    obtain rfl : x :: xs = items := Except.ok.inj h
    obtain ⟨hids, hrows⟩ := ih hxs
    obtain ⟨hid, hrow⟩ := soldItem_eq_ok hx
    refine ⟨by rw [List.map_cons, List.map_cons, hids, hid], ?_⟩
    exact List.forall_mem_cons.mpr ⟨hrow, hrows⟩

theorem itemsOf_eq_ok (h : itemsOf db o = .ok items) :
    (items.map fun x => x.item.id).Nodup ∧
      ∀ x ∈ items, db.catalogItems.find? x.item.id = some x.item := by
  simp only [itemsOf, bind_eq_ok] at h
  obtain ⟨qs, hq, hi⟩ := h
  obtain ⟨hids, hrows⟩ := soldItems_eq_ok hi
  exact ⟨hids ▸ nodup_quantities hq, hrows⟩

end Quantities

section Writes
variable {db db' t : Database} {s : RetailSale} {reservation : Option Reservation}
variable {items xs ys : List Sold} {x : Sold}

def entry (l : RetailSaleLine) : ℕ × ℤ × ℤ :=
  (l.catalogItemId, l.quantityThousandths, l.amountMinor)

def lineEntry (x : Sold) : ℕ × ℤ × ℤ := (x.item.id, x.quantityMilli, x.amount)

def change (m : StockMovement) : ℕ × ℕ × ℤ :=
  (m.catalogItemId, m.stockLocationId, m.quantityThousandths)

def taken (locationId : ℕ) (x : Sold) : ℕ × ℕ × ℤ := (x.item.id, locationId, -x.quantityMilli)

-- The rows a sale's items leave behind, in the order of the items.
structure Sales (db db' : Database) (s : RetailSale) (items : List Sold) : Prop where
  sales : db'.retailSales = db.retailSales
  catalogItems : db'.catalogItems = db.catalogItems
  lines : ∃ ls, db'.retailSaleLines.rows = db.retailSaleLines.rows ++ ls ∧
    (∀ l ∈ ls, l.retailSaleId = s.id) ∧ ls.map entry = items.map lineEntry
  movements : ∃ ms, db'.stockMovements.rows = db.stockMovements.rows ++ ms ∧
    (∀ m ∈ ms, m.retailSaleId = some s.id) ∧
    ms.map change = (items.filter fun x => x.item.trackStock).map (taken s.stockLocationId)

theorem Sales.refl : Sales db db s [] :=
  ⟨rfl, rfl, ⟨[], by simp, by simp, rfl⟩, ⟨[], by simp, by simp, rfl⟩⟩

theorem Sales.trans (h : Sales db t s xs) (h' : Sales t db' s ys) : Sales db db' s (xs ++ ys) := by
  obtain ⟨ls, hl, hown, he⟩ := h.lines
  obtain ⟨ls', hl', hown', he'⟩ := h'.lines
  obtain ⟨ms, hm, hby, hc⟩ := h.movements
  obtain ⟨ms', hm', hby', hc'⟩ := h'.movements
  refine ⟨h'.sales.trans h.sales, h'.catalogItems.trans h.catalogItems, ⟨ls ++ ls', ?_, ?_, ?_⟩,
    ⟨ms ++ ms', ?_, ?_, ?_⟩⟩
  · rw [hl', hl, List.append_assoc]
  · exact List.forall_mem_append.mpr ⟨hown, hown'⟩
  · rw [List.map_append, List.map_append, he, he']
  · rw [hm', hm, List.append_assoc]
  · exact List.forall_mem_append.mpr ⟨hby, hby'⟩
  · rw [List.map_append, hc, hc', List.filter_append, List.map_append]

theorem moved_movements (s : RetailSale) (x : Sold) (db : Database) :
    ∃ ms, (moved s x db).stockMovements.rows = db.stockMovements.rows ++ ms ∧
    (∀ m ∈ ms, m.retailSaleId = some s.id) ∧
    ms.map change = ([x].filter fun x => x.item.trackStock).map (taken s.stockLocationId) := by
  by_cases ht : x.item.trackStock = true
  · refine ⟨[movement s x db.clock db.stockMovements.next], ?_, by simp [movement], ?_⟩
    · rw [moved, if_pos ht]
      rfl
    · simp [movement, change, taken, ht]
  · refine ⟨[], ?_, by simp, by simp [ht]⟩
    rw [moved, if_neg ht, List.append_nil]

theorem moved_other (s : RetailSale) (x : Sold) (db : Database) :
    (moved s x db).retailSales = db.retailSales ∧
    (moved s x db).catalogItems = db.catalogItems ∧
    (moved s x db).retailSaleLines = db.retailSaleLines := by
  unfold moved
  split_ifs
  · exact ⟨rfl, rfl, rfl⟩
  · exact ⟨rfl, rfl, rfl⟩

theorem names_saleLine {i : ℕ} {folioLineId : Option ℕ} : Names (saleLine i folioLineId x) :=
  fun _ => rfl

def listed (s : RetailSale) (reservation : Option Reservation) (db : Database) (x : Sold) :
    Database :=
  { charged reservation s.reference x db with
    retailSaleLines := (charged reservation s.reference x db).retailSaleLines.insert
      (saleLine s.id (reservation.map fun _ => db.folioLines.next) x) names_saleLine }

theorem sold_eq : sold s reservation db x = moved s x (listed s reservation db x) := rfl

theorem sales_sold : Sales db (sold s reservation db x) s [x] := by
  obtain ⟨hs, hi, hl⟩ := moved_other s x (listed s reservation db x)
  obtain ⟨ms, hm, hby, hc⟩ := moved_movements s x (listed s reservation db x)
  have hlisted : (listed s reservation db x).retailSales = db.retailSales ∧
      (listed s reservation db x).catalogItems = db.catalogItems ∧
      (listed s reservation db x).stockMovements = db.stockMovements ∧
      (listed s reservation db x).retailSaleLines.rows = db.retailSaleLines.rows ++
        [saleLine s.id (reservation.map fun _ => db.folioLines.next) x db.retailSaleLines.next] := by
    cases reservation with
    | none => exact ⟨rfl, rfl, rfl, rfl⟩
    | some r => exact ⟨rfl, rfl, rfl, rfl⟩
  obtain ⟨hs', hi', hm', hl'⟩ := hlisted
  rw [sold_eq]
  refine ⟨hs.trans hs', hi.trans hi', ⟨_, (congrArg Table.rows hl).trans hl', ?_, rfl⟩,
    ⟨ms, hm' ▸ hm, hby, hc⟩⟩
  simp [saleLine]

theorem sales_foldl : Sales db (items.foldl (sold s reservation) db) s items := by
  induction items generalizing db with
  | nil => exact Sales.refl
  | cons x xs ih =>
    rw [List.foldl_cons]
    exact sales_sold.trans ih

end Writes

section Withdrawals
variable {db db' : Database} {s : RetailSale} {items : List Sold} {ms : List StockMovement}
variable {i l loc : ℕ}

def effect (i l : ℕ) (c : ℕ × ℕ × ℤ) : ℤ := if c.1 = i ∧ c.2.1 = l then c.2.2 else 0

def withdrawn (items : List Sold) (loc i l : ℕ) : ℤ :=
  (((items.filter fun x => x.item.trackStock).map (taken loc)).map (effect i l)).sum

theorem balance_append (h : db'.stockMovements.rows = db.stockMovements.rows ++ ms) :
    balanceMilli db' i l = balanceMilli db i l + ((ms.map change).map (effect i l)).sum := by
  have hb : ∀ t : Database, balanceMilli t i l =
      ((t.stockMovements.rows.map change).map (effect i l)).sum := by
    intro t
    rw [List.map_map]
    rfl
  rw [hb, hb, h, List.map_append, List.map_append, List.sum_append]

theorem Sales.balance (h : Sales db db' s items) : balanceMilli db' i l =
    balanceMilli db i l + withdrawn items s.stockLocationId i l := by
  obtain ⟨ms, hm, _, hc⟩ := h.movements
  rw [balance_append hm, hc, withdrawn]

theorem withdrawn_cons (x : Sold) (xs : List Sold) : withdrawn (x :: xs) loc i l =
    (if x.item.trackStock = true ∧ x.item.id = i ∧ loc = l then -x.quantityMilli else 0) +
      withdrawn xs loc i l := by
  by_cases ht : x.item.trackStock = true
  · simp [withdrawn, ht, taken, effect]
  · simp [withdrawn, ht]

theorem withdrawn_eq_zero (h : i ∉ items.map fun x => x.item.id) : withdrawn items loc i l = 0 := by
  induction items with
  | nil => rfl
  | cons x xs ih =>
    rw [List.map_cons, List.mem_cons, not_or] at h
    rw [withdrawn_cons, ih h.2, if_neg fun hx => h.1 hx.2.1.symm, add_zero]

-- No item is sold twice, so at most one of the quantities leaves this shelf.
theorem withdrawn_cases (loc i l : ℕ) (hn : (items.map fun x => x.item.id).Nodup) :
    withdrawn items loc i l = 0 ∨
    ∃ x ∈ items, x.item.trackStock = true ∧ x.item.id = i ∧ loc = l ∧
      withdrawn items loc i l = -x.quantityMilli := by
  induction items with
  | nil => exact Or.inl rfl
  | cons x xs ih =>
    rw [List.map_cons, List.nodup_cons] at hn
    rw [withdrawn_cons]
    split_ifs with hx
    · have hz : withdrawn xs loc i l = 0 := withdrawn_eq_zero (hx.2.1 ▸ hn.1)
      rw [hz, add_zero]
      exact Or.inr ⟨x, List.mem_cons_self, hx.1, hx.2.1, hx.2.2, rfl⟩
    · rw [zero_add]
      obtain hz | ⟨y, hy, hrest⟩ := ih hn.2
      · exact Or.inl hz
      · exact Or.inr ⟨y, List.mem_cons_of_mem x hy, hrest⟩

end Withdrawals

section Books
variable {db db' : Database} {s : RetailSale} {o : Order} {d : Delivery} {item : CatalogItem}
variable {items checked unchecked : List Sold} {x : Sold} {b b' : Basket} {i l : ℕ}

def linesOf (db : Database) (saleId : ℕ) : List RetailSaleLine :=
  db.retailSaleLines.select fun l => l.retailSaleId == saleId

def movementsOf (db : Database) (saleId : ℕ) : List StockMovement :=
  db.stockMovements.select fun m => m.retailSaleId == some saleId

def tracked (db : Database) (itemId : ℕ) : Bool :=
  (db.catalogItems.find? itemId).any CatalogItem.trackStock

-- A sale has one line for each item and one movement for each line whose item is tracked.
structure Kept (db : Database) (s : RetailSale) : Prop where
  subtotal : ((linesOf db s.id).map RetailSaleLine.amountMinor).sum = s.subtotalMinor
  items : ((linesOf db s.id).map RetailSaleLine.catalogItemId).Nodup
  moved : (movementsOf db s.id).map change =
    ((linesOf db s.id).filter fun l => tracked db l.catalogItemId).map fun l =>
      (l.catalogItemId, s.stockLocationId, -l.quantityThousandths)

structure Books (db : Database) : Prop where
  stock : ∀ item ∈ db.catalogItems.rows, item.trackStock = true →
    ∀ l, 0 ≤ balanceMilli db item.id l
  references : ∀ s ∈ db.retailSales.rows, ∀ s' ∈ db.retailSales.rows,
    s.reference = s'.reference → s = s'
  kept : ∀ s ∈ db.retailSales.rows, Kept db s
  lineOwners : ∀ l ∈ db.retailSaleLines.rows, ∃ s ∈ db.retailSales.rows, s.id = l.retailSaleId
  movementOwners : ∀ m ∈ db.stockMovements.rows, ∀ i, m.retailSaleId = some i →
    ∃ s ∈ db.retailSales.rows, s.id = i

-- What a request knows of the items whose rows it has locked.
structure Checked (db : Database) (o : Order) (checked unchecked : List Sold) (b : Basket) :
    Prop where
  rows : ∀ x ∈ checked ++ unchecked, db.catalogItems.find? x.item.id = some x.item
  nodup : ((checked ++ unchecked).map fun x => x.item.id).Nodup
  subtotal : b.subtotalMinor = amounts checked
  stock : ∀ x ∈ checked, x.item.trackStock = true →
    x.quantityMilli ≤ balanceMilli db x.item.id o.locationId

theorem sales_written (db : Database) (o : Order) (items : List Sold) (b : Basket) :
    Sales (entered o.locationId o.reference o.reservation o.taxMinor b db)
    (written db o items b) (saleOf db o b) items :=
  sales_foldl

theorem appends_written (db : Database) (o : Order) (items : List Sold) (b : Basket) :
    Table.Appends db.retailSales (written db o items b).retailSales (saleOf db o b) := by
  rw [(sales_written _ _ _ _).sales]
  exact Table.appends_insert

theorem stock_written (hb : Books db) (hc : Checked db o items [] b) :
    ∀ item ∈ (written db o items b).catalogItems.rows, item.trackStock = true →
      ∀ l, 0 ≤ balanceMilli (written db o items b) item.id l := by
  intro item hi ht l
  rw [(sales_written _ _ _ _).catalogItems] at hi
  have hstock : 0 ≤ balanceMilli db item.id l := hb.stock item hi ht l
  have hbal : balanceMilli (written db o items b) item.id l =
      balanceMilli db item.id l + withdrawn items o.locationId item.id l := (sales_written _ _ _ _).balance
  have hn : (items.map fun x => x.item.id).Nodup := by simpa using hc.nodup
  rw [hbal]
  obtain hz | ⟨x, hx, htx, hid, hloc, hw⟩ := withdrawn_cases o.locationId item.id l hn
  · omega
  · have henough := hc.stock x hx htx
    rw [hid, hloc] at henough
    omega

theorem references_written (hb : Books db) (hnew : sale? db o.reference = none) :
    ∀ s ∈ (written db o items b).retailSales.rows, ∀ s' ∈ (written db o items b).retailSales.rows,
      s.reference = s'.reference → s = s' := by
  have hfresh : ∀ s ∈ db.retailSales.rows, s.reference ≠ o.reference := by
    intro s hs
    simpa using Table.first?_eq_none.mp hnew s hs
  intro s hs s' hs' he
  rcases (appends_written db o items b).mem.mp hs with hs | rfl
  · rcases (appends_written db o items b).mem.mp hs' with hs' | rfl
    · exact hb.references s hs s' hs' he
    · exact absurd he (hfresh s hs)
  · rcases (appends_written db o items b).mem.mp hs' with hs' | rfl
    · exact absurd he.symm (hfresh s' hs')
    · rfl

theorem select_append {ρ : Type} [Keyed ρ] {t t' : Table ρ} {xs : List ρ} {p : ρ → Bool}
    (h : t'.rows = t.rows ++ xs) : t'.select p = t.select p ++ xs.filter p := by
  simp [Table.select, h]

-- The sale's number is new, so no row names it before.
theorem fresh (hb : Books db) :
    linesOf db db.retailSales.next = [] ∧ movementsOf db db.retailSales.next = [] := by
  constructor
  · refine List.filter_eq_nil_iff.mpr fun l hl he => ?_
    obtain ⟨s, hs, hid⟩ := hb.lineOwners l hl
    have hlt : s.id < db.retailSales.next := db.retailSales.below s hs
    have hself : l.retailSaleId = db.retailSales.next := by simpa using he
    omega
  · refine List.filter_eq_nil_iff.mpr fun m hm he => ?_
    obtain ⟨s, hs, hid⟩ := hb.movementOwners m hm db.retailSales.next (by simpa using he)
    have hlt : s.id < db.retailSales.next := db.retailSales.below s hs
    omega

theorem kept_old (hb : Books db) (hs : s ∈ db.retailSales.rows) : Kept (written db o items b) s := by
  have hlt : s.id ≠ db.retailSales.next := (db.retailSales.below s hs).ne
  obtain ⟨ls, hl, hown, _⟩ := (sales_written db o items b).lines
  obtain ⟨ms, hm, hby, _⟩ := (sales_written db o items b).movements
  have hlines : linesOf (written db o items b) s.id = linesOf db s.id := by
    have hnone : (ls.filter fun l => l.retailSaleId == s.id) = [] := by
      refine List.filter_eq_nil_iff.mpr fun l hmem he => hlt ?_
      exact (eq_of_beq he).symm.trans (hown l hmem)
    exact (select_append hl).trans (by rw [hnone, List.append_nil]; rfl)
  have hmoves : movementsOf (written db o items b) s.id = movementsOf db s.id := by
    have hnone : (ms.filter fun m => m.retailSaleId == some s.id) = [] := by
      refine List.filter_eq_nil_iff.mpr fun m hmem he => hlt ?_
      exact Option.some.inj ((eq_of_beq he).symm.trans (hby m hmem))
    exact (select_append hm).trans (by rw [hnone, List.append_nil]; rfl)
  have htracked : tracked (written db o items b) = tracked db := by
    unfold tracked
    rw [(sales_written _ _ _ _).catalogItems]
    rfl
  have hk := hb.kept s hs
  refine ⟨?_, ?_, ?_⟩
  · rw [hlines]
    exact hk.subtotal
  · rw [hlines]
    exact hk.items
  · rw [hlines, hmoves, htracked]
    exact hk.moved

theorem tracked_eq (hc : Checked db o items [] b) (hx : x ∈ items) :
    tracked db x.item.id = x.item.trackStock := by
  rw [tracked, hc.rows x (by simpa using hx)]
  rfl

theorem moved_new {ls : List RetailSaleLine} {loc : ℕ} (hc : Checked db o items [] b)
    (he : ls.map entry = items.map lineEntry) :
    ((items.filter fun x => x.item.trackStock).map (taken loc)) =
      (ls.filter fun l => tracked db l.catalogItemId).map fun l =>
        (l.catalogItemId, loc, -l.quantityThousandths) := by
  have hkept : (ls.filter fun l => tracked db l.catalogItemId).map entry =
      (items.filter fun x => x.item.trackStock).map lineEntry := by
    calc (ls.filter fun l => tracked db l.catalogItemId).map entry
        = (ls.map entry).filter fun e => tracked db e.1 := by rw [List.filter_map]; rfl
      _ = (items.map lineEntry).filter fun e => tracked db e.1 := by rw [he]
      _ = (items.filter fun x => tracked db x.item.id).map lineEntry := by rw [List.filter_map]; rfl
      _ = (items.filter fun x => x.item.trackStock).map lineEntry := by
        rw [List.filter_congr fun x hx => tracked_eq hc hx]
  have hshift := congrArg (List.map fun e : ℕ × ℤ × ℤ => (e.1, loc, -e.2.1)) hkept
  rw [List.map_map, List.map_map] at hshift
  exact hshift.symm

theorem kept_new (hb : Books db) (hc : Checked db o items [] b) :
    Kept (written db o items b) (saleOf db o b) := by
  obtain ⟨ls, hl, hown, he⟩ := (sales_written db o items b).lines
  obtain ⟨ms, hm, hby, hchange⟩ :=
    (sales_written db o items b).movements
  obtain ⟨hnoLines, hnoMoves⟩ := fresh hb
  have hlines : linesOf (written db o items b) (saleOf db o b).id = ls := by
    have hall : (ls.filter fun l => l.retailSaleId == (saleOf db o b).id) = ls :=
      List.filter_eq_self.mpr fun l hmem => beq_iff_eq.mpr (hown l hmem)
    refine (select_append hl).trans ?_
    rw [hall]
    exact congrArg (· ++ ls) hnoLines
  have hmoves : movementsOf (written db o items b) (saleOf db o b).id = ms := by
    have hall : (ms.filter fun m => m.retailSaleId == some (saleOf db o b).id) = ms :=
      List.filter_eq_self.mpr fun m hmem => beq_iff_eq.mpr (hby m hmem)
    refine (select_append hm).trans ?_
    rw [hall]
    exact congrArg (· ++ ms) hnoMoves
  have htracked : tracked (written db o items b) = tracked db := by
    unfold tracked
    rw [(sales_written _ _ _ _).catalogItems]
    rfl
  refine ⟨?_, ?_, ?_⟩
  · have hamounts := congrArg (List.map fun e : ℕ × ℤ × ℤ => e.2.2) he
    rw [List.map_map, List.map_map] at hamounts
    rw [hlines]
    exact (congrArg List.sum hamounts).trans hc.subtotal.symm
  · have hids := congrArg (List.map fun e : ℕ × ℤ × ℤ => e.1) he
    rw [List.map_map, List.map_map] at hids
    have hn : (items.map fun x => x.item.id).Nodup := by simpa using hc.nodup
    rw [hlines]
    exact hids ▸ hn
  · rw [hlines, hmoves, htracked, hchange]
    exact moved_new hc he

theorem books_written (hb : Books db) (hc : Checked db o items [] b)
    (hnew : sale? db o.reference = none) : Books (written db o items b) := by
  obtain ⟨ls, hl, hown, _⟩ := (sales_written db o items b).lines
  obtain ⟨ms, hm, hby, _⟩ := (sales_written db o items b).movements
  have hsale := appends_written db o items b
  refine ⟨stock_written hb hc, references_written hb hnew, fun s hs => ?_, fun l hmem => ?_,
    fun m hmem i hi => ?_⟩
  · rcases hsale.mem.mp hs with hs | rfl
    · exact kept_old hb hs
    · exact kept_new hb hc
  · rw [hl, List.mem_append] at hmem
    rcases hmem with hold | hnewLine
    · obtain ⟨s, hs, hid⟩ := hb.lineOwners l hold
      exact ⟨s, hsale.mem_old hs, hid⟩
    · exact ⟨_, hsale.mem_new, (hown l hnewLine).symm⟩
  · rw [hm, List.mem_append] at hmem
    rcases hmem with hold | hnewMove
    · obtain ⟨s, hs, hid⟩ := hb.movementOwners m hold i hi
      exact ⟨s, hsale.mem_old hs, hid⟩
    · exact ⟨_, hsale.mem_new, Option.some.inj ((hby m hnewMove).symm.trans hi)⟩

def received (db : Database) (d : Delivery) (item : CatalogItem) : Database :=
  { db with stockMovements := db.stockMovements.insert (receipt item d db.clock) }

theorem balance_received (db : Database) (d : Delivery) (item : CatalogItem) (i l : ℕ) :
    balanceMilli (received db d item) i l =
    balanceMilli db i l + if item.id = i ∧ d.stockLocationId = l then d.quantityMilli else 0 := by
  rw [balanceMilli, received, Table.total_insert]
  rfl

theorem books_received (hb : Books db) (hd : 0 < d.quantityMilli) : Books (received db d item) := by
  have hmoves : ∀ i, movementsOf (received db d item) i = movementsOf db i := by
    intro i
    refine (select_append rfl).trans ?_
    simp [receipt, movementsOf]
  refine ⟨fun x hx ht l => ?_, hb.references, fun s hs => ?_, hb.lineOwners, fun m hm i hi => ?_⟩
  · have hstock := hb.stock x hx ht l
    rw [balance_received]
    split_ifs
    · omega
    · omega
  · have hk := hb.kept s hs
    exact ⟨hk.subtotal, hk.items, (congrArg (List.map change) (hmoves s.id)).trans hk.moved⟩
  · rcases (Table.mem_insert).mp hm with hm | rfl
    · exact hb.movementOwners m hm i hi
    · simp [receipt] at hi

end Books

section Runs
variable {w w' t : Shop} {db db' : Database} {k k' : Stage} {o : Order}
variable {checked unchecked : List Sold} {x : Sold} {b b' : Basket}

def Staged (db : Database) : Stage → Prop
  | .opened _ => True
  | .pricing o checked unchecked b => Checked db o checked unchecked b
  | .receiving d item => 0 < d.quantityMilli ∧
      db.catalogItems.find? d.catalogItemId = some item

def Apart (k k' : Stage) : Prop := List.Disjoint k.locked k'.locked

structure Inv (w : Shop) : Prop where
  books : Books w.db
  staged : ∀ k ∈ w.workers, Staged w.db k
  locks : w.workers.Pairwise Apart

theorem apart_comm (h : Apart k k') : Apart k' k := List.Disjoint.symm h

-- Nothing that is added to the shelves of the locked items undoes a check.
theorem staged_of_more (h : Staged db k) (hi : db'.catalogItems = db.catalogItems)
    (hm : ∀ i ∈ k.locked, ∀ l, balanceMilli db i l ≤ balanceMilli db' i l) : Staged db' k := by
  cases k with
  | opened o => trivial
  | receiving d item => exact ⟨h.1, hi ▸ h.2⟩
  | pricing o checked unchecked b =>
    refine ⟨fun x hx => hi ▸ h.rows x hx, h.nodup, h.subtotal, fun x hx ht => ?_⟩
    have hlocked : x.item.id ∈ (Stage.pricing o checked unchecked b).locked :=
      List.mem_map_of_mem (List.mem_append_left unchecked hx)
    exact (h.stock x hx ht).trans (hm _ hlocked _)

theorem staged_opens {left : List Stage} (h : Opens db left k) : Staged db k := by
  cases h with
  | opened o => trivial
  | receiving d item hd hi => exact ⟨hd, hi⟩
  | pricing o items hi _ =>
    obtain ⟨hn, hrows⟩ := itemsOf_eq_ok hi
    exact ⟨hrows, hn, rfl, by simp⟩

theorem apart_opens {left : List Stage} (h : Opens db left k) : ∀ k' ∈ left, Apart k k' := by
  cases h with
  | opened o => exact fun k' _ => List.disjoint_nil_left _
  | receiving d item _ _ => exact fun k' _ => List.disjoint_nil_left _
  | pricing o items _ hfree =>
    intro k' hk' i hi hlocked
    obtain ⟨x, hx, rfl⟩ := List.mem_map.mp hi
    exact hfree k' hk' x (by simpa using hx) hlocked

theorem checked_prices (h : Checked db o checked (x :: unchecked) b)
    (hp : priced db o.locationId o.reservation b x = .ok b') :
    Checked db o (checked ++ [x]) unchecked b' := by
  obtain ⟨hsub, hstock⟩ := priced_eq_ok hp
  have hlist : (checked ++ [x]) ++ unchecked = checked ++ x :: unchecked := by simp
  refine ⟨hlist ▸ h.rows, hlist ▸ h.nodup, ?_, fun y hy ht => ?_⟩
  · rw [hsub, h.subtotal, amounts_append]
    simp [amounts]
  · rcases List.mem_append.mp hy with hy | hy
    · exact h.stock y hy ht
    · obtain rfl : y = x := List.mem_singleton.mp hy
      exact hstock ht

theorem pairwise_erase (hl : w.workers.Pairwise Apart) (hk : k ∈ w.workers) :
    (∀ k' ∈ w.workers.erase k, Apart k k') ∧ (w.workers.erase k).Pairwise Apart := by
  have hperm := List.perm_cons_erase hk
  have hcons := (hperm.pairwise_iff (fun h => apart_comm h)).mp hl
  exact List.pairwise_cons.mp hcons

theorem inv_stores (hi : Inv w) (hk : k ∈ w.workers) (h : Stores w.db k db) :
    Books db ∧ db.catalogItems = w.db.catalogItems ∧
      ∀ k', Apart k k' → ∀ i ∈ k'.locked, ∀ l, balanceMilli w.db i l ≤ balanceMilli db i l := by
  have hstaged := hi.staged k hk
  cases h with
  | sale o items b hnew =>
    refine ⟨books_written hi.books hstaged hnew, (sales_written _ _ _ _).catalogItems, fun k' ha i hi' l => ?_⟩
    have hnot : i ∉ items.map fun x => x.item.id := by
      intro hmem
      exact ha (by simpa [Stage.locked] using hmem) hi'
    have hbal : balanceMilli (written w.db o items b) i l =
        balanceMilli w.db i l + withdrawn items o.locationId i l := (sales_written _ _ _ _).balance
    rw [hbal, withdrawn_eq_zero hnot, add_zero]
  | receipt d item _ =>
    refine ⟨books_received hi.books hstaged.1, rfl, fun k' _ i _ l => ?_⟩
    have hpos : 0 < d.quantityMilli := hstaged.1
    have hbal := balance_received w.db d item i l
    rw [received] at hbal
    rw [hbal]
    split_ifs
    · omega
    · omega

theorem inv_step (hi : Inv w) (h : Step w w') : Inv w' := by
  cases h with
  | opens left k hsub ho he =>
    subst he
    refine ⟨hi.books, List.forall_mem_cons.mpr ⟨staged_opens ho, fun k' hk' => ?_⟩,
      List.pairwise_cons.mpr ⟨apart_opens ho, hi.locks.sublist hsub⟩⟩
    exact hi.staged k' (hsub.subset hk')
  | prices o checked x unchecked b b' hk hp he =>
    subst he
    obtain ⟨hapart, hrest⟩ := pairwise_erase hi.locks hk
    have hsame : (Stage.pricing o (checked ++ [x]) unchecked b').locked =
        (Stage.pricing o checked (x :: unchecked) b).locked := by simp [Stage.locked]
    refine ⟨hi.books, List.forall_mem_cons.mpr ⟨?_, fun k' hk' => ?_⟩,
      List.pairwise_cons.mpr ⟨fun k' hk' => ?_, hrest⟩⟩
    · exact checked_prices (hi.staged _ hk) hp
    · exact hi.staged k' (List.mem_of_mem_erase hk')
    · rw [Apart, hsame]
      exact hapart k' hk'
  | stores k db hk hs he =>
    subst he
    obtain ⟨hapart, hrest⟩ := pairwise_erase hi.locks hk
    obtain ⟨hbooks, hitems, hmore⟩ := inv_stores hi hk hs
    refine ⟨hbooks, fun k' hk' => ?_, hrest⟩
    exact staged_of_more (hi.staged k' (List.mem_of_mem_erase hk')) hitems
      (hmore k' (hapart k' hk'))
  | leaves left hsub he =>
    subst he
    exact ⟨hi.books, fun k hk => hi.staged k (hsub.subset hk), hi.locks.sublist hsub⟩
  | waits now he =>
    subst he
    refine ⟨⟨hi.books.stock, hi.books.references, fun s hs => ?_, hi.books.lineOwners,
      hi.books.movementOwners⟩, fun k hk => ?_, hi.locks⟩
    · have hk := hi.books.kept s hs
      exact ⟨hk.subtotal, hk.items, hk.moved⟩
    · exact staged_of_more (hi.staged k hk) rfl fun _ _ _ => le_rfl

theorem stock_never_goes_negative (hb : Books w.db) (hw : w.workers = [])
    (h : Reaches Action.run (fun _ _ => True) w t) : Books t.db := by
  have hstart : Inv w := ⟨hb, by simp [hw], by simp [hw]⟩
  have hend : Inv t := h.invariant hstart fun _ _ _ hi _ hc => inv_step hi (step_of_commits hc)
  exact hend.books

end Runs

section Alone
variable {db db' : Database} {o : Order} {s : RetailSale} {items unchecked : List Sold}
variable {b basket : Basket}

theorem reaches_checks (checked : List Sold)
    (h : unchecked.foldlM (priced db o.locationId o.reservation) b = .ok basket) :
    Reaches Action.run (fun _ _ => True) (⟨db, (), [.pricing o checked unchecked b]⟩ : Shop)
      ⟨db, (), [.pricing o (checked ++ unchecked) [] basket]⟩ := by
  induction unchecked generalizing checked b with
  | nil =>
    obtain rfl : b = basket := Except.ok.inj h
    rw [List.append_nil]
    exact .refl
  | cons x xs ih =>
    rw [List.foldlM_cons, bind_eq_ok] at h
    obtain ⟨c, hc, hrest⟩ := h
    have hprice : Commits (price o checked x xs b) (⟨db, (), [.pricing o checked (x :: xs) b]⟩ : Shop)
        () ⟨db, (), [.pricing o (checked ++ [x]) xs c]⟩ := by
      simp only [price, commits_bind, commits_leave, commits_check, commits_enter]
      exact ⟨(), _, ⟨List.mem_singleton.mpr rfl, rfl⟩, c, _, ⟨hc, rfl⟩, by simp⟩
    have htail := ih (checked ++ [x]) hrest
    rw [List.append_assoc, List.singleton_append] at htail
    exact (Reaches.single (i := Action.price o checked x xs b) trivial hprice).trans htail

-- Left to itself, a request goes through its statements to what `RetailPostingService.post` commits.
theorem reaches_post
    (h : Commits (RetailPostingService.post o.locationId o.reference o.lines o.reservation
      o.taxMinor) db s db')
    (hnew : sale? db o.reference = none)
    (hfree : ∀ i : ℕ, movement? db (o.reference ++ ":" ++ toString i) = none) :
    Reaches Action.run (fun _ _ => True) (⟨db, (), []⟩ : Shop) ⟨db', (), []⟩ := by
  obtain ⟨hx, _⟩ | ⟨_, hlines, htax, items, basket, hs⟩ := commits_post_sells h
  · simp [hnew] at hx
  · obtain ⟨qs, hq, hi⟩ := hs.gathered
    have hitems : itemsOf db o = .ok items := by
      simp only [itemsOf, bind_eq_ok]
      exact ⟨qs, hq, hi⟩
    have hpost : Commits (post o) (⟨db, (), []⟩ : Shop) () ⟨db, (), [.opened o]⟩ := by
      simp only [post, commits_bind, commits_reject, commits_get]
      refine ⟨(), _, ⟨?_, rfl⟩, _, _, ⟨rfl, rfl⟩, ?_⟩
      · rw [List.isEmpty_iff]
        exact fun hbad => hbad.elim hlines (not_lt.mpr htax)
      · simp only [hnew, commits_enter]
    have hlock : Commits (lock o) (⟨db, (), [.opened o]⟩ : Shop) ()
        ⟨db, (), [.pricing o [] items ⟨none, 0⟩]⟩ := by
      simp only [lock, commits_bind, commits_leave, commits_check, commits_get, commits_reject]
      refine ⟨(), ⟨db, (), []⟩, ⟨by simp, by simp⟩, items, _, ⟨hitems, rfl⟩, _, _, ⟨rfl, rfl⟩, (), _,
        ⟨by simp, rfl⟩, ?_⟩
      simp only [hnew, commits_enter]
    have hunmoved : ¬ ∃ x ∈ items, x.item.trackStock = true ∧
        (movement? db (o.reference ++ ":" ++ toString x.item.id)).isSome = true := by
      rintro ⟨x, _, _, hsome⟩
      rw [hfree x.item.id] at hsome
      cases hsome
    have hcommit : Commits (commit o items basket) (⟨db, (), [.pricing o items [] basket]⟩ : Shop) ()
        ⟨db', (), []⟩ := by
      simp only [commit, insertSale, commits_bind, commits_leave, commits_onDb, commits_get,
        commits_reject, commits_set]
      refine ⟨(), ⟨db, (), []⟩, ⟨by simp, by simp⟩, db', ⟨_, _, ⟨rfl, rfl⟩, (), _, ⟨by simp [hnew], rfl⟩,
        (), _, ⟨hunmoved, rfl⟩, ?_⟩, rfl⟩
      rw [hs.written, hs.sale]
      rfl
    have hchecks := reaches_checks [] hs.priced
    exact (((Reaches.single (i := Action.post o) trivial hpost).step (i := Action.lock o) trivial
      hlock).trans hchecks).step (i := Action.commit o items basket) trivial hcommit

end Alone

section Scenario

def cup (i : ℕ) : CatalogItem where
  id := i
  name := "Lodge mug"
  currency := "USD"
  priceMinor := 1250
  costMinor := 500
  trackStock := true
  isActive := true

def shelves : Database where
  clock := 0
  catalogue := .empty
  catalogItems := (Table.empty.insert cup).insert cup

theorem shelves_books : Books shelves := by
  refine ⟨fun _ _ _ _ => le_rfl, ?_, ?_, ?_, ?_⟩
  · intro s hs
    cases hs
  · intro s hs
    cases hs
  · intro l hl
    cases hl
  · intro m hm
    cases hm

def delivery (item : ℕ) (quantityMilli : ℤ) (reference : String) : Delivery :=
  ⟨item, 0, quantityMilli, none, reference⟩

def order (item : ℕ) (quantityMilli : ℤ) (reference : String) : Order :=
  ⟨0, reference, [⟨item, quantityMilli - 400⟩, ⟨item, 400⟩], none, 0⟩

def rung (item : ℕ) (quantityMilli : ℤ) : Sold := ⟨cup item, quantityMilli⟩

-- Two sales race under one reference on different items, and the later one finds it taken.
theorem raced_reference_sells_once : ∃ t,
    Reaches Action.run (fun _ _ => True) (⟨shelves, (), []⟩ : Shop) t ∧
      t.db.retailSales.rows.length = 1 ∧ balanceMilli t.db 0 0 = 500 ∧ Books t.db := by
  obtain ⟨t, hr, hp⟩ : ∃ t, Reaches Action.run (fun _ _ => True) (⟨shelves, (), []⟩ : Shop) t ∧
      decide (t.db.retailSales.rows.length = 1 ∧ balanceMilli t.db 0 0 = 500) = true :=
    Reaches.exists_of_run
      [.receiveStock (delivery 0 3000 "IN-1"), .storeReceipt (delivery 0 3000 "IN-1") (cup 0),
        .receiveStock (delivery 1 1000 "IN-2"), .storeReceipt (delivery 1 1000 "IN-2") (cup 1),
        .post (order 0 2500 "SALE-1"), .post (order 1 1000 "SALE-1"),
        .lock (order 0 2500 "SALE-1"), .lock (order 1 1000 "SALE-1"),
        .price (order 0 2500 "SALE-1") [] (rung 0 2500) [] ⟨none, 0⟩,
        .price (order 1 1000 "SALE-1") [] (rung 1 1000) [] ⟨none, 0⟩,
        .commit (order 0 2500 "SALE-1") [rung 0 2500] ⟨some "USD", 3125⟩,
        .rollBack (.pricing (order 1 1000 "SALE-1") [rung 1 1000] [] ⟨some "USD", 1250⟩)]
      (by decide)
  obtain ⟨hone, hleft⟩ := of_decide_eq_true hp
  exact ⟨t, hr, hone, hleft, stock_never_goes_negative shelves_books rfl hr⟩

end Scenario
end StockRoom
