import LodgeOps.Ledger.ClosedFolio

namespace RoomCharges
open Schema Transaction Folio RetailPostingService ClosedFolio

section Amounts
variable {db db' : Database} {s : RetailSale} {r : Reservation} {b b' : Basket}
variable {reservation : Option Reservation} {locationId : ℕ}

theorem priced_amounts {items : List Sold}
    (h : items.foldlM (priced db locationId reservation) b = .ok b') :
    b'.subtotalMinor = b.subtotalMinor + amounts items := by
  induction items generalizing b with
  | nil =>
    obtain rfl : b = b' := by simpa [pure, Except.pure] using h
    simp [amounts]
  | cons x xs ih =>
    rw [List.foldlM_cons, bind_eq_ok] at h
    obtain ⟨c, hc, hrest⟩ := h
    rw [ih hrest, (priced_eq_ok hc).1, amounts_cons]
    omega

theorem moved_folioLines (x : Sold) : (moved s x db).folioLines = db.folioLines := by
  unfold moved
  split_ifs
  · rfl
  · rfl

theorem lineTotal_sold (x : Sold) (f : FolioLine → ℤ) :
    lineTotal (sold s (some r) db x) r.id f =
      lineTotal db r.id f + f (charge r s.reference x db.clock db.folioLines.next) := by
  have hl : (sold s (some r) db x).folioLines =
      db.folioLines.insert (charge r s.reference x db.clock) := by
    rw [sold, moved_folioLines]
    rfl
  rw [lineTotal, hl, Table.total_insert]
  simp [lineTotal, charge]

-- The line carries the item's amount and nothing else of the sale.
theorem balance_sold (x : Sold) : (summary (sold s (some r) db x) r).balanceMinor =
    (summary db r).balanceMinor + x.amount := by
  simp only [summary, lineTotal_sold, charge, Bool.false_eq_true, if_false]
  omega

theorem balance_foldl (items : List Sold) :
    (summary (items.foldl (sold s (some r)) db) r).balanceMinor =
      (summary db r).balanceMinor + amounts items := by
  induction items generalizing db with
  | nil => simp [amounts]
  | cons x xs ih =>
    rw [List.foldl_cons, ih, balance_sold, amounts_cons]
    omega

end Amounts

section Posting
variable {db db' : Database} {s : RetailSale} {r : Reservation} {i locationId : ℕ}
variable {reference : String} {lines : List SaleLine} {taxMinor : ℤ} {items : List Sold}
variable {basket : Basket}

theorem total_of_sells
    (h : Sells db locationId reference lines (some r) taxMinor s db' items basket) :
    s.totalMinor = amounts items + taxMinor := by
  have hb := priced_amounts h.priced
  rw [h.sale, sale, hb]
  simp

theorem balance_of_sells (hr : db.reservation? i = some r)
    (h : Sells db locationId reference lines (some r) taxMinor s db' items basket) :
    balance db' i = (balance db i).map (· + amounts items) := by
  have hi : db'.reservation? i = some r :=
    (Database.reservation?_congr h.charges.reservations i).trans hr
  have hb : (summary db' r).balanceMinor = (summary db r).balanceMinor + amounts items := by
    rw [h.written, balance_foldl]
    rfl
  simp only [balance, hi, hr, Option.map_some, hb]

-- What the folio is to gain by a post that answers with this sale.
def due (db : Database) (reference : String) (s : RetailSale) : ℤ :=
  if sale? db reference = none then s.totalMinor else 0

theorem gains_due_iff (hr : db.reservation? i = some r)
    (h : Commits (post locationId reference lines (some r) taxMinor) db s db') :
    balance db' i = (balance db i).map (· + due db reference s) ↔
      (sale? db reference = none → taxMinor = 0) := by
  obtain ⟨hx, rfl⟩ | ⟨hx, _, _, items, basket, hs⟩ := commits_post_sells h
  · simp [due, hx]
  · have hb : balance db i = some (summary db r).balanceMinor := by simp [balance, hr]
    rw [balance_of_sells hr hs, due, if_pos hx, total_of_sells hs, hb]
    simp only [Option.map_some, Option.some.injEq, hx, forall_const]
    omega

theorem sale_is_charged_in_full_iff_untaxed (hr : db.reservation? i = some r) :
    (∀ s db', Commits (post locationId reference lines (some r) taxMinor) db s db' →
      (balance db' i = (balance db i).map (· + due db reference s) ↔
        (sale? db reference = none → taxMinor = 0))) ∧
    ∀ e, (post locationId reference lines (some r) taxMinor).run db = .error e →
      balance (perform (post locationId reference lines (some r) taxMinor) db) i = balance db i := by
  refine ⟨fun s db' h => gains_due_iff hr h, fun e he => ?_⟩
  simp only [perform, he]

end Posting

section Scenario

theorem untaxed_sale_is_charged_in_full : ∃ s t,
    Commits (post 0 "SALE-1" [⟨0, 600⟩, ⟨0, 400⟩] (some (departed 0)) 0) opening s t ∧
      balance t 0 = (balance opening 0).map (· + due opening "SALE-1" s) := by
  obtain ⟨s, t, h⟩ := exists_commits (x := post 0 "SALE-1" [⟨0, 600⟩, ⟨0, 400⟩]
    (some (departed 0)) 0) (s := opening) (by decide)
  exact ⟨s, t, h, ((sale_is_charged_in_full_iff_untaxed (i := 0) rfl).1 s t h).mpr fun _ => rfl⟩

-- The guest's folio takes the goods of the sale and not its tax.
theorem taxed_sale_is_charged_short : ∃ s t,
    Commits (post 0 "SALE-1" [⟨0, 1000⟩] (some (departed 0)) 200) opening s t ∧
      sale? opening "SALE-1" = none ∧ s.totalMinor = 1450 ∧ balance opening 0 = some 10000 ∧
        balance t 0 = some 11250 := by
  obtain ⟨s, t, h, hp⟩ := exists_commits_of_result
    (x := post 0 "SALE-1" [⟨0, 1000⟩] (some (departed 0)) 200) (s := opening)
    (p := fun r => decide (r.1.totalMinor = 1450 ∧ balance r.2 0 = some 11250)) (by decide)
  obtain ⟨ht, hb⟩ := of_decide_eq_true hp
  exact ⟨s, t, h, rfl, ht, by decide, hb⟩

end Scenario
end RoomCharges
