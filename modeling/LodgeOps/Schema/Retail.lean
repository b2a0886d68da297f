import LodgeOps.Schema.Ledger

namespace Schema

structure RetailSale where
  id : ℕ
  reservationId : Option ℕ
  stockLocationId : ℕ
  reference : String
  status : String
  currency : String
  subtotalMinor : ℤ
  taxMinor : ℤ
  totalMinor : ℤ
  postedAt : ℤ
deriving DecidableEq

structure RetailSaleLine where
  id : ℕ
  retailSaleId : ℕ
  catalogItemId : ℕ
  folioLineId : Option ℕ
  quantityThousandths : ℤ
  unitAmountMinor : ℤ
  amountMinor : ℤ
deriving DecidableEq

structure StockMovement where
  id : ℕ
  catalogItemId : ℕ
  stockLocationId : ℕ
  retailSaleId : Option ℕ
  type : String
  quantityThousandths : ℤ
  unitCostMinor : ℤ
  reference : String
  occurredAt : ℤ
deriving DecidableEq

instance : Keyed RetailSale := ⟨RetailSale.id⟩
instance : Keyed RetailSaleLine := ⟨RetailSaleLine.id⟩
instance : Keyed StockMovement := ⟨StockMovement.id⟩

end Schema
