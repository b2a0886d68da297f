import Mathlib.Data.List.Basic

-- Log entries that each lead from one state to another, read in the order they were written.
namespace Trail
variable {α ε : Type} {source target : ε → α} {allowed : ε → Prop} {a b c : α} {e : ε}
variable {es fs : List ε} {n : ℕ}

def Leads (source target : ε → α) (allowed : ε → Prop) : α → List ε → α → Prop
  | a, [], b => a = b
  | a, e :: es, b => source e = a ∧ allowed e ∧ Leads source target allowed (target e) es b

theorem leads_append : Leads source target allowed a (es ++ fs) b ↔
    ∃ c, Leads source target allowed a es c ∧ Leads source target allowed c fs b := by
  induction es generalizing a with
  | nil => simp [Leads]
  | cons e es ih =>
    simp only [List.cons_append, Leads, ih]
    constructor
    · rintro ⟨hs, ha, c, hes, hfs⟩
      exact ⟨c, ⟨hs, ha, hes⟩, hfs⟩
    · rintro ⟨c, ⟨hs, ha, hes⟩, hfs⟩
      exact ⟨hs, ha, c, hes, hfs⟩

theorem Leads.snoc (h : Leads source target allowed a es b) (hs : source e = b) (ha : allowed e) :
    Leads source target allowed a (es ++ [e]) (target e) :=
  leads_append.mpr ⟨b, h, hs, ha, rfl⟩

-- A record whose revision counts its log entries, which lead from `a` to where it stands.
structure Audited (source target : ε → α) (allowed : ε → Prop) (a : α) (log : List ε)
    (revision : ℕ) (current : α) : Prop where
  counts : revision = log.length
  leads : Leads source target allowed a log current

theorem Audited.record (h : Audited source target allowed a es n b) (hs : source e = b)
    (ha : allowed e) (ht : target e = c) :
    Audited source target allowed a (es ++ [e]) (n + 1) c where
  counts := by rw [h.counts, List.length_append, List.length_singleton]
  leads := ht ▸ h.leads.snoc hs ha

end Trail
