import Mathlib.Data.List.Nodup
import Mathlib.Tactic

namespace Roster
variable {ρ α : Type} {member : ρ → α} {leads : ρ → Prop} {lead : Option α} {rows : List ρ}

theorem nodup_eraseDups [BEq α] [LawfulBEq α] (l : List α) : l.eraseDups.Nodup := by
  induction hn : l.length using Nat.strong_induction_on generalizing l with
  | _ n ih =>
    cases l with
    | nil => simp
    | cons a as =>
      rw [List.eraseDups_cons, List.nodup_cons]
      have hlt : (as.filter fun b => !b == a).length < n := by
        rw [← hn]
        exact Nat.lt_succ_of_le (List.length_filter_le _ _)
      refine ⟨?_, ih _ hlt _ rfl⟩
      rw [List.mem_eraseDups]
      simp

-- Nobody is on it twice, and where it has a lead, that member's row leads and no other does.
structure Led (member : ρ → α) (leads : ρ → Prop) (lead : Option α) (rows : List ρ) : Prop where
  once : (rows.map member).Nodup
  present : ∀ a, lead = some a → a ∈ rows.map member
  leads : ∀ a, lead = some a → ∀ r ∈ rows, leads r ↔ member r = a

theorem Led.existsUnique {a : α} (h : Led member leads (some a) rows) :
    ∃ r ∈ rows, member r = a ∧ leads r ∧ ∀ q ∈ rows, member q = a ∨ leads q → q = r := by
  obtain ⟨r, hr, rfl⟩ := List.mem_map.mp (h.present a rfl)
  refine ⟨r, hr, rfl, (h.leads _ rfl r hr).mpr rfl, fun q hq hor => ?_⟩
  have hm : member q = member r := hor.elim id fun hl => (h.leads _ rfl q hq).mp hl
  exact List.inj_on_of_nodup_map h.once hq hr hm

theorem Led.empty : Led member leads none [] := ⟨by simp, by simp, by simp⟩

theorem Led.unled (h : (rows.map member).Nodup) : Led member leads none rows :=
  ⟨h, by simp, by simp⟩

theorem led_of_map {ids : List α} (hids : rows.map member = ids) (hn : ids.Nodup)
    (hlead : ∀ a, lead = some a → a ∈ ids)
    (hleads : ∀ r ∈ rows, leads r ↔ some (member r) = lead) : Led member leads lead rows where
  once := hids ▸ hn
  present a ha := hids ▸ hlead a ha
  leads a ha r hr := by
    rw [hleads r hr, ha, Option.some.injEq]

section Absorb
variable [DecidableEq α] {source target : α} {move : ρ → ρ}

-- `source` hands its row to `target`, or gives it up where `target` has a row already.
def absorb (member : ρ → α) (move : ρ → ρ) (source target : α) (rows : List ρ) : List ρ :=
  if target ∈ rows.map member then rows.filter fun r => member r ≠ source
  else rows.map fun r => if member r = source then move r else r

def handed (source target : α) (lead : Option α) : Option α :=
  lead.map fun a => if a = source then target else a

theorem absorb_of_absent (h : source ∉ rows.map member) :
    absorb member move source target rows = rows := by
  have hne : ∀ r ∈ rows, member r ≠ source := fun r hr he => h (he ▸ List.mem_map_of_mem hr)
  unfold absorb
  split_ifs
  · exact List.filter_eq_self.mpr fun r hr => by simpa using hne r hr
  · refine (List.map_congr_left fun r hr => ?_).trans (List.map_id _)
    simp [hne r hr]

theorem absorb_of_present (h : target ∈ rows.map member) :
    absorb member move source target rows = rows.filter fun r => member r ≠ source := if_pos h

theorem map_absorb_of_missing (hmove : ∀ r, member (move r) = target)
    (h : target ∉ rows.map member) :
    (absorb member move source target rows).map member =
      (rows.map member).map fun a => if a = source then target else a := by
  rw [absorb, if_neg h, List.map_map, List.map_map]
  refine List.map_congr_left fun r _ => ?_
  simp only [Function.comp_apply]
  split_ifs
  · exact hmove r
  · rfl

theorem nodup_absorb (hmove : ∀ r, member (move r) = target) (hn : (rows.map member).Nodup) :
    ((absorb member move source target rows).map member).Nodup := by
  by_cases h : target ∈ rows.map member
  · rw [absorb_of_present h]
    exact hn.sublist (List.filter_sublist.map _)
  · rw [map_absorb_of_missing hmove h]
    refine List.Nodup.map_on (fun a ha b hb he => ?_) hn
    have hat : a ≠ target := fun e => h (e ▸ ha)
    have hbt : b ≠ target := fun e => h (e ▸ hb)
    by_cases has : a = source <;> by_cases hbs : b = source
    · rw [has, hbs]
    · rw [if_pos has, if_neg hbs] at he
      exact absurd he.symm hbt
    · rw [if_neg has, if_pos hbs] at he
      exact absurd he hat
    · rwa [if_neg has, if_neg hbs] at he

theorem led_absorb_of_present (h : Led member leads lead rows) (hl : lead ≠ some source)
    (ht : target ∈ rows.map member) :
    Led member leads (handed source target lead) (absorb member move source target rows) := by
  have hsame : handed source target lead = lead := by
    cases lead with
    | none => rfl
    | some a => rw [handed, Option.map_some, if_neg fun e => hl (congrArg some e)]
  rw [hsame, absorb_of_present ht]
  refine ⟨h.once.sublist (List.filter_sublist.map _), fun a ha => ?_, fun a ha r hr => ?_⟩
  · obtain ⟨r, hr, rfl⟩ := List.mem_map.mp (h.present a ha)
    refine List.mem_map_of_mem (List.mem_filter.mpr ⟨hr, ?_⟩)
    simpa using fun e => hl (by rw [ha, e])
  · exact h.leads a ha r (List.mem_of_mem_filter hr)

variable (hmove : ∀ r, member (move r) = target) (hkeep : ∀ r, leads (move r) ↔ leads r)
include hmove hkeep

theorem led_absorb_of_missing (h : Led member leads lead rows) (ht : target ∉ rows.map member) :
    Led member leads (handed source target lead) (absorb member move source target rows) := by
  refine ⟨nodup_absorb hmove h.once, fun b hb => ?_, fun b hb r hr => ?_⟩
  · obtain ⟨a, ha, rfl⟩ := Option.map_eq_some_iff.mp hb
    rw [map_absorb_of_missing hmove ht]
    exact List.mem_map.mpr ⟨a, h.present a ha, rfl⟩
  · obtain ⟨a, ha, rfl⟩ := Option.map_eq_some_iff.mp hb
    rw [absorb, if_neg ht] at hr
    obtain ⟨q, hq, rfl⟩ := List.mem_map.mp hr
    have hqt : member q ≠ target := fun e => ht (e ▸ List.mem_map_of_mem hq)
    have hat : a ≠ target := fun e => ht (e ▸ h.present a ha)
    have hq' := h.leads a ha q hq
    by_cases hqs : member q = source
    · rw [if_pos hqs, hkeep, hmove, hq', hqs]
      split_ifs with has
      · exact ⟨fun _ => rfl, fun _ => has.symm⟩
      · exact ⟨fun e => absurd e.symm has, fun e => absurd e.symm hat⟩
    · rw [if_neg hqs, hq']
      split_ifs with has
      · rw [has]
        exact ⟨fun e => absurd e hqs, fun e => absurd e hqt⟩
      · exact Iff.rfl

theorem led_absorb_iff (hne : source ≠ target) (h : Led member leads lead rows) :
    Led member leads (handed source target lead) (absorb member move source target rows) ↔
      ¬ (lead = some source ∧ target ∈ rows.map member) := by
  constructor
  · rintro hled ⟨hl, ht⟩
    obtain ⟨q, hq, hqt⟩ := List.mem_map.mp ht
    -- The row of the target stays as it was, and it did not lead.
    have hq' : q ∈ absorb member move source target rows := by
      rw [absorb_of_present ht]
      exact List.mem_filter.mpr ⟨hq, by simpa [hqt] using hne.symm⟩
    have hleads : leads q := (hled.leads target (by simp [handed, hl]) q hq').mpr hqt
    have hsource : member q = source := (h.leads source hl q hq).mp hleads
    exact hne (hsource.symm.trans hqt)
  · intro hn
    by_cases ht : target ∈ rows.map member
    · exact led_absorb_of_present h (fun hl => hn ⟨hl, ht⟩) ht
    · exact led_absorb_of_missing hmove hkeep h ht

end Absorb
end Roster
