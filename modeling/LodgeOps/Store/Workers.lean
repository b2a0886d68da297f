import LodgeOps.Store.Transaction

-- A store, what lies outside it, and the workers that stand between two of their own steps.
structure Crew (σ γ κ : Type) where
  db : σ
  outside : γ
  workers : List κ := []

namespace Crew
open Transaction
variable {ε σ γ κ α : Type}

def onDb (x : Transaction ε σ α) : Transaction ε (Crew σ γ κ) α := fun w =>
  match x.run w.db with
  | .ok (a, db) => .ok (a, { w with db := db })
  | .error e => .error e

def enter (k : κ) : Transaction ε (Crew σ γ κ) Unit :=
  modify fun w => { w with workers := k :: w.workers }

def leave [DecidableEq κ] (k : κ) (e : ε) : Transaction ε (Crew σ γ κ) Unit := do
  let w ← get
  reject (k ∉ w.workers) e
  set { w with workers := w.workers.erase k }

section Commits
variable {w w' : Crew σ γ κ} {a : α} {u : Unit} {k : κ} {e : ε}

@[simp] theorem commits_onDb {x : Transaction ε σ α} : Commits (onDb x) w a w' ↔
    ∃ t, Commits x w.db a t ∧ w' = { w with db := t } := by
  simp only [Commits, onDb, StateT.run]
  cases x w.db with
  | error e => simp
  | ok v =>
    simp only [Except.ok.injEq, Prod.mk.injEq]
    constructor
    · rintro ⟨rfl, rfl⟩
      exact ⟨v.2, rfl, rfl⟩
    · rintro ⟨t, rfl, rfl⟩
      exact ⟨rfl, rfl⟩

@[simp] theorem commits_enter : Commits (enter k : Transaction ε (Crew σ γ κ) Unit) w u w' ↔
    w' = { w with workers := k :: w.workers } := by
  simp only [enter, commits_modify]
  exact eq_comm

@[simp] theorem commits_leave [DecidableEq κ] : Commits (leave k e : Transaction ε (Crew σ γ κ) Unit)
    w u w' ↔ k ∈ w.workers ∧ w' = { w with workers := w.workers.erase k } := by
  simp only [leave, commits_bind, commits_get, commits_reject, commits_set, not_not]
  constructor
  · rintro ⟨_, _, ⟨rfl, rfl⟩, _, _, ⟨hk, rfl⟩, rfl⟩
    exact ⟨hk, rfl⟩
  · rintro ⟨hk, rfl⟩
    exact ⟨w, w, ⟨rfl, rfl⟩, (), w, ⟨hk, rfl⟩, rfl⟩

end Commits
end Crew
