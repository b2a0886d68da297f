import LodgeOps.Integrations.KillSwitch

namespace CursorSafety
open Schema Transaction Integrations KillSwitch Table
open IntegrationRunService IntegrationConnectionService

section Safety

-- The run as it is started: in the queue, without a page or an item, and with nobody at work.
structure Fresh (i : ℕ) (w : World) : Prop where
  run : ∃ r, w.db.runs.find? i = some r ∧ r.status = .queued ∧ r.pageInProgress = false
  items : ∀ j x, w.db.items.find? j = some x → x.runId ≠ i
  outside : w.outside = {}
  workers : w.workers = []

end Safety
section Invariant

def Committed (h : History) (a : Advance) : Prop :=
  ∃ s ∈ h.sheets, s.number = a.number ∧ a.checkpoint = s.page.nextCheckpoint ∧
    a.checkpoint ≠ none ∧ a.unfinished = []

-- The page in progress is the last sheet, and the run keeps its checkpoint for the commit.
structure Current (r : IntegrationSyncRun) (s : Sheet) : Prop where
  number : s.number = r.pageNumber
  checkpoint : r.pendingCheckpoint = s.page.nextCheckpoint
  some : s.page.nextCheckpoint ≠ none
  hasMore : r.pendingHasMore = s.page.hasMore

structure Pages (r : IntegrationSyncRun) (h : History) : Prop where
  turns : ∀ s ∈ h.sheets, s.turn < h.turns
  numbers : ∀ s ∈ h.sheets, s.number ≤ r.pageNumber
  ordered : h.sheets.Pairwise fun s t => s.number < t.number ∧ s.turn < t.turn
  advanced : ∀ a ∈ h.advances, Committed h a ∧ a.number ≤ r.pageNumber ∧
    (r.pageInProgress = true → a.number < r.pageNumber)
  climbing : h.advances.Pairwise fun a b => a.number < b.number
  current : r.pageInProgress = true → ∃ s, h.sheets.getLast? = some s ∧ Current r s
  completed : r.status = .completed → r.pageInProgress = false ∧
    ∀ s, h.sheets.getLast? = some s → s.page.hasMore = false

-- A claim whose token the run still carries finds no page in progress.
def Claim (r c : IntegrationSyncRun) (tokens : ℕ) : Prop :=
  ∃ n < tokens, c.claimToken = some n ∧
    (r.claimToken = some n → r.pageInProgress = false ∧ r.status ≠ .completed)

structure Hands (r : IntegrationSyncRun) (h : History) (tokens : ℕ) (workers : List Stage) :
    Prop where
  fetching : ∀ c, .fetching c ∈ workers → Claim r c tokens
  fetched : ∀ c turn page facts, .fetched c turn page facts ∈ workers → Claim r c tokens ∧
    turn < h.turns ∧ (r.claimToken = c.claimToken → ∀ s ∈ h.sheets, s.turn < turn)

def Marks (i : ℕ) (r : IntegrationSyncRun) (t : Table IntegrationSyncRunItem) : Prop :=
  ∀ j x, t.find? j = some x → x.runId = i → x.status = .blocked → r.status = .blocked

structure Sound (i : ℕ) (r : IntegrationSyncRun) (w : World) : Prop where
  run : w.db.runs.find? i = some r
  pages : Pages r w.outside
  hands : Hands r w.outside w.db.tokens w.workers
  marks : Marks i r w.db.items

variable {i : ℕ} {r r' c : IntegrationSyncRun} {h : History} {tokens : ℕ} {ws : List Stage}
variable {t : Table IntegrationSyncRunItem} {w : World}

end Invariant
section Idle
variable {i : ℕ} {r r' c : IntegrationSyncRun} {h : History} {tokens : ℕ} {ws ws' : List Stage}
variable {t : Table IntegrationSyncRunItem} {k k' : Kernel} {a : Action} {w : World}

-- What a write away from the page leaves of a run.
structure Idle (r r' : IntegrationSyncRun) : Prop where
  number : r'.pageNumber = r.pageNumber
  inProgress : r'.pageInProgress = r.pageInProgress
  checkpoint : r'.pendingCheckpoint = r.pendingCheckpoint
  hasMore : r'.pendingHasMore = r.pendingHasMore
  completed : r'.status = .completed → r.status = .completed

structure Released (r r' : IntegrationSyncRun) : Prop extends Idle r r' where
  token : r'.claimToken = r.claimToken ∨ r'.claimToken = none

theorem Released.refl : Released r r := ⟨⟨rfl, rfl, rfl, rfl, id⟩, Or.inl rfl⟩

-- A transaction that leaves the page, the cursors and the tokens alone.
structure Aside (i : ℕ) (k k' : Kernel) (r : IntegrationSyncRun) : Prop where
  run : ∃ r', k'.runs.find? i = some r' ∧ Released r r' ∧ Marks i r' k'.items
  cursors : k'.cursors = k.cursors
  tokens : k'.tokens = k.tokens

end Idle
section Asides
variable {i j : ℕ} {k k' : Kernel} {r : IntegrationSyncRun} {t : Table IntegrationSyncRunItem}

variable (hr : k.runs.find? i = some r) (hm : Marks i r k.items)
include hr hm

end Asides
section Steps
variable {i : ℕ} {r : IntegrationSyncRun} {w : World}

end Steps
section Runs
variable {i : ℕ} {w w' : World}

end Runs
end CursorSafety
