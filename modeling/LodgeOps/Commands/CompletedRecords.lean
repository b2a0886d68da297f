import LodgeOps.Commands.DirectBookingIdempotency
import LodgeOps.Commands.IdempotentCommand
import LodgeOps.DirectBooking.EventLog

namespace CompletedRecords
open Schema Transaction

section Claims

abbrev DirectBooking := EnsureDirectBookingIdempotency.Desk
abbrev Financial := EnsureIdempotentCommand.Desk

-- Every completed record of `s` stands in `t` as it was, and its command has not run again.
def Protects {ρ ι φ δ : Type} [Lasting ρ String] (expiresAt : ρ → ℤ)
    (s t : Office ρ String ι φ δ) : Prop :=
  ∀ x ∈ s.records.rows, Lasting.completed x = true → t.now < expiresAt x → Office.Kept x s t

theorem completed_records_are_protected {σ : Type} (safe : String → Bool)
    (pendingLeaseSeconds now : ℤ) (db : Database) (books : FinancialCommandExecutor.Books σ)
    (direct direct' : DirectBooking) (financial financial' : Financial σ) :
    (Reaches EnsureDirectBookingIdempotency.act EnsureDirectBookingIdempotency.Action.Fenced
        { now := now, data := db } direct →
      Reaches EnsureDirectBookingIdempotency.act EnsureDirectBookingIdempotency.Action.Fenced
        direct direct' →
      Protects (fun x => x.expiresAt) direct direct') ∧
    (Reaches (EnsureIdempotentCommand.act safe pendingLeaseSeconds)
        EnsureIdempotentCommand.Action.Fenced { now := now, data := books } financial →
      Reaches (EnsureIdempotentCommand.act safe pendingLeaseSeconds)
        EnsureIdempotentCommand.Action.Fenced financial financial' →
      Protects (fun x => x.expiresAt) financial financial') := by
  constructor
  · intro hs ht x hx hc
    have hsound := EnsureDirectBookingIdempotency.sound_run
      EnsureDirectBookingIdempotency.sound_start hs
    exact EnsureDirectBookingIdempotency.kept_run hsound hx hc ht
  · intro hs ht x hx hc _
    have hguarded := EnsureIdempotentCommand.guarded_run Office.guarded_start hs
    exact EnsureIdempotentCommand.kept_run hguarded hx hc ht

def loses {ρ ι φ δ : Type} [Lasting ρ String] [DecidableEq ρ] (expiresAt : ρ → ℤ)
    (s t : Office ρ String ι φ δ) : Bool :=
  s.records.rows.any fun x => Lasting.completed x && decide (t.now < expiresAt x) &&
    decide (x ∉ t.records.rows)

theorem not_protects_of_loses {ρ ι φ δ : Type} [Lasting ρ String] [DecidableEq ρ]
    {expiresAt : ρ → ℤ} {s t : Office ρ String ι φ δ} (h : loses expiresAt s t = true) :
    ¬ Protects expiresAt s t := by
  intro hp
  obtain ⟨x, hx, hbad⟩ := List.any_eq_true.mp h
  simp only [Bool.and_eq_true, decide_eq_true_eq] at hbad
  exact hbad.2 (hp x hx hbad.1.1 hbad.1.2).stands

end Claims

section DirectBookingScenario
open EnsureDirectBookingIdempotency

def beginning : Request where
  setting := some ⟨0, "lodge"⟩
  idempotencyKey := "0F8FAD5B-D9CB-469F-A165-70867728950E"
  uuid := "7c9e6679-7425-40de-944b-e07fc1f90ae7"
  bearerToken := none
  method := "POST"
  uri := "api/v1/direct-booking/{propertySlug}/orders"
  orderReference := none
  input := [(.str "locale", .str "es")]
  turnstilePresent := true

def opening : DirectBooking := { now := 0, data := EventLog.issued }

def fencedly (a : Action) (o : DirectBooking) : Bool :=
  a.effect.all fun j => (o.executors.find? j).all fun e => e.superseded == false

theorem fenced_of_fencedly (a : Action) (o : DirectBooking) (h : fencedly a o = true) :
    a.Fenced o := by
  intro j hj e he
  simpa [fencedly, hj, he] using h

end DirectBookingScenario

section FinancialScenario
open EnsureIdempotentCommand FinancialCommandExecutor

def paying : EnsureIdempotentCommand.Request where
  idempotencyKey := some "payment-record-0001"
  method := "POST"
  uri := "api/v1/reservations/{reservation}/front-desk-payments"
  path := "api/v1/reservations/0/front-desk-payments"
  query := []
  input := [(.str "amount_minor", .int 500)]
  receivedAt := 0

def counter : Financial Payments := { now := 0, data := { data := {} } }

def fencedlyPaid (a : EnsureIdempotentCommand.Action Payments) (o : Financial Payments) : Bool :=
  a.effect.all fun j => (o.executors.find? j).all fun e => e.superseded == false

theorem fenced_of_fencedlyPaid (a : EnsureIdempotentCommand.Action Payments)
    (o : Financial Payments) (h : fencedlyPaid a o = true) : a.Fenced o := by
  intro j hj e he
  simpa [fencedlyPaid, hj, he] using h

end FinancialScenario

section Scenario

-- In both, the second request finds the lease of the first one lapsed and completes the command.
theorem second_request_keeps_its_record :
    (∃ s t : DirectBooking, (s.records.rows.any Lasting.completed) = true ∧ s.now < t.now ∧
      Protects (fun x => x.expiresAt) s t) ∧
    ∃ s t : Financial FinancialCommandExecutor.Payments,
      (s.records.rows.any Lasting.completed) = true ∧ s.now < t.now ∧
      Protects (fun x => x.expiresAt) s t := by
  obtain ⟨s, t, hs, ht, hp⟩ : ∃ s t : DirectBooking,
      Reaches EnsureDirectBookingIdempotency.act EnsureDirectBookingIdempotency.Action.Fenced opening s ∧
      Reaches EnsureDirectBookingIdempotency.act EnsureDirectBookingIdempotency.Action.Fenced s t ∧
      (s.records.rows.any Lasting.completed && decide (s.now < t.now)) = true := Reaches.exists_of_two_runs
    fencedly fenced_of_fencedly
    [.request beginning, .wait 45, .request beginning, .complete 1 id 0 201 "token-1"]
    [.refresh 1, .request beginning, .throw 0, .crash 0, .wait 60, .maintain 100]
    (by decide +kernel)
  obtain ⟨u, v, hu, hv, hq⟩ : ∃ s t : Financial FinancialCommandExecutor.Payments,
      Reaches (EnsureIdempotentCommand.act (fun _ => true) 30) EnsureIdempotentCommand.Action.Fenced counter s ∧
      Reaches (EnsureIdempotentCommand.act (fun _ => true) 30) EnsureIdempotentCommand.Action.Fenced s t ∧
      (s.records.rows.any Lasting.completed && decide (s.now < t.now)) = true := Reaches.exists_of_two_runs
    fencedlyPaid fenced_of_fencedlyPaid
    [.request paying, .wait 30, .request paying, .run 1 id, .respond 1 ⟨201, "paid"⟩, .update 1]
    [.request paying, .throw 0, .crash 0, .wait 60] (by decide +kernel)
  simp only [Bool.and_eq_true, decide_eq_true_eq] at hp hq
  have hprotected := completed_records_are_protected (fun _ => true) 30 0 EventLog.issued
    { data := {} } s t u v
  exact ⟨⟨s, t, hp.1, hp.2, hprotected.1 hs ht⟩, u, v, hq.1, hq.2, hprotected.2 hu hv⟩

-- The cleanup of the first request deletes the record that the second one has completed.
theorem late_cleanup_deletes_completed_record :
    (∃ s t : DirectBooking,
      Reaches EnsureDirectBookingIdempotency.act (fun _ _ => True) opening s ∧
      Reaches EnsureDirectBookingIdempotency.act (fun _ _ => True) s t ∧
      ¬ Protects (fun x => x.expiresAt) s t) ∧
    ∃ s t : Financial FinancialCommandExecutor.Payments,
      Reaches (EnsureIdempotentCommand.act (fun _ => true) 30) (fun _ _ => True) counter s ∧
      Reaches (EnsureIdempotentCommand.act (fun _ => true) 30) (fun _ _ => True) s t ∧
      ¬ Protects (fun x => x.expiresAt) s t := by
  constructor
  · obtain ⟨s, t, hs, ht, hp⟩ : ∃ s t : DirectBooking,
        Reaches EnsureDirectBookingIdempotency.act (fun _ _ => True) opening s ∧
        Reaches EnsureDirectBookingIdempotency.act (fun _ _ => True) s t ∧
        loses (fun x => x.expiresAt) s t = true := Reaches.exists_of_two_runs (fun _ _ => true) (fun _ _ _ => trivial)
      [.request beginning, .wait 45, .request beginning, .complete 1 id 0 201 "token-1"]
      [.complete 0 id 0 201 "token-0", .cleanup 0] (by decide +kernel)
    exact ⟨s, t, hs, ht, not_protects_of_loses hp⟩
  · obtain ⟨s, t, hs, ht, hp⟩ : ∃ s t : Financial FinancialCommandExecutor.Payments,
        Reaches (EnsureIdempotentCommand.act (fun _ => true) 30) (fun _ _ => True) counter s ∧
        Reaches (EnsureIdempotentCommand.act (fun _ => true) 30) (fun _ _ => True) s t ∧
        loses (fun x => x.expiresAt) s t = true := Reaches.exists_of_two_runs (fun _ _ => true) (fun _ _ _ => trivial)
      [.request paying, .wait 30, .request paying, .run 1 id, .respond 1 ⟨201, "paid"⟩, .update 1]
      [.throw 0, .cleanup 0] (by decide +kernel)
    exact ⟨s, t, hs, ht, not_protects_of_loses hp⟩

end Scenario
end CompletedRecords
