import LodgeOps.Automation.OutboxPublication

namespace DeliveryAudit
open Automation Transaction CommunicationDeliveryService PublishOutboxMessage OutboxPublication

section Delivery
variable {s t u : AutomationStore} {i : ℕ} {c : Communication} {p : Prepared}
variable {tenantId : ℕ} {communicationId : String} {error : Option String}
variable {calls : List TransportCall} {e : Thrown}

def Unsent (s : AutomationStore) (i : ℕ) : Prop :=
  ∃ c ∈ s.communications.rows, c.id = i ∧ c.sentAt = none ∧ c.status ≠ "sent"

def Sent (s : AutomationStore) (i : ℕ) : Prop :=
  ∃ c ∈ s.communications.rows, c.id = i ∧ c.status = "sent" ∧ c.sentAt ≠ none

theorem not_unsent (h : Sent s i) : ¬ Unsent s i := by
  rintro ⟨c, hc, hid, _, hne⟩
  obtain ⟨d, hd, hid', hst, _⟩ := h
  obtain rfl : d = c := Table.eq_of_id hd hc (hid'.trans hid.symm)
  exact hne hst

-- Nothing goes out, and what has been sent stays so.
structure Calm (s u : AutomationStore) : Prop where
  attempts : u.attempts = s.attempts
  sent : ∀ i, Sent s i → Sent u i

-- One message goes out for a communication that was not sent before.
structure Delivers (s u : AutomationStore) (i : ℕ) : Prop where
  unsent : Unsent s i
  attempt : ∃ a, Table.Appends s.attempts u.attempts a ∧ a.communicationId = i ∧
    a.attempt = lastAttempt s.attempts i + 1 ∧ a.status = "sent"
  sent : Sent u i
  others : ∀ k, Sent s k → Sent u k

structure Prepares (s t : AutomationStore) (p : Prepared) (c : Communication) : Prop where
  found : c ∈ s.communications.rows
  unsent : c.sentAt = none ∧ c.status ≠ "sent"
  mail : p.mail.communicationId = c.id
  attempt : p.attemptId = s.attempts.next
  attempts : Table.Appends s.attempts t.attempts
    (sendingAttempt c (lastAttempt s.attempts c.id + 1) s.clock s.attempts.next)
  communications : Table.Updates s.communications t.communications c.id sending

theorem commits_begin {recipient : String} (h : Commits (begin c recipient) s p t)
    (hc : c ∈ s.communications.rows) (hu : c.sentAt = none ∧ c.status ≠ "sent") :
    Prepares s t p c := by
  simp only [begin, save, commits_bind, commits_get, commits_set, commits_modify, commits_pure] at h
  obtain ⟨_, _, ⟨rfl, rfl⟩, _, _, rfl, _, _, rfl, rfl, rfl⟩ := h
  exact ⟨hc, hu, rfl, rfl, Table.appends_insert, Table.updates_update⟩

theorem commits_prepare {prepared : Option Prepared}
    (h : Commits (prepare tenantId communicationId) s prepared t) :
    (prepared = none ∧ Calm s t) ∨ ∃ p c, prepared = some p ∧ Prepares s t p c := by
  simp only [prepare, commits_bind, commits_get, commits_orFail, commits_ite, commits_pure,
    commits_reject, commits_map] at h
  obtain ⟨_, _, ⟨rfl, rfl⟩, c, _, ⟨hc, rfl⟩, ⟨_, rfl, rfl⟩ | ⟨hu, _, _, ⟨_, rfl⟩, recipient, _,
    ⟨_, rfl⟩, h⟩⟩ := h
  · exact Or.inl ⟨rfl, rfl, fun _ hs => hs⟩
  · obtain ⟨hmem, _⟩ := Table.first?_some hc
    simp only [not_or, not_not] at hu
    rcases h with ⟨_, _, _, hs, rfl, rfl⟩ | ⟨_, p, hp, rfl⟩
    · obtain rfl := commits_modify.mp hs
      refine Or.inl ⟨rfl, rfl, fun i hi => ?_⟩
      obtain ⟨d, hd, hid, hst, hat⟩ := hi
      refine ⟨d, (Table.mem_update).mpr (Or.inl ⟨hd, fun he => ?_⟩), hid, hst, hat⟩
      obtain rfl : d = c := Table.eq_of_id hd hmem he
      exact hu.2 hst
    · exact Or.inr ⟨p, c, rfl, commits_begin hp hmem hu⟩

end Delivery

section Account
variable {w t u : World} {op : Operation} {i : ℕ} {call : TransportCall}
variable {attempts attempts' : Table DeliveryAttempt} {a : DeliveryAttempt}

def callsOf (w : World) (i : ℕ) : List TransportCall :=
  w.calls.filter fun c => c.mail.communicationId == i

def outcome (c : TransportCall) : String := if c.error = none then "sent" else "failed"

def recorded (w : World) (i : ℕ) : List (ℕ × String) :=
  (numberedAttempts w.store.attempts i).map fun a => (a.attempt, a.status)

def numbered (calls : List TransportCall) : List (ℕ × String) :=
  calls.zipIdx.map fun c => (c.2 + 1, outcome c.1)

-- One attempt for each call, in order and with its outcome.
def Audited (w : World) (i : ℕ) : Prop := recorded w i = numbered (callsOf w i)

-- The calls made so far: refusals, and at most one acceptance behind them.
structure Account (w : World) (i : ℕ) : Prop where
  calls : (∀ c ∈ callsOf w i, c.error ≠ none) ∧ recorded w i = [] ∨
    ∃ earlier c, callsOf w i = earlier ++ [c] ∧ (∀ c ∈ earlier, c.error ≠ none) ∧ c.error = none ∧
      recorded w i = [(1, "sent")] ∧ Sent w.store i

-- Whoever has not been sent has only refusals behind it.
theorem Account.unsent (ha : Account t i) (hu : Unsent t.store i) :
    (∀ c ∈ callsOf t i, c.error ≠ none) ∧ recorded t i = [] := by
  rcases ha.calls with h | ⟨_, _, _, _, _, _, hs⟩
  · exact h
  · exact absurd hu (not_unsent hs)

-- An acceptance is the end of it.
theorem Account.accepted (ha : Account w i) (hc : call ∈ callsOf w i) (hn : call.error = none) :
    Sent w.store i ∧ ∃ earlier, callsOf w i = earlier ++ [call] ∧ call ∉ earlier := by
  rcases ha.calls with ⟨hrefused, _⟩ | ⟨earlier, c, hcalls, hearlier, _, _, hs⟩
  · exact absurd hn (hrefused call hc)
  · rw [hcalls] at hc
    rcases List.mem_append.mp hc with hold | hnew
    · exact absurd hn (hearlier call hold)
    · obtain rfl := List.mem_singleton.mp hnew
      exact ⟨hs, earlier, hcalls, fun hold => hearlier call hold hn⟩

end Account

section Runs
variable {w t u : World} {i : ℕ}

end Runs

section Scenario
open CanonicalJson (Value)

def ana : AddressedGuest where
  id := "ana"
  tenantId := 0
  email := some "ana@example.com"
  phone := none
  language := none

def delivered (error : Option String) : List Operation :=
  [.publishOne 0 0, .dispatch ⟨0, 0, 0⟩, .start ⟨0, 0, 0⟩] ++
    List.replicate 3 (.proceed 0 none) ++ [.proceed 0 error]

end Scenario
end DeliveryAudit
