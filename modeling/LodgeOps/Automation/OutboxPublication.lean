import LodgeOps.Automation.Publication

namespace OutboxPublication
open Automation Transaction OutboxBatchPublisher PublishOutboxMessage

section Rows

-- A row of the outbox before and after a step that does not publish it.
structure Follows (m m' : Outbox) : Prop where
  id : m'.id = m.id
  published : m'.publishedAt = m.publishedAt
  claim : m.publishedAt ≠ none → m'.claimToken = m.claimToken ∨ m'.claimToken = none

structure Idle (s s' : AutomationStore) : Prop extends Creates s s', Still s s' where
  rows : ∀ m ∈ s.outbox.rows, ∃ m' ∈ s'.outbox.rows, Follows m m'
  back : ∀ m' ∈ s'.outbox.rows, (∃ m ∈ s.outbox.rows, Follows m m') ∨ unpublished m'

variable {s t u : AutomationStore} {m : Outbox} {j : Job}

theorem follows_refl : Follows m m := ⟨rfl, rfl, fun _ => Or.inl rfl⟩

theorem idle_of_same (h : t.outbox = s.outbox) (hc : Creates s t) (hs : Still s t) : Idle s t :=
  ⟨hc, hs, fun m hm => ⟨m, h ▸ hm, follows_refl⟩, fun m hm => Or.inl ⟨m, h ▸ hm, follows_refl⟩⟩

theorem idle_refl : Idle s s := idle_of_same rfl (creates_of_effects rfl) (still_of_same rfl rfl)

theorem idle_of_advances (h : Advances s t) : Idle s t := by
  obtain ⟨new, hrows, hnew⟩ := h.outbox
  refine ⟨h.toCreates, h.toStill, fun m hm => ⟨m, ?_, follows_refl⟩, fun m hm => ?_⟩
  · rw [hrows]
    exact List.mem_append_left new hm
  · rw [hrows] at hm
    rcases List.mem_append.mp hm with hm | hm
    · exact Or.inl ⟨m, hm, follows_refl⟩
    · exact Or.inr (hnew m hm)

theorem idle_updateWhere {p : Outbox → Bool} {f : Outbox → Outbox} (hf : Keeps f)
    (ho : t.outbox = s.outbox.updateWhere p f hf) (h : ∀ m, p m = true → Follows m (f m))
    (hc : Creates s t) (hs : Still s t) : Idle s t := by
  refine ⟨hc, hs, fun m hm => ?_, fun m' hm => Or.inl ?_⟩
  · rw [ho]
    by_cases hp : p m = true
    · exact ⟨f m, (Table.mem_updateWhere hf).mpr (Or.inr ⟨m, hm, hp, rfl⟩), h m hp⟩
    · exact ⟨m, (Table.mem_updateWhere hf).mpr (Or.inl ⟨hm, Bool.eq_false_of_not_eq_true hp⟩),
        follows_refl⟩
  · rw [ho] at hm
    rcases (Table.mem_updateWhere hf).mp hm with ⟨hold, _⟩ | ⟨m, hold, hp, rfl⟩
    · exact ⟨m', hold, follows_refl⟩
    · exact ⟨m, hold, h m hp⟩

theorem idle_takeClaim {messages : List Outbox} : Moves Idle (takeClaim messages) s := by
  intro jobs s' h
  simp only [takeClaim, commits_bind, commits_get, commits_set, commits_pure] at h
  obtain ⟨_, _, ⟨rfl, rfl⟩, _, _, rfl, _, rfl⟩ := h
  refine idle_updateWhere (keeps_claimed _ _) rfl (fun m hp => ⟨rfl, rfl, fun hne => absurd ?_ hne⟩)
    (creates_of_effects rfl) (still_of_same rfl rfl)
  exact Option.isNone_iff_eq_none.mp (Bool.and_eq_true_iff.mp hp).2

theorem idle_claim {n : ℤ} : Moves Idle (claim n) s := by
  refine Moves.get_bind (Moves.ite (fun _ => ?_) fun _ => idle_takeClaim)
  intro jobs s' h
  obtain ⟨_, rfl⟩ := commits_pure.mp h
  exact idle_refl

theorem idle_claimOne {tenantId messageId : ℕ} : Moves Idle (claimOne tenantId messageId) s := by
  refine Moves.get_bind ?_
  split
  · intro jobs s' h
    obtain ⟨_, rfl⟩ := commits_pure.mp h
    exact idle_refl
  · exact idle_takeClaim

theorem idle_release {error : String} {minutes : ℤ} : Moves Idle (release j error minutes) s :=
  Moves.modify (idle_updateWhere (keeps_released _ _) rfl (fun _ _ => ⟨rfl, rfl, fun _ => Or.inr rfl⟩)
    (creates_of_effects rfl) (still_of_same rfl rfl))

theorem idle_releaseTenantless : Moves Idle (releaseTenantless j) s :=
  Moves.modify (idle_updateWhere (keeps_attempted _ _) rfl (fun _ _ => ⟨rfl, rfl, fun _ => Or.inr rfl⟩)
    (creates_of_effects rfl) (still_of_same rfl rfl))

theorem idle_increment : Moves Idle (increment j m) s :=
  Moves.modify (idle_updateWhere keeps_counted rfl (fun _ _ => ⟨rfl, rfl, fun _ => Or.inl rfl⟩)
    (creates_of_effects rfl) (still_of_same rfl rfl))

theorem idle_recordError {error : String} : Moves Idle (recordError j m error) s :=
  Moves.modify (idle_updateWhere (keeps_troubled _ _) rfl (fun _ _ => ⟨rfl, rfl, fun _ => Or.inl rfl⟩)
    (creates_of_effects rfl) (still_of_same rfl rfl))

end Rows

section Turns
variable {t u : World} {op : Operation} {i : ℕ} {error : Option String}

-- The one transaction of a job ran its engine to the end.
structure Engine (t : World) (i : ℕ) (error : Option String) (j : Job) (message : Outbox)
    (s : AutomationStore) (calls : List TransportCall) : Prop where
  worker : ∃ tenant, t.workers.find? i = some ⟨i, j, .counted tenant message⟩ ∧
    Commits (AutomationEngine.handle tenant message error) t.store calls s

-- What one step does.
inductive Turn (t u : World) (op : Operation) : Prop
  | idle (hs : Idle t.store u.store) (hlog : u.committed = t.committed) (hcalls : u.calls = t.calls)
  | engine (i : ℕ) (error : Option String) (j : Job) (message : Outbox) (s : AutomationStore)
      (calls : List TransportCall) (hop : op = .proceed i error)
      (he : Engine t i error j message s calls) (hs : u.store = marked j message s)
      (hlog : u.committed = t.committed ++ (effects u.store).diff (effects t.store))
      (hcalls : u.calls = t.calls ++ calls)
  | thrown (i : ℕ) (error : Option String) (j : Job) (tenant : Tenant) (message : Outbox) (e : Thrown)
      (hop : op = .proceed i error)
      (hk : t.workers.find? i = some ⟨i, j, .counted tenant message⟩)
      (he : (publish j tenant message error).run t.store = .error e) (hs : u.store = t.store)
      (hlog : u.committed = t.committed) (hcalls : u.calls = t.calls ++ e.calls)

theorem commits_publish {j : Job} {tenant : Tenant} {message : Outbox} {calls : List TransportCall}
    {s s' : AutomationStore} (h : Commits (publish j tenant message error) s calls s') :
    ∃ v, Commits (AutomationEngine.handle tenant message error) s calls v ∧
      s' = marked j message v := by
  simp only [publish, markPublished, commits_bind, commits_rethrow, commits_modify,
    commits_pure] at h
  obtain ⟨_, v, hv, _, _, rfl, rfl, rfl⟩ := h
  exact ⟨v, hv, rfl⟩

theorem turn_runPublish {j : Job} {tenant : Tenant} {message : Outbox}
    (hk : t.workers.find? i = some ⟨i, j, .counted tenant message⟩) :
    Turn t (runPublish j i tenant message error t) (.proceed i error) := by
  unfold runPublish
  split
  · next calls s hrun =>
    obtain ⟨v, hv, rfl⟩ := commits_publish hrun
    exact .engine i error j message v calls rfl ⟨tenant, hk, hv⟩ rfl rfl rfl
  · next e hrun => exact .thrown i error j tenant message e rfl hk hrun rfl rfl rfl

theorem turn_enter {p : Phase} {w : World} {v : Unit} (h : Commits (enter i p) w v u)
    (hs : Idle t.store w.store) (hlog : w.committed = t.committed) (hcalls : w.calls = t.calls) :
    Turn t u op := by
  obtain rfl := commits_modify.mp h
  exact .idle hs hlog hcalls

theorem turn_onStore {α : Type} {x : AutomationTx α} {w : World} {a : α}
    (h : Commits (onStore x) t a w) (hx : Moves Idle x t.store) :
    Idle t.store w.store ∧ w.committed = t.committed ∧ w.calls = t.calls := by
  obtain ⟨s, hs, rfl⟩ := commits_zoom.mp h
  exact ⟨hx a s hs, rfl, rfl⟩

theorem turn_advance {k : Worker} (hk : t.workers.find? i = some k)
    (h : Commits (advance k error) t () u) : Turn t u (.proceed i error) := by
  obtain ⟨id, j, phase⟩ := k
  obtain rfl : id = i := (Table.find?_eq_some.mp hk).2
  cases phase with
  | started =>
    obtain ⟨_, _, hg, h⟩ := commits_bind.mp h
    obtain ⟨rfl, rfl⟩ := commits_get.mp hg
    exact turn_enter h idle_refl rfl rfl
  | tenantless =>
    obtain ⟨_, w, hx, h⟩ := commits_bind.mp h
    obtain ⟨hs, hlog, hcalls⟩ := turn_onStore hx idle_releaseTenantless
    exact turn_enter h hs hlog hcalls
  | tenanted tenant =>
    obtain ⟨_, _, hg, h⟩ := commits_bind.mp h
    obtain ⟨rfl, rfl⟩ := commits_get.mp hg
    exact turn_enter h idle_refl rfl rfl
  | fetched tenant message =>
    obtain ⟨_, w, hx, h⟩ := commits_bind.mp h
    obtain ⟨hs, hlog, hcalls⟩ := turn_onStore hx idle_increment
    exact turn_enter h hs hlog hcalls
  | counted tenant message =>
    obtain rfl := commits_modify.mp h
    exact turn_runPublish hk
  | committed message => exact turn_enter h idle_refl rfl rfl
  | caught message e =>
    obtain ⟨_, w, hx, h⟩ := commits_bind.mp h
    obtain ⟨hs, hlog, hcalls⟩ := turn_onStore hx idle_recordError
    exact turn_enter h hs hlog hcalls
  | finished => exact absurd h commits_throw

theorem turn_taking {x : AutomationTx (List Job)} (hx : Moves Idle x t.store)
    (h : Commits (taking x) t () u) : Turn t u op := by
  obtain ⟨jobs, w, hw, h⟩ := commits_bind.mp h
  obtain ⟨hs, hlog, hcalls⟩ := turn_onStore hw hx
  obtain rfl := commits_modify.mp h
  exact .idle hs hlog hcalls

theorem turn_run (ha : op.Honest t) (h : Commits op.run t () u) : Turn t u op := by
  cases op with
  | claim n => exact turn_taking idle_claim h
  | publishOne tenantId messageId => exact turn_taking idle_claimOne h
  | dispatch j =>
    simp only [Operation.run, commits_bind, commits_get, commits_reject, commits_set] at h
    obtain ⟨_, _, ⟨rfl, rfl⟩, _, _, ⟨_, rfl⟩, rfl⟩ := h
    exact .idle idle_refl rfl rfl
  | dispatchFails j error =>
    simp only [Operation.run, commits_bind, commits_get, commits_reject, commits_set] at h
    obtain ⟨_, _, ⟨rfl, rfl⟩, _, _, ⟨_, rfl⟩, _, _, rfl, h⟩ := h
    obtain ⟨hs, hlog, hcalls⟩ := turn_onStore h idle_release
    exact .idle hs hlog hcalls
  | start j =>
    simp only [Operation.run, commits_bind, commits_get, commits_reject, commits_set] at h
    obtain ⟨_, _, ⟨rfl, rfl⟩, _, _, ⟨_, rfl⟩, rfl⟩ := h
    exact .idle idle_refl rfl rfl
  | proceed i error =>
    simp only [Operation.run, commits_bind, commits_get, commits_orFail] at h
    obtain ⟨_, _, ⟨rfl, rfl⟩, k, _, ⟨hk, rfl⟩, h⟩ := h
    exact turn_advance hk h
  | interrupt i error =>
    simp only [Operation.run, commits_bind, commits_get, commits_orFail] at h
    obtain ⟨_, _, ⟨rfl, rfl⟩, k, _, ⟨hk, rfl⟩, p, _, ⟨_, rfl⟩, h⟩ := h
    exact turn_enter h idle_refl rfl rfl
  | failed j error =>
    simp only [Operation.run, commits_bind, commits_get, commits_reject] at h
    obtain ⟨_, _, ⟨rfl, rfl⟩, _, _, ⟨_, rfl⟩, h⟩ := h
    obtain ⟨hs, hlog, hcalls⟩ := turn_onStore h idle_release
    exact .idle hs hlog hcalls
  | elsewhere result =>
    obtain rfl := commits_modify.mp h
    exact .idle (idle_of_advances ha) rfl rfl

end Turns

section Invariant
variable {t u w : World} {op : Operation} {m m' : Outbox} {i : ℕ} {error : Option String} {j : Job}
variable {message : Outbox} {s : AutomationStore} {calls : List TransportCall}

structure Sound (w : World) : Prop where
  distinct : (effects w.store).Nodup
  unclaimed : ∀ m ∈ w.store.outbox.rows, m.publishedAt ≠ none → m.claimToken = none
  committed : w.committed.Subperm (effects w.store)

theorem sound_of_opening (h : Opening w) : Sound w where
  distinct := h.distinct
  unclaimed := h.unclaimed
  committed := by
    rw [h.committed]
    exact List.nil_subperm

theorem creates_subperm {s t : AutomationStore} (h : Creates s t) :
    (effects s).Subperm (effects t) := by
  obtain ⟨new, hnew⟩ := h.created
  exact (List.sublist_append_left _ new).subperm.trans hnew.symm.subperm

-- What the log gains is what the store gains.
theorem subperm_log {log : List Effect} {s t : AutomationStore} (h : Creates s t)
    (hlog : log.Subperm (effects s)) :
    (log ++ (effects t).diff (effects s)).Subperm (effects t) := by
  rw [List.subperm_ext_iff]
  intro e _
  have hold := List.Subperm.count_le hlog e
  have hnew := List.Subperm.count_le (creates_subperm h) e
  rw [List.count_append, List.count_diff]
  omega

theorem Engine.creates (h : Engine t i error j message s calls) :
    Creates t.store (marked j message s) := by
  obtain ⟨_, _, hc⟩ := h.worker
  obtain ⟨hcreated, hdistinct⟩ := (engine_creates hc).1
  exact ⟨hcreated, hdistinct⟩

-- The rows that an engine transaction leaves: one that it marks, and the others as they were.
theorem Engine.row (h : Engine t i error j message s calls)
    (hm : m ∈ (marked j message s).outbox.rows) :
    (m ∈ t.store.outbox.rows ∧ stillHeld j message m = false) ∨ unpublished m ∨
      ∃ q ∈ t.store.outbox.rows, stillHeld j message q = true ∧ m = published s.clock q := by
  obtain ⟨_, _, hc⟩ := h.worker
  obtain ⟨_, new, hrows, hnew⟩ := engine_creates hc
  rcases (Table.mem_updateWhere).mp hm with ⟨hold, hn⟩ | ⟨q, hq, hh, rfl⟩
  · rw [hrows] at hold
    rcases List.mem_append.mp hold with hold | hold
    · exact Or.inl ⟨hold, hn⟩
    · exact Or.inr (Or.inl (hnew m hold))
  · rw [hrows] at hq
    rcases List.mem_append.mp hq with hq | hq
    · exact Or.inr (Or.inr ⟨q, hq, hh, rfl⟩)
    · simp [stillHeld, (hnew q hq).2] at hh

theorem Engine.keeps (h : Engine t i error j message s calls) (hm : m ∈ t.store.outbox.rows) :
    m ∈ s.outbox.rows := by
  obtain ⟨_, _, hc⟩ := h.worker
  obtain ⟨_, new, hrows, _⟩ := engine_creates hc
  rw [hrows]
  exact List.mem_append_left new hm

theorem sound_turn (hs : Sound t) (h : Turn t u op) : Sound u := by
  cases h with
  | idle hidle hlog hcalls =>
    refine ⟨hidle.distinct hs.distinct, fun m' hm' hp => ?_, ?_⟩
    · rcases hidle.back m' hm' with ⟨m, hm, hf⟩ | hun
      · have hne : m.publishedAt ≠ none := hf.published ▸ hp
        rcases hf.claim hne with hc | hc
        · exact hc.trans (hs.unclaimed m hm hne)
        · exact hc
      · exact hun.2
    · rw [hlog]
      exact hs.committed.trans (creates_subperm hidle.toCreates)
  | engine i error j message s calls hop he hstore hlog hcalls =>
    refine ⟨?_, fun m' hm' hp => ?_, ?_⟩
    · rw [hstore]
      exact he.creates.distinct hs.distinct
    · rw [hstore] at hm'
      rcases he.row hm' with ⟨hm, _⟩ | hun | ⟨q, _, _, rfl⟩
      · exact hs.unclaimed m' hm hp
      · exact hun.2
      · rfl
    · rw [hlog, hstore]
      exact subperm_log he.creates hs.committed
  | thrown i error j tenant message e hop hk he hstore hlog hcalls =>
    refine ⟨?_, ?_, ?_⟩
    · rw [hstore]
      exact hs.distinct
    · rw [hstore]
      exact hs.unclaimed
    · rw [hlog, hstore]
      exact hs.committed

-- The step that marks `m` is the engine transaction of a job that holds its claim.
structure PublishedWith (op : Operation) (t u : World) (m : Outbox) : Prop where
  engine : ∃ i error j message s calls, op = .proceed i error ∧
    Engine t i error j message s calls ∧ u.store = marked j message s ∧ message.id = m.id ∧
      m.claimToken = some j.claimToken

theorem published_with (h : Turn t u op) (hm : m ∈ t.store.outbox.rows)
    (hnone : m.publishedAt = none) (hm' : m' ∈ u.store.outbox.rows) (hid : m'.id = m.id)
    (hp : m'.publishedAt ≠ none) : PublishedWith op t u m := by
  cases h with
  | idle hidle hlog hcalls =>
    rcases hidle.back m' hm' with ⟨q, hq, hf⟩ | hun
    · obtain rfl : q = m := Table.eq_of_id hq hm (hf.id.symm.trans hid)
      exact absurd (hf.published.trans hnone) hp
    · exact absurd hun.1 hp
  | engine i error j message s calls hop he hstore hlog hcalls =>
    rw [hstore] at hm'
    rcases he.row hm' with ⟨hold, _⟩ | hun | ⟨q, hq, hh, rfl⟩
    · obtain rfl : m' = m := Table.eq_of_id hold hm hid
      exact absurd hnone hp
    · exact absurd hun.1 hp
    · obtain rfl : q = m := Table.eq_of_id hq hm hid
      simp only [stillHeld, Bool.and_eq_true, beq_iff_eq] at hh
      exact ⟨i, error, j, message, s, calls, hop, he, hstore, hh.1.1.symm, hh.2⟩
  | thrown i error j tenant message e hop hk he hstore hlog hcalls =>
    rw [hstore] at hm'
    obtain rfl : m' = m := Table.eq_of_id hm' hm hid
    exact absurd hnone hp

-- Effects are committed together with the publication, unless the claim was lost meanwhile.
structure CommittedWith (op : Operation) (t u : World) : Prop where
  engine : ∃ i error j message s calls, op = .proceed i error ∧
    Engine t i error j message s calls ∧ u.store = marked j message s ∧
      ((∃ m ∈ u.store.outbox.rows, m.id = message.id ∧ m.publishedAt ≠ none) ∨
        ∀ m ∈ t.store.outbox.rows, stillHeld j message m = false)

theorem committed_with (h : Turn t u op) (hlog : u.committed ≠ t.committed) :
    CommittedWith op t u := by
  cases h with
  | idle _ hsame _ => exact absurd hsame hlog
  | thrown _ _ _ _ _ _ _ _ _ _ hsame _ => exact absurd hsame hlog
  | engine i error j message s calls hop he hstore _ _ =>
    refine ⟨i, error, j, message, s, calls, hop, he, hstore, ?_⟩
    by_cases hheld : ∃ m ∈ t.store.outbox.rows, stillHeld j message m = true
    · obtain ⟨m, hm, hh⟩ := hheld
      refine Or.inl ⟨published s.clock m, ?_, ?_, Option.some_ne_none _⟩
      · rw [hstore]
        exact (Table.mem_updateWhere).mpr (Or.inr ⟨m, he.keeps hm, hh, rfl⟩)
      · simp only [stillHeld, Bool.and_eq_true, beq_iff_eq] at hh
        exact hh.1.1
    · refine Or.inr fun m hm => Bool.eq_false_of_not_eq_true fun hh => hheld ⟨m, hm, hh⟩

-- The row of a message that is published for good.
structure Done (i : ℕ) (at' : Option ℤ) (w : World) : Prop where
  row : ∃ m ∈ w.store.outbox.rows, m.id = i ∧ m.publishedAt = at' ∧ m.claimToken = none

theorem done_turn {at' : Option ℤ} (hat : at' ≠ none) (hd : Done i at' t) (h : Turn t u op) :
    Done i at' u := by
  obtain ⟨m, hm, hid, rfl, hc⟩ := hd.row
  cases h with
  | idle hidle hlog hcalls =>
    obtain ⟨m', hm', hf⟩ := hidle.rows m hm
    refine ⟨m', hm', hf.id.trans hid, hf.published, ?_⟩
    rcases hf.claim hat with h | h
    · exact h.trans hc
    · exact h
  | engine i error j message s calls hop he hstore hlog hcalls =>
    refine ⟨m, ?_, hid, rfl, hc⟩
    rw [hstore]
    refine (Table.mem_updateWhere).mpr (Or.inl ⟨he.keeps hm, ?_⟩)
    simp [stillHeld, hc]
  | thrown _ _ _ _ _ _ _ _ _ hstore _ _ => exact ⟨m, hstore ▸ hm, hid, rfl, hc⟩

end Invariant

section Runs
variable {w t : World}

theorem sound_run (hw : Opening w) (h : Reaches Operation.run Operation.Honest w t) : Sound t :=
  h.invariant (sound_of_opening hw) fun _ _ _ hs ha hc => sound_turn hs (turn_run ha hc)

theorem outbox_effects_happen_once (hw : Opening w)
    (h : Reaches Operation.run Operation.Honest w t) :
    t.committed.Nodup ∧
    (∀ (op : Operation) u, op.Honest t → Commits op.run t () u →
      (∀ m ∈ t.store.outbox.rows, ∀ m' ∈ u.store.outbox.rows, m'.id = m.id →
        m.publishedAt = none → m'.publishedAt ≠ none → PublishedWith op t u m) ∧
      (u.committed ≠ t.committed → CommittedWith op t u)) ∧
    ∀ m ∈ t.store.outbox.rows, m.publishedAt ≠ none →
      (∀ now, claimable now m = false) ∧
      ∀ u, Reaches Operation.run Operation.Honest t u → Done m.id m.publishedAt u := by
  have hs := sound_run hw h
  refine ⟨?_, fun op u ha hc => ?_, fun m hm hp => ⟨fun now => ?_, fun u hu => ?_⟩⟩
  · obtain ⟨l, hl, hsub⟩ := hs.committed
    exact hl.nodup_iff.mp (hs.distinct.sublist hsub)
  · have hturn := turn_run ha hc
    exact ⟨fun m hm m' hm' hid hnone hp => published_with hturn hm hnone hm' hid hp,
      committed_with hturn⟩
  · have hsome : m.publishedAt.isNone = false := Option.isNone_eq_false_iff.mpr
      (Option.isSome_iff_ne_none.mpr hp)
    simp [claimable, hsome]
  · exact hu.invariant ⟨m, hm, rfl, rfl, hs.unclaimed m hm hp⟩
      fun _ _ _ hd ha hc => done_turn hp hd (turn_run ha hc)

end Runs

section Scenario
open CanonicalJson (Value)

def plainly : Operation → Bool
  | .elsewhere _ => false
  | _ => true

theorem honest_of_plainly {op : Operation} {w : World} (h : plainly op = true) :
    op.Honest w := by
  cases op with
  | elsewhere => cases h
  | _ => trivial

def lodge : Tenant where
  id := 0
  isActive := true
  name := "Lodge"
  currency := "USD"
  timezone := "UTC"

def welcome (i : ℕ) : AutomationRule where
  id := i
  tenantId := 0
  trigger := "reservation.confirmed"
  isActive := true
  conditions := .null
  actions := .array [(.str "type", .str "create_task"), (.str "property_id", .str "north"),
    (.str "title", .str "Prepare a welcome")]

def confirmedStay (i : ℕ) : Outbox :=
  OutboxRecorder.message 0 "reservation.confirmed" (.array []) 0 i

theorem names_welcome : Names welcome := fun _ => rfl

theorem names_confirmedStay : Names confirmedStay := fun _ => rfl

def outbox : World where
  store :=
    { tenants := [lodge]
      outbox := Table.empty.insert confirmedStay names_confirmedStay
      rules := Table.empty.insert welcome names_welcome }

theorem opening_outbox : Opening outbox where
  distinct := List.nodup_nil
  unclaimed m hm hp := by
    obtain rfl : m = confirmedStay 0 := List.mem_singleton.mp hm
    exact absurd rfl hp
  committed := rfl
  calls := rfl
  attempts := rfl

-- The queue hands the job out twice, and both workers read the message before either publishes it.
def handedOutTwice : List Operation :=
  let j : Job := ⟨0, 0, 0⟩
  [.publishOne 0 0, .dispatch j, .start j, .start j] ++ List.replicate 3 (.proceed 0 none) ++
    List.replicate 3 (.proceed 1 none) ++ [.proceed 1 none, .proceed 0 none]

theorem welcome_is_prepared_once : ∃ t m,
    Reaches Operation.run Operation.Honest outbox t ∧
      t.committed = [⟨.task, 0, "0:0:0:task"⟩] ∧ t.committed.Nodup ∧
        m ∈ t.store.outbox.rows ∧ m.publishedAt = some 0 ∧
          ∀ u, Reaches Operation.run Operation.Honest t u → Done m.id m.publishedAt u := by
  obtain ⟨t, ht, hp⟩ : ∃ t, Reaches Operation.run Operation.Honest outbox t ∧
      (decide (t.committed = [⟨.task, 0, "0:0:0:task"⟩]) &&
        (t.store.outbox.find? 0).any fun m => decide (m.publishedAt = some 0)) = true :=
    Reaches.exists_of_execute (fun op w => @honest_of_plainly op w) handedOutTwice
      (by decide +kernel)
  simp only [Bool.and_eq_true, decide_eq_true_eq] at hp
  obtain ⟨hlog, hp⟩ := hp
  obtain ⟨m, hm, hp⟩ := (Option.any_eq_true _ _).mp hp
  have hat : m.publishedAt = some 0 := of_decide_eq_true hp
  obtain ⟨hmem, _⟩ := Table.find?_eq_some.mp hm
  obtain ⟨hnodup, _, hdone⟩ := outbox_effects_happen_once opening_outbox ht
  have hne : m.publishedAt ≠ none := by
    rw [hat]
    exact Option.some_ne_none 0
  exact ⟨t, m, ht, hlog, hnodup, hmem, hat, (hdone m hmem hne).2⟩

end Scenario
end OutboxPublication
