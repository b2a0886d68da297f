import LodgeOps.Inventory.Overbooking

namespace InHouse
open Schema Transaction Availability AllocationWorkflow Soundness Preservation
open ReservationService ProgramRequirement Overbooking

section Securing
variable {db db' : Database} {i j : ℕ} {r : Reservation} {a x : Allocation}

def inHouse (r : Reservation) : Bool := r.status == .confirmed || r.status == .checkedIn

def occupied (db : Database) (i : ℕ) : Bool := (db.reservation? i).any inHouse

def Secured (db : Database) : Prop :=
  ∀ a ∈ db.allocations.rows, occupied db a.reservationId = true → a.status ≠ .tentative

theorem occupied_eq (h : db.reservation? i = some r) : occupied db r.id = inHouse r := by
  have hid : r.id = i := (Table.find?_eq_some.mp h).2
  simp [occupied, hid, h]

theorem occupied_congr (h : db'.reservations = db.reservations) (i : ℕ) :
    occupied db' i = occupied db i := by
  unfold occupied
  rw [Database.reservation?_congr h]

theorem occupied_update {f : Reservation → Reservation} (hr : Rewrites db db' i f) :
    occupied db' j =
      if j = i then (db.reservation? j).any fun q => inHouse (f q) else occupied db j := by
  unfold occupied
  rw [hr j]
  split_ifs
  · rw [Option.any_map]
  · rfl

theorem occupied_update_same {f : Reservation → Reservation} (hr : Rewrites db db' i f)
    (hs : ∀ q, (f q).status = q.status) : occupied db' j = occupied db j := by
  have hin : (fun q => inHouse (f q)) = inHouse := funext fun q => by simp [inHouse, hs]
  rw [occupied_update hr, hin]
  split_ifs
  · rfl
  · rfl

theorem occupied_update_out {f : Reservation → Reservation} (hr : Rewrites db db' i f)
    (hs : ∀ q, inHouse (f q) = false) (hj : occupied db' j = true) :
    j ≠ i ∧ occupied db j = true := by
  rw [occupied_update hr] at hj
  split_ifs at hj with hji
  · simp [hs] at hj
  · exact ⟨hji, hj⟩

theorem Secured.transfer (h : Secured db)
    (hocc : ∀ i, occupied db' i = true → occupied db i = true)
    (hrows : ∀ a ∈ db'.allocations.rows, a.status = .tentative → occupied db' a.reservationId = true →
      ∃ b ∈ db.allocations.rows, b.reservationId = a.reservationId ∧ b.status = .tentative) :
    Secured db' := by
  intro a ha ho ht
  obtain ⟨b, hb, hres, hbt⟩ := hrows a ha ht ho
  exact h b hb (hres ▸ hocc _ ho) hbt

theorem Secured.of_same (h : Secured db) (ha : db'.allocations = db.allocations)
    (hocc : ∀ i, occupied db' i = true → occupied db i = true) : Secured db' :=
  h.transfer hocc fun a hm ht _ => ⟨a, ha ▸ hm, rfl, ht⟩

theorem Secured.store (h : Secured db) (hs : Stores db db' a)
    (hr : db'.reservations = db.reservations)
    (ht : a.status = .tentative → occupied db a.reservationId = false) : Secured db' := by
  intro c hc ho hct
  rw [occupied_congr hr] at ho
  rcases hs.rows c hc with rfl | ⟨hm, _⟩
  · rw [ht hct] at ho
    cases ho
  · exact h c hm ho hct

theorem insertAllocation_reservations {draft : Allocation}
    (hc : Commits (insertAllocation draft) db a db') : db'.reservations = db.reservations := by
  obtain ⟨_, rfl⟩ := commits_insertAllocation.mp hc
  rfl

theorem saveAllocation_reservations (hc : Commits (saveAllocation x) db () db') :
    db'.reservations = db.reservations := by
  obtain ⟨_, _, rfl⟩ := commits_saveAllocation.mp hc
  rfl

theorem saveAllocation_secured (h : Secured db)
    (ht : x.status = .tentative → occupied db x.reservationId = false)
    (hc : Commits (saveAllocation x) db () db') : Secured db' := by
  obtain ⟨hstore, _, _⟩ := saveAllocation_stores hc
  refine h.store hstore (saveAllocation_reservations hc) fun hs => ?_
  rw [filedAs_reservationId]
  exact ht ((filedAs_status _ _).symm.trans hs)

theorem release_secured (h : Secured db) (hx : x.status = .released)
    (hc : Commits (saveAllocation x) db () db') : Secured db' :=
  saveAllocation_secured h (fun ht => by simp [hx] at ht) hc

end Securing

section Workflow
variable {db db' : Database} {i : ℕ} {r : Reservation} {a : Allocation}

theorem bumpRevision_occupied (hc : Commits (bumpRevision i) db () db') (j : ℕ) :
    occupied db' j = occupied db j := by
  simp only [bumpRevision, commits_modify] at hc
  have hr : Rewrites db db' i revised := by
    subst hc
    exact fun _ => Table.find?_update
  exact occupied_update_same hr fun _ => rfl

theorem bumpRevision_secured (h : Secured db) (hc : Commits (bumpRevision i) db () db') :
    Secured db' := by
  have hocc := bumpRevision_occupied hc
  simp only [bumpRevision, commits_modify] at hc
  subst hc
  exact h.of_same rfl fun j hj => (hocc j).symm.trans hj

theorem recordChange_secured {type : ChangeType} {reason : Option String} (h : Secured db)
    (hc : Commits (recordChange r type reason) db () db') : Secured db' := by
  simp only [recordChange, commits_modify] at hc
  subst hc
  exact h.of_same rfl fun _ hj => hj

theorem recordMutation_secured {type : ChangeType} {reason : Option String} (h : Secured db)
    (hc : Commits (recordMutation r type reason) db () db') : Secured db' := by
  obtain ⟨_, t, hb, hr⟩ := commits_bind.mp hc
  exact recordChange_secured (bumpRevision_secured h hb) hr

theorem create_secured {data : AllocationData} {reason : Option String} {required : Bool}
    (h : Secured db) (hc : Commits (create i data reason required) db a db') : Secured db' := by
  simp only [create, commits_bind, commits_lockedReservation, commits_check, commits_orFail,
    commits_pure] at hc
  obtain ⟨r, _, ⟨hr, rfl⟩, _, _, ⟨_, rfl⟩, _, _, ⟨_, rfl⟩, s, _, ⟨_, rfl⟩, e, _, ⟨_, rfl⟩,
    x, t, hins, _, _, ⟨_, rfl⟩, _, _, hrec, _, rfl⟩ := hc
  obtain ⟨hstore, _, hx⟩ := insertAllocation_stores hins
  have hstatus : x.status = createdStatus r := hx ▸ filedAs_status _ _
  have hres : x.reservationId = r.id := hx ▸ filedAs_reservationId _ _
  refine recordMutation_secured (h.store hstore (insertAllocation_reservations hins) fun ht => ?_)
    hrec
  rw [hstatus, createdStatus] at ht
  split_ifs at ht with hin
  rw [hres, occupied_eq hr]
  simpa [inHouse] using hin

def UpdateKeeps (db : Database) (reservationId allocationId : ℕ) (data : AllocationData) : Prop :=
  ∀ r ∈ db.reservation? reservationId, ∀ a ∈ db.allocations.find? allocationId,
    r.status = .checkedIn → data.status.getD a.status = .released

instance (db : Database) (i j : ℕ) (data : AllocationData) : Decidable (UpdateKeeps db i j data) := by
  unfold UpdateKeeps
  infer_instance

theorem update_secured {j : ℕ} {data : AllocationData} {reason : Option String} {required : Bool}
    (h : Secured db) (hg : UpdateKeeps db i j data)
    (hc : Commits (update i j data reason required) db () db') : Secured db' := by
  simp only [update, lockedAllocation, commits_bind, commits_lockedReservation, commits_check,
    commits_get, commits_orFail, Option.filter_eq_some_iff, beq_iff_eq] at hc
  obtain ⟨r, _, ⟨hr, rfl⟩, _, _, ⟨_, rfl⟩, a, _, ⟨_, _, ⟨rfl, rfl⟩, ⟨ha, hai⟩, rfl⟩, _, _,
    ⟨_, rfl⟩, _, _, ⟨_, rfl⟩, _, t, hsave, hrec⟩ := hc
  refine recordMutation_secured (saveAllocation_secured h (fun ht => ?_) hsave) hrec
  have hres : (candidate r a data).reservationId = r.id := hai
  rw [hres, occupied_eq hr]
  simp only [candidate, updatedStatus] at ht
  split_ifs at ht with hrel hconf
  have hin : r.status ≠ .checkedIn := fun hin => hrel (hg r hr a ha hin)
  simp [inHouse, hconf, hin]

theorem release_workflow_secured {j : ℕ} {reason : Option String} {required : Bool}
    (h : Secured db) (hc : Commits (release i j reason required) db () db') : Secured db' := by
  simp only [release, commits_bind] at hc
  obtain ⟨r, _, hr, _, _, hactive, a, _, ha, _, _, hreject, _, t, hsave, hrec⟩ := hc
  obtain ⟨_, rfl⟩ := commits_lockedReservation.mp hr
  obtain ⟨_, rfl⟩ := commits_check.mp hactive
  obtain ⟨_, rfl⟩ := commits_reject.mp hreject
  simp only [lockedAllocation, commits_bind, commits_get, commits_orFail] at ha
  obtain ⟨_, _, ⟨rfl, rfl⟩, _, rfl⟩ := ha
  exact recordMutation_secured (release_secured h rfl hsave) hrec

end Workflow

section Reallocation
open ReallocateResource
variable {db db' : Database} {i : ℕ} {r : Reservation} {a : Allocation} {actorId : Option ℕ}

theorem replace_reservations {resourceId : Option ℕ}
    (hc : Commits (replace r a resourceId) db () db') : db'.reservations = db.reservations := by
  simp only [replace, replacement, commits_bind, commits_get, commits_orFail, commits_check] at hc
  obtain ⟨x, t, ⟨_, _, ⟨rfl, rfl⟩, i, _, ⟨_, rfl⟩, s, _, ⟨_, rfl⟩, hins⟩, _, rfl⟩ := hc
  exact insertAllocation_reservations hins

theorem replace_secured {resourceId : Option ℕ} (h : Secured db) (hr : db.reservation? i = some r)
    (hc : Commits (replace r a resourceId) db () db') : Secured db' := by
  simp only [replace, replacement, commits_bind, commits_get, commits_orFail, commits_check] at hc
  obtain ⟨x, t, ⟨_, _, ⟨rfl, rfl⟩, i, _, ⟨_, rfl⟩, s, _, ⟨_, rfl⟩, hins⟩, _, rfl⟩ := hc
  obtain ⟨hstore, _, hx⟩ := insertAllocation_stores hins
  refine h.store hstore (insertAllocation_reservations hins) fun ht => ?_
  rw [hx, filedAs_status] at ht
  rw [hx, filedAs_reservationId]
  have hres : occupied db r.id = inHouse r := occupied_eq hr
  simp only [replacementDraft] at ht ⊢
  split_ifs at ht with hhold
  rw [hres]
  simp [inHouse, hhold]

theorem updateHousekeeping_secured {s : Resource} {status : HousekeepingStatus} (h : Secured db)
    (hc : Commits (updateHousekeeping s status actorId) db () db') : Secured db' := by
  simp only [updateHousekeeping, commits_bind, commits_get, commits_reject, commits_set] at hc
  obtain ⟨_, _, ⟨rfl, rfl⟩, _, _, ⟨_, rfl⟩, rfl⟩ := hc
  exact h.of_same rfl fun _ hj => hj

theorem soilWhenInHouse_secured {resourceId : Option ℕ} (h : Secured db)
    (hc : Commits (soilWhenInHouse r resourceId actorId) db () db') : Secured db' := by
  simp only [soilWhenInHouse, commits_ite, commits_pure] at hc
  rcases hc with ⟨_, hc⟩ | ⟨_, _, rfl⟩
  · simp only [soil, commits_bind, commits_get, commits_orFail] at hc
    obtain ⟨_, _, ⟨rfl, rfl⟩, s, _, ⟨_, rfl⟩, hc⟩ := hc
    exact updateHousekeeping_secured h hc
  · exact h

theorem exchange_secured {target : Resource} {swap : Option (Allocation × Reservation)}
    {reason : Option String} (h : Secured db) (hr : db.reservation? i = some r)
    (ho : ∀ p ∈ swap, db.reservation? p.1.reservationId = some p.2)
    (hc : Commits (exchange r a target swap actorId reason) db () db') : Secured db' := by
  cases swap with
  | none =>
    simp only [exchange, releaseSource, commits_bind] at hc
    obtain ⟨_, t, hrelease, _, _, hreplace, _, _, hbump, _, _, hchange, hsoil⟩ := hc
    have hrt : t.reservation? i = some r :=
      (Database.reservation?_congr (saveAllocation_reservations hrelease) i).trans hr
    have h := replace_secured (release_secured h rfl hrelease) hrt hreplace
    exact soilWhenInHouse_secured (recordChange_secured (bumpRevision_secured h hbump) hchange) hsoil
  | some partner =>
    obtain ⟨other, otherReservation⟩ := partner
    simp only [exchange, releaseSource, commits_bind] at hc
    obtain ⟨_, t, hrelease, _, u, hother, _, v, hfirst, _, _, hsecond, _, _, hbump, _, _, hchange,
      _, _, hbump', _, _, hchange', _, _, hsoil, hsoil'⟩ := hc
    have hu : u.reservations = db.reservations :=
      (saveAllocation_reservations hother).trans (saveAllocation_reservations hrelease)
    have hru : u.reservation? i = some r := (Database.reservation?_congr hu i).trans hr
    have hov : v.reservation? other.reservationId = some otherReservation :=
      (Database.reservation?_congr ((replace_reservations hfirst).trans hu) _).trans
        (ho (other, otherReservation) rfl)
    have h := release_secured (release_secured h rfl hrelease) rfl hother
    have h := replace_secured (replace_secured h hru hfirst) hov hsecond
    have h := recordChange_secured (bumpRevision_secured h hbump) hchange
    have h := recordChange_secured (bumpRevision_secured h hbump') hchange'
    exact soilWhenInHouse_secured (soilWhenInHouse_secured h hsoil) hsoil'

theorem partner_found {target : Resource} {swapWith : Option ℕ}
    {swap : Option (Allocation × Reservation)}
    (hc : Commits (partner a target swapWith) db swap db') :
    ∀ p ∈ swap, db.reservation? p.1.reservationId = some p.2 := by
  cases swapWith with
  | none =>
    obtain ⟨rfl, _⟩ := commits_pure.mp hc
    simp
  | some i =>
    simp only [partner, swapPartner, commits_map, commits_bind, commits_get, commits_orFail,
      commits_reject, commits_check, commits_pure] at hc
    obtain ⟨_, ⟨_, _, ⟨rfl, rfl⟩, other, _, ⟨_, rfl⟩, o, _, ⟨ho, rfl⟩, _, _, ⟨_, rfl⟩, _, _,
      ⟨_, rfl⟩, _, _, ⟨_, rfl⟩, rfl, _⟩, rfl⟩ := hc
    intro p hp
    obtain rfl : (other, o) = p := by simpa using hp
    exact ho

theorem reallocate_secured {i j k : ℕ} {swapWith : Option ℕ} {reason : Option String}
    (h : Secured db) (hc : Commits (handle i j k actorId swapWith reason) db () db') :
    Secured db' := by
  simp only [handle, commits_bind, commits_lockedReservation, commits_check, commits_get,
    commits_orFail, commits_reject, commits_ite, commits_pure] at hc
  obtain ⟨r, _, ⟨hr, rfl⟩, _, _, ⟨_, rfl⟩, _, _, ⟨rfl, rfl⟩, a, _, ⟨_, rfl⟩, _, _, ⟨_, rfl⟩,
    target, _, ⟨_, rfl⟩, _, _, ⟨_, rfl⟩, swap, t, hswap, hc⟩ := hc
  have ho := partner_found hswap
  obtain rfl := partner_reads hswap
  rcases hc with ⟨_, _, rfl⟩ | ⟨_, hc⟩
  · exact h
  · exact exchange_secured h hr ho hc

end Reallocation

section Statuses
variable {db db' : Database} {i : ℕ} {r : Reservation}

theorem provisionOccurrence_secured {program : Program} (h : Secured db)
    (hc : Commits (provisionOccurrence r program) db () db') : Secured db' := by
  simp only [provisionOccurrence, insertOccurrence, commits_bind, commits_check, commits_get,
    commits_reject, commits_set, commits_pure] at hc
  obtain ⟨_, _, ⟨_, _, ⟨rfl, rfl⟩, _, _, ⟨_, rfl⟩, _, t, rfl, _, rfl⟩, x, u, hins, _, _, ⟨_, rfl⟩,
    hsave⟩ := hc
  obtain ⟨hstore, _, _⟩ := insertAllocation_stores hins
  obtain ⟨hstore', _, _⟩ := saveAllocation_stores hsave
  have hid : (filedAs u.catalogue (asConfirmed x)).id = x.id := filedAs_id _ _
  refine h.transfer (fun j hj => ?_) fun c hc ht _ => ?_
  · rw [occupied_congr (saveAllocation_reservations hsave),
      occupied_congr (insertAllocation_reservations hins)] at hj
    exact hj
  · rcases hstore'.rows c hc with rfl | ⟨hm, hne⟩
    · rw [filedAs_status] at ht
      cases ht
    · rcases hstore.rows c hm with rfl | ⟨hm, _⟩
      · exact absurd hid.symm hne
      · exact ⟨c, hm, rfl, ht⟩

theorem firstOrCreateDeposit_secured {type : String} {amount dueAt : ℤ} (h : Secured db)
    (hc : Commits (firstOrCreateDeposit r type amount dueAt) db () db') : Secured db' := by
  simp only [firstOrCreateDeposit, commits_bind, commits_get, commits_ite, commits_pure,
    commits_set] at hc
  obtain ⟨_, _, ⟨rfl, rfl⟩, ⟨_, _, rfl⟩ | ⟨_, rfl⟩⟩ := hc
  · exact h
  · exact h.of_same rfl fun _ hj => hj

theorem provision_secured (h : Secured db) (hc : Commits (provision i) db () db') :
    Secured db' := by
  simp only [provision, serviceOccurrence, paymentSchedule, commits_bind, commits_get,
    commits_lockedReservation] at hc
  obtain ⟨r, _, ⟨_, rfl⟩, _, t, ⟨_, _, ⟨rfl, rfl⟩, hservice⟩, _, _, ⟨rfl, rfl⟩, _, _, hfirst,
    hsecond⟩ := hc
  have h : Secured t := by
    split at hservice
    · exact (commits_pure.mp hservice).2 ▸ h
    · rcases commits_ite.mp hservice with ⟨_, hc⟩ | ⟨_, hc⟩
      · exact (commits_pure.mp hc).2 ▸ h
      · exact provisionOccurrence_secured h hc
  exact firstOrCreateDeposit_secured (firstOrCreateDeposit_secured h hfirst) hsecond

-- What a batch of saves leaves behind, whatever category the saving hook files a row under.
theorem saveAll_statuses {xs : List Allocation}
    (hc : Commits (xs.forM saveAllocation) db () db') : db'.reservations = db.reservations ∧
      ∀ c ∈ db'.allocations.rows, (∃ x ∈ xs, c.status = x.status ∧ c.reservationId = x.reservationId) ∨
        (c ∈ db.allocations.rows ∧ ∀ x ∈ xs, c.id ≠ x.id) := by
  induction xs generalizing db with
  | nil =>
    obtain rfl := commits_forM_nil.mp hc
    exact ⟨rfl, fun c hm => Or.inr ⟨hm, by simp⟩⟩
  | cons x xs ih =>
    obtain ⟨t, hx, hrest⟩ := commits_forM_cons.mp hc
    obtain ⟨hstore, _, _⟩ := saveAllocation_stores hx
    obtain ⟨he, hrows⟩ := ih hrest
    refine ⟨he.trans (saveAllocation_reservations hx), fun c hm => ?_⟩
    rcases hrows c hm with ⟨y, hy, hc⟩ | ⟨hm, hne⟩
    · exact Or.inl ⟨y, List.mem_cons_of_mem x hy, hc⟩
    · rcases hstore.rows c hm with rfl | ⟨hm, hid⟩
      · exact Or.inl ⟨x, List.mem_cons_self, filedAs_status _ _, filedAs_reservationId _ _⟩
      · refine Or.inr ⟨hm, fun y hy => ?_⟩
        rcases List.mem_cons.mp hy with rfl | hy
        · rwa [filedAs_id] at hid
        · exact hne y hy

theorem confirm_secured (h : Secured db) (hc : Commits (confirm i) db () db') : Secured db' := by
  simp only [confirm, commits_bind, commits_lockedReservation, commits_ite, commits_reject,
    commits_get, commits_check, commits_modify] at hc
  obtain ⟨r, _, ⟨hr, rfl⟩, ⟨_, hc⟩ | ⟨_, hc⟩⟩ := hc
  · exact provision_secured h hc
  · obtain ⟨_, _, ⟨_, rfl⟩, _, _, ⟨rfl, rfl⟩, _, _, ⟨_, rfl⟩, _, _, ⟨_, rfl⟩, _, _, ⟨_, rfl⟩, _, t,
      hsave, _, u, hu, hprovision⟩ := hc
    obtain ⟨ht, hrows⟩ := saveAll_statuses hsave
    have hrewrites : Rewrites t u r.id confirmed := by
      subst hu
      exact fun _ => Table.find?_update
    have hallocations : u.allocations = t.allocations := by rw [← hu]
    refine provision_secured (fun c hm ho htent => ?_) hprovision
    rw [hallocations] at hm
    rcases hrows c hm with ⟨x, hx, hxs, _⟩ | ⟨hm, hne⟩
    · obtain ⟨a, _, rfl⟩ := List.mem_map.mp hx
      rw [hxs] at htent
      cases htent
    · by_cases hres : c.reservationId = r.id
      · have hs : c ∈ standing db r := mem_standing.mpr ⟨hm, hres, by simp [htent]⟩
        exact hne (asConfirmed c) (List.mem_map_of_mem hs) rfl
      · rw [occupied_update hrewrites, if_neg hres, occupied_congr ht] at ho
        exact h c hm ho htent

theorem moveTo_secured {next : ReservationStatus} {minutes : Option ℤ} (h : Secured db)
    (hin : occupied db r.id = true ∨ (next ≠ .confirmed ∧ next ≠ .checkedIn))
    (hc : Commits (moveTo r next minutes) db () db') : Secured db' := by
  obtain ⟨hr, he⟩ := moveTo_rewrites hc
  refine h.of_same (by rw [he]) fun j hj => ?_
  by_cases hjr : j = r.id
  · rcases hin with ho | ⟨hconf, hcheck⟩
    · exact hjr ▸ ho
    · have hout : ∀ q, inHouse (moved db next minutes q) = false := fun q => by
        simp [inHouse, moved, hconf, hcheck]
      exact (occupied_update_out hr hout hj).2
  · rw [occupied_update hr, if_neg hjr] at hj
    exact hj

theorem hold_secured {minutes : Option ℤ} (h : Secured db)
    (hc : Commits (hold r minutes) db () db') : Secured db' := by
  simp only [hold, commits_bind, commits_get, commits_check] at hc
  obtain ⟨_, _, ⟨rfl, rfl⟩, _, _, ⟨_, rfl⟩, _, _, ⟨_, rfl⟩, _, t, hmove, hsave⟩ := hc
  obtain ⟨hr, he⟩ := moveTo_rewrites hmove
  obtain ⟨hd, hrows⟩ := saveAll_statuses hsave
  have hout : ∀ q, inHouse (moved db .hold minutes q) = false := fun q => by simp [inHouse, moved]
  have hocc : ∀ j, occupied db' j = true → j ≠ r.id ∧ occupied db j = true := fun j hj => by
    rw [occupied_congr hd] at hj
    exact occupied_update_out hr hout hj
  refine h.transfer (fun j hj => (hocc j hj).2) fun c hm ht ho => ?_
  rcases hrows c hm with ⟨x, hx, _, hxr⟩ | ⟨hm, _⟩
  · obtain ⟨a, ha, rfl⟩ := List.mem_map.mp hx
    exact absurd (hxr.trans (mem_standing.mp ha).2.1) (hocc _ ho).1
  · rw [he] at hm
    exact ⟨c, hm, rfl, ht⟩

theorem changeStatus_secured {next : ReservationStatus} {minutes : Option ℤ} {actorId : Option ℕ}
    (h : Secured db) (hn : next ≠ .confirmed)
    (hc : Commits (changeStatus i next minutes actorId) db () db') : Secured db' := by
  simp only [changeStatus, commits_bind, commits_lockedReservation, commits_ite, commits_reject,
    commits_pure] at hc
  obtain ⟨r, _, ⟨hr, rfl⟩, ⟨_, _, rfl⟩ | ⟨_, _, _, ⟨hallowed, rfl⟩, hc⟩⟩ := hc
  · exact h
  · cases next with
    | hold => exact hold_secured h hc
    | checkedOut =>
      simp only [checkOut, commits_bind, commits_get] at hc
      obtain ⟨_, t, hmove, _, _, ⟨rfl, rfl⟩, hsoil⟩ := hc
      exact forM_invariant (fun _ _ _ _ hs hc => updateHousekeeping_secured hs hc)
        (moveTo_secured h (Or.inr (by decide)) hmove) hsoil
    | draft => exact moveTo_secured h (Or.inr (by decide)) hc
    | confirmed => exact absurd rfl hn
    | checkedIn =>
      have hconf : r.status = .confirmed := by
        cases hs : r.status <;> simp [hs, ReservationStatus.canTransitionTo] at hallowed
        rfl
      exact moveTo_secured h (Or.inl (by rw [occupied_eq hr]; simp [inHouse, hconf])) hc
    | cancelled => exact moveTo_secured h (Or.inr (by decide)) hc
    | noShow => exact moveTo_secured h (Or.inr (by decide)) hc

end Statuses

section Ends
variable {db db' : Database} {i : ℕ}

theorem withdraw_secured {p : Allocation → Bool} (h : Secured db)
    (ha : db'.allocations = db.allocations.updateWhere p fun c => { c with status := .released })
    (hocc : ∀ j, occupied db' j = true → occupied db j = true) : Secured db' := by
  refine h.transfer hocc fun a hm ht _ => ?_
  obtain ⟨c, hc, _, hrel | rfl⟩ := updateWhere_released (ha ▸ hm)
  · rw [hrel] at ht
    cases ht
  · exact ⟨a, hc, rfl, ht⟩

theorem close_secured {target : ReservationStatus} {reason : String} {actorId : Option ℕ}
    (h : Secured db)
    (hc : Commits (CloseReservationWithPolicy.handle i target reason actorId) db () db') :
    Secured db' := by
  obtain ⟨htarget, r, _, ⟨_, rfl⟩ | hcl⟩ := CloseReservationWithPolicy.commits_handle hc
  · exact h
  obtain ⟨t, hfolio, hw⟩ := hcl.writes
  have ht := adjustFolio_frame hfolio
  have hr : Rewrites t db' r.id (CloseReservationWithPolicy.closed target (trim reason)) := by
    subst hw
    exact fun _ => Table.find?_update
  have ha : db'.allocations =
      CloseReservationWithPolicy.releasedOf r.id db.allocations := by rw [hw, ht]; rfl
  have htr : t.reservations = db.reservations := by rw [ht]
  have hout : ∀ q, inHouse (CloseReservationWithPolicy.closed target (trim reason) q) = false := by
    intro q
    rcases htarget with rfl | rfl
    · simp [inHouse, CloseReservationWithPolicy.closed]
    · simp [inHouse, CloseReservationWithPolicy.closed]
  refine withdraw_secured h ha fun j hj => ?_
  rw [← occupied_congr htr]
  exact (occupied_update_out hr hout hj).2

theorem expireHold_secured (h : Secured db) (hc : Commits (expireHold i) db () db') :
    Secured db' := by
  simp only [expireHold, commits_bind, commits_get] at hc
  obtain ⟨_, _, ⟨rfl, rfl⟩, hc⟩ := hc
  split at hc
  · exact (commits_pure.mp hc).2 ▸ h
  · rcases commits_ite.mp hc with ⟨_, hc⟩ | ⟨_, hc⟩
    · exact (commits_pure.mp hc).2 ▸ h
    · have hc := commits_set.mp hc
      have hr : Rewrites db db' i lapsed := by
        subst hc
        exact fun _ => Table.find?_update
      have ha : db'.allocations = expiredOf i db.allocations := by rw [← hc]
      exact withdraw_secured h ha fun j hj => (occupied_update_out hr (fun _ => rfl) hj).2

theorem expireDueHolds_secured {batch : ℕ} (h : Secured db)
    (hc : Commits (expireDueHolds batch) db () db') : Secured db' := by
  simp only [expireDueHolds, commits_bind, commits_get] at hc
  obtain ⟨_, _, ⟨rfl, rfl⟩, hc⟩ := hc
  exact forM_invariant (fun _ _ _ _ hs hc => expireHold_secured hs hc) h hc

theorem transition_secured {next : ReservationStatus} {minutes : Option ℤ} {reason : String}
    {actorId : Option ℕ} (h : Secured db)
    (hc : Commits (transition i next minutes reason actorId) db () db') : Secured db' := by
  unfold transition at hc
  split at hc
  · exact confirm_secured h hc
  · exact close_secured h hc
  · exact close_secured h hc
  · next hconf _ _ => exact changeStatus_secured h hconf hc

end Ends

section Runs
variable {db db' : Database}

def Keeps (op : Operation) (db : Database) : Prop :=
  match op with
  | .update i j data _ _ => UpdateKeeps db i j data
  | _ => True

instance (op : Operation) (db : Database) : Decidable (Keeps op db) :=
  match op with
  | .update i j data _ _ => inferInstanceAs (Decidable (UpdateKeeps db i j data))
  | .tick .. | .create .. | .release .. | .reallocate .. | .confirm .. | .transition ..
  | .expireDueHolds .. => .isTrue trivial

theorem run_secured {op : Operation} (h : Secured db) (ha : Keeps op db)
    (hc : Commits op.run db () db') : Secured db' := by
  cases op with
  | tick seconds =>
    have hc : { db with clock := db.clock + seconds } = db' := commits_modify.mp hc
    subst hc
    exact h.of_same rfl fun _ hj => hj
  | create i data reason required =>
    obtain ⟨a, t, hcreate, ht⟩ := commits_bind.mp hc
    obtain rfl := (commits_pure.mp ht).2
    exact create_secured h hcreate
  | update i j data reason required => exact update_secured h ha hc
  | release i j reason required => exact release_workflow_secured h hc
  | reallocate i j k actorId swapWith reason => exact reallocate_secured h hc
  | confirm i => exact confirm_secured h hc
  | transition i next holdMinutes reason actorId => exact transition_secured h hc
  | expireDueHolds batch => exact expireDueHolds_secured h hc

structure NeverFreed (db : Database) : Prop where
  confirmed : ∀ a ∈ db.allocations.rows, ∀ r ∈ db.reservation? a.reservationId,
    r.status = .confirmed ∨ r.status = .checkedIn → a.status ≠ .released → a.status = .confirmed
  counted : ∀ a ∈ db.allocations.rows, ∀ r ∈ db.reservation? a.reservationId,
    r.status = .confirmed ∨ r.status = .checkedIn → a.status ≠ .released →
      ∀ x, activeAllocationScope db x a = true

theorem secured_of_neverFreed (h : NeverFreed db) : Secured db := by
  intro a ha ho ht
  obtain ⟨r, hr, hin⟩ := (Option.any_eq_true _ _).mp ho
  simp only [inHouse, Bool.or_eq_true, beq_iff_eq] at hin
  have hs := h.confirmed a ha r hr hin (by simp [ht])
  rw [ht] at hs
  cases hs

theorem neverFreed_of_secured (h : Secured db) : NeverFreed db := by
  have hs : ∀ a ∈ db.allocations.rows, ∀ r ∈ db.reservation? a.reservationId,
      r.status = .confirmed ∨ r.status = .checkedIn → a.status ≠ .released →
        a.status = .confirmed := by
    intro a ha r hr hin hrel
    have ho : occupied db a.reservationId = true :=
      (Option.any_eq_true _ _).mpr ⟨r, hr, by simpa [inHouse] using hin⟩
    cases hst : a.status with
    | tentative => exact absurd hst (h a ha ho)
    | confirmed => rfl
    | released => exact absurd hst hrel
  refine ⟨hs, fun a ha r hr hin hrel x => ?_⟩
  simp [activeAllocationScope, active, hs a ha r hr hin hrel]

theorem checked_runs_keep_rooms (h0 : NeverFreed db)
    (h : Reaches Operation.run Keeps db db') : NeverFreed db' :=
  neverFreed_of_secured
    (h.invariant (secured_of_neverFreed h0) fun _ _ _ hs ha hc => run_secured hs ha hc)

theorem neverFreed_of_empty (h : db.allocations.rows = []) : NeverFreed db :=
  ⟨by simp [h], by simp [h]⟩

def freed (db : Database) : Bool :=
  db.allocations.rows.any fun a => a.status == .tentative && occupied db a.reservationId

theorem not_neverFreed_of_freed (h : freed db = true) : ¬ NeverFreed db := by
  intro hn
  obtain ⟨a, ha, hb⟩ := List.any_eq_true.mp h
  simp only [Bool.and_eq_true, beq_iff_eq] at hb
  exact secured_of_neverFreed hn a ha hb.2 hb.1

def moreGuests : AllocationData where
  quantity := some 2

theorem checked_stay_keeps_cabin : ∃ db',
    Reaches Operation.run Keeps opening db' ∧
      (db'.allocations.rows.any fun a => a.quantity == 2 && occupied db' a.reservationId) = true ∧
      NeverFreed db' := by
  obtain ⟨db', hr, hp⟩ : ∃ t, Reaches Operation.run Keeps opening t ∧
      (t.allocations.rows.any fun a => a.quantity == 2 && occupied t a.reservationId) = true :=
    Reaches.exists_of_execute (fun _ _ => of_decide_eq_true)
      [.create 0 (assigned 0 1000 2000) none false, .confirm 0,
        .update 0 0 moreGuests none false, .transition 0 .checkedIn none "" none]
      (by decide +kernel)
  exact ⟨db', hr, hp, checked_runs_keep_rooms (neverFreed_of_empty rfl) hr⟩

-- update lists Confirmed alone, so any edit of a guest in house makes the allocation tentative.
theorem in_house_update_frees_cabin : NeverFreed opening ∧
    ∃ db', Reaches Operation.run (fun _ _ => True) opening db' ∧ ¬ NeverFreed db' := by
  obtain ⟨db', hr, hp⟩ : ∃ t, Reaches Operation.run (fun _ _ => True) opening t ∧
      freed t = true :=
    Reaches.exists_of_run (Overbooking.inHouse 0 0 ++ [.update 0 0 moreGuests none true]) (by decide +kernel)
  exact ⟨neverFreed_of_empty rfl, db', hr, not_neverFreed_of_freed hp⟩

end Runs
end InHouse
