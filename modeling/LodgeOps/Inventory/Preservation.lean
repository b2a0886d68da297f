import LodgeOps.Inventory.Soundness
import LodgeOps.Inventory.ReservationService

namespace Preservation
open Schema Transaction Occupancy Availability AllocationWorkflow Clearance Soundness
open ReservationService ProgramRequirement

section Frames
variable {db db' : Database} {i j : ℕ} {r : Reservation}

theorem liveHold_eq (h : db.reservation? i = some r) : liveHold db r.id = holdIsLive db r := by
  have hid : r.id = i := (Table.find?_eq_some.mp h).2
  simp [liveHold, hid, h]

theorem holdIsLive_eq : holdIsLive db r = (r.status == .hold && holdIsActive db r) := rfl

section Update
variable {f : Reservation → Reservation}

def Rewrites (db db' : Database) (i : ℕ) (f : Reservation → Reservation) : Prop :=
  ∀ j, db'.reservation? j = if j = i then (db.reservation? j).map f else db.reservation? j

theorem holdIsLive_congr (hc : db'.clock = db.clock) : holdIsLive db' r = holdIsLive db r := by
  have hf : db'.isFuture = db.isFuture := by
    funext t
    simp [Database.isFuture, hc]
  simp [holdIsLive, hf]

theorem liveHold_update (hr : Rewrites db db' i f) (hc : db'.clock = db.clock) :
    liveHold db' j =
      if j = i then (db.reservation? j).any fun q => holdIsLive db (f q) else liveHold db j := by
  have hlive : holdIsLive db' = holdIsLive db := funext fun _ => holdIsLive_congr hc
  unfold liveHold
  rw [hr j, hlive]
  split_ifs
  · rw [Option.any_map]
  · rfl

theorem liveHold_update_same (hr : Rewrites db db' i f) (hc : db'.clock = db.clock)
    (hs : ∀ q, (f q).status = q.status ∧ (f q).holdExpiresAt = q.holdExpiresAt) :
    liveHold db' j = liveHold db j := by
  rw [liveHold_update hr hc]
  split_ifs
  · cases hr : db.reservation? j with
    | none => simp [liveHold, hr]
    | some q => simp [liveHold, hr, holdIsLive, hs q]
  · rfl

theorem liveHold_update_dead (hr : Rewrites db db' i f) (hc : db'.clock = db.clock)
    (hs : ∀ q, (f q).status ≠ .hold) (hl : liveHold db' j = true) :
    j ≠ i ∧ liveHold db j = true := by
  rw [liveHold_update hr hc] at hl
  split_ifs at hl with hj
  · obtain ⟨q, _, hq⟩ := (Option.any_eq_true _ _).mp hl
    simp [holdIsLive, hs q] at hq
  · exact ⟨hj, hl⟩

end Update

theorem bumpRevision_sound (h : Sound db) (hc : Commits (bumpRevision i) db () db') :
    Sound db' := by
  simp only [bumpRevision, commits_modify] at hc
  have hr : Rewrites db db' i revised := by
    subst hc
    exact fun _ => Table.find?_update
  subst hc
  refine h.of_same rfl rfl fun j hl => ?_
  rwa [liveHold_update_same hr rfl fun _ => ⟨rfl, rfl⟩] at hl

theorem recordChange_sound {type : ChangeType} {reason : Option String} (h : Sound db)
    (hc : Commits (recordChange r type reason) db () db') : Sound db' := by
  simp only [recordChange, commits_modify] at hc
  subst hc
  exact h.of_same rfl rfl fun _ hl => hl

theorem recordMutation_sound {type : ChangeType} {reason : Option String} (h : Sound db)
    (hc : Commits (recordMutation r type reason) db () db') : Sound db' := by
  obtain ⟨_, t, hb, hr⟩ := commits_bind.mp hc
  exact recordChange_sound (bumpRevision_sound h hb) hr

end Frames

section Workflow
variable {db db' : Database} {i : ℕ} {r : Reservation} {a x : Allocation}

theorem reservesCapacity_congr {s : AllocationStatus} (h : db'.clock = db.clock) :
    reservesCapacity db' r s = reservesCapacity db r s := by
  have hl := holdIsLive_congr (r := r) h
  rw [holdIsLive_eq, holdIsLive_eq] at hl
  simp only [reservesCapacity, hl]

theorem reserves_of_active (hr : db.reservation? i = some r) (hx : x.reservationId = r.id)
    (hs : x.status = .confirmed → r.status = .confirmed) (hact : active db x = true) :
    reservesCapacity db r x.status = true := by
  simp only [active_eq, hx, liveHold_eq hr, Bool.or_eq_true, Bool.and_eq_true, beq_iff_eq] at hact
  rcases hact with hc | ⟨ht, hl⟩
  · simp [reservesCapacity, hc, hs hc]
  · rw [holdIsLive_eq] at hl
    simp [reservesCapacity, ht, hl]

def Accepts (db : Database) (a : Allocation) : Prop :=
  assertAvailable db (filedAs db.catalogue a) = .ok ()

instance (db : Database) (a : Allocation) : Decidable (Accepts db a) :=
  match h : assertAvailable db (filedAs db.catalogue a) with
  | .ok () => isTrue h
  | .error _ => isFalse fun he => by simp [Accepts, h] at he

def draftedRow (db : Database) (r : Reservation) (data : AllocationData) (s e : ℤ) : Allocation :=
  { drafted r data s e with id := db.allocations.next }

def CreateChecked (db : Database) (reservationId : ℕ) (data : AllocationData) : Prop :=
  ∀ r ∈ db.reservation? reservationId, r.status = .checkedIn →
    Accepts db (draftedRow db r data (data.startsAt.getD 0) (data.endsAt.getD 0))

instance (db : Database) (i : ℕ) (data : AllocationData) : Decidable (CreateChecked db i data) := by
  unfold CreateChecked
  infer_instance

theorem create_sound {data : AllocationData} {reason : Option String} {required : Bool}
    (h : Sound db) (hg : CreateChecked db i data)
    (hc : Commits (create i data reason required) db a db') : Sound db' := by
  simp only [create, commits_bind, commits_lockedReservation, commits_check, commits_orFail,
    commits_pure] at hc
  obtain ⟨r, _, ⟨hr, rfl⟩, _, _, ⟨_, rfl⟩, _, _, ⟨_, rfl⟩, s, _, ⟨hs, rfl⟩, e, _, ⟨he, rfl⟩,
    x, t, hins, _, _, ⟨hok, rfl⟩, _, _, hrec, _, rfl⟩ := hc
  obtain ⟨hstore, hf, hx⟩ := insertAllocation_stores hins
  have hstatus : x.status = createdStatus r := hx ▸ filedAs_status _ _
  have hres : x.reservationId = r.id := hx ▸ filedAs_reservationId _ _
  refine recordMutation_sound (h.store hstore hf fun hact => ?_) hrec
  by_cases hin : r.status = .checkedIn
  · have hg := hg r hr hin
    simp only [hs, he, Option.getD_some] at hg
    left
    rw [Accepts] at hg
    rw [hx]
    exact cleared_of_accepted hg (hx ▸ hf)
  · have hact : active db x = true := active_congr (hstore.live _) ▸ hact
    have hconfirmed : x.status = .confirmed → r.status = .confirmed := by
      intro hc
      rw [hstatus, createdStatus] at hc
      split_ifs at hc with ho
      exact ho.resolve_right hin
    have hreserves := reserves_of_active hr hres hconfirmed hact
    rw [reservesCapacity_congr hstore.clock, if_pos hreserves] at hok
    exact Or.inr (cleared_of_accepted hok (hstore.catalogue ▸ hf))

def UpdateChecked (db : Database) (reservationId allocationId : ℕ) (data : AllocationData) : Prop :=
  ∀ r ∈ db.reservation? reservationId, ∀ a ∈ db.allocations.find? allocationId,
    (candidate r a data).requestedCategoryId = none →
      reservesCapacity db r (candidate r a data).status = true → Accepts db (candidate r a data)

instance (db : Database) (i j : ℕ) (data : AllocationData) :
    Decidable (UpdateChecked db i j data) := by
  unfold UpdateChecked
  infer_instance

theorem update_sound {j : ℕ} {data : AllocationData} {reason : Option String} {required : Bool}
    (h : Sound db) (hg : UpdateChecked db i j data)
    (hc : Commits (update i j data reason required) db () db') : Sound db' := by
  simp only [update, lockedAllocation, commits_bind, commits_lockedReservation, commits_check,
    commits_get, commits_orFail, Option.filter_eq_some_iff, beq_iff_eq] at hc
  obtain ⟨r, _, ⟨hr, rfl⟩, _, _, ⟨_, rfl⟩, a, _, ⟨_, _, ⟨rfl, rfl⟩, ⟨ha, hai⟩, rfl⟩, _, _,
    ⟨_, rfl⟩, _, _, ⟨hok, rfl⟩, _, t, hsave, hrec⟩ := hc
  obtain ⟨hstore, hf, hsame⟩ := saveAllocation_stores hsave
  have hres : (filedAs db.catalogue (candidate r a data)).reservationId = r.id := by
    rw [filedAs_reservationId]
    exact hai
  have hstatus := filedAs_status db.catalogue (candidate r a data)
  refine recordMutation_sound (h.store hstore hf fun hact => Or.inl ?_) hrec
  have hconfirmed : (filedAs db.catalogue (candidate r a data)).status = .confirmed →
      r.status = .confirmed := by
    intro hc
    rw [hstatus] at hc
    simp only [candidate, updatedStatus] at hc
    split_ifs at hc with _ hr
    exact hr
  have hreserves := reserves_of_active hr hres hconfirmed (active_congr (hstore.live _) ▸ hact)
  rw [hstatus] at hreserves
  refine cleared_of_accepted ?_ hf
  by_cases hn : (candidate r a data).requestedCategoryId = none
  · exact hg r hr a ha hn hreserves
  · rw [if_pos hreserves] at hok
    rwa [hsame hn]

theorem release_workflow_sound {j : ℕ} {reason : Option String} {required : Bool} (h : Sound db)
    (hc : Commits (release i j reason required) db () db') : Sound db' := by
  simp only [release, commits_bind] at hc
  obtain ⟨r, _, hr, _, _, hactive, a, _, ha, _, _, hreject, _, t, hsave, hrec⟩ := hc
  obtain ⟨_, rfl⟩ := commits_lockedReservation.mp hr
  obtain ⟨_, rfl⟩ := commits_check.mp hactive
  obtain ⟨_, rfl⟩ := commits_reject.mp hreject
  simp only [lockedAllocation, commits_bind, commits_get, commits_orFail] at ha
  obtain ⟨_, _, ⟨rfl, rfl⟩, _, rfl⟩ := ha
  exact recordMutation_sound (release_sound h rfl hsave) hrec

end Workflow

section Reallocation
open ReallocateResource
variable {db db' : Database} {r : Reservation} {a : Allocation} {actorId : Option ℕ}

theorem replace_sound {resourceId : Option ℕ} (h : Sound db)
    (hc : Commits (replace r a resourceId) db () db') : Sound db' := by
  simp only [replace, replacement, commits_bind, commits_get, commits_orFail, commits_check] at hc
  obtain ⟨x, t, ⟨_, _, ⟨rfl, rfl⟩, i, _, ⟨_, rfl⟩, s, _, ⟨_, rfl⟩, hins⟩, hok, rfl⟩ := hc
  obtain ⟨hstore, hf, _⟩ := insertAllocation_stores hins
  exact h.store hstore hf fun _ => Or.inr (cleared_of_accepted hok (hstore.catalogue ▸ hf))

theorem updateHousekeeping_sound {s : Resource} {status : HousekeepingStatus} (h : Sound db)
    (hc : Commits (updateHousekeeping s status actorId) db () db') : Sound db' := by
  simp only [updateHousekeeping, commits_bind, commits_get, commits_reject, commits_set] at hc
  obtain ⟨_, _, ⟨rfl, rfl⟩, _, _, ⟨_, rfl⟩, rfl⟩ := hc
  exact h.of_same rfl rfl fun _ hl => hl

theorem soilWhenInHouse_sound {resourceId : Option ℕ} (h : Sound db)
    (hc : Commits (soilWhenInHouse r resourceId actorId) db () db') : Sound db' := by
  simp only [soilWhenInHouse, commits_ite, commits_pure] at hc
  rcases hc with ⟨_, hc⟩ | ⟨_, _, rfl⟩
  · simp only [soil, commits_bind, commits_get, commits_orFail] at hc
    obtain ⟨_, _, ⟨rfl, rfl⟩, s, _, ⟨_, rfl⟩, hc⟩ := hc
    exact updateHousekeeping_sound h hc
  · exact h

theorem exchange_sound {target : Resource} {swap : Option (Allocation × Reservation)}
    {reason : Option String} (h : Sound db)
    (hc : Commits (exchange r a target swap actorId reason) db () db') : Sound db' := by
  cases swap with
  | none =>
    simp only [exchange, releaseSource, commits_bind] at hc
    obtain ⟨_, _, hrelease, _, _, hreplace, _, _, hbump, _, _, hchange, hsoil⟩ := hc
    have h := replace_sound (release_sound h rfl hrelease) hreplace
    exact soilWhenInHouse_sound (recordChange_sound (bumpRevision_sound h hbump) hchange) hsoil
  | some partner =>
    obtain ⟨other, otherReservation⟩ := partner
    simp only [exchange, releaseSource, commits_bind] at hc
    obtain ⟨_, _, hrelease, _, _, hother, _, _, hfirst, _, _, hsecond, _, _, hbump, _, _, hchange,
      _, _, hbump', _, _, hchange', _, _, hsoil, hsoil'⟩ := hc
    have h := release_sound (release_sound h rfl hrelease) rfl hother
    have h := replace_sound (replace_sound h hfirst) hsecond
    have h := recordChange_sound (bumpRevision_sound h hbump) hchange
    have h := recordChange_sound (bumpRevision_sound h hbump') hchange'
    exact soilWhenInHouse_sound (soilWhenInHouse_sound h hsoil) hsoil'

theorem partner_reads {target : Resource} {swapWith : Option ℕ}
    {swap : Option (Allocation × Reservation)}
    (hc : Commits (partner a target swapWith) db swap db') : db = db' := by
  cases swapWith with
  | none => exact (commits_pure.mp hc).2
  | some i =>
    simp only [partner, swapPartner, commits_map, commits_bind, commits_get, commits_orFail,
      commits_reject, commits_check, commits_pure] at hc
    obtain ⟨_, ⟨_, _, ⟨rfl, rfl⟩, _, _, ⟨_, rfl⟩, _, _, ⟨_, rfl⟩, _, _, ⟨_, rfl⟩, _, _, ⟨_, rfl⟩,
      _, _, ⟨_, rfl⟩, _, rfl⟩, _⟩ := hc
    rfl

theorem reallocate_sound {i j k : ℕ} {swapWith : Option ℕ} {reason : Option String} (h : Sound db)
    (hc : Commits (handle i j k actorId swapWith reason) db () db') : Sound db' := by
  simp only [handle, commits_bind, commits_lockedReservation, commits_check, commits_get,
    commits_orFail, commits_reject, commits_ite, commits_pure] at hc
  obtain ⟨r, _, ⟨_, rfl⟩, _, _, ⟨_, rfl⟩, _, _, ⟨rfl, rfl⟩, a, _, ⟨_, rfl⟩, _, _, ⟨_, rfl⟩,
    target, _, ⟨_, rfl⟩, _, _, ⟨_, rfl⟩, swap, t, hswap, hc⟩ := hc
  obtain rfl := partner_reads hswap
  rcases hc with ⟨_, _, rfl⟩ | ⟨_, hc⟩
  · exact h
  · exact exchange_sound h hc

end Reallocation

section Statuses
variable {db db' : Database} {i : ℕ} {r : Reservation}

theorem mem_standing {a : Allocation} : a ∈ standing db r ↔
    a ∈ db.allocations.rows ∧ a.reservationId = r.id ∧ a.status ≠ .released := by
  simp [standing, Database.mem_allocationsOf, and_assoc]

theorem sameSpan_asConfirmed (a : Allocation) : SameSpan a (asConfirmed a) :=
  ⟨rfl, rfl, rfl, rfl, rfl, rfl⟩

theorem sameSpan_asTentative (a : Allocation) : SameSpan a (asTentative a) :=
  ⟨rfl, rfl, rfl, rfl, rfl, rfl⟩

theorem promoteStanding {f : Allocation → Allocation} (hf : ∀ a, SameSpan a (f a))
    (hres : ∀ a, (f a).reservationId = a.reservationId) (h : Sound db)
    (hk : db'.catalogue = db.catalogue)
    (hlive : ∀ j, j ≠ r.id → liveHold db' j = liveHold db j)
    (hrows : ∀ c ∈ db'.allocations.rows, c ∈ (standing db r).map f ∨
      (c ∈ db.allocations.rows ∧ ∀ x ∈ (standing db r).map f, c.id ≠ x.id))
    (hok : ∀ a ∈ standing db r, ∃ z, assertAvailable db z = .ok () ∧ z.reservationId = r.id ∧
      SameSpan z (f a)) : Sound db' := by
  refine h.promote hk hlive hrows ?_ ?_ ?_
  · intro x hx
    obtain ⟨a, ha, rfl⟩ := List.mem_map.mp hx
    obtain ⟨hm, hr, hs⟩ := mem_standing.mp ha
    exact ⟨a, hm, hr, hs, hf a, (hres a).trans hr⟩
  · intro y hy hr hs
    exact ⟨f y, List.mem_map_of_mem (mem_standing.mpr ⟨hy, hr, hs⟩), (hf y).id⟩
  · intro x hx
    obtain ⟨a, ha, rfl⟩ := List.mem_map.mp hx
    exact hok a ha

theorem filed_map {f : Allocation → Allocation} (hf : ∀ a, SameSpan a (f a)) (h : Sound db) :
    ∀ x ∈ (standing db r).map f, Filed db.catalogue x := by
  intro x hx
  obtain ⟨a, ha, rfl⟩ := List.mem_map.mp hx
  exact (filed_congr (hf a)).mp (h.filed a (mem_standing.mp ha).1)

theorem insertOccurrence_sound {program : Program} {s e : ℤ} {n k : ℕ} (h : Sound db)
    (hc : Commits (insertOccurrence program r s e n) db k db') : Sound db' := by
  simp only [insertOccurrence, commits_bind, commits_get, commits_reject, commits_set,
    commits_pure] at hc
  obtain ⟨_, _, ⟨rfl, rfl⟩, _, _, ⟨_, rfl⟩, _, _, rfl, _, rfl⟩ := hc
  exact h.of_same rfl rfl fun _ hl => hl

theorem provisionOccurrence_sound {program : Program} (h : Sound db)
    (hc : Commits (provisionOccurrence r program) db () db') : Sound db' := by
  simp only [provisionOccurrence, commits_bind, commits_check] at hc
  obtain ⟨_, t, hocc, x, u, hins, _, _, ⟨_, rfl⟩, hsave⟩ := hc
  obtain ⟨hstore, hf, hx⟩ := insertAllocation_stores hins
  rw [filedAs_of_no_resource rfl] at hx
  have hresource : (asConfirmed x).resourceId = none := by rw [hx]; rfl
  have hcategory : (asConfirmed x).requestedCategoryId = none := by rw [hx]; rfl
  have h := (insertOccurrence_sound h hocc).store hstore hf fun _ =>
    Or.inl (cleared_of_service hresource hcategory)
  obtain ⟨hstore, hf, _⟩ := saveAllocation_stores hsave
  rw [filedAs_of_no_resource hresource] at hstore hf
  exact h.store hstore hf fun _ => Or.inl (cleared_of_service hresource hcategory)

theorem firstOrCreateDeposit_sound {type : String} {amount dueAt : ℤ} (h : Sound db)
    (hc : Commits (firstOrCreateDeposit r type amount dueAt) db () db') : Sound db' := by
  simp only [firstOrCreateDeposit, commits_bind, commits_get, commits_ite, commits_pure,
    commits_set] at hc
  obtain ⟨_, _, ⟨rfl, rfl⟩, ⟨_, _, rfl⟩ | ⟨_, rfl⟩⟩ := hc
  · exact h
  · exact h.of_same rfl rfl fun _ hl => hl

theorem provision_sound (h : Sound db) (hc : Commits (provision i) db () db') : Sound db' := by
  simp only [provision, serviceOccurrence, paymentSchedule, commits_bind, commits_get,
    commits_lockedReservation] at hc
  obtain ⟨r, _, ⟨_, rfl⟩, _, t, ⟨_, _, ⟨rfl, rfl⟩, hservice⟩, _, _, ⟨rfl, rfl⟩, _, _, hfirst,
    hsecond⟩ := hc
  have h : Sound t := by
    split at hservice
    · exact (commits_pure.mp hservice).2 ▸ h
    · rcases commits_ite.mp hservice with ⟨_, hc⟩ | ⟨_, hc⟩
      · exact (commits_pure.mp hc).2 ▸ h
      · exact provisionOccurrence_sound h hc
  exact firstOrCreateDeposit_sound (firstOrCreateDeposit_sound h hfirst) hsecond

theorem confirm_sound (h : Sound db) (hc : Commits (confirm i) db () db') : Sound db' := by
  simp only [confirm, commits_bind, commits_lockedReservation, commits_ite, commits_reject,
    commits_get, commits_check, commits_modify, forM_eq_ok] at hc
  obtain ⟨r, _, ⟨hr, rfl⟩, ⟨_, hc⟩ | ⟨_, hc⟩⟩ := hc
  · exact provision_sound h hc
  · obtain ⟨_, _, ⟨_, rfl⟩, _, _, ⟨rfl, rfl⟩, _, _, ⟨_, rfl⟩, _, _, ⟨_, rfl⟩, _, _, ⟨hok, rfl⟩,
      _, t, hsave, _, u, hu, hprovision⟩ := hc
    obtain ⟨ht, hrows⟩ := saveAll_rows hsave (filed_map sameSpan_asConfirmed h)
    have hrewrites : Rewrites t u r.id confirmed := by
      subst hu
      exact fun _ => Table.find?_update
    have hsame : ∀ j, liveHold t j = liveHold db j := fun j => by rw [ht]; rfl
    refine provision_sound (promoteStanding (r := r) sameSpan_asConfirmed (fun _ => rfl) h
      ?_ ?_ ?_ ?_) hprovision
    · rw [← hu, ht]
    · intro j hj
      have hclock : u.clock = t.clock := by rw [← hu]
      rw [liveHold_update hrewrites hclock, if_neg hj, hsame]
    · rw [← hu]
      exact hrows
    · intro a ha
      exact ⟨a, hok a ha, (mem_standing.mp ha).2.1, sameSpan_asConfirmed a⟩

theorem moveTo_rewrites {next : ReservationStatus} {minutes : Option ℤ}
    (hc : Commits (moveTo r next minutes) db () db') :
    Rewrites db db' r.id (moved db next minutes) ∧
      db' = { db with reservations := db'.reservations } := by
  simp only [moveTo, commits_modify] at hc
  subst hc
  exact ⟨fun _ => Table.find?_update, rfl⟩

theorem moveTo_sound {next : ReservationStatus} {minutes : Option ℤ} (h : Sound db)
    (hn : next ≠ .hold) (hc : Commits (moveTo r next minutes) db () db') : Sound db' := by
  obtain ⟨hr, he⟩ := moveTo_rewrites hc
  have hclock : db'.clock = db.clock := by rw [he]
  refine h.of_same (by rw [he]) (by rw [he]) fun j hl => ?_
  exact (liveHold_update_dead hr hclock (fun _ => hn) hl).2

theorem hold_sound {minutes : Option ℤ} (h : Sound db)
    (hc : Commits (hold r minutes) db () db') : Sound db' := by
  simp only [hold, commits_bind, commits_get, commits_check, forM_eq_ok] at hc
  obtain ⟨_, _, ⟨rfl, rfl⟩, _, _, ⟨_, rfl⟩, _, _, ⟨hok, rfl⟩, _, t, hmove, hsave⟩ := hc
  obtain ⟨hr, he⟩ := moveTo_rewrites hmove
  have hclock : t.clock = db.clock := by rw [he]
  have hcatalogue : t.catalogue = db.catalogue := by rw [he]
  have hallocations : t.allocations = db.allocations := by rw [he]
  obtain ⟨hd, hrows⟩ := saveAll_rows hsave (hcatalogue ▸ filed_map sameSpan_asTentative h)
  refine promoteStanding (r := r) sameSpan_asTentative (fun _ => rfl) h ?_ ?_ (hallocations ▸ hrows) ?_
  · rw [hd]
    exact hcatalogue
  · intro j hj
    have hsame : liveHold db' j = liveHold t j := by rw [hd]; rfl
    rw [hsame, liveHold_update hr hclock, if_neg hj]
  · intro a ha
    exact ⟨asTentative a, hok _ (List.mem_map_of_mem ha), (mem_standing.mp ha).2.1,
      SameSpan.refl _⟩

theorem checkOut_sound {actorId : Option ℕ} (h : Sound db)
    (hc : Commits (checkOut r actorId) db () db') : Sound db' := by
  simp only [checkOut, commits_bind, commits_get] at hc
  obtain ⟨_, t, hmove, _, _, ⟨rfl, rfl⟩, hsoil⟩ := hc
  have ht : Sound t := moveTo_sound h (by decide) hmove
  exact forM_invariant (fun _ _ _ _ hs hc => updateHousekeeping_sound hs hc) ht hsoil

theorem changeStatus_sound {next : ReservationStatus} {minutes : Option ℤ} {actorId : Option ℕ}
    (h : Sound db) (hc : Commits (changeStatus i next minutes actorId) db () db') : Sound db' := by
  simp only [changeStatus, commits_bind, commits_lockedReservation, commits_ite, commits_reject,
    commits_pure] at hc
  obtain ⟨r, _, ⟨_, rfl⟩, ⟨_, _, rfl⟩ | ⟨_, _, _, ⟨_, rfl⟩, hc⟩⟩ := hc
  · exact h
  · cases next with
    | hold => exact hold_sound h hc
    | checkedOut => exact checkOut_sound h hc
    | draft => exact moveTo_sound h (by decide) hc
    | confirmed => exact moveTo_sound h (by decide) hc
    | checkedIn => exact moveTo_sound h (by decide) hc
    | cancelled => exact moveTo_sound h (by decide) hc
    | noShow => exact moveTo_sound h (by decide) hc

end Statuses

section Ends
variable {db db' : Database} {i : ℕ} {r : Reservation}

theorem updateWhere_released {p : Allocation → Bool} {a : Allocation} {t : Table Allocation}
    (ha : a ∈ (t.updateWhere p fun c => { c with status := .released }).rows) :
    ∃ c ∈ t.rows, SameSpan c a ∧ (a.status = .released ∨ a = c) := by
  rcases (Table.mem_updateWhere).mp ha with ⟨hm, _⟩ | ⟨c, hm, _, rfl⟩
  · exact ⟨a, hm, SameSpan.refl a, Or.inr rfl⟩
  · exact ⟨c, hm, ⟨rfl, rfl, rfl, rfl, rfl, rfl⟩, Or.inl rfl⟩

theorem withdraw_sound {p : Allocation → Bool} (h : Sound db)
    (hk : db'.catalogue = db.catalogue)
    (ha : db'.allocations = db.allocations.updateWhere p fun c => { c with status := .released })
    (hl : ∀ j, liveHold db' j = true → liveHold db j = true) : Sound db' := by
  refine h.shrink hk fun a hm => ?_
  obtain ⟨c, hc, hs, hrel | rfl⟩ := updateWhere_released (ha ▸ hm)
  · refine ⟨c, hc, hs, fun hact => ?_⟩
    rw [not_active_of_released hrel] at hact
    cases hact
  · exact ⟨a, hc, hs, active_mono (hl _)⟩

theorem adjustFolio_frame {target : ReservationStatus} {fee : ℤ} {metadata : LineMetadata}
    {actorId : Option ℕ}
    (hc : Commits (CloseReservationWithPolicy.adjustFolio r target fee metadata actorId) db ()
      db') :
    db' = { db with folioLines := db'.folioLines } := by
  rcases CloseReservationWithPolicy.commits_adjustFolio hc with ⟨_, _, rfl⟩ | ⟨_, rfl⟩
  · rfl
  · rfl

theorem close_sound {target : ReservationStatus} {reason : String} {actorId : Option ℕ}
    (h : Sound db)
    (hc : Commits (CloseReservationWithPolicy.handle i target reason actorId) db () db') :
    Sound db' := by
  obtain ⟨htarget, r, _, ⟨_, rfl⟩ | hcl⟩ := CloseReservationWithPolicy.commits_handle hc
  · exact h
  obtain ⟨t, hfolio, hw⟩ := hcl.writes
  have ht := adjustFolio_frame hfolio
  have hnot : target ≠ .hold := by
    rintro rfl
    simp at htarget
  have hr : Rewrites t db' r.id (CloseReservationWithPolicy.closed target (trim reason)) := by
    subst hw
    exact fun _ => Table.find?_update
  have hk : db'.catalogue = db.catalogue := by rw [hw, ht]; rfl
  have ha : db'.allocations =
      CloseReservationWithPolicy.releasedOf r.id db.allocations := by rw [hw, ht]; rfl
  have hclock : db'.clock = t.clock := by rw [hw]; rfl
  refine withdraw_sound h hk ha fun j hl => ?_
  have hlive := (liveHold_update_dead hr hclock (fun _ => hnot) hl).2
  rw [ht] at hlive
  exact hlive

theorem expireHold_sound (h : Sound db) (hc : Commits (expireHold i) db () db') : Sound db' := by
  simp only [expireHold, commits_bind, commits_get] at hc
  obtain ⟨_, _, ⟨rfl, rfl⟩, hc⟩ := hc
  split at hc
  · exact (commits_pure.mp hc).2 ▸ h
  · rcases commits_ite.mp hc with ⟨_, hc⟩ | ⟨_, hc⟩
    · exact (commits_pure.mp hc).2 ▸ h
    · have hc := commits_set.mp hc
      have hr : Rewrites db db' i lapsed := by
        subst hc
        exact fun _ => Table.find?_update
      have hk : db'.catalogue = db.catalogue := by rw [← hc]
      have ha : db'.allocations = expiredOf i db.allocations := by rw [← hc]
      have hclock : db'.clock = db.clock := by rw [← hc]
      exact withdraw_sound h hk ha fun j hl =>
        (liveHold_update_dead hr hclock (fun _ => by simp [lapsed]) hl).2

theorem expireDueHolds_sound {batch : ℕ} (h : Sound db)
    (hc : Commits (expireDueHolds batch) db () db') : Sound db' := by
  simp only [expireDueHolds, commits_bind, commits_get] at hc
  obtain ⟨_, _, ⟨rfl, rfl⟩, hc⟩ := hc
  exact forM_invariant (fun _ _ _ _ hs hc => expireHold_sound hs hc) h hc

theorem transition_sound {next : ReservationStatus} {minutes : Option ℤ} {reason : String}
    {actorId : Option ℕ} (h : Sound db)
    (hc : Commits (transition i next minutes reason actorId) db () db') : Sound db' := by
  unfold transition at hc
  split at hc
  · exact confirm_sound h hc
  · exact close_sound h hc
  · exact close_sound h hc
  · exact changeStatus_sound h hc

end Ends

end Preservation
