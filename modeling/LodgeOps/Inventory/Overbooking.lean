import LodgeOps.Inventory.Preservation

namespace Overbooking
open Schema Transaction Occupancy Availability AllocationWorkflow Clearance Soundness Preservation

section Runs

inductive Operation
  | tick (seconds : ℕ)
  | create (reservationId : ℕ) (data : AllocationData) (reason : Option String) (required : Bool)
  | update (reservationId allocationId : ℕ) (data : AllocationData) (reason : Option String)
      (required : Bool)
  | release (reservationId allocationId : ℕ) (reason : Option String) (required : Bool)
  | reallocate (reservationId allocationId resourceId : ℕ) (actorId swapWith : Option ℕ)
      (reason : Option String)
  | confirm (reservationId : ℕ)
  | transition (reservationId : ℕ) (next : ReservationStatus) (holdMinutes : Option ℤ)
      (reason : String) (actorId : Option ℕ)
  | expireDueHolds (batch : ℕ)

def Operation.run : Operation → Tx Unit
  | tick seconds => modify fun db => { db with clock := db.clock + seconds }
  | create i data reason required => do
    let _ ← AllocationWorkflow.create i data reason required
    pure ()
  | update i j data reason required => AllocationWorkflow.update i j data reason required
  | release i j reason required => AllocationWorkflow.release i j reason required
  | reallocate i j k actorId swapWith reason =>
    ReallocateResource.handle i j k actorId swapWith reason
  | confirm i => ReservationService.confirm i
  | transition i next holdMinutes reason actorId =>
    ReservationService.transition i next holdMinutes reason actorId
  | expireDueHolds batch => ReservationService.expireDueHolds batch

def Operation.Checked (op : Operation) (db : Database) : Prop :=
  match op with
  | create i data _ _ => CreateChecked db i data
  | update i j data _ _ => UpdateChecked db i j data
  | _ => True

instance (op : Operation) (db : Database) : Decidable (op.Checked db) := by
  cases op <;> simp only [Operation.Checked] <;> infer_instance

variable {db db' : Database}

theorem tick_sound {seconds : ℕ} (h : Sound db)
    (hc : Commits (Operation.run (.tick seconds)) db () db') : Sound db' := by
  have hc : { db with clock := db.clock + seconds } = db' := commits_modify.mp hc
  subst hc
  refine h.of_same rfl rfl fun i hl => ?_
  obtain ⟨r, hr, hlive⟩ := (Option.any_eq_true _ _).mp hl
  refine (Option.any_eq_true _ _).mpr ⟨r, hr, ?_⟩
  simp only [holdIsLive, Bool.and_eq_true, Option.any_eq_true, Database.isFuture,
    decide_eq_true_eq] at hlive ⊢
  obtain ⟨hs, e, he, hlt⟩ := hlive
  exact ⟨hs, e, he, by omega⟩

theorem run_sound {op : Operation} (h : Sound db) (ha : op.Checked db)
    (hc : Commits op.run db () db') : Sound db' := by
  cases op with
  | tick seconds => exact tick_sound h hc
  | create i data reason required =>
    obtain ⟨a, t, hcreate, ht⟩ := commits_bind.mp hc
    obtain rfl := (commits_pure.mp ht).2
    exact create_sound h ha hcreate
  | update i j data reason required => exact update_sound h ha hc
  | release i j reason required => exact release_workflow_sound h hc
  | reallocate i j k actorId swapWith reason => exact reallocate_sound h hc
  | confirm i => exact confirm_sound h hc
  | transition i next holdMinutes reason actorId => exact transition_sound h hc
  | expireDueHolds batch => exact expireDueHolds_sound h hc

theorem sound_of_empty (h : db.allocations.rows = []) : Sound db :=
  ⟨by simp [h], by simp [h], by simp [h]⟩

theorem reaches_sound (h0 : db.allocations.rows = [])
    (h : Reaches Operation.run Operation.Checked db db') : Sound db' :=
  h.invariant (sound_of_empty h0) fun _ _ _ hs ha hc => run_sound hs ha hc

end Runs

section Claim

def occupants (db : Database) (r : Resource) (t : ℤ) : List Allocation :=
  covering Allocation.startsAt Allocation.endsAt t
    (db.allocations.select fun a => a.resourceId == some r.id && active db a)

def load (db : Database) (r : Resource) (t : ℤ) : ℕ :=
  ((occupants db r t).map Allocation.quantity).sum

structure NoOverbooking (db : Database) : Prop where
  withinCapacity : ∀ r ∈ db.catalogue.resources.rows, db.catalogue.countsAsStay r = false →
    ∀ t, load db r t ≤ r.capacity
  oneStay : ∀ r ∈ db.catalogue.resources.rows, db.catalogue.countsAsStay r = true →
    ∀ t, (occupants db r t).length ≤ 1
  buyoutAlone : ∀ a ∈ db.allocations.rows, ∀ b ∈ db.allocations.rows, active db a = true →
    active db b = true → a.reservationId ≠ b.reservationId → ∀ p,
      HoldsResource db.catalogue p a → PropertyBuyout db.catalogue p b →
        ¬ Meets a.startsAt a.endsAt b.startsAt b.endsAt

variable {db db' : Database}

theorem mem_occupying {r : Resource} {a : Allocation} :
    a ∈ db.allocations.select (fun a => a.resourceId == some r.id && active db a) ↔
      a ∈ db.allocations.rows ∧ a.resourceId = some r.id ∧ active db a = true := by
  simp [Table.mem_select]

theorem occupying_nodup {r : Resource} :
    (db.allocations.select fun a => a.resourceId == some r.id && active db a).Nodup :=
  (List.Nodup.of_map _ db.allocations.nodup).filter _

theorem exclusive_of_sound (h : Sound db) (r : Resource) :
    Exclusive Allocation.startsAt Allocation.endsAt
      (db.allocations.select fun a => a.resourceId == some r.id && active db a) := by
  intro a ha b hb hne hm
  obtain ⟨ham, har, haa⟩ := mem_occupying.mp ha
  obtain ⟨hbm, hbr, hba⟩ := mem_occupying.mp hb
  have hids : a.id ≠ b.id := fun hid => hne (Table.eq_of_id ham hbm hid)
  exact h.apart a ham b hbm haa hba hids ⟨hm, Or.inl ⟨r.id, har, hbr⟩⟩

theorem noOverbooking_of_sound (h : Sound db) : NoOverbooking db where
  withinCapacity := by
    intro r hr hs t
    refine load_le occupying_nodup (exclusive_of_sound h r) fun a ha => ?_
    obtain ⟨ham, har, haa⟩ := mem_occupying.mp ha
    exact h.fits a ham haa r hr har hs
  oneStay := fun r _ _ _ => length_covering_le_one occupying_nodup (exclusive_of_sound h r)
  buyoutAlone := by
    intro a ha b hb haa hba hres p hp hbuyout hm
    refine h.apart a ha b hb haa hba ?_ ⟨hm, Or.inr (Or.inl ⟨p, hp, hbuyout⟩)⟩
    intro hid
    exact hres (congrArg Allocation.reservationId (Table.eq_of_id ha hb hid))

theorem checked_runs_never_overbook (h0 : db.allocations.rows = [])
    (h : Reaches Operation.run Operation.Checked db db') : NoOverbooking db' :=
  noOverbooking_of_sound (reaches_sound h0 h)

end Claim

section Scenario

def category (i : ℕ) : ResourceCategory where
  id := i
  propertyId := 0
  kind := .place
  name := if i = 0 then "Cabins" else "Whole lodge"
  countsAsStay := true
  isActive := true

def resource (categoryId : ℕ) (buyout : Bool) (i : ℕ) : Resource where
  id := i
  propertyId := 0
  categoryId := categoryId
  capacity := 2
  isActive := true
  isBuyoutColumn := buyout
  buyoutAttribute := false
  capabilities := .absent
  specialties := .absent
  languages := .absent

def lodge : Catalogue where
  categories := (Table.empty.insert category).insert category
  resources := ((Table.empty.insert (resource 0 false)).insert (resource 0 false)).insert
    (resource 1 true)
  timezone := fun _ _ => 0
  categorised := by
    intro r hr
    have hr : r = resource 0 false 0 ∨ r = resource 0 false 1 ∨ r = resource 1 true 2 := by
      simpa [Table.insert, Table.empty] using hr
    rcases hr with rfl | rfl | rfl
    · exact ⟨category 0, rfl, rfl⟩
    · exact ⟨category 0, rfl, rfl⟩
    · exact ⟨category 1, rfl, rfl⟩
  separated := by decide
  stayIsPlace := by decide

def enquiry (startsAt endsAt : ℤ) (i : ℕ) : Reservation where
  id := i
  propertyId := 0
  programId := none
  bookingQuoteId := none
  status := .draft
  startsAt := startsAt
  endsAt := endsAt
  holdExpiresAt := none
  adults := 2
  children := 0
  currency := "USD"
  subtotalMinor := 10000
  taxMinor := 0
  totalMinor := 10000
  depositPolicy := none
  cancellationTiers := []
  folioStatus := .opened
  closureReason := none
  revision := 1

def opening : Database where
  clock := 0
  catalogue := lodge
  reservations := ((Table.empty.insert (enquiry 1000 2000)).insert (enquiry 1000 2000)).insert
    (enquiry 3000 4000)

def assigned (resourceId : ℕ) (startsAt endsAt : ℤ) : AllocationData where
  resourceId := some (some resourceId)
  startsAt := some startsAt
  endsAt := some endsAt

def requested (categoryId : ℕ) (startsAt endsAt : ℤ) : AllocationData where
  requestedCategoryId := some (some categoryId)
  startsAt := some startsAt
  endsAt := some endsAt

def inHouse (reservationId resourceId : ℕ) : List Operation :=
  [.create reservationId (assigned resourceId 1000 2000) none false, .confirm reservationId,
    .transition reservationId .checkedIn none "" none]

theorem checked_run_shares_no_cabin : ∃ db',
    Reaches Operation.run Operation.Checked opening db' ∧
      (occupants db' (resource 0 false 0) 1500).length = 1 ∧ NoOverbooking db' := by
  obtain ⟨db', hr, hp⟩ : ∃ t, Reaches Operation.run Operation.Checked opening t ∧
      decide ((occupants t (resource 0 false 0) 1500).length = 1) = true :=
    Reaches.exists_of_execute (fun _ _ => of_decide_eq_true)
      (inHouse 0 0 ++ inHouse 1 1 ++ [.create 1 (assigned 0 2000 3000) none true])
      (by decide +kernel)
  exact ⟨db', hr, of_decide_eq_true hp, checked_runs_never_overbook rfl hr⟩

def overbooked (db : Database) : Bool :=
  db.catalogue.resources.rows.any fun r =>
    db.catalogue.countsAsStay r && decide (1 < (occupants db r 1500).length)

theorem not_noOverbooking_of_overbooked {db : Database} (h : overbooked db = true) :
    ¬ NoOverbooking db := by
  intro hn
  obtain ⟨r, hr, hb⟩ := List.any_eq_true.mp h
  simp only [Bool.and_eq_true, decide_eq_true_eq] at hb
  have hle := hn.oneStay r hr hb.1 1500
  omega

-- The second guest is checked in, so the create stores a confirmed allocation and checks nothing.
theorem in_house_creation_overbooks : opening.allocations.rows = [] ∧
    ∃ db', Reaches Operation.run (fun _ _ => True) opening db' ∧ ¬ NoOverbooking db' := by
  obtain ⟨db', hr, hp⟩ : ∃ t, Reaches Operation.run (fun _ _ => True) opening t ∧
      overbooked t = true :=
    Reaches.exists_of_run
      (inHouse 0 0 ++ inHouse 1 1 ++ [.create 1 (assigned 0 1000 2000) none true])
      (by decide +kernel)
  exact ⟨rfl, db', hr, not_noOverbooking_of_overbooked hp⟩

def buyoutOverlapped (db : Database) : Bool :=
  db.allocations.rows.any fun a => db.allocations.rows.any fun b =>
    active db a && active db b && decide (a.reservationId ≠ b.reservationId ∧
      HoldsResource db.catalogue 0 a ∧ PropertyBuyout db.catalogue 0 b ∧
        Meets a.startsAt a.endsAt b.startsAt b.endsAt)

theorem not_noOverbooking_of_buyoutOverlapped {db : Database} (h : buyoutOverlapped db = true) :
    ¬ NoOverbooking db := by
  intro hn
  obtain ⟨a, ha, hb⟩ := List.any_eq_true.mp h
  obtain ⟨b, hb, hab⟩ := List.any_eq_true.mp hb
  simp only [Bool.and_eq_true, decide_eq_true_eq] at hab
  obtain ⟨⟨haa, hba⟩, hres, hp, hbuyout, hm⟩ := hab
  exact hn.buyoutAlone a ha b hb haa hba hres 0 hp hbuyout hm

-- With the requested category cleared the check looks for assigned buyouts only.
theorem uncategorised_update_overlaps_buyout : opening.allocations.rows = [] ∧
    ∃ db', Reaches Operation.run (fun _ _ => True) opening db' ∧ ¬ NoOverbooking db' := by
  obtain ⟨db', hr, hp⟩ : ∃ t, Reaches Operation.run (fun _ _ => True) opening t ∧
      buyoutOverlapped t = true :=
    Reaches.exists_of_run
      [.create 0 (requested 1 1000 2000) none false, .confirm 0,
        .create 2 (assigned 0 3000 4000) none false, .confirm 2,
        .update 2 1 { assigned 0 1000 2000 with requestedCategoryId := some none } none false]
      (by decide +kernel)
  exact ⟨rfl, db', hr, not_noOverbooking_of_buyoutOverlapped hp⟩

end Scenario
end Overbooking
