import LodgeOps.Booking.BookedTotals
import LodgeOps.Guests.Parties
import LodgeOps.Store.Roster

namespace ReservationParties
open Schema Transaction

section Rosters
variable {db db' : Database} {r : Reservation} {i : ℕ} {primary : Option ℕ}

abbrev WellLed (primary : Option ℕ) (rows : List ReservationGuest) : Prop :=
  Roster.Led ReservationGuest.guestId (fun g => g.role = .primary) primary rows

-- Every reservation's party has nobody twice and is led by the primary guest and no one else.
def Coherent (db : Database) : Prop :=
  ∀ r ∈ db.reservations.rows, WellLed r.primaryGuestId (db.party r.id)

structure Sound (db : Database) : Prop where
  coherent : Coherent db
  placed : ∀ g ∈ db.reservationGuests.rows, ∃ r ∈ db.reservations.rows, r.id = g.reservationId

theorem mem_party {g : ReservationGuest} :
    g ∈ db.party i ↔ g ∈ db.reservationGuests.rows ∧ g.reservationId = i := by
  simp [Database.party, Table.mem_select]

def seat (g : ReservationGuest) : ℕ × ℕ × PartyRole := (g.reservationId, g.guestId, g.role)

-- What a command on one reservation does: its party is led as its row says, the others stay.
structure Rewrites (db db' : Database) (i : ℕ) : Prop where
  reservations : ∀ r ∈ db'.reservations.rows, r.id = i ∨ r ∈ db.reservations.rows
  led : ∀ r ∈ db'.reservations.rows, r.id = i → WellLed r.primaryGuestId (db'.party i)
  others : ∀ g : ReservationGuest, g.reservationId ≠ i →
    (g ∈ db'.reservationGuests.rows → g ∈ db.reservationGuests.rows)
  parties : ∀ j, j ≠ i → db'.party j = db.party j
  stay : ∀ r ∈ db.reservations.rows, ∃ q ∈ db'.reservations.rows, q.id = r.id
  present : ∃ r ∈ db'.reservations.rows, r.id = i

theorem sound_rewrites (hs : Sound db) (h : Rewrites db db' i) : Sound db' where
  coherent r hr := by
    by_cases hi : r.id = i
    · exact hi ▸ h.led r hr hi
    · rw [h.parties r.id hi]
      exact hs.coherent r ((h.reservations r hr).resolve_left hi)
  placed g hg := by
    by_cases hi : g.reservationId = i
    · exact hi ▸ h.present
    · obtain ⟨r, hr, hid⟩ := hs.placed g (h.others g hi hg)
      exact hid ▸ h.stay r hr

theorem commits_forM_appends {ι σ ε ρ β : Type} [Keyed ρ] {x : ι → Transaction ε σ Unit}
    {k : σ → Table ρ} {f : ρ → β} {g : ι → β} {is : List ι} {s s' : σ}
    (hx : ∀ i s s', Commits (x i) s () s' →
      ∃ r, f r = g i ∧ (k s').rows = (k s).rows ++ [r])
    (h : Commits (is.forM x) s () s') :
    ∃ added, added.map f = is.map g ∧ (k s').rows = (k s).rows ++ added := by
  induction is generalizing s with
  | nil => exact ⟨[], rfl, by rw [commits_forM_nil.mp h, List.append_nil]⟩
  | cons i is ih =>
    obtain ⟨t, hi, hrest⟩ := commits_forM_cons.mp h
    obtain ⟨r, hr, hrow⟩ := hx i s t hi
    obtain ⟨added, hmap, hrows⟩ := ih hrest
    refine ⟨r :: added, ?_, ?_⟩
    · rw [List.map_cons, List.map_cons, hr, hmap]
    · rw [hrows, hrow, List.append_assoc, List.singleton_append]

-- The seats that a command gives out in one reservation: a guest each, the primary one leading.
def seats (i : ℕ) (primary : Option ℕ) (role : PartyRole) (ids : List ℕ) : List (ℕ × ℕ × PartyRole) :=
  ids.map fun g => (i, g, if some g = primary then .primary else role)

variable {added : List ReservationGuest} {ids : List ℕ} {role : PartyRole}

theorem reservationId_of_seats (h : added.map seat = seats i primary role ids)
    {g : ReservationGuest} (hg : g ∈ added) : g.reservationId = i := by
  have hm : seat g ∈ seats i primary role ids := h ▸ List.mem_map_of_mem hg
  obtain ⟨_, _, he⟩ := List.mem_map.mp hm
  exact (congrArg Prod.fst he).symm

theorem role_of_seats (h : added.map seat = seats i primary role ids) (hrole : role ≠ .primary)
    {g : ReservationGuest} (hg : g ∈ added) : g.role = .primary ↔ some g.guestId = primary := by
  have hm : seat g ∈ seats i primary role ids := h ▸ List.mem_map_of_mem hg
  obtain ⟨j, _, he⟩ := List.mem_map.mp hm
  have hj : j = g.guestId := congrArg (fun s => s.2.1) he
  have hr : (if some j = primary then PartyRole.primary else role) = g.role :=
    congrArg (fun s => s.2.2) he
  rw [← hr, hj]
  split_ifs with hp
  · exact ⟨fun _ => hp, fun _ => rfl⟩
  · exact ⟨fun e => absurd e hrole, fun e => absurd e hp⟩

theorem guestIds_of_seats (h : added.map seat = seats i primary role ids) :
    added.map ReservationGuest.guestId = ids := by
  have hm := congrArg (List.map fun s : ℕ × ℕ × PartyRole => s.2.1) h
  simpa [seats, seat, Function.comp_def] using hm

theorem party_of_append {t : Table ReservationGuest}
    (hrows : db'.reservationGuests.rows = t.rows ++ added) (j : ℕ) :
    db'.party j = (t.select fun g => g.reservationId == j) ++
      added.filter fun g => g.reservationId == j := by
  simp [Database.party, Table.select, hrows]

theorem filter_added_self (h : ∀ g ∈ added, g.reservationId = i) :
    (added.filter fun g => g.reservationId == i) = added :=
  List.filter_eq_self.mpr fun g hg => by simp [h g hg]

theorem filter_added_ne {j : ℕ} (h : ∀ g ∈ added, g.reservationId = i) (hj : j ≠ i) :
    (added.filter fun g => g.reservationId == j) = [] := by
  refine List.filter_eq_nil_iff.mpr fun g hg => ?_
  simp [h g hg, hj.symm]

theorem wellLed_of_seats (h : added.map seat = seats i primary role ids) (hrole : role ≠ .primary)
    (hn : ids.Nodup) (hp : ∀ p, primary = some p → p ∈ ids) : WellLed primary added :=
  Roster.led_of_map (guestIds_of_seats h) hn hp fun _ hg => role_of_seats h hrole hg

end Rosters
section Commit
open CommitBookingQuote
variable {db db' : Database} {r : Reservation} {q : BookingQuote} {guestId actor : Option ℕ}
variable {data : GuestData} {companions ids : List ℕ} {p i : ℕ}

theorem commits_addToParty_seat (h : Commits (addToParty r p i) db () db') :
    ∃ g, seat g = (r.id, i, if some i = some p then .primary else .guest) ∧
      db'.reservationGuests.rows = db.reservationGuests.rows ++ [g] := by
  simp only [addToParty, commits_bind, commits_get, commits_orFail, commits_set] at h
  obtain ⟨_, _, ⟨rfl, rfl⟩, companion, _, ⟨hfound, rfl⟩, rfl⟩ := h
  have hid : companion.id = i := (Table.find?_eq_some.mp hfound).2
  refine ⟨_, ?_, rfl⟩
  simp [seat, hid]

theorem commits_commit_seats (h : Commits (commit q guestId data companions actor) db r db') :
    ∃ guest added, r.primaryGuestId = some guest ∧
      Table.Appends db.reservations db'.reservations r ∧
      added.map seat = seats r.id (some guest) .guest (guest :: companions).eraseDups ∧
      db'.reservationGuests.rows = db.reservationGuests.rows ++ added := by
  obtain ⟨_, _, guest, a, t₁, t₂, t₃, t₄, t₅, hs⟩ := commits_commit_staged h
  have h₁ := commits_guestFor hs.found
  obtain ⟨hr, happ, h₂⟩ := commits_createReservation hs.create
  have h₃ := commits_allocate hs.allocate
  have h₄ := party_frame hs.party
  have h₅ := postLines_frame hs.lines
  obtain rfl := hs.mark
  obtain ⟨added, hseats, hrows⟩ := commits_forM_appends (k := Database.reservationGuests)
    (fun i s s' hc => commits_addToParty_seat hc) hs.party
  refine ⟨guest.id, added, by rw [hr]; rfl, ?_, hseats, ?_⟩
  · show Table.Appends _ t₅.reservations r
    rw [h₅, h₄, h₃]
    rw [h₁] at happ
    exact happ
  · show t₅.reservationGuests.rows = _
    rw [h₅]
    show t₄.reservationGuests.rows = _
    rw [hrows, h₃, h₂, h₁]

theorem rewrites_commit (hs : Sound db)
    (h : Commits (commit q guestId data companions actor) db r db') : Rewrites db db' r.id := by
  obtain ⟨guest, added, hprimary, happ, hseats, hrows⟩ := commits_commit_seats h
  have hin : ∀ g ∈ added, g.reservationId = r.id := fun g hg => reservationId_of_seats hseats hg
  have hfresh : (db.reservationGuests.select fun g => g.reservationId == r.id) = [] := by
    refine List.filter_eq_nil_iff.mpr fun g hg => ?_
    obtain ⟨q, hq, hid⟩ := hs.placed g hg
    have hlt : q.id < r.id := happ.lt_next hq
    rw [← hid]
    simpa using hlt.ne
  have hparty := party_of_append hrows
  refine ⟨fun q hq => ?_, fun q hq hi => ?_, fun g hg hm => ?_, fun j hj => ?_, fun q hq => ?_, ?_⟩
  · exact (happ.mem.mp hq).symm.imp_left (congrArg Reservation.id)
  · obtain rfl : q = r := Table.eq_of_id hq happ.mem_new hi
    rw [hparty, hfresh, filter_added_self hin, List.nil_append, hprimary]
    refine wellLed_of_seats hseats PartyRole.noConfusion (Roster.nodup_eraseDups _) fun p hp => ?_
    obtain rfl := Option.some.inj hp
    simp [List.mem_eraseDups]
  · rw [hrows, List.mem_append] at hm
    exact hm.resolve_right fun ha => hg (hin g ha)
  · rw [hparty, filter_added_ne hin hj, List.append_nil]
    rfl
  · exact ⟨q, happ.mem_old hq, rfl⟩
  · exact ⟨r, happ.mem_new, rfl⟩

theorem sound_handle (hs : Sound db)
    (h : Commits (handle i guestId data companions actor) db r db') : Sound db' := by
  simp only [handle, commits_bind, commits_get, commits_orFail] at h
  obtain ⟨_, _, ⟨rfl, rfl⟩, q, _, ⟨_, rfl⟩, h⟩ := h
  split at h
  · exact commits_committedTo h ▸ hs
  · exact sound_rewrites hs (rewrites_commit hs h)

end Commit

section Deletion
variable {db db' : Database} {i j : ℕ} {p : ReservationGuest → Bool}

theorem select_deleteWhere {t : Table ReservationGuest} {q : ReservationGuest → Bool} :
    (t.deleteWhere p).select q = (t.select q).filter fun g => !p g := by
  simp [Table.select, Table.deleteWhere, List.filter_filter, Bool.and_comm]

theorem select_kept {t : Table ReservationGuest} (hp : ∀ g, p g = true → g.reservationId = i)
    (hj : j ≠ i) :
    ((t.deleteWhere p).select fun g => g.reservationId == j) =
      t.select fun g => g.reservationId == j := by
  rw [select_deleteWhere]
  refine List.filter_eq_self.mpr fun g hg => ?_
  have hgj : g.reservationId = j := by simpa using (Table.mem_select.mp hg).2
  cases hpg : p g with
  | false => rfl
  | true => exact absurd (hgj.symm.trans (hp g hpg)) hj

theorem forM_frame {ι : Type} {x : ι → Tx Unit} {is : List ι}
    (hx : ∀ i s s', Commits (x i) s () s' →
      s' = { s with reservationGuests := s'.reservationGuests })
    (h : Commits (is.forM x) db () db') :
    db' = { db with reservationGuests := db'.reservationGuests } := by
  refine forM_invariant (I := fun s => s = { db with reservationGuests := s.reservationGuests })
    ?_ rfl h
  intro i _ s s' hs hc
  rw [hx i s s' hc, hs]

-- A command on one reservation deletes rows of it and appends others to it.
structure Regroups (db db' : Database) (i : ℕ) (p : ReservationGuest → Bool)
    (added : List ReservationGuest) : Prop where
  rows : db'.reservationGuests.rows = (db.reservationGuests.deleteWhere p).rows ++ added
  deleted : ∀ g, p g = true → g.reservationId = i
  added : ∀ g ∈ added, g.reservationId = i

variable {added : List ReservationGuest} (h : Regroups db db' i p added)
include h

theorem Regroups.party : db'.party i = ((db.party i).filter fun g => !p g) ++ added := by
  rw [party_of_append h.rows, filter_added_self h.added, select_deleteWhere]
  rfl

theorem Regroups.parties (hj : j ≠ i) : db'.party j = db.party j := by
  rw [party_of_append h.rows, filter_added_ne h.added hj, List.append_nil, select_kept h.deleted hj]
  rfl

theorem Regroups.others {g : ReservationGuest} (hg : g.reservationId ≠ i)
    (hm : g ∈ db'.reservationGuests.rows) : g ∈ db.reservationGuests.rows := by
  rw [h.rows, List.mem_append] at hm
  exact (Table.mem_deleteWhere.mp (hm.resolve_right fun ha => hg (h.added g ha))).1

omit h

theorem rewrites_regroups {f : Reservation → Reservation} {r : Reservation}
    (h : Regroups db db' i p added)
    (hres : Table.Updates db.reservations db'.reservations i f) (hr : r ∈ db.reservations.rows)
    (hi : r.id = i) (hled : WellLed (f r).primaryGuestId (db'.party i)) : Rewrites db db' i where
  reservations q hq := (hres.mem_cases hr hi hq).symm.imp
    (fun e => by rw [e]; exact (hres.keeps r).trans hi) And.left
  led q hq hqi := by
    rcases hres.mem_cases hr hi hq with ⟨_, hne⟩ | rfl
    · exact absurd hqi hne
    · exact hled
  others _ hg hm := h.others hg hm
  parties _ hj := h.parties hj
  stay q hq := by
    by_cases hqi : q.id = i
    · exact ⟨f q, hres.mem_self hq hqi, hres.keeps q⟩
    · exact ⟨q, hres.mem_ne hq hqi, rfl⟩
  present := ⟨f r, hres.mem_self hr hi, (hres.keeps r).trans hi⟩

end Deletion

section Update
open ReservationController
variable {db db' : Database} {r r' : Reservation} {i : ℕ} {request : UpdateReservationRequest}
variable {ids : List ℕ}

theorem commits_rebuild (h : Commits (rebuild r ids) db () db') :
    (∃ added, Regroups db db' r.id (fun g => g.reservationId == r.id) added ∧
      added.map seat = seats r.id r.primaryGuestId .guest
        (ids ++ r.primaryGuestId.toList).eraseDups) ∧
    db'.reservations = db.reservations := by
  simp only [rebuild, detach, commits_bind, commits_modify] at h
  obtain ⟨_, _, rfl, hadd⟩ := h
  have hframe := forM_frame (fun j s s' hc => by
    simp only [addMember, commits_modify] at hc
    rw [← hc]) hadd
  obtain ⟨added, hseats, hrows⟩ := commits_forM_appends (k := Database.reservationGuests)
    (g := fun g => (r.id, g, if some g = r.primaryGuestId then PartyRole.primary else .guest))
    (f := seat) (fun j s s' hc => by
      simp only [addMember, commits_modify] at hc
      exact ⟨_, rfl, by rw [← hc]; rfl⟩) hadd
  refine ⟨⟨added, ⟨hrows, fun g hg => by simpa using hg, fun g hg => ?_⟩, hseats⟩, by rw [hframe]⟩
  exact reservationId_of_seats hseats hg

theorem wellLed_rebuilt (h : Commits (rebuild r ids) db () db') :
    WellLed r.primaryGuestId (db'.party r.id) := by
  obtain ⟨⟨added, hgroup, hseats⟩, _⟩ := commits_rebuild h
  have hnone : ((db.party r.id).filter fun g => !(g.reservationId == r.id)) = [] := by
    refine List.filter_eq_nil_iff.mpr fun g hg => ?_
    simp [(mem_party.mp hg).2]
  rw [hgroup.party, hnone, List.nil_append]
  refine wellLed_of_seats hseats PartyRole.noConfusion (Roster.nodup_eraseDups _) fun p hp => ?_
  simp [List.mem_eraseDups, hp]

theorem sound_update (hs : Sound db) (h : Commits (update i request) db r' db') : Sound db' := by
  simp only [update, commits_bind, commits_lockedReservation, commits_check, commits_reject,
    commits_modify, commits_pure] at h
  obtain ⟨r, _, ⟨hr, rfl⟩, _, _, ⟨_, rfl⟩, _, _, ⟨_, rfl⟩, _, _, ⟨_, rfl⟩, _, _, rfl, _, _,
    hgroup, rfl, rfl⟩ := h
  obtain ⟨hmem, hid⟩ := Table.find?_eq_some.mp hr
  have hres : Table.Updates db.reservations
      (db.reservations.update r.id (edited request.primaryGuestId)) r.id
      (edited request.primaryGuestId) := Table.updates_update
  have hrebuilt : ∀ {ids db'}, Commits (rebuild (edited request.primaryGuestId r) ids)
      { db with reservations := db.reservations.update r.id (edited request.primaryGuestId) } ()
      db' → Sound db' := by
    intro ids db' hc
    obtain ⟨⟨added, hg, _⟩, hkeep⟩ := commits_rebuild hc
    refine sound_rewrites hs (rewrites_regroups ⟨hg.rows, hg.deleted, hg.added⟩ ?_ hmem rfl
      (wellLed_rebuilt hc))
    rw [hkeep]
    exact hres
  simp only [regroup, commits_bind, commits_get] at hgroup
  obtain ⟨_, _, ⟨rfl, rfl⟩, hgroup⟩ := hgroup
  cases hids : request.guestIds with
  | some ids =>
    rw [hids] at hgroup
    exact hrebuilt hgroup
  | none =>
    rw [hids] at hgroup
    simp only [commits_ite, commits_pure, decide_eq_true_eq] at hgroup
    rcases hgroup with ⟨_, hc⟩ | ⟨hsame, _, rfl⟩
    · exact hrebuilt hc
    · have hg : Regroups db { db with
          reservations := db.reservations.update r.id (edited request.primaryGuestId) } r.id
          (fun _ => false) [] := ⟨by simp [Table.deleteWhere], by simp, by simp⟩
      refine sound_rewrites hs (rewrites_regroups hg hres hmem rfl ?_)
      rw [not_not.mp hsame]
      exact hs.coherent r hmem

end Update

section Replace
open ReservationCompanionService
variable {db db' : Database} {r r' : Reservation} {i p : ℕ} {companions : List CompanionInput}

def strangers (r : Reservation) (g : ReservationGuest) : Bool :=
  g.reservationId == r.id && some g.guestId != r.primaryGuestId

theorem ne_primary_of_vetted
    (h : (companions.zipIdx.forM fun c => vetCompanion db r c.1 c.2) = .ok ()) :
    ∀ c ∈ companions, some c.guestId ≠ r.primaryGuestId := by
  intro c hc
  obtain ⟨n, hn, rfl⟩ := List.mem_iff_getElem.mp hc
  have hz : (companions[n], n) ∈ companions.zipIdx := by
    rw [List.mk_mem_zipIdx_iff_getElem?]
    simp [hn]
  have hv := forM_eq_ok.mp h _ hz
  simp only [vetCompanion, bind_eq_ok, found_eq_ok, refuse_eq_ok] at hv
  obtain ⟨guest, hfound, hne⟩ := hv
  have hid : guest.id = companions[n].guestId := (Table.find?_eq_some.mp hfound).2
  rwa [hid] at hne

theorem commits_companions (hne : ∀ c ∈ companions, some c.guestId ≠ r.primaryGuestId)
    (h : Commits (companions.zipIdx.forM (addCompanion r)) { db with
      reservationGuests := db.reservationGuests.deleteWhere (strangers r) } () db') :
    ∃ added, Regroups db db' r.id (strangers r) added ∧
      added.map seat = seats r.id r.primaryGuestId .companion
        (companions.map CompanionInput.guestId) := by
  obtain ⟨added, hseats, hrows⟩ := commits_forM_appends (k := Database.reservationGuests)
    (g := fun c : CompanionInput × ℕ => (r.id, c.1.guestId, PartyRole.companion))
    (f := seat) (fun c s s' hc => by
      simp only [addCompanion, commits_modify] at hc
      exact ⟨_, rfl, by rw [← hc]; rfl⟩) h
  have hseats' : added.map seat = seats r.id r.primaryGuestId .companion
      (companions.map CompanionInput.guestId) := by
    have hfst : (companions.zipIdx.map fun c => (r.id, c.1.guestId, PartyRole.companion)) =
        companions.map fun c => (r.id, c.guestId, PartyRole.companion) := by
      conv_rhs => rw [← List.zipIdx_map_fst 0 companions, List.map_map]
      rfl
    rw [hseats, hfst, seats, List.map_map]
    refine List.map_congr_left fun c hc => ?_
    simp [hne c hc]
  refine ⟨added, ⟨hrows, fun g hg => ?_, fun g hg => reservationId_of_seats hseats' hg⟩, hseats'⟩
  simp only [strangers, Bool.and_eq_true, beq_iff_eq] at hg
  exact hg.1

theorem wellLed_replaced {added : List ReservationGuest} (hled : WellLed (some p) (db.party r.id))
    (hp : r.primaryGuestId = some p) (hg : Regroups db db' r.id (strangers r) added)
    (hseats : added.map seat = seats r.id r.primaryGuestId .companion
      (companions.map CompanionInput.guestId))
    (hne : ∀ c ∈ companions, some c.guestId ≠ r.primaryGuestId)
    (hn : (companions.map CompanionInput.guestId).Nodup) :
    (∃ g ∈ db'.party r.id, g.guestId = p) ∧ WellLed (some p) (db'.party r.id) := by
  have hkept : ∀ g, g ∈ ((db.party r.id).filter fun g => !strangers r g) ↔
      g ∈ db.party r.id ∧ g.guestId = p := by
    intro g
    rw [List.mem_filter]
    refine and_congr_right fun hm => ?_
    simp [strangers, hp, (mem_party.mp hm).2]
  obtain ⟨lead, hlead, hid, _⟩ := hled.existsUnique
  have hmem : lead ∈ db'.party r.id := by
    rw [hg.party]
    exact List.mem_append_left _ ((hkept lead).mpr ⟨hlead, hid⟩)
  refine ⟨⟨lead, hmem, hid⟩, ?_⟩
  refine Roster.led_of_map rfl ?_ (fun q hq => ?_) fun g hgm => ?_
  · rw [hg.party, List.map_append, guestIds_of_seats hseats, List.nodup_append]
    refine ⟨hled.once.sublist (List.filter_sublist.map _), hn, fun a ha b hb => ?_⟩
    obtain ⟨g, hg', rfl⟩ := List.mem_map.mp ha
    obtain ⟨c, hc, rfl⟩ := List.mem_map.mp hb
    rw [((hkept g).mp hg').2]
    exact fun e => hne c hc (by rw [hp, e])
  · obtain rfl := Option.some.inj hq
    exact hid ▸ List.mem_map_of_mem hmem
  · rw [hg.party, List.mem_append] at hgm
    rcases hgm with hold | hnew
    · obtain ⟨hm, hgp⟩ := (hkept g).mp hold
      rw [hled.leads p rfl g hm, hgp]
      simp
    · rw [← hp]
      exact role_of_seats hseats PartyRole.noConfusion hnew

theorem commits_firstOrCreatePrimary (hp : r.primaryGuestId = some p)
    (hany : ((db.party r.id).any fun g => g.guestId == p) = true)
    (h : Commits (firstOrCreatePrimary r) db () db') : db = db' := by
  unfold firstOrCreatePrimary at h
  obtain ⟨q, hq, h⟩ := commits_orFail_bind.mp (commits_get_bind.mp h)
  obtain rfl : p = q := Option.some.inj (hp.symm.trans hq)
  rw [if_pos hany] at h
  exact (commits_pure.mp h).2

theorem sound_replace {revision : ℕ} (hs : Sound db)
    (h : Commits (replace i companions revision) db r' db') : Sound db' := by
  unfold replace at h
  obtain ⟨r, _, hlock, h⟩ := commits_bind.mp h
  obtain ⟨hr, rfl⟩ := commits_lockedReservation.mp hlock
  obtain ⟨_, h⟩ := commits_reject_bind.mp h
  obtain ⟨_, h⟩ := commits_reject_bind.mp h
  obtain ⟨_, hvet, h⟩ := commits_check_bind.mp h
  obtain ⟨hdup, h⟩ := commits_reject_bind.mp h
  obtain ⟨_, h⟩ := commits_reject_bind.mp h
  obtain ⟨_, s, hdrop, h⟩ := commits_bind.mp h
  obtain ⟨_, t, hadd, h⟩ := commits_bind.mp h
  obtain ⟨_, u, hfirst, h⟩ := commits_bind.mp h
  obtain ⟨_, v, hbump, h⟩ := commits_bind.mp h
  obtain ⟨_, w, hrecord, h⟩ := commits_bind.mp h
  obtain ⟨_, rfl⟩ := commits_lockedReservation.mp h
  obtain rfl := commits_modify.mp hdrop
  obtain ⟨hmem, rfl⟩ := Table.find?_eq_some.mp hr
  have hne := ne_primary_of_vetted hvet
  have hframe := forM_frame (fun j s s' hc => by
    simp only [addCompanion, commits_modify] at hc
    rw [← hc]) hadd
  obtain ⟨added, hg, hseats⟩ := commits_companions hne hadd
  have hled := hs.coherent r hmem
  obtain ⟨p, hp⟩ : ∃ p, r.primaryGuestId = some p := by
    unfold firstOrCreatePrimary at hfirst
    obtain ⟨p, hp, _⟩ := commits_orFail_bind.mp (commits_get_bind.mp hfirst)
    exact ⟨p, hp⟩
  rw [hp] at hled
  obtain ⟨⟨lead, hlead, hid⟩, hled'⟩ := wellLed_replaced hled hp hg hseats hne (not_not.mp hdup)
  -- The row of the primary guest is there, so none is created.
  obtain rfl := commits_firstOrCreatePrimary hp
    (List.any_eq_true.mpr ⟨lead, hlead, by simp [hid]⟩) hfirst
  rw [← commits_modify.mp hrecord, ← commits_modify.mp hbump]
  refine sound_rewrites hs (rewrites_regroups (f := AllocationWorkflow.revised)
    ⟨hg.rows, hg.deleted, hg.added⟩ ?_ hmem rfl ?_)
  · rw [hframe]
    exact Table.updates_update
  · show WellLed r.primaryGuestId _
    rw [hp]
    exact hled'

end Replace

section Merge
open GuestMergeService
variable {source target i j : ℕ} {t : Table ReservationGuest} {row : ReservationGuest}

def partyIn (t : Table ReservationGuest) (j : ℕ) : List ReservationGuest :=
  t.select fun g => g.reservationId == j

def absorbed (source target : ℕ) (rows : List ReservationGuest) : List ReservationGuest :=
  Roster.absorb ReservationGuest.guestId (handTo target) source target rows

theorem mem_partyIn {g : ReservationGuest} :
    g ∈ partyIn t j ↔ g ∈ t.rows ∧ g.reservationId = j := by
  simp [partyIn, Table.mem_select]

-- `row` is the one that `source` has in its reservation.
structure Sole (source : ℕ) (t : Table ReservationGuest) (row : ReservationGuest) : Prop where
  mem : row ∈ t.rows
  names : row.guestId = source
  sole : ∀ g ∈ partyIn t row.reservationId, g.guestId = source → g = row

theorem Sole.guest_iff (h : Sole source t row) {g : ReservationGuest}
    (hg : g ∈ partyIn t row.reservationId) : g.guestId = source ↔ g.id = row.id := by
  constructor
  · exact fun hs => congrArg ReservationGuest.id (h.sole g hg hs)
  · intro hid
    rw [Table.eq_of_id (mem_partyIn.mp hg).1 h.mem hid]
    exact h.names

theorem id_ne_of_elsewhere (hrow : row ∈ t.rows) (hj : j ≠ row.reservationId) :
    ∀ g ∈ partyIn t j, g.id ≠ row.id := by
  intro g hg hid
  obtain ⟨hm, hres⟩ := mem_partyIn.mp hg
  exact hj (by rw [← hres, Table.eq_of_id hm hrow hid])

theorem partyIn_delete : partyIn (t.deleteWhere fun g => g.id == i) j =
    (partyIn t j).filter fun g => !(g.id == i) := select_deleteWhere

theorem partyIn_handTo : partyIn (t.update i (handTo target) (keeps_handTo _)) j =
    (partyIn t j).map fun g => if g.id = i then handTo target g else g := by
  rw [partyIn, Table.select, (Table.updates_update (keeps_handTo _)).rows, List.filter_map]
  have hkeep : ((fun g : ReservationGuest => g.reservationId == j) ∘
      fun g => if Keyed.id g = i then handTo target g else g) = fun g => g.reservationId == j := by
    funext g
    simp only [Function.comp_apply]
    split_ifs <;> rfl
  rw [hkeep]
  rfl

theorem partyIn_mergePartyRow_ne (hrow : row ∈ t.rows) (hj : j ≠ row.reservationId) :
    partyIn (mergePartyRow target t row) j = partyIn t j := by
  have hne := id_ne_of_elsewhere hrow hj
  unfold mergePartyRow
  split_ifs
  · rw [partyIn_delete]
    exact List.filter_eq_self.mpr fun g hg => by simpa using hne g hg
  · rw [partyIn_handTo]
    refine (List.map_congr_left fun g hg => ?_).trans (List.map_id _)
    rw [if_neg (hne g hg)]
    rfl

theorem partyIn_mergePartyRow_self (h : Sole source t row) :
    partyIn (mergePartyRow target t row) row.reservationId =
      absorbed source target (partyIn t row.reservationId) := by
  have htarget : (t.rows.any fun g => g.guestId == target && g.reservationId == row.reservationId) =
      true ↔ target ∈ (partyIn t row.reservationId).map ReservationGuest.guestId := by
    simp only [List.any_eq_true, Bool.and_eq_true, beq_iff_eq, List.mem_map, mem_partyIn]
    exact ⟨fun ⟨g, hg, hid, hres⟩ => ⟨g, ⟨hg, hres⟩, hid⟩,
      fun ⟨g, ⟨hg, hres⟩, hid⟩ => ⟨g, hg, hid, hres⟩⟩
  unfold mergePartyRow absorbed Roster.absorb
  by_cases hin : target ∈ (partyIn t row.reservationId).map ReservationGuest.guestId
  · rw [if_pos (htarget.mpr hin), if_pos hin, partyIn_delete]
    refine List.filter_congr fun g hg => Bool.eq_iff_iff.mpr ?_
    simp [h.guest_iff hg]
  · rw [if_neg fun e => hin (htarget.mp e), if_neg hin, partyIn_handTo]
    refine List.map_congr_left fun g hg => ?_
    simp only [h.guest_iff hg]

theorem partyIn_fold {rest : List ReservationGuest} (hs : ∀ g ∈ rest, Sole source t g)
    (hd : rest.Pairwise fun a b => a.reservationId ≠ b.reservationId) (j : ℕ) :
    partyIn (rest.foldl (mergePartyRow target) t) j =
      if j ∈ rest.map ReservationGuest.reservationId then absorbed source target (partyIn t j)
      else partyIn t j := by
  induction rest generalizing t with
  | nil => rfl
  | cons row rest ih =>
    obtain ⟨hrow, hrest⟩ := List.pairwise_cons.mp hd
    have hsole := hs row List.mem_cons_self
    have hother : ∀ g ∈ rest, partyIn (mergePartyRow target t row) g.reservationId =
        partyIn t g.reservationId := fun g hg =>
      partyIn_mergePartyRow_ne hsole.mem (hrow g hg).symm
    have hnext : ∀ g ∈ rest, Sole source (mergePartyRow target t row) g := by
      intro g hg
      obtain ⟨hm, hn, hu⟩ := hs g (List.mem_cons_of_mem row hg)
      rw [← hother g hg] at hu
      have hp : g ∈ partyIn t g.reservationId := mem_partyIn.mpr ⟨hm, rfl⟩
      rw [← hother g hg] at hp
      exact ⟨(mem_partyIn.mp hp).1, hn, hu⟩
    rw [List.foldl_cons, ih hnext hrest, List.map_cons]
    by_cases hj : j = row.reservationId
    · have hnot : j ∉ rest.map ReservationGuest.reservationId := by
        rintro hmem
        obtain ⟨g, hg, he⟩ := List.mem_map.mp hmem
        exact hrow g hg (hj.symm.trans he.symm)
      rw [if_neg hnot, if_pos (by simp [hj]), hj]
      exact partyIn_mergePartyRow_self hsole
    · rw [partyIn_mergePartyRow_ne hsole.mem hj]
      simp [hj]

theorem partyIn_mergeParties (honce : ∀ j, ((partyIn t j).map ReservationGuest.guestId).Nodup)
    (j : ℕ) : partyIn (mergeParties source target t) j = absorbed source target (partyIn t j) := by
  have hsame : ∀ a ∈ t.rows, ∀ b ∈ t.rows, a.guestId = source → b.guestId = source →
      a.reservationId = b.reservationId → a = b := fun a ha b hb has hbs hres =>
    List.inj_on_of_nodup_map (honce b.reservationId) (mem_partyIn.mpr ⟨ha, hres⟩)
      (mem_partyIn.mpr ⟨hb, rfl⟩) (has.trans hbs.symm)
  have hsource : ∀ g, g ∈ (t.select fun g => g.guestId == source) ↔
      g ∈ t.rows ∧ g.guestId = source := by simp [Table.mem_select]
  have hsole : ∀ g ∈ (t.select fun g => g.guestId == source), Sole source t g := by
    intro g hg
    obtain ⟨hm, hn⟩ := (hsource g).mp hg
    refine ⟨hm, hn, fun q hq hqs => ?_⟩
    obtain ⟨hqm, hres⟩ := mem_partyIn.mp hq
    exact hsame q hqm g hm hqs hn hres
  have hrows : (t.select fun g => g.guestId == source).Pairwise fun a b => a.id ≠ b.id :=
    List.pairwise_map.mp (t.nodup.sublist (List.filter_sublist.map _))
  have hd : (t.select fun g => g.guestId == source).Pairwise fun a b =>
      a.reservationId ≠ b.reservationId := by
    refine hrows.imp_of_mem fun ha hb hne hres => hne ?_
    obtain ⟨ham, has⟩ := (hsource _).mp ha
    obtain ⟨hbm, hbs⟩ := (hsource _).mp hb
    rw [hsame _ ham _ hbm has hbs hres]
  rw [mergeParties, partyIn_fold hsole hd]
  split_ifs with hmem
  · rfl
  · refine (Roster.absorb_of_absent fun hin => hmem ?_).symm
    obtain ⟨g, hg, hid⟩ := List.mem_map.mp hin
    obtain ⟨hm, hres⟩ := mem_partyIn.mp hg
    exact List.mem_map.mpr ⟨g, (hsource g).mpr ⟨hm, hid⟩, hres⟩

variable {db db' : Database}

-- `source` leads a party that `target` is in too.
def LeadsBeside (db : Database) (source target : ℕ) : Prop :=
  ∃ r ∈ db.reservations.rows, r.primaryGuestId = some source ∧
    ∃ g ∈ db.party r.id, g.guestId = target

theorem Sound.once (hs : Sound db) (j : ℕ) :
    ((partyIn db.reservationGuests j).map ReservationGuest.guestId).Nodup := by
  cases hp : partyIn db.reservationGuests j with
  | nil => simp
  | cons g gs =>
    obtain ⟨hg, hres⟩ := mem_partyIn.mp (hp ▸ List.mem_cons_self)
    obtain ⟨r, hr, hid⟩ := hs.placed g hg
    rw [← hp, ← hres, ← hid]
    exact (hs.coherent r hr).once

theorem mem_led {r : Reservation} {p : Reservation → Bool} {t : Table Reservation} :
    r ∈ (t.updateWhere p (leadBy target) (keeps_leadBy _)).rows ↔
      (r ∈ t.rows ∧ p r = false) ∨ ∃ q ∈ t.rows, p q = true ∧ r = leadBy target q :=
  Table.mem_updateWhere (keeps_leadBy _)

theorem handed_leads (hres : db'.reservations = db.reservations.updateWhere
      (fun r => r.primaryGuestId == some source) (leadBy target) (keeps_leadBy _)) :
    (∀ r ∈ db.reservations.rows, ∃ q ∈ db'.reservations.rows, q.id = r.id ∧
      q.primaryGuestId = Roster.handed source target r.primaryGuestId) ∧
    ∀ q ∈ db'.reservations.rows, ∃ r ∈ db.reservations.rows, q.id = r.id ∧
      q.primaryGuestId = Roster.handed source target r.primaryGuestId := by
  have hother : ∀ r : Reservation, (r.primaryGuestId == some source) = false →
      r.primaryGuestId = Roster.handed source target r.primaryGuestId := by
    intro r hr
    cases hp : r.primaryGuestId with
    | none => rfl
    | some a =>
      have hne : a ≠ source := by simpa [hp] using hr
      simp [Roster.handed, hne]
  have hled : ∀ r : Reservation, (r.primaryGuestId == some source) = true →
      (leadBy target r).primaryGuestId = Roster.handed source target r.primaryGuestId := by
    intro r hr
    rw [beq_iff_eq.mp hr]
    simp [leadBy, Roster.handed]
  rw [hres]
  constructor
  · intro r hr
    cases hp : r.primaryGuestId == some source with
    | false => exact ⟨r, mem_led.mpr (Or.inl ⟨hr, hp⟩), rfl, hother r hp⟩
    | true => exact ⟨_, mem_led.mpr (Or.inr ⟨r, hr, hp, rfl⟩), rfl, hled r hp⟩
  · intro q hq
    rcases mem_led.mp hq with ⟨hq, hp⟩ | ⟨r, hr, hp, rfl⟩
    · exact ⟨q, hq, rfl, hother q hp⟩
    · exact ⟨r, hr, rfl, hled r hp⟩

theorem coherent_merged_iff (hs : Sound db) (h : Commits (mergeRecords source target) db () db') :
    Coherent db' ↔ ¬ LeadsBeside db source target := by
  simp only [mergeRecords, commits_bind, commits_reject, commits_get, commits_orFail,
    commits_set] at h
  obtain ⟨_, _, ⟨hne, rfl⟩, _, _, ⟨rfl, rfl⟩, s, _, ⟨hsource, rfl⟩, u, _, ⟨htarget, rfl⟩,
    _, _, ⟨_, rfl⟩, rfl⟩ := h
  obtain rfl : s.id = source := (Table.find?_eq_some.mp hsource).2
  obtain rfl : u.id = target := (Table.find?_eq_some.mp htarget).2
  have hparty : ∀ j, (mergedRecords s u.id db).party j = absorbed s.id u.id (db.party j) :=
    fun j => partyIn_mergeParties (fun j => hs.once j) j
  have hreservations : (mergedRecords s u.id db).reservations = db.reservations.updateWhere
      (fun r => r.primaryGuestId == some s.id) (leadBy u.id) (keeps_leadBy _) := rfl
  obtain ⟨hto, hof⟩ := handed_leads hreservations
  have hiff : ∀ r ∈ db.reservations.rows,
      WellLed (Roster.handed s.id u.id r.primaryGuestId) (absorbed s.id u.id (db.party r.id)) ↔
        ¬ (r.primaryGuestId = some s.id ∧ u.id ∈ (db.party r.id).map ReservationGuest.guestId) :=
    fun r hr => Roster.led_absorb_iff (fun _ => rfl) (fun _ => Iff.rfl) hne (hs.coherent r hr)
  constructor
  · rintro hc ⟨r, hr, hp, g, hg, hid⟩
    obtain ⟨q, hq, hqid, hqp⟩ := hto r hr
    have hled := hc q hq
    rw [hqid, hqp, hparty] at hled
    exact (hiff r hr).mp hled ⟨hp, hid ▸ List.mem_map_of_mem hg⟩
  · intro hn q hq
    obtain ⟨r, hr, hqid, hqp⟩ := hof q hq
    rw [hqid, hqp, hparty]
    refine (hiff r hr).mpr ?_
    rintro ⟨hp, hm⟩
    obtain ⟨g, hg, hid⟩ := List.mem_map.mp hm
    exact hn ⟨r, hr, hp, g, hg, hid⟩

theorem exists_mem_of_absorbed {g : ReservationGuest} {rows : List ReservationGuest}
    (h : g ∈ absorbed source target rows) : ∃ q, q ∈ rows := by
  cases rows with
  | nil => simp [absorbed, Roster.absorb] at h
  | cons q qs => exact ⟨q, List.mem_cons_self⟩

theorem sound_merged (hs : Sound db) (h : Commits (mergeRecords source target) db () db')
    (hn : ¬ LeadsBeside db source target) : Sound db' := by
  refine ⟨(coherent_merged_iff hs h).mpr hn, ?_⟩
  simp only [mergeRecords, commits_bind, commits_reject, commits_get, commits_orFail,
    commits_set] at h
  obtain ⟨_, _, ⟨_, rfl⟩, _, _, ⟨rfl, rfl⟩, s, _, ⟨_, rfl⟩, u, _, ⟨_, rfl⟩, _, _, ⟨_, rfl⟩,
    rfl⟩ := h
  intro g hg
  have hin : g ∈ absorbed s.id u.id (partyIn db.reservationGuests g.reservationId) := by
    rw [← partyIn_mergeParties fun j => hs.once j]
    exact mem_partyIn.mpr ⟨hg, rfl⟩
  obtain ⟨q, hq⟩ := exists_mem_of_absorbed hin
  obtain ⟨hq, hres⟩ := mem_partyIn.mp hq
  obtain ⟨r, hr, hid⟩ := hs.placed q hq
  have hreservations : (mergedRecords s u.id db).reservations = db.reservations.updateWhere
      (fun r => r.primaryGuestId == some s.id) (leadBy u.id) (keeps_leadBy _) := rfl
  obtain ⟨r', hr', hid', _⟩ := (handed_leads hreservations).1 r hr
  exact ⟨r', hr', by rw [hid', hid, hres]⟩

end Merge

section Runs
variable {db db' : Database}

inductive Command
  | commit (quoteId : ℕ) (guestId : Option ℕ) (data : CommitBookingQuote.GuestData)
      (companionIds : List ℕ) (actorId : Option ℕ)
  | update (reservationId : ℕ) (request : ReservationController.UpdateReservationRequest)
  | replace (reservationId : ℕ) (companions : List ReservationCompanionService.CompanionInput)
      (expectedRevision : ℕ)
  | merge (source target : ℕ)
  | elsewhere (write : Database → Database)

def Command.run : Command → Tx Unit
  | .commit quoteId guestId data companionIds actorId => do
    let _ ← CommitBookingQuote.handle quoteId guestId data companionIds actorId
  | .update reservationId request => do
    let _ ← ReservationController.update reservationId request
  | .replace reservationId companions expectedRevision => do
    let _ ← ReservationCompanionService.replace reservationId companions expectedRevision
  | .merge source target => GuestMergeService.mergeRecords source target
  | .elsewhere write => modify write

-- The rest of the system writes neither the parties nor who leads them.
structure SameParties (db db' : Database) : Prop where
  parties : db'.reservationGuests.rows = db.reservationGuests.rows
  leads : (db'.reservations.rows.map fun r => (r.id, r.primaryGuestId)) =
    db.reservations.rows.map fun r => (r.id, r.primaryGuestId)

def Command.Orderly (c : Command) (db : Database) : Prop :=
  match c with
  | .elsewhere write => SameParties db (write db)
  | _ => True

def Command.Careful (c : Command) (db : Database) : Prop :=
  match c with
  | .elsewhere write => SameParties db (write db)
  | .merge source target => ¬ LeadsBeside db source target
  | _ => True

theorem orderly_merge {source target : ℕ} : (Command.merge source target).Orderly db := trivial

theorem SameParties.row (h : SameParties db db') {r : Reservation}
    (hr : r ∈ db.reservations.rows) :
    ∃ q ∈ db'.reservations.rows, q.id = r.id ∧ q.primaryGuestId = r.primaryGuestId := by
  have hm : (r.id, r.primaryGuestId) ∈ db'.reservations.rows.map fun r =>
      (r.id, r.primaryGuestId) := h.leads ▸ List.mem_map_of_mem hr
  obtain ⟨q, hq, he⟩ := List.mem_map.mp hm
  exact ⟨q, hq, congrArg Prod.fst he, congrArg Prod.snd he⟩

theorem SameParties.symm (h : SameParties db db') : SameParties db' db :=
  ⟨h.parties.symm, h.leads.symm⟩

theorem sound_sameParties (hs : Sound db) (h : SameParties db db') : Sound db' where
  coherent q hq := by
    obtain ⟨r, hr, hid, hp⟩ := h.symm.row hq
    have hparty : db'.party q.id = db.party r.id := by
      unfold Database.party Table.select
      rw [h.parties, hid]
    rw [hparty, ← hp]
    exact hs.coherent r hr
  placed g hg := by
    obtain ⟨r, hr, hid⟩ := hs.placed g (h.parties ▸ hg)
    obtain ⟨q, hq, hqid, _⟩ := h.row hr
    exact ⟨q, hq, hqid.trans hid⟩

theorem sound_run {c : Command} (hs : Sound db) (ha : c.Careful db)
    (h : Commits c.run db () db') : Sound db' := by
  cases c with
  | commit =>
    simp only [Command.run, commits_bind, commits_pure] at h
    obtain ⟨_, _, h, _, rfl⟩ := h
    exact sound_handle hs h
  | update =>
    simp only [Command.run, commits_bind, commits_pure] at h
    obtain ⟨_, _, h, _, rfl⟩ := h
    exact sound_update hs h
  | replace =>
    simp only [Command.run, commits_bind, commits_pure] at h
    obtain ⟨_, _, h, _, rfl⟩ := h
    exact sound_replace hs h
  | merge => exact sound_merged hs h ha
  | elsewhere write =>
    simp only [Command.run, commits_modify] at h
    exact sound_sameParties hs (h ▸ ha)

theorem coherent_run_iff {c : Command} (hs : Sound db) (ho : c.Orderly db)
    (h : Commits c.run db () db') : Coherent db' ↔ c.Careful db := by
  by_cases hc : ∃ source target, c = .merge source target
  · obtain ⟨source, target, rfl⟩ := hc
    exact coherent_merged_iff hs h
  · have ha : c.Careful db := by
      cases c with
      | merge source target => exact absurd ⟨source, target, rfl⟩ hc
      | elsewhere => exact ho
      | _ => trivial
    exact iff_of_true (sound_run hs ha h).coherent ha

-- No stay is booked yet.
structure Opening (db : Database) : Prop where
  reservations : db.reservations.rows = []
  parties : db.reservationGuests.rows = []

theorem Opening.sound (h : Opening db) : Sound db where
  coherent r hr := by simp [h.reservations] at hr
  placed g hg := by simp [h.parties] at hg

theorem parties_stay_coherent_iff {start : Database} {c : Command} (hstart : Opening start)
    (hrun : Reaches Command.run Command.Careful start db) (ho : c.Orderly db)
    (h : Commits c.run db () db') : Coherent db ∧ (Coherent db' ↔ c.Careful db) := by
  have hs : Sound db := hrun.invariant hstart.sound fun _ _ _ hi ha hc => sound_run hi ha hc
  exact ⟨hs.coherent, coherent_run_iff hs ho h⟩

end Runs

section Scenario
open BookedTotals (season nightsFrom)

def guestNamed (name : String) (i : ℕ) : Guest where
  id := i
  firstName := name
  lastName := none
  email := none
  phone := none
  language := none
  dietary := none

theorem names_guestNamed (name : String) : Names (guestNamed name) := fun _ => rfl

def lodge : Database := { season with
  guests := ((Table.empty.insert (guestNamed "Ana") (names_guestNamed _)).insert
    (guestNamed "Ben") (names_guestNamed _)).insert (guestNamed "Eva") (names_guestNamed _) }

def quoted (db : Database) : Database :=
  perform (BookingQuoteService.create (nightsFrom 10 1)) db

-- Ana books for herself and Ben.
def couple : List Command := [.elsewhere quoted, .commit 0 (some 0) {} [1] none]

instance (db db' : Database) : Decidable (SameParties db db') :=
  decidable_of_iff (db'.reservationGuests.rows = db.reservationGuests.rows ∧
      (db'.reservations.rows.map fun r => (r.id, r.primaryGuestId)) =
        db.reservations.rows.map fun r => (r.id, r.primaryGuestId))
    ⟨fun h => ⟨h.1, h.2⟩, fun h => ⟨h.parties, h.leads⟩⟩

instance (db : Database) (source target : ℕ) : Decidable (LeadsBeside db source target) :=
  decidable_of_iff ((db.reservations.rows.any fun r => r.primaryGuestId == some source &&
      (db.party r.id).any fun g => g.guestId == target) = true)
    (by simp [LeadsBeside, List.any_eq_true])

instance (c : Command) (db : Database) : Decidable (c.Careful db) :=
  match c with
  | .elsewhere write => inferInstanceAs (Decidable (SameParties db (write db)))
  | .merge source target => inferInstanceAs (Decidable (¬ LeadsBeside db source target))
  | .commit .. => isTrue trivial
  | .update .. => isTrue trivial
  | .replace .. => isTrue trivial

theorem opening_lodge : Opening lodge := ⟨rfl, rfl⟩

theorem orderly_of_careful {c : Command} {db : Database} (h : c.Careful db) : c.Orderly db := by
  cases c with
  | elsewhere => exact h
  | _ => trivial

-- Ben takes the lead with Ana as his companion, then Ana turns out to be Ben.
theorem merged_companion_leaves_party_coherent : ∃ db db' : Database,
    Reaches Command.run Command.Careful lodge db ∧ (db.party 0).length = 2 ∧
    Commits (Command.merge 0 1).run db () db' ∧ Coherent db ∧ Coherent db' := by
  obtain ⟨db, hrun, hp⟩ : ∃ db, Reaches Command.run Command.Careful lodge db ∧
      (decide ((db.party 0).length = 2) && decide (¬ LeadsBeside db 0 1) &&
        ((Command.merge 0 1).run.run db).toOption.isSome) = true :=
    Reaches.exists_of_execute (fun _ _ => of_decide_eq_true)
      (couple ++ [.update 0 { ifMatch := some "1", primaryGuestId := some (some 1) },
        .replace 0 [{ guestId := 0, dietary := some "vegan" }] 2]) (by decide +kernel)
  simp only [Bool.and_eq_true, decide_eq_true_eq] at hp
  obtain ⟨_, db', hc⟩ := exists_commits hp.2
  have hiff := parties_stay_coherent_iff opening_lodge hrun orderly_merge hc
  exact ⟨db, db', hrun, hp.1.1, hc, hiff.1, hiff.2.mpr hp.1.2⟩

-- Ana, who leads the stay, turns out to be Ben, who is in it too: her row goes, his stays a guest's.
theorem merged_lead_leaves_party_without_one : Opening lodge ∧
    ∃ db, Reaches Command.run Command.Orderly lodge db ∧ ¬ Coherent db := by
  obtain ⟨db, hrun, hp⟩ : ∃ db, Reaches Command.run Command.Careful lodge db ∧
      (decide (LeadsBeside db 0 1) && ((Command.merge 0 1).run.run db).toOption.isSome) = true :=
    Reaches.exists_of_execute (fun _ _ => of_decide_eq_true) couple (by decide +kernel)
  simp only [Bool.and_eq_true, decide_eq_true_eq] at hp
  obtain ⟨_, db', hc⟩ := exists_commits hp.2
  have hs : Sound db := hrun.invariant opening_lodge.sound fun _ _ _ hi ha h => sound_run hi ha h
  refine ⟨opening_lodge, db', (hrun.mono fun _ _ => orderly_of_careful).step orderly_merge hc, ?_⟩
  exact fun hcoherent => (coherent_merged_iff hs hc).mp hcoherent hp.1

end Scenario
end ReservationParties
