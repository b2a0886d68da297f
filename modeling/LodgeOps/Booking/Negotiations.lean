import LodgeOps.Booking.BookedTotals
import LodgeOps.Booking.Proposals
import LodgeOps.Store.RevisionLog

theorem Table.le_of_oldest? {ρ : Type} [Keyed ρ] {t : Table ρ} {p : ρ → Bool} {at' : ρ → ℤ} {r s : ρ}
    (h : t.oldest? p at' = some r) (hs : s ∈ t.select p) : at' r ≤ at' s := by
  have hsorted := List.pairwise_insertionSort (fun r s => at' r ≤ at' s) (t.select p)
  have hmem : s ∈ (t.select p).insertionSort fun r s => at' r ≤ at' s :=
    (List.mem_insertionSort _).mpr hs
  unfold Table.oldest? at h
  cases hl : (t.select p).insertionSort fun r s => at' r ≤ at' s with
  | nil => simp [hl] at hmem
  | cons x xs =>
    rw [hl] at h hsorted hmem
    obtain rfl : x = r := Option.some.inj h
    rcases List.mem_cons.mp hmem with rfl | hx
    · exact le_rfl
    · exact (List.pairwise_cons.mp hsorted).1 s hx

namespace ProposalService
open Schema Transaction RevisionLog

section Lines
variable {s s' : Desk} {p q x : Proposal} {reference : String} {f : Proposal → Proposal}

abbrev Latest (s : Desk) (p : Proposal) : Prop := Head Proposal.version (s.line p.reference) p

def Contiguous (s : Desk) : Prop :=
  ∀ reference, Numbered Proposal.version (fun p => p.bookingQuoteId) (s.line reference)

theorem mem_line : p ∈ s.line reference ↔ p ∈ s.proposals.rows ∧ p.reference = reference := by
  simp [Desk.line, Table.mem_select]

theorem Latest.unique (hc : Contiguous s) (hp : Latest s p) (hq : Latest s q)
    (hr : p.reference = q.reference) : p = q := by
  have hqp : q ∈ s.line p.reference := hr ▸ hq.1
  have hpq : p ∈ s.line q.reference := hr ▸ hp.1
  exact (hc p.reference).eq_of_number hp.1 hqp (le_antisymm (hq.2 p hpq) (hp.2 q hqp))

theorem latest_of_latest? (hx : latest? s reference = some x) :
    x.reference = reference ∧ Latest s x := by
  have hx' : s.proposals.oldest? (fun p => p.reference == reference)
      (fun p => -(p.version : ℤ)) = some x := hx
  have hm := Table.oldest?_some hx'
  have hr : x.reference = reference := by simpa using hm.2
  subst hr
  refine ⟨rfl, mem_line.mpr ⟨hm.1, rfl⟩, fun w hw => ?_⟩
  have hle := Table.le_of_oldest? hx' hw
  omega

theorem version_of_latest (hc : Contiguous s) (h : Latest s x) :
    x.version = (s.line x.reference).length := by
  refine le_antisymm ((hc _).number_le h.1) ?_
  have hpos : 0 < (s.line x.reference).length := List.length_pos_of_mem h.1
  have hlast : (s.line x.reference).length ∈ (s.line x.reference).map Proposal.version := by
    rw [(hc x.reference).numbers, List.mem_range'_1]
    omega
  obtain ⟨w, hw, he⟩ := List.mem_map.mp hlast
  exact he ▸ h.2 w hw

-- A command rewrites one version that is not accepted and keeps what makes it that version.
structure Rewrites (s s' : Desk) (p : Proposal) (f : Proposal → Proposal) : Prop where
  mem : p ∈ s.proposals.rows
  updates : Table.Updates s.proposals s'.proposals p.id f
  reference : (f p).reference = p.reference
  version : (f p).version = p.version
  bookingQuoteId : (f p).bookingQuoteId = p.bookingQuoteId
  unaccepted : p.status ≠ .accepted

def rewritten (p : Proposal) (f : Proposal → Proposal) (x : Proposal) : Proposal :=
  if x.id = p.id then f x else x

namespace Rewrites
variable (h : Rewrites s s' p f)
include h

theorem eq_of_id (hx : x ∈ s.proposals.rows) (hid : x.id = p.id) : x = p :=
  Table.eq_of_id hx h.mem hid

theorem same {β : Type} {g : Proposal → β} (hg : g (f p) = g p) (hx : x ∈ s.proposals.rows) :
    g (rewritten p f x) = g x := by
  unfold rewritten
  split_ifs with hid
  · rw [h.eq_of_id hx hid, hg]
  · rfl

theorem line : s'.line reference = (s.line reference).map (rewritten p f) := by
  have hrows : s'.proposals.rows = s.proposals.rows.map (rewritten p f) := h.updates.rows
  rw [Desk.line, Table.select, hrows, List.filter_map]
  refine congrArg (List.map _) (List.filter_congr fun x hx => ?_)
  simp only [Function.comp_apply, h.same (g := Proposal.reference) h.reference hx]

theorem map_line {β : Type} {g : Proposal → β} (hg : g (f p) = g p) :
    (s'.line reference).map g = (s.line reference).map g := by
  rw [h.line, List.map_map]
  exact List.map_congr_left fun x hx => h.same hg (mem_line.mp hx).1

theorem contiguous (hc : Contiguous s) : Contiguous s' := by
  intro reference
  refine ⟨?_, ?_⟩
  · rw [h.map_line (g := Proposal.version) h.version, (hc reference).numbers, h.line,
      List.length_map]
  · rw [h.map_line (g := fun x => x.bookingQuoteId) h.bookingQuoteId]
    exact (hc reference).distinct

theorem mem_iff : x ∈ s'.proposals.rows ↔ ∃ w ∈ s.proposals.rows, rewritten p f w = x := by
  have hrows : s'.proposals.rows = s.proposals.rows.map (rewritten p f) := h.updates.rows
  rw [hrows, List.mem_map]

theorem latest (hx : Latest s x) : Latest s' (rewritten p f x) := by
  have hr := h.same (g := Proposal.reference) h.reference (mem_line.mp hx.1).1
  have hv := h.same (g := Proposal.version) h.version (mem_line.mp hx.1).1
  refine ⟨?_, fun w hw => ?_⟩
  · rw [hr, h.line]
    exact List.mem_map_of_mem hx.1
  · rw [hr, h.line] at hw
    obtain ⟨u, hu, rfl⟩ := List.mem_map.mp hw
    rw [hv, h.same (g := Proposal.version) h.version (mem_line.mp hu).1]
    exact hx.2 u hu

theorem of_ne (hx : x ∈ s.proposals.rows) (hs : x.status = .accepted) : rewritten p f x = x :=
  if_neg fun hid => h.unaccepted (h.eq_of_id hx hid ▸ hs)

end Rewrites

-- A command writes a new version, after the latest one, on a quote that backs no other.
structure Creates (s s' : Desk) (p : Proposal) : Prop where
  appends : Table.Appends s.proposals s'.proposals p
  draft : p.status = .draft
  backed : p.bookingQuoteId ≠ none
  fresh : ∀ x ∈ s.proposals.rows, x.bookingQuoteId ≠ p.bookingQuoteId
  version : p.version = (s.line p.reference).length + 1
  unaccepted : ∀ x ∈ s.line p.reference, x.status ≠ .accepted

namespace Creates
variable (h : Creates s s' p)
include h

theorem line_self : s'.line p.reference = s.line p.reference ++ [p] := by
  simp [Desk.line, Table.select, h.appends.rows]

theorem line_ne (hr : reference ≠ p.reference) : s'.line reference = s.line reference := by
  simp [Desk.line, Table.select, h.appends.rows, hr.symm]

theorem contiguous (hc : Contiguous s) : Contiguous s' := by
  intro reference
  by_cases hr : reference = p.reference
  · subst hr
    rw [h.line_self]
    refine (hc _).append (fun hm => ?_) h.version
    obtain ⟨x, hx, he⟩ := List.mem_map.mp hm
    exact h.fresh x (mem_line.mp hx).1 he
  · rw [h.line_ne hr]
    exact hc reference

theorem line_accepted (hx : x ∈ s.proposals.rows) (hs : x.status = .accepted) :
    s'.line x.reference = s.line x.reference :=
  h.line_ne fun he => h.unaccepted x (mem_line.mpr ⟨hx, he⟩) hs

end Creates
end Lines
section Deals
variable {db db' : Database} {q : BookingQuote} {r : Reservation} {actor : Option ℕ} {p : Proposal}

-- A reservation made from a quote is the one that the quote was committed to.
def Honoured (db : Database) : Prop :=
  ∀ r ∈ db.reservations.rows, ∀ i, r.bookingQuoteId = some i →
    ∃ q ∈ db.quotes.rows, q.id = i ∧ q.status = .committed ∧ q.reservationId = some r.id

structure Grows (db db' : Database) : Prop where
  stays : ∀ r ∈ db.reservations.rows, ∃ w ∈ db'.reservations.rows,
    w.id = r.id ∧ w.bookingQuoteId = r.bookingQuoteId
  honoured : Honoured db → Honoured db'

def madeFrom (db : Database) (p : Proposal) : Prop :=
  ∃ r ∈ db.reservations.rows, p.reservationId = some r.id ∧ p.bookingQuoteId ≠ none ∧
    r.bookingQuoteId = p.bookingQuoteId

-- The version has a reservation, and it is the only one made from the quote of the version.
def Linked (db : Database) (p : Proposal) : Prop :=
  ∃ r ∈ db.reservations.rows, p.reservationId = some r.id ∧ p.bookingQuoteId ≠ none ∧
    r.bookingQuoteId = p.bookingQuoteId ∧
    ∀ w ∈ db.reservations.rows, w.bookingQuoteId = p.bookingQuoteId → w = r

theorem linked_of_madeFrom (hh : Honoured db) (h : madeFrom db p) : Linked db p := by
  obtain ⟨r, hr, hid, hne, hq⟩ := h
  refine ⟨r, hr, hid, hne, hq, fun w hw hwq => ?_⟩
  obtain ⟨i, hi⟩ := Option.ne_none_iff_exists'.mp hne
  obtain ⟨q, hqm, hqi, _, hqr⟩ := hh r hr i (hq.trans hi)
  obtain ⟨q', hqm', hqi', _, hqr'⟩ := hh w hw i (hwq.trans hi)
  obtain rfl : q' = q := Table.eq_of_id hqm' hqm (hqi'.trans hqi.symm)
  exact Table.eq_of_id hw hr (Option.some.inj (hqr'.symm.trans hqr))

theorem madeFrom_grows (hg : Grows db db') (h : madeFrom db p) : madeFrom db' p := by
  obtain ⟨r, hr, hid, hne, hq⟩ := h
  obtain ⟨w, hw, hwid, hwq⟩ := hg.stays r hr
  exact ⟨w, hw, by rw [hid, hwid], hne, hwq.trans hq⟩

theorem grows_of_quotes (hr : db'.reservations = db.reservations)
    (hq : ∀ q ∈ db.quotes.rows, q ∈ db'.quotes.rows) : Grows db db' where
  stays r hm := ⟨r, hr ▸ hm, rfl, rfl⟩
  honoured hh r hm i hi := by
    obtain ⟨q, hqm, hrest⟩ := hh r (hr ▸ hm) i hi
    exact ⟨q, hq q hqm, hrest⟩

theorem grows_refl : Grows db db := grows_of_quotes rfl fun _ hq => hq

theorem grows_committed (hq : q ∈ db.quotes.rows)
    (h : CommitBookingQuote.Committed db db' q r actor) : Grows db db' where
  stays w hw := ⟨w, h.reservations.mem_old hw, rfl, rfl⟩
  honoured hh w hw i hi := by
    have hu : Table.Updates db.quotes db'.quotes q.id
        (CommitBookingQuote.committed r.id db.clock) := h.quotes ▸ Table.updates_update
    rcases h.reservations.mem.mp hw with hw | rfl
    · obtain ⟨x, hx, hxi, hxs, hxr⟩ := hh w hw i hi
      have hne : x.id ≠ q.id := fun hid => by
        obtain rfl := Table.eq_of_id hx hq hid
        rw [h.pending] at hxs
        cases hxs
      exact ⟨x, hu.mem_ne hx hne, hxi, hxs, hxr⟩
    · obtain ⟨guest, hrow⟩ := h.row
      have hqi : w.bookingQuoteId = some q.id := by
        rw [hrow]
        rfl
      exact ⟨_, hu.mem_self hq rfl, Option.some.inj (hqi.symm.trans hi), rfl, rfl⟩

end Deals

section Effects
variable {s s' t : Desk} {p q x : Proposal} {data : ProposalData} {own actor : Option ℕ}
variable {a : DraftAttributes} {reference : String} {version i : ℕ}

theorem draftAttributes_ok (h : draftAttributes s data own = .ok a) :
    ∃ quoteId, data.bookingQuoteId = some quoteId ∧ a.bookingQuoteId = some quoteId ∧
      ∀ x ∈ s.proposals.rows, x.bookingQuoteId = some quoteId → some x.id = own := by
  simp only [draftAttributes, bind_eq_ok, found_eq_ok, refuse_eq_ok] at h
  obtain ⟨quoteId, hdata, quote, hquote, _, _, _, hbacks, _, _, _, _, ha⟩ := h
  have hid : quote.id = quoteId := (Table.find?_eq_some.mp hquote).2
  obtain rfl : attributesOf quote data = a := Except.ok.inj ha
  refine ⟨quoteId, hdata, congrArg some hid, fun x hx hq => ?_⟩
  by_contra hne
  exact hbacks (List.any_eq_true.mpr ⟨x, hx, by simp [backs, hid, hq, hne]⟩)

theorem commits_store (h : Commits (store a reference version actor) s p s') :
    (∀ x ∈ s.proposals.rows, x.reference = reference → x.version ≠ version) ∧
      p = newProposal a reference version actor s.proposals.next ∧
      Table.Appends s.proposals s'.proposals p ∧ s'.db = s.db := by
  simp only [store, commits_bind, commits_get, commits_reject, commits_set, commits_pure] at h
  obtain ⟨_, _, ⟨rfl, rfl⟩, _, _, ⟨hnone, rfl⟩, _, _, rfl, rfl, rfl⟩ := h
  refine ⟨fun x hx hr hv => hnone (List.any_eq_true.mpr ⟨x, hx, by simp [hr, hv]⟩), rfl,
    Table.appends_insert (names_newProposal _ _ _ _), rfl⟩

structure Negotiated (s : Desk) : Prop where
  contiguous : Contiguous s
  backed : ∀ p ∈ s.proposals.rows, p.bookingQuoteId ≠ none
  owned : ∀ p ∈ s.proposals.rows, ∀ q ∈ s.proposals.rows,
    p.bookingQuoteId = q.bookingQuoteId → p = q
  latest : ∀ p ∈ s.proposals.rows, p.status = .accepted → Latest s p
  made : ∀ p ∈ s.proposals.rows, p.status = .accepted → madeFrom s.db p
  honoured : Honoured s.db

inductive Effect (s s' : Desk) : Prop
  | same (hp : s'.proposals = s.proposals) : Effect s s'
  | created (p : Proposal) (h : Creates s s' p) : Effect s s'
  | redrafted (p : Proposal) (f : Proposal → Proposal) (h : Rewrites s s' p f)
      (hs : (f p).status = .draft) : Effect s s'
  | dispatched (p : Proposal) (f : Proposal → Proposal) (h : Rewrites s s' p f)
      (hs : (f p).status = .sent) (hl : Latest s p) : Effect s s'
  | converted (p : Proposal) (f : Proposal → Proposal) (h : Rewrites s s' p f)
      (hl : Latest s p) (hm : madeFrom s'.db (f p)) : Effect s s'

theorem line_of_empty (hc : Contiguous s)
    (h : ∀ x ∈ s.proposals.rows, x.reference = reference → x.version ≠ 1) :
    s.line reference = [] := by
  cases hl : s.line reference with
  | nil => rfl
  | cons x xs =>
    have hone : 1 ∈ (s.line reference).map Proposal.version := by
      rw [(hc reference).numbers, List.mem_range'_1, hl, List.length_cons]
      omega
    obtain ⟨w, hw, hv⟩ := List.mem_map.mp hone
    obtain ⟨hm, hr⟩ := mem_line.mp hw
    exact absurd hv (h w hm hr)

theorem effect_createDraft {ref : Option String} {ulid : String} (hn : Negotiated s)
    (h : Commits (createDraft data ref ulid actor) s p s') : Effect s s' ∧ Grows s.db s'.db := by
  simp only [createDraft, commits_bind, commits_check] at h
  obtain ⟨a, _, ⟨ha, rfl⟩, h⟩ := h
  obtain ⟨hkey, hp, happ, hdb⟩ := commits_store h
  obtain ⟨quoteId, _, hq, hfresh⟩ := draftAttributes_ok ha
  have hline := line_of_empty hn.contiguous hkey
  have hpq : p.bookingQuoteId = some quoteId := by rw [hp]; exact hq
  have hpr : s.line p.reference = [] := by rw [hp]; exact hline
  refine ⟨.created p ⟨happ, by rw [hp]; rfl, by simp [hpq], fun x hx hxq => ?_, ?_, ?_⟩,
    hdb ▸ grows_refl⟩
  · have hown := hfresh x hx (hxq.trans hpq)
    cases hown
  · rw [hpr, hp]
    rfl
  · simp [hpr]

theorem latest_of_asserted (hp : p ∈ s.proposals.rows) (h : assertLatestVersion s p = .ok ()) :
    latest? s p.reference = some p ∧ Latest s p := by
  simp only [assertLatestVersion, bind_eq_ok, found_eq_ok, refuse_eq_ok] at h
  obtain ⟨x, hx, hid⟩ := h
  obtain ⟨_, hl⟩ := latest_of_latest? hx
  obtain rfl : x = p := Table.eq_of_id (mem_line.mp hl.1).1 hp (not_not.mp hid)
  exact ⟨hx, hl⟩

theorem commits_locked (h : Commits (locked i) s p s') :
    p ∈ s.proposals.rows ∧ p.id = i ∧ s' = s := by
  simp only [locked, commits_bind, commits_get, commits_orFail] at h
  obtain ⟨_, _, ⟨rfl, rfl⟩, hp, rfl⟩ := h
  obtain ⟨hm, hid⟩ := Table.find?_eq_some.mp hp
  exact ⟨hm, hid, rfl⟩

theorem effect_updateDraft {data : UpdateData} (h : Commits (updateDraft i data) s () s') :
    Effect s s' ∧ Grows s.db s'.db := by
  simp only [updateDraft, commits_bind, commits_check, commits_modify] at h
  obtain ⟨p, _, hlock, _, _, ⟨hdraft, rfl⟩, _, _, ⟨_, rfl⟩, a, _, ⟨ha, rfl⟩, rfl⟩ := h
  obtain ⟨hp, rfl, rfl⟩ := commits_locked hlock
  have hstatus : p.status = .draft := not_not.mp (refuse_eq_ok.mp hdraft)
  obtain ⟨quoteId, hdata, hq, _⟩ := draftAttributes_ok ha
  refine ⟨.redrafted p (redrafted a) ⟨hp, Table.updates_update (keeps_redrafted a), rfl, rfl,
    hq.trans hdata.symm, ?_⟩ hstatus, grows_refl⟩
  rw [hstatus]
  exact ProposalStatus.noConfusion

theorem effect_send (h : Commits (send i) s () s') : Effect s s' ∧ Grows s.db s'.db := by
  simp only [send, commits_bind, commits_ite, commits_pure, commits_check, commits_modify] at h
  obtain ⟨p, _, hlock, ⟨_, _, rfl⟩ | ⟨_, _, _, ⟨hok, rfl⟩, rfl⟩⟩ := h
  · obtain ⟨_, _, rfl⟩ := commits_locked hlock
    exact ⟨.same rfl, grows_refl⟩
  · obtain ⟨hp, rfl, rfl⟩ := commits_locked hlock
    simp only [assertSendable, bind_eq_ok] at hok
    obtain ⟨_, hdraft, _, _, _, hlatest, _⟩ := hok
    have hstatus : p.status = .draft := not_not.mp (refuse_eq_ok.mp hdraft)
    refine ⟨.dispatched p (dispatched (sentFacts _ p) _) ⟨hp,
      Table.updates_update (keeps_dispatched _ _), rfl, rfl, rfl, ?_⟩ rfl
      (latest_of_asserted hp hlatest).2, grows_refl⟩
    rw [hstatus]
    exact ProposalStatus.noConfusion

theorem creates_of_db {s₁ : Desk} (hp : s₁.proposals = s.proposals) (h : Creates s₁ s' p) :
    Creates s s' p := by
  have hline : s₁.line = s.line := by
    funext reference
    rw [Desk.line, hp]
    rfl
  exact ⟨hp ▸ h.appends, h.draft, h.backed, hp ▸ h.fresh, hline ▸ h.version, hline ▸ h.unaccepted⟩

theorem commits_onDb_create {input : BookingQuoteService.BookingInput} {quote : BookingQuote}
    (h : Commits (onDb (BookingQuoteService.create input)) s quote s') :
    s'.proposals = s.proposals ∧ Grows s.db s'.db := by
  obtain ⟨db, hc, rfl⟩ := commits_zoom.mp h
  obtain ⟨_, _, _, happ, hdb⟩ := BookingQuoteService.commits_create hc
  refine ⟨rfl, grows_of_quotes ?_ fun q hq => happ.mem_old hq⟩
  show db.reservations = _
  rw [hdb]

theorem effect_revise (hn : Negotiated s) (h : Commits (revise i actor) s p s') :
    Effect s s' ∧ Grows s.db s'.db := by
  simp only [revise, commits_bind, commits_reject, commits_check, commits_get, commits_orFail] at h
  obtain ⟨source, _, hlock, _, _, ⟨hopen, rfl⟩, _, _, ⟨_, rfl⟩, _, _, ⟨hlatest, rfl⟩, _, _,
    ⟨rfl, rfl⟩, latest, _, ⟨hl, rfl⟩, _, _, ⟨_, rfl⟩, quote, t, hquote, a, _, ⟨ha, rfl⟩, h⟩ := h
  obtain ⟨hp, rfl, rfl⟩ := commits_locked hlock
  obtain ⟨hx, hlast⟩ := latest_of_asserted hp hlatest
  obtain rfl : latest = source := Option.some.inj (hl.symm.trans hx)
  obtain ⟨ht, hgrows⟩ := commits_onDb_create hquote
  obtain ⟨_, hpr, happ, hdb⟩ := commits_store h
  obtain ⟨quoteId, _, hq, hfresh⟩ := draftAttributes_ok ha
  have hpq : p.bookingQuoteId = some quoteId := by rw [hpr]; exact hq
  have href : p.reference = latest.reference := by rw [hpr]; rfl
  refine ⟨.created p ⟨ht ▸ happ, by rw [hpr]; rfl, by simp [hpq], fun x hx hxq => ?_, ?_,
    fun x hx hxs => ?_⟩, hdb ▸ hgrows⟩
  · have hown := hfresh x (ht ▸ hx) (hxq.trans hpq)
    cases hown
  · rw [href, ← version_of_latest hn.contiguous hlast, hpr]
    rfl
  · obtain ⟨hm, hr⟩ := mem_line.mp hx
    have hxl := hn.latest x hm hxs
    obtain rfl := hxl.unique hn.contiguous hlast (hr.trans href)
    exact hopen hxs

theorem commits_handle_pending {db db' : Database} {quoteId : ℕ} {guestId : Option ℕ}
    {data : CommitBookingQuote.GuestData} {companions : List ℕ} {quote : BookingQuote}
    {r : Reservation} (hq : db.quotes.find? quoteId = some quote) (hp : quote.status = .pending)
    (h : Commits (CommitBookingQuote.handle quoteId guestId data companions actor) db r db') :
    CommitBookingQuote.Committed db db' quote r actor := by
  simp only [CommitBookingQuote.handle, commits_bind, commits_get, commits_orFail] at h
  obtain ⟨_, _, ⟨rfl, rfl⟩, locked, _, ⟨hfound, rfl⟩, h⟩ := h
  obtain rfl : locked = quote := Option.some.inj (hfound.symm.trans hq)
  split at h
  · next hs _ => rw [hp] at hs; cases hs
  · exact CommitBookingQuote.commits_commit h

theorem effect_convertSent {r : Reservation} (hp : p ∈ s.proposals.rows)
    (h : Commits (convertSent p actor) s r s') : Effect s s' ∧ Grows s.db s'.db := by
  simp only [convertSent, onDb, commits_bind, commits_check, commits_get, commits_orFail,
    commits_reject, commits_zoom, commits_modify, commits_pure] at h
  obtain ⟨_, _, ⟨hok, rfl⟩, _, _, ⟨rfl, rfl⟩, quote, _, ⟨hquote, rfl⟩, _, _, ⟨hopen, rfl⟩, r, _,
    ⟨db, hc, rfl⟩, _, _, rfl, rfl, rfl⟩ := h
  simp only [assertConvertible, bind_eq_ok] at hok
  obtain ⟨_, hsent, _, _, _, hlatest, _⟩ := hok
  have hstatus : p.status = .sent := not_not.mp (refuse_eq_ok.mp hsent)
  obtain ⟨i, hi, hfound⟩ := Option.bind_eq_some_iff.mp hquote
  obtain ⟨hmem, hid⟩ := Table.find?_eq_some.mp hfound
  obtain rfl : quote.id = i := hid
  have hcommitted := commits_handle_pending hfound (not_not.mp hopen).1 hc
  refine ⟨.converted p (acceptedAs r.id db.clock) ⟨hp,
    Table.updates_update (keeps_acceptedAs _ _), rfl, rfl, rfl, ?_⟩
    (latest_of_asserted hp hlatest).2 ⟨r, hcommitted.reservations.mem_new, rfl, ?_, ?_⟩,
    grows_committed hmem hcommitted⟩
  · rw [hstatus]
    exact ProposalStatus.noConfusion
  · simp [acceptedAs, hi]
  · obtain ⟨guest, hrow⟩ := hcommitted.row
    show r.bookingQuoteId = p.bookingQuoteId
    rw [hrow, hi]
    rfl

theorem effect_convert {r : Reservation} (h : Commits (convertToReservation i actor) s r s') :
    Effect s s' ∧ Grows s.db s'.db := by
  simp only [convertToReservation, commits_bind] at h
  obtain ⟨p, _, hlock, h⟩ := h
  obtain ⟨hp, _, rfl⟩ := commits_locked hlock
  split at h
  · simp only [acceptedReservation, commits_bind, commits_get, commits_orFail, commits_reject,
      commits_pure] at h
    obtain ⟨_, _, ⟨rfl, rfl⟩, _, _, ⟨_, rfl⟩, _, _, ⟨_, rfl⟩, _, rfl⟩ := h
    exact ⟨.same rfl, grows_refl⟩
  · exact effect_convertSent hp h

end Effects

section Steps
variable {s s' : Desk} {p x : Proposal} {f : Proposal → Proposal}

theorem Creates.negotiated (h : Creates s s' p) (hn : Negotiated s) (hg : Grows s.db s'.db) :
    Negotiated s' where
  contiguous := h.contiguous hn.contiguous
  backed x hx := by
    rcases h.appends.mem.mp hx with hx | rfl
    · exact hn.backed x hx
    · exact h.backed
  owned x hx y hy hq := by
    rcases h.appends.mem.mp hx with hx | rfl <;> rcases h.appends.mem.mp hy with hy | rfl
    · exact hn.owned x hx y hy hq
    · exact absurd hq (h.fresh x hx)
    · exact absurd hq.symm (h.fresh y hy)
    · rfl
  latest x hx hs := by
    rcases h.appends.mem.mp hx with hx | rfl
    · have hl := hn.latest x hx hs
      unfold Latest
      rw [h.line_accepted hx hs]
      exact hl
    · rw [h.draft] at hs
      cases hs
  made x hx hs := by
    rcases h.appends.mem.mp hx with hx | rfl
    · exact madeFrom_grows hg (hn.made x hx hs)
    · rw [h.draft] at hs
      cases hs
  honoured := hg.honoured hn.honoured

theorem Rewrites.negotiated (h : Rewrites s s' p f) (hn : Negotiated s) (hg : Grows s.db s'.db)
    (ha : (f p).status = .accepted → Latest s p ∧ madeFrom s'.db (f p)) : Negotiated s' where
  contiguous := h.contiguous hn.contiguous
  backed x hx := by
    obtain ⟨w, hw, rfl⟩ := h.mem_iff.mp hx
    rw [h.same (g := fun x => x.bookingQuoteId) h.bookingQuoteId hw]
    exact hn.backed w hw
  owned x hx y hy hq := by
    obtain ⟨w, hw, rfl⟩ := h.mem_iff.mp hx
    obtain ⟨u, hu, rfl⟩ := h.mem_iff.mp hy
    rw [h.same (g := fun x => x.bookingQuoteId) h.bookingQuoteId hw,
      h.same (g := fun x => x.bookingQuoteId) h.bookingQuoteId hu] at hq
    rw [hn.owned w hw u hu hq]
  latest x hx hs := by
    obtain ⟨w, hw, rfl⟩ := h.mem_iff.mp hx
    by_cases hid : w.id = p.id
    · obtain rfl := h.eq_of_id hw hid
      rw [rewritten, if_pos rfl] at hs
      exact h.latest (ha hs).1
    · rw [rewritten, if_neg hid] at hs
      exact h.latest (hn.latest w hw hs)
  made x hx hs := by
    obtain ⟨w, hw, rfl⟩ := h.mem_iff.mp hx
    by_cases hid : w.id = p.id
    · obtain rfl := h.eq_of_id hw hid
      rw [rewritten, if_pos rfl] at hs ⊢
      exact (ha hs).2
    · rw [rewritten, if_neg hid] at hs ⊢
      exact madeFrom_grows hg (hn.made w hw hs)
  honoured := hg.honoured hn.honoured

theorem negotiated_effect (hn : Negotiated s) (he : Effect s s') (hg : Grows s.db s'.db) :
    Negotiated s' := by
  cases he with
  | same hp =>
    have hline : s'.line = s.line := by
      funext reference
      rw [Desk.line, hp]
      rfl
    have hlatest : ∀ p, Latest s p → Latest s' p := fun p hl => by
      unfold Latest
      rw [hline]
      exact hl
    exact ⟨fun reference => hline ▸ hn.contiguous reference, hp ▸ hn.backed, hp ▸ hn.owned,
      fun p hm hs => hlatest p (hn.latest p (hp ▸ hm) hs),
      fun p hm hs => madeFrom_grows hg (hn.made p (hp ▸ hm) hs), hg.honoured hn.honoured⟩
  | created p h => exact h.negotiated hn hg
  | redrafted p f h hs => exact h.negotiated hn hg fun ha => by simp [hs] at ha
  | dispatched p f h hs _ => exact h.negotiated hn hg fun ha => by simp [hs] at ha
  | converted p f h hl hm => exact h.negotiated hn hg fun _ => ⟨hl, hm⟩

-- What a step may do to the versions that are out, and to a reference that has been accepted.
structure Advances (s s' : Desk) : Prop where
  moves : ∀ x ∈ s'.proposals.rows, x.status = .sent ∨ x.status = .accepted →
    ∃ w ∈ s.proposals.rows, w.id = x.id ∧ (w.status = x.status ∨ Latest s w)
  final : ∀ x ∈ s.proposals.rows, x.status = .accepted → x ∈ s'.proposals.rows
  closed : ∀ x ∈ s.proposals.rows, x.status = .accepted →
    (s'.line x.reference).map Proposal.version = (s.line x.reference).map Proposal.version

theorem Rewrites.advances (h : Rewrites s s' p f)
    (hm : (f p).status = .sent ∨ (f p).status = .accepted → Latest s p) : Advances s s' where
  moves x hx hs := by
    obtain ⟨w, hw, rfl⟩ := h.mem_iff.mp hx
    by_cases hid : w.id = p.id
    · obtain rfl := h.eq_of_id hw hid
      rw [rewritten, if_pos rfl] at hs ⊢
      exact ⟨w, hw, (h.updates.keeps w).symm, Or.inr (hm hs)⟩
    · rw [rewritten, if_neg hid]
      exact ⟨w, hw, rfl, Or.inl rfl⟩
  final x hx hs := h.mem_iff.mpr ⟨x, hx, h.of_ne hx hs⟩
  closed x _ _ := h.map_line h.version

theorem advances_effect (he : Effect s s') : Advances s s' := by
  cases he with
  | same hp =>
    refine ⟨fun x hx _ => ⟨x, hp ▸ hx, rfl, Or.inl rfl⟩, fun x hx _ => hp.symm ▸ hx,
      fun x _ _ => ?_⟩
    rw [Desk.line, hp]
    rfl
  | created p h =>
    refine ⟨fun x hx hs => ?_, fun x hx _ => h.appends.mem_old hx, fun x hx hs => ?_⟩
    · rcases h.appends.mem.mp hx with hx | rfl
      · exact ⟨x, hx, rfl, Or.inl rfl⟩
      · rw [h.draft] at hs
        rcases hs with hs | hs <;> cases hs
    · rw [h.line_accepted hx hs]
  | redrafted p f h hs => exact h.advances fun hm => by simp [hs] at hm
  | dispatched p f h hs hl => exact h.advances fun _ => hl
  | converted p f h hl _ => exact h.advances fun _ => hl

end Steps
section Runs
variable {s s' start : Desk} {c : Command}

inductive Command
  | createDraft (data : ProposalData) (reference : Option String) (ulid : String)
      (actorId : Option ℕ)
  | updateDraft (proposalId : ℕ) (data : UpdateData)
  | send (proposalId : ℕ)
  | revise (proposalId : ℕ) (actorId : Option ℕ)
  | convert (proposalId : ℕ) (actorId : Option ℕ)
  | commit (quoteId : ℕ) (guestId : Option ℕ) (data : CommitBookingQuote.GuestData)
      (companionIds : List ℕ) (actorId : Option ℕ)
  | elsewhere (write : Database → Database)

def Command.run : Command → DeskTx Unit
  | .createDraft data reference ulid actorId => do
    let _ ← ProposalService.createDraft data reference ulid actorId
  | .updateDraft proposalId data => ProposalService.updateDraft proposalId data
  | .send proposalId => ProposalService.send proposalId
  | .revise proposalId actorId => do
    let _ ← ProposalService.revise proposalId actorId
  | .convert proposalId actorId => do
    let _ ← convertToReservation proposalId actorId
  | .commit quoteId guestId data companionIds actorId => do
    let _ ← onDb (CommitBookingQuote.handle quoteId guestId data companionIds actorId)
  | .elsewhere write => modify fun s => s.withDb (write s.db)

-- The rest of the system makes no reservation from a quote and takes no committed quote back.
structure Elsewhere (db db' : Database) : Prop where
  reservations : (db'.reservations.rows.map fun r => (r.id, r.bookingQuoteId)) =
    db.reservations.rows.map fun r => (r.id, r.bookingQuoteId)
  committed : ∀ q ∈ db.quotes.rows, q.status = .committed →
    ∃ w ∈ db'.quotes.rows, w.id = q.id ∧ w.status = .committed ∧ w.reservationId = q.reservationId

def Command.Orderly (c : Command) (s : Desk) : Prop :=
  match c with
  | .elsewhere write => Elsewhere s.db (write s.db)
  | _ => True

theorem made_of_keys {xs ys : List Reservation}
    (h : (ys.map fun r => (r.id, r.bookingQuoteId)) = xs.map fun r => (r.id, r.bookingQuoteId))
    {r : Reservation} (hr : r ∈ xs) :
    ∃ w ∈ ys, w.id = r.id ∧ w.bookingQuoteId = r.bookingQuoteId := by
  have hm : (r.id, r.bookingQuoteId) ∈ ys.map fun r => (r.id, r.bookingQuoteId) :=
    h ▸ List.mem_map_of_mem hr
  obtain ⟨w, hw, he⟩ := List.mem_map.mp hm
  exact ⟨w, hw, congrArg Prod.fst he, congrArg Prod.snd he⟩

theorem grows_elsewhere {db db' : Database} (h : Elsewhere db db') : Grows db db' where
  stays _ hr := made_of_keys h.reservations hr
  honoured hh r hr i hi := by
    obtain ⟨w, hw, hid, hq⟩ := made_of_keys h.reservations.symm hr
    obtain ⟨q, hqm, hqi, hqs, hqr⟩ := hh w hw i (hq.trans hi)
    obtain ⟨q', hqm', hqi', hqs', hqr'⟩ := h.committed q hqm hqs
    exact ⟨q', hqm', hqi'.trans hqi, hqs', by rw [hqr', hqr, hid]⟩

theorem effect_run (hn : Negotiated s) (ho : c.Orderly s) (h : Commits c.run s () s') :
    Effect s s' ∧ Grows s.db s'.db := by
  cases c with
  | createDraft =>
    simp only [Command.run, commits_bind, commits_pure] at h
    obtain ⟨_, _, h, _, rfl⟩ := h
    exact effect_createDraft hn h
  | updateDraft => exact effect_updateDraft h
  | send => exact effect_send h
  | revise =>
    simp only [Command.run, commits_bind, commits_pure] at h
    obtain ⟨_, _, h, _, rfl⟩ := h
    exact effect_revise hn h
  | convert =>
    simp only [Command.run, commits_bind, commits_pure] at h
    obtain ⟨_, _, h, _, rfl⟩ := h
    exact effect_convert h
  | commit =>
    simp only [Command.run, onDb, commits_bind, commits_zoom, commits_pure] at h
    obtain ⟨r, _, ⟨db, hc, rfl⟩, _, rfl⟩ := h
    obtain ⟨q, hq, rfl | hcommitted⟩ := CommitBookingQuote.commits_handle hc
    · exact ⟨.same rfl, grows_refl⟩
    · exact ⟨.same rfl, grows_committed (Table.find?_eq_some.mp hq).1 hcommitted⟩
  | elsewhere write =>
    simp only [Command.run, commits_modify] at h
    subst h
    exact ⟨.same rfl, grows_elsewhere ho⟩

structure Opening (s : Desk) : Prop where
  proposals : s.proposals.rows = []
  reservations : s.db.reservations.rows = []

theorem Opening.negotiated (h : Opening s) : Negotiated s where
  contiguous reference := by
    have hline : s.line reference = [] := by simp [Desk.line, Table.select, h.proposals]
    rw [hline]
    exact numbered_nil
  backed p hp := by simp [h.proposals] at hp
  owned p hp := by simp [h.proposals] at hp
  latest p hp := by simp [h.proposals] at hp
  made p hp := by simp [h.proposals] at hp
  honoured r hr := by simp [h.reservations] at hr

theorem negotiated_run (hstart : Opening start)
    (hrun : Reaches Command.run Command.Orderly start s) : Negotiated s :=
  hrun.invariant hstart.negotiated fun _ _ _ hn ho hc =>
    negotiated_effect hn (effect_run hn ho hc).1 (effect_run hn ho hc).2

structure OneLine (s : Desk) : Prop where
  contiguous : ∀ reference, (s.line reference).map Proposal.version =
    List.range' 1 (s.line reference).length
  once : ∀ p ∈ s.proposals.rows, ∀ q ∈ s.proposals.rows, p.reference = q.reference →
    p.status = .accepted → q.status = .accepted → p = q
  owned : ∀ p ∈ s.proposals.rows, ∀ q ∈ s.proposals.rows,
    p.bookingQuoteId = q.bookingQuoteId → p = q
  linked : ∀ p ∈ s.proposals.rows, p.status = .accepted → Linked s.db p

theorem Negotiated.oneLine (h : Negotiated s) : OneLine s where
  contiguous reference := (h.contiguous reference).numbers
  once p hp q hq hr hps hqs := (h.latest p hp hps).unique h.contiguous (h.latest q hq hqs) hr
  owned := h.owned
  linked p hp hs := linked_of_madeFrom h.honoured (h.made p hp hs)

-- A call that is rejected leaves everything as it was.
theorem proposal_versions_form_one_line (hstart : Opening start)
    (hrun : Reaches Command.run Command.Orderly start s) (ho : c.Orderly s) :
    OneLine s ∧ OneLine (perform c.run s) ∧ Advances s (perform c.run s) := by
  have hn := negotiated_run hstart hrun
  rcases perform_cases (x := c.run) (s := s) with ⟨_, hc⟩ | hsame
  · obtain ⟨heffect, hgrows⟩ := effect_run hn ho hc
    exact ⟨hn.oneLine, (negotiated_effect hn heffect hgrows).oneLine, advances_effect heffect⟩
  · rw [hsame]
    exact ⟨hn.oneLine, hn.oneLine, advances_effect (.same rfl)⟩

end Runs

section Scenario
open BookedTotals (season nightsFrom)

def ana (i : ℕ) : Guest where
  id := i
  firstName := "Ana"
  lastName := some "Rojas"
  email := some "ana@example.com"
  phone := none
  language := none
  dietary := none

def frontDesk : Desk where
  db := { season with guests := Table.empty.insert ana }

def quoted (db : Database) : Database :=
  perform (BookingQuoteService.create (nightsFrom 10 1)) db

instance (db db' : Database) : Decidable (Elsewhere db db') :=
  decidable_of_iff ((db'.reservations.rows.map fun r => (r.id, r.bookingQuoteId)) =
      (db.reservations.rows.map fun r => (r.id, r.bookingQuoteId)) ∧
      ∀ q ∈ db.quotes.rows, q.status = .committed →
        ∃ w ∈ db'.quotes.rows, w.id = q.id ∧ w.status = .committed ∧
          w.reservationId = q.reservationId)
    ⟨fun h => ⟨h.1, h.2⟩, fun h => ⟨h.reservations, h.committed⟩⟩

instance (c : Command) (s : Desk) : Decidable (c.Orderly s) :=
  match c with
  | .elsewhere write => inferInstanceAs (Decidable (Elsewhere s.db (write s.db)))
  | .createDraft .. => isTrue trivial
  | .updateDraft .. => isTrue trivial
  | .send .. => isTrue trivial
  | .revise .. => isTrue trivial
  | .convert .. => isTrue trivial
  | .commit .. => isTrue trivial

theorem opening_frontDesk : Opening frontDesk := ⟨rfl, rfl⟩

-- The first version is sent and superseded by a second one, which is sent and then converted.
theorem revised_proposal_is_accepted : ∃ s, Reaches Command.run Command.Orderly frontDesk s ∧
    (s.line "Q-1").length = 2 ∧
    ((perform (Command.convert 1 none).run s).proposals.rows.any fun p => p.status == .accepted) ∧
    OneLine s ∧ OneLine (perform (Command.convert 1 none).run s) ∧
    Advances s (perform (Command.convert 1 none).run s) := by
  obtain ⟨s, hrun, hp⟩ : ∃ s, Reaches Command.run Command.Orderly frontDesk s ∧
      (decide ((s.line "Q-1").length = 2) &&
        (perform (Command.convert 1 none).run s).proposals.rows.any fun p =>
          p.status == .accepted) = true :=
    Reaches.exists_of_execute (fun _ _ => of_decide_eq_true)
      [.elsewhere quoted, .createDraft { bookingQuoteId := some 0, primaryGuestId := some 0 }
        (some "Q-1") "" none, .updateDraft 0 {}, .send 0, .send 0, .revise 0 none, .send 1]
      (by decide +kernel)
  simp only [Bool.and_eq_true, decide_eq_true_eq] at hp
  exact ⟨s, hrun, hp.1, hp.2, proposal_versions_form_one_line opening_frontDesk hrun trivial⟩

end Scenario
end ProposalService
