import LodgeOps.Store.Table

-- Rows that answer for a key, once they are completed, until they expire.
class Lasting (ρ : Type) (κ : outParam Type) extends Keyed ρ where
  key : ρ → κ
  completed : ρ → Bool

-- Someone who has claimed a row, with the row as it was then; others may have claimed it since.
structure Executor (ρ ι φ : Type) where
  id : ℕ
  record : ρ
  request : ι
  phase : φ
  superseded : Bool := false

instance {ρ ι φ : Type} : Keyed (Executor ρ ι φ) := ⟨Executor.id⟩

structure Office (ρ κ ι φ δ : Type) [Lasting ρ κ] where
  records : Table ρ := .empty
  executors : Table (Executor ρ ι φ) := .empty
  executions : List κ := []
  now : ℤ
  data : δ

namespace Office
open Lasting
variable {ρ κ ι φ δ : Type} [Lasting ρ κ]

section Operations
variable [DecidableEq κ]

def enrol (o : Office ρ κ ι φ δ) (x : ρ) (q : ι) (p : φ) : Office ρ κ ι φ δ :=
  { o with executors := (o.executors.updateWhere (fun e => decide (key e.record = key x))
      fun e => { e with superseded := true }).insert fun i => ⟨i, x, q, p, false⟩ }

def create (o : Office ρ κ ι φ δ) (mk : ℕ → ρ) (hk : Names mk) (q : ι) (p : φ) : Office ρ κ ι φ δ :=
  enrol { o with records := o.records.insert mk hk } (mk o.records.next) q p

def reclaim (o : Office ρ κ ι φ δ) (x : ρ) (f : ρ → ρ) (hf : Keeps f) (q : ι) (p : φ) :
    Office ρ κ ι φ δ :=
  enrol { o with records := o.records.update (Keyed.id x) f hf } (f x) q p

end Operations

def enter (o : Office ρ κ ι φ δ) (j : ℕ) (p : φ) : Office ρ κ ι φ δ :=
  { o with executors := o.executors.update j fun e => { e with phase := p } }

def perform (o : Office ρ κ ι φ δ) (e : Executor ρ ι φ) (f : δ → δ) : Office ρ κ ι φ δ :=
  { o with executions := o.executions ++ [key e.record], data := f o.data }

def write (o : Office ρ κ ι φ δ) (i : ℕ) (f : ρ → ρ) (hf : Keeps f) : Office ρ κ ι φ δ :=
  { o with records := o.records.update i f hf }

def drop (o : Office ρ κ ι φ δ) (p : ρ → Bool) : Office ρ κ ι φ δ :=
  { o with records := o.records.deleteWhere p }

-- Row and key belong together, a key has one claim that is not superseded, and whoever holds the
-- claim of a completed row has nothing left to do.
structure Guarded (settled : φ → Prop) (o : Office ρ κ ι φ δ) : Prop where
  keys : ∀ x ∈ o.records.rows, ∀ y ∈ o.records.rows, key x = key y → x = y
  known : ∀ e ∈ o.executors.rows, Keyed.id e.record < o.records.next
  owned : ∀ e ∈ o.executors.rows, ∀ x ∈ o.records.rows, Keyed.id x = Keyed.id e.record →
    key x = key e.record
  single : ∀ e ∈ o.executors.rows, ∀ e' ∈ o.executors.rows, key e.record = key e'.record →
    e.superseded = false → e'.superseded = false → e = e'
  rested : ∀ x ∈ o.records.rows, completed x = true → ∀ e ∈ o.executors.rows,
    key e.record = key x → e.superseded = false → settled e.phase

-- The row stands and nobody has run its command again.
structure Kept [DecidableEq κ] (x : ρ) (o o' : Office ρ κ ι φ δ) : Prop where
  stands : x ∈ o'.records.rows
  once : o'.executions.count (key x) = o.executions.count (key x)

section Kept
variable [DecidableEq κ] {o o' u : Office ρ κ ι φ δ} {x : ρ}

theorem kept_refl (hx : x ∈ o.records.rows) : Kept x o o := ⟨hx, rfl⟩

theorem Kept.trans (h : Kept x o o') (h' : Kept x o' u) : Kept x o u :=
  ⟨h'.stands, h'.once.trans h.once⟩

end Kept

section Guarded
variable {settled : φ → Prop} {o : Office ρ κ ι φ δ} {x y : ρ} {e : Executor ρ ι φ}
variable {i j : ℕ} {q : ι} {p : φ} {f : ρ → ρ} {mk : ℕ → ρ}

theorem guarded_start {now : ℤ} {d : δ} :
    Guarded settled ({ now := now, data := d } : Office ρ κ ι φ δ) :=
  ⟨nofun, nofun, nofun, nofun, nofun⟩

-- An executor that still has something to do and holds its claim has no completed row for its key.
theorem Guarded.pending (hg : Guarded settled o) (he : e ∈ o.executors.rows)
    (hs : e.superseded = false) (hp : ¬ settled e.phase) (hx : x ∈ o.records.rows)
    (hc : completed x = true) : key e.record ≠ key x :=
  fun hk => hp (hg.rested x hx hc e he hk hs)

section Claims
variable [DecidableEq κ]

theorem mem_enrol : e ∈ (o.enrol x q p).executors.rows ↔
    (e ∈ o.executors.rows ∧ key e.record ≠ key x) ∨
      (∃ e' ∈ o.executors.rows, key e'.record = key x ∧ e = { e' with superseded := true }) ∨
        e = ⟨o.executors.next, x, q, p, false⟩ := by
  rw [enrol, Table.mem_insert, Table.mem_updateWhere]
  simp only [decide_eq_true_eq, decide_eq_false_iff_not, or_assoc]
  rfl

theorem enrol_records : (o.enrol x q p).records = o.records := rfl

-- What `enrol` needs of an office in which the row that is claimed already stands.
theorem Guarded.enrol (hg : Guarded settled o) (hx : x ∈ o.records.rows)
    (hc : completed x = false) : Guarded settled (o.enrol x q p) where
  keys := hg.keys
  known e he := by
    rcases mem_enrol.mp he with ⟨he, _⟩ | ⟨e', he', _, rfl⟩ | rfl
    · exact hg.known e he
    · exact hg.known e' he'
    · exact o.records.below x hx
  owned e he y hy hi := by
    rcases mem_enrol.mp he with ⟨he, _⟩ | ⟨e', he', _, rfl⟩ | rfl
    · exact hg.owned e he y hy hi
    · exact hg.owned e' he' y hy hi
    · exact congrArg key (Table.eq_of_id hy hx hi)
  single e he e' he' hk hs hs' := by
    rcases mem_enrol.mp he with ⟨he, hne⟩ | ⟨_, _, _, rfl⟩ | rfl
    · rcases mem_enrol.mp he' with ⟨he', _⟩ | ⟨_, _, _, rfl⟩ | rfl
      · exact hg.single e he e' he' hk hs hs'
      · cases hs'
      · exact absurd hk hne
    · cases hs
    · rcases mem_enrol.mp he' with ⟨_, hne⟩ | ⟨_, _, _, rfl⟩ | rfl
      · exact absurd hk.symm hne
      · cases hs'
      · rfl
  rested y hy hy' e he hk hs := by
    rcases mem_enrol.mp he with ⟨he, _⟩ | ⟨_, _, _, rfl⟩ | rfl
    · exact hg.rested y hy hy' e he hk hs
    · cases hs
    · rw [hg.keys y hy x hx hk.symm, hc] at hy'
      cases hy'

theorem Guarded.create (hg : Guarded settled o) (hk : Names mk)
    (hfresh : ∀ x ∈ o.records.rows, key x ≠ key (mk o.records.next))
    (hc : completed (mk o.records.next) = false) : Guarded settled (o.create mk hk q p) := by
  have hnew : ∀ e ∈ o.executors.rows, Keyed.id (mk o.records.next) ≠ Keyed.id e.record := by
    intro e he
    rw [hk]
    exact (hg.known e he).ne'
  refine Guarded.enrol ⟨?_, ?_, ?_, hg.single, ?_⟩ ((Table.mem_insert hk).mpr (Or.inr rfl)) hc
  · intro x hx y hy hxy
    rcases (Table.mem_insert hk).mp hx with hx | rfl
    · rcases (Table.mem_insert hk).mp hy with hy | rfl
      · exact hg.keys x hx y hy hxy
      · exact absurd hxy (hfresh x hx)
    · rcases (Table.mem_insert hk).mp hy with hy | rfl
      · exact absurd hxy.symm (hfresh y hy)
      · rfl
  · exact fun e he => Nat.lt_succ_of_lt (hg.known e he)
  · intro e he x hx hi
    rcases (Table.mem_insert hk).mp hx with hx | rfl
    · exact hg.owned e he x hx hi
    · exact absurd hi (hnew e he)
  · intro x hx hx' e he
    rcases (Table.mem_insert hk).mp hx with hx | rfl
    · exact hg.rested x hx hx' e he
    · rw [hc] at hx'
      cases hx'

theorem kept_create (hx : x ∈ o.records.rows) (hk : Names mk) : Kept x o (o.create mk hk q p) :=
  ⟨(Table.mem_insert hk).mpr (Or.inl hx), rfl⟩

end Claims

section Writes

-- A row is changed under its own key; the executor that completes it has nothing left to do.
theorem Guarded.write (hg : Guarded settled o) (hf : Keeps f) (hkey : ∀ x, key (f x) = key x)
    (hrest : ∀ x ∈ o.records.rows, Keyed.id x = i → completed (f x) = true →
      ∀ e ∈ o.executors.rows, key e.record = key x → e.superseded = false → settled e.phase) :
    Guarded settled (o.write i f hf) where
  keys x hx y hy hxy := by
    rcases (Table.mem_update hf).mp hx with ⟨hx, hxi⟩ | ⟨a, ha, hai, rfl⟩
    · rcases (Table.mem_update hf).mp hy with ⟨hy, _⟩ | ⟨b, hb, hbi, rfl⟩
      · exact hg.keys x hx y hy hxy
      · exact absurd (hg.keys x hx b hb (hxy.trans (hkey b)) ▸ hbi) hxi
    · rcases (Table.mem_update hf).mp hy with ⟨hy, hyi⟩ | ⟨b, hb, hbi, rfl⟩
      · exact absurd (hg.keys y hy a ha (hxy.symm.trans (hkey a)) ▸ hai) hyi
      · rw [hg.keys a ha b hb ((hkey a).symm.trans (hxy.trans (hkey b)))]
  known := hg.known
  owned e he x hx hi := by
    rcases (Table.mem_update hf).mp hx with ⟨hx, _⟩ | ⟨a, ha, _, rfl⟩
    · exact hg.owned e he x hx hi
    · rw [hkey]
      exact hg.owned e he a ha ((hf a).symm.trans hi)
  single := hg.single
  rested x hx hc e he hk hs := by
    rcases (Table.mem_update hf).mp hx with ⟨hx, _⟩ | ⟨a, ha, hai, rfl⟩
    · exact hg.rested x hx hc e he hk hs
    · exact hrest a ha hai hc e he (hk.trans (hkey a)) hs

theorem Guarded.drop (hg : Guarded settled o) (p : ρ → Bool) : Guarded settled (o.drop p) where
  keys x hx y hy := hg.keys x (Table.mem_deleteWhere.mp hx).1 y (Table.mem_deleteWhere.mp hy).1
  known := hg.known
  owned e he x hx := hg.owned e he x (Table.mem_deleteWhere.mp hx).1
  single := hg.single
  rested x hx := hg.rested x (Table.mem_deleteWhere.mp hx).1

theorem Guarded.perform (hg : Guarded settled o) (g : δ → δ) : Guarded settled (o.perform e g) :=
  ⟨hg.keys, hg.known, hg.owned, hg.single, hg.rested⟩

theorem Guarded.enter (hg : Guarded settled o)
    (hp : ¬ settled p → ∀ e ∈ o.executors.rows, e.id = j → e.superseded = false →
      ∀ x ∈ o.records.rows, key e.record = key x → completed x = false) :
    Guarded settled (o.enter j p) := by
  have hmem : ∀ e ∈ (o.enter j p).executors.rows, ∃ e' ∈ o.executors.rows, e'.id = e.id ∧
      e'.record = e.record ∧ e'.superseded = e.superseded ∧
        (e.phase = e'.phase ∨ (e.id = j ∧ e.phase = p)) := by
    intro e he
    rcases (Table.mem_update).mp he with ⟨he, _⟩ | ⟨e', he', hi, rfl⟩
    · exact ⟨e, he, rfl, rfl, rfl, Or.inl rfl⟩
    · exact ⟨e', he', rfl, rfl, rfl, Or.inr ⟨hi, rfl⟩⟩
  refine ⟨hg.keys, fun e he => ?_, fun e he => ?_, fun e he e' he' hk hs hs' => ?_,
    fun x hx hc e he hk hs => ?_⟩
  · obtain ⟨e', he', _, hr, _⟩ := hmem e he
    exact hr ▸ hg.known e' he'
  · obtain ⟨e', he', _, hr, _⟩ := hmem e he
    exact hr ▸ hg.owned e' he'
  · obtain ⟨a, ha, hai, hr, has, _⟩ := hmem e he
    obtain ⟨b, hb, hbi, hr', hbs, _⟩ := hmem e' he'
    have hab : a = b := hg.single a ha b hb (hr ▸ hr' ▸ hk) (has.trans hs) (hbs.trans hs')
    exact Table.eq_of_id he he' (hai.symm.trans ((congrArg Executor.id hab).trans hbi))
  · obtain ⟨a, ha, hai, hr, has, hph⟩ := hmem e he
    rcases hph with hph | ⟨hej, hph⟩
    · exact hph ▸ hg.rested x hx hc a ha (hr ▸ hk) (has.trans hs)
    · by_contra hn
      have hno := hp (hph ▸ hn) a ha (hai.trans hej) (has.trans hs) x hx (hr ▸ hk)
      rw [hc] at hno
      cases hno

variable [DecidableEq κ]

theorem kept_enter (hx : x ∈ o.records.rows) : Kept x o (o.enter j p) := ⟨hx, rfl⟩

theorem kept_perform (hx : x ∈ o.records.rows) (hne : key e.record ≠ key x) (g : δ → δ) :
    Kept x o (o.perform e g) where
  stands := hx
  once := by
    rw [perform, List.count_append, List.count_singleton]
    simp [hne]

theorem kept_write (hx : x ∈ o.records.rows) (hf : Keeps f) (hne : Keyed.id x ≠ i) :
    Kept x o (o.write i f hf) :=
  ⟨(Table.mem_update hf).mpr (Or.inl ⟨hx, hne⟩), rfl⟩

theorem kept_drop (hx : x ∈ o.records.rows) {p : ρ → Bool} (hp : p x = false) : Kept x o (o.drop p) :=
  ⟨Table.mem_deleteWhere.mpr ⟨hx, hp⟩, rfl⟩

end Writes

section Reclaims
variable [DecidableEq κ]

theorem Guarded.reclaim (hg : Guarded settled o) (hx : x ∈ o.records.rows) (hf : Keeps f)
    (hkey : ∀ x, key (f x) = key x) (hc : completed (f x) = false) :
    Guarded settled (o.reclaim x f hf q p) := by
  refine Guarded.enrol (hg.write hf hkey ?_)
    ((Table.mem_update hf).mpr (Or.inr ⟨x, hx, rfl, rfl⟩)) hc
  intro y hy hi hc'
  rw [Table.eq_of_id hy hx hi, hc] at hc'
  cases hc'

theorem kept_reclaim (hx : x ∈ o.records.rows) (hf : Keeps f) (hne : Keyed.id x ≠ Keyed.id y) :
    Kept x o (o.reclaim y f hf q p) :=
  ⟨(Table.mem_update hf).mpr (Or.inl ⟨hx, hne⟩), rfl⟩

end Reclaims

-- A step that leaves the office guarded and every completed row kept.
structure Advances [DecidableEq κ] (settled : φ → Prop) (o o' : Office ρ κ ι φ δ) : Prop where
  guarded : Guarded settled o'
  kept : ∀ x ∈ o.records.rows, completed x = true → Kept x o o'

section Steps
variable [DecidableEq κ] {o' u : Office ρ κ ι φ δ}

theorem Guarded.advances (hg : Guarded settled o) : Advances settled o o :=
  ⟨hg, fun _ hx _ => kept_refl hx⟩

theorem Advances.trans (h : Advances settled o u) (h' : Advances settled u o') :
    Advances settled o o' where
  guarded := h'.guarded
  kept x hx hc := by
    have hk := h.kept x hx hc
    exact hk.trans (h'.kept x hk.stands hc)

theorem advances_enter (hg : Guarded settled o)
    (hp : ¬ settled p → ∀ e ∈ o.executors.rows, e.id = j → e.superseded = false →
      ∀ x ∈ o.records.rows, key e.record = key x → completed x = false) :
    Advances settled o (o.enter j p) :=
  ⟨hg.enter hp, fun _ hx _ => kept_enter hx⟩

theorem advances_leave (hg : Guarded settled o) (hp : settled p) :
    Advances settled o (o.enter j p) :=
  advances_enter hg fun hn => absurd hp hn

-- An executor that still has something to do may go on, whether it is superseded or not.
theorem advances_go_on (hg : Guarded settled o) (he : e ∈ o.executors.rows) (hj : e.id = j)
    (hopen : ¬ settled e.phase) : Advances settled o (o.enter j p) := by
  refine advances_enter hg fun _ e' he' hi hsup x hx hk => ?_
  obtain rfl : e' = e := Table.eq_of_id he' he (hi.trans hj.symm)
  by_contra hc
  exact hg.pending he' hsup hopen hx (Bool.not_eq_false _ ▸ hc) hk

theorem advances_perform (hg : Guarded settled o) (he : e ∈ o.executors.rows)
    (hs : e.superseded = false) (hopen : ¬ settled e.phase) (g : δ → δ) :
    Advances settled o (o.perform e g) :=
  ⟨hg.perform g, fun _ hx hc => kept_perform hx (hg.pending he hs hopen hx hc) g⟩

-- Only the row of the executor's own key is written, and no row of that key is completed yet.
theorem advances_write (hg : Guarded settled o) (hf : Keeps f) (hkey : ∀ x, key (f x) = key x)
    (he : e ∈ o.executors.rows) (hs : e.superseded = false) (hopen : ¬ settled e.phase)
    (hi : ∀ x ∈ o.records.rows, Keyed.id x = i → key x = key e.record) (hp : settled p) :
    Advances settled o ((o.write i f hf).enter e.id p) where
  guarded := by
    refine Guarded.write (hg.enter fun hn => absurd hp hn) hf hkey ?_
    intro x hx hid _ e' he' hk hs'
    rcases (Table.mem_update).mp he' with ⟨he', hne⟩ | ⟨e'', _, _, rfl⟩
    · have hsame : e' = e := hg.single e' he' e he (hk.trans (hi x hx hid)) hs' hs
      exact absurd (congrArg Executor.id hsame) hne
    · exact hp
  kept x hx hc := by
    have hw : Kept x o (o.write i f hf) := kept_write hx hf fun hid =>
      hg.pending he hs hopen hx hc (hi x hx hid).symm
    exact hw.trans (kept_enter hw.stands)

theorem advances_drop (hg : Guarded settled o) (he : e ∈ o.executors.rows)
    (hs : e.superseded = false) (hopen : ¬ settled e.phase) (hp : settled p) :
    Advances settled o ((o.drop fun x => Keyed.id x == Keyed.id e.record).enter e.id p) := by
  have hdrop : Advances settled o (o.drop fun x => Keyed.id x == Keyed.id e.record) := by
    refine ⟨hg.drop _, fun x hx hc => kept_drop hx (beq_eq_false_iff_ne.mpr fun hid => ?_)⟩
    exact hg.pending he hs hopen hx hc (hg.owned e he x hx hid).symm
  exact hdrop.trans (advances_leave hdrop.guarded hp)

theorem advances_create (hg : Guarded settled o) (hk : Names mk)
    (hfresh : ∀ x ∈ o.records.rows, key x ≠ key (mk o.records.next))
    (hc : completed (mk o.records.next) = false) : Advances settled o (o.create mk hk q p) :=
  ⟨hg.create hk hfresh hc, fun _ hx _ => kept_create hx hk⟩

theorem advances_reclaim (hg : Guarded settled o) (hy : y ∈ o.records.rows) (hf : Keeps f)
    (hkey : ∀ x, key (f x) = key x) (hopen : completed y = false) (hc : completed (f y) = false) :
    Advances settled o (o.reclaim y f hf q p) := by
  refine ⟨hg.reclaim hy hf hkey hc, fun x hx hx' => kept_reclaim hx hf fun hi => ?_⟩
  rw [Table.eq_of_id hx hy hi, hopen] at hx'
  cases hx'

end Steps
end Guarded
end Office
