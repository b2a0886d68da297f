import LodgeOps.Automation.Delivery

open CanonicalJson (Value)

namespace Automation
open Transaction

section Effects

inductive EffectKind
  | task | communication | notification
deriving DecidableEq

-- What the unique keys of the three tables tell apart.
structure Effect where
  kind : EffectKind
  tenantId : ℕ
  key : String
deriving DecidableEq

def taskEffect (t : OperationalTask) : Option Effect :=
  t.automationKey.map fun k => ⟨.task, t.tenantId, k⟩

def communicationEffect (c : Communication) : Option Effect :=
  c.automationKey.map fun k => ⟨.communication, c.tenantId, k⟩

def notificationEffect (n : InboxNotification) : Effect :=
  ⟨.notification, n.tenantId, n.automationKey⟩

def effects (s : AutomationStore) : List Effect :=
  s.tasks.rows.filterMap taskEffect ++ s.communications.rows.filterMap communicationEffect ++
    s.notifications.rows.map notificationEffect

def unpublished (m : Outbox) : Prop := m.publishedAt = none ∧ m.claimToken = none

-- New effects come under new keys.
structure Creates (s s' : AutomationStore) : Prop where
  created : ∃ new, (effects s').Perm (effects s ++ new)
  distinct : (effects s).Nodup → (effects s').Nodup

-- Nothing is sent.
structure Still (s s' : AutomationStore) : Prop where
  attempts : s'.attempts = s.attempts
  states : ∀ c ∈ s.communications.rows, ∃ c' ∈ s'.communications.rows,
    c'.id = c.id ∧ c'.status = c.status ∧ c'.sentAt = c.sentAt

-- What the rules of a tenant, and everybody else, may do to the store behind the outbox.
structure Advances (s s' : AutomationStore) : Prop extends Creates s s', Still s s' where
  outbox : ∃ new, s'.outbox.rows = s.outbox.rows ++ new ∧ ∀ m ∈ new, unpublished m

variable {s t u : AutomationStore}

theorem creates_of_effects (h : effects t = effects s) : Creates s t :=
  ⟨⟨[], by simp [h]⟩, fun hn => h ▸ hn⟩

theorem still_of_same (ha : t.attempts = s.attempts) (hc : t.communications = s.communications) :
    Still s t :=
  ⟨ha, fun c hmem => ⟨c, hc ▸ hmem, rfl, rfl, rfl⟩⟩

theorem Creates.trans (h : Creates s t) (h' : Creates t u) : Creates s u := by
  obtain ⟨new, hnew⟩ := h.created
  obtain ⟨new', hnew'⟩ := h'.created
  refine ⟨⟨new ++ new', ?_⟩, fun hn => h'.distinct (h.distinct hn)⟩
  rw [← List.append_assoc]
  exact hnew'.trans (hnew.append_right new')

theorem Still.trans (h : Still s t) (h' : Still t u) : Still s u := by
  refine ⟨h'.attempts.trans h.attempts, fun c hc => ?_⟩
  obtain ⟨d, hd, hid, hst, hat⟩ := h.states c hc
  obtain ⟨e, he, hid', hst', hat'⟩ := h'.states d hd
  exact ⟨e, he, hid'.trans hid, hst'.trans hst, hat'.trans hat⟩

instance : Std.Refl Advances where
  refl _ := ⟨creates_of_effects rfl, still_of_same rfl rfl, ⟨[], by simp⟩⟩

instance : IsTrans AutomationStore Advances where
  trans _ _ _ h h' := by
    obtain ⟨out, hout, hun⟩ := h.outbox
    obtain ⟨out', hout', hun'⟩ := h'.outbox
    refine ⟨h.toCreates.trans h'.toCreates, h.toStill.trans h'.toStill, ⟨out ++ out', ?_, ?_⟩⟩
    · rw [hout', hout, List.append_assoc]
    · intro m hm
      rcases List.mem_append.mp hm with hm | hm
      · exact hun m hm
      · exact hun' m hm

end Effects

section Steps
variable {s : AutomationStore} {tenantId : ℕ} {key : String} {mk : ℕ → Communication}

theorem advances_same {s' : AutomationStore} (ht : s'.tasks = s.tasks)
    (hc : s'.communications = s.communications) (hn : s'.notifications = s.notifications)
    (ho : s'.outbox = s.outbox) (ha : s'.attempts = s.attempts) : Advances s s' := by
  have he : effects s' = effects s := by unfold effects; rw [ht, hc, hn]
  exact ⟨creates_of_effects he, still_of_same ha hc, ⟨[], by simp [ho]⟩⟩

-- A row under a key that nothing else bears.
theorem advances_effect {s' : AutomationStore} {e : Effect}
    (he : (effects s').Perm (effects s ++ [e])) (hfresh : e ∉ effects s)
    (ho : s'.outbox = s.outbox) (ha : s'.attempts = s.attempts)
    (hc : ∀ c ∈ s.communications.rows, c ∈ s'.communications.rows) : Advances s s' where
  created := ⟨[e], he⟩
  distinct hn := by
    rw [he.nodup_iff, List.nodup_append]
    refine ⟨hn, List.nodup_singleton e, ?_⟩
    rintro a ha b hb rfl
    obtain rfl := List.mem_singleton.mp hb
    exact hfresh ha
  outbox := ⟨[], by simp [ho]⟩
  attempts := ha
  states c hmem := ⟨c, hc c hmem, rfl, rfl, rfl⟩

theorem effects_update {i : ℕ} {f : Communication → Communication} (hf : Keeps f)
    (he : ∀ c, communicationEffect (f c) = communicationEffect c) :
    effects { s with communications := s.communications.update i f hf } = effects s := by
  have hmap : (fun c => communicationEffect (if (Keyed.id c == i) = true then f c else c)) =
      communicationEffect := by
    funext c
    split_ifs
    · exact he c
    · rfl
  simp only [effects, Table.update, Table.updateWhere, List.filterMap_map, Function.comp_def, hmap]

theorem advances_templated {i : ℕ} {f : Communication → Communication} (hf : Keeps f)
    (he : ∀ c, communicationEffect (f c) = communicationEffect c)
    (hst : ∀ c, (f c).status = c.status) (hat : ∀ c, (f c).sentAt = c.sentAt) :
    Advances s { s with communications := s.communications.update i f hf } := by
  have hrows := effects_update (s := s) (i := i) hf he
  refine ⟨creates_of_effects hrows, ⟨rfl, fun c hc => ?_⟩, ⟨[], by simp⟩⟩
  by_cases hi : Keyed.id c = i
  · exact ⟨f c, (Table.mem_update hf).mpr (Or.inr ⟨c, hc, hi, rfl⟩), hf c, hst c, hat c⟩
  · exact ⟨c, (Table.mem_update hf).mpr (Or.inl ⟨hc, hi⟩), rfl, rfl, rfl⟩

theorem mem_effects_communication {e : Effect}
    (hk : e.kind = .communication) (h : e ∈ effects s) :
    ∃ c ∈ s.communications.rows, communicationEffect c = some e := by
  simp only [effects, List.mem_append, List.mem_filterMap, List.mem_map] at h
  rcases h with (⟨t, _, ht⟩ | h) | ⟨n, _, rfl⟩
  · obtain ⟨k, _, rfl⟩ := Option.map_eq_some_iff.mp ht
    cases hk
  · exact h
  · cases hk

end Steps

section Executor
variable {s : AutomationStore} {tenantId : ℕ} {key type : String}
variable {d : MessageTemplateService.Draft} {f : AutomationActionExecutor.Firing}
variable {extra : CommunicationMetadata → CommunicationMetadata} {g : AddressedGuest}

theorem advances_record {eventType : String} {payload : Value} :
    Moves Advances (OutboxRecorder.record tenantId eventType payload) s := by
  refine Moves.modify ⟨creates_of_effects rfl, still_of_same rfl rfl, ⟨[_], rfl, ?_⟩⟩
  intro m hm
  obtain rfl := List.mem_singleton.mp hm
  exact ⟨rfl, rfl⟩

theorem unkeyed (h : MessageTemplateService.keyed? s tenantId key = none) :
    (⟨.communication, tenantId, key⟩ : Effect) ∉ effects s := by
  intro he
  obtain ⟨c, hc, hce⟩ := mem_effects_communication rfl he
  obtain ⟨k, hk, hke⟩ := Option.map_eq_some_iff.mp hce
  have hno := Table.first?_eq_none.mp h c hc
  simp only [Effect.mk.injEq, true_and] at hke
  obtain ⟨ht, rfl⟩ := hke
  simp [ht, hk] at hno

theorem advances_firstOrCreate : Moves Advances (MessageTemplateService.firstOrCreate tenantId key d)
    s := by
  refine Moves.get_bind ?_
  split
  · exact Moves.pure
  · next hnone =>
    refine Moves.bind (Moves.set ?_) fun _ _ _ => Moves.pure
    refine advances_effect (e := ⟨.communication, tenantId, key⟩) ?_ (unkeyed hnone) rfl rfl
      fun c hc => List.mem_append_left _ hc
    simp only [effects, Table.insert, List.filterMap_append, List.append_assoc]
    refine List.Perm.append_left _ (List.Perm.append_left _ ?_)
    exact List.perm_append_comm

theorem advances_queued : Moves Advances (MessageTemplateService.queued tenantId key d) s := by
  refine Moves.bind advances_firstOrCreate fun created t _ => ?_
  refine Moves.ite (fun _ => ?_) fun _ => Moves.pure
  exact Moves.bind advances_record fun _ _ _ => Moves.pure

theorem advances_queue {t : MessageTemplate} {language : String} {context : Value}
    {reservationId : Option String} :
    Moves Advances (MessageTemplateService.queue t g language key context reservationId) s :=
  Moves.orFail_bind fun _ _ => Moves.get_bind <| Moves.reject_bind fun _ =>
    Moves.orFail_bind fun _ _ => advances_queued

theorem advances_issue {r : ArrayRow} : Moves Advances (GuestPortalTokenService.issue r g) s := by
  refine Moves.get_bind (Moves.reject_bind fun _ => ?_)
  refine Moves.bind (Moves.set ?_) fun _ _ _ => Moves.pure
  exact advances_same rfl rfl rfl rfl rfl

open AutomationActionExecutor

theorem reads_text {default : Option String} : Reads (f.text key default) := by
  intro s a s' h
  unfold Firing.text at h
  split at h
  · exact (commits_pure.mp h).2
  · split at h
    · exact (commits_pure.mp h).2
    · exact absurd h commits_throw

theorem reads_rendered {default : Option String} : Reads (f.rendered key default) := by
  intro s a s' h
  obtain ⟨_, t, ht, h⟩ := commits_bind.mp h
  obtain rfl := reads_text _ _ _ ht
  exact (commits_pure.mp h).2

theorem reads_channel : Reads f.channel := by
  intro s a s' h
  obtain ⟨_, t, ht, h⟩ := commits_bind.mp h
  obtain rfl := reads_text _ _ _ ht
  exact (commits_pure.mp h).2

theorem advances_createTask : Moves Advances (createTask f) s := by
  refine Moves.orFail_bind fun propertyId _ => Moves.read_bind reads_rendered fun title => ?_
  refine Moves.read_bind reads_rendered fun description => ?_
  refine Moves.read_bind reads_text fun priority => Moves.get_bind ?_
  refine Moves.ite (fun _ => Moves.pure) fun hnone => Moves.set ?_
  refine advances_effect (e := ⟨.task, f.tenant.id, f.automationKey "task"⟩) ?_ ?_ rfl rfl
    fun c hc => hc
  · simp only [effects, Table.insert, List.filterMap_append, List.append_assoc]
    rw [← List.append_assoc (List.filterMap communicationEffect _)]
    exact List.Perm.append_left _ List.perm_append_comm
  · intro he
    simp only [effects, List.mem_append, List.mem_filterMap, List.mem_map] at he
    rcases he with (⟨t, ht, hte⟩ | ⟨c, _, hce⟩) | ⟨n, _, hn⟩
    · obtain ⟨k, hk, hke⟩ := Option.map_eq_some_iff.mp hte
      simp only [Effect.mk.injEq, true_and] at hke
      have hno := Table.first?_eq_none.mp (Option.not_isSome_iff_eq_none.mp hnone) t ht
      simp [hke.1, hk, hke.2] at hno
    · obtain ⟨k, _, hke⟩ := Option.map_eq_some_iff.mp hce
      cases hke
    · cases hn

theorem advances_recordSuppressed {reservationId : Option String} {channel : String} :
    Moves Advances (recordSuppressed f key g reservationId channel type extra) s :=
  Moves.get_bind (Moves.bind advances_firstOrCreate fun _ _ _ => Moves.pure)

theorem advances_queueConfiguredTemplate :
    Moves Advances (queueConfiguredTemplate f key type extra) s := by
  unfold queueConfiguredTemplate
  split
  · exact Moves.pure
  · refine Moves.read_bind reads_channel fun channel => Moves.get_bind ?_
    refine Moves.orFail_bind fun template _ => Moves.orFail_bind fun guest _ => ?_
    refine Moves.read_bind reads_text fun language => ?_
    refine Moves.bind (Moves.attempt advances_queue) fun sent t _ => ?_
    cases sent with
    | error e =>
      refine Moves.ite (fun _ => ?_) fun _ => Moves.throw
      exact Moves.bind advances_recordSuppressed fun _ _ _ => Moves.pure
    | ok c =>
      refine Moves.bind (Moves.modify ?_) fun _ _ _ => Moves.pure
      exact advances_templated (keeps_templated f type extra) (fun _ => rfl) (fun _ => rfl)
        fun _ => rfl

theorem advances_queuePlain {subject : Option String} {body : String} :
    Moves Advances (queuePlain f key type subject body extra) s := by
  refine Moves.read_bind reads_channel fun channel => Moves.get_bind ?_
  split
  · exact advances_recordSuppressed
  · refine Moves.read_bind reads_rendered fun subject => ?_
    refine Moves.read_bind reads_rendered fun body => ?_
    exact Moves.bind advances_queued fun _ _ _ => Moves.pure

theorem advances_depositReminder {d : RemindedDeposit} :
    Moves Advances (depositReminder f d) s :=
  Moves.bind advances_queueConfiguredTemplate fun _ _ _ =>
    Moves.ite (fun _ => Moves.pure) fun _ => advances_queuePlain

theorem advances_invite {r : ArrayRow} : Moves Advances (invite f key r g) s := by
  refine Moves.bind advances_issue fun token t _ => Moves.get_bind ?_
  refine Moves.read_bind reads_text fun purpose => ?_
  refine Moves.bind advances_queueConfiguredTemplate fun _ _ _ => ?_
  refine Moves.ite (fun _ => Moves.pure) fun _ => ?_
  refine Moves.read_bind reads_rendered fun subject => ?_
  refine Moves.read_bind reads_rendered fun body => ?_
  exact Moves.bind advances_queued fun _ _ _ => Moves.pure

theorem advances_invitation : Moves Advances (queueGuestPortalInvitation f) s := by
  refine Moves.orFail_bind fun reservationId _ => Moves.get_bind ?_
  refine Moves.ite (fun _ => Moves.pure) fun _ => ?_
  refine Moves.orFail_bind fun r _ => Moves.orFail_bind fun guest _ => ?_
  exact Moves.ite (fun _ => advances_recordSuppressed) fun _ => advances_invite

theorem advances_notify {propertyId title : String} {body : Option String}
    {status userId : String} : Moves Advances (notify f propertyId title body status userId) s := by
  refine Moves.get_bind (Moves.ite (fun _ => Moves.pure) fun _ => ?_)
  refine Moves.reject_bind fun hnone => Moves.set ?_
  refine advances_effect (e := ⟨.notification, f.tenant.id,
    f.automationKey ("internal_notify:" ++ userId)⟩) ?_ ?_ rfl rfl fun c hc => hc
  · simp only [effects, Table.insert, List.map_append, List.append_assoc]
    exact List.Perm.refl _
  · intro he
    simp only [effects, List.mem_append, List.mem_filterMap, List.mem_map] at he
    rcases he with (⟨t, _, hte⟩ | ⟨c, _, hce⟩) | ⟨n, hn, hne⟩
    · obtain ⟨k, _, hke⟩ := Option.map_eq_some_iff.mp hte
      cases hke
    · obtain ⟨k, _, hke⟩ := Option.map_eq_some_iff.mp hce
      cases hke
    · have hno := Table.first?_eq_none.mp (Option.not_isSome_iff_eq_none.mp hnone) n hn
      simp only [notificationEffect, Effect.mk.injEq, true_and] at hne
      simp [hne.2] at hno

theorem advances_internalNotify : Moves Advances (internalNotify f) s := by
  refine Moves.get_bind ?_
  split
  · exact Moves.pure
  · split
    · exact Moves.pure
    · refine Moves.read_bind reads_rendered fun title => ?_
      refine Moves.read_bind reads_rendered fun body => ?_
      exact Moves.forM (fun _ _ _ => advances_notify) _

theorem advances_execute : Moves Advances (execute f) s := by
  unfold execute
  split
  · exact advances_createTask
  · exact advances_createTask
  · exact Moves.bind advances_queueConfiguredTemplate fun _ _ _ =>
      Moves.ite (fun _ => Moves.pure) fun _ => advances_queuePlain
  · exact Moves.bind advances_queueConfiguredTemplate fun _ _ _ =>
      Moves.ite (fun _ => Moves.pure) fun _ => advances_queuePlain
  · exact Moves.orFail_bind fun _ _ => Moves.get_bind <|
      Moves.forM (fun _ _ _ => advances_depositReminder) _
  · exact Moves.orFail_bind fun _ _ => Moves.get_bind <|
      Moves.forM (fun _ _ _ => advances_depositReminder) _
  · exact advances_invitation
  · exact advances_invitation
  · exact advances_internalNotify
  · exact Moves.throw

end Executor

section Engine
variable {s : AutomationStore} {tenant : Tenant} {message : Outbox} {context : Value}

theorem advances_runRule {rule : AutomationRule} :
    Moves Advances (AutomationEngine.runRule tenant message context rule) s := by
  refine Moves.ite (fun _ => Moves.pure) fun _ => ?_
  refine Moves.read_bind (fun _ _ _ h => (commits_check.mp h).2) fun actions => ?_
  refine Moves.bind (Moves.forM (fun _ _ _ => advances_execute) _) fun _ _ _ => ?_
  exact Moves.modify (advances_same rfl rfl rfl rfl rfl)

theorem advances_automate : Moves Advances (AutomationEngine.automate tenant message) s :=
  Moves.get_bind (Moves.forM (fun _ _ _ => advances_runRule) _)

end Engine

section Delivery
open CommunicationDeliveryService
variable {s u : AutomationStore} {tenantId : ℕ} {communicationId : String} {error : Option String}
variable {p : Prepared} {c : Communication}

def behind (s : AutomationStore) : List Effect × Table Outbox := (effects s, s.outbox)

theorem spares_save {i : ℕ} {f : ℤ → Communication → Communication} {hf : ∀ now, Keeps (f now)}
    (he : ∀ now c, communicationEffect (f now c) = communicationEffect c) :
    Spares behind (save i f hf) s :=
  Spares.modify (Prod.ext (effects_update (hf s.clock) (he s.clock)) rfl)

theorem spares_begin {recipient : String} : Spares behind (begin c recipient) s := by
  refine Spares.get_bind (Spares.bind (Spares.set rfl) fun _ _ _ => ?_)
  exact Spares.bind (spares_save fun _ _ => rfl) fun _ _ _ => Spares.pure

theorem spares_prepare : Spares behind (prepare tenantId communicationId) s := by
  refine Spares.get_bind (Spares.orFail_bind fun locked _ => ?_)
  refine Spares.ite (fun _ => Spares.pure) fun _ => Spares.reject_bind fun _ => ?_
  refine Spares.orFail_bind fun recipient _ => Spares.ite (fun _ => ?_) fun _ => ?_
  · exact Spares.bind (spares_save fun _ _ => rfl) fun _ _ _ => Spares.pure
  · exact Spares.map spares_begin

theorem spares_deliver : Spares behind (deliver tenantId communicationId error) s := by
  refine Spares.bind (Spares.rethrow spares_prepare) fun prepared t _ => ?_
  cases prepared with
  | none => exact Spares.pure
  | some p =>
    cases error with
    | none =>
      refine Spares.bind (Spares.rethrow ?_) fun _ _ _ => Spares.pure
      exact Spares.bind (Spares.modify rfl) fun _ _ _ => spares_save fun _ _ => rfl
    | some e => exact Spares.bind (Spares.rethrow (Spares.bind (Spares.modify rfl) fun _ _ _ =>
        spares_save fun _ _ => rfl)) fun _ _ _ => Spares.throw

-- What the engine commits: new effects under new keys, and messages that wait for their claim.
theorem engine_creates {tenant : Tenant} {message : Outbox} {calls : List TransportCall}
    (h : Commits (AutomationEngine.handle tenant message error) s calls u) : Creates s u ∧
      ∃ new, u.outbox.rows = s.outbox.rows ++ new ∧ ∀ m ∈ new, unpublished m := by
  rcases commits_ite.mp h with ⟨_, h⟩ | ⟨_, h⟩
  · obtain ⟨_, _, ho, hd⟩ := commits_bind.mp h
    obtain ⟨_, rfl⟩ := commits_orFail.mp ho
    have hb := spares_deliver _ _ hd
    have ho : u.outbox = s.outbox := congrArg Prod.snd hb
    exact ⟨creates_of_effects (congrArg Prod.fst hb), [], by simp [ho]⟩
  · obtain ⟨_, _, ha, hp⟩ := commits_bind.mp h
    obtain ⟨_, rfl⟩ := commits_pure.mp hp
    have hadv := advances_automate _ _ (commits_rethrow.mp ha)
    exact ⟨hadv.toCreates, hadv.outbox⟩

end Delivery
end Automation
