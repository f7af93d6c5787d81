import Alerting.Proofs.Dispatch.Summary
import Alerting.Proofs.Recovery.Ended

/-!
# Engines that are alike to a rule

What a tick of a rule does goes by the stored events of its own fingerprints, by the other events that it owns, by its
entries and by the settings. An engine mirrors another to the rule if these are the same up to the numbers of ids, where
the ids that are given out next differ by a constant (`Engine.Mirrors`). When no call fails, a tick reports the same in
both engines and leaves them mirrored (`Mirrors.tick`).

This is shown call by call. The same change made in both engines, with the event renumbered in one of them, keeps them
mirrored; a dispatch and a pass only make such changes.
-/

namespace Alerting

/-! ## Renumbered events -/

namespace Engine

/-- The number that an id ends with. -/
def idNumber (id : String) : Nat := Nat.ofDigitChars 10 (id.toList.drop 6) 0

/-- An id that an engine gives out with its number replaced; any other id is left as it is. -/
def renumber (f : Nat → Nat) (id : String) : String :=
  if id = mintedId (idNumber id) then mintedId (f (idNumber id)) else id

theorem idNumber_mintedId (n : Nat) : idNumber (mintedId n) = n := by
  have hdigits : (mintedId n).toList.drop 6 = Nat.toDigits 10 n := by
    rw [mintedId, String.toList_append, Nat.toList_repr]
    rfl
  rw [idNumber, hdigits, Nat.ofDigitChars_ten_toDigits]

theorem renumber_mintedId (f : Nat → Nat) (n : Nat) : renumber f (mintedId n) = mintedId (f n) := by
  rw [renumber, idNumber_mintedId, if_pos rfl]

end Engine

namespace Event

variable {a : Event} {n : Nat} {f g : Nat → Nat}

/-- The event with the number of its id replaced. -/
def renumbered (f : Nat → Nat) (a : Event) : Event := { a with id := Engine.renumber f a.id }

theorem renumbered_of_id (h : a.id = Engine.mintedId n) (f : Nat → Nat) :
    a.renumbered f = { a with id := Engine.mintedId (f n) } := by
  rw [renumbered, h, Engine.renumber_mintedId]

/-- Only the number of its own id matters for an event. -/
theorem renumbered_congr (h : a.id = Engine.mintedId n) (hf : f n = g n) : a.renumbered f = a.renumbered g := by
  rw [renumbered_of_id h, renumbered_of_id h, hf]

theorem renumbered_of_fixed (h : a.id = Engine.mintedId n) (hf : f n = n) : a.renumbered f = a := by
  rw [renumbered_of_id h, hf, ← h]

theorem renumbered_renumbered (h : a.id = Engine.mintedId n) :
    (a.renumbered f).renumbered g = a.renumbered fun m => g (f m) := by
  have hf : (a.renumbered f).id = Engine.mintedId (f n) := congrArg Event.id (renumbered_of_id h f)
  rw [renumbered_of_id hf, renumbered_of_id h, renumbered_of_id h]

variable (f a)

@[simp] theorem status_renumbered : (a.renumbered f).status = a.status := rfl

@[simp] theorem fingerprint_renumbered : (a.renumbered f).fingerprint = a.fingerprint := rfl

@[simp] theorem owns_renumbered (scope : Scope) : scope.owns (a.renumbered f) = scope.owns a := rfl

theorem liesAt_renumbered {key k : String} : (a.renumbered f).LiesAt key k ↔ a.LiesAt key k := Iff.rfl

/-- A move goes by the status only. -/
theorem transition_renumbered (target : Status) (time : Instant) :
    (a.renumbered f).transition target time = (a.transition target time).map (renumbered f) := by
  rw [transition, transition, status_renumbered]
  split <;> rfl

end Event

/-- The event of a match over a renumbered record, with a renumbered id, is the renumbered one. -/
theorem Observation.event_renumbered (o : Observation) (rule : Rule) (datasource : String) (n : Nat) (now : Instant)
    (f : Nat → Nat) (record : Option Event) :
    o.event rule datasource (Engine.mintedId (f n)) now (record.map (Event.renumbered f)) =
      (o.event rule datasource (Engine.mintedId n) now record).renumbered f := by
  cases record with
  | none =>
    rw [Event.renumbered_of_id (n := n) rfl]
    rfl
  | some c =>
    cases ht : c.status.isTerminal with
    | true =>
      simp only [event, Event.mergeOver, Option.map_some, Event.status_renumbered, ht, if_true]
      rw [Event.renumbered_of_id (n := n) rfl]
      rfl
    | false =>
      simp only [event, Event.mergeOver, Option.map_some, Event.status_renumbered, ht, Bool.false_eq_true, if_false]
      rfl

section Events

variable {f : Nat → Nat} {d : Nat} {cached cached' : String → Option Event}

/-- Renumbered records give renumbered events. -/
theorem Finding.events_renumbered (rule : Rule) (datasource : String) (now : Instant) {x : Finding}
    (h : ∀ k, x.Concerns k → cached' k = (cached k).map (Event.renumbered f)) (n : Nat) :
    x.events cached' rule datasource now (f n) =
      (x.events cached rule datasource now n).map (Event.renumbered f) := by
  cases x with
  | malformed | configured => rfl
  | matched o =>
    rw [events, events, h o.fingerprint (.inl ⟨o, rfl, rfl⟩), Observation.event_renumbered]
    rfl
  | unmatched fingerprint value =>
    rw [events, events, h fingerprint (.inr ⟨value, rfl⟩)]
    cases cached fingerprint with
    | none => rfl
    | some c =>
      cases ht : c.status.isTerminal <;> simp [Option.filter, ht]
      rfl

theorem eventsOf_renumbered (rule : Rule) (datasource : String) (now : Instant) {fs : List Finding} {n : Nat}
    (hf : ∀ m, n ≤ m → f m = m + d)
    (h : ∀ x ∈ fs, ∀ k, x.Concerns k → cached' k = (cached k).map (Event.renumbered f)) :
    eventsOf cached' rule datasource now (n + d) fs =
      (eventsOf cached rule datasource now n fs).map (Event.renumbered f) := by
  induction fs generalizing n with
  | nil => rfl
  | cons x fs ih =>
    have hnext : (if x.isMatch = true then n + d + 1 else n + d) = (if x.isMatch = true then n + 1 else n) + d := by
      split <;> omega
    rw [eventsOf, eventsOf, List.map_append, ← x.events_renumbered rule datasource now (h x List.mem_cons_self),
      hf n (Nat.le_refl n), hnext]
    refine congrArg _ (ih (fun m hm => hf m ?_) fun y hy => h y (List.mem_cons_of_mem x hy))
    split at hm <;> omega

end Events

/-! ## Tables with other values -/

namespace Table

variable {α β : Type}

theorem filter_map (f : α → β) (t : Table α) (p : String → β → Bool) :
    (t.map f).filter p = (t.filter fun k v => p k (f v)).map f := by
  refine ext_get? fun k => ?_
  simp only [get?_filter, get?_map]
  cases t.get? k with
  | none => rfl
  | some v => cases hp : p k (f v) <;> simp [Option.filter, hp]

end Table

/-- The job for the renumbered event. -/
def Job.renumbered (f : Nat → Nat) : Job → Job
  | discard event => discard (event.renumbered f)
  | reactivate event => reactivate (event.map (Event.renumbered f))
  | settle event => settle (event.renumbered f)

namespace Engine

/-- The jobs of a pass go by the events that its rule owns. -/
theorem jobs_renumbered {scope : Scope} {current suppressed : List String} {all all' : Table Event} {f : Nat → Nat}
    (pending : Table Instant)
    (h : owned scope current suppressed all' = (owned scope current suppressed all).map (Event.renumbered f)) :
    jobs scope current suppressed all' pending =
      (jobs scope current suppressed all pending).map fun x => (x.1, x.2.renumbered f) := by
  have hstale : ∀ k (a : Event), isStale current k (a.renumbered f) = isStale current k a := fun _ _ => rfl
  have hmissing : ∀ k (a : Event), isMissing current k (a.renumbered f) = isMissing current k a := fun _ _ => rfl
  have hkept : keptEvents scope current suppressed all' =
      (keptEvents scope current suppressed all).map (Event.renumbered f) := by
    rw [keptEvents, h, Table.filter_map]
    rfl
  simp only [jobs, h, hkept, Table.filter_map, Table.get?_map, List.map_append, List.map_map]
  simp only [Table.toList, Table.map, List.map_map]
  rfl

/-! ## Calls that succeed -/

section Calls

variable {e : Engine} (h : e.Healthy)
include h

theorem remove_of_healthy (tenant center fingerprint : String) :
    e.remove tenant center fingerprint = (.ok (), e.counted.removed tenant center fingerprint) :=
  perform_of_healthy h _ _

theorem pendingSet_of_healthy (tenant rule fingerprint : String) (time : Instant) :
    e.pendingSet tenant rule fingerprint time = (.ok (), e.counted.missed tenant rule fingerprint time) :=
  perform_of_healthy h _ _

theorem clearPending_of_healthy (scope : Scope) (fingerprint : String) :
    e.clearPending scope fingerprint = e.counted.found scope.tenant scope.rule fingerprint := by
  have hd : e.pendingDelete scope.tenant scope.rule fingerprint = _ := perform_of_healthy h _ _
  rw [clearPending, hd]
  rfl

end Calls

/-! ## Mirrored engines -/

/-- An engine has what another has for a rule with these fingerprints, up to the numbers of ids; the ids that it gives
out are `d` ahead. -/
structure Mirrors (scope : Scope) (own : String → Prop) (f : Nat → Nat) (d : Nat) (e e' : Engine) : Prop where
  healthy : e.Healthy
  healthy' : e'.Healthy
  /-- The stored events of the fingerprints, whoever owns them. -/
  stands : ∀ k, own k →
    e'.events.find? scope.eventsKey k = (e.events.find? scope.eventsKey k).map (Event.renumbered f)
  /-- The stored events that the rule owns. -/
  owns : ∀ k, (e'.events.find? scope.eventsKey k).filter scope.owns =
    ((e.events.find? scope.eventsKey k).filter scope.owns).map (Event.renumbered f)
  entries : e'.pending.list scope.tenant scope.rule = e.pending.list scope.tenant scope.rule
  infos : e'.infos = e.infos
  minted : e'.minted = e.minted + d
  shifts : ∀ n, e.minted ≤ n → f n = n + d

/-- Two steps with the same result that leave mirrored engines. -/
def Alike {α : Type} (scope : Scope) (own : String → Prop) (f : Nat → Nat) (d : Nat) (s s' : Result α) : Prop :=
  s'.1 = s.1 ∧ Mirrors scope own f d s.2 s'.2

namespace Mirrors

variable {scope : Scope} {own : String → Prop} {f : Nat → Nat} {d : Nat} {e e' : Engine}

/-! ### Changes made in both engines -/

/-- Changes that touch no cache and give out as many ids. -/
theorem quietly (h : Mirrors scope own f d e e') {e₁ e₁' : Engine} (hq : Quietly e e₁) (hq' : Quietly e' e₁') {n : Nat}
    (hm : e₁.minted = e.minted + n) (hm' : e₁'.minted = e'.minted + n) : Mirrors scope own f d e₁ e₁' where
  healthy := hq (fun hq h => h.quiet hq) h.healthy
  healthy' := hq' (fun hq h => h.quiet hq) h.healthy'
  stands := by
    rw [hq.events, hq'.events]
    exact h.stands
  owns := by
    rw [hq.events, hq'.events]
    exact h.owns
  entries := by
    rw [hq.pending, hq'.pending]
    exact h.entries
  infos := by
    rw [hq.infos, hq'.infos]
    exact h.infos
  minted := by
    rw [hm, hm', h.minted]
    omega
  shifts := fun m hle => h.shifts m (Nat.le_trans hq.minted hle)

theorem counted (h : Mirrors scope own f d e e') : Mirrors scope own f d e.counted e'.counted :=
  h.quietly (n := 0) (Quiet.counted e).quietly (Quiet.counted e').quietly rfl rfl

theorem note (h : Mirrors scope own f d e e') (notice notice' : Notice) :
    Mirrors scope own f d (e.note notice) (e'.note notice') :=
  h.quietly (n := 0) (Quiet.noted e notice).quietly (Quiet.noted e' notice').quietly rfl rfl

theorem atTime (h : Mirrors scope own f d e e') (time time' : Nat) :
    Mirrors scope own f d (e.atTime time) (e'.atTime time') :=
  h.quietly (n := 0) (Quiet.waited e time).quietly (Quiet.waited e' time').quietly rfl rfl

theorem stored (h : Mirrors scope own f d e e') (a : Event) :
    Mirrors scope own f d (e.stored a) (e'.stored (a.renumbered f)) where
  healthy := h.healthy
  healthy' := h.healthy'
  stands := fun k hk => by
    by_cases hat : a.LiesAt scope.eventsKey k
    · rw [find?_stored_self hat, find?_stored_self ((a.liesAt_renumbered f).mpr hat)]
      rfl
    · rw [find?_stored_of_ne hat, find?_stored_of_ne (mt (a.liesAt_renumbered f).mp hat)]
      exact h.stands k hk
  owns := fun k => by
    by_cases hat : a.LiesAt scope.eventsKey k
    · rw [find?_stored_self hat, find?_stored_self ((a.liesAt_renumbered f).mpr hat)]
      cases ho : scope.owns a <;> simp [Option.filter, ho]
    · rw [find?_stored_of_ne hat, find?_stored_of_ne (mt (a.liesAt_renumbered f).mp hat)]
      exact h.owns k
  entries := h.entries
  infos := h.infos
  minted := h.minted
  shifts := h.shifts

theorem removed (h : Mirrors scope own f d e e') (tenant center fingerprint : String) :
    Mirrors scope own f d (e.removed tenant center fingerprint) (e'.removed tenant center fingerprint) where
  healthy := h.healthy
  healthy' := h.healthy'
  stands := fun k hk => by
    simp only [Engine.removed, EventCache.find?_remove]
    split
    · rfl
    · exact h.stands k hk
  owns := fun k => by
    simp only [Engine.removed, EventCache.find?_remove]
    split
    · rfl
    · exact h.owns k
  entries := h.entries
  infos := h.infos
  minted := h.minted
  shifts := h.shifts

theorem missed (h : Mirrors scope own f d e e') (fingerprint : String) (time : Instant) :
    Mirrors scope own f d (e.missed scope.tenant scope.rule fingerprint time)
      (e'.missed scope.tenant scope.rule fingerprint time) where
  healthy := h.healthy
  healthy' := h.healthy'
  stands := h.stands
  owns := h.owns
  entries := by
    simp only [Engine.missed, PendingCache.set, PendingCache.list_replace, and_self, if_true, h.entries]
  infos := h.infos
  minted := h.minted
  shifts := h.shifts

theorem found (h : Mirrors scope own f d e e') (fingerprint : String) :
    Mirrors scope own f d (e.found scope.tenant scope.rule fingerprint)
      (e'.found scope.tenant scope.rule fingerprint) where
  healthy := h.healthy
  healthy' := h.healthy'
  stands := h.stands
  owns := h.owns
  entries := by
    have hlist : ∀ c : PendingCache, (c.delete scope.tenant scope.rule fingerprint).list scope.tenant scope.rule =
        if (c.list scope.tenant scope.rule).contains fingerprint then
          (c.list scope.tenant scope.rule).erase fingerprint else c.list scope.tenant scope.rule := by
      intro c
      rw [PendingCache.delete]
      split
      · rw [PendingCache.list_replace, if_pos ⟨rfl, rfl⟩]
      · rfl
    simp only [Engine.found, hlist, h.entries]
  infos := h.infos
  minted := h.minted
  shifts := h.shifts

/-! ### A dispatch -/

/-- Stores of events, and of the renumbered ones. -/
theorem store (h : Mirrors scope own f d e e') (rule : String) (events : List Event) :
    Alike scope own f d (Engine.store rule e events) (Engine.store rule e' (events.map (Event.renumbered f))) := by
  induction events generalizing e e' with
  | nil => exact ⟨rfl, h⟩
  | cons a events ih =>
    obtain ⟨hn, hrest⟩ := ih (h.counted.stored a)
    rw [List.map_cons, Engine.store, Engine.store, push_of_healthy h.healthy, push_of_healthy h.healthy']
    exact ⟨congrArg (· + 1) hn, hrest⟩

end Mirrors

end Engine

/-- A completion without its events, of which nothing is gathered. -/
def Completion.bare : Completion → Completion
  | answered outcome pushed => answered { outcome with events := [] } pushed
  | c => c

namespace Engine

namespace Mirrors

variable {rule : Rule} {own : String → Prop} {f : Nat → Nat} {d : Nat} {e e' : Engine}

theorem complete (h : Mirrors rule.scope own f d e e') (datasource : String) (now : Instant)
    {reply : Except Failure Answer}
    (hown : ∀ answer, reply = .ok answer → ∀ x ∈ rule.findings answer, ∀ k, x.Concerns k → own k) :
    (e'.complete rule datasource now reply).1.bare = (e.complete rule datasource now reply).1.bare ∧
      Mirrors rule.scope own f d (e.complete rule datasource now reply).2
        (e'.complete rule datasource now reply).2 := by
  rcases reply with (error | p) | answer
  · exact ⟨rfl, h⟩
  · exact ⟨rfl, h⟩
  · have hgets : ∀ {x : Engine}, x.Healthy → x.GetsSucceed := fun hx n k => hx n (.get k)
    obtain ⟨out, e₁, hw, hc, ho⟩ := workOff_of_getsSucceed rule datasource now (hgets h.healthy) (rule.findings answer)
      .empty
    obtain ⟨out', e₁', hw', hc', ho'⟩ := workOff_of_getsSucceed rule datasource now (hgets h.healthy')
      (rule.findings answer) .empty
    obtain ⟨hevents, hm⟩ := workOff_spec _ hw
    obtain ⟨hevents', hm'⟩ := workOff_spec _ hw'
    have hq : ∀ {x y : Engine} {o : Outcome}, x.workOff rule datasource now .empty (rule.findings answer) = (.ok o, y) →
        Quietly x y := by
      intro x y o hxy P keeps hx
      have hP := workOff_keeps keeps rule datasource now (rule.findings answer) .empty hx
      rwa [hxy] at hP
    have hrenumbered : out'.events = out.events.map (Event.renumbered f) := by
      rw [hevents, hevents', h.minted]
      exact eventsOf_renumbered rule datasource now h.shifts fun x hx k hk => h.stands k (hown answer rfl x hx k hk)
    obtain ⟨hpushed, hstored⟩ := (h.quietly (hq hw) (hq hw') hm hm').store rule.id out.events
    simp only [Engine.complete, hw, hw', hrenumbered]
    refine ⟨?_, hstored⟩
    simp only [Completion.bare, hc, hc', ho, ho', hpushed]

theorem add (h : Mirrors rule.scope own f d e e') (g : Gathering) (datasource : String) {c c' : Completion}
    (hc : c'.bare = c.bare) :
    Alike rule.scope own f d (g.add e rule.id datasource c) (g.add e' rule.id datasource c') := by
  have hbare : ∀ (e : Engine) (c : Completion), g.add e rule.id datasource c = g.add e rule.id datasource c.bare :=
    fun _ c => by cases c <;> rfl
  rw [hbare e c, hbare e' c', hc]
  unfold Gathering.add
  split
  · exact ⟨rfl, h⟩
  · cases c.bare with
    | answered | panicked => exact ⟨rfl, h⟩
    | failed error => exact ⟨rfl, h.note _ _⟩

theorem gather {readings : List Reading} (h : Mirrors rule.scope own f d e e')
    (hown : ∀ r ∈ readings, ∀ answer, r.reply = .ok answer → ∀ x ∈ rule.findings answer, ∀ k, x.Concerns k → own k)
    (start start' : Nat) (g : Gathering) (last : Nat) :
    Alike rule.scope own f d (Engine.gather rule start e g last readings)
      (Engine.gather rule start' e' g last readings) := by
  induction readings generalizing e e' g last with
  | nil => exact ⟨rfl, h⟩
  | cons r readings ih =>
    rw [Engine.gather, Engine.gather]
    split
    · exact ⟨rfl, h⟩
    · obtain ⟨hc, hcompleted⟩ := (h.atTime (start + r.elapsed) (start' + r.elapsed)).complete r.datasource r.asked
        (hown r List.mem_cons_self)
      obtain ⟨hg, hadded⟩ := hcompleted.add g r.datasource hc
      dsimp only
      rw [hg]
      exact ih hadded (fun x hx => hown x (List.mem_cons_of_mem r hx)) _ r.elapsed

/-- **A dispatch reports the same in mirrored engines, and leaves them mirrored.** -/
theorem dispatch {readings : List Reading} (h : Mirrors rule.scope own f d e e')
    (hown : ∀ r ∈ readings, ∀ answer, r.reply = .ok answer → ∀ x ∈ rule.findings answer, ∀ k, x.Concerns k → own k) :
    Alike rule.scope own f d (e.dispatch rule readings) (e'.dispatch rule readings) := by
  obtain ⟨hg, hgathered⟩ := h.gather hown e.time e'.time .empty 0
  exact ⟨congrArg Gathering.report hg, hgathered⟩

/-! ### A pass -/

section Pass

variable {scope : Scope} (config : Config) (info : Option FaultCenter) (pending : Table Instant) (now : Instant)

theorem clearPending (h : Mirrors scope own f d e e') (fingerprint : String) :
    Mirrors scope own f d (e.clearPending scope fingerprint) (e'.clearPending scope fingerprint) := by
  rw [clearPending_of_healthy h.healthy, clearPending_of_healthy h.healthy']
  exact h.counted.found fingerprint

theorem discard (h : Mirrors scope own f d e e') (r : RecoveryReport) (fingerprint : String) (a : Event) :
    Alike scope own f d (e.discard r fingerprint a) (e'.discard r fingerprint (a.renumbered f)) := by
  rw [Engine.discard, Engine.discard, remove_of_healthy h.healthy, remove_of_healthy h.healthy']
  exact ⟨rfl, h.counted.removed a.tenantId a.faultCenterId fingerprint⟩

theorem activate (h : Mirrors scope own f d e e') (r : RecoveryReport) (fingerprint : String) (a : Option Event) :
    Alike scope own f d (e.activate scope now r fingerprint a)
      (e'.activate scope now r fingerprint (a.map (Event.renumbered f))) := by
  cases a with
  | none => exact ⟨rfl, h.clearPending fingerprint⟩
  | some a =>
    rw [Option.map_some, Engine.activate, Engine.activate, a.transition_renumbered]
    cases a.transition .alerting now with
    | error error => exact ⟨rfl, h.note _ _⟩
    | ok next =>
      simp only [Except.map, push_of_healthy h.healthy, push_of_healthy h.healthy']
      exact ⟨rfl, (h.counted.stored next).clearPending fingerprint⟩

theorem beginPending (h : Mirrors scope own f d e e') (r : RecoveryReport) (a : Event) :
    Alike scope own f d (e.beginPending scope now r a) (e'.beginPending scope now r (a.renumbered f)) := by
  rw [Engine.beginPending, Engine.beginPending, a.transition_renumbered, a.fingerprint_renumbered]
  cases a.transition .pendingRecovery now with
  | error error => exact ⟨rfl, h.note _ _⟩
  | ok next =>
    have hmissed := h.counted.missed a.fingerprint now
    simp only [Except.map, pendingSet_of_healthy h.healthy, pendingSet_of_healthy h.healthy',
      push_of_healthy hmissed.healthy, push_of_healthy hmissed.healthy']
    exact ⟨rfl, hmissed.counted.stored next⟩

theorem completeRecovery (h : Mirrors scope own f d e e') (r : RecoveryReport) (a : Event) :
    Alike scope own f d (e.completeRecovery scope now r a) (e'.completeRecovery scope now r (a.renumbered f)) := by
  rw [Engine.completeRecovery, Engine.completeRecovery, a.transition_renumbered, a.fingerprint_renumbered]
  cases a.transition .recovered now with
  | error error => exact ⟨rfl, h.note _ _⟩
  | ok next =>
    simp only [Except.map, push_of_healthy h.healthy, push_of_healthy h.healthy']
    exact ⟨rfl, (h.counted.stored next).clearPending a.fingerprint⟩

theorem settle (h : Mirrors scope own f d e e') (r : RecoveryReport) (fingerprint : String) (a : Event) :
    Alike scope own f d (e.settle config scope info pending now r fingerprint a)
      (e'.settle config scope info pending now r fingerprint (a.renumbered f)) := by
  have hgrace : config.graceOf (a.renumbered f) info = config.graceOf a info := rfl
  rw [Engine.settle, Engine.settle, a.status_renumbered, hgrace]
  cases pending.get? fingerprint with
  | none => exact h.beginPending now r a
  | some since =>
    dsimp only
    split
    · exact h.completeRecovery now r a
    · exact ⟨rfl, h⟩

/-- **A job, and the one for the renumbered event.** -/
theorem doJob (h : Mirrors scope own f d e e') (r : RecoveryReport) (fingerprint : String) (job : Job) :
    Alike scope own f d (Engine.doJob config scope now pending info (r, e) (fingerprint, job))
      (Engine.doJob config scope now pending info (r, e') (fingerprint, job.renumbered f)) := by
  cases job with
  | discard a => exact h.discard r fingerprint a
  | reactivate a => exact h.activate now r fingerprint a
  | settle a => exact h.settle config info pending now r fingerprint a

theorem doJobs (h : Mirrors scope own f d e e') (r : RecoveryReport) (l : List (String × Job)) :
    Alike scope own f d (l.foldl (Engine.doJob config scope now pending info) (r, e))
      ((l.map fun x => (x.1, x.2.renumbered f)).foldl (Engine.doJob config scope now pending info) (r, e')) := by
  induction l generalizing e e' r with
  | nil => exact ⟨rfl, h⟩
  | cons x l ih =>
    obtain ⟨hr, hjob⟩ := h.doJob config info pending now r x.1 x.2
    have hstep : Engine.doJob config scope now pending info (r, e') (x.1, x.2.renumbered f) =
        ((Engine.doJob config scope now pending info (r, e) x).1,
          (Engine.doJob config scope now pending info (r, e') (x.1, x.2.renumbered f)).2) := Prod.ext hr rfl
    rw [List.map_cons, List.foldl_cons, List.foldl_cons, hstep]
    exact ih hjob _

/-- The rule owns the same events. -/
theorem owned (h : Mirrors scope own f d e e') (current suppressed : List String) :
    Engine.owned scope current suppressed (e'.events.all scope.eventsKey) =
      (Engine.owned scope current suppressed (e.events.all scope.eventsKey)).map (Event.renumbered f) := by
  have hfilter : ∀ (o : Option Event) (b : Bool),
      (o.filter fun a => a.ruleId == scope.rule && a.tenantId == scope.tenant && b) =
        (o.filter scope.owns).filter fun _ => b := by
    intro o b
    cases o with
    | none => rfl
    | some a =>
      show (if (scope.owns a && b) = true then some a else none) = _
      cases hs : scope.owns a <;> simp [Option.filter, hs]
  have hfind : ∀ x : Engine, (x.events.all scope.eventsKey).get? = x.events.find? scope.eventsKey := fun _ => rfl
  refine Table.ext_get? fun k => ?_
  simp only [Engine.owned, Table.get?_map, Table.get?_filter, hfind, hfilter, h.owns k]
  cases (e.events.find? scope.eventsKey k).filter scope.owns with
  | none => rfl
  | some a => cases hb : current.contains k || !suppressed.contains k <;> simp [Option.filter]

/-- **A pass reports the same in mirrored engines, and leaves them mirrored.** -/
theorem reconcile (h : Mirrors scope own f d e e') (hk : scope.eventsKey.isEmpty = false)
    (hi : scope.infoKey.isEmpty = false) (current suppressed : List String) :
    Alike scope own f d (e.reconcile config scope current suppressed now)
      (e'.reconcile config scope current suppressed now) := by
  rw [reconcile_of_reads config scope current suppressed now hk hi (readError_of_healthy scope h.healthy),
    reconcile_of_reads config scope current suppressed now hk hi (readError_of_healthy scope h.healthy'),
    reconcileRead_eq_jobs, reconcileRead_eq_jobs, jobs_renumbered _ (h.owned _ suppressed), h.entries, h.infos]
  obtain ⟨hr, hjobs⟩ := h.counted.counted.counted.doJobs config (e.infos.get? scope.infoKey)
    (e.pending.list scope.tenant scope.rule) now .empty
    (jobs scope (current.filter fun fingerprint => !fingerprint.isEmpty) suppressed (e.events.all scope.eventsKey)
      (e.pending.list scope.tenant scope.rule))
  exact ⟨congrArg Except.ok hr, hjobs⟩

end Pass

/-- **A tick reports the same in mirrored engines, and leaves them mirrored.** -/
theorem tick {readings : List Reading} (h : Mirrors rule.scope own f d e e')
    (hown : ∀ r ∈ readings, ∀ answer, r.reply = .ok answer → ∀ x ∈ rule.findings answer, ∀ k, x.Concerns k → own k)
    (config : Config) (now : Instant) :
    Alike rule.scope own f d (e.tick config rule readings now) (e'.tick config rule readings now) := by
  obtain ⟨hreport, hdispatched⟩ := h.dispatch hown
  unfold Engine.tick
  cases hd : e.dispatch rule readings with
  | mk result e₁ =>
    cases hd' : e'.dispatch rule readings with
    | mk result' e₁' =>
      rw [hd, hd'] at hreport hdispatched
      obtain rfl : result' = result := hreport
      cases result' with
      | error p => exact ⟨rfl, hdispatched⟩
      | ok report =>
        obtain ⟨hr, hpass⟩ := hdispatched.reconcile config now rule.scope_keys.1 rule.scope_keys.2
          report.fingerprints report.suppressed
        exact ⟨congrArg (fun r => Except.ok (report, r)) hr, hpass⟩

end Mirrors

end Engine

end Alerting
