import Alerting.Proofs.Dispatch.Events
import Alerting.Proofs.Recovery.Apart

/-!
# Work that recovers nothing

Whether a piece of work has anything to do with the recovery of a rule is seen from the caches before and after it
(`Undisturbed`). A dispatch of any rule has not: it drops no record, and it stores an alert as missing only where the
record that it read says so already (`OnlyDispatched`). A pass has to do with its own rule only, whose events and entries
are the only ones that it changes (`Untouched`).
-/

namespace Alerting.Engine

/-- Nothing of the recovery of a rule goes on between two states: its entries are the same, none of its events is gone,
and none of them has become missing or recovered. -/
structure Undisturbed (rule : String) (e e' : Engine) : Prop where
  pending : ∀ tenant, e'.pending.list tenant rule = e.pending.list tenant rule
  kept : ∀ key fingerprint a, e.events.find? key fingerprint = some a → a.ruleId = rule →
    (e'.events.find? key fingerprint).isSome = true
  unmoved : ∀ key fingerprint b, e'.events.find? key fingerprint = some b → b.ruleId = rule →
    b.status = .pendingRecovery ∨ b.status = .recovered →
    ∃ a, e.events.find? key fingerprint = some a ∧ a.status = b.status

/-! ## Dispatches -/

/-- What dispatches leave of every recovery: the entries, and every record as far as it is there and whether it is
missing or recovered. -/
structure OnlyDispatched (e e' : Engine) : Prop where
  pending : e'.pending = e.pending
  kept : ∀ key fingerprint a, e.events.find? key fingerprint = some a → (e'.events.find? key fingerprint).isSome = true
  unmoved : ∀ key fingerprint b, e'.events.find? key fingerprint = some b →
    b.status = .pendingRecovery ∨ b.status = .recovered →
    ∃ a, e.events.find? key fingerprint = some a ∧ a.status = b.status

section Dispatches

variable {e e₁ e₂ : Engine}

theorem OnlyDispatched.refl (e : Engine) : OnlyDispatched e e :=
  ⟨rfl, fun _ _ _ ha => by rw [ha]; rfl, fun _ _ b hb _ => ⟨b, hb, rfl⟩⟩

theorem OnlyDispatched.trans (h : OnlyDispatched e e₁) (h' : OnlyDispatched e₁ e₂) : OnlyDispatched e e₂ := by
  refine ⟨h'.pending.trans h.pending, fun key fingerprint a ha => ?_, fun key fingerprint b hb hs => ?_⟩
  · obtain ⟨b, hb⟩ := Option.isSome_iff_exists.mp (h.kept key fingerprint a ha)
    exact h'.kept key fingerprint b hb
  · obtain ⟨a, ha, has⟩ := h'.unmoved key fingerprint b hb hs
    obtain ⟨a', ha', has'⟩ := h.unmoved key fingerprint a ha (by rw [has]; exact hs)
    exact ⟨a', ha', has'.trans has⟩

theorem OnlyDispatched.of_caches (hevents : e₁.events = e.events) (hpending : e₁.pending = e.pending) :
    OnlyDispatched e e₁ := by
  have h := OnlyDispatched.refl e
  exact ⟨hpending, by rw [hevents]; exact h.kept, by rw [hevents]; exact h.unmoved⟩

theorem OnlyDispatched.quiet (hq : Quiet e₁ e₂) (h : OnlyDispatched e e₁) : OnlyDispatched e e₂ := by
  cases hq <;> exact ⟨h.pending, h.kept, h.unmoved⟩

/-- A store leaves every recovery alone if the event is missing or recovered only where the record said so. -/
theorem OnlyDispatched.stored (h : OnlyDispatched e e₁) {event : Event}
    (hs : event.status = .pendingRecovery ∨ event.status = .recovered →
      ∃ a, e.events.find? (EventCache.keyOf event) event.fingerprint = some a ∧ a.status = event.status) :
    OnlyDispatched e (e₁.stored event) := by
  refine ⟨h.pending, fun key fingerprint a ha => ?_, fun key fingerprint b hb hbs => ?_⟩
  · rw [Engine.stored, EventCache.find?_push]
    split
    · rfl
    · exact h.kept key fingerprint a ha
  · rw [Engine.stored, EventCache.find?_push] at hb
    split at hb
    · next hat =>
      cases hb
      rw [hat.1, hat.2]
      exact hs hbs
    · exact h.unmoved key fingerprint b hb hbs

/-- An event of a finding is missing only if the record that was read is, and it is never recovered. -/
theorem status_of_origin {cached : String → Option Event} {rule : Rule} {now : Instant} {n : Nat} {f : Finding}
    {event : Event} (h : f.Origin cached rule now n event)
    (hs : event.status = .pendingRecovery ∨ event.status = .recovered) :
    ∃ c, cached event.fingerprint = some c ∧ c.status = event.status := by
  have hmissing := hs.resolve_right h.ne_recovered
  cases h with
  | continued c hcached _ _ hstatus =>
    refine ⟨c, hcached, ?_⟩
    rw [hstatus] at hmissing ⊢
    split at hmissing
    · cases hmissing
    · next hd => rw [if_neg hd]
  | started _ _ hstatus =>
    rw [hstatus] at hmissing
    cases hmissing

/-- **Working off an answer recovers nothing**, whichever calls fail. -/
theorem onlyDispatched_complete (hc : e.Coherent) (rule : Rule) (datasource : String) (now : Instant)
    (reply : Except Failure Answer) : OnlyDispatched e (e.complete rule datasource now reply).2 := by
  rcases reply with (_ | _) | answer
  · exact .refl e
  · exact .refl e
  · have hwork := workOff_keeps (P := OnlyDispatched e) OnlyDispatched.quiet rule datasource now (rule.findings answer)
      .empty (.refl e)
    simp only [complete]
    split
    · next hr =>
      rw [hr] at hwork
      exact hwork
    · next outcome e₁ hr =>
      rw [hr] at hwork
      obtain ⟨hevents, -⟩ := workOff_spec (rule.findings answer) hr
      refine store_keeps_of_mem (P := OnlyDispatched e) OnlyDispatched.quiet rule.id outcome.events ?_ hwork
      intro e₂ event hmem h
      rw [hevents] at hmem
      obtain ⟨f, -, m, -, -, hf⟩ := mem_eventsOf (by simpa [Outcome.empty] using hmem)
      have hlies := (Finding.liesAt_of_mem_events (hc.liesAt_cached rule) hf).1
      refine h.stored fun hs => ?_
      rw [hlies.1]
      exact status_of_origin (Finding.origin_of_mem_events (hc.liesAt_cached rule) hf) hs

theorem OnlyDispatched.undisturbed (h : OnlyDispatched e e₁) (rule : String) : Undisturbed rule e e₁ :=
  ⟨fun tenant => by rw [h.pending], fun key fingerprint a ha _ => h.kept key fingerprint a ha,
    fun key fingerprint b hb _ => h.unmoved key fingerprint b hb⟩

end Dispatches

/-! ## Passes of other rules -/

/-- The events of a rule and its entries are as they were. -/
structure Untouched (rule : String) (e e' : Engine) : Prop where
  pending : ∀ tenant, e'.pending.list tenant rule = e.pending.list tenant rule
  events : ∀ key fingerprint a, a.ruleId = rule →
    (e'.events.find? key fingerprint = some a ↔ e.events.find? key fingerprint = some a)

section Passes

variable {rule : String} {e e₁ e₂ : Engine}

theorem Untouched.refl (rule : String) (e : Engine) : Untouched rule e e := ⟨fun _ => rfl, fun _ _ _ _ => Iff.rfl⟩

theorem Untouched.trans (h : Untouched rule e e₁) (h' : Untouched rule e₁ e₂) : Untouched rule e e₂ :=
  ⟨fun tenant => (h'.pending tenant).trans (h.pending tenant),
    fun key fingerprint a ha => (h'.events key fingerprint a ha).trans (h.events key fingerprint a ha)⟩

theorem Untouched.quiet (hq : Quiet e₁ e₂) (h : Untouched rule e e₁) : Untouched rule e e₂ := by
  cases hq <;> exact ⟨h.pending, h.events⟩

/-- **A pass leaves other rules untouched**, those of the same id and another tenant included. -/
theorem untouched_recoverTick (hc : e.Coherent) (config : Config) {scope : Scope} (hne : scope.rule ≠ rule)
    (report : Report) (now : Instant) : Untouched rule e (e.recoverTick config scope report now).2 := by
  have h := leavesOthers_reconcile config scope report.fingerprints report.suppressed now hc
  refine ⟨fun tenant => h.pending tenant rule ?_, fun key fingerprint a ha => h.events key fingerprint a ?_⟩
  · intro howner
    exact hne (congrArg Prod.snd howner).symm
  · intro howner
    exact hne ((congrArg Prod.snd howner).symm.trans ha)

theorem Untouched.undisturbed (h : Untouched rule e e₁) : Undisturbed rule e e₁ := by
  refine ⟨h.pending, fun key fingerprint a ha hr => ?_, fun key fingerprint b hb hr _ => ?_⟩
  · rw [(h.events key fingerprint a hr).mpr ha]
    rfl
  · exact ⟨b, (h.events key fingerprint b hr).mp hb, rfl⟩

end Passes

end Alerting.Engine
