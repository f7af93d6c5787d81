import Alerting.Proofs.Recovery.Listed

/-!
# Passes go fingerprint by fingerprint

Two passes of a rule whose reads succeed do the same about a fingerprint if they read the same about it and if the calls
about it fail alike, whatever they read about others and whichever other calls fail. A pass moves only events of its own
rule and leaves those of all others alone (`Engine.LeavesOthers`), and a pass with a read that fails has its error and
touches no cache. These are the three parts of `passes_are_pointwise`.

Which of the calls about a fingerprint fail is said without their numbers (`Engine.FailsAs`), since the other calls of two
passes need not be as many.
-/

namespace Alerting

namespace Engine

/-! ## Calls about a fingerprint -/

section Fate

variable {e : Engine} {fingerprint : String} {fate : Call → Bool}

theorem fated_withFate (e : Engine) (fingerprint : String) (fate : Call → Bool) :
    (e.withFate (Call.isAbout fingerprint) fate).Fated fingerprint fate := fun _ _ hc => if_pos hc

theorem cell_withFate (e : Engine) (about fate : Call → Bool) (scope : Scope) (k : String) :
    (e.withFate about fate).cell scope k = e.cell scope k := rfl

/-- Reads are not about a fingerprint. -/
theorem readError_withFate (e : Engine) (fingerprint : String) (fate : Call → Bool) (scope : Scope) :
    (e.withFate (Call.isAbout fingerprint) fate).readError scope = e.readError scope := rfl

end Fate

/-! ## One pass -/

section Pass

variable (config : Config) (scope : Scope) (current suppressed : List String) (now : Instant) {e : Engine}

/-- **A pass whose reads succeed does about a fingerprint what was read about it says, given how the calls about it
fail.** -/
theorem reconcile_of_failsAs (hc : e.Coherent) (hk : scope.eventsKey.isEmpty = false)
    (hi : scope.infoKey.isEmpty = false) (hr : e.readError scope = none) {k : String} {fate : Call → Bool}
    (h : e.FailsAs (·.reconcile config scope current suppressed now) (Call.isAbout k) fate) :
    ∃ r e', e.reconcile config scope current suppressed now = (.ok r, e') ∧
      let result := (e.cell scope k).fatedPass config scope (e.infos.get? scope.infoKey) now k fate
        (isCurrent current k) (suppressed.contains k)
      e'.cell scope k = result.2 ∧ ∀ v, k ∈ r.list v ↔ result.1 = some v := by
  -- The pass is the one of the engine in which all calls about the fingerprint fail as told.
  obtain ⟨hcell, hlist⟩ := reconcileRead_of_fated config scope (current.filter fun fingerprint => !fingerprint.isEmpty)
    suppressed now (e := (e.withFate (Call.isAbout k) fate).counted.counted.counted) hc (e.infos.get? scope.infoKey)
    (fated_withFate e k fate)
  have hpass := reconcile_of_reads config scope current suppressed now hk hi
    ((readError_withFate e k fate scope).trans hr)
  have hreads := reconcile_of_reads config scope current suppressed now hk hi hr
  rw [FailsAs, hpass, hreads] at h
  obtain ⟨hresult, hafter⟩ := Prod.mk.inj h
  rw [contains_filter_eq_isCurrent] at hcell hlist
  refine ⟨_, _, hreads, ?_, ?_⟩
  · rw [← cell_withFate _ (Call.isAbout k) fate, ← hafter]
    exact hcell
  · rw [← Except.ok.inj hresult]
    exact hlist

/-- A pass without a fault center does nothing. -/
theorem reconcile_of_emptyKey (h : (scope.eventsKey.isEmpty || scope.infoKey.isEmpty) = true) :
    e.reconcile config scope current suppressed now = (.ok .empty, e.note (.emptyKey scope.tenant scope.rule)) := by
  rw [reconcile, if_pos h]

/-- What a pass leaves of everything that is not the rule's: the events and entries of others are as they were, and every
write is one of the rule over an event of the rule. -/
structure LeavesOthers (e e' : Engine) : Prop where
  events : ∀ key fingerprint a, a.owner ≠ scope.owner →
    (e'.events.find? key fingerprint = some a ↔ e.events.find? key fingerprint = some a)
  pending : ∀ tenant rule, (tenant, rule) ≠ scope.owner → e'.pending.list tenant rule = e.pending.list tenant rule
  writes : e'.NewWrites e.writes fun _ x => x.event.owner = scope.owner ∧ ∃ old ∈ x.replaced, old.owner = scope.owner

section Turns

variable {config scope now} {info : Option FaultCenter} {c : Cell} {fingerprint : String} {e₁ e₂ : Engine}

/-- A change of a pass leaves the entries of other rules alone. -/
theorem Turn.pendingList (ht : Turn config scope now info c fingerprint e₁ e₂) {tenant rule : String}
    (hne : (tenant, rule) ≠ scope.owner) : e₂.pending.list tenant rule = e₁.pending.list tenant rule := by
  have hother : ¬(tenant = scope.tenant ∧ rule = scope.rule) := fun h => hne (Prod.ext h.1 h.2)
  cases ht with
  | quiet hq => rw [Quietly.pending hq.quietly]
  | discarded | reactivated | wentMissing | recovered => rfl
  | listed => rw [missed, PendingCache.set, PendingCache.list_replace, if_neg hother]
  | unlisted =>
    rw [found, PendingCache.delete]
    split
    · rw [PendingCache.list_replace, if_neg hother]
    · rfl

/-- A change of a pass writes an event of the rule over an event of the rule. -/
theorem Turn.newWrites (ht : Turn config scope now info c fingerprint e₁ e₂) {past : List (Nat × Write)}
    (h : e₁.NewWrites past fun _ x => x.event.owner = scope.owner ∧ ∃ old ∈ x.replaced, old.owner = scope.owner) :
    e₂.NewWrites past fun _ x => x.event.owner = scope.owner ∧ ∃ old ∈ x.replaced, old.owner = scope.owner := by
  have hmoved : ∀ {e₁ : Engine} {old : Event} (target : Status) {d : Cell}, e₁.cell scope fingerprint = d →
      d.record.filter scope.owns = some old → old.LiesAt scope.eventsKey fingerprint →
      e₁.NewWrites past (fun _ x => x.event.owner = scope.owner ∧ ∃ old ∈ x.replaced, old.owner = scope.owner) →
      (e₁.stored (old.moved target now)).NewWrites past fun _ x =>
        x.event.owner = scope.owner ∧ ∃ old ∈ x.replaced, old.owner = scope.owner := by
    intro e₁ old target d hc ho hl h
    have howner : old.owner = scope.owner := Scope.owns_iff.mp (Option.filter_eq_some_iff.mp ho).2
    have hfind : e₁.events.find? (EventCache.keyOf old) old.fingerprint = some old := by
      rw [hl.1, hl.2]
      exact find?_of_cell_eq hc ho
    exact h.stored ⟨howner, old, hfind, howner⟩
  cases ht with
  | quiet hq => exact h.of_writes (Quietly.writes hq.quietly)
  | discarded | listed | unlisted => exact h
  | reactivated old hc ho hl => exact hmoved .alerting hc ho hl h
  | wentMissing old hc ho hl => exact hmoved .pendingRecovery hc ho hl h
  | recovered old since hc ho hl => exact hmoved .recovered hc ho hl h

/-- **A change of a pass leaves the others alone.** -/
theorem LeavesOthers.turn (h : e.LeavesOthers scope e₁) (hc : e₁.Coherent)
    (ht : Turn config scope now info c fingerprint e₁ e₂) : e.LeavesOthers scope e₂ := by
  refine ⟨?events, fun tenant rule hne => (ht.pendingList hne).trans (h.pending tenant rule hne), ht.newWrites h.writes⟩
  intro key k a hne
  rw [← h.events key k a hne]
  refine ⟨fun ha => ?_, fun ha => ht.find?_of_owner_ne hne ha⟩
  obtain ⟨hkey, hfp⟩ := hc.deal ht.deal key k a ha
  subst hkey hfp
  rcases ht.knows (.inl ha) with hk | ⟨old, target, rfl, -, ho, -⟩
  · exact hk.stored_of_landed
  · exact absurd ho hne

end Turns

/-- **A pass leaves the others alone**, whichever calls fail. -/
theorem leavesOthers_reconcile (hc : e.Coherent) :
    e.LeavesOthers scope (e.reconcile config scope current suppressed now).2 := by
  have h := reconcile_keeps_turns config scope current suppressed now hc
    (P := fun e' => e'.Coherent ∧ e.LeavesOthers scope e')
    (fun _ _ _ ht ⟨hc, h⟩ => ⟨hc.deal ht.deal, h.turn hc ht⟩)
    ⟨hc, fun _ _ _ _ => Iff.rfl, fun _ _ _ => rfl, newWrites_self e _⟩
  exact h.2

end Pass

end Engine

/-- **A pass is pointwise.** Two passes that agree on a fingerprint do the same about it, whatever all others are; a pass
leaves other rules and tenants alone; and a failed read ends it with both caches as they were. -/
theorem passes_are_pointwise (config : Config) (scope : Scope) (now : Instant) :
    (∀ (fingerprint : String) (fate : Call → Bool) (e₁ e₂ : Engine)
        (current₁ suppressed₁ current₂ suppressed₂ : List String),
      e₁.Coherent → e₂.Coherent → e₁.readError scope = none → e₂.readError scope = none →
      e₁.infos.get? scope.infoKey = e₂.infos.get? scope.infoKey →
      e₁.cell scope fingerprint = e₂.cell scope fingerprint →
      (fingerprint ∈ current₁ ↔ fingerprint ∈ current₂) → (fingerprint ∈ suppressed₁ ↔ fingerprint ∈ suppressed₂) →
      e₁.FailsAs (·.reconcile config scope current₁ suppressed₁ now) (Call.isAbout fingerprint) fate →
      e₂.FailsAs (·.reconcile config scope current₂ suppressed₂ now) (Call.isAbout fingerprint) fate →
      ∃ r₁ e₁' r₂ e₂', e₁.reconcile config scope current₁ suppressed₁ now = (.ok r₁, e₁') ∧
        e₂.reconcile config scope current₂ suppressed₂ now = (.ok r₂, e₂') ∧
        e₁'.cell scope fingerprint = e₂'.cell scope fingerprint ∧
        ∀ v, fingerprint ∈ r₁.list v ↔ fingerprint ∈ r₂.list v) ∧
    ∀ (e : Engine) (current suppressed : List String), e.Coherent →
      e.LeavesOthers scope (e.reconcile config scope current suppressed now).2 ∧
      ∀ error, scope.eventsKey.isEmpty = false → scope.infoKey.isEmpty = false → e.readError scope = some error →
        (e.reconcile config scope current suppressed now).1 = .error error ∧
          (e.reconcile config scope current suppressed now).2.events = e.events ∧
          (e.reconcile config scope current suppressed now).2.pending = e.pending := by
  refine ⟨?twoRuns, fun e current suppressed hc =>
    ⟨Engine.leavesOthers_reconcile config scope current suppressed now hc, fun error hk hi hr => ?readFails⟩⟩
  case readFails =>
    obtain ⟨n, h⟩ := Engine.reconcile_of_readError config scope current suppressed now hk hi hr
    rw [h]
    exact ⟨rfl, rfl, rfl⟩
  case twoRuns =>
    intro fingerprint fate e₁ e₂ current₁ suppressed₁ current₂ suppressed₂ hc₁ hc₂ hr₁ hr₂ hinfo hcell hcur hsup hf₁ hf₂
    cases hkeys : scope.eventsKey.isEmpty || scope.infoKey.isEmpty with
    | true =>
      refine ⟨_, _, _, _, Engine.reconcile_of_emptyKey config scope current₁ suppressed₁ now hkeys,
        Engine.reconcile_of_emptyKey config scope current₂ suppressed₂ now hkeys, hcell, fun _ => Iff.rfl⟩
    | false =>
      obtain ⟨hk, hi⟩ := Bool.or_eq_false_iff.mp hkeys
      obtain ⟨r₁, e₁', h₁, hcell₁, hlist₁⟩ := Engine.reconcile_of_failsAs config scope current₁ suppressed₁ now hc₁ hk hi
        hr₁ hf₁
      obtain ⟨r₂, e₂', h₂, hcell₂, hlist₂⟩ := Engine.reconcile_of_failsAs config scope current₂ suppressed₂ now hc₂ hk hi
        hr₂ hf₂
      have hcontains : ∀ {l₁ l₂ : List String}, (fingerprint ∈ l₁ ↔ fingerprint ∈ l₂) →
          l₁.contains fingerprint = l₂.contains fingerprint := fun h => by
        rwa [Bool.eq_iff_iff, List.contains_iff_mem, List.contains_iff_mem]
      have hcurrent : Engine.isCurrent current₁ fingerprint = Engine.isCurrent current₂ fingerprint := by
        rw [Engine.isCurrent, Engine.isCurrent, hcontains hcur]
      rw [hinfo, hcell, hcurrent, hcontains hsup] at hcell₁ hlist₁
      exact ⟨r₁, e₁', r₂, e₂', h₁, h₂, hcell₁.trans hcell₂.symm, fun v => (hlist₁ v).trans (hlist₂ v).symm⟩

/-! ## An alert and a neighbour -/

/-- The engine with a copy of the active alert under another fingerprint. -/
def Engine.withNeighbour (e : Engine) (fingerprint : String) : Engine :=
  match e.events.find? Rule.errorCount.scope.eventsKey (Fingerprint.ofRule "r1") with
  | some event => e.stored { event with fingerprint := fingerprint }
  | none => e

theorem Engine.Coherent.withNeighbour {e : Engine} (h : e.Coherent) (fingerprint : String) :
    (e.withNeighbour fingerprint).Coherent := by
  unfold Engine.withNeighbour
  split
  · exact h.stored _
  · exact h

/-- Both alerts are missed, and the new state of the neighbour is not stored. -/
theorem Engine.run_withNeighbour :
    let scope := Rule.errorCount.scope
    let e := (Engine.active.withNeighbour "neighbour").withFaults fun _ c => c == .push "neighbour"
    let pass := e.reconcile .standard scope [] [] (Instant.epoch.after (.ofSecs 60))
    Engine.active.infos.get? scope.infoKey = e.infos.get? scope.infoKey ∧
      Engine.active.cell scope (Fingerprint.ofRule "r1") = e.cell scope (Fingerprint.ofRule "r1") ∧
      Fingerprint.ofRule "r1" ≠ "neighbour" ∧
      pass.1.toOption = some ⟨[], [], [Fingerprint.ofRule "r1"], [], ["neighbour"]⟩ := by
  decide +kernel

/-- An alert goes missing whether or not it has a neighbour whose new state is not stored. When the entries cannot be
read, it does not go missing. -/
theorem passes_are_pointwise_withNeighbour :
    let scope := Rule.errorCount.scope
    let k := Fingerprint.ofRule "r1"
    let pass (e : Engine) := e.reconcile .standard scope [] [] (Instant.epoch.after (.ofSecs 60))
    let e := (Engine.active.withNeighbour "neighbour").withFaults fun _ c => c == .push "neighbour"
    let e' := Engine.active.withFaults fun _ c => c == .pendingList "r1"
    (∃ r₁ e₁ r₂ e₂, pass .active = (.ok r₁, e₁) ∧ pass e = (.ok r₂, e₂) ∧ e₁.cell scope k = e₂.cell scope k ∧
        ∀ v, k ∈ r₁.list v ↔ k ∈ r₂.list v) ∧
      e.LeavesOthers scope (pass e).2 ∧
      (pass e').1 = .error (Call.pendingList "r1").error ∧ (pass e').2.events = e'.events := by
  intro scope k pass e e'
  obtain ⟨hinfos, hcell, hne, -⟩ := Engine.run_withNeighbour
  obtain ⟨htwo, hone⟩ := passes_are_pointwise .standard scope (Instant.epoch.after (.ofSecs 60))
  obtain ⟨hkey, hinfo⟩ := Rule.errorCount.scope_keys
  have hreads : Engine.active.readError scope = none := Engine.readError_of_healthy scope Engine.healthy_active
  have hc : e.Coherent := (Engine.coherent_active.withNeighbour "neighbour").withFaults _
  have hc' : e'.Coherent := Engine.coherent_active.withFaults _
  refine ⟨?_, (hone e [] [] hc).1, ?_⟩
  · refine htwo k (fun _ => false) .active e [] [] [] [] Engine.coherent_active hc hreads rfl hinfos hcell Iff.rfl Iff.rfl
      (.of_faults (Engine.local_reconcile ..) fun n c _ _ _ => Engine.healthy_active n c)
      (.of_faults (Engine.local_reconcile ..) fun _ c _ _ hc => beq_eq_false_iff_ne.mpr ?_)
    -- The call that fails is about the neighbour.
    rintro rfl
    simp only [Call.isAbout, beq_iff_eq] at hc
    exact hne hc.symm
  · obtain ⟨herror, hevents, -⟩ := (hone e' [] [] hc').2 _ hkey hinfo rfl
    exact ⟨herror, hevents⟩

end Alerting
