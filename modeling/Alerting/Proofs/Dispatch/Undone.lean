import Alerting.Proofs.Dispatch.Races

/-!
# Undone confirmations

When no call fails, an answer makes a write that the states do not allow exactly if its findings undo a confirmation
(`complete_breaks_iff`): a match confirms an unconfirmed record that is due, and a later finding of its fingerprint does
not match. Two severity rules of one severity have the same fingerprint, and so do two series with the same labels.
Datasources that are worked off side by side can undo a confirmation of each other's (`confirmation_is_undone`).
-/

namespace Alerting

/-! ## The events of parts of an answer -/

section Parts

variable {cached : String → Option Event} {rule : Rule} {datasource : String} {now : Instant}

theorem eventsOf_append (fs gs : List Finding) (n : Nat) :
    eventsOf cached rule datasource now n (fs ++ gs) =
      eventsOf cached rule datasource now n fs ++
        eventsOf cached rule datasource now (n + fs.countP Finding.isMatch) gs := by
  induction fs generalizing n with
  | nil => rfl
  | cons f fs ih =>
    have hn : (if f.isMatch then n + 1 else n) + fs.countP Finding.isMatch = n + (f :: fs).countP Finding.isMatch := by
      rw [List.countP_cons]
      split <;> omega
    rw [List.cons_append, eventsOf, eventsOf, ih, List.append_assoc, hn]

/-- The events of a finding that does not match are among those of every answer with it. -/
theorem mem_eventsOf_of_unmatched {fingerprint value : String} {event : Event} {fs : List Finding} {n : Nat}
    (hg : Finding.unmatched fingerprint value ∈ fs)
    (hev : ∀ m, event ∈ (Finding.unmatched fingerprint value).events cached rule datasource now m) :
    event ∈ eventsOf cached rule datasource now n fs := by
  induction fs generalizing n with
  | nil => cases hg
  | cons f fs ih =>
    rcases List.mem_cons.mp hg with rfl | hg
    · exact List.mem_append_left _ (hev n)
    · exact List.mem_append_right _ (ih hg)

end Parts

namespace Engine

/-! ## Stores in which no call fails -/

theorem store_of_healthy {e : Engine} (h : e.Healthy) (rule : String) (event : Event) (events : List Event) :
    (store rule e (event :: events)).2 = (store rule (e.counted.stored event) events).2 := by
  rw [store, push_of_healthy h]

theorem Healthy.store {e : Engine} (h : e.Healthy) (rule : String) (events : List Event) :
    (Engine.store rule e events).2.Healthy :=
  store_keeps (fun hq h => h.quiet hq) (fun _ h => h) rule events h

theorem mem_writes_store {e : Engine} {w : Nat × Write} (h : w ∈ e.writes) (rule : String) (events : List Event) :
    w ∈ (store rule e events).2.writes := by
  refine store_keeps (P := fun e => w ∈ e.writes) (fun hq h => ?_) (fun _ h => List.mem_cons_of_mem _ h) rule events h
  cases hq <;> exact h

theorem workOff_of_healthy (rule : Rule) (datasource : String) (now : Instant) (fs : List Finding) {e : Engine}
    (out : Outcome) (h : e.Healthy) :
    ∃ out' e', workOff rule datasource now e out fs = (.ok out', e') ∧ e'.Healthy := by
  induction fs generalizing e out with
  | nil => exact ⟨out, e, rfl, h⟩
  | cons f fs ih =>
    cases f with
    | malformed severity error => exact ih (e := e.note _) out h
    | configured fingerprint => exact ih _ h
    | unmatched fingerprint value =>
      have hg : e.get rule.tenantId rule.faultCenterId fingerprint = _ := perform_of_healthy h _ _
      rw [workOff, hg]
      exact ih (e := e.counted) _ h
    | matched o =>
      have hg : e.get rule.tenantId rule.faultCenterId o.fingerprint = _ := perform_of_healthy h _ _
      rw [workOff, hg]
      exact ih (e := e.counted.mint.2) _ h

/-- When no call fails, an answer is worked off and its events are stored. -/
theorem complete_of_healthy {e : Engine} (h : e.Healthy) (rule : Rule) (datasource : String) (now : Instant)
    (answer : Answer) : ∃ e₁, e₁.Healthy ∧ e₁.events = e.events ∧
      (e.complete rule datasource now (.ok answer)).2 = (store rule.id e₁
        (eventsOf (e.cached rule) rule datasource now e.minted (rule.findings answer))).2 := by
  obtain ⟨out, e₁, hw, hh⟩ := workOff_of_healthy rule datasource now (rule.findings answer) .empty h
  have hev := (workOff_events rule datasource now (rule.findings answer) e .empty).1
  rw [hw] at hev
  refine ⟨e₁, hh, hev, ?_⟩
  simp only [complete, hw]
  rw [(workOff_spec _ hw).1]
  rfl

/-- After an active event, an unconfirmed one of the same generation is stored at last, by a write that the states do
not allow. -/
theorem exists_write_of_undone (rule : String) {key k id : String} (events : List Event) {e : Engine} (hh : e.Healthy)
    (hold : ∃ old, e.events.find? key k = some old ∧ old.id = id ∧ old.status = .alerting)
    (hl : ∀ event ∈ events, event.LiesAt key event.fingerprint)
    (hall : ∀ event ∈ events, event.fingerprint = k →
      event.id = id ∧ (event.status = .alerting ∨ event.status = .preAlert))
    (hlast : ∃ event ∈ events, event.fingerprint = k ∧ event.status = .preAlert) :
    ∃ w ∈ (store rule e events).2.writes, ¬w.2.Follows Status.Allowed := by
  induction events generalizing e with
  | nil =>
    obtain ⟨_, hm, -⟩ := hlast
    cases hm
  | cons event events ih =>
    obtain ⟨old, hold, hid, hs⟩ := hold
    obtain ⟨last, hlast, hk, hp⟩ := hlast
    have hh' : (e.counted.stored event).Healthy := hh
    have hl' : ∀ ev ∈ events, ev.LiesAt key ev.fingerprint := fun ev hev => hl ev (List.mem_cons_of_mem _ hev)
    have hall' := fun ev hev => hall ev (List.mem_cons_of_mem _ hev)
    obtain ⟨hkey, -⟩ := hl event List.mem_cons_self
    rw [store_of_healthy hh]
    by_cases hek : event.fingerprint = k
    · obtain ⟨heid, hes⟩ := hall event List.mem_cons_self hek
      -- An active event keeps the record active, and the unconfirmed one is still to come.
      rcases hes with hes | hes
      · have hrest : ∃ ev ∈ events, ev.fingerprint = k ∧ ev.status = .preAlert := by
          rcases List.mem_cons.mp hlast with rfl | hlast
          · rw [hes] at hp
            cases hp
          · exact ⟨last, hlast, hk, hp⟩
        refine ih hh' ⟨event, ?_, heid, hes⟩ hl' hall' hrest
        simp [stored, EventCache.find?_push, hkey, hek]
      · refine ⟨(e.time, ⟨some old, event⟩), mem_writes_store ?_ rule events, fun hf => ?_⟩
        · rw [← hold, ← hkey, ← hek]
          exact List.mem_cons_self
        · have ha : Status.Allowed old.status event.status := hf old rfl (hid.trans heid.symm)
          rw [hs, hes] at ha
          cases ha
    · have hrest : ∃ ev ∈ events, ev.fingerprint = k ∧ ev.status = .preAlert := by
        rcases List.mem_cons.mp hlast with rfl | hlast
        · exact absurd hk hek
        · exact ⟨last, hlast, hk, hp⟩
      refine ih hh' ⟨old, ?_, hid, hs⟩ hl' hall' hrest
      have hne : k ≠ event.fingerprint := fun h => hek h.symm
      simp only [stored, EventCache.find?_push, hne, and_false, if_false]
      exact hold

/-! ## When a confirmation is undone -/

theorem pairwise_of_splits {α : Type} {R : α → α → Prop} {l : List α}
    (h : ∀ l₁ a l₂ b, l = l₁ ++ a :: l₂ → b ∈ l₂ → R a b) : l.Pairwise R := by
  induction l with
  | nil => exact .nil
  | cons a l ih =>
    have htail : l.Pairwise R := ih fun l₁ c l₂ b hl hb => h (a :: l₁) c l₂ b (by rw [hl]; rfl) hb
    exact .cons (fun b hb => h [] a l b rfl hb) htail

/-- The same engine when no call fails any more and nothing is written yet. -/
def afresh (e : Engine) : Engine := { e with faults := fun _ _ => false, writes := [] }

/-- Findings of which one confirms a record and a later one undoes that. -/
def Undoes (e : Engine) (rule : Rule) (now : Instant) (answer : Answer) : Prop :=
  ∃ l₁ f l₂ g, rule.findings answer = l₁ ++ f :: l₂ ∧ g ∈ l₂ ∧ f.UndoneBy (e.cached rule) rule now g

/-- The events of findings behind a match that confirms a record are active or unconfirmed events of that record, and
the one that undoes the match is unconfirmed. -/
theorem events_behind_confirmation {e : Engine} (hc : e.Coherent) {rule : Rule} {now : Instant} {k value : String}
    {c : Event} {fs : List Finding} (datasource : String) (n : Nat) (hcached : e.cached rule k = some c)
    (hd : c.isDue rule now = true) (hg : .unmatched k value ∈ fs) :
    (∀ event ∈ eventsOf (e.cached rule) rule datasource now n fs,
      event.LiesAt (eventsKey rule.tenantId rule.faultCenterId) event.fingerprint ∧
        (event.fingerprint = k → event.id = c.id ∧ (event.status = .alerting ∨ event.status = .preAlert))) ∧
      ∃ event ∈ eventsOf (e.cached rule) rule datasource now n fs,
        event.fingerprint = k ∧ event.status = .preAlert := by
  have hp := Event.status_of_isDue hd
  have hc' := hc.liesAt_cached rule
  refine ⟨fun event hmem => ?_, c.refreshed rule value now, mem_eventsOf_of_unmatched hg fun m => ?_,
    (hc' k c hcached).2, hp⟩
  · obtain ⟨f, -, m, -, -, hmem⟩ := mem_eventsOf hmem
    refine ⟨(Finding.liesAt_of_mem_events hc' hmem).1, fun hk => ?_⟩
    cases Finding.origin_of_mem_events hc' hmem with
    | continued c' hc'' _ hid hs =>
      rw [hk, hcached] at hc''
      cases hc''
      refine ⟨hid, ?_⟩
      rw [hs, hp]
      split
      · exact .inl rfl
      · exact .inr rfl
    | started _ _ _ hnew =>
      have ht := hnew c (by rw [hk]; exact hcached)
      rw [hp] at ht
      cases ht
  · have hlive : (some c).filter (fun c => !c.status.isTerminal) = some c :=
      Option.filter_eq_some_iff.mpr ⟨rfl, by rw [hp]; rfl⟩
    rw [Finding.events, hcached, hlive]
    exact List.mem_singleton_self _

/-- **When no call fails, an answer makes a write that the states do not allow exactly if it undoes a confirmation.** -/
theorem complete_breaks_iff {e : Engine} (hl : e.Lawful fun _ _ => True) (rule : Rule) (datasource : String)
    (now : Instant) (answer : Answer) :
    (∃ w ∈ (e.afresh.complete rule datasource now (.ok answer)).2.writes,
      ¬w.2.Follows Status.Allowed) ↔ e.Undoes rule now answer := by
  constructor
  · rintro ⟨w, hw, hbad⟩
    refine Classical.byContradiction fun hno => hbad ?_
    have hl' : Lawful Status.Allowed e.afresh :=
      ⟨hl.coherent, hl.numbered, fun _ h => (nomatch h)⟩
    refine (hl'.complete (fun _ _ h => h) rule datasource now (.ok answer) fun _ ha => ?_).writes w hw
    cases ha
    exact pairwise_of_splits fun l₁ f l₂ g hs hg hundo => absurd ⟨l₁, f, l₂, g, hs, hg, hundo⟩ hno
  · rintro ⟨l₁, f, l₂, g, hs, hg, o, v, c, rfl, rfl, hcached, hd⟩
    obtain ⟨e₁, hh, -, he⟩ := complete_of_healthy (e := e.afresh) (fun _ _ => rfl) rule datasource now answer
    have hh₁ : (store rule.id e₁ _).2.Healthy := hh.store rule.id
      (eventsOf (e.cached rule) rule datasource now e.minted l₁)
    have hcached' : e.afresh.cached rule = e.cached rule := rfl
    have hminted : e.afresh.minted = e.minted := rfl
    have hm : (Finding.matched o).isMatch = true := rfl
    rw [he, hcached', hminted, hs, eventsOf_append, store_append, eventsOf, if_pos hm, Finding.events,
      List.singleton_append, store_of_healthy hh₁]
    obtain ⟨hlies, -, -, ⟨c', hc', -, hid, -, hst⟩ | ⟨hnew, -⟩⟩ := o.event_spec rule datasource
      (mintedId (e.minted + l₁.countP Finding.isMatch)) now (e.cached rule o.fingerprint)
    · rw [hcached] at hc'
      cases hc'
      rw [if_pos hd] at hst
      obtain ⟨hall, hlast⟩ := events_behind_confirmation hl.coherent datasource
        (e.minted + l₁.countP Finding.isMatch + 1) hcached hd hg
      refine exists_write_of_undone rule.id _ hh₁ ⟨_, ?_, hid, hst⟩ (fun event hmem => (hall event hmem).1)
        (fun event hmem => (hall event hmem).2) hlast
      simp [stored, EventCache.find?_push, hlies.1, hlies.2]
    · have ht := hnew c hcached
      rw [Event.status_of_isDue hd] at ht
      cases ht

end Engine

/-- **Every write of a run is a move that the states allow, unless a confirmation is undone.** The only other move that
is ever made, in whatever order datasources proceed side by side, is the one from an active alert back to an unconfirmed
one. Whenever no call fails, an answer that is worked off alone makes it exactly if it undoes a confirmation. -/
theorem writes_follow_states (config : Config) (faults : Nat → Call → Bool) (infos : InfoCache) (works : List Work) :
    let e := (Engine.fresh faults infos).run config works
    ((∀ w ∈ works, w.Steady) → ∀ w ∈ e.writes, w.2.Follows Status.Allowed) ∧
      (∀ w ∈ e.writes, w.2.Follows fun a b => a.Allowed b ∨ a = .alerting ∧ b = .preAlert) ∧
      ∀ (rule : Rule) (datasource : String) (now : Instant) (answer : Answer),
        (∃ w ∈ (e.afresh.complete rule datasource now (.ok answer)).2.writes,
          ¬w.2.Follows Status.Allowed) ↔ e.Undoes rule now answer := by
  refine ⟨fun hs => ?_, ?_, ?_⟩
  · exact ((Engine.lawful_fresh _ faults infos).run (fun _ _ h => h) config works (.inr hs)).writes
  · exact ((Engine.lawful_fresh _ faults infos).run (fun _ _ h => .inl h) config works (.inl (.inr ⟨rfl, rfl⟩))).writes
  · exact Engine.complete_breaks_iff
      ((Engine.lawful_fresh _ faults infos).run (fun _ _ _ => trivial) config works (.inl trivial))

/-! ## A rule with two thresholds -/

theorem Rule.orderedSeverityRules_of_pairwise {rule : Rule}
    (h : rule.severityRules.Pairwise fun a b => a.severity.le b.severity) :
    rule.orderedSeverityRules = rule.severityRules := List.mergeSort_of_pairwise h

/-- A metrics rule with two thresholds of one severity. -/
def Rule.twoThresholds : Rule :=
  { errorCount with
    datasourceKind := .prometheus
    severityRules := [⟨.standard, "> 70"⟩, ⟨.standard, "> 90"⟩]
    query := .metrics "load" }

/-- A value between the two thresholds. -/
def MetricSeries.between : MetricSeries := ⟨.empty, .ofNat 80, .epoch⟩

/-- A tick that sees a value between the two thresholds. -/
def Work.between : Work := .dispatch .twoThresholds [⟨"ds1", .epoch, 0, .ok (.vector [.between])⟩]

/-- A rule that confirms its alert after ten seconds. -/
def Rule.afterTenSeconds : Rule := { errorCount with forDurationSecs := 10 }

/-- A tick that matches, and one that asks two datasources nine and ten seconds later. Both look up the record before
one of them stores it. -/
def Work.sideBySide : List Work :=
  let hit (datasource : String) (n : Nat) : Reading :=
    ⟨datasource, Instant.epoch.after (.ofSecs n), 0, .ok (.count 5)⟩
  [.dispatch .afterTenSeconds [hit "ds1" 0],
    .race [(.afterTenSeconds, hit "ds1" 10), (.afterTenSeconds, hit "ds2" 9)] [0, 1, 0, 1]]

/-- **A value that meets the first of two thresholds of one severity and not the second is confirmed and unconfirmed
again by the same tick.** So is an alert that is due for one of two datasources side by side. -/
theorem confirmation_is_undone :
    (∃ w ∈ ((Engine.fresh (fun _ _ => false) .empty).run .standard [.between, .between]).writes,
      ¬w.2.Follows Status.Allowed) ∧
    ∃ w ∈ ((Engine.fresh (fun _ _ => false) .empty).run .standard Work.sideBySide).writes,
      ¬w.2.Follows Status.Allowed := by
  refine ⟨?_, by decide +kernel⟩
  have hf : Rule.twoThresholds.findings (.vector [.between]) =
      Metrics.judge "r1" "load" .between false Rule.twoThresholds.severityRules := by
    show Metrics.findings _ _ _ = _
    rw [Metrics.findings, Rule.orderedSeverityRules_of_pairwise (by decide)]
    exact List.append_nil _
  simp only [Engine.run, List.foldl, Engine.after, Work.between, Engine.dispatch_answer, hf]
  decide +kernel

end Alerting
