import Alerting.Proofs.Dispatch.Findings
import Alerting.Proofs.Engine.Change

/-!
# The events of an answer

Working off the findings on an answer reads the stored records and changes none of them, so the events to store are a
function of the findings, of what was stored before, and of the next id (`eventsOf`, `workOff_spec`). Each of them
continues the live record of its fingerprint or starts a new generation with a new id (`Origin`).
-/

namespace Alerting

/-- Whether a finding is a match. -/
def Finding.isMatch : Finding → Bool
  | matched _ => true
  | _ => false

/-- Whether an unconfirmed record is confirmed by a match. -/
def Event.isDue (c : Event) (rule : Rule) (now : Instant) : Bool :=
  c.status == .preAlert && decide (Duration.ofSecs rule.forDurationSecs ≤ now.elapsedSince c.firstTriggerTime)

theorem Event.status_of_isDue {c : Event} {rule : Rule} {now : Instant} (h : c.isDue rule now = true) :
    c.status = .preAlert := by
  simp only [isDue, Bool.and_eq_true, beq_iff_eq] at h
  exact h.1

/-- The stored record of a fingerprint of a rule. -/
def Engine.cached (e : Engine) (rule : Rule) (fingerprint : String) : Option Event :=
  e.events.get? rule.tenantId rule.faultCenterId fingerprint

section Events

variable (cached : String → Option Event) (rule : Rule) (datasource : String) (now : Instant)

/-- The events of a finding, given the number of the next id. -/
def Finding.events (n : Nat) : Finding → List Event
  | matched o => [o.event rule datasource (Engine.mintedId n) now (cached o.fingerprint)]
  | unmatched fingerprint value =>
    (((cached fingerprint).filter fun c => !c.status.isTerminal).map fun c => c.refreshed rule value now).toList
  | _ => []

/-- A finding whose events have this fingerprint. -/
def Finding.Concerns (f : Finding) (fingerprint : String) : Prop :=
  (∃ o, f = .matched o ∧ fingerprint = o.fingerprint) ∨ ∃ v, f = .unmatched fingerprint v

/-- The events of some findings, the first ones first. -/
def eventsOf : Nat → List Finding → List Event
  | _, [] => []
  | n, f :: fs => f.events cached rule datasource now n ++ eventsOf (if f.isMatch then n + 1 else n) fs

end Events

namespace Engine

theorem Coherent.liesAt_cached {e : Engine} (h : e.Coherent) (rule : Rule) (fingerprint : String) (c : Event)
    (hc : e.cached rule fingerprint = some c) : c.LiesAt (eventsKey rule.tenantId rule.faultCenterId) fingerprint :=
  h _ fingerprint c hc

/-! ## New ids -/

/-- No id is given out twice. -/
theorem mintedId_inj {m n : Nat} (h : mintedId m = mintedId n) : m = n := by
  have hl := congrArg String.toList h
  simp only [mintedId, String.toList_append, List.append_cancel_left_eq, Nat.toList_repr] at hl
  have hd := congrArg (Nat.ofDigitChars 10 · 0) hl
  simpa only [Nat.ofDigitChars_ten_toDigits] using hd

/-! ## Working off -/

variable {rule : Rule} {datasource : String} {now : Instant}

variable (rule datasource now) in
/-- Working off findings changes no stored event. -/
theorem workOff_events (fs : List Finding) (e : Engine) (out : Outcome) :
    (workOff rule datasource now e out fs).2.events = e.events ∧
      (workOff rule datasource now e out fs).2.writes = e.writes := by
  refine workOff_keeps (P := fun e' => e'.events = e.events ∧ e'.writes = e.writes) (fun hq h => ?_) rule datasource now
    fs out ⟨rfl, rfl⟩
  cases hq <;> exact h

/-- Findings that are worked off give their events, and every match takes one id. -/
theorem workOff_spec (fs : List Finding) {e e' : Engine} {out out' : Outcome}
    (h : workOff rule datasource now e out fs = (.ok out', e')) :
    out'.events = out.events ++ eventsOf (e.cached rule) rule datasource now e.minted fs ∧
      e'.minted = e.minted + fs.countP Finding.isMatch := by
  induction fs generalizing e out with
  | nil =>
    cases h
    simp [eventsOf]
  | cons f fs ih =>
    cases f with
    | malformed severity error =>
      obtain ⟨ho, hm⟩ := ih h
      rw [List.countP_cons_of_neg Bool.false_ne_true]
      exact ⟨ho, hm⟩
    | configured fingerprint =>
      obtain ⟨ho, hm⟩ := ih h
      rw [List.countP_cons_of_neg Bool.false_ne_true]
      exact ⟨ho, hm⟩
    | unmatched fingerprint value =>
      rw [workOff] at h
      rcases e.get_cases rule.tenantId rule.faultCenterId fingerprint with ⟨-, hg⟩ | ⟨-, hg⟩ <;> rw [hg] at h
      · cases h
      · obtain ⟨ho, hm⟩ := ih h
        rw [List.countP_cons_of_neg Bool.false_ne_true]
        refine ⟨?_, hm⟩
        rw [ho, List.append_assoc]
        rfl
    | matched o =>
      rw [workOff] at h
      rcases e.get_cases rule.tenantId rule.faultCenterId o.fingerprint with ⟨-, hg⟩ | ⟨-, hg⟩ <;> rw [hg] at h
      · cases h
      · obtain ⟨ho, hm⟩ := ih h
        rw [List.countP_cons_of_pos rfl]
        constructor
        · rw [ho, List.append_assoc]
          rfl
        · rw [hm]
          show e.minted + 1 + _ = _
          omega

/-- **Findings that are worked off report what they make current and what they make outranked.** -/
theorem workOff_reports (fs : List Finding) {e e' : Engine} {out out' : Outcome}
    (h : workOff rule datasource now e out fs = (.ok out', e')) :
    out'.fingerprints = out.fingerprints ++ fs.filterMap Finding.current? ∧
      out'.suppressed = out.suppressed ++ fs.filterMap Finding.outranked? := by
  induction fs generalizing e out with
  | nil =>
    cases h
    exact ⟨(List.append_nil _).symm, (List.append_nil _).symm⟩
  | cons f fs ih =>
    cases f with
    | malformed severity error => exact ih h
    | configured fingerprint =>
      obtain ⟨hc, ho⟩ := ih h
      exact ⟨by rw [hc, List.append_assoc]; rfl, ho⟩
    | unmatched fingerprint value =>
      rw [workOff] at h
      rcases e.get_cases rule.tenantId rule.faultCenterId fingerprint with ⟨-, hg⟩ | ⟨-, hg⟩ <;> rw [hg] at h
      · cases h
      · obtain ⟨hc, ho⟩ := ih h
        exact ⟨hc, ho⟩
    | matched o =>
      rw [workOff] at h
      rcases e.get_cases rule.tenantId rule.faultCenterId o.fingerprint with ⟨-, hg⟩ | ⟨-, hg⟩ <;> rw [hg] at h
      · cases h
      · obtain ⟨hc, ho⟩ := ih h
        rw [hc, ho]
        cases hs : o.suppressed <;> simp [Finding.current?, Finding.outranked?, hs]

end Engine

/-! ## Where an event comes from -/

/-- An event of a finding goes on with the live record of its fingerprint, or it is the first of a generation. -/
inductive Finding.Origin (cached : String → Option Event) (rule : Rule) (now : Instant) (n : Nat) (f : Finding)
    (event : Event) : Prop
  | continued (c : Event) : cached event.fingerprint = some c → c.status.isTerminal = false → event.id = c.id →
      event.status = (if f.isMatch && c.isDue rule now then .alerting else c.status) →
      event.firstTriggerTime = c.firstTriggerTime → event.owner = (if f.isMatch then rule.owner else c.owner) →
      Origin cached rule now n f event
  | started : f.isMatch = true → event.id = Engine.mintedId n → event.status = .preAlert →
      (∀ c, cached event.fingerprint = some c → c.status.isTerminal = true) → event.firstTriggerTime = now →
      event.owner = rule.owner → Origin cached rule now n f event

section Origin

variable {cached : String → Option Event} {rule : Rule} {datasource : String} {now : Instant} {n : Nat}
  {f : Finding} {event : Event}

/-- What is stored is a live record, or there is none. -/
theorem Event.live_or_new (record : Option Event) : (∃ c, record = some c ∧ c.status.isTerminal = false) ∨
    ∀ c, record = some c → c.status.isTerminal = true := by
  cases record with
  | none => exact .inr fun _ h => nomatch h
  | some c =>
    cases ht : c.status.isTerminal with
    | false => exact .inl ⟨c, rfl, ht⟩
    | true => exact .inr fun _ h => Option.some.inj h ▸ ht

/-- The event of a match is the first of a generation if there is no live record. -/
theorem Observation.event_of_new (o : Observation) (rule : Rule) (datasource id : String) (now : Instant)
    {record : Option Event} (h : ∀ c, record = some c → c.status.isTerminal = true) :
    o.event rule datasource id now record = annotate rule o.messages ((o.draft rule datasource id now).started now) := by
  cases record with
  | none => rfl
  | some c => simp only [event, Event.mergeOver, h c rfl, if_true]

/-- The event of a match goes on with a live record. -/
theorem Observation.event_of_live (o : Observation) (rule : Rule) (datasource id : String) (now : Instant) {c : Event}
    (h : c.status.isTerminal = false) : o.event rule datasource id now (some c) =
      annotate rule o.messages ((o.draft rule datasource id now).continued c (.ofSecs rule.forDurationSecs) now) := by
  simp only [event, Event.mergeOver, h, Bool.false_eq_true, if_false]

/-- The event of a match goes on with the live record, or it is the first of a generation. -/
theorem Observation.event_spec (o : Observation) (rule : Rule) (datasource id : String) (now : Instant)
    (record : Option Event) :
    (o.event rule datasource id now record).LiesAt (eventsKey rule.tenantId rule.faultCenterId) o.fingerprint ∧
      (o.event rule datasource id now record).lastEvalTime = now ∧
      (o.event rule datasource id now record).owner = rule.owner ∧
      ((∃ c, record = some c ∧ c.status.isTerminal = false ∧ (o.event rule datasource id now record).id = c.id ∧
        (o.event rule datasource id now record).firstTriggerTime = c.firstTriggerTime ∧
        (o.event rule datasource id now record).status = if c.isDue rule now then .alerting else c.status) ∨
      ((∀ c, record = some c → c.status.isTerminal = true) ∧ (o.event rule datasource id now record).id = id ∧
        (o.event rule datasource id now record).firstTriggerTime = now ∧
        (o.event rule datasource id now record).status = .preAlert)) := by
  rcases Event.live_or_new record with ⟨c, rfl, hlive⟩ | hnew
  · rw [o.event_of_live rule datasource id now hlive]
    refine ⟨⟨rfl, rfl⟩, rfl, rfl, .inl ⟨c, rfl, hlive, rfl, rfl, ?_⟩⟩
    simp [annotate, Event.continued, Event.isDue]
  · rw [o.event_of_new rule datasource id now hnew]
    exact ⟨⟨rfl, rfl⟩, rfl, rfl, .inr ⟨hnew, rfl, rfl, rfl⟩⟩

variable (cached rule datasource now n f) in
/-- A finding has one event at most. -/
theorem Finding.events_eq_toList : ∃ o : Option Event, f.events cached rule datasource now n = o.toList := by
  cases f with
  | malformed | configured => exact ⟨none, rfl⟩
  | matched o => exact ⟨some _, rfl⟩
  | unmatched fingerprint value => exact ⟨_, rfl⟩

theorem Finding.pairwise_events {R : Event → Event → Prop} : (f.events cached rule datasource now n).Pairwise R := by
  obtain ⟨o, h⟩ := f.events_eq_toList cached rule datasource now n
  rw [h]
  cases o with
  | none => exact .nil
  | some event => exact List.pairwise_singleton _ _

theorem Finding.eq_of_mem_events {a b : Event} (ha : a ∈ f.events cached rule datasource now n)
    (hb : b ∈ f.events cached rule datasource now n) : a = b := by
  obtain ⟨o, h⟩ := f.events_eq_toList cached rule datasource now n
  rw [h, Option.mem_toList] at ha hb
  exact Option.some.inj (ha.symm.trans hb)

/-- An event of a finding lies in the rule's fault center, under the fingerprint of the finding. -/
theorem Finding.liesAt_of_mem_events
    (hc : ∀ k c, cached k = some c → c.LiesAt (eventsKey rule.tenantId rule.faultCenterId) k)
    (h : event ∈ f.events cached rule datasource now n) :
    event.LiesAt (eventsKey rule.tenantId rule.faultCenterId) event.fingerprint ∧ f.Concerns event.fingerprint := by
  cases f with
  | malformed | configured => cases h
  | matched o =>
    rw [List.mem_singleton.mp h]
    obtain ⟨hl, -⟩ := o.event_spec rule datasource (Engine.mintedId n) now (cached o.fingerprint)
    exact ⟨⟨hl.1, rfl⟩, .inl ⟨o, rfl, hl.2⟩⟩
  | unmatched fingerprint value =>
    obtain ⟨c, hm, rfl⟩ := Option.map_eq_some_iff.mp (Option.mem_toList.mp h)
    obtain ⟨hk, hf⟩ := hc fingerprint c (Option.filter_eq_some_iff.mp hm).1
    subst hf
    exact ⟨⟨hk, rfl⟩, .inr ⟨value, rfl⟩⟩

theorem Finding.origin_of_mem_events
    (hc : ∀ k c, cached k = some c → c.LiesAt (eventsKey rule.tenantId rule.faultCenterId) k)
    (h : event ∈ f.events cached rule datasource now n) : f.Origin cached rule now n event := by
  cases f with
  | malformed | configured => cases h
  | matched o =>
    rw [List.mem_singleton.mp h]
    obtain ⟨hl, -, howner, ⟨c, hcached, ht, hid, hfirst, hs⟩ | ⟨hnew, hid, hfirst, hs⟩⟩ :=
      o.event_spec rule datasource (Engine.mintedId n) now (cached o.fingerprint)
    · exact .continued c (by rw [hl.2]; exact hcached) ht hid (by rw [hs, isMatch, Bool.true_and]) hfirst howner
    · exact .started rfl hid hs (by rw [hl.2]; exact hnew) hfirst howner
  | unmatched fingerprint value =>
    obtain ⟨c, hm, rfl⟩ := Option.map_eq_some_iff.mp (Option.mem_toList.mp h)
    obtain ⟨hcached, ht⟩ := Option.filter_eq_some_iff.mp hm
    obtain ⟨-, hf⟩ := hc fingerprint c hcached
    subst hf
    have hs : (c.refreshed rule value now).status = c.status := rfl
    exact .continued c hcached (by simpa using ht) rfl (by simp [hs, isMatch]) rfl rfl

/-- The events of a finding carry the time at which the datasource was asked. -/
theorem Finding.lastEvalTime_of_mem_events (h : event ∈ f.events cached rule datasource now n) :
    event.lastEvalTime = now := by
  cases f with
  | malformed | configured => cases h
  | matched o =>
    rw [List.mem_singleton.mp h]
    exact (o.event_spec rule datasource (Engine.mintedId n) now (cached o.fingerprint)).2.1
  | unmatched fingerprint value =>
    obtain ⟨c, -, rfl⟩ := Option.map_eq_some_iff.mp (Option.mem_toList.mp h)
    rfl

/-- Working off findings makes no event of a recovered alert. -/
theorem Finding.Origin.ne_recovered (h : f.Origin cached rule now n event) : event.status ≠ .recovered := by
  cases h with
  | continued c _ ht _ hs =>
    rw [hs]
    split
    · exact nofun
    · intro hr
      rw [hr] at ht
      cases ht
  | started _ _ hs =>
    rw [hs]
    exact nofun

/-- An origin depends on the stored record of its own fingerprint only. -/
theorem Finding.Origin.of_cached {cached' : String → Option Event} (h : f.Origin cached rule now n event)
    (hc : cached' event.fingerprint = cached event.fingerprint) : f.Origin cached' rule now n event := by
  cases h with
  | continued c hcached ht hid hs hfirst ho => exact .continued c (hc.trans hcached) ht hid hs hfirst ho
  | started hm hid hs hnew hfirst ho => exact .started hm hid hs (hc ▸ hnew) hfirst ho

/-- The id of an event of a finding was given out before or is a new one. -/
theorem Finding.numbered_of_mem_events
    (hc : ∀ k c, cached k = some c → c.LiesAt (eventsKey rule.tenantId rule.faultCenterId) k) {N : Nat}
    (hn : ∀ k c, cached k = some c → ∃ m, m < N ∧ c.id = Engine.mintedId m)
    (h : event ∈ f.events cached rule datasource now n) (hm : f.isMatch = true → n < N) :
    ∃ m, m < N ∧ event.id = Engine.mintedId m := by
  cases Finding.origin_of_mem_events hc h with
  | continued c hcached _ hid _ =>
    obtain ⟨m, hlt, hcid⟩ := hn _ c hcached
    exact ⟨m, hlt, hid.trans hcid⟩
  | started hmatch hid _ _ => exact ⟨n, hm hmatch, hid⟩

/-- The events of some findings are those of the single ones, with ids from the next one on. -/
theorem mem_eventsOf {fs : List Finding} {n : Nat} (h : event ∈ eventsOf cached rule datasource now n fs) :
    ∃ f ∈ fs, ∃ m, n ≤ m ∧ (f.isMatch = true → m < n + fs.countP Finding.isMatch) ∧
      event ∈ f.events cached rule datasource now m := by
  induction fs generalizing n with
  | nil => cases h
  | cons f fs ih =>
    rcases List.mem_append.mp h with h | h
    · refine ⟨f, List.mem_cons_self, n, Nat.le_refl n, fun hm => ?_, h⟩
      rw [List.countP_cons_of_pos hm]
      omega
    · obtain ⟨g, hg, m, hle, hlt, hev⟩ := ih h
      refine ⟨g, List.mem_cons_of_mem f hg, m, ?_, fun hm => ?_, hev⟩
      · split at hle <;> omega
      · have := hlt hm
        rw [List.countP_cons]
        split at this
        · next hf => rw [if_pos hf]; omega
        · next hf => rw [if_neg hf]; omega

end Origin

end Alerting
