import Alerting.Proofs.Dispatch.Metrics

/-!
# What a record says about sending

A match that a more urgent severity outranks is stored as sent at the time of its answer, and every other event carries
on what the live record says (`Finding.sent_of_mem_events`). Findings with one fingerprint overwrite each other's event,
so an answer leaves what the last of them says (`Engine.sent_complete`), and a dispatch leaves the last time at which
the record was stamped in that way (`Rule.lastStamp`, `Engine.sent_dispatch`). So a fingerprint that is current in one
place and outranked at last counts as sent (`Engine.current_and_sent`), and one that is outranked and not met at last is
not stamped (`Engine.suppressed_and_unsent`).
-/

namespace Alerting

/-! ## Live records -/

/-- The record that the next match goes on with. -/
def Event.live? (record : Option Event) : Option Event := record.filter fun c => !c.status.isTerminal

theorem Event.live?_of_live {c : Event} (h : c.status.isTerminal = false) : live? (some c) = some c := by
  simp [live?, h]

namespace Engine

/-- The live record of a fingerprint of a rule. -/
def liveRecord (e : Engine) (rule : Rule) (k : String) : Option Event := Event.live? (e.cached rule k)

/-- When the alert of a live record was last sent, as far as the record tells. -/
def lastSent (e : Engine) (rule : Rule) (k : String) : Option Instant := (e.liveRecord rule k).bind (·.lastSendTime)

section Records

variable {e e' : Engine} {rule : Rule} {k : String} {a : Event}

theorem liveRecord_of_events (h : e'.events = e.events) : e'.liveRecord rule k = e.liveRecord rule k := by
  unfold liveRecord cached
  rw [h]

theorem lastSent_of_events (h : e'.events = e.events) : e'.lastSent rule k = e.lastSent rule k := by
  rw [lastSent, lastSent, liveRecord_of_events h]

theorem liveRecord_stored_self (h : a.LiesAt (eventsKey rule.tenantId rule.faultCenterId) k)
    (hlive : a.status.isTerminal = false) : (e.stored a).liveRecord rule k = some a := by
  have hcached : (e.stored a).cached rule k = some a := find?_stored_self h
  rw [liveRecord, hcached, Event.live?_of_live hlive]

theorem liveRecord_stored_of_ne (h : ¬a.LiesAt (eventsKey rule.tenantId rule.faultCenterId) k) :
    (e.stored a).liveRecord rule k = e.liveRecord rule k := by
  have hcached : (e.stored a).cached rule k = e.cached rule k := find?_stored_of_ne h
  rw [liveRecord, liveRecord, hcached]

end Records

end Engine

/-! ## What a finding leaves -/

/-- The event of a match was sent now if it is outranked, and else when its live record was. -/
theorem Observation.lastSendTime_event (o : Observation) (rule : Rule) (datasource id : String) (now : Instant)
    (record : Option Event) : (o.event rule datasource id now record).lastSendTime =
      if o.suppressed then some now else (Event.live? record).bind (·.lastSendTime) := by
  rcases Event.live_or_new record with ⟨c, rfl, hlive⟩ | hnew
  · rw [o.event_of_live rule datasource id now hlive, Event.live?_of_live hlive]
    show ((if o.suppressed then some now else none : Option Instant)).or c.lastSendTime = _
    cases o.suppressed <;> rfl
  · have hnone : Event.live? record = none := by
      rw [Event.live?, Option.filter_eq_none_iff]
      intro c hc
      simp [hnew c hc]
    rw [o.event_of_new rule datasource id now hnew, hnone]
    rfl

namespace Finding

/-- Whether a finding leaves an event of a fingerprint, given whether the fingerprint has a live record. -/
def leaves (k : String) (live : Bool) : Finding → Bool
  | matched o => o.fingerprint == k
  | unmatched fingerprint _ => fingerprint == k && live
  | malformed .. => false
  | configured _ => false

/-- The finding that leaves the last event of a fingerprint. -/
def lastOf (k : String) (live : Bool) (fs : List Finding) : Option Finding := (fs.filter (·.leaves k live)).getLast?

/-- Whether the last event of a fingerprint is stamped as sent: it is one of a match that is outranked. -/
def stamps (k : String) (live : Bool) (fs : List Finding) : Bool := (lastOf k live fs).any (·.outranked? == some k)

theorem lastOf_cons (k : String) (live : Bool) (f : Finding) (fs : List Finding) :
    lastOf k live (f :: fs) = (lastOf k live fs).or (if f.leaves k live then some f else none) := by
  unfold lastOf
  cases hf : f.leaves k live with
  | false => simp [hf]
  | true =>
    rw [List.filter_cons_of_pos hf, List.getLast?_cons]
    cases (fs.filter (·.leaves k live)).getLast? <;> rfl

theorem mem_of_lastOf {k : String} {live : Bool} {f : Finding} {fs : List Finding} (h : lastOf k live fs = some f) :
    f ∈ fs := (List.mem_filter.mp (List.mem_of_getLast? h)).1

/-- Only an outranked match stamps a record. -/
theorem mem_outranked_of_stamps {k : String} {live : Bool} {rule : Rule} {answer : Answer}
    (h : stamps k live (rule.findings answer) = true) : k ∈ rule.outranked answer := by
  obtain ⟨f, hlast, hf⟩ := Option.any_eq_true _ _ |>.mp h
  exact List.mem_filterMap.mpr ⟨f, mem_of_lastOf hlast, by simpa using hf⟩

theorem isSome_lastOf (k : String) (live : Bool) (fs : List Finding) :
    (lastOf k live fs).isSome = fs.any (·.leaves k live) := by
  induction fs with
  | nil => rfl
  | cons f fs ih =>
    rw [lastOf_cons, List.any_cons, Option.isSome_or, ih, Bool.or_comm]
    cases f.leaves k live <;> rfl

theorem leaves_of_outranked? {k : String} {f : Finding} (h : f.outranked? = some k) (live : Bool) :
    f.leaves k live = true := by
  cases f with
  | malformed | unmatched | configured => cases h
  | matched o => exact beq_iff_eq.mpr (Option.some.inj (fingerprint?_of_outranked? h))

/-- What a rule finds current or outranked is matched, whether there was a live record or not. -/
theorem any_leaves_of_reported {rule : Rule} (hcloud : rule.query.family ≠ .cloudMetrics) {answer : Answer}
    {k : String} (h : k ∈ rule.current answer ∨ k ∈ rule.outranked answer) (live : Bool) :
    (rule.findings answer).any (·.leaves k live) = true := by
  rcases h with h | h <;> obtain ⟨f, hf, hk⟩ := List.mem_filterMap.mp h
  · cases f with
    | malformed | unmatched => cases hk
    | configured fingerprint => exact absurd hf (rule.configured_not_mem hcloud answer fingerprint)
    | matched o =>
      exact List.any_eq_true.mpr ⟨_, hf, beq_iff_eq.mpr (Option.some.inj (fingerprint?_of_current? hk))⟩
  · exact List.any_eq_true.mpr ⟨f, hf, leaves_of_outranked? hk live⟩

section Events

variable {cached : String → Option Event} {rule : Rule} {datasource : String} {now : Instant} {n : Nat} {f : Finding}
  {k : String} {a : Event}

/-- **An event of a finding is live, and was sent now if it is one of an outranked match, and else when the live record
was.** -/
theorem sent_of_mem_events (hc : ∀ k c, cached k = some c → c.LiesAt (eventsKey rule.tenantId rule.faultCenterId) k)
    (ha : a ∈ f.events cached rule datasource now n) : f.fingerprint? = some a.fingerprint ∧
      a.LiesAt (eventsKey rule.tenantId rule.faultCenterId) a.fingerprint ∧ a.status.isTerminal = false ∧
      a.lastSendTime = if f.outranked? = some a.fingerprint then some now else
        (Event.live? (cached a.fingerprint)).bind (·.lastSendTime) := by
  have hlive : a.status.isTerminal = false :=
    Bool.eq_false_iff.mpr fun ht => (origin_of_mem_events hc ha).ne_recovered (Status.isTerminal_iff.mp ht)
  obtain ⟨hlies, hconcerns⟩ := liesAt_of_mem_events hc ha
  rcases hconcerns with ⟨o, rfl, hk⟩ | ⟨value, rfl⟩
  · refine ⟨congrArg some hk.symm, hlies, hlive, ?_⟩
    rw [hk, List.mem_singleton.mp ha, o.lastSendTime_event]
    cases hs : o.suppressed <;> simp [outranked?, hs]
  · refine ⟨rfl, hlies, hlive, ?_⟩
    obtain ⟨c, hrecord, hrefreshed⟩ := Option.map_eq_some_iff.mp (Option.mem_toList.mp ha)
    have hrecord : Event.live? (cached a.fingerprint) = some c := hrecord
    rw [hrecord, ← hrefreshed]
    rfl

/-- A finding that leaves an event of a fingerprint has one event. -/
theorem exists_event_of_leaves
    (hc : ∀ k c, cached k = some c → c.LiesAt (eventsKey rule.tenantId rule.faultCenterId) k)
    (h : f.leaves k (Event.live? (cached k)).isSome = true) :
    ∃ a, f.events cached rule datasource now n = [a] ∧ a.fingerprint = k := by
  cases f with
  | malformed | configured => cases h
  | matched o =>
    exact ⟨_, rfl, (o.event_spec rule datasource (Engine.mintedId n) now _).1.2.trans (beq_iff_eq.mp h)⟩
  | unmatched fingerprint value =>
    obtain ⟨hf, hlive⟩ := Bool.and_eq_true_iff.mp h
    obtain rfl : fingerprint = k := beq_iff_eq.mp hf
    obtain ⟨c, hrecord⟩ := Option.isSome_iff_exists.mp hlive
    refine ⟨c.refreshed rule value now, ?_, (hc fingerprint c (Option.filter_eq_some_iff.mp hrecord).1).2⟩
    show ((Event.live? (cached fingerprint)).map fun c => c.refreshed rule value now).toList = _
    rw [hrecord]
    rfl

/-- A finding that leaves no event of a fingerprint has events of others only. -/
theorem ne_of_not_leaves (hc : ∀ k c, cached k = some c → c.LiesAt (eventsKey rule.tenantId rule.faultCenterId) k)
    (h : f.leaves k (Event.live? (cached k)).isSome = false) (ha : a ∈ f.events cached rule datasource now n) :
    a.fingerprint ≠ k := by
  rintro rfl
  rcases (liesAt_of_mem_events hc ha).2 with ⟨o, rfl, hf⟩ | ⟨value, rfl⟩
  · simp [leaves, hf] at h
  · obtain ⟨c, hrecord, -⟩ := Option.map_eq_some_iff.mp (Option.mem_toList.mp ha)
    have hlive : Event.live? (cached a.fingerprint) = some c := hrecord
    simp [leaves, hlive] at h

end Events

end Finding

/-! ## What an answer and a dispatch leave -/

/-- The last time at which the record of a fingerprint is stamped as sent, given whether it has a live record before. -/
def Rule.lastStamp (rule : Rule) (k : String) : (live : Bool) → List Reading → Option Instant
  | _, [] => none
  | live, r :: rest =>
    match r.reply with
    | .error _ => rule.lastStamp k live rest
    | .ok answer =>
      (rule.lastStamp k (live || (rule.findings answer).any (·.leaves k live)) rest).or
        (if Finding.stamps k live (rule.findings answer) then some r.asked else none)

/-- Records are stamped at times at which datasources were asked. -/
theorem Rule.asked_of_lastStamp {rule : Rule} {k : String} {live : Bool} {readings : List Reading} {t : Instant}
    (h : rule.lastStamp k live readings = some t) :
    ∃ r ∈ readings, r.asked = t ∧ ∃ answer, r.reply = .ok answer ∧ k ∈ rule.outranked answer := by
  induction readings generalizing live with
  | nil => cases h
  | cons r readings ih =>
    have hrest : ∀ {live}, rule.lastStamp k live readings = some t → ∃ x ∈ r :: readings,
        x.asked = t ∧ ∃ answer, x.reply = .ok answer ∧ k ∈ rule.outranked answer := fun h =>
      (ih h).imp fun x hx => ⟨List.mem_cons_of_mem r hx.1, hx.2⟩
    rw [lastStamp] at h
    split at h
    · exact hrest h
    · next answer hr =>
      rcases Option.or_eq_some_iff.mp h with h | ⟨-, h⟩
      · exact hrest h
      · obtain ⟨hstamps, ht⟩ := Option.ite_none_right_eq_some.mp h
        exact ⟨r, List.mem_cons_self, Option.some.inj ht, answer, hr, Finding.mem_outranked_of_stamps hstamps⟩

namespace Engine

section Answer

variable {e : Engine} (rule : Rule) (k : String)

/-- **Storing the events of findings leaves the last event of a fingerprint.** -/
theorem sent_store (hh : e.Healthy) {cached : String → Option Event}
    (hc : ∀ k c, cached k = some c → c.LiesAt (eventsKey rule.tenantId rule.faultCenterId) k) (datasource : String)
    (now : Instant) (n : Nat) (fs : List Finding) :
    ((store rule.id e (eventsOf cached rule datasource now n fs)).2.liveRecord rule k).map (·.lastSendTime) =
      ((Finding.lastOf k (Event.live? (cached k)).isSome fs).map fun f =>
        if f.outranked? = some k then some now else (Event.live? (cached k)).bind (·.lastSendTime)).or
          ((e.liveRecord rule k).map (·.lastSendTime)) := by
  induction fs generalizing e n with
  | nil => rfl
  | cons f fs ih =>
    rw [eventsOf, store_append, ih (hh.store rule.id _), Finding.lastOf_cons, Option.map_or, Option.or_assoc]
    congr 1
    cases hf : f.leaves k (Event.live? (cached k)).isSome with
    | true =>
      obtain ⟨a, ha, rfl⟩ := Finding.exists_event_of_leaves hc hf
      obtain ⟨-, hlies, hlive, hsent⟩ := Finding.sent_of_mem_events hc (ha ▸ List.mem_singleton_self a)
      rw [ha, store_of_healthy hh, store, liveRecord_stored_self hlies hlive, Option.map_some, hsent]
      rfl
    | false =>
      refine congrArg (Option.map _) (store_keeps_of_mem (P := fun x => x.liveRecord rule k = e.liveRecord rule k)
        (fun hq hx => (liveRecord_of_events (Quietly.events hq.quietly)).trans hx) rule.id _ (fun a ha hx => ?_) rfl)
      exact (liveRecord_stored_of_ne fun hat => Finding.ne_of_not_leaves hc hf ha hat.2).trans hx

variable (hh : e.Healthy) (hc : e.Coherent) (datasource : String) (now : Instant) (answer : Answer)
include hh hc

/-- What an answer leaves of the record of a fingerprint. -/
theorem record_complete :
    ((e.complete rule datasource now (.ok answer)).2.liveRecord rule k).map (·.lastSendTime) =
      ((Finding.lastOf k (e.liveRecord rule k).isSome (rule.findings answer)).map fun f =>
        if f.outranked? = some k then some now else e.lastSent rule k).or
          ((e.liveRecord rule k).map (·.lastSendTime)) := by
  obtain ⟨e₁, hh₁, hev, he⟩ := complete_of_healthy hh rule datasource now answer
  rw [he, sent_store rule k hh₁ (hc.liesAt_cached rule), liveRecord_of_events hev]
  rfl

/-- A record is live after an answer exactly if it was live before or a finding leaves it. -/
theorem live_complete : ((e.complete rule datasource now (.ok answer)).2.liveRecord rule k).isSome =
    ((e.liveRecord rule k).isSome || (rule.findings answer).any (·.leaves k (e.liveRecord rule k).isSome)) := by
  have h := congrArg Option.isSome (record_complete rule k hh hc datasource now answer)
  rw [Option.isSome_map, Option.isSome_or, Option.isSome_map, Option.isSome_map, Finding.isSome_lastOf] at h
  rw [h, Bool.or_comm]

/-- **An answer stamps a record exactly if the last event that it leaves is one of an outranked match**, and otherwise
the record says what it said before. -/
theorem sent_complete : (e.complete rule datasource now (.ok answer)).2.lastSent rule k =
    if Finding.stamps k (e.liveRecord rule k).isSome (rule.findings answer) then some now else e.lastSent rule k := by
  have hjoin : ∀ e : Engine, e.lastSent rule k = ((e.liveRecord rule k).map (·.lastSendTime)).join := fun e => by
    rw [lastSent]
    cases e.liveRecord rule k <;> rfl
  rw [hjoin, record_complete rule k hh hc, Finding.stamps]
  cases Finding.lastOf k (e.liveRecord rule k).isSome (rule.findings answer) with
  | none => exact (hjoin e).symm
  | some f => by_cases hf : f.outranked? = some k <;> simp [hf]

end Answer

/-- What every reading that is worked off hands on to the readings that are left, a dispatch in which no call fails
hands on to its end. -/
theorem gather_hands_on (rule : Rule) {P : Engine → List Reading → Prop}
    (same : ∀ {e e' : Engine} {readings : List Reading}, e'.events = e.events → P e readings → P e' readings)
    (steps : ∀ {e : Engine} (r : Reading) (readings : List Reading), e.Healthy → e.Coherent → P e (r :: readings) →
      P (e.complete rule r.datasource r.asked r.reply).2 readings)
    (start : Nat) {readings : List Reading} (hp : ∀ r ∈ readings, ¬Panicked r.reply) {g : Gathering}
    (hg : ¬g.panic.isSome = true) (last : Nat) {e : Engine} (hh : e.Healthy) (hc : e.Coherent) (h : P e readings) :
    P (gather rule start e g last readings).2 [] := by
  induction readings generalizing e g last with
  | nil => exact h
  | cons r readings ih =>
    have hgo : (g.panic.isSome && last < r.elapsed) = false := by rw [Bool.eq_false_iff.mpr hg, Bool.false_and]
    rw [gather, hgo]
    let e₀ := e.atTime (start + r.elapsed)
    have hbegun : e₀.Healthy ∧ e₀.Coherent := ⟨hh, hc⟩
    obtain ⟨hh₁, hc₁⟩ := complete_keeps (P := fun e => e.Healthy ∧ e.Coherent)
      (fun hq h => ⟨h.1.quiet hq, h.2.quiet hq⟩) (fun a h => ⟨h.1, h.2.stored a⟩) rule r.datasource r.asked r.reply
      hbegun
    have h₁ : P (e₀.complete rule r.datasource r.asked r.reply).2 readings :=
      steps r readings hh hc (same (e := e) rfl h)
    obtain ⟨hh', hc', h'⟩ := add_keeps (P := fun e => e.Healthy ∧ e.Coherent ∧ P e readings)
      (fun hq h => ⟨h.1.quiet hq, h.2.1.quiet hq, same (Quietly.events hq.quietly) h.2.2⟩) g rule.id r.datasource
      (e₀.complete rule r.datasource r.asked r.reply).1 ⟨hh₁, hc₁, h₁⟩
    have hpanic : ¬(g.add (e₀.complete rule r.datasource r.asked r.reply).2 rule.id r.datasource
        (e₀.complete rule r.datasource r.asked r.reply).1).1.panic.isSome = true := by
      rw [Gathering.isSome_panic_add, panicked_complete]
      exact fun h => h.elim hg (hp r List.mem_cons_self)
    exact ih (fun x hx => hp x (List.mem_cons_of_mem r hx)) hpanic r.elapsed hh' hc' h'

section Dispatch

variable {e : Engine} (rule : Rule) (k : String) {readings : List Reading}

/-- **A dispatch in which no call fails leaves the last stamp**, and what its record said before if there is none. -/
theorem sent_dispatch (hp : ∀ r ∈ readings, ¬Panicked r.reply) (hh : e.Healthy) (hc : e.Coherent) :
    (e.dispatch rule readings).2.lastSent rule k =
      (rule.lastStamp k (e.liveRecord rule k).isSome readings).or (e.lastSent rule k) := by
  let ends (e : Engine) (left : List Reading) : Option Instant :=
    (rule.lastStamp k (e.liveRecord rule k).isSome left).or (e.lastSent rule k)
  refine gather_hands_on rule (P := fun e' left => ends e' left = ends e readings) (fun hev h => ?same)
    (fun {e'} r left hh' hc' h => ?steps) e.time hp (g := .empty) Bool.false_ne_true 0 hh hc rfl
  case same =>
    rw [← h]
    simp only [ends, liveRecord_of_events hev, lastSent_of_events hev]
  case steps =>
    rw [← h]
    simp only [ends]
    rw [Rule.lastStamp]
    cases hr : r.reply with
    | error failure => cases failure <;> rfl
    | ok answer =>
      rw [live_complete rule k hh' hc', sent_complete rule k hh' hc', Option.or_assoc]
      split <;> rfl

/-- A dispatch in which no call fails has its report from the rule alone. -/
theorem report_of_healthy (hp : ∀ r ∈ readings, ¬Panicked r.reply) (hh : e.Healthy) :
    ∃ report, (e.dispatch rule readings).1 = .ok report ∧
      (k ∈ report.fingerprints ↔ ∃ r ∈ readings, ∃ answer, r.reply = .ok answer ∧ k ∈ rule.current answer) ∧
      (k ∈ report.suppressed ↔ (∃ r ∈ readings, ∃ answer, r.reply = .ok answer ∧ k ∈ rule.outranked answer) ∧
        k ∉ report.fingerprints) := by
  obtain ⟨pushed, hsummary⟩ := dispatch_of_getsSucceed rule (fun r hr p hpanic => hp r hr ⟨p, hpanic⟩)
    fun n k => hh n (.get k)
  have hreplies : ∀ {p : Answer → Prop}, (∃ answer, .ok answer ∈ readings.map (·.reply) ∧ p answer) ↔
      ∃ r ∈ readings, ∃ answer, r.reply = .ok answer ∧ p answer := by
    intro p
    simp only [List.mem_map]
    constructor
    · exact fun ⟨answer, ⟨r, hr, ha⟩, hk⟩ => ⟨r, hr, answer, ha, hk⟩
    · exact fun ⟨r, hr, answer, ha, hk⟩ => ⟨answer, ⟨r, hr, ha⟩, hk⟩
  refine ⟨_, hsummary, Rule.mem_summary_fingerprints.trans hreplies, ?_⟩
  exact Rule.mem_summary_suppressed.trans (and_congr_left fun _ => hreplies)

variable {rule k}

/-- After a dispatch in which no call fails, what an answer reports has a live record. -/
theorem live_dispatch (hcloud : rule.query.family ≠ .cloudMetrics) (hp : ∀ r ∈ readings, ¬Panicked r.reply)
    (hh : e.Healthy) (hc : e.Coherent)
    (hk : ∃ r ∈ readings, ∃ answer, r.reply = .ok answer ∧ (k ∈ rule.current answer ∨ k ∈ rule.outranked answer)) :
    ((e.dispatch rule readings).2.liveRecord rule k).isSome = true := by
  have hend := gather_hands_on rule (P := fun e' left => (e'.liveRecord rule k).isSome = true ∨
      ∃ r ∈ left, ∃ answer, r.reply = .ok answer ∧ (k ∈ rule.current answer ∨ k ∈ rule.outranked answer))
    (fun hev h => ?same) (fun {e'} r left hh' hc' h => ?steps) e.time hp (g := .empty) Bool.false_ne_true 0 hh hc
    (.inr hk)
  case same => rwa [liveRecord_of_events hev]
  case steps =>
    rcases h with h | ⟨x, hx, answer, ha, hk⟩
    · left
      cases hr : r.reply with
      | error failure => cases failure <;> exact h
      | ok answer => rw [live_complete rule k hh' hc', h, Bool.true_or]
    · rcases List.mem_cons.mp hx with rfl | hx
      · rw [ha, live_complete rule k hh' hc', Finding.any_leaves_of_reported hcloud hk, Bool.or_true]
        exact .inl rfl
      · exact .inr ⟨x, hx, answer, ha, hk⟩
  exact hend.resolve_right fun ⟨_, hr, _⟩ => nomatch hr

/-- **A dispatch in which no call fails leaves a live record of what it reports**, and the record has the last stamp. -/
theorem record_dispatch (hcloud : rule.query.family ≠ .cloudMetrics) (hh : e.Healthy) (hc : e.Coherent)
    {report : Report} {e' : Engine} (hd : e.dispatch rule readings = (.ok report, e'))
    (hk : k ∈ report.fingerprints ∨ k ∈ report.suppressed) :
    ∃ a, e'.cached rule k = some a ∧ a.status ≠ .recovered ∧
      a.lastSendTime = (rule.lastStamp k (e.liveRecord rule k).isSome readings).or (e.lastSent rule k) := by
  have hp := (e.exists_report_dispatch_iff rule readings).mp ⟨report, by rw [hd]⟩
  have hfound : ∃ r ∈ readings, ∃ answer, r.reply = .ok answer ∧
      (k ∈ rule.current answer ∨ k ∈ rule.outranked answer) := by
    obtain ⟨report', hreport, hcurrent, hsuppressed⟩ := report_of_healthy rule k hp hh
    obtain rfl : report = report' := Except.ok.inj ((congrArg Prod.fst hd).symm.trans hreport)
    rcases hk with hk | hk
    · obtain ⟨r, hr, answer, ha, hk⟩ := hcurrent.mp hk
      exact ⟨r, hr, answer, ha, .inl hk⟩
    · obtain ⟨r, hr, answer, ha, hk⟩ := (hsuppressed.mp hk).1
      exact ⟨r, hr, answer, ha, .inr hk⟩
  have hlive := live_dispatch hcloud hp hh hc hfound
  have hsent := sent_dispatch rule k hp hh hc
  rw [hd] at hlive hsent
  obtain ⟨a, ha⟩ := Option.isSome_iff_exists.mp hlive
  obtain ⟨hcached, ht⟩ := Option.filter_eq_some_iff.mp ha
  refine ⟨a, hcached, fun hs => ?_, ?_⟩
  · simp [hs, Status.isTerminal] at ht
  · rw [lastSent, ha] at hsent
    exact hsent

end Dispatch

end Engine

/-! ## The last finding -/

section Last

variable {k : String} {live : Bool} {f : Finding}

theorem Finding.lastOf_append (hf : f.leaves k live = true) (fs : List Finding) :
    lastOf k live (fs ++ [f]) = some f := by
  simp [lastOf, hf]

variable {rule : Rule} {readings : List Reading} {r : Reading} {answer : Answer} {fs : List Finding}

/-- What is outranked in no answer has no stamp. -/
theorem Rule.lastStamp_eq_none (hno : ∀ r ∈ readings, ∀ answer, r.reply = .ok answer → k ∉ rule.outranked answer) :
    rule.lastStamp k live readings = none := by
  refine Option.eq_none_iff_forall_not_mem.mpr fun t ht => ?_
  obtain ⟨r, hr, -, answer, ha, hk⟩ := rule.asked_of_lastStamp ht
  exact hno r hr answer ha hk

/-- An outranked match that comes last in the last answer gives the last stamp. -/
theorem Rule.lastStamp_append (readings : List Reading) (hr : r.reply = .ok answer)
    (hfs : rule.findings answer = fs ++ [f]) (hf : f.outranked? = some k) :
    rule.lastStamp k live (readings ++ [r]) = some r.asked := by
  have hstamps : ∀ live, Finding.stamps k live (rule.findings answer) = true := fun live => by
    rw [hfs, Finding.stamps, Finding.lastOf_append (Finding.leaves_of_outranked? hf live)]
    simp [hf]
  induction readings generalizing live with
  | nil =>
    rw [List.nil_append, lastStamp, hr]
    simp [lastStamp, hstamps]
  | cons x readings ih =>
    rw [List.cons_append, lastStamp]
    split
    · exact ih
    · rw [ih]
      rfl

/-- An answer whose last finding of a fingerprint is no outranked match stamps nothing. -/
theorem Rule.lastStamp_of_not_outranked (hr : r.reply = .ok answer) (hfs : rule.findings answer = fs ++ [f])
    (hf : f.leaves k live = true) (hno : f.outranked? ≠ some k) : rule.lastStamp k live [r] = none := by
  have hstamps : Finding.stamps k live (rule.findings answer) = false := by
    rw [hfs, Finding.stamps, Finding.lastOf_append hf]
    simpa using hno
  rw [lastStamp, hr]
  simp [lastStamp, hstamps]

/-- **A fingerprint that is current in an answer and outranked at last counts as sent**, also if it was never sent. -/
theorem Engine.current_and_sent {e : Engine} (readings : List Reading) (hh : e.Healthy) (hc : e.Coherent)
    (hp : ∀ x ∈ readings ++ [r], ¬Panicked x.reply)
    (hk : ∃ x ∈ readings ++ [r], ∃ answer, x.reply = .ok answer ∧ k ∈ rule.current answer)
    (hr : r.reply = .ok answer) (hfs : rule.findings answer = fs ++ [f]) (hf : f.outranked? = some k) :
    (∃ report, (e.dispatch rule (readings ++ [r])).1 = .ok report ∧ k ∈ report.fingerprints) ∧
      (e.dispatch rule (readings ++ [r])).2.lastSent rule k = some r.asked := by
  obtain ⟨report, hreport, hcurrent, -⟩ := report_of_healthy rule k hp hh
  refine ⟨⟨report, hreport, hcurrent.mpr hk⟩, ?_⟩
  rw [sent_dispatch rule k hp hh hc, Rule.lastStamp_append readings hr hfs hf]
  rfl

/-- **A fingerprint that is outranked in an answer and not met at last is not stamped.** -/
theorem Engine.suppressed_and_unsent {e : Engine} (hh : e.Healthy) (hc : e.Coherent)
    (hlive : (e.liveRecord rule k).isSome = true) (hr : r.reply = .ok answer) (hk : k ∈ rule.outranked answer)
    (hcurrent : k ∉ rule.current answer) (hfs : rule.findings answer = fs ++ [f]) (hf : f.leaves k true = true)
    (hno : f.outranked? ≠ some k) :
    (∃ report, (e.dispatch rule [r]).1 = .ok report ∧ k ∈ report.suppressed) ∧
      (e.dispatch rule [r]).2.lastSent rule k = e.lastSent rule k := by
  have hp : ∀ x ∈ [r], ¬Panicked x.reply := by
    intro x hx
    rw [List.mem_singleton.mp hx, hr]
    rintro ⟨p, hp⟩
    cases hp
  obtain ⟨report, hreport, hfound, hsuppressed⟩ := report_of_healthy rule k hp hh
  refine ⟨⟨report, hreport, hsuppressed.mpr ⟨⟨r, List.mem_singleton_self r, answer, hr, hk⟩, fun h => ?_⟩⟩, ?_⟩
  · obtain ⟨x, hx, answer', ha, hk'⟩ := hfound.mp h
    rw [List.mem_singleton.mp hx, hr] at ha
    cases ha
    exact hcurrent hk'
  · rw [sent_dispatch rule k hp hh hc, hlive, Rule.lastStamp_of_not_outranked hr hfs hf hno]
    rfl

end Last

end Alerting
