import Alerting.Proofs.Dispatch.Confirmed
import Alerting.Proofs.Dispatch.Instances
import Alerting.Proofs.Dispatch.Sent

/-!
# The progress of cloud alerts

How far a generation has come is when it began and its status. Only a match advances it, unless the rule is one on
metrics (`Engine.progress_dispatch`), and a pass leaves alone what is current and not listed as missing
(`Engine.Unlisted.reconcile`). A cloud rule finds all its endpoints current, so how far the generation of an endpoint
has come is a function of the times at which the endpoint matched (`Engine.Unlisted.ticks`, `Rule.progressAfter`).

So an endpoint is confirmed by the age of its generation at a match (`Cloud.confirmed_by_age`), and it is no matter
whether it matched in between (`Cloud.confirmed_after_gap`).
-/

namespace Alerting

/-! ## Progress -/

/-- When the generation of an event began, and its status. -/
def Event.progress (a : Event) : Instant × Status := (a.firstTriggerTime, a.status)

/-- How far the generation of a fingerprint of a rule has come. -/
def Engine.progress (e : Engine) (rule : Rule) (k : String) : Option (Instant × Status) :=
  (e.cached rule k).map Event.progress

/-- Whether a finding is a match of a fingerprint. -/
def Finding.isMatchOf (k : String) (f : Finding) : Bool := f.seen?.any (·.fingerprint == k)

namespace Rule

/-- Whether a generation that began at one time is old enough to be confirmed at another. -/
def isRipe (rule : Rule) (first now : Instant) : Bool :=
  decide (Duration.ofSecs rule.forDurationSecs ≤ now.elapsedSince first)

/-- What a match makes of a generation. -/
def advanced (rule : Rule) (now : Instant) : Option (Instant × Status) → Instant × Status
  | none => (now, .preAlert)
  | some (first, status) =>
    if status.isTerminal then (now, .preAlert)
    else (first, if status = .preAlert ∧ rule.isRipe first now = true then .alerting else status)

/-- Whether an instance of this fingerprint matches in an answer. -/
def finds (rule : Rule) (k : String) (r : Reading) : Bool :=
  r.reply.toOption.any fun answer => (rule.instances answer).any (·.fingerprint == k)

/-- The times at which a fingerprint matched. -/
def matchTimes (rule : Rule) (k : String) (readings : List Reading) : List Instant :=
  (readings.filter (rule.finds k)).map (·.asked)

/-- What matches at some times make of a generation. -/
def advancedBy (rule : Rule) (p : Option (Instant × Status)) (times : List Instant) : Option (Instant × Status) :=
  times.foldl (fun p now => some (rule.advanced now p)) p

theorem matchTimes_append (rule : Rule) (k : String) (xs ys : List Reading) :
    rule.matchTimes k (xs ++ ys) = rule.matchTimes k xs ++ rule.matchTimes k ys := by
  rw [matchTimes, List.filter_append, List.map_append]
  rfl

theorem mem_matchTimes {rule : Rule} {k : String} {readings : List Reading} {t : Instant} :
    t ∈ rule.matchTimes k readings ↔ ∃ r ∈ readings, rule.finds k r = true ∧ r.asked = t := by
  simp [matchTimes, and_assoc]

theorem advancedBy_append (rule : Rule) (p : Option (Instant × Status)) (xs ys : List Instant) :
    rule.advancedBy p (xs ++ ys) = rule.advancedBy (rule.advancedBy p xs) ys := List.foldl_append

/-- One reading more: it advances the generation if the fingerprint matches in it. -/
theorem advancedBy_cons (rule : Rule) (k : String) (p : Option (Instant × Status)) (r : Reading)
    (readings : List Reading) : rule.advancedBy p (rule.matchTimes k (r :: readings)) =
      rule.advancedBy (if rule.finds k r = true then some (rule.advanced r.asked p) else p)
        (rule.matchTimes k readings) := by
  rw [matchTimes, List.filter_cons]
  split <;> rfl

/-- What a rule finds in an answer is what its findings match. -/
theorem any_isMatchOf (rule : Rule) (k : String) (answer : Answer) :
    (rule.findings answer).any (·.isMatchOf k) = (rule.instances answer).any (·.fingerprint == k) := by
  rw [← rule.seen_findings, List.any_filterMap]
  rfl

end Rule

/-- The event of a match has come one match further than the record. -/
theorem Observation.progress_event (o : Observation) (rule : Rule) (datasource id : String) (now : Instant)
    (record : Option Event) :
    (o.event rule datasource id now record).progress = rule.advanced now (record.map Event.progress) := by
  obtain ⟨-, -, -, ⟨c, rfl, hlive, -, hfirst, hs⟩ | ⟨hnew, -, hfirst, hs⟩⟩ := o.event_spec rule datasource id now record
  · rw [Event.progress, hfirst, hs]
    simp [Rule.advanced, Event.progress, hlive, Event.isDue, Rule.isRipe]
  · rw [Event.progress, hfirst, hs]
    cases record with
    | none => rfl
    | some c => simp [Rule.advanced, Event.progress, hnew c rfl]

namespace Engine

/-! ## A dispatch -/

section Dispatch

variable {e e' : Engine} (rule : Rule) (k : String)

theorem progress_of_events (h : e'.events = e.events) : e'.progress rule k = e.progress rule k := by
  unfold progress cached
  rw [h]

/-- The stores of findings advance the generations of those that match, from the record before. -/
theorem progress_store (hh : e.Healthy) {cached : String → Option Event}
    (hc : ∀ k c, cached k = some c → c.LiesAt (eventsKey rule.tenantId rule.faultCenterId) k) (datasource : String)
    (now : Instant) (n : Nat) {fs : List Finding} (hfs : ∀ v, .unmatched k v ∉ fs) :
    (store rule.id e (eventsOf cached rule datasource now n fs)).2.progress rule k =
      if fs.any (·.isMatchOf k) = true then some (rule.advanced now ((cached k).map Event.progress))
      else e.progress rule k := by
  induction fs generalizing e n with
  | nil => rfl
  | cons f fs ih =>
    rw [eventsOf, store_append, ih (hh.store rule.id _) _ fun v hv => hfs v (List.mem_cons_of_mem f hv), List.any_cons]
    cases hany : fs.any (·.isMatchOf k) with
    | true => simp
    | false =>
      rw [Bool.or_false, if_neg Bool.false_ne_true]
      cases hf : f.isMatchOf k with
      | true =>
        cases f with
        | malformed | unmatched | configured => cases hf
        | matched o =>
          obtain rfl : o.fingerprint = k := beq_iff_eq.mp hf
          have hlies := (o.event_spec rule datasource (mintedId n) now (cached o.fingerprint)).1
          rw [if_pos rfl, Finding.events, store_of_healthy hh, store, progress, Engine.cached]
          rw [← o.progress_event rule datasource (mintedId n) now (cached o.fingerprint)]
          exact congrArg (Option.map Event.progress) (find?_stored_self hlies)
      | false =>
        rw [if_neg Bool.false_ne_true]
        refine store_keeps_of_mem (P := fun x => x.progress rule k = e.progress rule k)
          (fun hq hx => (progress_of_events rule k (Quietly.events hq.quietly)).trans hx) rule.id _ (fun a ha hx => ?_) rfl
        refine Eq.trans (congrArg (Option.map Event.progress) (find?_stored_of_ne fun hat => ?_)) hx
        -- An event under this fingerprint would be one of a match, or of something that does not match.
        rcases (Finding.liesAt_of_mem_events hc ha).2 with ⟨o, rfl, hk⟩ | ⟨v, rfl⟩
        · exact Bool.eq_false_iff.mp hf (beq_iff_eq.mpr (hk.symm.trans hat.2))
        · exact hfs v (hat.2 ▸ List.mem_cons_self)

variable (hfamily : rule.query.family ≠ .metrics)
include hfamily

/-- A reading advances the generation if the fingerprint matches in it. -/
theorem progress_complete (hh : e.Healthy) (hc : e.Coherent) (r : Reading) :
    (e.complete rule r.datasource r.asked r.reply).2.progress rule k =
      if rule.finds k r = true then some (rule.advanced r.asked (e.progress rule k)) else e.progress rule k := by
  cases hr : r.reply with
  | error failure =>
    have hno : rule.finds k r = false := by rw [Rule.finds, hr]; rfl
    rw [hno]
    cases failure <;> rfl
  | ok answer =>
    obtain ⟨e₁, hh₁, hev, he⟩ := complete_of_healthy hh rule r.datasource r.asked answer
    have hfinds : rule.finds k r = (rule.findings answer).any (·.isMatchOf k) := by
      rw [Rule.finds, hr, rule.any_isMatchOf]
      rfl
    rw [he, progress_store rule k hh₁ (hc.liesAt_cached rule) r.datasource r.asked e.minted
      (rule.unmatched_not_mem hfamily answer k), progress_of_events rule k hev, hfinds]
    rfl

/-- **A dispatch in which no call fails advances a generation by the times at which the fingerprint matched.** -/
theorem progress_dispatch {readings : List Reading} (hp : ∀ r ∈ readings, ¬Panicked r.reply) (hh : e.Healthy)
    (hc : e.Coherent) : (e.dispatch rule readings).2.progress rule k =
      rule.advancedBy (e.progress rule k) (rule.matchTimes k readings) := by
  refine gather_hands_on rule
    (P := fun e' left => rule.advancedBy (e'.progress rule k) (rule.matchTimes k left) =
      rule.advancedBy (e.progress rule k) (rule.matchTimes k readings))
    (fun hev h => ?same) (fun {e'} r left hh' hc' h => ?steps) e.time hp (g := .empty) Bool.false_ne_true 0 hh hc rfl
  case same => rwa [progress_of_events rule k hev]
  case steps =>
    rw [progress_complete rule k hfamily hh' hc' r, ← rule.advancedBy_cons]
    exact h

end Dispatch

/-! ## Ticks -/

/-- No call fails, and the fingerprint is not listed as missing. -/
structure Unlisted (rule : Rule) (k : String) (e : Engine) : Prop where
  healthy : e.Healthy
  coherent : e.Coherent
  entry : ¬e.Lists rule.scope k

/-- A tick in which no datasource panics, and in which the fingerprint is current in some answer. -/
def KeepsCurrent (rule : Rule) (k : String) (t : List Reading × Instant) : Prop :=
  (∀ r ∈ t.1, ¬Panicked r.reply) ∧ ∃ r ∈ t.1, ∃ answer, r.reply = .ok answer ∧ k ∈ rule.current answer

section Tick

variable {e e' : Engine} {rule : Rule} {k : String}

theorem Unlisted.quiet (h : e.Unlisted rule k) (hq : Quiet e e') : e'.Unlisted rule k := by
  refine ⟨h.healthy.quiet hq, h.coherent.quiet hq, ?_⟩
  cases hq <;> exact h.entry

theorem Unlisted.dispatch (h : e.Unlisted rule k) (readings : List Reading) :
    (e.dispatch rule readings).2.Unlisted rule k :=
  dispatch_keeps (fun hq h => h.quiet hq) (fun a h => ⟨h.healthy, h.coherent.stored a, h.entry⟩) rule readings h

/-- A pass leaves what is current and unlisted as it is. -/
theorem Unlisted.reconcile (h : e.Unlisted rule k) (config : Config) {current : List String}
    (hk : isCurrent current k = true) (suppressed : List String) (now : Instant) :
    let e' := (e.reconcile config rule.scope current suppressed now).2
    e'.Unlisted rule k ∧ e'.progress rule k = e.progress rule k := by
  obtain ⟨r, e', hr, hh, hc, -, hcell⟩ := reconcile_of_healthy config rule.scope current suppressed now h.healthy
    h.coherent rule.scope_keys.1 rule.scope_keys.2
  have hleft : e'.cell rule.scope k = e.cell rule.scope k := by
    have hentry : ¬(e.cell rule.scope k).since.isSome = true := h.entry
    rw [(hcell k).1, hk, Cell.pass_current, if_neg hentry]
  have hrecord : e'.cached rule k = e.cached rule k := congrArg Cell.record hleft
  have hsince : e'.pending.get? rule.scope.tenant rule.scope.rule k = _ := congrArg Cell.since hleft
  rw [hr]
  refine ⟨⟨hh, hc, ?_⟩, congrArg (Option.map Event.progress) hrecord⟩
  rw [Lists, hsince]
  exact h.entry

variable (hfamily : rule.query.family ≠ .metrics) (config : Config)
include hfamily

/-- **A tick in which an unlisted fingerprint is current advances its generation by the times at which it matched.** -/
theorem Unlisted.tick (h : e.Unlisted rule k) {t : List Reading × Instant} (ht : KeepsCurrent rule k t) :
    let e' := (e.tick config rule t.1 t.2).2
    e'.Unlisted rule k ∧ e'.progress rule k = rule.advancedBy (e.progress rule k) (rule.matchTimes k t.1) := by
  obtain ⟨hp, hcurrent⟩ := ht
  obtain ⟨report, hreport, hmem, -⟩ := report_of_healthy rule k hp h.healthy
  have hk : isCurrent report.fingerprints k = true := by
    obtain ⟨r, -, answer, -, hk⟩ := id hcurrent
    rw [isCurrent, Rule.isEmpty_of_mem_current hk]
    exact List.contains_iff_mem.mpr (hmem.mpr hcurrent)
  have hdispatched := progress_dispatch rule k hfamily hp h.healthy h.coherent
  have hpass := (h.dispatch t.1).reconcile config hk report.suppressed t.2
  have htick : (e.tick config rule t.1 t.2).2 = ((e.dispatch rule t.1).2.reconcile config rule.scope
      report.fingerprints report.suppressed t.2).2 := by
    rw [Engine.tick, ← Prod.eta (e.dispatch rule t.1), hreport]
    rfl
  rw [htick]
  exact ⟨hpass.1, hpass.2.trans hdispatched⟩

/-- **Ticks in which an unlisted fingerprint is current advance its generation by the times at which it matched.** -/
theorem Unlisted.ticks (h : e.Unlisted rule k) (ts : List (List Reading × Instant))
    (hts : ∀ t ∈ ts, KeepsCurrent rule k t) :
    let e' := e.ticks config rule ts
    e'.Unlisted rule k ∧
      e'.progress rule k = rule.advancedBy (e.progress rule k) (rule.matchTimes k (ts.flatMap (·.1))) := by
  induction ts generalizing e with
  | nil => exact ⟨h, rfl⟩
  | cons t ts ih =>
    obtain ⟨hfirst, hprogress⟩ := h.tick hfamily config (hts t List.mem_cons_self)
    obtain ⟨hlast, hrest⟩ := ih hfirst fun x hx => hts x (List.mem_cons_of_mem t hx)
    refine ⟨hlast, hrest.trans ?_⟩
    rw [hprogress, List.flatMap_cons, rule.matchTimes_append, rule.advancedBy_append]

end Tick

end Engine

/-! ## A generation that never ends -/

namespace Rule

variable (rule : Rule)

/-- Whether one of some matches comes when the generation that began with the first one is old enough. -/
def ripens : List Instant → Bool
  | [] => false
  | first :: later => later.any (rule.isRipe first)

/-- What matches at some times come to. -/
def progressAfter : List Instant → Option (Instant × Status)
  | [] => none
  | first :: later => some (first, if rule.ripens (first :: later) then .alerting else .preAlert)

/-- Matches go on with a generation that is unconfirmed or active. -/
theorem advancedBy_some (first : Instant) (active : Bool) (times : List Instant) :
    rule.advancedBy (some (first, if active then .alerting else .preAlert)) times =
      some (first, if active || times.any (rule.isRipe first) then .alerting else .preAlert) := by
  induction times generalizing active with
  | nil => simp [advancedBy]
  | cons now times ih =>
    have hstep : rule.advanced now (some (first, if active then .alerting else .preAlert)) =
        (first, if active || rule.isRipe first now then .alerting else .preAlert) := by
      cases active <;> simp [advanced, Status.isTerminal]
    rw [List.any_cons, ← Bool.or_assoc, ← ih, advancedBy, List.foldl_cons, hstep]
    rfl

theorem advancedBy_none (times : List Instant) : rule.advancedBy none times = rule.progressAfter times := by
  cases times with
  | nil => rfl
  | cons first later =>
    have h := rule.advancedBy_some first false later
    rw [Bool.false_or] at h
    exact h

theorem alerting_progressAfter_iff (times : List Instant) :
    (rule.progressAfter times).map (·.2) = some .alerting ↔ rule.ripens times = true := by
  cases times with
  | nil => simp [progressAfter, ripens]
  | cons first later => cases h : rule.ripens (first :: later) <;> simp [progressAfter, h]

/-- When later times make a generation ripen, one of them comes when it is old enough. -/
theorem exists_of_ripens_append {rule : Rule} {before later : List Instant} (hb : rule.ripens before = false)
    (ha : rule.ripens (before ++ later) = true) :
    ∃ first ∈ before ++ later, rule.progressAfter (before ++ later) = some (first, .alerting) ∧
      ∃ now ∈ later, rule.isRipe first now = true := by
  cases before with
  | nil =>
    cases later with
    | nil => cases ha
    | cons first later =>
      refine ⟨first, List.mem_cons_self, by simpa [progressAfter] using ha, ?_⟩
      obtain ⟨now, hnow, hripe⟩ := List.any_eq_true.mp ha
      exact ⟨now, List.mem_cons_of_mem first hnow, hripe⟩
  | cons first before =>
    refine ⟨first, List.mem_cons_self, by simpa [progressAfter] using ha, ?_⟩
    obtain ⟨now, hnow, hripe⟩ := List.any_eq_true.mp ha
    refine ⟨now, (List.mem_append.mp hnow).resolve_left fun hnow => ?_, hripe⟩
    exact Bool.eq_false_iff.mp hb (List.any_eq_true.mpr ⟨now, hnow, hripe⟩)

end Rule

/-! ## Cloud rules -/

/-- A fingerprint of a rule is active now, and it was not before. -/
def Engine.BecomesActive (rule : Rule) (k : String) (e e' : Engine) : Prop :=
  (e'.progress rule k).map (·.2) = some .alerting ∧ (e.progress rule k).map (·.2) ≠ some .alerting

instance (rule : Rule) (k : String) (e e' : Engine) : Decidable (e.BecomesActive rule k e') :=
  inferInstanceAs (Decidable (_ ∧ _ ≠ _))

namespace Cloud

/-- A tick in which no datasource panics, and one of them answers with statistics. -/
def Answered (t : List Reading × Instant) : Prop :=
  (∀ r ∈ t.1, ¬Panicked r.reply) ∧ ∃ r ∈ t.1, ∃ points, r.reply = .ok (.statistics points)

section Confirmed

variable {rule : Rule} {ns metric statistic endpoint : String} {periodSecs : Nat} {endpoints : List String}
  {operator : Comparison} {threshold : Number} {severity : Severity}
  (hquery : rule.query = .cloudMetrics ns metric statistic periodSecs endpoints operator threshold severity)
  (hendpoint : endpoint ∈ endpoints)
include hquery hendpoint

/-- Every endpoint of a rule is current in every answer, whether it matches or not. -/
theorem mem_current (points : List CloudDatapoint) :
    Fingerprint.ofCloud rule.id metric endpoint ∈ rule.current (.statistics points) := by
  refine List.mem_filterMap.mpr ?_
  simp only [Rule.findings, hquery, findings, List.mem_map, exists_exists_and_eq_and]
  refine ⟨endpoint, hendpoint, ?_⟩
  split <;> rfl

theorem Answered.keepsCurrent {t : List Reading × Instant} (ht : Answered t) :
    Engine.KeepsCurrent rule (Fingerprint.ofCloud rule.id metric endpoint) t := by
  obtain ⟨hp, r, hr, points, hreply⟩ := ht
  exact ⟨hp, r, hr, _, hreply, mem_current hquery hendpoint points⟩

/-- **A cloud alert is confirmed by the age of its generation at a match.** In ticks that start with empty caches and in
which no call fails and a datasource always answers, an endpoint becomes active exactly in the tick in which it first
matches when the generation, which began with its first match, is as old as the confirmation time. So it matched at the
first trigger time and it matches in that tick, at least the confirmation time later. Ticks in which it does not match
leave both the first trigger time and the status as they are. -/
theorem confirmed_by_age (config : Config) (infos : InfoCache) (ts : List (List Reading × Instant))
    (t : List Reading × Instant) (hanswered : ∀ x ∈ ts ++ [t], Answered x) :
    let k := Fingerprint.ofCloud rule.id metric endpoint
    let before := (Engine.fresh (fun _ _ => false) infos).ticks config rule ts
    let after := (before.tick config rule t.1 t.2).2
    let times (ts : List (List Reading × Instant)) := rule.matchTimes k (ts.flatMap (·.1))
    after.progress rule k = rule.progressAfter (times (ts ++ [t])) ∧
      (before.BecomesActive rule k after ↔ rule.ripens (times ts) = false ∧ rule.ripens (times (ts ++ [t])) = true) ∧
      (before.BecomesActive rule k after → ∃ first, after.progress rule k = some (first, .alerting) ∧
        (∃ x ∈ ts ++ [t], ∃ r ∈ x.1, rule.finds k r = true ∧ r.asked = first) ∧
        ∃ r ∈ t.1, rule.finds k r = true ∧
          Duration.ofSecs rule.forDurationSecs ≤ r.asked.elapsedSince first) ∧
      ((∀ r ∈ t.1, rule.finds k r = false) → after.progress rule k = before.progress rule k) := by
  intro k before after times
  have hfamily : rule.query.family ≠ .metrics := by rw [hquery]; nofun
  have hfresh : (Engine.fresh (fun _ _ => false) infos).Unlisted rule k :=
    ⟨fun _ _ => rfl, Engine.coherent_fresh _ infos, fun h => nomatch h⟩
  have hbefore := hfresh.ticks hfamily config ts fun x hx =>
    (hanswered x (List.mem_append_left _ hx)).keepsCurrent hquery hendpoint
  have hafter := hbefore.1.tick hfamily config ((hanswered t (by simp)).keepsCurrent hquery hendpoint)
  have htimes : times (ts ++ [t]) = times ts ++ rule.matchTimes k t.1 := by
    simp only [times, List.flatMap_append, List.flatMap_singleton, rule.matchTimes_append]
  have hpast : before.progress rule k = rule.progressAfter (times ts) :=
    hbefore.2.trans (rule.advancedBy_none _)
  have hnow : after.progress rule k = rule.progressAfter (times (ts ++ [t])) := by
    rw [htimes, ← rule.advancedBy_none, rule.advancedBy_append, rule.advancedBy_none, ← hpast]
    exact hafter.2
  have hactive : before.BecomesActive rule k after ↔
      rule.ripens (times ts) = false ∧ rule.ripens (times (ts ++ [t])) = true := by
    rw [Engine.BecomesActive, hpast, hnow, Ne, rule.alerting_progressAfter_iff, rule.alerting_progressAfter_iff,
      Bool.not_eq_true, and_comm]
  refine ⟨hnow, hactive, fun h => ?_, fun hno => ?_⟩
  · obtain ⟨hb, ha⟩ := hactive.mp h
    rw [htimes] at ha
    obtain ⟨first, hfirst, hprogress, now, hmem, hripe⟩ := Rule.exists_of_ripens_append hb ha
    rw [← htimes] at hfirst hprogress
    obtain ⟨r₀, hr₀, hfinds₀, hasked₀⟩ := Rule.mem_matchTimes.mp hfirst
    obtain ⟨x, hx, hr₀⟩ := List.mem_flatMap.mp hr₀
    obtain ⟨r, hr, hfinds, rfl⟩ := Rule.mem_matchTimes.mp hmem
    exact ⟨first, hnow.trans hprogress, ⟨x, hx, r₀, hr₀, hfinds₀, hasked₀⟩, r, hr, hfinds, of_decide_eq_true hripe⟩
  · have hnone : rule.matchTimes k t.1 = [] := by
      rw [Rule.matchTimes, List.filter_eq_nil_iff.mpr fun r hr => Bool.eq_false_iff.mp (hno r hr), List.map_nil]
    rw [hnow, htimes, hnone, List.append_nil, hpast]

end Confirmed

/-- A cloud rule that confirms its alerts after a minute. -/
def cpuUsage : Rule := { Rule.errorCount with
  datasourceKind := .cloudWatch
  forDurationSecs := 60
  query := .cloudMetrics "AWS/EC2" "CPUUtilization" "Average" 300 ["i-1"] .greater (.ofNat 80) .standard }

/-- A tick that sees one statistic of the endpoint. -/
def seenAt (secs value : Nat) : List Reading × Instant :=
  let now := Instant.epoch.after (.ofSecs secs)
  ([⟨"ds1", now, 0, .ok (.statistics [⟨"i-1", .ofNat value⟩])⟩], now)

theorem answered_seenAt (secs value : Nat) : Answered (seenAt secs value) := by
  refine ⟨fun r hr => ?_, _, List.mem_singleton_self _, _, rfl⟩
  obtain rfl := List.mem_singleton.mp hr
  rintro ⟨p, hp⟩
  cases hp

/-- The endpoint is above the threshold, then below it, and above it again a minute after the first time. -/
def gap : List (List Reading × Instant) := [seenAt 0 95, seenAt 30 10]

theorem confirmed_by_age_gap :
    let k := Fingerprint.ofCloud "r1" "CPUUtilization" "i-1"
    let before := (Engine.fresh (fun _ _ => false) .empty).ticks .standard cpuUsage gap
    let after := (before.tick .standard cpuUsage (seenAt 60 95).1 (seenAt 60 95).2).2
    (∀ x ∈ gap ++ [seenAt 60 95], Answered x) ∧ before.BecomesActive cpuUsage k after ∧
      ∃ first, after.progress cpuUsage k = some (first, .alerting) ∧
        ∃ r ∈ (seenAt 60 95).1, cpuUsage.finds k r = true ∧ Duration.ofSecs 60 ≤ r.asked.elapsedSince first := by
  have hanswered : ∀ x ∈ gap ++ [seenAt 60 95], Answered x := by
    intro x hx
    simp only [gap, List.cons_append, List.nil_append, List.mem_cons, List.not_mem_nil, or_false] at hx
    rcases hx with rfl | rfl | rfl <;> exact answered_seenAt ..
  have hquery : cpuUsage.query =
      .cloudMetrics "AWS/EC2" "CPUUtilization" "Average" 300 ["i-1"] .greater (.ofNat 80) .standard := rfl
  obtain ⟨-, hactive, hconfirmed, -⟩ := confirmed_by_age hquery (List.mem_singleton_self "i-1") .standard .empty gap
    (seenAt 60 95) hanswered
  have hbecomes := hactive.mpr (by decide +kernel)
  obtain ⟨first, hfirst, -, hmatch⟩ := hconfirmed hbecomes
  exact ⟨hanswered, hbecomes, first, hfirst, hmatch⟩

/-- **A gap does not keep an endpoint from being confirmed.** It becomes active when its generation is a minute old,
though it did not match half a minute before. -/
theorem confirmed_after_gap :
    let k := Fingerprint.ofCloud "r1" "CPUUtilization" "i-1"
    let before := (Engine.fresh (fun _ _ => false) .empty).ticks .standard cpuUsage gap
    let after := (before.tick .standard cpuUsage (seenAt 60 95).1 (seenAt 60 95).2).2
    before.progress cpuUsage k = some (.epoch, .preAlert) ∧ after.progress cpuUsage k = some (.epoch, .alerting) ∧
      ∀ r ∈ (seenAt 30 10).1, cpuUsage.finds k r = false := by
  decide +kernel

end Cloud

end Alerting
