import Alerting.Proofs.Dispatch.FanIn
import Alerting.Simulation.Bench

/-!
# Windows that begin before time does

A query with a trailing window asks from the beginning of the window on. A window that is longer than any span of time
is the rule's defect, and the datasource fails. One that is a span of time may still be longer than the time from the
first instant to the present (`Instant.before?_eq_none_iff`), and then the subtraction panics (`Query.ReachesTooFar`),
also for a rule that is valid (`valid_rule_panics`).

Nothing else panics in a dispatch but the clients that are asked. So if none of them does, a dispatch ends in a report
exactly if none of the datasources that get to their clients is asked about such a window (`dispatch_reports_iff`).
-/

namespace Alerting

/-! ## Subtraction -/

/-- The first instant of the time scale. -/
def Instant.first : Instant := { epoch with day := firstDay }

theorem Instant.inRange_iff {t : Instant} : t.inRange = true ↔ firstDay ≤ t.day ∧ t.day ≤ lastDay := by
  simp only [inRange, Bool.and_eq_true, decide_eq_true_eq]

/-- **The time scale reaches back as far as its first instant.** -/
theorem Instant.before?_eq_none_iff {t : Instant} (h : t.inRange = true) (d : Duration) :
    t.before? d = none ↔ t.since .first < d.nanos := by
  have hsecond := t.second_lt
  have hnano := t.nano_lt
  rw [inRange_iff] at h
  have hsince : t.since .first = ((t.day - firstDay) * 86400 + t.second) * 1000000000 + t.nano := by
    simp only [since, first, epoch]
    omega
  have hrange : (t.shift (-d.nanos)).inRange = true ↔ (d.nanos : Int) ≤ t.since .first := by
    rw [hsince, inRange_iff]
    unfold shift
    split
    · dsimp only [ofNanos]
      omega
    · split
      · dsimp only
        omega
      · split
        · omega
        · dsimp only [ofNanos]
          omega
  rw [← Int.not_le, ← hrange]
  simp [before?]

/-! ## What is asked of a datasource -/

theorem panicked_map {α β : Type} (f : α → β) (reply : Except Failure α) : Panicked (reply.map f) ↔ Panicked reply := by
  cases reply with
  | error failure => simp [Panicked, Except.map]
  | ok a => simp [Panicked, Except.map]

/-- The trailing window that a query asks about. -/
def Query.window? : Query → Option Duration
  | .logs _ window unit _ _ _ => some (unit.duration window)
  | .traces _ _ windowSecs _ => some (.ofSecs windowSecs)
  | .kubernetesEvents _ _ _ windowSecs _ => some (.ofSecs windowSecs)
  | _ => none

/-- The window of a query is a span of time, and it begins before the first instant. -/
def Query.ReachesTooFar (q : Query) (now : Instant) : Prop :=
  ∃ w, q.window? = some w ∧ w ≤ Request.longestSpan ∧ now.since .first < w.nanos

namespace Request

variable {now : Instant}

theorem panicked_windowStart (hnow : now.inRange = true) (w : Duration) :
    Panicked (windowStart now w) ↔ w ≤ longestSpan ∧ now.since .first < w.nanos := by
  unfold windowStart
  split
  · next hw =>
    rw [← Instant.before?_eq_none_iff hnow]
    split
    · next start hs => simp [Panicked, hs]
    · next hs => simp [Panicked, hs, hw]
  · next hw => simp [Panicked, hw]

/-- **A query panics exactly if its window reaches too far back.** -/
theorem panicked_ofQuery (hnow : now.inRange = true) (q : Query) : Panicked (ofQuery now q) ↔ q.ReachesTooFar now := by
  have hwindow : ∀ (w : Duration) (f : Instant → Request), q.window? = some w →
      (Panicked ((windowStart now w).map f) ↔ q.ReachesTooFar now) := by
    intro w f hw
    rw [panicked_map, panicked_windowStart hnow, Query.ReachesTooFar, hw]
    simp only [Option.some.injEq, exists_eq_left']
  cases q with
  | metrics | cloudMetrics => simp [ofQuery, Panicked, Query.ReachesTooFar, Query.window?]
  | logs | traces | kubernetesEvents => exact hwindow _ _ rfl

/-- A window that is longer than any span of time is the rule's defect. -/
theorem ofQuery_of_longestSpan_lt {q : Query} {w : Duration} (hw : q.window? = some w) (hlong : longestSpan < w) :
    ofQuery now q = .error (.error (.invalidRule (.windowTooLong w))) := by
  have hstart : windowStart now w = .error (.error (.invalidRule (.windowTooLong w))) := if_neg (Nat.not_le.mpr hlong)
  cases q with
  | metrics | cloudMetrics => cases hw
  | logs | traces | kubernetesEvents =>
    cases hw
    rw [ofQuery, hstart]
    rfl

end Request

/-- The kind of datasource that a rule names and its query are of a family. -/
def Rule.Suits (rule : Rule) (family : Family) : Prop :=
  rule.datasourceKind.family? = some family ∧ rule.query.family = family

theorem Rule.request_of_suits {rule : Rule} {family : Family} (h : rule.Suits family) (now : Instant) :
    rule.request family now = Request.ofQuery now rule.query := if_pos h

namespace Sources

/-- A datasource gets to its client, and the rule asks it about a window that reaches too far back. -/
def Overreaches (s : Sources) (rule : Rule) (id : String) (now : Instant) : Prop :=
  (∃ client, s.clientOf id = .ok client ∧ rule.Suits client.data.family) ∧ rule.query.ReachesTooFar now

/-- No client panics when it is called. -/
def Calm (s : Sources) : Prop := ∀ id client, s.clientOf id = .ok client → client.panic = none

/-- A reading is what came of asking a datasource: why its client was not asked, what it replied, or that it took too
long. -/
def Gives (s : Sources) (rule : Rule) (r : Reading) : Prop :=
  match s.ask rule r.datasource r.asked with
  | .error failure => r.reply = .error failure
  | .ok (_, client) => r.reply = client.reply ∨ ∃ timeout, r.reply = .error (.error (timedOut r.datasource timeout))

variable {s : Sources} {rule : Rule} {id : String} {now : Instant}

theorem ask_of_clientOf {client : Client} (h : s.clientOf id = .ok client) :
    s.ask rule id now = (rule.request client.data.family now).map fun request => (request, client) := by
  rw [ask, h]

/-- **Asking a datasource panics exactly if its client is asked about a window that reaches too far back.** -/
theorem panicked_ask (hnow : now.inRange = true) : Panicked (s.ask rule id now) ↔ s.Overreaches rule id now := by
  cases hc : s.clientOf id with
  | error error => simp [ask, Overreaches, hc, Panicked]
  | ok client =>
    rw [ask_of_clientOf hc, panicked_map, Overreaches, hc]
    simp only [Except.ok.injEq, exists_eq_left', Rule.request, Rule.Suits]
    split
    · next hs => simp only [Request.panicked_ofQuery hnow, hs, true_and, and_self]
    · next hs => simp [Panicked, hs]

theorem clientOf_of_ask {request : Request} {client : Client} (h : s.ask rule id now = .ok (request, client)) :
    s.clientOf id = .ok client := by
  unfold ask at h
  cases hc : s.clientOf id with
  | error error =>
    rw [hc] at h
    cases h
  | ok client' =>
    rw [hc] at h
    cases hr : rule.request client'.data.family now with
    | error failure =>
      simp only [hr] at h
      cases h
    | ok request' =>
      simp only [hr] at h
      cases h
      rfl

/-- **If no client panics, a reading panics exactly if asking its datasource does.** -/
theorem Gives.panicked_iff {r : Reading} (h : s.Gives rule r) (hcalm : s.Calm) (hasked : r.asked.inRange = true) :
    Panicked r.reply ↔ s.Overreaches rule r.datasource r.asked := by
  rw [← panicked_ask hasked]
  unfold Gives at h
  split at h
  · next failure ha =>
    simp [Panicked, h, ha]
  · next request client ha =>
    have hnone := hcalm _ _ (clientOf_of_ask ha)
    have hno : ¬Panicked r.reply := by
      rcases h with h | ⟨timeout, h⟩
      · cases hf : client.fail <;> simp [Panicked, h, Client.reply, hnone, hf]
      · simp [Panicked, h]
    exact iff_of_false hno (by simp [Panicked, ha])

end Sources

/-! ## Datasources that finish in any order -/

/-- The task of a datasource has ended in a panic if its reply panicked, and not otherwise. -/
def Branch.Agrees (r : Reading) : Branch → Prop
  | ended c => (∃ p, c = .panicked p) ↔ Panicked r.reply
  | joined => True
  | _ => ¬Panicked r.reply

/-- What was gathered has panicked exactly if a reply of a task that was joined did. -/
structure FanOut.Honest (f : FanOut) : Prop where
  tasks : ∀ x ∈ f.tasks, x.2.Agrees x.1
  gathered : f.gathered.panic.isSome = true ↔ ∃ reply ∈ f.joined, Panicked reply

section FanOut

variable {rule : Rule} {f : FanOut} {e : Engine}

theorem Branch.agrees_start (rule : Rule) (r : Reading) : (Branch.start rule r).Agrees r := by
  unfold start
  split
  · next answer hr => simp [Agrees, Panicked, hr]
  · next error hr => simp [Agrees, Panicked, hr]
  · next p hr => simp [Agrees, Panicked, hr]

theorem Branch.Agrees.advance {r : Reading} {branch : Branch} (h : branch.Agrees r) :
    (e.advance rule r branch).1.Agrees r := by
  cases branch with
  | looking fs out =>
    cases fs with
    | nil => exact h
    | cons x fs =>
      rw [Engine.advance]
      split
      · exact iff_of_false (by simp) h
      · exact h
  | storing out events pushed =>
    cases events with
    | nil => exact iff_of_false (by simp) h
    | cons => exact h
  | ended | joined => exact h

theorem FanOut.honest_start (rule : Rule) (readings : List Reading) : (FanOut.start rule readings).Honest := by
  refine ⟨fun x hx => ?_, ?_⟩
  · obtain ⟨r, -, rfl⟩ := List.mem_map.mp hx
    exact Branch.agrees_start rule r
  · rw [joined_start]
    simp [start, Gathering.empty]

theorem FanOut.Honest.step (h : f.Honest) (i : Nat) :
    (e.step rule f i).1.Honest ∧ (e.step rule f i).1.tasks.map (·.1) = f.tasks.map (·.1) := by
  have hset : ∀ {r : Reading} {branch : Branch}, branch.Agrees r →
      ∀ x ∈ f.tasks.set i (r, branch), x.2.Agrees x.1 := by
    intro r branch hagrees x hx
    rcases List.mem_or_eq_of_mem_set hx with hx | rfl
    · exact h.tasks x hx
    · exact hagrees
  unfold Engine.step
  split
  · exact ⟨h, rfl⟩
  · next r c hi =>
    have hc : (∃ p, c = .panicked p) ↔ Panicked r.reply := h.tasks _ (List.mem_of_getElem? hi)
    refine ⟨⟨hset trivial, ?_⟩, readings_set hi⟩
    have hjoined := joined_set_joined hi rfl (f.gathered.add e rule.id r.datasource c).1
    rw [Gathering.isSome_panic_add, h.gathered, hc]
    simp only [← hjoined.mem_iff, List.mem_append, List.mem_singleton, or_and_right, exists_or, exists_eq_left]
  · next r branch _ hi =>
    have hagrees : branch.Agrees r := h.tasks _ (List.mem_of_getElem? hi)
    refine ⟨⟨hset hagrees.advance, ?_⟩, readings_set hi⟩
    rw [joined_set hi (Branch.isJoined_advance e branch)]
    exact h.gathered

theorem FanOut.Honest.fanOut (h : f.Honest) (order : List Nat) :
    (e.fanOut rule f order).1.Honest ∧ (e.fanOut rule f order).1.tasks.map (·.1) = f.tasks.map (·.1) := by
  induction order generalizing e f with
  | nil => exact ⟨h, rfl⟩
  | cons i order ih =>
    obtain ⟨hstep, hreadings⟩ := h.step i
    obtain ⟨hrest, hreadings'⟩ := ih hstep
    exact ⟨hrest, hreadings'.trans hreadings⟩

/-- **A dispatch of which all tasks were joined ends in a report exactly if no reply panicked**, in every order. -/
theorem Engine.exists_report_fanOut_iff (e : Engine) (rule : Rule) (readings : List Reading) (order : List Nat)
    (hdone : (e.fanOut rule (.start rule readings) order).1.IsDone) :
    (∃ report, (e.fanOut rule (.start rule readings) order).1.gathered.report = .ok report) ↔
      ∀ r ∈ readings, ¬Panicked r.reply := by
  obtain ⟨hhonest, hreadings⟩ : (e.fanOut rule (.start rule readings) order).1.Honest ∧ _ :=
    (FanOut.honest_start rule readings).fanOut order
  rw [Gathering.exists_report_iff, hhonest.gathered, FanOut.joined_of_isDone hdone hreadings]
  simp

end FanOut

/-! ## The bench -/

namespace Bench

theorem panics_iff {r : Reading} : panics r = true ↔ Panicked r.reply := by
  unfold panics
  split
  · next p hp => simp [Panicked, hp]
  · next hp => simpa [Panicked] using hp

section Read

variable (b : Bench) (rule : Rule) (id : String)

theorem read_datasource : (b.read rule id).1.datasource = id ∧ (b.read rule id).1.asked = b.clock := by
  unfold read
  split
  · exact ⟨rfl, rfl⟩
  · dsimp only
    split <;> exact ⟨rfl, rfl⟩

/-- What is read on the bench is what comes of asking a datasource. -/
theorem gives_read : b.sources.Gives rule (b.read rule id).1 := by
  unfold Sources.Gives
  rw [(b.read_datasource rule id).1, (b.read_datasource rule id).2, read]
  cases ha : b.sources.ask rule id b.clock with
  | error failure => rfl
  | ok asked =>
    dsimp only
    split
    · exact .inr ⟨b.timeout, rfl⟩
    · exact .inl rfl

/-- In some round a datasource panics exactly if one of all of them does. -/
theorem panicked_ask (rounds : List (List String)) :
    (∃ x ∈ b.ask rule rounds, Panicked x.1.reply) ↔ ∃ id ∈ rounds.flatten, Panicked (b.read rule id).1.reply := by
  induction rounds with
  | nil => simp [ask]
  | cons round rounds ih =>
    have hround : (∃ x ∈ round.map (b.read rule), Panicked x.1.reply) ↔
        ∃ id ∈ round, Panicked (b.read rule id).1.reply := by
      constructor
      · rintro ⟨x, hx, hp⟩
        obtain ⟨id, hid, rfl⟩ := List.mem_map.mp hx
        exact ⟨id, hid, hp⟩
      · rintro ⟨id, hid, hp⟩
        exact ⟨_, List.mem_map_of_mem hid, hp⟩
    rw [ask]
    split
    · next hany =>
      obtain ⟨x, hx, hp⟩ := List.any_eq_true.mp hany
      have hpanicked : ∃ x ∈ round.map (b.read rule), Panicked x.1.reply :=
        ⟨x, hx, panics_iff.mp (Bool.and_eq_true_iff.mp hp).2⟩
      obtain ⟨id, hid, hp⟩ := hround.mp hpanicked
      exact iff_of_true hpanicked ⟨id, List.mem_append_left _ hid, hp⟩
    · simp only [List.flatten_cons, List.mem_append, or_and_right, exists_or, hround, ih]

end Read

end Bench

/-- **A dispatch in which no client panics ends in a report exactly if no window reaches too far back.** A datasource
that gets to its client panics if the window of the query is a span of time and longer than the time from the first
instant to the present. This holds on the bench, for every rule, and also if every datasource has a clock of its own and
they finish in any order. If the window is longer than any span of time, the datasource fails with the rule's defect. -/
theorem dispatch_reports_iff (b : Bench) (rule : Rule) (hcalm : b.sources.Calm) (hclock : b.clock.inRange = true) :
    ((∃ report, (b.dispatch rule).1 = .ok report) ↔
        ∀ id ∈ rule.datasourceIds, ¬b.sources.Overreaches rule id b.clock) ∧
      (∀ (e : Engine) (readings : List Reading) (order : List Nat),
        (∀ r ∈ readings, r.asked.inRange = true ∧ b.sources.Gives rule r) →
        (e.fanOut rule (.start rule readings) order).1.IsDone →
        ((∃ report, (e.fanOut rule (.start rule readings) order).1.gathered.report = .ok report) ↔
          ∀ r ∈ readings, ¬b.sources.Overreaches rule r.datasource r.asked)) ∧
      ∀ (id : String) (client : Client) (w : Duration), b.sources.clientOf id = .ok client →
        rule.Suits client.data.family → rule.query.window? = some w → Request.longestSpan < w →
        (b.read rule id).1.reply = .error (.error (.invalidRule (.windowTooLong w))) := by
  refine ⟨?_, fun e readings order hreadings hdone => ?_, fun id client w hc hsuits hw hlong => ?_⟩
  · have hread : ∀ id, Panicked (b.read rule id).1.reply ↔ b.sources.Overreaches rule id b.clock := by
      intro id
      obtain ⟨hid, hasked⟩ := b.read_datasource rule id
      have h := (b.gives_read rule id).panicked_iff hcalm (by rw [hasked]; exact hclock)
      rwa [hid, hasked] at h
    have hasked := b.panicked_ask rule (inRounds b.aborted rule.datasourceIds)
    rw [flatten_inRounds] at hasked
    simp only [hread] at hasked
    show (∃ report, (b.engine.dispatch rule _).1 = .ok report) ↔ _
    rw [Engine.exists_report_dispatch_iff]
    simp only [List.mem_mergeSort, List.mem_map, forall_exists_index, and_imp, forall_apply_eq_imp_iff₂]
    simpa only [not_exists, not_and] using not_congr hasked
  · rw [Engine.exists_report_fanOut_iff e rule readings order hdone]
    constructor
    · exact fun h r hr hover =>
        h r hr (((hreadings r hr).2.panicked_iff hcalm (hreadings r hr).1).mpr hover)
    · exact fun h r hr hp =>
        h r hr (((hreadings r hr).2.panicked_iff hcalm (hreadings r hr).1).mp hp)
  · have ha : b.sources.ask rule id b.clock = .error (.error (.invalidRule (.windowTooLong w))) := by
      rw [Sources.ask_of_clientOf hc, Rule.request_of_suits hsuits, Request.ofQuery_of_longestSpan_lt hw hlong]
      rfl
    rw [Bench.read, ha]

/-! ## A log rule -/

/-- A rule on the number of log lines over some minutes. -/
def Rule.overMinutes (n : Nat) : Rule :=
  { errorCount with query := .logs "error" n .minutes .greater (.ofNat 3) .standard }

/-- A client that counts five lines, and the present in 1970. -/
def Bench.fiveLines : Bench :=
  { Bench.initial .standard (.ofSecs 30) with
    sources := .ofList [("ds1", { Source.fresh with client := some ⟨.ofMillis 0, none, none, .count 5⟩ })] }

theorem Bench.calm_fiveLines : Bench.fiveLines.sources.Calm := by
  intro id client h
  by_cases hid : id = "ds1"
  · subst hid
    cases h
    rfl
  · have hnone : Bench.fiveLines.sources.get? id = none := by simp [fiveLines, Table.ofList, Table.get?_insert, hid]
    simp [Sources.clientOf, hnone] at h

/-- **A valid rule can panic the engine.** Two hundred thousand million minutes are a span of time, but more than the
time scale has before 1970. -/
theorem valid_rule_panics :
    (Rule.overMinutes 200000000000).validate = .ok () ∧ Bench.fiveLines.sources.Calm ∧
      Bench.fiveLines.clock.inRange = true ∧
      (Bench.fiveLines.dispatch (.overMinutes 200000000000)).1 =
        .error (.message "`DateTime - TimeDelta` overflowed") := by
  refine ⟨rfl, Bench.calm_fiveLines, rfl, ?_⟩
  have hread : Bench.fiveLines.read (.overMinutes 200000000000) "ds1" =
      (⟨"ds1", .epoch, 0, .error (.panic (.message "`DateTime - TimeDelta` overflowed"))⟩, []) := rfl
  have hasked : Bench.fiveLines.ask (.overMinutes 200000000000) (inRounds 0 ["ds1"]) =
      [Bench.fiveLines.read (.overMinutes 200000000000) "ds1"] := by
    simp [inRounds, turnsPerRound, Bench.ask, hread, Bench.panics]
  show (Bench.fiveLines.engine.dispatch _ (((Bench.fiveLines.ask _ (inRounds 0 ["ds1"])).map (·.1)).mergeSort _)).1 = _
  rw [hasked, hread, List.map_singleton, List.mergeSort_singleton]
  rfl

/-- Five minutes are no window that reaches too far back, and 10 ^ 18 minutes are longer than any span of time. -/
theorem dispatch_reports_iff_fiveLines :
    Bench.fiveLines.sources.Calm ∧ Bench.fiveLines.clock.inRange = true ∧
      (∃ report, (Bench.fiveLines.dispatch (.overMinutes 5)).1 = .ok report) ∧
      (¬∃ report, (Bench.fiveLines.dispatch (.overMinutes 200000000000)).1 = .ok report) ∧
      (Bench.fiveLines.read (.overMinutes 1000000000000000000) "ds1").1.reply =
        .error (.error (.invalidRule (.windowTooLong (.ofSecs 18446744073709551615)))) := by
  have hclock : Bench.fiveLines.clock.inRange = true := rfl
  have hiff := fun n => dispatch_reports_iff .fiveLines (.overMinutes n) Bench.calm_fiveLines hclock
  refine ⟨Bench.calm_fiveLines, hclock, (hiff 5).1.mpr ?_, fun hreport => ?_, ?_⟩
  · rintro id - ⟨-, w, hw, -, hlt⟩
    cases hw
    revert hlt
    decide
  · refine (hiff 200000000000).1.mp hreport "ds1" List.mem_cons_self ⟨⟨_, rfl, rfl, rfl⟩, _, rfl, ?_, ?_⟩ <;> decide
  · exact (hiff 1000000000000000000).2.2 "ds1" _ _ rfl ⟨rfl, rfl⟩ rfl (by decide)

end Alerting
