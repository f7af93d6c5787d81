import Alerting.Proofs.Recovery.Apart
import Mathlib.Data.List.Nodup

/-!
# The report of a pass is exact

A pass comes to an entry for every event that it discards, moves or skips: what stood there, and the verdict. The
report, the writes to the event cache and the records after the pass are all read off these entries (`Accounted`),
whichever calls fail. A job comes to at most one entry, of its own fingerprint (`accounted_doJob`), and so the entries of
a pass have different fingerprints (`accounted_jobs`). That the report says what was written and nothing else (`Exact`)
follows from the entries alone (`Accounted.exact`).
-/

namespace Alerting

/-! ## Entries -/

/-- A move leaves an event where it is. -/
theorem Event.LiesAt.moved {old : Event} {key fingerprint : String} (h : old.LiesAt key fingerprint) (target : Status)
    (time : Instant) : (old.moved target time).LiesAt key fingerprint := h

/-- The state that a verdict moves an event to. -/
def Verdict.target? : Verdict → Option Status
  | .reactivated => some .alerting
  | .pending => some .pendingRecovery
  | .recovered => some .recovered
  | .deleted | .skipped => none

/-- What a pass did about an event. -/
structure PassEntry where
  fingerprint : String
  /-- The event that stood there. -/
  old : Event
  verdict : Verdict

/-- The write that an entry is about. -/
def PassEntry.write? (now : Instant) (x : PassEntry) : Option Write :=
  x.verdict.target?.map fun target => ⟨some x.old, x.old.moved target now⟩

/-- What is left of the event. -/
def PassEntry.left (now : Instant) (x : PassEntry) : Option Event :=
  if x.verdict = .deleted then none
  else some ((x.verdict.target?.map fun target => x.old.moved target now).getD x.old)

/-- An entry leaves nothing exactly if the event is deleted. -/
theorem PassEntry.left_eq_none_iff {now : Instant} {x : PassEntry} : x.left now = none ↔ x.verdict = .deleted := by
  unfold left
  split
  · next h => exact ⟨fun _ => h, fun _ => rfl⟩
  · next h => exact ⟨fun hn => (Option.some_ne_none _ hn).elim, fun hd => absurd hd h⟩

/-- What an entry writes is what it leaves. -/
theorem PassEntry.of_write {now : Instant} {x : PassEntry} {w : Write} (h : x.write? now = some w) :
    ∃ target, x.verdict.target? = some target ∧ w = ⟨some x.old, x.old.moved target now⟩ ∧
      x.left now = some w.event := by
  obtain ⟨target, ht, rfl⟩ := Option.map_eq_some_iff.mp h
  have hne : x.verdict ≠ .deleted := fun hd => by simp [hd, Verdict.target?] at ht
  exact ⟨target, ht, rfl, by rw [left, if_neg hne, ht]; rfl⟩

/-- An event that is neither deleted nor moved is left as it was. -/
theorem PassEntry.left_of_skipped {now : Instant} {x : PassEntry} (h : x.verdict = .skipped) :
    x.left now = some x.old := by
  simp [left, h, Verdict.target?]

/-- A verdict is known by the state that it moves to. -/
theorem Verdict.eq_of_target? {v w : Verdict} {target : Status} (hv : v.target? = some target)
    (hw : w.target? = some target) : v = w := by
  cases v <;> cases w <;> cases hv <;> cases hw <;> rfl

/-- The report with some entries more. -/
def RecoveryReport.enter (r : RecoveryReport) (entries : List PassEntry) : RecoveryReport :=
  entries.foldl (fun r x => r.add x.fingerprint x.verdict) r

theorem RecoveryReport.list_enter (r : RecoveryReport) (entries : List PassEntry) (v : Verdict) :
    (r.enter entries).list v = r.list v ++ (entries.filter (·.verdict = v)).map (·.fingerprint) := by
  induction entries generalizing r with
  | nil => exact (List.append_nil _).symm
  | cons x entries ih =>
    have hadd : (r.add x.fingerprint x.verdict).list v =
        r.list v ++ if x.verdict = v then [x.fingerprint] else [] := by
      cases x.verdict <;> cases v <;> simp [add, list, skip]
    rw [enter, List.foldl_cons, ← enter, ih, hadd, List.append_assoc, List.filter_cons]
    by_cases hv : x.verdict = v <;> simp [hv]

theorem RecoveryReport.mem_list_enter {entries : List PassEntry} {v : Verdict} {k : String} :
    k ∈ (empty.enter entries).list v ↔ ∃ x ∈ entries, x.verdict = v ∧ x.fingerprint = k := by
  have hnil : empty.list v = [] := by cases v <;> rfl
  simp [list_enter, hnil, and_assoc]

namespace Engine

/-- The writes, the latest first. -/
def log (e : Engine) : List Write := e.writes.map (·.2)

theorem log_of_writes {e e' : Engine} (h : e'.writes = e.writes) : e'.log = e.log := by
  rw [log, log, h]

/-! ## Accounts -/

/-- What some work on the rule's events did is told by its entries: the report has them and nothing else, they name the
writes, and every record is left as its entry says, or as it was. -/
structure Accounted (scope : Scope) (now : Instant) (entries : List PassEntry) (s s' : Result RecoveryReport) :
    Prop where
  report : s'.1 = s.1.enter entries
  log : s'.2.log = (entries.filterMap (·.write? now)).reverse ++ s.2.log
  told : ∀ x ∈ entries, s.2.events.find? scope.eventsKey x.fingerprint = some x.old ∧
    s'.2.events.find? scope.eventsKey x.fingerprint = x.left now
  untold : ∀ key k, ¬(key = scope.eventsKey ∧ k ∈ entries.map (·.fingerprint)) →
    s'.2.events.find? key k = s.2.events.find? key k

section Accounted

variable {scope : Scope} {now : Instant} {s s' s'' : Result RecoveryReport} {entries entries' : List PassEntry}

/-- The entries of two pieces of work on different fingerprints are those of both together. -/
theorem Accounted.trans (h : Accounted scope now entries s s') (h' : Accounted scope now entries' s' s'')
    (apart : ∀ k ∈ entries.map (·.fingerprint), k ∉ entries'.map (·.fingerprint)) :
    Accounted scope now (entries ++ entries') s s'' where
  report := by rw [h'.report, h.report, RecoveryReport.enter, RecoveryReport.enter, ← List.foldl_append]; rfl
  log := by rw [h'.log, h.log, List.filterMap_append, List.reverse_append, List.append_assoc]
  told x hx := by
    rcases List.mem_append.mp hx with hx | hx
    · obtain ⟨hold, hleft⟩ := h.told x hx
      have hnot := apart _ (List.mem_map_of_mem hx)
      exact ⟨hold, (h'.untold _ _ fun hin => hnot hin.2).trans hleft⟩
    · obtain ⟨hold, hleft⟩ := h'.told x hx
      have hnot : x.fingerprint ∉ entries.map (·.fingerprint) := fun hin => apart _ hin (List.mem_map_of_mem hx)
      exact ⟨(h.untold _ _ fun hin => hnot hin.2).symm.trans hold, hleft⟩
  untold key k hk := by
    rw [List.map_append, List.mem_append] at hk
    exact (h'.untold key k fun hin => hk ⟨hin.1, .inr hin.2⟩).trans (h.untold key k fun hin => hk ⟨hin.1, .inl hin.2⟩)

section Steps

variable {r : RecoveryReport} {e e' : Engine} {k : String} {old : Event}

/-- Where no event is written, there is nothing to tell. -/
theorem accounted_nil (he : e'.events = e.events) (hw : e'.writes = e.writes) :
    Accounted scope now [] (r, e) (r, e') where
  report := rfl
  log := log_of_writes hw
  told _ hx := nomatch hx
  untold _ _ _ := by rw [he]

/-- What is told of one event. -/
theorem accounted_one {x : PassEntry} {r' : RecoveryReport} (hr : r' = r.add x.fingerprint x.verdict)
    (hw : e'.log = (x.write? now).toList ++ e.log)
    (hold : e.events.find? scope.eventsKey x.fingerprint = some x.old)
    (hleft : e'.events.find? scope.eventsKey x.fingerprint = x.left now)
    (hother : ∀ key k, ¬(key = scope.eventsKey ∧ k = x.fingerprint) → e'.events.find? key k = e.events.find? key k) :
    Accounted scope now [x] (r, e) (r', e') where
  report := hr
  log := by
    rw [hw, List.filterMap_cons]
    cases x.write? now <;> rfl
  told y hy := by
    cases List.mem_singleton.mp hy
    exact ⟨hold, hleft⟩
  untold key k hk := hother key k (by rwa [List.map_singleton, List.mem_singleton] at hk)

theorem accounted_skipped (hold : e.events.find? scope.eventsKey k = some old) (he : e'.events = e.events)
    (hw : e'.writes = e.writes) : Accounted scope now [⟨k, old, .skipped⟩] (r, e) (r.skip k, e') :=
  accounted_one rfl (log_of_writes hw) hold
    (by rw [he, hold, PassEntry.left_of_skipped (x := ⟨k, old, .skipped⟩) rfl]) fun _ _ _ => by rw [he]

theorem accounted_deleted (hold : e.events.find? scope.eventsKey k = some old) {tenant center : String}
    (hkey : Alerting.eventsKey tenant center = scope.eventsKey) (he : e'.events = (e.removed tenant center k).events)
    (hw : e'.writes = e.writes) :
    Accounted scope now [⟨k, old, .deleted⟩] (r, e) (r.add k .deleted, e') := by
  refine accounted_one rfl (log_of_writes hw) hold ?_ fun key k' hk' => ?_
  · rw [he, removed, EventCache.find?_remove, if_pos ⟨hkey.symm, rfl⟩]
    rfl
  · rw [he, removed, EventCache.find?_remove, hkey, if_neg hk']

theorem accounted_moved {v : Verdict} {target : Status} (hv : v.target? = some target)
    (hold : e.events.find? scope.eventsKey k = some old) (hl : old.LiesAt scope.eventsKey k)
    (he : e'.events = (e.stored (old.moved target now)).events)
    (hw : e'.writes = (e.stored (old.moved target now)).writes) :
    Accounted scope now [⟨k, old, v⟩] (r, e) (r.add k v, e') := by
  have hat := hl.moved target now
  have hwrite : PassEntry.write? now ⟨k, old, v⟩ = some ⟨some old, old.moved target now⟩ := by
    simp only [PassEntry.write?, hv, Option.map_some]
  obtain ⟨-, -, -, hleft⟩ := PassEntry.of_write hwrite
  refine accounted_one rfl ?_ hold ?_ fun key k' hk' => ?_
  · rw [log, hw, hwrite, stored, hat.1, hat.2, hold]
    rfl
  · rw [he, find?_stored_self hat, hleft]
  · rw [he, find?_stored_of_ne fun hat' : (old.moved target now).LiesAt key k' =>
      hk' ⟨hat'.1.symm.trans hl.1, hat'.2.symm.trans hl.2⟩]

/-! ### One job -/

variable {config : Config} {pending : Table Instant} {info : Option FaultCenter}

theorem clearPending_same (e : Engine) (scope : Scope) (k : String) :
    (e.clearPending scope k).events = e.events ∧ (e.clearPending scope k).writes = e.writes := by
  unfold clearPending
  rcases e.pendingDelete_cases scope.tenant scope.rule k with ⟨-, hp⟩ | ⟨-, hp⟩ <;> rw [hp] <;> exact ⟨rfl, rfl⟩

theorem accounted_discard (hold : e.events.find? scope.eventsKey k = some old) (hl : old.LiesAt scope.eventsKey k) :
    ∃ v, Accounted scope now [⟨k, old, v⟩] (r, e) (e.discard r k old) := by
  unfold discard
  rcases e.remove_cases old.tenantId old.faultCenterId k with ⟨-, hr⟩ | ⟨-, hr⟩ <;> rw [hr]
  · exact ⟨_, accounted_skipped hold rfl rfl⟩
  · exact ⟨_, accounted_deleted hold hl.1 rfl rfl⟩

theorem accounted_activate (hold : e.events.find? scope.eventsKey k = some old) (hl : old.LiesAt scope.eventsKey k) :
    ∃ v, Accounted scope now [⟨k, old, v⟩] (r, e) (e.activate scope now r k (some old)) := by
  dsimp only [activate]
  cases ht : old.transition .alerting now with
  | error error => exact ⟨_, accounted_skipped hold rfl rfl⟩
  | ok next =>
    obtain ⟨-, rfl⟩ := Event.of_transition_ok ht
    dsimp only
    rcases e.push_cases (old.moved .alerting now) with ⟨-, hp⟩ | ⟨-, hp⟩ <;> rw [hp]
    · exact ⟨_, accounted_skipped hold rfl rfl⟩
    · obtain ⟨he, hw⟩ := clearPending_same (e.counted.stored (old.moved .alerting now)) scope k
      exact ⟨.reactivated, accounted_moved rfl hold hl he hw⟩

theorem accounted_beginPending (hold : e.events.find? scope.eventsKey k = some old)
    (hl : old.LiesAt scope.eventsKey k) :
    ∃ v, Accounted scope now [⟨k, old, v⟩] (r, e) (e.beginPending scope now r old) := by
  obtain rfl : old.fingerprint = k := hl.2
  unfold beginPending
  cases ht : old.transition .pendingRecovery now with
  | error error => exact ⟨_, accounted_skipped hold rfl rfl⟩
  | ok next =>
    obtain ⟨-, rfl⟩ := Event.of_transition_ok ht
    dsimp only
    rcases e.pendingSet_cases scope.tenant scope.rule old.fingerprint now with ⟨-, hs⟩ | ⟨-, hs⟩ <;> rw [hs]
    · exact ⟨_, accounted_skipped hold rfl rfl⟩
    · dsimp only
      rcases (e.counted.missed scope.tenant scope.rule old.fingerprint now).push_cases
        (old.moved .pendingRecovery now) with ⟨-, hp⟩ | ⟨-, hp⟩ <;> rw [hp]
      · exact ⟨_, accounted_skipped hold rfl rfl⟩
      · exact ⟨.pending, accounted_moved rfl hold hl rfl rfl⟩

theorem accounted_completeRecovery (hold : e.events.find? scope.eventsKey k = some old)
    (hl : old.LiesAt scope.eventsKey k) :
    ∃ v, Accounted scope now [⟨k, old, v⟩] (r, e) (e.completeRecovery scope now r old) := by
  obtain rfl : old.fingerprint = k := hl.2
  unfold completeRecovery
  cases ht : old.transition .recovered now with
  | error error => exact ⟨_, accounted_skipped hold rfl rfl⟩
  | ok next =>
    obtain ⟨-, rfl⟩ := Event.of_transition_ok ht
    dsimp only
    rcases e.push_cases (old.moved .recovered now) with ⟨-, hp⟩ | ⟨-, hp⟩ <;> rw [hp]
    · exact ⟨_, accounted_skipped hold rfl rfl⟩
    · obtain ⟨he, hw⟩ := clearPending_same (e.counted.stored (old.moved .recovered now)) scope old.fingerprint
      exact ⟨.recovered, accounted_moved rfl hold hl he hw⟩

/-- **A job comes to at most one entry, of its own fingerprint.** -/
theorem accounted_doJob {job : Job} (hj : e.Fits scope k job) :
    ∃ entries, (entries.map (·.fingerprint)).Sublist [k] ∧
      Accounted scope now entries (r, e) (doJob config scope now pending info (r, e) (k, job)) := by
  have hone : ∀ {s' : Result RecoveryReport} {old : Event},
      (∃ v, Accounted scope now [⟨k, old, v⟩] (r, e) s') → ∃ entries : List PassEntry,
        (entries.map (·.fingerprint)).Sublist [k] ∧ Accounted scope now entries (r, e) s' :=
    fun ⟨_, h⟩ => ⟨_, .refl _, h⟩
  match job with
  | .discard old => exact hone (accounted_discard (hj old rfl).1 (hj old rfl).2)
  | .reactivate (some old) => exact hone (accounted_activate (hj old rfl).1 (hj old rfl).2)
  | .reactivate none =>
    obtain ⟨he, hw⟩ := clearPending_same e scope k
    exact ⟨[], List.nil_sublist _, accounted_nil he hw⟩
  | .settle old =>
    simp only [doJob, settle]
    split
    · exact hone (accounted_beginPending (hj old rfl).1 (hj old rfl).2)
    · split
      · exact hone (accounted_completeRecovery (hj old rfl).1 (hj old rfl).2)
      · exact ⟨[], List.nil_sublist _, accounted_nil rfl rfl⟩

end Steps

/-- **The entries of a pass are of different jobs**, in their order. -/
theorem accounted_jobs {config : Config} {pending : Table Instant} {info : Option FaultCenter}
    {l : List (String × Job)} (hl : l.Pairwise (·.1 ≠ ·.1)) (hj : ∀ x ∈ l, s.2.Fits scope x.1 x.2) :
    ∃ entries, (entries.map (·.fingerprint)).Sublist (l.map (·.1)) ∧
      Accounted scope now entries s (l.foldl (doJob config scope now pending info) s) := by
  induction hl generalizing s with
  | nil => exact ⟨[], .slnil, accounted_nil rfl rfl⟩
  | @cons x l hx _ ih =>
    obtain ⟨entries, hsub, h⟩ : ∃ entries, (entries.map (·.fingerprint)).Sublist [x.1] ∧
        Accounted scope now entries s (doJob config scope now pending info s x) :=
      accounted_doJob (hj x List.mem_cons_self)
    -- The other jobs still fit, since the first one wrote at most at its own fingerprint.
    have hrest : ∀ y ∈ l, (doJob config scope now pending info s x).2.Fits scope y.1 y.2 := by
      intro y hy event hev
      obtain ⟨hfind, hat⟩ := hj y (List.mem_cons_of_mem _ hy) event hev
      refine ⟨(h.untold _ _ fun hin => hx y hy ?_).trans hfind, hat⟩
      exact (List.mem_singleton.mp (hsub.subset hin.2)).symm
    obtain ⟨entries', hsub', h'⟩ := ih hrest
    refine ⟨entries ++ entries', ?_, h.trans h' fun k hk hk' => ?_⟩
    · rw [List.map_append]
      exact hsub.append hsub'
    · obtain rfl : k = x.1 := List.mem_singleton.mp (hsub.subset hk)
      obtain ⟨y, hy, hxy⟩ := List.mem_map.mp (hsub'.subset hk')
      exact hx y hy hxy.symm

end Accounted

/-! ## The pass -/

section Pass

variable (config : Config) (scope : Scope) (current suppressed : List String) (now : Instant) {e : Engine}

/-- **A pass over what was read is told by entries of its jobs**, whichever calls fail. -/
theorem accounted_reconcileRead (hc : e.Coherent) (info : Option FaultCenter) :
    let all := e.events.all scope.eventsKey
    let pending := e.pending.list scope.tenant scope.rule
    ∃ entries, (entries.map (·.fingerprint)).Sublist ((jobs scope current suppressed all pending).map (·.1)) ∧
      Accounted scope now entries (.empty, e)
        (e.reconcileRead config scope current suppressed now all pending info) := by
  intro all pending
  rw [reconcileRead_eq_jobs]
  refine accounted_jobs (pairwise_jobs ..) ?_
  rintro ⟨k, job⟩ hx
  exact fits_of_gives scope hc (gives_of_mem_jobs scope current suppressed hx)

/-- A pass whose reads succeed is told by entries of different fingerprints. -/
theorem accounted_reconcile (hc : e.Coherent) (hr : e.readError scope = none) :
    ∃ r e' entries, e.reconcile config scope current suppressed now = (.ok r, e') ∧
      (entries.map (·.fingerprint)).Nodup ∧ Accounted scope now entries (.empty, e) (r, e') := by
  cases hkeys : scope.eventsKey.isEmpty || scope.infoKey.isEmpty with
  | true => exact ⟨_, _, [], reconcile_of_emptyKey config scope current suppressed now hkeys, .nil,
      accounted_nil rfl rfl⟩
  | false =>
    obtain ⟨hk, hi⟩ := Bool.or_eq_false_iff.mp hkeys
    obtain ⟨entries, hsub, h⟩ := accounted_reconcileRead config scope
      (current.filter fun fingerprint => !fingerprint.isEmpty) suppressed now (e := e.counted.counted.counted) hc
      (e.infos.get? scope.infoKey)
    exact ⟨_, _, entries, reconcile_of_reads config scope current suppressed now hk hi hr,
      hsub.nodup (List.pairwise_map.mpr (pairwise_jobs ..)), h.report, h.log, h.told, h.untold⟩

end Pass

end Engine

/-! ## Exactness -/

/-- A report says exactly what was done to the events under a key: no fingerprint is listed twice, the deleted ones are
those whose record is gone, the ones moved to a state are those whose record was rewritten in that state, and every
other record is as it was. -/
structure RecoveryReport.Exact (r : RecoveryReport) (key : String) (new : List Write) (e e' : Engine) : Prop where
  nodup : ∀ v, (r.list v).Nodup
  disjoint : ∀ v w, v ≠ w → (r.list v).Disjoint (r.list w)
  log : e'.log = new ++ e.log
  deleted : ∀ k, k ∈ r.deleted ↔ (e.events.find? key k).isSome = true ∧ e'.events.find? key k = none
  moved : ∀ v target, v.target? = some target → ∀ k,
    k ∈ r.list v ↔ ∃ w ∈ new, w.event.LiesAt key k ∧ w.event.status = target
  written : ∀ w ∈ new, ∃ k v, k ∈ r.list v ∧ w.event.LiesAt key k ∧ w.replaced.isSome = true ∧
    w.replaced = e.events.find? key k ∧ e'.events.find? key k = some w.event
  untouched : ∀ k, (∀ v, k ∈ r.list v → v = .skipped) → e'.events.find? key k = e.events.find? key k
  elsewhere : ∀ key' k, key' ≠ key → e'.events.find? key' k = e.events.find? key' k

section Exact

variable {scope : Scope} {now : Instant} {entries : List PassEntry} {r : RecoveryReport} {e e' : Engine}

/-- **What is told by entries of different fingerprints is reported exactly.** -/
theorem Engine.Accounted.exact (h : Engine.Accounted scope now entries (.empty, e) (r, e')) (hc : e.Coherent)
    (hn : (entries.map (·.fingerprint)).Nodup) :
    r.Exact scope.eventsKey (entries.filterMap (·.write? now)).reverse e e' := by
  obtain rfl : r = RecoveryReport.empty.enter entries := h.report
  have hsame : ∀ {x y : PassEntry}, x ∈ entries → y ∈ entries → x.fingerprint = y.fingerprint → x = y :=
    fun hx hy hxy => List.inj_on_of_nodup_map hn hx hy hxy
  have hwritten : ∀ {w}, w ∈ (entries.filterMap (·.write? now)).reverse ↔ ∃ x ∈ entries, x.write? now = some w := by
    simp [List.mem_filterMap]
  have hlies : ∀ {x : PassEntry}, x ∈ entries → x.old.LiesAt scope.eventsKey x.fingerprint :=
    fun hx => hc _ _ _ (h.told _ hx).1
  constructor
  case nodup =>
    intro v
    have hnil : RecoveryReport.empty.list v = [] := by cases v <;> rfl
    rw [RecoveryReport.list_enter, hnil, List.nil_append]
    exact (List.filter_sublist.map _).nodup hn
  case disjoint =>
    intro v w hvw k hv hw
    obtain ⟨x, hx, rfl, rfl⟩ := RecoveryReport.mem_list_enter.mp hv
    obtain ⟨y, hy, rfl, hxy⟩ := RecoveryReport.mem_list_enter.mp hw
    exact hvw (congrArg PassEntry.verdict (hsame hx hy hxy.symm))
  case log => exact h.log
  case deleted =>
    intro k
    constructor
    · intro hk
      obtain ⟨x, hx, hv, rfl⟩ := RecoveryReport.mem_list_enter (v := .deleted).mp hk
      obtain ⟨hold, hleft⟩ := h.told x hx
      exact ⟨by rw [show e.events.find? scope.eventsKey x.fingerprint = some x.old from hold]; rfl,
        hleft.trans (PassEntry.left_eq_none_iff.mpr hv)⟩
    · rintro ⟨hsome, hnone⟩
      by_cases hk : k ∈ entries.map (·.fingerprint)
      · obtain ⟨x, hx, rfl⟩ := List.mem_map.mp hk
        have hv : x.verdict = .deleted := PassEntry.left_eq_none_iff.mp ((h.told x hx).2.symm.trans hnone)
        exact RecoveryReport.mem_list_enter (v := .deleted).mpr ⟨x, hx, hv, rfl⟩
      · have hkeep : e'.events.find? scope.eventsKey k = e.events.find? scope.eventsKey k :=
          h.untold _ _ fun hin => hk hin.2
        rw [← hkeep, hnone] at hsome
        cases hsome
  case moved =>
    intro v target hv k
    rw [RecoveryReport.mem_list_enter]
    constructor
    · rintro ⟨x, hx, rfl, rfl⟩
      have hwx : x.write? now = some ⟨some x.old, x.old.moved target now⟩ := by
        rw [PassEntry.write?, hv, Option.map_some]
      exact ⟨_, hwritten.mpr ⟨x, hx, hwx⟩, (hlies hx).moved target now, rfl⟩
    · rintro ⟨w, hw, hat, hs⟩
      obtain ⟨x, hx, hwx⟩ := hwritten.mp hw
      obtain ⟨target', ht', rfl, -⟩ := PassEntry.of_write hwx
      obtain rfl : target' = target := hs
      exact ⟨x, hx, Verdict.eq_of_target? ht' hv, ((hlies hx).moved target' now).2.symm.trans hat.2⟩
  case written =>
    intro w hw
    obtain ⟨x, hx, hwx⟩ := hwritten.mp hw
    obtain ⟨target, -, rfl, hleft⟩ := PassEntry.of_write hwx
    obtain ⟨hold, hafter⟩ := h.told x hx
    exact ⟨x.fingerprint, x.verdict, RecoveryReport.mem_list_enter.mpr ⟨x, hx, rfl, rfl⟩, (hlies hx).moved _ now, rfl,
      hold.symm, hafter.trans hleft⟩
  case untouched =>
    intro k hk
    by_cases hin : k ∈ entries.map (·.fingerprint)
    · obtain ⟨x, hx, rfl⟩ := List.mem_map.mp hin
      have hv := hk x.verdict (RecoveryReport.mem_list_enter.mpr ⟨x, hx, rfl, rfl⟩)
      obtain ⟨hold, hleft⟩ := h.told x hx
      exact (hleft.trans (PassEntry.left_of_skipped hv)).trans hold.symm
    · exact h.untold _ _ fun hk => hin hk.2
  case elsewhere => exact fun key' k hkey => h.untold key' k fun hin => hkey hin.1

end Exact

/-- **The report of a pass is exact.** If the reads succeed, a pass ends in a report that says exactly what was written,
whichever writes fail. -/
theorem report_is_exact (config : Config) (scope : Scope) (current suppressed : List String) (now : Instant)
    (e : Engine) (hc : e.Coherent) (hr : e.readError scope = none) :
    ∃ r e' new, e.reconcile config scope current suppressed now = (.ok r, e') ∧ r.Exact scope.eventsKey new e e' := by
  obtain ⟨r, e', entries, hpass, hn, h⟩ := Engine.accounted_reconcile config scope current suppressed now hc hr
  exact ⟨r, e', _, hpass, h.exact hc hn⟩

/-- An alert goes missing while the new state of its neighbour is not stored: the one is listed as pending, the other as
skipped, and its record is as it was. -/
theorem report_is_exact_withNeighbour :
    let scope := Rule.errorCount.scope
    let e := (Engine.active.withNeighbour "neighbour").withFaults fun _ c => c == .push "neighbour"
    ∃ e' new, e.reconcile .standard scope [] [] (Instant.epoch.after (.ofSecs 60)) =
        (.ok ⟨[], [], [Fingerprint.ofRule "r1"], [], ["neighbour"]⟩, e') ∧
      RecoveryReport.Exact ⟨[], [], [Fingerprint.ofRule "r1"], [], ["neighbour"]⟩ scope.eventsKey new e e' := by
  intro scope e
  obtain ⟨-, -, -, hrun⟩ := Engine.run_withNeighbour
  obtain ⟨r, e', new, hpass, hexact⟩ := report_is_exact .standard scope [] [] (Instant.epoch.after (.ofSecs 60)) e
    ((Engine.coherent_active.withNeighbour "neighbour").withFaults _) rfl
  have hr : some r = some ⟨[], [], [Fingerprint.ofRule "r1"], [], ["neighbour"]⟩ := by
    rw [← hrun]
    exact (congrArg (fun s => s.1.toOption) hpass).symm
  cases hr
  exact ⟨e', new, hpass, hexact⟩

end Alerting
