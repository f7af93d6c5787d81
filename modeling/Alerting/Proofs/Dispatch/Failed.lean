import Alerting.Proofs.Dispatch.Attempts

/-!
# Datasources that fail

A datasource that ends in an error, at whatever point of its evaluation, has not tried to store anything. So the dispatch
without it, with the same beats of the others, comes to the same stored events, and to the same report but for the number
of failed datasources (`FanOut.Lacks.play`). Every dispatch is played by some beats, so this holds of every dispatch
(`failed_writes_nothing`).
-/

namespace Alerting

/-! ## Beats of the others -/

namespace Beat

/-- The place that a task has in the dispatch without the task at `i`. -/
def placeWithout (i place : Nat) : Nat := if i < place then place - 1 else place

/-- The same beat for the task at another place. -/
def moved (place : Nat) : Beat → Beat
  | goes _ fails id => goes place fails id
  | timesOut _ seconds => timesOut place seconds

/-- The beats of the other tasks, in the dispatch without the task at `i`. -/
def without (i : Nat) : List Beat → List Beat
  | [] => []
  | b :: bs => if b.place = i then without i bs else b.moved (placeWithout i b.place) :: without i bs

section Places

variable {α : Type} {i place : Nat} (h : place ≠ i) (l : List α)
include h

theorem getElem?_placeWithout : (l.eraseIdx i)[placeWithout i place]? = l[place]? := by
  rw [placeWithout, List.getElem?_eraseIdx]
  split
  · rw [if_neg (by omega), Nat.sub_add_cancel (by omega)]
  · rw [if_pos (by omega)]

theorem set_placeWithout (a : α) : (l.set place a).eraseIdx i = (l.eraseIdx i).set (placeWithout i place) a := by
  rw [placeWithout]
  split
  · next hlt => exact List.eraseIdx_set_lt hlt
  · exact List.eraseIdx_set_gt (by omega)

end Places

end Beat

/-! ## The dispatch without a datasource -/

/-- What was gathered without some datasources, of which so many have failed and the others have not ended. -/
structure Gathering.Lacks (n : Nat) (g g' : Gathering) : Prop where
  same : g' = { g with failed := g'.failed }
  failed : g.panic = none → g.failed = g'.failed + n

namespace Gathering.Lacks

variable {n : Nat} {g g' : Gathering}

theorem panic (h : g.Lacks n g') : g'.panic = g.panic := by rw [h.same]

theorem taking (h : g.Lacks n g') (c : Completion) : (g.taking c).Lacks n (g'.taking c) := by
  cases hp : g.panic with
  | some p => rwa [taking_of_panic hp, taking_of_panic (h.panic.trans hp)]
  | none =>
    have hfailed := h.failed hp
    have hsame : g'.plus c = { g.plus c with failed := (g'.plus c).failed } := by
      rw [h.same]
      cases c <;> rfl
    rw [taking_of_none hp, taking_of_none (h.panic.trans hp)]
    refine ⟨hsame, fun _ => ?_⟩
    cases c with
    | answered | panicked => exact hfailed
    | failed =>
      show g.failed + 1 = g'.failed + 1 + n
      omega

/-- A failed datasource is only counted. -/
theorem taking_failed (h : g.Lacks n g') (error : EngineError) : (g.taking (.failed error)).Lacks (n + 1) g' := by
  cases hp : g.panic with
  | some p =>
    rw [taking_of_panic hp]
    exact ⟨h.same, fun hn => by rw [hp] at hn; cases hn⟩
  | none =>
    rw [taking_of_none hp]
    exact ⟨h.same, fun _ => congrArg (· + 1) (h.failed hp)⟩

theorem report (h : g.Lacks n g') : g.report = g'.report.map fun r => { r with failed := r.failed + n } := by
  cases hp : g.panic with
  | some p =>
    simp only [Gathering.report, hp, h.panic.trans hp]
    rfl
  | none =>
    simp only [Gathering.report, hp, h.panic.trans hp, h.failed hp, Except.map]
    rw [h.same]

end Gathering.Lacks

/-- A dispatch and the one without the datasource at `i`, the task of which has come so far. -/
structure FanOut.Lacks (i : Nat) (branch : Branch) (f f' : FanOut) : Prop where
  task : ∃ r, f.tasks[i]? = some (r, branch)
  tasks : f'.tasks = f.tasks.eraseIdx i
  gathered : f.gathered.Lacks (if branch.isJoined then 1 else 0) f'.gathered

/-- A task that looks up records, that has failed, or that was joined. -/
def Branch.Clean : Branch → Prop
  | looking .. => True
  | ended (.failed _) => True
  | joined => True
  | _ => False

section Lacks

variable {rule : Rule} {i : Nat} {branch : Branch} {e e' : Engine} {f f' : FanOut}

theorem FanOut.Lacks.set (h : f.Lacks i branch f') {place : Nat} (hp : place ≠ i) (x : Reading × Branch)
    {g g' : Gathering} (hg : g.Lacks (if branch.isJoined then 1 else 0) g') :
    FanOut.Lacks i branch ⟨f.tasks.set place x, g⟩ ⟨f'.tasks.set (Beat.placeWithout i place) x, g'⟩ := by
  obtain ⟨r, hi⟩ := h.task
  refine ⟨⟨r, (List.getElem?_set_ne hp).trans hi⟩, ?_, hg⟩
  rw [h.tasks]
  exact (Beat.set_placeWithout hp f.tasks x).symm

variable (rule) in
/-- A beat of another task does the same in both. -/
theorem FanOut.Lacks.beat_of_ne (h : f.Lacks i branch f') (he : e.events = e'.events) {b : Beat} (hb : b.place ≠ i) :
    (e.beat rule f b).1.Lacks i branch (e'.beat rule f' (b.moved (Beat.placeWithout i b.place))).1 ∧
      (e.beat rule f b).2.events = (e'.beat rule f' (b.moved (Beat.placeWithout i b.place))).2.events := by
  have hplace : f'.tasks[Beat.placeWithout i b.place]? = f.tasks[b.place]? := by
    rw [h.tasks, Beat.getElem?_placeWithout hb]
  cases b with
  | goes place fails id =>
    have hsame := Engine.under_sameNext he fails id
    simp only [Beat.place] at hb hplace
    simp only [Engine.beat, Beat.moved, Beat.place]
    cases hi : f.tasks[place]? with
    | none =>
      rw [hi] at hplace
      simp only [Engine.step, hi, hplace]
      exact ⟨h, he⟩
    | some x =>
      obtain ⟨r, branch₀⟩ := x
      rw [hi] at hplace
      by_cases hs : ∃ c, branch₀ = .ended c
      · obtain ⟨c, rfl⟩ := hs
        obtain ⟨hf, hev⟩ := Engine.step_of_ended rule (e := e.under fails id) hi
        obtain ⟨hf', hev'⟩ := Engine.step_of_ended rule (e := e'.under fails id) hplace
        rw [hf, hf']
        exact ⟨h.set hb _ (h.gathered.taking c), hev.trans (he.trans hev'.symm)⟩
      · have hs : ∀ c, branch₀ ≠ .ended c := fun c hc => hs ⟨c, hc⟩
        obtain ⟨hbranch, hev⟩ := hsame.advance rule r branch₀
        rw [Engine.step_of_getElem? rule hi hs, Engine.step_of_getElem? rule hplace hs, hbranch]
        exact ⟨h.set hb _ h.gathered, hev⟩
  | timesOut place seconds =>
    simp only [Beat.place] at hb hplace
    simp only [Engine.beat, Beat.moved, Beat.place, hplace]
    cases hi : f.tasks[place]? with
    | none => exact ⟨h, he⟩
    | some x =>
      obtain ⟨r, branch₀⟩ := x
      cases branch₀ with
      | looking => exact ⟨h.set hb _ h.gathered, he⟩
      | storing | ended | joined => exact ⟨h, he⟩

variable (rule) in
/-- A beat of the task that is lacking is none in the dispatch without it, unless the task has all its events. -/
theorem FanOut.Lacks.beat_self (h : f.Lacks i branch f') (hclean : branch.Clean) (e : Engine) {b : Beat}
    (hb : b.place = i) : ∃ branch', (e.beat rule f b).1.Lacks i branch' f' ∧
      (e.beat rule f b).2.events = e.events ∧ (branch'.Clean ∨ branch'.Committed ∧ branch'.isJoined = false) := by
  obtain ⟨r, hi⟩ := h.task
  have hset : ∀ x : Reading × Branch, (f.tasks.set b.place x)[i]? = some x ∧
      f'.tasks = (f.tasks.set b.place x).eraseIdx i := fun x => by
    rw [hb, List.eraseIdx_set_eq]
    exact ⟨List.getElem?_set_self (List.getElem?_eq_some_iff.mp hi).1, h.tasks⟩
  have hbranch : ∀ {r' branch₀}, f.tasks[b.place]? = some (r', branch₀) → branch₀ = branch := fun hi' => by
    rw [hb, hi] at hi'
    exact (Prod.mk.inj (Option.some.inj hi')).2.symm
  rcases e.beat_cases rule f b with ⟨hf, hev, -⟩ | ⟨r', branch₀, push, branch', hi', ht, hf, hattempt, hev⟩ |
    ⟨r', c, hi', hf, hev, -⟩
  · rw [hf]
    exact ⟨branch, h, hev, .inl hclean⟩
  · obtain rfl := hbranch hi'
    rw [hf, hev, hattempt]
    refine ⟨branch', ⟨⟨r', (hset _).1⟩, (hset _).2, ?_⟩, ?_⟩
    all_goals cases ht with
      | looked | failed | ready => ?_
      | pushed | finished => exact hclean.elim
    · exact h.gathered
    · exact h.gathered
    · exact h.gathered
    · exact ⟨rfl, .inl trivial⟩
    · exact ⟨rfl, .inl trivial⟩
    · exact ⟨rfl, .inr ⟨trivial, rfl⟩⟩
  · obtain rfl := hbranch hi'
    rw [hf]
    cases c with
    | answered | panicked => exact hclean.elim
    | failed error =>
      exact ⟨.joined, ⟨⟨r', (hset _).1⟩, (hset _).2, h.gathered.taking_failed error⟩, hev, .inl trivial⟩

/-- **The dispatch without a datasource that fails comes to the same**, but for the number of failed datasources. -/
theorem FanOut.Lacks.play {bs : List Beat} {error : EngineError} (h : f.Lacks i branch f')
    (he : e.events = e'.events) (hclean : branch.Clean)
    (hfails : branch.isJoined = true ∨ e.Ends rule f bs i (.failed error)) : ∃ branch',
      (e.play rule f bs).1.Lacks i branch' (e'.play rule f' (Beat.without i bs)).1 ∧
        (e.play rule f bs).2.events = (e'.play rule f' (Beat.without i bs)).2.events := by
  induction bs generalizing e e' f f' branch with
  | nil => exact ⟨branch, h, he⟩
  | cons b bs ih =>
    obtain ⟨r, hi⟩ := h.task
    -- It was joined, or it still has to fail.
    have hnext : ∀ {r' branch'}, (e.beat rule f b).1.tasks[i]? = some (r', branch') →
        branch'.isJoined = true ∨ (e.beat rule f b).2.Ends rule (e.beat rule f b).1 bs i (.failed error) := by
      intro r' branch' hi'
      obtain ⟨branch'', hi'', hcases⟩ := e.task_beat rule hi b
      obtain ⟨rfl, rfl⟩ := Prod.mk.inj (Option.some.inj (hi'.symm.trans hi''))
      rcases hcases with ⟨rfl, -⟩ | ⟨push, ht, -⟩ | ⟨c, -, rfl, -⟩
      · refine hfails.imp_right fun hends => ?_
        rcases Engine.ends_cons hends with ⟨r₀, hended⟩ | hends
        · obtain ⟨-, rfl⟩ := Prod.mk.inj (Option.some.inj (hi.symm.trans hended))
          exact ⟨[], bs, rfl, r', hi'⟩
        · exact hends
      · refine .inr ((Engine.ends_cons (hfails.resolve_left fun hj => ?_)).resolve_left ?_)
        · cases ht <;> cases hj
        · rintro ⟨r₀, hended⟩
          obtain ⟨-, rfl⟩ := Prod.mk.inj (Option.some.inj (hi.symm.trans hended))
          cases ht
      · exact .inl rfl
    rw [Engine.play, Beat.without]
    by_cases hb : b.place = i
    · rw [if_pos hb]
      obtain ⟨branch', hlacks, hev, hclean'⟩ := h.beat_self rule hclean e hb
      obtain ⟨r', hi'⟩ := hlacks.task
      refine ih hlacks (hev.trans he) (hclean'.resolve_right fun hready => ?_) (hnext hi')
      obtain ⟨hc, hj⟩ := hready
      rcases hnext hi' with hj' | hends
      · rw [hj] at hj'
        cases hj'
      · exact hends.not_committed hi' hc
    · rw [if_neg hb, Engine.play]
      obtain ⟨hlacks, hev⟩ := h.beat_of_ne rule he hb
      obtain ⟨r', hi'⟩ := hlacks.task
      exact ih hlacks hev hclean (hnext hi')

end Lacks

theorem eraseIdx_map {α β : Type} (g : α → β) (l : List α) (i : Nat) :
    (l.map g).eraseIdx i = (l.eraseIdx i).map g := by
  induction l generalizing i with
  | nil => rfl
  | cons a l ih =>
    cases i with
    | zero => rfl
    | succ i => exact congrArg (g a :: ·) (ih i)

/-! ## Dispatches -/

section Dispatch

variable {rule : Rule} {readings : List Reading} {e : Engine} {bs : List Beat} {i : Nat}

/-- What a task of a dispatch comes to when it ends, and what it has tried to store in the whole dispatch. -/
theorem Engine.Ends.accounts {c : Completion} (h : e.Ends rule (.start rule readings) bs i c) :
    ∃ r, readings[i]? = some r ∧ (Branch.ended c).Accounts rule r.reply
      ((e.attempts rule (.start rule readings) bs).filter (·.place = i)) := by
  obtain ⟨before, after, rfl, r, hi⟩ := h
  have hlater : (attempts rule (e.play rule (.start rule readings) before).2
      (e.play rule (.start rule readings) before).1 after).filter (·.place = i) = [] :=
    List.filter_eq_nil_iff.mpr fun a ha => by simpa using place_ne_of_settled hi trivial after a ha
  have haccount := ((FanOut.accounted_start rule readings).play e before).tasks i r _ hi
  rw [List.nil_append] at haccount
  rw [attempts_append, List.filter_append, hlater, List.append_nil]
  refine ⟨r, ?_, haccount⟩
  have hreadings := (e.readings_play rule (.start rule readings) before).trans
    (FanOut.readings_start rule readings)
  rw [← hreadings, List.getElem?_map, hi]
  rfl

/-- A dispatch that has just begun, and the one without a datasource that is going to fail. -/
theorem Engine.Ends.lacks_start {error : EngineError} (h : e.Ends rule (.start rule readings) bs i (.failed error)) :
    ∃ branch : Branch, branch.Clean ∧ (FanOut.start rule readings).Lacks i branch (.start rule (readings.eraseIdx i)) := by
  obtain ⟨r, hr, -⟩ := h.accounts
  have hi : (FanOut.start rule readings).tasks[i]? = some (r, .start rule r) := by simp [FanOut.start, hr]
  refine ⟨.start rule r, ?_, ⟨r, hi⟩, (eraseIdx_map _ _ _).symm, ?_⟩
  · have hnot := h.not_committed hi
    unfold Branch.start at hnot ⊢
    generalize r.reply = reply at hnot ⊢
    rcases reply with (error | p) | answer
    · trivial
    · exact absurd trivial hnot
    · trivial
  · rw [Branch.isJoined_start]
    exact ⟨rfl, fun _ => rfl⟩

/-- **When a datasource fails, the dispatch without it comes to the same**, but for the number of failed ones. -/
theorem Engine.Ends.others {error : EngineError} (h : e.Ends rule (.start rule readings) bs i (.failed error)) :
    let run := e.play rule (.start rule readings) bs
    let others := e.play rule (.start rule (readings.eraseIdx i)) (Beat.without i bs)
    others.2.events = run.2.events ∧ (run.1.IsDone → others.1.IsDone ∧
      run.1.gathered.report = others.1.gathered.report.map fun r => { r with failed := r.failed + 1 }) := by
  intro run others
  obtain ⟨branch, hclean, hstart⟩ := h.lacks_start
  obtain ⟨branch', hlacks, hevents⟩ := hstart.play (rfl : e.events = e.events) hclean (.inr h)
  refine ⟨hevents.symm, fun hdone => ⟨fun x hx => ?_, ?_⟩⟩
  · rw [hlacks.tasks] at hx
    exact hdone x ((List.eraseIdx_sublist _ _).subset hx)
  · obtain ⟨r, hi⟩ := hlacks.task
    have hjoined : branch'.isJoined = true := hdone _ (List.mem_of_getElem? hi)
    have hreport := hlacks.gathered.report
    rw [hjoined] at hreport
    exact hreport

/-- The report of a dispatch counts exactly the events that were stored. -/
theorem Engine.pushed_play (e : Engine) (rule : Rule) (readings : List Reading) (bs : List Beat)
    (hdone : (e.play rule (.start rule readings) bs).1.IsDone) {report : Report}
    (hreport : (e.play rule (.start rule readings) bs).1.gathered.report = .ok report) :
    report.pushed = (e.attempts rule (.start rule readings) bs).countP (·.stored) := by
  have haccount := (FanOut.accounted_start rule readings).play e bs
  rw [List.nil_append] at haccount
  have hzero : ((e.play rule (.start rule readings) bs).1.tasks.map (·.2.uncounted)).sum = 0 := by
    refine List.sum_eq_zero_iff_forall_eq_nat.mpr fun n hn => ?_
    obtain ⟨x, hx, rfl⟩ := List.mem_map.mp hn
    have hjoined := hdone x hx
    cases hb : x.2 with
    | joined => rfl
    | looking | storing | ended => rw [hb] at hjoined; cases hjoined
  unfold Gathering.report at hreport
  split at hreport
  · cases hreport
  · next hpanic =>
    have hcount := haccount.pushed hpanic
    rw [hzero] at hcount
    rw [← Except.ok.inj hreport]
    exact hcount

end Dispatch

/-- **A failed datasource writes nothing.** Every dispatch is played by some beats, whether its datasources get on one
after the other or side by side. Whatever the beats are, the stored events are what the attempts that succeed leave, and
the report counts these. A datasource that ends in an error, after any number of look-ups or because its time was up, has
tried to store nothing, and the dispatch without it, with the same beats of the others, comes to the same stored events
and the same report, but for the number of failed datasources. One that is answered has tried to store each event of its
outcome once, in order, and its fingerprints are those that the rule finds, whichever stores fail. -/
theorem failed_writes_nothing (rule : Rule) (readings : List Reading) (e : Engine) :
    let start := FanOut.start rule readings
    ((∃ bs, (e.play rule start bs).1.gathered.report = (e.dispatch rule readings).1 ∧
        (e.play rule start bs).2.events = (e.dispatch rule readings).2.events ∧
        ((e.dispatch rule readings).1.isOk = true → (e.play rule start bs).1.IsDone)) ∧
      ∀ order, ∃ bs, bs.map Beat.place = order ∧ (e.play rule start bs).1 = (e.fanOut rule start order).1 ∧
        (e.play rule start bs).2.events = (e.fanOut rule start order).2.events) ∧
    ∀ bs,
      let run := e.play rule start bs
      let tried := e.attempts rule start bs
      (run.2.events = tried.foldl EventCache.after e.events ∧
        (run.1.IsDone → ∀ report, run.1.gathered.report = .ok report → report.pushed = tried.countP (·.stored))) ∧
      (∀ i error, e.Ends rule start bs i (.failed error) → (∀ a ∈ tried, a.place ≠ i) ∧
        let others := e.play rule (.start rule (readings.eraseIdx i)) (Beat.without i bs)
        others.2.events = run.2.events ∧ (run.1.IsDone → others.1.IsDone ∧
          run.1.gathered.report = others.1.gathered.report.map fun r => { r with failed := r.failed + 1 })) ∧
      ∀ i out pushed, e.Ends rule start bs i (.answered out pushed) →
        (tried.filter (·.place = i)).map (·.event) = out.events ∧
          pushed = (tried.filter (·.place = i)).countP (·.stored) ∧ ∃ r, readings[i]? = some r ∧ out.IsOf rule r.reply := by
  intro start
  refine ⟨⟨e.exists_beats_dispatch rule readings, fun order => e.exists_beats_fanOut rule order start⟩, fun bs => ?_⟩
  refine ⟨⟨Engine.events_play bs, fun hdone report hreport => e.pushed_play rule readings bs hdone hreport⟩,
    fun i error h => ⟨fun a ha hplace => ?_, h.others⟩, fun i out pushed h => ?_⟩
  · obtain ⟨r, -, hnone⟩ := h.accounts
    have hmem : a ∈ (e.attempts rule start bs).filter (·.place = i) := List.mem_filter.mpr ⟨ha, decide_eq_true hplace⟩
    rw [hnone] at hmem
    cases hmem
  · obtain ⟨r, hr, hevents, hpushed, hof⟩ := h.accounts
    exact ⟨hevents, hpushed, r, hr, hof⟩

/-! ## A look-up that fails -/

deriving instance DecidableEq for Branch

/-- A rule on the slow traces of two datasources. -/
def Rule.slowTraces : Rule :=
  { twoSources with
    datasourceKind := .jaeger
    query := .traces "api" "duration > 1s" 300 .standard }

/-- The first datasource has two traces, and the second one has one. -/
def Reading.threeTraces : List Reading :=
  let trace (id : String) : TraceRecord := ⟨id, "api", "GET /", 1500, .epoch, ""⟩
  [⟨"ds1", .epoch, 0, .ok (.traces [trace "a", trace "b"])⟩, ⟨"ds2", .epoch, 0, .ok (.traces [trace "c"])⟩]

/-- The second look-up of the first datasource fails, while the second datasource looks up and stores its trace. -/
def Beat.secondLookUpFails : List Beat :=
  let up (place id : Nat) := goes place (fun _ => false) id
  [up 0 0, up 1 1, goes 0 (fun _ => true) 2, up 1 2, up 0 2, up 1 2, up 1 2, up 1 2]

theorem failed_writes_nothing_traces :
    let start := FanOut.start .slowTraces Reading.threeTraces
    let run := Engine.active.play .slowTraces start Beat.secondLookUpFails
    let tried := Engine.active.attempts .slowTraces start Beat.secondLookUpFails
    let others := Engine.active.play .slowTraces (.start .slowTraces (Reading.threeTraces.eraseIdx 0))
      (Beat.without 0 Beat.secondLookUpFails)
    Engine.active.Ends .slowTraces start Beat.secondLookUpFails 0 (.failed (.cache "get is down")) ∧ run.1.IsDone ∧
      tried.map (·.place) = [1] ∧ others.2.events = run.2.events ∧
      run.1.gathered.report = others.1.gathered.report.map fun r => { r with failed := r.failed + 1 } := by
  have hended : ∃ x ∈ (Engine.active.play .slowTraces (.start .slowTraces Reading.threeTraces)
      (Beat.secondLookUpFails.take 3)).1.tasks[0]?, x.2 = .ended (.failed (.cache "get is down")) := by decide +kernel
  have hdone : (Engine.active.play .slowTraces (.start .slowTraces Reading.threeTraces)
      Beat.secondLookUpFails).1.IsDone := by decide +kernel
  obtain ⟨⟨r, branch⟩, hi, rfl⟩ := hended
  have hends : Engine.active.Ends .slowTraces (.start .slowTraces Reading.threeTraces) Beat.secondLookUpFails 0
      (.failed (.cache "get is down")) :=
    ⟨Beat.secondLookUpFails.take 3, Beat.secondLookUpFails.drop 3, (List.take_append_drop ..).symm, r,
      Option.mem_def.mp hi⟩
  obtain ⟨-, hall⟩ := failed_writes_nothing .slowTraces Reading.threeTraces .active
  obtain ⟨-, hfailed, -⟩ := hall Beat.secondLookUpFails
  obtain ⟨-, hevents, hreport⟩ := hfailed 0 _ hends
  exact ⟨hends, hdone, by decide +kernel, hevents, (hreport hdone).2⟩

end Alerting
