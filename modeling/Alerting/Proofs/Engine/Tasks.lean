import Alerting.Proofs.Engine.Change

/-!
# Datasources side by side

The datasources of a dispatch are worked off by tasks of their own. Between two calls of one task, others may make any
of theirs. A task (`AnswerTask`) first looks up the stored records for its findings and then stores its events, one
call at a time (`Engine.proceed`). Tasks proceed in any order (`Engine.race`), and a task that makes all its calls in a
row does what the dispatch of its datasource does (`race_alone`).
-/

namespace Alerting

/-- What is left to do about an answer: findings to work off and, when there are none left, events to store. -/
structure AnswerTask where
  rule : Rule
  datasource : String
  now : Instant
  findings : List Finding
  outcome : Outcome

namespace AnswerTask

/-- The task of an answer. -/
def ofAnswer (rule : Rule) (datasource : String) (now : Instant) (answer : Answer) : AnswerTask :=
  ⟨rule, datasource, now, rule.findings answer, .empty⟩

/-- The tasks of the datasources that answered. -/
def ofReadings (readings : List (Rule × Reading)) : List AnswerTask :=
  readings.filterMap fun (rule, r) => r.reply.toOption.map (ofAnswer rule r.datasource r.asked)

/-- Nothing is left to do. -/
def IsDone (t : AnswerTask) : Prop := t.findings = [] ∧ t.outcome.events = []

instance (t : AnswerTask) : Decidable t.IsDone := inferInstanceAs (Decidable (_ ∧ _))

/-- The texts that the outcomes of tasks have, the empty text left out. -/
def gathered (texts : Outcome → List String) (tasks : List AnswerTask) : TextSet :=
  tasks.foldl (fun s t => s.addAll (texts t.outcome)) .empty

/-- The fingerprints that some tasks have as current. -/
def current (tasks : List AnswerTask) : List String := (gathered (·.fingerprints) tasks).keys

/-- The fingerprints that some tasks have as suppressed, and none as current. -/
def suppressed (tasks : List AnswerTask) : List String :=
  ((gathered (·.suppressed) tasks).filter fun k _ => !(gathered (·.fingerprints) tasks).contains k).keys

/-- The task with other findings and another outcome. -/
def left (t : AnswerTask) (findings : List Finding) (outcome : Outcome) : AnswerTask :=
  { t with findings := findings, outcome := outcome }

end AnswerTask

namespace Engine

/-- Makes one call for a task at most. -/
def proceed (e : Engine) (t : AnswerTask) : AnswerTask × Engine :=
  match t.findings, t.outcome.events with
  | f :: fs, _ =>
    match e.workOff t.rule t.datasource t.now t.outcome [f] with
    | (.error error, e) => (t.left [] .empty, e.note (.datasourceFailed t.rule.id t.datasource error))
    | (.ok outcome, e) => (t.left fs outcome, e)
  | [], event :: events => (t.left [] { t.outcome with events := events }, (e.store t.rule.id [event]).2)
  | [], [] => (t, e)

/-- Lets the tasks at some places proceed, one after the other. -/
def race : Engine → List AnswerTask → List Nat → Engine
  | e, _, [] => e
  | e, tasks, i :: order =>
    match tasks[i]? with
    | none => race e tasks order
    | some t => race (e.proceed t).2 (tasks.set i (e.proceed t).1) order

/-- What is left of the tasks then, and the engine. -/
def raced : Engine → List AnswerTask → List Nat → List AnswerTask × Engine
  | e, tasks, [] => (tasks, e)
  | e, tasks, i :: order =>
    match tasks[i]? with
    | none => raced e tasks order
    | some t => raced (e.proceed t).2 (tasks.set i (e.proceed t).1) order

theorem raced_snd (order : List Nat) (e : Engine) (tasks : List AnswerTask) :
    (e.raced tasks order).2 = e.race tasks order := by
  induction order generalizing e tasks with
  | nil => rfl
  | cons i order ih =>
    rw [raced, race]
    split
    · exact ih e tasks
    · exact ih _ _

/-! ## One task alone -/

theorem workOff_cons (e : Engine) (rule : Rule) (datasource : String) (now : Instant) (out : Outcome) (f : Finding)
    (fs : List Finding) : e.workOff rule datasource now out (f :: fs) =
      match e.workOff rule datasource now out [f] with
      | (.error error, e) => (.error error, e)
      | (.ok out, e) => e.workOff rule datasource now out fs := by
  cases f with
  | malformed | configured => rfl
  | unmatched fingerprint value =>
    rw [workOff, workOff]
    rcases e.get_cases rule.tenantId rule.faultCenterId fingerprint with ⟨-, hg⟩ | ⟨-, hg⟩
    · rw [hg]
    · rw [hg]; rfl
  | matched o =>
    rw [workOff, workOff]
    rcases e.get_cases rule.tenantId rule.faultCenterId o.fingerprint with ⟨-, hg⟩ | ⟨-, hg⟩
    · rw [hg]
    · rw [hg]; rfl

section Alone

variable {i : Nat} {t : AnswerTask}

theorem race_of_getElem? {e : Engine} {tasks : List AnswerTask} (h : tasks[i]? = some t) (order : List Nat) :
    e.race tasks (i :: order) = (e.proceed t).2.race (tasks.set i (e.proceed t).1) order := by
  rw [race, h]

theorem getElem?_set_of_getElem? {tasks : List AnswerTask} (h : tasks[i]? = some t) (t' : AnswerTask) :
    (tasks.set i t')[i]? = some t' := by
  obtain ⟨hi, -⟩ := List.getElem?_eq_some_iff.mp h
  exact List.getElem?_set_self hi

theorem set_of_getElem? {tasks : List AnswerTask} (h : tasks[i]? = some t) : tasks.set i t = tasks := by
  obtain ⟨hi, rfl⟩ := List.getElem?_eq_some_iff.mp h
  exact List.set_getElem_self hi

variable (t) in
/-- A task without findings stores its events. -/
theorem race_storing (events : List Event) {out : Outcome} {tasks : List AnswerTask} {e : Engine}
    (h : tasks[i]? = some (t.left [] out)) (ho : out.events = events) : ∃ n done, ∀ order,
      e.race tasks (List.replicate n i ++ order) = (e.store t.rule.id events).2.race (tasks.set i done) order := by
  induction events generalizing out tasks e with
  | nil =>
    refine ⟨0, t.left [] out, fun order => ?_⟩
    rw [set_of_getElem? h]
    rfl
  | cons event events ih =>
    have hp : e.proceed (t.left [] out) =
        (t.left [] { out with events := events }, (e.store t.rule.id [event]).2) := by
      simp only [proceed, AnswerTask.left, ho]
    have hset := getElem?_set_of_getElem? h (t.left [] { out with events := events })
    obtain ⟨n, done, hn⟩ := ih (e := (e.store t.rule.id [event]).2) hset rfl
    refine ⟨n + 1, done, fun order => ?_⟩
    rw [List.replicate_succ, List.cons_append, race_of_getElem? h, hp, hn, List.set_set, ← store_append]
    rfl

variable (t) in
/-- A task works off its findings and stores its events, or fails. -/
theorem race_working (fs : List Finding) {out : Outcome} {tasks : List AnswerTask} {e : Engine}
    (h : tasks[i]? = some (t.left fs out)) : ∃ n done, ∀ order, e.race tasks (List.replicate n i ++ order) =
      race (match e.workOff t.rule t.datasource t.now out fs with
        | (.error error, e) => e.note (.datasourceFailed t.rule.id t.datasource error)
        | (.ok out, e) => (e.store t.rule.id out.events).2) (tasks.set i done) order := by
  induction fs generalizing out tasks e with
  | nil => exact race_storing t out.events h rfl
  | cons f fs ih =>
    rw [workOff_cons]
    cases hw : e.workOff t.rule t.datasource t.now out [f] with
    | mk result e₁ =>
      cases result with
      | error error =>
        refine ⟨1, t.left [] .empty, fun order => ?_⟩
        have hp : e.proceed (t.left (f :: fs) out) =
            (t.left [] .empty, e₁.note (.datasourceFailed t.rule.id t.datasource error)) := by
          simp only [proceed, AnswerTask.left, hw]
        rw [List.replicate_one, List.singleton_append, race_of_getElem? h, hp]
      | ok out₁ =>
        have hp : e.proceed (t.left (f :: fs) out) = (t.left fs out₁, e₁) := by
          simp only [proceed, AnswerTask.left, hw]
        obtain ⟨n, done, hn⟩ := ih (e := e₁) (getElem?_set_of_getElem? h (t.left fs out₁))
        refine ⟨n + 1, done, fun order => ?_⟩
        rw [List.replicate_succ, List.cons_append, race_of_getElem? h, hp, hn, List.set_set]

/-- A dispatch with one answer works off its findings and stores their events. -/
theorem dispatch_answer (e : Engine) (rule : Rule) (datasource : String) (now : Instant) (answer : Answer) :
    (e.dispatch rule [⟨datasource, now, 0, .ok answer⟩]).2 =
      match workOff rule datasource now e .empty (rule.findings answer) with
      | (.error error, e) => e.note (.datasourceFailed rule.id datasource error)
      | (.ok out, e) => (store rule.id e out.events).2 := by
  have ht : e.atTime (e.time + 0) = e := rfl
  simp only [dispatch, gather, Gathering.empty, Option.isSome_none, Bool.false_and, Bool.false_eq_true, if_false, ht]
  cases hw : e.workOff rule datasource now .empty (rule.findings answer) with
  | mk result e₁ =>
    cases result with
    | error error =>
      have hc : e.complete rule datasource now (.ok answer) = (.failed error, e₁) := by simp only [complete, hw]
      rw [hc]
      rfl
    | ok out =>
      have hc : e.complete rule datasource now (.ok answer) =
          (.answered out (e₁.store rule.id out.events).1, (e₁.store rule.id out.events).2) := by
        simp only [complete, hw]
      rw [hc]
      rfl

/-- **A task that makes all its calls in a row dispatches its datasource.** -/
theorem race_alone {rule : Rule} {datasource : String} {now : Instant} {answer : Answer} {tasks : List AnswerTask}
    (e : Engine) (h : tasks[i]? = some (.ofAnswer rule datasource now answer)) : ∃ n done, ∀ order,
      e.race tasks (List.replicate n i ++ order) =
        (e.dispatch rule [⟨datasource, now, 0, .ok answer⟩]).2.race (tasks.set i done) order := by
  rw [dispatch_answer]
  exact race_working (.ofAnswer rule datasource now answer) (rule.findings answer) h

end Alone

/-! ## What tasks keep -/

section Keeps

variable {P : Engine → Prop} (keeps : ∀ {e e' : Engine}, Quiet e e' → P e → P e')
  (stores : ∀ {e : Engine} (event : Event), P e → P (e.stored event))
include keeps stores

theorem proceed_keeps {e : Engine} (t : AnswerTask) (h : P e) : P (e.proceed t).2 := by
  unfold proceed
  split
  · next f fs hf =>
    have hw := workOff_keeps keeps t.rule t.datasource t.now [f] t.outcome h
    split
    · next hr =>
      rw [hr] at hw
      exact keeps (.noted _ _) hw
    · next hr =>
      rw [hr] at hw
      exact hw
  · exact store_keeps keeps stores _ _ h
  · exact h

/-- **What changes of no cache and every store keep, a race keeps.** -/
theorem race_keeps (order : List Nat) {e : Engine} (tasks : List AnswerTask) (h : P e) : P (e.race tasks order) := by
  induction order generalizing e tasks with
  | nil => exact h
  | cons i order ih =>
    rw [race]
    split
    · exact ih tasks h
    · next t _ => exact ih _ (proceed_keeps keeps stores t h)

end Keeps

end Engine

end Alerting
