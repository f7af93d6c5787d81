import Alerting.Proofs.Dispatch.Summary

/-!
# Datasources that finish in any order

A dispatch starts a task for every datasource and joins the tasks as they end. Between two calls of one task others may
make any of theirs (`Engine.fanOut`), and a task that makes all its steps in a row completes as its datasource does alone
(`fanOut_alone`). Every step leaves the tasks with what the rule finds in their answers, and what is gathered with what
the rule says about those that were joined (`FanOut.Sound`). So once all are joined, the report is the summary of the
rule, in every order and whatever the caches hold (`report_of_replies`).
-/

namespace Alerting

/-- How far the task of a datasource has come. -/
inductive Branch
  /-- It looks up the records for some findings. -/
  | looking (findings : List Finding) (outcome : Outcome)
  /-- It stores the events that are left, and has stored some. -/
  | storing (outcome : Outcome) (events : List Event) (pushed : Nat)
  | ended (completion : Completion)
  | joined

namespace Branch

/-- A task has just learnt what came of asking its datasource. -/
def start (rule : Rule) (r : Reading) : Branch :=
  match r.reply with
  | .ok answer => looking (rule.findings answer) .empty
  | .error (.error error) => ended (.failed error)
  | .error (.panic p) => ended (.panicked p)

def isJoined : Branch → Bool
  | joined => true
  | _ => false

end Branch

/-- A dispatch under way: its tasks, and what was gathered from those that were joined. -/
structure FanOut where
  tasks : List (Reading × Branch)
  gathered : Gathering

namespace FanOut

def start (rule : Rule) (readings : List Reading) : FanOut := ⟨readings.map fun r => (r, .start rule r), .empty⟩

/-- All tasks were joined. -/
def IsDone (f : FanOut) : Prop := ∀ x ∈ f.tasks, x.2.isJoined = true

instance (f : FanOut) : Decidable f.IsDone := inferInstanceAs (Decidable (∀ x ∈ f.tasks, _))

/-- The replies of the tasks that were joined. -/
def joined (f : FanOut) : Replies := (f.tasks.filter (·.2.isJoined)).map (·.1.reply)

end FanOut

namespace Engine

/-- Makes one call for the task of a datasource at most. -/
def advance (e : Engine) (rule : Rule) (r : Reading) : Branch → Result Branch
  | .looking [] outcome => (.storing outcome outcome.events 0, e)
  | .looking (f :: fs) outcome =>
    match e.workOff rule r.datasource r.asked outcome [f] with
    | (.error error, e) => (.ended (.failed error), e)
    | (.ok outcome, e) => (.looking fs outcome, e)
  | .storing outcome [] pushed => (.ended (.answered outcome pushed), e)
  | .storing outcome (event :: events) pushed =>
    (.storing outcome events (pushed + (e.store rule.id [event]).1), (e.store rule.id [event]).2)
  | .ended c => (.ended c, e)
  | .joined => (.joined, e)

/-- Lets the task at a place advance, or joins it. -/
def step (rule : Rule) (e : Engine) (f : FanOut) (i : Nat) : Result FanOut :=
  match f.tasks[i]? with
  | none => (f, e)
  | some (r, .ended c) =>
    (⟨f.tasks.set i (r, .joined), (f.gathered.add e rule.id r.datasource c).1⟩,
      (f.gathered.add e rule.id r.datasource c).2)
  | some (r, branch) =>
    ({ f with tasks := f.tasks.set i (r, (e.advance rule r branch).1) }, (e.advance rule r branch).2)

/-- Lets the tasks at some places advance, one after the other. -/
def fanOut (rule : Rule) : Engine → FanOut → List Nat → Result FanOut
  | e, f, [] => (f, e)
  | e, f, i :: order => fanOut rule (e.step rule f i).2 (e.step rule f i).1 order

/-! ## One task alone -/

section Alone

variable (rule : Rule) {r : Reading} {i : Nat}

theorem step_of_getElem? {e : Engine} {f : FanOut} {branch : Branch} (h : f.tasks[i]? = some (r, branch))
    (hs : ∀ c, branch ≠ .ended c) : e.step rule f i =
      ({ f with tasks := f.tasks.set i (r, (e.advance rule r branch).1) }, (e.advance rule r branch).2) := by
  rw [step, h]
  cases branch with
  | ended c => exact absurd rfl (hs c)
  | looking | storing | joined => rfl

theorem getElem?_set_branch {f : FanOut} {branch : Branch} (h : f.tasks[i]? = some (r, branch)) (branch' : Branch) :
    (f.tasks.set i (r, branch'))[i]? = some (r, branch') := by
  obtain ⟨hi, -⟩ := List.getElem?_eq_some_iff.mp h
  exact List.getElem?_set_self hi

theorem store_append_fst (rule : String) (event : Event) (events : List Event) (e : Engine) :
    (e.store rule (event :: events)).1 =
      (e.store rule [event]).1 + ((e.store rule [event]).2.store rule events).1 := by
  rw [store, store]
  rcases e.push_cases event with ⟨-, hp⟩ | ⟨-, hp⟩ <;> rw [hp]
  · exact (Nat.zero_add _).symm
  · exact Nat.add_comm _ _

/-- A task that has its events stores them, and ends. -/
theorem fanOut_storing (out : Outcome) (events : List Event) {e : Engine} {f : FanOut} {pushed : Nat}
    (h : f.tasks[i]? = some (r, .storing out events pushed)) : ∃ n, ∀ order,
      e.fanOut rule f (List.replicate n i ++ order) =
        fanOut rule (e.store rule.id events).2
          ⟨f.tasks.set i (r, .ended (.answered out (pushed + (e.store rule.id events).1))), f.gathered⟩ order := by
  induction events generalizing e f pushed with
  | nil =>
    refine ⟨1, fun order => ?_⟩
    rw [List.replicate_one, List.singleton_append, fanOut, step_of_getElem? rule h nofun]
    rfl
  | cons event events ih =>
    obtain ⟨n, hn⟩ := ih (e := (e.store rule.id [event]).2)
      (f := ⟨f.tasks.set i (r, .storing out events (pushed + (e.store rule.id [event]).1)), f.gathered⟩)
      (getElem?_set_branch h _)
    refine ⟨n + 1, fun order => ?_⟩
    rw [List.replicate_succ, List.cons_append, fanOut, step_of_getElem? rule h nofun]
    refine (hn order).trans ?_
    rw [store_append_fst rule.id event events, ← Nat.add_assoc, List.set_set, ← store_append]
    rfl

/-- A task with findings works them off and stores its events, or fails. -/
theorem fanOut_looking (fs : List Finding) {e : Engine} {f : FanOut} {out : Outcome}
    (h : f.tasks[i]? = some (r, .looking fs out)) : ∃ n, ∀ order,
      e.fanOut rule f (List.replicate n i ++ order) =
        let done : Result Completion := match e.workOff rule r.datasource r.asked out fs with
          | (.error error, e) => (.failed error, e)
          | (.ok out, e) => (.answered out (e.store rule.id out.events).1, (e.store rule.id out.events).2)
        done.2.fanOut rule ⟨f.tasks.set i (r, .ended done.1), f.gathered⟩ order := by
  induction fs generalizing e f out with
  | nil =>
    obtain ⟨n, hn⟩ := fanOut_storing rule out out.events (e := e)
      (f := ⟨f.tasks.set i (r, .storing out out.events 0), f.gathered⟩) (getElem?_set_branch h _)
    refine ⟨n + 1, fun order => ?_⟩
    rw [List.replicate_succ, List.cons_append, fanOut, step_of_getElem? rule h nofun]
    refine (hn order).trans ?_
    rw [List.set_set, Nat.zero_add]
    rfl
  | cons x fs ih =>
    rw [workOff_cons]
    cases hw : e.workOff rule r.datasource r.asked out [x] with
    | mk result e₁ =>
      cases result with
      | error error =>
        refine ⟨1, fun order => ?_⟩
        rw [List.replicate_one, List.singleton_append, fanOut, step_of_getElem? rule h nofun, advance, hw]
      | ok out₁ =>
        obtain ⟨n, hn⟩ := ih (e := e₁) (f := ⟨f.tasks.set i (r, .looking fs out₁), f.gathered⟩)
          (getElem?_set_branch h _)
        refine ⟨n + 1, fun order => ?_⟩
        rw [List.replicate_succ, List.cons_append, fanOut, step_of_getElem? rule h nofun, advance, hw]
        refine (hn order).trans ?_
        simp only [List.set_set]

/-- **A task that makes all its steps in a row completes as its datasource does alone**, and is joined. -/
theorem fanOut_alone {e : Engine} {f : FanOut} (h : f.tasks[i]? = some (r, .start rule r)) : ∃ n, ∀ order,
    e.fanOut rule f (List.replicate n i ++ order) =
      let done := e.complete rule r.datasource r.asked r.reply
      let gathered := f.gathered.add done.2 rule.id r.datasource done.1
      gathered.2.fanOut rule ⟨f.tasks.set i (r, .joined), gathered.1⟩ order := by
  have hjoin : ∀ {e₁ : Engine} {c : Completion} {f₁ : FanOut}, f₁.tasks[i]? = some (r, .ended c) → ∀ order,
      e₁.fanOut rule f₁ (i :: order) =
        fanOut rule (f₁.gathered.add e₁ rule.id r.datasource c).2
          ⟨f₁.tasks.set i (r, .joined), (f₁.gathered.add e₁ rule.id r.datasource c).1⟩ order := by
    intro e₁ c f₁ h₁ order
    rw [fanOut, step, h₁]
  cases hr : r.reply with
  | error failure =>
    cases failure with
    | error error | panic p =>
      refine ⟨1, fun order => ?_⟩
      rw [Branch.start, hr] at h
      exact hjoin h order
  | ok answer =>
    rw [Branch.start, hr] at h
    obtain ⟨n, hn⟩ := fanOut_looking rule _ (e := e) h
    refine ⟨n + 1, fun order => ?_⟩
    rw [List.replicate_succ', List.append_assoc, List.singleton_append, hn]
    rw [hjoin (getElem?_set_branch h _), List.set_set]
    cases hw : e.workOff rule r.datasource r.asked .empty (rule.findings answer) with
    | mk result e₁ => cases result <;> simp only [complete, hw]

end Alone

/-! ## Steps depend on their own calls only -/

theorem local_advance (rule : Rule) (r : Reading) (branch : Branch) : Local fun e => e.advance rule r branch := by
  cases branch with
  | looking fs out =>
    cases fs with
    | nil => exact .pure _
    | cons f fs =>
      refine (local_workOff rule r.datasource r.asked out [f]).bind fun result => ?_
      cases result with
      | error error => exact ⟨_, .pure (.ended (.failed error)), fun e e' he => by rw [advance, he]⟩
      | ok out => exact ⟨_, .pure (.looking fs out), fun e e' he => by rw [advance, he]⟩
  | storing out events pushed =>
    cases events with
    | nil => exact .pure _
    | cons event events => exact (local_store rule.id [event]).map fun n => Branch.storing out events (pushed + n)
  | ended c => exact .pure _
  | joined => exact .pure _

theorem local_step (rule : Rule) (f : FanOut) (i : Nat) : Local fun e => e.step rule f i := by
  unfold step
  split
  · exact .pure f
  · next r c _ => exact (local_add f.gathered rule.id r.datasource c).map fun g => FanOut.mk (f.tasks.set i (r, .joined)) g
  · next r branch _ _ =>
    exact (local_advance rule r branch).map fun branch => FanOut.mk (f.tasks.set i (r, branch)) f.gathered

theorem local_fanOut (rule : Rule) (order : List Nat) (f : FanOut) : Local fun e => e.fanOut rule f order := by
  induction order generalizing f with
  | nil => exact .pure f
  | cons i order ih => exact (local_step rule f i).bind fun f' => ⟨_, ih f', fun e e' he => by rw [fanOut, he]⟩

end Engine

/-! ## What the tasks and the gathering say -/

/-- A task says about its datasource what the rule says about its reply. -/
def Branch.Fits (rule : Rule) (reply : Except Failure Answer) : Branch → Prop
  | looking fs out => ∃ answer, reply = .ok answer ∧
      out.fingerprints ++ fs.filterMap Finding.current? = rule.current answer ∧
      out.suppressed ++ fs.filterMap Finding.outranked? = rule.outranked answer
  | storing out _ _ => ∃ answer, reply = .ok answer ∧ out.fingerprints = rule.current answer ∧
      out.suppressed = rule.outranked answer
  | ended c => c.Settles rule reply
  | joined => True

/-- The tasks say what the rule says, and so does what was gathered from those that were joined. -/
structure FanOut.Sound (rule : Rule) (f : FanOut) : Prop where
  tasks : ∀ x ∈ f.tasks, x.2.Fits rule x.1.reply
  gathered : f.gathered.Tallies rule f.joined

section Sound

variable {rule : Rule} {r : Reading} {f : FanOut} {i : Nat}

theorem Branch.fits_start (hp : ∀ p, r.reply ≠ .error (.panic p)) : (Branch.start rule r).Fits rule r.reply := by
  unfold start
  cases hr : r.reply with
  | ok answer => exact ⟨answer, rfl, rfl, rfl⟩
  | error failure =>
    cases failure with
    | error error => exact ⟨error, rfl⟩
    | panic p => exact absurd hr (hp p)

theorem Branch.isJoined_start : (Branch.start rule r).isJoined = false := by
  unfold start
  rcases r.reply with (_ | _) | _ <;> rfl

/-- **When the look-ups succeed, a task goes on saying what the rule says**, whatever is stored. -/
theorem Branch.Fits.advance {branch : Branch} (h : branch.Fits rule r.reply) {e : Engine} (he : e.GetsSucceed) :
    (e.advance rule r branch).1.Fits rule r.reply := by
  cases branch with
  | looking fs out =>
    obtain ⟨answer, hr, hcurrent, houtranked⟩ := h
    cases fs with
    | nil =>
      simp only [List.filterMap_nil, List.append_nil] at hcurrent houtranked
      exact ⟨answer, hr, hcurrent, houtranked⟩
    | cons x fs =>
      obtain ⟨out', e', hw, hc, ho⟩ := Engine.workOff_of_getsSucceed rule r.datasource r.asked he [x] out
      have hsplit : ∀ g : Finding → Option String, (x :: fs).filterMap g = [x].filterMap g ++ fs.filterMap g :=
        fun g => List.filterMap_append (l := [x]) ..
      rw [Engine.advance, hw]
      refine ⟨answer, hr, ?_, ?_⟩
      · rw [hc, List.append_assoc, ← hsplit, hcurrent]
      · rw [ho, List.append_assoc, ← hsplit, houtranked]
  | storing out events pushed =>
    cases events with
    | nil => exact h
    | cons event events => exact h
  | ended c => exact h
  | joined => trivial

/-- Only a join joins a task. -/
theorem Branch.isJoined_advance (e : Engine) (branch : Branch) :
    (e.advance rule r branch).1.isJoined = branch.isJoined := by
  cases branch with
  | looking fs out =>
    cases fs with
    | nil => rfl
    | cons x fs =>
      rw [Engine.advance]
      split <;> rfl
  | storing out events pushed => cases events <;> rfl
  | ended | joined => rfl

/-- A list with another element in one place. -/
theorem exists_split_set {α : Type} {l : List α} {a : α} (h : l[i]? = some a) (b : α) :
    ∃ l₁ l₂, l = l₁ ++ a :: l₂ ∧ l.set i b = l₁ ++ b :: l₂ := by
  obtain ⟨hi, rfl⟩ := List.getElem?_eq_some_iff.mp h
  have hsplit : ∃ l₁ l₂, l = l₁ ++ l[i] :: l₂ ∧ l₁.length = i ∧ l.set i b = l₁ ++ b :: l₂ := List.exists_of_set hi
  obtain ⟨l₁, l₂, hl, -, hset⟩ := hsplit
  exact ⟨l₁, l₂, hl, hset⟩

/-- A join adds the reply of the task to those that were joined. -/
theorem FanOut.joined_set_joined {branch : Branch} (h : f.tasks[i]? = some (r, branch)) (hs : branch.isJoined = false)
    (g : Gathering) : (f.joined ++ [r.reply]).Perm (FanOut.joined ⟨f.tasks.set i (r, .joined), g⟩) := by
  obtain ⟨l₁, l₂, hl, hset⟩ := exists_split_set h (r, .joined)
  have hjoined : Branch.joined.isJoined = true := rfl
  simp only [joined, hset]
  rw [hl]
  simp only [List.filter_append, List.filter_cons, hs, hjoined, Bool.false_eq_true, if_false, if_true,
    List.map_append, List.map_cons, List.append_assoc]
  exact (List.perm_append_singleton _ _).append_left _

/-- Another stage of a task changes nothing about those that were joined. -/
theorem FanOut.joined_set {branch branch' : Branch} (h : f.tasks[i]? = some (r, branch))
    (hs : branch'.isJoined = branch.isJoined) (g : Gathering) :
    FanOut.joined ⟨f.tasks.set i (r, branch'), g⟩ = f.joined := by
  obtain ⟨l₁, l₂, hl, hset⟩ := exists_split_set h (r, branch')
  simp only [joined, hset]
  rw [hl]
  simp only [List.filter_append, List.filter_cons, hs]
  split <;> simp

theorem FanOut.readings_set {branch branch' : Branch} (h : f.tasks[i]? = some (r, branch)) :
    (f.tasks.set i (r, branch')).map (·.1) = f.tasks.map (·.1) := by
  obtain ⟨l₁, l₂, hl, hset⟩ := exists_split_set h (r, branch')
  rw [hset, hl]
  simp

/-- At the beginning, no task was joined. -/
theorem FanOut.joined_start (rule : Rule) (readings : List Reading) : (FanOut.start rule readings).joined = [] := by
  simp only [joined, start, List.filter_map]
  rw [List.filter_eq_nil_iff.mpr]
  · rfl
  · exact fun r _ => ne_true_of_eq_false Branch.isJoined_start

theorem FanOut.sound_start {readings : List Reading} (hp : ∀ r ∈ readings, ∀ p, r.reply ≠ .error (.panic p)) :
    (FanOut.start rule readings).Sound rule := by
  refine ⟨fun x hx => ?_, ?_⟩
  · obtain ⟨r, hr, rfl⟩ := List.mem_map.mp hx
    exact Branch.fits_start (hp r hr)
  · rw [joined_start]
    exact .empty

/-- **When the look-ups succeed, a step keeps what is said**, whatever is stored. -/
theorem FanOut.Sound.step (h : f.Sound rule) {e : Engine} (he : e.GetsSucceed) (i : Nat) :
    (e.step rule f i).1.Sound rule ∧ (e.step rule f i).1.tasks.map (·.1) = f.tasks.map (·.1) := by
  have hset : ∀ {r : Reading} {branch branch' : Branch} {g : Gathering}, f.tasks[i]? = some (r, branch) →
      branch'.Fits rule r.reply → ∀ x ∈ f.tasks.set i (r, branch'), x.2.Fits rule x.1.reply := by
    intro r branch branch' g hi hfits x hx
    rcases List.mem_or_eq_of_mem_set hx with hx | rfl
    · exact h.tasks x hx
    · exact hfits
  unfold Engine.step
  split
  · exact ⟨h, rfl⟩
  · next r c hi =>
    have hc : c.Settles rule r.reply := h.tasks _ (List.mem_of_getElem? hi)
    refine ⟨⟨hset (g := f.gathered) hi trivial, ?_⟩, readings_set hi⟩
    exact (h.gathered.add hc e r.datasource).perm (joined_set_joined hi rfl _)
  · next r branch _ hi =>
    have hfits : branch.Fits rule r.reply := h.tasks _ (List.mem_of_getElem? hi)
    refine ⟨⟨hset (g := f.gathered) hi (hfits.advance he), ?_⟩, readings_set hi⟩
    rw [joined_set hi (Branch.isJoined_advance e branch)]
    exact h.gathered

/-- **When the look-ups succeed, what is said stays true in every order of the tasks**, whatever is stored. -/
theorem FanOut.Sound.fanOut (h : f.Sound rule) {e : Engine} (he : e.GetsSucceed) (order : List Nat) :
    (e.fanOut rule f order).1.Sound rule ∧ (e.fanOut rule f order).1.tasks.map (·.1) = f.tasks.map (·.1) := by
  induction order generalizing e f with
  | nil => exact ⟨h, rfl⟩
  | cons i order ih =>
    obtain ⟨hstep, hreadings⟩ := h.step he i
    obtain ⟨hrest, hreadings'⟩ := ih hstep (he.of_faults ((Engine.local_step rule f i).faults e))
    exact ⟨hrest, hreadings'.trans hreadings⟩

/-- When all tasks were joined, the replies of all readings were. -/
theorem FanOut.joined_of_isDone (h : f.IsDone) {readings : List Reading}
    (hr : f.tasks.map (·.1) = (FanOut.start rule readings).tasks.map (·.1)) : f.joined = readings.map (·.reply) := by
  have hmap := congrArg (List.map (·.reply)) hr
  rw [List.map_map, List.map_map] at hmap
  rw [joined, List.filter_eq_self.mpr h]
  refine hmap.trans ?_
  simp [FanOut.start]

end Sound

/-- **When the look-ups succeed, a dispatch of which all tasks were joined reports what the rule says about the
replies**, whatever the order was. -/
theorem Engine.fanOut_of_getsSucceed (rule : Rule) {readings : List Reading}
    (hp : ∀ r ∈ readings, ∀ p, r.reply ≠ .error (.panic p)) {e : Engine} (h : e.GetsSucceed) (order : List Nat)
    (hdone : (e.fanOut rule (.start rule readings) order).1.IsDone) : ∃ pushed,
      (e.fanOut rule (.start rule readings) order).1.gathered.report =
        .ok { rule.summary (readings.map (·.reply)) with pushed := pushed } := by
  have hstart : (FanOut.start rule readings).Sound rule := FanOut.sound_start hp
  obtain ⟨hsound, hreadings⟩ := hstart.fanOut h order
  rw [← FanOut.joined_of_isDone hdone hreadings]
  exact ⟨_, hsound.gathered.report⟩

/-- **The report of a dispatch does not depend on the order in which the datasources finish.** It has the fingerprints
that are current in some answer, sorted, and those that are outranked in some answer and current in none; it counts every
datasource once. So does every dispatch of the rule with the same replies whose look-ups succeed, whatever the caches hold
and in whatever order the datasources are listed and get on. One that fails is counted, and nothing else. -/
theorem report_of_replies (rule : Rule) (readings : List Reading)
    (hasked : (readings.map (·.datasource)).Perm rule.datasourceIds)
    (hp : ∀ r ∈ readings, ∀ p, r.reply ≠ .error (.panic p)) :
    let report := rule.summary (readings.map (·.reply))
    (report.fingerprints.Pairwise (· < ·) ∧ ∀ k, k ∈ report.fingerprints ↔
        ∃ r ∈ readings, ∃ answer, r.reply = .ok answer ∧ k ∈ rule.current answer) ∧
      (report.suppressed.Pairwise (· < ·) ∧ ∀ k, k ∈ report.suppressed ↔
        (∃ r ∈ readings, ∃ answer, r.reply = .ok answer ∧ k ∈ rule.outranked answer) ∧ k ∉ report.fingerprints) ∧
      report.queried + report.failed = rule.datasourceIds.length ∧
      (∀ (ids : List String) (readings' : List Reading) (e : Engine), ids.Perm rule.datasourceIds →
        (readings'.map fun r => (r.datasource, r.reply)).Perm (readings.map fun r => (r.datasource, r.reply)) →
        let rule' := { rule with datasourceIds := ids }
        (e.FailsAs (·.dispatch rule' readings') Call.isGet (fun _ => false) →
          ∃ pushed, (e.dispatch rule' readings').1 = .ok { report with pushed := pushed }) ∧
        ∀ order, e.FailsAs (·.fanOut rule' (.start rule' readings') order) Call.isGet (fun _ => false) →
          (e.fanOut rule' (.start rule' readings') order).1.IsDone →
          ∃ pushed, (e.fanOut rule' (.start rule' readings') order).1.gathered.report =
            .ok { report with pushed := pushed }) ∧
      ∀ (r : Reading) (error : EngineError), r.reply = .error (.error error) →
        rule.summary ((r :: readings).map (·.reply)) = { report with failed := report.failed + 1 } := by
  intro report
  have hmem : ∀ (found : Answer → List String) (k : String),
      (∃ answer, .ok answer ∈ readings.map (·.reply) ∧ k ∈ found answer) ↔
        ∃ r ∈ readings, ∃ answer, r.reply = .ok answer ∧ k ∈ found answer := by
    intro found k
    constructor
    · rintro ⟨answer, ha, hk⟩
      obtain ⟨r, hr, hreply⟩ := List.mem_map.mp ha
      exact ⟨r, hr, answer, hreply, hk⟩
    · rintro ⟨r, hr, answer, hreply, hk⟩
      exact ⟨answer, List.mem_map.mpr ⟨r, hr, hreply⟩, hk⟩
  refine ⟨⟨Table.pairwise_keys _, fun k => ?_⟩, ⟨Table.pairwise_keys _, fun k => ?_⟩, ?_, ?_, fun r error hr => ?_⟩
  · rw [← hmem]
    exact Rule.mem_summary_fingerprints
  · rw [← hmem]
    exact Rule.mem_summary_suppressed
  · rw [Rule.summary_counts, List.length_map, ← hasked.length_eq, List.length_map]
  · intro ids readings' e _ hperm rule'
    have hreplies : (readings'.map (·.reply)).Perm (readings.map (·.reply)) := by
      have h := hperm.map Prod.snd
      rwa [List.map_map, List.map_map] at h
    have hsummary : rule'.summary (readings'.map (·.reply)) = report := Rule.summary_perm hreplies
    have hp' : ∀ r ∈ readings', ∀ p, r.reply ≠ .error (.panic p) := by
      intro r hr p h
      obtain ⟨r', hr', he⟩ := List.mem_map.mp (hreplies.mem_iff.mp (List.mem_map_of_mem hr))
      exact hp r' hr' p (he.trans h)
    have hgets := e.getsSucceed_withFate
    rw [← hsummary]
    refine ⟨fun hfails => ?_, fun order hfails hdone => ?_⟩
    · have hsame : ((e.withFate Call.isGet fun _ => false).dispatch rule' readings').1 =
          (e.dispatch rule' readings').1 := hfails.fst
      rw [← hsame]
      exact Engine.dispatch_of_getsSucceed rule' hp' hgets
    · have hsame : ((e.withFate Call.isGet fun _ => false).fanOut rule' (.start rule' readings') order).1 =
          (e.fanOut rule' (.start rule' readings') order).1 := hfails.fst
      rw [← hsame] at hdone ⊢
      exact Engine.fanOut_of_getsSucceed rule' hp' hgets order hdone
  · rw [List.map_cons, hr]
    exact Rule.summary_failed _

/-! ## Two datasources -/

/-- A rule with two datasources. -/
def Rule.twoSources : Rule := { errorCount with datasourceIds := ["ds1", "ds2"] }

/-- The first datasource matches, the second one does not exist. -/
def Reading.oneOfTwo : List Reading :=
  [⟨"ds1", .epoch, 0, .ok (.count 5)⟩, ⟨"ds2", .epoch, 0, .error (.error (.datasourceNotFound "ds2"))⟩]

theorem Reading.oneOfTwo_ne_panic : ∀ r ∈ oneOfTwo, ∀ p, r.reply ≠ .error (.panic p) := by
  intro r hr p
  rcases List.mem_cons.mp hr with rfl | hr
  · exact nofun
  · rw [List.mem_singleton.mp hr]
    exact nofun

/-- The datasources are listed the other way round, and the one that does not exist is joined while the other one is
storing its event. -/
theorem FanOut.isDone_oneOfTwo :
    let rule := { Rule.twoSources with datasourceIds := ["ds2", "ds1"] }
    (Engine.active.fanOut rule (.start rule Reading.oneOfTwo.reverse) [1, 1, 0, 1, 1, 1]).1.IsDone := by
  decide +kernel

/-- An engine that knows the alert already reports what the rule says, with the datasources listed the other way round
and worked off one after the other or side by side. -/
theorem report_of_replies_oneOfTwo :
    let rule := { Rule.twoSources with datasourceIds := ["ds2", "ds1"] }
    let report := Rule.twoSources.summary (Reading.oneOfTwo.map (·.reply))
    (∀ r ∈ Reading.oneOfTwo, ∀ p, r.reply ≠ .error (.panic p)) ∧ report.queried + report.failed = 2 ∧
      (∃ pushed, (Engine.active.dispatch rule Reading.oneOfTwo.reverse).1 = .ok { report with pushed := pushed }) ∧
      ∃ pushed, (Engine.active.fanOut rule (.start rule Reading.oneOfTwo.reverse) [1, 1, 0, 1, 1, 1]).1.gathered.report =
        .ok { report with pushed := pushed } := by
  intro rule report
  obtain ⟨-, -, hcount, hreports, -⟩ :=
    report_of_replies .twoSources Reading.oneOfTwo (List.Perm.refl _) Reading.oneOfTwo_ne_panic
  obtain ⟨hdispatch, hfanOut⟩ := hreports ["ds2", "ds1"] Reading.oneOfTwo.reverse .active (List.Perm.swap ..)
    ((List.reverse_perm _).map _)
  refine ⟨Reading.oneOfTwo_ne_panic, hcount, hdispatch ?_, hfanOut _ ?_ FanOut.isDone_oneOfTwo⟩
  · exact .of_faults (Engine.local_dispatch ..) fun n c _ _ _ => Engine.healthy_active n c
  · exact .of_faults (Engine.local_fanOut ..) fun n c _ _ _ => Engine.healthy_active n c

end Alerting
