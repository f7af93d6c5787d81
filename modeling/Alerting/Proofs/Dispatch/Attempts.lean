import Alerting.Proofs.Dispatch.Beats
import Mathlib.Algebra.GroupWithZero.Nat

/-!
# What a dispatch tries to store

A task stores nothing before all its look-ups have succeeded, and then it tries to store each event of its outcome once,
in order, whichever of the calls fail. So at every time a task accounts for what it has tried to store
(`Branch.Accounts`): nothing while it looks up records and when it ends in an error, and its whole outcome when it is
answered. The report counts what was stored (`FanOut.Accounted.play`), and the stored events are what the attempts that
succeed leave (`Engine.events_play`).
-/

namespace Alerting

/-! ## What tasks have tried to store -/

/-- An outcome has the fingerprints that the rule finds in the answer. -/
def Outcome.IsOf (rule : Rule) (reply : Except Failure Answer) (out : Outcome) : Prop :=
  ∃ answer, reply = .ok answer ∧ out.fingerprints = rule.current answer ∧ out.suppressed = rule.outranked answer

namespace Branch

/-- What a task says about its datasource, given what it has tried to store. -/
def Accounts (rule : Rule) (reply : Except Failure Answer) (tried : List Attempt) : Branch → Prop
  | looking fs out => tried = [] ∧ ∃ answer, reply = .ok answer ∧
      out.fingerprints ++ fs.filterMap Finding.current? = rule.current answer ∧
      out.suppressed ++ fs.filterMap Finding.outranked? = rule.outranked answer
  | storing out events n => tried.map (·.event) ++ events = out.events ∧ n = tried.countP (·.stored) ∧
      out.IsOf rule reply
  | ended (.answered out n) => tried.map (·.event) = out.events ∧ n = tried.countP (·.stored) ∧ out.IsOf rule reply
  | ended _ => tried = []
  | joined => True

/-- How many events a task has stored that are not in the report yet. -/
def uncounted : Branch → Nat
  | storing _ _ n => n
  | ended (.answered _ n) => n
  | _ => 0

section Turn

variable {rule : Rule} {r : Reading} {branch branch' : Branch} {push : Option (Event × Bool)}

theorem Accounts.turn {tried : List Attempt} (h : branch.Accounts rule r.reply tried)
    (ht : Turn rule r branch push branch') (place : Nat) :
    branch'.Accounts rule r.reply (tried ++ (push.map fun p => ⟨place, p.1, p.2⟩).toList) := by
  cases ht with
  | @looked x fs out out' hcurrent houtranked =>
    obtain ⟨hnone, answer, hr, hc, ho⟩ := h
    have hsplit : ∀ g : Finding → Option String, (x :: fs).filterMap g = [x].filterMap g ++ fs.filterMap g :=
      fun g => List.filterMap_append (l := [x]) ..
    refine ⟨by rw [hnone]; rfl, answer, hr, ?_, ?_⟩
    · rw [hcurrent, List.append_assoc, ← hsplit, hc]
    · rw [houtranked, List.append_assoc, ← hsplit, ho]
  | failed error =>
    obtain ⟨hnone, -⟩ := h
    rw [hnone]
    rfl
  | ready =>
    obtain ⟨hnone, answer, hr, hc, ho⟩ := h
    rw [List.filterMap_nil, List.append_nil] at hc ho
    rw [hnone]
    exact ⟨rfl, rfl, answer, hr, hc, ho⟩
  | pushed stored =>
    obtain ⟨hevents, hn, hof⟩ := h
    refine ⟨?_, ?_, hof⟩
    · simpa using hevents
    · rw [hn, List.countP_append]
      cases stored <;> rfl
  | finished =>
    obtain ⟨hevents, hn, hof⟩ := h
    rw [List.append_nil] at hevents
    simpa using ⟨hevents, hn, hof⟩

theorem Turn.uncounted (ht : Turn rule r branch push branch') :
    branch'.uncounted = branch.uncounted + push.toList.countP (·.2) := by
  cases ht with
  | looked | failed | ready | finished => rfl
  | pushed stored => cases stored <;> rfl

/-- A task whose evaluation has ended without an error, or that was joined. -/
def Committed : Branch → Prop
  | looking .. => False
  | ended (.failed _) => False
  | _ => True

theorem Committed.turn (h : branch.Committed) (ht : Turn rule r branch push branch') : branch'.Committed := by
  cases ht with
  | looked | failed | ready => exact h.elim
  | pushed | finished => trivial

/-- A task that was asked for its outcome: it ended, or it was joined. -/
def Settled : Branch → Prop
  | ended _ => True
  | joined => True
  | _ => False

theorem Turn.not_settled (ht : Turn rule r branch push branch') : ¬branch.Settled := by
  cases ht <;> exact id

end Turn

end Branch

namespace Engine

section Task

variable {rule : Rule} {e : Engine} {f : FanOut} {i : Nat} {r : Reading} {branch : Branch}

variable (rule e) in
/-- What a beat does to the task at a place. -/
theorem task_beat (h : f.tasks[i]? = some (r, branch)) (b : Beat) : ∃ branch',
    (e.beat rule f b).1.tasks[i]? = some (r, branch') ∧
      (branch' = branch ∧ (∀ a ∈ f.attempt? b, a.place ≠ i) ∨
        (∃ push, Branch.Turn rule r branch push branch' ∧
          f.attempt? b = push.map fun p => ⟨i, p.1, p.2⟩) ∨
        ∃ c, branch = .ended c ∧ branch' = .joined ∧ f.attempt? b = none) := by
  have hset : ∀ x : Reading × Branch, (f.tasks.set i x)[i]? = some x := fun x =>
    List.getElem?_set_self (List.getElem?_eq_some_iff.mp h).1
  rcases e.beat_cases rule f b with ⟨hf, -, hnone⟩ | ⟨r', branch₀, push, branch', hi, ht, hf, hattempt, -⟩ |
    ⟨r', c, hi, hf, -, hnone⟩
  · exact ⟨branch, by rw [hf]; exact h, .inl ⟨rfl, by simp [hnone]⟩⟩
  · by_cases hb : b.place = i
    · subst hb
      obtain ⟨rfl, rfl⟩ := Prod.mk.inj (Option.some.inj (hi.symm.trans h))
      exact ⟨branch', by rw [hf]; exact hset _, .inr (.inl ⟨push, ht, hattempt⟩)⟩
    · refine ⟨branch, by rw [hf]; exact (List.getElem?_set_ne hb).trans h, .inl ⟨rfl, fun a ha => ?_⟩⟩
      rw [hattempt] at ha
      obtain ⟨p, -, rfl⟩ := Option.map_eq_some_iff.mp ha
      exact hb
  · by_cases hb : b.place = i
    · subst hb
      obtain ⟨rfl, rfl⟩ := Prod.mk.inj (Option.some.inj (hi.symm.trans h))
      exact ⟨.joined, by rw [hf]; exact hset _, .inr (.inr ⟨c, rfl, rfl, hnone⟩)⟩
    · exact ⟨branch, by rw [hf]; exact (List.getElem?_set_ne hb).trans h, .inl ⟨rfl, by simp [hnone]⟩⟩

/-- A task that has settled tries to store nothing more. -/
theorem place_ne_of_settled (h : f.tasks[i]? = some (r, branch)) (hs : branch.Settled) (bs : List Beat) :
    ∀ a ∈ e.attempts rule f bs, a.place ≠ i := by
  induction bs generalizing e f branch with
  | nil => exact fun a ha => nomatch ha
  | cons b bs ih =>
    intro a ha
    obtain ⟨branch', h', hcases⟩ := task_beat rule e h b
    rcases hcases with ⟨rfl, hne⟩ | ⟨push, ht, -⟩ | ⟨c, -, rfl, hnone⟩
    · rcases List.mem_append.mp ha with ha | ha
      · exact hne a (Option.mem_toList.mp ha)
      · exact ih h' hs a ha
    · exact absurd hs ht.not_settled
    · rw [attempts, hnone] at ha
      exact ih h' trivial a ha

variable (rule e f) in
/-- When some things happen in a dispatch, the task at a place ends at some time. -/
def Ends (bs : List Beat) (i : Nat) (c : Completion) : Prop :=
  ∃ before after, bs = before ++ after ∧ ∃ r, (e.play rule f before).1.tasks[i]? = some (r, .ended c)

theorem ends_cons {b : Beat} {bs : List Beat} {c : Completion} (h : e.Ends rule f (b :: bs) i c) :
    (∃ r, f.tasks[i]? = some (r, .ended c)) ∨ (e.beat rule f b).2.Ends rule (e.beat rule f b).1 bs i c := by
  obtain ⟨before, after, hbs, hended⟩ := h
  cases before with
  | nil => exact .inl hended
  | cons b' before =>
    obtain ⟨rfl, rfl⟩ := List.cons.inj hbs
    exact .inr ⟨before, after, rfl, hended⟩

/-- What has been committed does not fail any more. -/
theorem Ends.not_committed {bs : List Beat} {error : EngineError} (h : e.Ends rule f bs i (.failed error))
    (hi : f.tasks[i]? = some (r, branch)) : ¬branch.Committed := by
  intro hc
  have hnow : ∀ {f : FanOut} {branch : Branch}, f.tasks[i]? = some (r, branch) → branch.Committed →
      ¬∃ r, f.tasks[i]? = some (r, .ended (.failed error)) := by
    rintro f branch hi hc ⟨r', hended⟩
    obtain ⟨-, rfl⟩ := Prod.mk.inj (Option.some.inj (hi.symm.trans hended))
    exact hc
  induction bs generalizing e f branch with
  | nil =>
    obtain ⟨before, after, hbs, hended⟩ := h
    obtain ⟨rfl, -⟩ := List.append_eq_nil_iff.mp hbs.symm
    exact hnow hi hc hended
  | cons b bs ih =>
    obtain ⟨branch', hi', hcases⟩ := task_beat rule e hi b
    refine ih ((ends_cons h).resolve_left (hnow hi hc)) hi' ?_
    rcases hcases with ⟨rfl, -⟩ | ⟨push, ht, -⟩ | ⟨c, -, rfl, -⟩
    · exact hc
    · exact hc.turn ht
    · trivial

end Task

/-! ## What is played -/

section Play

variable {rule : Rule} {e : Engine} {f : FanOut} {tried : List Attempt}

/-- **The stored events are what the attempts that succeed leave.** -/
theorem events_play (bs : List Beat) :
    (e.play rule f bs).2.events = (e.attempts rule f bs).foldl EventCache.after e.events := by
  induction bs generalizing e f with
  | nil => rfl
  | cons b bs ih =>
    have hbeat : (e.beat rule f b).2.events = (f.attempt? b).toList.foldl EventCache.after e.events := by
      rcases e.beat_cases rule f b with ⟨-, he, hnone⟩ | ⟨-, -, -, -, -, -, -, -, he⟩ | ⟨-, -, -, -, he, hnone⟩
      · rw [he, hnone]
        rfl
      · exact he
      · rw [he, hnone]
        rfl
    rw [play, ih, hbeat, attempts, List.foldl_append]

variable (rule e f) in
theorem readings_play (bs : List Beat) : (e.play rule f bs).1.tasks.map (·.1) = f.tasks.map (·.1) := by
  induction bs generalizing e f with
  | nil => rfl
  | cons b bs ih =>
    rw [play, ih]
    rcases e.beat_cases rule f b with ⟨hf, -⟩ | ⟨r, branch, push, branch', hi, -, hf, -⟩ | ⟨r, c, hi, hf, -⟩ <;> rw [hf]
    · exact FanOut.readings_set hi
    · exact FanOut.readings_set hi

end Play

end Engine

theorem FanOut.readings_start (rule : Rule) (readings : List Reading) :
    (FanOut.start rule readings).tasks.map (·.1) = readings := by
  rw [start, List.map_map]
  exact List.map_id readings

/-- Every task accounts for what it has tried to store, and the report counts what was stored. -/
structure FanOut.Accounted (rule : Rule) (f : FanOut) (tried : List Attempt) : Prop where
  tasks : ∀ (i : Nat) (r : Reading) (branch : Branch), f.tasks[i]? = some (r, branch) →
    branch.Accounts rule r.reply (tried.filter (·.place = i))
  pushed : f.gathered.panic = none →
    f.gathered.pushed + (f.tasks.map (·.2.uncounted)).sum = tried.countP (·.stored)

section Accounted

variable {rule : Rule} {f : FanOut} {tried : List Attempt}

theorem FanOut.accounted_start (rule : Rule) (readings : List Reading) :
    (FanOut.start rule readings).Accounted rule [] := by
  have hnone : ∀ r : Reading, (Branch.start rule r).uncounted = 0 ∧ (Branch.start rule r).Accounts rule r.reply [] := by
    intro r
    rw [Branch.start]
    cases hr : r.reply with
    | ok answer => exact ⟨rfl, rfl, answer, rfl, rfl, rfl⟩
    | error failure => cases failure <;> exact ⟨rfl, rfl⟩
  refine ⟨fun i r branch hi => ?_, fun _ => ?_⟩
  · obtain ⟨r', -, hr⟩ := List.mem_map.mp (List.mem_of_getElem? hi)
    obtain ⟨rfl, rfl⟩ := Prod.mk.inj hr
    exact (hnone r').2
  · have hzero : (FanOut.start rule readings).tasks.map (·.2.uncounted) = List.replicate readings.length 0 := by
      rw [start, List.map_map, ← List.map_const']
      exact List.map_congr_left fun r _ => (hnone r).1
    rw [hzero, List.sum_replicate_nat]
    rfl

/-- The sum over a list with another element in one place. -/
theorem sum_map_set {α : Type} {l : List α} {i : Nat} {a : α} (h : l[i]? = some a) (b : α) (g : α → Nat) :
    ((l.set i b).map g).sum + g a = (l.map g).sum + g b := by
  obtain ⟨l₁, l₂, hl, hset⟩ := exists_split_set h b
  rw [hset, hl]
  simp only [List.map_append, List.map_cons, List.sum_append, List.sum_cons]
  omega

/-- Taking in a completion counts the events that it has stored. -/
theorem Gathering.pushed_taking {g : Gathering} {c : Completion} (h : (g.taking c).panic = none) :
    g.panic = none ∧ (g.taking c).pushed = g.pushed + (Branch.ended c).uncounted := by
  cases hp : g.panic with
  | some p =>
    rw [taking_of_panic hp, hp] at h
    cases h
  | none =>
    rw [taking_of_none hp] at h ⊢
    cases c with
    | answered | failed => exact ⟨rfl, rfl⟩
    | panicked p => cases h

/-- **A beat keeps the account.** -/
theorem FanOut.Accounted.beat (h : f.Accounted rule tried) (e : Engine) (b : Beat) :
    (e.beat rule f b).1.Accounted rule (tried ++ (f.attempt? b).toList) := by
  refine ⟨fun i r branch' hi' => ?_, fun hpanic => ?_⟩
  · -- The task stood at the same place before.
    have hi : ∃ branch, f.tasks[i]? = some (r, branch) := by
      have hmap := congrArg (·[i]?) (e.readings_play rule f [b])
      simp only [Engine.play, List.getElem?_map, hi', Option.map_some] at hmap
      obtain ⟨x, hx, hr⟩ := Option.map_eq_some_iff.mp hmap.symm
      exact ⟨x.2, by rw [hx, ← hr]⟩
    obtain ⟨branch, hi⟩ := hi
    have hacc := h.tasks i r branch hi
    obtain ⟨branch'', hi'', hcases⟩ := e.task_beat rule hi b
    obtain ⟨-, rfl⟩ := Prod.mk.inj (Option.some.inj (hi'.symm.trans hi''))
    rw [List.filter_append]
    rcases hcases with ⟨rfl, hne⟩ | ⟨push, ht, hattempt⟩ | ⟨c, -, rfl, -⟩
    · have hnone : (f.attempt? b).toList.filter (·.place = i) = [] :=
        List.filter_eq_nil_iff.mpr fun a ha => by simpa using hne a (Option.mem_toList.mp ha)
      rw [hnone, List.append_nil]
      exact hacc
    · have hsame : (f.attempt? b).toList.filter (·.place = i) = (push.map fun p => ⟨i, p.1, p.2⟩).toList := by
        rw [hattempt]
        cases push <;> simp
      rw [hsame]
      exact hacc.turn ht i
    · trivial
  · rw [List.countP_append]
    rcases e.beat_cases rule f b with ⟨hf, -, hnone⟩ | ⟨r, branch, push, branch', hi, ht, hf, hattempt, -⟩ |
      ⟨r, c, hi, hf, -, hnone⟩ <;> rw [hf] at hpanic ⊢
    · rw [hnone]
      exact h.pushed hpanic
    · have hsum := sum_map_set hi (r, branch') (·.2.uncounted)
      have hturn := ht.uncounted
      have hbefore := h.pushed hpanic
      have hcount : (f.attempt? b).toList.countP (·.stored) = push.toList.countP (·.2) := by
        rw [hattempt]
        cases push <;> simp [List.countP_cons]
      simp only at hsum
      rw [hcount]
      dsimp only
      omega
    · obtain ⟨hbefore, hpushed⟩ := Gathering.pushed_taking hpanic
      have hsum := sum_map_set hi (r, .joined) (·.2.uncounted)
      have hcounted := h.pushed hbefore
      have hjoined : Branch.joined.uncounted = 0 := rfl
      simp only [hjoined] at hsum
      rw [hnone, Option.toList_none, List.countP_nil]
      dsimp only
      omega

/-- **Whatever happens in a dispatch keeps the account.** -/
theorem FanOut.Accounted.play (h : f.Accounted rule tried) (e : Engine) (bs : List Beat) :
    (e.play rule f bs).1.Accounted rule (tried ++ e.attempts rule f bs) := by
  induction bs generalizing e f tried with
  | nil =>
    rw [Engine.attempts, List.append_nil]
    exact h
  | cons b bs ih =>
    have hrest := ih (h.beat e b) (e.beat rule f b).2
    rw [List.append_assoc] at hrest
    exact hrest

end Accounted

end Alerting
