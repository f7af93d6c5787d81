import Alerting.Proofs.Dispatch.FanIn

/-!
# A dispatch beat by beat

What happens in a dispatch is decided by its tasks and by the world around it: which task gets on, whether the call that
it makes fails, which id is given out, and whether the time for an evaluation is up. A `Beat` is one such decision, and
`Engine.play` lets a dispatch run by a list of them. The outcome depends on nothing else but the stored events
(`Engine.play_congr`). Every dispatch is played by some beats, whether its datasources get on side by side
(`Engine.exists_beats_fanOut`) or one after the other (`Engine.exists_beats_dispatch`).

All that a beat can do is listed in `Branch.Turn` and `Engine.beat_cases`.
-/

namespace Alerting

/-- What happens next in a dispatch. -/
inductive Beat
  /-- The task at a place gets on. If it makes a call, the call may fail; if it needs an id, the id has this number. -/
  | goes (place : Nat) (fails : Call → Bool) (id : Nat)
  /-- The time for evaluating the datasource at a place is up. -/
  | timesOut (place seconds : Nat)

/-- The place whose turn it is. -/
def Beat.place : Beat → Nat
  | goes place _ _ => place
  | timesOut place _ => place

/-- An event that the task at a place tried to store, and whether it was stored. -/
structure Attempt where
  place : Nat
  event : Event
  stored : Bool
  deriving DecidableEq

/-- What a beat tries to store. -/
def FanOut.attempt? (f : FanOut) : Beat → Option Attempt
  | .goes place fails _ =>
    match f.tasks[place]? with
    | some (_, .storing _ (event :: _) _) => some ⟨place, event, !fails (.push event.fingerprint)⟩
    | _ => none
  | .timesOut .. => none

/-- The stored events after an attempt. -/
def EventCache.after (c : EventCache) (a : Attempt) : EventCache := if a.stored then c.push a.event else c

namespace Engine

/-- The same engine when calls fail as told and the next id has this number. -/
def under (e : Engine) (fails : Call → Bool) (id : Nat) : Engine := { e with faults := fun _ => fails, minted := id }

/-- Lets one thing happen in a dispatch. -/
def beat (rule : Rule) (e : Engine) (f : FanOut) : Beat → Result FanOut
  | .goes place fails id => (e.under fails id).step rule f place
  | .timesOut place seconds =>
    match f.tasks[place]? with
    | some (r, .looking ..) =>
      ({ f with tasks := f.tasks.set place (r, .ended (.failed (.queryTimeout r.datasource seconds))) }, e)
    | _ => (f, e)

/-- Lets some things happen in a dispatch, one after the other. -/
def play (rule : Rule) : Engine → FanOut → List Beat → Result FanOut
  | e, f, [] => (f, e)
  | e, f, b :: bs => play rule (e.beat rule f b).2 (e.beat rule f b).1 bs

/-- What is tried to store in a dispatch. -/
def attempts (rule : Rule) : Engine → FanOut → List Beat → List Attempt
  | _, _, [] => []
  | e, f, b :: bs => (f.attempt? b).toList ++ attempts rule (e.beat rule f b).2 (e.beat rule f b).1 bs

section Append

variable (rule : Rule) (e : Engine) (f : FanOut) (bs bs' : List Beat)

theorem play_append : e.play rule f (bs ++ bs') = (e.play rule f bs).2.play rule (e.play rule f bs).1 bs' := by
  induction bs generalizing e f with
  | nil => rfl
  | cons b bs ih => exact ih _ _

theorem attempts_append : e.attempts rule f (bs ++ bs') =
    e.attempts rule f bs ++ (e.play rule f bs).2.attempts rule (e.play rule f bs).1 bs' := by
  induction bs generalizing e f with
  | nil => rfl
  | cons b bs ih => rw [List.cons_append, attempts, ih, attempts, List.append_assoc, play]

end Append

/-! ## What the next call depends on -/

/-- Two engines with the same stored events whose next call fails alike, and whose next id is the same. -/
structure SameNext (e e' : Engine) : Prop where
  events : e.events = e'.events
  faults : e.faults e.calls = e'.faults e'.calls
  minted : e.minted = e'.minted

section SameNext

variable {e e' : Engine}

theorem SameNext.get (h : e.SameNext e') (tenant center k : String) :
    (e.get tenant center k).1 = (e'.get tenant center k).1 ∧
      (e.get tenant center k).2.events = (e'.get tenant center k).2.events ∧
      (e.get tenant center k).2.minted = (e'.get tenant center k).2.minted := by
  have hsame : e.fails (.get k) = e'.fails (.get k) := congrFun h.faults _
  rcases e.get_cases tenant center k with ⟨hf, hg⟩ | ⟨hf, hg⟩ <;>
    rcases e'.get_cases tenant center k with ⟨hf', hg'⟩ | ⟨hf', hg'⟩ <;> rw [hf, hf'] at hsame
  · rw [hg, hg']
    exact ⟨rfl, h.events, h.minted⟩
  · cases hsame
  · cases hsame
  · rw [hg, hg', h.events]
    exact ⟨rfl, h.events, h.minted⟩

/-- Working off one finding comes to the same for both. -/
theorem SameNext.workOff (h : e.SameNext e') (rule : Rule) (datasource : String) (now : Instant) (out : Outcome) (x : Finding) :
    (e.workOff rule datasource now out [x]).1 = (e'.workOff rule datasource now out [x]).1 ∧
      (e.workOff rule datasource now out [x]).2.events = (e'.workOff rule datasource now out [x]).2.events := by
  refine ⟨?_, ?_⟩
  · cases x with
    | malformed | configured => rfl
    | unmatched k value =>
      obtain ⟨hget, -⟩ := h.get rule.tenantId rule.faultCenterId k
      simp only [Engine.workOff]
      rw [← Prod.eta (e.get _ _ _), ← Prod.eta (e'.get _ _ _), hget]
      cases (e'.get rule.tenantId rule.faultCenterId k).1 <;> rfl
    | matched o =>
      obtain ⟨hget, -, hminted⟩ := h.get rule.tenantId rule.faultCenterId o.fingerprint
      simp only [Engine.workOff]
      rw [← Prod.eta (e.get _ _ _), ← Prod.eta (e'.get _ _ _), hget]
      cases (e'.get rule.tenantId rule.faultCenterId o.fingerprint).1 with
      | error error => rfl
      | ok cached => simp only [mint, hminted]
  · rw [(workOff_events rule datasource now [x] e out).1, (workOff_events rule datasource now [x] e' out).1, h.events]

/-- Storing one event comes to the same for both. -/
theorem SameNext.store (h : e.SameNext e') (rule : String) (event : Event) :
    (e.store rule [event]).1 = (e'.store rule [event]).1 ∧
      (e.store rule [event]).2.events = (e'.store rule [event]).2.events := by
  have hsame : e.fails (.push event.fingerprint) = e'.fails (.push event.fingerprint) := congrFun h.faults _
  rcases e.push_cases event with ⟨hf, hp⟩ | ⟨hf, hp⟩ <;>
    rcases e'.push_cases event with ⟨hf', hp'⟩ | ⟨hf', hp'⟩ <;> rw [hf, hf'] at hsame
  · simp only [Engine.store, hp, hp']
    exact ⟨trivial, h.events⟩
  · cases hsame
  · cases hsame
  · simp only [Engine.store, hp, hp']
    exact ⟨trivial, congrArg (·.push event) h.events⟩

theorem SameNext.advance (h : e.SameNext e') (rule : Rule) (r : Reading) (branch : Branch) :
    (e.advance rule r branch).1 = (e'.advance rule r branch).1 ∧
      (e.advance rule r branch).2.events = (e'.advance rule r branch).2.events := by
  cases branch with
  | looking fs out =>
    cases fs with
    | nil => exact ⟨rfl, h.events⟩
    | cons x fs =>
      obtain ⟨hresult, hevents⟩ := h.workOff rule r.datasource r.asked out x
      rw [Engine.advance, Engine.advance, ← Prod.eta (e.workOff _ _ _ _ _), ← Prod.eta (e'.workOff _ _ _ _ _), hresult]
      cases (e'.workOff rule r.datasource r.asked out [x]).1 <;> exact ⟨rfl, hevents⟩
  | storing out events pushed =>
    cases events with
    | nil => exact ⟨rfl, h.events⟩
    | cons event events =>
      obtain ⟨hcount, hevents⟩ := h.store rule.id event
      exact ⟨congrArg (fun n => Branch.storing out events (pushed + n)) hcount, hevents⟩
  | ended | joined => exact ⟨rfl, h.events⟩

end SameNext

end Engine

/-- What was gathered, and a completion more. -/
def Gathering.plus (g : Gathering) : Completion → Gathering
  | .answered outcome pushed =>
    { g with
      fingerprints := g.fingerprints.addAll outcome.fingerprints
      suppressed := g.suppressed.addAll outcome.suppressed
      queried := g.queried + 1
      pushed := g.pushed + pushed }
  | .failed _ => { g with failed := g.failed + 1 }
  | .panicked p => { g with panic := some p }

/-- What was gathered after a completion is taken in. After a panic, none is. -/
def Gathering.taking (g : Gathering) (c : Completion) : Gathering := if g.panic.isSome then g else g.plus c

theorem Gathering.taking_of_panic {g : Gathering} {p : Panic} (h : g.panic = some p) (c : Completion) :
    g.taking c = g := if_pos (by rw [h]; rfl)

theorem Gathering.taking_of_none {g : Gathering} (h : g.panic = none) (c : Completion) : g.taking c = g.plus c :=
  if_neg (by rw [h]; exact Bool.false_ne_true)

/-- Taking in a completion leaves the stored events alone. -/
theorem Gathering.add_eq (g : Gathering) (e : Engine) (rule datasource : String) (c : Completion) :
    (g.add e rule datasource c).1 = g.taking c ∧ (g.add e rule datasource c).2.events = e.events := by
  unfold add taking
  split
  · exact ⟨rfl, rfl⟩
  · cases c <;> exact ⟨rfl, rfl⟩

namespace Engine

/-- A step for a task that is still to be joined. -/
theorem step_of_ended (rule : Rule) {e : Engine} {f : FanOut} {i : Nat} {r : Reading} {c : Completion}
    (h : f.tasks[i]? = some (r, .ended c)) :
    (e.step rule f i).1 = ⟨f.tasks.set i (r, .joined), f.gathered.taking c⟩ ∧ (e.step rule f i).2.events = e.events := by
  obtain ⟨hg, he⟩ := f.gathered.add_eq e rule.id r.datasource c
  rw [step, h]
  exact ⟨congrArg _ hg, he⟩

section Congr

variable (rule : Rule) {e e' : Engine} (f : FanOut)

theorem SameNext.step (h : e.SameNext e') (i : Nat) :
    (e.step rule f i).1 = (e'.step rule f i).1 ∧ (e.step rule f i).2.events = (e'.step rule f i).2.events := by
  cases hi : f.tasks[i]? with
  | none =>
    simp only [Engine.step, hi]
    exact ⟨trivial, h.events⟩
  | some x =>
    obtain ⟨r, branch⟩ := x
    by_cases hs : ∃ c, branch = .ended c
    · obtain ⟨c, rfl⟩ := hs
      obtain ⟨hf, he⟩ := step_of_ended rule (e := e) hi
      obtain ⟨hf', he'⟩ := step_of_ended rule (e := e') hi
      exact ⟨hf.trans hf'.symm, he.trans (h.events.trans he'.symm)⟩
    · have hs : ∀ c, branch ≠ .ended c := fun c hc => hs ⟨c, hc⟩
      obtain ⟨hbranch, hevents⟩ := h.advance rule r branch
      rw [step_of_getElem? rule hi hs, step_of_getElem? rule hi hs]
      exact ⟨by rw [hbranch], hevents⟩

theorem under_sameNext (h : e.events = e'.events) (fails : Call → Bool) (id : Nat) :
    (e.under fails id).SameNext (e'.under fails id) := ⟨h, rfl, rfl⟩

/-- What a beat does depends on the stored events only. -/
theorem beat_congr (h : e.events = e'.events) (b : Beat) :
    (e.beat rule f b).1 = (e'.beat rule f b).1 ∧ (e.beat rule f b).2.events = (e'.beat rule f b).2.events := by
  cases b with
  | goes place fails id => exact (under_sameNext h fails id).step rule f place
  | timesOut place seconds =>
    simp only [beat]
    split <;> exact ⟨rfl, h⟩

/-- **What is played depends on the beats and on the stored events only.** -/
theorem play_congr (h : e.events = e'.events) (bs : List Beat) :
    (e.play rule f bs).1 = (e'.play rule f bs).1 ∧ (e.play rule f bs).2.events = (e'.play rule f bs).2.events := by
  induction bs generalizing e e' f with
  | nil => exact ⟨rfl, h⟩
  | cons b bs ih =>
    obtain ⟨hf, he⟩ := beat_congr rule f h b
    rw [play, play, hf]
    exact ih _ he

end Congr

end Engine

/-! ## What a beat can do -/

/-- The ways in which a task gets on, and the event that it tries to store. -/
inductive Branch.Turn (rule : Rule) (r : Reading) : Branch → Option (Event × Bool) → Branch → Prop
  /-- A finding is worked off. -/
  | looked {x : Finding} {fs : List Finding} {out out' : Outcome}
      (current : out'.fingerprints = out.fingerprints ++ [x].filterMap Finding.current?)
      (outranked : out'.suppressed = out.suppressed ++ [x].filterMap Finding.outranked?) :
      Turn rule r (looking (x :: fs) out) none (looking fs out')
  /-- A look-up fails, or the time is up. -/
  | failed {fs : List Finding} {out : Outcome} (error : EngineError) :
      Turn rule r (looking fs out) none (ended (.failed error))
  | ready {out : Outcome} : Turn rule r (looking [] out) none (storing out out.events 0)
  | pushed {out : Outcome} {event : Event} {events : List Event} {n : Nat} (stored : Bool) :
      Turn rule r (storing out (event :: events) n) (some (event, stored))
        (storing out events (n + if stored then 1 else 0))
  | finished {out : Outcome} {n : Nat} : Turn rule r (storing out [] n) none (ended (.answered out n))

namespace Engine

/-- **All that a beat can do.** Nothing happens, or one task gets on, or one is joined. -/
theorem beat_cases (rule : Rule) (e : Engine) (f : FanOut) (b : Beat) :
    ((e.beat rule f b).1 = f ∧ (e.beat rule f b).2.events = e.events ∧ f.attempt? b = none) ∨
    (∃ r branch push branch', f.tasks[b.place]? = some (r, branch) ∧ Branch.Turn rule r branch push branch' ∧
      (e.beat rule f b).1 = { f with tasks := f.tasks.set b.place (r, branch') } ∧
      f.attempt? b = push.map (fun p => ⟨b.place, p.1, p.2⟩) ∧
      (e.beat rule f b).2.events = (f.attempt? b).toList.foldl EventCache.after e.events) ∨
    ∃ r c, f.tasks[b.place]? = some (r, .ended c) ∧
      (e.beat rule f b).1 = ⟨f.tasks.set b.place (r, .joined), f.gathered.taking c⟩ ∧
      (e.beat rule f b).2.events = e.events ∧ f.attempt? b = none := by
  cases b with
  | timesOut place seconds =>
    simp only [beat, FanOut.attempt?, Beat.place]
    split
    · next r fs out hi => exact .inr (.inl ⟨r, _, none, _, hi, .failed _, rfl, rfl, rfl⟩)
    · exact .inl ⟨rfl, rfl, trivial⟩
  | goes place fails id =>
    simp only [beat, Beat.place]
    cases hi : f.tasks[place]? with
    | none =>
      simp only [step, FanOut.attempt?, hi]
      exact .inl ⟨trivial, rfl, trivial⟩
    | some x =>
      obtain ⟨r, branch⟩ := x
      cases branch with
      | joined =>
        rw [step_of_getElem? rule hi (by simp)]
        refine .inl ⟨?_, rfl, by simp only [FanOut.attempt?, hi]⟩
        obtain ⟨hlt, hx⟩ := List.getElem?_eq_some_iff.mp hi
        simp only [advance, ← hx, List.set_getElem_self]
      | ended c =>
        obtain ⟨hf, he⟩ := step_of_ended rule (e := e.under fails id) hi
        exact .inr (.inr ⟨r, c, rfl, hf, he, by simp only [FanOut.attempt?, hi]⟩)
      | looking fs out =>
        have hnone : f.attempt? (.goes place fails id) = none := by simp only [FanOut.attempt?, hi]
        rw [step_of_getElem? rule hi (by simp), hnone]
        cases fs with
        | nil => exact .inr (.inl ⟨r, _, none, _, rfl, .ready, rfl, rfl, rfl⟩)
        | cons x fs =>
          have hevents := (workOff_events rule r.datasource r.asked [x] (e.under fails id) out).1
          rw [advance]
          cases hw : (e.under fails id).workOff rule r.datasource r.asked out [x] with
          | mk result e' =>
            rw [hw] at hevents
            cases result with
            | error error => exact .inr (.inl ⟨r, _, none, _, rfl, .failed error, rfl, rfl, hevents⟩)
            | ok out' =>
              obtain ⟨hcurrent, houtranked⟩ := workOff_reports [x] hw
              exact .inr (.inl ⟨r, _, none, _, rfl, .looked hcurrent houtranked, rfl, rfl, hevents⟩)
      | storing out events n =>
        rw [step_of_getElem? rule hi (by simp)]
        cases events with
        | nil =>
          have hnone : f.attempt? (.goes place fails id) = none := by simp only [FanOut.attempt?, hi]
          rw [hnone]
          exact .inr (.inl ⟨r, _, none, _, rfl, .finished, rfl, rfl, rfl⟩)
        | cons event events =>
          have hsome : f.attempt? (.goes place fails id) = some ⟨place, event, !fails (.push event.fingerprint)⟩ := by
            simp only [FanOut.attempt?, hi]
          rw [hsome]
          refine .inr (.inl ⟨r, _, some (event, !fails (.push event.fingerprint)), _, rfl, .pushed _, ?_, rfl, ?_⟩)
          · rcases (e.under fails id).push_cases event with ⟨hf, hp⟩ | ⟨hf, hp⟩ <;>
              simp only [advance, store, hp, show fails (.push event.fingerprint) = _ from hf] <;> rfl
          · rcases (e.under fails id).push_cases event with ⟨hf, hp⟩ | ⟨hf, hp⟩ <;>
              simp only [advance, store, hp, show fails (.push event.fingerprint) = _ from hf] <;> rfl

end Engine

/-! ## Dispatches are played -/

namespace Engine

/-- **Whatever tasks do side by side is played by some beats.** -/
theorem exists_beats_fanOut (rule : Rule) (order : List Nat) (e : Engine) (f : FanOut) :
    ∃ bs, bs.map Beat.place = order ∧ (e.play rule f bs).1 = (e.fanOut rule f order).1 ∧
      (e.play rule f bs).2.events = (e.fanOut rule f order).2.events := by
  induction order generalizing e f with
  | nil => exact ⟨[], rfl, rfl, rfl⟩
  | cons i order ih =>
    obtain ⟨bs, hplaces, hf, he⟩ := ih (e.step rule f i).2 (e.step rule f i).1
    have hsame : (e.under (e.faults e.calls) e.minted).SameNext e := ⟨rfl, rfl, rfl⟩
    obtain ⟨hstep, hevents⟩ := hsame.step rule f i
    obtain ⟨hf', he'⟩ := play_congr rule (e.step rule f i).1 hevents bs
    refine ⟨.goes i (e.faults e.calls) e.minted :: bs, by rw [List.map_cons, hplaces]; rfl, ?_, ?_⟩
    · rw [play, beat, hstep, hf', hf, fanOut]
    · rw [play, beat, hstep, he', he, fanOut]

/-- Readings that are worked off one after the other are played by some beats, whichever were before. -/
theorem exists_beats_gather (rule : Rule) (start : Nat) (readings before : List Reading) (e : Engine) (g : Gathering)
    (last : Nat) : ∃ bs,
      let run := e.play rule ⟨before.map (fun r => (r, .joined)) ++ readings.map fun r => (r, .start rule r), g⟩ bs
      run.1.gathered = (gather rule start e g last readings).1 ∧
        run.2.events = (gather rule start e g last readings).2.events ∧
        ((gather rule start e g last readings).1.panic = none → run.1.IsDone) := by
  induction readings generalizing before e g last with
  | nil =>
    refine ⟨[], rfl, rfl, fun _ x hx => ?_⟩
    rw [play, List.map_nil, List.append_nil] at hx
    obtain ⟨r, -, rfl⟩ := List.mem_map.mp hx
    rfl
  | cons r readings ih =>
    cases hcut : g.panic.isSome && last < r.elapsed with
    | true =>
      rw [gather, hcut]
      refine ⟨[], rfl, rfl, fun hpanic => ?_⟩
      have hpanic : g.panic = none := hpanic
      rw [hpanic] at hcut
      cases hcut
    | false =>
      let f : FanOut := ⟨before.map (fun r => (r, .joined)) ++ (r :: readings).map fun r => (r, .start rule r), g⟩
      have hr : f.tasks[before.length]? = some (r, .start rule r) := by
        simp [f]
      -- First the task of this reading, from its start until it is joined.
      obtain ⟨n, hn⟩ := fanOut_alone rule (e := e.atTime (start + r.elapsed)) hr
      obtain ⟨bs, -, hf, he⟩ := exists_beats_fanOut rule (List.replicate n before.length)
        (e.atTime (start + r.elapsed)) f
      have halone := hn []
      rw [List.append_nil] at halone
      rw [halone] at hf he
      have hwaited : e.events = (e.atTime (start + r.elapsed)).events := rfl
      obtain ⟨hf', he'⟩ := play_congr rule f hwaited bs
      rw [hf] at hf'
      rw [he] at he'
      -- Then those of the others.
      let done := (e.atTime (start + r.elapsed)).complete rule r.datasource r.asked r.reply
      let gathered := g.add done.2 rule.id r.datasource done.1
      obtain ⟨bs', hg, hevents, hdone⟩ := ih (before ++ [r]) gathered.2 gathered.1 r.elapsed
      have htasks : f.tasks.set before.length (r, .joined) =
          (before ++ [r]).map (fun r => (r, .joined)) ++ readings.map fun r => (r, .start rule r) := by
        simp [f]
      obtain ⟨hf'', he''⟩ := play_congr rule ⟨(before ++ [r]).map (fun r => (r, .joined)) ++
        readings.map fun r => (r, .start rule r), gathered.1⟩ he' bs'
      have hgather : gather rule start e g last (r :: readings) =
          gather rule start gathered.2 gathered.1 r.elapsed readings := by
        rw [gather, hcut]
        rfl
      refine ⟨bs ++ bs', ?_⟩
      rw [play_append, hgather]
      have hfirst : (e.play rule f bs).1 = ⟨(before ++ [r]).map (fun r => (r, .joined)) ++
        readings.map fun r => (r, .start rule r), gathered.1⟩ := by rw [hf', ← htasks]; rfl
      rw [hfirst]
      refine ⟨?_, ?_, fun hpanic => ?_⟩
      · rw [hf'']
        exact hg
      · exact he''.trans hevents
      · rw [hf'']
        exact hdone hpanic

/-- **A dispatch is played by some beats**, and all its tasks are joined in the end unless there is a panic. -/
theorem exists_beats_dispatch (rule : Rule) (readings : List Reading) (e : Engine) : ∃ bs,
    let run := e.play rule (.start rule readings) bs
    run.1.gathered.report = (e.dispatch rule readings).1 ∧ run.2.events = (e.dispatch rule readings).2.events ∧
      ((e.dispatch rule readings).1.isOk = true → run.1.IsDone) := by
  obtain ⟨bs, hg, he, hdone⟩ := exists_beats_gather rule e.time readings [] e .empty 0
  refine ⟨bs, congrArg Gathering.report hg, he, fun hok => hdone ?_⟩
  have hreport : (e.dispatch rule readings).1 = (gather rule e.time e .empty 0 readings).1.report := rfl
  rw [hreport, Gathering.report] at hok
  split at hok
  · cases hok
  · next h => exact h

end Engine

end Alerting
