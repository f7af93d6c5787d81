import Alerting.Proofs.Engine.Run

/-!
# Failures of calls that are not made

Which calls fail is said of all calls at once, also of those that are never made. What the engine does depends only on
the calls that it makes (`Engine.Local`). This holds for every call and for everything that is put together from calls,
up to a whole run (`local_run`). So a step in which no call fails does what it does when none ever fails
(`Local.healthy_of_noneFailed`).
-/

namespace Alerting

namespace Engine

/-- The same engine when other calls fail. -/
def withFaults (e : Engine) (faults : Nat → Call → Bool) : Engine := { e with faults := faults }

/-- What a step does depends only on which of its own calls fail. -/
structure Local {α : Type} (f : Engine → Result α) : Prop where
  faults : ∀ e, (f e).2.faults = e.faults
  calls : ∀ e, e.calls ≤ (f e).2.calls
  agrees : ∀ e faults, (∀ n c, e.calls ≤ n → n < (f e).2.calls → faults n c = e.faults n c) →
    f (e.withFaults faults) = ((f e).1, (f e).2.withFaults faults)

namespace Local

variable {α β : Type}

/-- A step without calls. -/
theorem of_silent {f : Engine → Result α} (hf : ∀ e, (f e).2.faults = e.faults ∧ (f e).2.calls = e.calls)
    (h : ∀ e faults, f (e.withFaults faults) = ((f e).1, (f e).2.withFaults faults)) : Local f :=
  ⟨fun e => (hf e).1, fun e => Nat.le_of_eq (hf e).2.symm, fun e faults _ => h e faults⟩

theorem pure (a : α) : Local fun e => (a, e) := of_silent (fun _ => ⟨rfl, rfl⟩) fun _ _ => rfl

/-- A step that begins with another, and then goes on by its result. -/
theorem bind {f : Engine → Result α} {g : Engine → Result β} (hf : Local f)
    (h : ∀ a, ∃ rest, Local rest ∧ ∀ e e', f e = (a, e') → g e = rest e') : Local g := by
  -- The rest after a result, whatever the engine was before.
  let rest (a : α) : Engine → Result β := (h a).choose
  have hrest : ∀ a, Local (rest a) := fun a => (h a).choose_spec.1
  have hg : ∀ e, g e = rest (f e).1 (f e).2 := fun e => (h (f e).1).choose_spec.2 e (f e).2 rfl
  refine ⟨fun e => ?_, fun e => ?_, fun e faults h => ?_⟩ <;> rw [hg]
  · rw [(hrest _).faults, hf.faults]
  · exact Nat.le_trans (hf.calls e) ((hrest _).calls _)
  · rw [hg] at h
    have hfirst := hf.agrees e faults fun n c hn hlt => h n c hn (Nat.lt_of_lt_of_le hlt ((hrest _).calls _))
    rw [hg, hfirst]
    refine (hrest _).agrees _ faults fun n c hn hlt => ?_
    rw [hf.faults]
    exact h n c (Nat.le_trans (hf.calls e) hn) hlt

theorem map {f : Engine → Result α} (hf : Local f) (g : α → β) : Local fun e => (g (f e).1, (f e).2) :=
  hf.bind fun a => ⟨_, .pure (g a), fun e e' he => by rw [he]⟩

theorem noted {f : Engine → Result α} (hf : Local f) (n : Notice) : Local fun e => f (e.note n) :=
  (of_silent (f := fun e => ((), e.note n)) (fun _ => ⟨rfl, rfl⟩) fun _ _ => rfl).bind fun _ =>
    ⟨f, hf, fun e e' he => by cases he; rfl⟩

theorem waited {f : Engine → Result α} (hf : Local f) (time : Nat) : Local fun e => f (e.atTime time) :=
  (of_silent (f := fun e => ((), e.atTime time)) (fun _ => ⟨rfl, rfl⟩) fun _ _ => rfl).bind fun _ =>
    ⟨f, hf, fun e e' he => by cases he; rfl⟩

theorem minted {f : String → Engine → Result α} (hf : ∀ id, Local (f id)) : Local fun e => f e.mint.1 e.mint.2 :=
  (of_silent (f := mint) (fun _ => ⟨rfl, rfl⟩) fun _ _ => rfl).bind fun id =>
    ⟨f id, hf id, fun e e' he => by rw [he]⟩

theorem perform (c : Call) {act : Engine → α × Engine} (hact : Local act) : Local fun e => e.perform c act := by
  have hcalls : ∀ e : Engine, e.calls < (e.perform c act).2.calls := by
    intro e
    rcases e.perform_cases c act with ⟨-, hp⟩ | ⟨-, hp⟩ <;> rw [hp]
    · exact Nat.lt_succ_self e.calls
    · exact hact.calls e.counted
  refine ⟨fun e => ?_, fun e => Nat.le_of_lt (hcalls e), fun e faults h => ?_⟩
  · rcases e.perform_cases c act with ⟨-, hp⟩ | ⟨-, hp⟩ <;> rw [hp]
    · rfl
    · exact hact.faults e.counted
  · have hsame : (e.withFaults faults).fails c = e.fails c := h e.calls c (Nat.le_refl _) (hcalls e)
    rcases e.perform_cases c act with ⟨hf, hp⟩ | ⟨hf, hp⟩ <;> rw [hp] at h ⊢ <;> rw [hf] at hsame
    · simp only [Engine.perform, hsame, if_true]
      rfl
    · have hdone := hact.agrees e.counted faults fun n c hn hlt => h n c (Nat.le_of_succ_le hn) hlt
      simp only [Engine.perform, hsame, Bool.false_eq_true, if_false]
      have hcounted : (e.withFaults faults).counted = e.counted.withFaults faults := rfl
      rw [hcounted, hdone]

end Local

/-! ## Calls that fail as told -/

section Fate

variable {α : Type} {f : Engine → Result α} {e : Engine} {about fate : Call → Bool}

theorem Coherent.withFaults (h : e.Coherent) (faults : Nat → Call → Bool) : (e.withFaults faults).Coherent := h

/-- The same engine when some calls fail as told. -/
def withFate (e : Engine) (about fate : Call → Bool) : Engine :=
  e.withFaults fun n c => if about c then fate c else e.faults n c

/-- Those calls that a step makes fail as told: the step is what it is if all of them do. -/
def FailsAs (e : Engine) (f : Engine → Result α) (about fate : Call → Bool) : Prop :=
  f (e.withFate about fate) = ((f e).1, (f e).2.withFate about fate)

theorem FailsAs.fst (h : e.FailsAs f about fate) : (f (e.withFate about fate)).1 = (f e).1 := by
  rw [FailsAs] at h
  rw [h]

/-- Calls fail as told if all calls that are numbered like those of the step do. -/
theorem FailsAs.of_faults (hf : Local f)
    (h : ∀ n c, e.calls ≤ n → n < (f e).2.calls → about c = true → e.faults n c = fate c) :
    e.FailsAs f about fate := by
  have hsame := hf.agrees e (fun n c => if about c then fate c else e.faults n c) fun n c hn hlt => by
    split
    · next hc => exact (h n c hn hlt hc).symm
    · rfl
  rw [FailsAs, withFate, hsame, withFate, hf.faults]

end Fate

/-! ## Calls -/

theorem local_get (tenant center fingerprint : String) : Local fun e => e.get tenant center fingerprint :=
  .perform _ (.of_silent (fun _ => ⟨rfl, rfl⟩) fun _ _ => rfl)

theorem local_push (event : Event) : Local fun e => e.push event :=
  .perform _ (.of_silent (fun _ => ⟨rfl, rfl⟩) fun _ _ => rfl)

theorem local_remove (tenant center fingerprint : String) : Local fun e => e.remove tenant center fingerprint :=
  .perform _ (.of_silent (fun _ => ⟨rfl, rfl⟩) fun _ _ => rfl)

theorem local_pendingSet (tenant rule fingerprint : String) (time : Instant) :
    Local fun e => e.pendingSet tenant rule fingerprint time :=
  .perform _ (.of_silent (fun _ => ⟨rfl, rfl⟩) fun _ _ => rfl)

theorem local_pendingDelete (tenant rule fingerprint : String) :
    Local fun e => e.pendingDelete tenant rule fingerprint :=
  .perform _ (.of_silent (fun _ => ⟨rfl, rfl⟩) fun _ _ => rfl)

theorem local_getAll (key : String) : Local fun e => e.getAll key :=
  .perform _ (.of_silent (fun _ => ⟨rfl, rfl⟩) fun _ _ => rfl)

theorem local_pendingList (tenant rule : String) : Local fun e => e.pendingList tenant rule :=
  .perform _ (.of_silent (fun _ => ⟨rfl, rfl⟩) fun _ _ => rfl)

theorem local_info (key : String) : Local fun e => e.info key :=
  .perform _ (.of_silent (fun _ => ⟨rfl, rfl⟩) fun _ _ => rfl)

/-! ## Dispatches -/

theorem local_workOff (rule : Rule) (datasource : String) (now : Instant) (out : Outcome) (fs : List Finding) :
    Local fun e => workOff rule datasource now e out fs := by
  induction fs generalizing out with
  | nil => exact .pure _
  | cons f fs ih =>
    cases f with
    | malformed severity error => exact (ih out).noted _
    | configured fingerprint => exact ih _
    | unmatched fingerprint value =>
      refine (local_get rule.tenantId rule.faultCenterId fingerprint).bind fun r => ?_
      cases r with
      | error error => exact ⟨_, .pure _, fun e e' he => by rw [workOff, he]⟩
      | ok cached => exact ⟨_, ih _, fun e e' he => by rw [workOff, he]⟩
    | matched o =>
      refine (local_get rule.tenantId rule.faultCenterId o.fingerprint).bind fun r => ?_
      cases r with
      | error error => exact ⟨_, .pure _, fun e e' he => by rw [workOff, he]⟩
      | ok cached =>
        let out' (id : String) : Outcome :=
          { fingerprints := if o.suppressed then out.fingerprints else out.fingerprints ++ [o.fingerprint]
            suppressed := if o.suppressed then out.suppressed ++ [o.fingerprint] else out.suppressed
            events := out.events ++ [o.event rule datasource id now cached] }
        exact ⟨_, .minted fun id => ih (out' id), fun e e' he => by rw [workOff, he]⟩

theorem local_store (rule : String) (events : List Event) : Local fun e => store rule e events := by
  induction events with
  | nil => exact .pure _
  | cons event events ih =>
    refine (local_push event).bind fun r => ?_
    cases r with
    | error error => exact ⟨_, ih.noted _, fun e e' he => by rw [store, he]⟩
    | ok => exact ⟨_, ih.map (· + 1), fun e e' he => by rw [store, he]⟩

theorem local_complete (rule : Rule) (datasource : String) (now : Instant) (reply : Except Failure Answer) :
    Local fun e => e.complete rule datasource now reply := by
  rcases reply with (error | p) | answer
  · exact .pure _
  · exact .pure _
  · refine (local_workOff rule datasource now .empty (rule.findings answer)).bind fun r => ?_
    cases r with
    | error error => exact ⟨_, .pure (.failed error), fun e e' he => by simp only [complete, he]⟩
    | ok out =>
      exact ⟨_, (local_store rule.id out.events).map (.answered out), fun e e' he => by simp only [complete, he]⟩

theorem local_add (g : Gathering) (rule datasource : String) (c : Completion) :
    Local fun e => g.add e rule datasource c := by
  unfold Gathering.add
  split
  · exact .pure _
  · cases c with
    | answered => exact .pure _
    | failed error => exact (Local.pure _).noted _
    | panicked => exact .pure _

theorem local_gather (rule : Rule) (start : Nat) (readings : List Reading) (g : Gathering) (last : Nat) :
    Local fun e => gather rule start e g last readings := by
  induction readings generalizing g last with
  | nil => exact .pure _
  | cons r readings ih =>
    by_cases hlate : (g.panic.isSome && last < r.elapsed) = true
    · have hstop : (fun e => gather rule start e g last (r :: readings)) = fun e => (g, e) := by
        funext e
        rw [gather, if_pos hlate]
      rw [hstop]
      exact .pure g
    · refine ((local_complete rule r.datasource r.asked r.reply).waited (start + r.elapsed)).bind fun c => ?_
      refine ⟨fun e => gather rule start (g.add e rule.id r.datasource c).2 (g.add e rule.id r.datasource c).1
        r.elapsed readings, ?_, fun e e' he => ?_⟩
      · exact (local_add g rule.id r.datasource c).bind fun g' => ⟨_, ih g' r.elapsed, fun e e' he => by rw [he]⟩
      · rw [gather, if_neg hlate, he]

theorem local_dispatch (rule : Rule) (readings : List Reading) : Local fun e => e.dispatch rule readings := by
  have h : ∀ start, Local fun e => gather rule start e .empty 0 readings := fun start =>
    local_gather rule start readings .empty 0
  refine ⟨fun e => (h e.time).faults e, fun e => (h e.time).calls e, fun e faults hsame => ?_⟩
  have hg := (h e.time).agrees e faults hsame
  simp only [dispatch]
  rw [show (e.withFaults faults).time = e.time from rfl, hg]

theorem local_proceed (t : AnswerTask) : Local fun e => e.proceed t := by
  unfold proceed
  split
  · next f fs _ =>
    refine (local_workOff t.rule t.datasource t.now t.outcome [f]).bind fun r => ?_
    cases r with
    | error error => exact ⟨_, (Local.pure (t.left [] .empty)).noted _, fun e e' he => by rw [he]⟩
    | ok out => exact ⟨_, .pure (t.left fs out), fun e e' he => by rw [he]⟩
  · exact (local_store _ _).map fun _ => _
  · exact .pure t

theorem local_raced (order : List Nat) (tasks : List AnswerTask) : Local fun e => e.raced tasks order := by
  induction order generalizing tasks with
  | nil => exact .pure tasks
  | cons i order ih =>
    cases ht : tasks[i]? with
    | none =>
      have hskip : (fun e : Engine => e.raced tasks (i :: order)) = fun e => e.raced tasks order := by
        funext e
        rw [raced, ht]
      rw [hskip]
      exact ih tasks
    | some t =>
      exact (local_proceed t).bind fun t' => ⟨_, ih (tasks.set i t'), fun e e' he => by simp only [raced, ht, he]⟩

/-! ## Passes -/

section Passes

variable (config : Config) (scope : Scope) (now : Instant) (pending : Table Instant) (info : Option FaultCenter)
  (r : RecoveryReport) (fingerprint : String) (event : Event)

theorem local_discard : Local fun e => e.discard r fingerprint event := by
  refine (local_remove event.tenantId event.faultCenterId fingerprint).bind fun result => ?_
  cases result with
  | error error => exact ⟨_, (Local.pure (r.skip fingerprint)).noted _, fun e e' he => by rw [discard, he]⟩
  | ok => exact ⟨_, .pure _, fun e e' he => by rw [discard, he]⟩

theorem local_clearPending : Local fun e => ((), e.clearPending scope fingerprint) := by
  refine (local_pendingDelete scope.tenant scope.rule fingerprint).bind fun result => ?_
  cases result with
  | error error => exact ⟨_, (Local.pure ()).noted _, fun e e' he => by rw [clearPending, he]⟩
  | ok => exact ⟨_, .pure (), fun e e' he => by rw [clearPending, he]⟩

theorem local_activate (event : Option Event) : Local fun e => e.activate scope now r fingerprint event := by
  cases event with
  | none => exact (local_clearPending scope fingerprint).map fun _ => r
  | some event =>
    unfold activate
    dsimp only
    cases event.transition .alerting now with
    | error error => exact (Local.pure (r.skip fingerprint)).noted _
    | ok next =>
      dsimp only
      refine (local_push next).bind fun result => ?_
      cases result with
      | error error => exact ⟨_, (Local.pure (r.skip fingerprint)).noted _, fun e e' he => by rw [he]⟩
      | ok => exact ⟨_, (local_clearPending scope fingerprint).map fun _ => _, fun e e' he => by rw [he]⟩

theorem local_beginPending : Local fun e => e.beginPending scope now r event := by
  unfold beginPending
  cases event.transition .pendingRecovery now with
  | error error => exact (Local.pure (r.skip event.fingerprint)).noted _
  | ok next =>
    refine (local_pendingSet scope.tenant scope.rule event.fingerprint now).bind fun result => ?_
    cases result with
    | error error => exact ⟨_, (Local.pure (r.skip event.fingerprint)).noted _, fun e e' he => by rw [he]⟩
    | ok =>
      refine ⟨_, (local_push next).bind fun result => ?_, fun e e' he => by rw [he]⟩
      cases result with
      | error error => exact ⟨_, (Local.pure (r.skip event.fingerprint)).noted _, fun e e' he => by rw [he]⟩
      | ok => exact ⟨_, .pure _, fun e e' he => by rw [he]⟩

theorem local_completeRecovery : Local fun e => e.completeRecovery scope now r event := by
  unfold completeRecovery
  cases event.transition .recovered now with
  | error error => exact (Local.pure (r.skip event.fingerprint)).noted _
  | ok next =>
    dsimp only
    refine (local_push next).bind fun result => ?_
    cases result with
    | error error => exact ⟨_, (Local.pure (r.skip event.fingerprint)).noted _, fun e e' he => by rw [he]⟩
    | ok => exact ⟨_, (local_clearPending scope event.fingerprint).map fun _ => _, fun e e' he => by rw [he]⟩

theorem local_settle : Local fun e => e.settle config scope info pending now r fingerprint event := by
  unfold settle
  cases pending.get? fingerprint with
  | none => exact local_beginPending scope now r event
  | some since =>
    by_cases hg : event.status = .pendingRecovery ∧ config.graceOf event info ≤ now.elapsedSince since
    · simp only [if_pos hg]
      exact local_completeRecovery scope now r event
    · simp only [if_neg hg]
      exact .pure r

theorem local_jobs (jobs : List (String × Job)) :
    Local fun e => jobs.foldl (doJob config scope now pending info) (r, e) := by
  induction jobs generalizing r with
  | nil => exact .pure r
  | cons x jobs ih =>
    have hjob : Local fun e => doJob config scope now pending info (r, e) x := by
      obtain ⟨fingerprint, job⟩ := x
      cases job with
      | discard event => exact local_discard r fingerprint event
      | reactivate event => exact local_activate scope now r fingerprint event
      | settle event => exact local_settle config scope now pending info r fingerprint event
    exact hjob.bind fun r' => ⟨_, ih r', fun e e' he => by rw [List.foldl_cons, he]⟩

theorem local_reconcileRead (current suppressed : List String) (all : Table Event) :
    Local fun e => e.reconcileRead config scope current suppressed now all pending info := by
  simp only [reconcileRead_eq_jobs]
  exact local_jobs config scope now pending info .empty _

theorem local_reconcile (current suppressed : List String) :
    Local fun e => e.reconcile config scope current suppressed now := by
  unfold reconcile
  by_cases hkeys : (scope.eventsKey.isEmpty || scope.infoKey.isEmpty) = true
  · simp only [if_pos hkeys]
    exact (Local.pure (Except.ok RecoveryReport.empty)).noted _
  simp only [if_neg hkeys]
  refine (local_getAll scope.eventsKey).bind fun all => ?_
  cases all with
  | error error => exact ⟨_, .pure (.error error), fun e e' he => by rw [he]⟩
  | ok all =>
    refine ⟨_, (local_pendingList scope.tenant scope.rule).bind fun pending => ?_,
      fun e e' he => by simp only [he]; rfl⟩
    cases pending with
    | error error => exact ⟨_, .pure (.error error), fun e e' he => by rw [he]⟩
    | ok pending =>
      refine ⟨_, (local_info scope.infoKey).bind fun info => ?_, fun e e' he => by simp only [he]; rfl⟩
      cases info with
      | error error => exact ⟨_, .pure (.error error), fun e e' he => by rw [he]⟩
      | ok info =>
        exact ⟨_, (local_reconcileRead config scope now pending info _ suppressed all).map Except.ok,
          fun e e' he => by rw [he]⟩

end Passes

/-! ## Runs -/

theorem local_after (config : Config) (w : Work) : Local fun e => ((), e.after config w) := by
  cases w with
  | dispatch rule readings => exact (local_dispatch rule readings).map fun _ => ()
  | race readings order =>
    simp only [after, ← raced_snd]
    exact (local_raced order (AnswerTask.ofReadings readings)).map fun _ => ()
  | recover scope current suppressed now => exact (local_reconcile config scope now current suppressed).map fun _ => ()

/-- **A run depends only on which of its own calls fail.** -/
theorem local_run (config : Config) (works : List Work) : Local fun e => ((), e.run config works) := by
  induction works with
  | nil => exact .pure ()
  | cons w works ih => exact (local_after config w).bind fun _ => ⟨_, ih, fun e e' he => by cases he; rfl⟩

theorem faults_run (config : Config) (works : List Work) (e : Engine) : (e.run config works).faults = e.faults :=
  (local_run config works).faults e

theorem healthy_active : active.Healthy := by
  intro n c
  rw [active, faults_run]
  rfl

/-- None of the calls that were made between two states of an engine has failed. -/
def NoneFailed (e e' : Engine) : Prop := ∀ n c, e.calls ≤ n → n < e'.calls → e.faults n c = false

/-- What has not failed in a run has not failed in the beginning of the run. -/
theorem NoneFailed.of_prefix {config : Config} {works before : List Work} {e : Engine}
    (h : e.NoneFailed (e.run config works)) (hb : before <+: works) : e.NoneFailed (e.run config before) := by
  obtain ⟨rest, rfl⟩ := hb
  have hrun : e.run config (before ++ rest) = (e.run config before).run config rest := List.foldl_append
  rw [hrun] at h
  exact fun n c hn hlt => h n c hn (Nat.lt_of_lt_of_le hlt ((local_run config rest).calls (e.run config before)))

theorem Healthy.noneFailed {e : Engine} (h : e.Healthy) (e' : Engine) : e.NoneFailed e' := fun n c _ _ => h n c

/-- Where one call fails, none fails before it, and none after it. -/
theorem noneFailed_of_once {k : Nat} {e e' : Engine} (hf : e.faults = fun n _ => n == k)
    (h : e'.calls ≤ k ∨ k < e.calls) : e.NoneFailed e' := by
  intro n c hn hlt
  rw [hf]
  simp only [beq_eq_false_iff_ne]
  omega

/-- None fails after a later step either. -/
theorem Local.noneFailed_of_once {α : Type} {f : Engine → Result α} (hf : Local f) {k : Nat} {e : Engine}
    (hk : e.faults = fun n _ => n == k) (h : k < e.calls) (e' : Engine) : (f e).2.NoneFailed e' :=
  Engine.noneFailed_of_once ((hf.faults e).trans hk) (.inr (Nat.lt_of_lt_of_le h (hf.calls e)))

/-- Where none fails in two steps, none fails in the first one and none in the second. -/
theorem Local.noneFailed_of_twice {α β : Type} {f : Engine → Result α} {g : Engine → Result β} (hf : Local f)
    (hg : Local g) {e : Engine} (h : e.NoneFailed (g (f e).2).2) :
    e.NoneFailed (f e).2 ∧ (f e).2.NoneFailed (g (f e).2).2 := by
  refine ⟨fun n c hle hlt => h n c hle (Nat.lt_of_lt_of_le hlt (hg.calls (f e).2)), fun n c hle hlt => ?_⟩
  rw [hf.faults]
  exact h n c (Nat.le_trans (hf.calls e) hle) hlt

/-- A step in which no call fails does what it does when none ever fails. -/
theorem Local.healthy_of_noneFailed {α : Type} {f : Engine → Result α} (hf : Local f) {e : Engine}
    (h : e.NoneFailed (f e).2) : f e.healthy = ((f e).1, (f e).2.healthy) :=
  hf.agrees e (fun _ _ => false) fun n c hn hlt => (h n c hn hlt).symm

/-- **A pass in which no call fails ends well, and every fingerprint comes to what its cell says.** -/
theorem reconcile_of_noneFailed {e : Engine} (config : Config) (scope : Scope) (current suppressed : List String)
    (now : Instant) (hc : e.Coherent) (hk : scope.eventsKey.isEmpty = false) (hi : scope.infoKey.isEmpty = false)
    (h : e.NoneFailed (e.reconcile config scope current suppressed now).2) :
    (∃ r, (e.reconcile config scope current suppressed now).1 = .ok r) ∧ ∀ k,
      (e.reconcile config scope current suppressed now).2.cell scope k =
        ((e.cell scope k).pass config scope (e.infos.get? scope.infoKey) now (isCurrent current k)
          (suppressed.contains k)).2 := by
  obtain ⟨r, e', hr, -, -, -, hcell⟩ :=
    reconcile_of_healthy config scope current suppressed now (healthy_healthy e) hc hk hi
  rw [(local_reconcile config scope now current suppressed).healthy_of_noneFailed h] at hr
  obtain ⟨hresult, rfl⟩ := Prod.mk.inj hr
  exact ⟨⟨r, hresult⟩, fun k => (hcell k).1⟩

end Engine

end Alerting
