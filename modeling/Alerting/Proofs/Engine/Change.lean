import Alerting.Recovery

/-!
# Changes of an engine

A call either fails and is only counted, or does what it is for (`perform_cases`). What the work on an engine does to
it is therefore a chain of few small changes: those that touch no cache (`Quiet`), the stores of a dispatch (`stored`)
and the changes that a recovery pass makes for a fingerprint (`Deal`). Whatever the first two keep, a dispatch keeps
(`dispatch_keeps`). A dispatch ends in a report exactly if no reply panicked (`exists_report_dispatch_iff`).

Every stored event stands at the place that its own fields name (`Coherent`).
-/

namespace Alerting

/-! ## Moves -/

theorem Status.allows_self (s : Status) : s.allows s = true := by cases s <;> rfl

/-- A recovered alert stays so. -/
theorem Status.ne_recovered_of_allows {s target : Status} (h : s.allows target = true) (hne : target ≠ .recovered) :
    s ≠ .recovered := by
  rintro rfl
  cases target <;> simp [allows] at h hne

theorem Status.isTerminal_iff {s : Status} : s.isTerminal = true ↔ s = .recovered := by cases s <;> simp [isTerminal]

namespace Event

/-- The event moved to another state, whether that is allowed or not. -/
def moved (e : Event) (target : Status) (time : Instant) : Event :=
  { e with
    status := target
    lastEvalTime := time
    recoverTime := if target = .recovered ∧ e.status ≠ .recovered then some time else e.recoverTime }

theorem transition_of_allows {e : Event} {target : Status} {time : Instant} (h : e.status.allows target = true) :
    e.transition target time = .ok (e.moved target time) := by
  simp [transition, h, moved]

/-- What is made by a move is the moved event, and the states allow it. -/
theorem of_transition_ok {e next : Event} {target : Status} {time : Instant}
    (h : e.transition target time = .ok next) : e.status.allows target = true ∧ next = e.moved target time := by
  unfold transition at h
  split at h
  · next ha =>
    cases h
    exact ⟨ha, rfl⟩
  · cases h

/-- The event belongs under a key and a fingerprint. -/
def LiesAt (e : Event) (key fingerprint : String) : Prop := EventCache.keyOf e = key ∧ e.fingerprint = fingerprint

/-- The tenant and the rule that an event belongs to. -/
def owner (e : Event) : String × String := (e.tenantId, e.ruleId)

end Event

def Rule.owner (r : Rule) : String × String := (r.tenantId, r.id)

def Scope.owner (s : Scope) : String × String := (s.tenant, s.rule)

namespace Engine

/-! ## Small changes -/

/-- The engine with an event stored. -/
def stored (e : Engine) (event : Event) : Engine :=
  { e with
    events := e.events.push event
    writes := (e.time, ⟨e.events.find? (EventCache.keyOf event) event.fingerprint, event⟩) :: e.writes }

/-- The engine without the event of a fingerprint. -/
def removed (e : Engine) (tenant center fingerprint : String) : Engine :=
  { e with events := e.events.remove tenant center fingerprint }

/-- The engine with a fingerprint missing since `time`. -/
def missed (e : Engine) (tenant rule fingerprint : String) (time : Instant) : Engine :=
  { e with pending := e.pending.set tenant rule fingerprint time }

/-- The engine with a fingerprint no longer missing. -/
def found (e : Engine) (tenant rule fingerprint : String) : Engine :=
  { e with pending := e.pending.delete tenant rule fingerprint }

/-- A change that touches no cache. -/
inductive Quiet : Engine → Engine → Prop
  | counted (e : Engine) : Quiet e e.counted
  | noted (e : Engine) (n : Notice) : Quiet e (e.note n)
  | minted (e : Engine) : Quiet e e.mint.2
  | waited (e : Engine) (time : Nat) : Quiet e (e.atTime time)

/-- A change that a recovery pass makes for one fingerprint. An event is moved on only from what stands in its
place. -/
inductive Deal (scope : Scope) (fingerprint : String) : Engine → Engine → Prop
  | quiet {e e' : Engine} : Quiet e e' → Deal scope fingerprint e e'
  | moved (e : Engine) (old : Event) (target : Status) (time : Instant) :
      e.events.find? scope.eventsKey fingerprint = some old → old.LiesAt scope.eventsKey fingerprint →
      old.status.allows target = true → Deal scope fingerprint e (e.stored (old.moved target time))
  | removed (e : Engine) (tenant center : String) : Alerting.eventsKey tenant center = scope.eventsKey →
      Deal scope fingerprint e (e.removed tenant center fingerprint)
  | missed (e : Engine) (time : Instant) :
      Deal scope fingerprint e (e.missed scope.tenant scope.rule fingerprint time)
  | found (e : Engine) : Deal scope fingerprint e (e.found scope.tenant scope.rule fingerprint)

/-! ## Calls -/

/-- A call fails and is only counted, or does what it is for. -/
theorem perform_cases {α : Type} (e : Engine) (c : Call) (act : Engine → α × Engine) :
    (e.fails c = true ∧ e.perform c act = (.error c.error, e.counted)) ∨
      (e.fails c = false ∧ e.perform c act = (.ok (act e.counted).1, (act e.counted).2)) := by
  cases h : e.fails c <;> simp [perform, h]

theorem push_cases (e : Engine) (event : Event) :
    (e.fails (.push event.fingerprint) = true ∧
        e.push event = (.error (Call.push event.fingerprint).error, e.counted)) ∨
      (e.fails (.push event.fingerprint) = false ∧ e.push event = (.ok (), e.counted.stored event)) :=
  e.perform_cases _ _

theorem remove_cases (e : Engine) (tenant center fingerprint : String) :
    (e.fails (.remove fingerprint) = true ∧
        e.remove tenant center fingerprint = (.error (Call.remove fingerprint).error, e.counted)) ∨
      (e.fails (.remove fingerprint) = false ∧
        e.remove tenant center fingerprint = (.ok (), e.counted.removed tenant center fingerprint)) :=
  e.perform_cases _ _

theorem pendingSet_cases (e : Engine) (tenant rule fingerprint : String) (time : Instant) :
    (e.fails (.pendingSet fingerprint) = true ∧
        e.pendingSet tenant rule fingerprint time = (.error (Call.pendingSet fingerprint).error, e.counted)) ∨
      (e.fails (.pendingSet fingerprint) = false ∧
        e.pendingSet tenant rule fingerprint time = (.ok (), e.counted.missed tenant rule fingerprint time)) :=
  e.perform_cases _ _

theorem pendingDelete_cases (e : Engine) (tenant rule fingerprint : String) :
    (e.fails (.pendingDelete fingerprint) = true ∧
        e.pendingDelete tenant rule fingerprint = (.error (Call.pendingDelete fingerprint).error, e.counted)) ∨
      (e.fails (.pendingDelete fingerprint) = false ∧
        e.pendingDelete tenant rule fingerprint = (.ok (), e.counted.found tenant rule fingerprint)) :=
  e.perform_cases _ _

theorem get_cases (e : Engine) (tenant center fingerprint : String) :
    (e.fails (.get fingerprint) = true ∧
        e.get tenant center fingerprint = (.error (Call.get fingerprint).error, e.counted)) ∨
      (e.fails (.get fingerprint) = false ∧
        e.get tenant center fingerprint = (.ok (e.events.get? tenant center fingerprint), e.counted)) :=
  e.perform_cases _ _

theorem getAll_cases (e : Engine) (key : String) :
    (e.fails (.getAll key) = true ∧ e.getAll key = (.error (Call.getAll key).error, e.counted)) ∨
      (e.fails (.getAll key) = false ∧ e.getAll key = (.ok (e.events.all key), e.counted)) :=
  e.perform_cases _ _

theorem pendingList_cases (e : Engine) (tenant rule : String) :
    (e.fails (.pendingList rule) = true ∧
        e.pendingList tenant rule = (.error (Call.pendingList rule).error, e.counted)) ∨
      (e.fails (.pendingList rule) = false ∧
        e.pendingList tenant rule = (.ok (e.pending.list tenant rule), e.counted)) :=
  e.perform_cases _ _

theorem info_cases (e : Engine) (key : String) :
    (e.fails (.info key) = true ∧ e.info key = (.error (Call.info key).error, e.counted)) ∨
      (e.fails (.info key) = false ∧ e.info key = (.ok (e.infos.get? key), e.counted)) :=
  e.perform_cases _ _

/-! ## Dispatches -/

theorem store_append (rule : String) (l₁ l₂ : List Event) (e : Engine) :
    (store rule e (l₁ ++ l₂)).2 = (store rule (store rule e l₁).2 l₂).2 := by
  induction l₁ generalizing e with
  | nil => rfl
  | cons event l₁ ih =>
    rw [List.cons_append, store, store]
    rcases e.push_cases event with ⟨-, hp⟩ | ⟨-, hp⟩ <;> rw [hp]
    · exact ih _
    · exact ih _

section Keeps

variable {P : Engine → Prop} (keeps : ∀ {e e' : Engine}, Quiet e e' → P e → P e')
include keeps

theorem workOff_keeps (rule : Rule) (datasource : String) (now : Instant) (fs : List Finding) {e : Engine}
    (out : Outcome) (h : P e) : P (workOff rule datasource now e out fs).2 := by
  induction fs generalizing e out with
  | nil => exact h
  | cons f fs ih =>
    have hcounted : P e.counted := keeps (.counted e) h
    cases f with
    | malformed severity error => exact ih out (keeps (.noted _ _) h)
    | configured fingerprint => exact ih _ h
    | unmatched fingerprint value =>
      rw [workOff]
      rcases e.get_cases rule.tenantId rule.faultCenterId fingerprint with ⟨-, hg⟩ | ⟨-, hg⟩ <;> rw [hg]
      · exact hcounted
      · exact ih _ hcounted
    | matched o =>
      rw [workOff]
      rcases e.get_cases rule.tenantId rule.faultCenterId o.fingerprint with ⟨-, hg⟩ | ⟨-, hg⟩ <;> rw [hg]
      · exact hcounted
      · exact ih _ (keeps (.minted _) hcounted)

theorem add_keeps (g : Gathering) {e : Engine} (rule datasource : String) (c : Completion) (h : P e) :
    P (g.add e rule datasource c).2 := by
  unfold Gathering.add
  split
  · exact h
  · cases c with
    | answered outcome pushed => exact h
    | failed error => exact keeps (.noted e _) h
    | panicked p => exact h

theorem store_keeps_of_mem (rule : String) (events : List Event)
    (stores : ∀ {e : Engine}, ∀ event ∈ events, P e → P (e.stored event)) {e : Engine} (h : P e) :
    P (store rule e events).2 := by
  induction events generalizing e with
  | nil => exact h
  | cons event events ih =>
    have hcounted : P e.counted := keeps (.counted e) h
    have hrest := fun {e : Engine} => ih (fun {e} ev hev => stores ev (List.mem_cons_of_mem _ hev)) (e := e)
    rw [store]
    rcases e.push_cases event with ⟨-, hp⟩ | ⟨-, hp⟩ <;> rw [hp]
    · exact hrest (keeps (.noted _ _) hcounted)
    · exact hrest (stores event List.mem_cons_self hcounted)

variable (stores : ∀ {e : Engine} (event : Event), P e → P (e.stored event))
include stores

theorem store_keeps (rule : String) (events : List Event) {e : Engine} (h : P e) : P (store rule e events).2 :=
  store_keeps_of_mem keeps rule events (fun event _ => stores event) h

theorem complete_keeps {e : Engine} (rule : Rule) (datasource : String) (now : Instant)
    (reply : Except Failure Answer) (h : P e) : P (e.complete rule datasource now reply).2 := by
  rcases reply with (_ | _) | answer
  · exact h
  · exact h
  · have hw := workOff_keeps keeps rule datasource now (rule.findings answer) .empty h
    simp only [complete]
    split
    · next hr => rwa [hr] at hw
    · next hr =>
      rw [hr] at hw
      exact store_keeps keeps stores rule.id _ hw

theorem gather_keeps (rule : Rule) (start : Nat) (readings : List Reading) {e : Engine} (g : Gathering) (last : Nat)
    (h : P e) : P (gather rule start e g last readings).2 := by
  induction readings generalizing e g last with
  | nil => exact h
  | cons r readings ih =>
    rw [gather]
    split
    · exact h
    · refine ih _ _ (add_keeps keeps g _ _ _ ?_)
      exact complete_keeps keeps stores rule _ _ _ (keeps (.waited e _) h)

/-- **What changes of no cache and every store keep, a dispatch keeps.** -/
theorem dispatch_keeps {e : Engine} (rule : Rule) (readings : List Reading) (h : P e) :
    P (e.dispatch rule readings).2 := gather_keeps keeps stores rule e.time readings .empty 0 h

end Keeps

end Engine

/-! ## Panics -/

/-- Something was cut short by a panic. -/
def Panicked {α : Type} (reply : Except Failure α) : Prop := ∃ p, reply = .error (.panic p)

section Panics

variable {rule : Rule} {datasource : String} {e : Engine} {g : Gathering}

/-- Only a client that panics makes the work on a datasource panic. -/
theorem Engine.panicked_complete (now : Instant) (reply : Except Failure Answer) :
    (∃ p, (e.complete rule datasource now reply).1 = .panicked p) ↔ Panicked reply := by
  rcases reply with (error | p) | answer
  · simp [complete, Panicked]
  · simp [complete, Panicked]
  · simp only [complete, Panicked]
    split <;> simp

theorem Gathering.isSome_panic_add (rule datasource : String) (c : Completion) :
    (g.add e rule datasource c).1.panic.isSome = true ↔ g.panic.isSome = true ∨ ∃ p, c = .panicked p := by
  unfold Gathering.add
  split
  · next hp => simp [hp]
  · next hp => cases c <;> simp [hp]

theorem Gathering.exists_report_iff : (∃ report, g.report = .ok report) ↔ ¬g.panic.isSome = true := by
  unfold Gathering.report
  split <;> next hp => simp [hp]

/-- What is gathered has panicked exactly if a reply did. -/
theorem Engine.isSome_panic_gather {start : Nat} (readings : List Reading) (last : Nat) :
    (gather rule start e g last readings).1.panic.isSome = true ↔
      g.panic.isSome = true ∨ ∃ r ∈ readings, Panicked r.reply := by
  induction readings generalizing e g last with
  | nil => simp [gather]
  | cons r readings ih =>
    rw [gather]
    split
    · next hlate =>
      have hp : g.panic.isSome = true := (Bool.and_eq_true_iff.mp hlate).1
      simp [hp]
    · rw [ih, Gathering.isSome_panic_add, panicked_complete, or_assoc]
      simp only [List.mem_cons, exists_eq_or_imp]

/-- **A dispatch ends in a report exactly if no reply panicked.** -/
theorem Engine.exists_report_dispatch_iff (e : Engine) (rule : Rule) (readings : List Reading) :
    (∃ report, (e.dispatch rule readings).1 = .ok report) ↔ ∀ r ∈ readings, ¬Panicked r.reply := by
  show (∃ report, (gather rule e.time e .empty 0 readings).1.report = .ok report) ↔ _
  rw [Gathering.exists_report_iff, isSome_panic_gather]
  simp [Gathering.empty]

end Panics

namespace Engine

/-! ## Where events stand -/

/-- Every stored event stands where it belongs. -/
def Coherent (e : Engine) : Prop :=
  ∀ key fingerprint event, e.events.find? key fingerprint = some event → event.LiesAt key fingerprint

theorem find?_stored_self {e : Engine} {event : Event} {key fingerprint : String} (h : event.LiesAt key fingerprint) :
    (e.stored event).events.find? key fingerprint = some event := by
  rw [Engine.stored, EventCache.find?_push, if_pos ⟨h.1.symm, h.2.symm⟩]

theorem find?_stored_of_ne {e : Engine} {event : Event} {key fingerprint : String} (h : ¬event.LiesAt key fingerprint) :
    (e.stored event).events.find? key fingerprint = e.events.find? key fingerprint := by
  rw [Engine.stored, EventCache.find?_push, if_neg fun hat => h ⟨hat.1.symm, hat.2.symm⟩]

theorem Coherent.stored {e : Engine} (h : e.Coherent) (event : Event) : (e.stored event).Coherent := by
  intro key fingerprint ev hev
  simp only [Engine.stored, EventCache.find?_push] at hev
  split at hev
  · next hat =>
    cases hev
    exact ⟨hat.1.symm, hat.2.symm⟩
  · exact h key fingerprint ev hev

theorem Coherent.removed {e : Engine} (h : e.Coherent) (tenant center fingerprint : String) :
    (e.removed tenant center fingerprint).Coherent := by
  intro key fp ev hev
  simp only [Engine.removed, EventCache.find?_remove] at hev
  split at hev
  · cases hev
  · exact h key fp ev hev

theorem Coherent.quiet {e e' : Engine} (hq : Quiet e e') (h : e.Coherent) : e'.Coherent := by
  cases hq <;> exact h

theorem Coherent.deal {scope : Scope} {fingerprint : String} {e e' : Engine} (hd : Deal scope fingerprint e e')
    (h : e.Coherent) : e'.Coherent := by
  cases hd with
  | quiet hq => exact h.quiet hq
  | moved => exact h.stored _
  | removed => exact h.removed _ _ _
  | missed | found => exact h

end Engine

end Alerting
