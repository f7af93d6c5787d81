import Alerting.Proofs.Dispatch.Live

/-!
# What a dispatch reports

A rule judges an answer without looking at the caches: `Rule.current` and `Rule.outranked` are the fingerprints that it
finds. When the look-ups of stored records succeed, the report of a dispatch is what the rule says about the replies of
its datasources (`Rule.summary`, `dispatch_of_getsSucceed`), apart from the number of events that were stored. The summary does
not depend on the order of the replies (`Rule.summary_perm`).
-/

namespace Alerting

/-! ## Fingerprints are not empty -/

/-- A fingerprint has digits. -/
theorem Fingerprint.isEmpty_ofFields (fields : List String) : (ofFields fields).isEmpty = false := by
  have hlength : (Blake3.tree 0 Blake3.root (Blake3.pieces 1023 (preimage fields))).toList.length = 8 :=
    Vector.length_toList
  rw [ofFields, Blake3.digest]
  cases h : (Blake3.tree 0 Blake3.root (Blake3.pieces 1023 (preimage fields))).toList with
  | nil => simp [h] at hlength
  | cons word words => simp [Blake3.wordBytes, hexByte, size]

namespace Rule

/-- The fingerprints that the rule finds current in an answer. -/
def current (rule : Rule) (answer : Answer) : List String := (rule.findings answer).filterMap Finding.current?

/-- The fingerprints that the rule finds outranked in an answer. -/
def outranked (rule : Rule) (answer : Answer) : List String := (rule.findings answer).filterMap Finding.outranked?

theorem isEmpty_of_mem_current {rule : Rule} {answer : Answer} {k : String} (h : k ∈ rule.current answer) :
    k.isEmpty = false := by
  obtain ⟨f, hf, hk⟩ := List.mem_filterMap.mp h
  obtain ⟨fields, rfl⟩ := exists_fields_of_mem_findings hf (Finding.fingerprint?_of_current? hk)
  exact Fingerprint.isEmpty_ofFields fields

theorem isEmpty_of_mem_outranked {rule : Rule} {answer : Answer} {k : String} (h : k ∈ rule.outranked answer) :
    k.isEmpty = false := by
  obtain ⟨f, hf, hk⟩ := List.mem_filterMap.mp h
  obtain ⟨fields, rfl⟩ := exists_fields_of_mem_findings hf (Finding.fingerprint?_of_outranked? hk)
  exact Fingerprint.isEmpty_ofFields fields

end Rule

/-! ## Summaries -/

/-- The set of some texts, the empty text left out. -/
def TextSet.of (texts : List String) : TextSet := TextSet.addAll .empty texts

theorem TextSet.contains_of {texts : List String} {t : String} :
    (TextSet.of texts).contains t = true ↔ t ∈ texts ∧ t.isEmpty = false := by
  rw [of, contains_addAll]
  simp [Table.contains]

theorem TextSet.addAll_of (xs ys : List String) : (TextSet.of xs).addAll ys = TextSet.of (xs ++ ys) := by
  rw [of, of, addAll, addAll, addAll, List.foldl_append]

theorem TextSet.eq_of_contains {s t : TextSet} (h : ∀ k, s.contains k = true ↔ t.contains k = true) : s = t := by
  refine Table.ext_get? fun k => ?_
  have hk := h k
  unfold Table.contains at hk
  cases hs : s.get? k <;> cases ht : t.get? k <;> simp_all

theorem TextSet.of_perm {xs ys : List String} (h : xs.Perm ys) : TextSet.of xs = TextSet.of ys :=
  eq_of_contains fun k => by rw [contains_of, contains_of, h.mem_iff]

/-- What came of asking some datasources. -/
abbrev Replies := List (Except Failure Answer)

/-- The answers among some replies. -/
def Replies.answers (replies : Replies) : List Answer := replies.filterMap Except.toOption

/-- What a rule says about the replies of its datasources. -/
def Rule.summary (rule : Rule) (replies : Replies) : Report :=
  let current := TextSet.of (replies.answers.flatMap rule.current)
  let outranked := TextSet.of (replies.answers.flatMap rule.outranked)
  { fingerprints := current.keys
    suppressed := (outranked.filter fun k _ => !current.contains k).keys
    queried := replies.countP Except.isOk
    failed := replies.countP (!Except.isOk ·)
    pushed := 0 }

namespace Rule

variable {rule : Rule} {replies : Replies}

theorem summary_perm {replies' : Replies} (h : replies.Perm replies') : rule.summary replies = rule.summary replies' := by
  have hanswers : replies.answers.Perm replies'.answers := h.filterMap _
  simp only [summary, TextSet.of_perm (hanswers.flatMap_right _), h.countP_eq]

theorem mem_answers {answer : Answer} : answer ∈ replies.answers ↔ .ok answer ∈ replies := by
  rw [Replies.answers, List.mem_filterMap]
  constructor
  · rintro ⟨reply, hr, ha⟩
    cases reply with
    | error failure => cases ha
    | ok => cases ha; exact hr
  · exact fun h => ⟨_, h, rfl⟩

/-- What a summary has as current is what the rule finds current in some answer. -/
theorem mem_summary_fingerprints {k : String} :
    k ∈ (rule.summary replies).fingerprints ↔ ∃ answer, .ok answer ∈ replies ∧ k ∈ rule.current answer := by
  have hkeys : k ∈ (rule.summary replies).fingerprints ↔
      (TextSet.of (replies.answers.flatMap rule.current)).contains k = true := Table.mem_keys
  rw [hkeys, TextSet.contains_of, List.mem_flatMap]
  constructor
  · rintro ⟨⟨answer, ha, hk⟩, -⟩
    exact ⟨answer, mem_answers.mp ha, hk⟩
  · rintro ⟨answer, ha, hk⟩
    exact ⟨⟨answer, mem_answers.mpr ha, hk⟩, isEmpty_of_mem_current hk⟩

/-- What a summary has as suppressed is what the rule finds outranked in some answer and current in none. -/
theorem mem_summary_suppressed {k : String} : k ∈ (rule.summary replies).suppressed ↔
    (∃ answer, .ok answer ∈ replies ∧ k ∈ rule.outranked answer) ∧ k ∉ (rule.summary replies).fingerprints := by
  have hcurrent : k ∉ (rule.summary replies).fingerprints ↔
      (TextSet.of (replies.answers.flatMap rule.current)).contains k = false := by
    rw [← Bool.not_eq_true]
    exact not_congr Table.mem_keys
  rw [hcurrent, summary, TextSet.mem_keys_filter, TextSet.contains_of, List.mem_flatMap]
  refine and_congr_left fun _ => ⟨?_, ?_⟩
  · rintro ⟨⟨answer, ha, hk⟩, -⟩
    exact ⟨answer, mem_answers.mp ha, hk⟩
  · rintro ⟨answer, ha, hk⟩
    exact ⟨⟨answer, mem_answers.mpr ha, hk⟩, isEmpty_of_mem_outranked hk⟩

theorem summary_counts : (rule.summary replies).queried + (rule.summary replies).failed = replies.length := by
  rw [List.length_eq_countP_add_countP Except.isOk]
  simp [summary]

/-- A failed datasource is only counted. -/
theorem summary_failed (failure : Failure) : rule.summary (.error failure :: replies) =
    { rule.summary replies with failed := (rule.summary replies).failed + 1 } := by
  have hanswers : Replies.answers (.error failure :: replies) = replies.answers := rfl
  simp only [summary, hanswers]
  rw [List.countP_cons_of_neg (by simp [Except.isOk, Except.toBool]),
    List.countP_cons_of_pos (by simp [Except.isOk, Except.toBool])]

end Rule

/-! ## What is gathered -/

/-- A completion that says about a datasource what the rule says about its reply. -/
def Completion.Settles (rule : Rule) (reply : Except Failure Answer) : Completion → Prop
  | answered out _ => ∃ answer, reply = .ok answer ∧ out.fingerprints = rule.current answer ∧
      out.suppressed = rule.outranked answer
  | failed _ => ∃ error, reply = .error (.error error)
  | panicked _ => False

/-- What was gathered is what the rule says about some replies. -/
structure Gathering.Tallies (rule : Rule) (replies : Replies) (g : Gathering) : Prop where
  fingerprints : g.fingerprints = TextSet.of (replies.answers.flatMap rule.current)
  suppressed : g.suppressed = TextSet.of (replies.answers.flatMap rule.outranked)
  queried : g.queried = replies.countP Except.isOk
  failed : g.failed = replies.countP (!Except.isOk ·)
  panic : g.panic = none

namespace Gathering.Tallies

variable {rule : Rule} {replies : Replies} {g : Gathering}

theorem empty : Gathering.empty.Tallies rule [] := ⟨rfl, rfl, rfl, rfl, rfl⟩

theorem perm {replies' : Replies} (h : g.Tallies rule replies) (hp : replies.Perm replies') :
    g.Tallies rule replies' := by
  have hanswers : replies.answers.Perm replies'.answers := hp.filterMap _
  exact ⟨h.fingerprints.trans (TextSet.of_perm (hanswers.flatMap_right _)),
    h.suppressed.trans (TextSet.of_perm (hanswers.flatMap_right _)), h.queried.trans (hp.countP_eq _),
    h.failed.trans (hp.countP_eq _), h.panic⟩

/-- Taking in a completion counts one reply more. -/
theorem add (h : g.Tallies rule replies) {reply : Except Failure Answer} {c : Completion} (hc : c.Settles rule reply)
    (e : Engine) (datasource : String) : (g.add e rule.id datasource c).1.Tallies rule (replies ++ [reply]) := by
  have hanswers : Replies.answers (replies ++ [reply]) = replies.answers ++ reply.toOption.toList := by
    rw [Replies.answers, List.filterMap_append]
    cases reply <;> rfl
  have hpanic : g.panic.isSome = false := by rw [h.panic]; rfl
  unfold Gathering.add
  rw [hpanic]
  cases c with
  | panicked p => exact hc.elim
  | failed error =>
    obtain ⟨error', rfl⟩ := hc
    refine ⟨?_, ?_, ?_, ?_, h.panic⟩ <;> simp only [Bool.false_eq_true, if_false]
    · rw [h.fingerprints, hanswers]
      simp [Except.toOption]
    · rw [h.suppressed, hanswers]
      simp [Except.toOption]
    · rw [h.queried, List.countP_append]
      rfl
    · rw [h.failed, List.countP_append]
      rfl
  | answered out pushed =>
    obtain ⟨answer, rfl, hcurrent, houtranked⟩ := hc
    refine ⟨?_, ?_, ?_, ?_, h.panic⟩ <;> simp only [Bool.false_eq_true, if_false]
    · rw [h.fingerprints, TextSet.addAll_of, hcurrent, hanswers]
      simp [Except.toOption]
    · rw [h.suppressed, TextSet.addAll_of, houtranked, hanswers]
      simp [Except.toOption]
    · rw [h.queried, List.countP_append]
      rfl
    · rw [h.failed, List.countP_append]
      rfl

/-- The report says what the rule says. -/
theorem report (h : g.Tallies rule replies) : g.report = .ok { rule.summary replies with pushed := g.pushed } := by
  simp only [Gathering.report, h.panic, Rule.summary, ← h.fingerprints, ← h.suppressed, ← h.queried, ← h.failed]

end Gathering.Tallies

/-! ## Look-ups that succeed -/

/-- Whether a call is the look-up of a stored record. -/
def Call.isGet : Call → Bool
  | get _ => true
  | _ => false

namespace Engine

/-- No look-up of a stored record fails. -/
def GetsSucceed (e : Engine) : Prop := ∀ n k, e.faults n (.get k) = false

theorem GetsSucceed.of_faults {e e' : Engine} (h : e.GetsSucceed) (he : e'.faults = e.faults) : e'.GetsSucceed :=
  fun n k => by rw [he]; exact h n k

theorem getsSucceed_withFate (e : Engine) : (e.withFate Call.isGet fun _ => false).GetsSucceed := fun _ _ => rfl

section Answer

variable {e : Engine} (rule : Rule) (datasource : String) (now : Instant)

theorem get_of_getsSucceed (h : e.GetsSucceed) (tenant center fingerprint : String) :
    e.get tenant center fingerprint = (.ok (e.events.get? tenant center fingerprint), e.counted) := by
  rcases e.get_cases tenant center fingerprint with ⟨hf, -⟩ | ⟨-, hg⟩
  · rw [fails, h] at hf
    cases hf
  · exact hg

/-- When the look-ups succeed, findings are worked off. -/
theorem exists_workOff_of_getsSucceed (h : e.GetsSucceed) (fs : List Finding) (out : Outcome) :
    ∃ out' e', workOff rule datasource now e out fs = (.ok out', e') := by
  induction fs generalizing e out with
  | nil => exact ⟨out, e, rfl⟩
  | cons f fs ih =>
    cases f with
    | malformed severity error => exact ih (e := e.note _) h out
    | configured fingerprint => exact ih h _
    | unmatched fingerprint value =>
      rw [workOff, get_of_getsSucceed h]
      exact ih (e := e.counted) h _
    | matched o =>
      rw [workOff, get_of_getsSucceed h]
      exact ih (e := e.counted.mint.2) h _

/-- When the look-ups succeed, findings are worked off to what the rule finds, whatever is stored. -/
theorem workOff_of_getsSucceed (h : e.GetsSucceed) (fs : List Finding) (out : Outcome) : ∃ out' e',
    workOff rule datasource now e out fs = (.ok out', e') ∧
      out'.fingerprints = out.fingerprints ++ fs.filterMap Finding.current? ∧
      out'.suppressed = out.suppressed ++ fs.filterMap Finding.outranked? := by
  obtain ⟨out', e', hw⟩ := exists_workOff_of_getsSucceed rule datasource now h fs out
  exact ⟨out', e', hw, workOff_reports fs hw⟩

/-- When the look-ups succeed, a datasource completes with what the rule finds. -/
theorem settles_complete (h : e.GetsSucceed) {reply : Except Failure Answer} (hp : ∀ p, reply ≠ .error (.panic p)) :
    (e.complete rule datasource now reply).1.Settles rule reply := by
  rcases reply with (error | p) | answer
  · exact ⟨error, rfl⟩
  · exact absurd rfl (hp p)
  · obtain ⟨out, e', hw, hc, ho⟩ := workOff_of_getsSucceed rule datasource now h (rule.findings answer) .empty
    simp only [complete, hw]
    exact ⟨answer, rfl, hc, ho⟩

end Answer

/-- **When the look-ups succeed, what is gathered is what the rule says about the replies**, whatever is stored. -/
theorem tallies_gather (rule : Rule) (start : Nat) {readings : List Reading}
    (hp : ∀ r ∈ readings, ∀ p, r.reply ≠ .error (.panic p)) {e : Engine} (h : e.GetsSucceed) {g : Gathering}
    {replies : Replies} (hg : g.Tallies rule replies) (last : Nat) :
    (gather rule start e g last readings).1.Tallies rule (replies ++ readings.map (·.reply)) := by
  induction readings generalizing e g replies last with
  | nil =>
    rw [List.map_nil, List.append_nil]
    exact hg
  | cons r readings ih =>
    have hgo : (g.panic.isSome && last < r.elapsed) = false := by rw [hg.panic]; rfl
    have hadd := hg.add (settles_complete rule r.datasource r.asked (e := e.atTime (start + r.elapsed)) h
      (hp r List.mem_cons_self)) ((e.atTime (start + r.elapsed)).complete rule r.datasource r.asked r.reply).2 r.datasource
    have hfaults := (local_add g rule.id r.datasource
        ((e.atTime (start + r.elapsed)).complete rule r.datasource r.asked r.reply).1).faults
      ((e.atTime (start + r.elapsed)).complete rule r.datasource r.asked r.reply).2
    have hfaults' := (local_complete rule r.datasource r.asked r.reply).faults (e.atTime (start + r.elapsed))
    rw [gather, hgo]
    have hrest := ih (fun x hx => hp x (List.mem_cons_of_mem r hx)) (h.of_faults (hfaults.trans hfaults')) hadd r.elapsed
    rw [List.append_assoc] at hrest
    exact hrest

/-- **When the look-ups succeed, a dispatch reports what the rule says about the replies.** -/
theorem dispatch_of_getsSucceed (rule : Rule) {readings : List Reading}
    (hp : ∀ r ∈ readings, ∀ p, r.reply ≠ .error (.panic p)) {e : Engine} (h : e.GetsSucceed) :
    ∃ pushed, (e.dispatch rule readings).1 =
      .ok { rule.summary (readings.map (·.reply)) with pushed := pushed } :=
  ⟨_, (tallies_gather rule e.time hp h .empty 0).report⟩

end Engine

end Alerting
