import Alerting.Proofs.Event.Form
import Alerting.Proofs.Rule.Form

/-!
# What is stored is read back

Rules, events and the settings of fault centers are kept as JSON texts. The text of each of them is read as the value
that was written, and so is what becomes of it when members of unknown names are added to its structures and members
that hold their defaults are taken out (`stored_forms_read_back`). Only in a query it matters what an added member
holds: the members of a query are taken in before its family is known, and all of them have to denote values and to
keep within a depth (`Query.ofJson?_object_iff`).
-/

namespace Alerting

open Json

namespace Json

variable {α : Type}

/-- The text holds a value that is read as `a`, and so is the value after any edits. -/
def ReadsAs (change : Change) (decode : Json → Option α) (s : String) (a : α) : Prop :=
  ∃ form, parse? s = some form ∧ ∀ v, Relation.ReflTransGen change form v → decode v = some a

theorem Stable.readsAs {change : Change} {decode : Json → Option α} (h : Stable change decode) {v : Json} {a : α}
    (hwritable : v.IsWritable) (hread : decode v.reread = some a) : ReadsAs change decode v.render a :=
  ⟨v.reread, parse?_render hwritable, fun w hw => h.run v.reread w hw a hread⟩

theorem Stable.readsAs_plain {change : Change} {decode : Json → Option α} (h : Stable change decode) {v : Json} {a : α}
    (hplain : IsPlain v) (hread : decode v = some a) : ReadsAs change decode v.render a :=
  h.readsAs hplain.isWritable (by rwa [hplain.reread_eq])

end Json

/-- **What is stored is read back, however much unknown is added to its text and whichever defaults are taken out.** -/
theorem stored_forms_read_back {r : Rule} {e : Event} {c : FaultCenter} (hr : r.IsStorable) (he : e.IsStorable)
    (hc : c.recoverWaitSecs < 2 ^ 64) :
    ReadsAs Rule.layout.Edit Rule.ofJson? r.toJson.render r ∧
      ReadsAs Event.layout.Edit Event.ofJson? e.toJson.render e ∧
      ReadsAs FaultCenter.layout.Edit FaultCenter.ofJson? c.toJson.render c := by
  obtain ⟨hwritable, hread⟩ := Rule.ofJson?_reread hr
  exact ⟨Rule.stable.readsAs hwritable hread,
    Event.stable.readsAs_plain (Event.isPlain_toJson he) (Event.ofJson?_toJson he),
    FaultCenter.stable.readsAs_plain (FaultCenter.isPlain_toJson hc) (FaultCenter.ofJson?_toJson hc)⟩

/-- A rule that expects at most three errors in five minutes on working days. -/
def errorRule : Rule where
  id := "r1"
  tenantId := "t1"
  faultCenterId := "fc1"
  name := "errors"
  datasourceKind := .loki
  datasourceIds := ["ds1"]
  interval := ⟨30, .seconds⟩
  forDurationSecs := 0
  severityRules := [⟨⟨"P1"⟩, "> 90"⟩]
  query := .logs "error" 5 .minutes .greater ⟨0x4008000000000000⟩ .standard
  externalLabels := .ofList [("team", "core")]
  annotations := ""
  effectiveTime := some ⟨[.mon, .fri], 480, 1080⟩
  enabled := true

/-- An alert of that rule that has been notified. -/
def errorEvent : Event :=
  { Event.draft errorRule "ds1" "f1" .standard (.ofList [("value", "7")]) "e1"
      (.ofNanos 19783 3600000000000) with
    lastSendTime := some (.ofNanos 19783 3601500000000)
    recoverWaitSecs := some 60 }

/-- Their fault center. -/
def errorCenter : FaultCenter := ⟨"fc1", "", 300⟩

theorem errorRule_isStorable : errorRule.IsStorable where
  interval := by decide
  forDurationSecs := by decide
  query := ⟨show 5 < 2 ^ 64 by decide, fun _ hx => Option.some.inj hx ▸ ⟨by decide, by decide +kernel⟩⟩
  effectiveTime := fun _ hw => Option.some.inj hw ▸ ⟨by decide, by decide⟩

theorem errorEvent_isStorable : errorEvent.IsStorable where
  recoverWaitSecs := fun _ hn => Option.some.inj hn ▸ by decide
  instants := by
    have h : ∀ t ∈ errorEvent.instants, Instant.ofText? t.text = some t := by decide +kernel
    exact h

/-- The rule, its alert and its fault center are read back. -/
theorem stored_forms_read_back_errors :
    errorRule.IsStorable ∧ errorEvent.IsStorable ∧
      ReadsAs Rule.layout.Edit Rule.ofJson? errorRule.toJson.render errorRule ∧
      ReadsAs Event.layout.Edit Event.ofJson? errorEvent.toJson.render errorEvent ∧
      ReadsAs FaultCenter.layout.Edit FaultCenter.ofJson? errorCenter.toJson.render errorCenter :=
  ⟨errorRule_isStorable, errorEvent_isStorable,
    stored_forms_read_back errorRule_isStorable errorEvent_isStorable (by decide)⟩

/-- A rule about the load of a machine. -/
def loadRule : Rule := { errorRule with name := "load", datasourceKind := .prometheus, query := .metrics "load" }

theorem loadRule_isStorable : loadRule.IsStorable where
  interval := by decide
  forDurationSecs := by decide
  query := ⟨trivial, nofun⟩
  effectiveTime := errorRule_isStorable.effectiveTime

/-- The form of that rule, with more members in its query. -/
def loadForm (more : List (String × Json)) : Json :=
  .object [("id", .text "r1"), ("tenant_id", .text "t1"), ("fault_center_id", .text "fc1"), ("name", .text "load"),
    ("datasource_type", .text "prometheus"), ("datasource_ids", .list [.text "ds1"]),
    ("interval", .object [("value", .nat 30), ("unit", .text "seconds")]), ("for_duration_secs", .nat 0),
    ("severity_rules", .list [.object [("severity", .text "P1"), ("expr", .text "> 90")]]),
    ("query", .object ([("family", .text "metrics"), ("query", .text "load")] ++ more)),
    ("external_labels", .object [("team", .text "core")]), ("annotations", .text ""),
    ("effective_time", .object [("weekdays", .list [.text "Mon", .text "Fri"]), ("start_minute", .nat 480),
      ("end_minute", .nat 1080)]),
    ("enabled", .bool true)]

/-- The rule is not read any more when its query gets a member of an unknown name that holds a number beyond the finite
ones; a text in its place does no harm. -/
theorem unknown_member_unread :
    parse? loadRule.toJson.render = some (loadForm []) ∧ Rule.ofJson? (loadForm []) = some loadRule ∧
      "note" ∉ (Query.layout .metrics).names ∧ (parse? "1e400").isSome = true ∧
      ((parse? "1e400").bind fun v => Rule.ofJson? (loadForm [("note", v)])) = none ∧
      ((parse? "\"1e400\"").bind fun v => Rule.ofJson? (loadForm [("note", v)])) = some loadRule := by
  refine ⟨?_, ?_, ?_, ?_, ?_, ?_⟩
  · have hform : loadRule.toJson.reread = loadForm [] := by rfl
    rw [parse?_render (Rule.ofJson?_reread loadRule_isStorable).1, hform]
  · decide +kernel
  · decide
  · decide +kernel
  · decide +kernel
  · decide +kernel

end Alerting
