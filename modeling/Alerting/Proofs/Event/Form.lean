import Alerting.Event.Json
import Alerting.Proofs.Json.Forms

/-!
# The JSON form of an event

An event is read from its form (`Event.ofJson?_toJson`), and its reader does not notice edits of the form
(`Event.stable`). Instants stand in the form as texts that are taken to be read back (`Instant.IsReadBack`).
-/

namespace Alerting

open Json

/-- The text of an instant is read as the instant. -/
def Instant.IsReadBack (t : Instant) : Prop := Instant.ofText? t.text = some t

@[simp] theorem Instant.isPlain_toJson (t : Instant) : IsPlain t.toJson := isPlain_text _

namespace Escalation

def layout : Layout := .roomy ["confirmed", "escalated", "last_escalated_at"] [] []

theorem stable : Stable layout.Edit ofJson? :=
  Layout.stable fun _ _ h =>
    (h.required rfl rfl).bind fun _confirmed =>
    (h.required rfl rfl).bind fun _escalated =>
    (h.optional rfl rfl).bind fun _lastEscalatedAt =>
    Keeps.refl _

variable {x : Escalation}

@[simp] theorem isPlain_toJson (x : Escalation) : IsPlain x.toJson :=
  isPlain_object (by simp [isPlain_ofOption])

theorem ofJson?_toJson (h : ∀ t ∈ x.lastEscalatedAt, t.IsReadBack) : ofJson? x.toJson = some x :=
  bind_of_eq_some (fields?_all rfl (by decide)) <|
  bind_of_eq_some (required_of_get? rfl rfl) <|
  bind_of_eq_some (required_of_get? rfl rfl) <|
  bind_of_eq_some (optional_of_get? rfl (orNull_ofOption nofun h))
  rfl

end Escalation

namespace Event

def layout : Layout :=
  .roomy
    ["event_id", "tenant_id", "fault_center_id", "rule_id", "rule_name", "fingerprint", "datasource_id",
      "datasource_type", "severity", "status", "labels", "search_query", "annotations", "first_trigger_time",
      "last_eval_time", "last_send_time", "recover_time", "upgrade_state", "recover_wait_secs"]
    [("upgrade_state", (default : Escalation).toJson), ("recover_wait_secs", .null)]
    [("labels", Reordered), ("upgrade_state", Escalation.layout.Edit)]

theorem stable : Stable layout.Edit ofJson? :=
  Layout.stable fun _ _ h =>
    (h.required rfl rfl).bind fun _id =>
    (h.required rfl rfl).bind fun _tenantId =>
    (h.required rfl rfl).bind fun _faultCenterId =>
    (h.required rfl rfl).bind fun _ruleId =>
    (h.required rfl rfl).bind fun _ruleName =>
    (h.required rfl rfl).bind fun _fingerprint =>
    (h.required rfl rfl).bind fun _datasourceId =>
    (h.required rfl rfl).bind fun _datasourceKind =>
    (h.required rfl rfl).bind fun _severity =>
    (h.required rfl rfl).bind fun _status =>
    (h.requiredInside rfl rfl (Reordered.stable _)).bind fun _labels =>
    (h.required rfl rfl).bind fun _searchQuery =>
    (h.required rfl rfl).bind fun _annotations =>
    (h.required rfl rfl).bind fun _firstTriggerTime =>
    (h.required rfl rfl).bind fun _lastEvalTime =>
    (h.optional rfl rfl).bind fun _lastSendTime =>
    (h.optional rfl rfl).bind fun _recoverTime =>
    (h.withDefaultInside rfl rfl (by rfl) Escalation.stable).bind fun _escalation =>
    (h.withDefault rfl rfl (by rfl)).bind fun _recoverWaitSecs =>
    Keeps.refl _

/-- The instants of an event. -/
def instants (e : Event) : List Instant :=
  [e.firstTriggerTime, e.lastEvalTime] ++ e.lastSendTime.toList ++ e.recoverTime.toList ++
    e.escalation.lastEscalatedAt.toList

/-- The event has a form: its own grace period has 64 bits, and its instants are read back from their texts. -/
structure IsStorable (e : Event) : Prop where
  recoverWaitSecs : ∀ n ∈ e.recoverWaitSecs, n < 2 ^ 64
  instants : ∀ t ∈ e.instants, t.IsReadBack

variable {e : Event}

theorem isPlain_toJson (h : e.IsStorable) : IsPlain e.toJson := by
  have hwait : IsPlain (.ofOption Json.nat e.recoverWaitSecs) :=
    isPlain_ofOption fun n hn => isPlain_nat (h.recoverWaitSecs n hn)
  exact isPlain_object (by simp [hwait, isPlain_ofOption])

theorem ofJson?_toJson (h : e.IsStorable) : ofJson? e.toJson = some e := by
  have hinstants := h.instants
  simp only [instants, List.forall_mem_append, List.forall_mem_cons, Option.mem_toList] at hinstants
  obtain ⟨⟨⟨⟨hfirst, hlast, -⟩, hsend⟩, hrecover⟩, hescalated⟩ := hinstants
  exact
    bind_of_eq_some (fields?_all rfl (by decide)) <|
    bind_of_eq_some (required_of_get? rfl rfl) <|
    bind_of_eq_some (required_of_get? rfl rfl) <|
    bind_of_eq_some (required_of_get? rfl rfl) <|
    bind_of_eq_some (required_of_get? rfl rfl) <|
    bind_of_eq_some (required_of_get? rfl rfl) <|
    bind_of_eq_some (required_of_get? rfl rfl) <|
    bind_of_eq_some (required_of_get? rfl rfl) <|
    bind_of_eq_some (required_of_get? rfl (DatasourceKind.ofJson?_toJson _)) <|
    bind_of_eq_some (required_of_get? rfl rfl) <|
    bind_of_eq_some (required_of_get? rfl (Status.ofName?_name _)) <|
    bind_of_eq_some (required_of_get? rfl (Table.table?_toJson _)) <|
    bind_of_eq_some (required_of_get? rfl rfl) <|
    bind_of_eq_some (required_of_get? rfl rfl) <|
    bind_of_eq_some (required_of_get? rfl hfirst) <|
    bind_of_eq_some (required_of_get? rfl hlast) <|
    bind_of_eq_some (optional_of_get? rfl (orNull_ofOption nofun hsend)) <|
    bind_of_eq_some (optional_of_get? rfl (orNull_ofOption nofun hrecover)) <|
    bind_of_eq_some (withDefault_of_get? rfl (Escalation.ofJson?_toJson hescalated)) <|
    bind_of_eq_some (withDefault_of_get? rfl (orNull_ofOption nofun fun n hn => nat64?_nat (h.recoverWaitSecs n hn)))
    rfl

end Event

end Alerting
