import Alerting.Proofs.Dispatch.Labels
import Alerting.Proofs.Dispatch.Summary
import Mathlib.Data.List.Induction

/-!
# Groups of warning events

A rule on warning events counts them by object and reason. The group of an object and a reason is what the list has of
them, in its order (`Kube.get?_groups`), and a group that is large enough is reported under the namespace of its first
event (`Kube.reported`). The namespace is part of the fingerprint, and it is no part of what the events are grouped by.

So the report does not depend on the order of the list exactly if every group that is large enough comes from one
namespace (`Kube.report_independent_of_order_iff`).
-/

namespace Alerting

namespace Kube

/-! ## Groups -/

/-- The events that a rule counts: those of its reasons, or all of them if it names none. -/
def wanted (reasons : List String) (events : List KubeEvent) : List KubeEvent :=
  events.filter fun e => reasons.isEmpty || reasons.contains e.reason

/-- The events of one object and reason. -/
def members (events : List KubeEvent) (object reason : String) : List KubeEvent :=
  events.filter fun e => e.objectName = object ∧ e.reason = reason

theorem wanted_perm {events events' : List KubeEvent} (h : events.Perm events') (reasons : List String) :
    (wanted reasons events).Perm (wanted reasons events') := h.filter _

theorem members_perm {events events' : List KubeEvent} (h : events.Perm events') (object reason : String) :
    (members events object reason).Perm (members events' object reason) := h.filter _

section Groups

variable (events : List KubeEvent) (object reason : String)

theorem groups_append_singleton (e : KubeEvent) : groups (events ++ [e]) =
    (groups events).insert e.objectName ((((groups events).get? e.objectName).getD .empty).insert e.reason
      (((((groups events).get? e.objectName).getD .empty).get? e.reason).getD [] ++ [e])) := by
  simp [groups, List.foldl_append]

theorem members_append_singleton (e : KubeEvent) : members (events ++ [e]) object reason =
    members events object reason ++ if e.objectName = object ∧ e.reason = reason then [e] else [] := by
  rw [members, members, List.filter_append, List.filter_cons, List.filter_nil]
  simp only [decide_eq_true_eq]

/-- The objects are those of the events. -/
theorem isSome_get?_groups :
    ((groups events).get? object).isSome = events.any fun e => e.objectName = object := by
  induction events using List.reverseRecOn with
  | nil => rfl
  | append_singleton events e ih =>
    rw [groups_append_singleton, Table.get?_insert, List.any_append, List.any_cons, List.any_nil, Bool.or_false, ← ih]
    by_cases ho : object = e.objectName
    · simp [ho]
    · simp [ho, Ne.symm ho]

/-- **A group has the events of its object and reason, in the order of the list.** -/
theorem get?_groups : (((groups events).get? object).getD .empty).get? reason =
    (some (members events object reason)).filter (!·.isEmpty) := by
  induction events using List.reverseRecOn with
  | nil => rfl
  | append_singleton events e ih =>
    rw [groups_append_singleton, members_append_singleton, Table.get?_insert]
    by_cases ho : object = e.objectName
    · subst ho
      rw [if_pos rfl, Option.getD_some, Table.get?_insert]
      by_cases hr : reason = e.reason
      · subst hr
        rw [if_pos rfl, ih]
        cases members events e.objectName e.reason <;> simp [Option.filter]
      · simp [hr, Ne.symm hr, ih]
    · simp [ho, Ne.symm ho, ih]

theorem mem_groupList {g : String × String × List KubeEvent} : g ∈ groupList events ↔
    g.2.2 = members events g.1 g.2.1 ∧ g.2.2 ≠ [] := by
  obtain ⟨object, reason, ms⟩ := g
  have hlookup : (object, reason, ms) ∈ groupList events ↔
      (((groups events).get? object).getD .empty).get? reason = some ms := by
    rw [groupList, List.mem_flatMap]
    constructor
    · rintro ⟨⟨o, reasons⟩, ho, hr⟩
      obtain ⟨⟨r, list⟩, hm, h⟩ := List.mem_map.mp hr
      cases h
      rw [Table.mem_toList_iff.mp ho]
      exact Table.mem_toList_iff.mp hm
    · intro h
      cases ho : (groups events).get? object with
      | none =>
        rw [ho] at h
        cases h
      | some reasons =>
        rw [ho] at h
        exact ⟨(object, reasons), Table.mem_toList_iff.mpr ho,
          List.mem_map.mpr ⟨(reason, ms), Table.mem_toList_iff.mpr h, rfl⟩⟩
  rw [hlookup, get?_groups, Option.filter_eq_some_iff, Option.some.injEq, eq_comm (b := ms), Bool.not_eq_true',
    List.isEmpty_eq_false_iff]

end Groups

/-- What is read off the groups of two lists is the same if it is for every object and reason, and the two lists have
the same events. -/
theorem map_groupList_perm {β : Type} {events events' : List KubeEvent} (hp : events.Perm events')
    (read : List KubeEvent → β)
    (h : ∀ object reason, read (members events object reason) = read (members events' object reason)) :
    (groupList events).map (fun g => (g.1, g.2.1, read g.2.2)) =
      (groupList events').map fun g => (g.1, g.2.1, read g.2.2) := by
  have hread : ∀ events : List KubeEvent, (groupList events).map (fun g => (g.1, g.2.1, read g.2.2)) =
      ((groups events).map (·.map read)).toList.flatMap fun o => o.2.toList.map fun r => (o.1, r.1, r.2) := by
    intro events
    show ((groups events).toList.flatMap _).map _ = ((groups events).toList.map _).flatMap _
    rw [List.map_flatMap, List.flatMap_map]
    refine congrArg (List.flatMap · _) (funext fun o => ?_)
    show (o.2.toList.map _).map _ = (o.2.toList.map _).map _
    rw [List.map_map, List.map_map]
    rfl
  rw [hread, hread]
  refine congrArg (fun t : Table (Table β) => t.toList.flatMap _) (Table.ext_get? fun object => ?_)
  rw [Table.get?_map, Table.get?_map]
  have hobject : ((groups events).get? object).isSome = ((groups events').get? object).isSome := by
    rw [isSome_get?_groups, isSome_get?_groups]
    exact hp.any_eq
  have hreasons : ∀ reason, ((((groups events).get? object).getD .empty).get? reason).map read =
      ((((groups events').get? object).getD .empty).get? reason).map read := by
    intro reason
    have hempty : (members events object reason).isEmpty = (members events' object reason).isEmpty :=
      (members_perm hp object reason).isEmpty_eq
    rw [get?_groups, get?_groups]
    simp only [Option.filter, hempty]
    split <;> simp [h]
  cases hg : (groups events).get? object with
  | none =>
    rw [hg] at hobject
    rw [Option.not_isSome_iff_eq_none.mp (Bool.eq_false_iff.mp hobject.symm)]
  | some reasons =>
    obtain ⟨reasons', hg'⟩ := Option.isSome_iff_exists.mp (hobject.symm.trans (by rw [hg]; rfl))
    rw [hg, hg'] at hreasons
    rw [hg']
    refine congrArg some (Table.ext_get? fun reason => ?_)
    rw [Table.get?_map, Table.get?_map]
    exact hreasons reason

/-! ## What is reported -/

/-- A group that is reported: its object and reason, the namespace that it is reported under, and its size. -/
structure Group where
  object : String
  reason : String
  «namespace» : String
  size : Nat

/-- The namespace and the size of a group that is large enough. -/
def gist (threshold : Nat) : List KubeEvent → Option (String × Nat)
  | [] => none
  | first :: more => if more.length + 1 < threshold then none else some (first.namespace, more.length + 1)

/-- The groups that are reported, by object and then by reason. -/
def reported (reasons : List String) (threshold : Nat) (events : List KubeEvent) : List Group :=
  (groupList (wanted reasons events)).filterMap fun g =>
    (gist threshold g.2.2).map fun p => ⟨g.1, g.2.1, p.1, p.2⟩

/-- Every group that is large enough comes from one namespace. -/
def OneNamespace (reasons : List String) (threshold : Nat) (events : List KubeEvent) : Prop :=
  ∀ a ∈ wanted reasons events, ∀ b ∈ wanted reasons events, a.objectName = b.objectName → a.reason = b.reason →
    threshold ≤ (members (wanted reasons events) a.objectName a.reason).length → a.namespace = b.namespace

instance (reasons : List String) (threshold : Nat) (events : List KubeEvent) :
    Decidable (OneNamespace reasons threshold events) :=
  inferInstanceAs (Decidable (∀ a ∈ _, ∀ b ∈ _, _ = _ → _ = _ → _ ≤ _ → _ = _))

section Reported

variable {reasons : List String} {threshold : Nat} {events events' : List KubeEvent}

theorem mem_members {object reason : String} {e : KubeEvent} :
    e ∈ members events object reason ↔ e ∈ events ∧ e.objectName = object ∧ e.reason = reason := by
  rw [members, List.mem_filter, decide_eq_true_eq]

theorem mem_reported {g : Group} : g ∈ reported reasons threshold events ↔
    gist threshold (members (wanted reasons events) g.object g.reason) = some (g.namespace, g.size) := by
  simp only [reported, List.mem_filterMap, Option.map_eq_some_iff]
  constructor
  · rintro ⟨x, hx, p, hp, rfl⟩
    obtain ⟨hm, -⟩ := (mem_groupList _).mp hx
    rw [← hm]
    exact hp
  · intro hg
    refine ⟨(g.object, g.reason, members (wanted reasons events) g.object g.reason), (mem_groupList _).mpr ⟨rfl, ?_⟩,
      (g.namespace, g.size), hg, rfl⟩
    rintro (hnil : members _ _ _ = [])
    rw [hnil] at hg
    cases hg

/-- A group from one namespace is reported the same in any order. -/
theorem gist_perm (h : OneNamespace reasons threshold events) (hp : events.Perm events') (object reason : String) :
    gist threshold (members (wanted reasons events) object reason) =
      gist threshold (members (wanted reasons events') object reason) := by
  have hmembers := members_perm (wanted_perm hp reasons) object reason
  cases hm : members (wanted reasons events) object reason with
  | nil =>
    rw [hm] at hmembers
    rw [hmembers.nil_eq]
  | cons first more =>
    cases hm' : members (wanted reasons events') object reason with
    | nil =>
      rw [hm, hm'] at hmembers
      cases hmembers.eq_nil
    | cons first' more' =>
      have hfirst : first ∈ members (wanted reasons events) object reason := hm ▸ List.mem_cons_self
      have hfirst' : first' ∈ members (wanted reasons events) object reason :=
        hmembers.mem_iff.mpr (hm' ▸ List.mem_cons_self)
      obtain ⟨hw, rfl, rfl⟩ := mem_members.mp hfirst
      obtain ⟨hw', ho, hr⟩ := mem_members.mp hfirst'
      have hlength : more.length = more'.length := by
        have := hmembers.length_eq
        rw [hm, hm'] at this
        simpa using this
      by_cases hsmall : more.length + 1 < threshold
      · simp [gist, hsmall, ← hlength]
      · have hns := h first hw first' hw' ho.symm hr.symm (by rw [hm]; simpa using hsmall)
        simp [gist, ← hlength, hns]

/-- **What is reported does not depend on the order if every group that is large enough comes from one namespace.** -/
theorem reported_perm (h : OneNamespace reasons threshold events) (hp : events.Perm events') :
    reported reasons threshold events = reported reasons threshold events' := by
  have hread : ∀ events, reported reasons threshold events =
      ((groupList (wanted reasons events)).map fun g => (g.1, g.2.1, gist threshold g.2.2)).filterMap fun g =>
        g.2.2.map fun p => ⟨g.1, g.2.1, p.1, p.2⟩ := by
    intro events
    rw [List.filterMap_map]
    rfl
  rw [hread, hread, map_groupList_perm (wanted_perm hp reasons) (gist threshold) (gist_perm h hp)]

/-- If a group that is large enough comes from two namespaces, it is reported under another one in some order. -/
theorem exists_perm_of_not_oneNamespace (h : ¬OneNamespace reasons threshold events) :
    ∃ events', events.Perm events' ∧ ∃ g ∈ reported reasons threshold events, ∃ g' ∈ reported reasons threshold events',
      g.object = g'.object ∧ g.reason = g'.reason ∧ g.namespace ≠ g'.namespace := by
  simp only [OneNamespace, not_forall] at h
  obtain ⟨a, ha, b, hb, hobject, hreason, hlarge, hne⟩ := h
  cases hm : members (wanted reasons events) a.objectName a.reason with
  | nil => exact absurd (mem_members.mpr ⟨ha, rfl, rfl⟩) (hm ▸ List.not_mem_nil)
  | cons first more =>
    -- one of the two events does not come from the namespace of the first one; it is put in front
    obtain ⟨c, hc, hother⟩ : ∃ c ∈ members (wanted reasons events) a.objectName a.reason,
        first.namespace ≠ c.namespace := by
      by_cases hfirst : first.namespace = a.namespace
      · exact ⟨b, mem_members.mpr ⟨hb, hobject.symm, hreason.symm⟩, fun hb => hne (hfirst.symm.trans hb)⟩
      · exact ⟨a, mem_members.mpr ⟨ha, rfl, rfl⟩, hfirst⟩
    obtain ⟨hwanted, hco, hcr⟩ := mem_members.mp hc
    obtain ⟨hmem, hreasons⟩ := List.mem_filter.mp hwanted
    have hperm : events.Perm (c :: events.erase c) := List.perm_cons_erase hmem
    have hfront : members (wanted reasons (c :: events.erase c)) a.objectName a.reason =
        c :: members (wanted reasons (events.erase c)) a.objectName a.reason := by
      rw [wanted, List.filter_cons_of_pos (by simpa using hreasons), members, List.filter_cons_of_pos (by simp [hco, hcr])]
      rfl
    have hlength := (members_perm (wanted_perm hperm reasons) a.objectName a.reason).length_eq
    refine ⟨_, hperm, ⟨a.objectName, a.reason, first.namespace, more.length + 1⟩, mem_reported.mpr ?_,
      ⟨a.objectName, a.reason, c.namespace, more.length + 1⟩, mem_reported.mpr ?_, rfl, rfl, hother⟩
    · rw [hm] at hlarge ⊢
      simpa [gist] using hlarge
    · rw [hm] at hlarge
      rw [hm, hfront, List.length_cons, List.length_cons] at hlength
      rw [hfront]
      simpa [gist, Nat.add_right_cancel hlength] using hlarge

end Reported

end Kube

/-! ## Sightings -/

/-- What is said of an alert of a group: its fingerprint, and the labels that tell the groups apart. -/
structure Sighting where
  fingerprint : String
  «namespace» : Option String
  object : Option String
  reason : Option String
  value : Option String
  deriving DecidableEq

def Event.sighting (a : Event) : Sighting :=
  ⟨a.fingerprint, a.labels.get? "namespace", a.labels.get? "object_name", a.labels.get? "reason", a.value?⟩

def Outcome.sightings (out : Outcome) : List Sighting := out.events.map Event.sighting

/-- The sighting of a group by a rule. -/
def Kube.Group.sighting (rule : Rule) (g : Kube.Group) : Sighting :=
  ⟨Fingerprint.ofKube rule.id g.namespace g.reason g.object, some g.namespace, some g.object, some g.reason,
    some (Nat.repr g.size)⟩

namespace Observation

/-- The sighting that the event of an observation has. -/
def sighting (rule : Rule) (o : Observation) : Sighting :=
  ⟨o.fingerprint, o.given rule "namespace", o.given rule "object_name", o.given rule "reason", o.given rule valueLabel⟩

theorem sighting_event (o : Observation) (rule : Rule) (datasource id : String) (now : Instant)
    (record : Option Event) : (o.event rule datasource id now record).sighting = o.sighting rule := by
  have hlabel : ∀ key, key ≠ severityLabel → key ≠ ruleNameLabel → key ≠ firstValueLabel →
      (o.event rule datasource id now record).labels.get? key = o.given rule key :=
    fun key hs hn hf => o.get?_event rule datasource id now hs hn hf record
  rw [Event.sighting, sighting, Event.value?, (o.event_spec rule datasource id now record).1.2,
    hlabel "namespace" (by decide) (by decide) (by decide), hlabel "object_name" (by decide) (by decide) (by decide),
    hlabel "reason" (by decide) (by decide) (by decide), hlabel valueLabel (by decide) (by decide) (by decide)]

end Observation

/-- The labels of a group; its value is its size. -/
def Kube.labels (first : KubeEvent) (object reason : String) (size : Nat) : Table String :=
  Table.ofList [("namespace", first.namespace), ("kind", first.kind), ("object_name", object), ("reason", reason),
    (valueLabel, Nat.repr size)]

theorem Kube.get?_labels (first : KubeEvent) (object reason : String) (size : Nat) (key v : String) :
    (labels first object reason size).get? key = some v ↔ (key, v) ∈ [("namespace", first.namespace),
      ("kind", first.kind), ("object_name", object), ("reason", reason), (valueLabel, Nat.repr size)] := by
  refine Table.get?_ofList ?_ key v
  show ["namespace", "kind", "object_name", "reason", valueLabel].Nodup
  decide

/-- A group that is large enough is a match, which goes by its gist; any other group is none. -/
theorem Kube.judge_cases (rule : Rule) (ns : String) (threshold windowSecs : Nat) (severity : Severity)
    (object reason : String) (ms : List KubeEvent) :
    (judge rule ns threshold windowSecs severity object reason ms = none ∧ gist threshold ms = none) ∨
      ∃ o first size, judge rule ns threshold windowSecs severity object reason ms = some (.matched o) ∧
        gist threshold ms = some (first.namespace, size) ∧
        o.fingerprint = Fingerprint.ofKube rule.id first.namespace reason object ∧ o.severity = severity ∧
        o.labels = labels first object reason size ∧ o.suppressed = false := by
  cases ms with
  | nil => exact .inl ⟨rfl, rfl⟩
  | cons first more =>
    rw [judge, gist]
    by_cases hsmall : more.length + 1 < threshold
    · exact .inl ⟨if_pos hsmall, if_pos hsmall⟩
    · exact .inr ⟨_, first, more.length + 1, if_neg hsmall, if_neg hsmall, rfl, rfl, rfl, rfl⟩

/-- The sighting of a match of a group is that of the group. -/
theorem Kube.sighting_of_labels (rule : Rule) {o : Observation} {first : KubeEvent} {object reason : String} {size : Nat}
    (hf : o.fingerprint = Fingerprint.ofKube rule.id first.namespace reason object)
    (hl : o.labels = labels first object reason size) :
    o.sighting rule = Group.sighting rule ⟨object, reason, first.namespace, size⟩ := by
  have hlabel : ∀ {key v}, (key, v) ∈ [("namespace", first.namespace), ("kind", first.kind), ("object_name", object),
      ("reason", reason), (valueLabel, Nat.repr size)] → o.given rule key = some v :=
    fun {key v} h => Observation.given_of_label (hl ▸ (get?_labels first object reason size key v).mpr h) rule
  rw [Observation.sighting, Group.sighting, hf, hlabel (.head _), hlabel (.tail _ (.tail _ (.head _))),
    hlabel (.tail _ (.tail _ (.tail _ (.head _)))), hlabel (.tail _ (.tail _ (.tail _ (.tail _ (.head _)))))]

/-- The matches of a rule on warning events are sightings of the groups that are reported. -/
theorem Rule.findings_warningEvents (rule : Rule) {ns : String} {reasons : List String} {threshold windowSecs : Nat}
    {severity : Severity} (hq : rule.query = .kubernetesEvents ns reasons threshold windowSecs severity)
    (events : List KubeEvent) : ∃ os : List Observation, rule.findings (.warningEvents events) = os.map .matched ∧
      os.map (·.sighting rule) = (Kube.reported reasons threshold events).map (·.sighting rule) ∧
      ∀ o ∈ os, o.suppressed = false := by
  have hfindings : rule.findings (.warningEvents events) =
      (Kube.groupList (Kube.wanted reasons events)).filterMap fun g =>
        Kube.judge rule ns threshold windowSecs severity g.1 g.2.1 g.2.2 := by
    unfold findings
    rw [hq]
    rfl
  rw [hfindings, Kube.reported]
  induction Kube.groupList (Kube.wanted reasons events) with
  | nil => exact ⟨[], rfl, rfl, fun _ h => nomatch h⟩
  | cons g groups ih =>
    obtain ⟨os, hos, hsight, hplain⟩ := ih
    rcases Kube.judge_cases rule ns threshold windowSecs severity g.1 g.2.1 g.2.2 with
      ⟨hj, hg⟩ | ⟨o, first, size, hj, hg, hf, -, hl, hs⟩
    · exact ⟨os, by simp only [List.filterMap_cons, hj, hos], by simp only [List.filterMap_cons, hg, hsight, Option.map],
        hplain⟩
    · refine ⟨o :: os, ?_, ?_, List.forall_mem_cons.mpr ⟨hs, hplain⟩⟩
      · simp only [List.filterMap_cons, hj, hos, List.map_cons]
      · simp only [List.filterMap_cons, hg, Option.map, List.map_cons, Kube.sighting_of_labels rule hf hl, hsight]

/-! ## Outcomes -/

namespace Engine

/-- What comes of the answer of a datasource. -/
def outcome (e : Engine) (rule : Rule) (datasource : String) (now : Instant) (answer : Answer) :
    Except EngineError Outcome :=
  (e.workOff rule datasource now .empty (rule.findings answer)).1

/-- Looks the stored records of some matches up, and gives the next id to each. -/
def lookUps (rule : Rule) : Engine → List String → Except EngineError Unit
  | _, [] => .ok ()
  | e, fingerprint :: rest =>
    match e.get rule.tenantId rule.faultCenterId fingerprint with
    | (.error error, _) => .error error
    | (.ok _, e) => lookUps rule e.mint.2 rest

theorem lookUps_of_getsSucceed {e : Engine} (h : e.GetsSucceed) (rule : Rule) (fingerprints : List String) :
    e.lookUps rule fingerprints = .ok () := by
  induction fingerprints generalizing e with
  | nil => rfl
  | cons fingerprint rest ih =>
    rw [lookUps, get_of_getsSucceed h]
    exact ih (e := e.counted.mint.2) h

/-- **Matches come to their sightings, if the look-ups succeed.** -/
theorem workOff_matched (rule : Rule) (datasource : String) (now : Instant) {os : List Observation}
    (hos : ∀ o ∈ os, o.suppressed = false) (e : Engine) (out : Outcome) :
    (e.workOff rule datasource now out (os.map .matched)).1.map (fun out => (out.fingerprints, out.sightings)) =
      (e.lookUps rule (os.map (·.fingerprint))).map fun _ =>
        (out.fingerprints ++ os.map (·.fingerprint), out.sightings ++ os.map (·.sighting rule)) := by
  induction os generalizing e out with
  | nil => simp [workOff, lookUps, Except.map]
  | cons o os ih =>
    obtain ⟨ho, hos⟩ := List.forall_mem_cons.mp hos
    rw [List.map_cons, workOff, List.map_cons, lookUps]
    rcases e.get_cases rule.tenantId rule.faultCenterId o.fingerprint with ⟨-, hg⟩ | ⟨-, hg⟩ <;> rw [hg]
    · rfl
    · refine (ih hos e.counted.mint.2 _).trans ?_
      simp [ho, Outcome.sightings, Observation.sighting_event]

end Engine

/-- Two outcomes report the same instances, each with the same labels. -/
def SameInstances : Except EngineError Outcome → Except EngineError Outcome → Prop
  | .ok out, .ok out' =>
    (out.fingerprints ⊆ out'.fingerprints ∧ out'.fingerprints ⊆ out.fingerprints) ∧
      out.sightings ⊆ out'.sightings ∧ out'.sightings ⊆ out.sightings
  | .error error, .error error' => error = error'
  | _, _ => False

instance : (r r' : Except EngineError Outcome) → Decidable (SameInstances r r')
  | .ok _, .ok _ => inferInstanceAs (Decidable ((_ ∧ _) ∧ _ ∧ _))
  | .error _, .error _ => inferInstanceAs (Decidable (_ = _))
  | .ok _, .error _ => inferInstanceAs (Decidable False)
  | .error _, .ok _ => inferInstanceAs (Decidable False)

/-- Outcomes with the same fingerprints and sightings report the same instances. -/
theorem SameInstances.of_map {r r' : Except EngineError Outcome}
    (h : r.map (fun out => (out.fingerprints, out.sightings)) = r'.map fun out => (out.fingerprints, out.sightings)) :
    SameInstances r r' := by
  rcases r with error | out <;> rcases r' with error' | out' <;> simp only [Except.map, reduceCtorEq] at h
  · exact Except.error.inj h
  · obtain ⟨hf, hs⟩ := Prod.mk.inj (Except.ok.inj h)
    rw [SameInstances, hf, hs]
    exact ⟨⟨List.Subset.refl _, List.Subset.refl _⟩, List.Subset.refl _, List.Subset.refl _⟩

section Order

variable (rule : Rule) {ns : String} {reasons : List String} {threshold windowSecs : Nat} {severity : Severity}
  (hq : rule.query = .kubernetesEvents ns reasons threshold windowSecs severity) (datasource : String) (now : Instant)
include hq

/-- The outcome on warning events goes by the groups that are reported. -/
theorem Engine.outcome_warningEvents (e : Engine) (events : List KubeEvent) :
    (e.outcome rule datasource now (.warningEvents events)).map (fun out => (out.fingerprints, out.sightings)) =
      let sightings := (Kube.reported reasons threshold events).map (·.sighting rule)
      (e.lookUps rule (sightings.map (·.fingerprint))).map fun _ => (sightings.map (·.fingerprint), sightings) := by
  obtain ⟨os, hos, hsight, hplain⟩ := rule.findings_warningEvents hq events
  have hfingerprints : os.map (·.fingerprint) = (os.map (·.sighting rule)).map (·.fingerprint) := by
    rw [List.map_map]
    rfl
  rw [outcome, hos, workOff_matched rule datasource now hplain, hfingerprints, hsight]
  rfl

/-- When the look-ups succeed, there is an outcome, and it has a sighting of every group that is reported. -/
theorem Engine.exists_outcome_warningEvents {e : Engine} (h : e.GetsSucceed) (events : List KubeEvent) :
    ∃ out, e.outcome rule datasource now (.warningEvents events) = .ok out ∧
      out.sightings = (Kube.reported reasons threshold events).map (·.sighting rule) := by
  have ho := e.outcome_warningEvents rule hq datasource now events
  simp only [lookUps_of_getsSucceed h] at ho
  cases hr : e.outcome rule datasource now (.warningEvents events) with
  | error error =>
    rw [hr] at ho
    cases ho
  | ok out =>
    rw [hr] at ho
    exact ⟨out, rfl, (Prod.mk.inj (Except.ok.inj ho)).2⟩

/-- **The instances of a rule on warning events do not depend on the order of the events exactly if every group that is
large enough comes from one namespace.** If every one does, the datasource comes to the same instances in any order,
whatever is stored and whichever calls fail. If one does not, there is an order in which it comes to other instances,
whatever is stored. When no look-up fails, it comes to instances. -/
theorem Kube.report_independent_of_order_iff (events : List KubeEvent) :
    (OneNamespace reasons threshold events → ∀ events', events.Perm events' → ∀ e : Engine,
      SameInstances (e.outcome rule datasource now (.warningEvents events))
        (e.outcome rule datasource now (.warningEvents events'))) ∧
    (¬OneNamespace reasons threshold events → ∃ events', events.Perm events' ∧ ∀ e : Engine, e.GetsSucceed →
      ¬SameInstances (e.outcome rule datasource now (.warningEvents events))
        (e.outcome rule datasource now (.warningEvents events'))) ∧
    ∀ e : Engine, e.GetsSucceed → ∃ out, e.outcome rule datasource now (.warningEvents events) = .ok out := by
  refine ⟨?same, ?other, ?exist⟩
  case same =>
    intro h events' hp e
    refine .of_map ?_
    rw [e.outcome_warningEvents rule hq, e.outcome_warningEvents rule hq, reported_perm h hp]
  case other =>
    intro h
    obtain ⟨events', hp, g, hg, g', hg', hobject, hreason, hne⟩ := exists_perm_of_not_oneNamespace h
    refine ⟨events', hp, fun e hgets hsame => ?_⟩
    obtain ⟨out, ho, hs⟩ := Engine.exists_outcome_warningEvents rule hq datasource now hgets events
    obtain ⟨out', ho', hs'⟩ := Engine.exists_outcome_warningEvents rule hq datasource now hgets events'
    rw [ho, ho'] at hsame
    -- the other order has a sighting of the group, which must be one of the first order
    have hsighted : g'.sighting rule ∈ out.sightings := hsame.2.2 (hs' ▸ List.mem_map_of_mem hg')
    obtain ⟨x, hx, hxs⟩ := List.mem_map.mp (hs ▸ hsighted)
    simp only [Group.sighting, Sighting.mk.injEq, Option.some.injEq] at hxs
    obtain ⟨-, hxns, hxo, hxr, -⟩ := hxs
    have hgist := mem_reported.mp hg
    rw [hobject, hreason, ← hxo, ← hxr, mem_reported.mp hx] at hgist
    exact hne ((Prod.mk.inj (Option.some.inj hgist)).1.symm.trans hxns)
  case exist =>
    intro e h
    obtain ⟨out, ho, -⟩ := Engine.exists_outcome_warningEvents rule hq datasource now h events
    exact ⟨out, ho⟩

end Order

/-- A rule on the warning events of all namespaces, for runs on fixed inputs. -/
def Rule.anyNamespace : Rule :=
  { Rule.errorCount with
    datasourceKind := .kubernetesEvent
    query := .kubernetesEvents "" [] 2 600 .standard }

/-- A warning about a pod named alike in every namespace, for runs on fixed inputs. -/
def KubeEvent.backOff (ns : String) : KubeEvent := ⟨ns, "Pod", "api-0", "BackOff", "restarting", .epoch⟩

/-- Two warnings about a pod, and one about its neighbour in another namespace. -/
def Kube.backOffs : List KubeEvent :=
  [.backOff "prod", { KubeEvent.backOff "prod" with message := "restarting again", lastTimestamp := .ofNanos 0 1 },
    { KubeEvent.backOff "test" with objectName := "api-1" }]

theorem Kube.report_independent_of_order_one_namespace :
    Rule.anyNamespace.query = .kubernetesEvents "" [] 2 600 .standard ∧ OneNamespace [] 2 backOffs ∧
      (∀ events', backOffs.Perm events' →
        SameInstances (Engine.initial.outcome .anyNamespace "ds1" .epoch (.warningEvents backOffs))
          (Engine.initial.outcome .anyNamespace "ds1" .epoch (.warningEvents events'))) ∧
      backOffs.Perm backOffs.reverse ∧ backOffs ≠ backOffs.reverse :=
  have hone : OneNamespace [] 2 backOffs := by decide
  ⟨rfl, hone, fun events' hp =>
    (report_independent_of_order_iff .anyNamespace rfl "ds1" .epoch _).1 hone events' hp .initial,
    (List.reverse_perm _).symm, by decide⟩

/-- Two events of two namespaces, which come in either order. -/
theorem Kube.report_depends_on_order :
    [KubeEvent.backOff "prod", .backOff "test"].Perm [.backOff "test", .backOff "prod"] ∧
      ¬SameInstances
        (Engine.initial.outcome .anyNamespace "ds1" .epoch (.warningEvents [.backOff "prod", .backOff "test"]))
        (Engine.initial.outcome .anyNamespace "ds1" .epoch (.warningEvents [.backOff "test", .backOff "prod"])) := by
  decide +kernel

end Alerting
