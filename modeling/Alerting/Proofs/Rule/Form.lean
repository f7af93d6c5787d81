import Alerting.Proofs.Json.Forms
import Alerting.Rule.Json

/-!
# The JSON form of a rule

A rule is read from its form (`Rule.ofJson?_reread`), and its reader does not notice edits of the form (`Rule.stable`).
The query is the part with rules of its own: its family says which members are known, and every member, the unknown
ones too, must be admitted (`Query.ofJson?_object_iff`). An edit of a query therefore keeps the family and adds admitted
members only (`Query.edit_others`, `Query.edit_admits`).
-/

namespace Alerting

open Json

/-! ## Numbers -/

/-- What a member of the query of a rule may hold: values, nested so deep that two levels of `Query.maxDepth` are left
for the rule and the query. -/
def Query.Admits (v : Json) : Prop := v.isReadable = true ∧ v.depth ≤ 125

/-- A finite number whose text is read as the number. -/
structure Number.IsReadBack (x : Number) : Prop where
  isFinite : x.isFinite = true
  number? : (Json.parse? (Json.floatText x)).bind Json.number? = some x

/-- A number that is read back has a form that denotes it. -/
theorem Number.IsReadBack.exists_form {x : Number} (h : x.IsReadBack) :
    (Json.number x).IsWritable ∧ ∃ w, (Json.number x).reread = w ∧ Json.number? w = some x ∧ Query.Admits w := by
  obtain ⟨w, hw, hx⟩ := Option.bind_eq_some_iff.mp h.number?
  rw [Json.number, if_pos h.isFinite]
  refine ⟨⟨h.isFinite, by rw [hw]; rfl⟩, w, by rw [Json.reread, hw, Option.getD_some], hx, ?_⟩
  cases w <;> first | exact ⟨rfl, Nat.zero_le _⟩ | cases hx

/-! ## Severity rules -/

namespace SeverityRule

def layout : Layout := .roomy ["severity", "expr"] [] []

theorem stable : Stable layout.Edit ofJson? :=
  Layout.stable fun _ _ h =>
    (h.required rfl rfl).bind fun _severity =>
    (h.required rfl rfl).bind fun _expr =>
    Keeps.refl _

theorem isPlain_toJson (r : SeverityRule) : IsPlain r.toJson :=
  isPlain_object (by simp)

theorem ofJson?_toJson (r : SeverityRule) : ofJson? r.toJson = some r :=
  bind_of_eq_some (fields?_all rfl (by decide)) <|
  bind_of_eq_some (required_of_get? rfl rfl) <|
  bind_of_eq_some (required_of_get? rfl rfl)
  rfl

end SeverityRule

/-! ## Queries -/

namespace Query

/-- The members of a query apart from its family. -/
def memberLayout : Family → Layout
  | .metrics => ⟨["query"], [], [], Admits⟩
  | .logs =>
    ⟨["query", "window", "window_unit", "operator", "expected", "severity"],
      [("window_unit", TimeUnit.seconds.toJson), ("severity", Severity.standard.toJson)], [], Admits⟩
  | .traces => ⟨["service", "query", "window_secs", "severity"], [("severity", Severity.standard.toJson)], [], Admits⟩
  | .cloudMetrics =>
    ⟨["namespace", "metric", "statistic", "period_secs", "endpoints", "operator", "threshold", "severity"],
      [("severity", Severity.standard.toJson)], [], Admits⟩
  | .kubernetesEvents =>
    ⟨["namespace", "reasons", "threshold", "window_secs", "severity"],
      [("namespace", .text ""), ("reasons", .list []), ("severity", Severity.standard.toJson)], [], Admits⟩

/-- The members of a query with its family. -/
def layout (family : Family) : Layout :=
  { memberLayout family with names := "family" :: (memberLayout family).names }

/-- One edit of a query, whose family says what its members are. -/
inductive Edit : Change
  | mk {family : Family} {ms ms' : List (String × Json)} (hfamily : ("family", family.toJson) ∈ ms)
      (hedit : (layout family).Edit (.object ms) (.object ms')) : Edit (.object ms) (.object ms')

/-! ### Reading -/

theorem areReadableMembers_iff {ms : List (String × Json)} :
    areReadableMembers ms = true ↔ ∀ m ∈ ms, m.2.isReadable = true := by
  induction ms with
  | nil => simp [areReadableMembers]
  | cons m ms ih => rw [areReadableMembers, Bool.and_eq_true, ih, List.forall_mem_cons]

theorem depthOfMembers_le_iff {ms : List (String × Json)} {n : Nat} :
    depthOfMembers ms ≤ n ↔ ∀ m ∈ ms, m.2.depth ≤ n := by
  induction ms with
  | nil => simp [depthOfMembers]
  | cons m ms ih => rw [depthOfMembers, Nat.max_le, ih, List.forall_mem_cons]

theorem isReadable_and_depth_iff {ms : List (String × Json)} :
    ((Json.object ms).isReadable && decide (1 + (Json.object ms).depth ≤ maxDepth)) = true ↔ ∀ m ∈ ms, Admits m.2 := by
  have hdepth : 1 + (depthOfMembers ms + 1) ≤ maxDepth ↔ depthOfMembers ms ≤ 125 := by
    rw [maxDepth]
    omega
  rw [Bool.and_eq_true, decide_eq_true_iff, isReadable, depth, areReadableMembers_iff, hdepth, depthOfMembers_le_iff]
  exact ⟨fun h m hm => ⟨h.1 m hm, h.2 m hm⟩, fun h => ⟨fun m hm => (h m hm).1, fun m hm => (h m hm).2⟩⟩

/-- The members that name the family. -/
def tags (ms : List (String × Json)) : List (String × Json) := ms.filter (·.1 == "family")

/-- The members apart from the family. -/
def others (ms : List (String × Json)) : List (String × Json) := ms.filter (·.1 != "family")

/-- **A query in a rule is read if each of its members is admitted, the unknown ones too.** -/
theorem ofJson?_object_iff {family : Family} {ms : List (String × Json)} {q : Query}
    (hfamily : ("family", family.toJson) ∈ ms) :
    ofJson? 1 (.object ms) = some q ↔
      (∀ m ∈ ms, Admits m.2) ∧ tags ms = [("family", family.toJson)] ∧
        ofMembers? family (.object (others ms)) = some q := by
  have hmem : ("family", family.toJson) ∈ tags ms := List.mem_filter.mpr ⟨hfamily, rfl⟩
  by_cases hadmits : ∀ m ∈ ms, Admits m.2
  · rw [ofJson?, if_pos (isReadable_and_depth_iff.mpr hadmits)]
    split
    · next k name htags =>
      -- the family that is among the members is the only one
      change tags ms = _ at htags
      rw [htags, List.mem_singleton] at hmem
      cases hmem
      rw [Family.ofName?_name, Option.bind_some]
      exact ⟨fun h => ⟨hadmits, htags, h⟩, fun h => h.2.2⟩
    · next htags => exact ⟨nofun, fun h => absurd h.2.1 (htags _ _)⟩
  · rw [ofJson?, if_neg (mt isReadable_and_depth_iff.mp hadmits)]
    exact ⟨nofun, fun h => absurd h.1 hadmits⟩

/-! ### Edits -/

variable {family : Family} {ms ms' : List (String × Json)}

theorem inner_memberLayout (family : Family) : (memberLayout family).inner = [] := by cases family <;> rfl

theorem room_memberLayout (family : Family) : (memberLayout family).Room = Admits := by cases family <;> rfl

theorem defaults_memberLayout (family : Family) : (memberLayout family).defaults.lookup "family" = none := by
  cases family <;> rfl

theorem ofMembers?_stable : ∀ family, Stable (memberLayout family).Edit (ofMembers? family)
  | .metrics => Layout.stable fun _ _ h => (h.required rfl rfl).bind fun _query => Keeps.refl _
  | .logs =>
    Layout.stable fun _ _ h =>
      (h.required rfl rfl).bind fun _query =>
      (h.required rfl rfl).bind fun _window =>
      (h.withDefault rfl rfl (by rfl)).bind fun _windowUnit =>
      (h.required rfl rfl).bind fun _operator =>
      (h.required rfl rfl).bind fun _expected =>
      (h.withDefault rfl rfl (by rfl)).bind fun _severity =>
      Keeps.refl _
  | .traces =>
    Layout.stable fun _ _ h =>
      (h.required rfl rfl).bind fun _service =>
      (h.required rfl rfl).bind fun _query =>
      (h.required rfl rfl).bind fun _windowSecs =>
      (h.withDefault rfl rfl (by rfl)).bind fun _severity =>
      Keeps.refl _
  | .cloudMetrics =>
    Layout.stable fun _ _ h =>
      (h.required rfl rfl).bind fun _namespace =>
      (h.required rfl rfl).bind fun _metric =>
      (h.required rfl rfl).bind fun _statistic =>
      (h.required rfl rfl).bind fun _periodSecs =>
      (h.required rfl rfl).bind fun _endpoints =>
      (h.required rfl rfl).bind fun _operator =>
      (h.required rfl rfl).bind fun _threshold =>
      (h.withDefault rfl rfl (by rfl)).bind fun _severity =>
      Keeps.refl _
  | .kubernetesEvents =>
    Layout.stable fun _ _ h =>
      (h.withDefault rfl rfl (by rfl)).bind fun _namespace =>
      (h.withDefault rfl rfl (by rfl)).bind fun _reasons =>
      (h.required rfl rfl).bind fun _threshold =>
      (h.required rfl rfl).bind fun _windowSecs =>
      (h.withDefault rfl rfl (by rfl)).bind fun _severity =>
      Keeps.refl _

theorem tags_between {before behind : List (String × Json)} {name : String} (h : name ≠ "family") (v : Json) :
    tags (before ++ (name, v) :: behind) = tags (before ++ behind) := by
  simp [tags, h]

theorem others_between {before behind : List (String × Json)} {name : String} (h : name ≠ "family") (v : Json) :
    others (before ++ (name, v) :: behind) = others before ++ (name, v) :: others behind := by
  simp [others, h]

theorem others_append (before behind : List (String × Json)) :
    others (before ++ behind) = others before ++ others behind := List.filter_append ..

/-- One edit of a query leaves the family and edits the other members. -/
theorem edit_others (h : (layout family).Edit (.object ms) (.object ms')) :
    tags ms' = tags ms ∧ (memberLayout family).Edit (.object (others ms)) (.object (others ms')) := by
  cases h with
  | @add before behind name v hname hv =>
    obtain ⟨hfamily, hname⟩ := List.ne_and_not_mem_of_not_mem_cons hname
    rw [others_between hfamily, others_append]
    exact ⟨tags_between hfamily v, .add hname hv⟩
  | @drop before behind name v hv =>
    have hfamily : name ≠ "family" := by
      rintro rfl
      exact nomatch (defaults_memberLayout family).symm.trans hv
    rw [others_between hfamily, others_append]
    exact ⟨(tags_between hfamily v).symm, .drop hv⟩
  | @inside before behind name change v w hchange hv =>
    exact nomatch (congrArg (List.lookup name) (inner_memberLayout family)).symm.trans hchange

/-- One edit of a query admits what is added. -/
theorem edit_admits (h : (layout family).Edit (.object ms) (.object ms')) (hms : ∀ m ∈ ms, Admits m.2) :
    ∀ m ∈ ms', Admits m.2 := by
  cases h with
  | @add before behind name v hname hv =>
    intro m hm
    rcases List.mem_cons.mp (List.perm_middle.mem_iff.mp hm) with rfl | hm
    · exact room_memberLayout family ▸ hv
    · exact hms m hm
  | @drop before behind name v hv =>
    exact fun m hm => hms m (List.perm_middle.mem_iff.mpr (List.mem_cons_of_mem _ hm))
  | @inside before behind name change v w hchange hv =>
    exact nomatch (congrArg (List.lookup name) (inner_memberLayout family)).symm.trans hchange

theorem stable : Stable Edit (ofJson? 1) := by
  rintro _ _ ⟨hfamily, hedit⟩ q hq
  obtain ⟨hadmits, htags, hq⟩ := (ofJson?_object_iff hfamily).mp hq
  obtain ⟨htags', hothers⟩ := edit_others hedit
  rw [← htags'] at htags
  have hfamily' := (List.mem_filter.mp (htags ▸ List.mem_cons_self)).1
  exact (ofJson?_object_iff hfamily').mpr ⟨edit_admits hedit hadmits, htags, ofMembers?_stable _ _ _ hothers q hq⟩

/-! ### Forms -/

/-- The number that a query compares with. -/
def number? : Query → Option Number
  | logs _ _ _ _ expected _ => some expected
  | cloudMetrics _ _ _ _ _ _ threshold _ => some threshold
  | _ => none

/-- Counts and lengths of time are numbers of 64 bits. -/
def Fits : Query → Prop
  | metrics _ => True
  | logs _ window _ _ _ _ => window < 2 ^ 64
  | traces _ _ windowSecs _ => windowSecs < 2 ^ 64
  | cloudMetrics _ _ _ periodSecs _ _ _ _ => periodSecs < 2 ^ 64
  | kubernetesEvents _ _ threshold windowSecs _ => threshold < 2 ^ 64 ∧ windowSecs < 2 ^ 64

/-- The query has a form: its integers have 64 bits, and its number is read back from its text. -/
structure IsStorable (q : Query) : Prop where
  fits : q.Fits
  number : ∀ x ∈ q.number?, x.IsReadBack

@[simp] theorem admits_text (s : String) : Admits (.text s) := ⟨rfl, Nat.zero_le _⟩

@[simp] theorem admits_nat (n : Nat) : Admits (.nat n) := ⟨rfl, Nat.zero_le _⟩

@[simp] theorem admits_texts (ss : List String) : Admits (.texts ss) := by
  have h : areReadable (ss.map Json.text) = true ∧ depthOfAll (ss.map Json.text) = 0 := by
    induction ss with
    | nil => exact ⟨rfl, rfl⟩
    | cons s ss ih => exact ⟨ih.1, by rw [List.map_cons, depthOfAll, ih.2]; rfl⟩
  exact ⟨h.1, by rw [texts, depth, h.2]; decide⟩

@[simp] theorem admits_severity (s : Severity) : Admits s.toJson := admits_text _

@[simp] theorem admits_unit (u : TimeUnit) : Admits u.toJson := admits_text _

@[simp] theorem admits_comparison (c : Comparison) : Admits c.toJson := admits_text _

/-- A form with its family in front is read by its other members. -/
theorem ofJson?_of_members {q : Query} (htags : tags ms = []) (hadmits : ∀ m ∈ ms, Admits m.2)
    (hread : ofMembers? family (.object ms) = some q) :
    ofJson? 1 (.object (("family", family.toJson) :: ms)) = some q := by
  have hothers : others ms = ms := by
    refine List.filter_eq_self.mpr fun m hm => ?_
    have := List.filter_eq_nil_iff.mp htags m hm
    simpa using this
  refine (ofJson?_object_iff List.mem_cons_self).mpr ⟨?_, ?_, ?_⟩
  · exact List.forall_mem_cons.mpr ⟨admits_text _, hadmits⟩
  · exact congrArg (_ :: ·) htags
  · have hcons : others (("family", family.toJson) :: ms) = others ms := rfl
    rw [hcons, hothers, hread]

theorem choice?_symbol (c : Comparison) : choice? Comparison.ofName? c.toJson = some c := c.ofName?_symbol

theorem choice?_unit (u : TimeUnit) : choice? TimeUnit.ofName? u.toJson = some u := u.ofName?_name

/-- **A query is read from its form.** -/
theorem ofJson?_reread : ∀ {q : Query}, q.IsStorable → q.toJson.IsWritable ∧ ofJson? 1 q.toJson.reread = some q
  | metrics query, _ =>
    ⟨⟨trivial, trivial, trivial⟩,
      ofJson?_of_members rfl (List.forall_mem_singleton.mpr (admits_text query)) <|
      bind_of_eq_some (fields?_all rfl (by decide)) <|
      bind_of_eq_some (required_of_get? rfl rfl)
      rfl⟩
  | logs query window windowUnit operator expected severity, h => by
    obtain ⟨hwritable, w, hw, hx, hadmits⟩ := (h.number expected rfl).exists_form
    have hform : (toJson (logs query window windowUnit operator expected severity)).reread =
        .object (("family", Family.logs.toJson) :: [("query", .text query), ("window", .nat window),
          ("window_unit", windowUnit.toJson), ("operator", operator.toJson), ("expected", w),
          ("severity", severity.toJson)]) := hw ▸ rfl
    rw [hform]
    exact ⟨⟨trivial, trivial, (isPlain_nat h.fits).isWritable, trivial, trivial, hwritable, trivial, trivial⟩,
      ofJson?_of_members rfl (by simp [hadmits]) <|
      bind_of_eq_some (fields?_all rfl (by decide)) <|
      bind_of_eq_some (required_of_get? rfl rfl) <|
      bind_of_eq_some (required_of_get? rfl (nat64?_nat h.fits)) <|
      bind_of_eq_some (withDefault_of_get? rfl (choice?_unit windowUnit)) <|
      bind_of_eq_some (required_of_get? rfl (choice?_symbol operator)) <|
      bind_of_eq_some (required_of_get? rfl hx) <|
      bind_of_eq_some (withDefault_of_get? rfl rfl)
      rfl⟩
  | traces service query windowSecs severity, h => by
    have hform : (toJson (traces service query windowSecs severity)).reread =
        .object (("family", Family.traces.toJson) :: [("service", .text service), ("query", .text query),
          ("window_secs", .nat windowSecs), ("severity", severity.toJson)]) := rfl
    rw [hform]
    exact ⟨⟨trivial, trivial, trivial, (isPlain_nat h.fits).isWritable, trivial, trivial⟩,
      ofJson?_of_members rfl (by simp) <|
      bind_of_eq_some (fields?_all rfl (by decide)) <|
      bind_of_eq_some (required_of_get? rfl rfl) <|
      bind_of_eq_some (required_of_get? rfl rfl) <|
      bind_of_eq_some (required_of_get? rfl (nat64?_nat h.fits)) <|
      bind_of_eq_some (withDefault_of_get? rfl rfl)
      rfl⟩
  | cloudMetrics ns metric statistic periodSecs endpoints operator threshold severity, h => by
    obtain ⟨hwritable, w, hw, hx, hadmits⟩ := (h.number threshold rfl).exists_form
    have hform :
        (toJson (cloudMetrics ns metric statistic periodSecs endpoints operator threshold severity)).reread =
          .object (("family", Family.cloudMetrics.toJson) :: [("namespace", .text ns), ("metric", .text metric),
            ("statistic", .text statistic), ("period_secs", .nat periodSecs), ("endpoints", .texts endpoints),
            ("operator", operator.toJson), ("threshold", w), ("severity", severity.toJson)]) :=
      hw ▸ (isPlain_texts endpoints).reread_eq ▸ rfl
    rw [hform]
    exact ⟨⟨trivial, trivial, trivial, trivial, (isPlain_nat h.fits).isWritable, (isPlain_texts endpoints).isWritable,
        trivial, hwritable, trivial, trivial⟩,
      ofJson?_of_members rfl (by simp [hadmits]) <|
      bind_of_eq_some (fields?_all rfl (by decide)) <|
      bind_of_eq_some (required_of_get? rfl rfl) <|
      bind_of_eq_some (required_of_get? rfl rfl) <|
      bind_of_eq_some (required_of_get? rfl rfl) <|
      bind_of_eq_some (required_of_get? rfl (nat64?_nat h.fits)) <|
      bind_of_eq_some (required_of_get? rfl (texts?_texts endpoints)) <|
      bind_of_eq_some (required_of_get? rfl (choice?_symbol operator)) <|
      bind_of_eq_some (required_of_get? rfl hx) <|
      bind_of_eq_some (withDefault_of_get? rfl rfl)
      rfl⟩
  | kubernetesEvents ns reasons threshold windowSecs severity, h => by
    have hform : (toJson (kubernetesEvents ns reasons threshold windowSecs severity)).reread =
        .object (("family", Family.kubernetesEvents.toJson) :: [("namespace", .text ns), ("reasons", .texts reasons),
          ("threshold", .nat threshold), ("window_secs", .nat windowSecs), ("severity", severity.toJson)]) :=
      (isPlain_texts reasons).reread_eq ▸ rfl
    rw [hform]
    exact ⟨⟨trivial, trivial, (isPlain_texts reasons).isWritable, (isPlain_nat h.fits.1).isWritable,
        (isPlain_nat h.fits.2).isWritable, trivial, trivial⟩,
      ofJson?_of_members rfl (by simp) <|
      bind_of_eq_some (fields?_all rfl (by decide)) <|
      bind_of_eq_some (withDefault_of_get? rfl rfl) <|
      bind_of_eq_some (withDefault_of_get? rfl (texts?_texts reasons)) <|
      bind_of_eq_some (required_of_get? rfl (nat64?_nat h.fits.1)) <|
      bind_of_eq_some (required_of_get? rfl (nat64?_nat h.fits.2)) <|
      bind_of_eq_some (withDefault_of_get? rfl rfl)
      rfl⟩

end Query

/-! ## Rules -/

namespace Rule

def layout : Layout :=
  .roomy
    ["id", "tenant_id", "fault_center_id", "name", "datasource_type", "datasource_ids", "interval",
      "for_duration_secs", "severity_rules", "query", "external_labels", "annotations", "effective_time", "enabled"]
    [("for_duration_secs", .nat 0), ("severity_rules", .list []), ("external_labels", .object []),
      ("annotations", .text ""), ("effective_time", .null)]
    [("interval", Interval.layout.Edit), ("severity_rules", InElem SeverityRule.layout.Edit), ("query", Query.Edit),
      ("external_labels", Reordered), ("effective_time", EffectiveTime.layout.Edit)]

theorem stable : Stable layout.Edit ofJson? :=
  Layout.stable fun _ _ h =>
    (h.required rfl rfl).bind fun _id =>
    (h.required rfl rfl).bind fun _tenantId =>
    (h.required rfl rfl).bind fun _faultCenterId =>
    (h.required rfl rfl).bind fun _name =>
    (h.required rfl rfl).bind fun _datasourceKind =>
    (h.required rfl rfl).bind fun _datasourceIds =>
    (h.requiredInside rfl rfl Interval.stable).bind fun _interval =>
    (h.withDefault rfl rfl (by rfl)).bind fun _forDurationSecs =>
    (h.withDefaultInside rfl rfl (by rfl) (InElem.stable SeverityRule.stable)).bind fun _severityRules =>
    (h.requiredInside rfl rfl Query.stable).bind fun _query =>
    (h.withDefaultInside rfl rfl (by rfl) (Reordered.stable _)).bind fun _externalLabels =>
    (h.withDefault rfl rfl (by rfl)).bind fun _annotations =>
    (h.withDefaultInside rfl rfl (by rfl) (Layout.stable_orNull EffectiveTime.stable)).bind fun _effectiveTime =>
    (h.required rfl rfl).bind fun _enabled =>
    Keeps.refl _

/-- The rule has a form: its integers have their sizes, and the number of its query is read back from its text. -/
structure IsStorable (r : Rule) : Prop where
  interval : r.interval.value < 2 ^ 64
  forDurationSecs : r.forDurationSecs < 2 ^ 64
  query : r.query.IsStorable
  effectiveTime : ∀ w ∈ r.effectiveTime, w.Fits

variable {r : Rule}

/-- **A rule is read from its form.** -/
theorem ofJson?_reread (h : r.IsStorable) : r.toJson.IsWritable ∧ ofJson? r.toJson.reread = some r := by
  obtain ⟨hwritable, hquery⟩ := Query.ofJson?_reread h.query
  have hids := isPlain_texts r.datasourceIds
  have hinterval := Interval.isPlain_toJson h.interval
  have hrules : IsPlain (.list (r.severityRules.map SeverityRule.toJson)) :=
    isPlain_list fun _ hv => by
      obtain ⟨x, -, rfl⟩ := List.mem_map.mp hv
      exact x.isPlain_toJson
  have hlabels := r.externalLabels.isPlain_toJson
  have htime : IsPlain (.ofOption EffectiveTime.toJson r.effectiveTime) :=
    isPlain_ofOption fun w hw => EffectiveTime.isPlain_toJson (h.effectiveTime w hw)
  have hform : r.toJson.reread =
      .object [("id", .text r.id), ("tenant_id", .text r.tenantId), ("fault_center_id", .text r.faultCenterId),
        ("name", .text r.name), ("datasource_type", r.datasourceKind.toJson),
        ("datasource_ids", .texts r.datasourceIds), ("interval", r.interval.toJson),
        ("for_duration_secs", .nat r.forDurationSecs),
        ("severity_rules", .list (r.severityRules.map SeverityRule.toJson)), ("query", r.query.toJson.reread),
        ("external_labels", r.externalLabels.toJson), ("annotations", .text r.annotations),
        ("effective_time", .ofOption EffectiveTime.toJson r.effectiveTime), ("enabled", .bool r.enabled)] := by
    rw [toJson, reread, rereadMembers_eq]
    simp only [List.map_cons, List.map_nil, hids.reread_eq, hinterval.reread_eq, hrules.reread_eq, hlabels.reread_eq,
      htime.reread_eq]
    rfl
  rw [hform]
  exact ⟨⟨trivial, trivial, trivial, trivial, trivial, hids.isWritable, hinterval.isWritable,
      (isPlain_nat h.forDurationSecs).isWritable, hrules.isWritable, hwritable, hlabels.isWritable, trivial,
      htime.isWritable, trivial, trivial⟩,
    bind_of_eq_some (fields?_all rfl (by decide)) <|
    bind_of_eq_some (required_of_get? rfl rfl) <|
    bind_of_eq_some (required_of_get? rfl rfl) <|
    bind_of_eq_some (required_of_get? rfl rfl) <|
    bind_of_eq_some (required_of_get? rfl rfl) <|
    bind_of_eq_some (required_of_get? rfl (DatasourceKind.ofJson?_toJson _)) <|
    bind_of_eq_some (required_of_get? rfl (texts?_texts _)) <|
    bind_of_eq_some (required_of_get? rfl (Interval.ofJson?_toJson h.interval)) <|
    bind_of_eq_some (withDefault_of_get? rfl (nat64?_nat h.forDurationSecs)) <|
    bind_of_eq_some (withDefault_of_get? rfl (list?_map fun x _ => x.ofJson?_toJson)) <|
    bind_of_eq_some (required_of_get? rfl hquery) <|
    bind_of_eq_some (withDefault_of_get? rfl (Table.table?_toJson _)) <|
    bind_of_eq_some (withDefault_of_get? rfl rfl) <|
    bind_of_eq_some (withDefault_of_get? rfl
      (orNull_ofOption nofun fun w hw => EffectiveTime.ofJson?_toJson (h.effectiveTime w hw))) <|
    bind_of_eq_some (required_of_get? rfl rfl)
    rfl⟩

end Rule

end Alerting
