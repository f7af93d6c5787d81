import Alerting.Proofs.Dispatch.Flight

/-!
# Where alerts end and where they begin again

Only a pass writes a recovered event, over the pending event of the same generation, and when its entry is as old as
the grace period (`Work.Ends`). Only a dispatch writes over a recovered event, and it begins a generation with an
unconfirmed event and a new id (`Work.Begins`). This holds for every write of every run, whichever calls fail, and also
when datasources are worked off side by side (`ends_and_begins`): what is in flight is never recovered, and where a
recovered event is stored, only first events of new generations are in flight (`Engine.Orderly`).

A grace period of zero is over even when the clock has gone back since the entry was made (`recovered_before_missed`).
-/

namespace Alerting

/-! ## Grace periods -/

/-- The grace period of an event in seconds: its own if that is positive, else that of the fault center if that is
positive, else the configured one. -/
def Config.waitSecs (config : Config) (event : Event) (info : Option FaultCenter) : Nat :=
  ((event.recoverWaitSecs.filter (0 < ·)).or ((info.map (·.recoverWaitSecs)).filter (0 < ·))).getD
    config.defaultRecoverWaitSecs

theorem Config.graceOf_eq (config : Config) (event : Event) (info : Option FaultCenter) :
    config.graceOf event info = .ofSecs (config.waitSecs event info) := by
  unfold graceOf waitSecs
  cases event.recoverWaitSecs.filter (0 < ·) with
  | some secs => rfl
  | none =>
    cases info with
    | none => rfl
    | some center =>
      cases hz : center.recoverWaitSecs with
      | zero => simp [recoverWait, hz, Option.filter]
      | succ n => simp [recoverWait, hz, Option.filter]

/-- A number of seconds has passed since a time if it is that long ago, and zero seconds always have. -/
theorem Instant.ofSecs_le_elapsedSince {t s : Instant} {n : Nat} :
    Duration.ofSecs n ≤ t.elapsedSince s ↔ ((Duration.ofSecs n).nanos : Int) ≤ t.since s ∨ n = 0 := by
  show n * 1000000000 ≤ (t.since s).toNat ↔ ((n * 1000000000 : Nat) : Int) ≤ t.since s ∨ n = 0
  omega

/-! ## Ends and beginnings -/

/-- A write ends an alert: a pass makes it over the pending event of the same generation, whose entry is as old as its
grace period. -/
def Work.Ends (config : Config) (e : Engine) (w : Work) (x : Write) : Prop :=
  ∃ scope current suppressed now old since, w = .recover scope current suppressed now ∧ x.replaced = some old ∧
    x.event.id = old.id ∧ old.status = .pendingRecovery ∧
    e.pending.get? scope.tenant scope.rule x.event.fingerprint = some since ∧
    (((Duration.ofSecs (config.waitSecs old (e.infos.get? scope.infoKey))).nanos : Int) ≤ now.since since ∨
      config.waitSecs old (e.infos.get? scope.infoKey) = 0)

/-- An event begins a generation: it is unconfirmed, first triggered when its datasource was asked, and none of the
earlier writes has its id. -/
def Work.Begins (w : Work) (earlier : List (Nat × Write)) (a : Event) : Prop :=
  a.status = .preAlert ∧ a.firstTriggerTime = a.lastEvalTime ∧ (∃ t ∈ w.tasks, t.now = a.lastEvalTime) ∧
    ∀ y ∈ earlier, y.2.event.id ≠ a.id

/-- What a write of a piece of work does about recovered events. -/
structure Work.InOrder (config : Config) (e : Engine) (w : Work) (earlier : List (Nat × Write)) (x : Write) : Prop where
  ends : x.event.status = .recovered → w.Ends config e x
  begins : ∀ old, x.replaced = some old → old.status = .recovered → w.Begins earlier x.event

namespace Engine

/-! ## Ids -/

/-- Every id was given out, and events with one id are of one alert. -/
structure Identified (e : Engine) (flying : Event → Prop) : Prop where
  coherent : e.Coherent
  known : ∀ a, e.Knows flying a → ∃ n, n < e.minted ∧ a.id = mintedId n
  written : ∀ y ∈ e.writes, ∃ n, n < e.minted ∧ y.2.event.id = mintedId n
  placed : ∀ a b, e.Knows flying a → e.Knows flying b → a.id = b.id →
    EventCache.keyOf a = EventCache.keyOf b ∧ a.fingerprint = b.fingerprint

section Identified

variable {e e' : Engine} {flying flying' : Event → Prop}

theorem Identified.quietly (h : e.Identified flying) (hq : Quietly e e') (hf : ∀ a, flying' a → flying a) :
    e'.Identified flying' := by
  have hk : ∀ {a}, e'.Knows flying' a → e.Knows flying a := fun ha => ha.of_quietly hq fun ha => .inr (hf _ ha)
  refine ⟨hq (fun hq h => h.quiet hq) h.coherent, fun a ha => ?_, fun y hy => ?_,
    fun a b ha hb => h.placed a b (hk ha) (hk hb)⟩
  · obtain ⟨n, hn, hid⟩ := h.known a (hk ha)
    exact ⟨n, Nat.lt_of_lt_of_le hn hq.minted, hid⟩
  · obtain ⟨n, hn, hid⟩ := h.written y (hq.writes ▸ hy)
    exact ⟨n, Nat.lt_of_lt_of_le hn hq.minted, hid⟩

theorem Identified.stored (h : e.Identified flying) {a : Event} (ha : e.Knows flying a) :
    (e.stored a).Identified flying := by
  have hk : ∀ {b}, (e.stored a).Knows flying b → e.Knows flying b := fun hb => by
    rcases hb.of_stored with rfl | hb
    · exact ha
    · exact hb
  refine ⟨h.coherent.stored a, fun b hb => h.known b (hk hb), fun y hy => ?_,
    fun b c hb hc => h.placed b c (hk hb) (hk hc)⟩
  rcases List.mem_cons.mp hy with rfl | hy
  · exact h.known a ha
  · exact h.written y hy

/-- A new event has the id of the record that it was made of, and its place, or an id that nothing has. -/
theorem Identified.looked (h : e.Identified flying) {t : AnswerTask} {f : Finding} (hq : Quietly e e')
    (hm : e'.minted = e.minted + [f].countP Finding.isMatch) :
    e'.Identified fun a => flying a ∨ a ∈ f.events (e.cached t.rule) t.rule t.datasource t.now e.minted := by
  have hc := h.coherent.liesAt_cached t.rule
  have hknown : ∀ {k c}, e.cached t.rule k = some c → e.Knows flying c := fun hc => h.coherent.knows hc flying
  have hsplit : ∀ {a}, (e'.Knows (fun a => flying a ∨
      a ∈ f.events (e.cached t.rule) t.rule t.datasource t.now e.minted) a) → e.Knows flying a ∨
      a ∈ f.events (e.cached t.rule) t.rule t.datasource t.now e.minted := by
    rintro a (ha | ha | ha)
    · exact .inl (.inl (hq.events ▸ ha))
    · exact .inl (.inr ha)
    · exact .inr ha
  have hnew : ∀ {a b}, a ∈ f.events (e.cached t.rule) t.rule t.datasource t.now e.minted → e.Knows flying b →
      a.id = b.id → EventCache.keyOf a = EventCache.keyOf b ∧ a.fingerprint = b.fingerprint := by
    intro a b ha hb hid
    have hl := (Finding.liesAt_of_mem_events hc ha).1
    cases Finding.origin_of_mem_events hc ha with
    | continued c hcc _ hida =>
      obtain ⟨hck, hcf⟩ := hc _ c hcc
      obtain ⟨hk, hf⟩ := h.placed c b (hknown hcc) hb (hida.symm.trans hid)
      exact ⟨hl.1.trans (hck.symm.trans hk), hcf.symm.trans hf⟩
    | started _ hida =>
      obtain ⟨n, hn, hidb⟩ := h.known b hb
      exact absurd (mintedId_inj (hida.symm.trans (hid.trans hidb))) (Nat.ne_of_gt hn)
  refine ⟨hq (fun hq h => h.quiet hq) h.coherent, fun a ha => ?_, fun y hy => ?_, fun a b ha hb hid => ?_⟩
  · rcases hsplit ha with ha | ha
    · obtain ⟨n, hn, hid⟩ := h.known a ha
      exact ⟨n, by omega, hid⟩
    · refine Finding.numbered_of_mem_events hc (fun k c hcc => ?_) ha fun hmatch => ?_
      · obtain ⟨n, hn, hid⟩ := h.known c (hknown hcc)
        exact ⟨n, by omega, hid⟩
      · rw [hm, List.countP_cons_of_pos hmatch]
        omega
  · obtain ⟨n, hn, hid⟩ := h.written y (hq.writes ▸ hy)
    exact ⟨n, by omega, hid⟩
  · rcases hsplit ha with ha | ha <;> rcases hsplit hb with hb | hb
    · exact h.placed a b ha hb hid
    · exact (hnew hb ha hid.symm).imp Eq.symm Eq.symm
    · exact hnew ha hb hid
    · rw [Finding.eq_of_mem_events ha hb]
      exact ⟨rfl, rfl⟩

/-- A change of a pass keeps the ids: a moved event has that of the one before. -/
theorem Identified.deal {scope : Scope} {fingerprint : String} (h : e.Identified Landed)
    (hd : Deal scope fingerprint e e') : e'.Identified Landed := by
  cases hd with
  | quiet hq => exact h.quietly hq.quietly fun _ ha => ha
  | moved old target time hf hl _ =>
    have hold : e.Knows Landed old := h.coherent.knows hf Landed
    have hk : ∀ {b}, (e.stored (old.moved target time)).Knows Landed b →
        ∃ c, e.Knows Landed c ∧ c.id = b.id ∧ EventCache.keyOf c = EventCache.keyOf b ∧
          c.fingerprint = b.fingerprint := by
      intro b hb
      rcases hb.of_stored with rfl | hb
      · exact ⟨old, hold, rfl, rfl, rfl⟩
      · exact ⟨b, hb, rfl, rfl, rfl⟩
    refine ⟨h.coherent.stored _, fun b hb => ?_, fun y hy => ?_, fun a b ha hb hid => ?_⟩
    · obtain ⟨c, hc, hid, -⟩ := hk hb
      exact hid ▸ h.known c hc
    · rcases List.mem_cons.mp hy with rfl | hy
      · exact h.known old hold
      · exact h.written y hy
    · obtain ⟨c, hc, hcid, hck, hcf⟩ := hk ha
      obtain ⟨d, hd, hdid, hdk, hdf⟩ := hk hb
      obtain ⟨hkey, hfp⟩ := h.placed c d hc hd (hcid.trans (hid.trans hdid.symm))
      exact ⟨hck.symm.trans (hkey.trans hdk), hcf.symm.trans (hfp.trans hdf)⟩
  | removed tenant center _ =>
    exact ⟨h.coherent.removed _ _ _, fun b hb => h.known b hb.of_removed, h.written,
      fun a b ha hb => h.placed a b ha.of_removed hb.of_removed⟩
  | missed | found => exact ⟨h.coherent, h.known, h.written, h.placed⟩

end Identified

/-! ## A piece of work -/

/-- In a piece of work that began with `e₀`: nothing in flight is recovered, where a recovered event is stored only
beginnings are in flight, and the writes are in order. -/
structure Orderly (config : Config) (w : Work) (e e₀ : Engine) (flying : Event → Prop) : Prop where
  ids : e.Identified flying
  live : ∀ a, flying a → a.status ≠ .recovered
  first : ∀ a old, flying a → e.events.find? (EventCache.keyOf a) a.fingerprint = some old → old.status = .recovered →
    w.Begins e.writes a
  writes : e.NewWrites e₀.writes (w.InOrder config e₀)

section Orderly

variable {config : Config} {e₀ e e' : Engine} {w : Work} {flying flying' : Event → Prop}

theorem Orderly.quietly (h : e.Orderly config w e₀ flying) (hq : Quietly e e') (hf : ∀ a, flying' a → flying a) :
    e'.Orderly config w e₀ flying' := by
  refine ⟨h.ids.quietly hq hf, fun a ha => h.live a (hf a ha), fun a old ha hold => ?_, h.writes.of_writes hq.writes⟩
  rw [hq.writes]
  exact h.first a old (hf a ha) (hq.events ▸ hold)

/-- An event that is made where a recovered one is stored begins a generation. -/
theorem Orderly.looked (h : e.Orderly config w e₀ flying) {t : AnswerTask} (ht : t ∈ w.tasks) {f : Finding}
    (hq : Quietly e e') (hm : e'.minted = e.minted + [f].countP Finding.isMatch) :
    e'.Orderly config w e₀ fun a =>
      flying a ∨ a ∈ f.events (e.cached t.rule) t.rule t.datasource t.now e.minted := by
  have hc := h.ids.coherent.liesAt_cached t.rule
  refine ⟨h.ids.looked hq hm, fun a ha => ?_, fun a old ha hold hs => ?_, h.writes.of_writes hq.writes⟩
  · rcases ha with ha | ha
    · exact h.live a ha
    · exact (Finding.origin_of_mem_events hc ha).ne_recovered
  · rw [hq.events] at hold
    rw [hq.writes]
    rcases ha with ha | ha
    · exact h.first a old ha hold hs
    · have hcached : e.cached t.rule a.fingerprint = some old := by
        rwa [(Finding.liesAt_of_mem_events hc ha).1.1] at hold
      cases Finding.origin_of_mem_events hc ha with
      | continued c hcc hlive =>
        rw [hcached] at hcc
        cases hcc
        rw [hs] at hlive
        cases hlive
      | started _ hid hpre _ hfirst =>
        have hlast := Finding.lastEvalTime_of_mem_events ha
        refine ⟨hpre, hfirst.trans hlast.symm, ⟨t, ht, hlast.symm⟩, fun y hy hyid => ?_⟩
        obtain ⟨n, hn, hyn⟩ := h.ids.written y hy
        exact absurd (mintedId_inj (hyn.symm.trans (hyid.trans hid))) (Nat.ne_of_lt hn)

/-- A stored event leaves no recovered event in its place, and takes no other event its id. -/
theorem Orderly.stored (h : e.Orderly config w e₀ flying) {a : Event} (ha : flying a) :
    (e.stored a).Orderly config w e₀ flying := by
  refine ⟨h.ids.stored (.inr ha), h.live, fun b old hb hold hs => ?_, h.writes.stored ⟨fun hs => ?_, ?_⟩⟩
  · simp only [Engine.stored, EventCache.find?_push] at hold
    split at hold
    · cases hold
      exact absurd hs (h.live a ha)
    · next hat =>
      obtain ⟨hpre, hfirst, hasked, hnew⟩ := h.first b old hb hold hs
      refine ⟨hpre, hfirst, hasked, fun y hy hid => ?_⟩
      rcases List.mem_cons.mp hy with rfl | hy
      · obtain ⟨hk, hf⟩ := h.ids.placed a b (.inr ha) (.inr hb) hid
        exact hat ⟨hk.symm, hf.symm⟩
      · exact hnew y hy hid
  · exact absurd hs (h.live a ha)
  · exact fun old hold hs => h.first a old ha hold hs

/-- **The calls for answers keep the order.** -/
theorem keptBy_orderly (config : Config) (e₀ : Engine) (w : Work) :
    KeptBy w.tasks fun e flying => e.Orderly config w e₀ flying :=
  ⟨fun hq hf h => h.quietly hq hf, fun _ ht _ _ _ _ _ hq hm h => h.looked ht hq hm, fun ha h => h.stored ha⟩

/-- Before and after a change of a pass, nothing is in flight. -/
theorem orderly_of_landed (h : e.Identified Landed) (hw : e.NewWrites e₀.writes (w.InOrder config e₀)) :
    e.Orderly config w e₀ Landed :=
  ⟨h, fun _ hn => hn.elim, fun _ _ hn => hn.elim, hw⟩

/-- A move of a pass is in order if the event was not recovered, and is an end if it is recovered afterwards. -/
theorem Orderly.moved (h : e.Orderly config w e₀ Landed) {scope : Scope} {fingerprint : String} {old : Event}
    {target : Status} {time : Instant} (hf : e.events.find? scope.eventsKey fingerprint = some old)
    (hl : old.LiesAt scope.eventsKey fingerprint) (ha : old.status.allows target = true) (hs : old.status ≠ .recovered)
    (hends : target = .recovered → w.Ends config e₀ ⟨some old, old.moved target time⟩) :
    (e.stored (old.moved target time)).Orderly config w e₀ Landed := by
  have hreplaced : e.events.find? (EventCache.keyOf (old.moved target time)) (old.moved target time).fingerprint =
      some old := by
    rw [← hf, ← hl.1, ← hl.2]
    rfl
  refine orderly_of_landed (h.ids.deal (.moved e old target time hf hl ha))
    (h.writes.stored ⟨fun ht => ?_, fun old' hold hs' => ?_⟩)
  · rw [hreplaced]
    exact hends ht
  · rw [hreplaced] at hold
    cases hold
    exact absurd hs' hs

/-- **The changes of a pass keep the order.** -/
theorem Orderly.turn {scope : Scope} {current suppressed : List String} {now : Instant} {fingerprint : String}
    (h : e.Orderly config (.recover scope current suppressed now) e₀ Landed)
    (ht : Turn config scope now (e₀.infos.get? scope.infoKey) (e₀.cell scope fingerprint) fingerprint e e') :
    e'.Orderly config (.recover scope current suppressed now) e₀ Landed := by
  cases ht with
  | quiet hq => exact h.quietly hq.quietly fun _ ha => ha
  | discarded old hc ho hl =>
    exact orderly_of_landed (h.ids.deal (.removed _ _ _ hl.1)) h.writes
  | reactivated old hc ho hl _ ha =>
    exact h.moved (find?_of_cell_eq hc ho) hl ha (Status.ne_recovered_of_allows ha nofun) nofun
  | listed old => exact orderly_of_landed (h.ids.deal (.missed _ _)) h.writes
  | wentMissing old hc ho hl ha =>
    exact h.moved (find?_of_cell_eq (c := { e₀.cell scope fingerprint with since := some now }) hc ho) hl ha
      (Status.ne_recovered_of_allows ha nofun) nofun
  | recovered old since hc ho hl hs hsince hgrace =>
    have ha : old.status.allows .recovered = true := by rw [hs]; rfl
    refine h.moved (find?_of_cell_eq hc ho) hl ha (by rw [hs]; exact nofun) fun _ => ?_
    rw [config.graceOf_eq, Instant.ofSecs_le_elapsedSince] at hgrace
    refine ⟨scope, current, suppressed, now, old, since, rfl, rfl, rfl, hs, ?_, hgrace⟩
    show e₀.pending.get? scope.tenant scope.rule old.fingerprint = some since
    rw [hl.2]
    exact hsince
  | unlisted => exact orderly_of_landed (h.ids.deal (.found _)) h.writes

/-- **Every piece of work keeps the order.** -/
theorem Identified.after (h : e.Identified Landed) (config : Config) (w : Work) :
    (e.after config w).Orderly config w e Landed :=
  (keptBy_orderly config e w).after config h.coherent (fun scope current suppressed now hw fingerprint e₁ e₂ ht h => by
    subst hw
    exact h.turn ht) (orderly_of_landed h (newWrites_self e _))

theorem Identified.run (h : e.Identified Landed) (config : Config) (works : List Work) :
    (e.run config works).Identified Landed := by
  induction works generalizing e with
  | nil => exact h
  | cons w works ih => exact ih (h.after config w).ids

theorem identified_fresh (faults : Nat → Call → Bool) (infos : InfoCache) : (fresh faults infos).Identified Landed := by
  have hno : ∀ a, ¬(fresh faults infos).Knows Landed a := fun a ha => nomatch ha.stored_of_landed
  exact ⟨coherent_fresh faults infos, fun a ha => absurd ha (hno a), fun _ hy => (nomatch hy),
    fun a _ ha => absurd ha (hno a)⟩

end Orderly

end Engine

/-- **Recovery is never skipped into and never undone.** Every write of a recovered event ends an alert, and every write
over a recovered event begins a generation. -/
theorem ends_and_begins (config : Config) (faults : Nat → Call → Bool) (infos : InfoCache) (works : List Work)
    (w : Work) :
    let e := (Engine.fresh faults infos).run config works
    (e.after config w).NewWrites e.writes fun earlier x =>
      (x.event.status = .recovered → w.Ends config e x) ∧
        ∀ old, x.replaced = some old → old.status = .recovered → w.Begins earlier x.event := by
  intro e
  have h := ((Engine.identified_fresh faults infos).run config works).after config w
  exact h.writes.mono fun _ _ hx => ⟨hx.ends, hx.begins⟩

/-- **A grace period of zero is over before it has begun.** The alert goes missing at a minute past, and a pass half a
minute earlier lets it recover. -/
theorem recovered_before_missed :
    let config := { Config.standard with defaultRecoverWaitSecs := 0 }
    let time (n : Nat) := Instant.epoch.after (.ofSecs n)
    let hit := Work.dispatch .errorCount [⟨"ds1", .epoch, 0, .ok (.count 5)⟩]
    let e := (Engine.fresh (fun _ _ => false) .empty).run config
      [hit, hit, .recover Rule.errorCount.scope [] [] (time 60)]
    ∃ y ∈ (e.reconcile config Rule.errorCount.scope [] [] (time 30)).2.writes, y.2.event.status = .recovered ∧
      e.pending.get? "t1" "r1" y.2.event.fingerprint = some (time 60) ∧
      ∀ old ∈ y.2.replaced, (time 30).since (time 60) < (Duration.ofSecs (config.waitSecs old none)).nanos := by
  decide +kernel

end Alerting
