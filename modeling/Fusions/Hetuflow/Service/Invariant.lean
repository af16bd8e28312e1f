import Mathlib.Data.List.Nodup
import Fusions.Hetuflow.Service.Engine

/-! What every call keeps: rows only age, logs only grow, and the rows of an instance stay well
formed. -/
namespace Fusions.Hetuflow
open Fusions.Library Program

/-- A later version of an activity row: one that is no longer active never changes again. -/
structure Aged (a a' : ActivityRow) : Prop where
  id : a'.id = a.id
  node : a'.activityDefinitionId = a.activityDefinitionId
  type : a'.activityType = a.activityType
  round : a'.round = a.round
  settled : a.status ≠ .active → a' = a

theorem Aged.refl (a : ActivityRow) : Aged a a := ⟨rfl, rfl, rfl, rfl, fun _ => rfl⟩

theorem Aged.trans {a b c : ActivityRow} (h : Aged a b) (k : Aged b c) : Aged a c where
  id := k.id.trans h.id
  node := k.node.trans h.node
  type := k.type.trans h.type
  round := k.round.trans h.round
  settled hs := by
    have hb := h.settled hs
    rw [k.settled (by rw [hb]; exact hs), hb]

/-- A later state of the rows of one instance. -/
structure Evolves (r r' : InstanceRows) : Prop where
  id : r'.inst.id = r.inst.id
  businessKey : r'.inst.businessKey = r.inst.businessKey
  businessType : r'.inst.businessType = r.inst.businessType
  tenantId : r'.inst.tenantId = r.inst.tenantId
  snapshot : r'.snapshot = r.snapshot
  events : ∃ new, r'.events = r.events ++ new
  activities : ∃ (g : ActivityRow → ActivityRow) (new : List ActivityRow),
    r'.activities = r.activities.map g ++ new ∧ ∀ a ∈ r.activities, Aged a (g a)

namespace Evolves

theorem refl (r : InstanceRows) : Evolves r r :=
  ⟨rfl, rfl, rfl, rfl, rfl, ⟨[], by simp⟩, ⟨fun a => a, [], by simp, fun a _ => .refl a⟩⟩

theorem trans {r₁ r₂ r₃ : InstanceRows} (h : Evolves r₁ r₂) (k : Evolves r₂ r₃) : Evolves r₁ r₃ where
  id := k.id.trans h.id
  businessKey := k.businessKey.trans h.businessKey
  businessType := k.businessType.trans h.businessType
  tenantId := k.tenantId.trans h.tenantId
  snapshot := k.snapshot.trans h.snapshot
  events := by
    obtain ⟨new, hnew⟩ := h.events
    obtain ⟨new', hnew'⟩ := k.events
    exact ⟨new ++ new', by rw [hnew', hnew, List.append_assoc]⟩
  activities := by
    obtain ⟨g, new, hact, haged⟩ := h.activities
    obtain ⟨g', new', hact', haged'⟩ := k.activities
    refine ⟨fun a => g' (g a), new.map g' ++ new', ?_, ?_⟩
    · rw [hact', hact]
      simp [Function.comp_def]
    · intro a ha
      refine (haged a ha).trans (haged' _ ?_)
      rw [hact]
      exact List.mem_append_left _ (List.mem_map_of_mem ha)

/-- Every activity lives on, aged. -/
theorem activity {r r' : InstanceRows} (h : Evolves r r') {a : ActivityRow} (ha : a ∈ r.activities) :
    ∃ a' ∈ r'.activities, Aged a a' := by
  obtain ⟨g, new, hact, haged⟩ := h.activities
  exact ⟨g a, by rw [hact]; exact List.mem_append_left _ (List.mem_map_of_mem ha), haged a ha⟩

theorem event {r r' : InstanceRows} (h : Evolves r r') {e : EventRow} (he : e ∈ r.events) :
    e ∈ r'.events := by
  obtain ⟨new, hnew⟩ := h.events
  rw [hnew]
  exact List.mem_append_left _ he

end Evolves

/-- Nothing of a review is on the row yet. -/
def ActivityRow.Unreviewed (a : ActivityRow) : Prop :=
  a.result = none ∧ a.reviewNotes = none ∧ a.reviewedBy = none ∧ a.reviewedAt = none

/-- The rows of one instance as the service leaves them. -/
structure WellFormed (svc : WorkflowService) (r : InstanceRows) : Prop where
  valid : validateDefinition svc.cel r.snapshot.nodes r.snapshot.transitions = .ok ()
  ids_nodup : (r.activities.map ActivityRow.id).Nodup
  id_ne_nil : ∀ a ∈ r.activities, a.id ≠ Uuid.nil
  rounds : ∀ a ∈ r.activities, 1 ≤ a.round ∧ a.round ≤ frameworkMaxRound
  nodes : ∀ a ∈ r.activities, ∃ node, findNode r.snapshot.nodes a.activityDefinitionId = some node ∧
    a.activityType = instantiatedActivityType node.kind
  unreviewed : ∀ a ∈ r.activities, a.status = .active → a.Unreviewed
  timers : ∀ t ∈ r.timers, ∃ a ∈ r.activities, a.id = t.activityInstanceId ∧
    (t.status = .pending → a.status = .active)
  status : r.inst.status ≠ .pending ∧ r.inst.status ≠ .cancelled

theorem WellFormed.timersOwned {svc : WorkflowService} {r : InstanceRows} (h : WellFormed svc r) :
    r.TimersOwned := by
  intro t ht
  obtain ⟨a, ha, hid, -⟩ := h.timers t ht
  exact ⟨a, ha, hid⟩

/-- One activity per id. -/
theorem WellFormed.eq_of_id {svc : WorkflowService} {r : InstanceRows} (h : WellFormed svc r)
    {a b : ActivityRow} (ha : a ∈ r.activities) (hb : b ∈ r.activities) (hid : a.id = b.id) : a = b :=
  List.inj_on_of_nodup_map h.ids_nodup ha hb hid

/-- A step that ages the rows and keeps them well formed. -/
structure Keeps (svc : WorkflowService) (r r' : InstanceRows) : Prop where
  evolves : Evolves r r'
  wellFormed : WellFormed svc r → WellFormed svc r'

namespace Keeps
variable {svc : WorkflowService} {r r₁ r₂ r₃ r' : InstanceRows}

theorem refl (r : InstanceRows) : Keeps svc r r := ⟨.refl r, fun h => h⟩

theorem trans (h : Keeps svc r₁ r₂) (k : Keeps svc r₂ r₃) : Keeps svc r₁ r₃ :=
  ⟨h.evolves.trans k.evolves, fun w => k.wellFormed (h.wellFormed w)⟩

/-- A change of activity and timer rows by `g` and `k`, with new events. -/
private theorem of_update {g : ActivityRow → ActivityRow} {k : TimerRow → TimerRow}
    (hinst : r'.inst = r.inst) (hsnapshot : r'.snapshot = r.snapshot)
    (hactivities : r'.activities = r.activities.map g) (htimers : r'.timers = r.timers.map k)
    (hevents : ∃ new, r'.events = r.events ++ new)
    (hg : ∀ a ∈ r.activities, Aged a (g a) ∧ ((g a).status = .active → a.Unreviewed → (g a).Unreviewed))
    (hk : ∀ t ∈ r.timers, (k t).activityInstanceId = t.activityInstanceId ∧
      ((k t).status = .pending → t.status = .pending ∧
        ∀ a ∈ r.activities, a.id = t.activityInstanceId → a.status = .active → (g a).status = .active)) :
    Keeps svc r r' := by
  refine ⟨⟨by rw [hinst], by rw [hinst], by rw [hinst], by rw [hinst], hsnapshot, hevents, g, [],
    by simpa using hactivities, fun a ha => (hg a ha).1⟩, fun w => ?_⟩
  have back : ∀ {P : ActivityRow → Prop}, (∀ a ∈ r.activities, P (g a)) → ∀ a ∈ r'.activities, P a := by
    intro P hP a ha
    rw [hactivities] at ha
    obtain ⟨b, hb, rfl⟩ := List.mem_map.1 ha
    exact hP b hb
  constructor
  · rw [hsnapshot]
    exact w.valid
  · rw [hactivities, List.map_map]
    have : r.activities.map (ActivityRow.id ∘ g) = r.activities.map ActivityRow.id :=
      List.map_congr_left fun a ha => (hg a ha).1.id
    rw [this]
    exact w.ids_nodup
  · exact back fun a ha => by rw [(hg a ha).1.id]; exact w.id_ne_nil a ha
  · exact back fun a ha => by rw [(hg a ha).1.round]; exact w.rounds a ha
  · refine back fun a ha => ?_
    rw [(hg a ha).1.node, (hg a ha).1.type, hsnapshot]
    exact w.nodes a ha
  · refine back fun a ha hactive => ?_
    by_cases hs : a.status = .active
    · exact (hg a ha).2 hactive (w.unreviewed a ha hs)
    · rw [(hg a ha).1.settled hs] at hactive
      exact absurd hactive hs
  · intro t' ht'
    rw [htimers] at ht'
    obtain ⟨t, ht, rfl⟩ := List.mem_map.1 ht'
    obtain ⟨a, ha, hid, hpending⟩ := w.timers t ht
    obtain ⟨hkid, hkp⟩ := hk t ht
    refine ⟨g a, by rw [hactivities]; exact List.mem_map_of_mem ha, ?_, fun hp => ?_⟩
    · rw [(hg a ha).1.id, hid, hkid]
    · exact (hkp hp).2 a ha hid (hpending (hkp hp).1)
  · rw [hinst]
    exact w.status

/-- A change of the instance row, with new events and outbox intents. -/
private theorem of_instance (hid : r'.inst.id = r.inst.id) (hkey : r'.inst.businessKey = r.inst.businessKey)
    (htype : r'.inst.businessType = r.inst.businessType) (htenant : r'.inst.tenantId = r.inst.tenantId)
    (hsnapshot : r'.snapshot = r.snapshot) (hactivities : r'.activities = r.activities)
    (htimers : r'.timers = r.timers) (hevents : ∃ new, r'.events = r.events ++ new)
    (hstatus : r.inst.status ≠ .pending ∧ r.inst.status ≠ .cancelled →
      r'.inst.status ≠ .pending ∧ r'.inst.status ≠ .cancelled) : Keeps svc r r' := by
  refine ⟨⟨hid, hkey, htype, htenant, hsnapshot, hevents, fun a => a, [], by simpa using hactivities,
    fun a _ => .refl a⟩, fun w => ?_⟩
  constructor
  · rw [hsnapshot]; exact w.valid
  · rw [hactivities]; exact w.ids_nodup
  · rw [hactivities]; exact w.id_ne_nil
  · rw [hactivities]; exact w.rounds
  · rw [hactivities, hsnapshot]; exact w.nodes
  · rw [hactivities]; exact w.unreviewed
  · rw [hactivities, htimers]; exact w.timers
  · exact hstatus w.status

theorem log (r : InstanceRows) (now : Time) (t : EventType) (p : Json) (k : Option String) :
    Keeps svc r (r.log now t p k) :=
  of_instance rfl rfl rfl rfl rfl rfl rfl ⟨[_], rfl⟩ fun h => h

theorem passMerges (r : InstanceRows) (now : Time) (f : String) (n : Int) (ms : List String) :
    Keeps svc r (r.passMerges now f n ms) :=
  InstanceRows.passMerges_induction ms (.refl r) fun r' p hr => hr.trans (log r' now .mergePassed p none)

theorem clearCurrent (r : InstanceRows) : Keeps svc r r.clearCurrent :=
  of_instance rfl rfl rfl rfl rfl rfl rfl ⟨[], by simp [InstanceRows.clearCurrent, InstanceRows.updateInstance]⟩
    fun h => h

theorem pointTo (r : InstanceRows) (id : Uuid) : Keeps svc r (r.pointTo id) := by
  unfold InstanceRows.pointTo
  split
  · exact of_instance rfl rfl rfl rfl rfl rfl rfl ⟨[], by simp [InstanceRows.updateInstance]⟩ fun h => h
  · exact .refl r

/-- A change of the instance's status to one the service uses. -/
theorem updateInstance (r : InstanceRows) (f : WorkflowInstance → WorkflowInstance)
    (hid : (f r.inst).id = r.inst.id) (hkey : (f r.inst).businessKey = r.inst.businessKey)
    (htype : (f r.inst).businessType = r.inst.businessType) (htenant : (f r.inst).tenantId = r.inst.tenantId)
    (hstatus : (f r.inst).status = r.inst.status ∨
      (f r.inst).status ≠ .pending ∧ (f r.inst).status ≠ .cancelled) :
    Keeps svc r (r.updateInstance f) := by
  refine of_instance hid hkey htype htenant rfl rfl rfl ⟨[], by simp [InstanceRows.updateInstance]⟩
    fun h => ?_
  rcases hstatus with hs | hs
  · show (f r.inst).status ≠ _ ∧ (f r.inst).status ≠ _
    rw [hs]
    exact h
  · exact hs

theorem finish (r : InstanceRows) (now : Time) (result : WorkflowResult) :
    Keeps svc r (r.finish now result) :=
  updateInstance r _ rfl rfl rfl rfl (.inr ⟨by simp, by simp⟩)

theorem enterWaiting (r : InstanceRows) (id : Uuid) : Keeps svc r (r.enterWaiting id) :=
  updateInstance r _ rfl rfl rfl rfl (.inr ⟨by simp, by simp⟩)

theorem errorOut (r : InstanceRows) : Keeps svc r r.errorOut := by
  unfold InstanceRows.errorOut
  split
  · exact updateInstance r _ rfl rfl rfl rfl (.inr ⟨nofun, nofun⟩)
  · exact .refl r

theorem resume (r : InstanceRows) (now : Time) (a : ActivityInstance) :
    Keeps svc r (r.resume now a) := by
  unfold InstanceRows.resume
  split
  · exact (updateInstance r _ rfl rfl rfl rfl (.inr ⟨by simp, by simp⟩)).trans (log ..)
  · exact .refl r

theorem reactivate (r : InstanceRows) (now : Time) (round : Int) (key : String) :
    Keeps svc r (r.reactivate now round key) :=
  (updateInstance r _ rfl rfl rfl rfl (.inr ⟨by simp, by simp⟩)).trans (log ..)

theorem outbox (r : InstanceRows) (os : List OutboxRow) :
    Keeps svc r { r with outbox := os } :=
  of_instance rfl rfl rfl rfl rfl rfl rfl ⟨[], by simp⟩ fun h => h

theorem enqueueOutbox (r : InstanceRows) (o : OutboxRow) : Keeps svc r (r.enqueueOutbox o) := by
  unfold InstanceRows.enqueueOutbox
  split
  · exact .refl r
  · exact outbox r _

theorem fireTimer (r : InstanceRows) (id : Uuid) : Keeps svc r (r.fireTimer id) := by
  refine of_update (g := fun a => a) rfl rfl (by simp [InstanceRows.fireTimer, InstanceRows.updateTimers])
    rfl ⟨[], by simp [InstanceRows.fireTimer, InstanceRows.updateTimers]⟩
    (fun a _ => ⟨.refl a, fun _ h => h⟩) fun t _ => ?_
  dsimp only
  split
  · exact ⟨rfl, nofun⟩
  · exact ⟨rfl, fun hp => ⟨hp, fun a _ _ hs => hs⟩⟩

/-- A change of the assignee or the role of an active activity. -/
theorem updateActive (r : InstanceRows) (id : Uuid) (f : ActivityRow → ActivityRow)
    (hf : ∀ a, Aged { a with status := .active } (f { a with status := .active }) ∧
      (f a).status = a.status ∧ (a.Unreviewed → (f a).Unreviewed)) :
    Keeps svc r (r.updateActivities (ActivityRow.isActive id) f) := by
  have haged : ∀ a : ActivityRow, Aged a (if a.isActive id then f a else a) := by
    intro a
    split
    · next h =>
      have hs : a.status = .active := ((ActivityRow.isActive_iff _ _).1 h).2
      obtain ⟨⟨h₁, h₂, h₃, h₄, -⟩, -⟩ := hf a
      have ha : { a with status := .active } = a := by rw [← hs]
      rw [ha] at h₁ h₂ h₃ h₄
      exact ⟨h₁, h₂, h₃, h₄, fun h => absurd hs h⟩
    · exact .refl a
  refine of_update (k := fun t => t) rfl rfl rfl (by simp [InstanceRows.updateActivities])
    ⟨[], by simp [InstanceRows.updateActivities]⟩ (fun a _ => ⟨haged a, fun _ hu => ?_⟩)
    fun t _ => ⟨rfl, fun hp => ⟨hp, fun a _ _ hs => ?_⟩⟩
  · split
    · exact (hf a).2.2 hu
    · exact hu
  · split
    · rw [(hf a).2.1]; exact hs
    · exact hs

theorem assign (r : InstanceRows) (now : Time) (cmd : SignalCommand) (id : Uuid) :
    Keeps svc r (r.assign now cmd id) :=
  (updateActive r id (fun a => { a with assigneeId := cmd.assigneeId }) fun _ =>
    ⟨⟨rfl, rfl, rfl, rfl, fun h => absurd rfl h⟩, rfl, fun h => h⟩).trans (log ..)

theorem escalate (r : InstanceRows) (now : Time) (a : ActivityInstance) (role : String) :
    Keeps svc r (r.escalate now a role) :=
  (updateActive r a.id (fun a => { a with assigneeRole := some role }) fun _ =>
    ⟨⟨rfl, rfl, rfl, rfl, fun h => absurd rfl h⟩, rfl, fun h => h⟩).trans (log ..)

/-- An activity leaves active: its timers are cancelled with it. -/
private theorem settle (r : InstanceRows) (id : Uuid) (f : ActivityRow → ActivityRow)
    (hf : ∀ a, (f a).id = a.id ∧ (f a).activityDefinitionId = a.activityDefinitionId ∧
      (f a).activityType = a.activityType ∧ (f a).round = a.round ∧ (f a).status ≠ .active) :
    Keeps svc r ((r.updateActivities (ActivityRow.isActive id) f).cancelTimersOf id) := by
  refine of_update rfl rfl rfl rfl ⟨[], by simp [InstanceRows.updateActivities, InstanceRows.cancelTimersOf,
    InstanceRows.updateTimers]⟩ (fun a _ => ?_) fun t _ => ?_
  · split
    · next h =>
      have hs : a.status = .active := ((ActivityRow.isActive_iff _ _).1 h).2
      obtain ⟨h₁, h₂, h₃, h₄, h₅⟩ := hf a
      exact ⟨⟨h₁, h₂, h₃, h₄, fun h => absurd hs h⟩, fun h => absurd h h₅⟩
    · exact ⟨.refl a, fun _ h => h⟩
  · dsimp only
    split
    · exact ⟨rfl, nofun⟩
    · next h =>
      refine ⟨rfl, fun hp => ⟨hp, fun a _ hid hs => ?_⟩⟩
      have hne : a.id ≠ id := by
        rintro rfl
        simp [hid, hp] at h
      simpa [hne] using hs

theorem completeActivity (r : InstanceRows) (now : Time) (id : Uuid) (result : Option String) (by_ : Int)
    (notes : Option String) (payload : Json) :
    Keeps svc r (r.completeActivity now id result by_ notes payload) :=
  (settle r id (ActivityRow.complete (result.bind activityResultFromStr) by_ notes now)
    fun _ => ⟨rfl, rfl, rfl, rfl, nofun⟩).trans (log ..)

theorem resolve (r : InstanceRows) (now : Time) (cmd : SignalCommand) (a : ActivityInstance) :
    Keeps svc r (r.resolve now cmd a) :=
  ((log r ..).trans (completeActivity ..)).trans (resume ..)

theorem timerFired (r : InstanceRows) (now : Time) (t : TimerRow) (id : Uuid) (nodeId : String) :
    Keeps svc r (r.timerFired now t id nodeId) :=
  (fireTimer r t.id).trans (log ..)

theorem timeOutActivity (r : InstanceRows) (now : Time) (id : Uuid) :
    Keeps svc r (r.timeOutActivity now id) :=
  (settle r id ActivityRow.skip fun _ => ⟨rfl, rfl, rfl, rfl, nofun⟩).trans (log ..)

theorem skipOthers (r : InstanceRows) (exclude : Uuid) : Keeps svc r (r.skipOthers exclude) := by
  refine of_update rfl rfl rfl rfl ⟨[], by simp [InstanceRows.skipOthers, InstanceRows.updateActivities,
    InstanceRows.updateTimers]⟩ (fun a _ => ?_) fun t _ => ?_
  · split
    · next h =>
      have hs : a.status = .active := ((ActivityRow.isOtherActive_iff _ _).1 h).2
      exact ⟨⟨rfl, rfl, rfl, rfl, fun h => absurd hs h⟩, nofun⟩
    · exact ⟨.refl a, fun _ h => h⟩
  · dsimp only
    split
    · exact ⟨rfl, nofun⟩
    · next h =>
      refine ⟨rfl, fun hp => ⟨hp, fun a ha hid hs => ?_⟩⟩
      have hother : a.isOtherActive exclude = false := by
        simp only [hp, beq_self_eq_true, Bool.and_true, Bool.not_eq_true, List.any_eq_false] at h
        simpa [hid] using h a ha
      simpa [hother] using hs

theorem skipRemaining (r : InstanceRows) (now : Time) (join : WorkflowNode) (exclude : Uuid) :
    Keeps svc r (r.skipRemaining now join exclude) := by
  unfold InstanceRows.skipRemaining
  dsimp only
  split
  · exact (skipOthers r exclude).trans (log ..)
  · exact skipOthers r exclude

theorem fire (r : InstanceRows) (now : Time) (join : WorkflowNode) (round arrived expected : Int)
    (exclude : Option Uuid) : Keeps svc r (r.fire now join round arrived expected exclude) := by
  unfold InstanceRows.fire
  dsimp only
  split
  · exact (log r ..).trans (skipRemaining ..)
  · exact log r ..

/-- A scheduled activity of a node of the snapshot, in a legal round. -/
theorem scheduled {env : Env} {tenantId : Int} {node : WorkflowNode} {role : Option String} {round : Int}
    {fanout : Option FanoutMark} {row : ActivityRow}
    (h : Scheduled env tenantId node role round fanout r row r')
    (hnode : findNode r.snapshot.nodes node.id = some node)
    (hround : 1 ≤ round ∧ round ≤ frameworkMaxRound) : Keeps svc r r' := by
  have hrow := h.row_eq
  refine ⟨⟨by rw [h.inst], by rw [h.inst], by rw [h.inst], by rw [h.inst], h.snapshot, ⟨_, h.events⟩,
    fun a => a, [row], by simpa using h.activities, fun a _ => .refl a⟩, fun w => ?_⟩
  have each : ∀ {P : ActivityRow → Prop}, (∀ a ∈ r.activities, P a) → P row → ∀ a ∈ r'.activities, P a := by
    intro P hall hnew a ha
    rw [h.activities] at ha
    rcases List.mem_append.1 ha with ha | ha
    · exact hall a ha
    · rw [List.mem_singleton.1 ha]
      exact hnew
  constructor
  · rw [h.snapshot]; exact w.valid
  · rw [h.activities, List.map_append, List.nodup_append]
    refine ⟨w.ids_nodup, by simp, ?_⟩
    intro x hx y hy
    obtain ⟨a, ha, rfl⟩ := List.mem_map.1 hx
    rw [List.map_singleton, List.mem_singleton] at hy
    rw [hy]
    exact h.fresh a ha
  · exact each w.id_ne_nil h.id_ne_nil
  · exact each w.rounds (by rw [hrow]; exact hround)
  · rw [h.snapshot]
    exact each w.nodes (by rw [hrow]; exact ⟨node, hnode, rfl⟩)
  · exact each w.unreviewed (by rw [hrow]; exact fun _ => ⟨rfl, rfl, rfl, rfl⟩)
  · obtain ⟨ts, hts, hnew, -⟩ := h.timers
    intro t ht
    rw [hts] at ht
    rcases List.mem_append.1 ht with ht | ht
    · obtain ⟨a, ha, hid⟩ := w.timers t ht
      exact ⟨a, by rw [h.activities]; exact List.mem_append_left _ ha, hid⟩
    · refine ⟨row, by rw [h.activities]; simp, (hnew t ht).1.symm, fun _ => ?_⟩
      rw [hrow]
      rfl
  · rw [h.inst]; exact w.status

end Keeps

theorem InstanceCtx.node_ok {ctx : InstanceCtx} {id : String} {node : WorkflowNode}
    (h : ctx.node id = .ok node) : findNode ctx.snapshot.nodes id = some node ∧ node.id = id := by
  unfold InstanceCtx.node at h
  split at h
  · next n hfind =>
    cases h
    exact ⟨hfind, by simpa using List.find?_some hfind⟩
  · cases h

theorem InstanceRows.maxRound_nonneg (r : InstanceRows) : 0 ≤ r.maxRound := by
  have : ∀ (l : List Int) (n : Int), 0 ≤ n → 0 ≤ l.foldl max n := by
    intro l
    induction l with
    | nil => exact fun _ h => h
    | cons x xs ih => exact fun n h => ih _ (by omega)
  exact this _ 0 (Int.le_refl 0)

/-- A round that passes the check is a legal one. -/
theorem WorkflowService.round_of_check {svc : WorkflowService} {ctx : InstanceCtx} {round : Int}
    (h : svc.checkRound ctx round = .ok ()) : round ≤ frameworkMaxRound := by
  have hlimit : svc.effectiveLimit ctx.snapshot ≤ svc.config.maxRoundHardLimit := Int.min_le_right ..
  have hle := svc.limit_le
  unfold WorkflowService.checkRound at h
  dsimp only at h
  split at h
  · cases h
  · omega

section
variable {svc : WorkflowService} {env : Env} {ctx : InstanceCtx} {source : ActivityInstance} {round : Int}

theorem Branches.keeps {via : String} {targets : List ParallelTarget} {rows : List ActivityRow}
    {r r' : InstanceRows} (h : Branches env ctx round via targets r rows r')
    (hsnapshot : ctx.snapshot = r.snapshot) (hround : 1 ≤ round ∧ round ≤ frameworkMaxRound) :
    Keeps svc r r' := by
  induction h with
  | nil => exact .refl _
  | cons hnode hsched _ ih =>
    obtain ⟨hfind, hid⟩ := InstanceCtx.node_ok hnode
    rw [hsnapshot, ← hid] at hfind
    exact (Keeps.scheduled hsched hfind hround).trans (ih (hsnapshot.trans hsched.snapshot.symm))

theorem keeps_fanOutRows (trace : ResolveTrace) (targets : List ParallelTarget) (r : InstanceRows) :
    Keeps svc r (fanOutRows env source round trace targets r) :=
  (Keeps.passMerges r ..).trans ((Keeps.clearCurrent _).trans (Keeps.log ..))

theorem Reaches.keeps {outcome : AdvanceOutcome} {trace : ResolveTrace} {r r₁ : InstanceRows}
    {join : WorkflowNode} {exclude : Option Uuid}
    (h : Reaches env ctx source round outcome trace r join exclude r₁) : Keeps svc r r₁ := by
  cases h with
  | arrive => exact (Keeps.passMerges r ..).trans (Keeps.log ..)
  | emptyFanOut => exact keeps_fanOutRows ..

/-- Applying an outcome keeps the rows of its instance. -/
theorem Applied.keeps {outcome : AdvanceOutcome} {trace : ResolveTrace} {r r' : InstanceRows}
    (h : Applied env ctx source round svc outcome trace r r') (hsnapshot : ctx.snapshot = r.snapshot)
    (hround : 1 ≤ round ∧ round ≤ frameworkMaxRound) : Keeps svc r r' := by
  induction h with
  | @schedule target role trace r r₁ node row hnode _ hsched =>
    obtain ⟨hfind, hid⟩ := InstanceCtx.node_ok hnode
    have hmerges : Keeps svc r _ := .passMerges r env.now source.activityDefinitionId round trace.mergesPassed
    rw [hsnapshot, ← hid, ← hmerges.evolves.snapshot] at hfind
    exact (hmerges.trans (.scheduled hsched hfind hround)).trans (.pointTo ..)
  | @fan targets trace r _ _ _ hbranches =>
    have hfan : Keeps svc r (fanOutRows env source round trace targets r) := keeps_fanOutRows ..
    exact hfan.trans (hbranches.keeps (hsnapshot.trans hfan.evolves.snapshot.symm) hround)
  | wait hreach _ _ => exact hreach.keeps.trans (.clearCurrent _)
  | @fire _ _ _ _ _ join exclude arrived expected hreach _ _ _ ih =>
    have hfire : Keeps svc _ _ := hreach.keeps.trans (.fire _ env.now join round arrived expected exclude)
    exact hfire.trans (ih (hsnapshot.trans hfire.evolves.snapshot.symm))
  | @complete result trace r r₁ os _ hr₁ _ =>
    subst hr₁
    have hmerges : Keeps svc r _ := .passMerges r env.now source.activityDefinitionId round trace.mergesPassed
    exact ((hmerges.trans (.finish ..)).trans (.log ..)).trans (.outbox ..)
  | @rework target role trace r r₁ node row hcheck _ hnode hsched =>
    obtain ⟨hfind, hid⟩ := InstanceCtx.node_ok hnode
    have hmerges : Keeps svc r _ := .passMerges r env.now source.activityDefinitionId round trace.mergesPassed
    rw [hsnapshot, ← hid, ← hmerges.evolves.snapshot] at hfind
    have hnext := r.maxRound_nonneg
    have hle := WorkflowService.round_of_check hcheck
    exact ((hmerges.trans (.scheduled hsched hfind ⟨by omega, hle⟩)).trans (.enterWaiting ..)).trans (.log ..)
  | error => exact ((Keeps.passMerges ..).trans (.errorOut _)).trans (.log ..)

theorem ContextWritten.snapshot {node : WorkflowNode} {patch : Option Json} {ctx' : InstanceCtx}
    {r r' : InstanceRows} (h : ContextWritten env node round patch ctx r ctx' r') :
    ctx'.snapshot = ctx.snapshot := by
  cases h <;> rfl

theorem ContextWritten.keeps {node : WorkflowNode} {patch : Option Json} {ctx' : InstanceCtx}
    {r r' : InstanceRows} (h : ContextWritten env node round patch ctx r ctx' r') :
    Keeps svc r r' := by
  cases h with
  | none => exact .refl _
  | merged => exact (Keeps.updateInstance r _ rfl rfl rfl rfl (.inl rfl)).trans (.log ..)

/-- Every call keeps the rows of its instance. -/
theorem Effect.keeps {call : Call} {r r' : InstanceRows} (h : Effect svc env call r r')
    (w : WellFormed svc r) : Keeps svc r r' := by
  cases h with
  | nothing => exact .refl _
  | assignee => exact .assign ..
  | @advance cmd _ r₁ _ row _ ctx _ _ _ hrow _ _ _ hctx happly =>
    have hbefore : Keeps svc r _ := hctx.keeps.trans (.resolve r₁ env.now cmd (row.intoModel r.inst.id))
    exact hbefore.trans (happly.keeps (hctx.snapshot.trans hbefore.evolves.snapshot.symm) (w.rounds _ hrow))
  | @reenter _ key _ _ _ _ _ _ _ _ _ hcheck _ hnode hsched =>
    obtain ⟨hfind, hid⟩ := InstanceCtx.node_ok hnode
    rw [← hid] at hfind
    have hnext := r.maxRound_nonneg
    have hle := WorkflowService.round_of_check hcheck
    have hre : Keeps svc r _ := .reactivate r env.now (r.maxRound + 1) key
    exact (hre.trans (.scheduled hsched hfind ⟨by omega, hle⟩)).trans (.pointTo ..)
  | timerGone => exact .fireTimer ..
  | reminder => exact (Keeps.timerFired ..).trans (.enqueueOutbox ..)
  | escalationGone => exact .timerFired ..
  | escalated => exact ((Keeps.timerFired ..).trans (.escalate ..)).trans (.enqueueOutbox ..)
  | @timedOut t _ _ row node _ _ _ hrow _ _ _ happly =>
    have hbefore : Keeps svc r _ := (Keeps.timerFired r env.now t row.id node.id).trans
      (.timeOutActivity _ env.now row.id)
    exact hbefore.trans (happly.keeps hbefore.evolves.snapshot.symm (w.rounds _ hrow))
  | @delivered _ _ row hrow _ _ _ happly =>
    have hbefore : Keeps svc r _ := .completeActivity r env.now row.id none 0 none (deliveredPayload row.id)
    exact hbefore.trans (happly.keeps hbefore.evolves.snapshot.symm (w.rounds _ hrow))
  | callback => exact .updateInstance _ _ rfl rfl rfl rfl (.inl rfl)
  | deadLetter => exact .log ..

end

/-- The rows of a new instance are well formed. -/
theorem Started.wellFormed {svc : WorkflowService} {env : Env} {supply : Supply} {cmd : StartCommand}
    {r : InstanceRows} (h : Started svc env supply cmd r) : WellFormed svc r := by
  obtain ⟨entryId, entryRole, node, row, r₁, -, hfind, hsched, rfl⟩ := h.rows
  have hid : node.id = entryId := by simpa using List.find?_some hfind
  have hbase : WellFormed svc (insertedRows supply cmd) :=
    ⟨h.valid, by simp [insertedRows], by simp [insertedRows], by simp [insertedRows], by simp [insertedRows],
      by simp [insertedRows], by simp [insertedRows], by simp [insertedRows]⟩
  have hkeeps : Keeps svc _ _ := ((Keeps.log ..).trans
    (.scheduled hsched (by rw [hid]; exact hfind) ⟨by decide, by decide⟩)).trans (.pointTo _ row.id)
  exact hkeeps.wellFormed hbase

/-- Distinct instances, each with well-formed rows. -/
structure Store.WellFormed (svc : WorkflowService) (store : Store) : Prop where
  ids_nodup : (store.map fun r => r.inst.id).Nodup
  rows : ∀ r ∈ store, Hetuflow.WellFormed svc r

/-- An activity found among others belongs to one of them. -/
theorem Store.owner_of_findActivity {others : Store} {id : Uuid} {a : ActivityInstance}
    (h : others.findActivity id = some a) :
    ∃ x ∈ others, ∃ row ∈ x.activities, row.id = id ∧ a = row.intoModel x.inst.id := by
  obtain ⟨x, hx, hfound⟩ := List.exists_of_findSome?_eq_some h
  cases hf : x.activities.find? (·.id == id) with
  | none => simp [hf] at hfound
  | some row =>
    simp only [hf, Option.map_some, Option.some.injEq] at hfound
    exact ⟨x, hx, row, List.mem_of_find?_eq_some hf, by simpa using List.find?_some hf, hfound.symm⟩

theorem Store.WellFormed.foreign {svc : WorkflowService} {pre post : Store} {r : InstanceRows}
    (h : Store.WellFormed svc (pre ++ r :: post)) (supply : Supply) :
    (Store.env (pre ++ post) supply r.inst).Foreign r := by
  intro id a ha
  obtain ⟨x, hx, row, -, -, rfl⟩ := Store.owner_of_findActivity ha
  show x.inst.id ≠ r.inst.id
  have hnd := h.ids_nodup
  rw [List.map_append, List.map_cons, List.nodup_append, List.nodup_cons] at hnd
  rcases List.mem_append.1 hx with hx | hx
  · exact hnd.2.2 _ (List.mem_map_of_mem hx) _ (List.mem_cons_self ..)
  · intro heq
    exact hnd.2.1.1 (by rw [← heq]; exact List.mem_map_of_mem hx)

/-- What a committed operation does: nothing, a new instance, or an effect on one. -/
theorem Commits.cases {svc : WorkflowService} {store store' : Store} {op : Op}
    (h : Commits svc store op store') (w : Store.WellFormed svc store) :
    (∃ cmd, op = .start cmd ∧ store' = store) ∨
    (∃ cmd supply r', op = .start cmd ∧
      store.any (InstanceRows.isOpenFor cmd.businessKey cmd.businessType) = false ∧
      (∀ r ∈ store, r.inst.id ≠ supply.uuid 0) ∧
      Started svc (store.env supply (insertedRows supply cmd).inst) supply cmd r' ∧
      store' = store ++ [r']) ∨
    (∃ pre r call r' post supply, op = .call (pre ++ post) r call r' ∧ store = pre ++ r :: post ∧
      store' = pre ++ r' :: post ∧ Effect svc (Store.env (pre ++ post) supply r.inst) call r r') := by
  cases h with
  | start hstart =>
    rcases start_returns hstart with ⟨r, -, -, rfl⟩ | ⟨hopen, hids, r', hstarted, rfl⟩
    · exact .inl ⟨_, rfl, rfl⟩
    · exact .inr (.inl ⟨_, _, r', rfl, hopen, hids, hstarted, rfl⟩)
  | @call supply pre post r r' call drawn hcall =>
    refine .inr (.inr ⟨pre, r, call, r', post, supply, rfl, rfl, rfl, ?_⟩)
    exact effect_of_returns (w.foreign supply) (w.rows r (by simp)).timersOwned hcall

theorem InstanceRows.pointTo_id (r : InstanceRows) (id : Uuid) : (r.pointTo id).inst.id = r.inst.id := by
  unfold pointTo
  split <;> rfl

theorem Started.inst_id {svc : WorkflowService} {env : Env} {supply : Supply} {cmd : StartCommand}
    {r : InstanceRows} (h : Started svc env supply cmd r) : r.inst.id = supply.uuid 0 := by
  obtain ⟨entryId, entryRole, node, row, r₁, -, -, hsched, rfl⟩ := h.rows
  rw [InstanceRows.pointTo_id, hsched.inst]
  rfl

/-- A reachable store is well formed. -/
theorem wellFormed_of_reachable {svc : WorkflowService} {ok : Store → Op → Prop} {store : Store}
    (h : (engine svc).ReachableIf ok store) : Store.WellFormed svc store := by
  refine h.invariant ?_ ?_
  · rintro _ rfl
    exact ⟨by simp, by simp⟩
  · intro s op s' _ w hstep _
    rcases hstep.cases w with ⟨cmd, -, rfl⟩ | ⟨cmd, supply, r', -, -, hids, hstarted, rfl⟩ |
      ⟨pre, r, call, r', post, supply, -, rfl, rfl, heffect⟩
    · exact w
    · refine ⟨?_, ?_⟩
      · rw [List.map_append, List.nodup_append]
        refine ⟨w.ids_nodup, by simp, ?_⟩
        intro x hx y hy
        obtain ⟨r, hr, rfl⟩ := List.mem_map.1 hx
        rw [List.map_singleton, List.mem_singleton, hstarted.inst_id] at hy
        rw [hy]
        exact hids r hr
      · intro r hr
        rcases List.mem_append.1 hr with hr | hr
        · exact w.rows r hr
        · rw [List.mem_singleton.1 hr]
          exact hstarted.wellFormed
    · have hkeeps := heffect.keeps (w.rows r (by simp))
      refine ⟨?_, ?_⟩
      · have hnd := w.ids_nodup
        simpa [hkeeps.evolves.id] using hnd
      · intro x hx
        rcases List.mem_append.1 hx with hx | hx
        · exact w.rows x (List.mem_append_left _ hx)
        · rcases List.mem_cons.1 hx with rfl | hx
          · exact hkeeps.wellFormed (w.rows r (by simp))
          · exact w.rows x (by simp [hx])

/-- A property of the rows of an instance holds in every state of the runs whose calls on it meet a
condition, if starts establish it and such calls keep it. -/
theorem instance_invariant {svc : WorkflowService} {id : Uuid}
    {ok : InstanceRows → Call → InstanceRows → Prop} {P : InstanceRows → Prop}
    (hstart : ∀ env supply cmd r, Started svc env supply cmd r → P r)
    (hcall : ∀ env call r r', WellFormed svc r → P r → Effect svc env call r r' → ok r call r' → P r')
    {store : Store} (h : (engine svc).ReachableIf (OnInstance id ok) store) :
    ∀ r ∈ store, r.inst.id = id → P r := by
  refine h.invariant (P := fun store => ∀ r ∈ store, r.inst.id = id → P r) ?_ ?_
  · rintro _ rfl
    simp
  · intro s op s' hs hP hstep hok
    have w := wellFormed_of_reachable hs
    rcases hstep.cases w with ⟨cmd, -, rfl⟩ | ⟨cmd, supply, r', -, -, -, hstarted, rfl⟩ |
      ⟨pre, r, call, r', post, supply, rfl, rfl, rfl, heffect⟩
    · exact hP
    · intro r hr hid
      rcases List.mem_append.1 hr with hr | hr
      · exact hP r hr hid
      · rw [List.mem_singleton.1 hr]
        exact hstart _ _ _ _ hstarted
    · intro x hx hid
      have hr : r ∈ pre ++ r :: post := by simp
      rcases List.mem_append.1 hx with hx | hx
      · exact hP x (List.mem_append_left _ hx) hid
      · rcases List.mem_cons.1 hx with rfl | hx
        · have hkeeps := heffect.keeps (w.rows r hr)
          rw [hkeeps.evolves.id] at hid
          exact hcall _ _ _ _ (w.rows r hr) (hP r hr hid) heffect (hok hid)
        · exact hP x (by simp [hx]) hid

/-- A property that starts establish and every call keeps holds of every instance in every run. -/
theorem rows_invariant {svc : WorkflowService} {P : InstanceRows → Prop}
    (hstart : ∀ env supply cmd r, Started svc env supply cmd r → P r)
    (hcall : ∀ env call r r', WellFormed svc r → P r → Effect svc env call r r' → P r')
    {store : Store} (h : (engine svc).Reachable store) : ∀ r ∈ store, P r := by
  intro r hr
  have hfree : (engine svc).ReachableIf (OnInstance r.inst.id fun _ _ _ => True) store :=
    h.mono fun _ op _ => by cases op <;> simp [OnInstance]
  exact instance_invariant hstart (fun _ _ _ _ w hP heffect _ => hcall _ _ _ _ w hP heffect) hfree r hr rfl

/-- What the calls on an instance keep holds of its rows in every later state. -/
theorem rows_later {svc : WorkflowService} {ok : InstanceRows → Call → InstanceRows → Prop}
    {Q : InstanceRows → Prop}
    (hcall : ∀ env call r r', WellFormed svc r → Q r → Effect svc env call r r' → ok r call r' → Q r')
    {store store' : Store} {r : InstanceRows} (h : (engine svc).Reachable store)
    (hrun : (engine svc).RunIf (OnInstance r.inst.id ok) store store') (hr : r ∈ store) (hQ : Q r) :
    ∀ x ∈ store', x.inst.id = r.inst.id → Q x := by
  have hunique : ∀ {s : Store} {x y : InstanceRows}, Store.WellFormed svc s → x ∈ s → y ∈ s →
      x.inst.id = y.inst.id → x = y :=
    fun w hx hy hid => List.inj_on_of_nodup_map w.ids_nodup hx hy hid
  suffices hlater : ∃ x ∈ store', x.inst.id = r.inst.id ∧ Q x by
    obtain ⟨x, hx, hid, hQx⟩ := hlater
    intro y hy hidy
    rw [hunique (wellFormed_of_reachable (hrun.reachable h)) hy hx (hidy.trans hid.symm)]
    exact hQx
  refine hrun.invariant (P := fun s => ∃ x ∈ s, x.inst.id = r.inst.id ∧ Q x) h ⟨r, hr, rfl, hQ⟩ ?_
  rintro s op s' hs ⟨x, hx, hid, hQx⟩ hstep hok
  have w := wellFormed_of_reachable hs
  rcases hstep.cases w with ⟨cmd, -, rfl⟩ | ⟨cmd, supply, r', -, -, -, -, rfl⟩ |
    ⟨pre, y, call, y', post, supply, rfl, rfl, rfl, heffect⟩
  · exact ⟨x, hx, hid, hQx⟩
  · exact ⟨x, List.mem_append_left _ hx, hid, hQx⟩
  · have hkeeps := heffect.keeps (w.rows y (by simp))
    rcases List.mem_append.1 hx with hx | hx
    · exact ⟨x, List.mem_append_left _ hx, hid, hQx⟩
    · rcases List.mem_cons.1 hx with rfl | hx
      · exact ⟨y', by simp, hkeeps.evolves.id.trans hid, hcall _ _ _ _ (w.rows x (by simp)) hQx heffect (hok hid)⟩
      · exact ⟨x, by simp [hx], hid, hQx⟩

end Fusions.Hetuflow
