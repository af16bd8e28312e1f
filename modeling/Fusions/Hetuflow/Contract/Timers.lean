import Fusions.Hetuflow.Service.Moves
import Fusions.Hetuflow.Service.Script

/-! The timers: whose they are, how many of a kind there may be, and which nodes ask for them. -/
namespace Fusions.Hetuflow
open Fusions.Library

/-- The activity and the kind a timer is for. -/
def TimerRow.slot (t : TimerRow) : Uuid × Int := (t.activityInstanceId, t.timerKind)

/-- No two timers of one activity and kind, and every timer is one that its activity's node asks for. -/
structure InstanceRows.Timed (r : InstanceRows) : Prop where
  slots : (r.timers.map TimerRow.slot).Nodup
  owned : ∀ s ∈ r.timers.map TimerRow.slot, ∃ b ∈ r.activities.map ActivityRow.booking, b.1 = s.1 ∧
    ∃ node, findNode r.snapshot.nodes b.2.1 = some node ∧ s.2 ∈ (nodeTimerKinds node).map timerKindI16

/-- The node asks for timers of this kind: a reminder after its SLA, an escalation to a role, or the timeout
of an event wait. -/
def WorkflowNode.asksFor (node : WorkflowNode) (timerKind : String) : Prop :=
  timerKind = "reminder" ∧ (∃ role sla escalation target,
      node.config = .approval role (some sla) escalation target ∧ 0 < sla) ∨
  timerKind = "escalation" ∧ (∃ role sla secs target,
      node.config = .approval role sla (some secs) (some target) ∧ 0 < secs ∧ target ≠ "") ∨
  timerKind = "timeout" ∧ ∃ eventType secs target, node.config = .eventWait eventType (some secs) target ∧ 0 < secs

private theorem nodeTimerKinds_nodup (node : WorkflowNode) :
    ((nodeTimerKinds node).map timerKindI16).Nodup := by
  unfold nodeTimerKinds
  split <;> split <;> split <;> decide

private theorem asksFor_of_mem {node : WorkflowNode} {kind : Int}
    (h : kind ∈ (nodeTimerKinds node).map timerKindI16) : node.asksFor (timerKindStr kind) := by
  obtain ⟨name, hname, rfl⟩ := List.mem_map.1 h
  simp only [nodeTimerKinds, List.mem_append] at hname
  rcases hname with (hname | hname) | hname
  · split at hname
    · next hsla =>
      obtain rfl := List.mem_singleton.1 hname
      obtain ⟨sla, hsla⟩ := Option.isSome_iff_exists.1 hsla
      refine .inl ⟨by decide, ?_⟩
      unfold WorkflowNode.slaSeconds at hsla
      split at hsla
      · next hconfig =>
        obtain ⟨rfl, hpos⟩ := Option.filter_eq_some_iff.1 hsla
        exact ⟨_, _, _, _, hconfig, by simpa using hpos⟩
      · cases hsla
    · cases hname
  · split at hname
    · next hesc =>
      obtain rfl := List.mem_singleton.1 hname
      obtain ⟨⟨secs, role⟩, hesc⟩ := Option.isSome_iff_exists.1 hesc
      refine .inr (.inl ⟨by decide, ?_⟩)
      unfold WorkflowNode.escalationConfig at hesc
      split at hesc
      · next hconfig =>
        simp only [Option.bind_eq_bind, Option.bind_eq_some_iff, Option.filter_eq_some_iff] at hesc
        obtain ⟨secs, ⟨rfl, hpos⟩, role, ⟨rfl, hrole⟩, -⟩ := hesc
        exact ⟨_, _, _, _, hconfig, by simpa using hpos, by simpa using hrole⟩
      · cases hesc
    · cases hname
  · split at hname
    · next hwait =>
      obtain rfl := List.mem_singleton.1 hname
      obtain ⟨⟨eventType, secs, target⟩, hwait, hsecs⟩ := (Option.any_eq_true _ _).1 hwait
      obtain ⟨secs, rfl⟩ := Option.isSome_iff_exists.1 hsecs
      refine .inr (.inr ⟨by decide, ?_⟩)
      unfold WorkflowNode.eventWait at hwait
      split at hwait
      · next hconfig =>
        simp only [Option.some.injEq, Prod.mk.injEq, Option.filter_eq_some_iff] at hwait
        obtain ⟨-, ⟨rfl, hpos⟩, -⟩ := hwait
        exact ⟨_, _, _, hconfig, by simpa using hpos⟩
      · cases hwait
    · cases hname

section
variable {env : Env} {r r' : InstanceRows}

private theorem InstanceRows.Timed.scheduled {tenantId : Int} {node : WorkflowNode} {role : Option String} {round : Int}
    {fanout : Option FanoutMark} {row : ActivityRow} (hr : r.Timed)
    (h : Scheduled env tenantId node role round fanout r row r')
    (hnode : findNode r.snapshot.nodes node.id = some node) : r'.Timed := by
  obtain ⟨ts, hts, hnew, hkinds⟩ := h.timers
  have hslot : ∀ s ∈ ts.map TimerRow.slot, s.1 = row.id := by
    intro s hs
    obtain ⟨t, ht, rfl⟩ := List.mem_map.1 hs
    exact (hnew t ht).1
  have hfresh : ∀ s ∈ r.timers.map TimerRow.slot, s.1 ≠ row.id := by
    intro s hs hid
    obtain ⟨b, hb, hbs, -⟩ := hr.owned s hs
    obtain ⟨a, ha, rfl⟩ := List.mem_map.1 hb
    exact h.fresh a ha (hbs.trans hid)
  have hown : row.booking = (row.id, node.id, round) := by
    rw [h.row_eq]
    rfl
  constructor
  · rw [hts, List.map_append, List.nodup_append]
    refine ⟨hr.slots, ?_, fun s hs s' hs' heq => hfresh s hs (heq ▸ hslot s' hs')⟩
    refine List.Nodup.of_map Prod.snd ?_
    rw [List.map_map]
    exact (nodeTimerKinds_nodup node).sublist hkinds
  · intro s hs
    rw [hts, List.map_append] at hs
    rw [h.activities, List.map_append, h.snapshot]
    rcases List.mem_append.1 hs with hs | hs
    · obtain ⟨b, hb, hrest⟩ := hr.owned s hs
      exact ⟨b, List.mem_append_left _ hb, hrest⟩
    · refine ⟨row.booking, by simp, by rw [hown]; exact (hslot s hs).symm, node, by rw [hown]; exact hnode, ?_⟩
      obtain ⟨t, ht, rfl⟩ := List.mem_map.1 hs
      exact hkinds.subset (List.mem_map_of_mem ht)

private theorem InstanceRows.Timed.move (hr : r.Timed) (h : Move env r r') : r'.Timed := by
  cases h with
  | inst | event | outbox => exact ⟨hr.slots, hr.owned⟩
  | activities p f hf =>
    have hsame : (r.updateActivities p f).activities.map ActivityRow.booking =
        r.activities.map ActivityRow.booking := map_updateWhere hf r.activities
    exact ⟨hr.slots, by rw [hsame]; exact hr.owned⟩
  | timers p status =>
    have hsame : (r.updateTimers p status).timers.map TimerRow.slot = r.timers.map TimerRow.slot := by
      apply map_updateWhere
      exact fun _ => rfl
    exact ⟨by rw [hsame]; exact hr.slots, by rw [hsame]; exact hr.owned⟩
  | schedule hsched hnode => exact hr.scheduled hsched hnode

end

section
variable {svc : WorkflowService} {store : Store} {r : InstanceRows}

theorem timed_of_reachable (h : (engine svc).Reachable store) : ∀ r ∈ store, r.Timed :=
  moves_invariant (fun _ _ => ⟨by simp [insertedRows], by simp [insertedRows]⟩)
    (fun hr hmove => hr.move hmove) h

/-- The node of a timer's activity asks for timers of its kind. -/
theorem InstanceRows.Timed.asksFor (h : r.Timed) (w : WellFormed svc r) {t : TimerRow} (ht : t ∈ r.timers)
    {a : ActivityRow} (ha : a ∈ r.activities) (hid : a.id = t.activityInstanceId) :
    ∃ node, findNode r.snapshot.nodes a.activityDefinitionId = some node ∧
      node.asksFor (timerKindStr t.timerKind) := by
  obtain ⟨b, hb, hbt, node, hnode, hkind⟩ := h.owned t.slot (List.mem_map_of_mem ht)
  obtain ⟨c, hc, rfl⟩ := List.mem_map.1 hb
  obtain rfl : a = c := w.eq_of_id ha hc (hid.trans hbt.symm)
  exact ⟨node, hnode, asksFor_of_mem hkind⟩

/-- Every pending timer is of an active activity whose node asks for it, and there is at most one for
each activity and kind. -/
theorem pending_timers (h : (engine svc).Reachable store) (hr : r ∈ store) :
    (∀ t ∈ r.timers, t.status = .pending → ∃ a ∈ r.activities, a.id = t.activityInstanceId ∧ a.status = .active ∧
      ∃ node, findNode r.snapshot.nodes a.activityDefinitionId = some node ∧
        node.asksFor (timerKindStr t.timerKind)) ∧
    ((r.timers.filter fun t => t.status == .pending).map TimerRow.slot).Nodup := by
  have w := (wellFormed_of_reachable h).rows r hr
  have htimed := timed_of_reachable h r hr
  refine ⟨fun t ht hpending => ?_, htimed.slots.sublist (List.filter_sublist.map _)⟩
  obtain ⟨a, ha, hid, hactive⟩ := w.timers t ht
  exact ⟨a, ha, hid, hactive hpending, htimed.asksFor w ht ha hid⟩

end
/-- An approval with an SLA has been started: its reminder is pending. -/
theorem pending_timers_started :
    let store := played (Sample.service "fc00d560518173f8342472a6025b885c71377c98bca5096ffdba17d7d9a5c475") 9
      [Sample.start (Sample.definition [Sample.node "a" (.approval (some "manager") (some 3600) none none)]
        [Sample.approved "a" "end"]) none]
    (store.length = 1 ∧ ∀ r ∈ store, r.timers.length = 1) ∧ ∀ r ∈ store, ∀ t ∈ r.timers, t.status = .pending →
      ∃ a ∈ r.activities, a.id = t.activityInstanceId ∧ a.status = .active ∧
        ∃ node, findNode r.snapshot.nodes a.activityDefinitionId = some node ∧
          node.asksFor (timerKindStr t.timerKind) := by
  intro store
  exact ⟨by decide +kernel, fun r hr => (pending_timers (reachable_played ..) hr).1⟩

end Fusions.Hetuflow
