import Fusions.Library.Rely
import Fusions.Hetuflow.Service.Interleaving
import Fusions.Hetuflow.Service.Invariant
import Fusions.Hetuflow.Service.Statements

/-! One transaction beside the others: what a statement does to the rows that its transaction holds. -/
namespace Fusions.Hetuflow
open Fusions.Library Program

/-- Where a transaction stands: the committed rows, what it meets of other instances, the rows it
holds, and how many uuids it drew. -/
structure Standing where
  rows : InstanceRows
  elsewhere : Elsewhere
  pending : Pending
  drawn : Nat

def Standing.view (x : Standing) : InstanceRows := x.pending.above x.rows

/-- One statement of a transaction. The committed rows stay as they are. -/
def perform (supply : Supply) {β : Type} (q : Stmt β) (x : Standing) : Except FlowError (β × Standing) :=
  match exec (supply.envWith x.elsewhere) q ⟨x.view, x.drawn⟩ with
  | .ok (b, tx) => .ok (b, { x with pending := x.pending.after q x.rows x.view tx.rows, drawn := tx.drawn })
  | .error e => .error e

def Session.standing (s : Session) (rows : InstanceRows) (e : Elsewhere) : Standing :=
  ⟨rows, e, s.pending, s.drawn⟩

/-- The activity that a statement completes, if it is Active, and the result it gives it. -/
def Stmt.completes {β : Type} : Stmt β → Option (Uuid × Option Int)
  | .completeActivityCas id result .. => some (id, result)
  | _ => none

/-- The activity that a statement takes out of Active, if it is. -/
def Stmt.takesOut {β : Type} : Stmt β → Option Uuid
  | .completeActivityCas id .. | .skipActivityForTimeout id => some id
  | _ => none

/-- The event that a statement appends. -/
def Stmt.appended {β : Type} (now : Time) : Stmt β → List EventRow
  | .appendEvent seq eventType payload key => [⟨seq, eventType, payload, key, now⟩]
  | _ => []

section
variable {env : Env} {β : Type} {q : Stmt β} {tx tx' : Tx} {b : β}

theorem Stmt.active_of_writes {a : ActivityRow} (h : q.writesActivity a = true) : a.status = .active := by
  cases q with
  | completeActivityCas | skipActivityForTimeout | updateActivityAssigneeRole | updateActivityAssignee =>
    exact ((ActivityRow.isActive_iff _ _).1 h).2
  | skipOtherActiveActivities => exact ((ActivityRow.isOtherActive_iff _ _).1 h).2
  | _ => cases h

/-- What a statement does to the activity rows: those it updates age, and at most one is new. -/
structure Stmt.Acts (q : Stmt β) (r r' : InstanceRows) (g : ActivityRow → ActivityRow) (new : List ActivityRow) :
    Prop where
  activities : r'.activities = r.activities.map g ++ new
  aged : ∀ a, Aged a (g a)
  idle : ∀ a, q.writesActivity a = false → g a = a
  completed : ∀ a, (g a).status = .completed → g a = a ∨ q.completes = some (a.id, (g a).result)
  fresh : ∀ a ∈ new, a.status = .active ∧ ∀ b ∈ r.activities, b.id ≠ a.id
  new_nodup : (new.map ActivityRow.id).Nodup

/-- The ids of the rows stay unique. -/
theorem Stmt.Acts.nodup {r r' : InstanceRows} {g : ActivityRow → ActivityRow} {new : List ActivityRow}
    (h : q.Acts r r' g new) (hr : (r.activities.map ActivityRow.id).Nodup) :
    (r'.activities.map ActivityRow.id).Nodup := by
  have hids : (r.activities.map g).map ActivityRow.id = r.activities.map ActivityRow.id := by
    rw [List.map_map]
    exact List.map_congr_left fun a _ => (h.aged a).id
  rw [h.activities, List.map_append, hids, List.nodup_append]
  refine ⟨hr, h.new_nodup, ?_⟩
  intro i hi j hj heq
  obtain ⟨v, hv, rfl⟩ := List.mem_map.1 hi
  obtain ⟨a, ha, rfl⟩ := List.mem_map.1 hj
  exact (h.fresh a ha).2 v hv heq

private theorem Stmt.Acts.same {r r' : InstanceRows} (h : r'.activities = r.activities) :
    q.Acts r r' (fun a => a) [] :=
  ⟨by simp [h], .refl, fun _ _ => rfl, fun _ _ => .inl rfl, by simp, by simp⟩

private theorem Stmt.Acts.update {r r' : InstanceRows} {f : ActivityRow → ActivityRow}
    (h : r' = r.updateActivities q.writesActivity f)
    (hf : ∀ a, (f a).id = a.id ∧ (f a).activityDefinitionId = a.activityDefinitionId ∧
      (f a).activityType = a.activityType ∧ (f a).round = a.round)
    (hcompleted : ∀ a, q.writesActivity a = true → (f a).status = .completed →
      q.completes = some (a.id, (f a).result)) :
    q.Acts r r' (fun a => if q.writesActivity a then f a else a) [] where
  activities := by rw [h, List.append_nil]; rfl
  aged a := by
    split
    · next hw => exact ⟨(hf a).1, (hf a).2.1, (hf a).2.2.1, (hf a).2.2.2, fun hs => absurd (active_of_writes hw) hs⟩
    · exact .refl a
  idle a ha := by simp [ha]
  completed a := by
    split
    · next hw => exact fun hs => .inr (hcompleted a hw hs)
    · exact fun _ => .inl rfl
  fresh := by simp
  new_nodup := by simp

/-- Every statement ages activity rows, and inserts at most one. -/
theorem acts_of_exec (h : exec env q tx = .ok (b, tx')) : ∃ g new, q.Acts tx.rows tx'.rows g new := by
  cases q with
  | completeActivityCas id =>
    cases h
    refine ⟨_, [], .update rfl (fun _ => ⟨rfl, rfl, rfl, rfl⟩) fun a hw _ => ?_⟩
    have hid : a.id = id := ((ActivityRow.isActive_iff _ _).1 hw).1
    rw [hid]
    rfl
  | skipActivityForTimeout | skipOtherActiveActivities =>
    cases h
    exact ⟨_, [], .update rfl (fun _ => ⟨rfl, rfl, rfl, rfl⟩) fun _ _ hs => by cases hs⟩
  | updateActivityAssigneeRole | updateActivityAssignee =>
    cases h
    refine ⟨_, [], .update rfl (fun _ => ⟨rfl, rfl, rfl, rfl⟩) fun a hw hs => ?_⟩
    cases (Stmt.active_of_writes hw).symm.trans hs
  | insertActivity tenantId nodeId activityType role round =>
    simp only [exec, Tx.insertActivity] at h
    split at h
    · cases h
    · next hfree =>
      cases h
      refine ⟨fun a => a, [ActivityRow.new (env.uuid tx.drawn) tenantId nodeId activityType role round], by simp,
        .refl, fun _ _ => rfl, fun _ _ => .inl rfl, ?_, by simp⟩
      intro a ha
      rw [List.mem_singleton.1 ha]
      refine ⟨rfl, fun c hc heq => hfree ?_⟩
      simp only [Tx.activityIdTaken, Bool.or_eq_true, List.any_eq_true, beq_iff_eq]
      exact .inl ⟨c, hc, heq⟩
  | enqueueOutbox row =>
    cases h
    refine ⟨_, _, .same ?_⟩
    simp only [InstanceRows.enqueueOutbox]
    split <;> rfl
  | _ =>
    refine ⟨_, _, .same ?_⟩
    simp only [exec, Tx.casInstance, Tx.scheduleTimer, Tx.reopen, InstanceRows.updateTimers] at h
    repeat' split at h
    all_goals cases h
    all_goals rfl

theorem events_of_exec (h : exec env q tx = .ok (b, tx')) :
    tx'.rows.events = tx.rows.events ++ q.appended env.now := by
  cases q with
  | appendEvent =>
    cases h
    rfl
  | enqueueOutbox row =>
    cases h
    simp only [InstanceRows.enqueueOutbox, Stmt.appended, List.append_nil]
    split <;> rfl
  | _ =>
    simp only [exec, Tx.casInstance, Tx.casActivities, Tx.insertActivity, Tx.scheduleTimer, Tx.reopen,
      InstanceRows.updateActivities, InstanceRows.updateTimers] at h
    repeat' split at h
    all_goals cases h
    all_goals simp [Stmt.appended, InstanceRows.updateInstance]

end

namespace Pending

/-- The transaction has taken this activity out of Active. -/
def leaves (p : Pending) (id : Uuid) : Bool := p.activities.any fun a => a.id == id && a.status != .active

theorem leaves_iff {p : Pending} {id : Uuid} :
    p.leaves id = true ↔ ∃ a ∈ p.activities, a.id = id ∧ a.status ≠ .active := by
  simp [leaves]

theorem events_apart {p q : Pending} (h : p.compatible q = true) :
    ∀ e ∈ p.events, ∀ f ∈ q.events, e.seq ≠ f.seq := by
  simp only [compatible, Bool.and_eq_true] at h
  exact apart_iff.1 h.1.1.2

theorem activities_apart {p q : Pending} (h : p.compatible q = true) :
    ∀ a ∈ p.activities, ∀ b ∈ q.activities, a.id ≠ b.id := by
  simp only [compatible, Bool.and_eq_true] at h
  exact apart_iff.1 h.1.1.1.2

/-- The rows a transaction holds are versions of active committed rows, or new ones. -/
structure Consistent (p : Pending) (rows : InstanceRows) : Prop where
  rows_nodup : (rows.activities.map ActivityRow.id).Nodup
  held_nodup : (p.activities.map ActivityRow.id).Nodup
  versions : ∀ a ∈ p.activities, ∀ c ∈ rows.activities, c.id = a.id → c.status = .active ∧ Aged c a

theorem Consistent.none {rows : InstanceRows} (h : (rows.activities.map ActivityRow.id).Nodup) :
    Consistent .none rows :=
  ⟨h, List.nodup_nil, fun _ ha => absurd ha (List.not_mem_nil)⟩

variable {p : Pending} {rows : InstanceRows}

theorem Consistent.view_nodup (h : p.Consistent rows) : ((p.above rows).activities.map ActivityRow.id).Nodup :=
  nodup_overlay h.held_nodup h.rows_nodup

theorem Consistent.mem_view (h : p.Consistent rows) {a : ActivityRow} :
    a ∈ (p.above rows).activities ↔ a ∈ p.activities ∨ a ∈ rows.activities ∧ ∀ b ∈ p.activities, b.id ≠ a.id :=
  mem_overlay h.held_nodup

/-- A row as the transaction sees it, against the committed one. -/
theorem Consistent.aged (h : p.Consistent rows) {a c : ActivityRow} (ha : a ∈ (p.above rows).activities)
    (hc : c ∈ rows.activities) (hid : c.id = a.id) : Aged c a := by
  rcases h.mem_view.1 ha with ha | ⟨ha, -⟩
  · exact (h.versions a ha c hc hid).2
  · rw [List.inj_on_of_nodup_map h.rows_nodup ha hc hid.symm]
    exact .refl c

theorem mem_after {β : Type} {q : Stmt β} {view left : InstanceRows} {a : ActivityRow} :
    a ∈ (p.after q rows view left).activities ↔ a ∈ left.activities ∧
      ((∃ b ∈ p.activities, b.id = a.id) ∨ (∀ c ∈ rows.activities, c.id ≠ a.id) ∨
        ∃ v ∈ view.activities, v.id = a.id ∧ q.writesActivity v = true) := by
  simp [after, or_assoc]

end Pending

section
variable {supply : Supply} {β : Type} {q : Stmt β} {x x' : Standing} {b : β} {p : Pending} {rows : InstanceRows}

theorem perform_ok : perform supply q x = .ok (b, x') ↔
    ∃ tx, exec (supply.envWith x.elsewhere) q ⟨x.view, x.drawn⟩ = .ok (b, tx) ∧
      x' = { x with pending := x.pending.after q x.rows x.view tx.rows, drawn := tx.drawn } := by
  unfold perform
  split
  · next b' tx htx =>
    rw [htx]
    constructor
    · intro h
      cases h
      exact ⟨tx, rfl, rfl⟩
    · rintro ⟨tx', htx', rfl⟩
      cases htx'
      rfl
  · next e he =>
    rw [he]
    constructor
    · intro h
      cases h
    · rintro ⟨tx, htx, -⟩
      cases htx

theorem rows_of_perform (h : perform supply q x = .ok (b, x')) : x'.rows = x.rows := by
  obtain ⟨tx, -, rfl⟩ := perform_ok.1 h
  rfl

theorem elsewhere_of_perform (h : perform supply q x = .ok (b, x')) : x'.elsewhere = x.elsewhere := by
  obtain ⟨tx, -, rfl⟩ := perform_ok.1 h
  rfl

/-- Every row held before the statement is held after it, aged. -/
theorem held_of_perform (hx : x.pending.Consistent x.rows) (h : perform supply q x = .ok (b, x')) {a : ActivityRow}
    (ha : a ∈ x.pending.activities) : ∃ a' ∈ x'.pending.activities, Aged a a' := by
  obtain ⟨tx, htx, rfl⟩ := perform_ok.1 h
  obtain ⟨g, new, hacts⟩ := acts_of_exec htx
  refine ⟨g a, Pending.mem_after.2 ⟨?_, .inl ⟨a, ha, (hacts.aged a).id.symm⟩⟩, hacts.aged a⟩
  rw [hacts.activities]
  exact List.mem_append_left _ (List.mem_map_of_mem (hx.mem_view.2 (.inl ha)))

/-- What has left Active stays as it is. -/
theorem leaves_of_perform (hx : x.pending.Consistent x.rows) (h : perform supply q x = .ok (b, x')) {id : Uuid}
    (hid : x.pending.leaves id = true) : x'.pending.leaves id = true := by
  obtain ⟨a, ha, rfl, hs⟩ := Pending.leaves_iff.1 hid
  obtain ⟨a', ha', haged⟩ := held_of_perform hx h ha
  obtain rfl := haged.settled hs
  exact Pending.leaves_iff.2 ⟨_, ha', rfl, hs⟩

/-- A row after a statement, held by the transaction, comes from an active committed row, or is new. -/
private theorem Stmt.Acts.version {g : ActivityRow → ActivityRow} {new : List ActivityRow} {left : InstanceRows}
    (hacts : q.Acts (p.above rows) left g new) (hp : p.Consistent rows) {a c : ActivityRow}
    (ha : a ∈ (p.after q rows (p.above rows) left).activities) (hc : c ∈ rows.activities) (hid : c.id = a.id) :
    c.status = .active ∧ Aged c a := by
  obtain ⟨ha, hheld⟩ := Pending.mem_after.1 ha
  obtain ⟨v, hv, hvid⟩ : ∃ v ∈ (p.above rows).activities, v.id = c.id := exists_overlay hc
  rw [hacts.activities] at ha
  rcases List.mem_append.1 ha with ha | ha
  · obtain ⟨w, hw, rfl⟩ := List.mem_map.1 ha
    obtain rfl : v = w := List.inj_on_of_nodup_map hp.view_nodup hv hw (hvid.trans (hid.trans (hacts.aged w).id))
    refine ⟨?_, (hp.aged hv hc hvid.symm).trans (hacts.aged v)⟩
    rcases hp.mem_view.1 hv with hown | ⟨hbase, hfree⟩
    · exact (hp.versions v hown c hc hvid.symm).1
    · obtain rfl : v = c := List.inj_on_of_nodup_map hp.rows_nodup hbase hc hvid
      rcases hheld with ⟨d, hd, hdid⟩ | hnone | ⟨w, hw, hwid, hwrites⟩
      · exact absurd (hdid.trans hid.symm) (hfree d hd)
      · exact absurd hid (hnone v hc)
      · obtain rfl : w = v := List.inj_on_of_nodup_map hp.view_nodup hw hv (hwid.trans hid.symm)
        exact Stmt.active_of_writes hwrites
  · exact absurd (hvid.trans hid) ((hacts.fresh a ha).2 v hv)

theorem consistent_of_perform (hx : x.pending.Consistent x.rows) (h : perform supply q x = .ok (b, x')) :
    x'.pending.Consistent x'.rows := by
  obtain ⟨tx, htx, rfl⟩ := perform_ok.1 h
  obtain ⟨g, new, hacts⟩ := acts_of_exec htx
  exact ⟨hx.rows_nodup, (hacts.nodup hx.view_nodup).sublist (List.filter_sublist.map _),
    fun _ ha _ hc hid => hacts.version hx ha hc hid⟩

theorem events_of_perform (h : perform supply q x = .ok (b, x')) :
    x'.pending.events = x.pending.events ++ q.appended supply.now := by
  obtain ⟨tx, htx, rfl⟩ := perform_ok.1 h
  have hevents : tx.rows.events = x.rows.events ++ x.pending.events ++ q.appended supply.now := events_of_exec htx
  show tx.rows.events.drop x.rows.events.length = _
  rw [hevents, List.append_assoc, List.drop_left]

/-- A transaction holds the version of its own instance row. -/
theorem instance_of_perform (h : perform supply q x = .ok (b, x')) : x'.view.inst.id = x.view.inst.id := by
  obtain ⟨tx, htx, rfl⟩ := perform_ok.1 h
  show ((x.pending.after q x.rows (x.pending.above x.rows) tx.rows).above x.rows).inst.id = _
  rw [Pending.after_above_inst]
  split
  · exact congrArg Prod.fst (nextVersion_of_exec q htx).identity
  · rfl

/-- A row that a transaction holds Completed was so before the statement, or the statement completes it. -/
theorem completed_of_perform (hx : x.pending.Consistent x.rows) (h : perform supply q x = .ok (b, x')) {a : ActivityRow}
    (ha : a ∈ x'.pending.activities) (hs : a.status = .completed) :
    a ∈ x.pending.activities ∨ q.completes = some (a.id, a.result) := by
  obtain ⟨tx, htx, rfl⟩ := perform_ok.1 h
  obtain ⟨g, new, hacts⟩ := acts_of_exec htx
  obtain ⟨ha, hheld⟩ := Pending.mem_after.1 ha
  rw [hacts.activities] at ha
  rcases List.mem_append.1 ha with ha | ha
  swap
  · rw [(hacts.fresh a ha).1] at hs
    cases hs
  obtain ⟨v, hv, rfl⟩ := List.mem_map.1 ha
  rcases hacts.completed v hs with hsame | hcompletes
  swap
  · rw [hcompletes, (hacts.aged v).id]
    exact .inr rfl
  rw [hsame] at hheld hs ⊢
  refine .inl ?_
  rcases hx.mem_view.1 hv with hv | ⟨hbase, hfree⟩
  · exact hv
  rcases hheld with ⟨c, hc, hid⟩ | hnone | ⟨w, hw, hid, hwrites⟩
  · exact absurd hid (hfree c hc)
  · exact absurd rfl (hnone v hbase)
  · obtain rfl : w = v := List.inj_on_of_nodup_map hx.view_nodup hw hv hid
    rw [Stmt.active_of_writes hwrites] at hs
    cases hs

theorem leaves_of_takesOut {id : Uuid} (hq : q.takesOut = some id)
    (hactive : x.view.activities.any (·.isActive id) = true) (h : perform supply q x = .ok (b, x')) :
    x'.pending.leaves id = true := by
  obtain ⟨tx, htx, rfl⟩ := perform_ok.1 h
  obtain ⟨v, hv, hisActive⟩ := List.any_eq_true.1 hactive
  obtain ⟨hid, -⟩ := (ActivityRow.isActive_iff _ _).1 hisActive
  have hleft : ∃ a ∈ tx.rows.activities, a.id = v.id ∧ a.status ≠ .active := by
    cases q with
    | completeActivityCas | skipActivityForTimeout =>
      cases hq
      cases htx
      refine ⟨_, List.mem_map_of_mem hv, ?_⟩
      rw [if_pos hisActive]
      exact ⟨rfl, nofun⟩
    | _ => cases hq
  obtain ⟨a, ha, haid, hs⟩ := hleft
  refine Pending.leaves_iff.2 ⟨a, Pending.mem_after.2 ⟨ha, .inr (.inr ⟨v, hv, haid.symm, ?_⟩)⟩, haid.trans hid, hs⟩
  cases q with
  | completeActivityCas | skipActivityForTimeout =>
    cases hq
    exact hisActive
  | _ => cases hq

/-- A completion that hits has found its activity Active. -/
theorem active_of_completed {id : Uuid} {result : Option Int} {reviewedBy : Int} {notes : Option String}
    (h : perform supply (.completeActivityCas id result reviewedBy notes) x = .ok (true, x')) :
    x.view.activities.any (·.isActive id) = true := by
  obtain ⟨tx, htx, -⟩ := perform_ok.1 h
  exact congrArg Prod.fst (Except.ok.inj htx)

end

/-- A step of a transaction: it passes a mark, or performs a statement. -/
theorem Session.of_advance {s s' : Session} {rows : InstanceRows} {e : Elsewhere} (h : s.advance rows e = some s') :
    s'.task = s.task ∧ s'.supply = s.supply ∧
      ((∃ m, s.prog = .mark m s'.prog ∧ s'.applied = m :: s.applied ∧ s'.standing rows e = s.standing rows e) ∨
        ∃ (β : Type) (q : Stmt β) (next : β → Prog Unit) (b : β), s.prog = .exec q next ∧ s'.prog = next b ∧
          s'.applied = s.applied ∧ perform s.supply q (s.standing rows e) = .ok (b, s'.standing rows e)) := by
  unfold advance at h
  split at h
  · next m p hp =>
    cases h
    exact ⟨rfl, rfl, .inl ⟨m, hp, rfl, rfl⟩⟩
  · next q next hp =>
    split at h
    · next b tx htx =>
      cases h
      exact ⟨rfl, rfl, .inr ⟨_, q, next, b, hp, rfl, rfl, perform_ok.2 ⟨tx, htx, rfl⟩⟩⟩
    · cases h
  · cases h

end Fusions.Hetuflow
