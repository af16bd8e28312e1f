import Fusions.Hetuflow.Service.Arrivals
import Fusions.Hetuflow.Service.Queue
import Fusions.Hetuflow.Contract.Advances
import Fusions.Hetuflow.Contract.Routing

/-! The join under concurrency: of the transactions that complete the branches a WaitAll join still waits for, one
makes it fire, the last in the queue for the log. -/
namespace Fusions.Hetuflow
open Fusions.Library Program

/-- The activities met elsewhere belong to other instances. -/
def Elsewhere.Foreign (e : Elsewhere) (instanceId : Uuid) : Prop :=
  ∀ id a, e.foreignActivity id = some a → a.workflowInstanceId ≠ instanceId

/-- What the others do to a transaction in the queue: what it holds stays, the committed rows age, and nobody
commits once it has appended. -/
structure Standing.Awaits (x y : Standing) : Prop where
  pending : y.pending = x.pending
  consistent : x.pending.Consistent x.rows → y.pending.Consistent y.rows
  foreign : x.elsewhere.Foreign x.rows.inst.id → y.elsewhere.Foreign y.rows.inst.id
  snapshot : y.rows.snapshot = x.rows.snapshot
  id : y.rows.inst.id = x.rows.inst.id
  aged : ∀ a ∈ x.rows.activities, ∃ a' ∈ y.rows.activities, Aged a a'
  alone : x.pending.events ≠ [] → y.rows = x.rows

/-- A transaction in the queue for the log among the others. -/
def queueing : Rely Uuid Standing where
  interferes := Standing.Awaits
  marked _ _ := True
  refl _ := ⟨rfl, id, id, rfl, rfl, fun a ha => ⟨a, ha, .refl a⟩, fun _ => rfl⟩
  trans _ _ _ h k :=
    { pending := k.pending.trans h.pending
      consistent := k.consistent ∘ h.consistent
      foreign := k.foreign ∘ h.foreign
      snapshot := k.snapshot.trans h.snapshot
      id := k.id.trans h.id
      aged := fun a ha =>
        let ⟨b, hb, hab⟩ := h.aged a ha
        let ⟨c, hc, hbc⟩ := k.aged b hb
        ⟨c, hc, hab.trans hbc⟩
      alone := fun hne => (k.alone (by rwa [h.pending])).trans (h.alone hne) }

/-- An event that neither fans a for-each out nor lets a join go. -/
def KeepsJoins (t : EventType) : Prop := t ≠ .forEachFannedOut ∧ t ≠ .parallelJoinSatisfied

namespace InstanceRows

/-- Expected count and branch node ids of a join in a round, as `try_satisfy_join` reads them. -/
def branchesExpected (r : InstanceRows) (join : String) (round : Int) : Except FlowError (Int × List String) := do
  let dynamic ← r.forEachBranchCount join round
  WorkflowService.branchExpectation r.snapshot join dynamic

/-- Whatever the context, the completion of the node advances to the join. -/
def Feeds (svc : WorkflowService) (r : InstanceRows) (id join : String) : Prop :=
  ∀ context, CompletesInto svc.cel r.snapshot.nodes r.snapshot.transitions context id join

theorem Feeds.unique {svc : WorkflowService} {r : InstanceRows} {id join join' : String} (h : r.Feeds svc id join)
    (h' : r.Feeds svc id join') : join' = join := by
  obtain ⟨node, signal, hnode, hsignal, hadvance⟩ := h none
  obtain ⟨node', signal', hnode', hsignal', hadvance'⟩ := h' none
  have hfound := findNode_eq_some_iff.2 hnode
  obtain rfl : node' = node := Option.some.inj ((findNode_eq_some_iff.2 hnode').symm.trans hfound)
  obtain rfl : signal' = signal := Option.some.inj (hsignal'.symm.trans hsignal)
  rw [hadvance] at hadvance'
  cases hadvance'
  rfl

/-- A node whose own edge leads to a join. -/
theorem Feeds.of_completionTarget {svc : WorkflowService} {r : InstanceRows} {id join : String}
    {joinNode : WorkflowNode} (h : r.snapshot.completionTarget id = some join)
    (hjoin : findNode r.snapshot.nodes join = some joinNode) (hkind : joinNode.kind = .parallelJoin) :
    r.Feeds svc id join := by
  intro context
  have htarget := h
  simp only [DefinitionSnapshot.completionTarget, Option.bind_eq_bind, Option.bind_eq_some_iff] at h
  obtain ⟨node, hnode, signal, hsignal, -⟩ := h
  refine ⟨node, signal, findNode_eq_some_iff.1 hnode, hsignal, ?_⟩
  rw [decideAdvance_of_completionTarget hnode hsignal htarget hjoin hkind]

/-- The activity is a branch of the WaitAll join: the join counts its node, and its completion leads there. -/
structure Branch (svc : WorkflowService) (r : InstanceRows) (join : WorkflowNode) (expected : Int) (ids : List String)
    (a : ActivityRow) : Prop where
  typed : ∃ node, findNode r.snapshot.nodes a.activityDefinitionId = some node ∧
    a.activityType = instantiatedActivityType node.kind
  leads : r.Feeds svc a.activityDefinitionId join.id
  found : findNode r.snapshot.nodes join.id = some join
  kind : join.kind = .parallelJoin
  waitAll : join.joinStrategy.getD .waitAll = .waitAll
  expects : r.branchesExpected join.id a.round = .ok (expected, ids)
  counted : a.activityDefinitionId ∈ ids

namespace Branch
variable {svc : WorkflowService} {r : InstanceRows} {join join' : WorkflowNode} {expected expected' : Int}
  {ids ids' : List String} {a a' : ActivityRow}

/-- What makes an activity a branch does not change as it ages. -/
theorem aged_iff (haged : Aged a a') : r.Branch svc join expected ids a' ↔ r.Branch svc join expected ids a := by
  constructor <;> intro h
  · exact ⟨haged.node ▸ haged.type ▸ h.typed, haged.node ▸ h.leads, h.found, h.kind, h.waitAll,
      haged.round ▸ h.expects, haged.node ▸ h.counted⟩
  · refine ⟨?_, ?_, h.found, h.kind, h.waitAll, ?_, ?_⟩
    · rw [haged.node, haged.type]
      exact h.typed
    · rw [haged.node]
      exact h.leads
    · rw [haged.round]
      exact h.expects
    · rw [haged.node]
      exact h.counted

/-- An activity is a branch of one join. -/
theorem unique (h : r.Branch svc join expected ids a) (h' : r.Branch svc join' expected' ids' a) :
    join' = join ∧ expected' = expected ∧ ids' = ids := by
  have hid : join'.id = join.id := h.leads.unique h'.leads
  have hjoin : join' = join := Option.some.inj (h'.found.symm.trans (hid ▸ h.found))
  subst hjoin
  exact ⟨rfl, Prod.mk.inj (Except.ok.inj (h'.expects.symm.trans h.expects))⟩

end Branch

/-- Events that fan nothing out leave the branch counts as they are. -/
theorem forEachBranchCount_append {r r' : InstanceRows} {es : List EventRow} (hevents : r'.events = r.events ++ es)
    (hkeeps : ∀ e ∈ es, KeepsJoins e.eventType) (join : String) (round : Int) :
    r'.forEachBranchCount join round = r.forEachBranchCount join round := by
  have hnone : es.reverse.find? (isFanOutInto join round) = none := by
    refine List.find?_eq_none.2 fun e he hinto => ?_
    simp only [isFanOutInto, Bool.and_eq_true, beq_iff_eq] at hinto
    exact (hkeeps e (List.mem_reverse.1 he)).1 hinto.1.1
  unfold forEachBranchCount
  rw [hevents, List.reverse_append, List.find?_append, hnone]
  rfl

end InstanceRows

namespace Pending.Consistent
variable {p : Pending} {rows : InstanceRows}

/-- A transaction counts its own arrivals on top of the committed ones. -/
private theorem count (h : p.Consistent rows) (ids : List String) (round : Int) :
    (p.above rows).countCompletedBranches ids round =
      p.activities.countP (InstanceRows.isArrival ids round) + rows.countCompletedBranches ids round := by
  show ((overlay (·.id) p.activities rows.activities).countP _ : Int) = _
  rw [countP_overlay h.held_nodup h.rows_nodup fun a ha c hc hid => ?_, Int.natCast_add]
  · rfl
  · simp [InstanceRows.isArrival, (h.versions a ha c hc hid.symm).1]

/-- A transaction that has completed one branch counts one arrival more than is committed. -/
theorem count_one (h : p.Consistent rows) {ids : List String} {round : Int} {a : ActivityRow} (ha : a ∈ p.activities)
    (harrives : InstanceRows.isArrival ids round a = true)
    (honly : ∀ b ∈ p.activities, b.accepted = true → b.id = a.id) :
    (p.above rows).countCompletedBranches ids round = rows.countCompletedBranches ids round + 1 := by
  have hall : p.activities.filter (InstanceRows.isArrival ids round) =
      List.replicate (p.activities.filter (InstanceRows.isArrival ids round)).length a := by
    refine List.eq_replicate_iff.2 ⟨rfl, fun b hb => ?_⟩
    obtain ⟨hb, harrived⟩ := List.mem_filter.1 hb
    refine List.inj_on_of_nodup_map h.held_nodup hb ha (honly b hb ?_)
    simp only [InstanceRows.isArrival, Bool.and_eq_true] at harrived
    simp [ActivityRow.accepted, harrived.1.1]
  have hle : (p.activities.filter (InstanceRows.isArrival ids round)).length ≤ 1 := by
    have hnodup := h.held_nodup.of_map.filter (InstanceRows.isArrival ids round)
    rw [hall] at hnodup
    exact List.nodup_replicate.1 hnodup
  have hpos : 0 < p.activities.countP (InstanceRows.isArrival ids round) := List.countP_pos_iff.2 ⟨a, ha, harrives⟩
  rw [← List.countP_eq_length_filter] at hle
  rw [h.count]
  omega

end Pending.Consistent

/-- A transaction that has completed a branch has looked at its join: it has made it fire, or it has counted too few
arrivals and let it wait. -/
def Standing.Looked (svc : WorkflowService) (x : Standing) : Prop :=
  ∀ a ∈ x.pending.activities, a.accepted = true → x.pending.events ≠ [] ∧
    (∀ b ∈ x.pending.activities, b.accepted = true → b.id = a.id) ∧
    ∀ join expected ids, x.rows.Branch svc join expected ids a →
      x.rows.countCompletedBranches ids a.round + 1 < expected ∧ (∀ e ∈ x.pending.events, KeepsJoins e.eventType) ∨
      expected ≤ x.rows.countCompletedBranches ids a.round + 1 ∧
        ∃ e ∈ x.pending.events, e.firesJoin join.id a.round = true

/-- What a transaction has on record: the committed rows and its own events of an earlier moment, rows that it has
seen, which rows it completes, and which events it has appended since. -/
structure Notes where
  base : InstanceRows
  events : List EventRow
  seen : ActivityRow → Prop
  own : ActivityRow → Prop
  kinds : EventType → Prop

structure Standing.Noted (x : Standing) (n : Notes) : Prop where
  consistent : x.pending.Consistent x.rows
  foreign : x.elsewhere.Foreign x.rows.inst.id
  snapshot : x.rows.snapshot = n.base.snapshot
  id : x.rows.inst.id = n.base.inst.id
  alone : n.events ≠ [] → x.rows = n.base
  events : ∃ new, x.pending.events = n.events ++ new ∧ ∀ e ∈ new, n.kinds e.eventType
  seen : ∀ a, n.seen a → ∃ a' ∈ x.view.activities, Aged a a'
  own : ∀ a ∈ x.pending.activities, a.status = .completed → n.own a

section
variable {svc : WorkflowService} {supply : Supply} {β : Type} {q : Stmt β} {x x' y : Standing} {b : β} {n : Notes}

private theorem writes_of_plain (now : Time) (h : q.isPlain = true) : q.appended now = [] ∧ q.completes = none := by
  cases q <;> first | exact ⟨rfl, rfl⟩ | cases h

/-- A row that a transaction sees, after a statement. -/
theorem aged_of_perform (hx : x.pending.Consistent x.rows) (h : perform supply q x = .ok (b, x')) {a : ActivityRow}
    (ha : a ∈ x.view.activities) : ∃ a' ∈ x'.view.activities, Aged a a' := by
  have hx' := consistent_of_perform hx h
  rcases hx.mem_view.1 ha with ha | ⟨ha, -⟩
  · obtain ⟨a', ha', haged⟩ := held_of_perform hx h ha
    exact ⟨a', hx'.mem_view.2 (.inl ha'), haged⟩
  · rw [← rows_of_perform h] at ha
    obtain ⟨a', ha', hid⟩ : ∃ a' ∈ x'.view.activities, a'.id = a.id := exists_overlay ha
    exact ⟨a', ha', hx'.aged ha' ha hid.symm⟩

/-- A row that a transaction sees, after the others. -/
private theorem Standing.Awaits.seen (h : x.Awaits y) (hx : x.pending.Consistent x.rows) {a : ActivityRow}
    (ha : a ∈ x.view.activities) : ∃ a' ∈ y.view.activities, Aged a a' := by
  have hy := h.consistent hx
  rcases hx.mem_view.1 ha with ha | ⟨ha, -⟩
  · exact ⟨a, hy.mem_view.2 (.inl (by rwa [h.pending])), .refl a⟩
  · obtain ⟨b, hb, hab⟩ := h.aged a ha
    obtain ⟨a', ha', hid⟩ : ∃ a' ∈ y.view.activities, a'.id = b.id := exists_overlay hb
    exact ⟨a', ha', hab.trans (hy.aged ha' hb hid.symm)⟩

namespace Standing.Noted

theorem awaits (h : x.Noted n) (hxy : x.Awaits y) : y.Noted n where
  consistent := hxy.consistent h.consistent
  foreign := hxy.foreign h.foreign
  snapshot := hxy.snapshot.trans h.snapshot
  id := hxy.id.trans h.id
  alone hne := by
    obtain ⟨new, hnew, -⟩ := h.events
    exact (hxy.alone (by simp [hnew, hne])).trans (h.alone hne)
  events := by
    rw [hxy.pending]
    exact h.events
  seen a ha := by
    obtain ⟨a₁, ha₁, haged⟩ := h.seen a ha
    obtain ⟨a₂, ha₂, haged₂⟩ := hxy.seen h.consistent ha₁
    exact ⟨a₂, ha₂, haged.trans haged₂⟩
  own := by
    rw [hxy.pending]
    exact h.own

/-- The events of a record stay. -/
theorem held (h : x.Noted n) {e : EventRow} (he : e ∈ n.events) : e ∈ x.pending.events := by
  obtain ⟨new, hnew, -⟩ := h.events
  rw [hnew]
  exact List.mem_append_left _ he

theorem moved (h : x.Noted n) (hne : n.events ≠ []) : x.pending.events ≠ [] := by
  obtain ⟨e, he⟩ := List.exists_mem_of_ne_nil _ hne
  exact List.ne_nil_of_mem (h.held he)

/-- A transaction has kept the joins that its record keeps. -/
theorem keepsJoins (h : x.Noted n) (hkeeps : ∀ e ∈ n.events, KeepsJoins e.eventType) (hkinds : n.kinds = KeepsJoins) :
    ∀ e ∈ x.pending.events, KeepsJoins e.eventType := by
  obtain ⟨new, hnew, hall⟩ := h.events
  rw [hnew]
  exact fun e he => (List.mem_append.1 he).elim (hkeeps e) fun he => hkinds ▸ hall e he

/-- A statement adds its event to the record, and the row that it completes. -/
theorem performs {own : ActivityRow → Prop} (h : x.Noted n) (hq : perform supply q x = .ok (b, x'))
    (hkinds : ∀ e ∈ q.appended supply.now, n.kinds e.eventType)
    (hown : ∀ a ∈ x'.pending.activities, a.status = .completed → a ∈ x.pending.activities ∨
      q.completes = some (a.id, a.result) → own a) : x'.Noted { n with own := own } where
  consistent := consistent_of_perform h.consistent hq
  foreign := by
    rw [elsewhere_of_perform hq, rows_of_perform hq]
    exact h.foreign
  snapshot := by
    rw [rows_of_perform hq]
    exact h.snapshot
  id := by
    rw [rows_of_perform hq]
    exact h.id
  alone := by
    rw [rows_of_perform hq]
    exact h.alone
  events := by
    obtain ⟨new, hnew, hall⟩ := h.events
    refine ⟨new ++ q.appended supply.now, by rw [events_of_perform hq, hnew, List.append_assoc], fun e he => ?_⟩
    exact (List.mem_append.1 he).elim (hall e) (hkinds e)
  seen a ha := by
    obtain ⟨a₁, ha₁, haged⟩ := h.seen a ha
    obtain ⟨a₂, ha₂, haged₂⟩ := aged_of_perform h.consistent hq ha₁
    exact ⟨a₂, ha₂, haged.trans haged₂⟩
  own a ha hs := hown a ha hs (completed_of_perform h.consistent hq ha hs)

/-- A statement that completes nothing. -/
theorem keeps (h : x.Noted n) (hq : perform supply q x = .ok (b, x')) (hcompletes : q.completes = none)
    (hkinds : ∀ e ∈ q.appended supply.now, n.kinds e.eventType) : x'.Noted n :=
  h.performs hq hkinds fun a _ hs hold => by
    rw [hcompletes] at hold
    exact h.own a (hold.resolve_right nofun) hs

/-- A statement that neither appends nor completes. -/
theorem plain (h : x.Noted n) (hq : perform supply q x = .ok (b, x')) (hplain : q.isPlain = true) : x'.Noted n := by
  obtain ⟨happended, hcompletes⟩ := writes_of_plain supply.now hplain
  refine h.keeps hq hcompletes ?_
  rw [happended]
  exact List.forall_mem_nil _

/-- A row comes into view. -/
theorem see (h : x.Noted n) {a : ActivityRow} (ha : a ∈ x.view.activities) : x.Noted { n with seen := (· = a) } :=
  { h with seen := fun b hb => ⟨a, ha, by rw [hb]; exact .refl a⟩ }

/-- A transaction that has appended starts a new record. -/
theorem rebase (h : x.Noted n) (own : ActivityRow → Prop) (kinds : EventType → Prop)
    (hown : ∀ a ∈ x.pending.activities, a.status = .completed → own a) :
    x.Noted ⟨x.rows, x.pending.events, n.seen, own, kinds⟩ where
  consistent := h.consistent
  foreign := h.foreign
  snapshot := rfl
  id := rfl
  alone _ := rfl
  events := ⟨[], by simp, List.forall_mem_nil _⟩
  seen := h.seen
  own := hown

end Standing.Noted

/-- What is built from plain statements and appends of the kinds on record keeps the record. -/
theorem withstands_noted {α : Type} {p : Prog α} {P : Uuid → Prop} (h : p.BuiltFrom (Block n.kinds) P)
    (hx : x.Noted n) : p.Withstands (perform supply) queueing (fun _ t => t.Noted n) x := by
  refine h.keeps (I := fun t : Standing => t.Noted n) (fun _ _ hst hs => hs.awaits hst) ?_ (fun _ _ _ _ => trivial) hx
  intro γ q hq s hs
  cases hq with
  | stmt hplain => exact .stmt fun t hst _ _ hok u htu => ((hs.awaits hst).plain hok hplain).awaits htu
  | append payload key ht =>
    refine Withstands.andThen (.stmt fun t hst _ _ hok u htu => ((hs.awaits hst).plain hok rfl).awaits htu)
      fun seq t hs => ?_
    refine .stmt fun t hst _ _ hok u htu => (((hs.awaits hst).keeps hok rfl ?_)).awaits htu
    simpa [Stmt.appended] using ht

/-- An append of a kind on record leaves its event. -/
theorem withstands_appended {t : EventType} {payload : Json} {key : Option String} (ht : n.kinds t) (hx : x.Noted n) :
    (append t payload key).Withstands (perform supply) queueing
      (fun _ y => y.Noted n ∧ ∃ seq, ⟨seq, t, payload, key, supply.now⟩ ∈ y.pending.events) x := by
  refine Withstands.andThen (withstands_noted (P := fun _ => True) (built_stmt rfl) hx) fun seq t hs => ?_
  refine .stmt fun t hst _ t' hok u htu => ⟨(((hs.awaits hst).keeps hok rfl ?_)).awaits htu, seq, ?_⟩
  · simpa [Stmt.appended] using ht
  · rw [htu.pending, events_of_perform hok]
    exact List.mem_append_right _ (by simp [Stmt.appended])

/-- A statement that only reads, with what it says of the rows that its transaction sees then. -/
theorem withstands_read {post : β → Prop} (hplain : q.isPlain = true) (hx : x.Noted n)
    (hpost : ∀ (t : Standing) (b : β) (t' : Standing), t.Noted n → perform supply q t = .ok (b, t') → post b) :
    (stmt q : Prog β).Withstands (perform supply) queueing (fun b t => t.Noted n ∧ post b) x :=
  .stmt fun t hst b t' hok _ htu =>
    ⟨((hx.awaits hst).plain hok hplain).awaits htu, hpost t b t' (hx.awaits hst) hok⟩

/-- A check beside the rows. -/
theorem withstands_checked {result : Except FlowError β} (hx : x.Noted n) :
    (Program.ofExcept result : Prog β).Withstands (perform supply) queueing (fun b t => t.Noted n ∧ result = .ok b) x :=
  .ofExcept fun _ hb _ htu => ⟨hx.awaits htu, hb⟩

/-- The definition that a transaction reads. -/
theorem withstands_loadSnapshot (hx : x.Noted n) :
    (stmt .loadSnapshot : Prog DefinitionSnapshot).Withstands (perform supply) queueing
      (fun snapshot t => t.Noted n ∧ snapshot = n.base.snapshot) x := by
  refine withstands_read rfl hx fun t b t' ht hok => ?_
  obtain ⟨tx, htx, -⟩ := perform_ok.1 hok
  cases htx
  exact ht.snapshot

/-- A transaction whose record, kept to the end, says that it has looked. -/
def Standing.Concluded (svc : WorkflowService) (x : Standing) : Prop :=
  ∃ n : Notes, x.Noted n ∧ ∀ y : Standing, y.Noted n → y.Looked svc

/-- A transaction that completes nothing has no join to look at. -/
theorem Standing.Noted.idle (h : x.Noted n) (hown : ∀ a, ¬ n.own a) : x.Concluded svc :=
  ⟨n, h, fun _ hy a ha hacc => absurd (hy.own a ha (ActivityRow.accepted_status hacc)) (hown a)⟩

/-- What appends nothing leaves the conclusion. -/
theorem withstands_concluded {α : Type} {p : Prog α} {P : Uuid → Prop} (h : ∀ kinds, p.BuiltFrom (Block kinds) P)
    (hx : x.Concluded svc) : p.Withstands (perform supply) queueing (fun _ t => t.Concluded svc) x := by
  obtain ⟨n, hn, hlooked⟩ := hx
  exact (withstands_noted (h n.kinds) hn).mono fun _ t ht => ⟨n, ht, hlooked⟩

end

section
variable {svc : WorkflowService} {supply : Supply} {x : Standing} {n : Notes} {ctx : InstanceCtx} {row : ActivityRow}
  {join : WorkflowNode} {expected : Int} {ids : List String}

/-- The count of arrivals: what the transaction has completed by then is one arrival more than is committed. -/
private theorem withstands_count (hx : x.Noted n) (hevents : n.events ≠ []) (hown : ∀ a, n.own a → Aged row a)
    (hcounted : row.activityDefinitionId ∈ ids) :
    (stmt (.countCompletedBranches ids row.round) : Prog Int).Withstands (perform supply) queueing
      (fun arrived t => ∃ own : ActivityRow → Prop, t.Noted { n with own := own } ∧ (∀ a, own a → Aged row a) ∧
        ∀ a, own a → a.accepted = true → arrived = n.base.countCompletedBranches ids row.round + 1) x := by
  refine .stmt fun t hst arrived t' hok u htu => ?_
  have ht := hx.awaits hst
  refine ⟨fun a => n.own a ∧ a ∈ t.pending.activities,
    Standing.Noted.awaits (ht.performs hok (List.forall_mem_nil _) ?_) htu, fun a ha => hown a ha.1,
    fun a ha hacc => ?_⟩
  · intro a _ hs hheld
    have ha : a ∈ t.pending.activities := hheld.resolve_right nofun
    exact ⟨ht.own a ha hs, ha⟩
  · obtain rfl : arrived = t.view.countCompletedBranches ids row.round := by
      obtain ⟨tx, htx, -⟩ := perform_ok.1 hok
      cases htx
      rfl
    have haged := hown a ha.1
    have harrives : InstanceRows.isArrival ids row.round a = true := by
      simp only [ActivityRow.accepted, Bool.and_eq_true] at hacc
      simp [InstanceRows.isArrival, hacc, haged.round, haged.node, hcounted]
    rw [← ht.alone hevents]
    refine ht.consistent.count_one ha.2 harrives fun b hb hbacc => ?_
    exact (hown b (ht.own b hb (ActivityRow.accepted_status hbacc))).id.trans haged.id.symm

/-- What a join says of its branches, when a transaction among the others evaluates it. -/
private theorem withstands_joinExpectation (hx : x.Noted n) (hevents : n.events ≠ [])
    (hkeeps : ∀ e ∈ n.events, KeepsJoins e.eventType) (hkinds : n.kinds = KeepsJoins)
    (hbranch : n.base.Branch svc join expected ids row) (hsnapshot : ctx.snapshot = n.base.snapshot) :
    (WorkflowService.joinExpectation ctx row.round join).Withstands (perform supply) queueing
      (fun found t => t.Noted n ∧ found = (expected, ids)) x := by
  have hread : (stmt (.forEachBranchCount join.id row.round) : Prog (Option Int)).Withstands (perform supply) queueing
      (fun dynamic t => t.Noted n ∧ n.base.forEachBranchCount join.id row.round = .ok dynamic) x := by
    refine withstands_read rfl hx fun t dynamic t' ht hok => ?_
    have hsame : t.view.forEachBranchCount join.id row.round = t.rows.forEachBranchCount join.id row.round :=
      InstanceRows.forEachBranchCount_append rfl (ht.keepsJoins hkeeps hkinds) _ _
    obtain ⟨tx, htx, -⟩ := perform_ok.1 hok
    simp only [exec] at htx
    rw [hsame, ht.alone hevents] at htx
    split at htx
    · next found hfound =>
      cases htx
      exact hfound
    · cases htx
  refine hread.andThen fun dynamic t hpost => ?_
  obtain ⟨ht, hdynamic⟩ := hpost
  refine (withstands_checked ht).mono fun found u hpost => ?_
  obtain ⟨hu, hfound⟩ := hpost
  refine ⟨hu, ?_⟩
  have hexpects := hbranch.expects
  rw [InstanceRows.branchesExpected, hdynamic] at hexpects
  rw [hsnapshot] at hfound
  exact Except.ok.inj (hfound.symm.trans hexpects)

/-- A branch looks at its join. -/
private theorem withstands_trySatisfyJoin {next : AdvanceOutcome → ResolveTrace → Prog Unit} {exclude : Option Uuid}
    {P : Uuid → Prop} (hx : x.Noted n) (hevents : n.events ≠ []) (hkeeps : ∀ e ∈ n.events, KeepsJoins e.eventType)
    (hkinds : n.kinds = KeepsJoins) (hown : ∀ a, n.own a → Aged row a)
    (hbranch : n.base.Branch svc join expected ids row)
    (hsnapshot : ctx.snapshot = n.base.snapshot)
    (hnext : ∀ outcome trace, (next outcome trace).BuiltFrom (Block fun _ => True) P) :
    (svc.trySatisfyJoin next ctx row.round join exclude).Withstands (perform supply) queueing
      (fun _ t => t.Concluded svc) x := by
  refine (withstands_joinExpectation hx hevents hkeeps hkinds hbranch hsnapshot).andThen fun found t hpost => ?_
  obtain ⟨ht, hfound⟩ := hpost
  subst hfound
  refine (withstands_count ht hevents hown hbranch.counted).andThen fun arrived t hpost => ?_
  obtain ⟨own, ht, hown, harrived⟩ := hpost
  have hlooked : ∀ {y : Standing}, y.rows = n.base → (∀ a ∈ y.pending.activities, a.status = .completed → own a) →
      y.pending.events ≠ [] →
      (arrived < expected ∧ (∀ e ∈ y.pending.events, KeepsJoins e.eventType) ∨
        expected ≤ arrived ∧ ∃ e ∈ y.pending.events, e.firesJoin join.id row.round = true) → y.Looked svc := by
    intro y hrows hheld hne hlook a ha hacc
    have haown := hheld a ha (ActivityRow.accepted_status hacc)
    have haged := hown a haown
    refine ⟨hne, fun b hb hbacc => ?_, fun join' expected' ids' hbranch' => ?_⟩
    · exact (hown b (hheld b hb (ActivityRow.accepted_status hbacc))).id.trans haged.id.symm
    · rw [hrows] at hbranch' ⊢
      obtain ⟨rfl, rfl, rfl⟩ := hbranch.unique ((InstanceRows.Branch.aged_iff haged).1 hbranch')
      rw [haged.round, ← harrived a haown hacc]
      exact hlook
  split
  · next hsatisfied =>
    have hexpected : expected ≤ arrived := by simpa [hbranch.waitAll, JoinStrategy.isSatisfied] using hsatisfied
    have hmoved := ht.moved hevents
    have hrecord := ht.rebase own (fun _ => True) ht.own
    refine (withstands_appended trivial hrecord).andThen fun _ y hpost => ?_
    obtain ⟨hy, seq, hfired⟩ := hpost
    have hne : y.pending.events ≠ [] := List.ne_nil_of_mem hfired
    have hrecord := hy.rebase own (fun _ => True) hy.own
    refine (withstands_noted (P := P) ?_ hrecord).mono fun _ u hu => ⟨_, hu, fun v hv => ?_⟩
    · exact .bind (.whenever _ (WorkflowService.built_skipRemaining trivial)) fun _ => hnext _ _
    · have hrows := (hv.alone hne).trans ((hy.alone hmoved).trans (ht.alone hevents))
      exact hlooked hrows hv.own (hv.moved hne)
        (.inr ⟨hexpected, _, hv.held hfired, firesJoin_fired seq supply.now join.id arrived expected row.round⟩)
  · next hwaits =>
    have hexpected : arrived < expected := by simpa [hbranch.waitAll, JoinStrategy.isSatisfied] using hwaits
    refine (withstands_noted (P := P) (built_stmt rfl) ht).mono fun _ u hu => ⟨_, hu, fun v hv => ?_⟩
    exact hlooked (hv.alone hevents) hv.own (hv.moved hevents) (.inl ⟨hexpected, hv.keepsJoins hkeeps hkinds⟩)

/-- A transaction that has completed its activity, and appended, applies the outcome. -/
private theorem withstands_applied {fuel : Nat} {signal : SignalType} {i : Uuid} (hx : x.Noted n)
    (hkeeps : ∀ e ∈ n.events, KeepsJoins e.eventType) (hkinds : n.kinds = KeepsJoins) (hmoved : x.pending.events ≠ [])
    (hown : ∀ a, n.own a → Aged row a)
    (hsnapshot : ctx.snapshot = n.base.snapshot)
    (hsignal : ∀ a join expected ids, n.own a → a.accepted = true → x.rows.Branch svc join expected ids a →
      ∃ node, findNode ctx.snapshot.nodes row.activityDefinitionId = some node ∧
        completionSignal node.kind = some signal) :
    (svc.applyOutcome ctx (row.intoModel i) row.round fuel
      (decideAdvance svc.cel ctx.snapshot.nodes ctx.snapshot.transitions ctx.context row.activityDefinitionId signal).1
      (decideAdvance svc.cel ctx.snapshot.nodes ctx.snapshot.transitions ctx.context row.activityDefinitionId
        signal).2).Withstands (perform supply) queueing (fun _ t => t.Concluded svc) x := by
  by_cases hbranch : ∃ a join expected ids, n.own a ∧ a.accepted = true ∧ x.rows.Branch svc join expected ids a
  · obtain ⟨a, join, expected, ids, ha, hacc, hbranch⟩ := hbranch
    obtain ⟨node, hnode, hcompletion⟩ := hsignal a join expected ids ha hacc hbranch
    have hbranch := (InstanceRows.Branch.aged_iff (hown a ha)).1 hbranch
    have hkeeps := hx.keepsJoins hkeeps hkinds
    have hsame : ctx.snapshot = x.rows.snapshot := hsnapshot.trans hx.snapshot.symm
    obtain ⟨node', signal', hnode', hcompletion', hadvance⟩ := hbranch.leads ctx.context
    rw [← hsame] at hnode' hadvance
    obtain rfl : node' = node := Option.some.inj ((findNode_eq_some_iff.2 hnode').symm.trans hnode)
    obtain rfl : signal' = signal := Option.some.inj (hcompletion'.symm.trans hcompletion)
    rw [hadvance]
    cases fuel with
    | zero => trivial
    | succ fuel =>
      refine fun t hst => ⟨trivial, ?_⟩
      have ht := (hx.rebase n.own KeepsJoins hx.own).awaits hst
      have hpassed : KeepsJoins .mergePassed := ⟨nofun, nofun⟩
      have hreached : KeepsJoins .branchReachedJoin := ⟨nofun, nofun⟩
      refine (withstands_noted (P := (· = (row.intoModel i).id)) (WorkflowService.built_appendMerges hpassed)
        ht).andThen fun _ t ht => ?_
      have hfound : ctx.node join.id = .ok join := by simp [InstanceCtx.node, hsame, hbranch.found]
      show Withstands _ _ _ (Program.ofExcept (ctx.node join.id) >>= _) t
      rw [hfound]
      refine Withstands.bind fun u htu => ?_
      dsimp only
      rw [if_pos (by simp [hbranch.kind])]
      refine (withstands_noted (P := (· = (row.intoModel i).id)) (built_append hreached) (ht.awaits htu)).andThen
        fun _ t ht => ?_
      exact withstands_trySatisfyJoin ht hmoved hkeeps rfl hown hbranch hsame fun _ _ =>
        WorkflowService.built_applyOutcome fun _ => trivial
  · refine (withstands_noted (WorkflowService.built_applyOutcome fun _ => trivial)
      (hx.rebase n.own (fun _ => True) hx.own)).mono fun _ t ht => ⟨_, ht, fun v hv a ha hacc => ?_⟩
    have haown := hv.own a ha (ActivityRow.accepted_status hacc)
    refine ⟨?_, fun b hb hbacc => ?_, fun join expected ids hjoin => ?_⟩
    · exact hv.moved hmoved
    · exact (hown b (hv.own b hb (ActivityRow.accepted_status hbacc))).id.trans (hown a haown).id.symm
    · exact absurd ⟨a, join, expected, ids, haown, hacc, by rwa [hv.alone hmoved] at hjoin⟩ hbranch

variable {fuel : Nat} {i : Uuid}

/-- An activity that is loaded is a row in view, or it belongs to another instance and no row in view has its id. -/
private theorem withstands_loadActivity {id : Uuid} (hx : x.Noted n) :
    (stmt (.loadActivity id) : Prog (Option ActivityInstance)).Withstands (perform supply) queueing
      (fun found t => t.Noted n ∧ ∀ activity, found = some activity →
        (∃ row i, activity = row.intoModel i ∧ t.Noted { n with seen := (· = row) }) ∨
          activity.workflowInstanceId ≠ n.base.inst.id ∧ ∀ row, n.seen row → row.id ≠ id) x := by
  refine .stmt fun t hst found t' hok u htu => ?_
  have ht := hx.awaits hst
  refine ⟨(ht.plain hok rfl).awaits htu, fun activity hactivity => ?_⟩
  obtain ⟨tx, htx, -⟩ := perform_ok.1 hok
  cases htx
  unfold Tx.loadActivity at hactivity
  split at hactivity
  · next row hrow =>
    exact .inl ⟨row, _, (Option.some.inj hactivity).symm,
      ((ht.see (List.mem_of_find?_eq_some hrow)).plain hok rfl).awaits htu⟩
  · next hnone =>
    refine .inr ⟨ht.id ▸ ht.foreign id activity hactivity, fun row hrow hid => ?_⟩
    obtain ⟨a, ha, haged⟩ := ht.seen row hrow
    have hother := List.find?_eq_none.1 hnone a ha
    simp [haged.id, hid] at hother

/-- The target of a signal is a row in view. -/
private theorem withstands_resolveTarget {cmd : SignalCommand} (hx : x.Noted n)
    (hid : cmd.instanceId = n.base.inst.id) :
    (resolveTargetActivity cmd).Withstands (perform supply) queueing
      (fun activity t => ∃ row i, activity = row.intoModel i ∧ t.Noted { n with seen := (· = row) }) x := by
  unfold resolveTargetActivity
  split
  · refine (withstands_loadActivity hx).andThen fun found t hpost => ?_
    obtain ⟨_, hfound⟩ := hpost
    cases found with
    | none => trivial
    | some activity =>
      dsimp only
      split
      · trivial
      next howner =>
      split
      · trivial
      rcases hfound activity rfl with ⟨row, i, hactivity, ht⟩ | ⟨hother, -⟩
      · exact fun u htu => ⟨row, i, hactivity, ht.awaits htu⟩
      · exact absurd (by simpa [hid] using howner) hother
  · have hread : (stmt .activeActivities : Prog (List ActivityInstance)).Withstands (perform supply) queueing
        (fun active t => ∀ activity ∈ active, ∃ row i, activity = row.intoModel i ∧
          t.Noted { n with seen := (· = row) }) x := by
      refine .stmt fun t hst active t' hok u htu activity hactivity => ?_
      obtain ⟨tx, htx, -⟩ := perform_ok.1 hok
      cases htx
      obtain ⟨row, hrow, rfl⟩ := List.mem_map.1 hactivity
      exact ⟨row, _, rfl, (((hx.awaits hst).see (List.mem_filter.1 hrow).1).plain hok rfl).awaits htu⟩
    refine hread.andThen fun active t hactive => ?_
    rcases active with _ | ⟨activity, _ | _⟩
    · trivial
    · obtain ⟨row, i, hactivity, ht⟩ := hactive activity (List.mem_singleton.2 rfl)
      exact fun u htu => ⟨row, i, hactivity, ht.awaits htu⟩
    · trivial

private theorem withstands_contextWrites {node : WorkflowNode} {round : Int} {patch : Option Json} (hx : x.Noted n)
    (hupdated : n.kinds .contextUpdated) :
    (applyContextWrites ctx node round patch).Withstands (perform supply) queueing
      (fun ctx' t => t.Noted n ∧ ctx'.snapshot = ctx.snapshot) x := by
  unfold applyContextWrites
  split
  · exact fun t hst => ⟨hx.awaits hst, rfl⟩
  split
  · refine (withstands_noted (P := fun _ => True) (.ofExcept _) hx).andThen fun filtered t ht => ?_
    refine (withstands_noted (P := fun _ => True) (built_stmt rfl) ht).andThen fun merged t ht => ?_
    refine (withstands_noted (P := fun _ => True) (built_append hupdated) ht).andThen fun _ t ht => ?_
    exact fun u htu => ⟨ht.awaits htu, rfl⟩
  · trivial

/-- The completion of an activity in view. -/
private theorem withstands_cas {result : Option Int} {actor : Int} {notes : Option String} (hx : x.Noted n)
    (hidle : ∀ a, ¬ n.own a) (hseen : n.seen row) :
    (stmt (.completeActivityCas row.id result actor notes) : Prog Bool).Withstands (perform supply) queueing
      (fun _ t => t.Noted { n with own := fun a => a.result = result ∧ Aged row a }) x := by
  refine .stmt fun t hst hit t' hok u htu => ?_
  have ht := hx.awaits hst
  refine (ht.performs hok (List.forall_mem_nil _) fun a ha hs hheld => ?_).awaits htu
  rcases hheld with hheld | hcompletes
  · exact absurd (ht.own a hheld hs) (hidle a)
  obtain ⟨hid, rfl⟩ := Prod.mk.inj (Option.some.inj hcompletes)
  obtain ⟨a₁, ha₁, haged₁⟩ := ht.seen row hseen
  obtain ⟨a₂, ha₂, haged₂⟩ := aged_of_perform ht.consistent hok ha₁
  have haged := haged₁.trans haged₂
  have hconsistent := consistent_of_perform ht.consistent hok
  obtain rfl : a₂ = a := List.inj_on_of_nodup_map hconsistent.view_nodup ha₂ (hconsistent.mem_view.2 (.inl ha))
    (haged.id.trans hid)
  exact ⟨rfl, haged⟩

/-- A signal completes its activity and looks at the join that this leads to. -/
private theorem concludes_signalAdvance (cmd : SignalCommand) (status : WorkflowStatus) {node : WorkflowNode}
    (hx : x.Noted n) (hkeeps : ∀ e ∈ n.events, KeepsJoins e.eventType) (hkinds : n.kinds = KeepsJoins)
    (hidle : ∀ a, ¬ n.own a)
    (hseen : n.seen row) (hsnapshot : ctx.snapshot = n.base.snapshot)
    (hnode : findNode ctx.snapshot.nodes row.activityDefinitionId = some node)
    (hcheck : checkSignalAgainstNode node cmd.signal cmd.eventType = .ok ()) (hclaim : cmd.signal ≠ .claimed)
    (hreassign : cmd.signal ≠ .reassigned) :
    (svc.signalAdvance fuel cmd status ctx (row.intoModel i) node).Withstands (perform supply) queueing
      (fun _ t => t.Concluded svc) x := by
  have hkind : ∀ {t : EventType}, KeepsJoins t → n.kinds t := fun ht => hkinds ▸ ht
  refine (withstands_contextWrites hx (hkind ⟨nofun, nofun⟩)).andThen fun ctx' t hpost => ?_
  obtain ⟨ht, hsame⟩ := hpost
  rw [← hsame] at hsnapshot hnode
  refine (withstands_appended (t := .signalReceived) (hkind ⟨nofun, nofun⟩) ht).andThen
    fun _ t hpost => ?_
  obtain ⟨ht, seq, hreceived⟩ := hpost
  -- from here on nobody else commits
  have hmoved : t.pending.events ≠ [] := List.ne_nil_of_mem hreceived
  have hkeeps := ht.keepsJoins hkeeps hkinds
  rw [ht.snapshot.symm] at hsnapshot
  have ht := ht.rebase n.own KeepsJoins ht.own
  have hcompleted : (completeActivity (row.intoModel i) (signalResult cmd.signal) cmd.actorUserId
      cmd.reviewNotes).Withstands (perform supply) queueing (fun _ u => u.Noted ⟨t.rows, t.pending.events, n.seen,
        fun a => a.result = (signalResult cmd.signal).bind activityResultFromStr ∧ Aged row a, KeepsJoins⟩) t := by
    refine (withstands_cas ht hidle hseen).andThen fun hit u hu => ?_
    split
    · exact withstands_noted (P := fun _ => True) (.bind (built_stmt rfl) fun _ => built_append ⟨nofun, nofun⟩) hu
    · trivial
  refine hcompleted.andThen fun _ u hu => ?_
  have hresumed : KeepsJoins .reworkResumed := ⟨nofun, nofun⟩
  refine (withstands_noted (P := fun _ => True) (built_resumeIfWaiting hresumed) hu).andThen fun _ u hu => ?_
  refine (withstands_applied hu hkeeps rfl (hu.moved hmoved) (fun _ ha => ha.2) hsnapshot ?_).andThen fun _ u hu => ?_
  · intro a _ _ _ ha hacc _
    refine ⟨node, hnode, (completionSignal_of_check hcheck hclaim hreassign).resolve_right fun hbad => ?_⟩
    rcases hbad with hbad | hbad <;> simp [ActivityRow.accepted, ha.1, hbad] at hacc
  · exact withstands_concluded (P := fun _ => True)
      (fun _ => .bind built_reload fun _ => .bind (built_stmt rfl) fun _ => .pure _) hu

private theorem concludes_signal (cmd : SignalCommand) (hx : x.Noted n) (hnone : n.events = [])
    (hkinds : n.kinds = KeepsJoins) (hidle : ∀ a, ¬ n.own a) (hid : cmd.instanceId = n.base.inst.id) :
    (svc.signal fuel cmd).Withstands (perform supply) queueing (fun _ t => t.Concluded svc) x := by
  have hkind : ∀ {t : EventType}, KeepsJoins t → n.kinds t := fun ht => hkinds ▸ ht
  have hrest : ∀ {α : Type} {p : Prog α} {t : Standing} {m : Notes}, t.Noted m → (∀ a, ¬ m.own a) →
      p.BuiltFrom (Block m.kinds) (fun _ => True) →
        p.Withstands (perform supply) queueing (fun _ u => u.Concluded svc) t :=
    fun ht hidle hp => (withstands_noted hp ht).mono fun _ _ hu => hu.idle hidle
  unfold WorkflowService.signal
  split
  · trivial
  refine (withstands_noted (P := fun _ => True) (built_stmt rfl) hx).andThen fun found t ht => ?_
  cases found with
  | none => trivial
  | some inst =>
    refine (withstands_noted (P := fun _ => True) (built_stmt rfl) ht).andThen fun seen t ht => ?_
    split
    · exact hrest ht hidle (.bind (built_stmt rfl) fun _ => .pure _)
    unfold WorkflowService.signalFresh
    split
    · trivial
    refine (withstands_loadSnapshot ht).andThen fun snapshot t hpost => ?_
    obtain ⟨ht, hsnapshot⟩ := hpost
    subst hsnapshot
    refine (withstands_resolveTarget ht hid).andThen fun activity t hpost => ?_
    obtain ⟨row, i, hactivity, ht⟩ := hpost
    subst hactivity
    refine (withstands_checked ht).andThen fun node t hpost => ?_
    obtain ⟨ht, hnode⟩ := hpost
    have hnode := (InstanceCtx.node_ok hnode).1
    refine (withstands_checked ht).andThen fun _ t hpost => ?_
    obtain ⟨ht, hcheck⟩ := hpost
    split
    · exact hrest ht hidle (built_signalAssignee (hkind ⟨nofun, nofun⟩))
    · next hs =>
      simp only [Bool.or_eq_true, beq_iff_eq, not_or] at hs
      refine concludes_signalAdvance cmd inst.status ht ?_ hkinds hidle rfl rfl hnode hcheck hs.1 hs.2
      simp [hnone]

private theorem concludes_onNotificationDelivered {id : Uuid} (hx : x.Noted n) (hnone : n.events = [])
    (hkinds : n.kinds = KeepsJoins) (hidle : ∀ a, ¬ n.own a) (hseen : ∃ a, n.seen a ∧ a.id = id) :
    (svc.onNotificationDelivered fuel id).Withstands (perform supply) queueing (fun _ t => t.Concluded svc) x := by
  have hreturn : ∀ {t : Standing} {m : Notes}, t.Noted m → (∀ a, ¬ m.own a) →
      (pure () : Prog Unit).Withstands (perform supply) queueing (fun _ u => u.Concluded svc) t :=
    fun ht hidle u htu => (ht.awaits htu).idle hidle
  refine (withstands_noted (P := fun _ => True) (built_stmt rfl) hx).andThen fun inst t ht => ?_
  cases inst with
  | none => exact hreturn ht hidle
  | some inst =>
    dsimp only
    split
    · exact hreturn ht hidle
    refine (withstands_loadActivity ht).andThen fun found t hpost => ?_
    obtain ⟨ht, hfound⟩ := hpost
    cases found with
    | none => exact hreturn ht hidle
    | some activity =>
      dsimp only
      split
      · exact hreturn ht hidle
      next hdelivers =>
      obtain ⟨a, ha, hid⟩ := hseen
      obtain ⟨row, i, rfl, ht⟩ := (hfound activity rfl).resolve_right fun hother => hother.2 a ha hid
      have htype : row.activityType = .notification := by
        simp only [Bool.or_eq_true, bne_iff_ne, ne_eq, not_or, Decidable.not_not] at hdelivers
        exact hdelivers.2
      refine (withstands_loadSnapshot ht).andThen fun snapshot t hpost => ?_
      obtain ⟨ht, hsnapshot⟩ := hpost
      subst hsnapshot
      refine (withstands_cas ht hidle rfl).andThen fun _ t ht => ?_
      refine (withstands_noted (P := fun _ => True) (built_stmt rfl) ht).andThen fun _ t ht => ?_
      refine (withstands_appended (t := .activityCompleted) (hkinds ▸ ⟨nofun, nofun⟩) ht).andThen
        fun _ t hpost => ?_
      obtain ⟨ht, seq, hcompleted⟩ := hpost
      refine withstands_applied ht (by simp [hnone]) hkinds (List.ne_nil_of_mem hcompleted) (fun _ ha => ha.2) rfl ?_
      intro b join expected ids hb _ hbranch
      obtain ⟨node, hnode, hnodeType⟩ := hbranch.typed
      rw [hb.2.node, ht.snapshot] at hnode
      rw [hb.2.type, htype] at hnodeType
      refine ⟨node, hnode, ?_⟩
      cases hkind : node.kind <;> simp [hkind, instantiatedActivityType] at hnodeType
      rfl

end

/-- A signal, or the delivery of a notification. -/
def Task.completes : Task → Bool
  | .call (.signal _) | .call (.onNotificationDelivered _) => true
  | _ => false

/-- A transaction that completes a branch concludes that it has looked at the join. -/
theorem Task.concludes {svc : WorkflowService} {fuel : Nat} {rows : InstanceRows} {task : Task} {p : Prog Unit}
    {supply : Supply} {e : Elsewhere} (hp : task.program svc fuel rows = some p) (htask : task.completes = true)
    (hrows : (rows.activities.map ActivityRow.id).Nodup) (he : e.Foreign rows.inst.id) :
    p.Withstands (perform supply) queueing (fun _ t => t.Concluded svc) ⟨rows, e, .none, 0⟩ := by
  have hconsistent : Pending.none.Consistent rows := .none hrows
  have hx : (⟨rows, e, .none, 0⟩ : Standing).Noted ⟨rows, [], (· ∈ rows.activities), fun _ => False, KeepsJoins⟩ :=
    { consistent := hconsistent
      foreign := he
      snapshot := rfl
      id := rfl
      alone := fun hne => absurd rfl hne
      events := ⟨[], rfl, List.forall_mem_nil _⟩
      seen := fun a ha => ⟨a, hconsistent.mem_view.2 (.inr ⟨ha, fun _ hb => absurd hb List.not_mem_nil⟩), .refl a⟩
      own := fun _ ha => absurd ha List.not_mem_nil }
  cases task with
  | call call =>
    cases call with
    | signal cmd =>
      simp only [program, Option.ite_none_right_eq_some] at hp
      obtain ⟨hid, hp⟩ := hp
      cases hp
      refine (concludes_signal cmd hx rfl rfl (fun _ => not_false) hid).andThen fun _ t hpost => ?_
      obtain ⟨n, hn, hlooked⟩ := hpost
      exact fun u htu => ⟨n, hn.awaits htu, hlooked⟩
    | onNotificationDelivered id =>
      simp only [program, Option.ite_none_right_eq_some] at hp
      obtain ⟨hany, hp⟩ := hp
      cases hp
      obtain ⟨a, ha, hid⟩ := List.any_eq_true.1 hany
      exact concludes_onNotificationDelivered hx rfl rfl (fun _ => not_false) ⟨a, ha, by simpa using hid⟩
    | _ => cases htask
  | _ => cases htask

/-- A transaction of the instance that concludes that it has looked at the join, whatever the others do. -/
structure Session.Bound (svc : WorkflowService) (s : Session) (instanceId : Uuid) (rows : InstanceRows) : Prop where
  inst : (s.view rows).inst.id = instanceId
  goesOn : ∀ e : Elsewhere, e.Foreign instanceId →
    s.prog.Withstands (perform s.supply) queueing (fun _ t => t.Concluded svc) (s.standing rows e)

namespace Session.Bound
variable {svc : WorkflowService} {s s' : Session} {instanceId : Uuid} {rows rows' : InstanceRows} {e : Elsewhere}

theorem advance (h : s.Bound svc instanceId rows) (hid : rows.inst.id = instanceId) (he : e.Foreign instanceId)
    (hstep : s.advance rows e = some s') : s'.Bound svc instanceId rows := by
  have helsewhere : ∀ e' : Elsewhere, e'.Foreign instanceId → (s'.standing rows e).Awaits (s'.standing rows e') :=
    fun e' he' => { queueing.refl (s'.standing rows e) with foreign := fun _ => hid ▸ he' }
  obtain ⟨-, hsupply, ⟨m, hp, -, hsame⟩ | ⟨β, q, next, b, hp, hp', -, hperform⟩⟩ := Session.of_advance hstep
  · have hwithstands := h.goesOn e he
    rw [hp, ← hsame] at hwithstands
    have hinst := h.inst
    rw [show s.view rows = s'.view rows from congrArg Standing.view hsame.symm] at hinst
    refine ⟨hinst, fun e' he' => ?_⟩
    rw [hsupply]
    exact (hwithstands _ (queueing.refl _)).2.interferes (helsewhere e' he')
  · have hwithstands := h.goesOn e he
    rw [hp] at hwithstands
    have hinst : (s'.view rows).inst.id = (s.view rows).inst.id := instance_of_perform hperform
    refine ⟨hinst.trans h.inst, fun e' he' => ?_⟩
    rw [hsupply, hp']
    exact (hwithstands _ (queueing.refl _) b _ hperform).interferes (helsewhere e' he')

/-- What the others commit beside it. -/
theorem awaits (h : s.Bound svc instanceId rows) (hid : rows'.inst.id = instanceId)
    (hawaits : ∀ e : Elsewhere, e.Foreign instanceId → (s.standing rows e).Awaits (s.standing rows' e)) :
    s.Bound svc instanceId rows' := by
  refine ⟨?_, fun e he => (h.goesOn e he).interferes (hawaits e he)⟩
  have hinst : (s.pending.inst.getD rows.inst).id = instanceId := h.inst
  show (s.pending.inst.getD rows'.inst).id = instanceId
  cases hheld : s.pending.inst with
  | none => exact hid
  | some i =>
    rw [hheld] at hinst
    exact hinst

/-- A transaction that is done has looked. -/
theorem looked {u : Unit} (h : s.Bound svc instanceId rows) (hdone : s.prog = .done u) :
    (s.standing rows ⟨fun _ => none, false⟩).Looked svc := by
  have hnone : Elsewhere.Foreign ⟨fun _ => none, false⟩ instanceId := fun _ _ ha => by cases ha
  have hwithstands := h.goesOn _ hnone
  rw [hdone] at hwithstands
  obtain ⟨n, hn, hlooked⟩ := hwithstands _ (queueing.refl _)
  exact hlooked _ hn

end Session.Bound

/-- The transaction has completed a branch of the join in the round: an activity of the instance at a node that the
join counts, and whose completion leads there. -/
def Session.CompletesBranch (svc : WorkflowService) (s : Session) (start : InstanceRows) (join : String) (round : Int)
    (ids : List String) : Prop :=
  ∃ b ∈ start.activities, b.round = round ∧ b.activityDefinitionId ∈ ids ∧
    start.Feeds svc b.activityDefinitionId join ∧ ∃ a ∈ s.pending.activities, a.id = b.id ∧ a.accepted = true

/-- Does the transaction append an event of this type? -/
def Session.appends (s : Session) (t : EventType) : Bool := s.pending.events.any (·.eventType == t)

/-- The transactions are signals and deliveries, and what they meet elsewhere belongs to other instances. -/
def Database.Completing (instanceId : Uuid) (_ : Database) : Turn → Prop
  | .begins _ _ _ task => task.completes = true
  | .runs _ e => e.Foreign instanceId
  | _ => True

/-- Transactions on the rows of an instance that look at joins, one after the other. -/
structure Database.Races (svc : WorkflowService) (start : InstanceRows) (db : Database) : Prop where
  queues : db.Queues start.nextSeq
  kept : db.Kept
  snapshot : db.rows.snapshot = start.snapshot
  id : db.rows.inst.id = start.inst.id
  aged : ∀ a ∈ start.activities, ∃ a' ∈ db.rows.activities, Aged a a'
  sessions : ∀ o ∈ db.sessions, o.2.Bound svc start.inst.id db.rows

namespace Database.Races
variable {svc : WorkflowService} {start : InstanceRows} {db db' : Database} {k : Nat} {s : Session} {u : Unit}
  {join : WorkflowNode} {round expected : Int} {ids : List String}

/-- A transaction that is done with a branch has appended, so the others have not, and wait for it. -/
private theorem commits (h : db.Races svc start) (hs : (k, s) ∈ db.sessions) (hdone : s.prog = .done u)
    (hbranch : s.CompletesBranch svc start join.id round ids) :
    ∀ o ∈ db.others k, ∀ e : Elsewhere, e.Foreign start.inst.id →
      (o.2.standing db.rows e).Awaits (o.2.standing (s.view db.rows) e) := by
  intro o ho e he
  obtain ⟨ho, hne⟩ := Database.mem_others.1 ho
  have hconsistent := h.kept.sessions _ hs
  obtain ⟨b, -, -, -, -, a, ha, -, hacc⟩ := hbranch
  have hmoved := ((h.sessions _ hs).looked hdone a ha hacc).1
  have hnone : o.2.pending.events = [] := (h.queues.alone o ho _ hs hne).resolve_right hmoved
  exact
    { pending := rfl
      consistent := fun hheld => hheld.commit hconsistent (h.kept.apart o ho _ hs hne)
      foreign := fun _ => (h.sessions _ hs).inst.symm ▸ he
      snapshot := rfl
      id := (h.sessions _ hs).inst.trans h.id.symm
      aged := fun a ha => by
        obtain ⟨a', ha', hid⟩ : ∃ a' ∈ (s.view db.rows).activities, a'.id = a.id := exists_overlay ha
        exact ⟨a', ha', hconsistent.aged ha' ha hid.symm⟩
      alone := fun hmoved => absurd hnone hmoved }

theorem step (h : db.Races svc start) {turn : Turn} (hstep : (readCommitted svc true).step db turn db')
    (hturn : db.Completing start.inst.id turn)
    (hbranches : ∀ o ∈ db'.committed, o.2.CompletesBranch svc start join.id round ids) : db'.Races svc start := by
  have hnext : db.next svc turn = some db' := (db.nextUnder_true svc turn).symm.trans hstep
  have hqueues := h.queues.step hnext
  have hkept := h.kept.step hstep
  cases turn with
  | begins k supply fuel task =>
    obtain ⟨-, -, p, hp, rfl⟩ := Database.next_begins.1 hnext
    have hbound : Session.Bound svc ⟨task, supply, p, 0, .none, []⟩ start.inst.id db.rows :=
      ⟨h.id, fun e he => Task.concludes hp hturn h.kept.nodup (h.id.symm ▸ he)⟩
    exact { h with queues := hqueues, kept := hkept, sessions := List.forall_mem_cons.2 ⟨hbound, h.sessions⟩ }
  | runs k e =>
    obtain ⟨s, s', hs, hadvance, -, rfl⟩ := Database.next_runs.1 hnext
    refine { h with queues := hqueues, kept := hkept, sessions := List.forall_mem_cons.2 ⟨?_, fun o ho => ?_⟩ }
    · exact (h.sessions _ (Database.mem_of_session hs)).advance h.id hturn hadvance
    · exact h.sessions o (Database.mem_others.1 ho).1
  | commits k =>
    obtain ⟨s, u, hs, hdone, rfl⟩ := Database.next_commits.1 hnext
    have hs := Database.mem_of_session hs
    have hid := (h.sessions _ hs).inst
    refine ⟨hqueues, hkept, h.snapshot, hid, fun a ha => ?_, fun o ho => ?_⟩
    · obtain ⟨b, hb, hab⟩ := h.aged a ha
      obtain ⟨c, hc, hcid⟩ : ∃ c ∈ (s.view db.rows).activities, c.id = b.id := exists_overlay hb
      exact ⟨c, hc, hab.trans ((h.kept.sessions _ hs).aged hc hb hcid.symm)⟩
    · exact (h.sessions o (Database.mem_others.1 ho).1).awaits hid
        (h.commits hs hdone (hbranches _ List.mem_cons_self) o ho)
  | aborts k =>
    obtain ⟨-, rfl⟩ := Database.next_aborts.1 hnext
    have hsessions : ∀ o ∈ db.others k, o.2.Bound svc start.inst.id db.rows :=
      fun o ho => h.sessions o (Database.mem_others.1 ho).1
    exact { h with queues := hqueues, kept := hkept, sessions := hsessions }

end Database.Races

/-- The WaitAll join that the branches lead to, with its expected count and branch nodes in the round. -/
structure InstanceRows.Awaited (start : InstanceRows) (join : WorkflowNode) (round expected : Int)
    (ids : List String) : Prop where
  found : findNode start.snapshot.nodes join.id = some join
  kind : join.kind = .parallelJoin
  waitAll : join.joinStrategy.getD .waitAll = .waitAll
  expects : start.branchesExpected join.id round = .ok (expected, ids)

/-- How far the join has got: one arrival for each committed transaction, no firing before the expected count, and one
transaction that has made it fire once the count is reached. -/
structure Database.Tally (start : InstanceRows) (join : String) (round expected : Int) (ids : List String)
    (db : Database) : Prop where
  count : db.rows.countCompletedBranches ids round = start.countCompletedBranches ids round + db.committed.length
  waits : start.countCompletedBranches ids round + db.committed.length < expected →
    db.rows.branchesExpected join round = .ok (expected, ids) ∧
      ∀ o ∈ db.committed, ∀ e ∈ o.2.pending.events, KeepsJoins e.eventType
  fired : db.committed ≠ [] → start.countCompletedBranches ids round + db.committed.length = expected →
    db.committed.countP (fun o => o.2.appends .parallelJoinSatisfied) = 1 ∧
      ∃ o ∈ db.committed, ∃ e ∈ o.2.pending.events, e.firesJoin join round = true

namespace Database.Tally
variable {svc : WorkflowService} {start : InstanceRows} {db : Database} {k : Nat} {s : Session} {u : Unit}
  {join : WorkflowNode} {round expected : Int} {ids : List String}

/-- A transaction that has made the join fire stands alone among those that have left it waiting. -/
private theorem count_fired {o : Nat × Session} {rest : List (Nat × Session)}
    (hrest : ∀ p ∈ rest, ∀ e ∈ p.2.pending.events, KeepsJoins e.eventType) {e : EventRow} (he : e ∈ o.2.pending.events)
    (hfires : e.firesJoin join.id round = true) :
    (o :: rest).countP (fun o => o.2.appends .parallelJoinSatisfied) = 1 := by
  have hnone : rest.countP (fun o => o.2.appends .parallelJoinSatisfied) = 0 := by
    refine List.countP_eq_zero.2 fun p hp happends => ?_
    obtain ⟨x, hx, htype⟩ := List.any_eq_true.1 happends
    exact (hrest p hp x hx).2 (by simpa using htype)
  have hone : o.2.appends .parallelJoinSatisfied = true := by
    simp only [EventRow.firesJoin, Bool.and_eq_true] at hfires
    exact List.any_eq_true.2 ⟨e, he, hfires.1.1⟩
  simp [hnone, hone]

theorem commits (h : db.Tally start join.id round expected ids) (hraces : db.Races svc start)
    (hstart : WellFormed svc start) (hjoin : start.Awaited join round expected ids) (hs : (k, s) ∈ db.sessions)
    (hdone : s.prog = .done u) (hbranch : s.CompletesBranch svc start join.id round ids) :
    (⟨s.view db.rows, db.others k, (k, s) :: db.committed⟩ : Database).Tally start join.id round expected ids := by
  have hconsistent := hraces.kept.sessions _ hs
  obtain ⟨b, hb, hround, hcounted, hleads, a, ha, hid, hacc⟩ := hbranch
  obtain ⟨hmoved, honly, hlooked⟩ := (hraces.sessions _ hs).looked hdone a ha hacc
  -- what was completed is the branch of the start
  obtain ⟨b', hb', hbb'⟩ := hraces.aged b hb
  have haged : Aged b a := hbb'.trans (hconsistent.versions a ha b' hb' (hbb'.id.trans hid.symm)).2
  have harrives : InstanceRows.isArrival ids round a = true := by
    have haccepted := hacc
    simp only [ActivityRow.accepted, Bool.and_eq_true] at haccepted
    simp [InstanceRows.isArrival, haccepted, haged.round, haged.node, hround, hcounted]
  have hcount : (s.view db.rows).countCompletedBranches ids round =
      db.rows.countCompletedBranches ids round + 1 := hconsistent.count_one ha harrives honly
  have hlook : start.countCompletedBranches ids round + db.committed.length < expected →
      db.rows.countCompletedBranches ids round + 1 < expected ∧ (∀ e ∈ s.pending.events, KeepsJoins e.eventType) ∨
        expected ≤ db.rows.countCompletedBranches ids round + 1 ∧
          ∃ e ∈ s.pending.events, e.firesJoin join.id round = true := by
    intro hlt
    have hbranch : db.rows.Branch svc join expected ids a := by
      refine (InstanceRows.Branch.aged_iff haged).2 ⟨?_, ?_, ?_, hjoin.kind, hjoin.waitAll, ?_, hcounted⟩
      · rw [hraces.snapshot]
        exact hstart.nodes b hb
      · unfold InstanceRows.Feeds
        rw [hraces.snapshot]
        exact hleads
      · rw [hraces.snapshot]
        exact hjoin.found
      · rw [hround]
        exact (h.waits hlt).1
    have hlook := hlooked join expected ids hbranch
    rw [haged.round, hround] at hlook
    exact hlook
  have hlength : ((k, s) :: db.committed).length = db.committed.length + 1 := rfl
  constructor
  · show (s.view db.rows).countCompletedBranches ids round = _
    rw [hcount, h.count, hlength]
    omega
  · intro hlt
    rw [hlength] at hlt
    have hbefore : start.countCompletedBranches ids round + db.committed.length < expected := by omega
    obtain ⟨hexpects, hkeeps⟩ := h.waits hbefore
    rcases hlook hbefore with ⟨-, hown⟩ | ⟨hle, -⟩
    · refine ⟨?_, List.forall_mem_cons.2 ⟨hown, hkeeps⟩⟩
      have hsame : (s.view db.rows).forEachBranchCount join.id round = db.rows.forEachBranchCount join.id round :=
        InstanceRows.forEachBranchCount_append rfl hown join.id round
      rw [← hexpects]
      unfold InstanceRows.branchesExpected
      rw [hsame]
      rfl
    · rw [h.count] at hle
      omega
  · intro _ hall
    rw [hlength] at hall
    have hbefore : start.countCompletedBranches ids round + db.committed.length < expected := by omega
    rcases hlook hbefore with ⟨hlt, -⟩ | ⟨-, e, he, hfires⟩
    · rw [h.count] at hlt
      omega
    · exact ⟨count_fired (h.waits hbefore).2 he hfires, (k, s), List.mem_cons_self, e, he, hfires⟩

end Database.Tally

section
variable {svc : WorkflowService} {store : Store} {start : InstanceRows} {db : Database} {join : WorkflowNode}
  {round expected : Int} {ids : List String}

/-- A run of transactions that complete branches of the join. -/
private theorem tally_of_run (hstart : WellFormed svc start) (hjoin : start.Awaited join round expected ids)
    (hrun : (readCommitted svc true).RunIf (Database.Completing start.inst.id) ⟨start, [], []⟩ db)
    (hbranches : ∀ o ∈ db.committed, o.2.CompletesBranch svc start join.id round ids) :
    db.Races svc start ∧ db.Tally start join.id round expected ids := by
  induction hrun with
  | refl =>
    refine ⟨⟨⟨Int.le_refl _, fun n hn hlt => absurd hlt (Int.not_lt.2 hn), by simp, by simp⟩,
      ⟨hstart.ids_nodup, by simp, by simp, by simp, by simp⟩, rfl, rfl, fun a ha => ⟨a, ha, .refl a⟩, by simp⟩, ?_⟩
    exact ⟨by simp, fun _ => ⟨hjoin.expects, by simp⟩, by simp⟩
  | @step db db' turn _ hstep hturn ih =>
    have hnext : db.next svc turn = some db' := (db.nextUnder_true svc turn).symm.trans hstep
    have hbefore : ∀ o ∈ db.committed, o ∈ db'.committed := by
      cases turn with
      | begins =>
        obtain ⟨-, -, p, -, rfl⟩ := Database.next_begins.1 hnext
        exact fun o ho => ho
      | runs =>
        obtain ⟨s, s', -, -, -, rfl⟩ := Database.next_runs.1 hnext
        exact fun o ho => ho
      | commits =>
        obtain ⟨s, u, -, -, rfl⟩ := Database.next_commits.1 hnext
        exact fun o ho => List.mem_cons_of_mem _ ho
      | aborts =>
        obtain ⟨-, rfl⟩ := Database.next_aborts.1 hnext
        exact fun o ho => ho
    obtain ⟨hraces, htally⟩ := ih fun o ho => hbranches o (hbefore o ho)
    refine ⟨hraces.step hstep hturn hbranches, ?_⟩
    cases turn with
    | begins =>
      obtain ⟨-, -, p, -, rfl⟩ := Database.next_begins.1 hnext
      exact ⟨htally.count, htally.waits, htally.fired⟩
    | runs =>
      obtain ⟨s, s', -, -, -, rfl⟩ := Database.next_runs.1 hnext
      exact ⟨htally.count, htally.waits, htally.fired⟩
    | commits k =>
      obtain ⟨s, u, hs, hdone, rfl⟩ := Database.next_commits.1 hnext
      exact htally.commits hraces hstart hjoin (Database.mem_of_session hs) hdone (hbranches _ List.mem_cons_self)
    | aborts =>
      obtain ⟨-, rfl⟩ := Database.next_aborts.1 hnext
      exact ⟨htally.count, htally.waits, htally.fired⟩

/-- In every interleaving at READ COMMITTED with unique event numbers, of signals and deliveries that complete the
branches a WaitAll join still waits for, one transaction that commits makes it fire. -/
theorem last_branch_fires (h : (engine svc).Reachable store) (hr : start ∈ store)
    (hjoin : start.Awaited join round expected ids)
    (hrun : (readCommitted svc true).RunIf (Database.Completing start.inst.id) ⟨start, [], []⟩ db)
    (hbranches : ∀ o ∈ db.committed, o.2.CompletesBranch svc start join.id round ids) (hsome : db.committed ≠ [])
    (hall : start.countCompletedBranches ids round + db.committed.length = expected) :
    db.committed.countP (fun o => o.2.appends .parallelJoinSatisfied) = 1 ∧
      ∃ o ∈ db.committed, ∃ e ∈ o.2.pending.events, e.firesJoin join.id round = true :=
  (tally_of_run ((wellFormed_of_reachable h).rows start hr) hjoin hrun hbranches).2.fired hsome hall

end

namespace Sample

/-- The service of a definition that splits into an approval and a notification. -/
def splitService : WorkflowService := service "1e9d580c7eb0cea61bc196cb77f4aa543702715b692f0d13a5359f9ba227ad13"

/-- An instance that waits for both. -/
def split : Store :=
  played splitService 9
    [start (definition [approval "a", node "s" (.parallelSplit ["x", "n"]), approval "x",
        node "n" (.notification ⟨some "notice", some (.role "manager" none), [], [], none, none, none⟩),
        node "j" (.parallelJoin .waitAll)]
      [approved "a" "s", approved "x" "j", ⟨"n", "j", .completed⟩, approved "j" "end"]) none,
    approve (uuid 0 1)]

/-- The notification is delivered up to the number of its event, then the approval is given, and the delivery goes
on. -/
def bothGiven : List Turn :=
  .begins 0 (Supply.nth 2) 9 (.call (.onNotificationDelivered (uuid 1 1))) :: List.replicate 5 (.runs 0 elsewhere) ++
    .begins 1 (Supply.nth 3) 9 (.call (.signal ⟨⟨1, .allInTenant⟩, uuid 0 0, .approved, some (uuid 1 0),
      "approved:" ++ uuid 1 0, 7, none, none, none, none⟩)) :: List.replicate 18 (.runs 1 elsewhere) ++
    .commits 1 :: List.replicate 14 (.runs 0 elsewhere) ++ [.commits 0]

end Sample

open Sample in
/-- The delivery commits last, and makes the join fire. -/
theorem last_branch_fires_delivered : ∃ start ∈ split, ∃ db,
    (readCommitted splitService true).RunIf (Database.Completing start.inst.id) ⟨start, [], []⟩ db ∧
      db.committed.map Prod.fst = [0, 1] ∧
      db.committed.countP (fun o => o.2.appends .parallelJoinSatisfied) = 1 ∧
      ∃ o ∈ db.committed, ∃ e ∈ o.2.pending.events, e.firesJoin "j" 1 = true := by
  have hplay : ∃ start ∈ split,
      findNode start.snapshot.nodes "j" = some (node "j" (.parallelJoin .waitAll)) ∧
      (start.branchesExpected "j" 1).toOption = some (2, ["x", "n"]) ∧
      (∀ id ∈ ["x", "n"], start.snapshot.completionTarget id = some "j") ∧
      start.countCompletedBranches ["x", "n"] 1 = 0 ∧
      (System.play (Database.nextUnder splitService true) (fun _ _ => True) ⟨start, [], []⟩ bothGiven).any (fun db =>
        db.committed.map Prod.fst = [0, 1] ∧ ∀ o ∈ db.committed, ∃ b ∈ start.activities, b.round = 1 ∧
          b.activityDefinitionId ∈ ["x", "n"] ∧
            ∃ a ∈ o.2.pending.activities, a.id = b.id ∧ a.accepted = true) = true := by
    decide +kernel
  obtain ⟨start, hstart, hfound, hexpects, hleads, hnone, hplay⟩ := hplay
  obtain ⟨db, hrun, hend⟩ := (Option.any_eq_true _ _).1 hplay
  obtain ⟨hcommitted, hcompletes⟩ := of_decide_eq_true hend
  have hbranches : ∀ o ∈ db.committed, o.2.CompletesBranch splitService start "j" 1 ["x", "n"] := by
    intro o ho
    obtain ⟨b, hb, hround, hcounted, hcompleted⟩ := hcompletes o ho
    exact ⟨b, hb, hround, hcounted, .of_completionTarget (hleads _ hcounted) hfound rfl, hcompleted⟩
  have hrun : (readCommitted splitService true).RunIf (Database.Completing start.inst.id) ⟨start, [], []⟩ db := by
    refine .play (fun _ _ _ h => h) ?_ hrun
    simp [bothGiven, Database.Completing, Elsewhere.Foreign, elsewhere, Task.completes]
  have hexpects : start.branchesExpected "j" 1 = .ok (2, ["x", "n"]) := by
    revert hexpects
    cases start.branchesExpected "j" 1 <;> simp [Except.toOption]
  have hlength : db.committed.length = 2 := by simpa using congrArg List.length hcommitted
  refine ⟨start, hstart, db, hrun, hcommitted, ?_⟩
  have hjoin : start.Awaited (node "j" (.parallelJoin .waitAll)) 1 2 ["x", "n"] := ⟨hfound, rfl, rfl, hexpects⟩
  refine last_branch_fires (reachable_played ..) hstart hjoin hrun hbranches ?_ ?_
  · exact List.ne_nil_of_length_pos (by omega)
  · rw [hnone, hlength]
    rfl

end Fusions.Hetuflow
