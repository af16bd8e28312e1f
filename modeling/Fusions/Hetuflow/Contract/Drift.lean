import Mathlib.Data.List.Nodup
import Fusions.Hetuflow.Service.Script

/-! What an empty drift report says of a projection: it compares the activities by id, in all but two of the
canonical fields, and does not count them. -/
namespace Fusions.Hetuflow

section
variable (r : ReplayedProjection) (inst : WorkflowInstance) (live : List ActivityInstance)

/-- The canonical fields of the instance. -/
def InstanceAgrees : Prop :=
  r.instanceRow.status = inst.status ∧ r.instanceRow.currentActivityId = inst.currentActivityId ∧
    r.instanceRow.result = inst.result

/-- Every activity of one side under some id has one under it on the other side. -/
def SameIds : Prop := ∀ id, id ∈ r.activities.map ReplayedActivity.id ↔ id ∈ live.map ActivityInstance.id

/-- A relation between the activities that share an id. -/
def Paired (agrees : ReplayedActivity → ActivityInstance → Prop) : Prop :=
  ∀ ra ∈ r.activities, ∀ la ∈ live, ra.id = la.id → agrees ra la

end

/-- The canonical fields of an activity that the report compares. -/
def ReplayedActivity.ComparedAgree (ra : ReplayedActivity) (la : ActivityInstance) : Prop :=
  ra.status = la.status ∧ ra.result = la.result ∧ ra.round = la.round ∧ ra.assigneeRole = la.assigneeRole ∧
    ra.assigneeId = la.assigneeId ∧ ra.reviewNotes = la.reviewNotes ∧ ra.reviewedBy = la.reviewedBy

/-- The canonical fields of an activity that it does not. -/
def ReplayedActivity.OriginAgrees (ra : ReplayedActivity) (la : ActivityInstance) : Prop :=
  ra.activityDefinitionId = la.activityDefinitionId ∧ ra.activityType = la.activityType

/-- Agreement on all canonical fields but the timestamps: the instance, the ids one to one, and each pair. -/
structure CanonicallyAgree (r : ReplayedProjection) (inst : WorkflowInstance) (live : List ActivityInstance) : Prop where
  instanceRow : InstanceAgrees r inst
  ids : (r.activities.map ReplayedActivity.id).Perm (live.map ActivityInstance.id)
  activities : Paired r live fun ra la => ra.activityDefinitionId = la.activityDefinitionId ∧
    ra.activityType = la.activityType ∧ ra.status = la.status ∧ ra.assigneeRole = la.assigneeRole ∧
    ra.assigneeId = la.assigneeId ∧ ra.result = la.result ∧ ra.reviewNotes = la.reviewNotes ∧
    ra.reviewedBy = la.reviewedBy ∧ ra.round = la.round

section
variable {r : ReplayedProjection} {inst : WorkflowInstance} {live : List ActivityInstance} {id : String}
  {ra : ReplayedActivity} {la : ActivityInstance}

theorem diffActivity_eq_nil : diffActivity ra la = [] ↔ ra.ComparedAgree la := by
  simp [diffActivity, ReplayedActivity.ComparedAgree]

theorem liveById_eq_none : liveById live id = none ↔ id ∉ live.map ActivityInstance.id := by
  simp [liveById]

/-- Under distinct ids the map of the live rows loses none. -/
theorem liveById_eq_some (hlive : (live.map ActivityInstance.id).Nodup) (hla : la ∈ live) :
    liveById live la.id = some la := by
  cases hfind : liveById live la.id with
  | none => exact absurd (List.mem_map_of_mem hla) (liveById_eq_none.1 hfind)
  | some other =>
    have hid : other.id = la.id := by simpa using List.find?_some hfind
    have hother : other ∈ live := List.mem_reverse.1 (List.mem_of_find?_eq_some hfind)
    rw [List.inj_on_of_nodup_map hlive hother hla hid]

theorem diffReplayed_eq_nil (hlive : (live.map ActivityInstance.id).Nodup) :
    diffReplayed live ra = [] ↔
      ra.id ∈ live.map ActivityInstance.id ∧ ∀ la ∈ live, ra.id = la.id → ra.ComparedAgree la := by
  unfold diffReplayed
  cases hfind : liveById live ra.id with
  | none =>
    have hnone := liveById_eq_none.1 hfind
    simp [hnone]
  | some found =>
    have hid : found.id = ra.id := by simpa using List.find?_some hfind
    have hfound : found ∈ live := List.mem_reverse.1 (List.mem_of_find?_eq_some hfind)
    have hmem : ra.id ∈ live.map ActivityInstance.id := by
      rw [← hid]
      exact List.mem_map_of_mem hfound
    rw [diffActivity_eq_nil]
    constructor
    · intro hagree
      refine ⟨hmem, fun la hla heq => ?_⟩
      rw [heq, liveById_eq_some hlive hla] at hfind
      rwa [Option.some.inj hfind]
    · rintro ⟨-, hagree⟩
      exact hagree found hfound hid.symm

/-- The report is empty exactly when all it compares agrees. -/
theorem diffProjection_eq_nil (hlive : (live.map ActivityInstance.id).Nodup) :
    diffProjection r inst live = [] ↔
      InstanceAgrees r inst ∧ SameIds r live ∧ Paired r live ReplayedActivity.ComparedAgree := by
  have hmissing : ((live.filter fun la => !r.activities.any fun ra => ra.id == la.id).map
      fun la => s!"activity[{la.id}]: live 有但 replay 缺") = [] ↔
      ∀ la ∈ live, la.id ∈ r.activities.map ReplayedActivity.id := by
    simp [List.filter_eq_nil_iff]
  simp only [diffProjection, List.append_eq_nil_iff, diffField_eq_nil, List.flatMap_eq_nil_iff,
    diffReplayed_eq_nil hlive, hmissing]
  constructor
  · rintro ⟨⟨⟨⟨hstatus, hcurrent⟩, hresult⟩, hreplayed⟩, hmissing⟩
    refine ⟨⟨hstatus, hcurrent, hresult⟩, fun id => ⟨fun hid => ?_, fun hid => ?_⟩, ?_⟩
    · obtain ⟨ra, hra, rfl⟩ := List.mem_map.1 hid
      exact (hreplayed ra hra).1
    · obtain ⟨la, hla, rfl⟩ := List.mem_map.1 hid
      exact hmissing la hla
    · intro ra hra la hla hid
      exact (hreplayed ra hra).2 la hla hid
  · rintro ⟨⟨hstatus, hcurrent, hresult⟩, hids, hpaired⟩
    refine ⟨⟨⟨⟨hstatus, hcurrent⟩, hresult⟩, fun ra hra => ?_⟩, fun la hla => ?_⟩
    · exact ⟨(hids ra.id).1 (List.mem_map_of_mem hra), hpaired ra hra⟩
    · exact (hids la.id).2 (List.mem_map_of_mem hla)

/-- The canonical fields agree when what is compared does and what is not compared does as well. -/
theorem canonicallyAgree_iff (hlive : (live.map ActivityInstance.id).Nodup) :
    CanonicallyAgree r inst live ↔
      (InstanceAgrees r inst ∧ SameIds r live ∧ Paired r live ReplayedActivity.ComparedAgree) ∧
        (r.activities.map ReplayedActivity.id).Nodup ∧ Paired r live ReplayedActivity.OriginAgrees := by
  constructor
  · rintro ⟨hinstance, hids, hactivities⟩
    refine ⟨⟨hinstance, fun id => hids.mem_iff, fun ra hra la hla hid => ?_⟩, hids.nodup_iff.2 hlive,
      fun ra hra la hla hid => ?_⟩
    · obtain ⟨-, -, hstatus, hrole, hassignee, hresult, hnotes, hreviewer, hround⟩ := hactivities ra hra la hla hid
      exact ⟨hstatus, hresult, hround, hrole, hassignee, hnotes, hreviewer⟩
    · obtain ⟨hdefinition, htype, -⟩ := hactivities ra hra la hla hid
      exact ⟨hdefinition, htype⟩
  · rintro ⟨⟨hinstance, hids, hcompared⟩, hnodup, horigin⟩
    refine ⟨hinstance, (List.perm_ext_iff_of_nodup hnodup hlive).2 hids, fun ra hra la hla hid => ?_⟩
    obtain ⟨hstatus, hresult, hround, hrole, hassignee, hnotes, hreviewer⟩ := hcompared ra hra la hla hid
    obtain ⟨hdefinition, htype⟩ := horigin ra hra la hla hid
    exact ⟨hdefinition, htype, hstatus, hrole, hassignee, hresult, hnotes, hreviewer, hround⟩

/-- An empty report means agreement exactly when something compared differs, or the replayed ids are distinct and
the pairs agree on the definition id and the type. -/
theorem drift_report_complete_iff (r : ReplayedProjection) (inst : WorkflowInstance) (live : List ActivityInstance)
    (hlive : (live.map ActivityInstance.id).Nodup) :
    (diffProjection r inst live = [] ↔ CanonicallyAgree r inst live) ↔
      (¬ InstanceAgrees r inst ∨ ¬ SameIds r live ∨ ¬ Paired r live ReplayedActivity.ComparedAgree) ∨
        (r.activities.map ReplayedActivity.id).Nodup ∧ Paired r live ReplayedActivity.OriginAgrees := by
  rw [diffProjection_eq_nil hlive, canonicallyAgree_iff hlive]
  tauto

end

/-- An active instance at an approval of the node `a`, as its log has it. -/
private def replayedAt : ReplayedProjection :=
  ⟨⟨.active, some (Sample.uuid 0 1), none, some 0, none⟩,
    [⟨Sample.uuid 0 1, "a", .approval, .active, some "manager", none, none, none, none, none, 1⟩]⟩

private def liveRow : WorkflowInstance :=
  ⟨Sample.uuid 0 0, 1, "00000000-0000-4000-8000-00000000f001", "REF-1", "00000000-0000-4000-8000-00000000d001",
    "42", "order", .active, some (Sample.uuid 0 1), none, false, none, some 0, none⟩

/-- Its activity row, on a node. -/
private def liveActivity (node : String) : ActivityInstance :=
  ⟨Sample.uuid 0 1, 1, Sample.uuid 0 0, node, .approval, .active, some "manager", none, none, none, none, none, 1⟩

theorem drift_report_complete_iff_matching :
    diffProjection replayedAt liveRow [liveActivity "a"] = [] ↔
      CanonicallyAgree replayedAt liveRow [liveActivity "a"] := by
  refine (drift_report_complete_iff replayedAt liveRow [liveActivity "a"] (by decide)).2 (.inr ⟨by decide, ?_⟩)
  intro ra hra la hla _
  obtain rfl := List.mem_singleton.1 hra
  obtain rfl := List.mem_singleton.1 hla
  exact ⟨rfl, rfl⟩

/-- A live row moved to another node is reported as consistent. -/
theorem moved_row_unreported :
    ([liveActivity "b"].map ActivityInstance.id).Nodup ∧ diffProjection replayedAt liveRow [liveActivity "b"] = [] ∧
      ¬ CanonicallyAgree replayedAt liveRow [liveActivity "b"] := by
  refine ⟨by decide, by decide +kernel, fun h => ?_⟩
  have hdefinition := (h.activities _ (List.mem_singleton_self _) _ (List.mem_singleton_self _) rfl).1
  exact absurd hdefinition (by decide)

end Fusions.Hetuflow
