import Fusions.Hetuflow.Service.Statements
import Fusions.Hetuflow.Service.Script

/-! Starts of different tenants: what rows of other tenants decide about the outcome of a start. -/
namespace Fusions.Hetuflow
open Fusions.Library Program

/-- `start` in a session whose row-level security hides the rows that are not visible from `SELECT`. -/
def WorkflowService.startUnder (svc : WorkflowService) (visible : InstanceRows → Bool) (supply : Supply)
    (store : Store) (cmd : StartCommand) : Outcome FlowError (StartOutcome × Store) :=
  match svc.checkStart cmd with
  | .error e => .error e
  | .ok (entryId, entryRole) =>
    match insertInstanceOnConflict store supply cmd with
    | .error e => .error e
    | .ok none =>
      match Store.activeInstanceByBusinessKey (store.filter visible) cmd.businessKey cmd.businessType with
      | none => .error (.conflict
          s!"start conflicted on ({cmd.businessType}, {cmd.businessKey}) but no active instance is readable")
      | some r => .ok (⟨r.inst, false, r.models r.activeRows⟩, store)
    | .ok (some r) =>
      match (svc.startInserted cmd r.inst entryId entryRole).run (exec (store.env supply r.inst)) ⟨r, 1⟩ with
      | .ok (out, tx) => .ok (out, store ++ [tx.rows])
      | .error e => .error e
      | .diverge => .diverge

/-- Without row-level security it is `start`. -/
theorem startUnder_all (svc : WorkflowService) (supply : Supply) (store : Store) (cmd : StartCommand) :
    svc.startUnder (fun _ => true) supply store cmd = svc.start supply store cmd := by
  have hall : store.filter (fun _ => true) = store := List.filter_eq_self.2 fun _ _ => rfl
  unfold WorkflowService.startUnder
  rw [hall]
  rfl

/-- The same created flag, or the same error. -/
def SameKind : Outcome FlowError (StartOutcome × Store) → Outcome FlowError (StartOutcome × Store) → Prop
  | .ok (a, _), .ok (b, _) => a.created = b.created
  | .error e, .error e' => e = e'
  | .diverge, .diverge => True
  | _, _ => False

/-- A returned instance is of the tenant. -/
def ReturnsOwn (tenantId : Int) : Outcome FlowError (StartOutcome × Store) → Prop
  | .ok (out, _) => out.inst.tenantId = tenantId
  | _ => True

/-- The generated uuids are new. -/
def Supply.FreshIn (supply : Supply) (store : Store) : Prop :=
  ∀ r ∈ store, ∀ n, r.inst.id ≠ supply.uuid n ∧ ∀ a ∈ r.activities, a.id ≠ supply.uuid n

/-- An instance of another tenant is open under the business object of the command. -/
def Store.Taken (cmd : StartCommand) (store : Store) : Prop :=
  ∃ r ∈ store, r.isOpenFor cmd.businessKey cmd.businessType = true ∧ r.inst.tenantId ≠ cmd.tenantId

/-- And row-level security hides that instance. -/
def Store.TakenUnseen (visible : InstanceRows → Bool) (cmd : StartCommand) (store : Store) : Prop :=
  ∃ r ∈ store, r.isOpenFor cmd.businessKey cmd.businessType = true ∧ r.inst.tenantId ≠ cmd.tenantId ∧
    visible r = false

/-- No two instances of the store are open under one business object. -/
def Store.OpenOnce (store : Store) : Prop :=
  store.Pairwise fun a b => ∀ key type, a.isOpenFor key type = true → b.isOpenFor key type = false

section
variable {svc : WorkflowService} {env : Env}

theorem InstanceRows.isOpenFor_iff {r : InstanceRows} {key type : String} :
    r.isOpenFor key type = true ↔
      r.inst.businessKey = key ∧ r.inst.businessType = type ∧ r.inst.status.indexed = true := by
  simp [isOpenFor, and_assoc]

private theorem Call.Returns.opens {call : Call} {tx tx' : Tx} (h : call.Returns svc env tx tx') :
    tx'.rows.inst.identity = tx.rows.inst.identity ∧
      (tx'.rows.inst.status.indexed = true → tx.rows.inst.status.indexed = true ∨ env.openElsewhere = false) := by
  refine h.relates (R := fun s s' : Tx => s'.rows.inst.identity = s.rows.inst.identity ∧
    (s'.rows.inst.status.indexed = true → s.rows.inst.status.indexed = true ∨ env.openElsewhere = false))
    (fun _ => ⟨rfl, .inl⟩) (fun h k => ⟨k.1.trans h.1, fun hs => ?_⟩) fun q _ _ _ hq => ?_
  · rcases k.2 hs with hs | hclosed
    · exact h.2 hs
    · exact .inr hclosed
  · have hnext := nextVersion_of_exec q hq
    exact ⟨hnext.identity, hnext.indexed⟩

theorem openOnce_of_reachable {store : Store} (h : (engine svc).Reachable store) : store.OpenOnce := by
  refine h.invariant (P := Store.OpenOnce) ?_ ?_
  · rintro _ rfl
    exact .nil
  · intro s op s' hs hP hstep _
    cases hstep with
    | @start supply _ _ cmd _ hstart =>
      rcases start_returns hstart with ⟨r, -, -, rfl⟩ | ⟨hfree, -, r', hstarted, rfl⟩
      · exact hP
      · refine List.pairwise_append.2 ⟨hP, List.pairwise_singleton .., ?_⟩
        intro a ha b hb key type hopen
        rw [List.mem_singleton.1 hb]
        refine Bool.eq_false_iff.2 fun hnew => List.any_eq_false.1 hfree a ha ?_
        obtain ⟨entryId, entryRole, node, row, r₁, -, -, hsched, rfl⟩ := hstarted.rows
        have hinst : (r₁.pointTo row.id).inst.businessKey = r₁.inst.businessKey ∧
            (r₁.pointTo row.id).inst.businessType = r₁.inst.businessType := by
          unfold InstanceRows.pointTo
          split <;> exact ⟨rfl, rfl⟩
        obtain ⟨hkey, htype, -⟩ := InstanceRows.isOpenFor_iff.1 hnew
        rw [hinst.1, hsched.inst] at hkey
        rw [hinst.2, hsched.inst] at htype
        rw [show cmd.businessKey = key from hkey, show cmd.businessType = type from htype]
        exact hopen
    | @call supply pre post r r' call drawn hcall =>
      obtain ⟨hidentity, hindexed⟩ := Call.Returns.opens hcall
      simp only [WorkflowInstance.identity, Prod.mk.injEq] at hidentity
      have hopened : ∀ key type, r'.isOpenFor key type = true → r.isOpenFor key type = true ∨
          ∀ x ∈ pre ++ post, x.isOpenFor key type = false := by
        intro key type hopen
        obtain ⟨hkey, htype, hs⟩ := InstanceRows.isOpenFor_iff.1 hopen
        rw [hidentity.2.2.1] at hkey
        rw [hidentity.2.2.2] at htype
        rcases hindexed hs with hs | hclosed
        · exact .inl (InstanceRows.isOpenFor_iff.2 ⟨hkey, htype, hs⟩)
        · right
          rw [← hkey, ← htype]
          exact fun x hx => by simpa using List.any_eq_false.1 hclosed x hx
      rw [Store.OpenOnce, List.pairwise_append, List.pairwise_cons] at hP ⊢
      obtain ⟨hpre, ⟨hrpost, hpost⟩, hcross⟩ := hP
      refine ⟨hpre, ⟨fun b hb key type hopen => ?_, hpost⟩, fun a ha b hb key type hopen => ?_⟩
      · rcases hopened key type hopen with hold | hothers
        · exact hrpost b hb key type hold
        · exact hothers b (List.mem_append_right _ hb)
      · rcases List.mem_cons.1 hb with rfl | hb
        · refine Bool.eq_false_iff.2 fun hnew => ?_
          rcases hopened key type hnew with hold | hothers
          · exact absurd hold (by simp [hcross a ha r (List.mem_cons_self ..) key type hopen])
          · exact absurd hopen (by simp [hothers a (List.mem_append_left _ ha)])
        · exact hcross a ha b (List.mem_cons_of_mem _ hb) key type hopen

/-- One row is open under a business object. -/
private theorem Store.OpenOnce.eq {store : Store} (h : store.OpenOnce) {a b : InstanceRows} {key type : String}
    (ha : a ∈ store) (hb : b ∈ store) (hopen : a.isOpenFor key type = true) (hopen' : b.isOpenFor key type = true) :
    a = b := by
  induction h with
  | nil => cases ha
  | @cons x xs hx _ ih =>
    rcases List.mem_cons.1 ha with hax | hax
    · rcases List.mem_cons.1 hb with hbx | hbx
      · rw [hax, hbx]
      · rw [hax] at hopen
        exact absurd hopen' (by simp [hx b hbx key type hopen])
    · rcases List.mem_cons.1 hb with hbx | hbx
      · rw [hbx] at hopen'
        exact absurd hopen (by simp [hx a hax key type hopen'])
      · exact ih hax hbx

/-- Scheduling an activity succeeds when its id is new. -/
private theorem scheduleActivity_returns (svc : WorkflowService) (ctx : InstanceCtx) {node : WorkflowNode}
    (role : Option String) (round : Int) (fanout : Option FanoutMark) {tx : Tx} (hkind : node.kind ≠ .subWorkflow)
    (hfree : tx.activityIdTaken env (env.uuid tx.drawn) = false) :
    ∃ a tx', Program.Returns (exec env) (svc.scheduleActivity ctx node role round fanout) tx a tx' := by
  have hwhenever : ∀ (c : Bool) (id : Uuid) (kind : String) (s : Tx), ∃ s',
      Program.Returns (exec env) (whenever c (stmt (.scheduleTimer id kind)) : Prog Unit) s () s' := by
    intro c id kind s
    cases c with
    | false => exact ⟨s, (returns_whenever _ _ _ _ _ _).2 (.inr ⟨rfl, rfl⟩)⟩
    | true => exact ⟨_, (returns_whenever _ _ _ _ _ _).2 (.inl ⟨rfl, (returns_exec rfl _).2 ⟨rfl, rfl⟩⟩)⟩
  have hinsert : ∃ a s, Program.Returns (exec env)
      (stmt (.insertActivity ctx.tenantId node.id (instantiatedActivityType node.kind) role round) :
        Prog ActivityInstance) tx a s := by
    refine ⟨_, _, (returns_exec (v := ?_) (t := ?_) ?_ _).2 ⟨rfl, rfl⟩⟩
    rotate_left 2
    · rw [exec, Tx.insertActivity]
      simp only [hfree, Bool.false_eq_true, ↓reduceIte]
      rfl
  obtain ⟨a, t₁, hinsert⟩ := hinsert
  have hdeliver : ∀ s : Tx, ∃ s', Program.Returns (exec env) (svc.enqueueDelivery ctx node a) s () s' := by
    intro s
    unfold WorkflowService.enqueueDelivery
    split
    · exact ⟨_, (returns_exec rfl _).2 ⟨rfl, rfl⟩⟩
    · exact ⟨_, (returns_pure _ _ _ _ _).2 ⟨rfl, rfl⟩⟩
  have htimers : ∀ s : Tx, ∃ s', Program.Returns (exec env) (WorkflowService.scheduleTimers node a) s () s' := by
    intro s
    simp only [WorkflowService.scheduleTimers, returns_bind]
    obtain ⟨s₁, h₁⟩ := hwhenever node.slaSeconds.isSome a.id "reminder" s
    obtain ⟨s₂, h₂⟩ := hwhenever node.escalationConfig.isSome a.id "escalation" s₁
    obtain ⟨s₃, h₃⟩ := hwhenever (node.eventWait.any fun w => w.2.1.isSome) a.id "timeout" s₂
    exact ⟨s₃, (), s₁, h₁, (), s₂, h₂, h₃⟩
  unfold WorkflowService.scheduleActivity
  simp only [beq_iff_eq, hkind, ↓reduceIte, returns_bind, returns_append, returns_pure]
  obtain ⟨t₃, htimers⟩ := htimers (t₁.map (·.log env.now .activityScheduled
    (WorkflowService.scheduledPayload a node role round fanout) none))
  obtain ⟨t₄, hdeliver⟩ := hdeliver t₃
  exact ⟨a, t₄, a, t₁, hinsert, (), _, rfl, (), t₃, htimers, (), t₄, hdeliver, rfl, rfl⟩

/-- The entry node of a command that passes the checks. -/
private theorem entry_of_checkStart {cmd : StartCommand} {entryId : String} {entryRole : Option String}
    (h : svc.checkStart cmd = .ok (entryId, entryRole)) :
    ∃ node, findNode cmd.snapshot.nodes entryId = some node ∧ node.kind = .approval := by
  unfold WorkflowService.checkStart at h
  obtain ⟨⟨⟩, hvalid, h⟩ := bind_ok h
  split at h
  · cases h
  next entry hentry =>
  have hentry : decideStart cmd.snapshot.nodes = some (entryId, entryRole) := by
    rw [hentry]
    split at h
    · exact congrArg some (Except.ok.inj h)
    · obtain ⟨_, -, h⟩ := bind_ok h
      obtain ⟨_, -, h⟩ := bind_ok h
      exact congrArg some (Except.ok.inj h)
  obtain ⟨node, hnode, heq⟩ := Option.map_eq_some_iff.1 hentry
  obtain ⟨rfl, -⟩ := Prod.mk.inj heq
  exact ⟨node, (published_of_valid hvalid).findNode (List.mem_of_find?_eq_some hnode),
    by simpa using List.find?_some hnode⟩

/-- The part of a start after the insert succeeds, with an instance of the command's tenant. -/
private theorem startInserted_returns {supply : Supply} {store : Store} {cmd : StartCommand} {entryId : String}
    {entryRole : Option String} (h : svc.checkStart cmd = .ok (entryId, entryRole)) (hfresh : supply.FreshIn store) :
    ∃ out tx, Program.Returns (exec (store.env supply (insertedRows supply cmd).inst))
      (svc.startInserted cmd (insertedRows supply cmd).inst entryId entryRole) ⟨insertedRows supply cmd, 1⟩ out tx ∧
      out.created = true ∧ out.inst.tenantId = cmd.tenantId := by
  obtain ⟨node, hnode, hkind⟩ := entry_of_checkStart h
  have hfree : ∀ id, (∃ n, id = supply.uuid n) → store.findActivity id = none := by
    rintro id ⟨n, rfl⟩
    refine List.findSome?_eq_none_iff.2 fun r hr => ?_
    rw [Option.map_eq_none_iff, List.find?_eq_none]
    exact fun a ha => by simpa using (hfresh r hr n).2 a ha
  let env := store.env supply (insertedRows supply cmd).inst
  let ctx := InstanceCtx.mk (insertedRows supply cmd).inst.id cmd.tenantId cmd.facilityId cmd.snapshot cmd.context
    cmd.businessType cmd.businessKey cmd.referenceNo
  have hctxnode : ctx.node entryId = .ok node := by
    unfold InstanceCtx.node
    simp only [ctx, hnode]
  let logged := (Tx.mk (insertedRows supply cmd) 1).map (·.log env.now .started
    (startedPayload cmd (svc.definitionHash cmd.snapshot)) none)
  have hid : logged.activityIdTaken env (env.uuid logged.drawn) = false := by
    simp only [Tx.activityIdTaken, Bool.or_eq_false_iff, Option.isSome_eq_false_iff, Option.isNone_iff_eq_none]
    exact ⟨rfl, hfree _ ⟨1, rfl⟩⟩
  obtain ⟨a, t₁, hsched⟩ := scheduleActivity_returns svc ctx entryRole 1 none (by rw [hkind]; exact fun h => by cases h) hid
  obtain ⟨t₂, hpoint⟩ : ∃ t₂, Program.Returns (exec env) (stmt (.updateCurrentActivity a.id) : Prog Bool) t₁
      (t₁.rows.inst.status == .active) t₂ := ⟨_, (returns_exec rfl _).2 ⟨rfl, rfl⟩⟩
  have hrun : Program.Returns (exec env) (svc.startInserted cmd (insertedRows supply cmd).inst entryId entryRole)
      ⟨insertedRows supply cmd, 1⟩ ⟨t₂.rows.inst, true, t₂.rows.models t₂.rows.activeRows⟩ t₂ := by
    simp only [WorkflowService.startInserted, returns_bind, returns_append, returns_ofExcept, returns_reload,
      returns_pure]
    exact ⟨(), _, rfl, node, _, ⟨hctxnode, rfl⟩, a, t₁, hsched, _, t₂, hpoint, _, _, ⟨rfl, rfl⟩, _, t₂,
      (returns_exec rfl _).2 ⟨rfl, rfl⟩, rfl, rfl⟩
  refine ⟨_, _, hrun, rfl, ?_⟩
  have hidentity : t₂.rows.inst.identity = (insertedRows supply cmd).inst.identity :=
    hrun.relates (exec env) (R := fun s s' : Tx => s'.rows.inst.identity = s.rows.inst.identity) (fun _ => rfl)
      (fun h k => k.trans h) fun q _ _ _ hq => (nextVersion_of_exec q hq).identity
  simp only [WorkflowInstance.identity, Prod.mk.injEq] at hidentity
  exact hidentity.2.1

variable {visible : InstanceRows → Bool} {supply supply₁ supply₂ : Supply} {store store₁ store₂ : Store}
  {cmd : StartCommand} {entry : String × Option String}

/-- Beside an open instance a start returns that instance, or finds it unreadable. -/
theorem startUnder_of_open (hcheck : svc.checkStart cmd = .ok entry) (honce : store.OpenOnce)
    {r : InstanceRows} (hr : r ∈ store) (hopen : r.isOpenFor cmd.businessKey cmd.businessType = true) :
    svc.startUnder visible supply store cmd =
      if visible r then .ok (⟨r.inst, false, r.models r.activeRows⟩, store)
      else .error (.conflict
        s!"start conflicted on ({cmd.businessType}, {cmd.businessKey}) but no active instance is readable") := by
  have hinsert : insertInstanceOnConflict store supply cmd = .ok none := by
    rw [insertInstanceOnConflict, if_pos (List.any_eq_true.2 ⟨r, hr, hopen⟩)]
  unfold WorkflowService.startUnder
  simp only [hcheck, hinsert]
  unfold Store.activeInstanceByBusinessKey
  split
  · next hnone =>
    rw [if_neg]
    intro hvisible
    exact List.find?_eq_none.1 hnone r (List.mem_filter.2 ⟨hr, hvisible⟩) hopen
  · next x hx =>
    obtain ⟨hmem, hvisible⟩ := List.mem_filter.1 (List.mem_of_find?_eq_some hx)
    obtain rfl := honce.eq hmem hr (List.find?_some hx) hopen
    rw [if_pos hvisible]

/-- Where nothing is open a start creates an instance of its tenant. -/
private theorem startUnder_of_free (visible : InstanceRows → Bool) (hcheck : svc.checkStart cmd = .ok entry) (hfresh : supply.FreshIn store)
    (hfree : ∀ r ∈ store, r.isOpenFor cmd.businessKey cmd.businessType = false) :
    ∃ out store', svc.startUnder visible supply store cmd = .ok (out, store') ∧ out.created = true ∧
      out.inst.tenantId = cmd.tenantId := by
  have hinsert : insertInstanceOnConflict store supply cmd = .ok (some (insertedRows supply cmd)) := by
    rw [insertInstanceOnConflict, if_neg, if_neg]
    · intro hany
      obtain ⟨r, hr, hid⟩ := List.any_eq_true.1 hany
      exact (hfresh r hr 0).1 (by simpa using hid)
    · intro hany
      obtain ⟨r, hr, hopen⟩ := List.any_eq_true.1 hany
      exact absurd hopen (by simp [hfree r hr])
  obtain ⟨out, tx, hrun, hcreated, htenant⟩ := startInserted_returns hcheck hfresh
  refine ⟨out, store ++ [tx.rows], ?_, hcreated, htenant⟩
  unfold WorkflowService.startUnder
  simp only [hcheck, hinsert]
  rw [hrun]

private theorem mem_of_own (hown : store₁.filter (fun r => r.inst.tenantId == cmd.tenantId) =
      store₂.filter (fun r => r.inst.tenantId == cmd.tenantId)) {r : InstanceRows} (hr : r ∈ store₁)
    (htenant : r.inst.tenantId = cmd.tenantId) : r ∈ store₂ := by
  have : r ∈ store₂.filter fun r => r.inst.tenantId == cmd.tenantId := by
    rw [← hown]
    exact List.mem_filter.2 ⟨hr, by simpa using htenant⟩
  exact (List.mem_filter.1 this).1

/-- Two starts that end alike, neither with an instance of another tenant. -/
def Isolated (cmd : StartCommand) (o₁ o₂ : Outcome FlowError (StartOutcome × Store)) : Prop :=
  SameKind o₁ o₂ ∧ ReturnsOwn cmd.tenantId o₁ ∧ ReturnsOwn cmd.tenantId o₂

private theorem Isolated.symm {o₁ o₂ : Outcome FlowError (StartOutcome × Store)} (h : Isolated cmd o₁ o₂) :
    Isolated cmd o₂ o₁ := by
  refine ⟨?_, h.2.2, h.2.1⟩
  have hsame := h.1
  cases o₁ <;> cases o₂ <;> first | exact hsame.elim | exact hsame.symm | trivial

/-- Beside an open instance of another tenant, starts are isolated only if both find one they cannot read. -/
private theorem isolated_iff_of_taken (visible : InstanceRows → Bool) (supply₁ : Supply) {supply₂ : Supply} (hcheck : svc.checkStart cmd = .ok entry) (honce₁ : store₁.OpenOnce)
    (honce₂ : store₂.OpenOnce) (hown : store₁.filter (fun r => r.inst.tenantId == cmd.tenantId) =
      store₂.filter (fun r => r.inst.tenantId == cmd.tenantId))
    (hfresh : supply₂.FreshIn store₂) (htaken : store₁.Taken cmd) :
    Isolated cmd (svc.startUnder visible supply₁ store₁ cmd) (svc.startUnder visible supply₂ store₂ cmd) ↔
      store₁.TakenUnseen visible cmd ∧ store₂.TakenUnseen visible cmd := by
  obtain ⟨r₁, hr₁, hopen₁, hforeign₁⟩ := htaken
  have hunseen : store₁.TakenUnseen visible cmd ↔ visible r₁ = false := by
    refine ⟨fun ⟨r, hr, hopen, _, hhidden⟩ => ?_, fun hhidden => ⟨r₁, hr₁, hopen₁, hforeign₁, hhidden⟩⟩
    rw [← honce₁.eq hr hr₁ hopen hopen₁]
    exact hhidden
  rw [startUnder_of_open hcheck honce₁ hr₁ hopen₁, hunseen]
  cases hseen₁ : visible r₁ with
  | true =>
    refine ⟨fun h => absurd h.2.1 hforeign₁, fun h => absurd h.1 (by simp)⟩
  | false =>
    simp only [Bool.false_eq_true, ↓reduceIte, true_and]
    by_cases hbusy : ∃ r ∈ store₂, r.isOpenFor cmd.businessKey cmd.businessType = true
    · obtain ⟨r₂, hr₂, hopen₂⟩ := hbusy
      have hforeign₂ : r₂.inst.tenantId ≠ cmd.tenantId := by
        intro htenant
        have hback := mem_of_own hown.symm hr₂ htenant
        exact hforeign₁ (by rw [← honce₁.eq hback hr₁ hopen₂ hopen₁]; exact htenant)
      rw [startUnder_of_open hcheck honce₂ hr₂ hopen₂]
      cases hseen₂ : visible r₂ with
      | true =>
        refine ⟨fun h => h.1.elim, fun ⟨r, hr, hopen, _, hhidden⟩ => ?_⟩
        rw [honce₂.eq hr hr₂ hopen hopen₂, hseen₂] at hhidden
        cases hhidden
      | false => exact ⟨fun _ => ⟨r₂, hr₂, hopen₂, hforeign₂, hseen₂⟩, fun _ => ⟨rfl, trivial, trivial⟩⟩
    · have hfree : ∀ r ∈ store₂, r.isOpenFor cmd.businessKey cmd.businessType = false :=
        fun r hr => Bool.eq_false_iff.2 fun hopen => hbusy ⟨r, hr, hopen⟩
      obtain ⟨out, store', hout, -, -⟩ := startUnder_of_free visible hcheck hfresh hfree
      rw [hout]
      refine ⟨fun h => h.1.elim, fun ⟨r, hr, hopen, _⟩ => ?_⟩
      exact absurd hopen (by simp [hfree r hr])

/-- Starts of one tenant in stores that differ in rows of other tenants are isolated exactly if the
command is refused by its own checks, or no instance of another tenant is open under its business
object, or both starts meet one that row-level security hides. -/
theorem start_isolated_iff (h₁ : (engine svc).Reachable store₁) (h₂ : (engine svc).Reachable store₂)
    (hown : store₁.filter (fun r => r.inst.tenantId == cmd.tenantId) =
      store₂.filter (fun r => r.inst.tenantId == cmd.tenantId))
    (hvisible : ∀ r, r.inst.tenantId = cmd.tenantId → visible r = true) (hfresh₁ : supply₁.FreshIn store₁)
    (hfresh₂ : supply₂.FreshIn store₂) :
    Isolated cmd (svc.startUnder visible supply₁ store₁ cmd) (svc.startUnder visible supply₂ store₂ cmd) ↔
      (svc.checkStart cmd).isOk = false ∨ (¬ store₁.Taken cmd ∧ ¬ store₂.Taken cmd) ∨
        (store₁.TakenUnseen visible cmd ∧ store₂.TakenUnseen visible cmd) := by
  have honce₁ := openOnce_of_reachable h₁
  have honce₂ := openOnce_of_reachable h₂
  cases hcheck : svc.checkStart cmd with
  | error e =>
    refine ⟨fun _ => .inl rfl, fun _ => ?_⟩
    unfold WorkflowService.startUnder
    rw [hcheck]
    exact ⟨rfl, trivial, trivial⟩
  | ok entry =>
    have hunseen : ∀ {store : Store}, store.TakenUnseen visible cmd → store.Taken cmd :=
      fun ⟨r, hr, hopen, hforeign, _⟩ => ⟨r, hr, hopen, hforeign⟩
    by_cases htaken₁ : store₁.Taken cmd
    · rw [isolated_iff_of_taken visible supply₁ hcheck honce₁ honce₂ hown hfresh₂ htaken₁]
      simp [htaken₁, Except.isOk, Except.toBool]
    by_cases htaken₂ : store₂.Taken cmd
    · have hback := isolated_iff_of_taken visible supply₂ hcheck honce₂ honce₁ hown.symm hfresh₁ htaken₂
      have hnot : ¬ store₁.TakenUnseen visible cmd := fun h => htaken₁ (hunseen h)
      simp only [hnot, and_false, iff_false] at hback
      simp only [htaken₂, hnot, not_true_eq_false, and_false, false_and, or_false]
      exact ⟨fun h => absurd h.symm hback, fun h => absurd h (by simp [Except.isOk, Except.toBool])⟩
    refine ⟨fun _ => .inr (.inl ⟨htaken₁, htaken₂⟩), fun _ => ?_⟩
    by_cases hbusy : ∃ r ∈ store₁, r.isOpenFor cmd.businessKey cmd.businessType = true
    · obtain ⟨r, hr, hopen⟩ := hbusy
      have htenant : r.inst.tenantId = cmd.tenantId :=
        Decidable.byContradiction fun hne => htaken₁ ⟨r, hr, hopen, hne⟩
      rw [startUnder_of_open hcheck honce₁ hr hopen, startUnder_of_open hcheck honce₂ (mem_of_own hown hr htenant)
        hopen]
      simp only [hvisible r htenant, ↓reduceIte]
      exact ⟨rfl, htenant, htenant⟩
    · have hfree₁ : ∀ r ∈ store₁, r.isOpenFor cmd.businessKey cmd.businessType = false :=
        fun r hr => Bool.eq_false_iff.2 fun hopen => hbusy ⟨r, hr, hopen⟩
      have hfree₂ : ∀ r ∈ store₂, r.isOpenFor cmd.businessKey cmd.businessType = false := by
        intro r hr
        refine Bool.eq_false_iff.2 fun hopen => ?_
        by_cases htenant : r.inst.tenantId = cmd.tenantId
        · exact hbusy ⟨r, mem_of_own hown.symm hr htenant, hopen⟩
        · exact htaken₂ ⟨r, hr, hopen, htenant⟩
      obtain ⟨out₁, s₁, hout₁, hcreated₁, htenant₁⟩ := startUnder_of_free visible hcheck hfresh₁ hfree₁
      obtain ⟨out₂, s₂, hout₂, hcreated₂, htenant₂⟩ := startUnder_of_free visible hcheck hfresh₂ hfree₂
      rw [hout₁, hout₂]
      exact ⟨hcreated₁.trans hcreated₂.symm, htenant₁, htenant₂⟩

end
/-- A start of tenant 2 for a business object of type `order`. -/
def otherTenant : StartCommand :=
  ⟨2, "00000000-0000-4000-8000-00000000f002", "00000000-0000-4000-8000-00000000d001",
    Sample.definition [Sample.node "a" (.approval (some "manager") (some 3600) none none)] [Sample.approved "a" "end"],
    "REF-2", "order", "42", none, none⟩

def oneApproval : WorkflowService := Sample.service "fc00d560518173f8342472a6025b885c71377c98bca5096ffdba17d7d9a5c475"

/-- The store in which tenant 2 has started. -/
def taken : Store := played oneApproval 9 [.start otherTenant]

/-- A start of tenant 1 for the business object that tenant 2 has started: in the empty store it creates
an instance, beside the one of tenant 2 it returns that one. -/
theorem start_returns_other_tenant :
    let cmd := { otherTenant with tenantId := 1 }
    (engine oneApproval).Reachable [] ∧ (engine oneApproval).Reachable taken ∧
      (taken.filter fun r => r.inst.tenantId == cmd.tenantId) = [] ∧
      ¬ Isolated cmd (oneApproval.start (Supply.nth 1) [] cmd) (oneApproval.start (Supply.nth 1) taken cmd) := by
  intro cmd
  refine ⟨.init rfl, reachable_played .., ?_, fun hisolated => ?_⟩
  · have hnone : taken.all fun r => !(r.inst.tenantId == 1) := by decide +kernel
    exact List.filter_eq_nil_iff.2 fun r hr => by simpa using List.all_eq_true.1 hnone r hr
  · have hother : (match oneApproval.start (Supply.nth 1) taken cmd with
        | .ok (out, _) => out.inst.tenantId == 2
        | _ => false) = true := by decide +kernel
    have hown := hisolated.2.2
    split at hother
    · next out store heq =>
      rw [heq] at hown
      have htenant : out.inst.tenantId = 2 := by simpa using hother
      exact absurd (hown.symm.trans htenant) (by decide)
    · cases hother

/-- The uuids of the fifth transaction are new in a store that earlier ones have written. -/
theorem Supply.nth_five_freshIn {store : Store}
    (h : ∀ x ∈ store.flatMap fun r => r.inst.id :: r.activities.map ActivityRow.id, x.toList[34]? ≠ some '5') :
    (Supply.nth 5).FreshIn store := by
  have hnth : ∀ n, ((Supply.nth 5).uuid n).toList[34]? = some '5' := by
    intro n
    have hdigit : Nat.toDigits 10 5 = ['5'] := by decide
    simp [Supply.nth, hdigit]
  have hne : ∀ x ∈ store.flatMap fun r => r.inst.id :: r.activities.map ActivityRow.id, ∀ n,
      x ≠ (Supply.nth 5).uuid n := by
    intro x hx n heq
    have hchar := h x hx
    rw [heq] at hchar
    exact hchar (hnth n)
  intro r hr n
  refine ⟨hne _ (List.mem_flatMap.2 ⟨r, hr, List.mem_cons_self ..⟩) n, fun a ha => ?_⟩
  exact hne _ (List.mem_flatMap.2 ⟨r, hr, List.mem_cons_of_mem _ (List.mem_map_of_mem ha)⟩) n

/-- For a business object that tenant 2 has not started, the start of tenant 1 does not see it. -/
theorem start_isolated_iff_taken :
    let cmd := { otherTenant with tenantId := 1, businessKey := "43" }
    taken.length = 1 ∧ Isolated cmd (oneApproval.startUnder (fun _ => true) (Supply.nth 5) [] cmd)
      (oneApproval.startUnder (fun _ => true) (Supply.nth 5) taken cmd) := by
  intro cmd
  have hnone : taken.all fun r => !(r.inst.tenantId == 1) && !r.isOpenFor "43" "order" := by decide +kernel
  simp only [List.all_eq_true, Bool.and_eq_true, Bool.not_eq_true'] at hnone
  refine ⟨by decide +kernel, (start_isolated_iff (.init rfl) (reachable_played ..) ?_ (fun _ _ => rfl)
    (fun r hr => by cases hr) (Supply.nth_five_freshIn (by decide +kernel))).2 (.inr (.inl ⟨?_, ?_⟩))⟩
  · exact (List.filter_eq_nil_iff.2 fun r hr => by simp [cmd, (hnone r hr).1]).symm
  · rintro ⟨r, hr, -⟩
    cases hr
  · rintro ⟨r, hr, hopen, -⟩
    exact absurd hopen (by simp [cmd, otherTenant, (hnone r hr).2])

end Fusions.Hetuflow
