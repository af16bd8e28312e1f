import Fusions.Hetuflow.Contract.Timers

/-! The terminal callback: its outbox record exists exactly for an approved instance whose start asked
for it, and nothing else marks side effects as executed. -/
namespace Fusions.Hetuflow
open Fusions.Library

/-- The `business_callback` records in the outbox. -/
def InstanceRows.callbacks (r : InstanceRows) : Nat := r.outbox.countP (·.activityType == "business_callback")

/-- The instance is completed, and approved. -/
def WorkflowInstance.Accepted (i : WorkflowInstance) : Prop := i.status = .completed ∧ i.result = some .approved

instance (i : WorkflowInstance) : Decidable i.Accepted := inferInstanceAs (Decidable (_ ∧ _))

/-- A delivered callback is reported by the dispatcher, which has read its record from the outbox. -/
def Dispatched (r : InstanceRows) (call : Call) (_ : InstanceRows) : Prop :=
  match call with
  | .onBusinessCallbackDelivered => 0 < r.callbacks
  | _ => True

instance (r r' : InstanceRows) : (call : Call) → Decidable (Dispatched r call r')
  | .onBusinessCallbackDelivered => inferInstanceAs (Decidable (0 < r.callbacks))
  | .signal _ | .resubmit .. | .fireTimer _ | .onNotificationDelivered _ | .onOutboxDeadLetter .. => .isTrue trivial

/-- The log begins with the start, which asked for a callback or not. -/
def InstanceRows.BegunAsking (ask : Bool) (r : InstanceRows) : Prop :=
  (∃ e es, r.events = e :: es ∧ e.eventType = .started) ∧ r.asksCallback = ask

/-- What the outbox and the instance say about the callback of an instance. -/
structure InstanceRows.CalledBack (ask : Bool) (r : InstanceRows) : Prop where
  begun : r.BegunAsking ask
  callbacks : r.callbacks = if ask = true ∧ r.inst.Accepted then 1 else 0
  executed : r.inst.sideEffectsExecuted = true → r.inst.Accepted

/-- Nothing of a callback has happened yet. -/
structure InstanceRows.Uncalled (ask : Bool) (r : InstanceRows) : Prop where
  begun : r.BegunAsking ask
  callbacks : r.callbacks = 0
  executed : r.inst.sideEffectsExecuted = false
  running : r.inst.status ≠ .completed

/-- A step that neither completes the instance nor touches a callback. -/
structure Calm (r r' : InstanceRows) : Prop where
  events : ∃ new, r'.events = r.events ++ new
  callbacks : r'.callbacks = r.callbacks
  executed : r'.inst.sideEffectsExecuted = r.inst.sideEffectsExecuted
  running : r.inst.status ≠ .completed → r'.inst.status ≠ .completed

theorem InstanceRows.BegunAsking.append {ask : Bool} {r r' : InstanceRows} (h : r.BegunAsking ask)
    (hevents : ∃ new, r'.events = r.events ++ new) : r'.BegunAsking ask := by
  obtain ⟨⟨e, es, he, hstarted⟩, hask⟩ := h
  obtain ⟨new, hnew⟩ := hevents
  rw [he, List.cons_append] at hnew
  refine ⟨⟨e, es ++ new, hnew, hstarted⟩, ?_⟩
  rw [← hask]
  simp [asksCallback, hnew, he, hstarted]

theorem InstanceRows.Uncalled.calm {ask : Bool} {r r' : InstanceRows} (h : r.Uncalled ask) (k : Calm r r') :
    r'.Uncalled ask :=
  ⟨h.begun.append k.events, k.callbacks.trans h.callbacks, k.executed.trans h.executed, k.running h.running⟩

theorem InstanceRows.Uncalled.calledBack {ask : Bool} {r : InstanceRows} (h : r.Uncalled ask) : r.CalledBack ask where
  begun := h.begun
  callbacks := by
    rw [if_neg fun haccepted => h.running haccepted.2.1]
    exact h.callbacks
  executed := by simp [h.executed]

theorem InstanceRows.CalledBack.uncalled {ask : Bool} {r : InstanceRows} (h : r.CalledBack ask)
    (hrunning : r.inst.status ≠ .completed) : r.Uncalled ask where
  begun := h.begun
  callbacks := by
    rw [h.callbacks, if_neg fun haccepted => hrunning haccepted.2.1]
  executed := Bool.eq_false_iff.2 fun hexecuted => hrunning (h.executed hexecuted).1
  running := hrunning

namespace Calm
variable {r r₁ r₂ r₃ : InstanceRows}

theorem refl (r : InstanceRows) : Calm r r := ⟨⟨[], by simp⟩, rfl, rfl, fun h => h⟩

theorem trans (h : Calm r₁ r₂) (k : Calm r₂ r₃) : Calm r₁ r₃ := by
  obtain ⟨new, hnew⟩ := h.events
  obtain ⟨new', hnew'⟩ := k.events
  exact ⟨⟨new ++ new', by rw [hnew', hnew, List.append_assoc]⟩, k.callbacks.trans h.callbacks,
    k.executed.trans h.executed, fun hs => k.running (h.running hs)⟩

theorem log (r : InstanceRows) (now : Time) (t : EventType) (p : Json) (k : Option String) :
    Calm r (r.log now t p k) := ⟨⟨[_], rfl⟩, rfl, rfl, fun h => h⟩

theorem passMerges (r : InstanceRows) (now : Time) (f : String) (n : Int) (ms : List String) :
    Calm r (r.passMerges now f n ms) :=
  InstanceRows.passMerges_induction ms (.refl r) fun r' p hr => hr.trans (log r' now .mergePassed p none)

/-- A change of the instance row to a status other than completed. -/
theorem updateInstance (r : InstanceRows) (f : WorkflowInstance → WorkflowInstance)
    (hexecuted : (f r.inst).sideEffectsExecuted = r.inst.sideEffectsExecuted)
    (hstatus : (f r.inst).status = r.inst.status ∨ (f r.inst).status ≠ .completed) :
    Calm r (r.updateInstance f) := by
  refine ⟨⟨[], by simp [InstanceRows.updateInstance]⟩, rfl, hexecuted, fun hs => ?_⟩
  rcases hstatus with hsame | hother
  · exact fun h => hs (hsame.symm.trans h)
  · exact hother

theorem clearCurrent (r : InstanceRows) : Calm r r.clearCurrent := updateInstance r _ rfl (.inl rfl)

theorem pointTo (r : InstanceRows) (id : Uuid) : Calm r (r.pointTo id) := by
  unfold InstanceRows.pointTo
  split
  · exact updateInstance r _ rfl (.inl rfl)
  · exact .refl r

theorem errorOut (r : InstanceRows) : Calm r r.errorOut := by
  unfold InstanceRows.errorOut
  split
  · exact updateInstance r _ rfl (.inr nofun)
  · exact .refl r

/-- A change of activity and timer rows. -/
theorem rows (r : InstanceRows) (activities : List ActivityRow) (timers : List TimerRow) :
    Calm r { r with activities := activities, timers := timers } := ⟨⟨[], by simp⟩, rfl, rfl, fun h => h⟩

theorem fire (r : InstanceRows) (now : Time) (join : WorkflowNode) (n arrived expected : Int)
    (exclude : Option Uuid) : Calm r (r.fire now join n arrived expected exclude) := by
  unfold InstanceRows.fire InstanceRows.skipRemaining
  dsimp only
  split
  · split
    · exact ((log r ..).trans (rows ..)).trans (log ..)
    · exact (log r ..).trans (rows ..)
  · exact log r ..

/-- Intents of notifications. -/
theorem outbox (r : InstanceRows) (os : List OutboxRow) (hos : ∀ o ∈ os, o.activityType ≠ "business_callback") :
    Calm r { r with outbox := r.outbox ++ os } := by
  refine ⟨⟨[], by simp⟩, ?_, rfl, fun h => h⟩
  have hnone : os.countP (·.activityType == "business_callback") = 0 := by
    simpa [List.countP_eq_zero] using hos
  rw [InstanceRows.callbacks, List.countP_append, hnone]
  rfl

theorem enqueueOutbox (r : InstanceRows) (o : OutboxRow) (ho : o.activityType ≠ "business_callback") :
    Calm r (r.enqueueOutbox o) := by
  unfold InstanceRows.enqueueOutbox
  split
  · exact .refl r
  · exact outbox r [o] (by simpa using ho)

theorem timerFired (r : InstanceRows) (now : Time) (t : TimerRow) (id : Uuid) (nodeId : String) :
    Calm r (r.timerFired now t id nodeId) := (rows r ..).trans (log ..)

theorem completeActivity (r : InstanceRows) (now : Time) (id : Uuid) (result : Option String) (actor : Int)
    (notes : Option String) (payload : Json) : Calm r (r.completeActivity now id result actor notes payload) :=
  (rows r ..).trans (log ..)

theorem resolve (r : InstanceRows) (now : Time) (cmd : SignalCommand) (a : ActivityInstance) :
    Calm r (r.resolve now cmd a) := by
  have hcompleted := (log r now .signalReceived (reviewPayload cmd.signal a.id cmd.actorUserId cmd.reviewNotes)
    (some cmd.idempotencyKey)).trans (completeActivity _ now a.id (signalResult cmd.signal) cmd.actorUserId
    cmd.reviewNotes (activityCompletedPayload a.id (signalResult cmd.signal)))
  unfold InstanceRows.resolve InstanceRows.resume
  split
  · exact hcompleted.trans ((updateInstance _ _ rfl (.inr (by simp))).trans (log ..))
  · exact hcompleted

end Calm

section
variable {svc : WorkflowService} {env : Env} {ctx : InstanceCtx} {source : ActivityInstance} {round : Int}

private theorem Scheduled.calm {tenantId : Int} {node : WorkflowNode} {role : Option String} {n : Int}
    {fanout : Option FanoutMark} {row : ActivityRow} {r r' : InstanceRows}
    (h : Scheduled env tenantId node role n fanout r row r') : Calm r r' := by
  obtain ⟨os, hos, hall⟩ := h.outbox
  refine ⟨⟨_, h.events⟩, ?_, by rw [h.inst], by rw [h.inst]; exact fun hs => hs⟩
  rw [InstanceRows.callbacks, hos, List.countP_append, InstanceRows.callbacks, Nat.add_eq_left]
  refine List.countP_eq_zero.2 fun o ho => ?_
  rw [(hall o ho).2]
  decide

private theorem Branches.calm {via : String} {targets : List ParallelTarget} {rows : List ActivityRow}
    {r r' : InstanceRows} (h : Branches env ctx round via targets r rows r') : Calm r r' := by
  induction h with
  | nil => exact .refl _
  | cons _ hsched _ ih => exact hsched.calm.trans ih

private theorem calm_fanOutRows (trace : ResolveTrace) (targets : List ParallelTarget) (r : InstanceRows) :
    Calm r (fanOutRows env source round trace targets r) :=
  (Calm.passMerges r ..).trans ((Calm.clearCurrent _).trans (Calm.log ..))

private theorem Reaches.calm {outcome : AdvanceOutcome} {trace : ResolveTrace} {r r₁ : InstanceRows}
    {join : WorkflowNode} {exclude : Option Uuid}
    (h : Reaches env ctx source round outcome trace r join exclude r₁) : Calm r r₁ := by
  cases h with
  | arrive => exact (Calm.passMerges r ..).trans (Calm.log ..)
  | emptyFanOut => exact calm_fanOutRows ..

/-- A completion enqueues the callback if the start asked for one and the result is approved. -/
private theorem calledBack_of_complete {ask : Bool} {result : WorkflowResult} {r r₁ : InstanceRows}
    {os : List OutboxRow} (h : r.Uncalled ask)
    (hr₁ : r₁ = (r.finish env.now result).log env.now .completed (completedPayload result) none)
    (hintents : CallbackIntents r₁ result os) : InstanceRows.CalledBack ask { r₁ with outbox := r₁.outbox ++ os } := by
  have hbegun : r₁.BegunAsking ask := h.begun.append ⟨[_], by rw [hr₁]; rfl⟩
  have hnone : r₁.callbacks = 0 := by rw [hr₁]; exact h.callbacks
  have haccepted : r₁.inst.Accepted ↔ result = .approved := by
    rw [hr₁]
    simp [WorkflowInstance.Accepted, InstanceRows.finish, InstanceRows.log, InstanceRows.appendEvent,
      InstanceRows.updateInstance]
  refine ⟨hbegun.append ⟨[], by simp⟩, ?_, ?_⟩
  · show (r₁.outbox ++ os).countP _ = if ask = true ∧ r₁.inst.Accepted then 1 else 0
    rw [List.countP_append, show r₁.outbox.countP _ = 0 from hnone, Nat.zero_add]
    simp only [haccepted]
    rw [CallbackIntents, hbegun.2] at hintents
    by_cases hask : ask = true ∧ result = .approved
    · rw [if_pos hask.symm] at hintents
      obtain ⟨o, ho, heq⟩ := hintents
      rw [InstanceRows.enqueueOutbox, if_neg] at heq
      · have hos : os = [o] := (List.append_cancel_left (congrArg InstanceRows.outbox heq)).symm
        simp [hos, ho, hask]
      · intro hany
        obtain ⟨x, hx, hxo⟩ := List.any_eq_true.1 hany
        simp only [Bool.and_eq_true, beq_iff_eq, ho] at hxo
        exact absurd (List.countP_eq_zero.1 hnone x hx) (by simp [hxo.2])
    · rw [if_neg fun hboth => hask hboth.symm] at hintents
      rw [if_neg hask, hintents]
      rfl
  · intro hexecuted
    have hnot : r₁.inst.sideEffectsExecuted = false := by rw [hr₁]; exact h.executed
    exact absurd hexecuted (by simp [hnot])

private theorem Applied.calledBack {ask : Bool} {outcome : AdvanceOutcome} {trace : ResolveTrace}
    {r r' : InstanceRows} (h : Applied env ctx source round svc outcome trace r r') (hr : r.Uncalled ask) :
    r'.CalledBack ask := by
  induction h with
  | schedule _ _ hsched =>
    exact (((hr.calm (.passMerges ..)).calm hsched.calm).calm (.pointTo ..)).calledBack
  | fan _ hbranches => exact ((hr.calm (calm_fanOutRows ..)).calm hbranches.calm).calledBack
  | wait hreach _ _ => exact ((hr.calm hreach.calm).calm (.clearCurrent _)).calledBack
  | fire hreach _ _ _ ih => exact ih ((hr.calm hreach.calm).calm (.fire ..))
  | complete _ hr₁ hintents => exact calledBack_of_complete (hr.calm (.passMerges ..)) hr₁ hintents
  | rework _ _ _ hsched =>
    exact ((((hr.calm (.passMerges ..)).calm hsched.calm).calm (.updateInstance _ _ rfl (.inr (by simp)))).calm
      (.log ..)).calledBack
  | error => exact (((hr.calm (.passMerges ..)).calm (.errorOut _)).calm (.log ..)).calledBack

private theorem CalledBack.log {ask : Bool} {r : InstanceRows} (h : r.CalledBack ask) (now : Time) (t : EventType)
    (p : Json) (k : Option String) : (r.log now t p k).CalledBack ask :=
  ⟨h.begun.append ⟨[_], rfl⟩, h.callbacks, h.executed⟩

private theorem running_of_open {r : InstanceRows} (h : r.inst.status.isTerminal = false) :
    r.inst.status ≠ .completed := by
  intro hs
  rw [hs] at h
  cases h

private theorem Effect.calledBack {ask : Bool} {call : Call} {r r' : InstanceRows} (h : Effect svc env call r r')
    (hr : r.CalledBack ask) (hdispatched : Dispatched r call r') : r'.CalledBack ask := by
  cases h with
  | nothing => exact hr
  | assignee _ hterm =>
    have hquiet := hr.uncalled (running_of_open hterm)
    exact (hquiet.calm ((Calm.rows r _ r.timers).trans (.log ..))).calledBack
  | advance _ _ hterm _ _ _ _ hctx happly =>
    have hquiet := hr.uncalled (running_of_open hterm)
    cases hctx with
    | none => exact happly.calledBack (hquiet.calm (.resolve ..))
    | merged =>
      exact happly.calledBack ((hquiet.calm ((Calm.updateInstance r _ rfl (.inl rfl)).trans (.log ..))).calm
        (.resolve ..))
  | @reenter _ key _ _ _ _ _ _ hs hresult _ _ _ _ hsched =>
    have hnot : ¬ r.inst.Accepted := by simp [WorkflowInstance.Accepted, hresult]
    have hquiet : (r.reactivate env.now (r.maxRound + 1) key).Uncalled ask := by
      refine ⟨hr.begun.append ⟨[_], rfl⟩, ?_, ?_, nofun⟩
      · exact hr.callbacks.trans (if_neg fun h => hnot h.2)
      · exact Bool.eq_false_iff.2 fun hexecuted => hnot (hr.executed hexecuted)
    exact ((hquiet.calm hsched.calm).calm (.pointTo ..)).calledBack
  | timerGone => exact ⟨hr.begun.append ⟨[], by simp [InstanceRows.fireTimer, InstanceRows.updateTimers]⟩,
      hr.callbacks, hr.executed⟩
  | reminder _ _ _ hterm =>
    have hquiet := hr.uncalled (running_of_open hterm)
    exact ((hquiet.calm (.timerFired ..)).calm (.enqueueOutbox _ _ (by simp))).calledBack
  | escalationGone _ _ _ hterm =>
    have hquiet := hr.uncalled (running_of_open hterm)
    exact (hquiet.calm (.timerFired ..)).calledBack
  | escalated _ _ _ hterm =>
    have hquiet := hr.uncalled (running_of_open hterm)
    exact (((hquiet.calm (.timerFired ..)).calm ((Calm.rows _ _ _).trans (.log ..))).calm
      (.enqueueOutbox _ _ (by simp))).calledBack
  | timedOut _ _ _ _ _ hterm _ happly =>
    have hquiet := hr.uncalled (running_of_open hterm)
    exact happly.calledBack ((hquiet.calm (.timerFired ..)).calm ((Calm.rows _ _ _).trans (.log ..)))
  | delivered _ _ _ hterm happly =>
    have hquiet := hr.uncalled (running_of_open hterm)
    exact happly.calledBack (hquiet.calm (.completeActivity ..))
  | callback =>
    have hpos : 0 < r.callbacks := hdispatched
    have haccepted : r.inst.Accepted := by
      rw [hr.callbacks] at hpos
      split at hpos
      · next h => exact h.2
      · cases hpos
    exact ⟨hr.begun.append ⟨[], by simp [InstanceRows.updateInstance]⟩, hr.callbacks, fun _ => haccepted⟩
  | deadLetter => exact CalledBack.log hr ..

private theorem asksCallback_started {supply : Supply} {cmd : StartCommand} {hash : String} :
    ((insertedRows supply cmd).log env.now .started (startedPayload cmd hash) none).BegunAsking
      cmd.terminalCallback.isSome := by
  refine ⟨⟨_, [], rfl, rfl⟩, ?_⟩
  cases htc : cmd.terminalCallback with
  | none =>
    have hpayload : (startedPayload cmd hash).get "terminal_callback" = some .null := by
      rw [startedPayload, htc]
      rfl
    simp [InstanceRows.asksCallback, InstanceRows.log, InstanceRows.appendEvent, insertedRows, hpayload]
  | some tc =>
    have hpayload : (startedPayload cmd hash).get "terminal_callback" = some tc.toJson := by
      rw [startedPayload, htc]
      rfl
    simp [InstanceRows.asksCallback, InstanceRows.log, InstanceRows.appendEvent, insertedRows, hpayload,
      TerminalCallback.toJson]

private theorem Started.calledBack {supply : Supply} {cmd : StartCommand} {r : InstanceRows}
    (h : Started svc env supply cmd r) : r.CalledBack cmd.terminalCallback.isSome := by
  obtain ⟨entryId, entryRole, node, row, r₁, -, -, hsched, rfl⟩ := h.rows
  have hlogged : ((insertedRows supply cmd).log env.now .started (startedPayload cmd (svc.definitionHash cmd.snapshot))
      none).Uncalled cmd.terminalCallback.isSome := ⟨asksCallback_started, rfl, rfl, nofun⟩
  exact ((hlogged.calm hsched.calm).calm (.pointTo ..)).calledBack

end

/-- From its start on an instance has one callback record exactly if it asked for the callback and is
accepted, and side effects are executed only for an accepted instance. -/
theorem terminal_callback_once {svc : WorkflowService} {store store₁ store₂ : Store} {cmd : StartCommand}
    {r₁ r₂ : InstanceRows} (h : (engine svc).Reachable store) (hstart : Commits svc store (.start cmd) store₁)
    (hr₁ : r₁ ∈ store₁) (hnew : ∀ r ∈ store, r.inst.id ≠ r₁.inst.id)
    (hrun : (engine svc).RunIf (OnInstance r₁.inst.id Dispatched) store₁ store₂) (hr₂ : r₂ ∈ store₂)
    (hid : r₂.inst.id = r₁.inst.id) :
    r₂.callbacks = (if cmd.terminalCallback.isSome = true ∧ r₂.inst.Accepted then 1 else 0) ∧
      (r₂.inst.sideEffectsExecuted = true → r₂.inst.Accepted) := by
  have hcalled : r₁.CalledBack cmd.terminalCallback.isSome := by
    rcases hstart.cases (wellFormed_of_reachable h) with ⟨cmd', -, rfl⟩ | ⟨cmd', supply, r', heq, -, -, hstarted, rfl⟩ |
      ⟨pre, r, call, r', post, supply, heq, -⟩
    · exact absurd rfl (hnew r₁ hr₁)
    · cases heq
      rcases List.mem_append.1 hr₁ with hold | hr₁
      · exact absurd rfl (hnew r₁ hold)
      · rw [List.mem_singleton.1 hr₁]
        exact hstarted.calledBack
    · cases heq
  have hlater := rows_later (fun _ _ _ _ _ hr heffect hdispatched => heffect.calledBack hr hdispatched)
    (h.step hstart trivial) hrun hr₁ hcalled r₂ hr₂ hid
  exact ⟨hlater.callbacks, hlater.executed⟩

/-- A started instance asks for a callback; it is approved, and the callback is delivered. -/
theorem terminal_callback_once_delivered :
    let svc := WorkflowService.new .default ⟨[("archive", .businessKey)]⟩ Sample.cel fun _ =>
      "fc00d560518173f8342472a6025b885c71377c98bca5096ffdba17d7d9a5c475"
    let cmd : StartCommand := ⟨1, "00000000-0000-4000-8000-00000000f001", "00000000-0000-4000-8000-00000000d001",
      Sample.definition [Sample.node "a" (.approval (some "manager") (some 3600) none none)]
        [Sample.approved "a" "end"], "REF-1", "order", "42", none, some ⟨"archive", .obj []⟩⟩
    ∃ store₁ store₂ r₁ r₂, Commits svc [] (.start cmd) store₁ ∧ r₁ ∈ store₁ ∧
      (engine svc).RunIf (OnInstance r₁.inst.id Dispatched) store₁ store₂ ∧ r₂ ∈ store₂ ∧
      r₂.callbacks = 1 ∧ r₂.inst.sideEffectsExecuted = true ∧ r₂.inst.Accepted := by
  intro svc cmd
  let rest := fun store => play svc 9 1 store [Sample.approve (Sample.uuid 0 1), .call 0 .onBusinessCallbackDelivered]
  have hplayed : (Store.next svc 9 0 [] (.start cmd)).any fun x => x.2.any fun r₁ =>
      (rest x.2).1.all (fun y => decide (OnInstance r₁.inst.id Dispatched y.1 y.2)) &&
      (rest x.2).2.any fun r₂ => r₂.inst.id == r₁.inst.id && r₂.inst.sideEffectsExecuted := by
    decide +kernel
  obtain ⟨⟨op, store₁⟩, hnext, hrows⟩ := (Option.any_eq_true _ _).1 hplayed
  obtain rfl := Store.start_of_next hnext
  obtain ⟨r₁, hr₁, hrun⟩ := List.any_eq_true.1 hrows
  simp only [Bool.and_eq_true, List.all_eq_true, decide_eq_true_eq, List.any_eq_true, beq_iff_eq] at hrun
  obtain ⟨hdispatched, r₂, hr₂, hid, hexecuted⟩ := hrun
  have hcommit := Store.commits_of_next hnext
  have hrun := runIf_play hdispatched
  obtain ⟨hcallbacks, haccepted⟩ := terminal_callback_once (.init rfl) hcommit hr₁ (by simp) hrun hr₂ hid
  refine ⟨store₁, _, r₁, r₂, hcommit, hr₁, hrun, hr₂, ?_, hexecuted, haccepted hexecuted⟩
  rw [hcallbacks, if_pos ⟨rfl, haccepted hexecuted⟩]

end Fusions.Hetuflow
