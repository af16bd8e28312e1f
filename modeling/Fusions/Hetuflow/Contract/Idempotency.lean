import Fusions.Hetuflow.Service.Script
import Fusions.Hetuflow.Service.Invariant

/-! The idempotency contract: a key that a signal or a resubmit has carried is on record for good, and
the next call that carries it replays. -/
namespace Fusions.Hetuflow
open Fusions.Library Program

/-- The idempotency keys on record, in log order. -/
def InstanceRows.keys (r : InstanceRows) : List String := r.events.filterMap EventRow.idempotencyKey

/-- The key a call carries. -/
def Call.key : Call → Option String
  | .signal cmd => some cmd.idempotencyKey
  | .resubmit _ key => some key
  | _ => none

/-- The call replays: it returns what is there, marked as replayed, and writes nothing. -/
def Call.Replays (svc : WorkflowService) (r : InstanceRows) : Call → Prop
  | .signal cmd => ∀ env fuel drawn,
      (svc.signal fuel cmd).run (exec env) ⟨r, drawn⟩ = .ok (⟨r.inst, r.models r.activeRows, true⟩, ⟨r, drawn⟩)
  | .resubmit scope key => ∀ env drawn,
      (svc.resubmit scope r.inst.id key).run (exec env) ⟨r, drawn⟩ =
        .ok (⟨r.inst, r.models r.activeRows, true⟩, ⟨r, drawn⟩)
  | _ => False

/-- The call is made on this instance from a scope that sees it. -/
def Call.Sees (r : InstanceRows) : Call → Prop
  | .signal cmd => cmd.instanceId = r.inst.id ∧ cmd.scope.sees r.inst = true
  | .resubmit scope _ => scope.sees r.inst = true
  | _ => False

section
variable {svc : WorkflowService} {env : Env} {tx tx' : Tx}

/-- A statement only adds to the log. -/
private theorem exec_events {β : Type} (q : Stmt β) {b : β} (h : exec env q tx = .ok (b, tx')) :
    tx.rows.events <+: tx'.rows.events := by
  cases q with
  | appendEvent =>
    cases h
    exact List.prefix_append ..
  | enqueueOutbox row =>
    cases h
    simp only [InstanceRows.enqueueOutbox]
    split <;> exact List.prefix_refl _
  | _ =>
    simp only [exec, Tx.casInstance, Tx.casActivities, Tx.reopen, Tx.insertActivity, Tx.scheduleTimer,
      InstanceRows.updateInstance, InstanceRows.updateActivities, InstanceRows.updateTimers] at h
    repeat' split at h
    all_goals
      cases h
      try exact List.prefix_refl _

private theorem events_of_returns {α : Type} {p : Prog α} {a : α} (h : Program.Returns (exec env) p tx a tx') :
    tx.rows.events <+: tx'.rows.events :=
  h.relates (exec env) (R := fun tx tx' : Tx => tx.rows.events <+: tx'.rows.events) (fun _ => List.prefix_refl _)
    (fun h k => h.trans k) fun q _ _ _ h => exec_events q h

private theorem keys_of_returns {α : Type} {p : Prog α} {a : α} (h : Program.Returns (exec env) p tx a tx')
    {key : String} (hkey : key ∈ tx.rows.keys) : key ∈ tx'.rows.keys :=
  ((events_of_returns h).filterMap EventRow.idempotencyKey).subset hkey

private theorem mem_keys_log (r : InstanceRows) (now : Time) (t : EventType) (p : Json) (key : String) :
    key ∈ (r.log now t p (some key)).keys := by
  simp [InstanceRows.keys, InstanceRows.log, InstanceRows.appendEvent]

private theorem idempotencySeen_iff (key : String) :
    tx.rows.events.any (·.idempotencyKey == some key) = true ↔ key ∈ tx.rows.keys := by
  simp [InstanceRows.keys]

/-- A signal past the idempotency check puts its key on record. -/
private theorem signalFresh_records {fuel : Nat} {cmd : SignalCommand} {inst : WorkflowInstance}
    {out : SignalOutcome} (h : Program.Returns (exec env) (svc.signalFresh fuel cmd inst) tx out tx') :
    cmd.idempotencyKey ∈ tx'.rows.keys := by
  unfold WorkflowService.signalFresh at h
  rcases (returns_ite _ _ _ _ _ _ _).1 h with ⟨-, h⟩ | ⟨-, h⟩
  · exact absurd h (returns_fail _ _ _ _ _)
  simp only [returns_bind, returns_ofExcept] at h
  obtain ⟨snapshot, t₁, -, a, t₂, -, node, _, ⟨-, rfl⟩, _, _, ⟨-, rfl⟩, h⟩ := h
  rcases (returns_ite _ _ _ _ _ _ _).1 h with ⟨-, h⟩ | ⟨-, h⟩
  · obtain ⟨hit, t₃, -, h⟩ := (returns_bind _ _ _ _ _ _).1 h
    obtain ⟨_, t₄, happend, h⟩ := (returns_bind _ _ _ _ _ _).1 h
    obtain rfl := (returns_append _ _ _ _).1 happend
    exact keys_of_returns h (mem_keys_log ..)
  · obtain ⟨ctx, t₃, -, h⟩ := (returns_bind _ _ _ _ _ _).1 h
    obtain ⟨_, t₄, happend, h⟩ := (returns_bind _ _ _ _ _ _).1 h
    obtain rfl := (returns_append _ _ _ _).1 happend
    exact keys_of_returns h (mem_keys_log ..)

private theorem reenter_records {key : String} {inst : WorkflowInstance} {out : SignalOutcome}
    (h : Program.Returns (exec env) (svc.reenter inst key) tx out tx') : key ∈ tx'.rows.keys := by
  unfold WorkflowService.reenter at h
  simp only [returns_bind, returns_ofExcept] at h
  obtain ⟨snapshot, t₁, -, n, t₂, -, _, _, ⟨-, rfl⟩, hit, t₃, -, h⟩ := h
  rcases (returns_ite _ _ _ _ _ _ _).1 h with ⟨-, h⟩ | ⟨-, h⟩
  · obtain ⟨_, t₄, happend, h⟩ := (returns_bind _ _ _ _ _ _).1 h
    obtain rfl := (returns_append _ _ _ _).1 happend
    exact keys_of_returns h (mem_keys_log ..)
  · exact absurd h (returns_fail _ _ _ _ _)

/-- What a call that returns does with the key it carries: it stands on record, and if it already did
the call changes nothing. -/
private theorem Call.Returns.records {call : Call} (h : call.Returns svc env tx tx') {key : String}
    (hkey : call.key = some key) :
    isBlank key = false ∧ key ∈ tx'.rows.keys ∧ (key ∈ tx.rows.keys → tx' = tx) := by
  have hnew {P : Prop} (hfresh : tx.rows.events.any (·.idempotencyKey == some key) = false)
      (hseen : key ∈ tx.rows.keys) : P :=
    absurd ((idempotencySeen_iff key).2 hseen) (ne_true_of_eq_false hfresh)
  cases call with
  | signal cmd =>
    obtain rfl := Option.some.inj hkey
    obtain ⟨-, fuel, out, h⟩ := h
    obtain ⟨hblank, ⟨hseen, rfl⟩ | ⟨hfresh, h⟩⟩ := returns_keyed h
    · exact ⟨hblank, (idempotencySeen_iff _).1 hseen, fun _ => rfl⟩
    · exact ⟨hblank, signalFresh_records h, hnew hfresh⟩
  | resubmit scope k =>
    obtain rfl := Option.some.inj hkey
    obtain ⟨out, h⟩ := h
    obtain ⟨hblank, ⟨hseen, rfl⟩ | ⟨hfresh, h⟩⟩ := returns_keyed h
    · exact ⟨hblank, (idempotencySeen_iff _).1 hseen, fun _ => rfl⟩
    · rcases (returns_ite _ _ _ _ _ _ _).1 h with ⟨-, h⟩ | ⟨-, h⟩
      · exact ⟨hblank, reenter_records h, hnew hfresh⟩
      · exact absurd h (returns_fail _ _ _ _ _)
  | _ => cases hkey

/-- A key on record is replayed. -/
private theorem replays_of_mem {r : InstanceRows} {call : Call} {key : String} (hblank : isBlank key = false)
    (hmem : key ∈ r.keys) (hkey : call.key = some key) (hsees : call.Sees r) : call.Replays svc r := by
  have hseen : r.events.any (·.idempotencyKey == some key) = true := by
    simpa [InstanceRows.keys] using hmem
  cases call with
  | signal cmd =>
    obtain rfl := Option.some.inj hkey
    intro env fuel drawn
    simp [WorkflowService.signal, hblank, bind, Program.bind, stmt, Program.run, exec, hsees.2, hseen, pure]
  | resubmit scope k =>
    obtain rfl := Option.some.inj hkey
    have hsees : scope.sees r.inst = true := hsees
    intro env drawn
    simp [WorkflowService.resubmit, hblank, bind, Program.bind, stmt, Program.run, exec, hsees, hseen, pure]
  | _ => cases hkey

end

namespace InstanceRows
variable (r : InstanceRows) (now : Time)

private theorem keys_log (t : EventType) (p : Json) (key : Option String) :
    (r.log now t p key).keys = r.keys ++ key.toList := by
  cases key <;> simp [keys, log, appendEvent]

private theorem keys_passMerges (f : String) (n : Int) (ms : List String) :
    (r.passMerges now f n ms).keys = r.keys :=
  passMerges_induction (P := fun r' => r'.keys = r.keys) ms rfl fun r' _ hr => by
    rw [keys_log, hr]
    exact List.append_nil _

private theorem keys_pointTo (id : Uuid) : (r.pointTo id).keys = r.keys := by
  unfold pointTo
  split <;> rfl

private theorem keys_errorOut : r.errorOut.keys = r.keys := by
  unfold errorOut
  split <;> rfl

private theorem keys_enqueueOutbox (o : OutboxRow) : (r.enqueueOutbox o).keys = r.keys := by
  unfold enqueueOutbox
  split <;> rfl

private theorem keys_fire (join : WorkflowNode) (round arrived expected : Int) (exclude : Option Uuid) :
    (r.fire now join round arrived expected exclude).keys = r.keys := by
  have hlog := keys_log r now .parallelJoinSatisfied (joinSatisfiedPayload join.id arrived expected round) none
  unfold fire skipRemaining
  dsimp only
  split
  · split
    · rw [keys_log]
      simpa [skipOthers, updateActivities, updateTimers, keys] using hlog
    · simpa [skipOthers, updateActivities, updateTimers, keys] using hlog
  · simpa using hlog

private theorem keys_resume (a : ActivityInstance) : (r.resume now a).keys = r.keys := by
  unfold resume
  split
  · rw [keys_log]
    exact List.append_nil _
  · rfl

end InstanceRows

section
variable {svc : WorkflowService} {env : Env} {ctx : InstanceCtx} {source : ActivityInstance} {round : Int}

private theorem Scheduled.keys {tenantId : Int} {node : WorkflowNode} {role : Option String}
    {fanout : Option FanoutMark} {row : ActivityRow} {r r' : InstanceRows}
    (h : Scheduled env tenantId node role round fanout r row r') : r'.keys = r.keys := by
  rw [InstanceRows.keys, h.events, List.filterMap_append]
  exact List.append_nil _

private theorem Branches.keys {via : String} {targets : List ParallelTarget} {rows : List ActivityRow}
    {r r' : InstanceRows} (h : Branches env ctx round via targets r rows r') : r'.keys = r.keys := by
  induction h with
  | nil => rfl
  | cons _ hsched _ ih => rw [ih, hsched.keys]

private theorem keys_fanOutRows (trace : ResolveTrace) (targets : List ParallelTarget) (r : InstanceRows) :
    (fanOutRows env source round trace targets r).keys = r.keys := by
  rw [fanOutRows, InstanceRows.keys_log]
  refine (List.append_nil _).trans ?_
  exact InstanceRows.keys_passMerges ..

/-- An applied outcome carries no key. -/
private theorem Applied.keys {outcome : AdvanceOutcome} {trace : ResolveTrace} {r r' : InstanceRows}
    (h : Applied env ctx source round svc outcome trace r r') : r'.keys = r.keys := by
  have hreach : ∀ {outcome : AdvanceOutcome} {trace : ResolveTrace} {r r₁ : InstanceRows} {join : WorkflowNode}
      {exclude : Option Uuid}, Reaches env ctx source round outcome trace r join exclude r₁ →
      r₁.keys = r.keys := by
    intro outcome trace r r₁ join exclude h
    cases h with
    | arrive =>
      rw [InstanceRows.keys_log, InstanceRows.keys_passMerges]
      exact List.append_nil _
    | emptyFanOut => exact keys_fanOutRows ..
  induction h with
  | schedule _ _ hsched => rw [InstanceRows.keys_pointTo, hsched.keys, InstanceRows.keys_passMerges]
  | fan _ hbranches => rw [hbranches.keys, keys_fanOutRows]
  | @wait _ _ _ r₁ _ _ _ _ h _ _ =>
    show r₁.keys = _
    exact hreach h
  | fire h _ _ _ ih => rw [ih, InstanceRows.keys_fire, hreach h]
  | @complete result trace r r₁ os _ hr₁ _ =>
    subst hr₁
    show (InstanceRows.log _ _ _ _ _).keys = _
    rw [InstanceRows.keys_log]
    exact (List.append_nil _).trans (InstanceRows.keys_passMerges ..)
  | rework _ _ _ hsched =>
    rw [InstanceRows.keys_log]
    exact (List.append_nil _).trans (hsched.keys.trans (InstanceRows.keys_passMerges ..))
  | error =>
    rw [InstanceRows.keys_log, InstanceRows.keys_errorOut, InstanceRows.keys_passMerges]
    exact List.append_nil _

/-- A call puts its own key on record, or none. -/
private theorem Effect.keys {call : Call} {r r' : InstanceRows} (h : Effect svc env call r r') :
    r'.keys = r.keys ∨ ∃ key, call.key = some key ∧ r'.keys = r.keys ++ [key] := by
  have hnone : ∀ {r₀ : InstanceRows} {t : EventType} {p : Json}, r₀.keys = r.keys →
      (r₀.log env.now t p none).keys = r.keys := by
    intro r₀ t p h
    rw [InstanceRows.keys_log, h]
    exact List.append_nil _
  cases h with
  | nothing => exact .inl rfl
  | assignee =>
    refine .inr ⟨_, rfl, ?_⟩
    rw [InstanceRows.assign, InstanceRows.keys_log]
    rfl
  | @advance cmd _ r₁ _ row node ctx _ _ _ _ _ _ _ hctx happly =>
    refine .inr ⟨_, rfl, ?_⟩
    have hwritten : r₁.keys = r.keys := by
      cases hctx with
      | none => rfl
      | merged => exact hnone rfl
    rw [happly.keys, InstanceRows.resolve, InstanceRows.keys_resume, InstanceRows.completeActivity,
      InstanceRows.keys_log, ← hwritten]
    refine (List.append_nil _).trans ?_
    exact InstanceRows.keys_log r₁ env.now _ _ (some cmd.idempotencyKey)
  | @reenter _ key _ _ _ _ _ _ _ _ _ _ _ _ hsched =>
    refine .inr ⟨_, rfl, ?_⟩
    rw [InstanceRows.keys_pointTo, hsched.keys]
    exact InstanceRows.keys_log _ env.now _ _ (some key)
  | timerGone => exact .inl rfl
  | reminder => exact .inl ((InstanceRows.keys_enqueueOutbox ..).trans (hnone rfl))
  | escalationGone => exact .inl (hnone rfl)
  | escalated => exact .inl ((InstanceRows.keys_enqueueOutbox ..).trans (hnone (hnone rfl)))
  | timedOut _ _ _ _ _ _ _ happly => exact .inl (happly.keys.trans (hnone (hnone rfl)))
  | delivered _ _ _ _ happly => exact .inl (happly.keys.trans (hnone rfl))
  | callback => exact .inl rfl
  | deadLetter => exact .inl (hnone rfl)

/-- In a reachable store no key stands twice on the record of an instance. -/
private theorem keys_nodup_of_reachable {store : Store} (h : (engine svc).Reachable store) :
    ∀ r ∈ store, r.keys.Nodup := by
  refine h.invariant (P := fun store => ∀ r ∈ store, r.keys.Nodup) ?_ ?_
  · rintro _ rfl
    simp
  · intro s op s' hs hP hstep _
    have w := wellFormed_of_reachable hs
    cases hstep with
    | start hstart =>
      rcases start_returns hstart with ⟨r, -, -, rfl⟩ | ⟨-, -, r', hstarted, rfl⟩
      · exact hP
      · refine List.forall_mem_append.2 ⟨hP, ?_⟩
        obtain ⟨entryId, entryRole, node, row, r₁, -, -, hsched, rfl⟩ := hstarted.rows
        rw [List.forall_mem_singleton, InstanceRows.keys_pointTo, hsched.keys, InstanceRows.keys_log]
        simp [InstanceRows.keys, insertedRows]
    | @call supply pre post r r' call drawn hcall =>
      have hr : r ∈ pre ++ r :: post := by simp
      have heffect := effect_of_returns (w.foreign supply) (w.rows r hr).timersOwned hcall
      have hnew : r'.keys.Nodup := by
        rcases heffect.keys with hsame | ⟨key, hkey, hadd⟩
        · rw [hsame]
          exact hP r hr
        · by_cases hmem : key ∈ r.keys
          · obtain rfl : r' = r := congrArg Tx.rows ((hcall.records hkey).2.2 hmem)
            exact hP r' hr
          · rw [hadd]
            exact List.nodup_append.2 ⟨hP r hr, by simp, by
              rintro a ha b hb rfl
              exact hmem (List.mem_singleton.1 hb ▸ ha)⟩
      intro x hx
      rcases List.mem_append.1 hx with hx | hx
      · exact hP x (List.mem_append_left _ hx)
      · rcases List.mem_cons.1 hx with rfl | hx
        · exact hnew
        · exact hP x (by simp [hx])

/-- No key is on record twice, and a call that carried a key has put it there for good: whatever
happens next, every signal and every resubmit with this key replays. -/
theorem keyed_calls_replay {store : Store} (h : (engine svc).Reachable store) :
    (∀ r ∈ store, r.keys.Nodup) ∧
    ∀ {store₁ store₂ others : Store} {r r₁ r₂ : InstanceRows} {call call' : Call} {key : String},
      Commits svc store (.call others r call r₁) store₁ → call.key = some key →
      (engine svc).Run store₁ store₂ → r₂ ∈ store₂ → r₂.inst.id = r₁.inst.id →
      call'.key = some key → call'.Sees r₂ → call'.Replays svc r₂ := by
  refine ⟨keys_nodup_of_reachable h, ?_⟩
  intro store₁ store₂ others r r₁ r₂ call call' key hstep hkey hrun hr₂ hid hkey' hsees
  have h₁ : (engine svc).Reachable store₁ := h.step hstep trivial
  cases hstep with
  | @call supply pre post r r₁ call drawn hcall =>
    obtain ⟨hblank, hmem, -⟩ := hcall.records hkey
    refine replays_of_mem hblank ?_ hkey' hsees
    have hfree : (engine svc).RunIf (OnInstance r₁.inst.id fun _ _ _ => True) _ store₂ :=
      hrun.mono fun _ op _ => by cases op <;> simp [OnInstance]
    refine rows_later (Q := fun r => key ∈ r.keys) (fun env call r r' w hQ heffect _ => ?_) h₁ hfree
      (by simp) hmem r₂ hr₂ hid
    obtain ⟨new, hnew⟩ := (heffect.keeps w).evolves.events
    rw [InstanceRows.keys, hnew, List.filterMap_append]
    exact List.mem_append_left _ hQ

end

/-- A started instance whose first approval is approved; a resubmit with the key of that signal
replays. -/
theorem keyed_calls_replay_approved :
    let svc := Sample.service "c2bc3ade0e1d92260cb93c456d1a07b4bac07dcf8fbc5f9aa0b484b5c0504300"
    let store := played svc 9 [Sample.start (Sample.definition [Sample.approval "a", Sample.approval "b"]
      [Sample.approved "a" "b", Sample.approved "b" "end"]) none]
    (∀ r ∈ store, r.keys.Nodup) ∧
      ∃ others r call r₁ store₁, Commits svc store (.call others r call r₁) store₁ ∧ r₁ ∈ store₁ ∧
        (Call.resubmit ⟨1, .allInTenant⟩ ("approved:" ++ Sample.uuid 0 1)).Replays svc r₁ := by
  intro svc store
  obtain ⟨hnodup, hreplay⟩ := keyed_calls_replay (reachable_played svc 9 _ : (engine svc).Reachable store)
  refine ⟨hnodup, ?_⟩
  have hstep : (store.next svc 9 1 (Sample.approve (Sample.uuid 0 1))).any fun x =>
      x.2.all fun r => r.inst.tenantId == 1 := by decide +kernel
  obtain ⟨⟨op, store₁⟩, hnext, htenant⟩ := (Option.any_eq_true _ _).1 hstep
  obtain ⟨others, r, r₁, rfl, hr₁⟩ := Store.call_of_next hnext
  have hcommit := Store.commits_of_next hnext
  refine ⟨others, r, _, r₁, store₁, hcommit, hr₁, hreplay hcommit rfl .refl hr₁ rfl rfl ?_⟩
  have : r₁.inst.tenantId = 1 := by simpa using List.all_eq_true.1 htenant r₁ hr₁
  simp [Call.Sees, ScopeFilter.sees, this]

end Fusions.Hetuflow
