import Fusions.Sql.Savepoints

/-! Closures inside a transaction: one that is careful runs as it means to, and one that is not is seen to
differ. -/
namespace Fusions.Sql
universe u
variable {σ ρ τ C κ : Type u}

/-- Two records of runs that differ at a place that both have. -/
def Diverges (xs ys : List κ) : Prop := ¬xs <+: ys ∧ ¬ys <+: xs

namespace Diverges
variable {xs ys : List κ}

theorem of_ne {x y : κ} (h : x ≠ y) (xs ys : List κ) : Diverges (x :: xs) (y :: ys) :=
  ⟨fun hp => h (List.cons_prefix_cons.1 hp).1, fun hp => h (List.cons_prefix_cons.1 hp).1.symm⟩

theorem ne (h : Diverges xs ys) : xs ≠ ys := fun heq => h.1 (heq ▸ List.prefix_rfl)

theorem prepend (h : Diverges xs ys) (common : List κ) : Diverges (common ++ xs) (common ++ ys) :=
  ⟨fun hp => h.1 ((List.prefix_append_right_inj common).1 hp),
    fun hp => h.2 ((List.prefix_append_right_inj common).1 hp)⟩

private theorem comparable {xs ys zs ws : List κ} (hp : xs ++ zs <+: ys ++ ws) : xs <+: ys ∨ ys <+: xs :=
  List.prefix_or_prefix_of_prefix ((List.prefix_append xs zs).trans hp) (List.prefix_append ys ws)

theorem append (h : Diverges xs ys) (zs ws : List κ) : Diverges (xs ++ zs) (ys ++ ws) :=
  ⟨fun hp => (comparable hp).elim h.1 h.2, fun hp => (comparable hp).elim h.2 h.1⟩

theorem nested_append (x : κ) (xs : List κ) (y : κ) (ys : List κ) :
    (x :: xs ++ [y]) ++ ys = [x] ++ (xs ++ (y :: ys)) := by
  simp

/-- Runs of a closure that diverge make the runs around them diverge. -/
theorem within (h : Diverges xs ys) (x : κ) (zs : List κ) (y : κ) (ws : List κ) :
    Diverges ([x] ++ (xs ++ zs)) ((x :: ys ++ [y]) ++ ws) := by
  rw [nested_append]
  exact (h.append zs (y :: ws)).prepend [x]

end Diverges

variable {debugAssertions : Bool} {mm : ModelManager C} {w : World σ} {txh : TxnHolder σ} {readOnly : Bool}
  {vars : SessionVars} {base : σ} {level : Nat} {state : σ} {failed : Bool} {outer : List (String × σ)}

section
variable {refuses : Refusals} {f : ModelManager C → World σ → Execution κ σ τ} {w' : World σ}
  {mmTxn : ModelManager C}

theorem ModelManager.runInTxn_error {e : SqlError} (h : mm.enter readOnly refuses w = (w', .error e)) :
    mm.runInTxn readOnly refuses f w = ⟨[], w', some (.error e)⟩ := by
  rw [runInTxn, h]

theorem ModelManager.runInTxn_ok (h : mm.enter readOnly refuses w = (w', .ok mmTxn)) {r : Except SqlError τ}
    (hr : (f mmTxn w').result = some r) :
    mm.runInTxn readOnly refuses f w =
      ⟨(f mmTxn w').seen, (mmTxn.leave refuses r (f mmTxn w').world).1,
        some (mmTxn.leave refuses r (f mmTxn w').world).2⟩ := by
  simp only [runInTxn, h, hr]

theorem ModelManager.runInTxn_seen (h : mm.enter readOnly refuses w = (w', .ok mmTxn)) :
    (mm.runInTxn readOnly refuses f w).seen = (f mmTxn w').seen := by
  simp only [runInTxn, h]
  split <;> rfl

end

namespace TxnHolder.Tracks
variable {refuses : Refusals}

theorem seen (h : txh.Tracks readOnly vars level state failed outer) (hw : w.Holds mm txh) (hdb : w.db = base) :
    (w.seen mm : Event σ ρ τ) = .inside level base := by
  rw [hw.seen, h.counter, h.names, hdb]
  rfl

/-- Entering a nested closure whose savepoint the server grants. -/
theorem enter_ok (h : txh.Tracks readOnly vars level state failed outer) (hw : w.Holds mm txh)
    (hrefuses : nestedRefusal refuses failed = none) (mode : Bool) :
    ∃ txh', mm.enter mode refuses w = (w.put mm.dbx.txnHolder (some txh'), .ok mm) ∧
      (level + 2 < 2 ^ 31 → txh'.Tracks readOnly vars (level + 1) state false
        ((savepointName (level + 1), state) :: txh.txn.savepoints)) ∧
      (2 ^ 31 ≤ level + 2 → txh'.counter ≠ level + 2) := by
  have hfailed : failed = false := by simpa using (Option.or_eq_none_iff.1 hrefuses).2
  have henter := hw.enter mode refuses
  rw [h.savepoint_ok hrefuses] at henter
  exact ⟨_, henter, h.nest hfailed, h.inc_counter_of_le⟩

/-- Where the server refuses it, the counter is one too high. -/
theorem enter_error (h : txh.Tracks readOnly vars level state failed outer) (hw : w.Holds mm txh) {m : String}
    (hrefuses : nestedRefusal refuses failed = some m) (mode : Bool) :
    ∃ txh', mm.enter mode refuses w = (w.put mm.dbx.txnHolder (some txh'),
        .error (.dbxError (.ofSavepoint "create" (savepointName (level + 1)) m))) ∧
      txh'.counter ≠ level + 1 := by
  have hname : txh.inc.1 = savepointName (level + 1) := congrArg savepointName h.counter
  have henter := hw.enter mode refuses
  rw [h.savepoint_error hrefuses, hname] at henter
  exact ⟨_, henter, h.inc_counter_ne⟩

variable {txh' : TxnHolder σ} {e : Effect σ ρ τ}
  (h : txh.Tracks readOnly vars level state failed outer)
  (h' : txh'.Tracks readOnly vars (level + 1) e.state e.failed
    ((savepointName (level + 1), state) :: txh.txn.savepoints)) (hw : w.Holds mm txh')
include h h' hw

/-- Leaving a nested closure as its parent sees it, unless it ends aborted and with success. -/
theorem leave_nested (hends : e.SoundNested refuses level state) :
    ∃ txh'', mm.leave refuses e.result w =
        (w.put mm.dbx.txnHolder (some txh''), (e.nested refuses level state).1) ∧
      txh''.Tracks readOnly vars level (e.nested refuses level state).2.1 (e.nested refuses level state).2.2
        outer := by
  have hcounter : (level : Int) + 1 ≠ 0 := by omega
  obtain ⟨seen, result, state', failed'⟩ := e
  rcases result with err | v
  · have hleave := hw.rollbackTxn refuses h'.dec_eq hcounter
    refine ⟨_, Prod.ext hleave rfl, h.rollbackTo h' refuses⟩
  · have hcommit := hw.commitTxn refuses h'.dec_eq hcounter
    rcases hrelease : refuses .release with _ | m
    · have hnested : Effect.nested ⟨seen, .ok v, state', failed'⟩ refuses level state = (.ok v, state', false) := by
        simp only [Effect.nested, hrelease]
      have hfailed : failed' = false := hends (by rw [hnested]; rfl)
      rw [hnested]
      obtain ⟨hok, htracks⟩ := h.release_ok h' hrelease hfailed
      rw [hok] at hcommit
      refine ⟨_, ?_, htracks⟩
      simp only [ModelManager.leave, hcommit]
      rfl
    · obtain ⟨hrefused, htracks⟩ := h.release_refused h' hrelease
      rw [hrefused] at hcommit
      simp only [Effect.nested, hrelease]
      refine ⟨_, ?_, htracks⟩
      simp only [ModelManager.leave, hcommit]
      rfl

omit h in
/-- One that ends aborted and with success is an error of its call. -/
theorem leave_aborted (hends : (e.nested refuses level state).1.toOption.isSome) (hfailed : e.failed = true) :
    (mm.leave refuses e.result w).2 ≠ (e.nested refuses level state).1 := by
  have hcounter : (level : Int) + 1 ≠ 0 := by omega
  obtain ⟨seen, result, state', failed'⟩ := e
  rcases result with err | v
  · cases hends
  · have hcommit := hw.commitTxn refuses h'.dec_eq hcounter
    rcases hrelease : refuses .release with _ | m
    · have haborted := h'.release_aborted hrelease hfailed
      rw [haborted] at hcommit
      simp only [ModelManager.leave, hcommit, Effect.nested, hrelease]
      exact fun heq => nomatch heq
    · simp only [Effect.nested, hrelease] at hends
      cases hends

end TxnHolder.Tracks

namespace Body

theorem exec_transaction (readOnly : Bool) (refuses : Refusals) (closure : Body σ ρ τ)
    (next : Except SqlError τ → Body σ ρ τ) :
    (Body.transaction readOnly refuses closure next).exec debugAssertions mm w =
      let run := mm.runInTxn readOnly refuses (closure.exec debugAssertions) w
      match run.result with
      | none => run.after [w.seen mm]
      | some r =>
        ((next r).exec debugAssertions mm run.world).after (w.seen mm :: run.seen ++ [.returned r]) := by
  conv_lhs => unfold exec
  cases readOnly <;> rfl

/-- A run is first seen where it starts. -/
theorem exec_seen (b : Body σ ρ τ) (debugAssertions : Bool) (mm : ModelManager C) (w : World σ) :
    ∃ rest, (b.exec debugAssertions mm w).seen = w.seen mm :: rest := by
  cases b with
  | done r => exact ⟨[], rfl⟩
  | statement f s next =>
    unfold exec
    split <;> exact ⟨_, rfl⟩
  | transaction readOnly refuses closure next =>
    rw [exec_transaction]
    dsimp only
    split <;> exact ⟨_, rfl⟩

theorem inside_seen (b : Body σ ρ τ) (readOnly : Bool) (vars : SessionVars) (base : σ) (level : Nat) (state : σ)
    (failed : Bool) :
    ∃ rest, (b.inside readOnly vars base level state failed).seen = .inside level base :: rest := by
  cases b with
  | done r => exact ⟨[], rfl⟩
  | statement f s next => exact ⟨_, rfl⟩
  | transaction readOnly refuses closure next =>
    unfold inside
    split <;> exact ⟨_, rfl⟩

theorem meaning_seen (b : Body σ ρ τ) (orphaned : Bool) (vars : SessionVars) (db : σ) :
    ∃ rest, (b.meaning orphaned vars db).seen = .outside db :: rest := by
  cases b with
  | done r => exact ⟨[], rfl⟩
  | statement f s next =>
    unfold meaning
    split <;> exact ⟨_, rfl⟩
  | transaction readOnly refuses closure next =>
    unfold meaning
    split <;> exact ⟨_, rfl⟩

theorem inside_transaction {refuses : Refusals} (hrefuses : nestedRefusal refuses failed = none)
    (mode : Bool) (closure : Body σ ρ τ) (next : Except SqlError τ → Body σ ρ τ) :
    (Body.transaction mode refuses closure next).inside readOnly vars base level state failed =
      let e := closure.inside readOnly vars base (level + 1) state false
      let left := e.nested refuses level state
      ((next left.1).inside readOnly vars base level left.2.1 left.2.2).after
        (.inside level base :: e.seen ++ [.returned left.1]) := by
  rw [inside, hrefuses]

theorem carefulInside_transaction (mode : Bool) (refuses : Refusals) (closure : Body σ ρ τ)
    (next : Except SqlError τ → Body σ ρ τ) :
    (Body.transaction mode refuses closure next).CarefulInside readOnly vars base level state failed ↔
      let e := closure.inside readOnly vars base (level + 1) state false
      let left := e.nested refuses level state
      nestedRefusal refuses failed = none ∧ level + 2 < 2 ^ 31 ∧
        closure.CarefulInside readOnly vars base (level + 1) state false ∧
        e.SoundNested refuses level state ∧
        (next left.1).CarefulInside readOnly vars base level left.2.1 left.2.2 :=
  Iff.rfl

/-- A run of a closure in its transaction has the effect that the closure means. -/
structure Follows (run : Execution (Event σ ρ τ) σ τ) (e : Effect σ ρ τ) (mm : ModelManager C) (readOnly : Bool)
    (vars : SessionVars) (base : σ) (level : Nat) (outer : List (String × σ)) : Prop where
  seen : run.seen = e.seen
  result : run.result = some e.result
  db : run.world.db = base
  holds : ∃ txh, run.world.Holds mm txh ∧ txh.Tracks readOnly vars level e.state e.failed outer

theorem Follows.after {run : Execution (Event σ ρ τ) σ τ} {e : Effect σ ρ τ}
    (h : Follows run e mm readOnly vars base level outer) {xs ys : List (Event σ ρ τ)} (hxs : xs = ys) :
    Follows (run.after xs) (e.after ys) mm readOnly vars base level outer :=
  ⟨by rw [Execution.after, Effect.after, h.seen, hxs], h.result, h.db, h.holds⟩

/-- A closure that is careful runs as it means to. -/
theorem follows (b : Body σ ρ τ) (debugAssertions : Bool) (hw : w.Holds mm txh) (hdb : w.db = base)
    (h : txh.Tracks readOnly vars level state failed outer)
    (hcareful : b.CarefulInside readOnly vars base level state failed) :
    Follows (b.exec debugAssertions mm w) (b.inside readOnly vars base level state failed) mm readOnly vars base
      level outer := by
  induction b generalizing w txh level state failed outer with
  | done r => exact ⟨by rw [exec, inside, h.seen hw hdb], rfl, hdb, txh, hw, h⟩
  | statement f s next ih =>
    obtain ⟨hanswer, htracks⟩ := h.execute s
    unfold exec inside
    simp only [hw.fetch, hanswer]
    refine (ih _ (hw.put _) hdb htracks hcareful).after ?_
    rw [h.seen hw hdb]
  | transaction mode refuses closure next ihc ihn =>
    obtain ⟨hrefuses, hdepth, hclosure, hends, hnext⟩ := (carefulInside_transaction ..).1 hcareful
    obtain ⟨txh', henter, hnest, -⟩ := h.enter_ok hw hrefuses mode
    have hrun := ihc (hw.put txh') hdb (hnest hdepth) hclosure
    obtain ⟨txh'', hw', h'⟩ := hrun.holds
    obtain ⟨txh₁, hleave, h₁⟩ := h.leave_nested h' hw' hends
    rw [exec_transaction, ModelManager.runInTxn_ok henter hrun.result, hleave, hrun.seen,
      inside_transaction hrefuses]
    refine (ihn _ (hw'.put txh₁) hrun.db h₁ hnext).after ?_
    rw [h.seen hw hdb]

section
variable {refuses : Refusals} {mode : Bool} {closure : Body σ ρ τ} {next : Except SqlError τ → Body σ ρ τ}

/-- A counter that is not the depth shows at the next step. -/
theorem seen_ne (b : Body σ ρ τ) (hw : w.Holds mm txh) (hcounter : txh.counter ≠ level + 1) :
    Diverges (b.exec debugAssertions mm w).seen (b.inside readOnly vars base level state failed).seen := by
  obtain ⟨rest, hrest⟩ := b.exec_seen debugAssertions mm w
  obtain ⟨rest', hrest'⟩ := b.inside_seen readOnly vars base level state failed
  rw [hrest, hrest', hw.seen]
  refine Diverges.of_ne (fun heq => hcounter ?_) rest rest'
  injection heq

theorem diverges_of_refused (hw : w.Holds mm txh) (hdb : w.db = base)
    (h : txh.Tracks readOnly vars level state failed outer) {m : String}
    (hrefuses : nestedRefusal refuses failed = some m) :
    Diverges ((Body.transaction mode refuses closure next).exec debugAssertions mm w).seen
      ((Body.transaction mode refuses closure next).inside readOnly vars base level state failed).seen := by
  obtain ⟨txh', henter, hcounter⟩ := h.enter_error hw hrefuses mode
  rw [exec_transaction, ModelManager.runInTxn_error henter, inside, hrefuses]
  have hnext (r : Except SqlError τ) :
      Diverges ((next r).exec debugAssertions mm (w.put mm.dbx.txnHolder (some txh'))).seen
        ((next r).inside readOnly vars base level state true).seen :=
    (next r).seen_ne (hw.put txh') hcounter
  rw [h.seen hw hdb]
  exact (hnext _).prepend [_, _]

/-- What is seen of a transaction begins with what is seen of its closure. -/
theorem exec_transaction_seen (debugAssertions : Bool) (closure : Body σ ρ τ)
    (next : Except SqlError τ → Body σ ρ τ) {w' : World σ} {mmTxn : ModelManager C}
    (henter : mm.enter mode refuses w = (w', .ok mmTxn)) :
    ∃ rest, ((Body.transaction mode refuses closure next).exec debugAssertions mm w).seen =
      [w.seen mm] ++ ((closure.exec debugAssertions mmTxn w').seen ++ rest) := by
  have hrun : (mm.runInTxn mode refuses (closure.exec debugAssertions) w).seen = _ :=
    ModelManager.runInTxn_seen henter
  rw [exec_transaction, ← hrun]
  dsimp only
  split
  · exact ⟨[], by rw [List.append_nil, Execution.after]⟩
  · exact ⟨_, Diverges.nested_append ..⟩

/-- A closure that diverges, on the handle of its parent, makes its transaction diverge. -/
theorem diverges_of_closure {w' : World σ} (hseen : (w.seen mm : Event σ ρ τ) = .inside level base)
    (hrefuses : nestedRefusal refuses failed = none) (henter : mm.enter mode refuses w = (w', .ok mm))
    (hclosure : Diverges (closure.exec debugAssertions mm w').seen
      (closure.inside readOnly vars base (level + 1) state false).seen) :
    Diverges ((Body.transaction mode refuses closure next).exec debugAssertions mm w).seen
      ((Body.transaction mode refuses closure next).inside readOnly vars base level state failed).seen := by
  obtain ⟨rest, hrest⟩ := exec_transaction_seen debugAssertions closure next henter
  rw [hrest, hseen, inside_transaction hrefuses]
  exact hclosure.within _ rest _ _

end

/-- One that is not is seen to differ. -/
theorem diverges (b : Body σ ρ τ) (debugAssertions : Bool) (hw : w.Holds mm txh) (hdb : w.db = base)
    (h : txh.Tracks readOnly vars level state failed outer)
    (hcareful : ¬b.CarefulInside readOnly vars base level state failed) :
    Diverges (b.exec debugAssertions mm w).seen (b.inside readOnly vars base level state failed).seen := by
  induction b generalizing w txh level state failed outer with
  | done r => exact absurd trivial hcareful
  | statement f s next ih =>
    obtain ⟨hanswer, htracks⟩ := h.execute s
    unfold exec inside
    simp only [hw.fetch, hanswer]
    have hrest := (ih _ (hw.put _) hdb htracks hcareful).prepend
    rw [Execution.after, Effect.after, h.seen hw hdb]
    exact hrest _
  | transaction mode refuses closure next ihc ihn =>
    have hseen : (w.seen mm : Event σ ρ τ) = .inside level base := h.seen hw hdb
    rcases hrefuses : nestedRefusal refuses failed with _ | m
    · obtain ⟨txh', henter, hnest, hdeep⟩ := h.enter_ok hw hrefuses mode
      by_cases hdepth : level + 2 < 2 ^ 31
      · by_cases hclosure : closure.CarefulInside readOnly vars base (level + 1) state false
        · have hrun := closure.follows debugAssertions (hw.put txh') hdb (hnest hdepth) hclosure
          obtain ⟨txh'', hw', h'⟩ := hrun.holds
          rw [exec_transaction, ModelManager.runInTxn_ok henter hrun.result, inside_transaction hrefuses, hseen,
            hrun.seen]
          by_cases hends : (closure.inside readOnly vars base (level + 1) state false).SoundNested refuses level state
          · obtain ⟨txh₁, hleave, h₁⟩ := h.leave_nested h' hw' hends
            rw [hleave]
            refine (ihn _ (hw'.put txh₁) hrun.db h₁ fun hnext => hcareful ?_).prepend _
            exact ⟨hrefuses, hdepth, hclosure, hends, hnext⟩
          · obtain ⟨hok, hfailed⟩ := Classical.not_imp.1 hends
            have hne := h'.leave_aborted hw' hok (Bool.not_eq_false _ ▸ hfailed)
            refine ((Diverges.of_ne (fun heq => hne ?_) _ _).prepend (Event.inside level base :: _)).append _ _
            injection heq
        · exact diverges_of_closure hseen hrefuses henter (ihc (hw.put txh') hdb (hnest hdepth) hclosure)
      · have hcounter := hdeep (Nat.le_of_not_lt hdepth)
        exact diverges_of_closure hseen hrefuses henter (closure.seen_ne (hw.put txh') (by exact_mod_cast hcounter))
    · exact diverges_of_refused hw hdb h hrefuses

end Body

end Fusions.Sql
