import Fusions.Sql.Nested

/-! Transactions around closures: the code runs a program as nested transactions would, if and only if the
program is careful after failed statements. -/
namespace Fusions.Sql
universe u
variable {σ ρ τ C : Type u} {debugAssertions : Bool} {mm : ModelManager C} {w : World σ}

/-- No transaction is open on the handle. -/
def World.Free (w : World σ) (mm : ModelManager C) : Prop :=
  mm.dbx.txn = true → w.holders mm.dbx.txnHolder = none

namespace World.Free
variable {refuses : Refusals}

theorem seen (h : w.Free mm) : (w.seen mm : Event σ ρ τ) = .outside w.db := by
  unfold World.seen
  split
  · next txh heq =>
    split at heq
    · next htxn => cases (h htxn).symm.trans heq
    · cases heq
  · rfl

theorem route (h : w.Free mm) : mm.dbx.route debugAssertions w = mm.dbx.fallThrough debugAssertions := by
  unfold DbxPostgres.route
  split
  · next htxn => rw [h htxn]
  · rfl

/-- A statement outside of transactions. -/
theorem fetch (h : w.Free mm) (f : Fetch) (s : Statement σ ρ) :
    mm.dbx.fetch debugAssertions f s w =
      if debugAssertions && !mm.dbx.noOrphanSessionVars then none
      else some ({ w with db := (s.autocommit w.db).2 }, f.result (s.autocommit w.db).1) := by
  simp only [DbxPostgres.fetch, h.route, DbxPostgres.fallThrough]
  split
  · next heq =>
    split at heq <;> cases heq
  · next heq =>
    split at heq
    · cases heq
    · next hok => rw [if_neg hok]
  · next heq =>
    split at heq
    · next hrejected => rw [if_pos hrejected]
    · cases heq

/-- The handle of the transaction that a call outside of transactions begins. -/
theorem getTxnClone (h : w.Free mm) :
    ∃ mmTxn w', mm.getTxnClone w = (mmTxn, w') ∧ mmTxn.dbx.txn = true ∧
      mmTxn.dbx.sessionVars = mm.dbx.sessionVars ∧ w'.holders mmTxn.dbx.txnHolder = none ∧ w'.db = w.db ∧
      w'.Free mm ∧ (mm.dbx.txn = true → mmTxn.dbx.txnHolder = mm.dbx.txnHolder) := by
  unfold ModelManager.getTxnClone
  split
  · next htxn => exact ⟨mm, w, rfl, htxn, rfl, h htxn, rfl, h, fun _ => rfl⟩
  · next htxn =>
    exact ⟨_, _, rfl, rfl, rfl, Function.update_self .., rfl, fun h' => absurd h' htxn, fun h' => absurd h' htxn⟩

theorem enter (h : w.Free mm) (readOnly : Bool) (refuses : Refusals) :
    ∃ mmTxn w', w'.db = w.db ∧ w'.Free mm ∧ mmTxn.dbx.txn = true ∧
      (mm.dbx.txn = true → mmTxn.dbx.txnHolder = mm.dbx.txnHolder) ∧
      mm.enter readOnly refuses w =
        match beginRefusal readOnly mm.dbx.sessionVars refuses with
        | some m => (w', .error (.dbxError (.sqlx m)))
        | none =>
          (w'.put mmTxn.dbx.txnHolder (some (.new ⟨readOnly, mm.dbx.sessionVars, w.db, [], false⟩)),
            .ok mmTxn) := by
  obtain ⟨mmTxn, w', hget, htxn, hvars, hnone, hdb, hfree, hsame⟩ := h.getTxnClone
  refine ⟨mmTxn, w', hdb, hfree, htxn, hsame, ?_⟩
  simp only [ModelManager.enter_eq, hget, DbxPostgres.beginTxnInner, htxn, hnone, Bool.not_true,
    Bool.false_eq_true, if_false, DbxPostgres.opened_eq, hvars, hdb]
  rcases beginRefusal readOnly mm.dbx.sessionVars refuses with _ | m <;> rfl

end World.Free

/-- Leaving the outermost closure commits nothing where a statement of it failed, whatever it returns. -/
theorem TxnHolder.Tracks.leave_top {txh : TxnHolder σ} {readOnly : Bool} {vars : SessionVars} {e : Effect σ ρ τ}
    {outer : List (String × σ)} (h : txh.Tracks readOnly vars 0 e.state e.failed outer) (hw : w.Holds mm txh)
    (refuses : Refusals) :
    mm.leave refuses e.result w =
      ({ w.put mm.dbx.txnHolder none with db := if e.failed then w.db else (e.top refuses w.db).2 },
        (e.top refuses w.db).1) := by
  have hdec : txh.dec = ((0 : Int), none, { txh with counter := 0, savepoints := [] }) := by
    unfold TxnHolder.dec
    rw [h.counter, h.names]
    rfl
  obtain ⟨seen, result, state, failed⟩ := e
  have haborted := h.aborted
  have hcurrent := h.current
  dsimp only at haborted hcurrent
  rcases result with err | v
  · have hrollback : (mm.dbx.rollbackTxn refuses w).1 = w.put mm.dbx.txnHolder none := by
      simp only [DbxPostgres.rollbackTxn, hw.holder, hdec, if_true, PgTransaction.rollback]
      rcases refuses .rollback with _ | m <;> rfl
    simp only [ModelManager.leave, hrollback, Effect.top]
    cases failed <;> rfl
  · have hcommit : mm.dbx.commitTxn refuses w =
        ({ w.put mm.dbx.txnHolder none with db := (txh.txn.commit w.db refuses).1 },
          (txh.txn.commit w.db refuses).2.mapError .sqlx) := by
      simp only [DbxPostgres.commitTxn, hw.txn, hw.holder, hdec, Bool.not_true, Bool.false_eq_true, if_false,
        if_true]
    simp only [ModelManager.leave, hcommit, Effect.top, PgTransaction.commit, haborted]
    rcases refuses .commit with _ | m
    · cases failed
      · rw [hcurrent rfl]
        rfl
      · rfl
    · cases failed <;> rfl

/-- What a transaction leaves committed is what it should, unless it is lost. -/
theorem Effect.kept_iff (e : Effect σ ρ τ) (refuses : Refusals) (db : σ) :
    (if e.failed then db else (e.top refuses db).2) = (e.top refuses db).2 ↔
      e.SoundTop refuses db := by
  obtain ⟨seen, result, state, failed⟩ := e
  unfold SoundTop
  rcases result with err | v
  · exact iff_of_true (ite_self _) nofun
  · rcases hcommit : refuses .commit with _ | m
    · simp only [Effect.top, hcommit, Except.toOption, Option.isSome_some]
      cases failed <;> simp [eq_comm]
    · simp only [Effect.top, hcommit, Except.toOption, ite_self]
      exact iff_of_true trivial nofun

namespace Body
variable {mode : Bool} {refuses : Refusals} {closure : Body σ ρ τ} {next : Except SqlError τ → Body σ ρ τ}

theorem exec_refused (hfree : w.Free mm) {m : String}
    (hrefuses : beginRefusal mode mm.dbx.sessionVars refuses = some m) :
    ∃ w', w'.db = w.db ∧ w'.Free mm ∧
      (Body.transaction mode refuses closure next).exec debugAssertions mm w =
        ((next (.error (.dbxError (.sqlx m)))).exec debugAssertions mm w').after
          [.outside w.db, .returned (.error (.dbxError (.sqlx m)))] := by
  obtain ⟨mmTxn, w', hdb, hfree', -, -, henter⟩ := hfree.enter mode refuses
  rw [hrefuses] at henter
  refine ⟨w', hdb, hfree', ?_⟩
  rw [exec_transaction, ModelManager.runInTxn_error henter, hfree.seen]
  rfl

/-- A transaction begins its closure in a new transaction of the server. -/
theorem exec_begun (hfree : w.Free mm) (hrefuses : beginRefusal mode mm.dbx.sessionVars refuses = none) :
    ∃ mmTxn w' txh, mm.enter mode refuses w = (w', .ok mmTxn) ∧ w'.Holds mmTxn txh ∧ w'.db = w.db ∧
      txh.Tracks mode mm.dbx.sessionVars 0 w.db false [] ∧
      ∀ (v : World σ) (db : σ), ({ v.put mmTxn.dbx.txnHolder none with db := db }).Free mm := by
  obtain ⟨mmTxn, w', hdb, -, htxn, hsame, henter⟩ := hfree.enter mode refuses
  rw [hrefuses] at henter
  refine ⟨mmTxn, _, _, henter, ⟨htxn, Function.update_self ..⟩, hdb, ?_, fun v db hmm => ?_⟩
  · exact ⟨rfl, by omega, rfl, rfl, rfl, rfl, fun _ => rfl, [], rfl, by simp⟩
  · rw [← hsame hmm]
    exact Function.update_self ..

/-- A transaction whose closure is careful, up to its return. -/
theorem exec_returned (hfree : w.Free mm) (hrefuses : beginRefusal mode mm.dbx.sessionVars refuses = none)
    (hclosure : closure.CarefulInside mode mm.dbx.sessionVars w.db 0 w.db false) :
    let e := closure.inside mode mm.dbx.sessionVars w.db 0 w.db false
    ∃ w₁, w₁.db = (if e.failed then w.db else (e.top refuses w.db).2) ∧ w₁.Free mm ∧
      (Body.transaction mode refuses closure next).exec debugAssertions mm w =
        ((next (e.top refuses w.db).1).exec debugAssertions mm w₁).after
          (.outside w.db :: e.seen ++ [.returned (e.top refuses w.db).1]) := by
  intro e
  obtain ⟨mmTxn, w', txh, henter, hw, hdb, htracks, hafter⟩ := exec_begun hfree hrefuses
  have hrun := closure.follows debugAssertions hw hdb htracks hclosure
  obtain ⟨txh', hw', h'⟩ := hrun.holds
  have hleave := h'.leave_top hw' refuses
  rw [hrun.db] at hleave
  refine ⟨{ (closure.exec debugAssertions mmTxn w').world.put mmTxn.dbx.txnHolder none with
    db := if e.failed then w.db else (e.top refuses w.db).2 }, rfl, hafter _ _, ?_⟩
  rw [exec_transaction, ModelManager.runInTxn_ok henter hrun.result, hleave, hrun.seen, hfree.seen]

theorem exec_statement (hfree : w.Free mm) (f : Fetch) (s : Statement σ ρ)
    (next : Except DbxError (Fetched ρ) → Body σ ρ τ) :
    (Body.statement f s next).exec debugAssertions mm w =
      if debugAssertions && !mm.dbx.noOrphanSessionVars then ⟨[.outside w.db], w, none⟩
      else ((next (f.result (s.autocommit w.db).1)).exec debugAssertions mm
        { w with db := (s.autocommit w.db).2 }).after
          [.outside w.db, .replied (f.result (s.autocommit w.db).1)] := by
  rw [exec, hfree.fetch, hfree.seen]
  by_cases horphaned : (debugAssertions && !mm.dbx.noOrphanSessionVars) = true
  · rw [if_pos horphaned, if_pos horphaned]
  · rw [if_neg horphaned, if_neg horphaned]

theorem meaning_transaction {orphaned : Bool} {vars : SessionVars} {db : σ}
    (hrefuses : beginRefusal mode vars refuses = none) :
    (Body.transaction mode refuses closure next).meaning orphaned vars db =
      let e := closure.inside mode vars db 0 db false
      ((next (e.top refuses db).1).meaning orphaned vars (e.top refuses db).2).after
        (.outside db :: e.seen ++ [.returned (e.top refuses db).1]) := by
  rw [meaning, hrefuses]

theorem careful_transaction {orphaned : Bool} {vars : SessionVars} {db : σ}
    (hrefuses : beginRefusal mode vars refuses = none) :
    (Body.transaction mode refuses closure next).Careful orphaned vars db ↔
      let e := closure.inside mode vars db 0 db false
      closure.CarefulInside mode vars db 0 db false ∧
        e.SoundTop refuses db ∧ (next (e.top refuses db).1).Careful orphaned vars (e.top refuses db).2 := by
  rw [Careful, hrefuses]

theorem Outcome.of_after {run : Execution (Event σ ρ τ) σ τ} {o : Outcome σ ρ τ} (h : run.outcome = o)
    (seen : List (Event σ ρ τ)) : (run.after seen).outcome = o.after seen := by
  rw [← h]
  rfl

/-- A program that is careful runs as it means to. -/
theorem exec_eq_meaning (b : Body σ ρ τ) (hfree : w.Free mm)
    (hcareful : b.Careful (debugAssertions && !mm.dbx.noOrphanSessionVars) mm.dbx.sessionVars w.db) :
    (b.exec debugAssertions mm w).outcome =
      b.meaning (debugAssertions && !mm.dbx.noOrphanSessionVars) mm.dbx.sessionVars w.db := by
  induction b generalizing w with
  | done r =>
    rw [exec, meaning, hfree.seen]
    rfl
  | statement f s next ih =>
    rw [exec_statement hfree, meaning]
    split
    · rfl
    · next horphaned =>
      have hfree' : ({ w with db := (s.autocommit w.db).2 }).Free mm := hfree
      exact Outcome.of_after (ih _ hfree' (hcareful.resolve_left horphaned)) _
  | transaction mode refuses closure next _ ihn =>
    rcases hrefuses : beginRefusal mode mm.dbx.sessionVars refuses with _ | m
    · obtain ⟨hclosure, hends, hnext⟩ := (careful_transaction hrefuses).1 hcareful
      obtain ⟨w₁, hdb, hfree', hexec⟩ := exec_returned hfree hrefuses hclosure
      have hkept := hdb.trans ((Effect.kept_iff _ refuses w.db).2 hends)
      rw [hexec, meaning_transaction hrefuses]
      dsimp only
      rw [← hkept] at hnext ⊢
      exact Outcome.of_after (ihn _ hfree' hnext) _
    · obtain ⟨w', hdb, hfree', hexec⟩ := exec_refused hfree hrefuses
      rw [Careful, hrefuses] at hcareful
      rw [hexec, meaning, hrefuses]
      rw [← hdb] at hcareful ⊢
      exact Outcome.of_after (ihn _ hfree' hcareful) _

/-- One that is not is seen to differ. -/
theorem exec_diverges (b : Body σ ρ τ) (hfree : w.Free mm)
    (hcareful : ¬b.Careful (debugAssertions && !mm.dbx.noOrphanSessionVars) mm.dbx.sessionVars w.db) :
    Diverges (b.exec debugAssertions mm w).seen
      (b.meaning (debugAssertions && !mm.dbx.noOrphanSessionVars) mm.dbx.sessionVars w.db).seen := by
  induction b generalizing w with
  | done r => exact absurd trivial hcareful
  | statement f s next ih =>
    obtain ⟨horphaned, hnext⟩ := not_or.1 hcareful
    have hfree' : ({ w with db := (s.autocommit w.db).2 }).Free mm := hfree
    rw [exec_statement hfree, meaning, if_neg horphaned, if_neg horphaned]
    exact (ih _ hfree' hnext).prepend _
  | transaction mode refuses closure next _ ihn =>
    rcases hrefuses : beginRefusal mode mm.dbx.sessionVars refuses with _ | m
    · rw [careful_transaction hrefuses] at hcareful
      by_cases hclosure : closure.CarefulInside mode mm.dbx.sessionVars w.db 0 w.db false
      · obtain ⟨w₁, hdb, hfree', hexec⟩ := exec_returned hfree hrefuses hclosure
        rw [hexec, meaning_transaction hrefuses]
        refine Diverges.prepend ?_ _
        by_cases hends : (closure.inside mode mm.dbx.sessionVars w.db 0 w.db false).SoundTop refuses w.db
        · have hkept := hdb.trans ((Effect.kept_iff _ refuses w.db).2 hends)
          dsimp only at hcareful
          rw [← hkept] at hcareful ⊢
          exact ihn _ hfree' fun hnext => hcareful ⟨hclosure, hends, hnext⟩
        · have hlost := mt (Effect.kept_iff _ refuses w.db).1 hends
          rw [← hdb] at hlost
          obtain ⟨rest, hrest⟩ := exec_seen (next _) debugAssertions mm w₁
          obtain ⟨rest', hrest'⟩ := meaning_seen (next _) (debugAssertions && !mm.dbx.noOrphanSessionVars)
            mm.dbx.sessionVars _
          rw [hrest, hrest', hfree'.seen]
          refine Diverges.of_ne (fun heq => hlost ?_) rest rest'
          injection heq
      · obtain ⟨mmTxn, w', txh, henter, hw, hdb, htracks, -⟩ := exec_begun hfree hrefuses
        obtain ⟨rest, hrest⟩ := exec_transaction_seen debugAssertions closure next henter
        rw [hrest, meaning_transaction hrefuses, hfree.seen]
        have hdiverges := closure.diverges debugAssertions hw hdb htracks hclosure
        exact hdiverges.within _ rest _ _
    · obtain ⟨w', hdb, hfree', hexec⟩ := exec_refused hfree hrefuses
      rw [Careful, hrefuses] at hcareful
      rw [hexec, meaning, hrefuses]
      rw [← hdb] at hcareful ⊢
      exact (ihn _ hfree' hcareful).prepend _

/-- From a handle without an open transaction a program has the results of nested transactions, leaves their
database and keeps its counter at the depth, if and only if it is careful. -/
theorem exec_eq_meaning_iff (debugAssertions : Bool) (mm : ModelManager C) (b : Body σ ρ τ) (w : World σ)
    (hfree : w.Free mm) :
    (b.exec debugAssertions mm w).outcome =
        b.meaning (debugAssertions && !mm.dbx.noOrphanSessionVars) mm.dbx.sessionVars w.db ↔
      b.Careful (debugAssertions && !mm.dbx.noOrphanSessionVars) mm.dbx.sessionVars w.db := by
  refine ⟨fun heq => ?_, b.exec_eq_meaning hfree⟩
  by_contra hcareful
  exact (b.exec_diverges hfree hcareful).ne (congrArg Outcome.seen heq)

/-- A statement that adds to a number. -/
def adds (n : Nat) : Statement Nat Unit := ⟨true, fun _ db => .ok (db + n, ⟨[], 1⟩)⟩

def violates : Statement Nat Unit := ⟨true, fun _ _ => .error "duplicate key value violates unique constraint"⟩

/-- A closure that goes on after a statement that failed. -/
def swallowing : Body Nat Unit Unit :=
  .transaction false (fun _ => none)
    (.statement .execute (adds 1) fun _ => .statement .execute violates fun _ => .done (.ok ())) .done

/-- The same, with the statement in a transaction of its own. -/
def guarding : Body Nat Unit Unit :=
  .transaction false (fun _ => none)
    (.statement .execute (adds 1) fun _ =>
      .transaction false (fun _ => none) (.statement .execute violates fun _ => .done (.error (.custom "taken")))
        fun _ => .done (.ok ())) .done

theorem exec_eq_meaning_iff_guarding :
    (guarding.exec true (.newWithDbx ⟨0, false, []⟩ : ModelManager Unit) ⟨0, fun _ => none, 1⟩).outcome =
      guarding.meaning false [] 0 :=
  (exec_eq_meaning_iff true (.newWithDbx ⟨0, false, []⟩ : ModelManager Unit) guarding ⟨0, fun _ => none, 1⟩
    nofun).2 ⟨⟨rfl, by decide, trivial, nofun, trivial⟩, fun _ => .inl rfl, trivial⟩

/-- The call returns with success and nothing is committed. -/
theorem swallowing_commits_nothing :
    let run := swallowing.exec true (.newWithDbx ⟨0, false, []⟩ : ModelManager Unit) ⟨0, fun _ => none, 1⟩
    run.result = some (.ok ()) ∧ run.world.db = 0 ∧ (swallowing.meaning false [] 0).result = some (.ok ()) ∧
      (swallowing.meaning false [] 0).db = 1 ∧ run.outcome ≠ swallowing.meaning false [] 0 :=
  ⟨by decide +kernel, by decide +kernel, rfl, rfl, fun h => absurd (congrArg Outcome.db h) (by decide +kernel)⟩

end Body

end Fusions.Sql
