import Fusions.Sql.DbxSqlite
import Fusions.Sql.Transactions

/-! Transaction closures on SQLite: each contributes all or nothing, and so they do on PostgreSQL where a closure stops
at the first statement that fails. -/
namespace Fusions.Sql
universe u
variable {σ ρ τ : Type u}

/-- The holder of a transaction in which a closure at this level runs: `state` is what the closure has made of
the database, and `outer` are the savepoints of the closures around it. -/
structure SqliteHolder.Tracks (txh : SqliteHolder σ) (level : Nat) (state : σ) (outer : List (String × σ)) : Prop where
  counter : txh.counter = level + 1
  bound : level + 1 < 2 ^ 31
  names : txh.savepoints = savepointNames level
  current : txh.txn.current = state
  kept : ∃ stale, txh.txn.savepoints = stale ++ outer ∧ ∀ p ∈ stale, ∃ j, level < j ∧ p.1 = savepointName j

namespace SqliteHolder.Tracks
variable {txh txh' : SqliteHolder σ} {level : Nat} {state state' : σ} {outer : List (String × σ)} {refuses : Refusals}

theorem execute (h : txh.Tracks level state outer) (s : Statement σ ρ) :
    ({ txh with txn := (txh.txn.execute s).1 } : SqliteHolder σ).Tracks level (s.autocommit state).2 outer :=
  { h with current := by rw [← h.current]; rfl }

/-- The holder on which a nested closure runs. -/
theorem nest (h : txh.Tracks level state outer) (hdepth : level + 2 < 2 ^ 31) :
    let sp := (savepointName (level + 1), state)
    ({ txh.inc.2 with txn := { txh.txn with savepoints := sp :: txh.txn.savepoints } } : SqliteHolder σ).Tracks
      (level + 1) state (sp :: txh.txn.savepoints) := by
  intro sp
  refine ⟨?_, by omega, ?_, h.current, [], rfl, by simp⟩
  · change (txh.counter + 1).bmod (2 ^ 32) = _
    rw [h.counter, Int.bmod_eq_of_le_mul_two (by omega) (by omega)]
    rfl
  · change savepointName txh.counter :: txh.savepoints = savepointName ((level + 1 : Nat) : Int) :: _
    rw [h.counter, h.names]
    rfl

theorem inc_name (h : txh.Tracks level state outer) : txh.inc.1 = savepointName (level + 1) :=
  congrArg savepointName h.counter

theorem dec_eq (h : txh.Tracks (level + 1) state outer) :
    txh.dec = ((level : Int) + 1, some (savepointName (level + 1)),
      { txh with counter := level + 1, savepoints := savepointNames level }) := by
  have hcounter : (txh.counter - 1).bmod (2 ^ 32) = level + 1 := by
    have hbound := h.bound
    rw [h.counter, Int.bmod_eq_of_le_mul_two (by omega) (by omega)]
    omega
  unfold SqliteHolder.dec
  rw [hcounter, h.names]
  rfl

/-- The savepoint that the closure began with is the latest of its name. -/
theorem find_eq (h : txh'.Tracks (level + 1) state' ((savepointName (level + 1), state) :: outer)) :
    PgTransaction.findSavepoint (savepointName (level + 1)) txh'.txn.savepoints = some (state, outer) := by
  obtain ⟨stale, hstale, hlater⟩ := h.kept
  rw [hstale]
  refine PgTransaction.findSavepoint_append fun p hp heq => ?_
  obtain ⟨j, hj, hname⟩ := hlater p hp
  have hj' : j = level + 1 := savepointName_injective (hname.symm.trans heq)
  omega

section
variable (h : txh.Tracks level state outer)
  (h' : txh'.Tracks (level + 1) state' ((savepointName (level + 1), state) :: txh.txn.savepoints))
include h h'

/-- Back at the level of the parent: its own savepoints are there again. -/
theorem release (hrefuses : refuses .release = none) :
    (txh'.txn.release (savepointName (level + 1)) refuses).2 = .ok () ∧
      (⟨(txh'.txn.release (savepointName (level + 1)) refuses).1, level + 1, savepointNames level⟩ :
        SqliteHolder σ).Tracks level state' outer := by
  have hrelease : txh'.txn.release (savepointName (level + 1)) refuses =
      ({ txh'.txn with savepoints := txh.txn.savepoints }, .ok ()) := by
    unfold SqliteTransaction.release
    rw [hrefuses, h'.find_eq]
  rw [hrelease]
  exact ⟨rfl, rfl, h.bound, rfl, h'.current, h.kept⟩

/-- The savepoint of the closure is left, which the next one of its name hides. -/
theorem rollbackTo (hrefuses : refuses .rollbackTo = none) :
    (⟨(txh'.txn.rollbackTo (savepointName (level + 1)) refuses).1, level + 1, savepointNames level⟩ :
      SqliteHolder σ).Tracks level state outer := by
  have hrollback : txh'.txn.rollbackTo (savepointName (level + 1)) refuses =
      (⟨state, (savepointName (level + 1), state) :: txh.txn.savepoints⟩, .ok ()) := by
    unfold SqliteTransaction.rollbackTo
    rw [hrefuses, h'.find_eq]
  obtain ⟨stale, hstale, hlater⟩ := h.kept
  rw [hrollback]
  refine ⟨rfl, h.bound, rfl, rfl, (savepointName (level + 1), state) :: stale, ?_, ?_⟩
  · rw [hstale, List.cons_append]
  · exact List.forall_mem_cons.2 ⟨⟨level + 1, by omega, rfl⟩, hlater⟩

end

end SqliteHolder.Tracks

/-- A handle in transaction mode, and what its holder holds. -/
structure SqliteWorld.Holds (w : SqliteWorld σ) (dbx : DbxSqlite) (txh : SqliteHolder σ) : Prop where
  txn : dbx.txn = true
  holder : w.holders dbx.txnHolder = some txh

namespace SqliteWorld.Holds
variable {w : SqliteWorld σ} {dbx : DbxSqlite} {txh : SqliteHolder σ} {level : Nat} {state : σ}
  {outer : List (String × σ)} {refuses : Refusals}

theorem put (h : w.Holds dbx txh) (txh' : SqliteHolder σ) : (w.put dbx.txnHolder (some txh')).Holds dbx txh' :=
  ⟨h.txn, Function.update_self ..⟩

theorem seen (h : w.Holds dbx txh) (htracks : txh.Tracks level state outer) :
    (w.seen dbx : Event σ ρ τ) = .inside level w.db := by
  simp only [SqliteWorld.seen, h.txn, h.holder, if_true, htracks.counter, htracks.names, Event.inside]

theorem fetch (h : w.Holds dbx txh) (htracks : txh.Tracks level state outer) (f : Fetch) (s : Statement σ ρ) :
    dbx.fetch f s w = (w.put dbx.txnHolder (some { txh with txn := (txh.txn.execute s).1 }),
      f.result (s.autocommit state).1) := by
  simp only [DbxSqlite.fetch, h.txn, h.holder, if_true, SqliteTransaction.execute, htracks.current]

/-- Entering a closure from within another. -/
theorem enter (h : w.Holds dbx txh) (htracks : txh.Tracks level state outer) (hrefuses : refuses .savepoint = none) :
    dbx.getTxnClone w = (dbx, w) ∧ dbx.beginTxn refuses w =
      (w.put dbx.txnHolder (some { txh.inc.2 with txn :=
        { txh.txn with savepoints := (savepointName (level + 1), state) :: txh.txn.savepoints } }), .ok ()) := by
  refine ⟨by rw [DbxSqlite.getTxnClone, if_pos h.txn], ?_⟩
  have hinc : txh.inc.2.txn = txh.txn := rfl
  simp only [DbxSqlite.beginTxn, h.txn, h.holder, Bool.not_true, Bool.false_eq_true, if_false, hinc, htracks.inc_name,
    SqliteTransaction.savepoint, hrefuses, htracks.current]
  rfl

/-- Leaving a nested closure. -/
theorem leave {txh' : SqliteHolder σ} {state' : σ} (h : w.Holds dbx txh') (htracks : txh.Tracks level state outer)
    (htracks' : txh'.Tracks (level + 1) state' ((savepointName (level + 1), state) :: txh.txn.savepoints))
    (hrelease : refuses .release = none) (hrollback : refuses .rollbackTo = none) (c : Contribution σ ρ τ)
    (hc : c.state = state') : ∃ txh₁, dbx.leave refuses c.result w =
      (w.put dbx.txnHolder (some txh₁), c.result) ∧ txh₁.Tracks level (c.kept state) outer := by
  have hcounter : (level : Int) + 1 ≠ 0 := by omega
  obtain ⟨seen, result, last⟩ := c
  obtain rfl : last = state' := hc
  cases result with
  | error e =>
    have hback := htracks.rollbackTo htracks' hrollback
    refine ⟨_, ?_, hback⟩
    simp only [DbxSqlite.leave, DbxSqlite.rollbackTxn, h.holder, htracks'.dec_eq, if_neg hcounter]
  | ok v =>
    obtain ⟨hok, hback⟩ := htracks.release htracks' hrelease
    refine ⟨_, ?_, hback⟩
    simp only [DbxSqlite.leave, DbxSqlite.commitTxn, h.txn, h.holder, htracks'.dec_eq, Bool.not_true,
      Bool.false_eq_true, if_false, if_neg hcounter, hok]
    rfl

end SqliteWorld.Holds

namespace Body

/-- A run of a closure in its transaction, and what the closure is meant to come to. -/
structure Contributes (run : SqliteExecution (Event σ ρ τ) σ τ) (c : Contribution σ ρ τ) (dbx : DbxSqlite) (base : σ)
    (level : Nat) (outer : List (String × σ)) : Prop where
  seen : run.seen = c.seen
  result : run.result = c.result
  db : run.world.db = base
  holds : ∃ txh, run.world.Holds dbx txh ∧ txh.Tracks level c.state outer

section
variable {dbx : DbxSqlite} {w : SqliteWorld σ} {base state : σ} {txh : SqliteHolder σ} {level : Nat}
  {outer : List (String × σ)}

theorem Contributes.after {run : SqliteExecution (Event σ ρ τ) σ τ} {c : Contribution σ ρ τ}
    (h : Contributes run c dbx base level outer) {xs ys : List (Event σ ρ τ)} (hxs : xs = ys) :
    Contributes (run.after xs) (c.after ys) dbx base level outer :=
  ⟨by rw [SqliteExecution.after, Contribution.after, h.seen, hxs], h.result, h.db, h.holds⟩

theorem contributes (b : Body σ ρ τ) (hw : w.Holds dbx txh) (hdb : w.db = base) (h : txh.Tracks level state outer)
    (hgranted : b.GrantedInside level) :
    Contributes (b.execSqlite dbx w) (b.contribution base level state) dbx base level outer := by
  induction b generalizing w txh level state outer with
  | done r => exact ⟨by rw [execSqlite, contribution, hw.seen h, hdb], rfl, hdb, txh, hw, h⟩
  | statement f s next ih =>
    unfold execSqlite contribution
    rw [hw.fetch h, hw.seen h, hdb]
    exact (ih _ (hw.put _) hdb (h.execute s) (hgranted _)).after rfl
  | transaction mode refuses closure next ihc ihn =>
    obtain ⟨hsavepoint, hrelease, hrollback, hdepth, hclosure, hnext⟩ := hgranted
    obtain ⟨hclone, hbegin⟩ := hw.enter h hsavepoint
    have hrun := ihc (hw.put _) hdb (h.nest hdepth) hclosure
    obtain ⟨txh', hw', h'⟩ := hrun.holds
    obtain ⟨txh₁, hleave, h₁⟩ := hw'.leave h h' hrelease hrollback _ rfl
    unfold execSqlite contribution DbxSqlite.runInTxn
    simp only [hclone, hbegin, hrun.result, hleave, hrun.seen, hw.seen h, hdb]
    exact (ihn _ (hw'.put txh₁) hrun.db h₁ (hnext _)).after rfl

end

end Body

/-- No transaction is open on the handle. -/
def SqliteWorld.Free (w : SqliteWorld σ) (dbx : DbxSqlite) : Prop :=
  dbx.txn = true → w.holders dbx.txnHolder = none

namespace SqliteWorld.Free
variable {w : SqliteWorld σ} {dbx : DbxSqlite} {refuses : Refusals}

theorem seen (h : w.Free dbx) : (w.seen dbx : Event σ ρ τ) = .outside w.db := by
  unfold SqliteWorld.seen
  split
  · next heq =>
    split at heq
    · next htxn => rw [h htxn] at heq; cases heq
    · cases heq
  · rfl

theorem fetch (h : w.Free dbx) (f : Fetch) (s : Statement σ ρ) :
    dbx.fetch f s w = ({ w with db := (s.autocommit w.db).2 }, f.result (s.autocommit w.db).1) := by
  unfold DbxSqlite.fetch
  split
  · next heq =>
    split at heq
    · next htxn => rw [h htxn] at heq; cases heq
    · cases heq
  · rfl

/-- The handle of the transaction that a call outside of transactions begins. -/
theorem getTxnClone (h : w.Free dbx) : ∃ dbxTxn w', dbx.getTxnClone w = (dbxTxn, w') ∧ dbxTxn.txn = true ∧
    w'.holders dbxTxn.txnHolder = none ∧ w'.db = w.db ∧ w'.Free dbx ∧
    (dbx.txn = true → dbxTxn.txnHolder = dbx.txnHolder) := by
  unfold DbxSqlite.getTxnClone
  split
  · next htxn => exact ⟨dbx, w, rfl, htxn, h htxn, rfl, h, fun _ => rfl⟩
  · next htxn =>
    exact ⟨_, _, rfl, rfl, Function.update_self .., rfl, fun h' => absurd h' htxn, fun h' => absurd h' htxn⟩

end SqliteWorld.Free

/-- Leaving the outermost closure. -/
theorem SqliteWorld.Holds.leave_top {w : SqliteWorld σ} {dbx : DbxSqlite} {txh : SqliteHolder σ}
    {outer : List (String × σ)} {c : Contribution σ ρ τ} (hw : w.Holds dbx txh) (h : txh.Tracks 0 c.state outer)
    (refuses : Refusals) : dbx.leave refuses c.result w =
      ({ w.put dbx.txnHolder none with db := (c.committed refuses).kept w.db }, (c.committed refuses).result) := by
  have hdec : txh.dec = ((0 : Int), none, { txh with counter := 0, savepoints := [] }) := by
    unfold SqliteHolder.dec
    rw [h.counter, h.names]
    rfl
  obtain ⟨seen, result, state⟩ := c
  have hcurrent : txh.txn.current = state := h.current
  cases result with
  | error e =>
    simp only [DbxSqlite.leave, DbxSqlite.rollbackTxn, hw.holder, hdec, if_true, SqliteTransaction.rollback]
    rcases refuses .rollback with _ | m <;> rfl
  | ok v =>
    simp only [DbxSqlite.leave, DbxSqlite.commitTxn, hw.txn, hw.holder, hdec, Bool.not_true, Bool.false_eq_true,
      if_false, if_true, SqliteTransaction.commit, Contribution.committed]
    rcases refuses .commit with _ | m
    · rw [hcurrent]
      rfl
    · rfl

theorem Contribution.committed_seen (c : Contribution σ ρ τ) (refuses : Refusals) :
    (c.committed refuses).seen = c.seen := by
  unfold committed
  split <;> rfl

/-- A transaction outside of others, in which the closure runs as it means to. -/
theorem SqliteWorld.Free.runInTxn {w : SqliteWorld σ} {dbx : DbxSqlite} {refuses : Refusals} {closure : Body σ ρ τ}
    (h : w.Free dbx) (hstart : refuses .start = none) (hclosure : closure.GrantedInside 0) :
    let c := (closure.contribution w.db 0 w.db).committed refuses
    ∃ w₁, dbx.runInTxn refuses closure.execSqlite w = ⟨c.seen, w₁, c.result⟩ ∧ w₁.db = c.kept w.db ∧ w₁.Free dbx := by
  intro c
  obtain ⟨dbxTxn, w', hclone, htxn, hnone, hdb, -, hsame⟩ := h.getTxnClone
  have hholds : (w'.put dbxTxn.txnHolder (some (.new ⟨w.db, []⟩))).Holds dbxTxn (.new ⟨w.db, []⟩) :=
    ⟨htxn, Function.update_self ..⟩
  have htracks : (SqliteHolder.new ⟨w.db, []⟩).Tracks 0 w.db [] := ⟨rfl, by omega, rfl, rfl, [], rfl, by simp⟩
  have hrun := closure.contributes hholds hdb htracks hclosure
  obtain ⟨txh', hw', h'⟩ := hrun.holds
  have hleave := hw'.leave_top h' refuses
  rw [hrun.db] at hleave
  let last := (closure.execSqlite dbxTxn (w'.put dbxTxn.txnHolder (some (.new ⟨w.db, []⟩)))).world
  refine ⟨{ last.put dbxTxn.txnHolder none with db := c.kept w.db }, ?_, rfl, fun hmode => ?_⟩
  · unfold DbxSqlite.runInTxn
    simp only [hclone, DbxSqlite.beginTxn, htxn, hnone, Bool.not_true, Bool.false_eq_true, if_false,
      SqliteTransaction.start, hdb, hstart, hrun.result, hleave, hrun.seen]
    rw [← Contribution.committed_seen _ refuses]
  · rw [← hsame hmode]
    exact Function.update_self ..

theorem SqliteWorld.Free.runInTxn_refused {w : SqliteWorld σ} {dbx : DbxSqlite} {refuses : Refusals}
    {closure : Body σ ρ τ} {e : String} (h : w.Free dbx) (hstart : refuses .start = some e) :
    ∃ w₁, dbx.runInTxn refuses closure.execSqlite w = ⟨[], w₁, .error (.dbxError (.sqlx e))⟩ ∧ w₁.db = w.db ∧
      w₁.Free dbx := by
  obtain ⟨dbxTxn, w', hclone, htxn, hnone, hdb, hfree, -⟩ := h.getTxnClone
  refine ⟨w', ?_, hdb, hfree⟩
  unfold DbxSqlite.runInTxn
  simp only [hclone, DbxSqlite.beginTxn, htxn, hnone, Bool.not_true, Bool.false_eq_true, if_false,
    SqliteTransaction.start, hstart]

namespace Body
variable {dbx : DbxSqlite} {w : SqliteWorld σ}

theorem execSqlite_outcome (b : Body σ ρ τ) (hfree : w.Free dbx) (hgranted : b.Granted) :
    (b.execSqlite dbx w).outcome = b.allOrNothing w.db := by
  have hafter : ∀ {run : SqliteExecution (Event σ ρ τ) σ τ} {o : Outcome σ ρ τ} (seen : List (Event σ ρ τ)),
      run.outcome = o → (run.after seen).outcome = o.after seen := by
    rintro run o seen rfl
    rfl
  induction b generalizing w with
  | done r => rw [execSqlite, allOrNothing, SqliteExecution.outcome, hfree.seen]
  | statement f s next ih =>
    have hnext : ({ w with db := (s.autocommit w.db).2 } : SqliteWorld σ).Free dbx := hfree
    unfold execSqlite allOrNothing
    rw [hfree.fetch, hfree.seen]
    exact hafter _ (ih _ hnext (hgranted _))
  | transaction mode refuses closure next _ ihn =>
    obtain ⟨hclosure, hnext⟩ := hgranted
    unfold execSqlite allOrNothing
    rw [hfree.seen]
    rcases hstart : refuses .start with _ | e
    · obtain ⟨w₁, hrun, hdb, hfree₁⟩ := hfree.runInTxn hstart hclosure
      rw [hrun]
      dsimp only
      rw [← hdb]
      exact hafter _ (ihn _ hfree₁ (hnext _))
    · obtain ⟨w₁, hrun, hdb, hfree₁⟩ := hfree.runInTxn_refused hstart
      rw [hrun]
      dsimp only
      rw [← hdb]
      exact hafter _ (ihn _ hfree₁ (hnext _))

theorem execSqlite_free (b : Body σ ρ τ) (hfree : w.Free dbx) (hgranted : b.Granted) :
    (b.execSqlite dbx w).world.Free dbx := by
  induction b generalizing w with
  | done r => exact hfree
  | statement f s next ih =>
    have hnext : ({ w with db := (s.autocommit w.db).2 } : SqliteWorld σ).Free dbx := hfree
    unfold execSqlite
    rw [hfree.fetch]
    exact ih _ hnext (hgranted _)
  | transaction mode refuses closure next _ ihn =>
    obtain ⟨hclosure, hnext⟩ := hgranted
    unfold execSqlite
    rcases hstart : refuses .start with _ | e
    · obtain ⟨w₁, hrun, -, hfree₁⟩ := hfree.runInTxn hstart hclosure
      rw [hrun]
      exact ihn _ hfree₁ (hnext _)
    · obtain ⟨w₁, hrun, -, hfree₁⟩ := hfree.runInTxn_refused hstart
      rw [hrun]
      exact ihn _ hfree₁ (hnext _)

/-- On SQLite a program whose savepoints are granted is one of nested transactions, each of which leaves all that its
closure has made of the database or, where the closure or its end fails, nothing. None is left open. -/
theorem sqlite_all_or_nothing (b : Body σ ρ τ) (hfree : w.Free dbx) (hgranted : b.Granted) :
    (b.execSqlite dbx w).outcome = b.allOrNothing w.db ∧ (b.execSqlite dbx w).world.Free dbx :=
  ⟨b.execSqlite_outcome hfree hgranted, b.execSqlite_free hfree hgranted⟩

theorem sqlite_all_or_nothing_swallowing :
    let run := swallowing.execSqlite ⟨0, false⟩ ⟨0, fun _ => none, 1⟩
    run.outcome = swallowing.allOrNothing 0 ∧ run.outcome.db = 1 ∧ run.result = .ok () := by
  have hfree : (⟨0, fun _ => none, 1⟩ : SqliteWorld Nat).Free ⟨0, false⟩ := fun h => by cases h
  have hgranted : swallowing.Granted := ⟨fun _ _ => trivial, fun _ => trivial⟩
  exact ⟨(sqlite_all_or_nothing swallowing hfree hgranted).1, by decide +kernel, by decide +kernel⟩

/-- A closure that writes nothing if it is read-only, and that ends with an error at the first statement that fails. -/
def StopsInside (readOnly : Bool) (base : σ) : Body σ ρ τ → Nat → σ → Prop
  | .done _, _, _ => True
  | .statement f s next, level, state =>
    (readOnly && s.writes) = false ∧
      match s.autocommit state with
      | (.error e, _) => ∃ err, next (f.result (.error e)) = .done (.error err)
      | (.ok rows, state) => (next (f.result (.ok rows))).StopsInside readOnly base level state
  | .transaction _ _ closure next, level, state =>
    let c := closure.contribution base (level + 1) state
    closure.StopsInside readOnly base (level + 1) state ∧
      (next c.result).StopsInside readOnly base level (c.kept state)

/-- The outermost closures stop at the first statement that fails. -/
def Portable : Body σ ρ τ → σ → Prop
  | .done _, _ => True
  | .statement f s next, db => (next (f.result (s.autocommit db).1)).Portable (s.autocommit db).2
  | .transaction readOnly refuses closure next, db =>
    (readOnly = true → refuses .setReadOnly = none) ∧
      match refuses .start with
      | some e => (next (.error (.dbxError (.sqlx e)))).Portable db
      | none =>
        let c := (closure.contribution db 0 db).committed refuses
        closure.StopsInside readOnly db 0 db ∧ (next c.result).Portable (c.kept db)

theorem answer_of_reads {readOnly : Bool} {s : Statement σ ρ} (h : (readOnly && s.writes) = false) (state : σ) :
    s.answer readOnly [] state = s.answer false [] state := by
  simp [Statement.answer, h]

/-- The effect of a closure on PostgreSQL is its contribution, and where a statement failed it ends with an error. -/
structure Matches (e : Effect σ ρ τ) (c : Contribution σ ρ τ) : Prop where
  seen : e.seen = c.seen
  result : e.result = c.result
  state : e.state = c.state
  failed : e.failed = true → ∃ err, c.result = .error err

theorem Matches.after {e : Effect σ ρ τ} {c : Contribution σ ρ τ} (h : Matches e c) (seen : List (Event σ ρ τ)) :
    Matches (e.after seen) (c.after seen) :=
  ⟨congrArg (seen ++ ·) h.seen, h.result, h.state, h.failed⟩

theorem Matches.nested {e : Effect σ ρ τ} {c : Contribution σ ρ τ} (h : Matches e c) {refuses : Refusals}
    (hrelease : refuses .release = none) (hrollback : refuses .rollbackTo = none) (level : Nat) (state : σ) :
    e.nested refuses level state = (c.result, c.kept state, false) := by
  unfold Effect.nested Contribution.kept
  rw [h.result, hrelease, hrollback, h.state]
  cases c.result <;> rfl

theorem Matches.top {e : Effect σ ρ τ} {c : Contribution σ ρ τ} (h : Matches e c) (refuses : Refusals) (db : σ) :
    e.top refuses db = ((c.committed refuses).result, (c.committed refuses).kept db) := by
  unfold Effect.top Contribution.committed Contribution.kept
  rw [h.result, h.state]
  rcases hresult : c.result with err | v
  · simp only [hresult]
  · rcases refuses .commit with _ | m <;> simp only [hresult]

/-- A closure whose call succeeds had no statement fail. -/
theorem Matches.not_failed {e : Effect σ ρ τ} {c : Contribution σ ρ τ} (h : Matches e c) {v : τ}
    (hresult : c.result = .ok v) : e.failed = false := by
  rw [← Bool.not_eq_true]
  intro hfailed
  obtain ⟨err, herr⟩ := h.failed hfailed
  rw [herr] at hresult
  cases hresult

theorem inside_of_stops (b : Body σ ρ τ) {readOnly : Bool} {base state : σ} {level : Nat}
    (hstops : b.StopsInside readOnly base level state) (hgranted : b.GrantedInside level) :
    Matches (b.inside readOnly [] base level state false) (b.contribution base level state) ∧
      b.CarefulInside readOnly [] base level state false := by
  induction b generalizing level state with
  | done r => exact ⟨⟨rfl, rfl, rfl, fun h => by cases h⟩, trivial⟩
  | statement f s next ih =>
    rw [StopsInside] at hstops
    obtain ⟨hreads, hstops⟩ := hstops
    have hanswer := answer_of_reads hreads state
    unfold inside contribution CarefulInside
    simp only [Statement.autocommit, Statement.inside, hanswer, Bool.false_eq_true, if_false] at hstops ⊢
    rcases hran : s.answer false [] state with e | ⟨state', rows⟩
    · simp only [hran] at hstops
      obtain ⟨err, hnext⟩ := hstops
      dsimp only
      rw [hnext]
      exact ⟨⟨rfl, rfl, rfl, fun _ => ⟨err, rfl⟩⟩, trivial⟩
    · simp only [hran] at hstops
      obtain ⟨hmatches, hcareful⟩ := ih _ hstops (hgranted _)
      exact ⟨hmatches.after _, hcareful⟩
  | transaction mode refuses closure next ihc ihn =>
    obtain ⟨hsavepoint, hrelease, hrollback, hdepth, hclosure, hnext⟩ := hgranted
    obtain ⟨hmatches, hcareful⟩ := ihc hstops.1 hclosure
    obtain ⟨hrest, hgoes⟩ := ihn _ hstops.2 (hnext _)
    have hnested := hmatches.nested hrelease hrollback level state
    have hrefuses : nestedRefusal refuses false = none := by rw [nestedRefusal, hsavepoint]; rfl
    refine ⟨?_, (carefulInside_transaction ..).2 ⟨hrefuses, hdepth, hcareful, fun hok => ?_, ?_⟩⟩
    · rw [inside_transaction hrefuses]
      unfold contribution
      dsimp only
      rw [hnested, hmatches.seen]
      exact hrest.after _
    · rw [hnested] at hok
      cases hresult : (closure.contribution base (level + 1) state).result with
      | error err => rw [hresult] at hok; cases hok
      | ok v => exact hmatches.not_failed hresult
    · rw [hnested]
      exact hgoes

theorem meaning_of_portable (b : Body σ ρ τ) {db : σ} (hportable : b.Portable db) (hgranted : b.Granted) :
    b.meaning false [] db = b.allOrNothing db ∧ b.Careful false [] db := by
  induction b generalizing db with
  | done r => exact ⟨rfl, trivial⟩
  | statement f s next ih =>
    obtain ⟨hmeaning, hcareful⟩ := ih _ hportable (hgranted _)
    refine ⟨?_, .inr hcareful⟩
    unfold meaning allOrNothing
    simp only [Bool.false_eq_true, if_false, hmeaning]
  | transaction mode refuses closure next _ ihn =>
    rw [Portable] at hportable
    obtain ⟨hmode, hportable⟩ := hportable
    obtain ⟨hclosure, hnext⟩ := hgranted
    have hbegin : beginRefusal mode [] refuses = refuses .start := by
      unfold beginRefusal
      cases mode with
      | false => simp
      | true => simp [hmode rfl]
    rcases hstart : refuses .start with _ | m
    · simp only [hstart] at hportable
      rw [hstart] at hbegin
      obtain ⟨hmatches, hcareful⟩ := closure.inside_of_stops hportable.1 hclosure
      obtain ⟨hmeaning, hgoes⟩ := ihn _ hportable.2 (hnext _)
      have htop := hmatches.top refuses db
      refine ⟨?_, (careful_transaction hbegin).2 ⟨hcareful, fun hok => ?_, ?_⟩⟩
      · rw [meaning_transaction hbegin]
        unfold allOrNothing
        simp only [hstart, htop, hmeaning, hmatches.seen, Contribution.committed_seen]
      · rw [htop] at hok
        cases hresult : (closure.contribution db 0 db).result with
        | error err =>
          have herror : ((closure.contribution db 0 db).committed refuses).result = .error err := by
            simp [Contribution.committed, hresult]
          rw [herror] at hok
          cases hok
        | ok v => exact .inl (hmatches.not_failed hresult)
      · rw [htop]
        exact hgoes
    · simp only [hstart] at hportable
      rw [hstart] at hbegin
      obtain ⟨hmeaning, hgoes⟩ := ihn _ hportable (hnext _)
      refine ⟨?_, ?_⟩
      · unfold meaning allOrNothing
        simp only [hbegin, hstart, hmeaning]
      · unfold Careful
        simp only [hbegin]
        exact hgoes

/-- A program whose closures stop at the first statement that fails runs alike on both databases: the same results and
events, and the same committed state. -/
theorem portable_alike {C : Type u} (b : Body σ ρ τ) (debugAssertions : Bool) {mm : ModelManager C} {dbx : DbxSqlite}
    {w : World σ} {v : SqliteWorld σ} (hfree : w.Free mm) (hfree' : v.Free dbx) (hdb : v.db = w.db)
    (hvars : mm.dbx.sessionVars = []) (hgranted : b.Granted) (hportable : b.Portable w.db) :
    (b.exec debugAssertions mm w).outcome = (b.execSqlite dbx v).outcome := by
  obtain ⟨hmeaning, hcareful⟩ := b.meaning_of_portable hportable hgranted
  have horphaned : (debugAssertions && !mm.dbx.noOrphanSessionVars) = false := by
    simp [DbxPostgres.noOrphanSessionVars, hvars]
  rw [b.execSqlite_outcome hfree' hgranted, hdb, ← hmeaning]
  have hclosed : b.Careful (debugAssertions && !mm.dbx.noOrphanSessionVars) mm.dbx.sessionVars w.db := by
    rw [horphaned, hvars]
    exact hcareful
  rw [b.exec_eq_meaning hfree hclosed, horphaned, hvars]

theorem portable_alike_guarding :
    (guarding.exec true (.newWithDbx ⟨0, false, []⟩ : ModelManager Unit) ⟨0, fun _ => none, 1⟩).outcome =
      (guarding.execSqlite ⟨0, false⟩ ⟨0, fun _ => none, 1⟩).outcome := by
  have hfree : (⟨0, fun _ => none, 1⟩ : World Nat).Free (.newWithDbx ⟨0, false, []⟩ : ModelManager Unit) :=
    fun h => by cases h
  have hfree' : (⟨0, fun _ => none, 1⟩ : SqliteWorld Nat).Free ⟨0, false⟩ := fun h => by cases h
  have hgranted : guarding.Granted :=
    ⟨fun _ => ⟨rfl, rfl, rfl, by decide, fun _ => trivial, fun _ => trivial⟩, fun _ => trivial⟩
  have hportable : guarding.Portable 0 := by
    refine ⟨fun h => (by cases h), ⟨rfl, ⟨rfl, .custom "taken", rfl⟩, trivial⟩, trivial⟩
  exact portable_alike guarding true hfree hfree' rfl rfl hgranted hportable

end Body

end Fusions.Sql
