import Mathlib.Algebra.Group.Int.Defs
import Mathlib.Algebra.Group.Nat.Defs
import Fusions.Sql.Postgres

/-! The handle on the connection pool and its transaction holder, which clones of a handle share: the depth
counter, the savepoint stack, and where a statement runs. -/
namespace Fusions.Sql
universe u v
variable {σ : Type u} {ρ : Type v}

inductive DbxError where
  | cannotBeginTxnWithTxnFalse
  | cannotCommitTxnWithTxnFalse
  | txnCantCommitNoOpenTxn
  | noTxn
  | savePointError (message : String)
  | sqlx (message : String)
  deriving DecidableEq, Repr

/-- The error of a command on a savepoint. -/
def DbxError.ofSavepoint (action name e : String) : DbxError :=
  .savePointError ("Failed to " ++ action ++ " savepoint '" ++ name ++ "': " ++ e)

structure TxnHolder (σ : Type u) where
  txn : PgTransaction σ
  counter : Int
  /-- The stack, its top first. -/
  savepoints : List String

def savepointName (counter : Int) : String := "sp_" ++ toString counter

namespace TxnHolder

def new (txn : PgTransaction σ) : TxnHolder σ := ⟨txn, 1, []⟩

/-- `counter += 1` and `counter -= 1` on an `i32`. -/
def inc (txh : TxnHolder σ) : String × TxnHolder σ :=
  let name := savepointName txh.counter
  (name, { txh with counter := (txh.counter + 1).bmod (2 ^ 32), savepoints := name :: txh.savepoints })

def dec (txh : TxnHolder σ) : Int × Option String × TxnHolder σ :=
  let counter := (txh.counter - 1).bmod (2 ^ 32)
  (counter, txh.savepoints.head?, { txh with counter, savepoints := txh.savepoints.tail })

end TxnHolder

/-- The committed database, and what the shared transaction holders hold. -/
structure World (σ : Type u) where
  db : σ
  holders : Nat → Option (TxnHolder σ)
  fresh : Nat

def World.put (w : World σ) (holder : Nat) (txh : Option (TxnHolder σ)) : World σ :=
  { w with holders := Function.update w.holders holder txh }

structure DbxPostgres where
  txnHolder : Nat
  txn : Bool
  sessionVars : SessionVars
  deriving DecidableEq

/-- How a call reads the answer to its query. -/
inductive Fetch where
  | one
  | optional
  | all
  | execute
  deriving DecidableEq, Repr

inductive Fetched (ρ : Type v) where
  | one (row : ρ)
  | optional (row : Option ρ)
  | all (rows : List ρ)
  | affected (rows : Nat)
  deriving DecidableEq

def rowNotFound : String := "no rows returned by a query that expected to return at least one row"

def Fetch.result (f : Fetch) (answer : Except String (Rows ρ)) : Except DbxError (Fetched ρ) :=
  match f, answer with
  | _, .error e => .error (.sqlx e)
  | .one, .ok ⟨[], _⟩ => .error (.sqlx rowNotFound)
  | .one, .ok ⟨row :: _, _⟩ => .ok (.one row)
  | .optional, .ok answer => .ok (.optional answer.rows.head?)
  | .all, .ok answer => .ok (.all answer.rows)
  | .execute, .ok answer => .ok (.affected answer.affected)

/-- Where a statement runs: in the transaction of the holder or on a connection of the pool, unless an
assertion stops it. -/
inductive Route (σ : Type u) where
  | txn (txh : TxnHolder σ)
  | pool
  | rejected

/-- Why a transaction cannot begin. -/
def beginRefusal (readOnly : Bool) (vars : SessionVars) (refuses : Refusals) : Option String :=
  ((refuses .start).or (if readOnly then refuses .setReadOnly else none)).or
    (if vars.isEmpty then none else refuses .setConfig)

namespace DbxPostgres

/-- `Arc::default()` makes a holder of its own. -/
def new (txn : Bool) (w : World σ) : DbxPostgres × World σ :=
  (⟨w.fresh, txn, []⟩, { w.put w.fresh none with fresh := w.fresh + 1 })

def txnCloned (dbx : DbxPostgres) (w : World σ) : DbxPostgres × World σ :=
  (⟨w.fresh, true, dbx.sessionVars⟩, { w.put w.fresh none with fresh := w.fresh + 1 })

def withSessionVars (dbx : DbxPostgres) (vars : SessionVars) : DbxPostgres :=
  { dbx with sessionVars := vars }

/-- The condition that `assert_no_orphan_session_vars` asserts. -/
def noOrphanSessionVars (dbx : DbxPostgres) : Bool := dbx.txn || dbx.sessionVars.isEmpty

/-- A transaction begun for this handle; where a command of it fails it is dropped. -/
def opened (dbx : DbxPostgres) (readOnly : Bool) (refuses : Refusals) (db : σ) :
    Except String (PgTransaction σ) := do
  let t ← PgTransaction.start db refuses
  let t ← if readOnly then t.setReadOnly refuses else pure t
  if dbx.sessionVars.isEmpty then pure t else t.setConfig dbx.sessionVars refuses

theorem opened_eq (dbx : DbxPostgres) (readOnly : Bool) (refuses : Refusals) (db : σ) :
    dbx.opened readOnly refuses db =
      match beginRefusal readOnly dbx.sessionVars refuses with
      | some m => .error m
      | none => .ok ⟨readOnly, dbx.sessionVars, db, [], false⟩ := by
  unfold opened PgTransaction.start beginRefusal
  rcases refuses .start with _ | m
  · have hvars (t : PgTransaction σ) (hsettings : t.vars = []) :
        (if dbx.sessionVars.isEmpty then pure t else t.setConfig dbx.sessionVars refuses) =
          match if dbx.sessionVars.isEmpty then none else refuses .setConfig with
          | some m => .error m
          | none => .ok { t with vars := dbx.sessionVars } := by
      split
      · next hempty =>
        rw [List.isEmpty_iff.1 hempty, ← hsettings]
        rfl
      · unfold PgTransaction.setConfig
        rcases refuses .setConfig with _ | m <;> rfl
    cases readOnly
    · exact hvars _ rfl
    · unfold PgTransaction.setReadOnly
      rcases refuses .setReadOnly with _ | m
      · exact hvars _ rfl
      · rfl
  · rfl

def beginTxnInner (dbx : DbxPostgres) (readOnly : Bool) (refuses : Refusals) (w : World σ) :
    World σ × Except DbxError Unit :=
  if !dbx.txn then (w, .error .cannotBeginTxnWithTxnFalse)
  else match w.holders dbx.txnHolder with
    | some txh =>
      let (name, txh) := txh.inc
      match txh.txn.savepoint name refuses with
      | (txn, .error e) =>
        (w.put dbx.txnHolder (some { txh with txn }), .error (.ofSavepoint "create" name e))
      | (txn, .ok ()) => (w.put dbx.txnHolder (some { txh with txn }), .ok ())
    | none =>
      match dbx.opened readOnly refuses w.db with
      | .error e => (w, .error (.sqlx e))
      | .ok txn => (w.put dbx.txnHolder (some (.new txn)), .ok ())

def beginTxn (dbx : DbxPostgres) (refuses : Refusals) (w : World σ) : World σ × Except DbxError Unit :=
  dbx.beginTxnInner false refuses w

def beginTxnReadOnly (dbx : DbxPostgres) (refuses : Refusals) (w : World σ) :
    World σ × Except DbxError Unit :=
  dbx.beginTxnInner true refuses w

def rollbackTxn (dbx : DbxPostgres) (refuses : Refusals) (w : World σ) : World σ × Except DbxError Unit :=
  match w.holders dbx.txnHolder with
  | none => (w, .error .noTxn)
  | some txh =>
    let (counter, savepoint, txh) := txh.dec
    if counter = 0 then
      let (db, r) := txh.txn.rollback w.db refuses
      ({ w.put dbx.txnHolder none with db }, r.mapError .sqlx)
    else match savepoint with
      | some name =>
        let (txn, r) := txh.txn.rollbackTo name refuses
        (w.put dbx.txnHolder (some { txh with txn }), r.mapError (.ofSavepoint "rollback to" name))
      | none => (w.put dbx.txnHolder (some txh), .ok ())

def commitTxn (dbx : DbxPostgres) (refuses : Refusals) (w : World σ) : World σ × Except DbxError Unit :=
  if !dbx.txn then (w, .error .cannotCommitTxnWithTxnFalse)
  else match w.holders dbx.txnHolder with
    | none => (w, .error .txnCantCommitNoOpenTxn)
    | some txh =>
      let (counter, savepoint, txh) := txh.dec
      if counter = 0 then
        let (db, r) := txh.txn.commit w.db refuses
        ({ w.put dbx.txnHolder none with db }, r.mapError .sqlx)
      else match savepoint with
        | some name =>
          let (txn, r) := txh.txn.release name refuses
          (w.put dbx.txnHolder (some { txh with txn }), r.mapError (.ofSavepoint "release" name))
        | none => (w.put dbx.txnHolder (some txh), .ok ())

/-- The way to the pool, behind the assertion of debug builds. -/
def fallThrough (debugAssertions : Bool) (dbx : DbxPostgres) : Route σ :=
  if debugAssertions && !dbx.noOrphanSessionVars then .rejected else .pool

def route (debugAssertions : Bool) (dbx : DbxPostgres) (w : World σ) : Route σ :=
  if dbx.txn then
    match w.holders dbx.txnHolder with
    | some txh => .txn txh
    | none => dbx.fallThrough debugAssertions
  else dbx.fallThrough debugAssertions

/-- What the calls that run a query share; `none` is a failed assertion. -/
def fetch (debugAssertions : Bool) (f : Fetch) (s : Statement σ ρ) (dbx : DbxPostgres) (w : World σ) :
    Option (World σ × Except DbxError (Fetched ρ)) :=
  match dbx.route debugAssertions w with
  | .txn txh =>
    let (txn, answer) := txh.txn.execute s
    some (w.put dbx.txnHolder (some { txh with txn }), f.result answer)
  | .pool =>
    let (answer, db) := s.autocommit w.db
    some ({ w with db }, f.result answer)
  | .rejected => none

/-- `fetch_one` and `fetch_one_scalar`. -/
def fetchOne (debugAssertions : Bool) (s : Statement σ ρ) := fetch debugAssertions .one s

/-- `fetch_optional` and `fetch_optional_scalar`. -/
def fetchOptional (debugAssertions : Bool) (s : Statement σ ρ) := fetch debugAssertions .optional s

/-- `fetch_all` and `fetch_all_scalar`. -/
def fetchAll (debugAssertions : Bool) (s : Statement σ ρ) := fetch debugAssertions .all s

def execute (debugAssertions : Bool) (s : Statement σ ρ) := fetch debugAssertions .execute s

end DbxPostgres

end Fusions.Sql
