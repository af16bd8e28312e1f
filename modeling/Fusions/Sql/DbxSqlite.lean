import Fusions.Sql.Programs

/-! The handle on a pool of SQLite connections, and the model manager on it. A statement that fails undoes itself and
leaves its transaction open, and no transaction is read-only or has settings. -/
namespace Fusions.Sql
universe u v w
variable {σ ρ τ κ : Type u}

structure SqliteTransaction (σ : Type u) where
  current : σ
  /-- The savepoints with the state at each, the latest first. -/
  savepoints : List (String × σ)

namespace SqliteTransaction

def start (db : σ) (refuses : Refusals) : Except String (SqliteTransaction σ) :=
  match refuses .start with
  | some e => .error e
  | none => .ok ⟨db, []⟩

def execute (t : SqliteTransaction σ) (s : Statement σ ρ) : SqliteTransaction σ × Except String (Rows ρ) :=
  ({ t with current := (s.autocommit t.current).2 }, (s.autocommit t.current).1)

def noSuchSavepoint (name : String) : String := "no such savepoint: " ++ name

def savepoint (t : SqliteTransaction σ) (name : String) (refuses : Refusals) :
    SqliteTransaction σ × Except String Unit :=
  match refuses .savepoint with
  | some e => (t, .error e)
  | none => ({ t with savepoints := (name, t.current) :: t.savepoints }, .ok ())

/-- The savepoints since the latest of this name are gone, and it is too. -/
def release (t : SqliteTransaction σ) (name : String) (refuses : Refusals) :
    SqliteTransaction σ × Except String Unit :=
  match refuses .release, PgTransaction.findSavepoint name t.savepoints with
  | some e, _ => (t, .error e)
  | none, none => (t, .error (noSuchSavepoint name))
  | none, some (_, earlier) => ({ t with savepoints := earlier }, .ok ())

/-- The savepoint itself stays. -/
def rollbackTo (t : SqliteTransaction σ) (name : String) (refuses : Refusals) :
    SqliteTransaction σ × Except String Unit :=
  match refuses .rollbackTo, PgTransaction.findSavepoint name t.savepoints with
  | some e, _ => (t, .error e)
  | none, none => (t, .error (noSuchSavepoint name))
  | none, some (state, earlier) => (⟨state, (name, state) :: earlier⟩, .ok ())

/-- A transaction whose `COMMIT` fails is dropped, and so it is rolled back. -/
def commit (t : SqliteTransaction σ) (db : σ) (refuses : Refusals) : σ × Except String Unit :=
  match refuses .commit with
  | some e => (db, .error e)
  | none => (t.current, .ok ())

def rollback (_ : SqliteTransaction σ) (db : σ) (refuses : Refusals) : σ × Except String Unit :=
  match refuses .rollback with
  | some e => (db, .error e)
  | none => (db, .ok ())

end SqliteTransaction

structure SqliteHolder (σ : Type u) where
  txn : SqliteTransaction σ
  counter : Int
  /-- The stack, its top first. -/
  savepoints : List String

namespace SqliteHolder

def new (txn : SqliteTransaction σ) : SqliteHolder σ := ⟨txn, 1, []⟩

def inc (txh : SqliteHolder σ) : String × SqliteHolder σ :=
  let name := savepointName txh.counter
  (name, { txh with counter := (txh.counter + 1).bmod (2 ^ 32), savepoints := name :: txh.savepoints })

def dec (txh : SqliteHolder σ) : Int × Option String × SqliteHolder σ :=
  let counter := (txh.counter - 1).bmod (2 ^ 32)
  (counter, txh.savepoints.head?, { txh with counter, savepoints := txh.savepoints.tail })

end SqliteHolder

/-- The committed database, and what the shared transaction holders hold. -/
structure SqliteWorld (σ : Type u) where
  db : σ
  holders : Nat → Option (SqliteHolder σ)
  fresh : Nat

def SqliteWorld.put (w : SqliteWorld σ) (holder : Nat) (txh : Option (SqliteHolder σ)) : SqliteWorld σ :=
  { w with holders := Function.update w.holders holder txh }

structure DbxSqlite where
  txnHolder : Nat
  txn : Bool
  deriving DecidableEq

/-- A run of a program: what is seen of it on its way, and its result. -/
structure SqliteExecution (κ σ τ : Type u) where
  seen : List κ
  world : SqliteWorld σ
  result : Except SqlError τ

def SqliteExecution.after (seen : List κ) (run : SqliteExecution κ σ τ) : SqliteExecution κ σ τ :=
  { run with seen := seen ++ run.seen }

namespace DbxSqlite

/-- `Arc::default()` makes a holder of its own. -/
def new (txn : Bool) (w : SqliteWorld σ) : DbxSqlite × SqliteWorld σ :=
  (⟨w.fresh, txn⟩, { w.put w.fresh none with fresh := w.fresh + 1 })

def beginTxn (dbx : DbxSqlite) (refuses : Refusals) (w : SqliteWorld σ) : SqliteWorld σ × Except DbxError Unit :=
  if !dbx.txn then (w, .error .cannotBeginTxnWithTxnFalse)
  else match w.holders dbx.txnHolder with
    | some txh =>
      let (name, txh) := txh.inc
      let (txn, r) := txh.txn.savepoint name refuses
      (w.put dbx.txnHolder (some { txh with txn }), r.mapError (.ofSavepoint "create" name))
    | none =>
      match SqliteTransaction.start w.db refuses with
      | .error e => (w, .error (.sqlx e))
      | .ok txn => (w.put dbx.txnHolder (some (.new txn)), .ok ())

def rollbackTxn (dbx : DbxSqlite) (refuses : Refusals) (w : SqliteWorld σ) : SqliteWorld σ × Except DbxError Unit :=
  match w.holders dbx.txnHolder with
  | none => (w, .error .noTxn)
  | some txh =>
    let (counter, savepoint, txh) := txh.dec
    if counter = 0 then
      let (db, r) := txh.txn.rollback w.db refuses
      ({ w.put dbx.txnHolder none with db }, r.mapError .sqlx)
    else match savepoint with
      | some name =>
        let (txn, r) := txh.txn.rollbackTo name refuses
        (w.put dbx.txnHolder (some { txh with txn }), r.mapError (.ofSavepoint "rollback to" name))
      | none => (w.put dbx.txnHolder (some txh), .ok ())

def commitTxn (dbx : DbxSqlite) (refuses : Refusals) (w : SqliteWorld σ) : SqliteWorld σ × Except DbxError Unit :=
  if !dbx.txn then (w, .error .cannotCommitTxnWithTxnFalse)
  else match w.holders dbx.txnHolder with
    | none => (w, .error .txnCantCommitNoOpenTxn)
    | some txh =>
      let (counter, savepoint, txh) := txh.dec
      if counter = 0 then
        let (db, r) := txh.txn.commit w.db refuses
        ({ w.put dbx.txnHolder none with db }, r.mapError .sqlx)
      else match savepoint with
        | some name =>
          let (txn, r) := txh.txn.release name refuses
          (w.put dbx.txnHolder (some { txh with txn }), r.mapError (.ofSavepoint "release" name))
        | none => (w.put dbx.txnHolder (some txh), .ok ())

/-- What `fetch_one`, `fetch_optional`, `fetch_all` and `execute` share. -/
def fetch (f : Fetch) (s : Statement σ ρ) (dbx : DbxSqlite) (w : SqliteWorld σ) :
    SqliteWorld σ × Except DbxError (Fetched ρ) :=
  match if dbx.txn then w.holders dbx.txnHolder else none with
  | some txh =>
    let (txn, answer) := txh.txn.execute s
    (w.put dbx.txnHolder (some { txh with txn }), f.result answer)
  | none =>
    let (answer, db) := s.autocommit w.db
    ({ w with db }, f.result answer)

def getTxnClone (dbx : DbxSqlite) (w : SqliteWorld σ) : DbxSqlite × SqliteWorld σ :=
  if dbx.txn then (dbx, w) else new true w

/-- `run_in_txn` from the return of the closure on. -/
def leave (dbxTxn : DbxSqlite) (refuses : Refusals) (r : Except SqlError τ) (w : SqliteWorld σ) :
    SqliteWorld σ × Except SqlError τ :=
  match r with
  | .ok result =>
    match dbxTxn.commitTxn refuses w with
    | (w, .error e) => (w, .error (.dbxError e))
    | (w, .ok ()) => (w, .ok result)
  | .error e => ((dbxTxn.rollbackTxn refuses w).1, .error e)

/-- `run_in_txn`, whose read-only transactions begin as the others do. -/
def runInTxn (dbx : DbxSqlite) (refuses : Refusals) (f : DbxSqlite → SqliteWorld σ → SqliteExecution κ σ τ)
    (w : SqliteWorld σ) : SqliteExecution κ σ τ :=
  let (dbxTxn, w) := dbx.getTxnClone w
  match dbxTxn.beginTxn refuses w with
  | (w, .error e) => ⟨[], w, .error (.dbxError e)⟩
  | (w, .ok ()) =>
    let run := f dbxTxn w
    let (w, r) := dbxTxn.leave refuses run.result run.world
    ⟨run.seen, w, r⟩

end DbxSqlite

def SqliteWorld.seen (w : SqliteWorld σ) (dbx : DbxSqlite) : Event σ ρ τ :=
  match if dbx.txn then w.holders dbx.txnHolder else none with
  | some txh => .between txh.counter txh.savepoints w.db
  | none => .between 0 [] w.db

def Body.execSqlite : Body σ ρ τ → DbxSqlite → SqliteWorld σ → SqliteExecution (Event σ ρ τ) σ τ
  | .done r, dbx, w => ⟨[w.seen dbx], w, r⟩
  | .statement f s next, dbx, w =>
    let (w', r) := dbx.fetch f s w
    ((next r).execSqlite dbx w').after [w.seen dbx, .replied r]
  | .transaction _ refuses closure next, dbx, w =>
    let run := dbx.runInTxn refuses closure.execSqlite w
    ((next run.result).execSqlite dbx run.world).after (w.seen dbx :: run.seen ++ [.returned run.result])

def SqliteExecution.outcome (run : SqliteExecution (Event σ ρ τ) σ τ) : Outcome σ ρ τ :=
  ⟨run.seen, run.world.db, some run.result⟩

/-! The nested transactions that the programs are meant to be, where each closure contributes all or nothing. -/

/-- What a closure comes to: its result and the state it leaves. -/
structure Contribution (σ ρ τ : Type u) where
  seen : List (Event σ ρ τ)
  result : Except SqlError τ
  state : σ

def Contribution.after (seen : List (Event σ ρ τ)) (c : Contribution σ ρ τ) : Contribution σ ρ τ :=
  { c with seen := seen ++ c.seen }

/-- The state after a closure, of which nothing is left if it ends with an error. -/
def Contribution.kept (c : Contribution σ ρ τ) (before : σ) : σ :=
  match c.result with
  | .ok _ => c.state
  | .error _ => before

/-- The contribution of an outermost closure, after `COMMIT`. -/
def Contribution.committed (c : Contribution σ ρ τ) (refuses : Refusals) : Contribution σ ρ τ :=
  match c.result, refuses .commit with
  | .ok _, some e => { c with result := .error (.dbxError (.sqlx e)) }
  | _, _ => c

def Body.contribution (base : σ) : Body σ ρ τ → Nat → σ → Contribution σ ρ τ
  | .done r, level, state => ⟨[.inside level base], r, state⟩
  | .statement f s next, level, state =>
    let (answer, state) := s.autocommit state
    let r := f.result answer
    ((next r).contribution base level state).after [.inside level base, .replied r]
  | .transaction _ _ closure next, level, state =>
    let c := closure.contribution base (level + 1) state
    ((next c.result).contribution base level (c.kept state)).after
      (.inside level base :: c.seen ++ [.returned c.result])

def Body.allOrNothing : Body σ ρ τ → σ → Outcome σ ρ τ
  | .done r, db => ⟨[.outside db], db, some r⟩
  | .statement f s next, db =>
    let (answer, db') := s.autocommit db
    let r := f.result answer
    ((next r).allOrNothing db').after [.outside db, .replied r]
  | .transaction _ refuses closure next, db =>
    match refuses .start with
    | some e =>
      let r := .error (.dbxError (.sqlx e))
      ((next r).allOrNothing db).after [.outside db, .returned r]
    | none =>
      let c := (closure.contribution db 0 db).committed refuses
      ((next c.result).allOrNothing (c.kept db)).after (.outside db :: c.seen ++ [.returned c.result])

/-- The commands on savepoints are granted, and the depth fits its counter. -/
def Body.GrantedInside : Body σ ρ τ → Nat → Prop
  | .done _, _ => True
  | .statement _ _ next, level => ∀ r, (next r).GrantedInside level
  | .transaction _ refuses closure next, level =>
    refuses .savepoint = none ∧ refuses .release = none ∧ refuses .rollbackTo = none ∧ level + 2 < 2 ^ 31 ∧
      closure.GrantedInside (level + 1) ∧ ∀ r, (next r).GrantedInside level

def Body.Granted : Body σ ρ τ → Prop
  | .done _ => True
  | .statement _ _ next => ∀ r, (next r).Granted
  | .transaction _ _ closure next => closure.GrantedInside 0 ∧ ∀ r, (next r).Granted

end Fusions.Sql
