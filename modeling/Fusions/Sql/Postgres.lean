import Mathlib.Data.List.Basic
import Mathlib.Logic.Function.Basic

/-! A transaction of a PostgreSQL server: savepoints, the state in which a failed command leaves it, and what
becomes of the database where it ends. -/
namespace Fusions.Sql
universe u v w
variable {σ : Type u} {ρ : Type v} {α : Type w}

/-- The settings of `set_config(.., .., true)`, in effect until the transaction ends. -/
abbrev SessionVars := List (String × String)

structure Rows (ρ : Type v) where
  rows : List ρ
  affected : Nat

/-- An SQL statement, by what it does to a database under the settings of its transaction. -/
structure Statement (σ : Type u) (ρ : Type v) where
  writes : Bool
  run : SessionVars → σ → Except String (σ × Rows ρ)

/-- The commands with which a client begins and ends transactions and savepoints. -/
inductive Command where
  | start
  | setReadOnly
  | setConfig
  | savepoint
  | release
  | rollbackTo
  | commit
  | rollback
  deriving DecidableEq, Repr

/-- The errors of the commands that fail though the transaction would allow them. -/
abbrev Refusals := Command → Option String

def abortedMessage : String :=
  "current transaction is aborted, commands ignored until end of transaction block"

def readOnlyMessage : String := "cannot execute statement in a read-only transaction"

def missingMessage (name : String) : String := "savepoint \"" ++ name ++ "\" does not exist"

def Statement.answer (s : Statement σ ρ) (readOnly : Bool) (vars : SessionVars) (db : σ) :
    Except String (σ × Rows ρ) :=
  if readOnly && s.writes then .error readOnlyMessage else s.run vars db

/-- A statement outside of transactions is a transaction of its own. -/
def Statement.autocommit (s : Statement σ ρ) (db : σ) : Except String (Rows ρ) × σ :=
  match s.answer false [] db with
  | .error e => (.error e, db)
  | .ok (db, rows) => (.ok rows, db)

structure PgTransaction (σ : Type u) where
  readOnly : Bool
  vars : SessionVars
  current : σ
  /-- The savepoints with the state at each, the latest first. -/
  savepoints : List (String × σ)
  aborted : Bool

namespace PgTransaction

/-- The state at the latest savepoint of this name and the savepoints before it: a name shadows an earlier
equal one. -/
def findSavepoint (name : String) : List (String × σ) → Option (σ × List (String × σ))
  | [] => none
  | (other, state) :: earlier => if other = name then some (state, earlier) else findSavepoint name earlier

def start (db : σ) (refuses : Refusals) : Except String (PgTransaction σ) :=
  match refuses .start with
  | some e => .error e
  | none => .ok ⟨false, [], db, [], false⟩

def setReadOnly (t : PgTransaction σ) (refuses : Refusals) : Except String (PgTransaction σ) :=
  match refuses .setReadOnly with
  | some e => .error e
  | none => .ok { t with readOnly := true }

def setConfig (t : PgTransaction σ) (vars : SessionVars) (refuses : Refusals) :
    Except String (PgTransaction σ) :=
  match refuses .setConfig with
  | some e => .error e
  | none => .ok { t with vars := vars }

/-- A command that fails leaves the transaction aborted. -/
def failed (t : PgTransaction σ) (e : String) : PgTransaction σ × Except String α :=
  ({ t with aborted := true }, .error e)

def execute (t : PgTransaction σ) (s : Statement σ ρ) : PgTransaction σ × Except String (Rows ρ) :=
  if t.aborted then t.failed abortedMessage
  else match s.answer t.readOnly t.vars t.current with
    | .error e => t.failed e
    | .ok (db, rows) => ({ t with current := db }, .ok rows)

def savepoint (t : PgTransaction σ) (name : String) (refuses : Refusals) :
    PgTransaction σ × Except String Unit :=
  match refuses .savepoint with
  | some e => t.failed e
  | none =>
    if t.aborted then t.failed abortedMessage
    else ({ t with savepoints := (name, t.current) :: t.savepoints }, .ok ())

def release (t : PgTransaction σ) (name : String) (refuses : Refusals) :
    PgTransaction σ × Except String Unit :=
  match refuses .release with
  | some e => t.failed e
  | none =>
    if t.aborted then t.failed abortedMessage
    else match findSavepoint name t.savepoints with
      | none => t.failed (missingMessage name)
      | some (_, earlier) => ({ t with savepoints := earlier }, .ok ())

/-- The savepoint itself stays, and so it can be rolled back to again. -/
def rollbackTo (t : PgTransaction σ) (name : String) (refuses : Refusals) :
    PgTransaction σ × Except String Unit :=
  match refuses .rollbackTo with
  | some e => t.failed e
  | none =>
    match findSavepoint name t.savepoints with
    | none => t.failed (missingMessage name)
    | some (state, earlier) =>
      ({ t with current := state, savepoints := (name, state) :: earlier, aborted := false }, .ok ())

/-- `COMMIT` of an aborted transaction rolls back, without an error. -/
def commit (t : PgTransaction σ) (db : σ) (refuses : Refusals) : σ × Except String Unit :=
  match refuses .commit with
  | some e => (db, .error e)
  | none => (if t.aborted then db else t.current, .ok ())

def rollback (_ : PgTransaction σ) (db : σ) (refuses : Refusals) : σ × Except String Unit :=
  match refuses .rollback with
  | some e => (db, .error e)
  | none => (db, .ok ())

/-! No command on an open transaction changes its settings. -/

theorem execute_vars (t : PgTransaction σ) (s : Statement σ ρ) : (t.execute s).1.vars = t.vars := by
  unfold execute
  split
  · rfl
  · split <;> rfl

theorem savepoint_vars (t : PgTransaction σ) (name : String) (refuses : Refusals) :
    (t.savepoint name refuses).1.vars = t.vars := by
  unfold savepoint
  split
  · rfl
  · split <;> rfl

theorem release_vars (t : PgTransaction σ) (name : String) (refuses : Refusals) :
    (t.release name refuses).1.vars = t.vars := by
  unfold release
  split
  · rfl
  · split
    · rfl
    · split <;> rfl

theorem rollbackTo_vars (t : PgTransaction σ) (name : String) (refuses : Refusals) :
    (t.rollbackTo name refuses).1.vars = t.vars := by
  unfold rollbackTo
  split
  · rfl
  · split <;> rfl

end PgTransaction

end Fusions.Sql
