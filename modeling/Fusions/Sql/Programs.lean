import Fusions.Sql.ModelManager

/-! Programs of statements and transaction closures: what the code makes of them, and the nested transactions
they are meant to be. -/
namespace Fusions.Sql
universe u
variable {σ ρ τ C : Type u}

/-- A program on one handle, or the body of a closure on the handle it is called with. What follows a
statement or a transaction sees its result. `refuses` gives the commands of that transaction which fail. -/
inductive Body (σ ρ τ : Type u) where
  | done (r : Except SqlError τ)
  | statement (f : Fetch) (s : Statement σ ρ) (next : Except DbxError (Fetched ρ) → Body σ ρ τ)
  | transaction (readOnly : Bool) (refuses : Refusals) (closure : Body σ ρ τ)
      (next : Except SqlError τ → Body σ ρ τ)

/-- What is seen of a run: between two steps the depth counter, the savepoint stack and the committed
database, and at each step its result. -/
inductive Event (σ ρ τ : Type u) where
  | between (counter : Int) (savepoints : List String) (db : σ)
  | replied (r : Except DbxError (Fetched ρ))
  | returned (r : Except SqlError τ)

def World.seen (w : World σ) (mm : ModelManager C) : Event σ ρ τ :=
  match if mm.dbx.txn then w.holders mm.dbx.txnHolder else none with
  | some txh => .between txh.counter txh.savepoints w.db
  | none => .between 0 [] w.db

def Body.exec (debugAssertions : Bool) :
    Body σ ρ τ → ModelManager C → World σ → Execution (Event σ ρ τ) σ τ
  | .done r, mm, w => ⟨[w.seen mm], w, some r⟩
  | .statement f s next, mm, w =>
    match mm.dbx.fetch debugAssertions f s w with
    | none => ⟨[w.seen mm], w, none⟩
    | some (w', r) => ((next r).exec debugAssertions mm w').after [w.seen mm, .replied r]
  | .transaction readOnly refuses closure next, mm, w =>
    let run :=
      if readOnly then mm.readTransaction refuses (closure.exec debugAssertions) w
      else mm.transaction refuses (closure.exec debugAssertions) w
    match run.result with
    | none => run.after [w.seen mm]
    | some r =>
      ((next r).exec debugAssertions mm run.world).after (w.seen mm :: run.seen ++ [.returned r])

/-- What a run amounts to outside: the events, the committed database and the result. -/
structure Outcome (σ ρ τ : Type u) where
  seen : List (Event σ ρ τ)
  db : σ
  result : Option (Except SqlError τ)

def Outcome.after (seen : List (Event σ ρ τ)) (o : Outcome σ ρ τ) : Outcome σ ρ τ :=
  { o with seen := seen ++ o.seen }

def Execution.outcome (run : Execution (Event σ ρ τ) σ τ) : Outcome σ ρ τ :=
  ⟨run.seen, run.world.db, run.result⟩

/-- What a closure amounts to in its transaction: the state it leaves, and whether a statement of it failed. -/
structure Effect (σ ρ τ : Type u) where
  seen : List (Event σ ρ τ)
  result : Except SqlError τ
  state : σ
  failed : Bool

def Effect.after (seen : List (Event σ ρ τ)) (e : Effect σ ρ τ) : Effect σ ρ τ :=
  { e with seen := seen ++ e.seen }

/-- The names of the savepoints around a closure, the innermost first. -/
def savepointNames : Nat → List String
  | 0 => []
  | level + 1 => savepointName (level + 1) :: savepointNames level

/-- Between two steps of a closure with this many closures around it. -/
def Event.inside (level : Nat) (base : σ) : Event σ ρ τ := .between (level + 1) (savepointNames level) base

def Event.outside (db : σ) : Event σ ρ τ := .between 0 [] db

/-- A statement of a closure: its answer, the state it leaves, and whether it failed. After one that failed
all others fail. -/
def Statement.inside (s : Statement σ ρ) (readOnly : Bool) (vars : SessionVars) (state : σ) (failed : Bool) :
    Except String (Rows ρ) × σ × Bool :=
  if failed then (.error abortedMessage, state, true)
  else match s.answer readOnly vars state with
    | .error e => (.error e, state, true)
    | .ok (state, rows) => (.ok rows, state, false)

/-- Why a nested transaction cannot begin. -/
def nestedRefusal (refuses : Refusals) (failed : Bool) : Option String :=
  (refuses .savepoint).or (if failed then some abortedMessage else none)

/-- What a nested transaction leaves of its closure: the result of the call, the state its parent goes on
with, and whether its last command failed. A closure that ends with an error contributes nothing. -/
def Effect.nested (e : Effect σ ρ τ) (refuses : Refusals) (level : Nat) (state : σ) :
    Except SqlError τ × σ × Bool :=
  match e.result, refuses .release with
  | .error err, _ => (.error err, state, (refuses .rollbackTo).isSome)
  | .ok _, some m =>
    (.error (.dbxError (.ofSavepoint "release" (savepointName (level + 1)) m)), state, true)
  | .ok v, none => (.ok v, e.state, false)

/-- What a transaction leaves of its closure: the result of the call and the committed database. -/
def Effect.top (e : Effect σ ρ τ) (refuses : Refusals) (db : σ) : Except SqlError τ × σ :=
  match e.result, refuses .commit with
  | .error err, _ => (.error err, db)
  | .ok _, some m => (.error (.dbxError (.sqlx m)), db)
  | .ok v, none => (.ok v, e.state)

/-- A nested closure whose call succeeds had no statement fail. -/
def Effect.SoundNested (e : Effect σ ρ τ) (refuses : Refusals) (level : Nat) (state : σ) : Prop :=
  (e.nested refuses level state).1.toOption.isSome → e.failed = false

/-- An outermost closure whose call succeeds had no statement fail, or has nothing to commit. -/
def Effect.SoundTop (e : Effect σ ρ τ) (refuses : Refusals) (db : σ) : Prop :=
  (e.top refuses db).1.toOption.isSome → e.failed = false ∨ (e.top refuses db).2 = db

/-- The meaning of a closure in a transaction begun at `base`. -/
def Body.inside (readOnly : Bool) (vars : SessionVars) (base : σ) :
    Body σ ρ τ → Nat → σ → Bool → Effect σ ρ τ
  | .done r, level, state, failed => ⟨[.inside level base], r, state, failed⟩
  | .statement f s next, level, state, failed =>
    let (answer, state, failed) := s.inside readOnly vars state failed
    let r := f.result answer
    ((next r).inside readOnly vars base level state failed).after [.inside level base, .replied r]
  | .transaction _ refuses closure next, level, state, failed =>
    match nestedRefusal refuses failed with
    | some m =>
      let r := .error (.dbxError (.ofSavepoint "create" (savepointName (level + 1)) m))
      ((next r).inside readOnly vars base level state true).after [.inside level base, .returned r]
    | none =>
      let e := closure.inside readOnly vars base (level + 1) state false
      let (r, state, failed) := e.nested refuses level state
      ((next r).inside readOnly vars base level state failed).after
        (.inside level base :: e.seen ++ [.returned r])

/-- The meaning of a program outside of transactions. `orphaned` says that an assertion keeps it from running
statements there. -/
def Body.meaning (orphaned : Bool) (vars : SessionVars) : Body σ ρ τ → σ → Outcome σ ρ τ
  | .done r, db => ⟨[.outside db], db, some r⟩
  | .statement f s next, db =>
    if orphaned then ⟨[.outside db], db, none⟩
    else
      let (answer, db') := s.autocommit db
      let r := f.result answer
      ((next r).meaning orphaned vars db').after [.outside db, .replied r]
  | .transaction readOnly refuses closure next, db =>
    match beginRefusal readOnly vars refuses with
    | some m =>
      let r := .error (.dbxError (.sqlx m))
      ((next r).meaning orphaned vars db).after [.outside db, .returned r]
    | none =>
      let e := closure.inside readOnly vars db 0 db false
      let (r, db') := e.top refuses db
      ((next r).meaning orphaned vars db').after (.outside db :: e.seen ++ [.returned r])

/-- After a statement of it failed, a closure begins no transaction, and it does not end with success unless the
release of its savepoint fails by itself. No savepoint is refused, and the depth fits its counter. -/
def Body.CarefulInside (readOnly : Bool) (vars : SessionVars) (base : σ) :
    Body σ ρ τ → Nat → σ → Bool → Prop
  | .done _, _, _, _ => True
  | .statement f s next, level, state, failed =>
    let (answer, state, failed) := s.inside readOnly vars state failed
    (next (f.result answer)).CarefulInside readOnly vars base level state failed
  | .transaction _ refuses closure next, level, state, failed =>
    let e := closure.inside readOnly vars base (level + 1) state false
    let (r, state', failed') := e.nested refuses level state
    nestedRefusal refuses failed = none ∧ level + 2 < 2 ^ 31 ∧
      closure.CarefulInside readOnly vars base (level + 1) state false ∧ e.SoundNested refuses level state ∧
      (next r).CarefulInside readOnly vars base level state' failed'

/-- The closures of the transactions are careful, and none in which a statement failed ends with success
where there is something to commit. -/
def Body.Careful (orphaned : Bool) (vars : SessionVars) : Body σ ρ τ → σ → Prop
  | .done _, _ => True
  | .statement f s next, db =>
    orphaned = true ∨
      let (answer, db) := s.autocommit db
      (next (f.result answer)).Careful orphaned vars db
  | .transaction readOnly refuses closure next, db =>
    match beginRefusal readOnly vars refuses with
    | some m => (next (.error (.dbxError (.sqlx m)))).Careful orphaned vars db
    | none =>
      let e := closure.inside readOnly vars db 0 db false
      let (r, db') := e.top refuses db
      closure.CarefulInside readOnly vars db 0 db false ∧ e.SoundTop refuses db ∧
        (next r).Careful orphaned vars db'

end Fusions.Sql
