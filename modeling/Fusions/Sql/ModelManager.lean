import Fusions.Sql.DbxPostgres

/-! The model manager: its ways to copy a handle, and transactions around closures. -/
namespace Fusions.Sql
universe u v w
variable {σ : Type u} {C : Type v} {τ κ : Type w}

class ModelContext (C : Type v) where
  dbSessionVars : C → SessionVars

inductive SqlError where
  | dbxError (e : DbxError)
  | custom (message : String)
  deriving DecidableEq, Repr

structure ModelManager (C : Type v) where
  dbx : DbxPostgres
  ctx : Option C

/-- A run of a program: what is seen of it on its way, and its result, which a panic leaves out. -/
structure Execution (κ : Type w) (σ : Type u) (τ : Type w) where
  seen : List κ
  world : World σ
  result : Option (Except SqlError τ)

def Execution.after (seen : List κ) (run : Execution κ σ τ) : Execution κ σ τ :=
  { run with seen := seen ++ run.seen }

namespace ModelManager

def newWithDbx (dbx : DbxPostgres) : ModelManager C := ⟨dbx, none⟩

def txnCloned (mm : ModelManager C) (w : World σ) : ModelManager C × World σ :=
  let (dbx, w) := mm.dbx.txnCloned w
  (⟨dbx, mm.ctx⟩, w)

def getTxnClone (mm : ModelManager C) (w : World σ) : ModelManager C × World σ :=
  if mm.dbx.txn then (mm, w) else mm.txnCloned w

def withCtx [ModelContext C] (mm : ModelManager C) (ctx : C) : ModelManager C :=
  ⟨mm.dbx.withSessionVars (ModelContext.dbSessionVars ctx), some ctx⟩

/-- `run_in_txn` up to its call of the closure. -/
def enter (mm : ModelManager C) (readOnly : Bool) (refuses : Refusals) (w : World σ) :
    World σ × Except SqlError (ModelManager C) :=
  let (mmTxn, w) := mm.getTxnClone w
  match if readOnly then mmTxn.dbx.beginTxnReadOnly refuses w else mmTxn.dbx.beginTxn refuses w with
  | (w, .error e) => (w, .error (.dbxError e))
  | (w, .ok ()) => (w, .ok mmTxn)

theorem enter_eq (mm : ModelManager C) (readOnly : Bool) (refuses : Refusals) (w : World σ) :
    mm.enter readOnly refuses w =
      match (mm.getTxnClone w).1.dbx.beginTxnInner readOnly refuses (mm.getTxnClone w).2 with
      | (w, .error e) => (w, .error (.dbxError e))
      | (w', .ok ()) => (w', .ok (mm.getTxnClone w).1) := by
  cases readOnly <;> rfl

/-- `run_in_txn` from the return of the closure on. -/
def leave (mmTxn : ModelManager C) (refuses : Refusals) (r : Except SqlError τ) (w : World σ) :
    World σ × Except SqlError τ :=
  match r with
  | .ok result =>
    match mmTxn.dbx.commitTxn refuses w with
    | (w, .error e) => (w, .error (.dbxError e))
    | (w, .ok ()) => (w, .ok result)
  | .error e => ((mmTxn.dbx.rollbackTxn refuses w).1, .error e)

def runInTxn (mm : ModelManager C) (readOnly : Bool) (refuses : Refusals)
    (f : ModelManager C → World σ → Execution κ σ τ) (w : World σ) : Execution κ σ τ :=
  match mm.enter readOnly refuses w with
  | (w, .error e) => ⟨[], w, some (.error e)⟩
  | (w, .ok mmTxn) =>
    let run := f mmTxn w
    match run.result with
    | none => run
    | some r =>
      let (w, r) := mmTxn.leave refuses r run.world
      ⟨run.seen, w, some r⟩

def transaction (mm : ModelManager C) (refuses : Refusals) (f : ModelManager C → World σ → Execution κ σ τ)
    (w : World σ) : Execution κ σ τ :=
  mm.runInTxn false refuses f w

def readTransaction (mm : ModelManager C) (refuses : Refusals)
    (f : ModelManager C → World σ → Execution κ σ τ) (w : World σ) : Execution κ σ τ :=
  mm.runInTxn true refuses f w

end ModelManager

end Fusions.Sql
