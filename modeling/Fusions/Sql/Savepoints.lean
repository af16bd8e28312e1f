import Fusions.Sql.Programs
import Std.Data.String.ToNat

/-! The holder of an open transaction against the server: its counter is the depth, its stack names the
savepoints around the closure, and below them the server keeps only savepoints that were rolled back to. -/
namespace Fusions.Sql
universe u v
variable {σ ρ τ C : Type u}

theorem savepointName_injective {m n : Nat} (h : savepointName m = savepointName n) : m = n := by
  have hrepr : Nat.repr m = Nat.repr n := by
    have h' := congrArg String.toList h
    simp only [savepointName, String.toList_append] at h'
    exact String.toList_inj.1 (List.append_cancel_left h')
  exact Nat.repr_injective hrepr

theorem PgTransaction.findSavepoint_append {name : String} {state : σ} {stale rest : List (String × σ)}
    (hstale : ∀ p ∈ stale, p.1 ≠ name) :
    findSavepoint name (stale ++ (name, state) :: rest) = some (state, rest) := by
  induction stale with
  | nil => simp [findSavepoint]
  | cons p stale ih =>
    obtain ⟨other, state'⟩ := p
    have hne : other ≠ name := hstale _ List.mem_cons_self
    rw [List.cons_append, findSavepoint, if_neg hne]
    exact ih fun p hp => hstale p (List.mem_cons_of_mem _ hp)

/-- The holder of a transaction in which a closure at this level runs: `state` is what the closure has made of
the database, and `outer` are the savepoints of the closures around it. -/
structure TxnHolder.Tracks (txh : TxnHolder σ) (readOnly : Bool) (vars : SessionVars) (level : Nat) (state : σ)
    (failed : Bool) (outer : List (String × σ)) : Prop where
  counter : txh.counter = level + 1
  bound : level + 1 < 2 ^ 31
  names : txh.savepoints = savepointNames level
  mode : txh.txn.readOnly = readOnly
  settings : txh.txn.vars = vars
  aborted : txh.txn.aborted = failed
  current : failed = false → txh.txn.current = state
  kept : ∃ stale, txh.txn.savepoints = stale ++ outer ∧ ∀ p ∈ stale, ∃ j, level < j ∧ p.1 = savepointName j

namespace TxnHolder.Tracks
variable {txh : TxnHolder σ} {readOnly : Bool} {vars : SessionVars} {level : Nat} {state : σ} {failed : Bool}
  {outer : List (String × σ)} {refuses : Refusals}

theorem outer_suffix (h : txh.Tracks readOnly vars level state failed outer) : outer <:+ txh.txn.savepoints := by
  obtain ⟨stale, hstale, -⟩ := h.kept
  exact ⟨stale, hstale.symm⟩

/-- A failed command changes nothing but that the transaction is aborted. -/
theorem fail (h : txh.Tracks readOnly vars level state failed outer) (state' : σ) :
    ({ txh with txn := { txh.txn with aborted := true } } : TxnHolder σ).Tracks readOnly vars level state' true
      outer :=
  { h with aborted := rfl, current := nofun }

/-- The server answers a statement as the closure has it. -/
theorem answer_eq (h : txh.Tracks readOnly vars level state failed outer) (hfailed : failed = false)
    (s : Statement σ ρ) :
    s.answer txh.txn.readOnly txh.txn.vars txh.txn.current = s.answer readOnly vars state := by
  rw [h.mode, h.settings, h.current hfailed]

theorem execute (h : txh.Tracks readOnly vars level state failed outer) (s : Statement σ ρ) :
    (txh.txn.execute s).2 = (s.inside readOnly vars state failed).1 ∧
      ({ txh with txn := (txh.txn.execute s).1 } : TxnHolder σ).Tracks readOnly vars level
        (s.inside readOnly vars state failed).2.1 (s.inside readOnly vars state failed).2.2 outer := by
  unfold PgTransaction.execute Statement.inside
  rw [h.aborted]
  by_cases hfailed : failed = true
  · rw [if_pos hfailed, if_pos hfailed]
    exact ⟨rfl, h.fail state⟩
  · rw [if_neg hfailed, if_neg hfailed]
    have hfailed := Bool.eq_false_iff.2 hfailed
    rw [h.answer_eq hfailed]
    rcases s.answer readOnly vars state with e | ⟨state', rows⟩
    · exact ⟨rfl, h.fail state⟩
    · exact ⟨rfl, { h with aborted := hfailed, current := fun _ => rfl }⟩

/-- The savepoint of a nested closure, where the server grants it. -/
theorem savepoint_ok (h : txh.Tracks readOnly vars level state failed outer)
    (hrefuses : nestedRefusal refuses failed = none) :
    txh.txn.savepoint txh.inc.1 refuses =
      ({ txh.txn with savepoints := (savepointName (level + 1), state) :: txh.txn.savepoints }, .ok ()) := by
  obtain ⟨hsavepoint, hfailed⟩ := Option.or_eq_none_iff.1 hrefuses
  have hfailed : failed = false := by simpa using hfailed
  have hname : txh.inc.1 = savepointName (level + 1) := congrArg savepointName h.counter
  simp only [PgTransaction.savepoint, hsavepoint, h.aborted, hfailed, hname, h.current hfailed, Bool.false_eq_true,
    if_false]

/-- The closure that runs under it. -/
theorem nest (h : txh.Tracks readOnly vars level state failed outer) (hfailed : failed = false)
    (hdepth : level + 2 < 2 ^ 31) :
    let sp := (savepointName (level + 1), state)
    ({ txh.inc.2 with txn := { txh.txn with savepoints := sp :: txh.txn.savepoints } } : TxnHolder σ).Tracks
      readOnly vars (level + 1) state false (sp :: txh.txn.savepoints) := by
  intro sp
  refine ⟨?_, by omega, ?_, h.mode, h.settings, h.aborted.trans hfailed, fun _ => h.current hfailed, [], rfl,
    by simp⟩
  · change (txh.counter + 1).bmod (2 ^ 32) = _
    rw [h.counter, Int.bmod_eq_of_le_mul_two (by omega) (by omega)]
    rfl
  · change savepointName txh.counter :: txh.savepoints = savepointName ((level + 1 : Nat) : Int) :: _
    rw [h.counter, h.names]
    rfl

/-- Where it does not, the counter has gone up all the same. -/
theorem savepoint_error (h : txh.Tracks readOnly vars level state failed outer) {e : String}
    (hrefuses : nestedRefusal refuses failed = some e) :
    txh.txn.savepoint txh.inc.1 refuses = ({ txh.txn with aborted := true }, .error e) := by
  unfold nestedRefusal at hrefuses
  unfold PgTransaction.savepoint
  rcases hsavepoint : refuses .savepoint with _ | m
  · rw [hsavepoint, Option.none_or] at hrefuses
    split at hrefuses
    · next hfailed =>
      cases hrefuses
      simp only [h.aborted, hfailed, if_true]
      rfl
    · cases hrefuses
  · rw [hsavepoint, Option.some_or] at hrefuses
    cases hrefuses
    rfl

theorem inc_counter_ne (h : txh.Tracks readOnly vars level state failed outer) :
    txh.inc.2.counter ≠ level + 1 := by
  change (txh.counter + 1).bmod (2 ^ 32) ≠ _
  have hbound := h.bound
  rw [h.counter, Int.bmod]
  split <;> omega

theorem inc_counter_of_le (h : txh.Tracks readOnly vars level state failed outer) (hdepth : 2 ^ 31 ≤ level + 2) :
    txh.inc.2.counter ≠ level + 2 := by
  change (txh.counter + 1).bmod (2 ^ 32) ≠ _
  rw [h.counter, Int.bmod]
  split <;> omega

/-- The end of a nested closure takes the counter and the stack back. -/
theorem dec_eq (h : txh.Tracks readOnly vars (level + 1) state failed outer) :
    txh.dec = ((level : Int) + 1, some (savepointName (level + 1)),
      { txh with counter := level + 1, savepoints := savepointNames level }) := by
  have hcounter : (txh.counter - 1).bmod (2 ^ 32) = level + 1 := by
    have hbound := h.bound
    rw [h.counter, Int.bmod_eq_of_le_mul_two (by omega) (by omega)]
    omega
  unfold TxnHolder.dec
  rw [hcounter, h.names]
  rfl

variable {txh' : TxnHolder σ} {state' : σ} {failed' : Bool}

theorem parent_suffix (h : txh'.Tracks readOnly vars (level + 1) state' failed'
    ((savepointName (level + 1), state) :: txh.txn.savepoints)) : txh.txn.savepoints <:+ txh'.txn.savepoints :=
  (List.suffix_cons _ _).trans h.outer_suffix

/-- The savepoint that the closure began with is the latest of its name. -/
theorem find_eq (h : txh'.Tracks readOnly vars (level + 1) state' failed'
    ((savepointName (level + 1), state) :: txh.txn.savepoints)) :
    PgTransaction.findSavepoint (savepointName (level + 1)) txh'.txn.savepoints =
      some (state, txh.txn.savepoints) := by
  obtain ⟨stale, hstale, hlater⟩ := h.kept
  rw [hstale]
  refine PgTransaction.findSavepoint_append fun p hp heq => ?_
  obtain ⟨j, hj, hname⟩ := hlater p hp
  have hj' : j = level + 1 := savepointName_injective (hname.symm.trans heq)
  omega

/-- Back at the level of the parent, whatever part of the stack is left below its own savepoint. -/
theorem parent (h : txh.Tracks readOnly vars level state failed outer)
    (h' : txh'.Tracks readOnly vars (level + 1) state' failed'
      ((savepointName (level + 1), state) :: txh.txn.savepoints)) {txn : PgTransaction σ} {s : σ} {f : Bool}
    (hmode : txn.readOnly = txh'.txn.readOnly) (hsettings : txn.vars = txh'.txn.vars)
    (haborted : txn.aborted = f) (hcurrent : f = false → txn.current = s)
    (hsavepoints : txn.savepoints <:+ txh'.txn.savepoints) (hkeeps : txh.txn.savepoints <:+ txn.savepoints) :
    (⟨txn, level + 1, savepointNames level⟩ : TxnHolder σ).Tracks readOnly vars level s f outer := by
  refine ⟨rfl, h.bound, rfl, hmode.trans h'.mode, hsettings.trans h'.settings, haborted, hcurrent, ?_⟩
  obtain ⟨stale, hstale, hlater⟩ := h.kept
  obtain ⟨stale', hstale', hlater'⟩ := h'.kept
  obtain ⟨newer, hnewer⟩ := hkeeps
  obtain ⟨dropped, hdropped⟩ := hsavepoints
  refine ⟨newer ++ stale, by rw [← hnewer, hstale, List.append_assoc], fun p hp => ?_⟩
  rcases List.mem_append.1 hp with hp | hp
  · have hall : dropped ++ newer = stale' ++ [(savepointName (level + 1), state)] := by
      refine List.append_cancel_right (?_ : _ ++ txh.txn.savepoints = _ ++ txh.txn.savepoints)
      rw [List.append_assoc, hnewer, hdropped, hstale']
      simp
    have hmem : p ∈ stale' ++ [(savepointName (level + 1), state)] := hall ▸ List.mem_append_right _ hp
    rcases List.mem_append.1 hmem with hmem | hmem
    · obtain ⟨j, hj, hname⟩ := hlater' p hmem
      exact ⟨j, by omega, hname⟩
    · rw [List.mem_singleton.1 hmem]
      exact ⟨level + 1, by omega, rfl⟩
  · exact hlater p hp

variable (h : txh.Tracks readOnly vars level state failed outer)
  (h' : txh'.Tracks readOnly vars (level + 1) state' failed'
    ((savepointName (level + 1), state) :: txh.txn.savepoints))
include h h'

theorem rollbackTo (refuses : Refusals) :
    (⟨(txh'.txn.rollbackTo (savepointName (level + 1)) refuses).1, level + 1, savepointNames level⟩ :
      TxnHolder σ).Tracks readOnly vars level state (refuses .rollbackTo).isSome outer := by
  have hfind := h'.find_eq
  unfold PgTransaction.rollbackTo
  rcases refuses .rollbackTo with _ | m
  · rw [hfind]
    exact h.parent h' rfl rfl rfl (fun _ => rfl) h'.outer_suffix (List.suffix_cons _ _)
  · exact h.parent h' rfl rfl rfl nofun List.suffix_rfl h'.parent_suffix

theorem release_refused {m : String} (hrefuses : refuses .release = some m) :
    txh'.txn.release (savepointName (level + 1)) refuses = ({ txh'.txn with aborted := true }, .error m) ∧
      (⟨{ txh'.txn with aborted := true }, level + 1, savepointNames level⟩ : TxnHolder σ).Tracks readOnly vars
        level state true outer := by
  refine ⟨?_, h.parent h' rfl rfl rfl nofun List.suffix_rfl h'.parent_suffix⟩
  unfold PgTransaction.release
  rw [hrefuses]
  rfl

theorem release_ok (hrefuses : refuses .release = none) (hfailed : failed' = false) :
    txh'.txn.release (savepointName (level + 1)) refuses =
        ({ txh'.txn with savepoints := txh.txn.savepoints }, .ok ()) ∧
      (⟨{ txh'.txn with savepoints := txh.txn.savepoints }, level + 1, savepointNames level⟩ :
        TxnHolder σ).Tracks readOnly vars level state' false outer := by
  have hfind := h'.find_eq
  have haborted := h'.aborted.trans hfailed
  refine ⟨?_, h.parent h' rfl rfl haborted (fun _ => h'.current hfailed) h'.parent_suffix List.suffix_rfl⟩
  unfold PgTransaction.release
  simp only [hrefuses, haborted, hfind, Bool.false_eq_true, if_false]

omit h in
/-- The savepoint of an aborted closure is not released. -/
theorem release_aborted (hrefuses : refuses .release = none) (hfailed : failed' = true) :
    txh'.txn.release (savepointName (level + 1)) refuses =
      ({ txh'.txn with aborted := true }, .error abortedMessage) := by
  unfold PgTransaction.release
  simp only [hrefuses, h'.aborted, hfailed, if_true]
  rfl

end TxnHolder.Tracks

/-- A handle in transaction mode, and what its holder holds. -/
structure World.Holds (w : World σ) (mm : ModelManager C) (txh : TxnHolder σ) : Prop where
  txn : mm.dbx.txn = true
  holder : w.holders mm.dbx.txnHolder = some txh

namespace World.Holds
variable {w : World σ} {mm : ModelManager C} {txh : TxnHolder σ} {refuses : Refusals}

theorem put (h : w.Holds mm txh) (txh' : TxnHolder σ) : (w.put mm.dbx.txnHolder (some txh')).Holds mm txh' :=
  ⟨h.txn, Function.update_self ..⟩

theorem seen (h : w.Holds mm txh) :
    (w.seen mm : Event σ ρ τ) = .between txh.counter txh.savepoints w.db := by
  simp only [World.seen, h.txn, h.holder, if_true]

theorem fetch (h : w.Holds mm txh) (debugAssertions : Bool) (f : Fetch) (s : Statement σ ρ) :
    mm.dbx.fetch debugAssertions f s w =
      some (w.put mm.dbx.txnHolder (some { txh with txn := (txh.txn.execute s).1 }),
        f.result (txh.txn.execute s).2) := by
  simp only [DbxPostgres.fetch, DbxPostgres.route, h.txn, h.holder, if_true]

/-- Entering a closure from within another: the stack is pushed before the server is asked. -/
theorem enter (h : w.Holds mm txh) (readOnly : Bool) (refuses : Refusals) :
    mm.enter readOnly refuses w =
      (w.put mm.dbx.txnHolder (some { txh.inc.2 with txn := (txh.txn.savepoint txh.inc.1 refuses).1 }),
        match (txh.txn.savepoint txh.inc.1 refuses).2 with
        | .error e => .error (.dbxError (.ofSavepoint "create" txh.inc.1 e))
        | .ok () => .ok mm) := by
  have hget : mm.getTxnClone w = (mm, w) := by rw [ModelManager.getTxnClone, if_pos h.txn]
  have hinc : txh.inc.2.txn = txh.txn := rfl
  simp only [ModelManager.enter_eq, hget, DbxPostgres.beginTxnInner, h.txn, h.holder, Bool.not_true,
    Bool.false_eq_true, if_false, hinc]
  rcases txh.txn.savepoint txh.inc.1 refuses with ⟨txn, _ | _⟩ <;> rfl

variable {counter : Int} {name : String} {txh' : TxnHolder σ}

/-- Leaving a nested closure. -/
theorem commitTxn (h : w.Holds mm txh) (refuses : Refusals) (hdec : txh.dec = (counter, some name, txh'))
    (hcounter : counter ≠ 0) :
    mm.dbx.commitTxn refuses w =
      (w.put mm.dbx.txnHolder (some { txh' with txn := (txh'.txn.release name refuses).1 }),
        (txh'.txn.release name refuses).2.mapError (.ofSavepoint "release" name)) := by
  simp only [DbxPostgres.commitTxn, h.txn, h.holder, hdec, Bool.not_true, Bool.false_eq_true, if_false,
    if_neg hcounter]

theorem rollbackTxn (h : w.Holds mm txh) (refuses : Refusals) (hdec : txh.dec = (counter, some name, txh'))
    (hcounter : counter ≠ 0) :
    (mm.dbx.rollbackTxn refuses w).1 =
      w.put mm.dbx.txnHolder (some { txh' with txn := (txh'.txn.rollbackTo name refuses).1 }) := by
  simp only [DbxPostgres.rollbackTxn, h.holder, hdec, if_neg hcounter]

end World.Holds

end Fusions.Sql
