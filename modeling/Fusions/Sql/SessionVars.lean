import Fusions.Library.Runs
import Fusions.Sql.ModelManager

/-! The handles of a program on one database and the transactions they share: under which session variables
each statement runs. -/
namespace Fusions.Sql
open Fusions.Library
universe u v w
variable {σ : Type u} {ρ : Type v} {C : Type w}

/-- The session variables of the transaction that is open in a holder. -/
def World.settings (w : World σ) (holder : Nat) : Option SessionVars :=
  (w.holders holder).map fun txh => txh.txn.vars

namespace World
variable {w : World σ} {holder other : Nat} {vars : SessionVars} {txh txh' : TxnHolder σ}

theorem settings_put_some (hholder : w.holders holder = some txh) (hvars : txh'.txn.vars = txh.txn.vars) :
    (w.put holder (some txh')).settings = w.settings := by
  funext other
  by_cases hother : other = holder
  · rw [hother, settings, settings, hholder]
    simp only [put, Function.update_self, Option.map_some, hvars]
  · simp only [settings, put, Function.update_of_ne hother]

theorem settings_put_none (h : (w.put holder none).settings other = some vars) :
    w.settings other = some vars := by
  by_cases hother : other = holder
  · rw [hother] at h
    simp only [settings, put, Function.update_self, Option.map_none] at h
    cases h
  · simpa only [settings, put, Function.update_of_ne hother] using h

end World

namespace DbxPostgres
variable {dbx : DbxPostgres} {refuses : Refusals} {w w' : World σ} {holder : Nat} {vars : SessionVars}

theorem rollbackTxn_settings (h : (dbx.rollbackTxn refuses w).1.settings holder = some vars) :
    w.settings holder = some vars := by
  unfold rollbackTxn at h
  split at h
  · exact h
  · next txh htxh =>
    dsimp only at h
    split at h
    · exact World.settings_put_none h
    · split at h
      · rwa [World.settings_put_some htxh (PgTransaction.rollbackTo_vars ..)] at h
      · rw [← World.settings_put_some htxh (rfl : txh.dec.2.2.txn.vars = txh.txn.vars)]
        exact h

theorem commitTxn_settings (h : (dbx.commitTxn refuses w).1.settings holder = some vars) :
    w.settings holder = some vars := by
  unfold commitTxn at h
  split at h
  · exact h
  · split at h
    · exact h
    · next txh htxh =>
      dsimp only at h
      split at h
      · exact World.settings_put_none h
      · split at h
        · rwa [World.settings_put_some htxh (PgTransaction.release_vars ..)] at h
        · rw [← World.settings_put_some htxh (rfl : txh.dec.2.2.txn.vars = txh.txn.vars)]
          exact h

/-- The statement of a handle runs in a transaction that its holder has open. -/
theorem route_txn {debugAssertions : Bool} {txh : TxnHolder σ} (h : dbx.route debugAssertions w = .txn txh) :
    dbx.txn = true ∧ w.holders dbx.txnHolder = some txh := by
  have hfall : dbx.fallThrough debugAssertions ≠ .txn txh := by
    unfold fallThrough
    split <;> exact fun heq => nomatch heq
  unfold route at h
  split at h
  · next htxn =>
    split at h
    · next txh' htxh =>
      cases h
      exact ⟨htxn, htxh⟩
    · exact absurd h hfall
  · exact absurd h hfall

theorem fetch_settings {f : Fetch} {s : Statement σ ρ} {r : Except DbxError (Fetched ρ)}
    (h : dbx.fetch true f s w = some (w', r)) : w'.settings = w.settings := by
  unfold fetch at h
  split at h
  · next txh hroute =>
    cases h
    exact World.settings_put_some (route_txn hroute).2 (PgTransaction.execute_vars ..)
  · cases h
    rfl
  · cases h

/-- Beginning a transaction opens it with the variables of the handle, and in a transaction that is open it
changes none. -/
theorem beginTxnInner_settings {readOnly : Bool} {r : Except DbxError Unit}
    (h : dbx.beginTxnInner readOnly refuses w = (w', r)) :
    w'.settings = w.settings ∨
      r = .ok () ∧ w.holders dbx.txnHolder = none ∧ w'.settings dbx.txnHolder = some dbx.sessionVars ∧
        ∀ other, other ≠ dbx.txnHolder → w'.settings other = w.settings other := by
  unfold beginTxnInner at h
  split at h
  · cases h
    exact .inl rfl
  · split at h
    · next txh htxh =>
      have hvars := PgTransaction.savepoint_vars txh.inc.2.txn txh.inc.1 refuses
      dsimp only at h
      split at h
      · next heq =>
        cases h
        rw [heq] at hvars
        exact .inl (World.settings_put_some htxh hvars)
      · next heq =>
        cases h
        rw [heq] at hvars
        exact .inl (World.settings_put_some htxh hvars)
    · next hnone =>
      rw [opened_eq] at h
      rcases hrefuses : beginRefusal readOnly dbx.sessionVars refuses with _ | m
      · rw [hrefuses] at h
        cases h
        refine .inr ⟨rfl, hnone, ?_, fun other hother => ?_⟩
        · simp only [World.settings, World.put, Function.update_self, Option.map_some]
          rfl
        · simp only [World.settings, World.put, Function.update_of_ne hother]
      · rw [hrefuses] at h
        cases h
        exact .inl rfl

end DbxPostgres

namespace ModelManager
variable {mm mmTxn : ModelManager C} {refuses : Refusals} {w w' : World σ} {holder : Nat} {vars : SessionVars}

theorem leave_settings {r : Except SqlError Unit} (h : (mm.leave refuses r w).1.settings holder = some vars) :
    w.settings holder = some vars := by
  unfold leave at h
  split at h
  · next result =>
    have hcommit : (mm.dbx.commitTxn refuses w).1.settings holder = some vars → w.settings holder = some vars :=
      DbxPostgres.commitTxn_settings
    split at h
    · next heq =>
      rw [heq] at hcommit
      exact hcommit h
    · next heq =>
      rw [heq] at hcommit
      exact hcommit h
  · exact mm.dbx.rollbackTxn_settings h

theorem getTxnClone_vars (mm : ModelManager C) (w : World σ) :
    (mm.getTxnClone w).1.dbx.sessionVars = mm.dbx.sessionVars := by
  unfold getTxnClone
  split <;> rfl

theorem getTxnClone_settings (h : (mm.getTxnClone w).2.settings holder = some vars) :
    w.settings holder = some vars := by
  unfold getTxnClone at h
  split at h
  · exact h
  · exact World.settings_put_none h

/-- A call that enters its closure has opened a transaction with the variables of its manager, or it changes
no transaction that is open. -/
theorem enter_settings {readOnly : Bool} {r : Except SqlError (ModelManager C)}
    (h : mm.enter readOnly refuses w = (w', r)) :
    (∀ m, r = .ok m → m = (mm.getTxnClone w).1) ∧
      (w'.settings = (mm.getTxnClone w).2.settings ∨
        r = .ok (mm.getTxnClone w).1 ∧
          (mm.getTxnClone w).2.holders (mm.getTxnClone w).1.dbx.txnHolder = none ∧
          w'.settings (mm.getTxnClone w).1.dbx.txnHolder = some mm.dbx.sessionVars ∧
          ∀ other, other ≠ (mm.getTxnClone w).1.dbx.txnHolder →
            w'.settings other = (mm.getTxnClone w).2.settings other) := by
  have hvars := mm.getTxnClone_vars w
  rw [enter_eq] at h
  rcases hget : mm.getTxnClone w with ⟨mmTxn, w₁⟩
  rw [hget] at h hvars
  dsimp only at h hvars
  rcases hinner : mmTxn.dbx.beginTxnInner readOnly refuses w₁ with ⟨w₂, e | _⟩
  · rw [hinner] at h
    cases h
    refine ⟨nofun, ?_⟩
    rcases mmTxn.dbx.beginTxnInner_settings hinner with hsame | ⟨hok, -⟩
    · exact .inl hsame
    · cases hok
  · rw [hinner] at h
    cases h
    refine ⟨fun m hm => by cases hm; rfl, ?_⟩
    rcases mmTxn.dbx.beginTxnInner_settings hinner with hsame | ⟨-, hnone, hopened, hother⟩
    · exact .inl hsame
    · rw [hvars] at hopened
      exact .inr ⟨rfl, hnone, hopened, hother⟩

end ModelManager

/-- Where a statement ran. -/
inductive Ran where
  | inTransaction (vars : SessionVars)
  | onPool
  | rejected
  deriving DecidableEq

def Route.ran : Route σ → Ran
  | .txn txh => .inTransaction txh.txn.vars
  | .pool => .onPool
  | .rejected => .rejected

/-- A statement that was issued, by the session variables of its manager and by where it ran. -/
structure Issued where
  vars : SessionVars
  ran : Ran
  deriving DecidableEq

/-- It ran under the variables of its manager, or not at all. -/
def Issued.Isolated (i : Issued) : Prop := i.vars ≠ [] → i.ran = .rejected ∨ i.ran = .inTransaction i.vars

instance : DecidablePred Issued.Isolated := fun i =>
  inferInstanceAs (Decidable (i.vars ≠ [] → i.ran = .rejected ∨ i.ran = .inTransaction i.vars))

/-- A manager, and which of the contexts given so far it has its session variables from. -/
structure Held (C : Type w) where
  mm : ModelManager C
  origin : Nat

structure Managers (σ : Type u) (C : Type w) where
  world : World σ
  /-- The session variables of the contexts given so far; first those of a manager without one. -/
  contexts : List SessionVars
  held : List (Held C)
  /-- The transactions whose closures have not returned. -/
  calls : List (Held C)
  /-- The origins of the managers through which the transactions of the holders were begun. -/
  openers : Nat → Nat
  issued : List Issued

/-- Assertions are on. Managers and open calls are given by their places. -/
inductive Action (σ : Type u) (ρ : Type v) (C : Type w) where
  | newWithDbx (txn : Bool)
  | withCtx (i : Nat) (ctx : C)
  | clone (i : Nat)
  | txnCloned (i : Nat)
  | getTxnClone (i : Nat)
  | enter (i : Nat) (readOnly : Bool) (refuses : Refusals)
  | leave (k : Nat) (refuses : Refusals) (r : Except SqlError Unit)
  | fetch (i : Nat) (f : Fetch) (s : Statement σ ρ)

namespace Managers

def hold (s : Managers σ C) (world : World σ) (a : Held C) : Managers σ C :=
  { s with world, held := s.held ++ [a] }

/-- `with_ctx`; variables that differ are a context of their own. -/
def withCtx [ModelContext C] (s : Managers σ C) (a : Held C) (ctx : C) : Managers σ C :=
  let mm := a.mm.withCtx ctx
  if mm.dbx.sessionVars = a.mm.dbx.sessionVars then s.hold s.world ⟨mm, a.origin⟩
  else
    { s.hold s.world ⟨mm, s.contexts.length⟩ with contexts := s.contexts ++ [mm.dbx.sessionVars] }

/-- `transaction` and `read_transaction` up to the closure, which is given a clone of the handle. -/
def enter (s : Managers σ C) (a : Held C) (readOnly : Bool) (refuses : Refusals) : Managers σ C :=
  match a.mm.enter readOnly refuses s.world with
  | (world, .error _) => { s with world }
  | (world, .ok mmTxn) =>
    let begun := ((a.mm.getTxnClone s.world).2.holders mmTxn.dbx.txnHolder).isNone
    { s.hold world ⟨mmTxn, a.origin⟩ with
      calls := s.calls ++ [⟨mmTxn, a.origin⟩]
      openers := if begun then Function.update s.openers mmTxn.dbx.txnHolder a.origin else s.openers }

def fetch (s : Managers σ C) (a : Held C) (f : Fetch) (st : Statement σ ρ) : Managers σ C :=
  { s with
    world := (a.mm.dbx.fetch true f st s.world).elim s.world Prod.fst
    issued := s.issued ++ [⟨a.mm.dbx.sessionVars, (a.mm.dbx.route true s.world).ran⟩] }

def next [ModelContext C] (s : Managers σ C) : Action σ ρ C → Option (Managers σ C)
  | .newWithDbx txn =>
    let (dbx, world) := DbxPostgres.new txn s.world
    some (s.hold world ⟨.newWithDbx dbx, 0⟩)
  | .withCtx i ctx => s.held[i]?.map fun a => s.withCtx a ctx
  | .clone i => s.held[i]?.map fun a => s.hold s.world a
  | .txnCloned i => s.held[i]?.map fun a =>
    let (mm, world) := a.mm.txnCloned s.world
    s.hold world ⟨mm, a.origin⟩
  | .getTxnClone i => s.held[i]?.map fun a =>
    let (mm, world) := a.mm.getTxnClone s.world
    s.hold world ⟨mm, a.origin⟩
  | .enter i readOnly refuses => s.held[i]?.map fun a => s.enter a readOnly refuses
  | .leave k refuses r => s.calls[k]?.map fun a =>
    { s with world := (a.mm.leave refuses r s.world).1, calls := s.calls.eraseIdx k }
  | .fetch i f st => s.held[i]?.map fun a => s.fetch a f st

def system [ModelContext C] : System (Managers σ C) (Action σ ρ C) where
  init s := ∃ db, s = ⟨⟨db, fun _ => none, 0⟩, [[]], [], [], fun _ => 0, []⟩
  step s i s' := s.next i = some s'

/-- A statement through a manager in transaction mode that has variables comes while a transaction of its
holder is open, and this was begun through a manager with the same context. -/
def Accounted (s : Managers σ C) : Action σ ρ C → Prop
  | .fetch i _ _ => ∀ a ∈ s.held[i]?, a.mm.dbx.txn = true → a.mm.dbx.sessionVars ≠ [] →
      (s.world.holders a.mm.dbx.txnHolder).isSome ∧ s.openers a.mm.dbx.txnHolder = a.origin
  | _ => True

instance (s : Managers σ C) : ∀ i : Action σ ρ C, Decidable (s.Accounted i)
  | .fetch i _ _ => inferInstanceAs (Decidable (∀ a ∈ s.held[i]?, a.mm.dbx.txn = true →
      a.mm.dbx.sessionVars ≠ [] →
      (s.world.holders a.mm.dbx.txnHolder).isSome ∧ s.openers a.mm.dbx.txnHolder = a.origin))
  | .newWithDbx _ | .withCtx .. | .clone _ | .txnCloned _ | .getTxnClone _ | .enter .. | .leave .. => isTrue trivial

/-- Managers have the variables of their contexts, and open transactions those of the contexts they were begun
in. -/
structure Settled (s : Managers σ C) : Prop where
  none : s.contexts[0]? = some []
  held : ∀ a ∈ s.held ++ s.calls, s.contexts[a.origin]? = some a.mm.dbx.sessionVars
  opened : ∀ holder vars, s.world.settings holder = some vars → s.contexts[s.openers holder]? = some vars

variable {s s' : Managers σ C} {a : Held C}

namespace Settled

theorem of_mem_held (h : s.Settled) (ha : a ∈ s.held) : s.contexts[a.origin]? = some a.mm.dbx.sessionVars :=
  h.held a (List.mem_append_left _ ha)

/-- A further handle with the variables of its context. -/
theorem hold (h : s.Settled) {world : World σ}
    (hworld : ∀ holder vars, world.settings holder = some vars → s.world.settings holder = some vars)
    (ha : s.contexts[a.origin]? = some a.mm.dbx.sessionVars) : (s.hold world a).Settled := by
  refine ⟨h.none, fun b hb => ?_, fun holder vars hsettings => h.opened holder vars (hworld _ _ hsettings)⟩
  simp only [Managers.hold, List.append_assoc, List.mem_append, List.mem_singleton] at hb
  rcases hb with hb | rfl | hb
  · exact h.of_mem_held hb
  · exact ha
  · exact h.held b (List.mem_append_right _ hb)

theorem withCtx [ModelContext C] (h : s.Settled) (ha : a ∈ s.held) (ctx : C) : (s.withCtx a ctx).Settled := by
  unfold Managers.withCtx
  dsimp only
  split
  · next hsame =>
    refine h.hold (fun _ _ hsettings => hsettings) ?_
    rw [hsame]
    exact h.of_mem_held ha
  · have hkept {i : Nat} {vars : SessionVars} (hi : s.contexts[i]? = some vars) (more : List SessionVars) :
        (s.contexts ++ more)[i]? = some vars := by
      rw [List.getElem?_append_left (List.getElem?_eq_some_iff.1 hi).1, hi]
    refine ⟨hkept h.none _, fun b hb => ?_, fun holder vars hsettings => hkept (h.opened holder vars hsettings) _⟩
    simp only [Managers.hold, List.append_assoc, List.mem_append, List.mem_singleton] at hb
    rcases hb with hb | rfl | hb
    · exact hkept (h.of_mem_held hb) _
    · simp
    · exact hkept (h.held b (List.mem_append_right _ hb)) _

theorem enter (h : s.Settled) (ha : a ∈ s.held) (readOnly : Bool) (refuses : Refusals) :
    (s.enter a readOnly refuses).Settled := by
  have hvars := a.mm.getTxnClone_vars s.world
  have horigin := h.of_mem_held ha
  have hget {holder : Nat} {vars : SessionVars}
      (hsettings : (a.mm.getTxnClone s.world).2.settings holder = some vars) :
      s.world.settings holder = some vars :=
    ModelManager.getTxnClone_settings hsettings
  unfold Managers.enter
  rcases henter : a.mm.enter readOnly refuses s.world with ⟨world, e | mmTxn⟩
  · refine ⟨h.none, h.held, fun holder vars hsettings => ?_⟩
    obtain ⟨-, hsame | ⟨hok, -⟩⟩ := ModelManager.enter_settings henter
    · rw [hsame] at hsettings
      exact h.opened holder vars (hget hsettings)
    · cases hok
  · obtain ⟨hmm, hworld⟩ := ModelManager.enter_settings henter
    obtain rfl := hmm mmTxn rfl
    refine ⟨h.none, fun b hb => ?_, fun holder vars hsettings => ?_⟩
    · simp only [Managers.hold, List.mem_append, List.mem_singleton] at hb
      rcases hb with (hb | rfl) | hb | rfl
      · exact h.of_mem_held hb
      · exact horigin.trans (congrArg some hvars.symm)
      · exact h.held b (List.mem_append_right _ hb)
      · exact horigin.trans (congrArg some hvars.symm)
    · dsimp only
      rcases hworld with hsame | ⟨-, hnone, hopened, hother⟩
      · change world.settings holder = some vars at hsettings
        rw [hsame] at hsettings
        split
        · next hbegun =>
          have hne : holder ≠ (a.mm.getTxnClone s.world).1.dbx.txnHolder := by
            rintro rfl
            rw [World.settings, Option.isNone_iff_eq_none.1 hbegun] at hsettings
            cases hsettings
          rw [Function.update_of_ne hne]
          exact h.opened holder vars (hget hsettings)
        · exact h.opened holder vars (hget hsettings)
      · change world.settings holder = some vars at hsettings
        rw [hnone, if_pos Option.isNone_none]
        by_cases hholder : holder = (a.mm.getTxnClone s.world).1.dbx.txnHolder
        · rw [hholder, hopened] at hsettings
          rw [hholder, Function.update_self, ← hsettings]
          exact horigin
        · rw [hother holder hholder] at hsettings
          rw [Function.update_of_ne hholder]
          exact h.opened holder vars (hget hsettings)

theorem fetch (h : s.Settled) (f : Fetch) (st : Statement σ ρ) : (s.fetch a f st).Settled := by
  refine ⟨h.none, h.held, fun holder vars hsettings => h.opened holder vars ?_⟩
  unfold Managers.fetch at hsettings
  rcases hfetch : a.mm.dbx.fetch true f st s.world with _ | ⟨world, r⟩
  · rw [hfetch] at hsettings
    exact hsettings
  · rw [hfetch] at hsettings
    rw [← DbxPostgres.fetch_settings hfetch]
    exact hsettings

theorem next [ModelContext C] {i : Action σ ρ C} (h : s.Settled) (hnext : s.next i = some s') : s'.Settled := by
  cases i with
  | newWithDbx txn =>
    cases hnext
    exact h.hold (fun _ _ => World.settings_put_none) h.none
  | withCtx i ctx =>
    obtain ⟨a, ha, rfl⟩ := Option.map_eq_some_iff.1 hnext
    exact h.withCtx (List.mem_of_getElem? ha) ctx
  | clone i =>
    obtain ⟨a, ha, rfl⟩ := Option.map_eq_some_iff.1 hnext
    exact h.hold (fun _ _ hsettings => hsettings) (h.of_mem_held (List.mem_of_getElem? ha))
  | txnCloned i =>
    obtain ⟨a, ha, rfl⟩ := Option.map_eq_some_iff.1 hnext
    have horigin := h.of_mem_held (List.mem_of_getElem? ha)
    exact h.hold (fun _ _ => World.settings_put_none) horigin
  | getTxnClone i =>
    obtain ⟨a, ha, rfl⟩ := Option.map_eq_some_iff.1 hnext
    refine h.hold (fun _ _ => ModelManager.getTxnClone_settings) ?_
    exact (h.of_mem_held (List.mem_of_getElem? ha)).trans (congrArg some (a.mm.getTxnClone_vars s.world).symm)
  | enter i readOnly refuses =>
    obtain ⟨a, ha, rfl⟩ := Option.map_eq_some_iff.1 hnext
    exact h.enter (List.mem_of_getElem? ha) readOnly refuses
  | leave k refuses r =>
    obtain ⟨a, ha, rfl⟩ := Option.map_eq_some_iff.1 hnext
    refine ⟨h.none, fun b hb => h.held b ?_, fun holder vars hsettings =>
      h.opened holder vars (ModelManager.leave_settings hsettings)⟩
    rcases List.mem_append.1 hb with hb | hb
    · exact List.mem_append_left _ hb
    · exact List.mem_append_right _ (List.mem_of_mem_eraseIdx hb)
  | fetch i f st =>
    obtain ⟨a, ha, rfl⟩ := Option.map_eq_some_iff.1 hnext
    exact h.fetch f st

/-- A statement that is accounted for runs under the variables of its manager. -/
theorem isolated (h : s.Settled) (ha : a ∈ s.held) (haccounted : a.mm.dbx.txn = true → a.mm.dbx.sessionVars ≠ [] →
    (s.world.holders a.mm.dbx.txnHolder).isSome ∧ s.openers a.mm.dbx.txnHolder = a.origin) :
    (⟨a.mm.dbx.sessionVars, (a.mm.dbx.route true s.world).ran⟩ : Issued).Isolated := by
  intro hvars
  unfold DbxPostgres.route
  split
  · next htxn =>
    obtain ⟨hopen, hopener⟩ := haccounted htxn hvars
    obtain ⟨txh, htxh⟩ := Option.isSome_iff_exists.1 hopen
    have hsettings := h.opened a.mm.dbx.txnHolder txh.txn.vars (by rw [World.settings, htxh]; rfl)
    rw [hopener, h.of_mem_held ha] at hsettings
    rw [htxh]
    exact .inr (congrArg Ran.inTransaction (Option.some.inj hsettings).symm)
  · next htxn =>
    have hrejected : (true && !a.mm.dbx.noOrphanSessionVars) = true := by
      simp only [DbxPostgres.noOrphanSessionVars, htxn, Bool.false_or, Bool.true_and]
      simpa using hvars
    rw [DbxPostgres.fallThrough, if_pos hrejected]
    exact .inl rfl

end Settled

/-- Statements are issued by the calls that run queries. -/
theorem next_issued [ModelContext C] {i : Action σ ρ C} (hnext : s.next i = some s') :
    s'.issued = s.issued ∨ ∃ j f st, i = .fetch j f st ∧ ∃ a ∈ s.held[j]?,
      s'.issued = s.issued ++ [⟨a.mm.dbx.sessionVars, (a.mm.dbx.route true s.world).ran⟩] := by
  cases i with
  | newWithDbx txn =>
    cases hnext
    exact .inl rfl
  | withCtx i ctx =>
    obtain ⟨a, -, rfl⟩ := Option.map_eq_some_iff.1 hnext
    unfold withCtx
    dsimp only
    split <;> exact .inl rfl
  | clone i | txnCloned i | getTxnClone i | leave k refuses r =>
    obtain ⟨a, -, rfl⟩ := Option.map_eq_some_iff.1 hnext
    exact .inl rfl
  | enter i readOnly refuses =>
    obtain ⟨a, -, rfl⟩ := Option.map_eq_some_iff.1 hnext
    unfold enter
    split <;> exact .inl rfl
  | fetch i f st =>
    obtain ⟨a, ha, rfl⟩ := Option.map_eq_some_iff.1 hnext
    exact .inr ⟨i, f, st, rfl, a, ha, rfl⟩

theorem settled_of_reachable [ModelContext C] {ok : Managers σ C → Action σ ρ C → Prop}
    (h : system.ReachableIf ok s) : s.Settled := by
  refine h.invariant (fun s hinit => ?_) fun _ _ _ _ hsettled hstep _ => hsettled.next hstep
  obtain ⟨db, rfl⟩ := hinit
  exact ⟨rfl, nofun, nofun⟩

/-- Where every statement is accounted for, it runs in a transaction with the variables of its manager or is
rejected. -/
theorem isolated_of_accounted [ModelContext C]
    (h : (system : System (Managers σ C) (Action σ ρ C)).ReachableIf Accounted s) :
    ∀ e ∈ s.issued, e.Isolated := by
  refine h.invariant (P := fun s => ∀ e ∈ s.issued, e.Isolated) (fun s hinit => ?_)
    fun s i s' hs ih hstep haccounted e he => ?_
  · obtain ⟨db, rfl⟩ := hinit
    intro e he
    cases he
  · rcases next_issued hstep with hsame | ⟨j, f, st, rfl, a, ha, happend⟩
    · exact ih e (hsame ▸ he)
    · rw [happend] at he
      rcases List.mem_append.1 he with he | he
      · exact ih e he
      · rw [List.mem_singleton.1 he]
        exact (settled_of_reachable hs).isolated (List.mem_of_getElem? ha) (haccounted a ha)

end Managers

/-- A context with one tenant. -/
structure Tenant where
  id : String

instance : ModelContext Tenant where
  dbSessionVars ctx := [("app.tenant_id", ctx.id)]

namespace Managers

/-- All rows of a table. -/
def reads : Statement Nat Unit := ⟨false, fun _ db => .ok (db, ⟨List.replicate db (), 0⟩)⟩

def grants : Refusals := fun _ => none

/-- A manager with a context, and a transaction through it. -/
def opening : List (Action Nat Unit Tenant) :=
  [.newWithDbx false, .withCtx 0 ⟨"a"⟩, .enter 1 true grants]

def unused : Managers Nat Tenant := ⟨⟨0, fun _ => none, 0⟩, [[]], [], [], fun _ => 0, []⟩

theorem isolated_of_accounted_enclosed : ∃ s : Managers Nat Tenant,
    s.issued = [⟨[("app.tenant_id", "a")], .inTransaction [("app.tenant_id", "a")]⟩] ∧
      ∀ e ∈ s.issued, e.Isolated := by
  have hplay : (System.play next Accounted unused (opening ++ [.fetch 2 .all reads])).any
      (fun s => s.issued = [⟨[("app.tenant_id", "a")], .inTransaction [("app.tenant_id", "a")]⟩]) = true := by
    decide +kernel
  obtain ⟨s, hrun, hend⟩ := (Option.any_eq_true _ _).1 hplay
  have hs := System.ReachableIf.play (S := system) (fun _ _ _ h => h) (.init ⟨0, rfl⟩) hrun
  exact ⟨s, of_decide_eq_true hend, isolated_of_accounted hs⟩

/-- A handle that is kept after its transaction reads on the pool, and one that is given another context in its
transaction reads under the old one. -/
theorem kept_handle_escapes :
    (∃ s : Managers Nat Tenant, (system : System (Managers Nat Tenant) (Action Nat Unit Tenant)).Reachable s ∧
      ⟨[("app.tenant_id", "a")], .onPool⟩ ∈ s.issued ∧ ∃ e ∈ s.issued, ¬e.Isolated) ∧
    ∃ s : Managers Nat Tenant, (system : System (Managers Nat Tenant) (Action Nat Unit Tenant)).Reachable s ∧
      ⟨[("app.tenant_id", "b")], .inTransaction [("app.tenant_id", "a")]⟩ ∈ s.issued ∧
        ∃ e ∈ s.issued, ¬e.Isolated := by
  have hkept : (System.play next (fun _ _ => True) unused
      (opening ++ [.leave 0 grants (.ok ()), .fetch 2 .all reads])).any
        (fun s => ⟨[("app.tenant_id", "a")], .onPool⟩ ∈ s.issued) = true := by decide +kernel
  have hstale : (System.play next (fun _ _ => True) unused
      (opening ++ [.withCtx 2 ⟨"b"⟩, .fetch 3 .all reads])).any
        (fun s => ⟨[("app.tenant_id", "b")], .inTransaction [("app.tenant_id", "a")]⟩ ∈ s.issued) = true := by
    decide +kernel
  obtain ⟨s, hrun, hend⟩ := (Option.any_eq_true _ _).1 hkept
  obtain ⟨s', hrun', hend'⟩ := (Option.any_eq_true _ _).1 hstale
  exact ⟨⟨s, .play (fun _ _ _ h => h) (.init ⟨0, rfl⟩) hrun, of_decide_eq_true hend, _, of_decide_eq_true hend,
      by decide⟩,
    s', .play (fun _ _ _ h => h) (.init ⟨0, rfl⟩) hrun', of_decide_eq_true hend', _, of_decide_eq_true hend',
    by decide⟩

end Managers

end Fusions.Sql
