import Mathlib.Logic.Function.Basic
import Fusions.Library.Runs
import Fusions.Library.Calls

/-! The component registry of an application: registrations, and lookups beside them. A type goes by its full
name. -/
namespace Fusions.Core
open Fusions.Library

section
variable (α : Type)

inductive ComponentError where
  | componentNotFound (name : String)
  | componentTypeMismatch (name : String)
  | alreadyRegistered (name : String)
  deriving DecidableEq, Repr

/-- A shared component: its type, the call that allocated it, and the value. -/
structure DynComponentArc where
  type : String
  place : Nat
  value : α
  deriving DecidableEq

inductive ComponentCall where
  | tryAddComponent (type : String) (component : α)
  | tryComponentArc (type : String)
  deriving DecidableEq

inductive ComponentReply where
  | added (result : Except ComponentError Unit)
  | found (result : Except ComponentError (DynComponentArc α))

inductive ComponentPhase where
  | begun
  /-- `contains_key` has said no. -/
  | checked
  | returned (reply : ComponentReply α)

structure Components where
  /-- The map, by the full names of the types. -/
  components : String → Option (DynComponentArc α)
  calls : List (ComponentCall α × ComponentPhase α)

/-- Calls begin, and each map operation of a call is one step. -/
inductive ComponentStep where
  | begins (call : ComponentCall α)
  | checks (place : Nat)
  | inserts (place : Nat)
  | gets (place : Nat)

end

variable {α : Type}

def DynComponentArc.downcast (type : String) (arc : DynComponentArc α) : Except ComponentError (DynComponentArc α) :=
  if arc.type = type then .ok arc else .error (.componentTypeMismatch type)

namespace Components
variable (s : Components α)

def returns (place : Nat) (call : ComponentCall α) (reply : ComponentReply α) : Components α :=
  { s with calls := s.calls.set place (call, .returned reply) }

def next : ComponentStep α → Option (Components α)
  | .begins call => some { s with calls := s.calls ++ [(call, .begun)] }
  | .checks place =>
    match s.calls[place]? with
    | some (.tryAddComponent type component, .begun) =>
      if (s.components type).isSome then
        some (s.returns place (.tryAddComponent type component) (.added (.error (.alreadyRegistered type))))
      else some { s with calls := s.calls.set place (.tryAddComponent type component, .checked) }
    | _ => none
  | .inserts place =>
    match s.calls[place]? with
    | some (.tryAddComponent type component, .checked) =>
      some {
        components := Function.update s.components type (some ⟨type, place, component⟩)
        calls := s.calls.set place (.tryAddComponent type component, .returned (.added (.ok ()))) }
    | _ => none
  | .gets place =>
    match s.calls[place]? with
    | some (.tryComponentArc type, .begun) =>
      match s.components type with
      | none => some (s.returns place (.tryComponentArc type) (.found (.error (.componentNotFound type))))
      | some arc => some (s.returns place (.tryComponentArc type) (.found (arc.downcast type)))
    | _ => none

/-- An application with the components that its builder has registered. -/
def system (built : String → Option (DynComponentArc α)) : System (Components α) (ComponentStep α) where
  init s := s = ⟨built, []⟩
  step s i s' := s.next i = some s'

/-- No component is inserted over another: between the check of a registration and its insert, none of its type is
registered. -/
def Undisturbed : ComponentStep α → Prop
  | .inserts place => ∀ type component, s.calls[place]? = some (.tryAddComponent type component, .checked) →
    s.components type = none
  | _ => True

/-- The registration with this place returned Ok. -/
def Registered (type : String) (place : Nat) (component : α) : Prop :=
  s.calls[place]? = some (.tryAddComponent type component, .returned (.added (.ok ())))

/-- The component of a type, and what the calls for it have returned. -/
structure Inv (type : String) : Prop where
  stored : ∀ arc, s.components type = some arc → arc.type = type ∧ s.Registered type arc.place arc.value
  added : ∀ place component reply, s.calls[place]? = some (.tryAddComponent type component, .returned reply) →
    ∃ arc, s.components type = some arc ∧
      ((reply = .added (.ok ()) ∧ arc.place = place) ∨ reply = .added (.error (.alreadyRegistered type)))
  found : ∀ (place : Nat) (arc : DynComponentArc α), s.calls[place]? = some (.tryComponentArc type, .returned (.found (.ok arc))) →
    s.components type = some arc

variable {s s' : Components α} {type : String} {step : ComponentStep α} {built : String → Option (DynComponentArc α)}

/-- A step that leaves the component of a type, and returns to a call for it what fits. -/
private theorem Inv.moved {place : Nat} {call : ComponentCall α} {phase phase' : ComponentPhase α} (w : s.Inv type)
    (hat : s.calls[place]? = some (call, phase)) (hopen : ∀ reply, phase ≠ .returned reply)
    (hcalls : s'.calls = s.calls.set place (call, phase')) (hsame : s'.components type = s.components type)
    (hadded : ∀ component reply, call = .tryAddComponent type component → phase' = .returned reply →
      ∃ arc, s.components type = some arc ∧ reply = .added (.error (.alreadyRegistered type)))
    (hfound : ∀ arc, call = .tryComponentArc type → phase' = .returned (.found (.ok arc)) →
      s.components type = some arc) : s'.Inv type := by
  refine ⟨fun arc harc => ?_, fun i component reply hat' => ?_, fun i arc hat' => ?_⟩
  · rw [hsame] at harc
    obtain ⟨htype, hregistered⟩ := w.stored arc harc
    refine ⟨htype, ?_⟩
    have hne : arc.place ≠ place := by
      rintro heq
      rw [Registered, heq, hat] at hregistered
      cases hregistered
      exact hopen _ rfl
    rw [Registered, hcalls, moved_of_ne hat _ hne]
    exact hregistered
  · rw [hcalls] at hat'
    rw [hsame]
    rcases eq_or_of_moved hat hat' with ⟨rfl, hsame'⟩ | ⟨-, hold⟩
    · obtain ⟨rfl, rfl⟩ := Prod.mk.inj hsame'
      obtain ⟨arc, harc, hreply⟩ := hadded component reply rfl rfl
      exact ⟨arc, harc, .inr hreply⟩
    · exact w.added i component reply hold
  · rw [hcalls] at hat'
    rw [hsame]
    rcases eq_or_of_moved hat hat' with ⟨rfl, hsame'⟩ | ⟨-, hold⟩
    · obtain ⟨rfl, rfl⟩ := Prod.mk.inj hsame'
      exact hfound arc rfl rfl
    · exact w.found i arc hold

/-- A component is put where there was none, so that nobody has returned one before. -/
private theorem Inv.inserted {place : Nat} {component : α} (w : s.Inv type)
    (hat : s.calls[place]? = some (.tryAddComponent type component, .checked)) (hnone : s.components type = none) :
    Inv ⟨Function.update s.components type (some ⟨type, place, component⟩),
      s.calls.set place (.tryAddComponent type component, .returned (.added (.ok ())))⟩ type := by
  have hempty : ∀ {arc : DynComponentArc α}, s.components type ≠ some arc := by
    intro arc harc
    rw [hnone] at harc
    cases harc
  refine ⟨fun arc harc => ?_, fun i component' reply hat' => ?_, fun i arc hat' => ?_⟩
  · dsimp only at harc
    rw [Function.update_self] at harc
    cases harc
    exact ⟨rfl, moved_self hat _⟩
  · refine ⟨_, Function.update_self .., ?_⟩
    rcases eq_or_of_moved hat hat' with ⟨rfl, hsame⟩ | ⟨-, hold⟩
    · cases hsame
      exact .inl ⟨rfl, rfl⟩
    · obtain ⟨arc, harc, -⟩ := w.added i component' reply hold
      exact absurd harc hempty
  · rcases eq_or_of_moved hat hat' with ⟨-, hsame⟩ | ⟨-, hold⟩
    · cases hsame
    · exact absurd (w.found i arc hold) hempty

private theorem Inv.next (w : s.Inv type) (h : s.next step = some s') (hundisturbed : s.Undisturbed step) :
    s'.Inv type ∧ ∀ arc, s.components type = some arc → s'.components type = some arc := by
  unfold Components.next at h
  cases step with
  | begins call =>
    cases h
    refine ⟨⟨fun arc harc => ?_, fun place component reply hat => ?_, fun place arc hat => ?_⟩, fun _ harc => harc⟩
    · obtain ⟨htype, hregistered⟩ := w.stored arc harc
      exact ⟨htype, begun_of_getElem? hregistered _⟩
    · rcases eq_or_of_begun hat with ⟨-, hsame⟩ | hold
      · cases hsame
      · exact w.added place component reply hold
    · rcases eq_or_of_begun hat with ⟨-, hsame⟩ | hold
      · cases hsame
      · exact w.found place arc hold
  | checks place =>
    dsimp only at h
    split at h
    · next type' component hat =>
      split at h
      · next hsome =>
        cases h
        refine ⟨w.moved hat nofun rfl rfl ?_ nofun, fun _ harc => harc⟩
        rintro _ _ ⟨⟩ ⟨⟩
        obtain ⟨arc, harc⟩ := Option.isSome_iff_exists.1 hsome
        exact ⟨arc, harc, rfl⟩
      · cases h
        exact ⟨w.moved hat nofun rfl rfl nofun nofun, fun _ harc => harc⟩
    · cases h
  | inserts place =>
    dsimp only at h
    split at h
    · next type' component hat =>
      have hnone := hundisturbed type' component hat
      cases h
      by_cases htype : type' = type
      · subst htype
        refine ⟨w.inserted hat hnone, fun arc harc => ?_⟩
        rw [hnone] at harc
        cases harc
      · have hother : Function.update s.components type' (some ⟨type', place, component⟩) type = s.components type :=
          Function.update_of_ne (Ne.symm htype) _ _
        refine ⟨w.moved hat nofun rfl hother ?_ nofun, fun arc harc => hother.trans harc⟩
        rintro _ _ ⟨⟩
        exact absurd rfl htype
    · cases h
  | gets place =>
    dsimp only at h
    split at h
    · next type' hat =>
      split at h
      · cases h
        exact ⟨w.moved hat nofun rfl rfl nofun nofun, fun _ harc => harc⟩
      · next arc harc =>
        cases h
        refine ⟨w.moved hat nofun rfl rfl nofun ?_, fun _ harc => harc⟩
        rintro found ⟨⟩ hfound
        obtain ⟨htype, -⟩ := w.stored arc harc
        rw [DynComponentArc.downcast, if_pos htype] at hfound
        cases hfound
        exact harc
    · cases h

theorem inv_of_reachable (hbuilt : built type = none) (h : (system built).ReachableIf Undisturbed s) : s.Inv type := by
  refine h.invariant (P := fun s => s.Inv type) ?_ fun s step s' _ w hstep hundisturbed =>
    (w.next hstep hundisturbed).1
  rintro s rfl
  exact ⟨fun arc harc => by simp [hbuilt] at harc, by simp, by simp⟩

/-- In every run in which no registration is disturbed between its check and its insert, over a type that the builder
has not registered: once a registration has returned, one has returned Ok, and the others have returned that the
type is registered; each component found is that of this registration; and no step touches it. -/
theorem first_registration_wins (hbuilt : built type = none) (h : (system built).ReachableIf Undisturbed s) :
    (∀ place component reply, s.calls[place]? = some (.tryAddComponent type component, .returned reply) →
      ∃ first value, s.Registered type first value ∧ s.components type = some ⟨type, first, value⟩ ∧
        (∀ i c, s.Registered type i c → i = first) ∧
        (place ≠ first → reply = .added (.error (.alreadyRegistered type)))) ∧
    (∀ (place : Nat) (arc : DynComponentArc α),
      s.calls[place]? = some (.tryComponentArc type, .returned (.found (.ok arc))) →
      s.components type = some arc ∧ s.Registered type arc.place arc.value) ∧
    ∀ step s', s.next step = some s' → s.Undisturbed step → ∀ arc, s.components type = some arc →
      s'.components type = some arc := by
  have w := inv_of_reachable hbuilt h
  refine ⟨fun place component reply hat => ?_, fun place arc hat => ?_,
    fun step s' hnext hundisturbed => (w.next hnext hundisturbed).2⟩
  · obtain ⟨arc, harc, hreply⟩ := w.added place component reply hat
    obtain ⟨htype, hregistered⟩ := w.stored arc harc
    refine ⟨arc.place, arc.value, hregistered, by rw [harc, ← htype], fun i c hi => ?_, fun hne => ?_⟩
    · obtain ⟨arc', harc', hreply'⟩ := w.added i c _ hi
      cases harc.symm.trans harc'
      rcases hreply' with ⟨-, hplace⟩ | hcontra
      · exact hplace.symm
      · cases hcontra
    · exact hreply.resolve_left fun hok => hne hok.2.symm
  · have harc := w.found place arc hat
    exact ⟨harc, (w.stored arc harc).2⟩

/-- A registration is done before the next one checks. -/
theorem first_registration_wins_twice :
    ∃ s : Components Nat, (system fun _ => none).ReachableIf Undisturbed s ∧
      ∃ first value, s.Registered "Pool" first value ∧ s.components "Pool" = some ⟨"Pool", first, value⟩ := by
  let s₁ : Components Nat := ⟨fun _ => none, [(.tryAddComponent "Pool" 7, .begun)]⟩
  let s₂ : Components Nat := ⟨fun _ => none, [(.tryAddComponent "Pool" 7, .checked)]⟩
  let s₃ : Components Nat := ⟨Function.update (fun _ => none) "Pool" (some ⟨"Pool", 0, 7⟩),
    [(.tryAddComponent "Pool" 7, .returned (.added (.ok ())))]⟩
  have h₁ : (system fun _ => none).ReachableIf Undisturbed s₁ :=
    .step (i := .begins (.tryAddComponent "Pool" 7)) (.init rfl) rfl trivial
  have h₂ : (system fun _ => none).ReachableIf Undisturbed s₂ := h₁.step (i := .checks 0) rfl trivial
  have h₃ : (system fun _ => none).ReachableIf Undisturbed s₃ := h₂.step (i := .inserts 0) rfl fun _ _ _ => rfl
  obtain ⟨first, value, hregistered, hstored, -⟩ := 
    (@first_registration_wins Nat s₃ "Pool" (fun _ => none) rfl h₃).1 0 7 _ rfl
  exact ⟨s₃, h₃, first, value, hregistered, hstored⟩

/-- Two registrations that both check first both return Ok, and the second replaces what was found in between. -/
theorem both_registrations_succeed :
    ∃ s : Components Nat, (system fun _ => none).Reachable s ∧ s.Registered "Pool" 0 7 ∧ s.Registered "Pool" 1 8 ∧
      s.calls[2]? = some (.tryComponentArc "Pool", .returned (.found (.ok ⟨"Pool", 0, 7⟩))) ∧
      s.components "Pool" = some ⟨"Pool", 1, 8⟩ := by
  let first : Option (DynComponentArc Nat) := some ⟨"Pool", 0, 7⟩
  let second : Option (DynComponentArc Nat) := some ⟨"Pool", 1, 8⟩
  have hplay : System.play next (fun _ _ => True) ⟨fun _ => none, []⟩ [.begins (.tryAddComponent "Pool" 7),
      .begins (.tryAddComponent "Pool" 8), .begins (.tryComponentArc "Pool"), .checks 0, .checks 1, .inserts 0, .gets 2,
      .inserts 1] =
    some ⟨Function.update (Function.update (fun _ => none) "Pool" first) "Pool" second,
      [(.tryAddComponent "Pool" 7, .returned (.added (.ok ()))), (.tryAddComponent "Pool" 8, .returned (.added (.ok ()))),
        (.tryComponentArc "Pool", .returned (.found (.ok ⟨"Pool", 0, 7⟩)))]⟩ := rfl
  exact ⟨_, System.ReachableIf.play (fun _ _ _ hnext => hnext) (.init rfl) hplay, rfl, rfl, rfl, rfl⟩

end Components

end Fusions.Core
