import Fusions.Library.Separated
import Fusions.Hetuflow.Core.Json

/-! Video generation: providers that take jobs, and routers that stand before them. A job is known by a text that a
router marks with the name of the provider that has it; since a router is a provider, routers stand before routers. -/
namespace Fusions.Ai
open Fusions.Library Fusions.Hetuflow

inductive VideoGenerationError where
  | http (error : String)
  | api (message : String)
  | serde (error : String)
  | other (message : String)
  deriving DecidableEq, Repr

structure VideoGenerationRequest where
  model : String
  prompt : String
  duration : Option Nat
  size : Option String
  provider : Option String
  options : Option Json

structure VideoGenerationResponse where
  ready : Bool
  videoUrl : Option String
  metadata : Option Json

/-- `VideoGenerationProvider`, over the states of the world that its calls read and change. -/
structure VideoGenerationProvider (ω : Type) where
  submit : VideoGenerationRequest → ω → Except VideoGenerationError String × ω
  checkStatus : String → ω → Except VideoGenerationError VideoGenerationResponse × ω

structure ProviderRouter (ω : Type) where
  providers : String → Option (VideoGenerationProvider ω)
  default : String

namespace ProviderRouter
variable {ω : Type}

def new (default : String) : ProviderRouter ω := ⟨fun _ => none, default⟩

def register (router : ProviderRouter ω) (name : String) (provider : VideoGenerationProvider ω) : ProviderRouter ω :=
  { router with providers := fun other => if other = name then some provider else router.providers other }

def selectProviderName (router : ProviderRouter ω) : Option String → Except VideoGenerationError String
  | some hint =>
    if (router.providers hint).isSome then .ok hint else .error (.other s!"provider hint '{hint}' not registered")
  | none =>
    if (router.providers router.default).isSome then .ok router.default
    else .error (.other s!"default provider '{router.default}' not registered")

def submit (router : ProviderRouter ω) (req : VideoGenerationRequest) (w : ω) :
    Except VideoGenerationError String × ω :=
  match router.selectProviderName req.provider with
  | .error e => (.error e, w)
  | .ok name =>
    match router.providers name with
    | none => (.error (.other s!"provider '{name}' not registered"), w)
    | some provider =>
      match provider.submit req w with
      | (.error e, w) => (.error e, w)
      | (.ok rawId, w) => (.ok s!"{name}:{rawId}", w)

def checkStatus (router : ProviderRouter ω) (requestId : String) (w : ω) :
    Except VideoGenerationError VideoGenerationResponse × ω :=
  match splitOnce ':' requestId.toList with
  | none => (.error (.other (s!"request_id '{requestId}' has no '<provider>:<id>' prefix — " ++
      "it must come from ProviderRouter::submit")), w)
  | some (name, rawId) =>
    match router.providers (.ofList name) with
    | none => (.error (.other s!"provider '{String.ofList name}' (from request_id prefix) not registered"), w)
    | some provider => provider.checkStatus (.ofList rawId) w

/-- A router as a provider. -/
def provider (router : ProviderRouter ω) : VideoGenerationProvider ω := ⟨router.submit, router.checkStatus⟩

end ProviderRouter

/-- The loop of `poll_until_ready`, after so many attempts. -/
def pollFrom {ω : Type} (provider : VideoGenerationProvider ω) (sleep : ω → ω) (requestId : String) (maxAttempts : Nat)
    (attempts : Nat) (w : ω) : Except VideoGenerationError VideoGenerationResponse × ω :=
  match provider.checkStatus requestId w with
  | (.error e, w) => (.error e, w)
  | (.ok status, w) =>
    if status.ready then (.ok status, w)
    else if maxAttempts ≤ attempts + 1 then (.error (.other s!"max attempts reached ({maxAttempts})"), w)
    else pollFrom provider sleep requestId maxAttempts (attempts + 1) (sleep w)
termination_by maxAttempts - attempts

def pollUntilReady {ω : Type} (provider : VideoGenerationProvider ω) (sleep : ω → ω) (requestId : String)
    (maxAttempts : Nat) : ω → Except VideoGenerationError VideoGenerationResponse × ω :=
  pollFrom provider sleep requestId maxAttempts 0

section
variable {ω : Type} {hint : Option String} {p leaf : VideoGenerationProvider ω} {names : List String}

/-- The way of a submission: the names that the routers before a provider select, the outermost first. -/
inductive Routes (hint : Option String) :
    VideoGenerationProvider ω → List String → VideoGenerationProvider ω → Prop where
  | here {p : VideoGenerationProvider ω} : Routes hint p [] p
  | through {router : ProviderRouter ω} {name : String} {p leaf : VideoGenerationProvider ω} {names : List String} :
      router.selectProviderName hint = .ok name → router.providers name = some p → Routes hint p names leaf →
      Routes hint router.provider (name :: names) leaf

/-- A job id of a provider with the marks of the routers before it. -/
def marked (names : List String) (rawId : String) : String := names.foldr (fun name id => s!"{name}:{id}") rawId

/-- An answer with which polling ends. -/
def Settled : Except VideoGenerationError VideoGenerationResponse → Prop
  | .error _ => True
  | .ok status => status.ready = true

/-- The world before a look at the status, if the looks before it have not settled anything. -/
def beforeLook (check : ω → Except VideoGenerationError VideoGenerationResponse × ω) (sleep : ω → ω) : Nat → ω → ω
  | 0, w => w
  | k + 1, w => beforeLook check sleep k (sleep (check w).2)

/-- The answer of a look, the first of which is look 0. -/
def look (check : ω → Except VideoGenerationError VideoGenerationResponse × ω) (sleep : ω → ω) (w : ω) (k : Nat) :
    Except VideoGenerationError VideoGenerationResponse × ω :=
  check (beforeLook check sleep k w)

private theorem toList_mark (name id : String) : s!"{name}:{id}".toList = name.toList ++ ':' :: id.toList := by
  show (name ++ ":" ++ id).toList = _
  simp [String.toList_append]

theorem ProviderRouter.checkStatus_mark {router : ProviderRouter ω} {name : String}
    (hname : router.providers name = some p) (hcolon : ':' ∉ name.toList) (rawId : String) (w : ω) :
    router.checkStatus s!"{name}:{rawId}" w = p.checkStatus rawId w := by
  rw [checkStatus, toList_mark, splitOnce_append hcolon]
  simp only [String.ofList_toList, hname]

theorem ProviderRouter.submit_of_selected {router : ProviderRouter ω} {name : String} {req : VideoGenerationRequest}
    (hselect : router.selectProviderName req.provider = .ok name) (hname : router.providers name = some p) {w w' : ω}
    {id : String} (h : router.submit req w = (.ok id, w')) :
    ∃ rawId, p.submit req w = (.ok rawId, w') ∧ id = s!"{name}:{rawId}" := by
  rw [submit, hselect] at h
  simp only [hname] at h
  split at h
  · cases h
  · next rawId _ hsubmit =>
    cases h
    exact ⟨rawId, hsubmit, rfl⟩

/-- A submission reaches the provider at the end of its way, whose job the routers mark. -/
theorem Routes.submit {req : VideoGenerationRequest} (h : Routes req.provider p names leaf) {w w' : ω} {id : String}
    (hsubmit : p.submit req w = (.ok id, w')) :
    ∃ rawId, leaf.submit req w = (.ok rawId, w') ∧ id = marked names rawId := by
  generalize hhint : req.provider = hint at h
  induction h generalizing id with
  | here => exact ⟨id, hsubmit, rfl⟩
  | through hselect hname _ ih =>
    obtain ⟨inner, hinner, rfl⟩ := ProviderRouter.submit_of_selected (hhint ▸ hselect) hname hsubmit
    obtain ⟨rawId, hraw, rfl⟩ := ih hinner
    exact ⟨rawId, hraw, rfl⟩

/-- A marked job id leads back to where its submission went. -/
theorem Routes.checkStatus (h : Routes hint p names leaf) (hnames : ∀ name ∈ names, ':' ∉ name.toList) (rawId : String)
    (w : ω) : p.checkStatus (marked names rawId) w = leaf.checkStatus rawId w := by
  induction h with
  | here => rfl
  | through _ hname _ ih =>
    obtain ⟨hcolon, hnames⟩ := List.forall_mem_cons.1 hnames
    exact (ProviderRouter.checkStatus_mark hname hcolon _ w).trans (ih hnames)

/-- Every router on the way of a submission with a hint knows the hint. -/
theorem Routes.hinted {name : String} (h : Routes (some name) p names leaf) : ∀ other ∈ names, other = name := by
  generalize hhint : some name = hint at h
  induction h with
  | here => simp
  | through hselect _ _ ih =>
    subst hhint
    refine List.forall_mem_cons.2 ⟨?_, ih⟩
    rw [ProviderRouter.selectProviderName] at hselect
    split at hselect
    · exact (Except.ok.inj hselect).symm
    · cases hselect

/-- Polling ends with the first look that settles the job, or after the last attempt. -/
private theorem pollFrom_eq (sleep : ω → ω) (requestId : String) (maxAttempts attempts : Nat) (w : ω) :
    ∃ k < max 1 (maxAttempts - attempts),
      (∀ j < k, ¬ Settled (look (p.checkStatus requestId) sleep w j).1) ∧
      ((Settled (look (p.checkStatus requestId) sleep w k).1 ∧
        pollFrom p sleep requestId maxAttempts attempts w = look (p.checkStatus requestId) sleep w k) ∨
      (¬ Settled (look (p.checkStatus requestId) sleep w k).1 ∧ k + 1 = max 1 (maxAttempts - attempts) ∧
        pollFrom p sleep requestId maxAttempts attempts w =
          (.error (.other s!"max attempts reached ({maxAttempts})"),
            (look (p.checkStatus requestId) sleep w k).2))) := by
  induction attempts, w using pollFrom.induct p sleep requestId maxAttempts with
  | case1 attempts w e w' hcheck =>
    refine ⟨0, by omega, by simp, .inl ⟨?_, ?_⟩⟩
    · rw [look, beforeLook, hcheck]
      trivial
    · rw [pollFrom, look, beforeLook, hcheck]
  | case2 attempts w status w' hcheck hready =>
    refine ⟨0, by omega, by simp, .inl ⟨?_, ?_⟩⟩
    · rw [look, beforeLook, hcheck]
      exact hready
    · rw [pollFrom, look, beforeLook, hcheck]
      exact if_pos hready
  | case3 attempts w status w' hcheck hready hmax =>
    refine ⟨0, by omega, by simp, .inr ⟨?_, by omega, ?_⟩⟩
    · rw [look, beforeLook, hcheck]
      exact hready
    · rw [pollFrom, look, beforeLook, hcheck]
      exact (if_neg hready).trans (if_pos hmax)
  | case4 attempts w status w' hcheck hready hmax ih =>
    obtain ⟨k, hk, hbefore, hend⟩ := ih
    have hnext : ∀ j, look (p.checkStatus requestId) sleep w (j + 1) =
        look (p.checkStatus requestId) sleep (sleep w') j := by
      intro j
      rw [look, beforeLook, hcheck, look]
    have hpoll : pollFrom p sleep requestId maxAttempts attempts w =
        pollFrom p sleep requestId maxAttempts (attempts + 1) (sleep w') := by
      rw [pollFrom, hcheck]
      exact (if_neg hready).trans (if_neg hmax)
    refine ⟨k + 1, by omega, fun j hj => ?_, ?_⟩
    · cases j with
      | zero =>
        rw [look, beforeLook, hcheck]
        exact hready
      | succ j =>
        rw [hnext]
        exact hbefore j (by omega)
    · rw [hnext, hpoll]
      refine hend.imp id fun hspent => ⟨hspent.1, ?_, hspent.2.2⟩
      have hlast := hspent.2.1
      omega

/-- However routers stand before each other, as long as the names that they select have no colon: a submitted job is one
of the provider at the end of the way, and polling it asks that provider, with its own job id, at most as often as
allowed, until the first answer that is an error or ready. A hint is the name at every router. -/
theorem job_stays_with_provider {req : VideoGenerationRequest} (h : Routes req.provider p names leaf)
    (hnames : ∀ name ∈ names, ':' ∉ name.toList) {w w' : ω} {id : String} (hsubmit : p.submit req w = (.ok id, w')) :
    (∀ hint ∈ req.provider, ∀ name ∈ names, name = hint) ∧
    ∃ rawId, leaf.submit req w = (.ok rawId, w') ∧ id = marked names rawId ∧
      ∀ (sleep : ω → ω) (maxAttempts : Nat) (v : ω), ∃ k < max 1 maxAttempts,
        (∀ j < k, ¬ Settled (look (leaf.checkStatus rawId) sleep v j).1) ∧
        ((Settled (look (leaf.checkStatus rawId) sleep v k).1 ∧
          pollUntilReady p sleep id maxAttempts v = look (leaf.checkStatus rawId) sleep v k) ∨
        (¬ Settled (look (leaf.checkStatus rawId) sleep v k).1 ∧ k + 1 = max 1 maxAttempts ∧
          pollUntilReady p sleep id maxAttempts v =
            (.error (.other s!"max attempts reached ({maxAttempts})"),
              (look (leaf.checkStatus rawId) sleep v k).2))) := by
  refine ⟨fun hint hhint => Routes.hinted (hhint ▸ h), ?_⟩
  obtain ⟨rawId, hraw, rfl⟩ := h.submit hsubmit
  refine ⟨rawId, hraw, rfl, fun sleep maxAttempts v => ?_⟩
  have hcheck : p.checkStatus (marked names rawId) = leaf.checkStatus rawId := funext (h.checkStatus hnames rawId)
  rw [← hcheck]
  exact pollFrom_eq sleep (marked names rawId) maxAttempts 0 v

end

/-- A provider whose one job is ready after two looks. -/
private def studio : VideoGenerationProvider Nat :=
  ⟨fun _ w => (.ok "job-1", w), fun _ w => (.ok ⟨decide (2 ≤ w), none, none⟩, w + 1)⟩

private def front : ProviderRouter Nat :=
  (ProviderRouter.new "primary").register "primary" ((ProviderRouter.new "openai").register "openai" studio).provider

private def clip : VideoGenerationRequest := ⟨"sora", "a harbour at dawn", some 5, none, none, none⟩

/-- A job behind two routers. -/
theorem job_stays_with_provider_nested : front.provider.submit clip 0 = (.ok "primary:openai:job-1", 0) ∧
    ∃ rawId, studio.submit clip 0 = (.ok rawId, 0) ∧ "primary:openai:job-1" = marked ["primary", "openai"] rawId ∧
      ∃ k < 5, ∀ j < k, ¬ Settled (look (studio.checkStatus rawId) id 0 j).1 := by
  have hroutes : Routes clip.provider front.provider ["primary", "openai"] studio :=
    .through rfl rfl (.through rfl rfl .here)
  have hsubmit : front.provider.submit clip 0 = (.ok "primary:openai:job-1", 0) := rfl
  obtain ⟨-, rawId, hraw, hid, hpolls⟩ := job_stays_with_provider hroutes (by decide) hsubmit
  obtain ⟨k, hk, hbefore, -⟩ := hpolls id 5 0
  exact ⟨hsubmit, rawId, hraw, hid, k, hk, hbefore⟩

end Fusions.Ai
