import Fusions.Library.Runs
import Fusions.Library.Calls

/-! The configuration registry: a config and the setting derived from it, under a lock each, and the calls that
change both. -/
namespace Fusions.Core
open Fusions.Library

section
variable (Config Setting Source Error : Type)

/-- A source of a config builder: another config, or what a caller adds. -/
inductive ConfigSource where
  | config (config : Config)
  | source (source : Source)

/-- The config crate, and `FusionSetting::try_from`. -/
structure Configuration where
  /-- `Config::builder()` with these sources, of which later ones override, and `build`. -/
  build : List (ConfigSource Config Source) → Except Error Config
  tryFrom : Config → Except Error Setting

inductive RegistryCall where
  | reload
  | addConfigSource (source : Source) (overrideExisting : Bool)

inductive RegistryPhase where
  | begun
  /-- `reload` has its values, and neither is written. -/
  | loaded (config : Config) (setting : Setting)
  /-- The config is written, and its lock is free again. -/
  | wroteConfig (setting : Setting)
  | returned (result : Except Error Unit)

/-- What was done to the config. -/
inductive ConfigChange where
  | reload (config : Config)
  | addConfigSource (source : Source) (overrideExisting : Bool)

structure FusionConfigRegistry where
  config : Config
  fusionSetting : Setting
  calls : List (RegistryCall Source × RegistryPhase Config Setting Error)
  /-- The writes of the config, each with the place of its call. -/
  changes : List (Nat × ConfigChange Config Source)
  /-- The writes of the setting, each with the place of its call. -/
  published : List (Nat × Setting)

inductive RegistryStep where
  | begins (call : RegistryCall Source)
  /-- `load_config` of a reload comes back. -/
  | loads (place : Nat) (outcome : Except Error Config)
  | writesConfig (place : Nat)
  | writesSetting (place : Nat)

end

variable {Config Setting Source Error : Type}

/-- The config that a source is added to, behind it or before it. -/
def Configuration.addSource (crate : Configuration Config Setting Source Error) (c : Config) (source : Source)
    (overrideExisting : Bool) : Except Error Config :=
  crate.build (if overrideExisting then [.config c, .source source] else [.source source, .config c])

def Configuration.apply (crate : Configuration Config Setting Source Error) (c : Config) :
    ConfigChange Config Source → Except Error Config
  | .reload config => .ok config
  | .addConfigSource source overrideExisting => crate.addSource c source overrideExisting

namespace FusionConfigRegistry
variable (crate : Configuration Config Setting Source Error) (s : FusionConfigRegistry Config Setting Source Error)

/-- A call with this place returns. -/
def returns (place : Nat) (call : RegistryCall Source) (result : Except Error Unit) :
    FusionConfigRegistry Config Setting Source Error :=
  { s with calls := s.calls.set place (call, .returned result) }

/-- A call writes the config. -/
def writes (place : Nat) (call : RegistryCall Source) (change : ConfigChange Config Source) (config : Config)
    (setting : Setting) : FusionConfigRegistry Config Setting Source Error :=
  { s with
    config := config
    changes := s.changes ++ [(place, change)]
    calls := s.calls.set place (call, .wroteConfig setting) }

/-- The lock regions of the calls, each as one step. -/
def next : RegistryStep Config Source Error → Option (FusionConfigRegistry Config Setting Source Error)
  | .begins call => some { s with calls := s.calls ++ [(call, .begun)] }
  | .loads place outcome =>
    match s.calls[place]? with
    | some (.reload, .begun) =>
      match outcome.bind fun config => (crate.tryFrom config).map (config, ·) with
      | .error e => some (s.returns place .reload (.error e))
      | .ok (config, setting) => some { s with calls := s.calls.set place (.reload, .loaded config setting) }
    | _ => none
  | .writesConfig place =>
    match s.calls[place]? with
    | some (.reload, .loaded config setting) => some (s.writes place .reload (.reload config) config setting)
    | some (.addConfigSource source overrideExisting, .begun) =>
      let call : RegistryCall Source := .addConfigSource source overrideExisting
      match (crate.addSource s.config source overrideExisting).bind fun config =>
        (crate.tryFrom config).map (config, ·) with
      | .error e => some (s.returns place call (.error e))
      | .ok (config, setting) =>
        some (s.writes place call (.addConfigSource source overrideExisting) config setting)
    | _ => none
  | .writesSetting place =>
    match s.calls[place]? with
    | some (call, .wroteConfig setting) =>
      some { s with
        fusionSetting := setting
        published := s.published ++ [(place, setting)]
        calls := s.calls.set place (call, .returned (.ok ())) }
    | _ => none

/-- A registry whose setting is that of its config, and nobody at it. -/
def system (config : Config) (setting : Setting) :
    System (FusionConfigRegistry Config Setting Source Error) (RegistryStep Config Source Error) where
  init s := crate.tryFrom config = .ok setting ∧ s = ⟨config, setting, [], [], []⟩
  step s i s' := s.next crate i = some s'

/-- No call is in progress. -/
def Quiet : Prop := ∀ call ∈ s.calls, ∃ result, call.2 = .returned result

/-- The setting of the config in place. -/
def Fits (setting : Setting) : Prop := crate.tryFrom s.config = .ok setting

/-- A call writes its setting only if that fits the config in place, or another is still to write one that does. -/
def InOrder : RegistryStep Config Source Error → Prop
  | .writesSetting place => ∀ call setting, s.calls[place]? = some (call, .wroteConfig setting) →
    s.Fits crate setting ∨ ∃ i call' setting', i ≠ place ∧ s.calls[i]? = some (call', .wroteConfig setting') ∧
      s.Fits crate setting'
  | _ => True

/-- The changes made one after the other. -/
def replay (config : Config) (changes : List (Nat × ConfigChange Config Source)) : Except Error Config :=
  changes.foldlM (fun config change => crate.apply config change.2) config

variable {crate : Configuration Config Setting Source Error} {s s' : FusionConfigRegistry Config Setting Source Error}
  {step : RegistryStep Config Source Error} {place i : Nat} {call : RegistryCall Source}
  {phase : RegistryPhase Config Setting Error} {config : Config} {setting : Setting}

/-- What a step can do. -/
inductive Stepped (crate : Configuration Config Setting Source Error)
    (s : FusionConfigRegistry Config Setting Source Error) :
    RegistryStep Config Source Error → FusionConfigRegistry Config Setting Source Error → Prop where
  | begins {call : RegistryCall Source} : Stepped crate s (.begins call) { s with calls := s.calls ++ [(call, .begun)] }
  | fails {step : RegistryStep Config Source Error} {place : Nat} {call : RegistryCall Source} {e : Error} :
      s.calls[place]? = some (call, .begun) → Stepped crate s step (s.returns place call (.error e))
  | loads {place : Nat} {outcome : Except Error Config} {config : Config} {setting : Setting} :
      s.calls[place]? = some (.reload, .begun) → crate.tryFrom config = .ok setting →
      Stepped crate s (.loads place outcome) { s with calls := s.calls.set place (.reload, .loaded config setting) }
  | reloads {place : Nat} {config : Config} {setting : Setting} :
      s.calls[place]? = some (.reload, .loaded config setting) →
      Stepped crate s (.writesConfig place) (s.writes place .reload (.reload config) config setting)
  | adds {place : Nat} {source : Source} {overrideExisting : Bool} {config : Config} {setting : Setting} :
      s.calls[place]? = some (.addConfigSource source overrideExisting, .begun) →
      crate.addSource s.config source overrideExisting = .ok config → crate.tryFrom config = .ok setting →
      Stepped crate s (.writesConfig place) (s.writes place (.addConfigSource source overrideExisting)
        (.addConfigSource source overrideExisting) config setting)
  | publishes {place : Nat} {call : RegistryCall Source} {setting : Setting} :
      s.calls[place]? = some (call, .wroteConfig setting) →
      Stepped crate s (.writesSetting place) { s with
        fusionSetting := setting
        published := s.published ++ [(place, setting)]
        calls := s.calls.set place (call, .returned (.ok ())) }

private theorem converted_ok {outcome : Except Error Config}
    (h : (outcome.bind fun config => (crate.tryFrom config).map (config, ·)) = .ok (config, setting)) :
    outcome = .ok config ∧ crate.tryFrom config = .ok setting := by
  cases outcome with
  | error e => cases h
  | ok c =>
    cases hfrom : crate.tryFrom c with
    | error e => simp [Except.bind, hfrom, Except.map] at h
    | ok x =>
      simp only [Except.bind, hfrom, Except.map, Except.ok.injEq, Prod.mk.injEq] at h
      obtain ⟨rfl, rfl⟩ := h
      exact ⟨rfl, hfrom⟩

theorem stepped_of_next (h : s.next crate step = some s') : Stepped crate s step s' := by
  unfold next at h
  cases step with
  | begins call =>
    cases h
    exact .begins
  | loads place outcome =>
    dsimp only at h
    split at h
    · next hat =>
      split at h
      · cases h
        exact .fails hat
      · next hconverted =>
        cases h
        exact .loads hat (converted_ok hconverted).2
    · cases h
  | writesConfig place =>
    dsimp only at h
    split at h
    · next hat =>
      cases h
      exact .reloads hat
    · next hat =>
      split at h
      · cases h
        exact .fails hat
      · next hconverted =>
        cases h
        obtain ⟨hadded, hfrom⟩ := converted_ok hconverted
        exact .adds hat hadded hfrom
    · cases h
  | writesSetting place =>
    dsimp only at h
    split at h
    · next hat =>
      cases h
      exact .publishes hat
    · cases h

/-- No write is of the call with this place. -/
def Untouched (s : FusionConfigRegistry Config Setting Source Error) (place : Nat) : Prop :=
  (∀ change ∈ s.changes, change.1 ≠ place) ∧ ∀ setting ∈ s.published, setting.1 ≠ place

/-- What a call in this phase has written. -/
def Traced (crate : Configuration Config Setting Source Error) (s : FusionConfigRegistry Config Setting Source Error)
    (place : Nat) (call : RegistryCall Source) : RegistryPhase Config Setting Error → Prop
  | .begun | .returned (.error _) => s.Untouched place
  | .loaded config setting => s.Untouched place ∧ crate.tryFrom config = .ok setting
  | .wroteConfig _ | .returned (.ok _) => ∀ source overrideExisting, call = .addConfigSource source overrideExisting →
    (place, .addConfigSource source overrideExisting) ∈ s.changes

structure Recorded (crate : Configuration Config Setting Source Error) (config : Config) (setting : Setting)
    (s : FusionConfigRegistry Config Setting Source Error) : Prop where
  replays : replay crate config s.changes = .ok s.config
  latest : s.fusionSetting = (s.published.getLast?.map Prod.snd).getD setting
  places : (∀ change ∈ s.changes, change.1 < s.calls.length) ∧ ∀ x ∈ s.published, x.1 < s.calls.length
  traced : ∀ place call phase, s.calls[place]? = some (call, phase) → s.Traced crate place call phase

/-- The writes of another call leave the traces of this one. -/
private theorem Traced.other (h : s.Traced crate place call phase)
    (hchanges : s'.changes = s.changes ∨ ∃ i change, i ≠ place ∧ s'.changes = s.changes ++ [(i, change)])
    (hpublished : s'.published = s.published ∨ ∃ i setting, i ≠ place ∧ s'.published = s.published ++ [(i, setting)]) :
    s'.Traced crate place call phase := by
  have huntouched : s.Untouched place → s'.Untouched place := by
    rintro ⟨hc, hp⟩
    constructor
    · rcases hchanges with heq | ⟨i, change, hi, heq⟩ <;> rw [heq]
      · exact hc
      · exact fun x hx => (List.mem_append.1 hx).elim (hc x) fun hx => List.mem_singleton.1 hx ▸ hi
    · rcases hpublished with heq | ⟨i, setting, hi, heq⟩ <;> rw [heq]
      · exact hp
      · exact fun x hx => (List.mem_append.1 hx).elim (hp x) fun hx => List.mem_singleton.1 hx ▸ hi
  have hkept : ∀ change ∈ s.changes, change ∈ s'.changes := by
    intro change hchange
    rcases hchanges with heq | ⟨i, _, -, heq⟩ <;> rw [heq]
    · exact hchange
    · exact List.mem_append_left _ hchange
  unfold Traced at h ⊢
  split
  · exact huntouched h
  · exact huntouched h
  · exact ⟨huntouched h.1, h.2⟩
  · exact fun source overrideExisting hcall => hkept _ (h source overrideExisting hcall)
  · exact fun source overrideExisting hcall => hkept _ (h source overrideExisting hcall)

private theorem Recorded.moved {phase' : RegistryPhase Config Setting Error} (w : Recorded crate config setting s)
    (hat : s.calls[place]? = some (call, phase)) (hcalls : s'.calls = s.calls.set place (call, phase'))
    (hchanges : s'.changes = s.changes ∨ ∃ change, s'.changes = s.changes ++ [(place, change)])
    (hpublished : s'.published = s.published ∨ ∃ setting, s'.published = s.published ++ [(place, setting)])
    (hreplays : replay crate config s'.changes = .ok s'.config)
    (hlatest : s'.fusionSetting = (s'.published.getLast?.map Prod.snd).getD setting)
    (htraced : s'.Traced crate place call phase') : Recorded crate config setting s' := by
  have hlength : s'.calls.length = s.calls.length := by rw [hcalls, List.length_set]
  have hplace : place < s'.calls.length := by
    rw [hlength]
    exact (List.getElem?_eq_some_iff.1 hat).1
  refine ⟨hreplays, hlatest, ⟨fun change hchange => ?_, fun x hx => ?_⟩, fun i call' phase'' hat' => ?_⟩
  · rcases hchanges with heq | ⟨_, heq⟩ <;> rw [heq] at hchange
    · rw [hlength]
      exact w.places.1 change hchange
    · rcases List.mem_append.1 hchange with hold | hnew
      · rw [hlength]
        exact w.places.1 change hold
      · rw [List.mem_singleton.1 hnew]
        exact hplace
  · rcases hpublished with heq | ⟨_, heq⟩ <;> rw [heq] at hx
    · rw [hlength]
      exact w.places.2 x hx
    · rcases List.mem_append.1 hx with hold | hnew
      · rw [hlength]
        exact w.places.2 x hold
      · rw [List.mem_singleton.1 hnew]
        exact hplace
  · rw [hcalls] at hat'
    rcases eq_or_of_moved hat hat' with ⟨rfl, hsame⟩ | ⟨hi, hother⟩
    · cases hsame
      exact htraced
    · refine (w.traced i call' phase'' hother).other ?_ ?_
      · exact hchanges.imp_right fun ⟨change, heq⟩ => ⟨place, change, Ne.symm hi, heq⟩
      · exact hpublished.imp_right fun ⟨x, heq⟩ => ⟨place, x, Ne.symm hi, heq⟩

private theorem replay_append (changes : List (Nat × ConfigChange Config Source)) (change : Nat × ConfigChange Config Source)
    {before : Config} (h : replay crate config changes = .ok before) :
    replay crate config (changes ++ [change]) = crate.apply before change.2 := by
  unfold replay at h ⊢
  rw [List.foldlM_append, h]
  exact bind_pure (crate.apply before change.2)

private theorem Recorded.stepped (w : Recorded crate config setting s) (h : Stepped crate s step s') :
    Recorded crate config setting s' := by
  cases h with
  | @begins call =>
    refine ⟨w.replays, w.latest, ?_, fun i call' phase' hat => ?_⟩
    · simp only [List.length_append]
      exact ⟨fun change hchange => Nat.lt_succ_of_lt (w.places.1 change hchange),
        fun x hx => Nat.lt_succ_of_lt (w.places.2 x hx)⟩
    · rcases eq_or_of_begun hat with ⟨rfl, hsame⟩ | hold
      · cases hsame
        exact ⟨fun change hchange => Nat.ne_of_lt (w.places.1 change hchange),
          fun x hx => Nat.ne_of_lt (w.places.2 x hx)⟩
      · exact (w.traced i call' phase' hold).other (.inl rfl) (.inl rfl)
  | fails hat => exact w.moved hat rfl (.inl rfl) (.inl rfl) w.replays w.latest (w.traced _ _ _ hat)
  | loads hat hfrom => exact w.moved hat rfl (.inl rfl) (.inl rfl) w.replays w.latest ⟨w.traced _ _ _ hat, hfrom⟩
  | reloads hat =>
    refine w.moved hat rfl (.inr ⟨_, rfl⟩) (.inl rfl) ?_ w.latest nofun
    exact replay_append _ _ w.replays
  | adds hat hadded hfrom =>
    refine w.moved hat rfl (.inr ⟨_, rfl⟩) (.inl rfl) ?_ w.latest ?_
    · exact (replay_append _ _ w.replays).trans hadded
    · rintro _ _ ⟨⟩
      exact List.mem_append_right _ (List.mem_singleton_self _)
  | publishes hat =>
    refine w.moved hat rfl (.inl rfl) (.inr ⟨_, rfl⟩) w.replays ?_ (w.traced _ _ _ hat)
    simp

theorem recorded_of_reachable {ok : FusionConfigRegistry Config Setting Source Error →
      RegistryStep Config Source Error → Prop} (h : (system crate config setting).ReachableIf ok s) :
    Recorded crate config setting s := by
  refine h.invariant ?_ fun s step s' _ w hstep _ => w.stepped (stepped_of_next hstep)
  rintro s ⟨-, rfl⟩
  exact ⟨rfl, rfl, ⟨by simp, by simp⟩, by simp⟩

/-- The setting fits the config, or a call is still to write one that does. -/
def Synced (crate : Configuration Config Setting Source Error) (s : FusionConfigRegistry Config Setting Source Error) :
    Prop :=
  s.Fits crate s.fusionSetting ∨ ∃ (i : Nat) (call : RegistryCall Source) (setting : Setting),
    s.calls[i]? = some (call, .wroteConfig setting) ∧ s.Fits crate setting

private theorem Synced.stepped (h : s.Synced crate) (w : Recorded crate config setting s) (hstep : Stepped crate s step s')
    (horder : s.InOrder crate step) : s'.Synced crate := by
  -- a call that does not move and is still to write its setting stays so
  have hstays : ∀ {place : Nat} {call : RegistryCall Source} {phase phase' : RegistryPhase Config Setting Error},
      s.calls[place]? = some (call, phase) → (∀ setting, phase ≠ .wroteConfig setting) →
      (∃ (i : Nat) (call : RegistryCall Source) (setting : Setting),
        s.calls[i]? = some (call, .wroteConfig setting) ∧ s.Fits crate setting) →
      ∃ (i : Nat) (call' : RegistryCall Source) (setting : Setting),
        (s.calls.set place (call, phase'))[i]? = some (call', .wroteConfig setting) ∧ s.Fits crate setting := by
    rintro place call phase phase' hat hphase ⟨i, call', setting, hat', hfits⟩
    have hi : i ≠ place := by
      rintro rfl
      cases hat.symm.trans hat'
      exact hphase setting rfl
    exact ⟨i, call', setting, (moved_of_ne hat _ hi).trans hat', hfits⟩
  cases hstep with
  | begins =>
    refine h.imp id ?_
    rintro ⟨i, call, setting, hat, hfits⟩
    exact ⟨i, call, setting, begun_of_getElem? hat _, hfits⟩
  | fails hat => exact h.imp id (hstays hat nofun)
  | loads hat => exact h.imp id (hstays hat nofun)
  | @reloads place config setting hat =>
    exact .inr ⟨place, .reload, setting, moved_self hat _, (w.traced _ _ _ hat).2⟩
  | @adds place source overrideExisting config setting hat hadded hfrom =>
    exact .inr ⟨place, .addConfigSource source overrideExisting, setting, moved_self hat _, hfrom⟩
  | @publishes place call setting hat =>
    rcases horder call setting hat with hfits | ⟨i, call', setting', hi, hat', hfits⟩
    · exact .inl hfits
    · exact .inr ⟨i, call', setting', (moved_of_ne hat _ hi).trans hat', hfits⟩

/-- The config is that of all changes made, one after the other, and every source added is among them; a call that
failed wrote nothing; and if calls write their settings in order, then whenever no call is in progress the
setting is that of the config. -/
theorem setting_in_sync (h : (system crate config setting).ReachableIf (InOrder crate) s) :
    (s.Quiet → crate.tryFrom s.config = .ok s.fusionSetting) ∧
      (∀ place call e, s.calls[place]? = some (call, .returned (.error e)) → s.Untouched place) ∧
      replay crate config s.changes = .ok s.config ∧
      s.fusionSetting = (s.published.getLast?.map Prod.snd).getD setting ∧
      ∀ (place : Nat) (source : Source) (overrideExisting : Bool),
        s.calls[place]? = some (.addConfigSource source overrideExisting, .returned (.ok ())) →
        (place, .addConfigSource source overrideExisting) ∈ s.changes := by
  have w := recorded_of_reachable h
  have hsynced : s.Synced crate := by
    refine h.invariant (P := fun s => s.Synced crate) ?_ ?_
    · rintro s ⟨hfits, rfl⟩
      exact .inl hfits
    · exact fun s step s' hs hsynced hstep horder =>
        Synced.stepped hsynced (recorded_of_reachable hs) (stepped_of_next hstep) horder
  refine ⟨fun hquiet => ?_, fun place call e hat => w.traced place call _ hat, w.replays, w.latest,
    fun place source overrideExisting hat => w.traced place _ _ hat source overrideExisting rfl⟩
  rcases hsynced with hfits | ⟨i, call, setting, hat, -⟩
  · exact hfits
  · obtain ⟨result, hreturned⟩ := hquiet _ (List.mem_of_getElem? hat)
    cases hreturned

/-- Configs are the keys of their sources, and a setting is such a list. -/
private def keys : Configuration (List String) (List String) String Unit where
  build sources := .ok (sources.flatMap fun
    | .config config => config
    | .source source => [source])
  tryFrom config := .ok config

/-- A source is appended, and the setting follows the config. -/
theorem setting_in_sync_appended :
    ∃ s, (system keys ["a"] ["a"]).ReachableIf (InOrder keys) s ∧ s.config = ["a", "b"] ∧
      keys.tryFrom s.config = .ok s.fusionSetting := by
  let call : RegistryCall String := .addConfigSource "b" true
  let s₁ : FusionConfigRegistry (List String) (List String) String Unit := ⟨["a"], ["a"], [(call, .begun)], [], []⟩
  let s₂ : FusionConfigRegistry (List String) (List String) String Unit :=
    ⟨["a", "b"], ["a"], [(call, .wroteConfig ["a", "b"])], [(0, .addConfigSource "b" true)], []⟩
  let s₃ : FusionConfigRegistry (List String) (List String) String Unit :=
    ⟨["a", "b"], ["a", "b"], [(call, .returned (.ok ()))], [(0, .addConfigSource "b" true)], [(0, ["a", "b"])]⟩
  have h₁ : (system keys ["a"] ["a"]).ReachableIf (InOrder keys) s₁ :=
    .step (i := .begins call) (.init ⟨rfl, rfl⟩) rfl trivial
  have h₂ : (system keys ["a"] ["a"]).ReachableIf (InOrder keys) s₂ := h₁.step (i := .writesConfig 0) rfl trivial
  have h₃ : (system keys ["a"] ["a"]).ReachableIf (InOrder keys) s₃ := by
    refine h₂.step (i := .writesSetting 0) rfl ?_
    rintro call setting ⟨⟩
    exact .inl rfl
  exact ⟨s₃, h₃, rfl, (setting_in_sync h₃).1 (by simp [Quiet, s₃])⟩

/-- Of two appends, the one whose config is overwritten writes its setting last. -/
theorem late_setting_overwrites :
    ∃ s, (system keys [] []).Reachable s ∧ s.Quiet ∧ s.config = ["a", "b"] ∧ s.fusionSetting = ["a"] ∧
      keys.tryFrom s.config = .ok ["a", "b"] := by
  have hplay : System.play (next keys) (fun _ _ => True) ⟨[], [], [], [], []⟩ [.begins (.addConfigSource "a" true),
      .begins (.addConfigSource "b" true), .writesConfig 0, .writesConfig 1, .writesSetting 1, .writesSetting 0] =
    some ⟨["a", "b"], ["a"], [(.addConfigSource "a" true, .returned (.ok ())),
      (.addConfigSource "b" true, .returned (.ok ()))],
      [(0, .addConfigSource "a" true), (1, .addConfigSource "b" true)], [(1, ["a", "b"]), (0, ["a"])]⟩ := rfl
  refine ⟨_, System.ReachableIf.play (fun _ _ _ hnext => hnext) (.init ⟨rfl, rfl⟩) hplay, ?_, rfl, rfl, rfl⟩
  simp [Quiet]

end FusionConfigRegistry

end Fusions.Core
