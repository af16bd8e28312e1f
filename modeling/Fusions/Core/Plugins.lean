import Mathlib.Data.List.Perm.Subperm
import Mathlib.Data.List.Nodup
import Mathlib.Data.Set.Finite.Basic
import Mathlib.Order.WellFounded

/-! Plugins and the builder: what `add_plugin` and `build_plugins` do with plugins that add plugins. -/
namespace Fusions.Core

/-- What a plugin, or the program before `build`, does with the builder. -/
inductive Script where
  | done
  | addPlugin (name : String) (dependencies : List String) (immediately : Bool) (build immediatelyBuild : Script)
      (rest : Script)
  | containsPlugin (name : String) (rest : Bool → Script)

structure Plugin where
  name : String
  dependencies : List String
  immediately : Bool
  build : Script
  immediatelyBuild : Script

structure ApplicationBuilder where
  registry : List Plugin
  /-- `build_plugins` is running. -/
  building : Bool
  /-- The plugins that were added, in this order, and whether plugins were being built then. -/
  added : List (Plugin × Bool)
  /-- The plugins that were built, in the order in which they were done. -/
  built : List Plugin

/-- A panic leaves the builder where it was. -/
structure Panicked where
  message : String
  builder : ApplicationBuilder

namespace ApplicationBuilder

def containsPlugin (b : ApplicationBuilder) (name : String) : Bool := b.registry.any (·.name == name)

end ApplicationBuilder

/-- `add_plugin` for each plugin that a script adds, an immediate one with all that it adds itself. -/
def Script.run : Script → ApplicationBuilder → Except Panicked ApplicationBuilder
  | .done, b => .ok b
  | .addPlugin name dependencies immediately build immediatelyBuild rest, b => do
    let plugin : Plugin := ⟨name, dependencies, immediately, build, immediatelyBuild⟩
    let b := { b with added := b.added ++ [(plugin, b.building)] }
    if immediately then
      let b ← immediatelyBuild.run b
      rest.run { b with built := b.built ++ [plugin] }
    else if b.containsPlugin name then
      .error ⟨s!"Error adding plugin {name}: plugin was already added in application", b⟩
    else rest.run { b with registry := b.registry ++ [plugin] }
  | .containsPlugin name rest, b => (rest (b.containsPlugin name)).run b

namespace ApplicationBuilder

/-- One round over the plugins that are left: those whose dependencies are registered are built. -/
def round : List Plugin → List String → ApplicationBuilder →
    Except Panicked (List Plugin × List String × ApplicationBuilder)
  | [], registered, b => .ok ([], registered, b)
  | plugin :: rest, registered, b =>
    if plugin.dependencies.all registered.contains then do
      let b ← plugin.build.run b
      round rest (plugin.name :: registered) { b with built := b.built ++ [plugin] }
    else do
      let (next, registered, b) ← round rest registered b
      .ok (plugin :: next, registered, b)

/-- The rounds of `build_plugins`. A round makes progress if it leaves fewer plugins, so the first argument
bounds their number. -/
def rounds : Nat → List Plugin → List String → ApplicationBuilder → Except Panicked ApplicationBuilder
  | 0, _, _, b => .ok b
  | left + 1, pending, registered, b =>
    if pending.isEmpty then .ok b
    else do
      let (next, registered, b) ← round pending registered b
      if next.length < pending.length then rounds left next registered b
      else .error ⟨"Cyclic dependency detected or missing dependencies for some plugins", b⟩

/-- `build_plugins`, over the plugins of the registry in the order of its iteration. -/
def buildPlugins (iterate : List Plugin → List Plugin) (b : ApplicationBuilder) :
    Except Panicked ApplicationBuilder := do
  let registry := b.registry
  let pending := iterate registry
  let b ← rounds pending.length pending [] { b with registry := [], building := true }
  return { b with registry := registry, building := false }

/-- The program up to `build`, and the plugins built by it. -/
def build (iterate : List Plugin → List Plugin) (program : Script) : Except Panicked ApplicationBuilder := do
  buildPlugins iterate (← program.run ⟨[], false, [], []⟩)

/-- The builder after a run, or where it panicked. -/
def last : Except Panicked ApplicationBuilder → ApplicationBuilder
  | .ok b => b
  | .error panicked => panicked.builder

variable (b : ApplicationBuilder)

def plugins : List Plugin := b.added.map Prod.fst

/-- A plugin of this name depends on one of that name. -/
def Needs (name dependency : String) : Prop :=
  ∃ plugin ∈ b.plugins, plugin.name = name ∧ dependency ∈ plugin.dependencies

/-- The plugins have distinct names and no cycle, and what one depends on has been added. -/
structure Sound : Prop where
  distinct : (b.plugins.map Plugin.name).Nodup
  acyclic : ∀ name, ¬ Relation.TransGen b.Needs name name
  closed : ∀ plugin ∈ b.plugins, ∀ dependency ∈ plugin.dependencies, ∃ p ∈ b.plugins, p.name = dependency

/-- The dependencies of a plugin come before it, wherever it was built. -/
def Follows (built : List Plugin) (plugin : Plugin) : Prop :=
  ∀ pre post, built = pre ++ plugin :: post → ∀ dependency ∈ plugin.dependencies, ∃ p ∈ pre, p.name = dependency

/-- The run kept to what the builder can do: while plugins were built only immediate ones were added, each
immediate plugin was done after its dependencies, and no other depends on an immediate one. -/
structure Simple : Prop where
  late : ∀ x ∈ b.added, x.2 = true → x.1.immediately = true
  immediate : ∀ plugin ∈ b.built, plugin.immediately = true → Follows b.built plugin
  plain : ∀ plugin ∈ b.plugins, plugin.immediately = false → ∀ p ∈ b.plugins, p.name ∈ plugin.dependencies →
    p.immediately = false

/-- The run ended without a panic, every plugin is built once and after its dependencies, and the builder
contains every one that is not immediate. -/
structure Complete (run : Except Panicked ApplicationBuilder) : Prop where
  ok : run = .ok (last run)
  built : (last run).built.Perm (last run).plugins
  follows : ∀ plugin ∈ (last run).built, Follows (last run).built plugin
  contains : ∀ plugin ∈ (last run).plugins, plugin.immediately = false →
    (last run).containsPlugin plugin.name = true

end ApplicationBuilder

namespace ApplicationBuilder
variable {b b₁ b₂ : ApplicationBuilder} {new new' fresh fresh' : List Plugin}

/-- What a script has added: all of these, of which the immediate ones are built. -/
structure Grew (b b' : ApplicationBuilder) (new fresh : List Plugin) : Prop where
  added : b'.added = b.added ++ new.map fun plugin => (plugin, b.building)
  built : b'.built = b.built ++ fresh
  fresh : fresh.Perm (new.filter (·.immediately))
  registry : b'.registry = b.registry ++ new.filter (!·.immediately)
  building : b'.building = b.building

private theorem Grew.plugins (h : Grew b b₁ new fresh) : b₁.plugins = b.plugins ++ new := by
  simp [ApplicationBuilder.plugins, h.added, Function.comp_def]

private theorem Grew.refl (b : ApplicationBuilder) : Grew b b [] [] := ⟨by simp, by simp, .refl _, by simp, rfl⟩

private theorem Grew.trans (h : Grew b b₁ new fresh) (h' : Grew b₁ b₂ new' fresh') :
    Grew b b₂ (new ++ new') (fresh ++ fresh') where
  added := by simp [h'.added, h.added, h.building]
  built := by simp [h'.built, h.built]
  fresh := by
    rw [List.filter_append]
    exact h.fresh.append h'.fresh
  registry := by simp [h'.registry, h.registry]
  building := h'.building.trans h.building

private theorem Grew.sublist (h : Grew b b₁ new fresh) (hsub : b.registry.Sublist b.plugins) :
    b₁.registry.Sublist b₁.plugins := by
  rw [h.registry, h.plugins]
  exact hsub.append List.filter_sublist

/-- A script panics only on a name that was added before. -/
theorem grew_of_run (script : Script) (hsub : b.registry.Sublist b.plugins) :
    (∀ b', script.run b = .ok b' → ∃ new fresh, Grew b b' new fresh) ∧
      ∀ panicked, script.run b = .error panicked → ¬ (panicked.builder.plugins.map Plugin.name).Nodup := by
  induction script generalizing b with
  | done =>
    refine ⟨fun b' h => ?_, nofun⟩
    cases h
    exact ⟨[], [], .refl b⟩
  | containsPlugin name rest ih => exact ih (b.containsPlugin name) hsub
  | addPlugin name dependencies immediately build immediatelyBuild rest _ ihBuild ihRest =>
    let plugin : Plugin := ⟨name, dependencies, immediately, build, immediatelyBuild⟩
    let b₀ : ApplicationBuilder := { b with added := b.added ++ [(plugin, b.building)] }
    have hplugins : b₀.plugins = b.plugins ++ [plugin] := by simp [b₀, ApplicationBuilder.plugins]
    have hsub₀ : b₀.registry.Sublist b₀.plugins := by
      rw [hplugins]
      exact hsub.trans (List.sublist_append_left _ _)
    -- what the rest adds comes after the plugin and what that added itself
    have hrest : ∀ {b₁ : ApplicationBuilder} {new fresh : List Plugin}, Grew b b₁ new fresh →
        (∀ b', rest.run b₁ = .ok b' → ∃ new fresh, Grew b b' new fresh) ∧
          ∀ panicked, rest.run b₁ = .error panicked → ¬ (panicked.builder.plugins.map Plugin.name).Nodup := by
      intro b₁ new fresh hgrew
      refine ⟨fun b' h => ?_, (ihRest (hgrew.sublist hsub)).2⟩
      obtain ⟨new', fresh', hgrew'⟩ := (ihRest (hgrew.sublist hsub)).1 b' h
      exact ⟨_, _, hgrew.trans hgrew'⟩
    unfold Script.run
    cases immediately with
    | true =>
      rw [if_pos rfl]
      cases hrun : immediatelyBuild.run b₀ with
      | error e =>
        refine ⟨nofun, fun panicked h => ?_⟩
        cases h
        exact (ihBuild hsub₀).2 _ hrun
      | ok b₁ =>
        obtain ⟨new, fresh, hgrew⟩ := (ihBuild hsub₀).1 _ hrun
        have hgrew' : Grew b { b₁ with built := b₁.built ++ [plugin] } (plugin :: new) (fresh ++ [plugin]) := by
          refine ⟨?_, ?_, ?_, ?_, hgrew.building⟩
          · simp [hgrew.added, b₀]
          · simp [hgrew.built, b₀]
          · rw [List.filter_cons_of_pos rfl]
            exact (List.perm_append_singleton _ _).trans (hgrew.fresh.cons plugin)
          · rw [List.filter_cons_of_neg (by simp [plugin])]
            exact hgrew.registry
        exact hrest hgrew'
    | false =>
      rw [if_neg Bool.false_ne_true]
      split
      · next hcontains =>
        refine ⟨nofun, fun panicked h hnodup => ?_⟩
        cases h
        obtain ⟨p, hp, hname⟩ := List.any_eq_true.1 hcontains
        have hmem : p.name ∈ b.plugins.map Plugin.name := List.mem_map_of_mem (hsub.subset hp)
        have hplugins' : (b.plugins.map Plugin.name ++ [name]).Nodup := by
          simpa [ApplicationBuilder.plugins] using hnodup
        exact (List.nodup_append.1 hplugins').2.2 _ hmem _ (List.mem_singleton_self _) (by simpa using hname)
      · have hgrew : Grew b { b₀ with registry := b₀.registry ++ [plugin] } [plugin] [] :=
          ⟨by simp [b₀], by simp [b₀], by simp [plugin], by simp [plugin, b₀], rfl⟩
        exact hrest hgrew

private theorem split_append {α : Type} {xs ys pre post : List α} {x : α} (h : xs ++ ys = pre ++ x :: post) :
    (∃ post', xs = pre ++ x :: post') ∨ ∃ pre', pre = xs ++ pre' ∧ ys = pre' ++ x :: post := by
  rcases List.append_eq_append_iff.1 h with ⟨pre', rfl, hys⟩ | ⟨rest, hxs, hrest⟩
  · exact .inr ⟨pre', rfl, hys⟩
  · cases rest with
    | nil => exact .inr ⟨[], by simpa using hxs.symm, by simpa using hrest.symm⟩
    | cons y rest =>
      obtain ⟨rfl, -⟩ := List.cons.inj hrest
      exact .inl ⟨rest, hxs⟩

/-- While plugins are built: those of the registry are done or left, and the done ones followed what they
depend on. -/
structure Building (start : ApplicationBuilder) (pending : List Plugin) (registered : List String)
    (b : ApplicationBuilder) : Prop where
  building : b.building = true
  registry : b.registry.Sublist b.plugins
  early : b.added.filter (!·.2) = start.added
  done : ∃ done : List Plugin, (done ++ pending).Perm start.registry ∧
    (∀ name, name ∈ registered ↔ ∃ p ∈ done, p.name = name) ∧
    b.built.Perm (b.plugins.filter (·.immediately) ++ done)
  follows : ∀ plugin, plugin.immediately = false → ∀ pre post, b.built = pre ++ plugin :: post →
    ∀ dependency ∈ plugin.dependencies, ∃ p ∈ pre, p.name = dependency ∧ p.immediately = false

section
variable {start b' : ApplicationBuilder} {pending kept rest next : List Plugin} {registered registered' : List String}
  {plugin : Plugin} {panicked : Panicked}

private theorem Building.builds (h : Building start (kept ++ plugin :: rest) registered b)
    (hstart : ∀ p ∈ start.registry, p.immediately = false)
    (hdeps : ∀ dependency ∈ plugin.dependencies, dependency ∈ registered) (hrun : plugin.build.run b = .ok b') :
    Building start (kept ++ rest) (plugin.name :: registered) { b' with built := b'.built ++ [plugin] } := by
  obtain ⟨new, fresh, hgrew⟩ := (grew_of_run _ h.registry).1 _ hrun
  obtain ⟨done, hperm, hregistered, hbuilt⟩ := h.done
  have hplain : ∀ p ∈ done ++ kept ++ plugin :: rest, p.immediately = false := fun p hp =>
    hstart p (hperm.mem_iff.1 (by simpa using hp))
  refine ⟨hgrew.building.trans h.building, hgrew.sublist h.registry, ?_, ⟨done ++ [plugin], ?_, ?_, ?_⟩, ?_⟩
  · rw [hgrew.added, List.filter_append, h.early, h.building]
    simp
  · refine List.Perm.trans ?_ hperm
    rw [List.append_assoc]
    have hmiddle : (kept ++ plugin :: rest).Perm (plugin :: (kept ++ rest)) := List.perm_middle
    exact hmiddle.symm.append_left done
  · intro name
    simp only [List.mem_cons, hregistered, List.mem_append, List.not_mem_nil, or_false]
    constructor
    · rintro (rfl | ⟨p, hp, rfl⟩)
      · exact ⟨plugin, .inr rfl, rfl⟩
      · exact ⟨p, .inl hp, rfl⟩
    · rintro ⟨p, hp | rfl, rfl⟩
      · exact .inr ⟨p, hp, rfl⟩
      · exact .inl rfl
  · show (b'.built ++ [plugin]).Perm (b'.plugins.filter (·.immediately) ++ (done ++ [plugin]))
    rw [hgrew.built, hgrew.plugins, List.filter_append, ← List.append_assoc]
    refine List.Perm.append_right _ ?_
    refine (hbuilt.append hgrew.fresh).trans ?_
    rw [List.append_assoc, List.append_assoc]
    exact List.perm_append_comm.append_left _
  · intro x hx pre post hsplit dependency hdependency
    have hsplit' : b.built ++ (fresh ++ [plugin]) = pre ++ x :: post := by
      rw [← List.append_assoc, ← hgrew.built]
      exact hsplit
    rcases split_append hsplit' with ⟨post', hold⟩ | ⟨pre', rfl, hnew⟩
    · exact h.follows x hx pre post' hold dependency hdependency
    rcases split_append hnew with ⟨post', hfresh⟩ | ⟨pre'', rfl, hlast⟩
    · -- what the script built is immediate
      have hmem : x ∈ new.filter (·.immediately) := hgrew.fresh.subset (by rw [hfresh]; simp)
      rw [(List.mem_filter.1 hmem).2] at hx
      cases hx
    · obtain rfl : plugin = x := by
        cases pre'' with
        | nil => exact (List.cons.inj hlast).1
        | cons y ys => simp at hlast
      obtain ⟨p, hp, hname⟩ := (hregistered dependency).1 (hdeps dependency hdependency)
      have hmem : p ∈ b.built := hbuilt.mem_iff.2 (List.mem_append_right _ hp)
      exact ⟨p, List.mem_append_left _ hmem, hname, hplain p (by simp [hp])⟩

private theorem Building.panics (h : Building start pending registered b) (hrun : plugin.build.run b = .error panicked) :
    ¬ (panicked.builder.plugins.map Plugin.name).Nodup :=
  (grew_of_run _ h.registry).2 _ hrun

/-- A round keeps the state, and builds all that are not blocked. -/
private theorem Building.round (hstart : ∀ p ∈ start.registry, p.immediately = false)
    (h : Building start (kept ++ pending) registered b) :
    (∀ next registered' b', ApplicationBuilder.round pending registered b = .ok (next, registered', b') →
      Building start (kept ++ next) registered' b' ∧ next.length ≤ pending.length ∧
        (pending.length ≤ next.length → next = pending ∧ registered' = registered ∧
          ∀ p ∈ pending, ∃ dependency ∈ p.dependencies, dependency ∉ registered)) ∧
    ∀ panicked, ApplicationBuilder.round pending registered b = .error panicked →
      ¬ (panicked.builder.plugins.map Plugin.name).Nodup := by
  induction pending generalizing kept registered b with
  | nil =>
    refine ⟨fun next registered' b' hround => ?_, nofun⟩
    cases hround
    exact ⟨h, Nat.le_refl _, fun _ => ⟨rfl, rfl, by simp⟩⟩
  | cons plugin rest ih =>
    unfold ApplicationBuilder.round
    split
    · next hready =>
      have hdeps : ∀ dependency ∈ plugin.dependencies, dependency ∈ registered := by simpa using hready
      cases hrun : plugin.build.run b with
      | error e =>
        refine ⟨nofun, fun panicked hround => ?_⟩
        cases hround
        exact h.panics hrun
      | ok b₁ =>
        obtain ⟨hok, herror⟩ := ih (h.builds hstart hdeps hrun)
        refine ⟨fun next registered' b' hround => ?_, herror⟩
        obtain ⟨hnext, hle, -⟩ := hok next registered' b' hround
        refine ⟨hnext, Nat.le_succ_of_le hle, fun hge => ?_⟩
        rw [List.length_cons] at hge
        omega
    · next hblocked =>
      have hdep : ∃ dependency ∈ plugin.dependencies, dependency ∉ registered := by simpa using hblocked
      have hkept : Building start ((kept ++ [plugin]) ++ rest) registered b := by simpa using h
      obtain ⟨hok, herror⟩ := ih hkept
      cases hrest : ApplicationBuilder.round rest registered b with
      | error e =>
        refine ⟨nofun, fun panicked hround => ?_⟩
        cases hround
        exact herror _ hrest
      | ok result =>
        obtain ⟨next, registered', b'⟩ := result
        refine ⟨fun next' registered'' b'' hround => ?_, nofun⟩
        cases hround
        obtain ⟨hnext, hle, hstuck⟩ := hok _ _ _ hrest
        refine ⟨by simpa using hnext, Nat.succ_le_succ hle, fun hge => ?_⟩
        obtain ⟨rfl, rfl, hall⟩ := hstuck (Nat.le_of_succ_le_succ hge)
        exact ⟨rfl, rfl, List.forall_mem_cons.2 ⟨hdep, hall⟩⟩

/-- The rounds build all, or stop at plugins of which each waits for one that is not registered. -/
private theorem Building.rounds {left : Nat} (hstart : ∀ p ∈ start.registry, p.immediately = false)
    (h : Building start pending registered b) (hleft : pending.length ≤ left) :
    (∀ b', ApplicationBuilder.rounds left pending registered b = .ok b' →
      ∃ registered', Building start [] registered' b') ∧
    ∀ panicked, ApplicationBuilder.rounds left pending registered b = .error panicked →
      ¬ (panicked.builder.plugins.map Plugin.name).Nodup ∨ ∃ stuck registered', stuck ≠ [] ∧
        Building start stuck registered' panicked.builder ∧
        ∀ p ∈ stuck, ∃ dependency ∈ p.dependencies, dependency ∉ registered' := by
  induction left generalizing pending registered b with
  | zero =>
    obtain rfl : pending = [] := List.eq_nil_of_length_eq_zero (Nat.le_zero.1 hleft)
    refine ⟨fun b' hrounds => ?_, nofun⟩
    cases hrounds
    exact ⟨registered, h⟩
  | succ left ih =>
    unfold ApplicationBuilder.rounds
    split
    · next hempty =>
      obtain rfl : pending = [] := List.isEmpty_iff.1 hempty
      refine ⟨fun b' hrounds => ?_, nofun⟩
      cases hrounds
      exact ⟨registered, h⟩
    · next hpending =>
      have hnone : Building start ([] ++ pending) registered b := h
      obtain ⟨hok, herror⟩ := Building.round hstart hnone
      cases hround : ApplicationBuilder.round pending registered b with
      | error e =>
        refine ⟨nofun, fun panicked hrounds => ?_⟩
        cases hrounds
        exact .inl (herror _ hround)
      | ok result =>
        obtain ⟨next, registered', b₁⟩ := result
        obtain ⟨hnext, -, hstuck⟩ := hok _ _ _ hround
        show (∀ b', (if next.length < pending.length then _ else _) = _ → _) ∧
          ∀ panicked, (if next.length < pending.length then _ else _) = _ → _
        split
        · next hprogress => exact ih hnext (by omega)
        · next hnone =>
          refine ⟨nofun, fun panicked hrounds => ?_⟩
          cases hrounds
          obtain ⟨rfl, rfl, hall⟩ := hstuck (Nat.le_of_not_lt hnone)
          exact .inr ⟨next, registered', by simpa using hpending, hnext, hall⟩

end

/-- The builder that `build` starts from: its registry has the plugins that are not immediate. -/
structure Started (start : ApplicationBuilder) : Prop where
  early : ∀ x ∈ start.added, x.2 = false
  registry : start.registry = start.plugins.filter (!·.immediately)

section
variable {start : ApplicationBuilder} {pending stuck : List Plugin} {registered : List String}

/-- The registry at the start has the plugins of the whole run that are not immediate, if none came late. -/
private theorem Building.registry_eq (h : Building start pending registered b) (hstarted : Started start)
    (hsimple : b.Simple) : b.plugins.filter (!·.immediately) = start.registry := by
  have hearly : b.added.filter (!·.1.immediately) = start.added.filter (!·.1.immediately) := by
    rw [← h.early, List.filter_filter]
    refine List.filter_congr fun x hx => ?_
    cases hlate : x.2 with
    | false => simp
    | true => simp [hsimple.late x hx hlate]
  rw [hstarted.registry, ApplicationBuilder.plugins, ApplicationBuilder.plugins, List.filter_map, List.filter_map]
  exact congrArg (List.map Prod.fst) hearly

/-- A simple run has built the registry it began with, which is that of all plugins. -/
private theorem Building.complete (h : Building start [] registered b) (hstarted : Started start)
    (hsimple : b.Simple) : Complete (.ok { b with registry := start.registry, building := false }) := by
  obtain ⟨done, hperm, -, hbuilt⟩ := h.done
  rw [List.append_nil] at hperm
  have hregistry := h.registry_eq hstarted hsimple
  refine ⟨rfl, ?_, fun plugin hplugin => ?_, fun plugin hplugin hplain => ?_⟩
  · show b.built.Perm b.plugins
    have hdone : done.Perm (b.plugins.filter (!·.immediately)) := hperm.trans (.of_eq hregistry.symm)
    exact (hbuilt.trans (hdone.append_left _)).trans (List.filter_append_perm _ _)
  · cases himmediate : plugin.immediately with
    | true => exact hsimple.immediate plugin hplugin himmediate
    | false =>
      intro pre post hsplit dependency hdependency
      obtain ⟨p, hp, hname, -⟩ := h.follows plugin himmediate pre post hsplit dependency hdependency
      exact ⟨p, hp, hname⟩
  · have hmem : plugin ∈ start.registry := by
      rw [← hregistry]
      exact List.mem_filter.2 ⟨hplugin, by simp [hplain]⟩
    exact List.any_eq_true.2 ⟨plugin, hmem, by simp⟩

end

private def db : Plugin := ⟨"db", [], false, .done, .done⟩

private def base : Plugin := ⟨"base", [], true, .done, .addPlugin "db" [] false .done .done .done⟩

private def web : Plugin := ⟨"web", ["db"], false, .done, .done⟩

end ApplicationBuilder

end Fusions.Core
