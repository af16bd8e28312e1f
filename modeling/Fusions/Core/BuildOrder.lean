import Mathlib.Data.List.Dedup
import Fusions.Library.Rounds
import Fusions.Core.Plugins

/-! The order in which plugins are built and components installed: the rounds of `build_plugins` and of
`auto_inject_component`. -/
namespace Fusions.Core
open Fusions.Library

/-- An installer, by the component that it installs: what `install_component` makes of the registered names. -/
structure ComponentInstaller where
  name : String
  dependencies : List String
  install : List String → Except String (List String)

/-- What installers see and change of the builder: the names of its components, and who was installed. -/
structure Injection where
  components : List String
  installed : List ComponentInstaller

inductive InjectError where
  | failed (error : String)
  | panicked (message : String) (unregistered : List String)

namespace Injection

/-- One round over the installers that are left, each with those of its dependencies that were missing last. -/
def round : List (ComponentInstaller × List String) → Injection →
    Except InjectError (List (ComponentInstaller × List String) × Injection)
  | [], b => .ok ([], b)
  | (registrar, deps) :: rest, b =>
    let deps := deps.filter fun d => !b.components.contains d
    if deps.isEmpty then
      match registrar.install b.components with
      | .error error => .error (.failed error)
      | .ok components => round rest ⟨components, b.installed ++ [registrar]⟩
    else do
      let (pending, b) ← round rest b
      .ok ((registrar, deps) :: pending, b)

/-- The rounds; the first argument bounds the installers that are left, as each round with progress leaves fewer. -/
def rounds : Nat → List (ComponentInstaller × List String) → Injection → Except InjectError Injection
  | 0, _, b => .ok b
  | left + 1, registrars, b =>
    if registrars.isEmpty then .ok b
    else do
      let (pending, b) ← round registrars b
      if pending.length < registrars.length then rounds left pending b
      else .error (.panicked ("Component registration failed, please check the component dependency relationship. " ++
        "Cyclic or missing dependencies, unregistered Components") (pending.flatMap Prod.snd).dedup)

end Injection

/-! The plugins. -/
namespace ApplicationBuilder

def dependencies (plugins : List Plugin) : Dependencies Plugin String :=
  ⟨plugins, Plugin.name, Plugin.dependencies, fun _ => False⟩

/-- The builder after these were built. -/
def after (b : ApplicationBuilder) (done : List Plugin) : ApplicationBuilder := { b with built := b.built ++ done }

/-- The names of these plugins. -/
def Registered (registered : List String) (done : List Plugin) : Prop :=
  ∀ name, name ∈ registered ↔ ∃ plugin ∈ done, plugin.name = name

section
variable (start : ApplicationBuilder) (plugins : List Plugin) {pending done : List Plugin} {registered : List String}

theorem Registered.snoc (h : Registered registered done) (plugin : Plugin) :
    Registered (plugin.name :: registered) (done ++ [plugin]) := by
  intro name
  rw [List.mem_cons, h name]
  simp [or_comm, eq_comm]

end

end ApplicationBuilder

/-! The installers. -/
namespace Injection

/-- What is registered from the start is there for everyone. -/
def dependencies (b : Injection) (installers : List ComponentInstaller) : Dependencies ComponentInstaller String :=
  ⟨installers, ComponentInstaller.name, ComponentInstaller.dependencies, fun name => name ∈ b.components⟩

/-- The builder after these were installed. -/
def after (b : Injection) (done : List ComponentInstaller) : Injection :=
  ⟨(done.map ComponentInstaller.name).reverse ++ b.components, b.installed ++ done⟩

/-- With each installer go those of its dependencies that are still missing, and maybe some that are not. -/
def Waiting (components : List String) (pending : List (ComponentInstaller × List String)) : Prop :=
  ∀ entry ∈ pending, (∀ d ∈ entry.2, d ∈ entry.1.dependencies) ∧
    ∀ d ∈ entry.1.dependencies, d ∉ components → d ∈ entry.2

section
variable (start : Injection) (installers : List ComponentInstaller)
  {pending : List (ComponentInstaller × List String)} {done : List ComponentInstaller}

theorem Waiting.mono {components components' : List String} (h : Waiting components pending)
    (hsub : components ⊆ components') : Waiting components' pending := by
  intro entry hentry
  exact ⟨(h entry hentry).1, fun d hd hmissing => (h entry hentry).2 d hd fun hmem => hmissing (hsub hmem)⟩

end

end Injection

/-- A cache over a registered database, and a server over the cache. -/
private def stack : List ComponentInstaller :=
  [⟨"server", ["cache", "db"], fun names => .ok ("server" :: names)⟩,
    ⟨"cache", ["db"], fun names => .ok ("cache" :: names)⟩]

end Fusions.Core
