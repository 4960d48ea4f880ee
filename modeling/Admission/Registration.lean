import Admission.Deployment.Setup

/-!
Registering a limiter with an application.

A registration hands over its settings directly, or names sources that will provide them later, the
first of which is used. The application then builds what the registration offers: each provider
once, as soon as what it is built from is there, and in any order that allows. Either way the
settings are validated before anything is built from them, one store is built, and the limiter, its
middleware and its guard share it.
-/
namespace Admission

/-- Settings that a source hands over at once, or has ready some time later. -/
inductive Provision (σ : Type) where
  | now (settings : σ)
  | later (settings : σ)

def Provision.awaited {σ : Type} : Provision σ → σ
  | now settings => settings
  | later settings => settings

def Provision.map {σ τ : Type} (f : σ → τ) : Provision σ → Provision τ
  | now settings => now (f settings)
  | later settings => later (f settings)

/-- Sources of settings, in order of precedence. -/
structure Sources (σ : Type) where
  factory : Option (Provision σ) := none
  ownClass : Option (Provision σ) := none
  existing : Option (Provision σ) := none

def Sources.chosen {σ : Type} (s : Sources σ) : Option (Provision σ) :=
  (s.factory.orElse fun _ => s.ownClass).orElse fun _ => s.existing

def Sources.map {σ τ : Type} (f : σ → τ) (s : Sources σ) : Sources τ where
  factory := s.factory.map (Provision.map f)
  ownClass := s.ownClass.map (Provision.map f)
  existing := s.existing.map (Provision.map f)

inductive Registration (σ : Type) where
  | direct (settings : σ)
  | deferred (sources : Sources σ)

inductive Provider where
  | settings
  | store
  | limiter
  | middleware
  | guard
  | source
deriving DecidableEq

def Provider.name : Provider → String
  | settings => "RATE_LIMIT_CONFIG"
  | store => "RATE_LIMIT_BUCKET_STORE"
  | limiter => "RateLimiterService"
  | middleware => "AdmissionMiddleware"
  | guard => "AdmissionGuard"
  | source => "ClassFactory"

namespace Registration

variable {σ : Type}

def map {τ : Type} (f : σ → τ) : Registration σ → Registration τ
  | direct settings => direct (f settings)
  | deferred sources => deferred (sources.map f)

def settings? : Registration σ → Option σ
  | direct settings => some settings
  | deferred sources => sources.chosen.map Provision.awaited

def providers (r : Registration σ) : List Provider :=
  let usual : List Provider := [.settings, .store, .limiter, .middleware, .guard]
  match r with
  | direct _ => usual
  | deferred sources => if sources.ownClass.isSome then usual ++ [.source] else usual

def exports : List Provider := [.limiter, .middleware, .guard, .store]

end Registration

inductive RegistrationFault (α : Type) where
  | noSource
  | settings (fault : SettingsFault α)

def RegistrationFault.error {α : Type} [Textual α] : RegistrationFault α → Fault α
  | noSource =>
    .general "Invalid RateLimitAsyncConfig. Must provide useFactory, useClass, or useExisting."
  | settings fault => fault.error

inductive Supply (σ : Type) where
  | lacking (provision : Provision σ)
  | unasked (provision : Provision σ)
  | promised (settings : σ)
  | received (settings : σ)
  | registered (settings : σ)

/-- How far an application has come in building what a registration offers. Every provider is built
once. -/
structure Assembly (α : Type) where
  deployment : Deployment α
  supply : Supply (Settings α)
  store : Option StoreId := none
  limiter : Option LimiterId := none
  middleware : Option LimiterId := none
  guard : Option LimiterId := none

inductive Step where
  | inject
  | ask
  | fulfil
  | check
  | store
  | limiter
  | middleware
  | guard
deriving DecidableEq

/-- An order in which everything is there when it is needed. -/
def Step.inOrder : List Step :=
  [inject, ask, fulfil, check, store, limiter, middleware, guard]

namespace Assembly

variable {α : Type} [Scalar α]

/-- A step of the application. What is built already, or still lacks what it is built from, stays as
it is. -/
def step (script : ClientScript α) (a : Assembly α) :
    Step → Except (SettingsFault α) (Assembly α)
  | .inject =>
    match a.supply with
    | .lacking provision => .ok { a with supply := .unasked provision }
    | _ => .ok a
  | .ask =>
    match a.supply with
    | .unasked (.now settings) => .ok { a with supply := .received settings }
    | .unasked (.later settings) => .ok { a with supply := .promised settings }
    | _ => .ok a
  | .fulfil =>
    match a.supply with
    | .promised settings => .ok { a with supply := .received settings }
    | _ => .ok a
  | .check =>
    match a.supply with
    | .received settings => settings.validate.map fun _ => { a with supply := .registered settings }
    | _ => .ok a
  | .store =>
    match a.supply, a.store with
    | .registered settings, none =>
      settings.storeChoice.map fun choice =>
        { a with
          deployment := a.deployment.addChosen script choice
          store := some a.deployment.stores.length }
    | _, _ => .ok a
  | .limiter =>
    match a.supply, a.store, a.limiter with
    | .registered settings, some store, none =>
      (a.deployment.addLimiter settings store true).map fun deployment =>
        { a with deployment, limiter := some a.deployment.limiters.length }
    | _, _, _ => .ok a
  | .middleware =>
    match a.limiter, a.middleware with
    | some l, none => .ok { a with middleware := some l }
    | _, _ => .ok a
  | .guard =>
    match a.limiter, a.guard with
    | some l, none => .ok { a with guard := some l }
    | _, _ => .ok a

def run (script : ClientScript α) (steps : List Step) (a : Assembly α) :
    Except (SettingsFault α) (Assembly α) :=
  steps.foldlM (step script) a

end Assembly

namespace Registration

variable {α : Type} [Scalar α]

/-- Registers settings with an application. Those that are handed over directly are validated at
once; a source is only remembered. -/
def register (r : Registration (Settings α)) (s : Deployment α) :
    Except (RegistrationFault α) (Assembly α) :=
  match r with
  | direct settings =>
    match settings.validate with
    | .ok () => .ok { deployment := s, supply := .registered settings }
    | .error fault => .error (.settings fault)
  | deferred sources =>
    match sources.chosen with
    | some provision => .ok { deployment := s, supply := .lacking provision }
    | none => .error .noSource

def assemble (r : Registration (Settings α)) (s : Deployment α) (script : ClientScript α) :
    Except (RegistrationFault α) (Assembly α) := do
  let a ← r.register s
  (a.run script Step.inOrder).mapError .settings

end Registration

end Admission
