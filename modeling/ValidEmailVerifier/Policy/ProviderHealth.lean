/-
# `Policy.ProviderHealth` — the health of the providers, and the autoprotect

The alert service averages the rates that the workers report for a provider, compares them
with the thresholds of the settings, and sets the mode of the provider by its status, unless
somebody has set it by hand.  The rates are of any type `K`, as for the autopilot.
-/
import ValidEmailVerifier.Policy.Autopilot

namespace ValidEmailVerifier.Policy

/-! ## Status -/

/-- What a worker reports of a provider. -/
structure ProviderRates (K : Type) where
  provider : Text
  tempfailRate : K
  rejectRate : K
  unknownRate : K

/-- `status` of a provider. -/
inductive ProviderStatus where
  | healthy | warning | critical
  deriving DecidableEq, Repr

structure ProviderHealthThresholds (K : Type) where
  tempfailWarn : K
  tempfailCritical : K
  rejectWarn : K
  rejectCritical : K
  unknownWarn : K
  unknownCritical : K

/-- What the workers report of one provider, summed up. -/
structure ProviderSums (K : Type) where
  workers : Nat
  tempfailSum : K
  rejectSum : K
  unknownSum : K

section
variable {K : Type} [Zero K] [Add K] [Div K] [NatCast K]

def ProviderSums.add (sums : ProviderSums K) (metric : ProviderRates K) : ProviderSums K where
  workers := sums.workers + 1
  tempfailSum := sums.tempfailSum + metric.tempfailRate
  rejectSum := sums.rejectSum + metric.rejectRate
  unknownSum := sums.unknownSum + metric.unknownRate

/-- The loop over the metrics of all workers, for one provider. -/
def ProviderSums.of (provider : Provider) (workers : List (List (ProviderRates K))) :
    ProviderSums K :=
  (workers.flatten.filter fun metric => normalizeProviderName metric.provider = some provider).foldl
    ProviderSums.add ⟨0, 0, 0, 0⟩

variable [LE K] [DecidableLE K]

def classifyProviderStatus (tempfail reject unknown : K)
    (thresholds : ProviderHealthThresholds K) : ProviderStatus :=
  if thresholds.tempfailCritical ≤ tempfail ∨ thresholds.rejectCritical ≤ reject ∨
      thresholds.unknownCritical ≤ unknown then .critical
  else if thresholds.tempfailWarn ≤ tempfail ∨ thresholds.rejectWarn ≤ reject ∨
      thresholds.unknownWarn ≤ unknown then .warning
  else .healthy

/-- The status of a provider in `aggregateProviderHealth`. -/
def providerStatus (thresholds : ProviderHealthThresholds K)
    (workers : List (List (ProviderRates K))) (provider : Provider) : ProviderStatus :=
  let sums := ProviderSums.of provider workers
  classifyProviderStatus (averageOrZero sums.tempfailSum sums.workers)
    (averageOrZero sums.rejectSum sums.workers) (averageOrZero sums.unknownSum sums.workers)
    thresholds

end

/-! ## Autoprotect -/

/-- The mode for a status. -/
def ProviderStatus.targetMode : ProviderStatus → ProviderMode
  | .healthy => .normal
  | .warning => .cautious
  | .critical => .drain

/-- What a check of the alert service meets. -/
structure HealthCheck (K : Type) where
  providerAutoprotectEnabled : Bool := true
  autoActionsEnabled : Bool := true
  thresholds : ProviderHealthThresholds K
  /-- The workers, unless the check is not due, or they cannot be loaded. -/
  workers : Option (List (List (ProviderRates K)))
  /-- The modes can be loaded; otherwise there are none to the check. -/
  modesLoaded : Bool := true
  /-- The providers whose mode cannot be written. -/
  refused : List Provider := []

section
variable {K : Type} [Zero K] [Add K] [Div K] [NatCast K] [LE K] [DecidableLE K]

/-- The mode that `checkProviderHealth` writes for a provider. -/
def HealthCheck.writes (c : HealthCheck K) (modes : ProviderModes) (provider : Provider) :
    Option ProviderMode :=
  match c.workers with
  | none => none
  | some workers =>
      if c.providerAutoprotectEnabled = false ∨ c.autoActionsEnabled = false then none
      else
        let modes := if c.modesLoaded then modes else fun _ => none
        if (modes provider).map ProviderModeState.source = some .manual then none
        else
          let targetMode := (providerStatus c.thresholds workers provider).targetMode
          if currentMode modes provider = targetMode ∨ provider ∈ c.refused then none
          else some targetMode

/-- The modes behind a check. -/
def HealthCheck.apply (c : HealthCheck K) (modes : ProviderModes) : ProviderModes :=
  fun provider =>
    match c.writes modes provider with
    | some mode => some ⟨mode, .autoprotect⟩
    | none => modes provider

end

end ValidEmailVerifier.Policy
