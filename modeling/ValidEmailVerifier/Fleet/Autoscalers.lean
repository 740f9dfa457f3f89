/-
# `Fleet.Autoscalers` — the autoscalers of any number of control planes

Every instance of the control plane has an autoscaler.  They share the settings, the lease that
lets one of them run, and the desired counts of the pools; the times of their runs and of their
actions are in the memory of each.  A run reads the pools and the workers and then goes through
the pools one by one, so that anything may happen in between: a restart, a run of another
instance whose lease is younger, a new desired count, new settings.

The target of a pool starts from its desired count, which is raised to the minimum and is not
lowered to the maximum.  So what is written is in the limits exactly where no pool that is above
the maximum by more than one is made smaller (`inLimits_iff`).  And the pause between two changes
of a pool is what it is set to exactly where an instance that does not know of the last change
waits for it all the same (`spaced_iff`).
-/
import Mathlib
import ValidEmailVerifier.Fleet.Autoscale
import ValidEmailVerifier.Fleet.StoredSettings

namespace ValidEmailVerifier.Fleet.Scaling

open ExpiringKeys Transition

/-! ## An autoscaler -/

/-- The settings of a run.  Those that are saved and those that are read are in order
(`StoredSettings.limits_getRuntimeSettings`). -/
structure PassSettings extends AutoscaleSettings where
  intervalSecond : Int := 30
  nonneg : 0 ≤ minDesired := by decide
  ordered : minDesired ≤ maxDesired := by decide

/-- The settings as an autoscaler reads them. -/
def PassSettings.read {F : Type} [Floats F] [Preorder F] [DecidableLT F] (stored : Option Json)
    (defaults : StoredSettings.RuntimeSettings F)
    (hnonneg : 0 ≤ defaults.count .autoscaleMinDesired)
    (hle : defaults.count .autoscaleMinDesired ≤ defaults.count .autoscaleMaxDesired) :
    PassSettings :=
  let settings := (StoredSettings.getRuntimeSettings stored defaults).1
  have hlimits := StoredSettings.limits_getRuntimeSettings stored hnonneg hle
  { autoscaleEnabled := settings.flag .autoscaleEnabled
    minDesired := (settings.count .autoscaleMinDesired).toInt
    maxDesired := (settings.count .autoscaleMaxDesired).toInt
    canaryPercent := (settings.count .autoscaleCanaryPercent).toInt
    cooldownSecond := (settings.count .autoscaleCooldownSecond).toInt
    intervalSecond := (settings.count .autoscaleIntervalSecond).toInt
    nonneg := Int64.le_iff_toInt_le.mp hlimits.1
    ordered := Int64.le_iff_toInt_le.mp hlimits.2 }

/-- What a run has read, and the pools it has still to look at. -/
structure Pass where
  settings : PassSettings
  workers : List WorkerSummary
  pools : List PoolSummary

structure AutoScaleService where
  lastAction : Text → Option Nat := fun _ => none
  lastRunAt : Option Nat := none
  pass : Option Pass := none

/-- What the two reads of a run find: the known pools with the workers that are counted for
them, and the workers that are looked at for what they do. -/
structure Reading where
  known : List Text
  counted : List WorkerSummary
  workers : List WorkerSummary

/-- The pause that is set. -/
def cooldown (settings : AutoscaleSettings) : Nat :=
  if settings.cooldownSecond ≤ 0 then 120 * second else settings.cooldownSecond.toNat * second

/-- It is over, if the last change was at that time. -/
def elapsed (settings : AutoscaleSettings) (now : Nat) (last : Option Nat) :
    Bool :=
  last.all fun last => cooldown settings ≤ now - last

namespace AutoScaleService

def runDue (settings : PassSettings) (now : Nat) (s : AutoScaleService) : Bool :=
  let interval :=
    if settings.intervalSecond ≤ 0 then 30 * second else settings.intervalSecond.toNat * second
  s.lastRunAt.all fun last => interval ≤ now - last

def cooldownElapsed (settings : AutoscaleSettings) (now : Nat) (s : AutoScaleService)
    (pool : Text) : Bool :=
  elapsed settings now (s.lastAction pool)

/-- The target that one turn of the loop writes, if it writes one. -/
def target (pass : Pass) (now : Nat) (s : AutoScaleService) (pool : PoolSummary) : Option Int :=
  if pool.pool = [] then none
  else
    let minDesired := max pass.settings.minDesired 0
    let maxDesired := max pass.settings.maxDesired minDesired
    let target := calculatePoolTargetDesired pool (busyByPool pass.workers pool.pool) minDesired
      maxDesired
    if target = pool.desired then none
    else if s.cooldownElapsed pass.settings.toAutoscaleSettings now pool.pool = false then none
    else some target

end AutoScaleService

/-- The pools that a run looks at, in the order of their names. -/
def passPools (settings : PassSettings) (desiredCount : Text → Int) (reading : Reading) :
    List PoolSummary :=
  let pools := reading.known.map (poolSummary desiredCount reading.counted)
  if settings.canaryPercent ≤ 0 then []
  else
    (pools.mergeSort fun a b => a.pool ≤ b.pool).take
      (canaryLimit pools.length (min settings.canaryPercent 100)).toNat

/-! ## The lease -/

structure LeaderLock where
  leaderLockEnabled : Bool := true
  leaderLockTTL : Nat := 45 * second

/-- Whether the lease is the owner's now. -/
def holdLeaderLease (owner : Text) (ttl now : Nat) (lease : Option (Entry Text)) :
    Bool × Option (Entry Text) :=
  let expires := now + if ttl = 0 then 45 * second else ttl
  if owner = [] then (false, lease)
  else
    match lease.filter (·.live now) with
    | some current =>
        if current.value = owner then (true, some ⟨owner, some expires⟩) else (false, lease)
    | none => (true, some ⟨owner, some expires⟩)

def LeaderLock.shouldRun (lock : LeaderLock) (instanceID : Text) (now : Nat)
    (lease : Option (Entry Text)) : Bool × Option (Entry Text) :=
  if lock.leaderLockEnabled = false then (true, lease)
  else holdLeaderLease instanceID lock.leaderLockTTL now lease

/-! ## All of them -/

/-- What becomes of a command: it is carried out and answered, it is carried out and the answer
is lost, or it fails. -/
inductive Reply where
  | answered | lost | failed
  deriving DecidableEq

/-- A call of `SetPoolDesiredCount` by an autoscaler. -/
structure SetCall where
  settings : PassSettings
  time : Nat
  pool : Text
  target : Int
  carriedOut : Bool

structure Autoscalers where
  settings : PassSettings
  clock : Nat := 0
  desiredCount : Text → Int := fun _ => 0
  lease : Option (Entry Text) := none
  service : Text → AutoScaleService := fun _ => {}
  /-- The calls of the autoscalers, the last one first. -/
  calls : List SetCall := []

inductive ScalerAct where
  /-- The ticker fires; nothing is read when the store fails. -/
  | run (instanceID : Text) (reading : Option Reading)
  /-- The next turn of the loop of a run. -/
  | adjust (instanceID : Text) (reply : Reply)
  | restart (instanceID : Text)
  /-- `SetPoolDesiredCount` by an operator. -/
  | setPoolDesiredCount (pool : Text) (desired : Int)
  | saveRuntimeSettings (settings : PassSettings)

namespace Autoscalers

def setService (s : Autoscalers) (id : Text) (service : AutoScaleService) : Autoscalers :=
  { s with service := Function.update s.service id service }

/-- `run` of the autoscaler up to its loop. -/
def run (lock : LeaderLock) (now : Nat) (s : Autoscalers) (id : Text)
    (reading : Option Reading) : Autoscalers :=
  if s.settings.autoscaleEnabled = false then s
  else
    match lock.shouldRun id now s.lease with
    | (false, lease) => { s with lease := lease }
    | (true, lease) =>
        if (s.service id).runDue s.settings now = false then { s with lease := lease }
        else
          { s with lease := lease }.setService id
            { s.service id with
              lastRunAt := some now
              pass := reading.map fun (reading : Reading) =>
                { settings := s.settings
                  workers := reading.workers
                  pools := passPools s.settings s.desiredCount reading } }

/-- One turn of the loop. -/
def adjust (now : Nat) (s : Autoscalers) (id : Text) (reply : Reply) (pass : Pass)
    (pool : PoolSummary) (rest : List PoolSummary) : Autoscalers :=
  let service := { s.service id with pass := some { pass with pools := rest } }
  match (s.service id).target pass now pool with
  | none => s.setService id service
  | some target =>
      let carriedOut := decide (reply ≠ .failed ∧ 0 ≤ target)
      { s with
        calls := ⟨pass.settings, now, pool.pool, target, carriedOut⟩ :: s.calls
        desiredCount :=
          if carriedOut then Function.update s.desiredCount pool.pool target else s.desiredCount
        service := Function.update s.service id
          (if reply = .answered ∧ 0 ≤ target then
            { service with
              lastAction := Function.update service.lastAction pool.pool (some now) }
          else service) }

/-- The pool that an instance looks at next. -/
def next (s : Autoscalers) (id : Text) : Option (Pass × PoolSummary × List PoolSummary) :=
  match (s.service id).pass with
  | some pass =>
      match pass.pools with
      | pool :: rest => some (pass, pool, rest)
      | [] => none
  | none => none

def act (lock : LeaderLock) (now : Nat) (s : Autoscalers) : ScalerAct → Option Autoscalers
  | .run id reading => if (s.next id).isSome then none else some (s.run lock now id reading)
  | .adjust id reply =>
      (s.next id).map fun turn => s.adjust now id reply turn.1 turn.2.1 turn.2.2
  | .restart id => some (s.setService id {})
  | .setPoolDesiredCount pool desired =>
      if pool = [] ∨ desired < 0 then some s
      else some { s with desiredCount := Function.update s.desiredCount pool desired }
  | .saveRuntimeSettings settings => some { s with settings := settings }

end Autoscalers

/-- The autoscalers, the operators and the store, one step after the other. -/
def autoscalers (lock : LeaderLock) : System Autoscalers (Nat × ScalerAct) where
  step s a :=
    if s.clock ≤ a.1 then (s.act lock a.1 a.2).map fun t => { t with clock := a.1 } else none

/-- The call that a step makes, if it makes one. -/
def Autoscalers.call (now : Nat) (s : Autoscalers) : ScalerAct → Option SetCall
  | .adjust id reply =>
      (s.next id).bind fun turn =>
        ((s.service id).target turn.1 now turn.2.1).map fun target =>
          ⟨turn.1.settings, now, turn.2.1.pool, target,
            decide (reply ≠ .failed ∧ 0 ≤ target)⟩
  | _ => none

/-! ## What a step does -/

section

variable {lock : LeaderLock} {s t : Autoscalers} {now : Nat} {a : ScalerAct}

theorem calls_run (lock : LeaderLock) (now : Nat) (s : Autoscalers) (id : Text)
    (reading : Option Reading) : (s.run lock now id reading).calls = s.calls := by
  rw [Autoscalers.run]
  split
  · rfl
  · split
    · rfl
    · split
      · rfl
      · rfl

theorem calls_adjust (now : Nat) (s : Autoscalers) (id : Text) (reply : Reply) (pass : Pass)
    (pool : PoolSummary) (rest : List PoolSummary) :
    (s.adjust now id reply pass pool rest).calls =
      (((s.service id).target pass now pool).map fun target =>
        (⟨pass.settings, now, pool.pool, target, decide (reply ≠ .failed ∧ 0 ≤ target)⟩ :
          SetCall)).toList ++ s.calls := by
  rw [Autoscalers.adjust]
  cases (s.service id).target pass now pool with
  | none => rfl
  | some target => rfl

/-- Time goes on, and the call is the last one. -/
theorem step_calls (h : (autoscalers lock).step s (now, a) = some t) :
    s.clock ≤ now ∧ t.clock = now ∧ t.calls = (s.call now a).toList ++ s.calls := by
  rw [autoscalers] at h
  dsimp only at h
  split_ifs at h with hle
  obtain ⟨u, hu, rfl⟩ := Option.map_eq_some_iff.mp h
  refine ⟨hle, rfl, ?_⟩
  show u.calls = _
  cases a with
  | run id reading =>
    rw [Autoscalers.act] at hu
    split_ifs at hu
    obtain rfl := Option.some.inj hu
    exact calls_run ..
  | adjust id reply =>
    obtain ⟨turn, hturn, rfl⟩ := Option.map_eq_some_iff.mp hu
    rw [calls_adjust, Autoscalers.call, hturn]
    rfl
  | restart id =>
    obtain rfl := Option.some.inj hu
    rfl
  | setPoolDesiredCount pool desired =>
    rw [Autoscalers.act] at hu
    split_ifs at hu <;> obtain rfl := Option.some.inj hu
    · rfl
    · rfl
  | saveRuntimeSettings settings =>
    obtain rfl := Option.some.inj hu
    rfl

/-- A call is made in a turn of the loop, with the target of its pool. -/
theorem exists_turn_of_call {c : SetCall} (h : s.call now a = some c) :
    ∃ id reply pass pool rest, a = .adjust id reply ∧ s.next id = some (pass, pool, rest) ∧
      c.settings = pass.settings ∧ c.time = now ∧ c.pool = pool.pool ∧
      (s.service id).target pass now pool = some c.target ∧
      (c.carriedOut = true ↔ reply ≠ .failed ∧ 0 ≤ c.target) := by
  cases a with
  | adjust id reply =>
    obtain ⟨⟨pass, pool, rest⟩, hturn, hcall⟩ := Option.bind_eq_some_iff.mp h
    obtain ⟨target, htarget, rfl⟩ := Option.map_eq_some_iff.mp hcall
    exact ⟨id, reply, pass, pool, rest, rfl, hturn, rfl, rfl, rfl, htarget, decide_eq_true_iff⟩
  | run _ _ => exact nomatch h
  | restart _ => exact nomatch h
  | setPoolDesiredCount _ _ => exact nomatch h
  | saveRuntimeSettings _ => exact nomatch h

end

/-! ## The target of a pool -/

/-- The pool is in a bad state, or has nothing to do. -/
def Shrinks (pool : PoolSummary) (busy : Int) : Prop :=
  (0 < pool.healthScore ∧ pool.healthScore < 1 / 5) ∨
    ((busy : ℚ) / ((if pool.online < 1 then 1 else pool.online : Int) : ℚ) ≤ 1 / 4 ∧
      pool.desired ≤ pool.online)

section

variable {pool : PoolSummary} (busy : Int) {minDesired maxDesired : Int}

/-- From a desired count that is not above the maximum the target is in the limits. -/
theorem target_mem_of_le (hord : minDesired ≤ maxDesired) (h : pool.desired ≤ maxDesired) :
    minDesired ≤ calculatePoolTargetDesired pool busy minDesired maxDesired ∧
      calculatePoolTargetDesired pool busy minDesired maxDesired ≤ maxDesired := by
  rw [calculatePoolTargetDesired]
  by_cases hlow : pool.desired < minDesired
  · rw [if_pos hlow]
    split_ifs <;> omega
  · rw [if_neg hlow]
    split_ifs <;> omega

/-- From one above, it is one less or the same. -/
theorem target_of_gt (hord : minDesired ≤ maxDesired) (h : maxDesired < pool.desired) :
    (Shrinks pool busy →
      calculatePoolTargetDesired pool busy minDesired maxDesired = pool.desired - 1) ∧
    (¬ Shrinks pool busy →
      calculatePoolTargetDesired pool busy minDesired maxDesired = pool.desired) := by
  have hlow : ¬ pool.desired < minDesired := by omega
  have habove : minDesired < pool.desired := by omega
  have hfull : ¬ pool.desired < maxDesired := by omega
  rw [calculatePoolTargetDesired]
  rw [if_neg hlow]
  by_cases hsick : 0 < pool.healthScore ∧ pool.healthScore < 1 / 5
  · rw [if_pos ⟨hsick.1, hsick.2, habove⟩]
    exact ⟨fun _ => rfl, fun hnot => absurd (.inl hsick) hnot⟩
  · rw [if_neg fun h => hsick ⟨h.1, h.2.1⟩, if_neg fun h => hfull h.2.1]
    constructor
    · intro hshrinks
      obtain ⟨hidle, honline⟩ := hshrinks.resolve_left hsick
      have hcapacity : decide (pool.online < pool.desired) = false :=
        decide_eq_false (by omega)
      rw [if_pos ⟨hidle, habove, hcapacity, honline⟩]
    · intro hnot
      rw [if_neg]
      rintro ⟨hidle, -, -, honline⟩
      exact hnot (.inr ⟨hidle, honline⟩)

/-- With more busy workers the target is not lower. -/
theorem calculatePoolTargetDesired_mono {busy' : Int} (hle : busy ≤ busy') :
    calculatePoolTargetDesired pool busy minDesired maxDesired ≤
      calculatePoolTargetDesired pool busy' minDesired maxDesired := by
  have honline : (0 : ℚ) < ((if pool.online < 1 then 1 else pool.online : Int) : ℚ) := by
    split_ifs
    · norm_num
    · exact_mod_cast (by omega : 0 < pool.online)
  have hratio : (busy : ℚ) / ((if pool.online < 1 then 1 else pool.online : Int) : ℚ) ≤
      (busy' : ℚ) / ((if pool.online < 1 then 1 else pool.online : Int) : ℚ) := by
    gcongr
  rw [calculatePoolTargetDesired, calculatePoolTargetDesired]
  generalize (busy : ℚ) / _ = ratio at hratio ⊢
  generalize (busy' : ℚ) / _ = ratio' at hratio ⊢
  generalize (if pool.desired < minDesired then minDesired else pool.desired) = target
  by_cases hsick : 0 < pool.healthScore ∧ pool.healthScore < 1 / 5 ∧ minDesired < target
  · rw [if_pos hsick, if_pos hsick]
  · rw [if_neg hsick, if_neg hsick]
    by_cases hfull : 17 / 20 ≤ ratio ∧ target < maxDesired ∧ 1 / 4 ≤ pool.healthScore
    · rw [if_pos hfull, if_pos ⟨hfull.1.trans hratio, hfull.2⟩]
    · rw [if_neg hfull]
      by_cases hidle : ratio' ≤ 1 / 4 ∧ minDesired < target ∧
          decide (pool.online < pool.desired) = false ∧ target ≤ pool.online
      · have hnot : ¬ (17 / 20 ≤ ratio' ∧ target < maxDesired ∧ 1 / 4 ≤ pool.healthScore) := by
          rintro ⟨hbusy, -⟩
          have hboth : (17 / 20 : ℚ) ≤ 1 / 4 := hbusy.trans hidle.1
          norm_num at hboth
        rw [if_pos ⟨hratio.trans hidle.1, hidle.2⟩, if_neg hnot, if_pos hidle]
      · rw [if_neg hidle]
        split_ifs <;> omega

end

/-! ## The limits -/

/-- The targets that were written are in the limits of their runs. -/
def InLimits (calls : List SetCall) : Prop :=
  ∀ c ∈ calls, c.settings.minDesired ≤ c.target ∧ c.target ≤ c.settings.maxDesired

/-- No pool that is above the maximum by more than one is made smaller. -/
def NotFarAbove (s : Autoscalers) (a : Nat × ScalerAct) : Prop :=
  ∀ id reply pass pool rest, a.2 = .adjust id reply → s.next id = some (pass, pool, rest) →
    pool.pool ≠ [] →
    (s.service id).cooldownElapsed pass.settings.toAutoscaleSettings a.1 pool.pool = true →
    pass.settings.maxDesired + 1 < pool.desired →
    ¬ Shrinks pool (busyByPool pass.workers pool.pool)

section

variable {lock : LeaderLock} {s t : Autoscalers} {now : Nat} {a : ScalerAct}

/-- What one turn of the loop writes. -/
theorem target_eq_some_iff {service : AutoScaleService} {pass : Pass} {pool : PoolSummary}
    {target : Int} : service.target pass now pool = some target ↔
      pool.pool ≠ [] ∧
      calculatePoolTargetDesired pool (busyByPool pass.workers pool.pool)
        pass.settings.minDesired pass.settings.maxDesired = target ∧
      target ≠ pool.desired ∧
      service.cooldownElapsed pass.settings.toAutoscaleSettings now pool.pool = true := by
  have hmin : max pass.settings.minDesired 0 = pass.settings.minDesired :=
    max_eq_left pass.settings.nonneg
  have hmax : max pass.settings.maxDesired pass.settings.minDesired = pass.settings.maxDesired :=
    max_eq_left pass.settings.ordered
  rw [AutoScaleService.target]
  simp only [hmin, hmax]
  by_cases hpool : pool.pool = []
  · rw [if_pos hpool]
    exact ⟨nofun, fun h => absurd hpool h.1⟩
  · rw [if_neg hpool]
    generalize calculatePoolTargetDesired pool _ _ _ = computed
    by_cases hsame : computed = pool.desired
    · rw [if_pos hsame]
      exact ⟨nofun, fun h => absurd (h.2.1.symm.trans hsame) h.2.2.1⟩
    · rw [if_neg hsame]
      cases service.cooldownElapsed pass.settings.toAutoscaleSettings now pool.pool with
      | false => exact ⟨nofun, fun h => absurd h.2.2.2 Bool.false_ne_true⟩
      | true =>
        constructor
        · intro h
          obtain rfl := Option.some.inj h
          exact ⟨hpool, rfl, hsame, rfl⟩
        · rintro ⟨-, rfl, -, -⟩
          rfl

/-- A target that is written is in the limits, unless the pool is far above them. -/
theorem target_mem_iff {service : AutoScaleService} {pass : Pass} {pool : PoolSummary}
    {target : Int} (h : service.target pass now pool = some target) :
    (pass.settings.minDesired ≤ target ∧ target ≤ pass.settings.maxDesired) ↔
      pool.desired ≤ pass.settings.maxDesired + 1 := by
  obtain ⟨-, rfl, hne, -⟩ := target_eq_some_iff.mp h
  have hord := pass.settings.ordered
  by_cases hle : pool.desired ≤ pass.settings.maxDesired
  · have hmem := target_mem_of_le (busyByPool pass.workers pool.pool) hord hle
    exact ⟨fun _ => by omega, fun _ => hmem⟩
  · obtain ⟨hshrinks, hnot⟩ := target_of_gt (busyByPool pass.workers pool.pool) hord
      (Int.not_le.mp hle)
    have heq := hshrinks (by_contra fun h => hne (hnot h))
    rw [heq]
    omega

theorem inLimits_step (h : (autoscalers lock).step s (now, a) = some t) (hs : InLimits s.calls) :
    InLimits t.calls ↔ NotFarAbove s (now, a) := by
  obtain ⟨-, -, hcalls⟩ := step_calls h
  rw [hcalls]
  cases hcall : s.call now a with
  | none =>
    refine ⟨fun _ id reply pass pool rest ha hnext hpool helapsed hfar hshrinks => ?_, fun _ => hs⟩
    obtain rfl : a = .adjust id reply := ha
    have heq := (target_of_gt (busyByPool pass.workers pool.pool) pass.settings.ordered
      (by omega)).1 hshrinks
    have htarget := target_eq_some_iff.mpr ⟨hpool, heq, by omega, helapsed⟩
    rw [Autoscalers.call, hnext, Option.bind_some, htarget] at hcall
    cases hcall
  | some c =>
    obtain ⟨id, reply, pass, pool, rest, rfl, hnext, hsettings, -, -, htarget, -⟩ :=
      exists_turn_of_call hcall
    have hmem := target_mem_iff htarget
    obtain ⟨hpool, heq, hne, helapsed⟩ := target_eq_some_iff.mp htarget
    have hcons : InLimits ((some c).toList ++ s.calls) ↔
        pool.desired ≤ pass.settings.maxDesired + 1 := by
      rw [← hmem, ← hsettings]
      exact ⟨fun hall => hall c (.head _), fun hc => List.forall_mem_cons.mpr ⟨hc, hs⟩⟩
    rw [hcons]
    constructor
    · intro hle id' reply' pass' pool' rest' ha hnext' _ _ hfar
      obtain ⟨rfl, -⟩ := ScalerAct.adjust.inj ha
      obtain ⟨rfl, hrest⟩ := Prod.mk.inj (Option.some.inj (hnext.symm.trans hnext'))
      obtain ⟨rfl, -⟩ := Prod.mk.inj hrest
      omega
    · intro hnot
      by_contra hfar
      have habove : pass.settings.maxDesired < pool.desired := by omega
      have hgt := target_of_gt (busyByPool pass.workers pool.pool) pass.settings.ordered
        habove
      refine hnot id reply pass pool rest rfl hnext hpool helapsed (by omega) ?_
      by_contra hshrinks
      exact hne (heq.symm.trans (hgt.2 hshrinks))

/-- **Every target that is written is in the limits of its run exactly where no pool that is
above the maximum by more than one is made smaller; and with more busy workers no target is
lower.** -/
theorem inLimits_iff (lock : LeaderLock) {s : Autoscalers} (hs : s.calls = [])
    (acts : List (Nat × ScalerAct)) :
    ((autoscalers lock).Throughout (fun s => InLimits s.calls) s acts ↔
      (autoscalers lock).Meets NotFarAbove s acts) ∧
    ∀ (pool : PoolSummary) (busy busy' minDesired maxDesired : Int), busy ≤ busy' →
      calculatePoolTargetDesired pool busy minDesired maxDesired ≤
        calculatePoolTargetDesired pool busy' minDesired maxDesired := by
  constructor
  · refine System.throughout_iff_meets (I := fun _ => True) (fun _ _ _ _ _ => trivial) ?_
      trivial ?_
    · intro s a t _ hlimits hstep
      exact inLimits_step hstep hlimits
    · rw [hs]
      exact fun c hc => absurd hc List.not_mem_nil
  · intro pool busy busy' minDesired maxDesired hle
    exact calculatePoolTargetDesired_mono busy hle

end

/-! ## The pause -/

/-- The last change of a pool by an autoscaler. -/
def Autoscalers.lastChange (s : Autoscalers) (pool : Text) : Option Nat :=
  (s.calls.find? fun c => c.carriedOut && decide (c.pool = pool)).map (·.time)

/-- Between two changes of a pool there is the pause that was set at the later one. -/
def Spaced (calls : List SetCall) : Prop :=
  calls.Pairwise fun later earlier =>
    later.carriedOut = true → earlier.carriedOut = true → earlier.pool = later.pool →
      earlier.time + cooldown later.settings.toAutoscaleSettings ≤ later.time

/-- An instance that does not remember the last change of a pool, because another instance made
it, or because it was restarted since, or was not answered, lets the pause go by before it makes
the next one. -/
def WaitsUnaware (s : Autoscalers) (a : Nat × ScalerAct) : Prop :=
  ∀ id reply pass pool rest, a.2 = .adjust id reply → s.next id = some (pass, pool, rest) →
    ((s.service id).target pass a.1 pool).isSome = true → reply ≠ .failed →
    (s.service id).lastAction pool.pool ≠ s.lastChange pool.pool →
    elapsed pass.settings.toAutoscaleSettings a.1 (s.lastChange pool.pool) = true

/-- The calls stand in the order of their times. -/
structure Timed (s : Autoscalers) : Prop where
  sorted : s.calls.Pairwise fun later earlier => earlier.time ≤ later.time
  past : ∀ c ∈ s.calls, c.time ≤ s.clock

section

variable {lock : LeaderLock} {s t : Autoscalers} {now : Nat} {a : ScalerAct}

theorem timed_step (hs : Timed s) (h : (autoscalers lock).step s (now, a) = some t) :
    Timed t := by
  obtain ⟨hle, hclock, hcalls⟩ := step_calls h
  have hpast : ∀ c ∈ s.calls, c.time ≤ now := fun c hc => (hs.past c hc).trans hle
  rw [← hclock] at hpast
  cases hcall : s.call now a with
  | none =>
    rw [hcall] at hcalls
    exact ⟨hcalls ▸ hs.sorted, hcalls ▸ hpast⟩
  | some c =>
    rw [hcall] at hcalls
    obtain ⟨_, _, _, _, _, -, -, -, htime, -⟩ := exists_turn_of_call hcall
    have hnow : c.time = t.clock := htime.trans hclock.symm
    refine ⟨?_, ?_⟩
    · rw [hcalls]
      exact List.pairwise_cons.mpr ⟨fun e he => hnow ▸ hpast e he, hs.sorted⟩
    · rw [hcalls]
      exact List.forall_mem_cons.mpr ⟨hnow.le, hpast⟩

/-- The pause since every change is over when it is since the last one. -/
theorem elapsed_lastChange_iff (hs : Timed s) (hle : s.clock ≤ now)
    (settings : AutoscaleSettings) (pool : Text) :
    elapsed settings now (s.lastChange pool) = true ↔
      ∀ e ∈ s.calls, e.carriedOut = true → e.pool = pool → e.time + cooldown settings ≤ now := by
  rw [Autoscalers.lastChange]
  cases hfind : s.calls.find? fun c => c.carriedOut && decide (c.pool = pool) with
  | none =>
    refine ⟨fun _ e he hout hpool => ?_, fun _ => rfl⟩
    refine absurd (List.find?_eq_none.mp hfind e he) (not_not.mpr ?_)
    rw [hout, hpool, decide_eq_true rfl]
    rfl
  | some last =>
    obtain ⟨hlast, before, after, hsplit, hbefore⟩ := List.find?_eq_some_iff_append.mp hfind
    obtain ⟨hlastOut, hlastPool⟩ := Bool.and_eq_true_iff.mp hlast
    have hmem : last ∈ s.calls := by
      rw [hsplit]
      exact List.mem_append_right _ (.head _)
    have hpast : last.time ≤ now := (hs.past last hmem).trans hle
    have hsorted := hs.sorted
    rw [hsplit] at hsorted
    have hafter := (List.pairwise_cons.mp (List.pairwise_append.mp hsorted).2.1).1
    have helapsed : elapsed settings now (some last.time) = true ↔
        last.time + cooldown settings ≤ now := by
      show decide (cooldown settings ≤ now - last.time) = true ↔ _
      rw [decide_eq_true_iff]
      omega
    show elapsed settings now (some last.time) = true ↔ _
    rw [helapsed]
    constructor
    · intro hover e he hout hpool
      rw [hsplit] at he
      rcases List.mem_append.mp he with hbe | hrest
      · have hnot := hbefore e hbe
        rw [hout, hpool, decide_eq_true rfl] at hnot
        exact absurd hnot (by decide)
      · rcases List.mem_cons.mp hrest with rfl | haf
        · exact hover
        · have := hafter e haf
          omega
    · intro hall
      exact hall last hmem hlastOut (of_decide_eq_true hlastPool)

/-- No target is negative. -/
theorem target_nonneg {service : AutoScaleService} {pass : Pass} {pool : PoolSummary}
    {target : Int} (h : service.target pass now pool = some target) : 0 ≤ target := by
  obtain ⟨-, rfl, -, -⟩ := target_eq_some_iff.mp h
  have hord := pass.settings.ordered
  have hnonneg := pass.settings.nonneg
  by_cases hle : pool.desired ≤ pass.settings.maxDesired
  · have := target_mem_of_le (busyByPool pass.workers pool.pool) hord hle
    omega
  · have hgt := target_of_gt (busyByPool pass.workers pool.pool) hord (Int.not_le.mp hle)
    by_cases hshrinks : Shrinks pool (busyByPool pass.workers pool.pool)
    · rw [hgt.1 hshrinks]
      omega
    · rw [hgt.2 hshrinks]
      omega

/-- The autoscaler of a fleet with one control plane takes the same turns. -/
theorem adjust_fleetState {f : FleetState} {service : AutoScaleService}
    (h : f.lastAction = service.lastAction) (pass : Pass) (pool : PoolSummary) :
    (f.adjust pass.settings.toAutoscaleSettings now pass.workers (max pass.settings.minDesired 0)
      (max pass.settings.maxDesired (max pass.settings.minDesired 0)) pool).desiredCount =
        ((service.target pass now pool).elim f.desiredCount
          fun target => Function.update f.desiredCount pool.pool target) ∧
    (f.adjust pass.settings.toAutoscaleSettings now pass.workers (max pass.settings.minDesired 0)
      (max pass.settings.maxDesired (max pass.settings.minDesired 0)) pool).lastAction =
        ((service.target pass now pool).elim f.lastAction
          fun _ => Function.update f.lastAction pool.pool (some now)) := by
  have hpause : f.cooldownElapsed pass.settings.toAutoscaleSettings now pool.pool =
      service.cooldownElapsed pass.settings.toAutoscaleSettings now pool.pool := by
    rw [FleetState.cooldownElapsed, h]
    rfl
  cases htarget : service.target pass now pool with
  | none =>
    rw [FleetState.adjust, hpause]
    simp only [AutoScaleService.target] at htarget
    split_ifs at htarget with hpool hsame helapsed
    · rw [if_pos hpool]
      exact ⟨rfl, rfl⟩
    · dsimp only
      rw [if_neg hpool, if_pos (.inl hsame)]
      exact ⟨rfl, rfl⟩
    · dsimp only
      rw [if_neg hpool, if_pos (.inr (.inl helapsed))]
      exact ⟨rfl, rfl⟩
  | some target =>
    have hnonneg := target_nonneg htarget
    rw [FleetState.adjust, hpause]
    simp only [AutoScaleService.target] at htarget
    split_ifs at htarget with hpool hsame helapsed
    obtain rfl := Option.some.inj htarget
    dsimp only
    rw [if_neg hpool, if_neg]
    · exact ⟨rfl, rfl⟩
    · rintro (heq | hwait | hneg)
      · exact hsame heq
      · exact helapsed hwait
      · omega

theorem spaced_step (hs : Timed s) (hspaced : Spaced s.calls)
    (h : (autoscalers lock).step s (now, a) = some t) :
    Spaced t.calls ↔ WaitsUnaware s (now, a) := by
  obtain ⟨hle, -, hcalls⟩ := step_calls h
  rw [hcalls]
  cases hcall : s.call now a with
  | none =>
    refine ⟨fun _ id reply pass pool rest ha hnext hsome _ _ => ?_, fun _ => hspaced⟩
    obtain rfl : a = .adjust id reply := ha
    obtain ⟨target, htarget⟩ := Option.isSome_iff_exists.mp hsome
    rw [Autoscalers.call, hnext, Option.bind_some, htarget] at hcall
    cases hcall
  | some c =>
    obtain ⟨id, reply, pass, pool, rest, rfl, hnext, hsettings, htime, hpool, htarget, hout⟩ :=
      exists_turn_of_call hcall
    have hcarried : c.carriedOut = true ↔ reply ≠ .failed := by
      rw [hout]
      exact and_iff_left (target_nonneg htarget)
    -- what the new call adds is that the pause since the last change is over
    have hcons : Spaced ((some c).toList ++ s.calls) ↔ (reply ≠ .failed →
        elapsed pass.settings.toAutoscaleSettings now (s.lastChange pool.pool) = true) := by
      rw [elapsed_lastChange_iff hs hle, ← hcarried, ← hsettings, ← hpool, ← htime]
      constructor
      · intro hall hc e he hecarried hepool
        exact (List.pairwise_cons.mp hall).1 e he hc hecarried hepool
      · intro hall
        exact List.pairwise_cons.mpr ⟨fun e he hc => hall hc e he, hspaced⟩
    rw [hcons]
    constructor
    · intro hover id' reply' pass' pool' rest' ha hnext' _ hreply _
      obtain ⟨rfl, rfl⟩ := ScalerAct.adjust.inj ha
      obtain ⟨rfl, hrest⟩ := Prod.mk.inj (Option.some.inj (hnext.symm.trans hnext'))
      obtain ⟨rfl, -⟩ := Prod.mk.inj hrest
      exact hover hreply
    · intro hwaits hreply
      by_cases hknown : (s.service id).lastAction pool.pool = s.lastChange pool.pool
      · have hown := (target_eq_some_iff.mp htarget).2.2.2
        rw [AutoScaleService.cooldownElapsed, hknown] at hown
        exact hown
      · exact hwaits id reply pass pool rest rfl hnext (by rw [htarget]; rfl) hreply hknown

/-- **Two changes of a pool are never closer together than the pause between them exactly where
every instance that does not remember the last change lets the pause go by.** -/
theorem spaced_iff (lock : LeaderLock) {s : Autoscalers} (hs : s.calls = [])
    (acts : List (Nat × ScalerAct)) :
    (autoscalers lock).Throughout (fun s => Spaced s.calls) s acts ↔
      (autoscalers lock).Meets WaitsUnaware s acts := by
  have htimed : Timed s := ⟨hs ▸ List.Pairwise.nil, hs ▸ fun c hc => absurd hc List.not_mem_nil⟩
  have hspaced : Spaced s.calls := hs ▸ List.Pairwise.nil
  refine System.throughout_iff_meets (I := Timed) ?_ ?_ htimed hspaced
  · exact fun s a t hI hstep => timed_step hI hstep
  · exact fun s a t hI hP hstep => spaced_step hI hP hstep

/-! ## An instance that is not relieved -/

/-- The instance makes the changes, is not restarted, and gets its answers. -/
structure Alone (instanceID : Text) (a : ScalerAct) : Prop where
  only : ∀ id reply, a = .adjust id reply → id = instanceID ∧ reply ≠ .lost
  stays : a ≠ .restart instanceID

theorem service_setService_self (s : Autoscalers) (id : Text) (service : AutoScaleService) :
    (s.setService id service).service id = service := Function.update_self ..

theorem service_setService_of_ne (s : Autoscalers) (service : AutoScaleService) {id other : Text}
    (h : id ≠ other) : (s.setService other service).service id = s.service id :=
  Function.update_of_ne h ..

theorem lastAction_run (lock : LeaderLock) (now : Nat) (s : Autoscalers) (id other : Text)
    (reading : Option Reading) :
    ((s.run lock now other reading).service id).lastAction = (s.service id).lastAction := by
  rw [Autoscalers.run]
  split
  · rfl
  · split
    · rfl
    · split
      · rfl
      · by_cases hid : id = other
        · subst hid
          rw [service_setService_self]
        · rw [service_setService_of_ne _ _ hid]

/-- It remembers its changes. -/
theorem lastAction_step {id : Text} (ha : Alone id a)
    (h : (autoscalers lock).step s (now, a) = some t) (pool : Text) :
    (t.service id).lastAction pool =
      if ∃ c, s.call now a = some c ∧ c.carriedOut = true ∧ c.pool = pool then some now
      else (s.service id).lastAction pool := by
  rw [autoscalers] at h
  dsimp only at h
  split_ifs at h
  obtain ⟨u, hu, rfl⟩ := Option.map_eq_some_iff.mp h
  show (u.service id).lastAction pool = _
  have hsilent : s.call now a = none → (u.service id).lastAction = (s.service id).lastAction →
      (u.service id).lastAction pool =
        if ∃ c, s.call now a = some c ∧ c.carriedOut = true ∧ c.pool = pool then some now
        else (s.service id).lastAction pool := by
    intro hcall hsame
    rw [if_neg, hsame]
    rintro ⟨c, hc, -⟩
    rw [hcall] at hc
    cases hc
  cases a with
  | run other reading =>
    rw [Autoscalers.act] at hu
    split_ifs at hu
    obtain rfl := Option.some.inj hu
    exact hsilent rfl (lastAction_run ..)
  | restart other =>
    obtain rfl := Option.some.inj hu
    have hne : id ≠ other := fun heq => ha.stays (heq ▸ rfl)
    exact hsilent rfl (by rw [service_setService_of_ne _ _ hne])
  | setPoolDesiredCount other desired =>
    rw [Autoscalers.act] at hu
    split_ifs at hu <;> obtain rfl := Option.some.inj hu
    · exact hsilent rfl rfl
    · exact hsilent rfl rfl
  | saveRuntimeSettings settings =>
    obtain rfl := Option.some.inj hu
    exact hsilent rfl rfl
  | adjust other reply =>
    obtain ⟨rfl, hlost⟩ := ha.only other reply rfl
    obtain ⟨⟨pass, summary, rest⟩, hturn, rfl⟩ := Option.map_eq_some_iff.mp hu
    rw [Autoscalers.call, hturn, Option.bind_some]
    show ((s.adjust now other reply pass summary rest).service other).lastAction pool = _
    rw [Autoscalers.adjust]
    cases htarget : (s.service other).target pass now summary with
    | none =>
      rw [if_neg (by rintro ⟨c, hc, -⟩; cases hc)]
      show (Function.update s.service other _ other).lastAction pool = _
      rw [Function.update_self]
    | some target =>
      have hnonneg := target_nonneg htarget
      show (Function.update s.service other _ other).lastAction pool = _
      rw [Function.update_self]
      simp only [Option.map_some, Option.some.injEq, exists_eq_left', decide_eq_true_eq]
      cases reply with
      | lost => exact absurd rfl hlost
      | failed =>
        have hunanswered : ¬ (Reply.failed = Reply.answered ∧ 0 ≤ target) := by simp
        rw [if_neg hunanswered, if_neg fun h => h.1.1 rfl]
      | answered =>
        rw [if_pos ⟨rfl, hnonneg⟩]
        by_cases hpool : summary.pool = pool
        · rw [if_pos ⟨⟨by decide, hnonneg⟩, hpool⟩, ← hpool]
          exact Function.update_self ..
        · rw [if_neg fun h => hpool h.2]
          exact Function.update_of_ne (Ne.symm hpool) ..

/-- **As long as one instance makes the changes, is not restarted and gets its answers, the pause
between two of them is never shorter.** -/
theorem spaced_of_alone {id : Text} (hs : s.calls = [])
    (h : (autoscalers lock).Reaches (fun _ a => Alone id a.2) s t) : Spaced t.calls := by
  have hkept : Timed t ∧ Spaced t.calls ∧ ∀ pool, t.lastChange pool ≠ none →
      (t.service id).lastAction pool = t.lastChange pool := by
    refine h.invariant (P := fun t => Timed t ∧ Spaced t.calls ∧ ∀ pool,
      t.lastChange pool ≠ none → (t.service id).lastAction pool = t.lastChange pool)
      ⟨⟨?_, ?_⟩, ?_, ?_⟩ ?_
    · rw [hs]
      exact .nil
    · rw [hs]
      exact fun c hc => absurd hc List.not_mem_nil
    · rw [hs]
      exact .nil
    · intro pool hpool
      rw [Autoscalers.lastChange, hs] at hpool
      exact absurd rfl hpool
    · rintro u ⟨now, a⟩ v ⟨htimed, hspaced, hremembers⟩ halone hstep
      obtain ⟨hle, -, hcalls⟩ := step_calls hstep
      refine ⟨timed_step htimed hstep, (spaced_step htimed hspaced hstep).mpr ?_, ?_⟩
      · intro other reply pass pool rest ha _ _ _ hunaware
        obtain ⟨rfl, -⟩ := halone.only other reply ha
        have hnone : u.lastChange pool.pool = none := by
          by_contra hsome
          exact hunaware (hremembers pool.pool hsome)
        rw [hnone]
        rfl
      · intro pool hpool
        rw [lastAction_step halone hstep]
        rw [Autoscalers.lastChange, hcalls] at hpool ⊢
        cases hcall : u.call now a with
        | none =>
          rw [hcall] at hpool
          rw [if_neg (by rintro ⟨c, hc, -⟩; cases hc)]
          exact hremembers pool hpool
        | some c =>
          rw [hcall] at hpool
          obtain ⟨_, _, _, _, _, -, -, -, htime, -⟩ := exists_turn_of_call hcall
          by_cases hown : c.carriedOut = true ∧ c.pool = pool
          · rw [if_pos ⟨c, rfl, hown⟩]
            show _ = (List.find? _ (c :: u.calls)).map _
            rw [List.find?_cons_of_pos (by rw [hown.1, decide_eq_true hown.2]; rfl)]
            exact congrArg some htime.symm
          · have hskip : ¬ (c.carriedOut && decide (c.pool = pool)) = true := by
              rw [Bool.and_eq_true_iff, decide_eq_true_iff]
              exact hown
            have hfind : ((some c).toList ++ u.calls).find?
                (fun c => c.carriedOut && decide (c.pool = pool)) = u.calls.find?
                  (fun c => c.carriedOut && decide (c.pool = pool)) :=
              List.find?_cons_of_neg hskip
            rw [hfind] at hpool ⊢
            rw [if_neg]
            · exact hremembers pool hpool
            · rintro ⟨d, hd, hdown⟩
              exact hown (Option.some.inj hd ▸ hdown)
  exact hkept.2.1

end

/-! ## Two runs -/

instance (calls : List SetCall) : Decidable (InLimits calls) :=
  inferInstanceAs (Decidable (∀ c ∈ calls, _))

instance (calls : List SetCall) : Decidable (Spaced calls) :=
  inferInstanceAs (Decidable (List.Pairwise _ calls))

/-- A worker of the pool `main` that has nothing to do. -/
def idleWorker (poolHealthHint : ℚ) : WorkerSummary where
  workerID := "w1".toList
  pool := "main".toList
  status := some .running
  desiredState := .running
  quarantined := false
  lastHeartbeat := 0
  currentJobID := []
  currentChunkID := []
  poolHealthHint := poolHealthHint

/-- What a run reads of five such workers. -/
def fiveIdle (poolHealthHint : ℚ) : Reading where
  known := ["main".toList]
  counted := List.replicate 5 (idleWorker poolHealthHint)
  workers := []

/-- Twenty workers were wanted before the maximum was set to ten. -/
def loweredMaximum : Autoscalers where
  settings := { minDesired := 1 }
  desiredCount _ := 20

def sickRun : List (Nat × ScalerAct) :=
  [(second, .run "a".toList (some (fiveIdle (1 / 10)))), (second, .adjust "a".toList .answered)]

theorem inLimits_iff_lowered :
    ((autoscalers {}).Throughout (fun s => InLimits s.calls) loweredMaximum sickRun ↔
      (autoscalers {}).Meets NotFarAbove loweredMaximum sickRun) ∧
    ∀ (pool : PoolSummary) (busy busy' minDesired maxDesired : Int), busy ≤ busy' →
      calculatePoolTargetDesired pool busy minDesired maxDesired ≤
        calculatePoolTargetDesired pool busy' minDesired maxDesired :=
  inLimits_iff {} rfl sickRun

/-- Nineteen are written. -/
theorem limit_passed :
    ¬ (autoscalers {}).Throughout (fun s => InLimits s.calls) loweredMaximum sickRun := by
  decide +kernel

/-- Five workers for five that are wanted. -/
def fiveWanted : Autoscalers where
  settings := { minDesired := 1 }
  desiredCount _ := 5

/-- The lease of the first instance runs out, and a second takes over. -/
def takeover : List (Nat × ScalerAct) :=
  [(second, .run "a".toList (some (fiveIdle 1))), (second, .adjust "a".toList .answered),
    (47 * second, .run "b".toList (some (fiveIdle 1))),
    (47 * second, .adjust "b".toList .answered)]

theorem spaced_iff_takeover :
    (autoscalers {}).Throughout (fun s => Spaced s.calls) fiveWanted takeover ↔
      (autoscalers {}).Meets WaitsUnaware fiveWanted takeover :=
  spaced_iff {} rfl takeover

/-- It changes the pool after 46 of 120 seconds. -/
theorem pause_cut :
    ¬ (autoscalers {}).Throughout (fun s => Spaced s.calls) fiveWanted takeover := by
  decide +kernel

end ValidEmailVerifier.Fleet.Scaling
