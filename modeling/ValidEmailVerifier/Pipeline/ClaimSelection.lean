/-
# `Pipeline.ClaimSelection` — which chunk an engine worker is handed

`selectClaimableChunk` looks at the fifty oldest candidates.  For a worker of the probe stage it
ranks them by a score over the worker's pool and affinity, and then, if the first is a retry that
would go the route it has gone before, takes the first retry that would not.

`Machine.claim` allows any candidate to be claimed, so the selection here is one of its steps
(`isCandidate_of_selected`).
-/
import Mathlib.Data.Prod.Lex
import ValidEmailVerifier.Lib.Ranking
import ValidEmailVerifier.Pipeline.VerifierChunkControllers
import ValidEmailVerifier.Pipeline.ScreeningToProbeChunkPlanner

namespace ValidEmailVerifier.ClaimNext

open Text

/-! ## Pools and their profiles -/

/-- `EngineWorkerPool::PROFILES`. -/
inductive Profile where
  | standard | lowHit | warmup
  deriving DecidableEq, Repr

def profileName : Profile → Text
  | .standard => "standard".toList
  | .lowHit => "low_hit".toList
  | .warmup => "warmup".toList

/-- A row of `engine_worker_pools`. -/
structure WorkerPool where
  slug : Text
  isActive : Bool := true
  isDefault : Bool := false
  providerProfiles : List (Provider × Text) := []
  deriving DecidableEq, Repr

/-- `normalizedProviderProfiles`. -/
def WorkerPool.normalizedProviderProfile (pool : WorkerPool) (provider : Provider) : Profile :=
  let profile := strtolower (trim ((pool.providerProfiles.lookup provider).getD []))
  ([.standard, .lowHit, .warmup].find? (fun p => profileName p == profile)).getD .standard

/-- `resolveDefaultSlug`. -/
def resolveDefaultSlug (pools : List WorkerPool) : Text :=
  let slug := trim (((pools.find? (·.isDefault)).map (·.slug)).getD [])
  if slug = [] then "default".toList else slug

/-- `providerProfileForPool`, without the minute for which it is cached. -/
def providerProfileForPool (pools : List WorkerPool) (poolSlug : Option Text)
    (provider : Provider) : Profile :=
  let slug := strtolower (trim (poolSlug.getD []))
  let slug := if slug = [] then resolveDefaultSlug pools else slug
  match pools.find? (fun pool => pool.isActive && pool.slug == slug) with
  | some pool => pool.normalizedProviderProfile provider
  | none =>
      match pools.find? (·.isDefault) with
      | some fallback => fallback.normalizedProviderProfile provider
      | none => .standard

/-! ## The score -/

/-- What the selection reads from `config` and from the table of pools. -/
structure Routing where
  probeRoutingEnabled : Bool := true
  probeRotationRetryEnabled : Bool := true
  retryAntiAffinityHardEnabled : Bool := true
  affinity : Int := 40
  antiAffinity : Int := 60
  preferredPool : Int := 30
  retryBonus : Int := 10
  probeProviderPreferredPools : Text := []
  /-- `engine.pool_policy_profiles`. -/
  routingBonus : Profile → Int := fun
    | .standard => 0
    | .lowHit => 20
    | .warmup => 10
  pools : List WorkerPool := []

/-- The worker that asks. -/
structure Worker where
  id : Text
  pool : Option Text := none
  providerAffinity : Option Provider := none
  deriving DecidableEq, Repr

/-- `providerPreferredPoolFromConfig`. -/
def providerPreferredPoolFromConfig (ρ : Routing) (provider : Provider) : Option Text :=
  let entries := (ρ.probeProviderPreferredPools.splitOn ',').map trim
  let entry := entries.find? fun entry =>
    entry.contains ':' &&
      strtolower (trim (before ':' entry)) ==
        ScreeningToProbeChunkPlanner.providerName provider
  entry.bind fun entry =>
    let pool := trim (after ':' entry)
    if pool = [] then none else some pool

/-- `normalizeString`. -/
def normalizeString (value : Option Text) : Option Text :=
  let normalized := trim (value.getD [])
  if normalized = [] then none else some normalized

/-- `$normalizedLastWorkerIds`. -/
def normalizedLastWorkerIds (chunk : Chunk) : List Text :=
  (chunk.lastWorkerIds.map trim).filter fun id => id ≠ [] ∧ id ≠ ['0']

/-- `routingScore`. -/
def routingScore (ρ : Routing) (worker : Worker) (chunk : Chunk) : Int :=
  let chunkProvider := chunk.routingProvider
  let profileBonus := match chunkProvider with
    | some provider =>
        max 0 (ρ.routingBonus (providerProfileForPool ρ.pools worker.pool provider))
    | none => 0
  let chunkPreferredPool := normalizeString chunk.preferredPool <|>
    chunkProvider.bind (providerPreferredPoolFromConfig ρ)
  let affinity := if worker.providerAffinity ≠ none ∧
    worker.providerAffinity = chunkProvider then max 0 ρ.affinity else 0
  let preferred := if worker.pool ≠ none ∧ worker.pool = chunkPreferredPool then
    max 0 ρ.preferredPool else 0
  let antiAffinity := if ρ.probeRotationRetryEnabled ∧
    worker.id ∈ normalizedLastWorkerIds chunk then max 0 ρ.antiAffinity else 0
  let retryBonus := if 0 < chunk.retryAttempt then max 0 ρ.retryBonus else 0
  profileBonus + affinity + preferred - antiAffinity + retryBonus

/-! ## The selection -/

/-- The comparison `$candidates` are sorted by. -/
def compareRanked (ρ : Routing) (worker : Worker) (a b : Chunk) : Ordering :=
  if routingScore ρ worker a ≠ routingScore ρ worker b then
    compare (routingScore ρ worker b) (routingScore ρ worker a)
  else if a.createdAt ≠ b.createdAt then
    if a.createdAt < b.createdAt then .lt else .gt
  else compare a.chunkNo b.chunkNo

/-- `$a` does not come after `$b`. -/
def Ranked (ρ : Routing) (worker : Worker) (a b : Chunk) : Prop :=
  compareRanked ρ worker a b ≠ .gt

instance (ρ : Routing) (worker : Worker) : DecidableRel (Ranked ρ worker) := fun a b =>
  inferInstanceAs (Decidable (compareRanked ρ worker a b ≠ .gt))

/-- The older of two chunks comes first. -/
def Older (a b : Chunk) : Prop := a.createdAt ≤ b.createdAt

instance : DecidableRel Older := fun a b => inferInstanceAs (Decidable (a.createdAt ≤ b.createdAt))

/-- The result of the query: the order of `chunks` is that in which the database returns rows of
the same time. -/
def candidates (now : Nat) (capability : Capability) (chunks : List Chunk) : List Chunk :=
  ((chunks.filter (isCandidate now capability)).insertionSort Older).take 50

/-- `retryTouchesCurrentRoute`. -/
def retryTouchesCurrentRoute (worker : Worker) (chunk : Chunk) : Bool :=
  let sameWorker := worker.id ∈ normalizedLastWorkerIds chunk
  let samePool := worker.pool ≠ none ∧ worker.pool = normalizeString chunk.preferredPool
  sameWorker ∨ samePool

/-- The alternatives to a retry on the worker's route. -/
def isAlternative (worker : Worker) (candidate : Chunk) : Bool :=
  decide (0 < candidate.retryAttempt) && !retryTouchesCurrentRoute worker candidate

/-- `selectClaimableChunk`. -/
def selectClaimableChunk (ρ : Routing) (now : Nat) (capability : Capability) (worker : Worker)
    (chunks : List Chunk) : Option Chunk :=
  let candidates := candidates now capability chunks
  if candidates = [] then none
  else if ¬ (ρ.probeRoutingEnabled ∧ capability = .smtpProbe) then candidates.head?
  else
    let ranked := candidates.insertionSort (Ranked ρ worker)
    match ranked.head? with
    | none => none
    | some selected =>
        if ρ.probeRotationRetryEnabled = false then some selected
        else if ρ.retryAntiAffinityHardEnabled = false then some selected
        else if selected.retryAttempt = 0 then some selected
        else if retryTouchesCurrentRoute worker selected = false then some selected
        else some ((ranked.find? (isAlternative worker)).getD selected)

/-! ## The ranking is a preorder -/

section Ranking
variable {ρ : Routing} {worker : Worker}

/-- What a chunk is ranked by. -/
def rank (ρ : Routing) (worker : Worker) (c : Chunk) : Int ×ₗ Nat ×ₗ Nat :=
  toLex (-routingScore ρ worker c, toLex (c.createdAt, c.chunkNo))

theorem ranked_iff {a b : Chunk} : Ranked ρ worker a b ↔ rank ρ worker a ≤ rank ρ worker b := by
  rw [Ranked, compareRanked, rank, rank, Prod.Lex.toLex_le_toLex, Prod.Lex.toLex_le_toLex]
  dsimp only
  by_cases hscore : routingScore ρ worker a = routingScore ρ worker b
  · rw [if_neg (not_not.mpr hscore), hscore]
    by_cases hcreated : a.createdAt = b.createdAt
    · rw [if_neg (not_not.mpr hcreated), hcreated, Ne, compare_gt_iff_gt]
      omega
    · rw [if_pos hcreated]
      split
      next hlt => simp [hlt]
      next hlt =>
        simp only [ne_eq, not_true_eq_false, false_iff]
        omega
  · rw [if_pos hscore, Ne, compare_gt_iff_gt]
    omega

instance : Std.Total (Ranked ρ worker) where
  total a b := by
    rw [ranked_iff, ranked_iff]
    exact le_total _ _

instance : IsTrans Chunk (Ranked ρ worker) where
  trans a b c := by
    rw [ranked_iff, ranked_iff, ranked_iff]
    exact le_trans

instance : Std.Total Older where
  total a b := Nat.le_total a.createdAt b.createdAt

instance : IsTrans Chunk Older where
  trans _ _ _ := Nat.le_trans

/-- A chunk goes before another by its score, then by its age, then by its number. -/
def Outranks (ρ : Routing) (worker : Worker) (a b : Chunk) : Prop :=
  routingScore ρ worker b < routingScore ρ worker a ∨
    (routingScore ρ worker a = routingScore ρ worker b ∧
      (a.createdAt < b.createdAt ∨ (a.createdAt = b.createdAt ∧ a.chunkNo < b.chunkNo)))

theorem ranked_iff_not_outranks {a b : Chunk} :
    Ranked ρ worker a b ↔ ¬ Outranks ρ worker b a := by
  rw [ranked_iff, rank, rank, Prod.Lex.toLex_le_toLex, Prod.Lex.toLex_le_toLex, Outranks]
  dsimp only
  omega

end Ranking

/-! ## What is handed out -/

/-- `c` is first in the window among the chunks with `p`. -/
def First (ρ : Routing) (worker : Worker) (p : Chunk → Prop) (window : List Chunk)
    (c : Chunk) : Prop :=
  c ∈ window ∧ p c ∧ ∀ d ∈ window, p d → ¬ Outranks ρ worker d c

def IsRetry (c : Chunk) : Prop := 0 < c.retryAttempt

/-- The worker is among the last workers of the chunk, or the chunk prefers its pool. -/
def Touches (worker : Worker) (c : Chunk) : Prop :=
  worker.id ∈ normalizedLastWorkerIds c ∨
    ∃ pool, worker.pool = some pool ∧ normalizeString c.preferredPool = some pool

/-- Retries are kept off the route they have gone. -/
def HardAntiAffinity (ρ : Routing) : Prop :=
  ρ.probeRotationRetryEnabled = true ∧ ρ.retryAntiAffinityHardEnabled = true

/-- The first chunk is not to be handed out if there is an alternative. -/
def Detours (ρ : Routing) (worker : Worker) (top : Chunk) : Prop :=
  HardAntiAffinity ρ ∧ IsRetry top ∧ Touches worker top

/-- A retry that avoids the worker's route. -/
def Avoids (worker : Worker) (c : Chunk) : Prop := IsRetry c ∧ ¬ Touches worker c

/-- What the selection says of the chunk it takes from a window. -/
structure Handed (ρ : Routing) (worker : Worker) (window : List Chunk) (c : Chunk) : Prop where
  mem : c ∈ window
  first : ∃ top, First ρ worker (fun _ => True) window top ∧
    (¬ Detours ρ worker top → c = top) ∧
    (Detours ρ worker top → First ρ worker (Avoids worker) window c ∨
      ((∀ d ∈ window, ¬ Avoids worker d) ∧ c = top))
  avoids : HardAntiAffinity ρ → IsRetry c → Touches worker c → ∀ d ∈ window, ¬ Avoids worker d

section Selection
variable {ρ : Routing} {worker : Worker}

theorem touches_iff {c : Chunk} : retryTouchesCurrentRoute worker c = true ↔ Touches worker c := by
  unfold retryTouchesCurrentRoute Touches
  rw [decide_eq_true_iff]
  refine or_congr_right ?_
  cases hpool : worker.pool with
  | none => simp
  | some pool => simp [eq_comm]

theorem isAlternative_iff {c : Chunk} : isAlternative worker c = true ↔ Avoids worker c := by
  rw [isAlternative, Bool.and_eq_true, decide_eq_true_iff, Bool.not_eq_true', ← Bool.not_eq_true,
    touches_iff]
  rfl

theorem first_of_top {window : List Chunk} {c : Chunk}
    (h : Ranking.Top (Ranked ρ worker) window c) :
    First ρ worker (fun _ => True) window c :=
  ⟨h.1, trivial, fun d hd _ => ranked_iff_not_outranks.mp (h.2 d hd)⟩

theorem first_of_find {window : List Chunk} {c : Chunk}
    (h : Ranking.Top (Ranked ρ worker) (window.filter (isAlternative worker)) c) :
    First ρ worker (Avoids worker) window c := by
  obtain ⟨hmem, halt⟩ := List.mem_filter.mp h.1
  refine ⟨hmem, isAlternative_iff.mp halt, fun d hd havoids => ?_⟩
  exact ranked_iff_not_outranks.mp
    (h.2 d (List.mem_filter.mpr ⟨hd, isAlternative_iff.mpr havoids⟩))

/-- The first chunk of a window is handed out unless it detours. -/
theorem Handed.of_first {window : List Chunk} {top : Chunk}
    (hfirst : First ρ worker (fun _ => True) window top) (hstays : ¬ Detours ρ worker top) :
    Handed ρ worker window top where
  mem := hfirst.1
  first := ⟨top, hfirst, fun _ => rfl, fun h => absurd h hstays⟩
  avoids hhard hretry htouches := absurd ⟨hhard, hretry, htouches⟩ hstays

theorem candidates_eq_nil_iff {now : Nat} {capability : Capability} {chunks : List Chunk} :
    candidates now capability chunks = [] ↔ ∀ c ∈ chunks, isCandidate now capability c = false := by
  rw [candidates, List.take_eq_nil_iff, or_iff_right (by decide),
    ← List.length_eq_zero_iff, List.length_insertionSort, List.length_eq_zero_iff,
    List.filter_eq_nil_iff]
  simp

/-- The first chunk stays, unless it detours. -/
theorem detour_iff {top alternative c : Chunk} :
    (if ρ.probeRotationRetryEnabled = false then some top
      else if ρ.retryAntiAffinityHardEnabled = false then some top
      else if top.retryAttempt = 0 then some top
      else if retryTouchesCurrentRoute worker top = false then some top
      else some alternative) = some c ↔
        (¬ Detours ρ worker top ∧ c = top) ∨ (Detours ρ worker top ∧ c = alternative) := by
  have hdetours : Detours ρ worker top ↔ ρ.probeRotationRetryEnabled ≠ false ∧
      ρ.retryAntiAffinityHardEnabled ≠ false ∧ top.retryAttempt ≠ 0 ∧
      retryTouchesCurrentRoute worker top ≠ false := by
    simp [Detours, HardAntiAffinity, IsRetry, Nat.pos_iff_ne_zero, ← touches_iff, and_assoc]
  rw [hdetours]
  by_cases hrotation : ρ.probeRotationRetryEnabled = false
  · simp [hrotation, @eq_comm _ top c]
  by_cases hhard : ρ.retryAntiAffinityHardEnabled = false
  · simp [hrotation, hhard, @eq_comm _ top c]
  by_cases hretry : top.retryAttempt = 0
  · simp [hrotation, hhard, hretry, @eq_comm _ top c]
  by_cases htouches : retryTouchesCurrentRoute worker top = false
  · simp [hrotation, hhard, hretry, htouches, @eq_comm _ top c]
  · simp [hrotation, hhard, hretry, htouches, @eq_comm _ alternative c]

/-- **What a worker of the probe stage is handed**: of the fifty oldest candidates the first, or,
if that is a retry on the worker's own route, the first retry that avoids it, where there is
one. -/
theorem selectClaimableChunk_handed (hrouting : ρ.probeRoutingEnabled = true) (now : Nat)
    (chunks : List Chunk) :
    Ranking.Window Older 50 (chunks.filter (isCandidate now .smtpProbe))
        (candidates now .smtpProbe chunks) ∧
      match selectClaimableChunk ρ now .smtpProbe worker chunks with
      | none => ∀ c ∈ chunks, isCandidate now .smtpProbe c = false
      | some c => Handed ρ worker (candidates now .smtpProbe chunks) c := by
  refine ⟨Ranking.window_take 50 _, ?_⟩
  unfold selectClaimableChunk
  dsimp only
  by_cases hnil : candidates now .smtpProbe chunks = []
  · rw [if_pos hnil]
    exact candidates_eq_nil_iff.mp hnil
  rw [if_neg hnil, if_neg (not_not.mpr ⟨hrouting, rfl⟩)]
  generalize hwindow : candidates now .smtpProbe chunks = window at hnil
  cases hhead : (window.insertionSort (Ranked ρ worker)).head? with
  | none =>
    rw [List.head?_eq_none_iff, ← List.length_eq_zero_iff, List.length_insertionSort,
      List.length_eq_zero_iff] at hhead
    exact absurd hhead hnil
  | some top =>
    have hfirst := first_of_top (Ranking.top_head hhead)
    dsimp only
    by_cases hdetours : Detours ρ worker top
    · rw [detour_iff.mpr (.inr ⟨hdetours, rfl⟩)]
      cases hfind : (window.insertionSort (Ranked ρ worker)).find? (isAlternative worker) with
      | some alternative =>
        have halt := first_of_find (Ranking.top_find hfind)
        exact {
          mem := halt.1
          first := ⟨top, hfirst, fun h => absurd hdetours h, fun _ => .inl halt⟩
          avoids := fun _ _ htouches => absurd htouches halt.2.1.2 }
      | none =>
        have hnone : ∀ d ∈ window, ¬ Avoids worker d := by
          intro d hd havoids
          have hin := (List.perm_insertionSort (Ranked ρ worker) window).mem_iff.mpr hd
          exact List.find?_eq_none.mp hfind d hin (isAlternative_iff.mpr havoids)
        exact {
          mem := hfirst.1
          first := ⟨top, hfirst, fun _ => rfl, fun _ => .inr ⟨hnone, rfl⟩⟩
          avoids := fun _ _ _ => hnone }
    · rw [detour_iff.mpr (.inl ⟨hdetours, rfl⟩)]
      exact .of_first hfirst hdetours

/-- Whoever asks, what is handed out is a candidate. -/
theorem isCandidate_of_selected {now : Nat} {capability : Capability} {chunks : List Chunk}
    {c : Chunk} (h : selectClaimableChunk ρ now capability worker chunks = some c) :
    c ∈ chunks ∧ isCandidate now capability c = true := by
  have hwindow := Ranking.window_take (r := Older) 50 (chunks.filter (isCandidate now capability))
  suffices hmem : c ∈ candidates now capability chunks from
    List.mem_filter.mp (hwindow.mem c hmem)
  unfold selectClaimableChunk at h
  dsimp only at h
  split at h
  · exact nomatch h
  · split at h
    · exact List.mem_of_mem_head? h
    · have hsorted : ∀ d, d ∈ (candidates now capability chunks).insertionSort
          (Ranked ρ worker) → d ∈ candidates now capability chunks := fun d =>
        (List.perm_insertionSort _ _).mem_iff.mp
      split at h
      · exact nomatch h
      next selected hhead =>
        have hselected := hsorted selected (List.mem_of_mem_head? hhead)
        rcases detour_iff.mp h with ⟨-, rfl⟩ | ⟨-, rfl⟩
        · exact hselected
        cases hfind : ((candidates now capability chunks).insertionSort (Ranked ρ worker)).find?
            (isAlternative worker) with
        | none => exact hselected
        | some alternative => exact hsorted alternative (List.mem_of_find?_eq_some hfind)

end Selection

/-- A chunk of the probe stage that waits for a worker. -/
def waiting (chunkNo retryAttempt : Nat) (lastWorkerIds : List Text) : Chunk where
  id := chunkNo
  chunkNo := chunkNo
  processingStage := some .smtpProbe
  inputKey := .chunkInput chunkNo
  retryAttempt := retryAttempt
  lastWorkerIds := lastWorkerIds
  createdAt := chunkNo

/-- A retry that the worker has had before, and one that it has not. -/
theorem selectClaimableChunk_handed_two :
    Handed {} ⟨"w1".toList, none, none⟩ [waiting 1 1 ["w1".toList], waiting 2 1 []]
      (waiting 2 1 []) := by
  have h := (@selectClaimableChunk_handed {} ⟨"w1".toList, none, none⟩ rfl 5
    [waiting 1 1 ["w1".toList], waiting 2 1 []]).2
  have hwindow : candidates 5 .smtpProbe [waiting 1 1 ["w1".toList], waiting 2 1 []] =
      [waiting 1 1 ["w1".toList], waiting 2 1 []] := by decide
  have hselected : selectClaimableChunk {} 5 .smtpProbe ⟨"w1".toList, none, none⟩
      [waiting 1 1 ["w1".toList], waiting 2 1 []] = some (waiting 2 1 []) := by decide
  rwa [hselected, hwindow] at h

/-- Without routing the older chunk is handed out although the younger outranks it; and a worker
called `0` is handed a retry that it had before, although another retry avoids it. -/
theorem selectClaimableChunk_fails :
    (selectClaimableChunk { probeRoutingEnabled := false } 5 .smtpProbe ⟨"w1".toList, none, none⟩
        [waiting 1 0 [], waiting 2 1 []] = some (waiting 1 0 []) ∧
      Outranks { probeRoutingEnabled := false } ⟨"w1".toList, none, none⟩ (waiting 2 1 [])
        (waiting 1 0 [])) ∧
    selectClaimableChunk {} 5 .smtpProbe ⟨"0".toList, none, none⟩
        [waiting 1 1 ["0".toList], waiting 2 1 []] = some (waiting 1 1 ["0".toList]) ∧
      Avoids ⟨"0".toList, none, none⟩ (waiting 2 1 []) := by
  refine ⟨⟨by decide, .inl (by decide)⟩, by decide, Nat.zero_lt_one, ?_⟩
  exact fun h => absurd (touches_iff.mpr h) (by decide)

end ValidEmailVerifier.ClaimNext
