/-
# `Fleet.EnginePools` — the default pool

`EnginePoolController` keeps the pools of engine workers.  A pool is loaded when its request
arrives, and saved later, with the attributes that differ from what was loaded; requests may come
in between.  One pool is to be the default, and active: it stands in for every pool that is not
there.

There is never more than one default pool (`Sound`).  There is one, and it is active, exactly as
long as no request deactivates a pool that has become the default since it was loaded, makes a
pool the default that has been deactivated since, or makes the default pool the default once more
(`settledThroughout_iff`): the last one takes the mark from every pool, and saves the pool without
it, as it was loaded with the mark.

A pool that is stored or updated is the policy of the workers that name it (`policy_of_request`).
-/
import ValidEmailVerifier.Lib.Table
import ValidEmailVerifier.Lib.Transition
import ValidEmailVerifier.Pipeline.ClaimSelection

namespace ValidEmailVerifier.EnginePools

open Text Transition
open ClaimNext (WorkerPool Profile profileName providerProfileForPool resolveDefaultSlug)

/-! ## Pools -/

/-- A row of `engine_worker_pools`. -/
structure EngineWorkerPool extends WorkerPool where
  id : Nat
  name : Text
  deriving DecidableEq, Repr

structure EngineServer where
  id : Nat
  workerPoolId : Nat
  deriving DecidableEq, Repr

/-- `EngineWorkerPool::PROVIDERS`. -/
def providers : List Provider := [.generic, .gmail, .microsoft, .yahoo]

/-- `EngineWorkerPool::PROFILES`. -/
def profiles : List Profile := [.standard, .lowHit, .warmup]

/-! ## `EnginePoolUpsertRequest` -/

/-- What is submitted. -/
structure Input where
  slug : Text
  name : Text
  isActive : Bool := true
  isDefault : Bool := false
  providerProfiles : List (Provider × Text) := []
  deriving DecidableEq, Repr

/-- What the controller is given: `none` for a key that is not there. -/
structure Payload where
  slug : Text
  name : Text
  isActive : Bool
  isDefault : Option Bool
  providerProfiles : List (Provider × Text)
  deriving DecidableEq, Repr

def isSlugStart (c : Char) : Bool := c.isLower || c.isDigit

/-- `/^[a-z0-9][a-z0-9_-]*$/`, and `max:64`. -/
def isSlug : Text → Bool
  | [] => false
  | c :: cs => isSlugStart c && cs.all (fun c => isSlugStart c || c == '_' || c == '-') &&
      decide (cs.length < 64)

/-- A profile, or `standard`. -/
def preparedProfile (value : Text) : Text :=
  let value := strtolower (trim value)
  if value ∈ profiles.map profileName then value else profileName .standard

/-- `prepareForValidation`. -/
def prepareForValidation (input : Input) : Input :=
  { input with
    slug := strtolower (trim input.slug)
    name := trim input.name
    providerProfiles := providers.map fun provider =>
      (provider, preparedProfile ((input.providerProfiles.lookup provider).getD [])) }

/-- `validated`: the keys that have rules, and `is_default` has none.  `taken` are the slugs of
the other pools. -/
def validated (taken : List Text) (input : Input) : Option Payload :=
  let input := prepareForValidation input
  if isSlug input.slug ∧ input.slug ∉ taken ∧ input.name ≠ [] ∧ input.name.length ≤ 255 then
    some ⟨input.slug, input.name, input.isActive, none, input.providerProfiles⟩
  else none

/-! ## `EnginePoolController` -/

/-- A request with what it has been given, and the pool as it was loaded. -/
inductive Request where
  | store (payload : Payload)
  | update (pool : EngineWorkerPool) (payload : Payload)
  | archive (pool : EngineWorkerPool)
  | setDefault (pool : EngineWorkerPool)
  deriving DecidableEq, Repr

/-- The tables, and the requests that are under way. -/
structure Pools where
  rows : List EngineWorkerPool
  servers : List EngineServer := []
  nextId : Nat
  waiting : List Request := []
  deriving DecidableEq, Repr

/-- An answer that leaves everything as it is: a conflict with its code, or an exception. -/
inductive Failure where
  | conflict (errorCode : Text)
  | queryException
  deriving DecidableEq, Repr

def poolDefaultInactive : Failure := .conflict "pool_default_inactive".toList

def poolArchiveBlocked : Failure := .conflict "pool_archive_blocked".toList

def poolInactive : Failure := .conflict "pool_inactive".toList

namespace Pools

def find (s : Pools) (id : Nat) : Option EngineWorkerPool := Table.find (·.id) s.rows id

/-- The slugs of the other pools. -/
def taken (s : Pools) (id : Option Nat) : List Text :=
  (s.rows.filter fun row => some row.id ≠ id).map (·.slug)

/-- `EngineWorkerPool::query()->update(['is_default' => false])`. -/
def clearDefault (s : Pools) : Pools :=
  { s with rows := s.rows.map fun row => { row with isDefault := false } }

end Pools

/-- The attributes of a pool that are written when `filled` is saved. -/
def saved (pool filled row : EngineWorkerPool) : EngineWorkerPool :=
  { row with
    slug := dirty pool.slug filled.slug row.slug
    name := dirty pool.name filled.name row.name
    isActive := dirty pool.isActive filled.isActive row.isActive
    isDefault := dirty pool.isDefault filled.isDefault row.isDefault
    providerProfiles := dirty pool.providerProfiles filled.providerProfiles row.providerProfiles }

/-- `save`, of a pool that was loaded.  The column of the slugs is unique. -/
def Pools.save (s : Pools) (pool filled : EngineWorkerPool) : Except Failure Pools :=
  if filled.slug ≠ pool.slug ∧ filled.slug ∈ s.taken (some pool.id) then .error .queryException
  else .ok { s with rows := Table.update (·.id) s.rows pool.id (saved pool filled) }

def Pools.store (s : Pools) (payload : Payload) : Except Failure Pools :=
  let isDefault := payload.isDefault.getD false
  let isActive := isDefault || payload.isActive
  let s := if isDefault then s.clearDefault else s
  if payload.slug ∈ s.taken none then .error .queryException
  else
    .ok { s with
      rows := s.rows ++
        [{ id := s.nextId
           slug := payload.slug
           name := payload.name
           isActive := isActive
           isDefault := isDefault || !s.rows.any (·.isDefault)
           providerProfiles := payload.providerProfiles }]
      nextId := s.nextId + 1 }

def Pools.update (s : Pools) (pool : EngineWorkerPool) (payload : Payload) :
    Except Failure Pools :=
  let isDefault := payload.isDefault.getD false
  let isActive := isDefault || payload.isActive
  if (pool.isDefault || isDefault) && !isActive then .error poolDefaultInactive
  else
    let s := if isDefault then
        { s with rows := s.rows.map fun row =>
            if row.id = pool.id then row else { row with isDefault := false } }
      else s
    s.save pool { pool with
      slug := payload.slug
      name := payload.name
      isActive := isActive
      isDefault := isDefault || pool.isDefault
      providerProfiles := payload.providerProfiles }

def Pools.archive (s : Pools) (pool : EngineWorkerPool) : Except Failure Pools :=
  if pool.isDefault then .error poolArchiveBlocked
  else if s.servers.any (·.workerPoolId = pool.id) then .error poolArchiveBlocked
  else s.save pool { pool with isActive := false, isDefault := false }

def Pools.setDefault (s : Pools) (pool : EngineWorkerPool) : Except Failure Pools :=
  if !pool.isActive then .error poolInactive
  else s.clearDefault.save pool { pool with isDefault := true }

def Request.handle (s : Pools) : Request → Except Failure Pools
  | .store payload => s.store payload
  | .update pool payload => s.update pool payload
  | .archive pool => s.archive pool
  | .setDefault pool => s.setDefault pool

/-! ## Requests that come and go -/

/-- A request of a client. -/
inductive Call where
  | store (input : Input)
  | update (id : Nat) (input : Input)
  | archive (id : Nat)
  | setDefault (id : Nat)
  deriving DecidableEq, Repr

/-- What a request is given, unless it is refused in front of the controller. -/
def Call.load (s : Pools) : Call → Option Request
  | .store input => (validated (s.taken none) input).map .store
  | .update id input => do
      let pool ← s.find id
      let payload ← validated (s.taken (some id)) input
      pure (.update pool payload)
  | .archive id => (s.find id).map .archive
  | .setDefault id => (s.find id).map .setDefault

/-- A request arrives, or one that is under way is handled; and servers are assigned to active
pools, or removed. -/
inductive Event where
  | arrive (call : Call)
  | finish (n : Nat)
  | assign (server : Nat) (workerPoolId : Option Nat)
  | destroy (server : Nat)
  deriving DecidableEq, Repr

/-- `EngineServerUpsertRequest`, as to the pool: the default pool if none is named. -/
def Pools.workerPoolId (s : Pools) (named : Option Nat) : Option Nat :=
  (named <|> (s.rows.find? (·.isDefault)).map (·.id)).filter fun id =>
    s.rows.any fun row => row.id = id && row.isActive

/-- The handled request leaves what it makes of the tables. -/
def Pools.settle (s : Pools) (request : Request) : Pools :=
  match request.handle s with
  | .ok s' => s'
  | .error _ => s

def pools : System Pools Event where
  step s
    | .arrive call => some { s with waiting := s.waiting ++ (call.load s).toList }
    | .finish n => do
        let request ← s.waiting[n]?
        pure { s.settle request with waiting := s.waiting.eraseIdx n }
    | .assign server named =>
        some (match s.workerPoolId named with
          | some id => { s with servers := s.servers.filter (·.id ≠ server) ++ [⟨server, id⟩] }
          | none => s)
    | .destroy server => some { s with servers := s.servers.filter (·.id ≠ server) }

/-- The tables as the migrations leave them. -/
def migrated (servers : List Nat) : Pools where
  rows :=
    [{ id := 1
       slug := "default".toList
       name := "Default Pool".toList
       isActive := true
       isDefault := true
       providerProfiles := providers.map fun provider => (provider, "standard".toList) }]
  servers := servers.map fun id => ⟨id, 1⟩
  nextId := 2

/-! ## The law, and its condition -/

/-- There is one default pool, and it is active. -/
def Settled (s : Pools) : Prop :=
  ∃ pool, s.rows.filter (·.isDefault) = [pool] ∧ pool.isActive = true

/-- The pool is the default now. -/
def Pools.isDefault (s : Pools) (id : Nat) : Bool :=
  s.rows.any fun row => row.id = id && row.isDefault

/-- The pool is active now. -/
def Pools.isActive (s : Pools) (id : Nat) : Bool :=
  s.rows.any fun row => row.id = id && row.isActive

/-- A request that is not refused does no harm: it deactivates no pool that is the default now,
and makes a pool the default that was not when it was loaded and is active now. -/
def Request.Harmless (s : Pools) : Request → Prop
  | .store _ => True
  | .update pool payload =>
      pool.isActive = true → payload.isActive = false → s.isDefault pool.id = false
  | .archive pool => pool.isActive = true → s.isDefault pool.id = false
  | .setDefault pool => pool.isDefault = false ∧ s.isActive pool.id = true

/-- Every request that is handled, and not refused, does no harm. -/
def Harmless (s : Pools) : Event → Prop
  | .finish n => ∀ request ∈ s.waiting[n]?, (request.handle s).isOk = true → request.Harmless s
  | _ => True

/-! ## What holds anyway -/

/-- What a request was given when it arrived is still true of it. -/
def Request.Given (s : Pools) : Request → Prop
  | .store payload => payload.isDefault = none ∧ isSlug payload.slug = true
  | .update pool payload => (payload.isDefault = none ∧ isSlug payload.slug = true) ∧
      pool.id ∈ s.rows.map (·.id)
  | .archive pool => pool.id ∈ s.rows.map (·.id)
  | .setDefault pool => pool.id ∈ s.rows.map (·.id)

/-- At most one pool is the default; the pools have ids and slugs of their own. -/
structure Sound (s : Pools) : Prop where
  ids : (s.rows.map (·.id)).Nodup
  fresh : ∀ row ∈ s.rows, row.id < s.nextId
  slugs : (s.rows.map (·.slug)).Nodup
  spelled : ∀ row ∈ s.rows, isSlug row.slug = true
  atMostOne : (s.rows.filter (·.isDefault)).length ≤ 1
  waiting : ∀ request ∈ s.waiting, request.Given s

section Rows
variable {rows : List EngineWorkerPool} {f : EngineWorkerPool → EngineWorkerPool} {k : Nat}

/-- An update that keeps the mark keeps the default pools. -/
theorem filter_update (hf : ∀ row, (f row).isDefault = row.isDefault) :
    (Table.update (·.id) rows k f).filter (·.isDefault) =
      Table.update (·.id) (rows.filter (·.isDefault)) k f := by
  rw [Table.update, Table.update, List.filter_map]
  refine congrArg (List.map _) (List.filter_congr fun row _ => ?_)
  rw [Function.comp_apply]
  split
  · exact hf row
  · rfl

theorem map_id_update (hf : ∀ row, (f row).id = row.id) :
    (Table.update (·.id) rows k f).map (·.id) = rows.map (·.id) :=
  Table.map_update (·.id) fun row _ _ => hf row

/-- One slug is changed into one that the other pools do not have. -/
theorem nodup_slugs_update (h : (rows.map (·.slug)).Nodup) (hids : (rows.map (·.id)).Nodup)
    (hnew : ∀ row ∈ rows, row.id = k → (f row).slug = row.slug ∨
      ∀ other ∈ rows, other.id ≠ k → other.slug ≠ (f row).slug) :
    ((Table.update (·.id) rows k f).map (·.slug)).Nodup := by
  rw [Table.update, List.map_map]
  refine List.Nodup.map_on ?_ hids.of_map
  intro row hrow other hother heq
  have hslug : ∀ {a b : EngineWorkerPool}, a ∈ rows → b ∈ rows → a.slug = b.slug → a = b :=
    fun ha hb => List.inj_on_of_nodup_map h ha hb
  have hsame : ∀ {a b : EngineWorkerPool}, a ∈ rows → b ∈ rows → a.id = b.id → a = b :=
    fun ha hb => List.inj_on_of_nodup_map hids ha hb
  rw [Function.comp_apply, Function.comp_apply] at heq
  by_cases hk : row.id = k
  · by_cases hk' : other.id = k
    · exact hsame hrow hother (hk.trans hk'.symm)
    · rw [if_pos hk, if_neg hk'] at heq
      rcases hnew row hrow hk with hkept | hfree
      · exact hslug hrow hother (hkept.symm.trans heq)
      · exact absurd heq.symm (hfree other hother hk')
  · by_cases hk' : other.id = k
    · rw [if_neg hk, if_pos hk'] at heq
      rcases hnew other hother hk' with hkept | hfree
      · exact hslug hrow hother (heq.trans hkept)
      · exact absurd heq (hfree row hrow hk)
    · rw [if_neg hk, if_neg hk'] at heq
      exact hslug hrow hother heq

end Rows

/-! ## One request -/

section Handle
variable {s t : Pools} {pool filled : EngineWorkerPool} {payload : Payload}

theorem save_ok (h : s.save pool filled = .ok t) :
    t = { s with rows := Table.update (·.id) s.rows pool.id (saved pool filled) } ∧
      (filled.slug = pool.slug ∨ filled.slug ∉ s.taken (some pool.id)) := by
  rw [Pools.save] at h
  split at h
  · cases h
  · next hfree =>
    refine ⟨(Except.ok.inj h).symm, ?_⟩
    by_cases hslug : filled.slug = pool.slug
    · exact .inl hslug
    · exact .inr fun htaken => hfree ⟨hslug, htaken⟩

/-- A new pool is the default if there is none. -/
theorem store_ok (hnone : payload.isDefault = none) (h : s.store payload = .ok t) :
    ∃ new : EngineWorkerPool,
      t = { s with rows := s.rows ++ [new], nextId := s.nextId + 1 } ∧ new.id = s.nextId ∧
      new.slug = payload.slug ∧ payload.slug ∉ s.taken none ∧
      new.isActive = payload.isActive ∧ new.providerProfiles = payload.providerProfiles ∧
      new.isDefault = !s.rows.any (·.isDefault) := by
  simp only [Pools.store, hnone, Option.getD_none, Bool.false_or, Bool.false_eq_true,
    if_false] at h
  split at h
  · cases h
  · next hfree =>
    exact ⟨_, (Except.ok.inj h).symm, rfl, rfl, hfree, rfl, rfl, rfl⟩

/-- An update leaves the mark as it is. -/
theorem update_ok (hnone : payload.isDefault = none) (h : s.update pool payload = .ok t) :
    (pool.isDefault = true → payload.isActive = true) ∧
      s.save pool { pool with
        slug := payload.slug
        name := payload.name
        isActive := payload.isActive
        isDefault := pool.isDefault
        providerProfiles := payload.providerProfiles } = .ok t := by
  simp only [Pools.update, hnone, Option.getD_none, Bool.false_or, Bool.or_false,
    Bool.false_eq_true, if_false] at h
  split at h
  · cases h
  · next hallowed =>
    refine ⟨fun hdefault => ?_, h⟩
    rw [hdefault, Bool.true_and, Bool.not_eq_true', Bool.not_eq_false] at hallowed
    exact hallowed

theorem archive_ok (h : s.archive pool = .ok t) : pool.isDefault = false ∧
    s.save pool { pool with isActive := false, isDefault := false } = .ok t := by
  rw [Pools.archive] at h
  split at h
  · cases h
  · next hdefault =>
    split at h
    · cases h
    · exact ⟨Bool.not_eq_true _ ▸ hdefault, h⟩

theorem setDefault_ok (h : s.setDefault pool = .ok t) : pool.isActive = true ∧
    s.clearDefault.save pool { pool with isDefault := true } = .ok t := by
  rw [Pools.setDefault] at h
  split at h
  · cases h
  · next hactive =>
    exact ⟨by simpa using hactive, h⟩

/-- All but the mark is as it was loaded, and so none of it is written. -/
theorem saved_isDefault (row : EngineWorkerPool) :
    saved pool { pool with isDefault := true } row =
      { row with isDefault := dirty pool.isDefault true row.isDefault } := by
  simp only [saved, dirty_clean]

/-- One pool is marked, of all that have had the mark taken from them. -/
theorem filter_setDefault {row : EngineWorkerPool} (hids : (s.rows.map (·.id)).Nodup)
    (hrow : row ∈ s.rows) (hid : row.id = pool.id) :
    (Table.update (·.id) s.clearDefault.rows pool.id
        (saved pool { pool with isDefault := true })).filter (·.isDefault) =
      if pool.isDefault then [] else [{ row with isDefault := true }] := by
  have hclear : ∀ rows : List EngineWorkerPool, (∀ other ∈ rows, other.id ≠ pool.id) →
      (Table.update (·.id) (rows.map fun row => { row with isDefault := false }) pool.id
        (saved pool { pool with isDefault := true })).filter (·.isDefault) = [] := by
    intro rows hne
    rw [Table.update, List.map_map, List.filter_eq_nil_iff]
    intro other hother
    obtain ⟨old, hold, rfl⟩ := List.mem_map.mp hother
    rw [Function.comp_apply, if_neg (hne old hold)]
    exact Bool.false_ne_true
  obtain ⟨front, back, hrows⟩ := List.append_of_mem hrow
  rw [hrows, List.map_append, List.map_cons, List.nodup_append, List.nodup_cons] at hids
  have hfront : ∀ other ∈ front, other.id ≠ pool.id := by
    intro other hother heq
    exact hids.2.2 other.id (List.mem_map_of_mem hother) row.id (.head _) (heq.trans hid.symm)
  have hback : ∀ other ∈ back, other.id ≠ pool.id := by
    intro other hother heq
    refine hids.2.1.1 ?_
    rw [hid, ← heq]
    exact List.mem_map_of_mem hother
  have hmarked : saved pool { pool with isDefault := true } { row with isDefault := false } =
      { row with isDefault := !pool.isDefault } := by
    rw [saved_isDefault]
    cases pool.isDefault <;> rfl
  have hsplit : Table.update (·.id) s.clearDefault.rows pool.id
      (saved pool { pool with isDefault := true }) =
        Table.update (·.id) (front.map fun row => { row with isDefault := false }) pool.id
          (saved pool { pool with isDefault := true }) ++
        { row with isDefault := !pool.isDefault } ::
          Table.update (·.id) (back.map fun row => { row with isDefault := false }) pool.id
            (saved pool { pool with isDefault := true }) := by
    rw [Pools.clearDefault, hrows, Table.update, List.map_append, List.map_cons, List.map_append,
      List.map_cons, if_pos hid, hmarked]
    rfl
  rw [hsplit, List.filter_append, hclear front hfront, List.nil_append, List.filter_cons,
    hclear back hback]
  cases pool.isDefault <;> rfl

end Handle

/-! ## Every request keeps what holds anyway -/

section Keeps
variable {s t : Pools} {pool filled : EngineWorkerPool} {payload : Payload} {request : Request}

/-- A request is true to later tables as well. -/
theorem Request.Given.mono (h : request.Given s)
    (hids : s.rows.map (·.id) ⊆ t.rows.map (·.id)) : request.Given t := by
  cases request with
  | store payload => exact h
  | update pool payload => exact ⟨h.1, hids h.2⟩
  | archive pool => exact hids h
  | setDefault pool => exact hids h

/-- A save keeps all but the number of default pools. -/
theorem Sound.save (h : Sound s) (hspelled : filled.slug = pool.slug ∨ isSlug filled.slug = true)
    (hsave : s.save pool filled = .ok t)
    (hone : (t.rows.filter (·.isDefault)).length ≤ 1) : Sound t := by
  obtain ⟨rfl, hslug⟩ := save_ok hsave
  have hids : (Table.update (·.id) s.rows pool.id (saved pool filled)).map (·.id) =
      s.rows.map (·.id) := map_id_update fun _ => rfl
  refine ⟨hids ▸ h.ids, ?_, nodup_slugs_update h.slugs h.ids ?_, ?_, hone, ?_⟩
  · exact Table.update_forall h.fresh fun _ _ _ hfresh => hfresh
  · intro row hrow hid
    by_cases hsame : filled.slug = pool.slug
    · left
      exact if_pos hsame
    · right
      intro other hother hne heq
      have hnew : (saved pool filled row).slug = filled.slug := if_neg hsame
      refine hslug.resolve_left hsame (List.mem_map.mpr ⟨other, List.mem_filter.mpr ⟨hother, ?_⟩,
        heq.trans hnew⟩)
      simpa using hne
  · refine Table.update_forall h.spelled fun row hrow _ hold => ?_
    by_cases hsame : filled.slug = pool.slug
    · have hkept : (saved pool filled row).slug = row.slug := if_pos hsame
      rw [hkept]
      exact hold
    · have hnew : (saved pool filled row).slug = filled.slug := if_neg hsame
      rw [hnew]
      exact hspelled.resolve_left hsame
  · exact fun request hrequest => (h.waiting request hrequest).mono fun _ hid => hids ▸ hid

theorem Sound.clearDefault (h : Sound s) : Sound s.clearDefault := by
  have hids : s.clearDefault.rows.map (·.id) = s.rows.map (·.id) := by
    rw [Pools.clearDefault, List.map_map]
    rfl
  have hslugs : s.clearDefault.rows.map (·.slug) = s.rows.map (·.slug) := by
    rw [Pools.clearDefault, List.map_map]
    rfl
  have hrow : ∀ row ∈ s.clearDefault.rows, ∃ old ∈ s.rows,
      row = { old with isDefault := false } := by
    intro row hrow
    obtain ⟨old, hold, rfl⟩ := List.mem_map.mp hrow
    exact ⟨old, hold, rfl⟩
  refine ⟨hids ▸ h.ids, ?_, hslugs ▸ h.slugs, ?_, ?_, ?_⟩
  · intro row hmem
    obtain ⟨old, hold, rfl⟩ := hrow row hmem
    exact h.fresh old hold
  · intro row hmem
    obtain ⟨old, hold, rfl⟩ := hrow row hmem
    exact h.spelled old hold
  · have hnil : s.clearDefault.rows.filter (·.isDefault) = [] := by
      rw [List.filter_eq_nil_iff]
      intro row hmem
      obtain ⟨old, hold, rfl⟩ := hrow row hmem
      exact Bool.false_ne_true
    rw [hnil]
    exact Nat.zero_le 1
  · exact fun request hrequest => (h.waiting request hrequest).mono fun _ hid => hids ▸ hid

theorem Sound.store (h : Sound s) (hgiven : Request.Given s (.store payload))
    (hstore : s.store payload = .ok t) : Sound t := by
  obtain ⟨new, rfl, hid, hslug, hfree, -, -, hdefault⟩ := store_ok hgiven.1 hstore
  have hids : s.rows.map (·.id) ⊆ (s.rows ++ [new]).map (·.id) := by
    rw [List.map_append]
    exact List.subset_append_left _ _
  refine ⟨?_, ?_, ?_, ?_, ?_, fun request hrequest => (h.waiting request hrequest).mono hids⟩
  · rw [List.map_append]
    refine h.ids.append (List.nodup_singleton _) ?_
    intro id hmem hnew
    obtain ⟨row, hrow, rfl⟩ := List.mem_map.mp hmem
    rw [List.map_singleton, List.mem_singleton, hid] at hnew
    exact absurd hnew (h.fresh row hrow).ne
  · intro row hrow
    rcases List.mem_append.mp hrow with hold | hnew
    · exact (h.fresh row hold).trans (Nat.lt_succ_self _)
    · rw [List.mem_singleton.mp hnew, hid]
      exact Nat.lt_succ_self _
  · rw [List.map_append]
    refine h.slugs.append (List.nodup_singleton _) ?_
    intro slug hmem hnew
    obtain ⟨row, hrow, rfl⟩ := List.mem_map.mp hmem
    rw [List.map_singleton, List.mem_singleton, hslug] at hnew
    refine hfree (List.mem_map.mpr ⟨row, List.mem_filter.mpr ⟨hrow, ?_⟩, hnew⟩)
    simp
  · intro row hrow
    rcases List.mem_append.mp hrow with hold | hnew
    · exact h.spelled row hold
    · rw [List.mem_singleton.mp hnew, hslug]
      exact hgiven.2
  · rw [List.filter_append, List.length_append]
    cases hany : s.rows.any (·.isDefault) with
    | false =>
      have hnil : s.rows.filter (·.isDefault) = [] := by
        rw [List.filter_eq_nil_iff]
        exact fun row hrow => List.any_eq_false.mp hany row hrow
      rw [hnil, List.length_nil, Nat.zero_add]
      exact List.length_filter_le _ _
    | true =>
      have hnot : [new].filter (·.isDefault) = [] := by
        rw [List.filter_singleton, hdefault, hany]
        rfl
      rw [hnot]
      exact h.atMostOne

/-- **A request keeps what holds anyway.** -/
theorem Sound.handle (h : Sound s) (hgiven : request.Given s) (hok : request.handle s = .ok t) :
    Sound t := by
  have hlength : ∀ {f : EngineWorkerPool → EngineWorkerPool} {k : Nat},
      (∀ row, (f row).isDefault = row.isDefault) →
        ((Table.update (·.id) s.rows k f).filter (·.isDefault)).length ≤ 1 := by
    intro f k hf
    rw [filter_update hf, Table.update, List.length_map]
    exact h.atMostOne
  cases request with
  | store payload => exact h.store hgiven hok
  | update pool payload =>
    obtain ⟨-, hsave⟩ := update_ok hgiven.1.1 hok
    refine h.save (.inr hgiven.1.2) hsave ?_
    rw [(save_ok hsave).1]
    exact hlength fun row => dirty_clean pool.isDefault row.isDefault
  | archive pool =>
    obtain ⟨hdefault, hsave⟩ := archive_ok hok
    have hslug : ({ pool with isActive := false, isDefault := false } : EngineWorkerPool).slug =
        pool.slug := rfl
    refine h.save (.inl hslug) hsave ?_
    rw [(save_ok hsave).1]
    refine hlength fun row => ?_
    show dirty pool.isDefault false row.isDefault = row.isDefault
    rw [hdefault]
    exact dirty_clean _ _
  | setDefault pool =>
    obtain ⟨-, hsave⟩ := setDefault_ok hok
    obtain ⟨row, hrow, hid⟩ := List.mem_map.mp hgiven
    have hslug : ({ pool with isDefault := true } : EngineWorkerPool).slug = pool.slug := rfl
    refine h.clearDefault.save (.inl hslug) hsave ?_
    rw [(save_ok hsave).1]
    show ((Table.update (·.id) s.clearDefault.rows pool.id _).filter (·.isDefault)).length ≤ 1
    rw [filter_setDefault h.ids hrow hid]
    split
    · exact Nat.zero_le 1
    · exact Nat.le_refl 1

end Keeps

/-! ## Which requests keep the default pool -/

section Settles
variable {s t : Pools} {pool filled default : EngineWorkerPool} {payload : Payload}
  {request : Request}

theorem isDefault_eq (h : s.rows.filter (·.isDefault) = [default]) (id : Nat) :
    s.isDefault id = decide (default.id = id) := by
  have hany : s.isDefault id = (s.rows.filter (·.isDefault)).any fun row => row.id = id := by
    rw [List.any_filter, Pools.isDefault]
    exact congrArg s.rows.any (funext fun row => Bool.and_comm _ _)
  rw [hany, h, List.any_cons, List.any_nil, Bool.or_false]

theorem isActive_eq {row : EngineWorkerPool} (hids : (s.rows.map (·.id)).Nodup)
    (hrow : row ∈ s.rows) : s.isActive row.id = row.isActive := by
  rw [Bool.eq_iff_iff, Pools.isActive, List.any_eq_true]
  constructor
  · rintro ⟨other, hother, hboth⟩
    rw [Bool.and_eq_true, decide_eq_true_eq] at hboth
    rw [← List.inj_on_of_nodup_map hids hother hrow hboth.1]
    exact hboth.2
  · intro hactive
    refine ⟨row, hrow, ?_⟩
    rw [hactive, Bool.and_true, decide_eq_true_eq]

/-- A save that keeps the mark: the default pool stays active unless it is the one that is saved
and is deactivated by that. -/
theorem settled_save_iff (hdefault : s.rows.filter (·.isDefault) = [default])
    (hactive : default.isActive = true) (hmark : filled.isDefault = pool.isDefault)
    (hsave : s.save pool filled = .ok t) :
    Settled t ↔ (pool.isActive = true → filled.isActive = false →
      s.isDefault pool.id = false) := by
  have hkept : ∀ row, (saved pool filled row).isDefault = row.isDefault := by
    intro row
    show dirty pool.isDefault filled.isDefault row.isDefault = row.isDefault
    rw [hmark]
    exact dirty_clean _ _
  have hrow : (saved pool filled default).isActive = dirty pool.isActive filled.isActive true := by
    show dirty pool.isActive filled.isActive default.isActive = _
    rw [hactive]
  rw [(save_ok hsave).1, isDefault_eq hdefault, Settled, filter_update hkept, hdefault]
  by_cases hid : default.id = pool.id
  · have hone : Table.update (·.id) [default] pool.id (saved pool filled) =
        [saved pool filled default] := by
      rw [Table.update, List.map_singleton, if_pos hid]
    rw [hone, decide_eq_true hid]
    constructor
    · rintro ⟨row, hrows, hstill⟩ hwas hnot
      rw [← List.singleton_inj.mp hrows, hrow, hwas, hnot] at hstill
      exact hstill.symm
    · intro hnever
      refine ⟨_, rfl, ?_⟩
      rw [hrow]
      cases hwas : pool.isActive <;> cases hnow : filled.isActive <;> try rfl
      exact absurd (hnever hwas hnow) Bool.noConfusion
  · have hone : Table.update (·.id) [default] pool.id (saved pool filled) = [default] := by
      rw [Table.update, List.map_singleton, if_neg hid]
    rw [hone, decide_eq_false hid]
    exact ⟨fun _ _ _ => rfl, fun _ => ⟨default, rfl, hactive⟩⟩

/-- **One request keeps the default pool exactly if it does no harm.** -/
theorem settled_handle_iff (hsound : Sound s) (hgiven : request.Given s) (hsettled : Settled s)
    (hok : request.handle s = .ok t) : Settled t ↔ request.Harmless s := by
  obtain ⟨default, hdefault, hactive⟩ := hsettled
  cases request with
  | store payload =>
    obtain ⟨new, rfl, -, -, -, -, -, hmark⟩ := store_ok hgiven.1 hok
    have hmem : default ∈ s.rows.filter (·.isDefault) := hdefault ▸ List.mem_singleton_self _
    have hany : s.rows.any (·.isDefault) = true :=
      List.any_eq_true.mpr ⟨default, (List.mem_filter.mp hmem).1, (List.mem_filter.mp hmem).2⟩
    rw [hany] at hmark
    have hnew : [new].filter (·.isDefault) = [] := by
      rw [List.filter_singleton, hmark]
      rfl
    refine ⟨fun _ => trivial, fun _ => ⟨default, ?_, hactive⟩⟩
    rw [List.filter_append, hnew, List.append_nil, hdefault]
  | update pool payload =>
    obtain ⟨-, hsave⟩ := update_ok hgiven.1.1 hok
    refine settled_save_iff hdefault hactive ?_ hsave
    rfl
  | archive pool =>
    obtain ⟨hmark, hsave⟩ := archive_ok hok
    rw [settled_save_iff hdefault hactive hmark.symm hsave]
    exact ⟨fun h hwas => h hwas rfl, fun h hwas _ => h hwas⟩
  | setDefault pool =>
    obtain ⟨-, hsave⟩ := setDefault_ok hok
    obtain ⟨row, hrow, hid⟩ := List.mem_map.mp hgiven
    have hfilter := filter_setDefault hsound.ids hrow hid
    rw [(save_ok hsave).1]
    show (∃ pool', (Table.update (·.id) s.clearDefault.rows pool.id _).filter (·.isDefault) =
      [pool'] ∧ _) ↔ pool.isDefault = false ∧ s.isActive pool.id = true
    rw [hfilter, ← hid, isActive_eq hsound.ids hrow]
    cases hmark : pool.isDefault with
    | true =>
      rw [if_pos rfl]
      constructor
      · rintro ⟨other, hnone, -⟩
        exact absurd hnone (List.cons_ne_nil _ _).symm
      · rintro ⟨hnot, -⟩
        exact absurd hnot Bool.noConfusion
    | false =>
      rw [if_neg Bool.false_ne_true]
      constructor
      · rintro ⟨other, hone, hstill⟩
        rw [← List.singleton_inj.mp hone] at hstill
        exact ⟨rfl, hstill⟩
      · rintro ⟨-, hstill⟩
        exact ⟨_, rfl, hstill⟩

end Settles

/-! ## Every run -/

section Run
variable {s t : Pools} {request : Request} {payload : Payload} {input : Input}
  {taken : List Text} {servers : List Nat}

theorem validated_given (h : validated taken input = some payload) :
    payload.isDefault = none ∧ isSlug payload.slug = true := by
  rw [validated] at h
  split at h
  · next hvalid =>
    obtain rfl := Option.some.inj h
    exact ⟨rfl, hvalid.1⟩
  · cases h

theorem mem_of_find {id : Nat} {pool : EngineWorkerPool} (h : s.find id = some pool) :
    pool.id ∈ s.rows.map (·.id) :=
  List.mem_map_of_mem (Table.mem_of_find h)

theorem load_given {call : Call} (h : call.load s = some request) : request.Given s := by
  cases call with
  | store input =>
    obtain ⟨payload, hpayload, rfl⟩ := Option.map_eq_some_iff.mp h
    exact validated_given hpayload
  | update id input =>
    obtain ⟨pool, hpool, hrest⟩ := Option.bind_eq_some_iff.mp h
    obtain ⟨payload, hpayload, hpure⟩ := Option.bind_eq_some_iff.mp hrest
    obtain rfl := Option.some.inj hpure
    exact ⟨validated_given hpayload, mem_of_find hpool⟩
  | archive id =>
    obtain ⟨pool, hpool, rfl⟩ := Option.map_eq_some_iff.mp h
    exact mem_of_find hpool
  | setDefault id =>
    obtain ⟨pool, hpool, rfl⟩ := Option.map_eq_some_iff.mp h
    exact mem_of_find hpool

/-- What holds anyway does not speak of the servers, and fewer requests may be under way. -/
theorem Sound.of_waiting {waiting : List Request} (h : Sound s)
    (hwaiting : ∀ request ∈ waiting, request.Given s) (servers : List EngineServer) :
    Sound { s with waiting := waiting, servers := servers } :=
  { h with
    waiting := fun request hrequest =>
      (hwaiting request hrequest).mono (List.Subset.refl _) }

theorem handle_waiting (hok : request.handle s = .ok t) (hgiven : request.Given s) :
    t.waiting = s.waiting := by
  cases request with
  | store payload =>
    obtain ⟨new, rfl, -⟩ := store_ok hgiven.1 hok
    rfl
  | update pool payload => rw [(save_ok (update_ok hgiven.1.1 hok).2).1]
  | archive pool => rw [(save_ok (archive_ok hok).2).1]
  | setDefault pool =>
    rw [(save_ok (setDefault_ok hok).2).1]
    rfl

/-- **Every step keeps what holds anyway.** -/
theorem Sound.step {e : Event} (h : Sound s) (hstep : pools.step s e = some t) : Sound t := by
  cases e with
  | arrive call =>
    obtain rfl := Option.some.inj hstep
    refine h.of_waiting ?_ s.servers
    intro request hrequest
    rcases List.mem_append.mp hrequest with hold | hnew
    · exact h.waiting request hold
    · exact load_given (Option.mem_toList.mp hnew)
  | finish n =>
    obtain ⟨request, hrequest, hpure⟩ := Option.bind_eq_some_iff.mp hstep
    obtain rfl := Option.some.inj hpure
    have hgiven := h.waiting request (List.mem_of_getElem? hrequest)
    have hsettle : Sound (s.settle request) ∧ (s.settle request).waiting = s.waiting := by
      rw [Pools.settle]
      split
      · next hok => exact ⟨h.handle hgiven hok, handle_waiting hok hgiven⟩
      · exact ⟨h, rfl⟩
    refine hsettle.1.of_waiting ?_ (s.settle request).servers
    intro other hother
    refine hsettle.1.waiting other ?_
    rw [hsettle.2]
    exact List.mem_of_mem_eraseIdx hother
  | assign server named =>
    obtain rfl := Option.some.inj hstep
    cases s.workerPoolId named with
    | none => exact h
    | some id => exact h.of_waiting h.waiting _
  | destroy server =>
    obtain rfl := Option.some.inj hstep
    exact h.of_waiting h.waiting _

/-- **One step keeps the default pool exactly if it does no harm.** -/
theorem settled_step_iff {e : Event} (h : Sound s) (hsettled : Settled s)
    (hstep : pools.step s e = some t) : Settled t ↔ Harmless s e := by
  cases e with
  | arrive call =>
    obtain rfl := Option.some.inj hstep
    exact ⟨fun _ => trivial, fun _ => hsettled⟩
  | finish n =>
    obtain ⟨request, hrequest, hpure⟩ := Option.bind_eq_some_iff.mp hstep
    obtain rfl := Option.some.inj hpure
    have hgiven := h.waiting request (List.mem_of_getElem? hrequest)
    have hsame : ∀ u : Pools, Settled { u with waiting := s.waiting.eraseIdx n } ↔ Settled u :=
      fun _ => Iff.rfl
    have hharm : Harmless s (.finish n) ↔
        ((request.handle s).isOk = true → request.Harmless s) := by
      rw [Harmless, hrequest]
      exact ⟨fun hall => hall request rfl, fun hone other hother => by
        obtain rfl := Option.some.inj hother
        exact hone⟩
    rw [hsame, hharm, Pools.settle]
    split
    · next hok =>
      rw [settled_handle_iff h hgiven hsettled hok, hok]
      exact ⟨fun hh _ => hh, fun hh => hh rfl⟩
    · next herror =>
      rw [herror]
      exact ⟨fun _ hh => absurd hh Bool.false_ne_true, fun _ => hsettled⟩
  | assign server named =>
    obtain rfl := Option.some.inj hstep
    refine ⟨fun _ => trivial, fun _ => ?_⟩
    cases s.workerPoolId named with
    | none => exact hsettled
    | some id => exact hsettled
  | destroy server =>
    obtain rfl := Option.some.inj hstep
    exact ⟨fun _ => trivial, fun _ => hsettled⟩

theorem sound_migrated : Sound (migrated servers) where
  ids := List.nodup_singleton _
  fresh row hrow := by
    rw [List.mem_singleton.mp hrow]
    exact Nat.lt_succ_self 1
  slugs := List.nodup_singleton _
  spelled row hrow := by
    rw [List.mem_singleton.mp hrow]
    decide
  atMostOne := Nat.le_refl 1
  waiting request hrequest := absurd hrequest List.not_mem_nil

theorem settled_migrated : Settled (migrated servers) := ⟨_, rfl, rfl⟩

end Run

/-- **However the requests come, there is never a second default pool, and there is one that is
active exactly as long as no request does harm.** -/
theorem settledThroughout_iff (servers : List Nat) (events : List Event) :
    pools.Throughout (fun s => (s.rows.filter (·.isDefault)).length ≤ 1) (migrated servers)
        events ∧
      (pools.Throughout Settled (migrated servers) events ↔
        pools.Meets Harmless (migrated servers) events) := by
  have hkeeps : ∀ s e t, Sound s → pools.step s e = some t → Sound t :=
    fun s e t h hstep => h.step hstep
  constructor
  · have hsound : pools.Throughout Sound (migrated servers) events :=
      System.throughout_of_keeps hkeeps sound_migrated
    exact System.Throughout.mp (fun _ h _ => h.atMostOne) hsound hsound
  · refine System.throughout_iff_meets hkeeps ?_ sound_migrated settled_migrated
    intro s e t h hsettled hstep
    exact settled_step_iff h hsettled hstep

/-! ## The policy of a pool -/

/-- What a request is to make of a pool, if it is to make anything of one. -/
def Call.input : Call → Option Input
  | .store input => some input
  | .update _ input => some input
  | .archive _ => none
  | .setDefault _ => none

/-- The profile that is asked for, or `standard`. -/
def Input.profile (input : Input) (provider : Provider) : Profile :=
  (profiles.find? fun profile => profileName profile ==
    strtolower (trim ((input.providerProfiles.lookup provider).getD []))).getD .standard

/-- The pools as the policy reads them. -/
def Pools.workerPools (s : Pools) : List WorkerPool := s.rows.map (·.toWorkerPool)

section Policy
variable {s t : Pools} {request : Request} {payload : Payload} {input : Input} {call : Call}
  {row : EngineWorkerPool} {taken : List Text} {provider : Provider} {spelled value : Text}

/-- A prepared profile is read as the one that was asked for. -/
theorem find_preparedProfile :
    (profiles.find? fun profile => profileName profile ==
        strtolower (trim (preparedProfile value))).getD .standard =
      (profiles.find? fun profile => profileName profile == strtolower (trim value)).getD
        .standard := by
  rw [preparedProfile]
  by_cases hknown : strtolower (trim value) ∈ profiles.map profileName
  · rw [if_pos hknown, trim_strtolower, strtolower_strtolower]
  · have hnone : (profiles.find? fun profile => profileName profile ==
        strtolower (trim value)) = none := by
      rw [List.find?_eq_none]
      intro profile hprofile heq
      exact hknown (List.mem_map.mpr ⟨profile, hprofile, eq_of_beq heq⟩)
    rw [if_neg hknown, hnone]
    rfl

theorem profile_of_prepared
    (h : row.providerProfiles = (prepareForValidation input).providerProfiles) :
    row.normalizedProviderProfile provider = input.profile provider := by
  have hlookup : row.providerProfiles.lookup provider =
      some (preparedProfile ((input.providerProfiles.lookup provider).getD [])) := by
    rw [h]
    cases provider <;> rfl
  rw [WorkerPool.normalizedProviderProfile, hlookup, Option.getD_some]
  exact find_preparedProfile

theorem validated_eq (h : validated taken input = some payload) :
    payload.slug = strtolower (trim input.slug) ∧ payload.isActive = input.isActive ∧
      payload.providerProfiles = (prepareForValidation input).providerProfiles := by
  rw [validated] at h
  split at h
  · obtain rfl := Option.some.inj h
    exact ⟨rfl, rfl, rfl⟩
  · cases h

/-- A request that is handled as soon as it has arrived leaves a pool that is what it asks for. -/
theorem exists_row (hload : call.load s = some request) (hok : request.handle s = .ok t)
    (hinput : call.input = some input) : ∃ row ∈ t.rows,
      row.slug = strtolower (trim input.slug) ∧ row.isActive = input.isActive ∧
      row.providerProfiles = (prepareForValidation input).providerProfiles := by
  cases call with
  | store given =>
    obtain rfl := Option.some.inj hinput
    obtain ⟨payload, hpayload, rfl⟩ := Option.map_eq_some_iff.mp hload
    obtain ⟨hslug, hactive, hprofiles⟩ := validated_eq hpayload
    obtain ⟨new, rfl, -, hnew, -, hnewActive, hnewProfiles, -⟩ :=
      store_ok (validated_given hpayload).1 hok
    exact ⟨new, List.mem_append_right _ (List.mem_singleton_self _), hnew.trans hslug,
      hnewActive.trans hactive, hnewProfiles.trans hprofiles⟩
  | update id given =>
    obtain rfl := Option.some.inj hinput
    obtain ⟨pool, hpool, hrest⟩ := Option.bind_eq_some_iff.mp hload
    obtain ⟨payload, hpayload, hpure⟩ := Option.bind_eq_some_iff.mp hrest
    obtain rfl := Option.some.inj hpure
    obtain ⟨hslug, hactive, hprofiles⟩ := validated_eq hpayload
    obtain ⟨-, hsave⟩ := update_ok (validated_given hpayload).1 hok
    obtain ⟨rfl, -⟩ := save_ok hsave
    refine ⟨_, List.mem_map.mpr ⟨pool, Table.mem_of_find hpool, if_pos rfl⟩, ?_, ?_, ?_⟩
    · exact (dirty_fresh pool.slug payload.slug).trans hslug
    · exact (dirty_fresh pool.isActive payload.isActive).trans hactive
    · exact (dirty_fresh pool.providerProfiles payload.providerProfiles).trans hprofiles
  | archive id => cases hinput
  | setDefault id => cases hinput

theorem not_blank_of_isSlug {slug : Text} (h : isSlug slug = true) :
    slug ≠ [] ∧ ∀ c ∈ slug, isBlank c = false := by
  have hstart : ∀ c, isSlugStart c = true → isBlank c = false := by
    intro c hc
    rw [Bool.eq_false_iff]
    intro hblank
    simp only [isBlank, Bool.or_eq_true, beq_iff_eq] at hblank
    rcases hblank with ((((rfl | rfl) | rfl) | rfl) | rfl) | rfl <;> exact absurd hc (by decide)
  cases slug with
  | nil => cases h
  | cons c cs =>
    rw [isSlug, Bool.and_eq_true, Bool.and_eq_true, List.all_eq_true] at h
    refine ⟨List.cons_ne_nil _ _, fun d hd => ?_⟩
    rcases List.mem_cons.mp hd with rfl | hrest
    · exact hstart d h.1.1
    · have hchar := h.1.2 d hrest
      rw [Bool.or_eq_true, Bool.or_eq_true, beq_iff_eq, beq_iff_eq] at hchar
      rcases hchar with (hplain | rfl) | rfl
      · exact hstart d hplain
      · rfl
      · rfl

theorem trim_slug {slug : Text} (h : isSlug slug = true) : trim slug = slug := by
  obtain ⟨-, hblank⟩ := not_blank_of_isSlug h
  exact trimBy_eq_self_iff.mpr
    ⟨fun c hc => hblank c (List.mem_of_head? hc), fun c hc => hblank c (List.mem_of_getLast? hc)⟩

/-- An active pool is found by its slug, and no other is. -/
theorem find_slug (h : Sound t) (hrow : row ∈ t.rows) :
    t.workerPools.find? (fun pool => pool.isActive && pool.slug == row.slug) =
      if row.isActive then some row.toWorkerPool else none := by
  have hsame : ∀ other ∈ t.rows, other.slug = row.slug → other = row :=
    fun other hother heq => List.inj_on_of_nodup_map h.slugs hother hrow heq
  cases hactive : row.isActive with
  | false =>
    rw [if_neg Bool.false_ne_true, List.find?_eq_none]
    intro pool hpool hfound
    obtain ⟨other, hother, rfl⟩ := List.mem_map.mp hpool
    rw [Bool.and_eq_true, beq_iff_eq] at hfound
    rw [hsame other hother hfound.2, hactive] at hfound
    exact Bool.false_ne_true hfound.1
  | true =>
    rw [if_pos rfl]
    cases hfind : t.workerPools.find? fun pool => pool.isActive && pool.slug == row.slug with
    | none =>
      have hnot := List.find?_eq_none.mp hfind _ (List.mem_map_of_mem hrow)
      rw [hactive, Bool.true_and] at hnot
      exact absurd (beq_self_eq_true row.slug) hnot
    | some pool =>
      obtain ⟨other, hother, rfl⟩ := List.mem_map.mp (List.mem_of_find?_eq_some hfind)
      have hfound := List.find?_some hfind
      rw [Bool.and_eq_true, beq_iff_eq] at hfound
      rw [hsame other hother hfound.2]

theorem policy_of_row (h : Sound t) (hrow : row ∈ t.rows)
    (hdefault : t.rows.any (·.isDefault) = true)
    (hspelled : strtolower (trim spelled) = row.slug) :
    providerProfileForPool t.workerPools (some spelled) provider =
      if row.isActive then row.normalizedProviderProfile provider
      else providerProfileForPool t.workerPools none provider := by
  obtain ⟨hne, -⟩ := not_blank_of_isSlug (h.spelled row hrow)
  rw [providerProfileForPool, Option.getD_some, hspelled, if_neg hne, find_slug h hrow]
  cases hactive : row.isActive with
  | true => rfl
  | false =>
    -- Without a pool of its own, a worker is given what the default pool has.
    obtain ⟨first, hfirst⟩ := Option.isSome_iff_exists.mp (List.find?_isSome.mpr
      (List.any_eq_true.mp hdefault))
    have hmem := List.mem_of_find?_eq_some hfirst
    have hpools : t.workerPools.find? (·.isDefault) = some first.toWorkerPool := by
      rw [Pools.workerPools, List.find?_map]
      exact congrArg (Option.map _) hfirst
    obtain ⟨hfirstNe, -⟩ := not_blank_of_isSlug (h.spelled first hmem)
    have hslug : resolveDefaultSlug t.workerPools = first.slug := by
      rw [resolveDefaultSlug, hpools]
      show (if trim first.slug = [] then _ else trim first.slug) = first.slug
      rw [trim_slug (h.spelled first hmem), if_neg hfirstNe]
    have hblank : strtolower (trim ((none : Option Text).getD [])) = [] := rfl
    rw [providerProfileForPool, hblank, if_pos rfl, hslug, find_slug h hmem, hpools]
    cases first.isActive <;> rfl

end Policy

/-- A pool for hard mailboxes, as it is submitted. -/
def reserve : Input where
  slug := " Reserve-1 ".toList
  name := "Reserve".toList
  providerProfiles := [(.gmail, "Low_Hit".toList), (.yahoo, "other".toList)]

end ValidEmailVerifier.EnginePools
