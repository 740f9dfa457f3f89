/-
# `Cache.Lookup` — which addresses the cache is said not to know

`DynamoDbEmailVerificationCacheStore::lookupMany` asks the table for the addresses in batches.  A
response may leave keys of its request unprocessed, and a request may be throttled; both are tried
again, as long as retries remain.  An address that is not in the result is a miss for
`ParseAndChunkJob`.

Throttling that outlasts the retries is an exception, but keys that are still unprocessed then are
dropped without a word, so that the result has them as misses (`lookupMany_faithful_iff`).

The table is any function from the number of a batch, the number of a request and its keys to an
answer; `answersOf`, `leftAfter` and `fails` say what comes of a series of requests in terms of
the table alone.
-/
import ValidEmailVerifier.Lib.Leftovers
import ValidEmailVerifier.Pipeline.ParseAndChunkJob
import ValidEmailVerifier.Pipeline.ScreeningToProbeChunkPlanner

namespace ValidEmailVerifier.CacheLookup

open Text

/-! ## Settings, items and answers -/

/-- `cache_capacity_mode`. -/
inductive CapacityMode where
  | onDemand | provisioned
  deriving DecidableEq, Repr

structure Settings where
  table : Text
  keyAttribute : Text := "email".toList
  resultAttribute : Text := "result".toList
  datetimeAttribute : Option Text := some "DateTime".toList
  capacityMode : CapacityMode := .onDemand
  batchSize : Int := 100
  provisionedMaxRetries : Int := 5
  cacheOnlyEnabled : Bool := false
  freshnessDays : Int := 30
  deriving DecidableEq, Repr

/-- `EngineSettings::cacheBatchSize`. -/
def cacheBatchSize (σ : Settings) : Nat := (max 1 (min 100 σ.batchSize)).toNat

/-- `$maxRetries`. -/
def maxRetries (σ : Settings) : Nat :=
  match σ.capacityMode with
  | .provisioned => (max 0 σ.provisionedMaxRetries).toNat
  | .onDemand => 1

/-- What Carbon says of times: `parse`, `toISOString` and `now()->subDays(…)`. -/
structure Clock where
  parse : Text → Option Int
  toISOString : Int → Text
  subDays : Int → Int

/-- The value of an attribute: a string, a number, or something else. -/
inductive Value where
  | s (text : Text)
  | n (text : Text)
  | other
  deriving DecidableEq, Repr

abbrev Item := List (Text × Value)

/-- `$item[$attr]['S'] ?? null`. -/
def stringAt (attr : Text) (item : Item) : Option Text :=
  match item.lookup attr with
  | some (.s text) => some text
  | _ => none

/-- A response to a request for some keys: those it leaves unprocessed, what the table has under
the others, and the items in some order. -/
structure Response (keyAttribute : Text) (keys : List Text) where
  unprocessed : Leftover keys
  found : Text → Option Item
  keyed : ∀ k item, found k = some item → stringAt keyAttribute item = some k
  items : List Item
  order : items.Perm (unprocessed.done.filterMap found)

/-- What comes of a `batchGetItem`. -/
inductive Answer (keyAttribute : Text) (keys : List Text) where
  | ok (response : Response keyAttribute keys)
  | throttled
  | exception

/-- The table, asked for the keys of one batch again and again. -/
abbrev Server (keyAttribute : Text) :=
  (attempt : Nat) → (keys : List Text) → Answer keyAttribute keys

/-! ## What comes of a series of requests -/

section Series
variable {keyAttribute : Text}

/-- What a response says of the keys it has processed. -/
def Response.answers {keys : List Text} (r : Response keyAttribute keys) :
    List (Text × Option Item) :=
  r.unprocessed.done.map fun k => (k, r.found k)

/-- What the table answers within `left` requests, the next of which is the one numbered
`attempt`. -/
def answersOf (server : Server keyAttribute) :
    (left attempt : Nat) → List Text → List (Text × Option Item)
  | 0, _, _ => []
  | left + 1, attempt, keys =>
      if keys = [] then []
      else
        match server attempt keys with
        | .ok r => r.answers ++ answersOf server left (attempt + 1) r.unprocessed.rest
        | .throttled => answersOf server left (attempt + 1) keys
        | .exception => []

/-- The keys that are still unprocessed after that. -/
def leftAfter (server : Server keyAttribute) : (left attempt : Nat) → List Text → List Text
  | 0, _, keys => keys
  | left + 1, attempt, keys =>
      if keys = [] then []
      else
        match server attempt keys with
        | .ok r => leftAfter server left (attempt + 1) r.unprocessed.rest
        | .throttled => leftAfter server left (attempt + 1) keys
        | .exception => keys

/-- One of these requests ends in an exception, or the last one is throttled. -/
def fails (server : Server keyAttribute) : (left attempt : Nat) → List Text → Bool
  | 0, _, _ => false
  | left + 1, attempt, keys =>
      if keys = [] then false
      else
        match server attempt keys with
        | .ok r => fails server left (attempt + 1) r.unprocessed.rest
        | .throttled => left == 0 || fails server left (attempt + 1) keys
        | .exception => true

/-- A key is answered for or left. -/
theorem into_answersOf (server : Server keyAttribute) (left attempt : Nat) (keys : List Text) :
    Leftover.Into ((answersOf server left attempt keys).map Prod.fst)
      (leftAfter server left attempt keys) keys := by
  induction left generalizing attempt keys with
  | zero => exact .start keys
  | succ left ih =>
    rw [answersOf, leftAfter]
    by_cases hnil : keys = []
    · rw [if_pos hnil, if_pos hnil, hnil]
      exact .start []
    · rw [if_neg hnil, if_neg hnil]
      cases server attempt keys with
      | ok r =>
        have hanswers : r.answers.map Prod.fst = r.unprocessed.done := by
          rw [Response.answers, List.map_map]
          exact List.map_id _
        dsimp only
        rw [List.map_append, hanswers]
        exact (ih (attempt + 1) r.unprocessed.rest).cons r.unprocessed
      | throttled => exact ih (attempt + 1) keys
      | exception => exact .start keys

/-- The item that is answered for a key carries it. -/
theorem keyed_answersOf {server : Server keyAttribute} {left attempt : Nat} {keys : List Text}
    {k : Text} {item : Item} (h : (k, some item) ∈ answersOf server left attempt keys) :
    stringAt keyAttribute item = some k := by
  induction left generalizing attempt keys with
  | zero => exact nomatch h
  | succ left ih =>
    rw [answersOf] at h
    split at h
    · exact nomatch h
    · split at h
      next r _ =>
        rcases List.mem_append.mp h with h | h
        · obtain ⟨k', -, heq⟩ := List.mem_map.mp h
          obtain ⟨rfl, hfound⟩ := Prod.mk.inj heq
          exact r.keyed _ _ hfound
        · exact ih h
      · exact ih h
      · exact nomatch h

end Series

/-! ## `lookupMany` -/

/-- `batchGetWithRetries`, where `left` is `$maxRetries + 1 - $attempt`; `none` stands for an
exception. -/
def batchGetWithRetries {keyAttribute : Text} (server : Server keyAttribute) :
    (left attempt : Nat) → List Text → List Item → Option (List Item)
  | 0, _, _, merged => some merged
  | left + 1, attempt, pending, merged =>
      if pending = [] then some merged
      else
        match server attempt pending with
        | .exception => none
        | .throttled =>
            if left = 0 then none
            else batchGetWithRetries server left (attempt + 1) pending merged
        | .ok response =>
            batchGetWithRetries server left (attempt + 1) response.unprocessed.rest
              (merged ++ response.items)

/-- An entry of the result. -/
structure Entry where
  outcome : Text
  status : Text
  reasonCode : Text
  observedAt : Option Text
  deriving DecidableEq, Repr

/-- `normalizeStatus`. -/
def normalizeStatus (raw : Text) : Option Text :=
  let normalized := strtolower (trim raw)
  if normalized ∈ ["valid".toList, "invalid".toList, "risky".toList] then some normalized else none

/-- A string that PHP takes for false. -/
def isFalsy (s : Text) : Bool := s == [] || s == "0".toList

/-- `EmailHashing::normalizeEmail`. -/
def normalizeEmail (email : Text) : Text := strtolower (trim email)

/-- `parseObservedAt`. -/
def parseObservedAt (σ : Settings) (clock : Clock) (item : Item) : Option Int :=
  match σ.datetimeAttribute with
  | none => none
  | some attr =>
      if isFalsy attr then none
      else
        match item.lookup attr with
        | some (.s raw) | some (.n raw) => if isFalsy raw then none else clock.parse raw
        | _ => none

/-- An item that was observed before the cutoff. -/
def isStale (σ : Settings) (clock : Clock) (cutoff : Option Int) (item : Item) : Bool :=
  match cutoff, parseObservedAt σ clock item with
  | some cutoff, some observedAt => observedAt < cutoff
  | _, _ => false

/-- The address and the status of an item, if it has both. -/
def readable (σ : Settings) (item : Item) : Option (Text × Text) :=
  match stringAt σ.keyAttribute item with
  | none => none
  | some email =>
      if isFalsy email ∨ normalizeEmail email = [] then none
      else
        (normalizeStatus ((stringAt σ.resultAttribute item).getD [])).map fun status =>
          (normalizeEmail email, status)

/-- One round of the loop over the items: what is put into the result. -/
def hit (σ : Settings) (clock : Clock) (cutoff : Option Int) (item : Item) :
    Option (Text × Entry) :=
  match readable σ item with
  | none => none
  | some (email, status) =>
      if isStale σ clock cutoff item then none
      else some (email, ⟨status, status, "cache_hit".toList,
        (parseObservedAt σ clock item).map clock.toISOString⟩)

/-- An entry is put under its address. -/
def put (results : List (Text × Entry)) (entry : Text × Entry) : List (Text × Entry) :=
  results.filter (fun e => e.1 ≠ entry.1) ++ [entry]

/-- `normalizeEmails`. -/
def normalizeEmails (emails : List Text) : List Text :=
  ((emails.map normalizeEmail).filter (· ≠ [])).eraseDups

/-- `$cutoff`, or nothing when the cache is not to be asked. -/
def cutoff (σ : Settings) (clock : Clock) : Option (Option Int) :=
  if σ.cacheOnlyEnabled then some none
  else if σ.freshnessDays ≤ 0 then none
  else some (some (clock.subDays σ.freshnessDays))

/-- The loop over the batches, numbered from `b`. -/
def lookupBatches (σ : Settings) (clock : Clock) (cutoff : Option Int)
    (server : Nat → Server σ.keyAttribute) :
    Nat → List (List Text) → List (Text × Entry) → Option (List (Text × Entry))
  | _, [], results => some results
  | b, batch :: batches, results =>
      match batchGetWithRetries (server b) (maxRetries σ + 1) 0 batch [] with
      | none => none
      | some items =>
          lookupBatches σ clock cutoff server (b + 1) batches
            ((items.filterMap (hit σ clock cutoff)).foldl put results)

/-- The batches of the keys. -/
def batchesOf (σ : Settings) (emails : List Text) : List (List Text) :=
  ScreeningToProbeChunkPlanner.arrayChunk (cacheBatchSize σ) (normalizeEmails emails)

/-- `lookupMany`; `none` stands for an exception. -/
def lookupMany (σ : Settings) (clock : Clock) (server : Nat → Server σ.keyAttribute)
    (emails : List Text) : Option (List (Text × Entry)) :=
  if σ.table = [] ∨ normalizeEmails emails = [] then some []
  else
    match cutoff σ clock with
    | none => some []
    | some cutoff => lookupBatches σ clock cutoff server 0 (batchesOf σ emails) []

/-! ## What the loops compute -/

section Loops
variable {keyAttribute : Text} {server : Server keyAttribute}

theorem batchGet_eq_none_iff {left attempt : Nat} {keys : List Text} {merged : List Item} :
    batchGetWithRetries server left attempt keys merged = none ↔
      fails server left attempt keys = true := by
  induction left generalizing attempt keys merged with
  | zero => simp [batchGetWithRetries, fails]
  | succ left ih =>
    rw [batchGetWithRetries, fails]
    by_cases hnil : keys = []
    · simp [hnil]
    · rw [if_neg hnil, if_neg hnil]
      cases server attempt keys with
      | ok r => exact ih
      | throttled =>
        by_cases hleft : left = 0
        · simp [hleft]
        · simp [hleft, ih]
      | exception => simp

/-- The merged items are those of the answers. -/
theorem mem_batchGet {left attempt : Nat} {keys : List Text} {merged items : List Item}
    (h : batchGetWithRetries server left attempt keys merged = some items) {item : Item} :
    item ∈ items ↔
      item ∈ merged ∨ ∃ k, (k, some item) ∈ answersOf server left attempt keys := by
  induction left generalizing attempt keys merged with
  | zero =>
    obtain rfl := Option.some.inj h
    simp [answersOf]
  | succ left ih =>
    rw [batchGetWithRetries] at h
    rw [answersOf]
    by_cases hnil : keys = []
    · rw [if_pos hnil] at h
      obtain rfl := Option.some.inj h
      simp [hnil]
    · rw [if_neg hnil] at h ⊢
      cases hanswer : server attempt keys with
      | exception =>
        rw [hanswer] at h
        exact nomatch h
      | throttled =>
        rw [hanswer] at h
        dsimp only at h ⊢
        split at h
        · exact nomatch h
        · exact ih h
      | ok r =>
        rw [hanswer] at h
        dsimp only at h ⊢
        have hitems : item ∈ r.items ↔ ∃ k, (k, some item) ∈ r.answers := by
          rw [r.order.mem_iff, List.mem_filterMap]
          simp only [Response.answers, List.mem_map, Prod.mk.injEq]
          constructor
          · rintro ⟨k, hk, hfound⟩
            exact ⟨k, k, hk, rfl, hfound⟩
          · rintro ⟨-, k, hk, -, hfound⟩
            exact ⟨k, hk, hfound⟩
        rw [ih h, List.mem_append, hitems, or_assoc]
        simp only [List.mem_append, exists_or]

end Loops

theorem mem_put {results : List (Text × Entry)} {entry : Text × Entry} {k : Text} :
    k ∈ (put results entry).map Prod.fst ↔ k ∈ results.map Prod.fst ∨ k = entry.1 := by
  rw [put, List.map_append, List.mem_append, List.map_singleton, List.mem_singleton]
  constructor
  · rintro (h | h)
    · obtain ⟨e, he, rfl⟩ := List.mem_map.mp h
      exact .inl (List.mem_map_of_mem (List.mem_filter.mp he).1)
    · exact .inr h
  · rintro (h | h)
    · by_cases hk : k = entry.1
      · exact .inr hk
      · obtain ⟨e, he, rfl⟩ := List.mem_map.mp h
        exact .inl (List.mem_map_of_mem (List.mem_filter.mpr ⟨he, decide_eq_true hk⟩))
    · exact .inr h

theorem mem_foldl_put {entries results : List (Text × Entry)} {k : Text} :
    k ∈ (entries.foldl put results).map Prod.fst ↔
      k ∈ results.map Prod.fst ∨ k ∈ entries.map Prod.fst := by
  induction entries generalizing results with
  | nil => simp
  | cons entry entries ih =>
    rw [List.foldl_cons, ih, mem_put, List.map_cons, List.mem_cons, or_assoc]

section Batches
variable {σ : Settings} {clock : Clock} {cutoff : Option Int} {server : Nat → Server σ.keyAttribute}

/-- What the table answers for the batches, each of which has its number. -/
def answersIn (σ : Settings) (server : Nat → Server σ.keyAttribute)
    (batches : List (List Text × Nat)) : List (Text × Option Item) :=
  batches.flatMap fun b => answersOf (server b.2) (maxRetries σ + 1) 0 b.1

/-- The keys of the batches that are left unprocessed. -/
def leftIn (σ : Settings) (server : Nat → Server σ.keyAttribute)
    (batches : List (List Text × Nat)) : List Text :=
  batches.flatMap fun b => leftAfter (server b.2) (maxRetries σ + 1) 0 b.1

/-- The requests for a batch end in an exception. -/
def failsIn (σ : Settings) (server : Nat → Server σ.keyAttribute)
    (batches : List (List Text × Nat)) : Bool :=
  batches.any fun b => fails (server b.2) (maxRetries σ + 1) 0 b.1

theorem into_answersIn (batches : List (List Text × Nat)) :
    Leftover.Into ((answersIn σ server batches).map Prod.fst) (leftIn σ server batches)
      (batches.flatMap Prod.fst) := by
  induction batches with
  | nil => exact .start []
  | cons b batches ih =>
    have hone := into_answersOf (server b.2) (maxRetries σ + 1) 0 b.1
    unfold Leftover.Into at hone ih ⊢
    rw [answersIn, leftIn, List.flatMap_cons, List.flatMap_cons, List.flatMap_cons,
      List.map_append]
    refine List.Perm.trans ?_ (hone.append ih)
    rw [List.append_assoc, List.append_assoc]
    refine List.Perm.append_left _ ?_
    rw [← List.append_assoc, ← List.append_assoc]
    exact List.perm_append_comm.append_right _

theorem keyed_answersIn {batches : List (List Text × Nat)} {k : Text} {item : Item}
    (h : (k, some item) ∈ answersIn σ server batches) :
    stringAt σ.keyAttribute item = some k := by
  obtain ⟨b, -, h⟩ := List.mem_flatMap.mp h
  exact keyed_answersOf h

/-- The loop over the batches throws when one batch fails, and otherwise has the hits of the
answers. -/
theorem lookupBatches_eq_none_iff {b : Nat} {batches : List (List Text)}
    {results : List (Text × Entry)} :
    lookupBatches σ clock cutoff server b batches results = none ↔
      failsIn σ server (batches.zipIdx b) = true := by
  induction batches generalizing b results with
  | nil => simp [lookupBatches, failsIn]
  | cons batch batches ih =>
    rw [lookupBatches, failsIn, List.zipIdx_cons, List.any_cons, Bool.or_eq_true]
    have hone := @batchGet_eq_none_iff _ (server b) (maxRetries σ + 1) 0 batch []
    dsimp only
    cases hget : batchGetWithRetries (server b) (maxRetries σ + 1) 0 batch [] with
    | none => simp [hone.mp hget]
    | some items =>
      have hfine : ¬ fails (server b) (maxRetries σ + 1) 0 batch = true := by
        intro hfails
        rw [hone.mpr hfails] at hget
        exact nomatch hget
      rw [or_iff_right hfine]
      exact ih

theorem mem_lookupBatches {b : Nat} {batches : List (List Text)}
    {results results' : List (Text × Entry)}
    (h : lookupBatches σ clock cutoff server b batches results = some results') {k : Text} :
    k ∈ results'.map Prod.fst ↔ k ∈ results.map Prod.fst ∨
      ∃ key item, (key, some item) ∈ answersIn σ server (batches.zipIdx b) ∧
        (hit σ clock cutoff item).map Prod.fst = some k := by
  induction batches generalizing b results with
  | nil =>
    obtain rfl := Option.some.inj h
    simp [answersIn]
  | cons batch batches ih =>
    rw [lookupBatches] at h
    split at h
    · exact nomatch h
    next items hget =>
      have hhits : k ∈ (items.filterMap (hit σ clock cutoff)).map Prod.fst ↔
          ∃ key item, (key, some item) ∈ answersOf (server b) (maxRetries σ + 1) 0 batch ∧
            (hit σ clock cutoff item).map Prod.fst = some k := by
        rw [List.map_filterMap, List.mem_filterMap]
        constructor
        · rintro ⟨item, hitem, hk⟩
          rcases (mem_batchGet hget).mp hitem with hnil | ⟨key, hkey⟩
          · exact absurd hnil List.not_mem_nil
          · exact ⟨key, item, hkey, hk⟩
        · rintro ⟨key, item, hkey, hk⟩
          exact ⟨item, (mem_batchGet hget).mpr (.inr ⟨key, hkey⟩), hk⟩
      have hcons : answersIn σ server ((batch :: batches).zipIdx b) =
          answersOf (server b) (maxRetries σ + 1) 0 batch ++
            answersIn σ server (batches.zipIdx (b + 1)) := rfl
      rw [ih h, mem_foldl_put, hhits, or_assoc, hcons]
      simp only [List.mem_append, or_and_right, exists_or]

end Batches

/-! ## Misses -/

/-- The cache is asked: there is a table, and items may be fresh. -/
def Asks (σ : Settings) : Prop :=
  σ.table ≠ [] ∧ (σ.cacheOnlyEnabled = true ∨ 0 < σ.freshnessDays)

instance (σ : Settings) : Decidable (Asks σ) := by
  unfold Asks
  infer_instance

/-- The batches of the keys, with their numbers. -/
def numbered (σ : Settings) (emails : List Text) : List (List Text × Nat) :=
  (batchesOf σ emails).zipIdx

/-- What the table answers when it is asked. -/
def answersTo (σ : Settings) (server : Nat → Server σ.keyAttribute) (emails : List Text) :
    List (Text × Option Item) :=
  if Asks σ then answersIn σ server (numbered σ emails) else []

/-- The item is older than the cutoff of the call. -/
def StaleItem (σ : Settings) (clock : Clock) (item : Item) : Prop :=
  ∃ c, cutoff σ clock = some c ∧ isStale σ clock c item = true

/-- An address is left out only when the table has answered for it, with no item or with a stale
one. -/
def Faithful (σ : Settings) (clock : Clock) (server : Nat → Server σ.keyAttribute)
    (emails : List Text) : Option (List (Text × Entry)) → Prop
  | none => True
  | some results => ∀ k ∈ normalizeEmails emails, k ∉ results.map Prod.fst →
      ∃ answer, (k, answer) ∈ answersTo σ server emails ∧
        ∀ item, answer = some item → StaleItem σ clock item

section Faithful
variable {σ : Settings} {clock : Clock} {server : Nat → Server σ.keyAttribute}
  {emails : List Text}

theorem nodup_eraseDups (l : List Text) : l.eraseDups.Nodup := by
  induction hn : l.length using Nat.strong_induction_on generalizing l with
  | _ n ih =>
    cases l with
    | nil => exact List.nodup_nil
    | cons a l =>
      rw [List.eraseDups_cons, List.nodup_cons]
      refine ⟨fun hmem => ?_, ih _ ?_ _ rfl⟩
      · have := (List.mem_filter.mp (List.mem_eraseDups.mp hmem)).2
        simp at this
      · rw [← hn]
        exact Nat.lt_succ_of_le (List.length_filter_le _ l)

theorem nodup_normalizeEmails (emails : List Text) : (normalizeEmails emails).Nodup :=
  nodup_eraseDups _

theorem normalizeEmail_of_mem {k : Text} (h : k ∈ normalizeEmails emails) :
    normalizeEmail k = k := by
  obtain ⟨hk, -⟩ := List.mem_filter.mp (List.mem_eraseDups.mp h)
  obtain ⟨email, -, rfl⟩ := List.mem_map.mp hk
  rw [normalizeEmail, normalizeEmail, trim_strtolower, strtolower_strtolower]

/-- Every key is answered for or left unprocessed, once. -/
theorem into_numbered : Leftover.Into ((answersIn σ server (numbered σ emails)).map Prod.fst)
    (leftIn σ server (numbered σ emails)) (normalizeEmails emails) := by
  have h := @into_answersIn σ server (numbered σ emails)
  have hkeys : (numbered σ emails).flatMap Prod.fst = normalizeEmails emails := by
    rw [List.flatMap_def, numbered, List.zipIdx_map_fst, batchesOf,
      ScreeningToProbeChunkPlanner.arrayChunk,
      ScreeningToProbeChunkPlanner.flatten_arrayChunkFrom, List.nil_append]
  rwa [hkeys] at h

theorem answer_unique {k : Text} {a b : Option Item}
    (ha : (k, a) ∈ answersIn σ server (numbered σ emails))
    (hb : (k, b) ∈ answersIn σ server (numbered σ emails)) : a = b := by
  have hnodup := (@into_numbered σ server emails).nodup_iff.mpr
    (nodup_normalizeEmails emails)
  have hkeys := (List.nodup_append.mp hnodup).1
  exact (Prod.mk.inj (List.inj_on_of_nodup_map hkeys ha hb rfl)).2

theorem answer_key {k : Text} {a : Option Item}
    (ha : (k, a) ∈ answersIn σ server (numbered σ emails)) : k ∈ normalizeEmails emails :=
  (@into_numbered σ server emails).mem_iff.mp
    (List.mem_append_left _ (List.mem_map_of_mem ha))

/-- A hit of an answer is under its key. -/
theorem hit_of_answer {cutoff : Option Int} {k : Text} {item : Item}
    (ha : (k, some item) ∈ answersIn σ server (numbered σ emails)) :
    (hit σ clock cutoff item).map Prod.fst =
      if (readable σ item).isSome ∧ isStale σ clock cutoff item = false then some k else none := by
  have hkey := keyed_answersIn ha
  have hsame := normalizeEmail_of_mem (answer_key ha)
  unfold hit
  cases hr : readable σ item with
  | none => simp
  | some found =>
    obtain ⟨email, status⟩ := found
    have hemail : email = k := by
      rw [readable, hkey] at hr
      dsimp only at hr
      split at hr
      · exact nomatch hr
      · obtain ⟨_, -, heq⟩ := Option.map_eq_some_iff.mp hr
        rw [← (Prod.mk.inj heq).1, hsame]
    by_cases hs : isStale σ clock cutoff item = true
    · simp [hs]
    · simp [hs, hemail]

theorem exists_cutoff (h : Asks σ) : ∃ c, cutoff σ clock = some c := by
  unfold cutoff
  rcases h.2 with honly | hfresh
  · exact ⟨none, if_pos honly⟩
  · by_cases honly : σ.cacheOnlyEnabled = true
    · exact ⟨none, if_pos honly⟩
    · exact ⟨_, by rw [if_neg honly, if_neg (Int.not_le.mpr hfresh)]⟩

theorem staleItem_iff {c : Option Int} (hc : cutoff σ clock = some c) {item : Item} :
    StaleItem σ clock item ↔ isStale σ clock c item = true := by
  constructor
  · rintro ⟨c', hc', hitem⟩
    rw [hc] at hc'
    exact Option.some.inj hc' ▸ hitem
  · exact fun hitem => ⟨c, hc, hitem⟩

/-- When the cache is not asked, nothing is found. -/
theorem lookupMany_of_not_asks (h : ¬ Asks σ) : lookupMany σ clock server emails = some [] := by
  rw [lookupMany]
  by_cases htable : σ.table = []
  · rw [if_pos (.inl htable)]
  by_cases hnil : normalizeEmails emails = []
  · rw [if_pos (.inr hnil)]
  obtain ⟨honly, hdays⟩ := not_or.mp fun hfresh => h ⟨htable, hfresh⟩
  rw [if_neg (not_or.mpr ⟨htable, hnil⟩), cutoff, if_neg honly, if_pos (Int.not_lt.mp hdays)]

/-- A key is in the result exactly if its answer is an item that can be read and is fresh. -/
theorem mem_results_iff {c : Option Int} {results : List (Text × Entry)}
    (h : lookupBatches σ clock c server 0 (batchesOf σ emails) [] = some results) {k : Text} :
    k ∈ results.map Prod.fst ↔
      ∃ item, (k, some item) ∈ answersIn σ server (numbered σ emails) ∧
        (readable σ item).isSome ∧ isStale σ clock c item = false := by
  rw [mem_lookupBatches h, List.map_nil, or_iff_right List.not_mem_nil]
  constructor
  · rintro ⟨k', item, ha, hk⟩
    rw [hit_of_answer ha] at hk
    obtain ⟨hread, heq⟩ := Option.ite_none_right_eq_some.mp hk
    rw [← Option.some.inj heq]
    exact ⟨item, ha, hread⟩
  · rintro ⟨item, ha, hread⟩
    exact ⟨k, item, ha, by rw [hit_of_answer ha, if_pos hread]⟩

/-- A key that is left unprocessed has no answer. -/
theorem not_answered_of_left {k : Text} (hk : k ∈ leftIn σ server (numbered σ emails))
    (a : Option Item) : (k, a) ∉ answersIn σ server (numbered σ emails) := by
  intro ha
  have hnodup := (@into_numbered σ server emails).nodup_iff.mpr (nodup_normalizeEmails emails)
  exact (List.nodup_append.mp hnodup).2.2 k (List.mem_map_of_mem ha) k hk rfl

/-- Where the requests for every batch come to an end, no miss is made up exactly if no key is
left and every item can be read or is stale. -/
theorem faithful_results_iff (hasks : Asks σ) {c : Option Int} (hc : cutoff σ clock = some c)
    {results : List (Text × Entry)}
    (hresult : lookupBatches σ clock c server 0 (batchesOf σ emails) [] = some results) :
    Faithful σ clock server emails (some results) ↔
      leftIn σ server (numbered σ emails) = [] ∧
        ∀ k item, (k, some item) ∈ answersIn σ server (numbered σ emails) →
          StaleItem σ clock item ∨ (readable σ item).isSome = true := by
  have hinto := @into_numbered σ server emails
  simp only [Faithful, answersTo, if_pos hasks, staleItem_iff hc]
  constructor
  · intro h
    constructor
    · -- a key that is left is neither in the result nor excused
      refine List.eq_nil_iff_forall_not_mem.mpr fun k hk => ?_
      have hout : k ∉ results.map Prod.fst := by
        rw [mem_results_iff hresult]
        rintro ⟨item, ha, -⟩
        exact not_answered_of_left hk _ ha
      obtain ⟨a, ha, -⟩ := h k (hinto.mem_iff.mp (List.mem_append_right _ hk)) hout
      exact not_answered_of_left hk a ha
    · intro k item ha
      by_cases hin : k ∈ results.map Prod.fst
      · obtain ⟨item', ha', hread, -⟩ := (mem_results_iff hresult).mp hin
        obtain rfl := Option.some.inj (answer_unique ha ha')
        exact .inr hread
      · obtain ⟨a, ha', hold⟩ := h k (answer_key ha) hin
        exact .inl (hold item (answer_unique ha' ha))
  · rintro ⟨hleft, hread⟩ k hk hout
    unfold Leftover.Into at hinto
    rw [hleft, List.append_nil] at hinto
    obtain ⟨⟨k', a⟩, ha, rfl⟩ := List.mem_map.mp (hinto.mem_iff.mpr hk)
    refine ⟨a, ha, ?_⟩
    rintro item rfl
    by_contra hfresh
    refine hout ((mem_results_iff hresult).mpr ⟨item, ha, ?_, by simpa using hfresh⟩)
    exact (hread _ _ ha).resolve_left hfresh

/-- **`lookupMany` reports no miss that the table has not answered exactly when it asks for
nothing, or the cache is on and either the requests for a batch end in an exception, or the
requests for every batch leave no key unprocessed and every item they answer is stale or can be
read.** -/
theorem lookupMany_faithful_iff (σ : Settings) (clock : Clock)
    (server : Nat → Server σ.keyAttribute) (emails : List Text) :
    Faithful σ clock server emails (lookupMany σ clock server emails) ↔
      normalizeEmails emails = [] ∨ (Asks σ ∧
        (failsIn σ server (numbered σ emails) = true ∨
          (leftIn σ server (numbered σ emails) = [] ∧
            ∀ k item, (k, some item) ∈ answersIn σ server (numbered σ emails) →
              StaleItem σ clock item ∨ (readable σ item).isSome = true))) := by
  by_cases hnil : normalizeEmails emails = []
  · simp [lookupMany, Faithful, hnil]
  rw [or_iff_right hnil]
  by_cases hasks : Asks σ
  · obtain ⟨c, hc⟩ := @exists_cutoff σ clock hasks
    have hlookup : lookupMany σ clock server emails =
        lookupBatches σ clock c server 0 (batchesOf σ emails) [] := by
      rw [lookupMany, if_neg (not_or.mpr ⟨hasks.1, hnil⟩), hc]
    rw [hlookup, and_iff_right hasks]
    cases hresult : lookupBatches σ clock c server 0 (batchesOf σ emails) [] with
    | none => exact iff_of_true trivial (.inl (lookupBatches_eq_none_iff.mp hresult))
    | some results =>
      have hfine : ¬ failsIn σ server (numbered σ emails) = true := by
        intro hfails
        rw [lookupBatches_eq_none_iff.mpr hfails] at hresult
        exact nomatch hresult
      rw [or_iff_right hfine]
      exact faithful_results_iff hasks hc hresult
  · -- nothing is found, although there is a key
    obtain ⟨key, hkey⟩ := List.exists_mem_of_ne_nil _ hnil
    rw [lookupMany_of_not_asks hasks]
    refine iff_of_false ?_ (fun h => hasks h.1)
    intro h
    obtain ⟨a, ha, -⟩ := h key hkey List.not_mem_nil
    rw [answersTo, if_neg hasks] at ha
    exact nomatch ha

end Faithful

/-- A table that leaves every key unprocessed. -/
def unprocessing (keyAttribute : Text) : Server keyAttribute := fun _ keys =>
  .ok {
    unprocessed := ⟨keys, .refl keys⟩
    found := fun _ => none
    keyed := fun _ _ h => nomatch h
    items := []
    order := by simp }

/-- A clock at time zero. -/
def epoch : Clock where
  parse _ := none
  toISOString _ := "1970-01-01T00:00:00.000000Z".toList
  subDays days := -days * 86400

/-- When the table is still busy at the retry, an address it was never asked about with success
is a miss. -/
theorem lookupMany_fails :
    ¬ Faithful { table := "cache".toList } epoch (fun _ => unprocessing "email".toList)
      ["ada@example.org".toList]
      (lookupMany { table := "cache".toList } epoch (fun _ => unprocessing "email".toList)
        ["ada@example.org".toList]) := by
  have hanswers : answersTo { table := "cache".toList } (fun _ => unprocessing "email".toList)
      ["ada@example.org".toList] = [] := by decide
  have hresult : lookupMany { table := "cache".toList } epoch
      (fun _ => unprocessing "email".toList) ["ada@example.org".toList] = some [] := rfl
  rw [hresult]
  intro h
  obtain ⟨a, ha, -⟩ := h "ada@example.org".toList (by decide) List.not_mem_nil
  rw [hanswers] at ha
  exact nomatch ha

/-! ## For the parser -/

/-- The result as `flushBatch` of `ParseAndChunkJob` takes it. -/
def toLookup : Option (List (Text × Entry)) → ParseAndChunkJob.Lookup
  | none => .throws
  | some results => .hits (results.map fun e =>
      (e.1, .entry (some e.2.status) (some e.2.outcome) (some e.2.reasonCode) none))

/-- What is left out of the result is a miss for the parser. -/
theorem lookup_toLookup {results : List (Text × Entry)} {found : List (Text × ParseAndChunkJob.Hit)}
    (h : toLookup (some results) = .hits found) (k : Text) :
    found.lookup k = none ↔ k ∉ results.map Prod.fst := by
  obtain rfl := ParseAndChunkJob.Lookup.hits.inj h
  rw [List.lookup_eq_none_iff]
  constructor
  · intro hall hmem
    obtain ⟨e, he, rfl⟩ := List.mem_map.mp hmem
    simpa using hall _ (List.mem_map_of_mem he)
  · intro hnone p hp
    obtain ⟨e, he, rfl⟩ := List.mem_map.mp hp
    refine bne_iff_ne.mpr fun heq => hnone ?_
    exact List.mem_map.mpr ⟨e, he, heq.symm⟩

end ValidEmailVerifier.CacheLookup
