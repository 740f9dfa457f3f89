/-
# `Pipeline.ScreeningToProbeChunkPlanner` — the handoff of a screening chunk

What the planner computes from the three outputs of a screening chunk: which
rows stay (`hardInvalidRows`), which addresses go on to the SMTP probe
(`candidates`), and how these are cut into shards.  The effects are
instructions of `Pipeline.Machine`.

Two laws are needed later.  `classify_emails`: when the outputs name every
address once, in the form `normalizeEmail` returns, the addresses kept and the
addresses handed on are together the addresses of the outputs.
`buildProbeShards_emails`: the shards hold exactly the candidates.
-/
import Mathlib.Data.Char
import Mathlib.Data.List.Lex
import Mathlib.Data.List.Perm.Basic
import Mathlib.Data.List.Sort
import ValidEmailVerifier.Lib.Text
import ValidEmailVerifier.Pipeline.Settings

namespace ValidEmailVerifier.ScreeningToProbeChunkPlanner

open Text

/-! ## Reading the outputs -/

/-- A row of `readResultRows`. -/
structure ResultRow where
  email : Text
  reason : Text
  status : OutputType
  deriving DecidableEq, Repr

/-- `isHeaderRow`. -/
def isHeaderRow (columns : Record) : Bool :=
  strtolower (trim (columns[0]?.getD [])) == "email".toList

/-- One round of the loop of `readResultRows`. -/
def readRow (fallbackStatus : OutputType) (columns : Record) : Option ResultRow :=
  let email := trim (columns[0]?.getD [])
  if columns = [] ∨ isHeaderRow columns ∨ email = [] then none
  else
    match OutputType.ofName? (strtolower (trim (columns[1]?.getD fallbackStatus.name))) with
    | some status =>
        if 5 ≤ columns.length then some ⟨email, trim (columns[4]?.getD []), status⟩
        else some ⟨email, trim (columns[1]?.getD []), fallbackStatus⟩
    | none => some ⟨email, trim (columns[1]?.getD []), fallbackStatus⟩

/-- `readResultRows`; a missing object has no rows. -/
def readResultRows (file : Option File) (fallbackStatus : OutputType) : List ResultRow :=
  (file.getD []).filterMap (readRow fallbackStatus)

/-- `normalizeEmail`. -/
def normalizeEmail (php : Php) (email : Text) : Option Text :=
  let email := strtolower (trim email)
  if email = [] ∨ php.filterVarEmail email = false then none else some email

/-! ## Routing hints -/

/-- `domainMatches`. -/
def domainMatches (domain : Text) (suffixes : List Text) : Bool :=
  suffixes.any fun suffix => domain == suffix || ('.' :: suffix).isSuffixOf domain

/-- `providerForDomain`. -/
def providerForDomain (domain : Text) : Provider :=
  let domain := strtolower (trim domain)
  if domain = [] then .generic
  else if domainMatches domain ["gmail.com".toList, "googlemail.com".toList] then .gmail
  else if domainMatches domain ["outlook.com".toList, "hotmail.com".toList,
      "live.com".toList, "msn.com".toList, "office365.com".toList] then .microsoft
  else if domainMatches domain ["yahoo.com".toList, "ymail.com".toList,
      "rocketmail.com".toList] then .yahoo
  else .generic

/-- `routingHintsForEmail`. -/
def routingHintsForEmail (php : Php) (email : Text) : Provider × Text :=
  let domain := trim (after '@' (strtolower (trim email)))
  if domain = [] then (.generic, "sha1:generic".toList)
  else (providerForDomain domain, "sha1:".toList ++ php.sha1 domain)

/-! ## Classification -/

/-- An entry of `$candidateMap`. -/
structure Candidate where
  email : Text
  provider : Provider
  domainHash : Text
  deriving DecidableEq, Repr

/-- `$hardInvalidRows` and `$candidateMap`. -/
structure Classification where
  hardInvalidRows : List (Text × Text) := []
  candidates : List Candidate := []
  deriving DecidableEq, Repr

/-- A row of the invalid file whose reason rules a probe out. -/
def isHardInvalid (hardInvalidReasons : List Text) (status : OutputType)
    (row : ResultRow) : Bool :=
  status == .invalid && hardInvalidReasons.contains (before ':' (strtolower (trim row.reason)))

/-- One round of the classification loop. -/
def classifyRow (php : Php) (hardInvalidReasons : List Text) (acc : Classification)
    (status : OutputType) (row : ResultRow) : Classification :=
  match normalizeEmail php row.email with
  | none => acc
  | some email =>
      if isHardInvalid hardInvalidReasons status row then
        { acc with hardInvalidRows :=
            acc.hardInvalidRows ++ [(email, before ':' (strtolower (trim row.reason)))] }
      else if acc.candidates.any (fun c => c.email == email) then acc
      else
        let (provider, domainHash) := routingHintsForEmail php email
        { acc with candidates := acc.candidates ++ [⟨email, provider, domainHash⟩] }

/-- The rows of the three files, each with the file it is from. -/
def allRows (files : PerType (Option File)) : List (OutputType × ResultRow) :=
  OutputType.all.flatMap fun t => (readResultRows (files.get t) t).map (fun r => (t, r))

/-- The nested loops of `plan`. -/
def classify (php : Php) (hardInvalidReasons : List Text)
    (files : PerType (Option File)) : Classification :=
  (allRows files).foldl (fun acc r => classifyRow php hardInvalidReasons acc r.1 r.2) {}

/-! ## Shards -/

structure Shard where
  emails : List Text
  provider : Provider
  domainHash : Text
  preferredPool : Option Text
  deriving DecidableEq, Repr

def providerName : Provider → Text
  | .generic => "generic".toList
  | .gmail => "gmail".toList
  | .microsoft => "microsoft".toList
  | .yahoo => "yahoo".toList

/-- `normalizeProvider`. -/
def normalizeProvider (provider : Text) : Provider :=
  let provider := strtolower (trim provider)
  ([.gmail, .microsoft, .yahoo].find? (fun p => providerName p == provider)).getD .generic

/-- `preferredPoolForProvider`: the last entry of the map for the provider. -/
def preferredPoolForProvider (σ : Settings) (provider : Provider) : Option Text :=
  let map := σ.probePreferredPools.filterMap fun e =>
    let pool := trim e.2
    if pool = [] then none else some (normalizeProvider e.1, pool)
  (map.reverse.find? (fun e => e.1 == provider)).map Prod.snd

/-- A bucket of candidates with one provider and one domain. -/
structure Bucket where
  provider : Provider
  domainHash : Text
  emails : List Text
  deriving DecidableEq, Repr

/-- `$bucketKey`. -/
def Bucket.key (b : Bucket) : Text := providerName b.provider ++ '|' :: b.domainHash

/-- Put a candidate into its bucket, making the bucket if it is the first. -/
def addToBuckets : List Bucket → Candidate → List Bucket
  | [], c => [⟨c.provider, c.domainHash, [c.email]⟩]
  | b :: bs, c =>
      if b.key = Bucket.key ⟨c.provider, c.domainHash, []⟩ then
        { b with emails := b.emails ++ [c.email] } :: bs
      else b :: addToBuckets bs c

/-- `array_chunk`: `open_` is the chunk being filled. -/
def arrayChunkFrom (size : Nat) : List Text → List Text → List (List Text)
  | open_, [] => if open_ = [] then [] else [open_]
  | open_, x :: xs =>
      if size ≤ (open_ ++ [x]).length then (open_ ++ [x]) :: arrayChunkFrom size [] xs
      else arrayChunkFrom size (open_ ++ [x]) xs

def arrayChunk (size : Nat) (emails : List Text) : List (List Text) :=
  arrayChunkFrom size [] emails

/-- A last chunk below the minimum is merged into the one before it. -/
def mergeShortTail (minSize : Nat) : List (List Text) → List (List Text)
  | [] => []
  | [last] => [last]
  | [prev, last] => if last.length < minSize then [prev ++ last] else [prev, last]
  | c :: rest => c :: mergeShortTail minSize rest

/-- The shards of one bucket. -/
def bucketShards (σ : Settings) (shardSize minSize : Nat) (b : Bucket) : List Shard :=
  let emails := b.emails.eraseDups.insertionSort (· ≤ ·)
  (mergeShortTail minSize (arrayChunk shardSize emails)).map fun emails =>
    ⟨emails, b.provider, b.domainHash, preferredPoolForProvider σ b.provider⟩

/-- `buildProbeShards`. -/
def buildProbeShards (σ : Settings) (candidates : List Candidate) : List Shard :=
  let targetSize := max 1 σ.probeShardTargetSize
  let minSize := max 1 σ.probeShardMinSize
  let maxSize := max minSize σ.probeShardMaxSize
  let shardSize := min maxSize (max minSize targetSize)
  if σ.probeShardingEnabled then
    ((candidates.foldl addToBuckets []).insertionSort (fun a b => a.key ≤ b.key)).flatMap
      (bucketShards σ shardSize.toNat minSize.toNat)
  else
    [⟨(candidates.map Candidate.email).insertionSort (· ≤ ·), .generic,
      "sha1:generic".toList, preferredPoolForProvider σ .generic⟩]

/-- The row `createProbeChunks` inserts for a shard. -/
def probeChunk (parent : Nat) (id chunkNo rotationGroupId : Nat) (disk : Disk)
    (maxProbeAttempts : Nat) (shard : Shard) (now : Nat) : Chunk where
  id := id
  chunkNo := chunkNo
  status := .pending
  processingStage := some .smtpProbe
  sourceStage := some .screening
  parentChunkId := some parent
  routingProvider := some shard.provider
  routingDomain := some shard.domainHash
  preferredPool := shard.preferredPool
  rotationGroupId := some rotationGroupId
  lastWorkerIds := []
  maxProbeAttempts := maxProbeAttempts
  inputDisk := some disk
  inputKey := .chunkInput chunkNo
  emailCount := shard.emails.length
  createdAt := now

/-- `writeRows`: the header, then one record for each row. -/
def writeRows (rows : List (Text × Text)) : File :=
  ["email".toList, "reason".toList] :: rows.map (fun r => [r.1, r.2])

/-! ## The classification loses and repeats nothing -/

/-- The addresses of the rows the classification looks at. -/
def normalized (php : Php) (files : PerType (Option File)) : List Text :=
  (allRows files).filterMap (fun r => normalizeEmail php r.2.email)

/-- The addresses of a classification: those that stay, then those handed on. -/
def Classification.emails (c : Classification) : List Text :=
  c.hardInvalidRows.map Prod.fst ++ c.candidates.map Candidate.email

section Classify
variable {php : Php} {reasons : List Text}

/-- A row adds its address to one of the two sides. -/
theorem classifyRow_emails {acc : Classification} {t : OutputType} {row : ResultRow}
    {email : Text} (hn : normalizeEmail php row.email = some email)
    (hnew : email ∉ acc.emails) :
    (classifyRow php reasons acc t row).emails.Perm (email :: acc.emails) := by
  unfold classifyRow
  simp only [hn]
  split
  · simp only [Classification.emails, List.map_append, List.map_cons, List.map_nil,
      List.append_assoc, List.singleton_append]
    exact List.perm_middle
  · split
    next hany =>
      exfalso
      obtain ⟨c, hc, hce⟩ := List.any_eq_true.mp hany
      refine hnew (List.mem_append_right _ (List.mem_map.mpr ⟨c, hc, ?_⟩))
      simpa using hce
    next =>
      simp only [Classification.emails, List.map_append, List.map_cons, List.map_nil,
        ← List.append_assoc]
      exact List.perm_append_singleton email _

theorem classifyRows_emails (rows : List (OutputType × ResultRow)) (acc : Classification)
    (hnodup : (acc.emails ++
      rows.filterMap (fun r => normalizeEmail php r.2.email)).Nodup) :
    (rows.foldl (fun acc r => classifyRow php reasons acc r.1 r.2) acc).emails.Perm
      (acc.emails ++ rows.filterMap (fun r => normalizeEmail php r.2.email)) := by
  induction rows generalizing acc with
  | nil => simp
  | cons r rest ih =>
      cases hn : normalizeEmail php r.2.email with
      | none =>
          have hkeep : classifyRow php reasons acc r.1 r.2 = acc := by
            simp [classifyRow, hn]
          simp only [List.foldl_cons, hkeep, List.filterMap_cons, hn] at hnodup ⊢
          exact ih acc hnodup
      | some email =>
          simp only [List.foldl_cons, List.filterMap_cons, hn] at hnodup ⊢
          have hnew : email ∉ acc.emails := fun hmem =>
            List.nodup_append.mp hnodup |>.2.2 email hmem email (by simp) rfl
          have hone : (classifyRow php reasons acc r.1 r.2).emails.Perm
              (email :: acc.emails) := classifyRow_emails hn hnew
          have hmove : ((classifyRow php reasons acc r.1 r.2).emails ++
              rest.filterMap (fun r => normalizeEmail php r.2.email)).Perm
              (acc.emails ++ email ::
                rest.filterMap (fun r => normalizeEmail php r.2.email)) :=
            (hone.append_right _).trans List.perm_middle.symm
          exact (ih _ (hmove.nodup_iff.mpr hnodup)).trans hmove

/-- **The classification conserves addresses** when the outputs name each once. -/
theorem classify_emails {files : PerType (Option File)}
    (hnodup : (normalized php files).Nodup) :
    (classify php reasons files).emails.Perm (normalized php files) :=
  classifyRows_emails (allRows files) {}
    (by simpa [Classification.emails, normalized] using hnodup)

end Classify

/-! ## The shards hold the candidates -/

theorem addToBuckets_emails (bs : List Bucket) (c : Candidate) :
    ((addToBuckets bs c).flatMap Bucket.emails).Perm
      (bs.flatMap Bucket.emails ++ [c.email]) := by
  induction bs with
  | nil => exact .refl _
  | cons b rest ih =>
      unfold addToBuckets
      split
      · simp only [List.flatMap_cons, List.append_assoc]
        exact List.perm_append_comm.append_left _
      · simp only [List.flatMap_cons, List.append_assoc]
        exact ih.append_left _

theorem buckets_emails (candidates : List Candidate) (bs : List Bucket) :
    ((candidates.foldl addToBuckets bs).flatMap Bucket.emails).Perm
      (bs.flatMap Bucket.emails ++ candidates.map Candidate.email) := by
  induction candidates generalizing bs with
  | nil => simp
  | cons c rest ih =>
      refine (ih (addToBuckets bs c)).trans ?_
      refine ((addToBuckets_emails bs c).append_right _).trans (List.Perm.of_eq ?_)
      simp

theorem flatten_arrayChunkFrom (size : Nat) (emails open_ : List Text) :
    (arrayChunkFrom size open_ emails).flatten = open_ ++ emails := by
  induction emails generalizing open_ with
  | nil =>
      unfold arrayChunkFrom
      split
      next h => simp [h]
      next => simp
  | cons x xs ih =>
      unfold arrayChunkFrom
      split
      · simp [ih]
      · simp [ih]

theorem flatten_mergeShortTail (minSize : Nat) (chunks : List (List Text)) :
    (mergeShortTail minSize chunks).flatten = chunks.flatten := by
  fun_induction mergeShortTail minSize chunks with
  | case1 => rfl
  | case2 => rfl
  | case3 => simp
  | case4 => rfl
  | case5 c rest _ _ ih => simp [ih]

theorem bucketShards_emails (σ : Settings) (shardSize minSize : Nat) {b : Bucket}
    (hnodup : b.emails.Nodup) :
    ((bucketShards σ shardSize minSize b).flatMap Shard.emails).Perm b.emails := by
  have hflat : (bucketShards σ shardSize minSize b).flatMap Shard.emails =
      (mergeShortTail minSize (arrayChunk shardSize
        (b.emails.eraseDups.insertionSort (· ≤ ·)))).flatten := by
    simp [bucketShards, List.flatMap_def, Function.comp_def]
  rw [hflat, flatten_mergeShortTail, arrayChunk, flatten_arrayChunkFrom,
    eraseDups_of_nodup hnodup, List.nil_append]
  exact List.perm_insertionSort _ _

/-- **The shards are a partition of the candidates.** -/
theorem buildProbeShards_emails (σ : Settings) {candidates : List Candidate}
    (hnodup : (candidates.map Candidate.email).Nodup) :
    ((buildProbeShards σ candidates).flatMap Shard.emails).Perm
      (candidates.map Candidate.email) := by
  unfold buildProbeShards
  simp only
  split
  · have hbuckets := buckets_emails candidates []
    rw [List.flatMap_nil, List.nil_append] at hbuckets
    have hsort := (List.perm_insertionSort (fun a b : Bucket => a.key ≤ b.key)
      (candidates.foldl addToBuckets [])).flatMap_right Bucket.emails
    rw [List.flatMap_assoc]
    refine List.Perm.trans (List.Perm.flatMap_left _ fun b hb => ?_)
      (hsort.trans hbuckets)
    refine bucketShards_emails σ _ _ ?_
    have hall := (hsort.trans hbuckets).nodup_iff.mpr hnodup
    exact (List.nodup_flatMap.mp hall).1 b hb
  · simpa using List.perm_insertionSort (· ≤ ·) (candidates.map Candidate.email)

end ValidEmailVerifier.ScreeningToProbeChunkPlanner
