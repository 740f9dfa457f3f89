/-
# `Pipeline.ProbeShards` — how the candidates of a screening chunk are cut into shards

The planner groups the candidates by provider and domain, sorts each group and cuts it into
pieces of the shard size.  A last piece below the minimum size is merged into the piece before it,
and what comes out of that may be larger than the maximum the shard size was clamped to.

With sharding enabled the shards are a partition into nonempty pieces of one provider and one
domain (`buildProbeShards_sharding`), and whether they stay within the maximum is a matter of the
sizes of the groups alone (`bounded_iff`).  With sharding disabled there is one shard of
everything.
-/
import ValidEmailVerifier.Pipeline.ScreeningToProbeChunkPlanner

namespace ValidEmailVerifier.ScreeningToProbeChunkPlanner

/-! ## What is asked of the shards -/

/-- `$candidateMap`: an array with the addresses as its keys. -/
structure CandidateMap where
  entries : List Candidate
  nodup : (entries.map Candidate.email).Nodup

/-- `$minSize`. -/
def minSize (σ : Settings) : Nat := (max 1 σ.probeShardMinSize).toNat

/-- `$maxSize`: the configured maximum, which is never below the minimum. -/
def maxSize (σ : Settings) : Nat :=
  (max (max 1 σ.probeShardMinSize) σ.probeShardMaxSize).toNat

/-- `$shardSize`. -/
def shardSize (σ : Settings) : Nat :=
  (min (max (max 1 σ.probeShardMinSize) σ.probeShardMaxSize)
    (max (max 1 σ.probeShardMinSize) (max 1 σ.probeShardTargetSize))).toNat

/-- The candidates of one provider and one domain. -/
def group (candidates : List Candidate) (provider : Provider) (domainHash : Text) :
    List Candidate :=
  candidates.filter fun c => c.provider = provider ∧ c.domainHash = domainHash

/-- The addresses of a shard are of candidates of the group the shard is labelled with. -/
def Homogeneous (candidates : List Candidate) (s : Shard) : Prop :=
  ∀ e ∈ s.emails, e ∈ (group candidates s.provider s.domainHash).map Candidate.email

/-- A partition of the candidates into shards of one group each. -/
structure Partition (candidates : List Candidate) (shards : List Shard) : Prop where
  /-- The shards together have the address of every candidate, once. -/
  perm : (shards.flatMap Shard.emails).Perm (candidates.map Candidate.email)
  nonempty : ∀ s ∈ shards, s.emails ≠ []
  homogeneous : ∀ s ∈ shards, Homogeneous candidates s

/-- No shard holds more candidates than the maximum. -/
def Bounded (σ : Settings) (shards : List Shard) : Prop :=
  ∀ s ∈ shards, s.emails.length ≤ maxSize σ

/-- A group of `n` candidates is cut into several pieces, the last one below the minimum size. -/
def ShortTail (σ : Settings) (n : Nat) : Prop :=
  shardSize σ < n ∧ 0 < n % shardSize σ ∧ n % shardSize σ < minSize σ

instance (σ : Settings) (n : Nat) : Decidable (ShortTail σ n) := by
  unfold ShortTail
  infer_instance

theorem minSize_pos (σ : Settings) : 0 < minSize σ := by
  unfold minSize
  omega

theorem minSize_le_shardSize (σ : Settings) : minSize σ ≤ shardSize σ := by
  unfold minSize shardSize
  omega

theorem shardSize_le_maxSize (σ : Settings) : shardSize σ ≤ maxSize σ := by
  unfold shardSize maxSize
  omega

/-! ## Buckets are groups -/

/-- The key of the bucket of a candidate. -/
def Candidate.key (c : Candidate) : Text := Bucket.key ⟨c.provider, c.domainHash, []⟩

theorem key_inj {p q : Provider} {h k : Text}
    (heq : providerName p ++ '|' :: h = providerName q ++ '|' :: k) : p = q ∧ h = k := by
  have hbar : ∀ p : Provider, ∀ c ∈ providerName p, (c != '|') = true := by
    intro p
    refine List.all_eq_true.mp ?_
    cases p <;> decide
  have htake : ∀ (p : Provider) (t : Text),
      (providerName p ++ '|' :: t).takeWhile (· != '|') = providerName p := by
    intro p t
    rw [List.takeWhile_append_of_pos (hbar p)]
    simp
  have hname : providerName p = providerName q := by
    rw [← htake p h, heq, htake q k]
  have hrest : h = k := by
    rw [hname] at heq
    exact (List.cons.inj (List.append_cancel_left heq)).2
  refine ⟨?_, hrest⟩
  revert hname
  cases p <;> cases q <;> decide

theorem Bucket.key_eq_iff {b : Bucket} {c : Candidate} :
    b.key = c.key ↔ c.provider = b.provider ∧ c.domainHash = b.domainHash := by
  constructor
  · intro h
    obtain ⟨hp, hd⟩ := key_inj h
    exact ⟨hp.symm, hd.symm⟩
  · rintro ⟨hp, hd⟩
    rw [Candidate.key, Bucket.key, Bucket.key, hp, hd]

/-- A candidate goes into the first bucket with its key, or into a new one at the end. -/
theorem addToBuckets_cases (bs : List Bucket) (c : Candidate) :
    (∃ l b r, bs = l ++ b :: r ∧ b.key = c.key ∧
      addToBuckets bs c = l ++ { b with emails := b.emails ++ [c.email] } :: r) ∨
    ((∀ b ∈ bs, b.key ≠ c.key) ∧
      addToBuckets bs c = bs ++ [⟨c.provider, c.domainHash, [c.email]⟩]) := by
  induction bs with
  | nil => exact .inr ⟨nofun, rfl⟩
  | cons b bs ih =>
    by_cases hkey : b.key = c.key
    · exact .inl ⟨[], b, bs, rfl, hkey, if_pos hkey⟩
    · have hskip : addToBuckets (b :: bs) c = b :: addToBuckets bs c := if_neg hkey
      rw [hskip]
      rcases ih with ⟨l, b', r, rfl, hb', heq⟩ | ⟨hnone, heq⟩
      · exact .inl ⟨b :: l, b', r, rfl, hb', by rw [heq]; rfl⟩
      · refine .inr ⟨?_, by rw [heq]; rfl⟩
        intro b' hb'
        rcases List.mem_cons.mp hb' with rfl | hb'
        · exact hkey
        · exact hnone b' hb'

/-- The buckets are the groups of the candidates that have one. -/
structure Grouped (candidates : List Candidate) (bs : List Bucket) : Prop where
  keys : (bs.map Bucket.key).Nodup
  emails : ∀ b ∈ bs, b.emails = (group candidates b.provider b.domainHash).map Candidate.email
  nonempty : ∀ b ∈ bs, b.emails ≠ []
  total : ∀ c ∈ candidates, ∃ b ∈ bs, b.key = c.key

theorem group_append_of_ne {candidates : List Candidate} {c : Candidate} {b : Bucket}
    (h : b.key ≠ c.key) :
    group (candidates ++ [c]) b.provider b.domainHash =
      group candidates b.provider b.domainHash := by
  have hc : [c].filter (fun c => c.provider = b.provider ∧ c.domainHash = b.domainHash) = [] := by
    refine List.filter_eq_nil_iff.mpr fun c' hc' => ?_
    rw [List.mem_singleton.mp hc', decide_eq_true_iff]
    exact mt Bucket.key_eq_iff.mpr h
  rw [group, group, List.filter_append, hc, List.append_nil]

theorem group_append_of_eq {candidates : List Candidate} {c : Candidate} {b : Bucket}
    (h : b.key = c.key) :
    group (candidates ++ [c]) b.provider b.domainHash =
      group candidates b.provider b.domainHash ++ [c] := by
  have hc : [c].filter (fun c => c.provider = b.provider ∧ c.domainHash = b.domainHash) = [c] := by
    refine List.filter_eq_self.mpr fun c' hc' => ?_
    rw [List.mem_singleton.mp hc']
    exact decide_eq_true (Bucket.key_eq_iff.mp h)
  rw [group, group, List.filter_append, hc]

theorem group_eq_nil {candidates : List Candidate} {bs : List Bucket} {c : Candidate}
    (h : Grouped candidates bs) (hnone : ∀ b ∈ bs, b.key ≠ c.key) :
    group candidates c.provider c.domainHash = [] := by
  refine List.filter_eq_nil_iff.mpr fun c' hc' => ?_
  obtain ⟨b, hb, hkey⟩ := h.total c' hc'
  intro hsame
  obtain ⟨hp, hd⟩ := of_decide_eq_true hsame
  refine hnone b hb (hkey.trans ?_)
  rw [Candidate.key, Candidate.key, hp, hd]

theorem Grouped.addToBuckets {candidates : List Candidate} {bs : List Bucket}
    (h : Grouped candidates bs) (c : Candidate) :
    Grouped (candidates ++ [c]) (addToBuckets bs c) := by
  rcases addToBuckets_cases bs c with ⟨l, b, r, rfl, hkey, heq⟩ | ⟨hnone, heq⟩
  · have hothers : ∀ b' ∈ l ++ r, b'.key ≠ c.key := by
      have hnodup := (List.perm_middle.map Bucket.key).nodup_iff.mp h.keys
      intro b' hb' hsame
      refine (List.nodup_cons.mp hnodup).1 ?_
      rw [hkey, ← hsame]
      exact List.mem_map_of_mem hb'
    have hemails : ∀ b' ∈ l ++ r,
        b'.emails = (group (candidates ++ [c]) b'.provider b'.domainHash).map Candidate.email := by
      intro b' hb'
      rw [group_append_of_ne (hothers b' hb')]
      exact h.emails b' (List.perm_middle.mem_iff.mpr (.tail _ hb'))
    rw [heq]
    refine ⟨?_, ?_, ?_, ?_⟩
    · simpa [Bucket.key] using h.keys
    · intro b' hb'
      rcases List.mem_cons.mp (List.perm_middle.mem_iff.mp hb') with rfl | hb'
      · rw [group_append_of_eq hkey, List.map_append]
        dsimp only
        rw [h.emails b (by simp)]
        rfl
      · exact hemails b' hb'
    · intro b' hb'
      rcases List.mem_cons.mp (List.perm_middle.mem_iff.mp hb') with rfl | hb'
      · simp
      · exact h.nonempty b' (List.perm_middle.mem_iff.mpr (.tail _ hb'))
    · intro c' hc'
      rcases List.mem_append.mp hc' with hc' | hc'
      · obtain ⟨b', hb', hkey'⟩ := h.total c' hc'
        rcases List.mem_cons.mp (List.perm_middle.mem_iff.mp hb') with rfl | hb'
        · exact ⟨_, List.perm_middle.mem_iff.mpr (.head _), hkey'⟩
        · exact ⟨b', List.perm_middle.mem_iff.mpr (.tail _ hb'), hkey'⟩
      · rw [List.mem_singleton.mp hc']
        exact ⟨_, List.perm_middle.mem_iff.mpr (.head _), hkey⟩
  · rw [heq]
    refine ⟨?_, ?_, ?_, ?_⟩
    · rw [List.map_append, List.map_singleton, List.nodup_append]
      refine ⟨h.keys, List.nodup_singleton _, ?_⟩
      intro k hk k' hk' hsame
      obtain ⟨b, hb, rfl⟩ := List.mem_map.mp hk
      exact hnone b hb (hsame.trans (List.mem_singleton.mp hk'))
    · intro b hb
      rcases List.mem_append.mp hb with hb | hb
      · rw [group_append_of_ne (hnone b hb)]
        exact h.emails b hb
      · rw [List.mem_singleton.mp hb, group_append_of_eq rfl, group_eq_nil h hnone]
        rfl
    · intro b hb
      rcases List.mem_append.mp hb with hb | hb
      · exact h.nonempty b hb
      · rw [List.mem_singleton.mp hb]
        exact List.cons_ne_nil _ _
    · intro c' hc'
      rcases List.mem_append.mp hc' with hc' | hc'
      · obtain ⟨b, hb, hkey⟩ := h.total c' hc'
        exact ⟨b, List.mem_append_left _ hb, hkey⟩
      · rw [List.mem_singleton.mp hc']
        exact ⟨_, List.mem_append_right _ (.head _), rfl⟩

theorem grouped_buckets (candidates : List Candidate) :
    Grouped candidates (candidates.foldl ScreeningToProbeChunkPlanner.addToBuckets []) := by
  have hfold : ∀ (rest done : List Candidate) (bs : List Bucket), Grouped done bs →
      Grouped (done ++ rest) (rest.foldl ScreeningToProbeChunkPlanner.addToBuckets bs) := by
    intro rest
    induction rest with
    | nil => exact fun done bs h => by simpa using h
    | cons c rest ih =>
      intro done bs h
      have := ih _ _ (h.addToBuckets c)
      rwa [List.append_assoc] at this
  exact hfold candidates [] [] ⟨List.nodup_nil, nofun, nofun, nofun⟩

/-! ## Pieces -/

section Pieces
variable {size least : Nat}

/-- All pieces but the last have the given size. -/
theorem arrayChunkFrom_pieces (emails : List Text) {open_ : List Text}
    (hopen : open_.length < size) :
    ∃ full tail, arrayChunkFrom size open_ emails = full ++ tail ∧ (∀ p ∈ full, p.length = size) ∧
      (tail = [] ∨ ∃ t, tail = [t] ∧ t ≠ [] ∧ t.length < size) := by
  induction emails generalizing open_ with
  | nil =>
    by_cases hnil : open_ = []
    · exact ⟨[], [], by simp [arrayChunkFrom, hnil], nofun, .inl rfl⟩
    · exact ⟨[], [open_], by simp [arrayChunkFrom, hnil], nofun, .inr ⟨open_, rfl, hnil, hopen⟩⟩
  | cons x xs ih =>
    unfold arrayChunkFrom
    split
    next hfull =>
      obtain ⟨full, tail, heq, hlen, htail⟩ := @ih [] (by simp; omega)
      refine ⟨(open_ ++ [x]) :: full, tail, by rw [heq]; rfl, ?_, htail⟩
      intro p hp
      rcases List.mem_cons.mp hp with rfl | hp
      · simp at hfull ⊢
        omega
      · exact hlen p hp
    next hroom => exact ih (Nat.lt_of_not_le hroom)

/-- Pieces that are long enough stay as they are. -/
theorem mergeShortTail_eq_self (chunks : List (List Text)) (h : ∀ p ∈ chunks, least ≤ p.length) :
    mergeShortTail least chunks = chunks := by
  fun_induction mergeShortTail least chunks with
  | case1 => rfl
  | case2 => rfl
  | case3 prev last hshort => exact absurd hshort (Nat.not_lt.mpr (h last (by simp)))
  | case4 => rfl
  | case5 c rest _ _ ih => rw [ih fun p hp => h p (.tail _ hp)]

theorem mergeShortTail_append (chunks : List (List Text)) (prev last : List Text) :
    mergeShortTail least (chunks ++ [prev, last]) =
      if last.length < least then chunks ++ [prev ++ last] else chunks ++ [prev, last] := by
  induction chunks with
  | nil => rfl
  | cons c chunks ih =>
    have hskip : mergeShortTail least (c :: (chunks ++ [prev, last])) =
        c :: mergeShortTail least (chunks ++ [prev, last]) := by
      cases chunks with
      | nil => rfl
      | cons d chunks => cases chunks <;> rfl
    rw [List.cons_append, hskip, ih]
    split <;> rfl

/-- The pieces of a sorted group, with a short last one merged into the one before it. -/
def pieces (size least : Nat) (emails : List Text) : List (List Text) :=
  mergeShortTail least (arrayChunk size emails)

/-- **What the pieces are**: full ones, and at the end either a piece below the full size, or a
full one that has taken in what was left. -/
theorem pieces_cases (hsize : 0 < size) (hleast : least ≤ size) (emails : List Text) :
    ∃ full tail, pieces size least emails = full ++ tail ∧ (∀ p ∈ full, p.length = size) ∧
      (tail = [] ∨
        (∃ t, tail = [t] ∧ t ≠ [] ∧ t.length < size ∧
          (emails.length ≤ size ∨ least ≤ emails.length % size)) ∨
        (∃ t, tail = [t] ∧ t.length = size + emails.length % size ∧ size < emails.length ∧
          0 < emails.length % size ∧ emails.length % size < least)) ∧
      (tail = [] → emails.length % size = 0) := by
  obtain ⟨full, tail, heq, hfull, htail⟩ :=
    @arrayChunkFrom_pieces size emails [] hsize
  have hflat : (full ++ tail).flatten.length = emails.length := by
    rw [← heq, flatten_arrayChunkFrom, List.nil_append]
  have hsum : full.flatten.length = full.length * size := by
    rw [List.length_flatten, List.map_congr_left hfull, List.map_const', List.sum_replicate_nat]
  rw [List.flatten_append, List.length_append, hsum] at hflat
  rcases htail with rfl | ⟨t, rfl, hne, hlt⟩
  · refine ⟨full, [], ?_, hfull, .inl rfl, fun _ => ?_⟩
    · rw [pieces, arrayChunk, heq, List.append_nil]
      exact mergeShortTail_eq_self full fun p hp => hfull p hp ▸ hleast
    · rw [← hflat]
      simp
  · rw [List.flatten_singleton] at hflat
    have hmod : emails.length % size = t.length := by
      rw [← hflat, Nat.mul_add_mod_self_right, Nat.mod_eq_of_lt hlt]
    have hpos : 0 < t.length := List.length_pos_iff.mpr hne
    rcases List.eq_nil_or_concat' full with rfl | ⟨init, prev, rfl⟩
    · refine ⟨[], [t], ?_, (by simp), .inr (.inl ⟨t, rfl, hne, hlt, .inl ?_⟩), (by simp)⟩
      · rw [pieces, arrayChunk, heq]
        rfl
      · simp at hflat
        omega
    · have hprev : prev.length = size := hfull prev (by simp)
      have hmany : size < emails.length := by
        rw [← hflat, List.length_append]
        simp [Nat.add_mul]
        omega
      have hmerge := @mergeShortTail_append least init prev t
      by_cases hshort : t.length < least
      · rw [if_pos hshort] at hmerge
        refine ⟨init, [prev ++ t], ?_, fun p hp => hfull p (by simp [hp]),
          .inr (.inr ⟨prev ++ t, rfl, ?_, hmany, hmod ▸ hpos, hmod ▸ hshort⟩), (by simp)⟩
        · rw [pieces, arrayChunk, heq, ← hmerge]
          simp
        · rw [List.length_append, hprev, hmod]
      · rw [if_neg hshort] at hmerge
        refine ⟨init ++ [prev], [t], ?_, hfull,
          .inr (.inl ⟨t, rfl, hne, hlt, .inr (hmod ▸ Nat.not_lt.mp hshort)⟩), (by simp)⟩
        rw [pieces, arrayChunk, heq]
        simpa using hmerge

end Pieces

/-! ## The shards of a list of candidates -/

section Shards
variable {σ : Settings} {candidates : List Candidate}

theorem buildProbeShards_of_enabled (h : σ.probeShardingEnabled = true) :
    buildProbeShards σ candidates =
      ((candidates.foldl addToBuckets []).insertionSort (fun a b => a.key ≤ b.key)).flatMap
        (bucketShards σ (shardSize σ) (minSize σ)) := by
  unfold buildProbeShards
  exact if_pos h

theorem nodup_group (hnodup : (candidates.map Candidate.email).Nodup) (p : Provider) (d : Text) :
    ((group candidates p d).map Candidate.email).Nodup :=
  hnodup.sublist (List.filter_sublist.map _)

/-- The shards are the pieces of the groups. -/
theorem mem_buildProbeShards (h : σ.probeShardingEnabled = true)
    (hnodup : (candidates.map Candidate.email).Nodup) {s : Shard} :
    s ∈ buildProbeShards σ candidates ↔
      group candidates s.provider s.domainHash ≠ [] ∧
      s.emails ∈ pieces (shardSize σ) (minSize σ)
        (((group candidates s.provider s.domainHash).map Candidate.email).insertionSort (· ≤ ·)) ∧
      s.preferredPool = preferredPoolForProvider σ s.provider := by
  have hg := grouped_buckets candidates
  have hemails : ∀ b ∈ candidates.foldl addToBuckets [], b.emails.eraseDups =
      (group candidates b.provider b.domainHash).map Candidate.email := by
    intro b hb
    rw [hg.emails b hb]
    exact Text.eraseDups_of_nodup (nodup_group hnodup _ _)
  rw [buildProbeShards_of_enabled h, List.mem_flatMap]
  constructor
  · rintro ⟨b, hb, hs⟩
    have hb := (List.perm_insertionSort _ _).mem_iff.mp hb
    obtain ⟨piece, hpiece, rfl⟩ := List.mem_map.mp hs
    refine ⟨?_, hemails b hb ▸ hpiece, rfl⟩
    intro hnil
    refine hg.nonempty b hb ?_
    rw [hg.emails b hb]
    exact List.map_eq_nil_iff.mpr hnil
  · rintro ⟨hne, hpiece, hpool⟩
    obtain ⟨c, hc⟩ := List.exists_mem_of_ne_nil _ hne
    obtain ⟨hmem, hsame⟩ := List.mem_filter.mp hc
    obtain ⟨hp, hd⟩ := of_decide_eq_true hsame
    obtain ⟨b, hb, hkey⟩ := hg.total c hmem
    obtain ⟨hbp, hbd⟩ := Bucket.key_eq_iff.mp hkey
    have hprovider : b.provider = s.provider := hbp.symm.trans hp
    have hdomain : b.domainHash = s.domainHash := hbd.symm.trans hd
    refine ⟨b, (List.perm_insertionSort _ _).mem_iff.mpr hb, ?_⟩
    refine List.mem_map.mpr ⟨s.emails, ?_, ?_⟩
    · rw [hemails b hb, hprovider, hdomain]
      exact hpiece
    · rw [hprovider, hdomain, ← hpool]

theorem mem_pieces {size least : Nat} {emails piece : List Text} (hsize : 0 < size)
    (hleast : least ≤ size) (hp : piece ∈ pieces size least emails) :
    piece ≠ [] ∧ (piece.length ≤ size ∨ (size < emails.length ∧ 0 < emails.length % size ∧
      emails.length % size < least ∧ piece.length = size + emails.length % size)) := by
  obtain ⟨full, tail, heq, hfull, htail, -⟩ := pieces_cases hsize hleast emails
  rw [heq] at hp
  rcases List.mem_append.mp hp with hp | hp
  · have hlen := hfull piece hp
    exact ⟨List.length_pos_iff.mp (hlen ▸ hsize), .inl hlen.le⟩
  · rcases htail with rfl | ⟨t, rfl, hne, hlt, -⟩ | ⟨t, rfl, hlen, hmany, hpos, hshort⟩
    · exact nomatch hp
    · rw [List.mem_singleton.mp hp]
      exact ⟨hne, .inl hlt.le⟩
    · rw [List.mem_singleton.mp hp]
      refine ⟨List.length_pos_iff.mp ?_, .inr ⟨hmany, hpos, hshort, hlen⟩⟩
      omega

/-- A short tail is in a piece with a full one. -/
theorem exists_merged {size least : Nat} {emails : List Text} (hsize : 0 < size)
    (hleast : least ≤ size) (hmany : size < emails.length) (hpos : 0 < emails.length % size)
    (hshort : emails.length % size < least) :
    ∃ piece ∈ pieces size least emails, piece.length = size + emails.length % size := by
  obtain ⟨full, tail, heq, -, htail, hnil⟩ := pieces_cases hsize hleast emails
  rcases htail with rfl | ⟨t, rfl, -, -, hlong⟩ | ⟨t, rfl, hlen, -⟩
  · exact absurd (hnil rfl) hpos.ne'
  · rcases hlong with hlong | hlong <;> omega
  · exact ⟨t, by rw [heq]; simp, hlen⟩

theorem shardSize_pos (σ : Settings) : 0 < shardSize σ :=
  (minSize_pos σ).trans_le (minSize_le_shardSize σ)

/-- The maximum size holds exactly when every short tail fits in beside a full shard. -/
theorem bounded_iff (m : CandidateMap) (h : σ.probeShardingEnabled = true) :
    Bounded σ (buildProbeShards σ m.entries) ↔ ∀ c ∈ m.entries,
      ShortTail σ (group m.entries c.provider c.domainHash).length →
        shardSize σ + (group m.entries c.provider c.domainHash).length % shardSize σ ≤
          maxSize σ := by
  have hlength : ∀ p d, (((group m.entries p d).map Candidate.email).insertionSort
      (· ≤ ·)).length = (group m.entries p d).length := by
    intro p d
    rw [List.length_insertionSort, List.length_map]
  constructor
  · rintro hb c hc ⟨hmany, hpos, hshort⟩
    rw [← hlength] at hmany hpos hshort ⊢
    obtain ⟨piece, hpiece, hlen⟩ :=
      exists_merged (shardSize_pos σ) (minSize_le_shardSize σ) hmany hpos hshort
    have hin : c ∈ group m.entries c.provider c.domainHash :=
      List.mem_filter.mpr ⟨hc, by simp⟩
    have hs := hb ⟨piece, c.provider, c.domainHash, preferredPoolForProvider σ c.provider⟩
      ((mem_buildProbeShards h m.nodup).mpr ⟨List.ne_nil_of_mem hin, hpiece, rfl⟩)
    exact hlen ▸ hs
  · intro hfits s hs
    obtain ⟨hne, hpiece, -⟩ := (mem_buildProbeShards h m.nodup).mp hs
    obtain ⟨-, hsmall | ⟨hmany, hpos, hshort, hlen⟩⟩ :=
      mem_pieces (shardSize_pos σ) (minSize_le_shardSize σ) hpiece
    · exact hsmall.trans (shardSize_le_maxSize σ)
    · obtain ⟨c, hc⟩ := List.exists_mem_of_ne_nil _ hne
      obtain ⟨hmem, hsame⟩ := List.mem_filter.mp hc
      obtain ⟨hp, hd⟩ := of_decide_eq_true hsame
      rw [hlength] at hmany hpos hshort hlen
      have := hfits c hmem
      rw [hp, hd] at this
      exact hlen ▸ this ⟨hmany, hpos, hshort⟩

/-- A rest of one is merged into a shard of two, where two is the maximum. -/
theorem bounded_iff_merged :
    ¬ Bounded { probeShardTargetSize := 2, probeShardMinSize := 2, probeShardMaxSize := 2 }
      (buildProbeShards
        { probeShardTargetSize := 2, probeShardMinSize := 2, probeShardMaxSize := 2 }
        [⟨"a@x.org".toList, .generic, "sha1:1".toList⟩,
          ⟨"b@x.org".toList, .generic, "sha1:1".toList⟩,
          ⟨"c@x.org".toList, .generic, "sha1:1".toList⟩]) := by
  intro h
  have hfits := (bounded_iff ⟨_, by decide⟩ rfl).mp h _ (.head _)
  exact absurd (hfits (by decide)) (by decide)

end Shards

/-! ## The candidates of a screening chunk -/

theorem nodup_classifyRow {php : Php} {reasons : List Text} {acc : Classification}
    (h : (acc.candidates.map Candidate.email).Nodup) (t : OutputType) (row : ResultRow) :
    ((classifyRow php reasons acc t row).candidates.map Candidate.email).Nodup := by
  unfold classifyRow
  split
  · exact h
  next email _ =>
    split
    · exact h
    · split
      · exact h
      next hnew =>
        rw [List.map_append, List.map_singleton, List.nodup_append]
        refine ⟨h, List.nodup_singleton _, ?_⟩
        rintro e he e' he' rfl
        obtain ⟨c, hc, rfl⟩ := List.mem_map.mp he
        refine hnew (List.any_eq_true.mpr ⟨c, hc, ?_⟩)
        simpa using List.mem_singleton.mp he'

/-- The classification has each candidate once. -/
theorem nodup_candidates (php : Php) (reasons : List Text) (files : PerType (Option File)) :
    ((classify php reasons files).candidates.map Candidate.email).Nodup := by
  have hfold : ∀ (rows : List (OutputType × ResultRow)) (acc : Classification),
      (acc.candidates.map Candidate.email).Nodup →
      ((rows.foldl (fun acc r => classifyRow php reasons acc r.1 r.2) acc).candidates.map
        Candidate.email).Nodup := by
    intro rows
    induction rows with
    | nil => exact fun _ h => h
    | cons r rows ih => exact fun acc h => ih _ (nodup_classifyRow h r.1 r.2)
  exact hfold (allRows files) {} List.nodup_nil

/-- `$candidateMap` as `plan` fills it. -/
def candidateMap (php : Php) (reasons : List Text) (files : PerType (Option File)) :
    CandidateMap :=
  ⟨(classify php reasons files).candidates, nodup_candidates php reasons files⟩

end ValidEmailVerifier.ScreeningToProbeChunkPlanner
