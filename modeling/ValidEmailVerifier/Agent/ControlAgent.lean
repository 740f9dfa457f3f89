/-
# `Agent.ControlAgent` — the agent that executes commands on a server

The agent takes a command only when it comes with a timestamp, a nonce and a signature of
both and of the body.  A timestamp is fresh as long as it is not further from the agent's
clock than the time to live; a nonce is remembered until that time has passed since the
request, and forgotten by the next request from then on.

So a request passes again exactly if a later copy of it is still fresh when its clock is read
first, and the nonce has run out when it is read the second time (`once_iff`).  Where both are
read in the same second this is so exactly for the requests that came before their timestamp,
or in its second.

The hash functions are whatever they are.  Headers hold Latin-1 characters, and `int` reads
no other digits than theirs.
-/
import Mathlib.Algebra.Ring.Nat
import ValidEmailVerifier.Lib.Transition
import ValidEmailVerifier.Pipeline.Worker

namespace ValidEmailVerifier.Agent

open Text Transition

/-! ## Text of Python -/

/-- `str.isspace`, in Latin-1. -/
def isSpace (c : Char) : Bool := Worker.isSpace c || (0x1C ≤ c.val && c.val ≤ 0x1F)

/-- `str.strip`. -/
def strip (s : Text) : Text := trimBy isSpace s

/-- The digits behind a digit, with single underscores between them. -/
def readDigits (value : Nat) : Text → Option Nat
  | [] => some value
  | '_' :: c :: rest =>
      if c.isDigit then readDigits (10 * value + (c.toNat - 48)) rest else none
  | c :: rest => if c.isDigit then readDigits (10 * value + (c.toNat - 48)) rest else none

def readNat : Text → Option Nat
  | [] => none
  | c :: rest => if c.isDigit then readDigits (c.toNat - 48) rest else none

/-- `int`; `none` is a `ValueError`. -/
def int (s : Text) : Option Int :=
  match strip s with
  | '-' :: rest => (readNat rest).map fun n => -(n : Int)
  | '+' :: rest => (readNat rest).map fun n => (n : Int)
  | digits => (readNat digits).map fun n => (n : Int)

/-! ## The checks -/

/-- A SHA-256 digest: 64 hexadecimal digits. -/
abbrev Digest := Fin 64 → Fin 16

def hexDigit (d : Fin 16) : Char := "0123456789abcdef".toList.getD d '0'

def hexdigest (digest : Digest) : Text := (List.ofFn digest).map hexDigit

/-- `sha256`, and `hmac` with it. -/
structure Hashes where
  sha256 : List UInt8 → Digest
  hmac : Text → Text → Digest

structure AgentConfig where
  token : Text
  secret : Text
  ttlSeconds : Int
  hashes : Hashes

/-- A header that is missing is empty. -/
structure AgentRequest where
  path : Text := "/v1/commands".toList
  authorization : Text
  timestamp : Text
  nonce : Text
  signature : Text
  raw : List UInt8
  deriving DecidableEq

/-- `"\n".join`. -/
def joinLines : List Text → Text
  | [] => []
  | [line] => line
  | line :: rest => line ++ '\n' :: joinLines rest

def canonical (hashes : Hashes) (timestamp : Int) (nonce : Text) (raw : List UInt8) : Text :=
  joinLines ["POST".toList, "/v1/commands".toList, (toString timestamp).toList, nonce,
    hexdigest (hashes.sha256 raw)]

def expectedSignature (config : AgentConfig) (timestamp : Int) (nonce : Text)
    (raw : List UInt8) : Text :=
  hexdigest (config.hashes.hmac config.secret (canonical config.hashes timestamp nonce raw))

/-- When the nonces expire. -/
abbrev NonceCache := Text → Option Int

def cleanupNonces (now : Int) (cache : NonceCache) : NonceCache := fun nonce =>
  (cache nonce).filter fun expiresAt => now < expiresAt

/-- `do_POST` up to the command: the answer to a request that does not pass, and the cache.
The clock is read for the freshness, and again by the cleanup. -/
def doPost (config : AgentConfig) (now cleanupNow : Int) (request : AgentRequest)
    (cache : NonceCache) : Except (Nat × Text) Unit × NonceCache :=
  if request.path ≠ "/v1/commands".toList then (.error (404, "not_found".toList), cache)
  else if strip request.authorization ≠ "Bearer ".toList ++ config.token then
    (.error (401, "unauthorized".toList), cache)
  else
    let timestampRaw := strip request.timestamp
    let nonce := strip request.nonce
    let signature := strip request.signature
    if timestampRaw = [] ∨ nonce = [] ∨ signature = [] then
      (.error (422, "missing_signature_headers".toList), cache)
    else
      match int timestampRaw with
      | none => (.error (422, "invalid_timestamp".toList), cache)
      | some timestamp =>
          if config.ttlSeconds < ((now - timestamp).natAbs : Int) then
            (.error (422, "signature_expired".toList), cache)
          else
            let cache := cleanupNonces cleanupNow cache
            if (cache nonce).isSome then (.error (409, "nonce_reused".toList), cache)
            else if expectedSignature config timestamp nonce request.raw ≠ signature then
              (.error (401, "signature_mismatch".toList), cache)
            else (.ok (), Function.update cache nonce (some (now + config.ttlSeconds)))

/-- The checks that a request passes. -/
structure Accepts (config : AgentConfig) (now cleanupNow : Int) (request : AgentRequest)
    (cache : NonceCache) (timestamp : Int) : Prop where
  path : request.path = "/v1/commands".toList
  authorization : strip request.authorization = "Bearer ".toList ++ config.token
  present : ¬ (strip request.timestamp = [] ∨ strip request.nonce = [] ∨
    strip request.signature = [])
  parsed : int (strip request.timestamp) = some timestamp
  fresh : ((now - timestamp).natAbs : Int) ≤ config.ttlSeconds
  unused : cleanupNonces cleanupNow cache (strip request.nonce) = none
  signed : expectedSignature config timestamp (strip request.nonce) request.raw =
    strip request.signature

variable {config : AgentConfig} {now cleanupNow : Int} {request : AgentRequest}
  {cache : NonceCache}

theorem doPost_of_accepts {timestamp : Int}
    (h : Accepts config now cleanupNow request cache timestamp) :
    doPost config now cleanupNow request cache =
      (.ok (), Function.update (cleanupNonces cleanupNow cache) (strip request.nonce)
        (some (now + config.ttlSeconds))) := by
  rw [doPost, if_neg (not_not.mpr h.path), if_neg (not_not.mpr h.authorization),
    if_neg h.present, h.parsed]
  dsimp only
  rw [if_neg (Int.not_lt.mpr h.fresh), h.unused, Option.isSome_none, if_neg Bool.false_ne_true,
    if_neg (not_not.mpr h.signed)]

/-- A request passes, or the cache is at most cleaned. -/
theorem doPost_cases (config : AgentConfig) (now cleanupNow : Int) (request : AgentRequest)
    (cache : NonceCache) :
    (∃ timestamp, Accepts config now cleanupNow request cache timestamp) ∨
      (doPost config now cleanupNow request cache).1.isOk = false ∧
        ((doPost config now cleanupNow request cache).2 = cache ∨
          (doPost config now cleanupNow request cache).2 = cleanupNonces cleanupNow cache) := by
  rw [doPost]
  by_cases hpath : request.path ≠ "/v1/commands".toList
  · rw [if_pos hpath]
    exact .inr ⟨rfl, .inl rfl⟩
  by_cases hauth : strip request.authorization ≠ "Bearer ".toList ++ config.token
  · rw [if_neg hpath, if_pos hauth]
    exact .inr ⟨rfl, .inl rfl⟩
  by_cases hpresent : strip request.timestamp = [] ∨ strip request.nonce = [] ∨
      strip request.signature = []
  · rw [if_neg hpath, if_neg hauth]
    dsimp only
    rw [if_pos hpresent]
    exact .inr ⟨rfl, .inl rfl⟩
  rw [if_neg hpath, if_neg hauth]
  dsimp only
  rw [if_neg hpresent]
  cases htimestamp : int (strip request.timestamp) with
  | none => exact .inr ⟨rfl, .inl rfl⟩
  | some timestamp =>
    dsimp only
    by_cases hexpired : config.ttlSeconds < ((now - timestamp).natAbs : Int)
    · rw [if_pos hexpired]
      exact .inr ⟨rfl, .inl rfl⟩
    rw [if_neg hexpired]
    cases hused : cleanupNonces cleanupNow cache (strip request.nonce) with
    | some expiresAt => exact .inr ⟨rfl, .inr rfl⟩
    | none =>
      rw [Option.isSome_none, if_neg Bool.false_ne_true]
      by_cases hsigned : expectedSignature config timestamp (strip request.nonce) request.raw ≠
          strip request.signature
      · rw [if_pos hsigned]
        exact .inr ⟨rfl, .inr rfl⟩
      · exact .inl ⟨timestamp, not_not.mp hpath, not_not.mp hauth, hpresent, htimestamp,
          Int.not_lt.mp hexpired, hused, not_not.mp hsigned⟩

/-- A nonce whose time is not over stays in the cache, and the others do not. -/
theorem cleanupNonces_cases (cleanupNow : Int) {nonce : Text} {expiresAt : Int}
    (h : cache nonce = some expiresAt) :
    cleanupNow < expiresAt ∧ cleanupNonces cleanupNow cache nonce = some expiresAt ∨
      expiresAt ≤ cleanupNow ∧ cleanupNonces cleanupNow cache nonce = none := by
  rw [cleanupNonces, h]
  by_cases hlt : cleanupNow < expiresAt
  · exact .inl ⟨hlt, if_pos (decide_eq_true hlt)⟩
  · exact .inr ⟨Int.not_lt.mp hlt, if_neg (Bool.eq_false_iff.mp (decide_eq_false hlt))⟩

/-! ## Requests, one after the other -/

structure AgentState where
  nonceCache : NonceCache := fun _ => none
  clock : Int := 0

/-- A request, and what the clock shows at the two moments at which it is read. -/
structure Arrival where
  request : AgentRequest
  now : Int
  cleanupNow : Int

/-- The request passes the checks. -/
def passes (config : AgentConfig) (s : AgentState) (a : Arrival) : Bool :=
  (doPost config a.now a.cleanupNow a.request s.nonceCache).1.isOk

/-- The clock does not go back. -/
def agent (config : AgentConfig) : System AgentState Arrival where
  step s a :=
    if s.clock ≤ a.now ∧ a.now ≤ a.cleanupNow then
      some ⟨(doPost config a.now a.cleanupNow a.request s.nonceCache).2, a.cleanupNow⟩
    else none

/-- The same timestamp, nonce and body. -/
structure AgentRequest.Copies (r r' : AgentRequest) : Prop where
  timestamp : int (strip r'.timestamp) = int (strip r.timestamp)
  nonce : strip r'.nonce = strip r.nonce
  raw : r'.raw = r.raw

theorem passes_iff {s : AgentState} {a : Arrival} : passes config s a = true ↔
    ∃ timestamp, Accepts config a.now a.cleanupNow a.request s.nonceCache timestamp := by
  constructor
  · intro hpasses
    rcases doPost_cases config a.now a.cleanupNow a.request s.nonceCache with h | ⟨hfails, -⟩
    · exact h
    · rw [passes, hfails] at hpasses
      exact nomatch hpasses
  · rintro ⟨timestamp, h⟩
    rw [passes, doPost_of_accepts h]
    rfl

/-- A request is read when the clock has not gone back, and leaves the cache behind. -/
theorem agent_step_iff {s s' : AgentState} {a : Arrival} :
    (agent config).step s a = some s' ↔ (s.clock ≤ a.now ∧ a.now ≤ a.cleanupNow) ∧
      s' = ⟨(doPost config a.now a.cleanupNow a.request s.nonceCache).2, a.cleanupNow⟩ := by
  rw [agent]
  dsimp only
  split_ifs with hclock
  · rw [Option.some.injEq, eq_comm]
    exact (and_iff_right hclock).symm
  · exact iff_of_false nofun fun h => hclock h.1

/-- What the cache keeps of a nonce that was taken at a time: it is there for as long as the
time to live, counted from then. -/
structure Remembers (ttlSeconds taken : Int) (nonce : Text) (s : AgentState) : Prop where
  taken_le : taken ≤ s.clock
  there : taken + ttlSeconds ≤ s.clock ∨
    ∃ expiresAt, s.nonceCache nonce = some expiresAt ∧ taken + ttlSeconds ≤ expiresAt

theorem remembers_step {taken : Int} {nonce : Text} (s : AgentState) (a : Arrival)
    (s' : AgentState) (h : Remembers config.ttlSeconds taken nonce s)
    (hs : (agent config).step s a = some s') : Remembers config.ttlSeconds taken nonce s' := by
  have htaken := h.taken_le
  obtain ⟨hclock, rfl⟩ := agent_step_iff.mp hs
  refine ⟨by show taken ≤ a.cleanupNow; omega, ?_⟩
  rcases h.there with hover | ⟨expiresAt, hcached, hle⟩
  · exact .inl (by show _ ≤ a.cleanupNow; omega)
  have hcleaned : taken + config.ttlSeconds ≤ a.cleanupNow ∨
      cleanupNonces a.cleanupNow s.nonceCache nonce = some expiresAt := by
    rcases cleanupNonces_cases a.cleanupNow hcached with ⟨-, hkept⟩ | ⟨hover, -⟩
    · exact .inr hkept
    · exact .inl (by omega)
  rcases doPost_cases config a.now a.cleanupNow a.request s.nonceCache with
    ⟨timestamp, haccepts⟩ | ⟨-, hsame | hcleanup⟩
  · -- the nonce of this request is taken now, which is later
    rw [doPost_of_accepts haccepts]
    by_cases hnonce : nonce = strip a.request.nonce
    · right
      refine ⟨a.now + config.ttlSeconds, ?_, by omega⟩
      rw [hnonce]
      exact Function.update_self ..
    · refine hcleaned.imp id fun hkept => ⟨expiresAt, ?_, hle⟩
      exact (Function.update_of_ne hnonce ..).trans hkept
  · rw [hsame]
    exact .inr ⟨expiresAt, hcached, hle⟩
  · rw [hcleanup]
    exact hcleaned.imp id fun hkept => ⟨expiresAt, hkept, hle⟩

theorem remembers_of_accepts {s s' : AgentState} {a : Arrival} {timestamp : Int}
    (h : Accepts config a.now a.cleanupNow a.request s.nonceCache timestamp)
    (hs : (agent config).step s a = some s') :
    a.now ≤ a.cleanupNow ∧ s'.clock = a.cleanupNow ∧
      s'.nonceCache (strip a.request.nonce) = some (a.now + config.ttlSeconds) := by
  obtain ⟨hclock, rfl⟩ := agent_step_iff.mp hs
  rw [doPost_of_accepts h]
  exact ⟨hclock.2, rfl, Function.update_self ..⟩

/-- A copy of an accepted request that passes as well: the nonce has run out. -/
theorem over_of_passes {s : AgentState} {a : Arrival} {r : AgentRequest} {taken timestamp : Int}
    (h : Remembers config.ttlSeconds taken (strip r.nonce) s) (hcopies : r.Copies a.request)
    (hclock : s.clock ≤ a.now ∧ a.now ≤ a.cleanupNow)
    (htimestamp : int (strip r.timestamp) = some timestamp)
    (hpasses : passes config s a = true) :
    a.now ≤ timestamp + config.ttlSeconds ∧ taken + config.ttlSeconds ≤ a.cleanupNow := by
  obtain ⟨timestamp', haccepts⟩ := passes_iff.mp hpasses
  obtain rfl : timestamp' = timestamp := by
    have hparsed := haccepts.parsed
    rw [hcopies.timestamp, htimestamp] at hparsed
    exact (Option.some.inj hparsed).symm
  have hfresh := haccepts.fresh
  refine ⟨by omega, ?_⟩
  rcases h.there with hover | ⟨expiresAt, hcached, hle⟩
  · omega
  · rw [← hcopies.nonce] at hcached
    rcases cleanupNonces_cases a.cleanupNow hcached with ⟨-, hkept⟩ | ⟨hover, -⟩
    · rw [haccepts.unused] at hkept
      exact nomatch hkept
    · omega

/-- What the clock shows when a request is read. -/
def ReadAt (C : Int → Int → Prop) (_ : AgentState) (a : Arrival) : Prop := C a.now a.cleanupNow

/-- **A request that has passed passes at most once, whatever arrives later, exactly if no
later reading of the clock finds it fresh and its nonce run out.**  Where the clock is read
twice in the same second, that is if it has come after its timestamp. -/
theorem once_iff {s s' : AgentState} {a : Arrival} {timestamp : Int}
    (hstep : (agent config).step s a = some s') (hpasses : passes config s a = true)
    (htimestamp : int (strip a.request.timestamp) = some timestamp) :
    (∀ C : Int → Int → Prop,
      (∀ (s'' : AgentState) (b : Arrival), (agent config).Reaches (ReadAt C) s' s'' →
        ((agent config).step s'' b).isSome = true → ReadAt C s'' b → a.request.Copies b.request →
        passes config s'' b = false) ↔
      ∀ now cleanupNow, C now cleanupNow → a.cleanupNow ≤ now → now ≤ cleanupNow →
        now ≤ timestamp + config.ttlSeconds → cleanupNow < a.now + config.ttlSeconds) ∧
    (a.cleanupNow = a.now →
      ((∀ (s'' : AgentState) (b : Arrival), (agent config).Reaches (ReadAt Eq) s' s'' →
        ((agent config).step s'' b).isSome = true → ReadAt Eq s'' b → a.request.Copies b.request →
        passes config s'' b = false) ↔ timestamp < a.now)) := by
  obtain ⟨timestamp', haccepts⟩ := passes_iff.mp hpasses
  obtain rfl : timestamp' = timestamp := Option.some.inj (haccepts.parsed.symm.trans htimestamp)
  obtain ⟨hordered, hclock, hcached⟩ := remembers_of_accepts haccepts hstep
  have hfresh := haccepts.fresh
  have hgeneral : ∀ C : Int → Int → Prop,
      (∀ (s'' : AgentState) (b : Arrival), (agent config).Reaches (ReadAt C) s' s'' →
        ((agent config).step s'' b).isSome = true → ReadAt C s'' b → a.request.Copies b.request →
        passes config s'' b = false) ↔
      ∀ now cleanupNow, C now cleanupNow → a.cleanupNow ≤ now → now ≤ cleanupNow →
        now ≤ timestamp' + config.ttlSeconds → cleanupNow < a.now + config.ttlSeconds := by
    intro C
    constructor
    · -- the same request, read when its nonce has run out
      intro hnever now cleanupNow hC hlater hle hstill
      by_contra hover
      have hagain : Accepts config now cleanupNow a.request s'.nonceCache timestamp' := by
        refine ⟨haccepts.path, haccepts.authorization, haccepts.present, haccepts.parsed,
          by omega, ?_, haccepts.signed⟩
        rcases cleanupNonces_cases cleanupNow hcached with ⟨hlt, -⟩ | ⟨-, hgone⟩
        · omega
        · exact hgone
      have hfails := hnever s' ⟨a.request, now, cleanupNow⟩ .refl ?_ hC ⟨rfl, rfl, rfl⟩
      · rw [passes_iff.mpr ⟨timestamp', hagain⟩] at hfails
        exact nomatch hfails
      · rw [agent]
        dsimp only
        rw [if_pos (show s'.clock ≤ now ∧ now ≤ cleanupNow from ⟨by omega, hle⟩)]
        rfl
    · intro hbound s'' b hreaches hs hC hcopies
      have hremembers : Remembers config.ttlSeconds a.now (strip a.request.nonce) s'' ∧
          a.cleanupNow ≤ s''.clock := by
        refine hreaches.invariant (P := fun t =>
          Remembers config.ttlSeconds a.now (strip a.request.nonce) t ∧ a.cleanupNow ≤ t.clock)
          ⟨⟨by omega, .inr ⟨_, hcached, Int.le_refl _⟩⟩, by omega⟩ ?_
        intro t c u ht _ htu
        refine ⟨remembers_step t c u ht.1 htu, ?_⟩
        have hle := ht.2
        obtain ⟨hlater, rfl⟩ := agent_step_iff.mp htu
        show a.cleanupNow ≤ c.cleanupNow
        omega
      have hlater : s''.clock ≤ b.now ∧ b.now ≤ b.cleanupNow := by
        by_contra hnot
        rw [agent] at hs
        dsimp only at hs
        rw [if_neg hnot] at hs
        exact nomatch hs
      refine Bool.eq_false_iff.mpr fun hagain => ?_
      obtain ⟨hstill, hover⟩ := over_of_passes hremembers.1 hcopies hlater htimestamp hagain
      have := hbound b.now b.cleanupNow hC (by omega) hlater.2 hstill
      omega
  refine ⟨hgeneral, fun hsame => (hgeneral Eq).trans ?_⟩
  constructor
  · intro hbound
    have := hbound (timestamp' + config.ttlSeconds) _ rfl (by omega) (Int.le_refl _) (Int.le_refl _)
    omega
  · rintro hlate now _ rfl - - hstill
    omega

instance instNeZeroSixteen : NeZero 16 := ⟨Nat.succ_ne_zero 15⟩

/-- A digest, from its text. -/
def digestOf (hex : String) : Digest := fun i =>
  Fin.ofNat 16 ("0123456789abcdef".toList.idxOf (hex.toList.getD i '0'))

/-- A body, and the values of the hash functions for it. -/
def restartBody : List UInt8 := "\x7b\"action\":\"restart\"\x7d".toList.map fun c => c.toNat.toUInt8

def restartHashes : Hashes where
  sha256 _ := digestOf
    "77573c4687af1b5834c15bcf2d7c30324168fb044ca9157def799dddfdd3d825"
  hmac _ _ := digestOf
    "26ba75f91f2d615021250a22e9de45d3dc707da033ec43bbbecaf2c5764bffa7"

def restartAgent : AgentConfig := ⟨"t".toList, "s".toList, 60, restartHashes⟩

/-- A request of the second 1000. -/
def restartRequest : AgentRequest :=
  { authorization := "Bearer t".toList
    timestamp := "1000".toList
    nonce := "n1".toList
    signature := hexdigest (restartHashes.hmac [] [])
    raw := restartBody }

/-- A request that comes two seconds late passes once. -/
theorem once_iff_late :
    passes restartAgent {} ⟨restartRequest, 1002, 1002⟩ = true ∧
    ∀ (s'' : AgentState) (b : Arrival),
      (agent restartAgent).Reaches (ReadAt Eq)
        ((agent restartAgent).next {} ⟨restartRequest, 1002, 1002⟩) s'' →
      ((agent restartAgent).step s'' b).isSome = true → ReadAt Eq s'' b →
      restartRequest.Copies b.request → passes restartAgent s'' b = false := by
  have hpasses : passes restartAgent {} ⟨restartRequest, 1002, 1002⟩ = true := by decide
  refine ⟨hpasses, ?_⟩
  exact ((once_iff (System.step_eq_next (M := agent restartAgent) (s := {})
    (a := ⟨restartRequest, 1002, 1002⟩) (by decide)) hpasses
    (show int (strip restartRequest.timestamp) = some 1000 by decide)).2 rfl).mpr
    (by decide)

/-- The same request passes at once, and again a minute later. -/
theorem passes_twice :
    ∃ s', (agent restartAgent).step {} ⟨restartRequest, 1000, 1000⟩ = some s' ∧
      passes restartAgent {} ⟨restartRequest, 1000, 1000⟩ = true ∧
      ((agent restartAgent).step s' ⟨restartRequest, 1060, 1060⟩).isSome = true ∧
      passes restartAgent s' ⟨restartRequest, 1060, 1060⟩ = true := by
  refine ⟨_, System.step_eq_next (M := agent restartAgent) ?_, ?_, ?_, ?_⟩
  · decide
  · decide
  · decide
  · decide

end ValidEmailVerifier.Agent
