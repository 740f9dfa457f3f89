/-
# `Engine.DomainLimits` — how many sessions a worker has open to a domain

A worker processes several chunks at once.  Each chunk gets a verifier of its own, in which the
verifiers of the providers are cached, and each of these has a limiter of its own: a semaphore for
every domain, with as many places as the configuration allows.  The addresses of a chunk are
verified one after the other, so a limiter never makes a call wait (`never_waits`), and no limiter
knows of the other chunks.

Chunks share nothing, and the sessions to a domain are as many as the chunks that have an address
there: the limit is kept exactly when these are no more than it (`slots_bounded_iff`).  Whether
there are hosts, what they answer and how often they are tried again is left open.
-/
import ValidEmailVerifier.Engine.ParsedAddresses
import ValidEmailVerifier.Engine.PolicyRefresh
import ValidEmailVerifier.Lib.Interleaving

namespace ValidEmailVerifier.Engine.DomainLimits

open GoJson PolicyRefresh Transition Worker

/-! ## The verifier of a chunk -/

/-- `policyConfig`, as far as it changes what a provider may change again. -/
structure PolicyConfig where
  perDomainConcurrency : Int64 := 0
  globalConnectsPerMinute : Option Int64 := none
  tempfailBackoffSeconds : Option Int64 := none
  deriving DecidableEq

/-- `policyState`, as far as a verifier depends on it. -/
structure PolicyState (F : Type) extends PolicyRuntimeState F where
  providerPolicies : List ProviderPolicy := []
  roleAccountsBehavior : Text := []
  roleAccounts : Option (List Text) := none

/-- The part of a configuration that settles addresses before a host is asked. -/
structure Lists where
  domainTypos : List (Text × Text) := []
  disposableDomains : List Text := []
  roleAccountsBehavior : Text := []
  roleAccounts : List Text := []

/-- What is set for the worker: `BaseVerifierConfig` in two parts, and the conversion of domains. -/
structure WorkerConfig (F : Type) [Floats F] where
  config : Engine.Config F := {}
  lists : Lists := {}
  toASCII : Text → Option Text

section

variable {F : Type} [Scales F] [DecidableEq F]

/-- `applyGlobalOverrides`, of the lists. -/
def applyGlobalOverrides (lists : Lists) (state : PolicyState F) : Lists :=
  { lists with
    roleAccountsBehavior :=
      if state.roleAccountsBehavior = [] then lists.roleAccountsBehavior
      else state.roleAccountsBehavior
    roleAccounts := state.roleAccounts.getD lists.roleAccounts }

def applyPolicy (config : Engine.Config F) (policy : PolicyConfig) : Engine.Config F :=
  { config with
    perDomainConcurrency :=
      if 0 < policy.perDomainConcurrency then policy.perDomainConcurrency
      else config.perDomainConcurrency
    smtpRateLimitPerMinute := policy.globalConnectsPerMinute.getD config.smtpRateLimitPerMinute
    backoffBaseMs := (policy.tempfailBackoffSeconds.map (· * 1000)).getD config.backoffBaseMs }

/-- `verifierForMode`; there may be no policy. -/
def verifierForMode (w : WorkerConfig F) (policy : Option PolicyConfig) (state : PolicyState F) :
    ProviderAwareVerifier F :=
  let config := policy.elim w.config (applyPolicy w.config)
  let engine := (state.replyPolicyEngine <|> config.providerReplyPolicyEngine).map
    cloneProviderReplyPolicyEngine
  { baseConfig :=
      { config with
        providerModes := state.providerModes
        providerReplyPolicyEngine :=
          engine.map fun engine => { engine with enabled := state.policyEngineEnabled } }
    providerPolicies := state.providerPolicies
    toASCII := w.toASCII }

/-! ## Addresses that are settled at once -/

/-- A part of the domain behind a dot is in the list. -/
def parentListed (domains : List Text) : Text → Bool
  | [] => false
  | c :: rest => (c == '.' && rest != [] && domains.contains rest) || parentListed domains rest

def isDisposableDomain (domains : List Text) (domain : Text) : Bool :=
  domain != [] && (domains.contains domain || parentListed domains domain)

def typoReason : Text := "domain_typo_suspected:suggest=".toList

/-- The answers of `Verify` that need no look-up. -/
def settled (lists : Lists) (parsed : ParsedEmail) : Option VerifierResult :=
  match lists.domainTypos.lookup parsed.domain with
  | some suggestion =>
      some { category := "risky".toList, reason := typoReason ++ suggestion }
  | none =>
      if isDisposableDomain lists.disposableDomains parsed.domain then
        some { category := "risky".toList, reason := "disposable_domain".toList }
      else if GoStrings.toLower (Worker.trimSpace lists.roleAccountsBehavior) ∈
          [[], "risky".toList] ∧ parsed.localText ∈ lists.roleAccounts then
        some { category := "risky".toList, reason := "role_account".toList }
      else none

/-- The address that hosts are asked about, unless the answer is there already. -/
def pending (lists : Lists) (toASCII : Text → Option Text) (email : Text) :
    Except VerifierResult ParsedEmail :=
  match parseEmail toASCII email with
  | .error result => .error result
  | .ok parsed =>
      match settled lists parsed with
      | some result => .error result
      | none => .ok parsed

/-! ## Chunks -/

/-- A chunk in process: the policy and the state it was begun with, and the addresses that
`buildOutputs` has verified. -/
structure Chunk (F : Type) where
  policy : Option PolicyConfig := none
  state : PolicyState F
  /-- The probe stage is skipped, and every address is risky. -/
  static : Bool := false
  emails : List Text

namespace Chunk

variable (w : WorkerConfig F) (c : Chunk F)

def verifier : ProviderAwareVerifier F := verifierForMode w c.policy c.state

/-- The limit that the policies set for the domain of an address. -/
def limit (email : Text) : Int64 := ((c.verifier w).ownConfig email).perDomainConcurrency

/-- What becomes of an address before a host is asked. -/
def pending (email : Text) : Except VerifierResult ParsedEmail :=
  DomainLimits.pending (applyGlobalOverrides w.lists c.state) w.toASCII email

/-- The domain whose hosts are asked about an address. -/
def domainOf (email : Text) : Option Text := (c.pending w email).toOption.map ParsedEmail.domain

/-- The chunk has an address whose domain is asked. -/
def asks (domain : Text) : Bool :=
  !c.static && c.emails.any fun email => c.domainOf w email == some domain

end Chunk

/-! ## How its addresses are verified -/

/-- A call of `Verify`: the address, the key of the verifier it is passed to, and the domain whose
slot it asks for. -/
structure Call where
  email : Text
  key : Text
  domain : Text
  deriving DecidableEq

inductive Stage where
  /-- Between two addresses. -/
  | idle
  /-- Between two hosts. -/
  | checking (call : Call)
  /-- In `checkSMTPHost`, with a slot of the domain, between two attempts. -/
  | holding (call : Call)
  /-- In an attempt. -/
  | session (call : Call)
  deriving DecidableEq

structure Progress (F : Type) [Floats F] where
  /-- The addresses not begun. -/
  rest : List Text
  cache : ProviderAwareVerifier.Cache F := fun _ => none
  /-- The slots taken of the limiter of the verifier with a key, for a domain. -/
  slots : Text → Text → Nat := fun _ _ => 0
  stage : Stage := .idle

inductive Action where
  | verify | acquire | connect | disconnect | release | finish
  deriving DecidableEq, Repr

namespace Progress

variable (s : Progress F)

/-- The limit of the limiter of the verifier with a key. -/
def perDomain (key : Text) : Int64 :=
  ((s.cache key).map fun v => v.config.perDomainConcurrency).getD 0

def setSlots (key domain : Text) (taken : Nat) : Progress F :=
  { s with slots := Function.update s.slots key (Function.update (s.slots key) domain taken) }

/-- `Verify`, up to the first host. -/
def verify (c : Chunk F) (w : WorkerConfig F) (email : Text) (rest : List Text) : Progress F :=
  if c.static then { s with rest := rest }
  else
    let p := c.verifier w
    let key := (p.matched email).1
    let s := { s with rest := rest, cache := (p.verifierFor s.cache key (p.matched email).2).2 }
    match c.pending w email with
    | .error _ => s
    | .ok parsed => { s with stage := .checking ⟨email, key, parsed.domain⟩ }

/-- `Acquire`; there may be no place. -/
def acquire (call : Call) : Option (Progress F) :=
  if s.perDomain call.key ≤ 0 then some { s with stage := .holding call }
  else if (s.slots call.key call.domain : Int) < (s.perDomain call.key).toInt then
    some { s.setSlots call.key call.domain (s.slots call.key call.domain + 1) with
      stage := .holding call }
  else none

/-- The function that `Acquire` returned. -/
def release (call : Call) : Progress F :=
  if s.perDomain call.key ≤ 0 then { s with stage := .checking call }
  else
    { s.setSlots call.key call.domain (s.slots call.key call.domain - 1) with
      stage := .checking call }

end Progress

/-- A chunk in process. -/
def chunkSystem (w : WorkerConfig F) (c : Chunk F) : System (Progress F) Action where
  step s a :=
    match a, s.stage with
    | .verify, .idle =>
        match s.rest with
        | [] => none
        | email :: rest => some (s.verify c w email rest)
    | .acquire, .checking call => s.acquire call
    | .connect, .holding call => some { s with stage := .session call }
    | .disconnect, .session call => some { s with stage := .holding call }
    | .release, .holding call => some (s.release call)
    | .finish, .checking _ => some { s with stage := .idle }
    | _, _ => none

/-- The worker, with the chunks it processes. -/
def worker (w : WorkerConfig F) {n : Nat} (chunks : Fin n → Chunk F) :
    System (Fin n → Progress F) (Fin n × Action) :=
  System.interleave fun i => chunkSystem w (chunks i)

def start {n : Nat} (chunks : Fin n → Chunk F) : Fin n → Progress F :=
  fun i => { rest := (chunks i).emails }

/-- A session of the chunk is open to the domain. -/
def Progress.sessionTo (s : Progress F) (domain : Text) : Bool :=
  match s.stage with
  | .session call => call.domain == domain
  | _ => false

/-- The sessions of the worker that are open to a domain. -/
def sessions {n : Nat} (s : Fin n → Progress F) (domain : Text) : Nat :=
  (Finset.univ.filter fun i => (s i).sessionTo domain = true).card

/-- No limit of an open session is exceeded. -/
def Bounded (w : WorkerConfig F) {n : Nat}
    (chunks : Fin n → Chunk F) (s : Fin n → Progress F) : Prop :=
  ∀ i call, (s i).stage = .session call → 0 < (chunks i).limit w call.email →
    (sessions s call.domain : Int) ≤ ((chunks i).limit w call.email).toInt

/-- No more chunks have addresses at a domain than each of their limits there allows. -/
def FewChunks (w : WorkerConfig F) {n : Nat}
    (chunks : Fin n → Chunk F) : Prop :=
  ∀ i, (chunks i).static = false → ∀ email ∈ (chunks i).emails,
    ∀ domain ∈ (chunks i).domainOf w email, 0 < (chunks i).limit w email →
      ((Finset.univ.filter fun j => (chunks j).asks w domain = true).card : Int) ≤
        ((chunks i).limit w email).toInt

end

/-! ## The slots of one chunk -/

/-- The call that is under way. -/
def Stage.call : Stage → Option Call
  | .idle => none
  | .checking call | .holding call | .session call => some call

section Slots
variable {F : Type} [Scales F] {w : WorkerConfig F} {c : Chunk F}

/-- The slots that are taken in a stage. -/
def Progress.taken (s : Progress F) (key domain : Text) : Nat :=
  match s.stage with
  | .idle | .checking _ => 0
  | .holding call | .session call =>
      if key = call.key ∧ domain = call.domain ∧ 0 < s.perDomain call.key then 1 else 0

/-- A chunk is at an address of its own, and holds at most the slot of this address. -/
structure Sound (w : WorkerConfig F) (c : Chunk F) (s : Progress F) : Prop where
  rest : ∀ email ∈ s.rest, email ∈ c.emails
  call : ∀ call ∈ s.stage.call, c.static = false ∧ call.email ∈ c.emails ∧
    c.domainOf w call.email = some call.domain
  slots : s.slots = s.taken

theorem sound_start : Sound w c ({ rest := c.emails } : Progress F) where
  rest _ h := h
  call _ h := by cases h
  slots := rfl

theorem slots_setSlots (s : Progress F) (key domain : Text) (n : Nat) (key' domain' : Text) :
    (s.setSlots key domain n).slots key' domain' =
      if key' = key ∧ domain' = domain then n else s.slots key' domain' := by
  rw [Progress.setSlots]
  dsimp only
  by_cases hkey : key' = key
  · subst hkey
    rw [Function.update_self]
    by_cases hdomain : domain' = domain
    · subst hdomain
      rw [Function.update_self, if_pos ⟨rfl, rfl⟩]
    · rw [Function.update_of_ne hdomain, if_neg fun h => hdomain h.2]
  · rw [Function.update_of_ne hkey, if_neg fun h => hkey h.1]

theorem acquire_eq {s : Progress F} {call : Call} (h : s.slots call.key call.domain = 0) :
    s.acquire call =
      some (if s.perDomain call.key ≤ 0 then { s with stage := .holding call }
        else { s.setSlots call.key call.domain 1 with stage := .holding call }) := by
  rw [Progress.acquire]
  split
  next => rfl
  next hpos =>
    have hpos : 0 < (s.perDomain call.key).toInt := by
      rw [Int64.not_le, Int64.lt_iff_toInt_lt] at hpos
      exact hpos
    rw [h, Nat.cast_zero, if_pos hpos]

/-- Nothing is taken between two addresses, nor between two hosts. -/
theorem slots_eq_zero {s : Progress F} (hs : Sound w c s)
    (hstage : s.stage = .idle ∨ ∃ call, s.stage = .checking call) (key domain : Text) :
    s.slots key domain = 0 := by
  rw [hs.slots, Progress.taken]
  rcases hstage with hstage | ⟨call, hstage⟩
  · rw [hstage]
  · rw [hstage]

theorem sound_acquire {s t : Progress F} {call : Call} (hs : Sound w c s)
    (hstage : s.stage = .checking call) (h : s.acquire call = some t) : Sound w c t := by
  have hcall := hs.call
  rw [hstage] at hcall
  have hzero := slots_eq_zero hs (.inr ⟨call, hstage⟩)
  rw [acquire_eq (hzero _ _), Option.some.injEq] at h
  subst h
  split
  next hnever =>
    refine ⟨hs.rest, hcall, ?_⟩
    funext key domain
    rw [hzero]
    exact (if_neg fun hall => Int64.not_lt.mpr hnever hall.2.2).symm
  next hpos =>
    refine ⟨hs.rest, hcall, ?_⟩
    funext key domain
    show (s.setSlots call.key call.domain 1).slots key domain = if _ then 1 else 0
    rw [slots_setSlots, hzero]
    have hpos : 0 < s.perDomain call.key := Int64.not_le.mp hpos
    by_cases hown : key = call.key ∧ domain = call.domain
    · rw [if_pos hown, if_pos ⟨hown.1, hown.2, hpos⟩]
    · rw [if_neg hown, if_neg fun hall => hown ⟨hall.1, hall.2.1⟩]

theorem sound_release {s : Progress F} {call : Call} (hs : Sound w c s)
    (hstage : s.stage = .holding call) : Sound w c (s.release call) := by
  have hcall := hs.call
  rw [hstage] at hcall
  have htaken : ∀ key domain, s.slots key domain =
      if key = call.key ∧ domain = call.domain ∧ 0 < s.perDomain call.key then 1 else 0 := by
    intro key domain
    rw [hs.slots, Progress.taken, hstage]
  rw [Progress.release]
  split
  next hnever =>
    refine ⟨hs.rest, hcall, ?_⟩
    funext key domain
    rw [htaken]
    exact if_neg fun hall => Int64.not_lt.mpr hnever hall.2.2
  next hpos =>
    refine ⟨hs.rest, hcall, ?_⟩
    have hone : s.slots call.key call.domain = 1 := by
      rw [htaken, if_pos ⟨rfl, rfl, Int64.not_le.mp hpos⟩]
    funext key domain
    show (s.setSlots call.key call.domain _).slots key domain = 0
    rw [slots_setSlots, hone]
    by_cases hown : key = call.key ∧ domain = call.domain
    · rw [if_pos hown]
    · rw [if_neg hown, htaken, if_neg fun hall => hown ⟨hall.1, hall.2.1⟩]

/-- A chunk with a session to a domain has an address there. -/
theorem asks_of_sessionTo {c : Chunk F} {t : Progress F} {domain : Text}
    (ht : Sound w c t) (h : t.sessionTo domain = true) : c.asks w domain = true := by
  rw [Progress.sessionTo] at h
  split at h
  next call hstage =>
    have hcall := ht.call
    rw [hstage] at hcall
    obtain ⟨hstatic, hemail, hdomain⟩ := hcall call rfl
    rw [beq_iff_eq.mp h] at hdomain
    rw [Chunk.asks, hstatic, Bool.not_false, Bool.true_and, List.any_eq_true]
    exact ⟨call.email, hemail, beq_iff_eq.mpr hdomain⟩
  · cases h

theorem exists_of_asks {domain : Text} (h : c.asks w domain = true) :
    c.static = false ∧ ∃ email ∈ c.emails, domain ∈ c.domainOf w email := by
  rw [Chunk.asks, Bool.and_eq_true, Bool.not_eq_true', List.any_eq_true] at h
  obtain ⟨hstatic, email, hemail, hdomain⟩ := h
  exact ⟨hstatic, email, hemail, beq_iff_eq.mp hdomain⟩

end Slots

/-! ## One chunk -/

section OneChunk
variable {F : Type} [Scales F] [DecidableEq F] {w : WorkerConfig F} {c : Chunk F}

/-- What a step of a chunk can be. -/
theorem step_cases {s t : Progress F} {a : Action}
    (h : (chunkSystem w c).step s a = some t) :
    (∃ email rest, s.stage = .idle ∧ s.rest = email :: rest ∧
      t = s.verify c w email rest) ∨
    (∃ call, s.stage = .checking call ∧ s.acquire call = some t) ∨
    (∃ call, s.stage = .holding call ∧ t = { s with stage := .session call }) ∨
    (∃ call, s.stage = .session call ∧ t = { s with stage := .holding call }) ∨
    (∃ call, s.stage = .holding call ∧ t = s.release call) ∨
    (∃ call, s.stage = .checking call ∧ t = { s with stage := .idle }) := by
  simp only [chunkSystem] at h
  split at h
  next hstage =>
    split at h
    · cases h
    next email rest hrest =>
      exact .inl ⟨email, rest, hstage, hrest, (Option.some.inj h).symm⟩
  next call hstage => exact .inr (.inl ⟨call, hstage, h⟩)
  next call hstage => exact .inr (.inr (.inl ⟨call, hstage, (Option.some.inj h).symm⟩))
  next call hstage => exact .inr (.inr (.inr (.inl ⟨call, hstage, (Option.some.inj h).symm⟩)))
  next call hstage =>
    exact .inr (.inr (.inr (.inr (.inl ⟨call, hstage, (Option.some.inj h).symm⟩))))
  next call hstage =>
    exact .inr (.inr (.inr (.inr (.inr ⟨call, hstage, (Option.some.inj h).symm⟩))))
  · cases h

variable (w c) in
/-- What `Verify` begins with. -/
theorem verify_cases (s : Progress F) (email : Text) (rest : List Text) :
    (s.verify c w email rest).rest = rest ∧
      (s.verify c w email rest).slots = s.slots ∧
        ((s.verify c w email rest).stage = s.stage ∨
          ∃ call, (s.verify c w email rest).stage = .checking call ∧
            c.static = false ∧ call.email = email ∧
              c.domainOf w email = some call.domain) := by
  rw [Progress.verify]
  split
  next => exact ⟨rfl, rfl, .inl rfl⟩
  next hstatic =>
    have hstatic := Bool.eq_false_iff.mpr hstatic
    dsimp only
    split
    next => exact ⟨rfl, rfl, .inl rfl⟩
    next parsed hparsed =>
      refine ⟨rfl, rfl, .inr ⟨_, rfl, hstatic, rfl, ?_⟩⟩
      rw [Chunk.domainOf, hparsed]
      rfl

variable (w) in
theorem verify_parsed (s : Progress F) {email domain : Text} (rest : List Text)
    (hstatic : c.static = false) (hdomain : domain ∈ c.domainOf w email) :
    ∃ call, (s.verify c w email rest).stage = .checking call ∧ call.email = email ∧
      call.domain = domain := by
  rw [Chunk.domainOf] at hdomain
  rw [Progress.verify, if_neg (by rw [hstatic]; exact Bool.false_ne_true)]
  cases hparse : c.pending w email with
  | error result =>
      rw [hparse] at hdomain
      cases hdomain
  | ok parsed =>
      rw [hparse] at hdomain
      exact ⟨_, rfl, rfl, Option.some.inj hdomain⟩

theorem sound_verify {s : Progress F} {email : Text} {rest : List Text} (hs : Sound w c s)
    (hstage : s.stage = .idle) (hemails : s.rest = email :: rest) :
    Sound w c (s.verify c w email rest) := by
  have hmem := hs.rest
  rw [hemails] at hmem
  obtain ⟨hrest, hslots, hafter⟩ := verify_cases w c s
    email rest
  have hrest : ∀ e ∈ (s.verify c w email rest).rest, e ∈ c.emails := by
    intro e he
    rw [hrest] at he
    exact hmem e (List.mem_cons_of_mem _ he)
  have hzero := slots_eq_zero hs (.inl hstage)
  rcases hafter with hafter | ⟨call, hafter, hstatic, rfl, hdomain⟩
  · refine ⟨hrest, fun call hc => ?_, ?_⟩
    · rw [hafter, hstage] at hc
      cases hc
    · funext key domain
      rw [hslots, hzero, Progress.taken, hafter, hstage]
  · refine ⟨hrest, fun other hc => ?_, ?_⟩
    · rw [hafter] at hc
      cases hc
      exact ⟨hstatic, hmem _ List.mem_cons_self, hdomain⟩
    · funext key domain
      rw [hslots, hzero, Progress.taken, hafter]

theorem sound_step {s t : Progress F} {a : Action} (hs : Sound w c s)
    (h : (chunkSystem w c).step s a = some t) : Sound w c t := by
  rcases step_cases h with ⟨email, rest, hstage, hemails, rfl⟩ | ⟨call, hstage, hacquire⟩ |
    ⟨call, hstage, rfl⟩ | ⟨call, hstage, rfl⟩ | ⟨call, hstage, rfl⟩ | ⟨call, hstage, rfl⟩
  · exact sound_verify hs hstage hemails
  · exact sound_acquire hs hstage hacquire
  · -- a session keeps the slot
    have hcall := hs.call
    rw [hstage] at hcall
    refine ⟨hs.rest, hcall, ?_⟩
    rw [hs.slots]
    funext key domain
    rw [Progress.taken, hstage]
    rfl
  · have hcall := hs.call
    rw [hstage] at hcall
    refine ⟨hs.rest, hcall, ?_⟩
    rw [hs.slots]
    funext key domain
    rw [Progress.taken, hstage]
    rfl
  · exact sound_release hs hstage
  · refine ⟨hs.rest, fun other hc => ?_, ?_⟩
    · cases hc
    · funext key domain
      exact slots_eq_zero hs (.inr ⟨call, hstage⟩) key domain

theorem sound_of_reaches {t : Progress F}
    (h : (chunkSystem w c).Reaches Always { rest := c.emails } t) :
    Sound w c t :=
  h.invariant sound_start fun _ _ _ hs _ hstep => sound_step hs hstep

/-- **A limiter never makes a call wait: its chunk has no other call.** -/
theorem never_waits {t : Progress F} {call : Call}
    (h : (chunkSystem w c).Reaches Always { rest := c.emails } t)
    (hstage : t.stage = .checking call) :
    ((chunkSystem w c).step t .acquire).isSome = true := by
  have hzero := slots_eq_zero (sound_of_reaches h) (.inr ⟨call, hstage⟩) call.key call.domain
  simp only [chunkSystem, hstage]
  rw [acquire_eq hzero]
  rfl

variable (w c) in
/-- A chunk can leave its addresses behind one by one. -/
theorem reaches_idle (front back : List Text) : ∀ {s : Progress F}, s.stage = .idle →
    s.rest = front ++ back →
      ∃ t, (chunkSystem w c).Reaches Always s t ∧ t.stage = .idle ∧ t.rest = back := by
  induction front with
  | nil =>
      intro s hstage hrest
      exact ⟨s, .refl, hstage, hrest⟩
  | cons email front ih =>
      intro s hstage hrest
      have hstep : (chunkSystem w c).step s .verify =
          some (s.verify c w email (front ++ back)) := by
        simp only [chunkSystem, hstage, hrest, List.cons_append]
      obtain ⟨hrest', -, hafter⟩ := verify_cases w c s
        email (front ++ back)
      rcases hafter with hafter | ⟨call, hafter, -⟩
      · obtain ⟨t, hreach, ht⟩ := ih (hafter.trans hstage) hrest'
        exact ⟨t, .head trivial hstep hreach, ht⟩
      · have hfinish : (chunkSystem w c).step
            (s.verify c w email (front ++ back)) .finish =
              some { s.verify c w email (front ++ back) with stage := .idle } := by
          simp only [chunkSystem, hafter]
        obtain ⟨t, hreach, ht⟩ :=
          ih (s := { s.verify c w email (front ++ back) with stage := .idle }) rfl hrest'
        exact ⟨t, .head trivial hstep (.head trivial hfinish hreach), ht⟩

variable (w) in
/-- A chunk can come to a session at each of its addresses. -/
theorem reaches_session (hstatic : c.static = false) {email domain : Text}
    (hemail : email ∈ c.emails) (hdomain : domain ∈ c.domainOf w email) :
    ∃ t call, (chunkSystem w c).Reaches Always { rest := c.emails } t ∧
      t.stage = .session call ∧ call.email = email ∧ call.domain = domain := by
  obtain ⟨front, back, hsplit⟩ := List.append_of_mem hemail
  obtain ⟨s, hreach, hstage, hrest⟩ := reaches_idle w c front (email :: back)
    (s := { rest := c.emails }) rfl hsplit
  have hverify : (chunkSystem w c).step s .verify = some (s.verify c w email back) := by
    simp only [chunkSystem, hstage, hrest]
  obtain ⟨call, hcalled, hemail, hdomain⟩ := verify_parsed w s back hstatic hdomain
  have hchecking := hreach.tail trivial hverify
  obtain ⟨t, hacquire⟩ := Option.isSome_iff_exists.mp (never_waits hchecking hcalled)
  have hheld : t.stage = .holding call := by
    simp only [chunkSystem, hcalled] at hacquire
    rw [acquire_eq (slots_eq_zero (sound_of_reaches hchecking) (.inr ⟨call, hcalled⟩) _ _),
      Option.some.injEq] at hacquire
    rw [← hacquire]
    split <;> rfl
  have hconnect : (chunkSystem w c).step t .connect =
      some { t with stage := .session call } := by
    simp only [chunkSystem, hheld]
  exact ⟨_, call, (hchecking.tail trivial hacquire).tail trivial hconnect, rfl, hemail, hdomain⟩

end OneChunk

/-! ## All chunks -/

section AllChunks
variable {F : Type} [Scales F] [DecidableEq F] {w : WorkerConfig F} {n : Nat}
  {chunks : Fin n → Chunk F}

theorem reaches_worker_iff {s : Fin n → Progress F} :
    (worker w chunks).Reaches Always (start chunks) s ↔
      ∀ i, (chunkSystem w (chunks i)).Reaches Always { rest := (chunks i).emails } (s i) :=
  System.reaches_interleave_iff (C := fun _ => Always)

variable (w chunks) in
/-- All chunks that have an address at a domain can be in a session there at once, one of them for
an address of choice. -/
theorem exists_all_in_session {i : Fin n} {email domain : Text}
    (hstatic : (chunks i).static = false) (hemail : email ∈ (chunks i).emails)
    (hdomain : domain ∈ (chunks i).domainOf w email) :
    ∃ s call, (worker w chunks).Reaches Always (start chunks) s ∧
      (s i).stage = .session call ∧ call.email = email ∧ call.domain = domain ∧
        ∀ j, (chunks j).asks w domain = true → (s j).sessionTo domain = true := by
  obtain ⟨t, call, hreach, hstage, hcall, hat⟩ := reaches_session w hstatic hemail hdomain
  have hown : t.sessionTo domain = true := by
    rw [Progress.sessionTo, hstage]
    exact beq_iff_eq.mpr hat
  have hchoice : ∀ j, ∃ u, (chunkSystem w (chunks j)).Reaches Always
      { rest := (chunks j).emails } u ∧ (j = i → u.stage = .session call) ∧
        ((chunks j).asks w domain = true → u.sessionTo domain = true) := by
    intro j
    by_cases hji : j = i
    · subst hji
      exact ⟨t, hreach, fun _ => hstage, fun _ => hown⟩
    · by_cases hasks : (chunks j).asks w domain = true
      · obtain ⟨hstatic', email', hemail', hdomain'⟩ := exists_of_asks hasks
        obtain ⟨u, call', hreach', hstage', -, hat'⟩ := reaches_session w hstatic' hemail' hdomain'
        refine ⟨u, hreach', fun heq => absurd heq hji, fun _ => ?_⟩
        rw [Progress.sessionTo, hstage']
        exact beq_iff_eq.mpr hat'
      · exact ⟨_, .refl, fun heq => absurd heq hji, fun h => absurd h hasks⟩
  choose s hs using hchoice
  exact ⟨s, call, reaches_worker_iff.mpr fun j => (hs j).1, (hs i).2.1 rfl, hcall, hat,
    fun j => (hs j).2.2⟩

/-- **The limits are kept in every state that the worker can be in exactly when no more chunks
have addresses at a domain than each limit there allows.** -/
theorem slots_bounded_iff (w : WorkerConfig F) (n : Nat) (chunks : Fin n → Chunk F) :
    (∀ s, (worker w chunks).Reaches Always (start chunks) s → Bounded w chunks s) ↔
      FewChunks w chunks := by
  constructor
  · intro hbounded i hstatic email hemail domain hdomain hlimit
    obtain ⟨s, call, hreach, hstage, rfl, rfl, hall⟩ :=
      exists_all_in_session w chunks hstatic hemail hdomain
    refine le_trans ?_ (hbounded s hreach i call hstage hlimit)
    exact_mod_cast Finset.card_le_card fun j hj => by
      rw [Finset.mem_filter] at hj ⊢
      exact ⟨hj.1, hall j hj.2⟩
  · intro hfew s hreach i call hstage hlimit
    have hsound : ∀ j, Sound w (chunks j) (s j) :=
      fun j => sound_of_reaches (reaches_worker_iff.mp hreach j)
    have hcall := (hsound i).call
    rw [hstage] at hcall
    obtain ⟨hstatic, hemail, hdomain⟩ := hcall call rfl
    refine le_trans ?_ (hfew i hstatic call.email hemail call.domain hdomain hlimit)
    exact_mod_cast Finset.card_le_card fun j hj => by
      rw [Finset.mem_filter] at hj ⊢
      exact ⟨hj.1, asks_of_sessionTo (hsound j) hj.2⟩

end AllChunks

/-- A worker without a configuration of its own. -/
def bareWorker : WorkerConfig Number where
  toASCII := plainToASCII

/-- Two chunks with an address at one domain, and a limit of one. -/
def twoChunks : Fin 2 → Chunk Number := fun _ =>
  { policy := some { perDomainConcurrency := 1 }
    state := {}
    emails := ["a@example.com".toList] }

/-- Both have a session to the domain. -/
theorem limit_exceeded :
    ¬ ∀ (w : WorkerConfig Number) (n : Nat) (chunks : Fin n → Chunk Number)
        (s : Fin n → Progress Number),
      (worker w chunks).Reaches Always (start chunks) s → Bounded w chunks s := by
  intro hclaim
  have hasks : ∀ j, (twoChunks j).asks bareWorker "example.com".toList = true := by
    decide +kernel
  have hlimit : (twoChunks 0).limit bareWorker "a@example.com".toList = 1 := by
    decide +kernel
  obtain ⟨s, call, hreach, hstage, hemail, hdomain, hall⟩ :=
    @exists_all_in_session Number _ _ bareWorker 2 twoChunks 0 "a@example.com".toList
      "example.com".toList rfl List.mem_cons_self (by decide +kernel)
  have hboth : sessions s call.domain = 2 := by
    rw [sessions, hdomain, Finset.filter_true_of_mem fun j _ => hall j (hasks j)]
    rfl
  have hbounded := hclaim bareWorker 2 twoChunks s hreach 0 call hstage
  rw [hemail, hlimit, hboth] at hbounded
  exact absurd (hbounded (by decide)) (by decide)

end ValidEmailVerifier.Engine.DomainLimits
