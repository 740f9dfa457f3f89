/-
# `SeedSend.Webhooks` — webhooks that are sent again

A webhook is signed, either with a secret that the provider shares, over a timestamp, a nonce
and the payload, or in the way of SendGrid, over a timestamp and the payload.  It is accepted
while its timestamp is not older, nor further in the future, than the maximal age; and a nonce
is kept in the cache, for that age and five seconds from the arrival on.

A timestamp in the future outlives its nonce, so what it signs is accepted again
(`replayed_always`).  The nonce is filed under the provider, and that of SendGrid is made of the
text of the signature.  A sequence of requests in which none slips through in these ways has no
content accepted twice (`noReplay_of_caught`).  The cryptographic functions are any.
-/
import Mathlib.Algebra.Group.Nat.Defs
import Mathlib.Data.List.Basic
import ValidEmailVerifier.Lib.ExpiringKeys
import ValidEmailVerifier.Lib.Text
import ValidEmailVerifier.Lib.Transition
import ValidEmailVerifier.Pipeline.Schema

namespace ValidEmailVerifier.SeedSend.Webhooks

open ExpiringKeys Transition

/-! ## Functions of PHP -/

abbrev Bytes := List UInt8

/-- The functions of the extensions. -/
structure Crypto where
  hashHmac : Text → Text → Text
  sha256 : Text → Text
  opensslVerify : Text → Bytes → Text → Bool

def ctypeDigit (s : Text) : Bool := s ≠ [] && s.all Char.isDigit

/-- `(int)` of a text of digits. -/
def toInt (s : Text) : Nat :=
  min (s.foldl (fun n c => 10 * n + (c.toNat - '0'.toNat)) 0) (2 ^ 63 - 1)

def base64Value (c : Char) : Option Nat :=
  if 'A' ≤ c ∧ c ≤ 'Z' then some (c.toNat - 'A'.toNat)
  else if 'a' ≤ c ∧ c ≤ 'z' then some (c.toNat - 'a'.toNat + 26)
  else if c.isDigit then some (c.toNat - '0'.toNat + 52)
  else if c = '+' then some 62
  else if c = '/' then some 63
  else none

/-- The values of the characters and the number of padding characters behind them; blanks are
passed over. -/
def base64Values : Text → List Nat → Nat → Option (List Nat × Nat)
  | [], values, padding => some (values.reverse, padding)
  | c :: s, values, padding =>
      if c = '=' then base64Values s values (padding + 1)
      else if c ∈ [' ', '\t', '\n', '\r'] then base64Values s values padding
      else
        match base64Value c with
        | none => none
        | some value => if padding = 0 then base64Values s (value :: values) 0 else none

/-- Four values make three bytes; bits that are left over are dropped. -/
def base64Bytes : List Nat → Bytes
  | a :: b :: c :: d :: rest =>
      .ofNat (a * 4 + b / 16) :: .ofNat (b % 16 * 16 + c / 4) :: .ofNat (c % 4 * 64 + d) ::
        base64Bytes rest
  | [a, b, c] => [.ofNat (a * 4 + b / 16), .ofNat (b % 16 * 16 + c / 4)]
  | [a, b] => [.ofNat (a * 4 + b / 16)]
  | _ => []

/-- `base64_decode($s, true)` -/
def base64Decode (s : Text) : Option Bytes :=
  match base64Values s [] 0 with
  | none => none
  | some (values, padding) =>
      if values.length % 4 = 1 then none
      else if padding ≠ 0 ∧ (2 < padding ∨ (values.length + padding) % 4 ≠ 0) then none
      else some (base64Bytes values)

/-! ## The validator -/

/-- What of the configuration the validator reads, as the provider manager gives it. -/
structure Config where
  webhookSecret : Text → Text
  webhookPublicKey : Text → Text
  signatureHeader : Text := "X-Seed-Signature".toList
  timestampHeader : Text := "X-Seed-Timestamp".toList
  nonceHeader : Text := "X-Seed-Nonce".toList
  sendGridSignatureHeader : Text := "X-Twilio-Email-Event-Webhook-Signature".toList
  sendGridTimestampHeader : Text := "X-Twilio-Email-Event-Webhook-Timestamp".toList
  signatureMaxAgeSeconds : Int := 300
  replayCachePrefix : Text := "seed_send:webhook:nonce".toList

/-- A request; a header that it does not have is empty. -/
structure Request where
  provider : Text
  header : Text → Text
  content : Text

/-- `strtolower(trim($provider))` -/
def normalized (provider : Text) : Text := Text.strtolower (Text.trim provider)

namespace Config

variable (config : Config)

/-- The provider that is meant: without one, `log`. -/
def normalizeProvider (provider : Text) : Text :=
  if normalized provider = [] then "log".toList else normalized provider

def webhookSecretForProvider (provider : Text) : Text :=
  Text.trim (config.webhookSecret (normalizeProvider provider))

def webhookPublicKeyForProvider (provider : Text) : Text :=
  Text.trim (config.webhookPublicKey (normalizeProvider provider))

def maxAgeSeconds : Nat := (max 1 config.signatureMaxAgeSeconds).toNat

/-- The header of a name that is configured. -/
def read (name : Text) (request : Request) : Text :=
  Text.trim (request.header (Text.trim name))

/-- The timestamp is neither too old nor too far in the future. -/
def fresh (now : Nat) (timestampRaw : Text) : Bool :=
  ((now : Int) - toInt timestampRaw).natAbs ≤ config.maxAgeSeconds

def nonceCacheKey (provider nonce : Text) : Text :=
  Text.trim config.replayCachePrefix ++ ":".toList ++ normalized provider ++ ":".toList ++ nonce

end Config

abbrev Cache := Keys Text fun _ => Text

/-- What a signature is over, and for SendGrid the signature itself. -/
inductive Signed where
  | sharedSecret (timestampRaw nonce payload : Text)
  | sendGrid (signature : Bytes) (timestampRaw payload : Text)
  deriving DecidableEq

def Signed.timestampRaw : Signed → Text
  | .sharedSecret timestampRaw _ _ => timestampRaw
  | .sendGrid _ timestampRaw _ => timestampRaw

section

variable (crypto : Crypto) (config : Config)

/-- `Cache::add` of the nonce: what was signed is accepted if the nonce is not there. -/
def addNonce (now : Nat) (cache : Cache) (provider nonce : Text) (signed : Signed) :
    Option Signed × Cache :=
  let cacheKey := config.nonceCacheKey provider nonce
  if (cache.get now cacheKey).isSome then (none, cache)
  else
    (some signed, cache.setNX now cacheKey (Nat.toDigits 10 (toInt signed.timestampRaw))
      (some (now + (config.maxAgeSeconds + 5))))

/-- What of the request was accepted, if anything. -/
def validateSharedSecretSignature (now : Nat) (cache : Cache) (request : Request)
    (provider : Text) : Option Signed × Cache :=
  let secret := config.webhookSecretForProvider provider
  if secret = [] then (none, cache)
  else
    let signature := Config.read config.signatureHeader request
    if signature = [] then (none, cache)
    else
      let timestampRaw := Config.read config.timestampHeader request
      let nonce := Config.read config.nonceHeader request
      if timestampRaw = [] ∨ ctypeDigit timestampRaw = false ∨ nonce = [] then (none, cache)
      else if config.fresh now timestampRaw = false then (none, cache)
      else
        let payload := request.content
        let signedPayload := timestampRaw ++ "\n".toList ++ nonce ++ "\n".toList ++ payload
        if crypto.hashHmac signedPayload secret ≠ signature then (none, cache)
        else
          addNonce config now cache provider nonce (.sharedSecret timestampRaw nonce payload)

/-- The nonce that stands for a signature of SendGrid. -/
def sendGridNonce (timestampRaw signatureRaw content : Text) : Text :=
  crypto.sha256 (timestampRaw ++ "|".toList ++ signatureRaw ++ "|".toList ++ crypto.sha256 content)

def validateSendGridSignature (now : Nat) (cache : Cache) (request : Request) (provider : Text) :
    Option Signed × Cache :=
  let publicKey := config.webhookPublicKeyForProvider provider
  if publicKey = [] then (none, cache)
  else
    let signatureRaw := Config.read config.sendGridSignatureHeader request
    let timestampRaw := Config.read config.sendGridTimestampHeader request
    if signatureRaw = [] ∨ timestampRaw = [] ∨ ctypeDigit timestampRaw = false then (none, cache)
    else if config.fresh now timestampRaw = false then (none, cache)
    else
      match base64Decode signatureRaw with
      | none => (none, cache)
      | some [] => (none, cache)
      | some decodedSignature =>
          if crypto.opensslVerify (timestampRaw ++ request.content) decodedSignature publicKey =
              false then (none, cache)
          else
            addNonce config now cache provider
              (sendGridNonce crypto timestampRaw signatureRaw request.content)
              (.sendGrid decodedSignature timestampRaw request.content)

def validate (now : Nat) (cache : Cache) (request : Request) : Option Signed × Cache :=
  let provider := normalized request.provider
  if provider = "sendgrid".toList then
    match validateSendGridSignature crypto config now cache request provider with
    | (some signed, cache) => (some signed, cache)
    | (none, cache) => validateSharedSecretSignature crypto config now cache request provider
  else validateSharedSecretSignature crypto config now cache request provider

/-! ## What a request carries -/

/-- What the request carries a signature of with the shared secret. -/
def sharedSecretSigned (request : Request) : Option Signed :=
  let secret := config.webhookSecretForProvider (normalized request.provider)
  let signature := Config.read config.signatureHeader request
  let timestampRaw := Config.read config.timestampHeader request
  let nonce := Config.read config.nonceHeader request
  let signedPayload :=
    timestampRaw ++ "\n".toList ++ nonce ++ "\n".toList ++ request.content
  if secret ≠ [] ∧ signature ≠ [] ∧ ctypeDigit timestampRaw ∧ nonce ≠ [] ∧
      crypto.hashHmac signedPayload secret = signature then
    some (.sharedSecret timestampRaw nonce request.content)
  else none

/-- What it carries a signature of SendGrid of. -/
def sendGridSigned (request : Request) : Option Signed :=
  let publicKey := config.webhookPublicKeyForProvider (normalized request.provider)
  let timestampRaw := Config.read config.sendGridTimestampHeader request
  match base64Decode (Config.read config.sendGridSignatureHeader request) with
  | none => none
  | some signature =>
      if normalized request.provider = "sendgrid".toList ∧ publicKey ≠ [] ∧
          ctypeDigit timestampRaw ∧ signature ≠ [] ∧
          crypto.opensslVerify (timestampRaw ++ request.content) signature publicKey then
        some (.sendGrid signature timestampRaw request.content)
      else none

/-- All that the request carries a valid signature of. -/
def signedContents (request : Request) : List Signed :=
  (sendGridSigned crypto config request).toList ++
    (sharedSecretSigned crypto config request).toList

/-- The key under which the nonce of what was signed is kept. -/
def cacheKeyOf (request : Request) : Signed → Text
  | .sharedSecret _ nonce _ => config.nonceCacheKey (normalized request.provider) nonce
  | .sendGrid _ timestampRaw payload =>
      config.nonceCacheKey (normalized request.provider)
        (sendGridNonce crypto timestampRaw (Config.read config.sendGridSignatureHeader request)
          payload)

/-- The cache with the nonce of what was signed. -/
def withNonce (now : Nat) (cache : Cache) (request : Request) (signed : Signed) : Cache :=
  cache.setNX now (cacheKeyOf crypto config request signed)
    (Nat.toDigits 10 (toInt signed.timestampRaw)) (some (now + (config.maxAgeSeconds + 5)))

/-- Nothing is accepted, or something that is signed, fresh and not in the cache. -/
def Validates (now : Nat) (cache : Cache) (request : Request) (contents : List Signed)
    (result : Option Signed × Cache) : Prop :=
  result = (none, cache) ∨ ∃ signed ∈ contents, config.fresh now signed.timestampRaw = true ∧
    cache.get now (cacheKeyOf crypto config request signed) = none ∧
    result = (some signed, withNonce crypto config now cache request signed)

end

section

variable {crypto : Crypto} {config : Config} {now : Nat} {cache : Cache} {request : Request}

theorem validates_addNonce {signed : Signed} {nonce : Text}
    (hkey : config.nonceCacheKey (normalized request.provider) nonce =
      cacheKeyOf crypto config request signed)
    (hfresh : config.fresh now signed.timestampRaw = true) :
    Validates crypto config now cache request [signed]
      (addNonce config now cache (normalized request.provider) nonce signed) := by
  rw [addNonce, hkey]
  split_ifs with hthere
  · exact .inl rfl
  · exact .inr ⟨signed, List.mem_singleton_self _, hfresh,
      Option.not_isSome_iff_eq_none.mp hthere, rfl⟩

theorem validates_sharedSecret :
    Validates crypto config now cache request (sharedSecretSigned crypto config request).toList
      (validateSharedSecretSignature crypto config now cache request
        (normalized request.provider)) := by
  rw [validateSharedSecretSignature]
  dsimp only
  split_ifs with hsecret hsignature hheaders hfresh hhmac
  · exact .inl rfl
  · exact .inl rfl
  · exact .inl rfl
  · exact .inl rfl
  · exact .inl rfl
  · obtain ⟨-, hheaders⟩ := not_or.mp hheaders
    obtain ⟨hdigits, hnonce⟩ := not_or.mp hheaders
    have hsigned : sharedSecretSigned crypto config request =
        some (.sharedSecret (Config.read config.timestampHeader request)
          (Config.read config.nonceHeader request) request.content) :=
      if_pos ⟨hsecret, hsignature, eq_true_of_ne_false hdigits, hnonce,
        not_not.mp hhmac⟩
    rw [hsigned]
    exact validates_addNonce rfl (eq_true_of_ne_false hfresh)

variable (crypto config now cache) in
theorem validates_sendGrid (hprovider : normalized request.provider = "sendgrid".toList) :
    Validates crypto config now cache request (sendGridSigned crypto config request).toList
      (validateSendGridSignature crypto config now cache request
        (normalized request.provider)) := by
  rw [validateSendGridSignature]
  dsimp only
  split_ifs with hkey hheaders hfresh
  · exact .inl rfl
  · exact .inl rfl
  · exact .inl rfl
  · obtain ⟨-, hheaders⟩ := not_or.mp hheaders
    obtain ⟨-, hdigits⟩ := not_or.mp hheaders
    cases hdecoded : base64Decode (Config.read config.sendGridSignatureHeader request) with
    | none => exact .inl rfl
    | some signature =>
      cases signature with
      | nil => exact .inl rfl
      | cons byte bytes =>
        dsimp only
        split_ifs with hverified
        · exact .inl rfl
        · have hsigned : sendGridSigned crypto config request =
              some (.sendGrid (byte :: bytes) (Config.read config.sendGridTimestampHeader request)
                request.content) := by
            rw [sendGridSigned, hdecoded]
            exact if_pos ⟨hprovider, hkey, eq_true_of_ne_false hdigits,
              List.cons_ne_nil _ _, eq_true_of_ne_false hverified⟩
          rw [hsigned]
          exact validates_addNonce rfl (eq_true_of_ne_false hfresh)

variable (crypto config now cache request) in
/-- What is accepted is signed and fresh, and its nonce is not in the cache before it. -/
theorem validates_validate :
    Validates crypto config now cache request (signedContents crypto config request)
      (validate crypto config now cache request) := by
  have hshared : Validates crypto config now cache request (signedContents crypto config request)
      (validateSharedSecretSignature crypto config now cache request
        (normalized request.provider)) := by
    refine validates_sharedSecret.imp_right fun ⟨signed, hmem, hrest⟩ => ?_
    exact ⟨signed, List.mem_append_right _ hmem, hrest⟩
  rw [validate]
  split_ifs with hprovider
  · rcases validates_sendGrid crypto config now cache hprovider with
      hnone | ⟨signed, hmem, hfresh, hkey, hsome⟩
    · rw [hnone]
      exact hshared
    · rw [hsome]
      exact .inr ⟨signed, List.mem_append_left _ hmem, hfresh, hkey, rfl⟩
  · exact hshared

end

/-! ## Requests one after the other -/

/-- A request that was accepted, when, and for what it carries a signature of. -/
structure Acceptance where
  request : Request
  arrival : Nat
  signed : Signed

structure State where
  cache : Cache := Keys.empty
  clock : Nat := 0
  accepted : List Acceptance := []

section

variable (crypto : Crypto) (config : Config)

/-- A request arrives, and no clock goes back. -/
def webhooks : System State (Nat × Request) where
  step s x :=
    if s.clock ≤ x.1 then
      let (signed, cache) := validate crypto config x.1 s.cache x.2
      some ⟨cache, x.1, s.accepted ++ signed.toList.map fun c => ⟨x.2, x.1, c⟩⟩
    else none

/-- No two requests that were accepted carry a signature of the same. -/
def NoReplay (s : State) : Prop :=
  s.accepted.Pairwise fun a b =>
    ∀ c ∈ signedContents crypto config a.request, c ∉ signedContents crypto config b.request

/-- A request with a signature that an accepted one had carries no other one; and if it is
fresh, it is for the same provider, with the same text of a signature of SendGrid, the nonce of
the other one is that of this signature, and it has not expired. -/
def Caught (a : Acceptance) (now : Nat) (request : Request) (c : Signed) : Prop :=
  signedContents crypto config request = [c] ∧
    (config.fresh now c.timestampRaw = true →
      normalized request.provider = normalized a.request.provider ∧
      (match c with
        | .sharedSecret .. => True
        | .sendGrid .. =>
            Config.read config.sendGridSignatureHeader request =
              Config.read config.sendGridSignatureHeader a.request) ∧
      a.signed = c ∧ now < a.arrival + (config.maxAgeSeconds + 5))

/-- Every request that repeats what was accepted is caught. -/
def NoneSlips (s : State) (x : Nat × Request) : Prop :=
  ∀ a ∈ s.accepted, ∀ c ∈ signedContents crypto config x.2,
    c ∈ signedContents crypto config a.request → Caught crypto config a x.1 x.2 c

instance (a : Acceptance) (now : Nat) (request : Request) :
    ∀ c, Decidable (Caught crypto config a now request c)
  | .sharedSecret .. => inferInstanceAs (Decidable (_ = _ ∧ (_ → _ = _ ∧ True ∧ _ = _ ∧ _ < _)))
  | .sendGrid .. => inferInstanceAs (Decidable (_ = _ ∧ (_ → _ = _ ∧ _ = _ ∧ _ = _ ∧ _ < _)))

instance (s : State) (x : Nat × Request) : Decidable (NoneSlips crypto config s x) :=
  inferInstanceAs (Decidable (∀ a ∈ s.accepted, ∀ c ∈ _, _ → _))

/-- What holds of every run without a request that slips through. -/
structure Settled (s : State) : Prop where
  signed : ∀ a ∈ s.accepted, a.signed ∈ signedContents crypto config a.request
  kept : ∀ a ∈ s.accepted, ∃ e, s.cache (cacheKeyOf crypto config a.request a.signed) = some e ∧
    ∃ moment, e.expires = some moment ∧ a.arrival + (config.maxAgeSeconds + 5) ≤ moment
  arrived : ∀ a ∈ s.accepted, a.arrival ≤ s.clock
  noReplay : NoReplay crypto config s

end

section

variable {crypto : Crypto} {config : Config}

/-- Conversely, what is signed with the shared secret, fresh and not in the cache is accepted. -/
theorem validate_of_signed {now : Nat} {cache : Cache} {request : Request} {signed : Signed}
    (hprovider : normalized request.provider ≠ "sendgrid".toList)
    (hsigned : sharedSecretSigned crypto config request = some signed)
    (hfresh : config.fresh now signed.timestampRaw = true)
    (hkey : cache.get now (cacheKeyOf crypto config request signed) = none) :
    validate crypto config now cache request =
      (some signed, withNonce crypto config now cache request signed) := by
  rw [sharedSecretSigned] at hsigned
  split_ifs at hsigned with hvalid
  obtain ⟨hsecret, hsignature, hdigits, hnonce, hhmac⟩ := hvalid
  obtain rfl := Option.some.inj hsigned
  have htimestamp : Config.read config.timestampHeader request ≠ [] := by
    intro hempty
    rw [hempty] at hdigits
    exact nomatch hdigits
  have hheaders : ¬ (Config.read config.timestampHeader request = [] ∨
      ctypeDigit (Config.read config.timestampHeader request) = false ∨
      Config.read config.nonceHeader request = []) := by
    rintro (hempty | hdigits' | hempty)
    · exact htimestamp hempty
    · rw [hdigits] at hdigits'
      exact nomatch hdigits'
    · exact hnonce hempty
  rw [validate, if_neg hprovider, validateSharedSecretSignature]
  dsimp only
  have hstale : ¬ config.fresh now (Config.read config.timestampHeader request) = false :=
    fun hstale => nomatch hstale.symm.trans hfresh
  rw [if_neg hsecret, if_neg hsignature, if_neg hheaders, if_neg hstale,
    if_neg (not_not.mpr hhmac), addNonce]
  exact if_neg (Option.not_isSome_iff_eq_none.mpr hkey)

/-- What it does to the state. -/
theorem step_of_signed {s : State} {now : Nat} {request : Request} {signed : Signed}
    (hclock : s.clock ≤ now) (hprovider : normalized request.provider ≠ "sendgrid".toList)
    (hsigned : sharedSecretSigned crypto config request = some signed)
    (hfresh : config.fresh now signed.timestampRaw = true)
    (hkey : s.cache.get now (cacheKeyOf crypto config request signed) = none) :
    (webhooks crypto config).step s (now, request) =
      some ⟨withNonce crypto config now s.cache request signed, now,
        s.accepted ++ [⟨request, now, signed⟩]⟩ := by
  rw [webhooks]
  dsimp only
  rw [if_pos hclock, validate_of_signed hprovider hsigned hfresh hkey]
  rfl

theorem settled_initial : Settled crypto config {} := ⟨nofun, nofun, nofun, .nil⟩

/-- A nonce that is kept longer than a moment is read then. -/
theorem get_isSome {cache : Cache} {key : Text} {e : Entry Text} {now moment : Nat}
    (he : cache key = some e) (hmoment : e.expires = some moment) (hnow : now < moment) :
    (cache.get now key).isSome = true := by
  have hlive : e.live now = true := by
    rw [Entry.live, hmoment]
    exact decide_eq_true hnow
  rw [Keys.get, he, Option.bind_some, if_pos hlive]
  rfl

/-- What is accepted was not accepted before. -/
theorem not_repeated {s : State} {now : Nat} {request : Request} {signed : Signed}
    (h : Settled crypto config s) (hC : NoneSlips crypto config s (now, request))
    (hmem : signed ∈ signedContents crypto config request)
    (hfresh : config.fresh now signed.timestampRaw = true)
    (hkey : s.cache.get now (cacheKeyOf crypto config request signed) = none) :
    ∀ a ∈ s.accepted, ∀ c ∈ signedContents crypto config a.request,
      c ∉ signedContents crypto config request := by
  intro a ha c hc hrepeated
  obtain ⟨halone, hcaught⟩ := hC a ha c hrepeated hc
  rw [halone, List.mem_singleton] at hmem
  subst hmem
  obtain ⟨hprovider, htext, hby, hnow⟩ := hcaught hfresh
  have hsame : cacheKeyOf crypto config request signed =
      cacheKeyOf crypto config a.request signed := by
    cases signed with
    | sharedSecret timestampRaw nonce payload => rw [cacheKeyOf, cacheKeyOf, hprovider]
    | sendGrid signature timestampRaw payload =>
      rw [cacheKeyOf, cacheKeyOf, hprovider]
      dsimp only at htext
      rw [htext]
  obtain ⟨e, he, moment, hmoment, hle⟩ := h.kept a ha
  rw [hby, ← hsame] at he
  have hthere := get_isSome he hmoment (Nat.lt_of_lt_of_le hnow hle)
  rw [hkey] at hthere
  exact nomatch hthere

theorem withNonce_self {cache : Cache} {now : Nat} {request : Request} {signed : Signed}
    (hkey : cache.get now (cacheKeyOf crypto config request signed) = none) :
    withNonce crypto config now cache request signed (cacheKeyOf crypto config request signed) =
      some ⟨Nat.toDigits 10 (toInt signed.timestampRaw),
        some (now + (config.maxAgeSeconds + 5))⟩ := by
  rw [withNonce, Keys.setNX, hkey, if_neg (by simp)]
  exact Keys.set_self ..

/-- A nonce that is in the cache stays, or is written again when it has expired. -/
theorem kept_withNonce {s : State} {now : Nat} {request : Request} {signed : Signed}
    (h : Settled crypto config s) (hle : s.clock ≤ now) :
    ∀ a ∈ s.accepted, ∃ e, withNonce crypto config now s.cache request signed
        (cacheKeyOf crypto config a.request a.signed) = some e ∧
      ∃ moment, e.expires = some moment ∧ a.arrival + (config.maxAgeSeconds + 5) ≤ moment := by
  intro a ha
  rw [withNonce]
  by_cases hkey : cacheKeyOf crypto config a.request a.signed =
      cacheKeyOf crypto config request signed
  · rw [← hkey, Keys.setNX]
    split_ifs
    · exact h.kept a ha
    · have harrived := h.arrived a ha
      exact ⟨_, Keys.set_self .., _, rfl, by omega⟩
  · rw [Keys.setNX_of_ne _ _ hkey]
    exact h.kept a ha

theorem settled_step {s s' : State} {x : Nat × Request} (h : Settled crypto config s)
    (hC : NoneSlips crypto config s x) (hstep : (webhooks crypto config).step s x = some s') :
    Settled crypto config s' := by
  obtain ⟨now, request⟩ := x
  rw [webhooks] at hstep
  dsimp only at hstep
  split_ifs at hstep with hle
  obtain rfl := Option.some.inj hstep
  rcases validates_validate crypto config now s.cache request with
    hnone | ⟨signed, hmem, hfresh, hkey, hsome⟩
  · rw [hnone, Option.toList_none, List.map_nil, List.append_nil]
    exact ⟨h.signed, h.kept, fun a ha => Nat.le_trans (h.arrived a ha) hle, h.noReplay⟩
  · rw [hsome, Option.toList_some, List.map_singleton]
    refine ⟨?signed, ?kept, ?arrived, ?noReplay⟩
    case signed =>
      exact List.forall_mem_append.mpr ⟨h.signed, List.forall_mem_singleton.mpr hmem⟩
    case arrived =>
      exact List.forall_mem_append.mpr ⟨fun a ha => Nat.le_trans (h.arrived a ha) hle,
        List.forall_mem_singleton.mpr (Nat.le_refl _)⟩
    case kept =>
      exact List.forall_mem_append.mpr ⟨kept_withNonce h hle, List.forall_mem_singleton.mpr
        ⟨_, withNonce_self hkey, _, rfl, Nat.le_refl _⟩⟩
    case noReplay =>
      refine List.pairwise_append.mpr ⟨h.noReplay, List.pairwise_singleton _ _, ?_⟩
      intro a ha b hb
      obtain rfl := List.mem_singleton.mp hb
      exact not_repeated h hC hmem hfresh hkey a ha

/-- As long as every request that repeats what was accepted is caught, nothing is accepted
twice. -/
theorem noReplay_of_caught {s : State}
    (h : (webhooks crypto config).Reaches (NoneSlips crypto config) {} s) :
    NoReplay crypto config s :=
  (h.invariant settled_initial fun _ _ _ hs hC hstep => settled_step hs hC hstep).noReplay

/-- A provider with a shared secret, and none with a public key. -/
def logConfig : Config where
  webhookSecret provider := if provider = "log".toList then "s3cret".toList else []
  webhookPublicKey _ := []

/-- A request of its with a timestamp. -/
def logRequest (crypto : Crypto) (timestampRaw : Text) : Request where
  provider := "log".toList
  header name :=
    if name = "X-Seed-Signature".toList then
      crypto.hashHmac (timestampRaw ++ "\nn1\n[]".toList) "s3cret".toList
    else if name = "X-Seed-Timestamp".toList then timestampRaw
    else if name = "X-Seed-Nonce".toList then "n1".toList
    else []
  content := "[]".toList

/-- A toy, in place of the functions of the extensions. -/
def plainCrypto : Crypto where
  hashHmac data key := key ++ ":".toList ++ data
  sha256 data := data
  opensslVerify _ _ _ := false

/-- A request is accepted, and rejected when it comes again. -/
theorem noReplay_of_caught_log :
    ∃ s : State, NoReplay plainCrypto logConfig s ∧ s.accepted.length = 1 := by
  let s := (webhooks plainCrypto logConfig).final (NoneSlips plainCrypto logConfig) {}
    [(1000, logRequest plainCrypto "1000".toList), (1200, logRequest plainCrypto "1000".toList)]
  have hrun : (webhooks plainCrypto logConfig).Reaches (NoneSlips plainCrypto logConfig) {} s :=
    System.reaches_final (by decide)
  exact ⟨s, noReplay_of_caught hrun, by decide⟩

/-- Whatever the hash function is, a request with a timestamp that is 300 seconds in the future
is accepted twice, when it comes again 305 seconds later. -/
theorem replayed_always : ¬ ∃ crypto : Crypto,
    (∀ data key, crypto.hashHmac data key ≠ [] ∧
      Text.trim (crypto.hashHmac data key) = crypto.hashHmac data key) ∧
    ∀ (config : Config) (s : State), (webhooks crypto config).Reaches Always {} s →
      NoReplay crypto config s := by
  rintro ⟨crypto, hhex, hall⟩
  let request := logRequest crypto "1300".toList
  let signed : Signed := .sharedSecret "1300".toList "n1".toList "[]".toList
  obtain ⟨hne, htrim⟩ := hhex "1300\nn1\n[]".toList "s3cret".toList
  have hsignature : Config.read logConfig.signatureHeader request =
      crypto.hashHmac "1300\nn1\n[]".toList "s3cret".toList := htrim
  have hsecret : logConfig.webhookSecretForProvider (normalized request.provider) =
      "s3cret".toList :=
    show logConfig.webhookSecretForProvider (normalized "log".toList) = "s3cret".toList by decide
  have hprovider : normalized request.provider ≠ "sendgrid".toList :=
    show normalized "log".toList ≠ "sendgrid".toList by decide
  have htimestamp : Config.read logConfig.timestampHeader request = "1300".toList := rfl
  have hnonce : Config.read logConfig.nonceHeader request = "n1".toList := rfl
  have hsigned : sharedSecretSigned crypto logConfig request = some signed := by
    rw [sharedSecretSigned, hsecret, hsignature, htimestamp, hnonce]
    exact if_pos ⟨by decide, hne, by decide, by decide, rfl⟩
  let cache := withNonce crypto logConfig 1000 Keys.empty request signed
  have hfirst : (webhooks crypto logConfig).step {} (1000, request) =
      some ⟨cache, 1000, [⟨request, 1000, signed⟩]⟩ :=
    step_of_signed (Nat.zero_le _) hprovider hsigned (by decide) rfl
  -- the nonce has expired, and the timestamp is five seconds old
  have hgone : cache.get 1305 (cacheKeyOf crypto logConfig request signed) = none := by
    rw [Keys.get, show cache (cacheKeyOf crypto logConfig request signed) = _ from
      withNonce_self rfl]
    rfl
  have hsecond : (webhooks crypto logConfig).step ⟨cache, 1000, [⟨request, 1000, signed⟩]⟩
      (1305, request) =
      some ⟨withNonce crypto logConfig 1305 cache request signed, 1305,
        [⟨request, 1000, signed⟩, ⟨request, 1305, signed⟩]⟩ :=
    step_of_signed (show 1000 ≤ 1305 by decide) hprovider hsigned (by decide) hgone
  have hnone := hall logConfig _ (.tail (.tail .refl trivial hfirst) trivial hsecond)
  have hmem : signed ∈ signedContents crypto logConfig request :=
    List.mem_append_right _ (Option.mem_toList.mpr hsigned)
  exact List.rel_of_pairwise_cons hnone (List.mem_singleton_self _) signed hmem hmem

end

end ValidEmailVerifier.SeedSend.Webhooks
