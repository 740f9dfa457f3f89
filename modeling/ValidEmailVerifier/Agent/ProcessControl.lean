/-
# `Agent.ProcessControl` — the commands that the application sends to an agent

The application encodes a command, signs the digest of what it has encoded, and hands the
command itself to the HTTP client, which encodes it again.  The two encodings differ in one
thing: the client escapes the slashes of a text.  So the signature is that of the body
exactly if there is no slash in the action, the name of the service and the reason
(`accepted_iff`).

Texts are Unicode; the encoding of one is ASCII, a byte for every character.
-/
import Mathlib.Algebra.Ring.Nat
import ValidEmailVerifier.Agent.ControlAgent
import ValidEmailVerifier.Lib.Text

namespace ValidEmailVerifier.Agent

open Text

/-! ## `json_encode` -/

/-- `\uXXXX`. -/
def unicodeEscape (n : Nat) : Text :=
  '\\' :: 'u' :: [n / 4096, n / 256, n / 16, n].map fun d => hexDigit (Fin.ofNat 16 d)

/-- The escape of a character that is not a slash. -/
def escapeOther (c : Char) : Text :=
  if c = '"' then ['\\', '"']
  else if c = '\\' then ['\\', '\\']
  else if c.val = 0x08 then ['\\', 'b']
  else if c.val = 0x0C then ['\\', 'f']
  else if c = '\n' then ['\\', 'n']
  else if c = '\r' then ['\\', 'r']
  else if c = '\t' then ['\\', 't']
  else if c.val < 0x20 then unicodeEscape c.toNat
  else if c.val < 0x80 then [c]
  else if c.val < 0x10000 then unicodeEscape c.toNat
  else
    let n := c.toNat - 0x10000
    unicodeEscape (0xD800 + n / 0x400) ++ unicodeEscape (0xDC00 + n % 0x400)

def escapeChar (unescapedSlashes : Bool) (c : Char) : Text :=
  if c = '/' then if unescapedSlashes then ['/'] else ['\\', '/'] else escapeOther c

def jsonString (unescapedSlashes : Bool) (s : Text) : Text :=
  '"' :: (s.flatMap (escapeChar unescapedSlashes) ++ ['"'])

inductive PayloadValue where
  | text (s : Text)
  | int (n : Int)
  deriving DecidableEq

def PayloadValue.encode (unescapedSlashes : Bool) : PayloadValue → Text
  | .text s => jsonString unescapedSlashes s
  | .int n => (toString n).toList

def jsonField (unescapedSlashes : Bool) (field : Text × PayloadValue) : Text :=
  jsonString unescapedSlashes field.1 ++ ':' :: field.2.encode unescapedSlashes

def jsonFields (unescapedSlashes : Bool) : List (Text × PayloadValue) → Text
  | [] => []
  | [field] => jsonField unescapedSlashes field
  | field :: rest => jsonField unescapedSlashes field ++ ',' :: jsonFields unescapedSlashes rest

/-- `json_encode` of an array with keys, with `JSON_UNESCAPED_SLASHES` or without flags. -/
def jsonEncode (unescapedSlashes : Bool) (fields : List (Text × PayloadValue)) : Text :=
  '\x7b' :: (jsonFields unescapedSlashes fields ++ ['\x7d'])

/-- The bytes of an ASCII text. -/
def asBytes (s : Text) : List UInt8 := s.map fun c => c.toNat.toUInt8

/-! ### What the slashes change -/

def PayloadValue.slashes : PayloadValue → Nat
  | .text s => s.count '/'
  | .int _ => 0

def slashes (fields : List (Text × PayloadValue)) : Nat :=
  (fields.map fun field => field.1.count '/' + field.2.slashes).sum

/-- Every slash of a text takes a character more. -/
theorem length_jsonString (s : Text) :
    (jsonString false s).length = (jsonString true s).length + s.count '/' := by
  have hchars : (s.flatMap (escapeChar false)).length =
      (s.flatMap (escapeChar true)).length + s.count '/' := by
    induction s with
    | nil => rfl
    | cons c rest ih =>
      rw [List.flatMap_cons, List.flatMap_cons, List.length_append, List.length_append,
        List.count_cons, ih]
      by_cases hslash : c = '/'
      · subst hslash
        show 2 + _ = 1 + _ + (_ + 1)
        omega
      · have hother : ∀ flag, escapeChar flag c = escapeOther c := fun flag => if_neg hslash
        rw [hother, hother, if_neg (by simpa using hslash)]
        omega
  simp only [jsonString, List.length_cons, List.length_append, hchars]
  omega

theorem jsonString_eq {s : Text} (h : s.count '/' = 0) :
    jsonString false s = jsonString true s := by
  rw [jsonString, jsonString]
  refine congrArg (fun chars => '"' :: (chars ++ ['"'])) (List.flatMap_congr fun c hc => ?_)
  have hother : c ≠ '/' := fun hslash => List.count_eq_zero.mp h (hslash ▸ hc)
  rw [escapeChar, escapeChar, if_neg hother, if_neg hother]

theorem PayloadValue.length_encode (value : PayloadValue) :
    (value.encode false).length = (value.encode true).length + value.slashes := by
  cases value with
  | text s => exact length_jsonString s
  | int n => rfl

theorem PayloadValue.encode_eq {value : PayloadValue} (h : value.slashes = 0) :
    value.encode false = value.encode true := by
  cases value with
  | text s => exact jsonString_eq h
  | int n => rfl

theorem length_jsonField (field : Text × PayloadValue) : (jsonField false field).length =
    (jsonField true field).length + (field.1.count '/' + field.2.slashes) := by
  simp only [jsonField, List.length_append, List.length_cons, length_jsonString,
    PayloadValue.length_encode]
  omega

theorem jsonField_eq {field : Text × PayloadValue}
    (h : field.1.count '/' + field.2.slashes = 0) :
    jsonField false field = jsonField true field := by
  rw [jsonField, jsonField, jsonString_eq (by omega), PayloadValue.encode_eq (by omega)]

theorem jsonFields_cons (unescapedSlashes : Bool) (field next : Text × PayloadValue)
    (rest : List (Text × PayloadValue)) :
    jsonFields unescapedSlashes (field :: next :: rest) =
      jsonField unescapedSlashes field ++ ',' :: jsonFields unescapedSlashes (next :: rest) := rfl

theorem length_jsonFields (fields : List (Text × PayloadValue)) :
    (jsonFields false fields).length = (jsonFields true fields).length + slashes fields := by
  induction fields with
  | nil => rfl
  | cons field rest ih =>
    cases rest with
    | nil => exact length_jsonField field
    | cons next rest =>
      have hsum : slashes (field :: next :: rest) =
          field.1.count '/' + field.2.slashes + slashes (next :: rest) := rfl
      rw [jsonFields_cons, jsonFields_cons, List.length_append, List.length_append,
        List.length_cons, List.length_cons, length_jsonField, ih, hsum]
      omega

theorem jsonFields_eq {fields : List (Text × PayloadValue)} (h : slashes fields = 0) :
    jsonFields false fields = jsonFields true fields := by
  induction fields with
  | nil => rfl
  | cons field rest ih =>
    have hsum : slashes (field :: rest) =
        field.1.count '/' + field.2.slashes + slashes rest := rfl
    have hfield : jsonField false field = jsonField true field := jsonField_eq (by omega)
    cases rest with
    | nil => exact hfield
    | cons next rest => rw [jsonFields_cons, jsonFields_cons, hfield, ih (by omega)]

/-- **The two encodings of an array are the same exactly if there is no slash in it**; as many
bytes are the same. -/
theorem asBytes_jsonEncode_eq_iff {fields : List (Text × PayloadValue)} :
    asBytes (jsonEncode false fields) = asBytes (jsonEncode true fields) ↔ slashes fields = 0 := by
  constructor
  · intro heq
    have hlength := congrArg List.length heq
    simp only [asBytes, jsonEncode, List.length_map, List.length_cons, List.length_append,
      length_jsonFields] at hlength
    omega
  · intro hnone
    rw [jsonEncode, jsonEncode, jsonFields_eq hnone]

/-! ## A command -/

/-- Lower-case hexadecimal digits, in groups. -/
structure Uuid where
  digits : Fin 32 → Fin 16

def Uuid.text (u : Uuid) : Text :=
  let digits := (List.ofFn u.digits).map hexDigit
  digits.take 8 ++ '-' :: (digits.drop 8).take 4 ++ '-' :: (digits.drop 12).take 4 ++
    '-' :: (digits.drop 16).take 4 ++ '-' :: digits.drop 20

structure EngineServer where
  processControlMode : Text := "agent_systemd".toList
  agentEnabled : Bool := true
  agentBaseUrl : Option Text
  agentServiceName : Text := []
  agentTimeoutSeconds : Int := 0

structure EngineServerCommand where
  id : Uuid
  action : Text
  reason : Option Text

/-- `engine_servers.process_control`. -/
structure ProcessControlConfig where
  agentToken : Text
  agentHmacSecret : Text
  defaultTimeoutSeconds : Int := 8

def EngineServer.supportsAgentProcessControl (server : EngineServer) : Bool :=
  server.processControlMode = "agent_systemd".toList ∧ server.agentEnabled

def normalizeNullable (value : Option Text) : Option Text :=
  let trimmed := trim (value.getD [])
  if trimmed ≠ [] then some trimmed else none

def EngineServer.serviceName (server : EngineServer) : Text :=
  if trim server.agentServiceName = [] then "vev-worker.service".toList
  else trim server.agentServiceName

def timeoutSeconds (config : ProcessControlConfig) (server : EngineServer) : Int :=
  let defaultTimeout := max 2 config.defaultTimeoutSeconds
  let timeout := if 0 < server.agentTimeoutSeconds then server.agentTimeoutSeconds
    else defaultTimeout
  max 2 (min 30 timeout)

def commandPayload (config : ProcessControlConfig) (server : EngineServer)
    (command : EngineServerCommand) : List (Text × PayloadValue) :=
  [("command_id".toList, .text command.id.text),
    ("action".toList, .text command.action),
    ("service".toList, .text server.serviceName),
    ("timeout_seconds".toList, .int (timeoutSeconds config server))] ++
  match command.reason with
  | none => []
  | some reason => [("reason".toList, .text reason)]

/-- What is sent, beside what was signed.  The base URL is that of the agent itself. -/
structure SentCommand where
  request : AgentRequest
  encodedPayload : Text

/-- `execute` up to the answer: the message of a command that is not sent, or the request. -/
def execute (hashes : Hashes) (config : ProcessControlConfig) (server : EngineServer)
    (command : EngineServerCommand) (timestamp : Nat) (nonce : Uuid) : Except Text SentCommand :=
  if server.supportsAgentProcessControl = false then
    .error "Agent process control is disabled for this server.".toList
  else if normalizeNullable server.agentBaseUrl = none then
    .error "Agent base URL is not configured.".toList
  else
    let agentToken := trim config.agentToken
    let agentHmacSecret := trim config.agentHmacSecret
    if agentToken = [] ∨ agentHmacSecret = [] then
      .error "Agent credentials are not configured.".toList
    else
      let payload := commandPayload config server command
      let encodedPayload := jsonEncode true payload
      let signature := hexdigest (hashes.hmac agentHmacSecret (joinLines
        ["POST".toList, "/v1/commands".toList, (toString timestamp).toList, nonce.text,
          hexdigest (hashes.sha256 (asBytes encodedPayload))]))
      .ok
        { request :=
            { authorization := "Bearer ".toList ++ agentToken
              timestamp := (toString timestamp).toList
              nonce := nonce.text
              signature := signature
              raw := asBytes (jsonEncode false payload) }
          encodedPayload := encodedPayload }

/-- The check of the agent on what it has received. -/
def checksSignature (config : AgentConfig) (request : AgentRequest) : Bool :=
  (int (strip request.timestamp)).any fun timestamp =>
    expectedSignature config timestamp (strip request.nonce) request.raw = strip request.signature

/-! ## The headers, read back -/

theorem strip_eq_self {s : Text} (h : ∀ c ∈ s, isSpace c = false) : strip s = s := by
  refine trimBy_eq_self_iff.mpr ⟨fun c hc => h c ?_, fun c hc => h c ?_⟩
  · exact List.mem_of_mem_head? hc
  · exact List.mem_of_mem_getLast? hc

theorem hexDigit_plain (d : Fin 16) : isSpace (hexDigit d) = false ∧ hexDigit d ≠ '/' := by
  revert d
  decide

theorem strip_hexdigest (digest : Digest) : strip (hexdigest digest) = hexdigest digest := by
  refine strip_eq_self fun c hc => ?_
  obtain ⟨d, -, rfl⟩ := List.mem_map.mp hc
  exact (hexDigit_plain d).1

theorem Uuid.mem_text {u : Uuid} {c : Char} (h : c ∈ u.text) : c = '-' ∨ ∃ d, hexDigit d = c := by
  have hdigit : ∀ {part : Text}, part ⊆ (List.ofFn u.digits).map hexDigit → c ∈ part →
      ∃ d, hexDigit d = c := by
    intro part hsub hpart
    obtain ⟨d, -, hd⟩ := List.mem_map.mp (hsub hpart)
    exact ⟨d, hd⟩
  have hgroup : ∀ {n m : Nat},
      (((List.ofFn u.digits).map hexDigit).drop n).take m ⊆ (List.ofFn u.digits).map hexDigit :=
    fun {_ _} => List.Subset.trans (List.take_subset ..) (List.drop_subset ..)
  simp only [Uuid.text, List.mem_append, List.mem_cons] at h
  rcases h with (((h | h | h) | h | h) | h | h) | h | h
  · exact .inr (hdigit (List.take_subset ..) h)
  · exact .inl h
  · exact .inr (hdigit hgroup h)
  · exact .inl h
  · exact .inr (hdigit hgroup h)
  · exact .inl h
  · exact .inr (hdigit hgroup h)
  · exact .inl h
  · exact .inr (hdigit (List.drop_subset ..) h)

theorem Uuid.strip_text (u : Uuid) : strip u.text = u.text := by
  refine strip_eq_self fun c hc => ?_
  rcases Uuid.mem_text hc with rfl | ⟨d, rfl⟩
  · rfl
  · exact (hexDigit_plain d).1

theorem Uuid.count_text (u : Uuid) : u.text.count '/' = 0 := by
  refine List.count_eq_zero.mpr fun hc => ?_
  rcases Uuid.mem_text hc with h | ⟨d, hd⟩
  · exact nomatch h
  · exact (hexDigit_plain d).2 hd

theorem readDigits_eq {ds : Text} (hdigits : ∀ c ∈ ds, c.isDigit = true) (value : Nat) :
    readDigits value ds = some (Nat.ofDigitChars 10 ds value) := by
  induction ds generalizing value with
  | nil => rw [readDigits, Nat.ofDigitChars_nil]
  | cons c rest ih =>
    have hc : c.isDigit = true := hdigits c List.mem_cons_self
    have hplain : c ≠ '_' := fun h => absurd (h ▸ hc) (by decide)
    rw [readDigits.eq_3 value c rest fun _ _ h _ => hplain h, if_pos hc,
      ih fun d hd => hdigits d (List.mem_cons_of_mem _ hd), Nat.ofDigitChars_cons]
    rfl

/-- A digit is one of ten characters. -/
theorem isDigit_cases {c : Char} (h : c.isDigit = true) :
    ∃ d : Fin 10, c = Char.ofNat (48 + d) := by
  rw [Char.isDigit, Bool.and_eq_true, decide_eq_true_eq, decide_eq_true_eq] at h
  have hlow : 48 ≤ c.toNat := h.1
  have hhigh : c.toNat ≤ 57 := h.2
  refine ⟨⟨c.toNat - 48, by omega⟩, ?_⟩
  rw [show 48 + (c.toNat - 48) = c.toNat by omega, Char.ofNat_toNat]

theorem isSpace_of_isDigit {c : Char} (h : c.isDigit = true) :
    isSpace c = false ∧ c ≠ '-' ∧ c ≠ '+' := by
  obtain ⟨d, rfl⟩ := isDigit_cases h
  revert d
  decide

/-- The decimal digits of a number are read as that number. -/
theorem int_toString (n : Nat) :
    strip (toString n).toList = (toString n).toList ∧ int (toString n).toList = some (n : Int) := by
  have hdigits : ∀ c ∈ (toString n).toList, c.isDigit = true := fun c hc =>
    Nat.isDigit_of_mem_toDigits (by decide) (by decide) (Nat.toList_repr ▸ hc)
  have hstrip : strip (toString n).toList = (toString n).toList :=
    strip_eq_self fun c hc => (isSpace_of_isDigit (hdigits c hc)).1
  have hvalue : Nat.ofDigitChars 10 (toString n).toList 0 = n := by
    rw [show (toString n).toList = Nat.toDigits 10 n from Nat.toList_repr]
    exact Nat.ofDigitChars_toDigits (by decide) (by decide)
  have hne : (toString n).toList ≠ [] := fun hnil =>
    List.ne_nil_of_length_pos Nat.length_toDigits_pos (Nat.toList_repr.symm.trans hnil)
  refine ⟨hstrip, ?_⟩
  rw [int, hstrip]
  cases hchars : (toString n).toList with
  | nil => exact absurd hchars hne
  | cons c rest =>
    rw [hchars] at hdigits hvalue
    have hc : c.isDigit = true := hdigits c List.mem_cons_self
    have hread : readNat (c :: rest) = some n := by
      rw [readNat, if_pos hc, readDigits_eq fun d hd => hdigits d (List.mem_cons_of_mem _ hd)]
      rw [Nat.ofDigitChars_cons, Nat.mul_zero, Nat.zero_add] at hvalue
      exact congrArg some hvalue
    split
    · next heq => exact absurd (List.cons.inj heq).1 (isSpace_of_isDigit hc).2.1
    · next heq => exact absurd (List.cons.inj heq).1 (isSpace_of_isDigit hc).2.2
    · rw [hread]
      rfl

/-! ## Signed and received -/

theorem slashes_commandPayload (config : ProcessControlConfig) {server : EngineServer}
    {command : EngineServerCommand} : slashes (commandPayload config server command) = 0 ↔
      '/' ∉ command.action ∧ '/' ∉ server.serviceName ∧
        ∀ reason ∈ command.reason, '/' ∉ reason := by
  have hkeys : ∀ key ∈ ["command_id".toList, "action".toList, "service".toList,
      "timeout_seconds".toList, "reason".toList], key.count '/' = 0 := by decide
  simp only [List.forall_mem_cons] at hkeys
  obtain ⟨hid, haction, hservice, htimeout, hreason, -⟩ := hkeys
  have huuid := command.id.count_text
  rw [← List.count_eq_zero, ← List.count_eq_zero]
  cases h : command.reason with
  | none =>
    simp only [commandPayload, h, slashes, PayloadValue.slashes, List.append_nil, List.map_cons,
      List.map_nil, List.sum_cons, List.sum_nil]
    refine ⟨fun hsum => ⟨by omega, by omega, nofun⟩, fun ⟨_, _, _⟩ => by omega⟩
  | some reason =>
    simp only [commandPayload, h, slashes, PayloadValue.slashes, List.cons_append, List.nil_append,
      List.map_cons, List.map_nil, List.sum_cons, List.sum_nil]
    constructor
    · intro hsum
      refine ⟨by omega, by omega, fun r hr => ?_⟩
      obtain rfl := Option.some.inj hr
      exact List.count_eq_zero.mp (by omega)
    · rintro ⟨_, _, hplain⟩
      have := List.count_eq_zero.mpr (hplain reason rfl)
      omega

/-- A command that is sent, and its parts. -/
structure Sends (hashes : Hashes) (config : ProcessControlConfig) (server : EngineServer)
    (command : EngineServerCommand) (now : Nat) (uuid : Uuid) (sent : SentCommand) : Prop where
  timestamp : sent.request.timestamp = (toString now).toList
  nonce : sent.request.nonce = uuid.text
  encodedPayload : sent.encodedPayload = jsonEncode true (commandPayload config server command)
  raw : sent.request.raw = asBytes (jsonEncode false (commandPayload config server command))
  signature : sent.request.signature = hexdigest (hashes.hmac (trim config.agentHmacSecret)
    (canonical hashes now uuid.text (asBytes sent.encodedPayload)))

variable {hashes : Hashes} {config : ProcessControlConfig} {server : EngineServer}
  {command : EngineServerCommand} {now : Nat} {uuid : Uuid} {sent : SentCommand}

theorem sends_of_execute (h : execute hashes config server command now uuid = .ok sent) :
    Sends hashes config server command now uuid sent := by
  rw [execute] at h
  dsimp only at h
  split_ifs at h with hsupports hurl hcredentials
  obtain rfl := Except.ok.inj h
  exact ⟨rfl, rfl, rfl, rfl, rfl⟩

/-- **The bytes that are sent are those that were signed, and the agent accepts the signature,
exactly if there is no slash in the action, the name of the service and the reason.** -/
theorem accepted_iff (hsent : execute hashes config server command now uuid = .ok sent)
    (token : Text) (ttlSeconds : Int) :
    (sent.request.raw = asBytes sent.encodedPayload ∧
      checksSignature ⟨token, trim config.agentHmacSecret, ttlSeconds, hashes⟩ sent.request =
        true) ↔
      '/' ∉ command.action ∧ '/' ∉ server.serviceName ∧
        ∀ reason ∈ command.reason, '/' ∉ reason := by
  have hsends := sends_of_execute hsent
  rw [← slashes_commandPayload config, ← asBytes_jsonEncode_eq_iff, ← hsends.raw,
    ← hsends.encodedPayload]
  refine ⟨And.left, fun hsame => ⟨hsame, ?_⟩⟩
  have hsignature : strip sent.request.signature = sent.request.signature := by
    rw [hsends.signature]
    exact strip_hexdigest _
  rw [checksSignature, hsends.timestamp, (int_toString now).1, (int_toString now).2,
    hsends.nonce, uuid.strip_text, hsignature, hsends.signature, hsame, Option.any_some,
    decide_eq_true_eq]
  rfl

def restartCommand (reason : String) : EngineServerCommand :=
  ⟨⟨fun _ => 0⟩, "restart".toList, some reason.toList⟩

def localServer : EngineServer := { agentBaseUrl := some "http://127.0.0.1".toList }

/-- The values of the hash functions for a restart because of `cpu`. -/
def cpuHashes : Hashes where
  sha256 _ := digestOf "efd4908e504fbdaade33b2d01bf716fcd4ef6678b3e1c4cc6ee95e3d48466969"
  hmac _ _ := digestOf "8792c1a5e5deb9a69e521e7c937d0258f149fbae6b7757f1ae6f5c409b6a04ee"

/-- A restart because of `cpu` is accepted. -/
theorem accepted_iff_cpu :
    ∃ sent, execute cpuHashes ⟨"t".toList, "s".toList, 8⟩ localServer (restartCommand "cpu") 1000
        ⟨fun _ => 0⟩ = .ok sent ∧
      sent.request.raw = asBytes sent.encodedPayload ∧
      checksSignature ⟨"t".toList, "s".toList, 60, cpuHashes⟩ sent.request = true := by
  have hsent : execute cpuHashes ⟨"t".toList, "s".toList, 8⟩ localServer (restartCommand "cpu")
      1000 ⟨fun _ => 0⟩ = .ok _ := rfl
  exact ⟨_, hsent, (accepted_iff hsent "t".toList 60).mpr (by decide)⟩

/-- The two bodies for a restart because of `disk/cpu`, and the values for either. -/
def diskHashes : Hashes where
  sha256 raw :=
    if '\\'.toNat.toUInt8 ∈ raw then
      digestOf "edd7b73e00f7a528f57aa42177f1288bb5ed18b4effb2290d9da25686f2c99a7"
    else digestOf "4e5c5534dc06cf20826a7b95d62623f1ff6a7089ae6d940d08cf5b9c474886f7"
  hmac _ text :=
    if "edd7b73e00f7a528f57aa42177f1288bb5ed18b4effb2290d9da25686f2c99a7".toList <:+ text then
      digestOf "d7e67b32cf7a521248ec6917e4fc6932b45ca3f449d30684b3d66e539309c490"
    else digestOf "7746284815551f03a32aa81c59851e8cf2e28bd17e68e48398d65e162113110c"

/-- A restart because of `disk/cpu` is not what was signed, and is turned away. -/
theorem slash_rejected :
    ∃ sent, execute diskHashes ⟨"t".toList, "s".toList, 8⟩ localServer (restartCommand "disk/cpu")
        1000 ⟨fun _ => 0⟩ = .ok sent ∧
      sent.request.raw ≠ asBytes sent.encodedPayload ∧
      checksSignature ⟨"t".toList, "s".toList, 60, diskHashes⟩ sent.request = false := by
  refine ⟨_, rfl, ?_, ?_⟩
  · decide +kernel
  · decide +kernel

end ValidEmailVerifier.Agent
