/-
# `Engine.WorkerRuns` — the loop of a worker, and the chunks it has under way

`Run` sends heartbeats, refreshes the policy, and claims chunks as long as it may; every chunk it
claims is processed on the side by `processChunk`, a program over the calls to the API and the
storage.  The chunks go on while the loop does, one call at a time and in any order.

`Reported` is what holds of the calls of every chunk, whatever is answered: a chunk is completed
once its three files have been uploaded, with the counts of these files, and it is given up at
most once and never after it has been completed (`calls_lawful`); so no address of its input is
lost (`completed_conserves`).  The chunks under way are never more
than the limit allows, though it is read before a claim and they come and go
(`running_le`); and none is started while the worker is to pause, to drain or to stop
(`drains_while_held`).
-/
import ValidEmailVerifier.Fleet.WorkerStore
import ValidEmailVerifier.Lib.Programs
import ValidEmailVerifier.Pipeline.RowConservation
import ValidEmailVerifier.Policy.Telemetry

namespace ValidEmailVerifier.WorkerRuns

open GoStrings Programs Programs.Prog Transition Worker
open Fleet (WorkerState)
open Policy (ProbeSettings isSmtpProbe engineVerifier)
open WorkerLoop (Reader ChunkOutputs Conserved addressLines buildOutputs conserved_buildOutputs)

/-! ## `processChunk` -/

/-- The chunk of an answer to claim-next. -/
structure Claim where
  jobId : Text
  chunkId : Text
  processingStage : Text
  routingProvider : Text
  deriving DecidableEq, Repr

structure Target where
  key : Text
  url : Text
  deriving DecidableEq, Repr

/-- `completePayload`. -/
structure CompletePayload where
  outputDisk : Text
  keys : PerType Text
  emailCount : Nat
  counts : PerType Nat
  deriving DecidableEq, Repr

/-- A request for a chunk, to the API or to a signed address. -/
inductive Call where
  | logChunk (event : Text)
  | chunkDetails
  | inputUrl
  | download (url : Text)
  | outputUrls
  | upload (url : Text) (file : File)
  | completeChunk (payload : CompletePayload)
  | failChunk (message : Text) (retryable : Bool)
  deriving DecidableEq, Repr

/-- What a call returns; of most only whether there was an error. -/
abbrev Call.Reply : Call → Type
  | .inputUrl => Option Text
  | .download _ => Option Reader
  | .outputUrls => Option (Text × PerType Target)
  | .logChunk _ => Bool
  | .chunkDetails => Bool
  | .upload _ _ => Bool
  | .completeChunk _ => Bool
  | .failChunk _ _ => Bool

inductive Outcome where
  | completed | failed
  deriving DecidableEq, Repr

abbrev ChunkProgram := Prog Call Call.Reply Outcome

def send (call : Call) : Prog Call Call.Reply call.Reply := command call

def failChunk (message : Text) (retryable : Bool) : ChunkProgram := do
  let _ ← send (.logChunk "chunk_error".toList)
  let _ ← send (.failChunk message retryable)
  pure .failed

/-- The verifier of a chunk. -/
def verifierOf (s : ProbeSettings) (claim : Claim) (_ : Nat) : Text → VerifierResult :=
  engineVerifier s ⟨claim.processingStage, claim.routingProvider, []⟩

/-- The outputs for what a reader returns, unless reading it ends in an error. -/
def outputs (s : ProbeSettings) (claim : Claim) (reader : Reader) : Option ChunkOutputs :=
  buildOutputs (verifierOf s claim) s.probeAttemptChainEnabled s.unknownReasonTaxonomyEnabled
    reader

/-- What is logged of a probe chunk that is not probed. -/
def skipEvent (s : ProbeSettings) (claim : Claim) : Option Text :=
  if isSmtpProbe claim.processingStage then
    (s.skipReason claim.routingProvider).map fun reason =>
      if reason = "smtp_probe_quarantine_mode".toList then "smtp_probe_quarantined".toList
      else if reason = "smtp_probe_degraded_mode".toList then "smtp_probe_degraded_skip".toList
      else reason
  else none

def logSkip (s : ProbeSettings) (claim : Claim) : Prog Call Call.Reply Unit :=
  match skipEvent s claim with
  | some event => do
      let _ ← send (.logChunk event)
      pure ()
  | none => pure ()

def completePayload (disk : Text) (targets : PerType Target) (outputs : ChunkOutputs) :
    CompletePayload where
  outputDisk := disk
  keys := targets.map (·.key)
  emailCount := outputs.emailCount
  counts := outputs.counts

/-- `processChunk`, from the outputs on. -/
def deliver (outputs : ChunkOutputs) : ChunkProgram := do
  match ← send .outputUrls with
  | none => failChunk "failed to fetch output urls".toList true
  | some (disk, targets) =>
      if !(← send (.upload targets.valid.url outputs.rows.valid)) then
        failChunk "failed to upload valid output".toList true
      else if !(← send (.upload targets.invalid.url outputs.rows.invalid)) then
        failChunk "failed to upload invalid output".toList true
      else if !(← send (.upload targets.risky.url outputs.rows.risky)) then
        failChunk "failed to upload risky output".toList true
      else if !(← send (.completeChunk (completePayload disk targets outputs))) then
        failChunk "failed to complete chunk".toList true
      else
        let _ ← send (.logChunk "chunk_completed".toList)
        pure .completed

def processChunk (s : ProbeSettings) (claim : Claim) : ChunkProgram := do
  let _ ← send (.logChunk "chunk_claimed".toList)
  if !s.canProcessStage (isSmtpProbe claim.processingStage) then
    failChunk "worker capability does not match chunk stage".toList true
  else if !(← send .chunkDetails) then failChunk "failed to load chunk details".toList true
  else
    match ← send .inputUrl with
    | none => failChunk "failed to fetch input url".toList true
    | some url =>
        match ← send (.download url) with
        | none => failChunk "failed to download input".toList true
        | some reader => do
            logSkip s claim
            match outputs s claim reader with
            | none => failChunk "failed to parse input".toList false
            | some outputs => deliver outputs

/-! ## What is sent for a chunk -/

/-- A call, with what it returned. -/
structure Sent where
  call : Call
  reply : call.Reply

abbrev History := List Sent

/-- A file of a chunk has been taken from this process. -/
def Uploaded (h : History) (target : Target) (file : File) : Prop :=
  ⟨.upload target.url file, true⟩ ∈ h

/-- The payload is that of the outputs for an input that has been read, which have been
uploaded. -/
def Backed (k : Claim × ProbeSettings) (h : History) (payload : CompletePayload) : Prop :=
  ∃ url reader output disk targets, ⟨.download url, some reader⟩ ∈ h ∧
    outputs k.2 k.1 reader = some output ∧ ⟨.outputUrls, some (disk, targets)⟩ ∈ h ∧
    (∀ t, Uploaded h (targets.get t) (output.rows.get t)) ∧
    payload = completePayload disk targets output

/-- The chunk is completed by the call, as far as the worker is told. -/
def Sent.completes : Sent → Bool
  | ⟨.completeChunk _, taken⟩ => taken
  | _ => false

/-- The chunk is given up. -/
def Sent.givesUp : Sent → Bool
  | ⟨.failChunk _ _, _⟩ => true
  | _ => false

def Completed (h : History) : Prop := ∃ sent ∈ h, sent.completes = true

def GivenUp (h : History) : Prop := ∃ sent ∈ h, sent.givesUp = true

/-- The chunk has been reported neither way. -/
def Unreported (h : History) : Prop := ¬Completed h ∧ ¬GivenUp h

/-- What may be sent after `h`. -/
def Allowed (k : Claim × ProbeSettings) (h : History) : Call → Prop
  | .completeChunk payload => Backed k h payload ∧ Unreported h
  | .failChunk _ _ => Unreported h
  | _ => True

def recorded (h : History) (call : Call) (reply : call.Reply) : History := h ++ [⟨call, reply⟩]

/-- How a chunk ends. -/
def Ended (outcome : Outcome) (h : History) : Prop :=
  match outcome with
  | .completed => Completed h ∧ ¬GivenUp h
  | .failed => GivenUp h ∧ ¬Completed h

section Sending
variable {k : Claim × ProbeSettings} {h : History} {call : Call} {reply : call.Reply}
  {url : Text} {reader : Reader} {output : ChunkOutputs}

theorem mem_recorded {sent : Sent} :
    sent ∈ recorded h call reply ↔ sent ∈ h ∨ sent = ⟨call, reply⟩ := by
  rw [recorded, List.mem_append, List.mem_singleton]

theorem eq_of_completes {sent : Sent} (hsent : sent.completes = true) :
    ∃ payload, sent = ⟨.completeChunk payload, true⟩ := by
  obtain ⟨call, reply⟩ := sent
  cases call with
  | completeChunk payload =>
    obtain rfl : reply = true := hsent
    exact ⟨payload, rfl⟩
  | _ => exact absurd hsent Bool.false_ne_true

theorem completed_recorded : Completed (recorded h call reply) ↔
    Completed h ∨ Sent.completes ⟨call, reply⟩ = true := by
  constructor
  · rintro ⟨sent, hsent, hcompletes⟩
    rcases mem_recorded.mp hsent with hold | rfl
    · exact .inl ⟨sent, hold, hcompletes⟩
    · exact .inr hcompletes
  · rintro (⟨sent, hsent, hcompletes⟩ | hnew)
    · exact ⟨sent, mem_recorded.mpr (.inl hsent), hcompletes⟩
    · exact ⟨_, mem_recorded.mpr (.inr rfl), hnew⟩

theorem givenUp_recorded : GivenUp (recorded h call reply) ↔
    GivenUp h ∨ Sent.givesUp ⟨call, reply⟩ = true := by
  constructor
  · rintro ⟨sent, hsent, hgives⟩
    rcases mem_recorded.mp hsent with hold | rfl
    · exact .inl ⟨sent, hold, hgives⟩
    · exact .inr hgives
  · rintro (⟨sent, hsent, hgives⟩ | hnew)
    · exact ⟨sent, mem_recorded.mpr (.inl hsent), hgives⟩
    · exact ⟨_, mem_recorded.mpr (.inr rfl), hnew⟩

/-- A call that reports nothing leaves the chunk unreported. -/
theorem Unreported.recorded (hnone : Unreported h) (call : Call) (reply : call.Reply)
    (hcompletes : Sent.completes ⟨call, reply⟩ = false)
    (hgives : Sent.givesUp ⟨call, reply⟩ = false) : Unreported (recorded h call reply) := by
  constructor
  · rw [completed_recorded, hcompletes]
    rintro (hold | hnew)
    · exact hnone.1 hold
    · exact Bool.false_ne_true hnew
  · rw [givenUp_recorded, hgives]
    rintro (hold | hnew)
    · exact hnone.2 hold
    · exact Bool.false_ne_true hnew

theorem Uploaded.recorded {target : Target} {file : File} (hup : Uploaded h target file) :
    Uploaded (recorded h call reply) target file := mem_recorded.mpr (.inl hup)

/-- A chunk that has not been reported is given up once. -/
theorem follows_failChunk {message : Text} {retryable : Bool} (hnone : Unreported h) :
    Follows (Allowed k) recorded (failChunk message retryable) Ended h := by
  refine ⟨trivial, fun logged => ?_⟩
  have hlogged := hnone.recorded (.logChunk "chunk_error".toList) logged rfl rfl
  refine ⟨hlogged, fun reply => ⟨givenUp_recorded.mpr (.inr rfl), ?_⟩⟩
  rw [completed_recorded]
  rintro (hold | hnew)
  · exact hlogged.1 hold
  · exact Bool.false_ne_true hnew

/-- The three files are uploaded, and then the chunk is completed with their counts. -/
theorem follows_deliver (hnone : Unreported h) (hread : ⟨.download url, some reader⟩ ∈ h)
    (houtput : outputs k.2 k.1 reader = some output) :
    Follows (Allowed k) recorded (deliver output) Ended h := by
  refine ⟨trivial, fun given => ?_⟩
  have hgiven := hnone.recorded .outputUrls given rfl rfl
  cases given with
  | none => exact follows_failChunk hgiven
  | some signed =>
    obtain ⟨disk, targets⟩ := signed
    refine ⟨trivial, fun valid => ?_⟩
    have hvalid := hgiven.recorded (.upload targets.valid.url _) valid rfl rfl
    cases valid with
    | false => exact follows_failChunk hvalid
    | true =>
      refine ⟨trivial, fun invalid => ?_⟩
      have hinvalid := hvalid.recorded (.upload targets.invalid.url _) invalid rfl rfl
      cases invalid with
      | false => exact follows_failChunk hinvalid
      | true =>
        refine ⟨trivial, fun risky => ?_⟩
        have hrisky := hinvalid.recorded (.upload targets.risky.url _) risky rfl rfl
        cases risky with
        | false => exact follows_failChunk hrisky
        | true =>
          refine ⟨⟨?_, hrisky⟩, fun taken => ?_⟩
          · have hurls : ⟨.outputUrls, some (disk, targets)⟩ ∈
                recorded h .outputUrls (some (disk, targets)) := mem_recorded.mpr (.inr rfl)
            refine ⟨url, reader, output, disk, targets, ?_, houtput, ?_, fun t => ?_, rfl⟩
            · exact List.mem_append_left _ (List.mem_append_left _ (List.mem_append_left _
                (List.mem_append_left _ hread)))
            · exact List.mem_append_left _ (List.mem_append_left _ (List.mem_append_left _ hurls))
            · cases t with
              | valid => exact Uploaded.recorded (Uploaded.recorded (mem_recorded.mpr (.inr rfl)))
              | invalid => exact Uploaded.recorded (mem_recorded.mpr (.inr rfl))
              | risky => exact mem_recorded.mpr (.inr rfl)
          · cases taken with
            | false => exact follows_failChunk (hrisky.recorded (.completeChunk _) false rfl rfl)
            | true =>
              refine ⟨trivial, fun logged => ⟨?_, ?_⟩⟩
              · exact completed_recorded.mpr (.inl (completed_recorded.mpr (.inr rfl)))
              · rw [givenUp_recorded, givenUp_recorded]
                rintro ((hold | hnew) | hnew)
                · exact hrisky.2 hold
                · exact Bool.false_ne_true hnew
                · exact Bool.false_ne_true hnew

/-- What is logged of a chunk that is not probed reports nothing. -/
theorem follows_logSkip {α : Type} {p : Prog Call Call.Reply α} {Q : α → History → Prop}
    {s : ProbeSettings} {claim : Claim} (hnone : Unreported h)
    (hp : ∀ g, Unreported g → h ⊆ g → Follows (Allowed k) recorded p Q g) :
    Follows (Allowed k) recorded (logSkip s claim >>= fun _ => p) Q h := by
  rw [logSkip]
  split
  · refine ⟨trivial, fun logged => ?_⟩
    refine hp _ (hnone.recorded (.logChunk _) logged rfl rfl) ?_
    exact fun sent hsent => mem_recorded.mpr (.inl hsent)
  · exact hp h hnone (List.Subset.refl h)

/-- **The calls for a chunk, whatever they return.** -/
theorem follows_processChunk (k : Claim × ProbeSettings) :
    Follows (Allowed k) recorded (processChunk k.2 k.1) Ended [] := by
  have hnil : Unreported [] := ⟨fun ⟨_, hsent, _⟩ => absurd hsent List.not_mem_nil,
    fun ⟨_, hsent, _⟩ => absurd hsent List.not_mem_nil⟩
  rw [processChunk]
  refine ⟨trivial, fun logged => ?_⟩
  have hlogged := hnil.recorded (.logChunk "chunk_claimed".toList) logged rfl rfl
  split
  · exact follows_failChunk hlogged
  · refine ⟨trivial, fun details => ?_⟩
    have hdetails := hlogged.recorded .chunkDetails details rfl rfl
    cases details with
    | false => exact follows_failChunk hdetails
    | true =>
      refine ⟨trivial, fun given => ?_⟩
      have hgiven := hdetails.recorded .inputUrl given rfl rfl
      cases given with
      | none => exact follows_failChunk hgiven
      | some url =>
        refine ⟨trivial, fun download => ?_⟩
        have hdownload := hgiven.recorded (.download url) download rfl rfl
        cases download with
        | none => exact follows_failChunk hdownload
        | some reader =>
          refine follows_logSkip hdownload fun g hg hsub => ?_
          cases houtput : outputs k.2 k.1 reader with
          | none => exact follows_failChunk hg
          | some output => exact follows_deliver hg (hsub (mem_recorded.mpr (.inr rfl))) houtput

end Sending

/-! ## `Run` -/

/-- What of `Config` the loop reads. -/
structure LoopConfig where
  heartbeatInterval : Nat := 30
  policyRefresh : Nat := 60
  maxConcurrency : Int := 1
  controlPlaneHeartbeatEnabled : Bool := true
  deriving DecidableEq, Repr

/-- `policyState`, as far as the loop reads it. -/
structure LoopPolicy where
  enginePaused : Bool := false
  standardMaxConcurrency : Int := 0
  enhancedMaxConcurrency : Int := 0
  deriving DecidableEq, Repr

structure HeartbeatAnswer where
  desiredState : Text
  commands : List Text := []
  deriving DecidableEq, Repr

/-- One turn of the loop: when it is made, and what the requests in it return; `none` for an
error. -/
structure Turn where
  now : Nat
  heartbeat : Option HeartbeatAnswer := none
  policy : Option LoopPolicy := none
  deriving DecidableEq, Repr

/-- Where the loop is: at its top, with a claim under way, waiting for its chunks, or left. -/
inductive Phase where
  | top | claiming | waiting | returned
  deriving DecidableEq, Repr

abbrev Chunks := Pool Unit (Claim × ProbeSettings) History Call Call.Reply Outcome

/-- `Worker`, and how far its loop and its chunks are. -/
structure Worker where
  phase : Phase := .top
  lastHeartbeat : Option Nat := none
  lastPolicyFetch : Option Nat := none
  desiredState : WorkerState := .running
  policy : Option LoopPolicy := none
  maxConcurrency : Int
  /-- The wait group counts the same. -/
  active : Int := 0
  chunks : Chunks := ⟨(), []⟩

def normalizeDesiredState (value : Text) : Option WorkerState :=
  WorkerState.all.find? fun state => state.name = toLower (trimSpace value)

def applyCommand (desired : WorkerState) (command : Text) : WorkerState :=
  let command := toLower (trimSpace command)
  if command = "pause".toList then .paused
  else if command = "resume".toList ∨ command = "run".toList then .running
  else if command = "drain".toList then .draining
  else if command = "stop".toList then .stopped
  else desired

def applyControlPlaneHeartbeat (desired : WorkerState) (answer : HeartbeatAnswer) : WorkerState :=
  answer.commands.foldl applyCommand ((normalizeDesiredState answer.desiredState).getD desired)

/-- The worker is due again, at an interval. -/
def due (interval now : Nat) (last : Option Nat) : Bool :=
  last.all fun last => interval ≤ now - last

def minInt (a b : Int) : Int := if a = 0 then b else if b = 0 then a else if a < b then a else b

/-- `updateMaxConcurrency`. -/
def limit (cfg : LoopConfig) (policy : LoopPolicy) : Int :=
  let max := if cfg.maxConcurrency < 1 then 1 else cfg.maxConcurrency
  let max := if 0 < policy.standardMaxConcurrency then policy.standardMaxConcurrency else max
  let max := if 0 < policy.enhancedMaxConcurrency then minInt max policy.enhancedMaxConcurrency
    else max
  if max < 1 then 1 else max

namespace Worker

/-- `sendHeartbeats`, of the one to the control plane. -/
def beat (cfg : LoopConfig) (w : Worker) (turn : Turn) : Worker :=
  if due cfg.heartbeatInterval turn.now w.lastHeartbeat then
    let w := { w with lastHeartbeat := some turn.now }
    match turn.heartbeat with
    | some answer =>
        if cfg.controlPlaneHeartbeatEnabled then
          { w with desiredState := applyControlPlaneHeartbeat w.desiredState answer }
        else w
    | none => w
  else w

/-- `refreshPolicyIfNeeded`, of what the loop reads. -/
def refresh (cfg : LoopConfig) (w : Worker) (turn : Turn) : Worker :=
  if 0 < cfg.policyRefresh ∧ due cfg.policyRefresh turn.now w.lastPolicyFetch then
    let w := { w with lastPolicyFetch := some turn.now }
    match turn.policy with
    | some policy => { w with policy := some policy, maxConcurrency := limit cfg policy }
    | none => w
  else w

def enginePaused (w : Worker) : Bool := w.policy.any (·.enginePaused)

/-- The worker is not to claim, whatever it has under way. -/
def held (w : Worker) : Bool := w.enginePaused || w.desiredState ≠ .running

/-- The loop from its top to the claim, or back to the top. -/
def turn (cfg : LoopConfig) (w : Worker) (turn : Turn) : Worker :=
  let w := (w.beat cfg turn).refresh cfg turn
  if w.enginePaused then w
  else
    match w.desiredState with
    | .paused | .stopped | .draining => w
    | .running => if w.maxConcurrency ≤ w.active then w else { w with phase := .claiming }

end Worker

def program (k : Claim × ProbeSettings) : ChunkProgram := processChunk k.2 k.1

/-- The reply to a call is what its surroundings say. -/
def answered (_ : Claim × ProbeSettings) (call : Call) (answer : (call : Call) → call.Reply)
    (s : Unit) : call.Reply × Unit := (answer call, s)

/-- The chunk is under way. -/
def underWay (t : Thread (Claim × ProbeSettings) History Call Call.Reply Outcome) : Bool :=
  match t.rest with
  | .call _ _ => true
  | .ret _ => false

/-- The number of the chunks under way. -/
def Worker.running (w : Worker) : Nat := w.chunks.threads.countP underWay

/-- What happens: the loop makes a turn, a claim returns, a call for a chunk returns, the worker
is told to end, and what it waits for is over. -/
inductive Event where
  | turn (turn : Turn)
  | claimed (claim : Option (Claim × ProbeSettings))
  | reply (chunk : Nat) (answer : (call : Call) → call.Reply)
  | cancel
  | waited

def loop (cfg : LoopConfig) : System Worker Event where
  step w
    | .turn turn => if w.phase = .top then some (w.turn cfg turn) else none
    | .claimed none => if w.phase = .claiming then some { w with phase := .top } else none
    | .claimed (some k) =>
        if w.phase = .claiming then
          some { w with
            phase := .top
            active := w.active + 1
            chunks := w.chunks.start program [] k }
        else none
    | .reply i answer => do
        let chunks ← w.chunks.step answered recorded i answer
        pure { w with
          chunks := chunks
          active := if chunks.threads[i]?.any underWay then w.active else w.active - 1 }
    | .cancel => if w.phase = .top then some { w with phase := .waiting } else none
    | .waited =>
        if w.phase = .waiting ∧ w.active = 0 then some { w with phase := .returned } else none

/-- `New`. -/
def new (cfg : LoopConfig) : Worker where
  maxConcurrency := if cfg.maxConcurrency < 1 then 1 else cfg.maxConcurrency

/-! ## What holds of the loop -/

/-- Every call was allowed by those before it. -/
def Lawful (k : Claim × ProbeSettings) (h : History) : Prop :=
  ∀ n sent, h[n]? = some sent → Allowed k (h.take n) sent.call

/-- The counter counts the chunks under way, the limit stands while a claim is under way, and
every chunk is processed as it may be. -/
structure Sound (w : Worker) : Prop where
  counts : w.active = w.running
  claiming : w.phase = .claiming → w.active < w.maxConcurrency ∧ w.held = false
  left : w.phase = .returned → w.running = 0
  bound : w.chunks.Bound Allowed recorded fun _ => Ended
  lawful : ∀ t ∈ w.chunks.threads, Lawful t.kind t.seen

section Loop
variable {cfg : LoopConfig} {w v : Worker} {e : Event} {k : Claim × ProbeSettings} {h : History}
  {call : Call} {reply : call.Reply}

theorem lawful_nil : Lawful k [] := by
  intro n sent hsent
  rw [List.getElem?_nil] at hsent
  cases hsent

theorem Lawful.recorded (hlawful : Lawful k h) (hallowed : Allowed k h call) :
    Lawful k (recorded h call reply) := by
  intro n sent hsent
  rw [WorkerRuns.recorded] at hsent ⊢
  by_cases hn : n < h.length
  · rw [List.getElem?_append_left hn] at hsent
    rw [List.take_append_of_le_length hn.le]
    exact hlawful n sent hsent
  · rw [List.getElem?_append_right (Nat.le_of_not_lt hn)] at hsent
    have hzero : n - h.length = 0 := by
      have hlt := (List.getElem?_eq_some_iff.mp hsent).1
      rw [List.length_singleton] at hlt
      omega
    rw [hzero] at hsent
    obtain rfl := Option.some.inj hsent
    have hlength : n = h.length := by omega
    rw [hlength, List.take_left]
    exact hallowed

theorem beat_eq (turn : Turn) : ∃ last desired,
    w.beat cfg turn = { w with lastHeartbeat := last, desiredState := desired } := by
  rw [Worker.beat]
  split
  · split
    · split <;> exact ⟨_, _, rfl⟩
    · exact ⟨_, _, rfl⟩
  · exact ⟨_, _, rfl⟩

theorem refresh_eq (turn : Turn) : ∃ last policy max,
    w.refresh cfg turn =
      { w with lastPolicyFetch := last, policy := policy, maxConcurrency := max } := by
  rw [Worker.refresh]
  split
  · split <;> exact ⟨_, _, _, rfl⟩
  · exact ⟨_, _, _, rfl⟩

/-- A turn leaves the chunks as they are; it may lead to a claim if there is room for one. -/
theorem turn_cases (turn : Turn) : (w.turn cfg turn).chunks = w.chunks ∧
    (w.turn cfg turn).active = w.active ∧
    ((w.turn cfg turn).phase = w.phase ∨
      (w.turn cfg turn).phase = .claiming ∧
        (w.turn cfg turn).active < (w.turn cfg turn).maxConcurrency ∧
        (w.turn cfg turn).held = false) := by
  obtain ⟨last, desired, hbeat⟩ := @beat_eq cfg w turn
  obtain ⟨fetched, policy, max, hrefresh⟩ := @refresh_eq cfg (w.beat cfg turn) turn
  rw [hbeat] at hrefresh
  rw [Worker.turn, hbeat, hrefresh]
  split
  · exact ⟨rfl, rfl, .inl rfl⟩
  · next hpaused =>
    split
    · exact ⟨rfl, rfl, .inl rfl⟩
    · exact ⟨rfl, rfl, .inl rfl⟩
    · exact ⟨rfl, rfl, .inl rfl⟩
    · next hdesired =>
      split
      · exact ⟨rfl, rfl, .inl rfl⟩
      · next hroom =>
        refine ⟨rfl, rfl, .inr ⟨rfl, Int.not_le.mp hroom, ?_⟩⟩
        rw [Worker.held, Bool.or_eq_false_iff]
        exact ⟨Bool.not_eq_true _ ▸ hpaused, decide_eq_false (not_not.mpr hdesired)⟩

theorem running_start (p : Chunks) :
    (p.start program [] k).threads.countP underWay = p.threads.countP underWay + 1 := by
  rw [Pool.start_threads, List.countP_append]
  rfl

/-- What a reply does to the chunks: one of them goes on, or has ended. -/
theorem step_reply {i : Nat} {answer : (call : Call) → call.Reply} {p : Chunks}
    (hp : w.chunks.step answered recorded i answer = some p) :
    (p.threads.countP underWay : Int) = w.chunks.threads.countP underWay -
      (if p.threads[i]?.any underWay then 0 else 1) := by
  obtain ⟨t, c, rest, ht, hrest, rfl⟩ := Pool.step_cases hp
  have hlt := (List.getElem?_eq_some_iff.mp ht).1
  let u : Thread (Claim × ProbeSettings) History Call Call.Reply Outcome :=
    { t with seen := recorded t.seen c (answer c), rest := rest (answer c) }
  have hself : (w.chunks.resume recorded i t c rest (answer c) ()).threads[i]? = some u :=
    Pool.resume_getElem?_self ht
  have hold : underWay w.chunks.threads[i] = true := by
    rw [(List.getElem?_eq_some_iff.mp ht).2, underWay, hrest]
  have hpos : 0 < w.chunks.threads.countP underWay :=
    List.countP_pos_iff.mpr ⟨_, List.getElem_mem hlt, hold⟩
  have hcount := @List.countP_set _ underWay w.chunks.threads i u hlt
  rw [if_pos hold] at hcount
  show ((w.chunks.threads.set i u).countP underWay : Int) = _ -
    if (w.chunks.resume recorded i t c rest (answer c) ()).threads[i]?.any underWay then 0 else 1
  rw [hself, Option.any_some, hcount]
  split <;> omega

/-- A turn starts no chunk, and claims one only below the limit. -/
theorem Sound.turn (h : Sound w) (turn : Turn) (htop : w.phase = .top) :
    Sound (w.turn cfg turn) := by
  obtain ⟨hchunks, hactive, hphase⟩ := @turn_cases cfg w turn
  have hrunning : (w.turn cfg turn).running = w.running :=
    congrArg (fun p : Chunks => p.threads.countP underWay) hchunks
  rw [htop] at hphase
  refine ⟨?_, fun hclaiming => ?_, fun hreturned => ?_, hchunks ▸ h.bound, hchunks ▸ h.lawful⟩
  · rw [hactive, hrunning, h.counts]
  · exact (hphase.resolve_left fun htop => by rw [htop] at hclaiming; cases hclaiming).2
  · rcases hphase with hsame | ⟨hclaiming, -⟩
    · rw [hsame] at hreturned
      cases hreturned
    · rw [hclaiming] at hreturned
      cases hreturned

theorem Sound.start (h : Sound w) (k : Claim × ProbeSettings) :
    Sound { w with
      phase := .top, active := w.active + 1, chunks := w.chunks.start program [] k } := by
  refine ⟨?_, fun hclaiming => (by cases hclaiming), fun hreturned => (by cases hreturned),
    h.bound.start (follows_processChunk k), ?_⟩
  · show w.active + 1 = ((w.chunks.start program [] k).threads.countP underWay : Int)
    rw [running_start, h.counts]
    rfl
  · intro t ht
    rcases List.mem_append.mp ht with hold | hnew
    · exact h.lawful t hold
    · rw [List.mem_singleton.mp hnew]
      exact lawful_nil

/-- A reply lets one chunk go on; if it ends, it is no longer counted. -/
theorem Sound.resumed (h : Sound w) {i : Nat} {answer : (call : Call) → call.Reply} {p : Chunks}
    (hp : w.chunks.step answered recorded i answer = some p) :
    Sound { w with
      chunks := p
      active := if p.threads[i]?.any underWay then w.active else w.active - 1 } := by
  have hcount := step_reply hp
  obtain ⟨t, c, rest, ht, hrest, hresume⟩ := Pool.step_cases hp
  have hactive : (if p.threads[i]?.any underWay then w.active else w.active - 1) =
      w.active - (if p.threads[i]?.any underWay then 0 else 1) := by
    split <;> omega
  rw [hactive]
  refine ⟨?_, fun hclaiming => ?_, fun hreturned => ?_, ?_, ?_⟩
  · show w.active - _ = (p.threads.countP underWay : Int)
    rw [hcount, h.counts, Worker.running]
  · obtain ⟨hroom, hheld⟩ := h.claiming hclaiming
    refine ⟨lt_of_le_of_lt (Int.sub_le_self _ ?_) hroom, hheld⟩
    split <;> omega
  · have hnone := h.left hreturned
    have hpos : 0 < w.running :=
      List.countP_pos_iff.mpr ⟨t, List.mem_of_getElem? ht, by rw [underWay, hrest]⟩
    omega
  · rw [hresume]
    exact h.bound.resume ht hrest _ _
  · have hallowed : Allowed t.kind t.seen c := h.bound.head ht hrest
    intro u hu
    rw [hresume] at hu
    rcases List.mem_or_eq_of_mem_set hu with hold | rfl
    · exact h.lawful u hold
    · exact (h.lawful t (List.mem_of_getElem? ht)).recorded hallowed

/-- **Every step keeps what holds of the loop.** -/
theorem Sound.step (h : Sound w) (hstep : (loop cfg).step w e = some v) : Sound v := by
  cases e with
  | turn turn =>
    simp only [loop] at hstep
    split at hstep
    · next htop =>
      obtain rfl := Option.some.inj hstep
      exact h.turn turn htop
    · cases hstep
  | claimed claim =>
    cases claim with
    | none =>
      simp only [loop] at hstep
      split at hstep
      · obtain rfl := Option.some.inj hstep
        exact { h with
          claiming := fun hclaiming => by cases hclaiming
          left := fun hreturned => by cases hreturned }
      · cases hstep
    | some k =>
      simp only [loop] at hstep
      split at hstep
      · obtain rfl := Option.some.inj hstep
        exact h.start k
      · cases hstep
  | reply i answer =>
    obtain ⟨p, hp, hpure⟩ := Option.bind_eq_some_iff.mp hstep
    obtain rfl := Option.some.inj hpure
    exact h.resumed hp
  | cancel =>
    simp only [loop] at hstep
    split at hstep
    · obtain rfl := Option.some.inj hstep
      exact { h with
        claiming := fun hclaiming => by cases hclaiming
        left := fun hreturned => by cases hreturned }
    · cases hstep
  | waited =>
    simp only [loop] at hstep
    split at hstep
    · next hdone =>
      obtain rfl := Option.some.inj hstep
      refine { h with
        claiming := fun hclaiming => by cases hclaiming
        left := fun _ => ?_ }
      have hcounts := h.counts
      rw [hdone.2] at hcounts
      exact (Int.natCast_eq_zero.mp hcounts.symm)
    · cases hstep

theorem sound_new : Sound (new cfg) where
  counts := rfl
  claiming hclaiming := by cases hclaiming
  left _ := rfl
  bound t ht := absurd ht List.not_mem_nil
  lawful t ht := absurd ht List.not_mem_nil

theorem sound_of_reaches {C : Worker → Event → Prop} (hreach : (loop cfg).Reaches C (new cfg) w) :
    Sound w :=
  hreach.invariant sound_new fun _ _ _ h _ hstep => h.step hstep

/-- Only a claim starts a chunk, and only one; otherwise no more come to be under way. -/
theorem started_cases (hstep : (loop cfg).step w e = some v) :
    (v.chunks.threads.length = w.chunks.threads.length ∧ v.running ≤ w.running) ∨
      (w.phase = .claiming ∧ v.running ≤ w.running + 1) := by
  cases e with
  | turn turn =>
    simp only [loop] at hstep
    split at hstep
    · obtain rfl := Option.some.inj hstep
      left
      rw [Worker.running, (@turn_cases cfg w turn).1]
      exact ⟨rfl, Nat.le_refl _⟩
    · cases hstep
  | claimed claim =>
    cases claim with
    | none =>
      simp only [loop] at hstep
      split at hstep
      · obtain rfl := Option.some.inj hstep
        exact .inl ⟨rfl, Nat.le_refl _⟩
      · cases hstep
    | some k =>
      simp only [loop] at hstep
      split at hstep
      · next hclaiming =>
        obtain rfl := Option.some.inj hstep
        refine .inr ⟨hclaiming, ?_⟩
        show (w.chunks.start program [] k).threads.countP underWay ≤ _
        rw [running_start]
        exact Nat.le_refl _
      · cases hstep
  | reply i answer =>
    obtain ⟨p, hp, hpure⟩ := Option.bind_eq_some_iff.mp hstep
    obtain rfl := Option.some.inj hpure
    have hcount := step_reply hp
    have hfewer : p.threads.countP underWay ≤ w.chunks.threads.countP underWay := by
      split at hcount <;> omega
    obtain ⟨t, c, rest, -, -, rfl⟩ := Pool.step_cases hp
    exact .inl ⟨List.length_set, hfewer⟩
  | cancel =>
    simp only [loop] at hstep
    split at hstep
    · obtain rfl := Option.some.inj hstep
      exact .inl ⟨rfl, Nat.le_refl _⟩
    · cases hstep
  | waited =>
    simp only [loop] at hstep
    split at hstep
    · obtain rfl := Option.some.inj hstep
      exact .inl ⟨rfl, Nat.le_refl _⟩
    · cases hstep

/-- The turn leaves the worker held. -/
def StaysHeld (cfg : LoopConfig) (w : Worker) : Event → Prop
  | .turn turn => ((w.beat cfg turn).refresh cfg turn).held = true
  | _ => True

theorem held_turn (turn : Turn) :
    (w.turn cfg turn).held = ((w.beat cfg turn).refresh cfg turn).held := by
  rw [Worker.turn]
  split
  · rfl
  · split
    · rfl
    · rfl
    · rfl
    · split <;> rfl

theorem held_step (hheld : w.held = true) (hstays : StaysHeld cfg w e)
    (hstep : (loop cfg).step w e = some v) : v.held = true := by
  cases e with
  | turn turn =>
    simp only [loop] at hstep
    split at hstep
    · obtain rfl := Option.some.inj hstep
      rw [held_turn]
      exact hstays
    · cases hstep
  | claimed claim =>
    cases claim <;> simp only [loop] at hstep <;> split at hstep
    · obtain rfl := Option.some.inj hstep
      exact hheld
    · cases hstep
    · obtain rfl := Option.some.inj hstep
      exact hheld
    · cases hstep
  | reply i answer =>
    obtain ⟨p, -, hpure⟩ := Option.bind_eq_some_iff.mp hstep
    obtain rfl := Option.some.inj hpure
    exact hheld
  | cancel =>
    simp only [loop] at hstep
    split at hstep
    · obtain rfl := Option.some.inj hstep
      exact hheld
    · cases hstep
  | waited =>
    simp only [loop] at hstep
    split at hstep
    · obtain rfl := Option.some.inj hstep
      exact hheld
    · cases hstep

end Loop

/-- **However the calls for the chunks interleave and whatever they return, every call is one that
may be sent after those before it; a chunk that has ended has been completed or given up; and when
the loop is left, all have ended.** -/
theorem calls_lawful {cfg : LoopConfig} {w : Worker}
    (hreach : (loop cfg).Reaches Always (new cfg) w) :
    (∀ t ∈ w.chunks.threads, Lawful t.kind t.seen ∧
      ∀ outcome, t.rest = .ret outcome → Ended outcome t.seen) ∧
    (w.phase = .returned → ∀ t ∈ w.chunks.threads, ∃ outcome, t.rest = .ret outcome) := by
  have hsound := sound_of_reaches hreach
  constructor
  · intro t ht
    refine ⟨hsound.lawful t ht, fun outcome hrest => ?_⟩
    have hfollows := hsound.bound t ht
    rw [hrest] at hfollows
    exact hfollows
  · intro hreturned t ht
    have hnone : ¬underWay t = true := List.countP_eq_zero.mp (hsound.left hreturned) t ht
    cases hrest : t.rest with
    | ret outcome => exact ⟨outcome, rfl⟩
    | call c rest =>
      rw [underWay, hrest] at hnone
      exact absurd rfl hnone

/-- Surroundings in which nothing goes wrong. -/
def allFine : (call : Call) → call.Reply
  | .inputUrl => some "https://storage.example/in".toList
  | .download _ => some { content := "a@example.org\n".toList }
  | .outputUrls => some ("s3".toList,
      PerType.const ⟨"key".toList, "https://storage.example/out".toList⟩)
  | .logChunk _ => true
  | .chunkDetails => true
  | .upload _ _ => true
  | .completeChunk _ => true
  | .failChunk _ _ => true

/-- A worker without a policy that finds every address unknown. -/
def plainSettings : ProbeSettings where
  verifierForMode := fun _ => {}

def screening : Claim := ⟨"job".toList, "chunk".toList, "screening".toList, []⟩

/-- One chunk is claimed, the worker is told to end, and the chunk is completed. -/
def shift : List Event :=
  [.turn { now := 0 }, .claimed (some (screening, plainSettings)), .cancel] ++
    List.replicate 10 (.reply 0 allFine) ++ [.waited]

theorem calls_lawful_shift :
    ((loop {}).final Always (new {}) shift).phase = .returned ∧
      ∀ t ∈ ((loop {}).final Always (new {}) shift).chunks.threads,
        ∃ outcome, t.rest = .ret outcome ∧ Ended outcome t.seen := by
  have hphase : ((loop {}).final Always (new {}) shift).phase = .returned := rfl
  have hreach : (loop {}).Reaches Always (new {}) ((loop {}).final Always (new {}) shift) :=
    System.reaches_final rfl
  obtain ⟨hcalls, hended⟩ := calls_lawful hreach
  refine ⟨hphase, fun t ht => ?_⟩
  obtain ⟨outcome, hrest⟩ := hended hphase t ht
  exact ⟨outcome, hrest, (hcalls t ht).2 outcome hrest⟩

/-- **A chunk is completed with its rows**: when the call is sent, whatever comes of it, the three
files that have been uploaded hold one row for every address of the input that was downloaded, in
the file of its verdict, and the counts are theirs. -/
theorem completed_conserves {cfg : LoopConfig} {w : Worker}
    (hreach : (loop cfg).Reaches Always (new cfg) w)
    {t : Thread (Claim × ProbeSettings) History Call Call.Reply Outcome}
    (ht : t ∈ w.chunks.threads) {payload : CompletePayload} {reply : Bool}
    (hsent : ⟨.completeChunk payload, reply⟩ ∈ t.seen) :
    ∃ url reader output, ∃ targets : PerType Target, ⟨.download url, some reader⟩ ∈ t.seen ∧
      Conserved (verifierOf t.kind.2 t.kind.1) t.kind.2.probeAttemptChainEnabled
        t.kind.2.unknownReasonTaxonomyEnabled (addressLines reader.content) output ∧
      (∀ type, Uploaded t.seen (targets.get type) (output.rows.get type)) ∧
      payload.keys = targets.map (·.key) ∧ payload.counts = output.counts ∧
      payload.emailCount = (addressLines reader.content).length := by
  obtain ⟨n, hn⟩ := List.mem_iff_getElem?.mp hsent
  obtain ⟨hbacked, -⟩ := (sound_of_reaches hreach).lawful t ht n _ hn
  obtain ⟨url, reader, output, disk, targets, hread, houtput, -, huploaded, rfl⟩ := hbacked
  have hconserved := conserved_buildOutputs houtput
  have hbefore : ∀ {sent}, sent ∈ t.seen.take n → sent ∈ t.seen := List.mem_of_mem_take
  exact ⟨url, reader, output, targets, hbefore hread, hconserved,
    fun type => hbefore (huploaded type), rfl, rfl, hconserved.emailCount⟩

theorem completed_conserves_shift :
    ∃ t ∈ ((loop {}).final Always (new {}) shift).chunks.threads, ∃ payload url reader,
      ⟨.completeChunk payload, true⟩ ∈ t.seen ∧ ⟨.download url, some reader⟩ ∈ t.seen ∧
      payload.emailCount = (addressLines reader.content).length := by
  have hsome : (((loop {}).final Always (new {}) shift).chunks.threads[0]?.any fun t =>
      t.seen[8]?.any Sent.completes) = true := rfl
  obtain ⟨t, ht, hcompletes⟩ := (Option.any_eq_true _ _).mp hsome
  obtain ⟨sent, hsent, htaken⟩ := (Option.any_eq_true _ _).mp hcompletes
  obtain ⟨payload, rfl⟩ := eq_of_completes htaken
  have hmem := List.mem_of_getElem? hsent
  obtain ⟨url, reader, -, -, hread, -, -, -, -, hcount⟩ :=
    completed_conserves (System.reaches_final rfl) (List.mem_of_getElem? ht) hmem
  exact ⟨t, List.mem_of_getElem? ht, payload, url, reader, hmem, hread, hcount⟩

/-- **While the limit is no more than `L`, no more than `L` chunks are under way**, however they
end between the look at the counter and the claim. -/
theorem running_le {cfg : LoopConfig} {w : Worker} {L : Int} (hL : 0 ≤ L)
    (hreach : (loop cfg).Reaches (fun w _ => w.maxConcurrency ≤ L) (new cfg) w) :
    w.running ≤ L := by
  have hall : Sound w ∧ (w.running : Int) ≤ L := by
    refine hreach.invariant (P := fun w => Sound w ∧ (w.running : Int) ≤ L) ⟨sound_new, hL⟩ ?_
    rintro w e v ⟨hsound, hle⟩ hlimit hstep
    refine ⟨hsound.step hstep, ?_⟩
    rcases started_cases hstep with ⟨-, hfewer⟩ | ⟨hclaiming, hone⟩
    · omega
    · obtain ⟨hroom, -⟩ := hsound.claiming hclaiming
      have hcounts := hsound.counts
      omega
  exact hall.2

theorem running_le_claim :
    (((loop {}).final (fun w _ => w.maxConcurrency ≤ 1) (new {})
      [.turn { now := 0 }, .claimed (some (screening, plainSettings))]).running : Int) ≤ 1 :=
  running_le (by decide) (System.reaches_final rfl)

/-- **A worker that is to pause, to drain or to stop, or whose engine is paused, starts no chunk
until a turn lets it run again**, and those under way only become fewer. -/
theorem drains_while_held {cfg : LoopConfig} {w v : Worker}
    (hreach : (loop cfg).Reaches Always (new cfg) w)
    (hheld : w.held = true) (hrun : (loop cfg).Reaches (StaysHeld cfg) w v) :
    v.chunks.threads.length = w.chunks.threads.length ∧ v.running ≤ w.running := by
  have hall : Sound v ∧ v.held = true ∧ v.chunks.threads.length = w.chunks.threads.length ∧
      v.running ≤ w.running := by
    refine hrun.invariant (P := fun v => Sound v ∧ v.held = true ∧
      v.chunks.threads.length = w.chunks.threads.length ∧ v.running ≤ w.running)
      ⟨sound_of_reaches hreach, hheld, rfl, Nat.le_refl _⟩ ?_
    rintro u e v ⟨hsound, hstill, hlength, hfewer⟩ hstays hstep
    refine ⟨hsound.step hstep, held_step hstill hstays hstep, ?_⟩
    rcases started_cases hstep with ⟨hsame, hless⟩ | ⟨hclaiming, -⟩
    · exact ⟨hsame.trans hlength, hless.trans hfewer⟩
    · have hfree := (hsound.claiming hclaiming).2
      rw [hstill] at hfree
      cases hfree
  exact hall.2.2

/-- A worker that is told to drain, with a chunk under way. -/
def drained : Worker :=
  (loop {}).final Always (new {}) [.turn { now := 0 },
    .claimed (some (screening, plainSettings)),
    .turn { now := 40, heartbeat := some { desiredState := "Draining".toList } }]

theorem drains_while_held_drained :
    ((loop {}).next drained (.turn { now := 50 })).chunks.threads.length =
        drained.chunks.threads.length ∧
      ((loop {}).next drained (.turn { now := 50 })).running ≤ drained.running := by
  have hstays : StaysHeld {} drained (.turn { now := 50 }) := rfl
  exact drains_while_held (System.reaches_final rfl) rfl (.tail .refl hstays rfl)

end ValidEmailVerifier.WorkerRuns
