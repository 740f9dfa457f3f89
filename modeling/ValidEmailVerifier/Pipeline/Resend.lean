/-
# `Pipeline.Resend` — sending a completion again

A completion that has been answered with success is sent once more, word for word.  The
controller compares the payload with the row of the chunk, and between the two requests
`TempfailRetryPlanner` may have moved the risky key and the counts of that row: the
second answer is a success exactly when the planner found nothing to retry.

`Answered` is the run of the first request, with any steps of others in between that
leave the row of the chunk alone.
-/
import ValidEmailVerifier.Pipeline.Steps

namespace ValidEmailVerifier

open Processes

/-- The retry planner finds an address to retry in the risky file it reads. -/
def toRetry (s : Store) : Instr → Bool
  | .splitRisky chunk disk =>
      (chunk.keys.risky.bind fun key => s.objects (disk, key)).any fun file =>
        decide ((TempfailRetryPlanner.split s.settings.tempfailRetryReasons file).2 ≠ [])
  | _ => false

/-- The code of process `p` runs to its end without an exception, and others take their
turns in between but leave chunk `id` alone; the flag tells whether there was something
to retry. -/
inductive Answered (php : Php) (p id : Nat) : List Instr → Store → Store → Bool → Prop
  | done {s : Store} : Answered php p id [] s s false
  | wait {code : List Instr} {s s₁ s' : Store} {retried : Bool}
      (hrow : s₁.findChunk id = s.findChunk id) (h : Answered php p id code s₁ s' retried) :
      Answered php p id code s s' retried
  | step {i : Instr} {rest code : List Instr} {s s₁ s' : Store} {retried : Bool}
      (hexec : exec php p i s = some (s₁, .go code))
      (h : Answered php p id (code ++ rest) s₁ s' retried) :
      Answered php p id (i :: rest) s s' (toRetry s i || retried)

/-! ## Runs -/

section Answered
variable {php : Php} {p id : Nat} {s s' : Store} {retried : Bool}

/-- What is left of nothing. -/
theorem Answered.nil (h : Answered php p id [] s s' retried) :
    s'.findChunk id = s.findChunk id ∧ retried = false := by
  generalize hcode : ([] : List Instr) = code at h
  induction h with
  | done => exact ⟨rfl, rfl⟩
  | wait hrow _ ih => exact ⟨(ih hcode).1.trans hrow, (ih hcode).2⟩
  | step => exact nomatch hcode

/-- The next instruction is executed once the others have had their turns. -/
theorem Answered.cons {i : Instr} {rest : List Instr}
    (h : Answered php p id (i :: rest) s s' retried) :
    ∃ t t₁ code later, t.findChunk id = s.findChunk id ∧
      exec php p i t = some (t₁, .go code) ∧ Answered php p id (code ++ rest) t₁ s' later ∧
      retried = (toRetry t i || later) := by
  generalize hcode : i :: rest = all at h
  induction h with
  | done => exact nomatch hcode
  | wait hrow _ ih =>
    obtain ⟨t, t₁, code, later, hfind, hrest⟩ := ih hcode
    exact ⟨t, t₁, code, later, hfind.trans hrow, hrest⟩
  | step hexec h =>
    obtain ⟨rfl, rfl⟩ := List.cons.inj hcode
    exact ⟨_, _, _, _, rfl, hexec, h, rfl⟩

/-- An instruction that neither writes the row of a chunk nor plans a retry of it. -/
def still : Instr → Bool
  | .putObject _ _ | .dispatchFinalize | .beginProbe _ _ _ | .insertChunk _ | .commit
  | .beginRetry _ _ _ | .readMetrics _ _ | .saveMetrics _ _ => true
  | _ => false

theorem toRetry_of_still {i : Instr} (h : still i = true) : toRetry s i = false := by
  cases i <;> first | rfl | exact nomatch h

theorem still_leads {i j : Instr} (hi : still i = true) (h : Leads s i j) : still j = true := by
  cases h <;> first | rfl | exact nomatch hi

theorem not_writes_of_still {i : Instr} {model filled : Chunk} (hi : still i = true) :
    ¬ Writes s i id model filled := by
  intro h
  cases h <;> exact nomatch hi

/-- Still instructions leave the row as it is, and nothing is retried. -/
theorem Answered.keeps {code : List Instr} {row : Chunk}
    (h : Answered php p id code s s' retried)
    (hcode : ∀ i ∈ code, still i = true) (hfind : s.findChunk id = some row) :
    s'.findChunk id = some row ∧ retried = false := by
  induction h with
  | done => exact ⟨hfind, rfl⟩
  | wait hrow _ ih => exact ih hcode (hrow.trans hfind)
  | step hexec _ ih =>
    have hi := hcode _ (.head _)
    have hkeep := (exec_change hexec).find hfind
    obtain ⟨hrow, hlater⟩ := ih (by
      intro j hj
      rcases List.mem_append.mp hj with hj | hj
      · exact still_leads hi (exec_leads hexec j hj)
      · exact hcode j (.tail _ hj)) (by
      rcases hkeep with hsame | ⟨model, filled, hwrites, -⟩
      · exact hsame
      · exact absurd hwrites (not_writes_of_still hi))
    exact ⟨hrow, by rw [toRetry_of_still hi, hlater, Bool.or_false]⟩

/-- Still instructions in front make no difference. -/
theorem Answered.append {code rest : List Instr} {row : Chunk}
    (h : Answered php p id (code ++ rest) s s' retried)
    (hcode : ∀ i ∈ code, still i = true)
    (hfind : s.findChunk id = some row) :
    ∃ t, t.findChunk id = some row ∧ Answered php p id rest t s' retried := by
  generalize hall : code ++ rest = all at h
  induction h generalizing code with
  | done =>
    obtain ⟨-, rfl⟩ := List.append_eq_nil_iff.mp hall
    exact ⟨_, hfind, .done⟩
  | wait hrow _ ih => exact ih hcode (hrow.trans hfind) hall
  | @step i rest' more s₀ s₁ s' later hexec h ih =>
    cases code with
    | nil =>
      have hrest : rest = i :: rest' := hall
      exact ⟨s₀, hfind, hrest ▸ .step hexec h⟩
    | cons i' code =>
      obtain ⟨rfl, rfl⟩ := List.cons.inj hall
      have hi := hcode _ (.head _)
      rw [toRetry_of_still hi, Bool.false_or]
      refine @ih (more ++ code) ?_ ?_ (List.append_assoc more code rest)
      · intro j hj
        rcases List.mem_append.mp hj with hj | hj
        · exact still_leads hi (exec_leads hexec j hj)
        · exact hcode j (.tail _ hj)
      · rcases (exec_change hexec).find hfind with hsame | ⟨model, filled, hwrites, -⟩
        · exact hsame
        · exact absurd hwrites (not_writes_of_still hi)

end Answered

/-! ## The row a completion leaves -/

section Rows
variable {r : Request}

/-- A completion fills the row it has loaded. -/
theorem update_completed : Chunk.update r.chunk r.completed r.chunk = r.completed := by
  simp [Chunk.update, Request.completed]

/-- So does the last update of a planned retry. -/
theorem update_filtered {chunk : Chunk} {key : Key} {n : Nat} :
    Chunk.update chunk (chunk.withFilteredRisky key n) chunk =
      chunk.withFilteredRisky key n := by
  simp [Chunk.update, Chunk.withFilteredRisky]

/-- The completed row agrees with the payload it was completed with. -/
theorem payloadMatches_completed :
    Request.payloadMatches ⟨r.completed, r.payload⟩ = true := by
  have hdisk : ∀ {a b c : Option Disk},
      (a <|> (a <|> b <|> c) <|> c).isNone ∨ (a <|> b <|> c) = (a <|> (a <|> b <|> c) <|> c) := by
    intro a b c
    cases a <;> cases b <;> cases c <;> simp
  have hcount : ∀ {a b : Option Nat}, a.all (fun n => (a <|> b) == some n) = true := by
    intro a b
    cases a <;> simp
  have htotal : r.payload.emailCount.all (· == r.completed.emailCount) = true := by
    show r.payload.emailCount.all (· == r.payload.emailCount.getD r.chunk.emailCount) = true
    cases r.payload.emailCount <;> simp
  simp only [Request.payloadMatches, Bool.and_eq_true, Bool.or_eq_true, beq_iff_eq]
  refine ⟨⟨⟨hdisk, ?_⟩, htotal⟩, ?_⟩
  · simp [OutputType.all, Request.completed, PerType.get, PerType.map]
  · simp only [OutputType.all, List.all_cons, List.all_nil, Bool.and_true, Bool.and_eq_true]
    exact ⟨hcount, hcount, hcount⟩

theorem filteredRisky_ne (key : Key) : Key.filteredRisky key ≠ key := by
  intro h
  have hsize := congrArg sizeOf h
  simp at hsize

/-- The row of a planned retry has another risky key. -/
theorem not_payloadMatches_filtered {n : Nat} :
    Request.payloadMatches
      ⟨r.completed.withFilteredRisky r.payload.keys.risky n, r.payload⟩ = false := by
  rw [← Bool.not_eq_true]
  intro h
  simp only [Request.payloadMatches, Bool.and_eq_true] at h
  have hrisky := List.all_eq_true.mp h.1.1.2 .risky (by decide)
  exact filteredRisky_ne _ (Option.some.inj (beq_iff_eq.mp hrisky))

end Rows

/-! ## The law -/

/-- The request is answered with success, and nothing is done for it. -/
def AnsweredAgain (php : Php) (p id : Nat) (payload : Payload) (t : Store) : Prop :=
  exec php p (.loadCompletion id payload) t = some (t, .go [])

/-- The answer for a completed chunk. -/
theorem answeredAgain_iff {php : Php} {p id : Nat} {payload : Payload} {t : Store}
    {row : Chunk} (hfind : t.findChunk id = some row) (hstatus : row.status = .completed) :
    AnsweredAgain php p id payload t ↔ Request.payloadMatches ⟨row, payload⟩ = true := by
  have hexec : exec php p (.loadCompletion id payload) t =
      some (t, if Request.payloadMatches ⟨row, payload⟩ then .go [] else .raise) := by
    rw [exec, loadCompletion, hfind]
    dsimp only
    rw [hstatus]
  rw [AnsweredAgain, hexec]
  cases Request.payloadMatches ⟨row, payload⟩ <;> simp

section Law
variable {php : Php} {p id : Nat} {s s' : Store} {r : Request} {retried : Bool}

/-- The update of a completion, on the row it has loaded. -/
theorem Answered.update {rest : List Instr}
    (h : Answered php p id (.updateCompleted r :: rest) s s' retried)
    (hfind : s.findChunk id = some r.chunk) :
    ∃ t, t.findChunk id = some r.completed ∧ Answered php p id rest t s' retried := by
  obtain ⟨t, t₁, code, later, hrow, hexec, hrest, rfl⟩ := h.cons
  have hid : r.chunk.id = id := Table.key_of_find hfind
  cases hexec
  refine ⟨_, ?_, hrest⟩
  rw [← hid, Store.findChunk_updateChunk_self (fun row => Chunk.update_id _ _ row), hid, hrow,
    hfind, Option.map_some, update_completed]

/-- A screening completion leaves the completed row. -/
theorem Answered.screening {candidates : Option Nat}
    (h : Answered php p id (finishScreening r candidates) s s' retried)
    (hfind : s.findChunk id = some r.chunk) :
    s'.findChunk id = some r.completed ∧ retried = false := by
  obtain ⟨t, hrow, hrest⟩ := h.update hfind
  refine hrest.keeps ?_ hrow
  intro i hi
  simp only [List.mem_cons, List.not_mem_nil, or_false] at hi
  rcases hi with rfl | rfl <;> rfl

/-- The planner either finds nothing to retry, or goes on to move the risky key. -/
theorem splitRisky_code {t t' : Store} {chunk : Chunk} {disk : Disk} {code : List Instr}
    (h : exec php p (.splitRisky chunk disk) t = some (t', .go code)) :
    t' = t ∧ ((toRetry t (.splitRisky chunk disk) = false ∧ code = []) ∨
      (toRetry t (.splitRisky chunk disk) = true ∧ ∃ key addr file retry n,
        chunk.keys.risky = some key ∧
          code = [.putObject addr file, .beginRetry chunk disk retry,
            .updateParent chunk key n])) := by
  rw [exec, splitRisky] at h
  cases hkey : chunk.keys.risky with
  | none =>
    rw [hkey] at h
    cases h
    exact ⟨rfl, .inl ⟨by simp [toRetry, hkey], rfl⟩⟩
  | some key =>
    rw [hkey] at h
    cases hfile : t.objects (disk, key) with
    | none =>
      simp only [hfile] at h
      cases h
      exact ⟨rfl, .inl ⟨by simp [toRetry, hkey, hfile], rfl⟩⟩
    | some file =>
      simp only [hfile] at h
      split at h
      · next hnil =>
        cases h
        exact ⟨rfl, .inl ⟨by simp [toRetry, hkey, hfile, hnil], rfl⟩⟩
      · next hcons =>
        cases h
        exact ⟨rfl, .inr ⟨by simp [toRetry, hkey, hfile, hcons], _, _, _, _, _, rfl, rfl⟩⟩

/-- A probe completion leaves the completed row, or the one of a planned retry. -/
theorem Answered.probe (h : Answered php p id (finishProbe r) s s' retried)
    (hfind : s.findChunk id = some r.chunk) :
    (s'.findChunk id = some r.completed ∧ retried = false) ∨
      ∃ n, s'.findChunk id = some (r.completed.withFilteredRisky r.payload.keys.risky n) ∧
        retried = true := by
  obtain ⟨t, hrow, hrest⟩ := h.update hfind
  have hid : r.chunk.id = id := Table.key_of_find hfind
  have htail : ∀ i ∈ [Instr.readMetrics r.chunk.id (.probe r.totalCount
      (r.completed.counts.risky.getD 0)), .dispatchFinalize], still i = true := by
    intro i hi
    simp only [List.mem_cons, List.not_mem_nil, or_false] at hi
    rcases hi with rfl | rfl <;> rfl
  obtain ⟨t₁, t₂, code, later, hrow₁, hexec, hrest, rfl⟩ := hrest.cons
  rw [hrow] at hrow₁
  have hplan := planRetry_cases hexec
  obtain ⟨rfl, hn | ⟨fresh, disk, hfresh, hdisk, ⟨-, hn⟩ | ⟨-, hn⟩⟩⟩ := hplan
  · exact nomatch hn
  · -- the planner goes on to read the risky file of the completed row
    cases hn
    rw [hid, hrow₁] at hfresh
    obtain rfl := Option.some.inj hfresh
    obtain ⟨t₃, t₄, code, later, hrow₃, hexec, hrest, rfl⟩ := hrest.cons
    rw [hrow₁] at hrow₃
    obtain ⟨rfl, ⟨hno, rfl⟩ | ⟨hyes, key, addr, file, retry, n, hkey, rfl⟩⟩ :=
      splitRisky_code hexec
    · obtain ⟨hrow', rfl⟩ := hrest.keeps htail hrow₃
      exact .inl ⟨hrow', by rw [hno]; rfl⟩
    · right
      have hput : ∀ i ∈ [Instr.putObject addr file, .beginRetry r.completed disk retry],
          still i = true := by
        intro i hi
        simp only [List.mem_cons, List.not_mem_nil, or_false] at hi
        rcases hi with rfl | rfl <;> rfl
      have hsplit : Answered php p id
          ([.putObject addr file, .beginRetry r.completed disk retry] ++
            .updateParent r.completed key n :: [.readMetrics r.chunk.id
              (.probe r.totalCount (r.completed.counts.risky.getD 0)), .dispatchFinalize])
          _ s' _ := hrest
      obtain ⟨t₅, hrow₅, hrest⟩ := hsplit.append hput hrow₃
      obtain ⟨t₆, t₇, code, later, hrow₆, hexec, hrest, rfl⟩ := hrest.cons
      cases hexec
      rw [hrow₅] at hrow₆
      have hmoved : (t₆.updateChunk r.completed.id (Chunk.update r.completed
          (r.completed.withFilteredRisky key n))).findChunk id =
            some (r.completed.withFilteredRisky key n) := by
        rw [show r.completed.id = id from hid,
          Store.findChunk_updateChunk_self (fun row => Chunk.update_id _ _ row), hrow₆,
          Option.map_some, update_filtered]
      obtain ⟨hrow', -⟩ := hrest.keeps htail hmoved
      obtain rfl : r.payload.keys.risky = key := Option.some.inj hkey
      exact ⟨n, hrow', by rw [hyes]; rfl⟩
  · cases hn
    obtain ⟨hrow', rfl⟩ := hrest.keeps htail hrow₁
    exact .inl ⟨hrow', rfl⟩

/-- The row a completion that was answered with success leaves, and what it is worth to
the same completion again. -/
theorem row_of_answered {payload : Payload}
    (h : Answered php p id [.loadCompletion id payload] s s' retried) :
    ∃ row, s'.findChunk id = some row ∧ row.status = .completed ∧
      (Request.payloadMatches ⟨row, payload⟩ = true ↔ retried = false) := by
  obtain ⟨t, t₁, code, later, -, hexec, hrest, rfl⟩ := h.cons
  rw [List.append_nil] at hrest
  obtain ⟨rfl, hn | hn | ⟨chunk, hfind, hlive, hcase⟩⟩ := loadCompletion_cases hexec
  · cases hn
  · -- the chunk was completed before, with this payload
    cases hn
    rw [exec, loadCompletion] at hexec
    cases hfind : t₁.findChunk id with
    | none =>
      rw [hfind] at hexec
      cases hexec
    | some row =>
      rw [hfind] at hexec
      dsimp only at hexec
      split at hexec
      · next hstatus =>
        split at hexec
        · next hmatch =>
          obtain ⟨hrow', rfl⟩ := hrest.nil
          exact ⟨row, hrow'.trans hfind, hstatus, iff_of_true hmatch rfl⟩
        · cases hexec
      · cases hexec
      · split at hexec
        · split at hexec <;> cases hexec
        · cases hexec
  · have hcompleted : Request.payloadMatches ⟨(Request.mk chunk payload).completed, payload⟩ =
        true := payloadMatches_completed
    rcases hcase with ⟨-, -, hn⟩ | ⟨-, -, hn⟩ | ⟨-, hn⟩
    · cases hn
      obtain ⟨t₂, t₃, code, later, hrow, hexec, hrest, rfl⟩ := hrest.cons
      rw [List.append_nil] at hrest
      rw [hfind] at hrow
      obtain ⟨rfl, hn | ⟨disk, -, ⟨-, hn⟩ | ⟨-, hn⟩⟩⟩ := planHandoff_cases hexec
      · cases hn
      · cases hn
        obtain ⟨hrow', rfl⟩ := hrest.screening hrow
        exact ⟨_, hrow', rfl, iff_of_true hcompleted rfl⟩
      · cases hn
        obtain ⟨t₄, hrow₄, hrest⟩ := hrest.append (by
          intro i hi
          simp only [handoffCode, List.mem_cons, List.not_mem_nil, or_false] at hi
          rcases hi with rfl | rfl | rfl | rfl <;> rfl) hrow
        obtain ⟨hrow', rfl⟩ := hrest.screening hrow₄
        exact ⟨_, hrow', rfl, iff_of_true hcompleted rfl⟩
    · cases hn
      obtain ⟨hrow', rfl⟩ := hrest.screening hfind
      exact ⟨_, hrow', rfl, iff_of_true hcompleted rfl⟩
    · cases hn
      rcases hrest.probe hfind with ⟨hrow', rfl⟩ | ⟨n, hrow', rfl⟩
      · exact ⟨_, hrow', rfl, iff_of_true hcompleted rfl⟩
      · refine ⟨_, hrow', rfl, iff_of_false ?_ (by simp)⟩
        have hno : Request.payloadMatches ⟨(Request.mk chunk payload).completed.withFilteredRisky
            payload.keys.risky n, payload⟩ = false := not_payloadMatches_filtered
        rw [Bool.not_eq_true]
        exact hno

/-- **A completion can be sent again exactly when nothing of it was retried.**  The first
request has run to its end, and the row of the chunk is as it left it: the same request is
answered with success, and changes nothing, if and only if no risky file that the retry
planner has read for the first one had rows to retry. -/
theorem answeredAgain_iff_not_retried {payload : Payload} {t : Store} {q : Nat}
    (h : Answered php p id [.loadCompletion id payload] s s' retried)
    (hrow : t.findChunk id = s'.findChunk id) :
    AnsweredAgain php q id payload t ↔ retried = false := by
  obtain ⟨row, hfind, hstatus, hmatch⟩ := row_of_answered h
  exact (answeredAgain_iff (hrow.trans hfind) hstatus).trans hmatch

/-- A run without others in between. -/
def runAlone (php : Php) (p : Nat) : Nat → List Instr → Store → Option (Store × Bool)
  | _, [], s => some (s, false)
  | 0, _ :: _, _ => none
  | fuel + 1, i :: rest, s =>
      match exec php p i s with
      | some (s', .go code) =>
          (runAlone php p fuel (code ++ rest) s').map fun (t, later) => (t, toRetry s i || later)
      | _ => none

theorem answered_of_runAlone : ∀ {fuel : Nat} {code : List Instr} {s s' : Store},
    runAlone php p fuel code s = some (s', retried) → Answered php p id code s s' retried := by
  intro fuel
  induction fuel generalizing retried with
  | zero =>
    intro code s s' h
    cases code with
    | nil =>
      cases h
      exact .done
    | cons i rest => exact nomatch h
  | succ fuel ih =>
    intro code s s' h
    cases code with
    | nil =>
      cases h
      exact .done
    | cons i rest =>
      rw [runAlone] at h
      split at h
      · next s₁ more hexec =>
        obtain ⟨⟨t, later⟩, hrun, heq⟩ := Option.map_eq_some_iff.mp h
        cases heq
        exact .step hexec (ih hrun)
      · exact nomatch h

end Law

/-- Process `p` is about to send its completion, and runs alone. -/
def completesAlone (c : State) (p : Nat) : Option Bool :=
  match c.procs[p]? with
  | some ⟨_, [.loadCompletion id payload]⟩ =>
      (runAlone samplePhp p 20 [.loadCompletion id payload] c.store).map Prod.snd
  | _ => none

theorem answered_of_completesAlone {c : State} {p : Nat} {retried : Bool}
    (h : completesAlone c p = some retried) : ∃ k id payload s',
      c.At p k [.loadCompletion id payload] ∧
        Answered samplePhp p id [.loadCompletion id payload] c.store s' retried := by
  rw [completesAlone] at h
  split at h
  · next k id payload hat =>
    obtain ⟨⟨s', b⟩, hrun, rfl⟩ := Option.map_eq_some_iff.mp h
    exact ⟨k, id, payload, s', hat, answered_of_runAlone hrun⟩
  · exact nomatch h

/-- One address is screened, and the worker of its probe is about to complete. -/
def probedSchedule (reason : String) : List Action :=
  .startParse [] :: turns 0 5 ++
    claimBy 0 ["a@b.co"] .valid "rcpt_ok" :: turns 1 17 ++
    claimBy 1 ["a@b.co"] .risky reason :: turns 2 4

theorem answeredAgain_catchAll :
    ∃ c id payload s', (pipeline samplePhp).Reaches Transition.Always
        (sampleJob (retrySettings 3) ["a@b.co"]) c ∧
      Answered samplePhp 2 id [.loadCompletion id payload] c.store s' false ∧
        AnsweredAgain samplePhp 3 id payload s' := by
  have hrun : ((pipeline samplePhp).run (sampleJob (retrySettings 3) ["a@b.co"])
      (probedSchedule "catch_all")).any (fun c => completesAlone c 2 == some false) = true := by
    decide
  obtain ⟨c, hreach, htest⟩ := Transition.System.exists_reaches_always hrun
  obtain ⟨k, id, payload, s', -, h⟩ := answered_of_completesAlone (beq_iff_eq.mp htest)
  exact ⟨c, id, payload, s', hreach, h, (answeredAgain_iff_not_retried h rfl).mpr rfl⟩

/-- The worker's completion queues a retry; sent again it is answered with a conflict. -/
theorem retried_not_answeredAgain :
    ∃ c k id payload s', (pipeline samplePhp).Reaches Transition.Always
        (sampleJob (retrySettings 3) ["a@b.co"]) c ∧
      c.At 2 k [.loadCompletion id payload] ∧
      Answered samplePhp 2 id [.loadCompletion id payload] c.store s' true ∧
        ¬ AnsweredAgain samplePhp 3 id payload s' := by
  have hrun : ((pipeline samplePhp).run (sampleJob (retrySettings 3) ["a@b.co"])
      (probedSchedule "smtp_tempfail")).any (fun c => completesAlone c 2 == some true) = true := by
    decide
  obtain ⟨c, hreach, htest⟩ := Transition.System.exists_reaches_always hrun
  obtain ⟨k, id, payload, s', hat, h⟩ := answered_of_completesAlone (beq_iff_eq.mp htest)
  obtain ⟨row, hfind, hstatus, hmatch⟩ := row_of_answered h
  refine ⟨c, k, id, payload, s', hreach, hat, h, fun hagain => ?_⟩
  exact nomatch hmatch.mp ((answeredAgain_iff hfind hstatus).mp hagain)

end ValidEmailVerifier
