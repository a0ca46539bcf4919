/-
Waiting for an exact Dataset version.

The loop of `wait_dataset` on an upload receipt: it verifies the version again
and again until the verification succeeds or a failure is not to be retried.
What the loop does to its surroundings is a parameter, `WaitActions`: the relay
runs the loop with its own operations, and the discipline of the retries is
proved on the loop with operations that are recorded.
-/
import Mathlib.Algebra.Order.Ring.Unbundled.Rat
import KaggleRelay.RelayOps

namespace KaggleRelay

open Effects JsonText

/-- The arguments of `verify_dataset_content`, with the two deadlines its
process is given. -/
structure VerifyArgs where
  datasetRef : String
  receipt : DatasetUploadReceipt
  background : Bool
  publicationRemaining : ℚ
  retryRemaining : Option ℚ
  deriving DecidableEq

/-- What `wait_dataset` uses. -/
structure WaitActions (S : Sig) where
  /-- `time.monotonic()`. -/
  monotonic : Eff S Exc ℚ
  /-- `random.uniform(0, 3)`. -/
  uniform : Eff S Exc ℚ
  /-- How many turns an endless loop gets. -/
  turns : Eff S Exc ℕ
  checkInterrupted : Eff S Exc Unit
  cancelCheck : Eff S Exc Unit
  sleep : ℚ → Eff S Exc Unit
  verifyDatasetContent : VerifyArgs → Eff S Exc Unit
  /-- `_verification_content_seconds`. -/
  contentSeconds : Eff S Exc ℚ

/-- The state of the loop of `wait_dataset`. -/
structure WaitState where
  publicationStart : ℚ
  publicationDetail : String
  transientAttempts : ℕ
  retryDeadline : Option ℚ

/-- The HTTP statuses that are retried. -/
def retriedHttpStatus (status : Option ℕ) : Bool :=
  match status with
  | some n => [408, 409, 429, 500, 502, 503, 504].contains n
  | none => false

/-- `json.dumps({"status": "ready", "current_version_number": version})`. -/
def readyStatus (version : ℤ) : String :=
  dumps .spaced (.obj [("status", .str "ready"), ("current_version_number", .int version)])

/-- `dataset_verification_retry_exhausted`. -/
def retryExhausted (detail : String) (httpStatus : Option ℕ) (retryAfter : Option ℚ) : Exc :=
  .verification ("dataset_verification_retry_exhausted: original candidate retained; " ++ detail)
    .transport httpStatus retryAfter

namespace WaitActions

variable {S : Sig} (a : WaitActions S) (redactSecrets : String → String)

/-- The waiting between two attempts; it stays responsive to a cancellation. -/
def backoff (wakeAt : ℚ) : ℕ → Eff S Exc Unit
  | 0 => Eff.hang
  | turns + 1 => do
    let now ← a.monotonic
    if wakeAt ≤ now then pure ()
    else do
      a.checkInterrupted
      a.cancelCheck
      let now ← a.monotonic
      a.sleep (min 1 (max 0 (wakeAt - now)))
      backoff wakeAt turns

/-- The end of the retries of transient failures, where there has been one. -/
def retryRemaining (st : WaitState) : Eff S Exc (Option ℚ) :=
  match st.retryDeadline with
  | none => pure none
  | some deadline => do
    let now ← a.monotonic
    Eff.raiseIf (max 0 (deadline - now) ≤ 0) (retryExhausted st.publicationDetail none none)
    pure (some (max 0 (deadline - now)))

/-- The end of the wait for the publication. -/
def publicationRemaining (grace : ℤ) (st : WaitState) : Eff S Exc ℚ := do
  let now ← a.monotonic
  Eff.raiseIf (max 0 (grace - (now - st.publicationStart)) ≤ 0) (.verification
    ("payload_publication_timeout: Dataset publication deadline exceeded; " ++ st.publicationDetail)
    .publication none none)
  pure (max 0 (grace - (now - st.publicationStart)))

/-- A transient failure: the state of the next turn, after the wait for it. -/
def retryTransient (grace : ℤ) (elapsed : ℚ) (failure : Failure) (detail : String) (st : WaitState) :
    Eff S Exc WaitState := do
  let deadline ← match st.retryDeadline with
    | some deadline => pure deadline
    | none => do
      let now ← a.monotonic
      pure (now + 600)
  let attempts := st.transientAttempts + 1
  let now ← a.monotonic
  let remaining := min (deadline - now) (grace - elapsed)
  let jitter ← a.uniform
  let delay := max (failure.retryAfter.getD 0) (min 60 (5 * 2 ^ min (attempts - 1) 4) + jitter)
  Eff.raiseIf (5 < attempts ∨ remaining ≤ delay)
    (retryExhausted (Text.lastChars 1200 detail) failure.httpStatus failure.retryAfter)
  let now ← a.monotonic
  let turns ← a.turns
  a.backoff (now + delay) turns
  pure { st with transientAttempts := attempts, retryDeadline := some deadline }

/-- What `wait_dataset` makes of a failed verification: raise, or the state of
the next turn. -/
def retryVerification (pollSeconds visibilityGrace grace version : ℤ) (background : Bool) (e : Exc)
    (st : WaitState) : Eff S Exc WaitState := do
  let detail := redactSecrets e.text
  let st := { st with publicationDetail := Text.lastChars 1200 detail }
  let now ← a.monotonic
  let elapsed := now - st.publicationStart
  let failure := verificationError e
  if background then
    -- the durable scheduler controls the next attempt
    Eff.throw (.verification detail failure.category failure.httpStatus failure.retryAfter)
  else if failure.category = .publication then do
    Eff.raiseIf (grace ≤ elapsed) (.verification
      ("Dataset exact version " ++ intText version ++
        " publication verification timed out after " ++ intText grace ++
        "s; payload_publication_timeout: " ++ Text.lastChars 1200 detail) .publication none none)
    a.sleep (min pollSeconds (max 0 (grace - elapsed)))
    pure st
  else if failure.category = .http ∧ failure.httpStatus ∈ [some 403, some 404] then do
    Eff.raiseIf (visibilityGrace ≤ 0 ∨ visibilityGrace < elapsed) e
    a.sleep (min pollSeconds (max 0 (grace - elapsed)))
    pure st
  else if failure.category = .transport ∨
      (failure.category = .http ∧ retriedHttpStatus failure.httpStatus = true) then
    a.retryTransient grace elapsed failure detail st
  else Eff.throw e

/-- The loop of `wait_dataset` on a receipt. -/
def waitTurns (pollSeconds visibilityGrace grace : ℤ) (datasetRef : String)
    (receipt : DatasetUploadReceipt) (background : Bool) : ℕ → WaitState → Eff S Exc String
  | 0, _ => Eff.hang
  | turns + 1, st => do
    a.checkInterrupted
    a.cancelCheck
    let retryRemaining ← a.retryRemaining st
    let publicationRemaining ← a.publicationRemaining grace st
    let verified ← Eff.attempt (a.verifyDatasetContent
      ⟨datasetRef, receipt, background, publicationRemaining, retryRemaining⟩)
    let seconds ← a.contentSeconds
    let st := { st with publicationStart := st.publicationStart + seconds }
    match verified with
    | .ok () => pure (readyStatus receipt.expectedVersionNumber)
    | .error e => do
      let st ← a.retryVerification redactSecrets pollSeconds visibilityGrace grace
        receipt.expectedVersionNumber background e st
      waitTurns pollSeconds visibilityGrace grace datasetRef receipt background turns st

/-- `wait_dataset` with an upload receipt that names its source directory.
`statusGrace` is the setting `dataset_status_permission_grace_seconds`. -/
def waitDataset (pollSeconds statusGrace permissionGrace : ℤ) (datasetRef : String)
    (receipt : DatasetUploadReceipt) (background : Bool) : Eff S Exc String := do
  let visibilityGrace := max 0 permissionGrace
  let start ← a.monotonic
  let turns ← a.turns
  a.waitTurns redactSecrets pollSeconds visibilityGrace (max visibilityGrace statusGrace) datasetRef
    receipt background turns ⟨start, "", 0, none⟩

end WaitActions

end KaggleRelay
