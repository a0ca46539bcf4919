/-
Sessions of the web interface, and who a request comes from.

* `createUiSessionCookie` — a signed cookie that names a user;
* `authenticateUiSession` — the user whom a cookie names, in the store of now;
* `requestPrincipal` — the user of a request: by its bearer token, or else by
  its cookie;
* `mem_of_requestPrincipal` — that user is always one of the store.
-/
import KaggleRelay.AuthStore

namespace KaggleRelay

open JsonText

/-- What sessions need of the library and of the environment. -/
structure SessionEnv where
  reader : AuthReader
  /-- `int(value)` of a text or of a number with a fraction. -/
  intOf : Json → Option ℤ
  /-- The URL-safe base64 text of the HMAC of a text. -/
  hmac : List UInt8 → String → String
  /-- `_b64_encode(json.dumps(payload).encode())`. -/
  encode : JsonObject → String
  /-- `json.loads(_b64_decode(text).decode("utf-8"))`; `none` where it raises. -/
  decode : String → Option Json
  /-- The bytes of a text, and the SHA-256 digest of one. -/
  utf8 : String → List UInt8
  digest : String → List UInt8
  /-- `RELAY_UI_SESSION_SECRET`, stripped. -/
  sessionSecret : String
  adminToken : String
  apiToken : String

namespace SessionEnv

variable (env : SessionEnv) (store : AuthStore)

/-- `compatibility_admin_token`. -/
def compatibilityAdminToken : String :=
  ((store.tokens.find? (·.2.managementAdmin)).map (·.1)).getD ""

/-- `_session_secret`. -/
def secret : Except Exc (List UInt8) :=
  let tokens := (store.tokens.map (·.1)).filter (· ≠ "")
  if env.sessionSecret ≠ "" then .ok (env.utf8 env.sessionSecret)
  else if env.adminToken ≠ "" then .ok (env.utf8 env.adminToken)
  else if env.apiToken ≠ "" then .ok (env.utf8 env.apiToken)
  else if compatibilityAdminToken store ≠ "" then .ok (env.utf8 (compatibilityAdminToken store))
  else if tokens ≠ [] then .ok (env.digest ("\x00".intercalate (tokens.insertionSort (· ≤ ·))))
  else .error (.runtimeError "RELAY_UI_SESSION_SECRET is required when no relay token is configured")

/-- `_sign`. -/
def sign (payload : String) : Except Exc String := do
  let key ← env.secret store
  if isAscii payload then pure (env.hmac key payload)
  else .error (.valueError "'ascii' codec can't encode characters")

/-- `create_ui_session_cookie`. -/
def createUiSessionCookie (p : RelayPrincipal) (now maxAge : ℤ) : Except Exc String := do
  let payload := env.encode
    [("principal_id", .str p.id), ("issued_at", .int now), ("expires_at", .int (now + maxAge))]
  let signature ← env.sign store payload
  pure (payload ++ "." ++ signature)

/-- `_principal_by_id`, on the entries of the store. -/
def findPrincipal (expectedId : String) : List (String × RelayPrincipal) → Except Exc (Option RelayPrincipal)
  | [] => .ok none
  | (_, p) :: rest => do
    let same ← compareDigest p.id expectedId
    if same then pure (some p) else findPrincipal expectedId rest

/-- `_principal_by_id`. -/
def principalById (principalId : String) : Except Exc (Option RelayPrincipal) :=
  let expectedId := Text.strip principalId
  if expectedId = "" then .ok none else findPrincipal expectedId store.tokens

/-- `int(value)`, `none` where it raises. -/
def toInt : Json → Option ℤ
  | .int z => some z
  | .bool b => some (if b then 1 else 0)
  | .null | .arr _ | .obj _ => none
  | value => env.intOf value

/-- The payload of a session that has not expired names its user. -/
def sessionPrincipal (now : ℤ) (fields : JsonObject) : Except Exc (Option RelayPrincipal) :=
  match env.toInt (getOr fields "issued_at" (.int 0)), env.toInt (getOr fields "expires_at" (.int 0)) with
  | some issuedAt, some expiresAt =>
    if issuedAt ≤ 0 ∨ expiresAt ≤ now then .ok none
    else principalById store (env.reader.str (getOr fields "principal_id" (.str "")))
  | _, _ => .ok none

/-- `authenticate_ui_session` at the time `now`. -/
def authenticateUiSession (now : ℤ) (cookie : String) : Except Exc (Option RelayPrincipal) := do
  let chars := cookie.toList
  let dot := (chars.reverse.findIdx? (· == '.')).map fun i => chars.length - 1 - i
  match dot with
  | none => pure none
  | some i => do
    -- `cookie.rsplit(".", 1)`
    let payload := String.ofList (chars.take i)
    let signature := String.ofList (chars.drop (i + 1))
    let expected ← env.sign store payload
    let same ← compareDigest signature expected
    if same = false then pure none
    else
      match env.decode payload with
      | none => pure none
      | some (.obj fields) => env.sessionPrincipal store now fields
      | some _ => .error .noGet

end SessionEnv

/-- The credentials a request carries. -/
structure Credential where
  authorization : String
  cookie : String

/-- `current_request_principal`; `none` is answered with 401. -/
def requestPrincipal (env : SessionEnv) (store : AuthStore) (now : ℤ) (c : Credential) :
    Except Exc (Option RelayPrincipal) :=
  let token := bearerToken c.authorization
  if token ≠ "" then store.authenticateToken token else env.authenticateUiSession store now c.cookie

section Members

variable {env : SessionEnv} {store : AuthStore}

theorem mem_of_findPrincipal {expectedId : String} {tokens : List (String × RelayPrincipal)} {p : RelayPrincipal}
    (h : SessionEnv.findPrincipal expectedId tokens = .ok (some p)) : p ∈ tokens.map (·.2) := by
  induction tokens with
  | nil => cases h
  | cons t rest ih =>
    obtain ⟨same, -, hrest⟩ := ok_bind.mp h
    cases same with
    | true => exact Option.some.inj (Except.ok.inj hrest) ▸ List.mem_cons_self
    | false => exact List.mem_cons_of_mem _ (ih hrest)

theorem mem_of_authenticateUiSession {now : ℤ} {cookie : String} {p : RelayPrincipal}
    (h : env.authenticateUiSession store now cookie = .ok (some p)) : p ∈ store.tokens.map (·.2) := by
  have hnone : ∀ {x : Except Exc (Option RelayPrincipal)}, x = .ok none → x ≠ .ok (some p) := by
    rintro x rfl hx
    cases hx
  unfold SessionEnv.authenticateUiSession at h
  dsimp only at h
  split at h
  · exact absurd h (hnone rfl)
  · obtain ⟨expected, -, h⟩ := ok_bind.mp h
    obtain ⟨same, -, h⟩ := ok_bind.mp h
    split at h
    · exact absurd h (hnone rfl)
    · split at h
      · exact absurd h (hnone rfl)
      · unfold SessionEnv.sessionPrincipal at h
        split at h
        · split at h
          · exact absurd h (hnone rfl)
          · unfold SessionEnv.principalById at h
            dsimp only at h
            split at h
            · exact absurd h (hnone rfl)
            · exact mem_of_findPrincipal h
        · exact absurd h (hnone rfl)
      · cases h

/-- **Whoever a request comes from** is in the store of now. -/
theorem mem_of_requestPrincipal {now : ℤ} {c : Credential} {p : RelayPrincipal}
    (h : requestPrincipal env store now c = .ok (some p)) : p ∈ store.tokens.map (·.2) := by
  unfold requestPrincipal at h
  dsimp only at h
  split at h
  · exact AuthStore.mem_of_authenticateToken h
  · exact mem_of_authenticateUiSession h

end Members

end KaggleRelay
