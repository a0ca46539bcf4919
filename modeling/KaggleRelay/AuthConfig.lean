/-
The operations that change the auth config.

Each reads the file, changes what it has read, and writes it back if a store
can be read from it.

* `ConfigOp` — an operation with its request, and `ConfigOp.run`;
* `Kept` — what every operation but a deletion keeps of a config;
* `run_ok` — what an operation that succeeds does to the users and the retired
  ids.
-/
import KaggleRelay.JobVisibility
import KaggleRelay.UiSession

namespace KaggleRelay

open JsonText

structure CreateKaggleKeyRequest where
  id : String
  username : String
  key : String
  apiToken : String
  configDir : String

structure UpdateKaggleKeyRequest where
  username : Option String
  key : String
  apiToken : String
  configDir : String
  enabled : Option Bool
  disabledReason : Option String

structure CreateRelayTokenRequest where
  id : String
  token : String
  allowedKaggleKeyIds : List String
  allowAllKaggleKeys : Bool
  canViewKeys : Bool

/-- `if c: raise HTTPException(status, detail)`. -/
def refuseIf (c : Prop) [Decidable c] (status : ℕ) (detail : String) : Except Exc Unit :=
  if c then .error (.http status detail) else .ok ()

theorem ok_refuseIf {c : Prop} [Decidable c] {status : ℕ} {detail : String} {u : Unit} :
    refuseIf c status detail = .ok u ↔ ¬c := by
  by_cases hc : c
  · rw [refuseIf, if_pos hc]
    exact ⟨fun h => (by cases h), fun h => absurd hc h⟩
  · rw [refuseIf, if_neg hc]
    exact ⟨fun _ => hc, fun _ => rfl⟩

/-- `require_config_admin`. -/
def requireConfigAdmin (p : RelayPrincipal) : Except Exc Unit :=
  refuseIf (p.managementAdmin = false) 403 "admin permission is required"

/-- `dict.setdefault(key, value)`. -/
def setDefault (fields : JsonObject) (key : String) (value : Json) : JsonObject :=
  if (getField fields key).isSome then fields else setField fields key value

/-- `read_auth_config`, with the lists of tokens and of keys. -/
def readAuthConfig (file : Json) : Except Exc (JsonObject × List Json × List Json) :=
  match file with
  | .obj fields =>
    let data := setDefault (setDefault fields "relay_tokens" (.arr [])) "kaggle_keys" (.arr [])
    match getOr data "relay_tokens" .null, getOr data "kaggle_keys" .null with
    | .arr tokens, .arr keys => .ok (data, tokens, keys)
    | _, _ => .error (.http 500 "auth config lists are invalid")
  | _ => .error (.http 500 "auth config must be a JSON object")

/-- `KAGGLE_USERNAME_RE.fullmatch`. -/
def isProfileSlug (username : String) : Bool :=
  username ≠ "" && username.toList.all fun c => c.isAlphanum || c == '_' || c == '-'

/-- `validate_kaggle_username`. -/
def validateKaggleUsername (username : String) : Except Exc String := do
  let username := Text.strip username
  refuseIf (username = "") 400 "kaggle username is required"
  refuseIf (isProfileSlug username = false) 400
    "kaggle username must be the profile slug from kaggle.com, not the display name"
  pure username

/-- `dict.pop(key, None)`. -/
def popField (fields : JsonObject) (key : String) : JsonObject := fields.filter fun field => field.1 != key

/-- Set a field to a text that is not empty. -/
def setText (key text : String) (fields : JsonObject) : JsonObject :=
  if text = "" then fields else setField fields key (.str text)

/-- The entry of a list with this id. -/
def hasId (r : AuthReader) (id : String) : Json → Bool
  | .obj fields => entryId r fields == id
  | _ => false

section Writers

variable (env : SessionEnv)

/-- `validate_and_write_auth_config`: the new file, and the store read from it. -/
def validateAndWriteAuthConfig (data : JsonObject) : Except Exc (Json × AuthStore) :=
  match AuthStore.fromConfig env.reader env.adminToken (.obj data) with
  | .ok store => .ok (.obj data, store)
  | .error e => if e.cls = .runtimeError then .error (.http 400 e.text) else .error e

def kgatMessage : String := "KGAT token must be provided as api_token, not key"

/-- `add_kaggle_key_config`. -/
def addKaggleKeyConfig (p : RelayPrincipal) (payload : CreateKaggleKeyRequest) (file : Json) :
    Except Exc (Json × AuthStore) := do
  requireConfigAdmin p
  let keyId := Text.strip payload.id
  let username ← validateKaggleUsername payload.username
  let key := Text.strip payload.key
  let apiToken := Text.strip payload.apiToken
  let configDir := Text.strip payload.configDir
  refuseIf (Text.startswith key.toUpper "KGAT_" = true) 400 kgatMessage
  refuseIf (key = "" ∧ apiToken = "" ∧ configDir = "") 400 "kaggle credentials are required"
  let (data, _, keys) ← readAuthConfig file
  refuseIf (keys.any (hasId env.reader keyId) = true) 409 "kaggle key id already exists"
  let entry := setText "config_dir" configDir (setText "api_token" apiToken (setText "key" key
    [("id", .str keyId), ("username", .str username)]))
  validateAndWriteAuthConfig env (setField data "kaggle_keys" (.arr (keys ++ [.obj entry])))

/-- The new fields of a key. -/
def updatedKey (keyId : String) (username : Option String) (payload : UpdateKaggleKeyRequest)
    (existing : JsonObject) : JsonObject :=
  let key := Text.strip payload.key
  let apiToken := Text.strip payload.apiToken
  let configDir := Text.strip payload.configDir
  let existing := setField existing "id" (.str keyId)
  let existing := username.elim existing fun name => setField existing "username" (.str name)
  let existing := match payload.enabled with
    | some true => popField (setField existing "enabled" (.bool true)) "disabled_reason"
    | some false =>
      let reason := payload.disabledReason.getD ""
      setField (setField existing "enabled" (.bool false)) "disabled_reason"
        (.str (if reason = "" then "disabled by administrator" else reason))
    | none =>
      match payload.disabledReason with
      | some reason =>
        if env.reader.truthy (getOr existing "enabled" (.bool true)) then existing
        else setField existing "disabled_reason" (.str reason)
      | none => existing
  if key = "" ∧ apiToken = "" ∧ configDir = "" then existing
  else setText "config_dir" configDir (setText "api_token" apiToken (setText "key" key
    (popField (popField (popField existing "key") "api_token") "config_dir")))

/-- The first entry that is there, replaced. -/
def replaceFirst (found : Json → Bool) (f : JsonObject → JsonObject) : List Json → List Json
  | [] => []
  | .obj fields :: items =>
    if found (.obj fields) then .obj (f fields) :: items else .obj fields :: replaceFirst found f items
  | item :: items => item :: replaceFirst found f items

/-- `update_kaggle_key_config`. -/
def updateKaggleKeyConfig (p : RelayPrincipal) (keyId : String) (payload : UpdateKaggleKeyRequest) (file : Json) :
    Except Exc (Json × AuthStore) := do
  requireConfigAdmin p
  let keyId := Text.strip keyId
  refuseIf (keyId = "") 400 "kaggle key id is required"
  let username ← payload.username.mapM validateKaggleUsername
  refuseIf (Text.startswith (Text.strip payload.key).toUpper "KGAT_" = true) 400 kgatMessage
  let (data, _, keys) ← readAuthConfig file
  match keys.find? (hasId env.reader keyId) with
  | some (.obj existing) => do
    let updated := updatedKey env keyId username payload existing
    let field := fun key => Text.strip (env.reader.strOr (getOr updated key (.str "")))
    refuseIf (field "key" = "" ∧ field "api_token" = "" ∧ field "config_dir" = "") 400
      "kaggle credentials are required"
    validateAndWriteAuthConfig env (setField data "kaggle_keys"
      (.arr (replaceFirst (hasId env.reader keyId) (updatedKey env keyId username payload) keys)))
  | _ => .error (.http 404 "kaggle key id not found")

def textOf? : Json → Option String
  | .str s => some s
  | _ => none

/-- The texts of `retired_relay_token_ids`. -/
def retiredTexts (data : JsonObject) : List String :=
  match getOr data "retired_relay_token_ids" (.arr []) with
  | .arr items => items.filterMap textOf?
  | _ => []

/-- `add_relay_token_config`. -/
def addRelayTokenConfig (p : RelayPrincipal) (payload : CreateRelayTokenRequest) (file : Json) :
    Except Exc (Json × AuthStore) := do
  requireConfigAdmin p
  let tokenId := Text.strip payload.id
  let token := Text.strip payload.token
  let allowedIds := (payload.allowedKaggleKeyIds.map Text.strip).filter (· ≠ "")
  refuseIf (payload.allowAllKaggleKeys = false ∧ allowedIds = []) 400 "allowed_kaggle_key_ids is required"
  let (data, tokens, _) ← readAuthConfig file
  refuseIf (tokenId ∈ retiredTexts data) 409 "retired relay token id cannot be reused"
  refuseIf (tokens.any (hasId env.reader tokenId) = true) 409 "relay token id already exists"
  let hasToken := fun (item : Json) => match item with
    | .obj fields => Text.strip (env.reader.str (getOr fields "token" (.str ""))) == token
    | _ => false
  refuseIf (tokens.any hasToken = true) 409 "relay token already exists"
  let entry : JsonObject :=
    [("id", .str tokenId), ("token", .str token),
      ("allowed_kaggle_key_ids", if payload.allowAllKaggleKeys then .str "*" else .arr (allowedIds.map .str)),
      ("can_view_keys", .bool payload.canViewKeys)]
  validateAndWriteAuthConfig env (setField data "relay_tokens" (.arr (tokens ++ [.obj entry])))

/-- The `id` of an entry is this text. -/
def idIs (tokenId : String) : Json → Bool
  | .obj fields => (getField fields "id").any (Json.isStr · tokenId)
  | _ => false

/-- `update_relay_token_permissions`. -/
def updateRelayTokenPermissions (p : RelayPrincipal) (tokenId : String) (canViewKeys : Bool) (file : Json) :
    Except Exc (Json × AuthStore) := do
  requireConfigAdmin p
  let (data, tokens, _) ← readAuthConfig file
  refuseIf (tokens.any (idIs tokenId) = false) 404 "relay token id not found"
  validateAndWriteAuthConfig env (setField data "relay_tokens" (.arr (replaceFirst (idIs tokenId)
    (fun fields => setField fields "can_view_keys" (.bool canViewKeys)) tokens)))

/-- The jobs of a user that have not ended. -/
def activeCount (rows : List Job) (tokenId : String) : ℕ :=
  rows.countP fun row => row.relayTokenId == tokenId && !row.status.terminal

/-- The config without a token, whose id is retired. -/
def withoutToken (r : AuthReader) (tokenId : String) (tokens : List Json) (data : JsonObject) : JsonObject :=
  let data := setField data "relay_tokens" (.arr (tokens.filter fun item => !hasId r tokenId item))
  let retired := (tokenId :: retiredTexts data).dedup.insertionSort (· ≤ ·)
  setField data "retired_relay_token_ids" (.arr (retired.map .str))

/-- `delete_relay_token`, on the rows of the database. -/
def deleteRelayToken (rows : List Job) (store : AuthStore) (p : RelayPrincipal) (tokenId : String) (file : Json) :
    Except Exc (Json × AuthStore) := do
  requireConfigAdmin p
  let target ← orError ((store.tokens.map (·.2)).find? (·.id == tokenId)) (.http 404 "relay token id not found")
  refuseIf (target.managementAdmin = true ∨ target.legacy = true) 403 "management credentials cannot be deleted"
  refuseIf (activeCount rows tokenId ≠ 0) 409 "user_has_active_jobs"
  let (data, tokens, _) ← readAuthConfig file
  validateAndWriteAuthConfig env (withoutToken env.reader tokenId tokens data)

end Writers

/-- An operation on the config, with its request. -/
inductive ConfigOp where
  | addKey (payload : CreateKaggleKeyRequest)
  | updateKey (keyId : String) (payload : UpdateKaggleKeyRequest)
  | addToken (payload : CreateRelayTokenRequest)
  | updatePermissions (tokenId : String) (canViewKeys : Bool)
  | deleteToken (tokenId : String)

/-- The new file and store, for the user `p` of the request. -/
def ConfigOp.run (env : SessionEnv) (rows : List Job) (store : AuthStore) (p : RelayPrincipal) (file : Json) :
    ConfigOp → Except Exc (Json × AuthStore)
  | .addKey payload => addKaggleKeyConfig env p payload file
  | .updateKey keyId payload => updateKaggleKeyConfig env p keyId payload file
  | .addToken payload => addRelayTokenConfig env p payload file
  | .updatePermissions tokenId canViewKeys => updateRelayTokenPermissions env p tokenId canViewKeys file
  | .deleteToken tokenId => deleteRelayToken env rows store p tokenId file

/-! ### What an operation changes -/

section Effects

variable {r : AuthReader} {data : JsonObject}

theorem getOr_setField (fields : JsonObject) (k j : String) (x default : Json) :
    getOr (setField fields k x) j default = if j = k then x else getOr fields j default := by
  rw [getOr, getField_setField]
  by_cases h : j = k
  · rw [if_pos h, if_pos h, Option.getD_some]
  · rw [if_neg h, if_neg h, getOr]

/-- A default changes nothing where the field is looked up with it. -/
theorem getOr_setDefault (fields : JsonObject) (k j : String) (x default : Json)
    (h : j = k → (getField fields k).isSome = true ∨ default = x) :
    getOr (setDefault fields k x) j default = getOr fields j default := by
  unfold setDefault
  split
  · rfl
  · next hnone =>
    rw [getOr_setField]
    by_cases hj : j = k
    · obtain hsome | rfl := h hj
      · exact absurd hsome hnone
      · rw [if_pos hj, getOr, hj, Option.not_isSome_iff_eq_none.mp hnone, Option.getD_none]
    · rw [if_neg hj]

theorem entryIds_setField_ne {k : String} (hk : "relay_tokens" ≠ k) (x : Json) :
    AuthStore.entryIds r (setField data k x) = AuthStore.entryIds r data := by
  rw [AuthStore.entryIds, getOr_setField, if_neg hk, AuthStore.entryIds]

theorem entryIds_setField (items : List Json) :
    AuthStore.entryIds r (setField data "relay_tokens" (.arr items)) = items.map (AuthStore.itemId r) := by
  rw [AuthStore.entryIds, getOr_setField, if_pos rfl]

theorem retiredTexts_setField_ne {k : String} (hk : "retired_relay_token_ids" ≠ k) (x : Json) :
    retiredTexts (setField data k x) = retiredTexts data := by
  rw [retiredTexts, getOr_setField, if_neg hk, retiredTexts]

theorem retiredTexts_setField (texts : List String) :
    retiredTexts (setField data "retired_relay_token_ids" (.arr (texts.map .str))) = texts := by
  rw [retiredTexts, getOr_setField, if_pos rfl]
  show (texts.map Json.str).filterMap _ = texts
  rw [List.filterMap_map]
  exact List.filterMap_some

theorem mapM_parseRetiredId {items : List Json} {ids : List String}
    (h : items.mapM AuthStore.parseRetiredId = .ok ids) : ids = (items.filterMap textOf?).map Text.strip := by
  induction items generalizing ids with
  | nil =>
    rw [List.mapM_nil] at h
    exact (ok_pure.mp h).symm
  | cons item items ih =>
    rw [List.mapM_cons] at h
    obtain ⟨id, hid, h⟩ := ok_bind.mp h
    obtain ⟨rest, hrest, h⟩ := ok_bind.mp h
    obtain rfl := ok_pure.mp h
    cases item with
    | str s =>
      rw [AuthStore.parseRetiredId] at hid
      split at hid
      · cases hid
      · rw [List.filterMap_cons_some (show textOf? (.str s) = some s from rfl), List.map_cons, ih hrest,
          Except.ok.inj hid]
    | _ => cases hid

/-- The retired ids that are read are the texts of the list, stripped. -/
theorem parseRetired_ok {retired : List String} (h : AuthStore.parseRetired data = .ok retired) :
    retired = (retiredTexts data).map Text.strip := by
  obtain ⟨items, hitems, h⟩ := ok_bind.mp h
  rw [retiredTexts, ok_asList.mp hitems]
  exact mapM_parseRetiredId h

theorem entryIds_withoutToken_of_ne {tokenId id : String} {tokens : List Json} (hne : id ≠ tokenId)
    (hid : id ∈ tokens.map (AuthStore.itemId r)) :
    id ∈ AuthStore.entryIds r (withoutToken r tokenId tokens data) := by
  rw [withoutToken, entryIds_setField_ne (by decide), entryIds_setField]
  obtain ⟨item, hitem, rfl⟩ := List.mem_map.mp hid
  refine List.mem_map_of_mem (List.mem_filter.mpr ⟨hitem, ?_⟩)
  cases item with
  | obj fields => simpa [hasId, AuthStore.itemId] using hne
  | _ => rfl

theorem mem_retiredTexts_withoutToken {tokenId text : String} {tokens : List Json} :
    text ∈ retiredTexts (withoutToken r tokenId tokens data) ↔ text = tokenId ∨ text ∈ retiredTexts data := by
  rw [withoutToken, retiredTexts_setField, List.mem_insertionSort, List.mem_dedup,
    retiredTexts_setField_ne (by decide), List.mem_cons]

theorem map_itemId_replaceFirst {found : Json → Bool} {f : JsonObject → JsonObject}
    (hf : ∀ fields, entryId r (f fields) = entryId r fields) (items : List Json) :
    (replaceFirst found f items).map (AuthStore.itemId r) = items.map (AuthStore.itemId r) := by
  induction items with
  | nil => rfl
  | cons item items ih =>
    cases item with
    | obj fields =>
      rw [replaceFirst]
      split
      · rw [List.map_cons, List.map_cons, AuthStore.itemId, AuthStore.itemId, hf]
      · rw [List.map_cons, List.map_cons, ih]
    | _ => rw [replaceFirst, List.map_cons, List.map_cons, ih]; all_goals nofun

/-- The store is the one that is read from the file. -/
def Reads (env : SessionEnv) (file : Json) (store : AuthStore) : Prop :=
  AuthStore.fromConfig env.reader env.adminToken file = .ok store

/-- The ids that may not be issued again. -/
def retiredIds : Json → List String
  | .obj data => (retiredTexts data).map Text.strip
  | _ => []

variable {env : SessionEnv} {file file' : Json} {store store' : AuthStore}

/-- The users of a file that is read. -/
theorem users_of_reads (h : Reads env (.obj data) store) :
    store.Sound ∧ (∀ id ∈ AuthStore.entryIds env.reader data, id ∉ retiredIds (.obj data)) ∧
      store.principalIds = (if env.adminToken = "" then [] else [AuthStore.managementPrincipalId]) ++
        AuthStore.entryIds env.reader data := by
  obtain ⟨hsound, data', retired, hdata, hretired, hunused, husers⟩ := AuthStore.fromConfig_ok h
  obtain rfl := Json.obj.inj hdata
  refine ⟨hsound, ?_, ?_⟩
  · rw [retiredIds, ← parseRetired_ok hretired]
    exact hunused
  · obtain ⟨hadmin, hids⟩ | ⟨hadmin, -, hids⟩ := husers
    · rw [hids, if_pos hadmin, List.nil_append]
    · rw [hids, if_neg hadmin, List.singleton_append]

theorem exists_of_reads (h : Reads env file store) : ∃ data, file = .obj data := by
  obtain ⟨-, data, -, hdata, -⟩ := AuthStore.fromConfig_ok h
  exact ⟨data, hdata⟩

/-- Whoever has an entry in both files is a user of both. -/
theorem mem_principalIds {data' : JsonObject} (h : Reads env (.obj data) store) (h' : Reads env (.obj data') store')
    {P : String → Prop}
    (hentries : ∀ id ∈ AuthStore.entryIds env.reader data, P id → id ∈ AuthStore.entryIds env.reader data') :
    ∀ id ∈ store.principalIds, P id → id ∈ store'.principalIds := by
  intro id hid hP
  rw [(users_of_reads h).2.2] at hid
  rw [(users_of_reads h').2.2]
  obtain hadmin | hentry := List.mem_append.mp hid
  · exact List.mem_append_left _ hadmin
  · exact List.mem_append_right _ (hentries id hentry hP)

theorem ok_validateAndWrite (h : validateAndWriteAuthConfig env data = .ok (file', store')) :
    file' = .obj data ∧ Reads env (.obj data) store' := by
  unfold validateAndWriteAuthConfig at h
  split at h
  · next hreads =>
    obtain ⟨rfl, rfl⟩ := Prod.mk.inj (Except.ok.inj h)
    exact ⟨rfl, hreads⟩
  · split at h <;> cases h

/-- What is read of a file from which a store can be read. -/
theorem ok_readAuthConfig {fields : JsonObject} {tokens keys : List Json}
    (h : readAuthConfig (.obj fields) = .ok (data, tokens, keys)) (hreads : Reads env (.obj fields) store) :
    AuthStore.entryIds env.reader fields = tokens.map (AuthStore.itemId env.reader) ∧
      AuthStore.entryIds env.reader data = AuthStore.entryIds env.reader fields ∧
      retiredTexts data = retiredTexts fields := by
  have htokens : (getField fields "relay_tokens").isSome = true := by
    by_contra hnone
    obtain ⟨data', hdata, hrest⟩ := ok_bind.mp hreads
    obtain rfl := Json.obj.inj (ok_asObject.mp hdata)
    obtain ⟨_, -, hrest⟩ := ok_bind.mp hrest
    obtain ⟨items, hitems, -⟩ := ok_bind.mp hrest
    rw [getOr, Option.not_isSome_iff_eq_none.mp hnone] at hitems
    cases hitems
  have hentries : AuthStore.entryIds env.reader
      (setDefault (setDefault fields "relay_tokens" (.arr [])) "kaggle_keys" (.arr [])) =
        AuthStore.entryIds env.reader fields := by
    rw [AuthStore.entryIds, getOr_setDefault _ _ _ _ _ (by simp), getOr_setDefault _ _ _ _ _ fun _ => .inl htokens,
      AuthStore.entryIds]
  have hretired : retiredTexts (setDefault (setDefault fields "relay_tokens" (.arr [])) "kaggle_keys" (.arr [])) =
      retiredTexts fields := by
    rw [retiredTexts, getOr_setDefault _ _ _ _ _ (by simp), getOr_setDefault _ _ _ _ _ (by simp), retiredTexts]
  simp only [readAuthConfig] at h
  split at h
  · next tokens' keys' hlist _ =>
    obtain ⟨rfl, hlists⟩ := Prod.mk.inj (Except.ok.inj h)
    obtain ⟨rfl, rfl⟩ := Prod.mk.inj hlists
    refine ⟨?_, hentries, hretired⟩
    rw [← hentries, AuthStore.entryIds, hlist]
  · cases h

/-- What an operation that succeeds does to the users. -/
def ConfigOp.Effect (rows : List Job) (file' : Json) (store store' : AuthStore) : ConfigOp → Prop
  | .deleteToken id => activeCount rows id = 0 ∧ id ∈ store.principalIds ∧ id ∈ retiredIds file' ∧
      id ∉ store'.principalIds ∧ ∀ x ∈ store.principalIds, x ≠ id → x ∈ store'.principalIds
  | _ => ∀ x ∈ store.principalIds, x ∈ store'.principalIds

variable {rows : List Job} {p : RelayPrincipal}

/-- A writer that sets the keys only. -/
theorem kept_of_setKeys {fields : JsonObject} {tokens keys : List Json} {items : Json}
    (hreads : Reads env (.obj fields) store) (hread : readAuthConfig (.obj fields) = .ok (data, tokens, keys))
    (h : validateAndWriteAuthConfig env (setField data "kaggle_keys" items) = .ok (file', store')) :
    Reads env file' store' ∧ retiredIds file' = retiredIds (.obj fields) ∧
      ∀ x ∈ store.principalIds, x ∈ store'.principalIds := by
  obtain ⟨rfl, hreads'⟩ := ok_validateAndWrite h
  obtain ⟨-, hentries, hretired⟩ := ok_readAuthConfig hread hreads
  refine ⟨hreads', ?_, fun x hx => mem_principalIds (P := fun _ => True) hreads hreads' ?_ x hx trivial⟩
  · rw [retiredIds, retiredTexts_setField_ne (by decide), hretired, retiredIds]
  · intro id hid _
    rw [entryIds_setField_ne (by decide), hentries]
    exact hid

/-- A writer that sets the tokens to a list with all the ids there were. -/
theorem kept_of_setTokens {fields : JsonObject} {tokens keys items : List Json}
    (hreads : Reads env (.obj fields) store) (hread : readAuthConfig (.obj fields) = .ok (data, tokens, keys))
    (hitems : ∀ id ∈ tokens.map (AuthStore.itemId env.reader), id ∈ items.map (AuthStore.itemId env.reader))
    (h : validateAndWriteAuthConfig env (setField data "relay_tokens" (.arr items)) = .ok (file', store')) :
    Reads env file' store' ∧ retiredIds file' = retiredIds (.obj fields) ∧
      ∀ x ∈ store.principalIds, x ∈ store'.principalIds := by
  obtain ⟨rfl, hreads'⟩ := ok_validateAndWrite h
  obtain ⟨htokens, -, hretired⟩ := ok_readAuthConfig hread hreads
  refine ⟨hreads', ?_, fun x hx => mem_principalIds (P := fun _ => True) hreads hreads' ?_ x hx trivial⟩
  · rw [retiredIds, retiredTexts_setField_ne (by decide), hretired, retiredIds]
  · intro id hid _
    rw [entryIds_setField]
    exact hitems id (htokens ▸ hid)

theorem addKaggleKeyConfig_ok {payload : CreateKaggleKeyRequest} (hreads : Reads env file store)
    (h : addKaggleKeyConfig env p payload file = .ok (file', store')) :
    Reads env file' store' ∧ retiredIds file' = retiredIds file ∧
      ∀ x ∈ store.principalIds, x ∈ store'.principalIds := by
  obtain ⟨fields, rfl⟩ := exists_of_reads hreads
  obtain ⟨_, -, h⟩ := ok_bind.mp h
  obtain ⟨username, -, h⟩ := ok_bind.mp h
  obtain ⟨_, -, h⟩ := ok_bind.mp h
  obtain ⟨_, -, h⟩ := ok_bind.mp h
  obtain ⟨⟨data, tokens, keys⟩, hread, h⟩ := ok_bind.mp h
  obtain ⟨_, -, h⟩ := ok_bind.mp h
  exact kept_of_setKeys hreads hread h

theorem updateKaggleKeyConfig_ok {keyId : String} {payload : UpdateKaggleKeyRequest} (hreads : Reads env file store)
    (h : updateKaggleKeyConfig env p keyId payload file = .ok (file', store')) :
    Reads env file' store' ∧ retiredIds file' = retiredIds file ∧
      ∀ x ∈ store.principalIds, x ∈ store'.principalIds := by
  obtain ⟨fields, rfl⟩ := exists_of_reads hreads
  obtain ⟨_, -, h⟩ := ok_bind.mp h
  obtain ⟨_, -, h⟩ := ok_bind.mp h
  obtain ⟨username, -, h⟩ := ok_bind.mp h
  obtain ⟨_, -, h⟩ := ok_bind.mp h
  obtain ⟨⟨data, tokens, keys⟩, hread, h⟩ := ok_bind.mp h
  dsimp only at h
  split at h
  · obtain ⟨_, -, h⟩ := ok_bind.mp h
    exact kept_of_setKeys hreads hread h
  · cases h

theorem addRelayTokenConfig_ok {payload : CreateRelayTokenRequest} (hreads : Reads env file store)
    (h : addRelayTokenConfig env p payload file = .ok (file', store')) :
    Reads env file' store' ∧ retiredIds file' = retiredIds file ∧
      ∀ x ∈ store.principalIds, x ∈ store'.principalIds := by
  obtain ⟨fields, rfl⟩ := exists_of_reads hreads
  obtain ⟨_, -, h⟩ := ok_bind.mp h
  obtain ⟨_, -, h⟩ := ok_bind.mp h
  obtain ⟨⟨data, tokens, keys⟩, hread, h⟩ := ok_bind.mp h
  obtain ⟨_, -, h⟩ := ok_bind.mp h
  obtain ⟨_, -, h⟩ := ok_bind.mp h
  obtain ⟨_, -, h⟩ := ok_bind.mp h
  refine kept_of_setTokens hreads hread ?_ h
  intro id hid
  rw [List.map_append]
  exact List.mem_append_left _ hid

theorem updateRelayTokenPermissions_ok {tokenId : String} {canViewKeys : Bool} (hreads : Reads env file store)
    (h : updateRelayTokenPermissions env p tokenId canViewKeys file = .ok (file', store')) :
    Reads env file' store' ∧ retiredIds file' = retiredIds file ∧
      ∀ x ∈ store.principalIds, x ∈ store'.principalIds := by
  obtain ⟨fields, rfl⟩ := exists_of_reads hreads
  obtain ⟨_, -, h⟩ := ok_bind.mp h
  obtain ⟨⟨data, tokens, keys⟩, hread, h⟩ := ok_bind.mp h
  obtain ⟨_, -, h⟩ := ok_bind.mp h
  refine kept_of_setTokens hreads hread ?_ h
  intro id hid
  rw [map_itemId_replaceFirst]
  · exact hid
  · intro fields
    rw [entryId, getOr_setField, if_neg (by decide), entryId]

/-- The user that is found is not the one of the management key. -/
theorem ne_management_of_find (hreads : Reads env file store) {tokenId : String} {target : RelayPrincipal}
    (htarget : (store.tokens.map (·.2)).find? (·.id == tokenId) = some target)
    (hordinary : target.managementAdmin = false) (hadmin : env.adminToken ≠ "") :
    tokenId ≠ AuthStore.managementPrincipalId := by
  rintro rfl
  obtain ⟨-, data, retired, -, -, -, ⟨hnone, -⟩ | ⟨-, hhead, -⟩⟩ := AuthStore.fromConfig_ok hreads
  · exact hadmin hnone
  · obtain ⟨rest, hrest⟩ := List.head?_eq_some_iff.mp hhead
    have hfirst : AuthStore.management = target := by
      rw [hrest, List.map_cons] at htarget
      exact Option.some.inj htarget
    rw [← hfirst] at hordinary
    cases hordinary

/-- A token that is deleted is retired, and its user is gone. -/
theorem deleteRelayToken_ok {tokenId : String} (hreads : Reads env file store)
    (h : deleteRelayToken env rows store p tokenId file = .ok (file', store')) :
    Reads env file' store' ∧ (∀ id ∈ retiredIds file, id ∈ retiredIds file') ∧
      (ConfigOp.deleteToken tokenId).Effect rows file' store store' := by
  obtain ⟨fields, rfl⟩ := exists_of_reads hreads
  obtain ⟨_, -, h⟩ := ok_bind.mp h
  obtain ⟨target, htarget, h⟩ := ok_bind.mp h
  obtain ⟨_, hordinary, h⟩ := ok_bind.mp h
  obtain ⟨_, hcount, h⟩ := ok_bind.mp h
  obtain ⟨⟨data, tokens, keys⟩, hread, h⟩ := ok_bind.mp h
  obtain ⟨rfl, hreads'⟩ := ok_validateAndWrite h
  obtain ⟨htokens, -, hretired⟩ := ok_readAuthConfig hread hreads
  obtain ⟨hsound, -, -⟩ := users_of_reads hreads
  obtain ⟨-, hunused, hids⟩ := users_of_reads hreads'
  have hfound := ok_orError.mp htarget
  have hadmin : target.managementAdmin = false := by
    simpa using fun hadmin => ok_refuseIf.mp hordinary (.inl hadmin)
  obtain ⟨t, ht, rfl⟩ := List.mem_map.mp (List.mem_of_find?_eq_some hfound)
  have hid : t.2.id = tokenId := by simpa using List.find?_some hfound
  have hgone : tokenId ∈ retiredIds (.obj (withoutToken env.reader tokenId tokens data)) := by
    have hmem : Text.strip tokenId ∈ retiredIds (.obj (withoutToken env.reader tokenId tokens data)) :=
      List.mem_map_of_mem (mem_retiredTexts_withoutToken.mpr (.inl rfl))
    rwa [← hid, (hsound.principals t ht).2.2, hid] at hmem
  refine ⟨hreads', ?_, not_not.mp (ok_refuseIf.mp hcount), hid ▸ List.mem_map_of_mem ht, hgone, ?_, ?_⟩
  · intro id hmem
    obtain ⟨text, htext, rfl⟩ := List.mem_map.mp hmem
    exact List.mem_map_of_mem (mem_retiredTexts_withoutToken.mpr (.inr (hretired ▸ htext)))
  · rw [hids]
    intro hmem
    obtain hmanagement | hentry := List.mem_append.mp hmem
    · split at hmanagement
      · exact List.not_mem_nil hmanagement
      · next hset => exact ne_management_of_find hreads hfound hadmin hset (List.mem_singleton.mp hmanagement)
    · exact hunused _ hentry hgone
  · refine mem_principalIds hreads hreads' fun id hentry hne => ?_
    exact entryIds_withoutToken_of_ne hne (htokens ▸ hentry)

/-- **What an operation does** that succeeds: the new store is read from the new
file, retired ids stay retired, and only a deletion takes a user away. -/
theorem run_ok {op : ConfigOp} (hreads : Reads env file store)
    (h : op.run env rows store p file = .ok (file', store')) :
    Reads env file' store' ∧ (∀ id ∈ retiredIds file, id ∈ retiredIds file') ∧ op.Effect rows file' store store' := by
  cases op with
  | addKey payload =>
    obtain ⟨hreads', hretired, hkept⟩ := addKaggleKeyConfig_ok hreads h
    exact ⟨hreads', fun id hid => hretired ▸ hid, hkept⟩
  | updateKey keyId payload =>
    obtain ⟨hreads', hretired, hkept⟩ := updateKaggleKeyConfig_ok hreads h
    exact ⟨hreads', fun id hid => hretired ▸ hid, hkept⟩
  | addToken payload =>
    obtain ⟨hreads', hretired, hkept⟩ := addRelayTokenConfig_ok hreads h
    exact ⟨hreads', fun id hid => hretired ▸ hid, hkept⟩
  | updatePermissions tokenId canViewKeys =>
    obtain ⟨hreads', hretired, hkept⟩ := updateRelayTokenPermissions_ok hreads h
    exact ⟨hreads', fun id hid => hretired ▸ hid, hkept⟩
  | deleteToken tokenId => exact deleteRelayToken_ok hreads h

end Effects

end KaggleRelay
