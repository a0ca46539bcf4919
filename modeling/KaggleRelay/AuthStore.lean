/-
Relay tokens, Kaggle keys, and the store that an auth config is read into.

* `AuthStore.fromConfig` — `AuthStore.from_file`, on the parsed file;
* `authenticateToken`, `allowedKeyIds`, `canAccessKey` — what the store answers;
* `AuthStore.Sound` — what holds of every store that a file is read into;
* `fromConfig_ok` — reading establishes it, and says who is in the store.
-/
import Mathlib.Data.List.Dedup
import KaggleRelay.PythonValues

namespace KaggleRelay

open JsonText

/-- The credentials of a Kaggle account. -/
structure KaggleCredentials where
  id : String
  username : String
  key : String
  apiToken : String
  configDir : String
  enabled : Bool
  disabledReason : String

/-- A user of the relay. -/
structure RelayPrincipal where
  id : String
  /-- `none` is every key. -/
  allowedKaggleKeyIds : Option (List String)
  legacy : Bool
  managementAdmin : Bool
  viewKeys : Bool

namespace RelayPrincipal

variable (p : RelayPrincipal)

def allowAllKeys : Bool := p.allowedKaggleKeyIds.isNone

def allowsKey (kaggleKeyId : String) : Bool :=
  if p.legacy then kaggleKeyId == ""
  else match p.allowedKaggleKeyIds with
    | none => true
    | some allowed => allowed.contains kaggleKeyId

end RelayPrincipal

/-- `_kaggle_keys`, and `_tokens` with the user of each. -/
structure AuthStore where
  legacy : Bool
  kaggleKeys : List KaggleCredentials
  tokens : List (String × RelayPrincipal)

def isAscii (s : String) : Bool := s.toList.all (·.toNat < 128)

/-- `hmac.compare_digest` of two texts. -/
def compareDigest (a b : String) : Except Exc Bool :=
  if isAscii a && isAscii b then .ok (a == b)
  else .error (.typeError "comparing strings with non-ASCII characters is not supported")

/-- `bearer_token`. -/
def bearerToken (authorization : String) : String :=
  if Text.startswith authorization "Bearer " then
    Text.strip (String.ofList (authorization.toList.drop 7))
  else ""

/-- How the values of a config are printed. -/
structure AuthReader extends Reader where
  /-- `str(value)` of a value that is no text. -/
  text : Json → String

namespace AuthReader

variable (r : AuthReader)

/-- `str(value)`. -/
def str : Json → String
  | .str s => s
  | value => r.text value

/-- `str(value or "")`. -/
def strOr (value : Json) : String := if r.truthy value then r.str value else ""

end AuthReader

/-- `fields.get(key, default)`. -/
def getOr (fields : JsonObject) (key : String) (default : Json) : Json := (getField fields key).getD default

/-- `str(fields.get("id", "")).strip()`. -/
def entryId (r : AuthReader) (fields : JsonObject) : String :=
  Text.strip (r.str (getOr fields "id" (.str "")))

/-! ### Reading a config -/

/-- `AuthConfigError(text)`. -/
def Exc.authConfig (text : String) : Exc := ⟨.runtimeError, text⟩

/-- `if not c: raise AuthConfigError(message)`. -/
def requireConfig (c : Prop) [Decidable c] (message : String) : Except Exc Unit :=
  if c then .ok () else .error (.authConfig message)

theorem ok_requireConfig {c : Prop} [Decidable c] {message : String} {u : Unit} :
    requireConfig c message = .ok u ↔ c := by
  by_cases hc : c
  · rw [requireConfig, if_pos hc]
    exact ⟨fun _ => hc, fun _ => rfl⟩
  · rw [requireConfig, if_neg hc]
    exact ⟨fun h => (by cases h), fun h => (hc h).elim⟩

def asObject (value : Json) (message : String) : Except Exc JsonObject :=
  match value with
  | .obj fields => .ok fields
  | _ => .error (.authConfig message)

def asList (value : Json) (message : String) : Except Exc (List Json) :=
  match value with
  | .arr items => .ok items
  | _ => .error (.authConfig message)

def asBool (value : Json) (message : String) : Except Exc Bool :=
  match value with
  | .bool b => .ok b
  | _ => .error (.authConfig message)

theorem ok_asObject {value : Json} {message : String} {fields : JsonObject} :
    asObject value message = .ok fields ↔ value = .obj fields := by
  cases value <;> simp [asObject]

theorem ok_asList {value : Json} {message : String} {items : List Json} :
    asList value message = .ok items ↔ value = .arr items := by
  cases value <;> simp [asList]

namespace AuthStore

variable (r : AuthReader)

/-- One entry of `kaggle_keys`; `known` are the ids before it. -/
def parseKaggleKey (known : List String) (item : Json) : Except Exc KaggleCredentials := do
  let fields ← asObject item "each kaggle_keys entry must be an object"
  let keyId := entryId r fields
  requireConfig (keyId ≠ "") "each kaggle key requires an id"
  requireConfig (keyId ∉ known) ("duplicate kaggle key id: " ++ keyId)
  let enabled ← asBool (getOr fields "enabled" (.bool true))
    ("kaggle key " ++ keyId ++ " enabled must be a boolean")
  let field := fun key => Text.strip (r.strOr (getOr fields key (.str "")))
  let credentials : KaggleCredentials :=
    { id := keyId, username := field "username", key := field "key", apiToken := field "api_token"
      configDir := field "config_dir", enabled, disabledReason := field "disabled_reason" }
  requireConfig (credentials.username ≠ "" ∧ credentials.key ≠ "" ∨ credentials.apiToken ≠ "" ∨
      credentials.configDir ≠ "")
    ("kaggle key " ++ keyId ++ " requires username/key, api_token, or config_dir")
  pure credentials

/-- The loop of `_parse_kaggle_keys`. -/
def parseKeyItems : List KaggleCredentials → List Json → Except Exc (List KaggleCredentials)
  | result, [] => .ok result
  | result, item :: items => do
    let credentials ← parseKaggleKey r (result.map (·.id)) item
    parseKeyItems (result ++ [credentials]) items

/-- `_parse_kaggle_keys`. -/
def parseKaggleKeys (raw : Json) : Except Exc (List KaggleCredentials) := do
  let items ← asList raw "RELAY_AUTH_CONFIG requires a non-empty kaggle_keys list"
  requireConfig (items ≠ []) "RELAY_AUTH_CONFIG requires a non-empty kaggle_keys list"
  parseKeyItems r [] items

/-- A relay token as the config has it. -/
structure RelayToken where
  id : String
  token : String
  /-- `none` is every key. -/
  allowed : Option (List String)

/-- The keys a token is allowed. -/
def parseAllowed (tokenId : String) (known : List String) : Json → Except Exc (Option (List String))
  | .str "*" => .ok none
  | .arr (item :: items) => do
    let allowed := ((item :: items).map fun value => Text.strip (r.str value)).filter (· ≠ "")
    requireConfig (allowed ≠ []) ("relay token " ++ tokenId ++ " has no allowed kaggle keys")
    let unknown := (allowed.filter (· ∉ known)).dedup.insertionSort (· ≤ ·)
    requireConfig (unknown = [])
      ("relay token " ++ tokenId ++ " references unknown kaggle keys: " ++ ", ".intercalate unknown)
    pure (some allowed.dedup)
  | _ => .error (.authConfig
      ("relay token " ++ tokenId ++ " requires allowed_kaggle_key_ids as '*' or a non-empty list"))

/-- One entry of `relay_tokens`, after the entries `seen`. -/
def parseRelayToken (known : List String) (seen : List RelayToken) (item : Json) : Except Exc RelayToken := do
  let fields ← asObject item "each relay_tokens entry must be an object"
  let tokenId := entryId r fields
  let token := Text.strip (r.strOr (getOr fields "token" (.str "")))
  requireConfig (tokenId ≠ "") "each relay token requires an id"
  requireConfig (token ≠ "") ("relay token " ++ tokenId ++ " requires a token")
  requireConfig (tokenId ∉ seen.map (·.id)) ("duplicate relay token id: " ++ tokenId)
  requireConfig (token ∉ seen.map (·.token)) ("duplicate relay token value for id: " ++ tokenId)
  let allowed ← parseAllowed r tokenId known (getOr fields "allowed_kaggle_key_ids" .null)
  pure ⟨tokenId, token, allowed⟩

/-- The loop of `_parse_relay_tokens`. -/
def parseTokenItems (known : List String) : List RelayToken → List Json → Except Exc (List RelayToken)
  | result, [] => .ok result
  | result, item :: items => do
    let token ← parseRelayToken r known result item
    parseTokenItems known (result ++ [token]) items

def retiredMessage : String := "retired_relay_token_ids must be a list of non-empty strings"

def parseRetiredId : Json → Except Exc String
  | .str s => if Text.strip s = "" then .error (.authConfig retiredMessage) else .ok (Text.strip s)
  | _ => .error (.authConfig retiredMessage)

/-- `retired_relay_token_ids`, stripped. -/
def parseRetired (data : JsonObject) : Except Exc (List String) := do
  let items ← asList (getOr data "retired_relay_token_ids" (.arr [])) retiredMessage
  items.mapM parseRetiredId

/-- The ids of the entries with `can_view_keys`. -/
def keyViewerIds : List Json → Except Exc (List String)
  | [] => .ok []
  | item :: items => do
    let fields ← asObject item "each relay_tokens entry must be an object"
    let canView ← asBool (getOr fields "can_view_keys" (.bool false)) "can_view_keys must be a boolean"
    let ids ← keyViewerIds items
    pure (if canView then entryId r fields :: ids else ids)

/-- The token of one of the entries is `adminToken`. -/
def isTaken (adminToken : String) : List RelayToken → Except Exc Bool
  | [] => .ok false
  | t :: ts => do
    let same ← compareDigest adminToken t.token
    if same then pure true else isTaken adminToken ts

/-- `MANAGEMENT_PRINCIPAL_ID`. -/
def managementPrincipalId : String := "management-key"

/-- The user of the management key. -/
def management : RelayPrincipal where
  id := managementPrincipalId
  allowedKaggleKeyIds := none
  legacy := false
  managementAdmin := true
  viewKeys := false

/-- The user of a relay token. -/
def principalOf (adminToken : String) (viewers : List String) (t : RelayToken) : RelayPrincipal where
  id := t.id
  allowedKaggleKeyIds := t.allowed
  legacy := false
  managementAdmin := adminToken == "" && t.allowed.isNone
  viewKeys := viewers.contains t.id

/-- The users with their tokens, the management key first. -/
def tokenTable (adminToken : String) (viewers : List String) (relayTokens : List RelayToken) :
    Except Exc (List (String × RelayPrincipal)) := do
  let tokens := relayTokens.map fun t => (t.token, principalOf adminToken viewers t)
  if adminToken = "" then .ok tokens
  else do
    requireConfig (8 ≤ adminToken.length) "RELAY_ADMIN_TOKEN must be at least 8 characters"
    requireConfig (managementPrincipalId ∉ relayTokens.map (·.id))
      "relay token id management-key is reserved when RELAY_ADMIN_TOKEN is set"
    let taken ← isTaken adminToken relayTokens
    requireConfig (taken = false) "RELAY_ADMIN_TOKEN must differ from every relay token"
    pure ((adminToken, management) :: tokens)

/-- `AuthStore.from_file` on the parsed file; `adminToken` is stripped, as the
settings hold it. -/
def fromConfig (adminToken : String) (data : Json) : Except Exc AuthStore := do
  let data ← asObject data "RELAY_AUTH_CONFIG must be a JSON object"
  let kaggleKeys ← parseKaggleKeys r (getOr data "kaggle_keys" .null)
  let items ← asList (getOr data "relay_tokens" .null) "RELAY_AUTH_CONFIG requires a non-empty relay_tokens list"
  requireConfig (items ≠ [] ∨ adminToken ≠ "") "RELAY_AUTH_CONFIG requires a non-empty relay_tokens list"
  let relayTokens ← parseTokenItems r (kaggleKeys.map (·.id)) [] items
  let retired ← parseRetired data
  requireConfig (∀ t ∈ relayTokens, t.id ∉ retired) "retired relay token ids cannot be reused"
  let viewers ← keyViewerIds r items
  let tokens ← tokenTable adminToken viewers relayTokens
  pure ⟨false, kaggleKeys, tokens⟩

/-- The store of a relay without an auth config. -/
def legacyStore (apiToken : String) : AuthStore where
  legacy := true
  kaggleKeys := []
  tokens := [(apiToken, ⟨"legacy", some [""], true, false, false⟩)]

/-! ### What the store answers -/

section Answers

variable (store : AuthStore)

/-- `_kaggle_keys.get(key)`. -/
def credentials? (key : String) : Option KaggleCredentials := store.kaggleKeys.find? (·.id == key)

/-- The key is in the store, and enabled or not looked at. -/
def usable (includeDisabled : Bool) (key : String) : Bool :=
  (store.credentials? key).any fun k => includeDisabled || k.enabled

def allowedKeyIds (p : RelayPrincipal) (includeDisabled : Bool) : List String :=
  if store.legacy then [""]
  else
    let allowed := p.allowedKaggleKeyIds.getD (store.kaggleKeys.map (·.id))
    (allowed.filter (store.usable includeDisabled)).insertionSort (· ≤ ·)

/-- The loop of `authenticate_token`. -/
def findToken (token : String) : List (String × RelayPrincipal) → Except Exc (Option RelayPrincipal)
  | [] => .ok none
  | (expected, p) :: rest => do
    let same ← compareDigest token expected
    if same then pure (some p) else findToken token rest

def authenticateToken (token : String) : Except Exc (Option RelayPrincipal) :=
  if token = "" then .ok none else findToken token store.tokens

/-- The ids of the users. -/
def principalIds : List String := store.tokens.map (·.2.id)

end Answers

/-- `can_access_key`: the store itself is not asked. -/
def canAccessKey (_store : AuthStore) (p : RelayPrincipal) (kaggleKeyId : String) : Bool :=
  p.allowsKey (Text.strip kaggleKeyId)

theorem mem_allowedKeyIds {store : AuthStore} (hlegacy : store.legacy = false) {p : RelayPrincipal} {b : Bool}
    {key : String} : key ∈ store.allowedKeyIds p b ↔
      key ∈ p.allowedKaggleKeyIds.getD (store.kaggleKeys.map (·.id)) ∧ store.usable b key = true := by
  rw [allowedKeyIds, hlegacy, if_neg (by decide), List.mem_insertionSort, List.mem_filter]

theorem mem_of_findToken {token : String} {tokens : List (String × RelayPrincipal)} {p : RelayPrincipal}
    (h : findToken token tokens = .ok (some p)) : p ∈ tokens.map (·.2) := by
  induction tokens with
  | nil => cases h
  | cons t rest ih =>
    obtain ⟨same, -, hrest⟩ := ok_bind.mp h
    cases same with
    | true => exact Option.some.inj (Except.ok.inj hrest) ▸ List.mem_cons_self
    | false => exact List.mem_cons_of_mem _ (ih hrest)

/-- Whoever a token authenticates is in the store. -/
theorem mem_of_authenticateToken {store : AuthStore} {token : String} {p : RelayPrincipal}
    (h : store.authenticateToken token = .ok (some p)) : p ∈ store.tokens.map (·.2) := by
  rw [authenticateToken] at h
  split at h
  · cases h
  · exact mem_of_findToken h

/-! ### What is accepted -/

/-- A text that is stripped, and not empty. -/
def Solid (s : String) : Prop := s ≠ "" ∧ Text.strip s = s

theorem solid_entryId {r : AuthReader} {fields : JsonObject} (h : entryId r fields ≠ "") :
    Solid (entryId r fields) :=
  ⟨h, Text.strip_strip _⟩

/-- What holds of every store that a file is read into. -/
structure Sound (store : AuthStore) : Prop where
  legacy : store.legacy = false
  keys : ∀ k ∈ store.kaggleKeys, Solid k.id
  keys_nodup : (store.kaggleKeys.map (·.id)).Nodup
  principals : ∀ t ∈ store.tokens, t.2.legacy = false ∧ Solid t.2.id
  principals_nodup : store.principalIds.Nodup
  allowed : ∀ t ∈ store.tokens, ∀ allowed, t.2.allowedKaggleKeyIds = some allowed →
    ∀ key ∈ allowed, key ∈ store.kaggleKeys.map (·.id)

section Parse

variable {r : AuthReader}

theorem parseKaggleKey_ok {known : List String} {item : Json} {k : KaggleCredentials}
    (h : parseKaggleKey r known item = .ok k) : Solid k.id ∧ k.id ∉ known := by
  obtain ⟨fields, -, h⟩ := ok_bind.mp h
  obtain ⟨_, hne, h⟩ := ok_bind.mp h
  obtain ⟨_, hnew, h⟩ := ok_bind.mp h
  obtain ⟨enabled, -, h⟩ := ok_bind.mp h
  obtain ⟨_, -, h⟩ := ok_bind.mp h
  obtain rfl := ok_pure.mp h
  exact ⟨solid_entryId (ok_requireConfig.mp hne), ok_requireConfig.mp hnew⟩

/-- A list of entries whose ids are solid, and all different. -/
theorem parseKeyItems_ok {items : List Json} {result keys : List KaggleCredentials}
    (h : parseKeyItems r result items = .ok keys) (hsolid : ∀ k ∈ result, Solid k.id)
    (hnodup : (result.map (·.id)).Nodup) :
    (∀ k ∈ keys, Solid k.id) ∧ (keys.map (·.id)).Nodup := by
  induction items generalizing result with
  | nil =>
    obtain rfl := Except.ok.inj h
    exact ⟨hsolid, hnodup⟩
  | cons item items ih =>
    obtain ⟨k, hk, hrest⟩ := ok_bind.mp h
    obtain ⟨hid, hnew⟩ := parseKaggleKey_ok hk
    refine ih hrest ?_ ?_
    · intro k' hk'
      obtain hold | hlast := List.mem_append.mp hk'
      · exact hsolid k' hold
      · rw [List.mem_singleton.mp hlast]
        exact hid
    · rw [List.map_append, List.nodup_append']
      refine ⟨hnodup, List.nodup_singleton _, ?_⟩
      intro id hid hmem
      rw [List.mem_singleton.mp hmem] at hid
      exact hnew hid

theorem known_of_sorted {allowed known : List String}
    (h : (allowed.filter (· ∉ known)).dedup.insertionSort (· ≤ ·) = []) : ∀ key ∈ allowed, key ∈ known := by
  intro key hkey
  by_contra hunknown
  have hmem : key ∈ allowed.filter (· ∉ known) := List.mem_filter.mpr ⟨hkey, decide_eq_true hunknown⟩
  have hsorted := (List.mem_insertionSort (· ≤ ·)).mpr (List.mem_dedup.mpr hmem)
  rw [h] at hsorted
  exact List.not_mem_nil hsorted

theorem parseAllowed_ok {tokenId : String} {known : List String} {value : Json} {allowed : List String}
    (h : parseAllowed r tokenId known value = .ok (some allowed)) : ∀ key ∈ allowed, key ∈ known := by
  unfold parseAllowed at h
  split at h
  · cases h
  · obtain ⟨_, -, h⟩ := ok_bind.mp h
    obtain ⟨_, hknown, h⟩ := ok_bind.mp h
    obtain rfl := Option.some.inj (ok_pure.mp h)
    intro key hkey
    exact known_of_sorted (ok_requireConfig.mp hknown) key (List.mem_dedup.mp hkey)
  · cases h

theorem parseRelayToken_ok {known : List String} {seen : List RelayToken} {item : Json} {t : RelayToken}
    (h : parseRelayToken r known seen item = .ok t) :
    (∃ fields, item = .obj fields ∧ t.id = entryId r fields) ∧ Solid t.id ∧ t.id ∉ seen.map (·.id) ∧
      ∀ allowed, t.allowed = some allowed → ∀ key ∈ allowed, key ∈ known := by
  obtain ⟨fields, hfields, h⟩ := ok_bind.mp h
  obtain ⟨_, hne, h⟩ := ok_bind.mp h
  obtain ⟨_, -, h⟩ := ok_bind.mp h
  obtain ⟨_, hnew, h⟩ := ok_bind.mp h
  obtain ⟨_, -, h⟩ := ok_bind.mp h
  obtain ⟨allowed, hallowed, h⟩ := ok_bind.mp h
  obtain rfl := ok_pure.mp h
  refine ⟨⟨fields, ok_asObject.mp hfields, rfl⟩, solid_entryId (ok_requireConfig.mp hne),
    ok_requireConfig.mp hnew, ?_⟩
  intro allowed' hsome
  rw [show allowed = some allowed' from hsome] at hallowed
  exact parseAllowed_ok hallowed

/-- `str(item.get("id", "")).strip()` of an entry. -/
def itemId (r : AuthReader) : Json → String
  | .obj fields => entryId r fields
  | _ => ""

/-- The tokens of the entries, in their order. -/
theorem parseTokenItems_ok {known : List String} {items : List Json} {result tokens : List RelayToken}
    (h : parseTokenItems r known result items = .ok tokens) :
    tokens.map (·.id) = result.map (·.id) ++ items.map (itemId r) ∧
      ∀ P : RelayToken → Prop, (∀ t ∈ result, P t) →
        (∀ seen item t, parseRelayToken r known seen item = .ok t → P t) → ∀ t ∈ tokens, P t := by
  induction items generalizing result with
  | nil =>
    obtain rfl := Except.ok.inj h
    exact ⟨by rw [List.map_nil, List.append_nil], fun P hresult _ => hresult⟩
  | cons item items ih =>
    obtain ⟨t, ht, hrest⟩ := ok_bind.mp h
    obtain ⟨hids, hall⟩ := ih hrest
    obtain ⟨⟨fields, rfl, hid⟩, -⟩ := parseRelayToken_ok ht
    refine ⟨?_, fun P hresult hparse => hall P ?_ hparse⟩
    · rw [hids, List.map_append, List.append_assoc, List.map_singleton, hid]
      rfl
    · intro t' ht'
      obtain hold | hlast := List.mem_append.mp ht'
      · exact hresult t' hold
      · rw [List.mem_singleton.mp hlast]
        exact hparse _ _ _ ht

theorem parseTokenItems_nodup {known : List String} {items : List Json} {result tokens : List RelayToken}
    (h : parseTokenItems r known result items = .ok tokens) (hnodup : (result.map (·.id)).Nodup) :
    (tokens.map (·.id)).Nodup := by
  induction items generalizing result with
  | nil =>
    obtain rfl := Except.ok.inj h
    exact hnodup
  | cons item items ih =>
    obtain ⟨t, ht, hrest⟩ := ok_bind.mp h
    obtain ⟨-, -, hnew, -⟩ := parseRelayToken_ok ht
    refine ih hrest ?_
    rw [List.map_append, List.nodup_append']
    refine ⟨hnodup, List.nodup_singleton _, ?_⟩
    intro id hid hmem
    rw [List.mem_singleton.mp hmem] at hid
    exact hnew hid

/-- The users of a config: those of its tokens, and the management key's. -/
theorem tokenTable_ok {adminToken : String} {viewers : List String} {relayTokens : List RelayToken}
    {tokens : List (String × RelayPrincipal)} (h : tokenTable adminToken viewers relayTokens = .ok tokens) :
    (adminToken = "" ∧ tokens = relayTokens.map fun t => (t.token, principalOf adminToken viewers t)) ∨
      (adminToken ≠ "" ∧ managementPrincipalId ∉ relayTokens.map (·.id) ∧
        tokens = (adminToken, management) ::
          relayTokens.map fun t => (t.token, principalOf adminToken viewers t)) := by
  unfold tokenTable at h
  by_cases hadmin : adminToken = ""
  · rw [if_pos hadmin] at h
    exact .inl ⟨hadmin, (Except.ok.inj h).symm⟩
  · rw [if_neg hadmin] at h
    obtain ⟨_, -, h⟩ := ok_bind.mp h
    obtain ⟨_, hreserved, h⟩ := ok_bind.mp h
    obtain ⟨taken, -, h⟩ := ok_bind.mp h
    obtain ⟨_, -, h⟩ := ok_bind.mp h
    exact .inr ⟨hadmin, ok_requireConfig.mp hreserved, (ok_pure.mp h).symm⟩

/-- The ids of the entries of `relay_tokens`. -/
def entryIds (r : AuthReader) (data : JsonObject) : List String :=
  match getOr data "relay_tokens" .null with
  | .arr items => items.map (itemId r)
  | _ => []

/-- **Reading a config**: the store is sound, its users are those of the entries
and, with an admin token, the management key's, and no entry is retired. -/
theorem fromConfig_ok {adminToken : String} {value : Json} {store : AuthStore}
    (h : fromConfig r adminToken value = .ok store) :
    store.Sound ∧ ∃ data retired, value = .obj data ∧ parseRetired data = .ok retired ∧
      (∀ id ∈ entryIds r data, id ∉ retired) ∧
      ((adminToken = "" ∧ store.principalIds = entryIds r data) ∨
        (adminToken ≠ "" ∧ store.tokens.head? = some (adminToken, management) ∧
          store.principalIds = managementPrincipalId :: entryIds r data)) := by
  obtain ⟨data, hdata, h⟩ := ok_bind.mp h
  obtain ⟨kaggleKeys, hkeys, h⟩ := ok_bind.mp h
  obtain ⟨items, hitems, h⟩ := ok_bind.mp h
  obtain ⟨_, -, h⟩ := ok_bind.mp h
  obtain ⟨relayTokens, htokens, h⟩ := ok_bind.mp h
  obtain ⟨retired, hretired, h⟩ := ok_bind.mp h
  obtain ⟨_, hunused, h⟩ := ok_bind.mp h
  obtain ⟨viewers, -, h⟩ := ok_bind.mp h
  obtain ⟨tokens, htable, h⟩ := ok_bind.mp h
  obtain rfl := ok_pure.mp h
  have hentries : entryIds r data = items.map (itemId r) := by rw [entryIds, ok_asList.mp hitems]
  have hids : relayTokens.map (·.id) = entryIds r data := by
    rw [(parseTokenItems_ok htokens).1, hentries]
    rfl
  have hmapped : (relayTokens.map fun t => (t.token, principalOf adminToken viewers t)).map (·.2.id) =
      entryIds r data := by
    rw [← hids, List.map_map]
    rfl
  obtain ⟨hsolid, hkeysNodup⟩ : (∀ k ∈ kaggleKeys, Solid k.id) ∧ (kaggleKeys.map (·.id)).Nodup := by
    obtain ⟨keyItems, -, hrest⟩ := ok_bind.mp hkeys
    obtain ⟨_, -, hrest⟩ := ok_bind.mp hrest
    exact parseKeyItems_ok hrest (fun k hk => absurd hk List.not_mem_nil) List.nodup_nil
  have hparsed : ∀ t ∈ relayTokens, Solid t.id ∧
      ∀ allowed, t.allowed = some allowed → ∀ key ∈ allowed, key ∈ kaggleKeys.map (·.id) :=
    (parseTokenItems_ok htokens).2 _ (fun t ht => absurd ht List.not_mem_nil) fun _ _ _ ht =>
      ⟨(parseRelayToken_ok ht).2.1, (parseRelayToken_ok ht).2.2.2⟩
  have hnodup : (relayTokens.map (·.id)).Nodup := parseTokenItems_nodup htokens List.nodup_nil
  have hlisted : ∀ t ∈ tokens, t.2 = management ∨ ∃ entry ∈ relayTokens, t.2 = principalOf adminToken viewers entry := by
    intro t ht
    obtain ⟨-, rfl⟩ | ⟨-, -, rfl⟩ := tokenTable_ok htable
    · obtain ⟨entry, hentry, rfl⟩ := List.mem_map.mp ht
      exact .inr ⟨entry, hentry, rfl⟩
    · obtain rfl | ht := List.mem_cons.mp ht
      · exact .inl rfl
      · obtain ⟨entry, hentry, rfl⟩ := List.mem_map.mp ht
        exact .inr ⟨entry, hentry, rfl⟩
  refine ⟨⟨rfl, hsolid, hkeysNodup, ?_, ?_, ?_⟩, data, retired, ok_asObject.mp hdata, hretired, ?_, ?_⟩
  · intro t ht
    obtain heq | ⟨entry, hentry, heq⟩ := hlisted t ht
    · rw [heq]
      exact ⟨rfl, by decide, by decide⟩
    · rw [heq]
      exact ⟨rfl, (hparsed entry hentry).1⟩
  · show (tokens.map (·.2.id)).Nodup
    obtain ⟨-, rfl⟩ | ⟨-, hreserved, rfl⟩ := tokenTable_ok htable
    · rw [hmapped, ← hids]
      exact hnodup
    · rw [List.map_cons, hmapped, ← hids]
      exact List.nodup_cons.mpr ⟨hreserved, hnodup⟩
  · intro t ht allowed hallowed
    obtain heq | ⟨entry, hentry, heq⟩ := hlisted t ht
    · rw [heq] at hallowed
      cases hallowed
    · rw [heq] at hallowed
      exact (hparsed entry hentry).2 allowed hallowed
  · intro id hid
    rw [← hids] at hid
    obtain ⟨t, ht, rfl⟩ := List.mem_map.mp hid
    exact ok_requireConfig.mp hunused t ht
  · obtain ⟨hadmin, rfl⟩ | ⟨hadmin, -, rfl⟩ := tokenTable_ok htable
    · exact .inl ⟨hadmin, hmapped⟩
    · refine .inr ⟨hadmin, rfl, ?_⟩
      show (management.id :: _) = _
      exact congrArg _ hmapped

end Parse

end AuthStore

end KaggleRelay
