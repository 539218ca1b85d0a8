import CodexOctopus.Json
import CodexOctopus.TokenRefresh
import CodexOctopus.AccountImport

/-!
# Portable accounts

`app/modules/accounts/portable.py` with `AccountsService.export_accounts` and
`AccountsService.import_account`: accounts leave the system as a list of JSON objects and come
back as that, as a Codex `auth.json`, as flat tokens or as a Kiro login.

* `parsePortableAccountBatch` tells the formats apart and validates them.
* `exportAccounts` writes every stored account in the list format, which has no field for the
  provider.

What an id token claims comes before what the list says, and the list does not say that an
account is a Kiro one; the import rebuilds ids from digests. These are the conditions.
-/

namespace CodexOctopus.Accounts

open List Python

/-! ## Claims -/

structure OpenAIAuthClaims where
  chatgptAccountId : Option String := none
  chatgptPlanType : Option String := none
  userId : Option String := none

structure IdTokenClaims where
  email : Option String := none
  sub : Option String := none
  chatgptAccountId : Option String := none
  chatgptPlanType : Option String := none
  auth : Option OpenAIAuthClaims := none

/-- What is outside of the model: the payloads of tokens, and pydantic's conversions of values that
do not have the type of a field. -/
structure Decoding where
  /-- base64, JSON and `IdTokenClaims.model_validate`; nothing if one of them fails -/
  payloadClaims : String → Option IdTokenClaims
  coerceInt : Json → Option ℤ
  datetime : Json → Option ℤ

def orElse (a b : Option String) : Option String :=
  match a.filter (· ≠ "") with
  | some text => some text
  | none => b

def extractIdTokenClaims (D : Decoding) (idToken : String) : IdTokenClaims :=
  match idToken.toList.splitOn '.' with
  | _ :: payload :: _ => (D.payloadClaims (String.ofList payload)).getD {}
  | _ => {}

structure AccountClaims where
  accountId : Option String
  email : Option String
  planType : Option String

def claimsFromAuth (D : Decoding) (idToken : String) (accountId : Option String) : AccountClaims :=
  let claims := extractIdTokenClaims D idToken
  let auth := claims.auth.getD {}
  { accountId := orElse accountId (orElse auth.chatgptAccountId claims.chatgptAccountId)
    email := claims.email
    planType := orElse auth.chatgptPlanType claims.chatgptPlanType }

/-! ## Time -/

/-- A `datetime` has a year between 1 and 9999. -/
def ValidEpoch (epoch : ℤ) : Prop := -62135596800 ≤ epoch ∧ epoch ≤ 253402300799

instance (epoch : ℤ) : Decidable (ValidEpoch epoch) := inferInstanceAs (Decidable (_ ∧ _))

inductive ParseError : Type where
  | invalid
  | epochRange

def epochToUtcNaive : Option ℤ → Except ParseError (Option ℤ)
  | none => .ok none
  | some epoch => if ValidEpoch epoch then .ok (some (epoch * 1000000)) else .error .epochRange

def datetimeToEpoch (value : ℤ) : ℤ := value.tdiv 1000000

/-! ## Validation -/

/-- The first of the names that an object has, `AliasChoices`. -/
def fieldAny (keys : List String) (fs : List (String × Json)) : Option Json :=
  keys.findSome? (getItem · fs)

def requiredStr (keys : List String) (fs : List (String × Json)) : Except ParseError String :=
  match fieldAny keys fs with
  | some (.str text) => .ok text
  | _ => .error .invalid

def optionalStr (keys : List String) (fs : List (String × Json)) (default : Option String) :
    Except ParseError (Option String) :=
  match fieldAny keys fs with
  | none => .ok default
  | some .null => .ok none
  | some (.str text) => .ok (some text)
  | some _ => .error .invalid

def optionalInt (D : Decoding) (keys : List String) (fs : List (String × Json)) :
    Except ParseError (Option ℤ) :=
  match fieldAny keys fs with
  | none => .ok none
  | some .null => .ok none
  | some value =>
    match value.int? with
    | some n => .ok (some n)
    | none =>
      match D.coerceInt value with
      | some n => .ok (some n)
      | none => .error .invalid

def optionalDatetime (D : Decoding) (keys : List String) (fs : List (String × Json)) :
    Except ParseError (Option ℤ) :=
  match fieldAny keys fs with
  | none => .ok none
  | some .null => .ok none
  | some value =>
    match D.datetime value with
    | some t => .ok (some t)
    | none => .error .invalid

def requiredObject (keys : List String) (fs : List (String × Json)) :
    Except ParseError (List (String × Json)) :=
  match fieldAny keys fs with
  | some (.obj fields) => .ok fields
  | _ => .error .invalid

/-! ## Formats -/

def portableRecordFromKiro (D : Decoding) (fs : List (String × Json)) :
    Except ParseError PortableAccountRecord := do
  let email ← if (fieldAny ["email"] fs).isSome then requiredStr ["email"] fs else .ok defaultEmail
  let accessToken ← requiredStr ["access_token", "accessToken"] fs
  let refreshToken ← requiredStr ["refresh_token", "refreshToken"] fs
  let authMethod ← requiredStr ["auth_method", "authMethod"] fs
  let clientId ← optionalStr ["client_id", "clientId"] fs none
  let clientSecret ← optionalStr ["client_secret", "clientSecret"] fs none
  let region ← optionalStr ["region"] fs (some "us-east-1")
  let expiresAt ← optionalInt D ["expires_at", "expiresAt"] fs
  let machineId ← optionalStr ["machine_id", "machineId"] fs none
  let profileArn ← optionalStr ["profile_arn", "profileArn"] fs none
  let kiroProvider ← optionalStr ["kiro_provider", "kiroProvider"] fs none
  return {
    provider := .kiro
    email := email
    planType := "kiro"
    accessToken := accessToken
    refreshToken := refreshToken
    kiroAuthMethod := some authMethod
    kiroClientId := clientId
    kiroClientSecret := clientSecret
    kiroRegion := orElse region (some "us-east-1")
    kiroExpiresAt := expiresAt
    kiroMachineId := machineId
    kiroProfileArn := profileArn
    kiroProvider := kiroProvider }

def portableRecordFromAuthFile (D : Decoding) (fs : List (String × Json)) :
    Except ParseError PortableAccountRecord := do
  let _ ← optionalStr ["OPENAI_API_KEY", "openai_api_key"] fs none
  let tokens ← requiredObject ["tokens"] fs
  let idToken ← requiredStr ["idToken", "id_token"] tokens
  let accessToken ← requiredStr ["accessToken", "access_token"] tokens
  let refreshToken ← requiredStr ["refreshToken", "refresh_token"] tokens
  let accountId ← optionalStr ["accountId", "account_id"] tokens none
  let lastRefreshAt ← optionalDatetime D ["lastRefreshAt", "last_refresh_at"] fs
  let claims := claimsFromAuth D idToken accountId
  return {
    email := (orElse claims.email none).getD defaultEmail
    planType := coerceAccountPlanType claims.planType defaultPlan
    rawAccountId := claims.accountId
    idToken := idToken
    accessToken := accessToken
    refreshToken := refreshToken
    lastRefreshAt := lastRefreshAt }

def portableRecordFromFlatAuth (D : Decoding) (fs : List (String × Json)) :
    Except ParseError PortableAccountRecord := do
  let idToken ← requiredStr ["id_token"] fs
  let accessToken ← requiredStr ["access_token"] fs
  let refreshToken ← requiredStr ["refresh_token"] fs
  let accountId ← optionalStr ["account_id", "accountId"] fs none
  let email ← optionalStr ["email"] fs none
  let planType ← optionalStr ["plan_type"] fs none
  let lastRefreshAt ← optionalDatetime D ["last_refresh_at", "lastRefreshAt", "last_refresh"] fs
  let claims := claimsFromAuth D idToken accountId
  return {
    email := (orElse (orElse claims.email email) none).getD defaultEmail
    planType := coerceAccountPlanType (orElse claims.planType planType) defaultPlan
    rawAccountId := orElse claims.accountId accountId
    idToken := idToken
    accessToken := accessToken
    refreshToken := refreshToken
    lastRefreshAt := lastRefreshAt }

structure PortableExternalAccountImport where
  id : Option String
  email : Option String
  planType : Option String
  accountId : Option String
  idToken : String
  accessToken : String
  refreshToken : String
  usageUpdatedAt : Option ℤ
  createdAt : Option ℤ
  lastUsed : Option ℤ

def validateExternalAccount (D : Decoding) : Json → Except ParseError PortableExternalAccountImport
  | .obj fs => do
    let id ← optionalStr ["id"] fs none
    let email ← optionalStr ["email"] fs none
    let planType ← optionalStr ["plan_type"] fs none
    let accountId ← optionalStr ["account_id"] fs none
    let tokens ← requiredObject ["tokens"] fs
    let idToken ← requiredStr ["id_token"] tokens
    let accessToken ← requiredStr ["access_token"] tokens
    let refreshToken ← requiredStr ["refresh_token"] tokens
    let usageUpdatedAt ← optionalInt D ["usage_updated_at"] fs
    let createdAt ← optionalInt D ["created_at"] fs
    let lastUsed ← optionalInt D ["last_used"] fs
    return ⟨id, email, planType, accountId, idToken, accessToken, refreshToken, usageUpdatedAt,
      createdAt, lastUsed⟩
  | _ => .error .invalid

def bestExternalTimestamp (account : PortableExternalAccountImport) :
    Except ParseError (Option ℤ) :=
  epochToUtcNaive (account.usageUpdatedAt <|> account.lastUsed <|> account.createdAt)

def portableRecordFromExternalAccount (D : Decoding) (account : PortableExternalAccountImport) :
    Except ParseError PortableAccountRecord := do
  let lastRefreshAt ← bestExternalTimestamp account
  let createdAt ← epochToUtcNaive account.createdAt
  let claims := claimsFromAuth D account.idToken account.accountId
  return {
    sourceId := account.id
    email := (orElse (orElse claims.email account.email) none).getD defaultEmail
    planType := coerceAccountPlanType (orElse claims.planType account.planType) defaultPlan
    rawAccountId := orElse claims.accountId account.accountId
    idToken := account.idToken
    accessToken := account.accessToken
    refreshToken := account.refreshToken
    lastRefreshAt := lastRefreshAt
    createdAt := createdAt }

inductive PortableImportFormat : Type where
  | authJson
  | portableJson

structure PortableAccountBatch where
  format : PortableImportFormat
  accounts : List PortableAccountRecord

def parsePortableAccountBatch (D : Decoding) : Json → Except ParseError PortableAccountBatch
  | .obj fs =>
    if (getItem "provider" fs).bind Json.str? = some "kiro" then do
      let record ← portableRecordFromKiro D fs
      return ⟨.authJson, [record]⟩
    else if (getItem "tokens" fs).isSome then do
      let record ← portableRecordFromAuthFile D fs
      return ⟨.authJson, [record]⟩
    else do
      let record ← portableRecordFromFlatAuth D fs
      return ⟨.authJson, [record]⟩
  | .arr items => do
    let accounts ← items.mapM (validateExternalAccount D)
    let records ← accounts.mapM (portableRecordFromExternalAccount D)
    return ⟨.portableJson, records⟩
  | _ => .error .invalid

/-! ## Export and import -/

variable {σ : Type}

def jsonOption {α : Type} (f : α → Json) : Option α → Json
  | none => .null
  | some x => f x

def exportTokens (H : Host σ) (account : AccountRow σ) : List (String × Json) :=
  [("id_token", .str (H.encryptor.decrypt account.idTokenEncrypted)),
    ("access_token", .str (H.encryptor.decrypt account.accessTokenEncrypted)),
    ("refresh_token", .str (H.encryptor.decrypt account.refreshTokenEncrypted))]

def exportFields (H : Host σ) (D : Decoding) (account : AccountRow σ) : List (String × Json) :=
  let claims := extractIdTokenClaims D (H.encryptor.decrypt account.idTokenEncrypted)
  let userId := orElse (claims.auth.bind (·.userId)) claims.sub
  [
    ("id", .str account.id),
    ("email", .str account.email),
    ("auth_mode", .str "oauth"),
    ("api_provider_mode", .str "openai_builtin"),
    ("user_id", jsonOption .str userId),
    ("plan_type", .str account.planType),
    ("account_id", jsonOption .str account.chatgptAccountId),
    ("organization_id", .null),
    ("account_structure", .null),
    ("tokens", .obj (exportTokens H account)),
    ("quota", .null),
    ("usage_updated_at", .ofInt (datetimeToEpoch account.lastRefresh)),
    ("tags", .null),
    ("created_at", .ofInt (datetimeToEpoch account.createdAt)),
    ("last_used", .null)]

def exportAccount (H : Host σ) (D : Decoding) (account : AccountRow σ) : Json :=
  .obj (exportFields H D account)

def listAccounts (db : Database σ) : List (AccountRow σ) :=
  db.accounts.rows.insertionSort fun a b => a.email ≤ b.email

def exportAccounts (H : Host σ) (D : Decoding) (db : Database σ) : String :=
  (Json.arr ((listAccounts db).map (exportAccount H D))).dumpsPlain

inductive ImportFailure : Type where
  | parse (e : ParseError)
  | persist (e : ImportError)

def importAccount (H : Host σ) (D : Decoding) (readings : ℕ → Readings) (raw : String)
    (db : Database σ) : Except ImportFailure (Database σ × List (AccountRow σ)) :=
  match Json.loads raw with
  | none => .error (.parse .invalid)
  | some data =>
    match parsePortableAccountBatch D data with
    | .error e => .error (.parse e)
    | .ok batch =>
      (persistImportBatch H (batch.accounts.zipIdx.map fun p => (p.1, readings p.2)) db).mapError
        .persist

/-! ## The round trip -/

structure Restores (E : TokenEncryptor σ) (account row : AccountRow σ) : Prop where
  provider : row.provider = account.provider
  tokens : row.tokens E = account.tokens E
  email : row.email = account.email
  planType : row.planType = account.planType
  chatgptAccountId : row.chatgptAccountId = account.chatgptAccountId
  lastRefresh : row.lastRefresh = account.lastRefresh

/-- What the list format can say: the id token claims nothing else than the row, the plan is in
normal form and timestamps are whole seconds. -/
structure Listable (H : Host σ) (D : Decoding) (account : AccountRow σ) : Prop where
  email : account.email ≠ ""
  claimedEmail : ∀ email,
    (extractIdTokenClaims D (H.encryptor.decrypt account.idTokenEncrypted)).email = some email →
      email = "" ∨ email = account.email
  planType : coerceAccountPlanType (some account.planType) defaultPlan = account.planType
  claimedPlan : ∀ plan,
    (claimsFromAuth D (H.encryptor.decrypt account.idTokenEncrypted) none).planType = some plan →
      plan = "" ∨ coerceAccountPlanType (some plan) defaultPlan = account.planType
  accountId : (∃ id, id ≠ "" ∧ account.chatgptAccountId = some id) ∨ ∀ id,
    (claimsFromAuth D (H.encryptor.decrypt account.idTokenEncrypted) none).accountId = some id →
      id = ""
  wholeSeconds : 1000000 ∣ account.lastRefresh
  lastRefreshValid : ValidEpoch (datetimeToEpoch account.lastRefresh)
  createdAtValid : ValidEpoch (datetimeToEpoch account.createdAt)

def externalAccount (H : Host σ) (account : AccountRow σ) : PortableExternalAccountImport where
  id := some account.id
  email := some account.email
  planType := some account.planType
  accountId := account.chatgptAccountId
  idToken := H.encryptor.decrypt account.idTokenEncrypted
  accessToken := H.encryptor.decrypt account.accessTokenEncrypted
  refreshToken := H.encryptor.decrypt account.refreshTokenEncrypted
  usageUpdatedAt := some (datetimeToEpoch account.lastRefresh)
  createdAt := some (datetimeToEpoch account.createdAt)
  lastUsed := none

def exportedRecord (H : Host σ) (account : AccountRow σ) : PortableAccountRecord where
  sourceId := some account.id
  email := account.email
  planType := account.planType
  rawAccountId := account.chatgptAccountId
  idToken := H.encryptor.decrypt account.idTokenEncrypted
  accessToken := H.encryptor.decrypt account.accessTokenEncrypted
  refreshToken := H.encryptor.decrypt account.refreshTokenEncrypted
  lastRefreshAt := some account.lastRefresh
  createdAt := some (datetimeToEpoch account.createdAt * 1000000)

section Fields

variable {keys : List String} {fs : List (String × Json)}

theorem optionalStr_eq {default value : Option String}
    (h : fieldAny keys fs = some (jsonOption .str value)) :
    optionalStr keys fs default = .ok value := by
  rw [optionalStr, h]
  cases value <;> rfl

theorem optionalInt_eq {D : Decoding} {n : ℤ} (h : fieldAny keys fs = some (.ofInt n)) :
    optionalInt D keys fs = .ok (some n) := by
  have hint := Json.int?_ofInt n
  rw [optionalInt, h]
  unfold Json.ofInt at hint ⊢
  simp only [hint]

end Fields

theorem validateExternalAccount_export (H : Host σ) (D : Decoding) (account : AccountRow σ) :
    validateExternalAccount D (exportAccount H D account) = .ok (externalAccount H account) := by
  have hid : optionalStr ["id"] (exportFields H D account) none = .ok (some account.id) :=
    optionalStr_eq rfl
  have hemail : optionalStr ["email"] (exportFields H D account) none = .ok (some account.email) :=
    optionalStr_eq rfl
  have hplan : optionalStr ["plan_type"] (exportFields H D account) none =
      .ok (some account.planType) := optionalStr_eq rfl
  have haccount : optionalStr ["account_id"] (exportFields H D account) none =
      .ok account.chatgptAccountId := optionalStr_eq rfl
  have htokens : requiredObject ["tokens"] (exportFields H D account) =
      .ok (exportTokens H account) := rfl
  have husage : optionalInt D ["usage_updated_at"] (exportFields H D account) =
      .ok (some (datetimeToEpoch account.lastRefresh)) := optionalInt_eq rfl
  have hcreated : optionalInt D ["created_at"] (exportFields H D account) =
      .ok (some (datetimeToEpoch account.createdAt)) := optionalInt_eq rfl
  have hused : optionalInt D ["last_used"] (exportFields H D account) = .ok none := rfl
  simp only [exportAccount, validateExternalAccount, hid, hemail, hplan, haccount, htokens, husage,
    hcreated, hused, bind, Except.bind]
  rfl

theorem epochToUtcNaive_valid {t : ℤ} (h : ValidEpoch (datetimeToEpoch t)) :
    epochToUtcNaive (some (datetimeToEpoch t)) = .ok (some (datetimeToEpoch t * 1000000)) :=
  if_pos h

variable {claimed : Option String} {account : AccountRow σ} {D : Decoding} {H : Host σ}
  {accounts : List (AccountRow σ)}

theorem orElse_of_claimed {value : String} (hvalue : value ≠ "")
    (h : ∀ text, claimed = some text → text = "" ∨ text = value) :
    orElse claimed (some value) = some value := by
  cases claimed with
  | none => rfl
  | some text =>
    rcases h text rfl with rfl | rfl
    · rfl
    · simp [orElse, Option.filter, hvalue]

theorem orElse_none_of_ne {value : String} (hvalue : value ≠ "") :
    orElse (some value) none = some value := by
  simp [orElse, Option.filter, hvalue]

theorem coerce_of_claimed {plan : String}
    (hplan : coerceAccountPlanType (some plan) defaultPlan = plan)
    (h : ∀ text, claimed = some text → text = "" ∨
      coerceAccountPlanType (some text) defaultPlan = plan) :
    coerceAccountPlanType (orElse claimed (some plan)) defaultPlan = plan := by
  cases claimed with
  | none => exact hplan
  | some text =>
    by_cases htext : text = ""
    · subst htext
      exact hplan
    · rw [show orElse (some text) (some plan) = some text by simp [orElse, Option.filter, htext]]
      exact (h text rfl).resolve_left htext

theorem accountId_of_claimed {value : Option String}
    (h : (∃ id, id ≠ "" ∧ value = some id) ∨ ∀ id, claimed = some id → id = "") :
    orElse (orElse value claimed) value = value := by
  rcases h with ⟨id, hid, rfl⟩ | hnone
  · simp [orElse, Option.filter, hid]
  · have hclaimed : claimed.filter (· ≠ "") = none := by
      cases claimed with
      | none => rfl
      | some id => simp [Option.filter, hnone id rfl]
    cases hv : value.filter (· ≠ "") with
    | none => simp only [orElse, hv, hclaimed]
    | some id =>
      obtain ⟨rfl, hid⟩ := Option.filter_eq_some_iff.mp hv
      simp only [orElse, hv]

theorem portableRecord_export (h : Listable H D account) :
    portableRecordFromExternalAccount D (externalAccount H account) =
      .ok (exportedRecord H account) := by
  have hseconds : datetimeToEpoch account.lastRefresh * 1000000 = account.lastRefresh :=
    Int.tdiv_mul_cancel h.wholeSeconds
  have hlast : bestExternalTimestamp (externalAccount H account) = .ok (some account.lastRefresh) :=
    (epochToUtcNaive_valid h.lastRefreshValid).trans (by rw [hseconds])
  have hcreated : epochToUtcNaive (externalAccount H account).createdAt =
      .ok (some (datetimeToEpoch account.createdAt * 1000000)) :=
    epochToUtcNaive_valid h.createdAtValid
  have hemail := orElse_of_claimed h.email h.claimedEmail
  have hplan := coerce_of_claimed h.planType h.claimedPlan
  have haccount := accountId_of_claimed h.accountId
  rw [portableRecordFromExternalAccount, hlast, hcreated]
  simp only [bind, Except.bind, pure, Except.pure, exportedRecord]
  -- the plan and the account id are those of `hplan` and `haccount`
  congr 2
  calc (orElse (orElse (extractIdTokenClaims D (H.encryptor.decrypt
        account.idTokenEncrypted)).email (some account.email)) none).getD defaultEmail
      = (orElse (some account.email) none).getD defaultEmail := by rw [hemail]
    _ = account.email := by rw [orElse_none_of_ne h.email, Option.getD_some]

theorem mapM_ok {ε α β : Type} {f : α → Except ε β} {g : α → β} {l : List α}
    (h : ∀ x ∈ l, f x = .ok (g x)) : l.mapM f = .ok (l.map g) := by
  induction l with
  | nil => rfl
  | cons x l ih =>
    rw [mapM_cons, h x mem_cons_self, ih fun y hy => h y (mem_cons_of_mem x hy)]
    rfl

theorem parse_export (h : ∀ account ∈ accounts, Listable H D account) :
    parsePortableAccountBatch D (.arr (accounts.map (exportAccount H D))) =
      .ok ⟨.portableJson, accounts.map (exportedRecord H)⟩ := by
  have hvalid : (accounts.map (exportAccount H D)).mapM (validateExternalAccount D) =
      .ok (accounts.map (externalAccount H)) := by
    rw [mapM_map]
    exact mapM_ok fun account _ => validateExternalAccount_export H D account
  have hrecords : (accounts.map (externalAccount H)).mapM (portableRecordFromExternalAccount D) =
      .ok (accounts.map (exportedRecord H)) := by
    rw [mapM_map]
    exact mapM_ok fun account haccount => portableRecord_export (h account haccount)
  simp only [parsePortableAccountBatch, hvalid, hrecords, bind, Except.bind]
  rfl

theorem restores_newAccount (H : Host σ) (d : Readings) (h : account.provider = .openai) :
    Restores H.encryptor account (newAccount H d (exportedRecord H account)) where
  provider := h.symm
  tokens := newAccount_tokens H d (exportedRecord H account)
  email := rfl
  planType := rfl
  chatgptAccountId := rfl
  lastRefresh := rfl

/-! ### An empty database -/

theorem upsert_of_not_meets {db : Database σ} (h : ∀ row ∈ db.accounts.rows, ¬row.Meets account) :
    ∃ db', upsert db account none = .ok (db', account.id) ∧
      db'.accounts.rows = db.accounts.rows ++ [account] := by
  have hget : db.accounts.get account.id = none :=
    AccountsTable.get_eq_none.mpr fun row hrow hid => h row hrow (.inl hid)
  have hemail : singleAccountByEmail db account.email = .ok none := by
    have hnil : db.accounts.withEmail account.email = [] :=
      filter_eq_nil_iff.mpr fun row hrow hemail =>
        h row hrow (.inr (of_decide_eq_true hemail))
    rw [singleAccountByEmail, hnil]
  refine ⟨{ db with
    accounts := ⟨db.accounts.rows ++ [account], db.accounts.unique.append_singleton hget⟩ },
    ?_, rfl⟩
  rw [upsert, hget]
  dsimp only
  rw [hemail]
  exact (ite_self _).trans (dif_pos hget)

theorem persistRecords_of_not_meets (H : Host σ)
    (batch : List (PortableAccountRecord × Readings)) (db : Database σ)
    (hrows : ∀ p ∈ batch, ∀ row ∈ db.accounts.rows, ¬row.Meets (accountOf H p))
    (hbatch : batch.Pairwise fun p q => ¬(accountOf H p).Meets (accountOf H q)) :
    ∃ db', persistRecords H batch db = .ok (db', batch.map fun p => (accountOf H p).id) ∧
      db'.accounts.rows = db.accounts.rows ++ batch.map (accountOf H) := by
  induction batch generalizing db with
  | nil => exact ⟨db, rfl, (append_nil _).symm⟩
  | cons p rest ih =>
    obtain ⟨hp, hrest⟩ := pairwise_cons.mp hbatch
    obtain ⟨db₁, hok, hdb₁⟩ := upsert_of_not_meets (hrows p mem_cons_self)
    obtain ⟨db', hrestok, hdb'⟩ := ih db₁ (by
      intro q hq row hrow
      rw [hdb₁] at hrow
      rcases mem_append.mp hrow with hold | hnew
      · exact hrows q (mem_cons_of_mem p hq) row hold
      · exact mem_singleton.mp hnew ▸ hp q hq) hrest
    refine ⟨db', ?_, ?_⟩
    · rw [persistRecords, hok]
      simp only [bind, Except.bind, hrestok]
      rfl
    · rw [hdb', hdb₁, append_assoc]
      rfl

theorem filterMap_get {t : AccountsTable σ} (rows : List (AccountRow σ)) (h : rows ⊆ t.rows) :
    (rows.map (·.id)).filterMap t.get = rows := by
  induction rows with
  | nil => rfl
  | cons row rows ih =>
    have hget : t.get row.id = some row :=
      AccountsTable.get_eq_some.mpr ⟨h mem_cons_self, rfl⟩
    rw [map_cons, filterMap_cons, hget, ih fun r hr => h (mem_cons_of_mem row hr)]

def importedId (H : Host σ) (readings : ℕ → Readings) (p : AccountRow σ × ℕ) : String :=
  generateUniqueAccountId H (readings p.2).uuid p.1.chatgptAccountId p.1.email

theorem exported_zipIdx (H : Host σ) (readings : ℕ → Readings) (accounts : List (AccountRow σ)) :
    (accounts.map (exportedRecord H)).zipIdx.map (fun p => (p.1, readings p.2)) =
      accounts.zipIdx.map fun p => (exportedRecord H p.1, readings p.2) := by
  rw [zipIdx_map, map_map]
  rfl

theorem exported_pairwise {readings : ℕ → Readings} (hemails : (accounts.map (·.email)).Nodup)
    (hids : (accounts.zipIdx.map (importedId H readings)).Nodup) :
    (accounts.zipIdx.map fun p => (exportedRecord H p.1, readings p.2)).Pairwise
      fun p q => ¬(accountOf H p).Meets (accountOf H q) := by
  have hemails' : (accounts.zipIdx.map fun p => p.1.email).Nodup := by
    have hmap : accounts.zipIdx.map (fun p => p.1.email) = accounts.map (·.email) := by
      rw [← zipIdx_map_fst 0 accounts, map_map, zipIdx_map_fst]
      rfl
    rw [hmap]
    exact hemails
  rw [pairwise_map]
  refine ((pairwise_map.mp hids).and (pairwise_map.mp hemails')).imp ?_
  rintro p q ⟨hid, hemail⟩ (hmeet | hmeet)
  · exact hid hmeet
  · exact hemail hmeet

theorem forall₂_zipIdx {α β : Type} {R : α → β → Prop} {f : α × ℕ → β} {l : List α} {k : ℕ}
    (h : ∀ a ∈ l, ∀ n, R a (f (a, n))) : List.Forall₂ R l ((l.zipIdx k).map f) := by
  induction l generalizing k with
  | nil => exact .nil
  | cons a l ih =>
    exact .cons (h a mem_cons_self k) (ih fun b hb => h b (mem_cons_of_mem a hb))

theorem listAccounts_perm (db : Database σ) : (listAccounts db).Perm db.accounts.rows :=
  perm_insertionSort _ _

theorem import_exported {readings : ℕ → Readings} (hemails : (accounts.map (·.email)).Nodup)
    (hids : (accounts.zipIdx.map (importedId H readings)).Nodup) :
    ∃ db', persistImportBatch H
        (accounts.zipIdx.map fun p => (exportedRecord H p.1, readings p.2)) emptyDatabase =
          .ok (db', db'.accounts.rows) ∧
      db'.accounts.rows =
        accounts.zipIdx.map fun p => newAccount H (readings p.2) (exportedRecord H p.1) := by
  have hnone : ∀ p ∈ accounts.zipIdx.map fun p => (exportedRecord H p.1, readings p.2),
      ∀ row ∈ (emptyDatabase : Database σ).accounts.rows, ¬row.Meets (accountOf H p) :=
    fun p _ row hrow => absurd hrow not_mem_nil
  obtain ⟨db', hok, hrows⟩ :=
    persistRecords_of_not_meets H _ emptyDatabase hnone (exported_pairwise hemails hids)
  have hrows' : db'.accounts.rows =
      accounts.zipIdx.map fun p => newAccount H (readings p.2) (exportedRecord H p.1) := by
    rw [hrows, map_map]
    rfl
  have hsaved := filterMap_get db'.accounts.rows (List.Subset.refl _)
  refine ⟨db', ?_, hrows'⟩
  rw [hrows', map_map] at hsaved
  rw [persistImportBatch, hok, hrows', ← hsaved, map_map]
  rfl

theorem import_export (readings : ℕ → Readings) {db : Database σ}
    (h : ∀ account ∈ db.accounts.rows, Listable H D account)
    (hemails : (db.accounts.rows.map (·.email)).Nodup)
    (hids : ((listAccounts db).zipIdx.map (importedId H readings)).Nodup) :
    ∃ db', importAccount H D readings (exportAccounts H D db) emptyDatabase =
        .ok (db', db'.accounts.rows) ∧
      db'.accounts.rows = (listAccounts db).zipIdx.map fun p =>
        newAccount H (readings p.2) (exportedRecord H p.1) := by
  have hperm := listAccounts_perm db
  have hlist : ∀ account ∈ listAccounts db, Listable H D account :=
    fun account haccount => h account (hperm.mem_iff.mp haccount)
  obtain ⟨db', hok, hrows⟩ := import_exported ((hperm.map _).nodup_iff.mpr hemails) hids
  refine ⟨db', ?_, hrows⟩
  rw [importAccount, exportAccounts, Json.loads_dumpsPlain]
  dsimp only
  rw [parse_export hlist]
  dsimp only
  rw [exported_zipIdx, hok]
  rfl

def opaqueTokens : Decoding := ⟨fun _ => none, fun _ => none, fun _ => none⟩

def storedLogin (r : PortableAccountRecord) : Database String :=
  databaseOf (newAccount clearHost noonReadings r)

theorem listable_login {r : PortableAccountRecord} (hemail : r.email ≠ "")
    (hplan : coerceAccountPlanType (some r.planType) defaultPlan = r.planType)
    (hlast : r.lastRefreshAt = none) :
    Listable clearHost opaqueTokens (newAccount clearHost noonReadings r) := by
  have hclaims : ∀ token, extractIdTokenClaims opaqueTokens token = {} := fun token => by
    unfold extractIdTokenClaims
    split <;> rfl
  have hrefresh : (newAccount clearHost noonReadings r).lastRefresh = 0 := by
    simp [newAccount, hlast, noonReadings]
  exact {
    email := hemail
    claimedEmail := by simp [hclaims]
    planType := hplan
    claimedPlan := by simp [claimsFromAuth, hclaims, orElse]
    accountId := .inr (by simp [claimsFromAuth, hclaims, orElse])
    wholeSeconds := by simp [hrefresh]
    lastRefreshValid := by rw [hrefresh]; decide
    createdAtValid := by change ValidEpoch (datetimeToEpoch 0); decide }

end CodexOctopus.Accounts
