import CodexOctopus.Balancer
import Mathlib.Data.List.Perm.Subperm

/-!
# Storing imported accounts

`AccountsService._persist_import_batch` (`app/modules/accounts/service.py`) and
`AccountsRepository.upsert` (`app/modules/accounts/repository.py`). A batch of portable records
is written in one transaction: every record becomes a new row or, unless the dashboard setting
`import_without_overwrite` is on, is merged into the row with its id or its e-mail.

* `AccountsTable` is the table with its primary key; an insert may fail on it.
* `upsert_cases` says what one record can do to the table: `Merged` or `Inserted`.
-/

namespace CodexOctopus.Accounts

open List Option Table

inductive AccountProvider : Type where
  | openai
  | kiro
  deriving DecidableEq

/-- `TokenEncryptor`; a token has many encryptions, and each decrypts to it. -/
structure TokenEncryptor (σ : Type) where
  encrypt : ℕ → String → σ
  decrypt : σ → String
  decrypt_encrypt : ∀ iv token, decrypt (encrypt iv token) = token

structure Host (σ : Type) where
  encryptor : TokenEncryptor σ
  sha256 : String → String

structure Readings where
  uuid : String
  iv : ℕ → ℕ
  now : ℤ
  createdAt : ℤ

/-! ## Records and rows -/

structure ProviderFields where
  provider : AccountProvider
  authMethod : Option String
  clientId : Option String
  clientSecret : Option String
  region : Option String
  expiresAt : Option ℤ
  machineId : Option String
  profileArn : Option String
  kiroProvider : Option String
  deriving DecidableEq

structure Tokens where
  access : String
  refresh : String
  idToken : String

structure PortableAccountRecord where
  sourceId : Option String := none
  email : String
  planType : String
  rawAccountId : Option String := none
  idToken : String := ""
  accessToken : String
  refreshToken : String
  lastRefreshAt : Option ℤ := none
  createdAt : Option ℤ := none
  provider : AccountProvider := .openai
  kiroAuthMethod : Option String := none
  kiroClientId : Option String := none
  kiroClientSecret : Option String := none
  kiroRegion : Option String := none
  kiroExpiresAt : Option ℤ := none
  kiroMachineId : Option String := none
  kiroProfileArn : Option String := none
  kiroProvider : Option String := none

structure AccountRow (σ : Type) where
  id : String
  chatgptAccountId : Option String
  email : String
  planType : String
  accessTokenEncrypted : σ
  refreshTokenEncrypted : σ
  idTokenEncrypted : σ
  lastRefresh : ℤ
  createdAt : ℤ
  status : AccountStatus
  deactivationReason : Option String
  resetAt : Option ℤ
  blockedAt : Option ℤ
  routingTier : Option String
  provider : AccountProvider
  kiroAuthMethod : Option String
  kiroClientIdEncrypted : Option σ
  kiroClientSecretEncrypted : Option σ
  kiroRegion : Option String
  kiroExpiresAt : Option ℤ
  kiroMachineId : Option String
  kiroProfileArn : Option String
  kiroProvider : Option String

variable {σ : Type}

namespace PortableAccountRecord

def tokens (r : PortableAccountRecord) : Tokens := ⟨r.accessToken, r.refreshToken, r.idToken⟩

def providerFields (r : PortableAccountRecord) : ProviderFields :=
  ⟨r.provider, r.kiroAuthMethod, r.kiroClientId, r.kiroClientSecret, r.kiroRegion, r.kiroExpiresAt,
    r.kiroMachineId, r.kiroProfileArn, r.kiroProvider⟩

/-- An OpenAI record has no Kiro fields, and what a Kiro record does not have is missing, not
empty. -/
def WellFormed (r : PortableAccountRecord) : Prop :=
  match r.provider with
  | .openai => r.providerFields = ⟨.openai, none, none, none, none, none, none, none, none⟩
  | .kiro => r.kiroClientId ≠ some "" ∧ r.kiroClientSecret ≠ some ""

instance : DecidablePred WellFormed := fun r => by
  unfold WellFormed
  cases r.provider <;> exact inferInstance

end PortableAccountRecord

namespace AccountRow

def tokens (E : TokenEncryptor σ) (row : AccountRow σ) : Tokens :=
  ⟨E.decrypt row.accessTokenEncrypted, E.decrypt row.refreshTokenEncrypted,
    E.decrypt row.idTokenEncrypted⟩

def providerFields (E : TokenEncryptor σ) (row : AccountRow σ) : ProviderFields :=
  ⟨row.provider, row.kiroAuthMethod, row.kiroClientIdEncrypted.map E.decrypt,
    row.kiroClientSecretEncrypted.map E.decrypt, row.kiroRegion, row.kiroExpiresAt,
    row.kiroMachineId, row.kiroProfileArn, row.kiroProvider⟩

def Carries (E : TokenEncryptor σ) (row : AccountRow σ) (r : PortableAccountRecord) : Prop :=
  row.tokens E = r.tokens ∧ row.providerFields E = r.providerFields

end AccountRow

/-! ## The row of a record -/

def defaultEmail : String := "unknown@example.com"

def firstChars (n : ℕ) (text : String) : String := String.ofList (text.toList.take n)

def fallbackAccountId (H : Host σ) (uuid email : String) : String :=
  if email ≠ "" ∧ email ≠ defaultEmail then "email_" ++ firstChars 12 (H.sha256 email)
  else "local_" ++ firstChars 12 uuid

def generateUniqueAccountId (H : Host σ) (uuid : String) (accountId : Option String)
    (email : String) : String :=
  match accountId.filter (· ≠ "") with
  | some accountId =>
    if email ≠ "" ∧ email ≠ defaultEmail then accountId ++ "_" ++ firstChars 8 (H.sha256 email)
    else accountId
  | none => fallbackAccountId H uuid email

def newAccount (H : Host σ) (d : Readings) (r : PortableAccountRecord) : AccountRow σ :=
  let isKiro := r.provider = .kiro
  { id :=
      if isKiro then "kiro_" ++ firstChars 12 (H.sha256 r.email)
      else generateUniqueAccountId H d.uuid r.rawAccountId r.email
    chatgptAccountId := r.rawAccountId
    email := r.email
    planType := r.planType
    accessTokenEncrypted := H.encryptor.encrypt (d.iv 0) r.accessToken
    refreshTokenEncrypted := H.encryptor.encrypt (d.iv 1) r.refreshToken
    idTokenEncrypted := H.encryptor.encrypt (d.iv 2) r.idToken
    lastRefresh := r.lastRefreshAt.getD d.now
    createdAt := d.createdAt
    status := .active
    deactivationReason := none
    resetAt := none
    blockedAt := none
    routingTier := none
    provider := if isKiro then .kiro else .openai
    kiroAuthMethod := if isKiro then r.kiroAuthMethod else none
    kiroClientIdEncrypted :=
      if isKiro then (r.kiroClientId.filter (· ≠ "")).map (H.encryptor.encrypt (d.iv 3)) else none
    kiroClientSecretEncrypted :=
      if isKiro then (r.kiroClientSecret.filter (· ≠ "")).map (H.encryptor.encrypt (d.iv 4))
      else none
    kiroRegion := if isKiro then r.kiroRegion else none
    kiroExpiresAt := if isKiro then r.kiroExpiresAt else none
    kiroMachineId := if isKiro then r.kiroMachineId else none
    kiroProfileArn := if isKiro then r.kiroProfileArn else none
    kiroProvider := if isKiro then r.kiroProvider else none }

theorem newAccount_tokens (H : Host σ) (d : Readings) (r : PortableAccountRecord) :
    (newAccount H d r).tokens H.encryptor = r.tokens := by
  simp only [AccountRow.tokens, newAccount, TokenEncryptor.decrypt_encrypt]
  rfl

theorem decrypt_filter {E : TokenEncryptor σ} {iv : ℕ} {value : Option String}
    (h : value ≠ some "") :
    ((value.filter (· ≠ "")).map (E.encrypt iv)).map E.decrypt = value := by
  cases value with
  | none => rfl
  | some text =>
    have htext : text ≠ "" := fun heq => h (congrArg some heq)
    simp [Option.filter, htext, E.decrypt_encrypt]

theorem newAccount_providerFields (H : Host σ) (d : Readings) {r : PortableAccountRecord}
    (h : r.WellFormed) : (newAccount H d r).providerFields H.encryptor = r.providerFields := by
  unfold PortableAccountRecord.WellFormed at h
  cases hp : r.provider with
  | openai =>
    rw [hp] at h
    rw [h]
    simp [AccountRow.providerFields, newAccount, hp]
  | kiro =>
    rw [hp] at h
    simp only [AccountRow.providerFields, newAccount, hp, if_true, decrypt_filter h.1,
      decrypt_filter h.2, PortableAccountRecord.providerFields]

/-! ## The table -/

structure AccountsTable (σ : Type) where
  rows : List (AccountRow σ)
  unique : Unique (·.id) rows

namespace AccountsTable

def get (t : AccountsTable σ) (id : String) : Option (AccountRow σ) :=
  lookup (·.id) t.rows id

theorem get_eq_some {t : AccountsTable σ} {id : String} {row : AccountRow σ} :
    t.get id = some row ↔ row ∈ t.rows ∧ row.id = id :=
  t.unique.lookup_eq_some_iff

theorem get_eq_none {t : AccountsTable σ} {id : String} :
    t.get id = none ↔ ∀ row ∈ t.rows, row.id ≠ id :=
  lookup_eq_none_iff

def withEmail (t : AccountsTable σ) (email : String) : List (AccountRow σ) :=
  t.rows.filter fun row => row.email = email

end AccountsTable

inductive ImportError : Type where
  | identityConflict (email : String)
  | integrity (id : String)

def applyAccountUpdates (target source : AccountRow σ) : AccountRow σ :=
  { target with
    chatgptAccountId := source.chatgptAccountId
    email := source.email
    planType := source.planType
    accessTokenEncrypted := source.accessTokenEncrypted
    refreshTokenEncrypted := source.refreshTokenEncrypted
    idTokenEncrypted := source.idTokenEncrypted
    lastRefresh := source.lastRefresh
    status := source.status
    deactivationReason := source.deactivationReason
    resetAt := source.resetAt
    blockedAt := source.blockedAt }

section

variable (target source : AccountRow σ) (E : TokenEncryptor σ)

@[simp] theorem applyAccountUpdates_id : (applyAccountUpdates target source).id = target.id := rfl

@[simp] theorem applyAccountUpdates_email :
    (applyAccountUpdates target source).email = source.email := rfl

@[simp] theorem applyAccountUpdates_tokens :
    (applyAccountUpdates target source).tokens E = source.tokens E := rfl

@[simp] theorem applyAccountUpdates_providerFields :
    (applyAccountUpdates target source).providerFields E = target.providerFields E := rfl

end

structure Database (σ : Type) where
  accounts : AccountsTable σ
  importWithoutOverwrite : Option Bool

def emptyDatabase : Database σ := ⟨⟨[], nodup_nil⟩, none⟩

namespace Database

def mergeByEmailEnabled (db : Database σ) : Bool :=
  match db.importWithoutOverwrite with
  | none => true
  | some off => !off

def merge (db : Database σ) (id : String) (account : AccountRow σ) : Database σ :=
  { db with
    accounts :=
      ⟨updateWhere (fun row => row.id = id) (applyAccountUpdates · account) db.accounts.rows,
        db.accounts.unique.update fun _ => rfl⟩ }

def add (db : Database σ) (account : AccountRow σ) : Except ImportError (Database σ × String) :=
  if h : db.accounts.get account.id = none then
    .ok ({ db with
      accounts := ⟨db.accounts.rows ++ [account], db.accounts.unique.append_singleton h⟩ },
      account.id)
  else .error (.integrity account.id)

end Database

/-! ### Ids of duplicates -/

def candidateId (base : String) (n : ℕ) : String :=
  if n = 0 then base else base ++ "__copy" ++ toString (n + 1)

def firstAvailable (taken : String → Bool) (candidate : ℕ → String) : ℕ → ℕ → String
  | 0, n => candidate n
  | fuel + 1, n =>
    if taken (candidate n) then firstAvailable taken candidate fuel (n + 1) else candidate n

theorem taken_of_firstAvailable {p : String → Bool} {candidate : ℕ → String} {fuel n : ℕ}
    (h : p (firstAvailable p candidate fuel n) = true) :
    ∀ k ≤ fuel, p (candidate (n + k)) = true := by
  induction fuel generalizing n with
  | zero =>
    intro k hk
    obtain rfl := Nat.le_zero.mp hk
    exact h
  | succ fuel ih =>
    unfold firstAvailable at h
    by_cases hn : p (candidate n) = true
    · rw [if_pos hn] at h
      intro k hk
      cases k with
      | zero => exact hn
      | succ k =>
        rw [Nat.add_comm k 1, ← Nat.add_assoc]
        exact ih h k (Nat.le_of_succ_le_succ hk)
    · rw [if_neg hn] at h
      exact absurd h hn

theorem candidateId_injective (base : String) : Function.Injective (candidateId base) := by
  have hne : ∀ n : ℕ, base ++ "__copy" ++ toString (n + 1) ≠ base := by
    intro n heq
    have hlen := congrArg String.length heq
    rw [String.length_append, String.length_append] at hlen
    have hcopy : "__copy".length = 6 := rfl
    omega
  intro m n h
  unfold candidateId at h
  split_ifs at h with hm hn hn
  · rw [hm, hn]
  · exact absurd h.symm (hne n)
  · exact absurd h (hne m)
  · have hdigits : Nat.toDigits 10 (m + 1) = Nat.toDigits 10 (n + 1) := by
      rw [Nat.toString_eq_ofList_toDigits, Nat.toString_eq_ofList_toDigits] at h
      simpa using congrArg String.toList h
    have hvalue := congrArg (Nat.ofDigitChars 10 · 0) hdigits
    simp only [Nat.ofDigitChars_ten_toDigits] at hvalue
    exact Nat.succ_injective hvalue

/-- `_next_available_account_id`; among as many candidates as there are rows and one more, one is
not taken. -/
def nextAvailableAccountId (t : AccountsTable σ) (base : String) : String :=
  firstAvailable (fun id => (t.get id).isSome) (candidateId base) t.rows.length 0

theorem get_nextAvailableAccountId (t : AccountsTable σ) (base : String) :
    t.get (nextAvailableAccountId t base) = none := by
  by_contra htaken
  have hall := taken_of_firstAvailable (p := fun id => (t.get id).isSome)
    (isSome_iff_ne_none.mpr htaken)
  -- one candidate more than there are rows cannot all be ids of rows
  have hsub : (List.range (t.rows.length + 1)).map (candidateId base) ⊆ t.rows.map (·.id) := by
    intro id hid
    obtain ⟨k, hk, rfl⟩ := mem_map.mp hid
    have hk' := hall k (Nat.lt_succ_iff.mp (mem_range.mp hk))
    rw [Nat.zero_add] at hk'
    obtain ⟨row, hrow⟩ := isSome_iff_exists.mp hk'
    obtain ⟨hmem, hkey⟩ := AccountsTable.get_eq_some.mp hrow
    exact mem_map.mpr ⟨row, hmem, hkey⟩
  have hnodup : ((List.range (t.rows.length + 1)).map (candidateId base)).Nodup :=
    nodup_range.map (candidateId_injective base)
  have hle := (subperm_of_subset hnodup hsub).length_le
  simp only [length_map, length_range] at hle
  omega

/-! ### The upsert -/

def singleAccountByEmail (db : Database σ) (email : String) :
    Except ImportError (Option (AccountRow σ)) :=
  match db.accounts.withEmail email with
  | [] => .ok none
  | [row] => .ok (some row)
  | _ => .error (.identityConflict email)

/-- `AccountsRepository.upsert`: the database and the id of the row it returns. Its locks keep other
writers out. -/
def upsert (db : Database σ) (account : AccountRow σ) (mergeByEmail : Option Bool) :
    Except ImportError (Database σ × String) :=
  let mergeByEmail := mergeByEmail.getD db.mergeByEmailEnabled
  match db.accounts.get account.id with
  | some existing =>
    if mergeByEmail then .ok (db.merge existing.id account, existing.id)
    else db.add { account with id := nextAvailableAccountId db.accounts account.id }
  | none =>
    if mergeByEmail then
      match singleAccountByEmail db account.email with
      | .error e => .error e
      | .ok (some existing) => .ok (db.merge existing.id account, existing.id)
      | .ok none => db.add account
    else db.add account

/-- The records of a batch, each with what is read while it is stored. Rows are named by their ids:
a record merged into a row returned before gets the same object. -/
def persistRecords (H : Host σ) : List (PortableAccountRecord × Readings) → Database σ →
    Except ImportError (Database σ × List String)
  | [], db => .ok (db, [])
  | (r, d) :: rest, db => do
    let (db, id) ← upsert db (newAccount H d r) none
    let (db, ids) ← persistRecords H rest db
    return (db, id :: ids)

def persistImportBatch (H : Host σ) (batch : List (PortableAccountRecord × Readings))
    (db : Database σ) : Except ImportError (Database σ × List (AccountRow σ)) := do
  let (db, ids) ← persistRecords H batch db
  return (db, ids.filterMap db.accounts.get)

/-! ## What one record does -/

def AccountRow.Meets (row account : AccountRow σ) : Prop :=
  row.id = account.id ∨ row.email = account.email

instance (row account : AccountRow σ) : Decidable (row.Meets account) :=
  inferInstanceAs (Decidable (_ ∨ _))

structure Stored (E : TokenEncryptor σ) (db : Database σ) (account : AccountRow σ)
    (db' : Database σ) (saved : AccountRow σ) : Prop where
  mem : saved ∈ db'.accounts.rows
  email : saved.email = account.email
  tokens : saved.tokens E = account.tokens E
  target :
    saved.providerFields E = account.providerFields E ∧
        (db.mergeByEmailEnabled = true → saved.id = account.id) ∨
      db.mergeByEmailEnabled = true ∧ ∃ row ∈ db.accounts.rows, row.Meets account ∧
        row.id = saved.id ∧ saved.providerFields E = row.providerFields E
  kept : ∀ row ∈ db.accounts.rows, (db.mergeByEmailEnabled = true → ¬row.Meets account) →
    row ∈ db'.accounts.rows
  origin : ∀ row ∈ db'.accounts.rows, row ∈ db.accounts.rows ∨ row = saved
  setting : db'.importWithoutOverwrite = db.importWithoutOverwrite

variable {db : Database σ}

theorem stored_merge (E : TokenEncryptor σ) {account row : AccountRow σ}
    (hmerge : db.mergeByEmailEnabled = true) (hrow : row ∈ db.accounts.rows)
    (hmeets : row.Meets account) :
    Stored E db account (db.merge row.id account) (applyAccountUpdates row account) where
  mem := mem_updateWhere.mpr ⟨row, hrow, if_pos (decide_eq_true rfl)⟩
  email := rfl
  tokens := rfl
  target := .inr ⟨hmerge, row, hrow, hmeets, rfl, rfl⟩
  kept := by
    intro other hother hfree
    have hne : other.id ≠ row.id := fun heq =>
      hfree hmerge (db.accounts.unique.eq_of_key_eq hother hrow heq ▸ hmeets)
    exact mem_updateWhere.mpr ⟨other, hother, if_neg (by simpa using hne)⟩
  origin := by
    intro other hother
    obtain ⟨before, hbefore, rfl⟩ := mem_updateWhere.mp hother
    by_cases hid : before.id = row.id
    · obtain rfl := db.accounts.unique.eq_of_key_eq hbefore hrow hid
      exact .inr (if_pos (decide_eq_true rfl))
    · refine .inl ?_
      rw [if_neg (by simpa using hid)]
      exact hbefore
  setting := rfl

theorem stored_add (E : TokenEncryptor σ) (account : AccountRow σ) {id : String}
    (h : db.accounts.get id = none) (hid : db.mergeByEmailEnabled = true → id = account.id) :
    ∃ db', db.add { account with id := id } = .ok (db', id) ∧
      Stored E db account db' { account with id := id } := by
  refine ⟨_, dif_pos h, ?_⟩
  exact {
    mem := mem_append_right _ (mem_singleton_self _)
    email := rfl
    tokens := rfl
    target := .inl ⟨rfl, hid⟩
    kept := fun row hrow _ => mem_append_left _ hrow
    origin := fun row hrow => (mem_append.mp hrow).imp_right mem_singleton.mp
    setting := rfl }

theorem singleAccountByEmail_cases (db : Database σ) (email : String) :
    singleAccountByEmail db email = .error (.identityConflict email) ∨
      singleAccountByEmail db email = .ok none ∨
      ∃ row ∈ db.accounts.rows, row.email = email ∧
        singleAccountByEmail db email = .ok (some row) := by
  unfold singleAccountByEmail
  rcases hrows : db.accounts.withEmail email with _ | ⟨row, _ | ⟨row', rest⟩⟩
  · exact .inr (.inl rfl)
  · have hmem : row ∈ db.accounts.withEmail email := by
      rw [hrows]
      exact mem_singleton_self row
    obtain ⟨hrow, hemail⟩ := mem_filter.mp hmem
    exact .inr (.inr ⟨row, hrow, of_decide_eq_true hemail, rfl⟩)
  · exact .inl rfl

/-- An upsert stores the account, or finds several with its e-mail where accounts are merged. -/
theorem upsert_stored (E : TokenEncryptor σ) (db : Database σ) (account : AccountRow σ) :
    (db.mergeByEmailEnabled = true ∧
        upsert db account none = .error (.identityConflict account.email)) ∨
      ∃ db' saved, upsert db account none = .ok (db', saved.id) ∧
        Stored E db account db' saved := by
  unfold upsert
  dsimp only [getD_none]
  cases hget : db.accounts.get account.id with
  | some existing =>
    obtain ⟨hmem, hid⟩ := AccountsTable.get_eq_some.mp hget
    cases hmerge : db.mergeByEmailEnabled with
    | true =>
      exact .inr ⟨_, applyAccountUpdates existing account, rfl,
        stored_merge E hmerge hmem (.inl hid)⟩
    | false =>
      have hfree := get_nextAvailableAccountId db.accounts account.id
      obtain ⟨db', hadd, hstored⟩ := stored_add E account hfree (by simp [hmerge])
      exact .inr ⟨db', { account with id := nextAvailableAccountId db.accounts account.id }, hadd,
        hstored⟩
  | none =>
    obtain ⟨db', hadd, hstored⟩ := stored_add E account hget fun _ => rfl
    cases hmerge : db.mergeByEmailEnabled with
    | true =>
      rcases singleAccountByEmail_cases db account.email with
        hconflict | hnone | ⟨row, hrow, hemail, hone⟩
      · exact .inl ⟨rfl, by simp [hconflict]⟩
      · exact .inr ⟨db', account, by simpa [hnone] using hadd, hstored⟩
      · exact .inr ⟨db.merge row.id account, applyAccountUpdates row account, by simp [hone],
          stored_merge E hmerge hrow (.inr hemail)⟩
    | false => exact .inr ⟨db', account, hadd, hstored⟩

/-! ## What a batch does -/

abbrev accountOf (H : Host σ) (p : PortableAccountRecord × Readings) : AccountRow σ :=
  newAccount H p.2 p.1

/-- The rows a record may be merged into are marked as the record is, no two records have one id or
e-mail, and no row has the id or e-mail of two. -/
structure Compatible (H : Host σ) (db : Database σ)
    (batch : List (PortableAccountRecord × Readings)) : Prop where
  wellFormed : ∀ p ∈ batch, p.1.WellFormed
  alike : db.mergeByEmailEnabled = true → ∀ p ∈ batch, ∀ row ∈ db.accounts.rows,
    row.Meets (accountOf H p) → row.providerFields H.encryptor = p.1.providerFields
  apart : db.mergeByEmailEnabled = true →
    batch.Pairwise fun p q => ¬(accountOf H p).Meets (accountOf H q)
  single : db.mergeByEmailEnabled = true → ∀ row ∈ db.accounts.rows,
    batch.Pairwise fun p q => ¬(row.Meets (accountOf H p) ∧ row.Meets (accountOf H q))

namespace Compatible

variable {H : Host σ} {db db' : Database σ} {p : PortableAccountRecord × Readings}
  {rest : List (PortableAccountRecord × Readings)} {saved : AccountRow σ}

theorem carries (h : Compatible H db (p :: rest))
    (hs : Stored H.encryptor db (accountOf H p) db' saved) :
    saved.Carries H.encryptor p.1 := by
  have hwf := h.wellFormed p mem_cons_self
  refine ⟨hs.tokens.trans (newAccount_tokens H p.2 p.1), ?_⟩
  rcases hs.target with ⟨hfields, -⟩ | ⟨hmerge, row, hrow, hmeets, -, hfields⟩
  · exact hfields.trans (newAccount_providerFields H p.2 hwf)
  · exact hfields.trans (h.alike hmerge p mem_cons_self row hrow hmeets)

theorem not_meets (h : Compatible H db (p :: rest))
    (hs : Stored H.encryptor db (accountOf H p) db' saved)
    (hmerge : db.mergeByEmailEnabled = true) {q : PortableAccountRecord × Readings}
    (hq : q ∈ rest) : ¬saved.Meets (accountOf H q) := by
  have hapart := (pairwise_cons.mp (h.apart hmerge)).1 q hq
  rintro (hid | hemail)
  · rcases hs.target with ⟨-, hown⟩ | ⟨-, row, hrow, hmeets, hrowid, -⟩
    · exact hapart (.inl ((hown hmerge).symm.trans hid))
    · exact (pairwise_cons.mp (h.single hmerge row hrow)).1 q hq
        ⟨hmeets, .inl (hrowid.trans hid)⟩
  · exact hapart (.inr (hs.email.symm.trans hemail))

theorem mergeByEmailEnabled_eq (hs : Stored H.encryptor db (accountOf H p) db' saved) :
    db'.mergeByEmailEnabled = db.mergeByEmailEnabled := by
  rw [Database.mergeByEmailEnabled, Database.mergeByEmailEnabled, hs.setting]

theorem tail (h : Compatible H db (p :: rest))
    (hs : Stored H.encryptor db (accountOf H p) db' saved) : Compatible H db' rest where
  wellFormed := fun q hq => h.wellFormed q (mem_cons_of_mem p hq)
  alike := by
    intro hmerge q hq row hrow hmeets
    rw [mergeByEmailEnabled_eq hs] at hmerge
    rcases hs.origin row hrow with hold | rfl
    · exact h.alike hmerge q (mem_cons_of_mem p hq) row hold hmeets
    · exact absurd hmeets (h.not_meets hs hmerge hq)
  apart := by
    intro hmerge
    rw [mergeByEmailEnabled_eq hs] at hmerge
    exact (pairwise_cons.mp (h.apart hmerge)).2
  single := by
    intro hmerge row hrow
    rw [mergeByEmailEnabled_eq hs] at hmerge
    rcases hs.origin row hrow with hold | rfl
    · exact (pairwise_cons.mp (h.single hmerge row hold)).2
    · exact pairwise_of_forall_mem_list fun q hq _ _ hboth =>
        h.not_meets hs hmerge hq hboth.1

end Compatible

structure Imported (H : Host σ) (db : Database σ)
    (batch : List (PortableAccountRecord × Readings)) (db' : Database σ) (ids : List String) :
    Prop where
  carries : List.Forall₂ (fun p id => ∃ row, db'.accounts.get id = some row ∧
    row.Carries H.encryptor p.1) batch ids
  kept : ∀ row ∈ db.accounts.rows,
    (∀ q ∈ batch, db.mergeByEmailEnabled = true → ¬row.Meets (accountOf H q)) →
      row ∈ db'.accounts.rows
  origin : ∀ row ∈ db'.accounts.rows, row ∈ db.accounts.rows ∨ row.id ∈ ids

theorem Imported.cons {H : Host σ} {db₁ db' : Database σ} {p : PortableAccountRecord × Readings}
    {rest : List (PortableAccountRecord × Readings)} {saved : AccountRow σ} {ids : List String}
    (h : Compatible H db (p :: rest)) (hs : Stored H.encryptor db (accountOf H p) db₁ saved)
    (hi : Imported H db₁ rest db' ids) :
    Imported H db (p :: rest) db' (saved.id :: ids) where
  carries := by
    -- later records leave the row alone
    have hsaved : saved ∈ db'.accounts.rows := hi.kept saved hs.mem fun q hq hmerge =>
      h.not_meets hs (Compatible.mergeByEmailEnabled_eq hs ▸ hmerge) hq
    exact .cons ⟨saved, AccountsTable.get_eq_some.mpr ⟨hsaved, rfl⟩, h.carries hs⟩ hi.carries
  kept := by
    intro row hrow hfree
    refine hi.kept row (hs.kept row hrow (hfree p mem_cons_self)) fun q hq hmerge => ?_
    exact hfree q (mem_cons_of_mem p hq) (Compatible.mergeByEmailEnabled_eq hs ▸ hmerge)
  origin := by
    intro row hrow
    rcases hi.origin row hrow with hmid | hid
    · exact (hs.origin row hmid).imp_right fun heq =>
        mem_cons.mpr (.inl (congrArg AccountRow.id heq))
    · exact .inr (mem_cons_of_mem _ hid)

theorem persistRecords_imported (H : Host σ) (batch : List (PortableAccountRecord × Readings))
    (db : Database σ) (h : Compatible H db batch) :
    (db.mergeByEmailEnabled = true ∧
        ∃ email, persistRecords H batch db = .error (.identityConflict email)) ∨
      ∃ db' ids, persistRecords H batch db = .ok (db', ids) ∧ Imported H db batch db' ids := by
  induction batch generalizing db with
  | nil =>
    exact .inr ⟨db, [], rfl, .nil, fun row hrow _ => hrow, fun row hrow => .inl hrow⟩
  | cons p rest ih =>
    rcases upsert_stored H.encryptor db (accountOf H p) with ⟨hmerge, hfail⟩ | ⟨db₁, saved, hok, hs⟩
    · refine .inl ⟨hmerge, p.1.email, ?_⟩
      rw [persistRecords, hfail]
      rfl
    · rcases ih db₁ (h.tail hs) with ⟨hmerge, email, hfail⟩ | ⟨db', ids, hrest, hi⟩
      · refine .inl ⟨Compatible.mergeByEmailEnabled_eq hs ▸ hmerge, email, ?_⟩
        rw [persistRecords, hok]
        simp only [bind, Except.bind, hfail]
      · refine .inr ⟨db', saved.id :: ids, ?_, hi.cons h hs⟩
        rw [persistRecords, hok]
        simp only [bind, Except.bind, hrest]
        rfl

theorem forall₂_filterMap {H : Host σ} {t : AccountsTable σ}
    {batch : List (PortableAccountRecord × Readings)} {ids : List String}
    (h : List.Forall₂ (fun p id => ∃ row, t.get id = some row ∧ row.Carries H.encryptor p.1)
      batch ids) :
    List.Forall₂ (fun p row => row.Carries H.encryptor p.1) batch (ids.filterMap t.get) := by
  induction h with
  | nil => exact .nil
  | cons hhead _ ih =>
    obtain ⟨row, hget, hcarries⟩ := hhead
    rw [filterMap_cons, hget]
    exact .cons hcarries ih

def clearHost : Host String := ⟨⟨fun _ token => token, id, fun _ _ => rfl⟩, id⟩

def openaiLogin (email token : String) : PortableAccountRecord :=
  { email := email, planType := "plus", rawAccountId := some "acc", idToken := token,
    accessToken := token, refreshToken := token }

def kiroLogin (email token : String) : PortableAccountRecord :=
  { email := email, planType := "kiro", accessToken := token, refreshToken := token,
    provider := .kiro, kiroAuthMethod := some "social", kiroRegion := some "us-east-1" }

def noonReadings : Readings := ⟨"0123456789abcdef", fun n => n, 0, 0⟩

def databaseOf (account : AccountRow String) : Database String :=
  ⟨⟨[account], nodup_singleton _⟩, none⟩

end CodexOctopus.Accounts
