import CodexOctopus.VersionedCache

/-!
# The caches of a process

Three caches stand before the database: the inputs of the account selection, the validated
API keys and the decisions of the firewall. Each has a version (the first calls it its
generation) that its invalidations count up, and each of their readers takes the version
before it loads and sets under that version. What a reader loads is a parameter: any
program that reads the database, and may fail.

A get, a set and an invalidation are single steps: the bodies under the locks do not await.

* `selectionCache`, `apiKeyCache`, `firewallCache`: the three as caches with a version.
-/

namespace CodexOctopus.ProcessCaches

open Interaction VersionedCache

variable {ν : Type}

/-! ## The account selection -/

abbrev SelectionKey : Type := Option String × Option String × Option (List String)

structure AccountSelectionCache (ν : Type) where
  cache : Entries SelectionKey ν
  generation : ℕ

namespace AccountSelectionCache

def get (ttlSeconds : ℕ) (s : AccountSelectionCache ν) (now : ℤ) (key : SelectionKey) : Option ν :=
  if ttlSeconds = 0 then none else s.cache.get now key

def set (ttlSeconds : ℕ) (s : AccountSelectionCache ν) (now : ℤ) (key : SelectionKey) (data : ν)
    (generation : Option ℕ) : AccountSelectionCache ν :=
  if generation.any (· ≠ s.generation) then s
  else { s with cache := s.cache.set key ⟨data, now + ttlSeconds⟩ }

def invalidate (s : AccountSelectionCache ν) : AccountSelectionCache ν :=
  ⟨[], s.generation + 1⟩

end AccountSelectionCache

theorem eq_of_not_any {n : Option ℕ} {version : ℕ} (h : ¬ n.any (· ≠ version) = true) :
    ∀ m ∈ n, m = version := by
  rintro m rfl
  simpa using h

def selectionCache (ttlSeconds : ℕ) : Cache (AccountSelectionCache ν) SelectionKey ν Unit where
  version s := s.generation
  get := AccountSelectionCache.get ttlSeconds
  set := AccountSelectionCache.set ttlSeconds
  invalidate s _ := s.invalidate
  covers _ _ := true
  Held s k v := s.cache.Holds k v
  held_of_get h := Entries.holds_of_get (Option.ite_none_left_eq_some.mp h).2
  version_set {s _ _ _ n} := by
    unfold AccountSelectionCache.set
    split_ifs <;> rfl
  held_set {s _ _ _ n _ _} h := by
    unfold AccountSelectionCache.set at h
    split_ifs at h with hversion
    · exact .inl h
    · exact (Entries.holds_of_set h).imp_right fun hv => ⟨hv, eq_of_not_any hversion⟩
  version_invalidate := Nat.lt_succ_self _
  held_invalidate h := by
    obtain ⟨_, hmem⟩ := h
    cases hmem

/-! ## The API keys -/

structure ApiKeyCache (ν : Type) where
  cache : Entries String ν
  version : ℕ

inductive KeyInvalidation : Type where
  | key (keyHash : String)
  | clear

namespace ApiKeyCache

/-- `min(self._cache.keys(), key=…)`: the first of the entries that expire first. -/
def oldest : Entries String ν → Option (String × Expiring ν)
  | [] => none
  | x :: rest =>
    match oldest rest with
    | none => some x
    | some y => if y.2.expiresAt < x.2.expiresAt then some y else some x

def evict (maxEntries : ℕ) (entries : Entries String ν) : Entries String ν :=
  if maxEntries ≤ entries.length then
    match oldest entries with
    -- `min` of no keys raises; it takes a cache without room for any entry
    | none => entries
    | some x => entries.pop x.1
  else entries

def get (s : ApiKeyCache ν) (now : ℤ) (keyHash : String) : Option ν := s.cache.get now keyHash

def set (ttl maxEntries : ℕ) (s : ApiKeyCache ν) (now : ℤ) (keyHash : String) (data : ν)
    (ifVersion : Option ℕ) : ApiKeyCache ν :=
  if ifVersion.any (· ≠ s.version) then s
  else { s with cache := (evict maxEntries s.cache).set keyHash ⟨data, now + ttl⟩ }

def invalidate (s : ApiKeyCache ν) : KeyInvalidation → ApiKeyCache ν
  | .key keyHash => ⟨s.cache.pop keyHash, s.version + 1⟩
  | .clear => ⟨[], s.version + 1⟩

theorem holds_of_evict {maxEntries : ℕ} {entries : Entries String ν} {k : String} {v : ν}
    (h : (evict maxEntries entries).Holds k v) : entries.Holds k v := by
  unfold evict at h
  split_ifs at h
  · split at h
    · exact h
    · exact (Entries.holds_of_pop h).1
  · exact h

end ApiKeyCache

def KeyInvalidation.covers : KeyInvalidation → String → Bool
  | .key keyHash, k => keyHash = k
  | .clear, _ => true

def apiKeyCache (ttl maxEntries : ℕ) : Cache (ApiKeyCache ν) String ν KeyInvalidation where
  version s := s.version
  get := ApiKeyCache.get
  set := ApiKeyCache.set ttl maxEntries
  invalidate := ApiKeyCache.invalidate
  covers := KeyInvalidation.covers
  Held s k v := s.cache.Holds k v
  held_of_get h := Entries.holds_of_get h
  version_set {s _ _ _ n} := by
    unfold ApiKeyCache.set
    split_ifs <;> rfl
  held_set {s _ _ _ n _ _} h := by
    unfold ApiKeyCache.set at h
    split_ifs at h with hversion
    · exact .inl h
    · exact (Entries.holds_of_set h).imp ApiKeyCache.holds_of_evict
        fun hv => ⟨hv, eq_of_not_any hversion⟩
  version_invalidate {s i} := by
    cases i <;> exact Nat.lt_succ_self _
  held_invalidate {s i k v} h := by
    cases i with
    | key keyHash =>
      obtain ⟨hheld, hne⟩ := Entries.holds_of_pop h
      exact ⟨hheld, decide_eq_false (Ne.symm hne)⟩
    | clear =>
      obtain ⟨_, hmem⟩ := h
      cases hmem

/-! ## The firewall -/

structure FirewallIPCache where
  cache : Entries String (Stamped Bool)
  version : ℕ

namespace FirewallIPCache

def isAllowed (s : FirewallIPCache) (now : ℤ) (ip : String) : Option (Stamped Bool) :=
  s.cache.get now ip

def set (ttlSeconds : ℕ) (s : FirewallIPCache) (now : ℤ) (ip : String) (allowed : Stamped Bool)
    (ifVersion : Option ℕ) : FirewallIPCache :=
  if ifVersion.any (· ≠ s.version) then s
  else { s with cache := s.cache.set ip ⟨allowed, now + ttlSeconds⟩ }

def invalidateAll (s : FirewallIPCache) : FirewallIPCache := ⟨[], s.version + 1⟩

end FirewallIPCache

def firewallCache (ttlSeconds : ℕ) : Cache FirewallIPCache String (Stamped Bool) Unit where
  version s := s.version
  get := FirewallIPCache.isAllowed
  set := FirewallIPCache.set ttlSeconds
  invalidate s _ := s.invalidateAll
  covers _ _ := true
  Held s k v := s.cache.Holds k v
  held_of_get h := Entries.holds_of_get h
  version_set {s _ _ _ n} := by
    unfold FirewallIPCache.set
    split_ifs <;> rfl
  held_set {s _ _ _ n _ _} h := by
    unfold FirewallIPCache.set at h
    split_ifs at h with hversion
    · exact .inl h
    · exact (Entries.holds_of_set h).imp_right fun hv => ⟨hv, eq_of_not_any hversion⟩
  version_invalidate := Nat.lt_succ_self _
  held_invalidate h := by
    obtain ⟨_, hmem⟩ := h
    cases hmem

/-! ## Readers and writers -/

section Programs

variable {κ ι Δ Q D X ε : Type}

def readThrough (key : κ) (loader : Loader Q D (Except ε ν)) :
    Prog (Op κ ν ι Q X) (Ans D) (Except ε ν) := do
  let cached : Option (Stamped ν) ← Prog.perform (Op.get key)
  match cached with
  | some v => return .ok v.value
  | none => loadAndSet key loader

def loadSelectionInputs (key : SelectionKey) (loader : Loader Q D (Except ε ν)) :
    Prog (Op SelectionKey ν Unit Q X) (Ans D) (Except ε ν) :=
  readThrough key loader

def validateApiKeyToken (expiresAt : ν → Option ℤ) (tokenHash : String)
    (loader : Loader Q D (Except ε ν)) :
    Prog (Op String ν KeyInvalidation Q X) (Ans D) (Except ε ν) := do
  let cached : Option (Stamped ν) ← Prog.perform (Op.get tokenHash)
  match cached with
  | none => loadAndSet tokenHash loader
  | some v =>
    match expiresAt v.value with
    | none => return .ok v.value
    | some expires =>
      let now : ℤ ← Prog.perform Op.utcnow
      if expires ≤ now then
        Prog.perform (Op.invalidate (.key tokenHash))
        loadAndSet tokenHash loader
      else return .ok v.value

def isIpAllowed (clientIp : Option String) (loader : Loader Q D (Except ε Bool)) :
    Prog (Op String Bool Unit Q X) (Ans D) (Except ε Bool) :=
  match clientIp with
  | some ip => readThrough ip loader
  | none => do
    let r ← load loader none
    return r.1

inductive Call (ρ ι X : Type) : Type where
  | read (request : ρ)
  | write (changes : List X) (i : ι)
  | invalidate (i : ι)

def commitAll : List X → Prog (Op κ ν ι Q X) (Ans D) Unit
  | [] => return
  | x :: rest => do
    Prog.perform (Op.commit x)
    commitAll rest

def program {ρ : Type} (read : ρ → Prog (Op κ ν ι Q X) (Ans D) (Except ε ν)) :
    Call ρ ι X → Prog (Op κ ν ι Q X) (Ans D) (Option (Except ε ν))
  | .read request => do
    let r ← read request
    return some r
  | .write changes i => do
    commitAll changes
    Prog.perform (Op.invalidate i)
    return none
  | .invalidate i => do
    Prog.perform (Op.invalidate i)
    return none

variable {h : History (@Ans κ ν ι Q X D)}

theorem sat_readThrough (key : κ) (loader : Loader Q D (Except ε ν)) :
    Sat setSpec (fun _ _ => True) h (@readThrough ν κ ι Q D X ε key loader) := by
  refine ⟨trivial, fun cached _ => ?_⟩
  cases cached with
  | none => exact sat_loadAndSet key loader
  | some v => trivial

theorem sat_validateApiKeyToken {h : History (@Ans String ν KeyInvalidation Q X D)}
    (expiresAt : ν → Option ℤ) (tokenHash : String) (loader : Loader Q D (Except ε ν)) :
    Sat setSpec (fun _ _ => True) h
      (@validateApiKeyToken ν Q D X ε expiresAt tokenHash loader) := by
  refine ⟨trivial, fun cached _ => ?_⟩
  cases cached with
  | none => exact sat_loadAndSet tokenHash loader
  | some v =>
    change Sat _ _ _ (match expiresAt v.value with | none => _ | some expires => _)
    cases expiresAt v.value with
    | none => trivial
    | some expires =>
      refine ⟨trivial, fun now _ => ?_⟩
      change Sat _ _ _ (if expires ≤ now then _ else _)
      by_cases hexpired : expires ≤ now
      · rw [if_pos hexpired]
        exact ⟨trivial, fun _ _ => sat_loadAndSet tokenHash loader⟩
      · rw [if_neg hexpired]
        trivial

theorem sat_isIpAllowed {h : History (@Ans String Bool Unit Q X D)} (clientIp : Option String)
    (loader : Loader Q D (Except ε Bool)) :
    Sat setSpec (fun _ _ => True) h (@isIpAllowed Q D X ε clientIp loader) := by
  cases clientIp with
  | some ip => exact sat_readThrough ip loader
  | none =>
    -- nothing is set, so nothing has to be said of the reads
    have hload : ∀ (p : Loader Q D (Except ε Bool)) first
      (h : History (@Ans String Bool Unit Q X D)),
        Sat setSpec (fun _ _ => True) h (@load String Bool Unit Q D X _ p first) := by
      intro p
      induction p with
      | ret a => exact fun _ _ => trivial
      | call q k ih => exact fun first h => ⟨trivial, fun r _ => ih r.1 _ _⟩
    exact (hload loader none h).bind fun _ _ _ => trivial

theorem sat_commitAll (changes : List X) :
    Sat setSpec (fun _ _ => True) h (@commitAll ν κ ι Q D X changes) := by
  induction changes generalizing h with
  | nil => trivial
  | cons x rest ih => exact ⟨trivial, fun _ _ => ih⟩

theorem sat_program {ρ : Type} {read : ρ → Prog (Op κ ν ι Q X) (Ans D) (Except ε ν)}
    (hread : ∀ request, Sat setSpec (fun _ _ => True) [] (read request)) (c : Call ρ ι X) :
    Sat setSpec (fun _ _ => True) [] (program read c) := by
  cases c with
  | read request => exact (hread request).bind fun _ _ _ => trivial
  | write changes i => exact (sat_commitAll changes).bind fun _ _ _ => ⟨trivial, fun _ _ => trivial⟩
  | invalidate i => exact ⟨trivial, fun _ _ => trivial⟩

end Programs

/-- **Invalidated data is not served** by the account-selection cache, the API-key cache or the
firewall cache: in every interleaving, a get after an invalidation of its key that followed a commit
returns nothing that was read before the commit. -/
theorem invalidated_not_served {Δ Q D X ε : Type} (db : Database Δ Q D X)
    (selectionTtl keyTtl maxEntries firewallTtl : ℕ) (expiresAt : ν → Option ℤ)
    (loadInputs : SelectionKey → Loader Q D (Except ε ν))
    (validateKey : String → Loader Q D (Except ε ν))
    (loadAllowed : Option String → Loader Q D (Except ε Bool)) :
    NeverStale (selectionCache selectionTtl) db
      (program fun key => loadSelectionInputs key (loadInputs key)) ∧
    NeverStale (apiKeyCache keyTtl maxEntries) db
      (program fun tokenHash => validateApiKeyToken expiresAt tokenHash (validateKey tokenHash)) ∧
    NeverStale (firewallCache firewallTtl) db
      (program fun clientIp => isIpAllowed clientIp (loadAllowed clientIp)) :=
  ⟨never_stale (sat_program fun key => sat_readThrough key (loadInputs key)),
    never_stale (sat_program fun tokenHash =>
      sat_validateApiKeyToken expiresAt tokenHash (validateKey tokenHash)),
    never_stale (sat_program fun clientIp => sat_isIpAllowed clientIp (loadAllowed clientIp))⟩

end CodexOctopus.ProcessCaches
