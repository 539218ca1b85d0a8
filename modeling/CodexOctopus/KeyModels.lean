import CodexOctopus.ModelEnforcement
import CodexOctopus.Run

/-!
# The models that a key enforces and those that it allows

`app/modules/api_keys/service.py` keeps both in a row of the key, as JSON texts. `create_key` and
`update_key` refuse a tier that enforces a model which is not allowed. An update checks the field it
sets against the other one as it has read it, and writes its own field only: two updates of one key
may each be right and leave a row that is not.

* `keyStep` interleaves the calls; the read of an update and its commit are separate steps.
-/

namespace CodexOctopus

open List Option Python Lts

structure JsonModule where
  dumps : Json → String
  loads : String → Option Json
  str : Json → String
  loads_dumps : ∀ v, loads (dumps v) = some v
  str_str : ∀ s, str (.str s) = s

namespace KeyModels

variable (J : JsonModule)

/-! ## The fields of a key -/

def normalizeAllowedModels (allowedModels : Option (List String)) : Option (List String) :=
  allowedModels.map fun models => (models.map Python.strip).filter (· ≠ "")

def normalizeModelSlug (value : Option String) : Option String :=
  (value.map Python.strip).filter (· ≠ "")

def supportedReasoningEfforts : List String := ["none", "minimal", "low", "medium", "high", "xhigh"]

def normalizeReasoningEffort (value : Option String) : Except String (Option String) :=
  match (value.map fun v => lower (Python.strip v)).filter (· ≠ "") with
  | none => .ok none
  | some normalized =>
    if normalized ∈ supportedReasoningEfforts then .ok (some normalized)
    else .error ("Unsupported enforced reasoning effort '" ++ normalized ++
      "'. Expected one of: high, low, medium, minimal, none, xhigh")

def normalizeReasoningEffortLenient (value : Option String) : Option String :=
  (value.map fun v => lower (Python.strip v)).filter (· ∈ supportedReasoningEfforts)

def tierOf (model reasoningEffort : Option String) : Option EnforcedModelTier :=
  if model = none ∧ reasoningEffort = none then none else some ⟨model, reasoningEffort⟩

def tiersOf (mini standard : Option EnforcedModelTier) : Option EnforcedModelTiers :=
  if mini = none ∧ standard = none then none else some ⟨mini, standard⟩

def normalizeEnforcedModelTier :
    Option EnforcedModelTier → Except String (Option EnforcedModelTier)
  | none => .ok none
  | some tier => do
    let reasoningEffort ← normalizeReasoningEffort tier.reasoningEffort
    return tierOf (normalizeModelSlug tier.model) reasoningEffort

def normalizeEnforcedModelTiers :
    Option EnforcedModelTiers → Except String (Option EnforcedModelTiers)
  | none => .ok none
  | some tiers => do
    let mini ← normalizeEnforcedModelTier tiers.mini
    let standard ← normalizeEnforcedModelTier tiers.standard
    return tiersOf mini standard

def serializeAllowedModels (allowedModels : Option (List String)) : Option String :=
  allowedModels.map fun models => J.dumps (.arr (models.map .str))

def deserializeAllowedModels : Option String → Except String (Option (List String))
  | none => .ok none
  | some payload =>
    match J.loads payload with
    | none => .error "JSONDecodeError"
    | some (.arr items) =>
      .ok (some ((items.map fun value => Python.strip (J.str value)).filter (· ≠ "")))
    | some _ => .ok none

def field {α : Type} (name : String) (f : α → Json) (value : Option α) : List (String × Json) :=
  (value.map fun v => (name, f v)).toList

def tierPayload (tier : EnforcedModelTier) : Json :=
  .obj (field "model" .str tier.model ++ field "reasoningEffort" .str tier.reasoningEffort)

def serializeEnforcedModelTiers (tiers : Option EnforcedModelTiers) :
    Except String (Option String) := do
  let normalized ← normalizeEnforcedModelTiers tiers
  return normalized.map fun t =>
    J.dumps (.obj (field "mini" tierPayload t.mini ++ field "standard" tierPayload t.standard))

def deserializeEnforcedModelTier : Option Json → Option EnforcedModelTier
  | some (.obj value) =>
    let reasoning := (getItem "reasoningEffort" value).or
      (getItem "reasoning_effort" value)
    tierOf (normalizeModelSlug ((getItem "model" value).bind Json.str?))
      (normalizeReasoningEffortLenient (reasoning.bind Json.str?))
  | _ => none

def deserializeEnforcedModelTiers : Option String → Except String (Option EnforcedModelTiers)
  | none => .ok none
  | some payload =>
    match J.loads payload with
    | none => .error "JSONDecodeError"
    | some (.obj value) =>
      .ok (tiersOf (deserializeEnforcedModelTier (getItem "mini" value))
        (deserializeEnforcedModelTier (getItem "standard" value)))
    | some _ => .ok none

def validateTier (name : String) (tier : Option EnforcedModelTier) (allowedModels : List String) :
    Except String Unit :=
  match tier.bind EnforcedModelTier.model with
  | none => .ok ()
  | some model =>
    if model ∈ allowedModels then .ok ()
    else .error ("enforced_model_tiers." ++ name ++
      ".model must be present in allowed_models when allowed_models is configured")

def validateTieredModelEnforcement (tiers : Option EnforcedModelTiers)
    (allowedModels : Option (List String)) : Except String Unit :=
  match tiers, allowedModels.getD [] with
  | none, _ | _, [] => .ok ()
  | some tiers, allowed => do
    validateTier "mini" tiers.mini allowed
    validateTier "standard" tiers.standard allowed

/-! ## Calls -/

structure KeyColumns where
  allowedModels : Option String
  enforcedModelTiers : Option String
  deriving DecidableEq

def policyOf (enforcedServiceTier : Option String) (row : KeyColumns) :
    Except String ApiKeyPolicy := do
  let allowedModels ← deserializeAllowedModels J row.allowedModels
  let tiers ← deserializeEnforcedModelTiers J row.enforcedModelTiers
  return ⟨allowedModels, enforcedServiceTier, tiers⟩

def createColumns (allowedModels : Option (List String)) (tiers : Option EnforcedModelTiers) :
    Except String KeyColumns := do
  let tiers ← normalizeEnforcedModelTiers tiers
  validateTieredModelEnforcement tiers (normalizeAllowedModels allowedModels)
  let text ← serializeEnforcedModelTiers J tiers
  return ⟨serializeAllowedModels J (normalizeAllowedModels allowedModels), text⟩

structure KeyUpdateData where
  allowedModels : Option (Option (List String))
  enforcedModelTiers : Option (Option EnforcedModelTiers)

/-- The columns that `update_key` gives to the repository; `none` is `_UNSET`. -/
def updateColumns (existing : KeyColumns) (payload : KeyUpdateData) :
    Except String (Option (Option String) × Option (Option String)) :=
  match payload.allowedModels, payload.enforcedModelTiers with
  | none, none => .ok (none, none)
  | some allowed, none => do
    let allowed := normalizeAllowedModels allowed
    let tiers ← deserializeEnforcedModelTiers J existing.enforcedModelTiers
    validateTieredModelEnforcement tiers allowed
    return (some (serializeAllowedModels J allowed), none)
  | none, some tiers => do
    let tiers ← normalizeEnforcedModelTiers tiers
    let allowed ← deserializeAllowedModels J existing.allowedModels
    validateTieredModelEnforcement tiers allowed
    let text ← serializeEnforcedModelTiers J tiers
    return (none, some text)
  | some allowed, some tiers => do
    let row ← createColumns J allowed tiers
    return (some row.allowedModels, some row.enforcedModelTiers)

def flushed (write : Option (Option String)) (loaded stored : Option String) : Option String :=
  match write with
  | none => stored
  | some value => if value = loaded then stored else value

structure KeyStore where
  rows : List (String × KeyColumns)
  updates : List (ℕ × String × KeyColumns)

inductive KeyAct : Type where
  | create (keyId : String) (allowedModels : Option (List String))
      (tiers : Option EnforcedModelTiers)
  | read (uid : ℕ) (keyId : String)
  /-- `update_key` checks its fields, writes them and commits -/
  | commit (uid : ℕ) (payload : KeyUpdateData)
  /-- `update_key` raises for a reason of its other fields, or is cancelled -/
  | fail (uid : ℕ)

def keyStep (s : KeyStore) : KeyAct → Option KeyStore
  | .create keyId allowedModels tiers =>
    if keyId ∈ s.rows.map Prod.fst then none
    else match createColumns J allowedModels tiers with
      | .error _ => some s
      | .ok row => some { s with rows := s.rows ++ [(keyId, row)] }
  | .read uid keyId =>
    if uid ∈ s.updates.map Prod.fst then none
    else (getItem keyId s.rows).map fun row =>
      { s with updates := (uid, keyId, row) :: s.updates }
  | .commit uid payload =>
    (s.updates.find? fun u => u.1 = uid).map fun u =>
      let rows := match updateColumns J u.2.2 payload with
        | .error _ => s.rows
        | .ok (allowed, tiers) => s.rows.map fun x =>
          if x.1 = u.2.1 then
            (x.1, ⟨flushed allowed u.2.2.allowedModels x.2.allowedModels,
              flushed tiers u.2.2.enforcedModelTiers x.2.enforcedModelTiers⟩)
          else x
      ⟨rows, s.updates.filter fun u => u.1 ≠ uid⟩
  | .fail uid => some { s with updates := s.updates.filter fun u => u.1 ≠ uid }

/-- **The condition** on steps: when an update that sets one of the fields commits, the key has the
columns that the update has read. -/
def Undisturbed (s : KeyStore) : KeyAct → Prop
  | .commit uid payload => payload.allowedModels ≠ none ∨ payload.enforcedModelTiers ≠ none →
    ∀ u ∈ s.updates.find? (fun u => u.1 = uid), ∀ x ∈ s.rows, x.1 = u.2.1 → x.2 = u.2.2
  | _ => True

instance decidableUndisturbed (s : KeyStore) : ∀ a, Decidable (Undisturbed s a)
  | .commit _ _ => by dsimp only [Undisturbed]; infer_instance
  | .create _ _ _ | .read _ _ | .fail _ => .isTrue trivial

/-! ## Texts -/

section

variable {J}

theorem deserializeAllowedModels_serialize (allowedModels : Option (List String)) :
    deserializeAllowedModels J (serializeAllowedModels J (normalizeAllowedModels allowedModels)) =
      .ok (normalizeAllowedModels allowedModels) := by
  cases allowedModels with
  | none => rfl
  | some models =>
    set kept := (models.map Python.strip).filter (· ≠ "") with hkept
    have hstrip : ∀ m ∈ kept, Python.strip m = m ∧ m ≠ "" := by
      intro m hm
      obtain ⟨hm, hne⟩ := mem_filter.mp hm
      obtain ⟨v, -, rfl⟩ := mem_map.mp hm
      exact ⟨strip_strip v, of_decide_eq_true hne⟩
    have hmap : (kept.map Json.str).map (fun v => Python.strip (J.str v)) = kept := by
      rw [List.map_map]
      refine (List.map_congr_left fun m hm => ?_).trans (List.map_id kept)
      rw [Function.comp_apply, J.str_str, (hstrip m hm).1, id]
    have hfilter : kept.filter (· ≠ "") = kept :=
      filter_eq_self.mpr fun m hm => decide_eq_true (hstrip m hm).2
    simp only [normalizeAllowedModels, serializeAllowedModels, map_some, ← hkept,
      deserializeAllowedModels, J.loads_dumps, hmap, hfilter]

theorem normalizeModelSlug_idem (value : Option String) :
    normalizeModelSlug (normalizeModelSlug value) = normalizeModelSlug value := by
  rcases hv : normalizeModelSlug value with _ | m
  · rfl
  · obtain ⟨hm, hne⟩ := filter_eq_some_iff.mp hv
    obtain ⟨v, -, rfl⟩ := map_eq_some_iff.mp hm
    simp only [normalizeModelSlug, map_some, strip_strip]
    exact filter_eq_some_iff.mpr ⟨rfl, hne⟩

theorem normalizeReasoningEffort_normal {value effort : Option String}
    (h : normalizeReasoningEffort value = .ok effort) :
    normalizeReasoningEffort effort = .ok effort ∧
      normalizeReasoningEffortLenient effort = effort := by
  unfold normalizeReasoningEffort at h
  split at h
  · cases h
    exact ⟨rfl, rfl⟩
  · split_ifs at h with hmem
    cases h
    have hall : ∀ e ∈ supportedReasoningEfforts, normalizeReasoningEffort (some e) = .ok (some e) ∧
        normalizeReasoningEffortLenient (some e) = some e := by decide
    exact hall _ hmem

theorem getItem_fields {α : Type} {x y : String} (hne : x ≠ y) (f : α → Json) (a b : Option α) :
    getItem x (field x f a ++ field y f b) = a.map f ∧
      getItem y (field x f a ++ field y f b) = b.map f ∧
      ∀ z, z ≠ x → z ≠ y → getItem z (field x f a ++ field y f b) = none := by
  refine ⟨?_, ?_, fun z hx hy => ?_⟩
  · cases a <;> cases b <;> simp [field, getItem, hne.symm]
  · cases a <;> cases b <;> simp [field, getItem, hne]
  · cases a <;> cases b <;> simp [field, getItem, hx.symm, hy.symm]

def NormalTier (tier : Option EnforcedModelTier) : Prop :=
  normalizeEnforcedModelTier tier = .ok tier ∧
    deserializeEnforcedModelTier (tier.map tierPayload) = tier

variable {tier : Option EnforcedModelTier} {model : String}

theorem normalTier {normalized : Option EnforcedModelTier}
    (h : normalizeEnforcedModelTier tier = .ok normalized) : NormalTier normalized := by
  cases tier with
  | none =>
    cases h
    exact ⟨rfl, rfl⟩
  | some t =>
    obtain ⟨effort, heffort, hok⟩ := bind_eq_ok.mp h
    obtain rfl := Except.ok.inj hok
    have hslug := normalizeModelSlug_idem t.model
    obtain ⟨hnormal, hlenient⟩ := normalizeReasoningEffort_normal heffort
    generalize normalizeModelSlug t.model = model at hslug
    by_cases hnone : model = none ∧ effort = none
    · rw [tierOf, if_pos hnone]
      exact ⟨rfl, rfl⟩
    · have htier : tierOf model effort = some ⟨model, effort⟩ := if_neg hnone
      obtain ⟨hmodel, hreasoning, hold⟩ := getItem_fields (x := "model") (y := "reasoningEffort")
        (by decide) Json.str model effort
      have hstr : ∀ v : Option String, (v.map Json.str).bind Json.str? = v := by rintro (_ | v) <;>
        rfl
      rw [htier]
      refine ⟨bind_eq_ok.mpr ⟨effort, hnormal, ?_⟩, ?_⟩
      · rw [hslug, htier]
        rfl
      · simp only [map_some, tierPayload, deserializeEnforcedModelTier, hmodel, hreasoning,
          hold "reasoning_effort" (by decide) (by decide), or_none, hstr, hslug, hlenient, htier]

theorem serializeEnforcedModelTiers_normal {tiers normalized : Option EnforcedModelTiers}
    (h : normalizeEnforcedModelTiers tiers = .ok normalized) :
    ∃ text, serializeEnforcedModelTiers J normalized = .ok text ∧
      deserializeEnforcedModelTiers J text = .ok normalized := by
  cases tiers with
  | none =>
    cases h
    exact ⟨none, rfl, rfl⟩
  | some t =>
    obtain ⟨mini, hmini, h⟩ := bind_eq_ok.mp h
    obtain ⟨standard, hstandard, hok⟩ := bind_eq_ok.mp h
    obtain rfl := Except.ok.inj hok
    obtain ⟨hm, hmread⟩ := normalTier hmini
    obtain ⟨hs, hsread⟩ := normalTier hstandard
    by_cases hnone : mini = none ∧ standard = none
    · rw [tiersOf, if_pos hnone]
      exact ⟨none, rfl, rfl⟩
    · have htiers : tiersOf mini standard = some ⟨mini, standard⟩ := if_neg hnone
      have hnormal : normalizeEnforcedModelTiers (some ⟨mini, standard⟩) = .ok
        (tiersOf mini standard) :=
        bind_eq_ok.mpr ⟨mini, hm, bind_eq_ok.mpr ⟨standard, hs, rfl⟩⟩
      obtain ⟨hgetMini, hgetStandard, -⟩ := getItem_fields (x := "mini") (y := "standard")
        (by decide)
        tierPayload mini standard
      rw [htiers] at hnormal ⊢
      refine ⟨_, bind_eq_ok.mpr ⟨_, hnormal, rfl⟩, ?_⟩
      simp only [map_some, deserializeEnforcedModelTiers, J.loads_dumps, hgetMini,
        hgetStandard, hmread, hsread, htiers]

/-! ## Rows -/

def ValidRow (J : JsonModule) (row : KeyColumns) : Prop :=
  ∃ allowed tiers, deserializeAllowedModels J row.allowedModels = .ok allowed ∧
    deserializeEnforcedModelTiers J row.enforcedModelTiers = .ok tiers ∧
    validateTieredModelEnforcement tiers allowed = .ok ()

theorem createColumns_valid {allowed : Option (List String)} {tiers : Option EnforcedModelTiers}
    {row : KeyColumns} (h : createColumns J allowed tiers = .ok row) : ValidRow J row := by
  obtain ⟨normalized, hnormal, h⟩ := bind_eq_ok.mp h
  obtain ⟨⟨⟩, hvalid, h⟩ := bind_eq_ok.mp h
  obtain ⟨text, htext, hrow⟩ := bind_eq_ok.mp h
  obtain rfl := Except.ok.inj hrow
  obtain ⟨text', htext', hread⟩ := @serializeEnforcedModelTiers_normal J _ _ hnormal
  obtain rfl := Except.ok.inj (htext.symm.trans htext')
  exact ⟨_, normalized, deserializeAllowedModels_serialize allowed, hread, hvalid⟩

theorem updateColumns_valid {existing : KeyColumns} {payload : KeyUpdateData}
    {w : Option (Option String) × Option (Option String)}
    (h : updateColumns J existing payload = .ok w) :
    w = (none, none) ∨ (payload.allowedModels ≠ none ∨ payload.enforcedModelTiers ≠ none) ∧
      ValidRow J ⟨w.1.getD existing.allowedModels, w.2.getD existing.enforcedModelTiers⟩ := by
  rcases payload with ⟨_ | allowed, _ | tiers⟩
  · exact .inl (Except.ok.inj h).symm
  · obtain ⟨normalized, hnormal, h⟩ := bind_eq_ok.mp h
    obtain ⟨allowed, hallowed, h⟩ := bind_eq_ok.mp h
    obtain ⟨⟨⟩, hvalid, h⟩ := bind_eq_ok.mp h
    obtain ⟨text, htext, hw⟩ := bind_eq_ok.mp h
    obtain rfl := Except.ok.inj hw
    obtain ⟨text', htext', hread⟩ := @serializeEnforcedModelTiers_normal J _ _ hnormal
    obtain rfl := Except.ok.inj (htext.symm.trans htext')
    exact .inr ⟨.inr nofun, allowed, normalized, hallowed, hread, hvalid⟩
  · obtain ⟨tiers, htiers, h⟩ := bind_eq_ok.mp h
    obtain ⟨⟨⟩, hvalid, hw⟩ := bind_eq_ok.mp h
    obtain rfl := Except.ok.inj hw
    exact .inr ⟨.inl nofun, _, tiers, deserializeAllowedModels_serialize allowed, htiers, hvalid⟩
  · obtain ⟨row, hrow, hw⟩ := bind_eq_ok.mp h
    obtain rfl := Except.ok.inj hw
    exact .inr ⟨.inl nofun, createColumns_valid hrow⟩

theorem flushed_self (write : Option (Option String)) (loaded : Option String) :
    flushed write loaded loaded = write.getD loaded := by
  cases write with
  | none => rfl
  | some value =>
    rw [flushed, getD_some]
    split_ifs with h
    · exact h.symm
    · rfl

theorem keyStep_valid {s s' : KeyStore} {a : KeyAct} (h : ∀ x ∈ s.rows, ValidRow J x.2)
    (hok : Undisturbed s a) (hs : keyStep J s a = some s') : ∀ x ∈ s'.rows, ValidRow J x.2 := by
  cases a with
  | create keyId allowed tiers =>
    obtain ⟨-, hs⟩ := ite_none_left_eq_some.mp hs
    split at hs
    · exact some.inj hs ▸ h
    · next row hrow =>
      rw [← some.inj hs, forall_mem_append]
      exact ⟨h, by simpa using createColumns_valid hrow⟩
  | read uid keyId =>
    obtain ⟨-, hs⟩ := ite_none_left_eq_some.mp hs
    obtain ⟨row, -, rfl⟩ := map_eq_some_iff.mp hs
    exact h
  | commit uid payload =>
    obtain ⟨u, hu, rfl⟩ := map_eq_some_iff.mp hs
    dsimp only
    split
    · exact h
    · next allowed tiers hw =>
      rw [List.forall_mem_map]
      intro x hx
      split_ifs with hid
      · rcases updateColumns_valid hw with hnone | ⟨hset, hvalid⟩
        · obtain ⟨rfl, rfl⟩ := Prod.mk.inj hnone
          exact h x hx
        · -- the columns that are not written are those that were checked
          have hcols := hok hset u hu x hx hid
          rw [hcols, flushed_self, flushed_self]
          exact hvalid
      · exact h x hx
  | fail uid =>
    cases hs
    exact h

/-! ## Policies -/

theorem mem_of_validateTier {name : String} {allowed : List String}
    (h : validateTier name tier allowed = .ok ())
    (hm : tier.bind EnforcedModelTier.model = some model) : model ∈ allowed := by
  rw [validateTier, hm] at h
  dsimp only at h
  split_ifs at h with hmem
  exact hmem

theorem mem_of_validate {tiers : EnforcedModelTiers} {allowed : List String}
    (h : validateTieredModelEnforcement (some tiers) (some allowed) = .ok ()) (hne : allowed ≠ [])
    (htier : tier = tiers.mini ∨ tier = tiers.standard)
    (hm : tier.bind EnforcedModelTier.model = some model) : model ∈ allowed := by
  rcases allowed with _ | ⟨m, ms⟩
  · exact absurd rfl hne
  · obtain ⟨⟨⟩, hmini, hstandard⟩ := bind_eq_ok.mp h
    rcases htier with rfl | rfl
    · exact mem_of_validateTier hmini hm
    · exact mem_of_validateTier hstandard hm

theorem ne_empty_of_deserialize {value : Option Json}
    (h : (deserializeEnforcedModelTier value).bind EnforcedModelTier.model = some model) :
    model ≠ "" := by
  unfold deserializeEnforcedModelTier at h
  split at h
  · dsimp only [tierOf] at h
    split_ifs at h
    · cases h
    · exact of_decide_eq_true (filter_eq_some_iff.mp h).2
  · cases h

theorem tiers_of_deserialize {text : Option String} {tiers : EnforcedModelTiers}
    (h : deserializeEnforcedModelTiers J text = .ok (some tiers))
    (htier : tier = tiers.mini ∨ tier = tiers.standard) :
    ∃ value, tier = deserializeEnforcedModelTier value := by
  unfold deserializeEnforcedModelTiers at h
  split at h
  · cases h
  · split at h
    · cases h
    · have h := Except.ok.inj h
      rw [tiersOf] at h
      split_ifs at h
      cases h
      exact htier.elim (fun h => ⟨_, h⟩) fun h => ⟨_, h⟩
    · cases h

end

def compactJson : JsonModule where
  dumps := Json.dumpsPlain
  loads := Json.loads
  str v := v.str?.getD v.dumpsPlain
  loads_dumps := Json.loads_dumpsPlain
  str_str _ := rfl

def miniTier (model : String) : Option EnforcedModelTiers := some ⟨some ⟨some model, none⟩, none⟩

def updatesInTurn : List KeyAct :=
  [.create "k" (some ["a", "b"]) none, .read 0 "k", .commit 0 ⟨some (some ["a"]), none⟩, .read 1
    "k",
    .commit 1 ⟨none, some (miniTier "a")⟩]

def updatesAtOnce : List KeyAct :=
  [.create "k" (some ["a", "b"]) none, .read 0 "k", .read 1 "k", .commit 0
    ⟨some (some ["a"]), none⟩,
    .commit 1 ⟨none, some (miniTier "b")⟩]

end KeyModels

end CodexOctopus
