import CodexOctopus.ResponsesRequest

/-!
# Models that an API key enforces

`app/modules/proxy/request_policy.py`: a key may enforce a model and a reasoning effort for
each of two tiers. The tier of a request is read off the name of its model
(`is_mini_model`), and the enforcement writes that name. A request that goes to the
instance which owns its session is enforced at the instance that took it
(`_stream_responses`, which checks the access and reserves usage for the model) and once
more at the owner.
-/

namespace CodexOctopus

structure EnforcedModelTier where
  model : Option String
  reasoningEffort : Option String
  deriving DecidableEq

structure EnforcedModelTiers where
  mini : Option EnforcedModelTier
  standard : Option EnforcedModelTier
  deriving DecidableEq

structure ApiKeyPolicy where
  allowedModels : Option (List String)
  enforcedServiceTier : Option String
  enforcedModelTiers : Option EnforcedModelTiers
  deriving DecidableEq

def isMiniModel (model : String) : Bool :=
  let normalized := (Python.lower (Python.strip model)).toList
  "-mini".toList.isSuffixOf normalized || normalized.tails.any "-mini-".toList.isPrefixOf

def tierForRequestedModel (key : ApiKeyPolicy) (model : String) : Option EnforcedModelTier :=
  match key.enforcedModelTiers with
  | none => none
  | some tiers => if isMiniModel model then tiers.mini else tiers.standard

def validateModelAccess (key : Option ApiKeyPolicy) (model : String) : Except String Unit :=
  match key.bind ApiKeyPolicy.allowedModels with
  | none => .ok ()
  | some allowed =>
    if allowed = [] ∨ model ∈ allowed then .ok ()
    else .error ("This API key does not have access to model '" ++ model ++ "'")

def enforceModel (tier : Option EnforcedModelTier) (model : String) : String :=
  match tier.bind EnforcedModelTier.model with
  | none => model
  | some enforced => if enforced ≠ "" then enforced else model

def enforceReasoning (tier : Option EnforcedModelTier) (reasoning : Option ResponsesReasoning) :
    Option ResponsesReasoning :=
  match tier.bind EnforcedModelTier.reasoningEffort with
  | none => reasoning
  | some effort =>
    match reasoning with
    | none => some { effort := some effort, summary := none, extra := .of _ [] }
    | some r => some { r with effort := some effort }

def enforceServiceTier (key : ApiKeyPolicy) (serviceTier : Option String) : Option String :=
  match key.enforcedServiceTier with
  | none => serviceTier
  | some tier => if tier = "default" then none else some tier

def applyApiKeyEnforcement (payload : ResponsesRequest) (key : Option ApiKeyPolicy) :
    ResponsesRequest :=
  match key with
  | none => payload
  | some key =>
    let tier := tierForRequestedModel key payload.model
    { payload with
      model := enforceModel tier payload.model
      reasoning := enforceReasoning tier payload.reasoning
      serviceTier := enforceServiceTier key payload.serviceTier }

/-- A request that an instance has taken: what it goes on with, and the model that usage was
reserved for. -/
structure Admission where
  payload : ResponsesRequest
  reservedModel : String

/-- `_stream_responses` at the instance that takes a request, for a key within its limits. -/
def admitRequest (key : Option ApiKeyPolicy) (payload : ResponsesRequest) :
    Except String Admission := do
  let payload := applyApiKeyEnforcement payload key
  validateModelAccess key payload.model
  return { payload := { payload with stream := some true }, reservedModel := payload.model }

/-- `_stream_responses` at the owner, which keeps the reservation it was sent. The result is what
goes upstream. -/
def admitForwarded (key : Option ApiKeyPolicy) (payload : ResponsesRequest) :
    Except String ResponsesRequest := do
  let payload := applyApiKeyEnforcement payload key
  validateModelAccess key payload.model
  return { payload with stream := some true }

/-! ## Enforcing twice -/

def SameTier (key : Option ApiKeyPolicy) (model : String) : Prop :=
  match key with
  | none => True
  | some key => isMiniModel (enforceModel (tierForRequestedModel key model) model) = isMiniModel
      model

instance (key : Option ApiKeyPolicy) (model : String) : Decidable (SameTier key model) :=
  match key with
  | none => inferInstanceAs (Decidable True)
  | some key => inferInstanceAs (Decidable
      (isMiniModel (enforceModel (tierForRequestedModel key model) model) = isMiniModel model))

theorem enforceModel_idem (tier : Option EnforcedModelTier) (model : String) :
    enforceModel tier (enforceModel tier model) = enforceModel tier model := by
  unfold enforceModel
  cases tier.bind EnforcedModelTier.model with
  | none => rfl
  | some enforced =>
    dsimp only
    split_ifs <;> rfl

theorem enforceReasoning_idem (tier : Option EnforcedModelTier)
    (reasoning : Option ResponsesReasoning) :
    enforceReasoning tier (enforceReasoning tier reasoning) = enforceReasoning tier reasoning := by
  unfold enforceReasoning
  cases tier.bind EnforcedModelTier.reasoningEffort with
  | none => rfl
  | some effort => cases reasoning <;> rfl

theorem enforceServiceTier_idem (key : ApiKeyPolicy) (serviceTier : Option String) :
    enforceServiceTier key (enforceServiceTier key serviceTier) =
      enforceServiceTier key serviceTier := by
  unfold enforceServiceTier
  split <;> rfl

theorem tierForRequestedModel_congr (key : ApiKeyPolicy) {a b : String}
    (h : isMiniModel a = isMiniModel b) :
    tierForRequestedModel key a = tierForRequestedModel key b := by
  rw [tierForRequestedModel, h, tierForRequestedModel]

theorem applyApiKeyEnforcement_idem {key : Option ApiKeyPolicy} {payload : ResponsesRequest}
    (h : SameTier key payload.model) :
    applyApiKeyEnforcement (applyApiKeyEnforcement payload key) key =
      applyApiKeyEnforcement payload key := by
  cases key with
  | none => rfl
  | some key =>
    have htier := tierForRequestedModel_congr key h
    simp only [applyApiKeyEnforcement, htier, enforceModel_idem, enforceReasoning_idem,
      enforceServiceTier_idem]

theorem model_applyApiKeyEnforcement (key : Option ApiKeyPolicy) {p q : ResponsesRequest}
    (h : p.model = q.model) :
    (applyApiKeyEnforcement p key).model = (applyApiKeyEnforcement q key).model := by
  cases key with
  | none => exact h
  | some key => simp only [applyApiKeyEnforcement, h]

theorem admitRequest_ok {key : Option ApiKeyPolicy} {payload : ResponsesRequest}
    {admission : Admission} (h : admitRequest key payload = .ok admission) :
    validateModelAccess key admission.reservedModel = .ok () ∧
      admission.reservedModel = (applyApiKeyEnforcement payload key).model ∧
      admission.payload.model = admission.reservedModel := by
  obtain ⟨⟨⟩, haccess, hrest⟩ := bind_eq_ok.mp h
  cases hrest
  exact ⟨haccess, rfl, rfl⟩

theorem model_of_validate_dump {p q : ResponsesRequest}
    (h : ResponsesRequest.validate p.dump = .ok q) : q.model = p.model := by
  have htext : requiredText "model" (present (p.fields ++ p.extra.entries)) = .ok p.model :=
    ResponsesRequest.requiredText_dump (by simp [ResponsesRequest.fields])
  obtain ⟨fs, hfs, hmodel, -⟩ := ResponsesRequest.validate_ok h
  cases hfs
  have hread := (ResponsesRequest.requiredText_of_validateModel hmodel).1
  exact Except.ok.inj (hread.symm.trans htext)

def tieredKey (mini standard : String) : ApiKeyPolicy where
  allowedModels := none
  enforcedServiceTier := none
  enforcedModelTiers := some ⟨some ⟨some mini, some "low"⟩, some ⟨some standard, none⟩⟩

def requestFor (model : String) : ResponsesRequest where
  model := model
  instructions := ""
  input := []
  tools := []
  toolChoice := .null
  parallelToolCalls := none
  reasoning := none
  store := false
  stream := none
  includes := []
  serviceTier := none
  conversation := none
  previousResponseId := none
  truncation := none
  promptCacheKey := none
  text := none
  extra := .of _ []

end CodexOctopus
