import CodexOctopus.RequestInput

/-!
# Requests for a response

`ResponsesRequest` in `app/core/openai/requests.py` with its validators, and
`model_dump(mode="json", exclude_none=True)`.

* `validate_dump`: a request in normal form is accepted again from its dump, and comes back
  without the extra fields that are null (`settled`).
* `dump_settled`: those make no difference to the dump.

A text format is the exception: its field `schema_` may also be given under its alias
`schema`. If that one is null, a second one under the name becomes the schema when the
dump is read (`SchemaNamed`).
-/

namespace CodexOctopus

open List Option Python

/-! ## Fields -/

/-- The path of the field; the shape of the value is wrong, or a validator refuses it. -/
inductive RequestError where
  | shape (path : List String)
  | value (path : List String) (message : String)

def present (fs : List (String × Json)) : List (String × Json) := fs.filter fun x => !x.2.isNull

structure Extra (names : List String) where
  entries : List (String × Json)
  apart : ∀ x ∈ entries, x.1 ∉ names

namespace Extra

variable {names : List String}

def of (names : List String) (fs : List (String × Json)) : Extra names where
  entries := fs.filter fun x => x.1 ∉ names
  apart _ hx := of_decide_eq_true (mem_filter.mp hx).2

def settled (e : Extra names) : Extra names where
  entries := present e.entries
  apart x hx := e.apart x (mem_of_mem_filter hx)

end Extra

def requiredText (name : String) (fs : List (String × Json)) : Except RequestError String :=
  match getItem name fs with
  | some (.str s) => .ok s
  | _ => .error (.shape [name])

def optionalText (path : List String) (name : String) (fs : List (String × Json)) :
    Except RequestError (Option String) :=
  match fieldOf name fs with
  | .null => .ok none
  | .str s => .ok (some s)
  | _ => .error (.shape (path ++ [name]))

def laxBool : Json → Option Bool
  | .bool b => some b
  | .str s =>
    if lower s ∈ ["0", "f", "n", "no", "off", "false"] then some false
    else if lower s ∈ ["1", "t", "y", "on", "yes", "true"] then some true
    else none
  | .num n =>
    if n.text ∈ ["0", "0.0", "-0.0"] then some false
    else if n.text ∈ ["1", "1.0"] then some true
    else none
  | _ => none

def optionalBool (path : List String) (name : String) (fs : List (String × Json)) :
    Except RequestError (Option Bool) :=
  match fieldOf name fs with
  | .null => .ok none
  | v =>
    match laxBool v with
    | some b => .ok (some b)
    | none => .error (.shape (path ++ [name]))

def ofText : Option String → Json
  | none => .null
  | some s => .str s

def ofBool : Option Bool → Json
  | none => .null
  | some b => .bool b

/-! ## Reasoning and text controls -/

def reasoningNames : List String := ["effort", "summary"]

structure ResponsesReasoning where
  effort : Option String
  summary : Option String
  extra : Extra reasoningNames

namespace ResponsesReasoning

def validate (fs : List (String × Json)) : Except RequestError ResponsesReasoning := do
  let effort ← optionalText ["reasoning"] "effort" fs
  let summary ← optionalText ["reasoning"] "summary" fs
  return ⟨effort, summary, .of _ fs⟩

def fields (r : ResponsesReasoning) : List (String × Json) :=
  [("effort", ofText r.effort), ("summary", ofText r.summary)]

theorem map_fst_fields (r : ResponsesReasoning) : r.fields.map Prod.fst = reasoningNames := rfl

def dump (r : ResponsesReasoning) : Json := .obj (present (r.fields ++ r.extra.entries))

def settled (r : ResponsesReasoning) : ResponsesReasoning := { r with extra := r.extra.settled }

end ResponsesReasoning

def formatNames : List String := ["type", "strict", "schema", "name"]

structure ResponsesTextFormat where
  type : Option String
  strict : Option Bool
  schema : Json
  name : Option String
  extra : Extra formatNames

namespace ResponsesTextFormat

/-- `schema_` is given under its alias, or else under its name. -/
def schemaOf (fs : List (String × Json)) : Json :=
  (getItem "schema" fs).getD (fieldOf "schema_" fs)

def extraOf (fs : List (String × Json)) : Extra formatNames :=
  match getItem "schema" fs with
  | some _ => .of _ fs
  | none => .of _ (fs.filter fun x => x.1 ≠ "schema_")

def validate (fs : List (String × Json)) : Except RequestError ResponsesTextFormat := do
  let type ← optionalText ["text", "format"] "type" fs
  let strict ← optionalBool ["text", "format"] "strict" fs
  let name ← optionalText ["text", "format"] "name" fs
  return ⟨type, strict, schemaOf fs, name, extraOf fs⟩

def fields (f : ResponsesTextFormat) : List (String × Json) :=
  [("type", ofText f.type), ("strict", ofBool f.strict), ("schema", f.schema),
    ("name", ofText f.name)]

theorem map_fst_fields (f : ResponsesTextFormat) : f.fields.map Prod.fst = formatNames := rfl

def dump (f : ResponsesTextFormat) : Json := .obj (present (f.fields ++ f.extra.entries))

def settled (f : ResponsesTextFormat) : ResponsesTextFormat := { f with extra := f.extra.settled }

/-- Beside a null schema, nothing is given under the name of the field. -/
def SchemaNamed (f : ResponsesTextFormat) : Prop :=
  f.schema.isNull = true → ∀ x ∈ f.extra.entries, x.1 = "schema_" → x.2.isNull = true

end ResponsesTextFormat

def optionalModel {α : Type} (path : List String) (name : String)
    (read : List (String × Json) → Except RequestError α) (fs : List (String × Json)) :
    Except RequestError (Option α) :=
  match fieldOf name fs with
  | .null => .ok none
  | .obj gs => (read gs).map some
  | _ => .error (.shape (path ++ [name]))

def controlsNames : List String := ["verbosity", "format"]

structure ResponsesTextControls where
  verbosity : Option String
  format : Option ResponsesTextFormat
  extra : Extra controlsNames

namespace ResponsesTextControls

def validate (fs : List (String × Json)) : Except RequestError ResponsesTextControls := do
  let verbosity ← optionalText ["text"] "verbosity" fs
  let format ← optionalModel ["text"] "format" ResponsesTextFormat.validate fs
  return ⟨verbosity, format, .of _ fs⟩

def fields (t : ResponsesTextControls) : List (String × Json) :=
  [("verbosity", ofText t.verbosity), ("format", (t.format.map (·.dump)).getD .null)]

theorem map_fst_fields (t : ResponsesTextControls) : t.fields.map Prod.fst = controlsNames := rfl

def dump (t : ResponsesTextControls) : Json := .obj (present (t.fields ++ t.extra.entries))

def settled (t : ResponsesTextControls) : ResponsesTextControls :=
  { t with format := t.format.map (·.settled), extra := t.extra.settled }

def SchemaNamed (t : ResponsesTextControls) : Prop := ∀ f, t.format = some f → f.SchemaNamed

end ResponsesTextControls

/-! ## The request -/

def includeAllowlist : List String :=
  ["code_interpreter_call.outputs", "computer_call_output.output.image_url",
    "file_search_call.results", "message.input_image.image_url", "message.output_text.logprobs",
    "reasoning.encrypted_content", "web_search_call.action.sources"]

def responsesUnsupportedToolTypes : List String := []

def normalizeToolType (toolType : String) : String :=
  if toolType = "web_search_preview" then "web_search" else toolType

def normalizeToolFields (fs : List (String × Json)) : List (String × Json) :=
  match fieldOf "type" fs with
  | .str toolType =>
    if normalizeToolType toolType ≠ toolType then
      setItem "type" (.str (normalizeToolType toolType)) fs
    else fs
  | _ => fs

def validateToolType (unsupported : List String) : Json → Except String Json
  | .obj fs =>
    match fieldOf "type" (normalizeToolFields fs) with
    | .str toolType =>
      if toolType ∈ unsupported then .error ("Unsupported tool type: " ++ toolType)
      else .ok (.obj (normalizeToolFields fs))
    | _ => .ok (.obj (normalizeToolFields fs))
  | tool => .ok tool

def validateToolTypes (unsupported : List String) (tools : List Json) : Except String (List Json) :=
  tools.mapM (validateToolType unsupported)

def normalizeServiceTierAlias (tier : String) : String :=
  if lower (strip tier) = "fast" then "priority" else tier

def normalizeInputText (text : String) : List Json :=
  [.obj [("role", .str "user"),
    ("content", .arr [.obj [("type", .str "input_text"), ("text", .str text)]])]]

def requestNames : List String :=
  ["model", "instructions", "input", "tools", "tool_choice", "parallel_tool_calls", "reasoning",
    "store", "stream", "include", "service_tier", "conversation", "previous_response_id",
    "truncation", "prompt_cache_key", "text"]

structure ResponsesRequest where
  model : String
  instructions : String
  input : List Json
  tools : List Json
  toolChoice : Json
  parallelToolCalls : Option Bool
  reasoning : Option ResponsesReasoning
  store : Bool
  stream : Option Bool
  includes : List String
  serviceTier : Option String
  conversation : Option String
  previousResponseId : Option String
  truncation : Option String
  promptCacheKey : Option String
  text : Option ResponsesTextControls
  extra : Extra requestNames

namespace ResponsesRequest

def validateModel (fs : List (String × Json)) : Except RequestError String := do
  let model ← requiredText "model" fs
  if model = "" then .error (.shape ["model"]) else return model

def validateItems (items : List Json) : Except RequestError (List Json) :=
  if hasInputFileId items then .error (.value ["input"] "input_file.file_id is not supported")
  else (sanitizeInputItems items).mapError (.value ["input"])

def validateInput (fs : List (String × Json)) : Except RequestError (List Json) :=
  match getItem "input" fs with
  | none => .error (.shape ["input"])
  | some (.str text) => validateItems (normalizeInputText text)
  | some (.arr items) => validateItems items
  | some _ => .error (.value ["input"] "input must be a string or array")

def validateTools (fs : List (String × Json)) : Except RequestError (List Json) :=
  match getItem "tools" fs with
  | none => .ok []
  | some (.arr tools) =>
    (validateToolTypes responsesUnsupportedToolTypes tools).mapError (.value ["tools"])
  | some _ => .error (.shape ["tools"])

def validateToolChoice (fs : List (String × Json)) : Except RequestError Json :=
  match fieldOf "tool_choice" fs with
  | .null => .ok .null
  | .str s => .ok (.str s)
  | .obj gs => .ok (.obj (normalizeToolFields gs))
  | _ => .error (.shape ["tool_choice"])

def validateStore (fs : List (String × Json)) : Except RequestError Bool :=
  match getItem "store" fs with
  | none => .ok false
  | some v =>
    match laxBool v with
    | none => .error (.shape ["store"])
    | some true => .error (.value ["store"] "store must be false")
    | some false => .ok false

def validateIncludeEntry : Json → Except RequestError String
  | .str entry =>
    if entry ∈ includeAllowlist then .ok entry
    else .error (.value ["include"] ("Unsupported include value: " ++ entry))
  | _ => .error (.shape ["include"])

def validateInclude (fs : List (String × Json)) : Except RequestError (List String) :=
  match getItem "include" fs with
  | none => .ok []
  | some (.arr entries) => entries.mapM validateIncludeEntry
  | some _ => .error (.shape ["include"])

def normalizePreviousResponseId (value : Option String) : Option String :=
  (value.map strip).filter (· ≠ "")

def validateTruncation (fs : List (String × Json)) : Except RequestError (Option String) := do
  let truncation ← optionalText [] "truncation" fs
  if truncation.isSome then .error (.value ["truncation"] "truncation is not supported")
  else return truncation

def TwoPredecessors (p : ResponsesRequest) : Prop :=
  p.conversation.getD "" ≠ "" ∧ p.previousResponseId.getD "" ≠ ""

instance (p : ResponsesRequest) : Decidable p.TwoPredecessors :=
  inferInstanceAs (Decidable (_ ∧ _))

def validate : Json → Except RequestError ResponsesRequest
  | .obj fs => do
    let model ← validateModel fs
    let instructions ← requiredText "instructions" fs
    let input ← validateInput fs
    let tools ← validateTools fs
    let toolChoice ← validateToolChoice fs
    let parallelToolCalls ← optionalBool [] "parallel_tool_calls" fs
    let reasoning ← optionalModel [] "reasoning" ResponsesReasoning.validate fs
    let store ← validateStore fs
    let stream ← optionalBool [] "stream" fs
    let includes ← validateInclude fs
    let serviceTier ← optionalText [] "service_tier" fs
    let conversation ← optionalText [] "conversation" fs
    let previousResponseId ← optionalText [] "previous_response_id" fs
    let truncation ← validateTruncation fs
    let promptCacheKey ← optionalText [] "prompt_cache_key" fs
    let text ← optionalModel [] "text" ResponsesTextControls.validate fs
    let request : ResponsesRequest :=
      { model, instructions, input, tools, toolChoice, parallelToolCalls, reasoning, store, stream,
        includes, serviceTier := serviceTier.map normalizeServiceTierAlias, conversation,
        previousResponseId := normalizePreviousResponseId previousResponseId, truncation,
        promptCacheKey, text, extra := .of _ fs }
    if request.TwoPredecessors then
      .error (.value []
        "Provide either 'conversation' or 'previous_response_id', not both.")
    else return request
  | _ => .error (.shape [])

def fields (p : ResponsesRequest) : List (String × Json) :=
  [("model", .str p.model), ("instructions", .str p.instructions), ("input", .arr p.input),
    ("tools", .arr p.tools), ("tool_choice", p.toolChoice),
    ("parallel_tool_calls", ofBool p.parallelToolCalls),
    ("reasoning", (p.reasoning.map (·.dump)).getD .null), ("store", .bool p.store),
    ("stream", ofBool p.stream), ("include", .arr (p.includes.map .str)),
    ("service_tier", ofText p.serviceTier), ("conversation", ofText p.conversation),
    ("previous_response_id", ofText p.previousResponseId), ("truncation", ofText p.truncation),
    ("prompt_cache_key", ofText p.promptCacheKey), ("text", (p.text.map (·.dump)).getD .null)]

theorem map_fst_fields (p : ResponsesRequest) : p.fields.map Prod.fst = requestNames := rfl

def dump (p : ResponsesRequest) : Json := .obj (present (p.fields ++ p.extra.entries))

def settled (p : ResponsesRequest) : ResponsesRequest :=
  { p with
    reasoning := p.reasoning.map (·.settled), text := p.text.map (·.settled),
    extra := p.extra.settled }

def SchemaNamed (p : ResponsesRequest) : Prop := ∀ t, p.text = some t → t.SchemaNamed

end ResponsesRequest

/-! ## Reading a dump -/

section Dump

variable {names : List String} {fs : List (String × Json)} {e : Extra names} {key : String}
  {v : Json}

theorem getItem_present_of_mem (hmem : (key, v) ∈ fs) (huniq : ∀ x ∈ fs, x.1 = key → x.2 = v) :
    getItem key (present fs) = if v.isNull then none else some v := by
  split_ifs with hnull
  · refine getItem_eq_none fun x hx hkey => ?_
    obtain ⟨hx, hpresent⟩ := mem_filter.mp hx
    rw [huniq x hx hkey, hnull] at hpresent
    cases hpresent
  · have hsome : ((present fs).find? fun x => x.1 = key).isSome :=
      find?_isSome.mpr ⟨(key, v), mem_filter.mpr ⟨hmem, by simpa using hnull⟩,
        decide_eq_true rfl⟩
    obtain ⟨x, hx⟩ := isSome_iff_exists.mp hsome
    have hkey : x.1 = key := by simpa using find?_some hx
    have hv := huniq x (mem_of_mem_filter (mem_of_find?_eq_some hx)) hkey
    rw [getItem, hx, map_some, hv]

theorem getItem_dumped (hnames : fs.map Prod.fst = names) (hnodup : names.Nodup)
    (hmem : (key, v) ∈ fs) :
    getItem key (present (fs ++ e.entries)) = if v.isNull then none else some v := by
  refine getItem_present_of_mem (mem_append_left _ hmem) fun x hx hkey => ?_
  obtain hx | hx := mem_append.mp hx
  · have hsame := inj_on_of_nodup_map (hnames ▸ hnodup) hx hmem hkey
    rw [hsame]
  · have hname : key ∈ names := hnames ▸ mem_map_of_mem hmem
    exact absurd (hkey ▸ hname) (e.apart x hx)

theorem fieldOf_dumped (hnames : fs.map Prod.fst = names) (hnodup : names.Nodup)
    (hmem : (key, v) ∈ fs) : fieldOf key (present (fs ++ e.entries)) = v := by
  rw [fieldOf, getItem_dumped hnames hnodup hmem]
  split_ifs with hnull
  · rw [eq_null hnull, getD_none]
  · rfl

theorem extra_dumped (hnames : fs.map Prod.fst = names) :
    Extra.of names (present (fs ++ e.entries)) = e.settled := by
  have hfields : (present fs).filter (fun x => x.1 ∉ names) = [] := by
    refine filter_eq_nil_iff.mpr fun x hx => ?_
    have hname : x.1 ∈ names := hnames ▸ mem_map_of_mem (mem_of_mem_filter hx)
    simp [hname]
  have hextra : (present e.entries).filter (fun x => x.1 ∉ names) = present e.entries :=
    filter_eq_self.mpr fun x hx =>
      decide_eq_true (e.apart x (mem_of_mem_filter hx))
  simp only [Extra.of, Extra.settled, present, List.filter_append] at hfields hextra ⊢
  congr 1
  rw [hfields, hextra, nil_append]

theorem present_settled : present (fs ++ e.settled.entries) = present (fs ++ e.entries) := by
  simp only [present, Extra.settled, List.filter_append, List.filter_filter, Bool.and_self]

variable {name : String} {path : List String}

theorem optionalText_of_fieldOf {value : Option String} (h : fieldOf name fs = ofText value) :
    optionalText path name fs = .ok value := by
  rw [optionalText, h]
  cases value <;> rfl

theorem optionalBool_of_fieldOf {value : Option Bool} (h : fieldOf name fs = ofBool value) :
    optionalBool path name fs = .ok value := by
  rw [optionalBool, h]
  cases value <;> rfl

theorem optionalModel_of_fieldOf {α : Type} {read : List (String × Json) → Except RequestError α}
    {value : Option α} (dumped : α → Json) {again : α → α}
    (h : fieldOf name fs = (value.map dumped).getD .null)
    (hread : ∀ a, value = some a → ∃ gs, dumped a = .obj gs ∧ read gs = .ok (again a)) :
    optionalModel path name read fs = .ok (value.map again) := by
  rw [optionalModel, h]
  cases value with
  | none => rfl
  | some a =>
    obtain ⟨gs, hdumped, hgs⟩ := hread a rfl
    rw [map_some, getD_some, hdumped]
    dsimp only
    rw [hgs]
    rfl

end Dump

theorem ResponsesReasoning.validate_dump (r : ResponsesReasoning) :
    ResponsesReasoning.validate (present (r.fields ++ r.extra.entries)) = .ok r.settled := by
  have hfield : ∀ {key v}, (key, v) ∈ r.fields →
      fieldOf key (present (r.fields ++ r.extra.entries)) = v :=
    fun hmem => fieldOf_dumped r.map_fst_fields (by decide) hmem
  have heffort : optionalText ["reasoning"] "effort" _ = .ok r.effort :=
    optionalText_of_fieldOf (hfield (by simp [fields]))
  have hsummary : optionalText ["reasoning"] "summary" _ = .ok r.summary :=
    optionalText_of_fieldOf (hfield (by simp [fields]))
  rw [ResponsesReasoning.validate, heffort, hsummary, extra_dumped r.map_fst_fields]
  rfl

theorem ResponsesReasoning.dump_settled (r : ResponsesReasoning) : r.settled.dump = r.dump :=
  congrArg Json.obj present_settled

namespace ResponsesTextFormat

variable {f : ResponsesTextFormat}

theorem schemaOf_dump (h : f.SchemaNamed) :
    schemaOf (present (f.fields ++ f.extra.entries)) = f.schema := by
  have hget : getItem "schema" (present (f.fields ++ f.extra.entries)) =
      if f.schema.isNull then none else some f.schema :=
    getItem_dumped f.map_fst_fields (by decide) (by simp [fields])
  rw [schemaOf, hget]
  split_ifs with hnull
  · have hnone : getItem "schema_" (present (f.fields ++ f.extra.entries)) = none := by
      refine getItem_eq_none fun x hx hname => ?_
      obtain ⟨hx, hpresent⟩ := mem_filter.mp hx
      obtain hx | hx := mem_append.mp hx
      · have hfields : x.1 ∈ formatNames := mem_map_of_mem hx
        rw [hname] at hfields
        exact absurd hfields (by decide)
      · rw [h hnull x hx hname] at hpresent
        cases hpresent
    rw [fieldOf, hnone, getD_none, getD_none, eq_null hnull]
  · rfl

theorem extraOf_dump (h : f.SchemaNamed) :
    extraOf (present (f.fields ++ f.extra.entries)) = f.extra.settled := by
  have hget : getItem "schema" (present (f.fields ++ f.extra.entries)) =
      if f.schema.isNull then none else some f.schema :=
    getItem_dumped f.map_fst_fields (by decide) (by simp [fields])
  rw [extraOf, hget]
  split_ifs with hnull
  · have hkept : (present (f.fields ++ f.extra.entries)).filter (fun x => x.1 ≠ "schema_") =
        present (f.fields ++ f.extra.entries) := by
      refine filter_eq_self.mpr fun x hx => decide_eq_true fun hname => ?_
      obtain ⟨hx, hpresent⟩ := mem_filter.mp hx
      obtain hx | hx := mem_append.mp hx
      · have hfields : x.1 ∈ formatNames := mem_map_of_mem hx
        rw [hname] at hfields
        exact absurd hfields (by decide)
      · rw [h hnull x hx hname] at hpresent
        cases hpresent
    dsimp only
    rw [hkept, extra_dumped f.map_fst_fields]
  · exact extra_dumped f.map_fst_fields

theorem validate_dump (h : f.SchemaNamed) :
    ResponsesTextFormat.validate (present (f.fields ++ f.extra.entries)) = .ok f.settled := by
  have hfield : ∀ {key v}, (key, v) ∈ f.fields →
      fieldOf key (present (f.fields ++ f.extra.entries)) = v :=
    fun hmem => fieldOf_dumped f.map_fst_fields (by decide) hmem
  have htype : optionalText ["text", "format"] "type" _ = .ok f.type :=
    optionalText_of_fieldOf (hfield (by simp [fields]))
  have hstrict : optionalBool ["text", "format"] "strict" _ = .ok f.strict :=
    optionalBool_of_fieldOf (hfield (by simp [fields]))
  have hname : optionalText ["text", "format"] "name" _ = .ok f.name :=
    optionalText_of_fieldOf (hfield (by simp [fields]))
  rw [ResponsesTextFormat.validate, htype, hstrict, hname, schemaOf_dump h, extraOf_dump h]
  rfl

theorem dump_settled (f : ResponsesTextFormat) : f.settled.dump = f.dump :=
  congrArg Json.obj present_settled

end ResponsesTextFormat

theorem ResponsesTextControls.dump_settled (t : ResponsesTextControls) :
    t.settled.dump = t.dump := by
  have hfields : t.settled.fields = t.fields := by
    simp [fields, settled, Function.comp_def, ResponsesTextFormat.dump_settled]
  rw [dump, hfields]
  exact congrArg Json.obj present_settled

theorem ResponsesTextControls.validate_dump {t : ResponsesTextControls} (h : t.SchemaNamed) :
    ResponsesTextControls.validate (present (t.fields ++ t.extra.entries)) = .ok t.settled := by
  have hfield : ∀ {key v}, (key, v) ∈ t.fields →
      fieldOf key (present (t.fields ++ t.extra.entries)) = v :=
    fun hmem => fieldOf_dumped t.map_fst_fields (by decide) hmem
  have hverbosity : optionalText ["text"] "verbosity" _ = .ok t.verbosity :=
    optionalText_of_fieldOf (hfield (by simp [fields]))
  have hformat : optionalModel ["text"] "format" ResponsesTextFormat.validate _ =
      .ok (t.format.map (·.settled)) :=
    optionalModel_of_fieldOf (·.dump) (hfield (by simp [fields])) fun f hf =>
      ⟨_, rfl, ResponsesTextFormat.validate_dump (h f hf)⟩
  rw [ResponsesTextControls.validate, hverbosity, hformat, extra_dumped t.map_fst_fields]
  rfl

/-! ## Validating twice -/

theorem normalizeToolType_idem (toolType : String) :
    normalizeToolType (normalizeToolType toolType) = normalizeToolType toolType := by
  unfold normalizeToolType
  split_ifs with h h'
  · exact absurd h' (by decide)
  · rfl
  · rfl

theorem normalizeToolFields_idem (fs : List (String × Json)) :
    normalizeToolFields (normalizeToolFields fs) = normalizeToolFields fs := by
  cases htype : fieldOf "type" fs with
  | str toolType =>
    by_cases hne : normalizeToolType toolType = toolType
    · have hsame : normalizeToolFields fs = fs := by
        simp only [normalizeToolFields, htype, hne, ne_eq, not_true, if_false]
      rw [hsame, hsame]
    · have hset : normalizeToolFields fs =
          setItem "type" (.str (normalizeToolType toolType)) fs := by
        simp only [normalizeToolFields, htype, ne_eq, hne, not_false_eq_true, if_true]
      rw [hset]
      simp only [normalizeToolFields, fieldOf_setItem_self, normalizeToolType_idem, ne_eq,
        not_true, if_false]
  | _ => simp only [normalizeToolFields, htype]

theorem validateToolType_fixed {unsupported : List String} {tool checked : Json}
    (h : validateToolType unsupported tool = .ok checked) :
    validateToolType unsupported checked = .ok checked := by
  cases tool with
  | obj fs =>
    have hchecked : checked = .obj (normalizeToolFields fs) := by
      rw [validateToolType] at h
      split at h
      · split_ifs at h
        exact (Except.ok.inj h).symm
      · exact (Except.ok.inj h).symm
    subst hchecked
    rw [validateToolType, normalizeToolFields_idem]
    exact h
  | _ =>
    cases h
    rfl

theorem normalizeServiceTierAlias_idem (tier : String) :
    normalizeServiceTierAlias (normalizeServiceTierAlias tier) = normalizeServiceTierAlias
      tier := by
  unfold normalizeServiceTierAlias
  split_ifs with h h'
  · rfl
  · rfl
  · rfl

theorem bind_eq_ok {α β ε : Type} {x : Except ε α} {f : α → Except ε β} {b : β} :
    x >>= f = .ok b ↔ ∃ a, x = .ok a ∧ f a = .ok b := by
  cases x with
  | error e => simp [bind, Except.bind]
  | ok a => simp [bind, Except.bind]

namespace ResponsesRequest

structure Valid (p : ResponsesRequest) : Prop where
  model : p.model ≠ ""
  files : hasInputFileId p.input = false
  input : sanitizeInputItems p.input = .ok p.input
  tools : ∀ tool ∈ p.tools, validateToolType responsesUnsupportedToolTypes tool = .ok tool
  toolChoice : validateToolChoice [("tool_choice", p.toolChoice)] = .ok p.toolChoice
  store : p.store = false
  includes : ∀ entry ∈ p.includes, entry ∈ includeAllowlist
  serviceTier : p.serviceTier.map normalizeServiceTierAlias = p.serviceTier
  previousResponseId : normalizePreviousResponseId p.previousResponseId = p.previousResponseId
  truncation : p.truncation = none
  predecessors : ¬p.TwoPredecessors

variable {fs : List (String × Json)}

theorem requiredText_of_validateModel {model : String} (h : validateModel fs = .ok model) :
    requiredText "model" fs = .ok model ∧ model ≠ "" := by
  obtain ⟨m, htext, hm⟩ := bind_eq_ok.mp h
  split_ifs at hm with hempty
  cases hm
  exact ⟨htext, hempty⟩

theorem validateItems_ok {items cleaned : List Json} (h : validateItems items = .ok cleaned) :
    hasInputFileId cleaned = false ∧ sanitizeInputItems cleaned = .ok cleaned := by
  unfold validateItems at h
  split_ifs at h with hfile
  cases hclean : sanitizeInputItems items with
  | error e => simp [hclean, Except.mapError] at h
  | ok out =>
    obtain rfl : out = cleaned := by simpa [hclean, Except.mapError] using h
    exact ⟨hasInputFileId_sanitizeInputItems hclean (Bool.eq_false_iff.mpr hfile),
      sanitizeInputItems_fixed hclean⟩

theorem validateInput_ok {input : List Json} (h : validateInput fs = .ok input) :
    hasInputFileId input = false ∧ sanitizeInputItems input = .ok input := by
  unfold validateInput at h
  split at h
  · cases h
  · exact validateItems_ok h
  · exact validateItems_ok h
  · cases h

theorem validateTools_ok {tools : List Json} (h : validateTools fs = .ok tools) :
    ∀ tool ∈ tools, validateToolType responsesUnsupportedToolTypes tool = .ok tool := by
  unfold validateTools at h
  split at h
  · cases h
    simp
  · next given _ =>
    cases hcheck : validateToolTypes responsesUnsupportedToolTypes given with
    | error e => simp [hcheck, Except.mapError] at h
    | ok out =>
      obtain rfl : out = tools := by simpa [hcheck, Except.mapError] using h
      intro tool htool
      obtain ⟨x, -, hx⟩ := mapM_ok_mem hcheck htool
      exact validateToolType_fixed hx
  · cases h

theorem validateToolChoice_ok {choice : Json} (h : validateToolChoice fs = .ok choice) :
    validateToolChoice [("tool_choice", choice)] = .ok choice := by
  have hfield : ∀ v, fieldOf "tool_choice" [("tool_choice", v)] = v := fun _ => rfl
  unfold validateToolChoice at h
  split at h
  · cases h
    rfl
  · cases h
    rfl
  · cases h
    rw [validateToolChoice, hfield]
    dsimp only
    rw [normalizeToolFields_idem]
  · cases h

theorem validateStore_ok {store : Bool} (h : validateStore fs = .ok store) : store = false := by
  unfold validateStore at h
  split at h
  · cases h
    rfl
  · split at h <;> cases h
    rfl

theorem validateInclude_ok {includes : List String} (h : validateInclude fs = .ok includes) :
    ∀ entry ∈ includes, entry ∈ includeAllowlist := by
  unfold validateInclude at h
  split at h
  · cases h
    simp
  · intro entry hentry
    obtain ⟨x, -, hx⟩ := mapM_ok_mem h hentry
    unfold validateIncludeEntry at hx
    split at hx
    · split_ifs at hx with hallowed
      cases hx
      exact hallowed
    · cases hx
  · cases h

theorem validateTruncation_ok {truncation : Option String}
    (h : validateTruncation fs = .ok truncation) : truncation = none := by
  obtain ⟨t, -, ht⟩ := bind_eq_ok.mp h
  split_ifs at ht with hsome
  cases ht
  exact not_isSome_iff_eq_none.mp hsome

theorem normalizePreviousResponseId_idem (value : Option String) :
    normalizePreviousResponseId (normalizePreviousResponseId value) =
      normalizePreviousResponseId value := by
  cases value with
  | none => rfl
  | some s =>
    simp only [normalizePreviousResponseId, map_some, filter_some]
    split_ifs with hne
    · simpa [strip_strip] using hne
    · rfl

theorem validate_ok {j : Json} {p : ResponsesRequest} (h : validate j = .ok p) :
    ∃ fs, j = .obj fs ∧ validateModel fs = .ok p.model ∧ validateInput fs = .ok p.input ∧
      validateTools fs = .ok p.tools ∧ validateToolChoice fs = .ok p.toolChoice ∧
      validateStore fs = .ok p.store ∧ validateInclude fs = .ok p.includes ∧
      validateTruncation fs = .ok p.truncation ∧
      (∃ tier, p.serviceTier = Option.map normalizeServiceTierAlias tier) ∧
      (∃ previous, p.previousResponseId = normalizePreviousResponseId previous) ∧
      ¬p.TwoPredecessors ∧
      optionalModel [] "text" ResponsesTextControls.validate fs = .ok p.text := by
  cases j with
  | obj fs =>
    rw [validate] at h
    obtain ⟨model, hmodel, h⟩ := bind_eq_ok.mp h
    obtain ⟨instructions, -, h⟩ := bind_eq_ok.mp h
    obtain ⟨input, hinput, h⟩ := bind_eq_ok.mp h
    obtain ⟨tools, htools, h⟩ := bind_eq_ok.mp h
    obtain ⟨choice, hchoice, h⟩ := bind_eq_ok.mp h
    obtain ⟨parallel, -, h⟩ := bind_eq_ok.mp h
    obtain ⟨reasoning, -, h⟩ := bind_eq_ok.mp h
    obtain ⟨store, hstore, h⟩ := bind_eq_ok.mp h
    obtain ⟨stream, -, h⟩ := bind_eq_ok.mp h
    obtain ⟨includes, hincludes, h⟩ := bind_eq_ok.mp h
    obtain ⟨tier, -, h⟩ := bind_eq_ok.mp h
    obtain ⟨conversation, -, h⟩ := bind_eq_ok.mp h
    obtain ⟨previous, -, h⟩ := bind_eq_ok.mp h
    obtain ⟨truncation, htruncation, h⟩ := bind_eq_ok.mp h
    obtain ⟨cacheKey, -, h⟩ := bind_eq_ok.mp h
    obtain ⟨text, htext, h⟩ := bind_eq_ok.mp h
    dsimp only at h
    split_ifs at h with htwo
    cases h
    exact ⟨fs, rfl, hmodel, hinput, htools, hchoice, hstore, hincludes, htruncation, ⟨tier, rfl⟩,
      ⟨previous, rfl⟩, htwo, htext⟩
  | _ => cases h

/-- **What the validators return is in normal form.** -/
theorem validate_valid {j : Json} {p : ResponsesRequest} (h : validate j = .ok p) : p.Valid := by
  obtain ⟨fs, -, hmodel, hinput, htools, hchoice, hstore, hincludes, htruncation, ⟨tier, htier⟩,
    ⟨previous, hprevious⟩, htwo, -⟩ := validate_ok h
  exact
    { model := (requiredText_of_validateModel hmodel).2
      files := (validateInput_ok hinput).1
      input := (validateInput_ok hinput).2
      tools := validateTools_ok htools
      toolChoice := validateToolChoice_ok hchoice
      store := validateStore_ok hstore
      includes := validateInclude_ok hincludes
      serviceTier := by
        rw [htier]
        cases tier with
        | none => rfl
        | some t => exact congrArg some (normalizeServiceTierAlias_idem t)
      previousResponseId := by rw [hprevious, normalizePreviousResponseId_idem]
      truncation := validateTruncation_ok htruncation
      predecessors := htwo }

section Again

variable {p : ResponsesRequest}

theorem getItem_dump {key : String} {v : Json} (h : (key, v) ∈ p.fields)
    (hnull : v.isNull = false) :
    getItem key (present (p.fields ++ p.extra.entries)) = some v := by
  rw [getItem_dumped p.map_fst_fields (by decide) h, hnull]
  rfl

theorem fieldOf_dump {key : String} {v : Json} (h : (key, v) ∈ p.fields) :
    fieldOf key (present (p.fields ++ p.extra.entries)) = v :=
  fieldOf_dumped p.map_fst_fields (by decide) h

theorem requiredText_dump {name s : String} (h : (name, .str s) ∈ p.fields) :
    requiredText name (present (p.fields ++ p.extra.entries)) = .ok s := by
  rw [requiredText, getItem_dump h rfl]

theorem validateModel_dump (h : p.Valid) :
    validateModel (present (p.fields ++ p.extra.entries)) = .ok p.model := by
  have hmodel : requiredText "model" _ = .ok p.model :=
    requiredText_dump (p := p) (by simp [fields])
  rw [validateModel, hmodel]
  exact if_neg h.model

theorem validateInput_dump (h : p.Valid) :
    validateInput (present (p.fields ++ p.extra.entries)) = .ok p.input := by
  rw [validateInput, getItem_dump (p := p) (v := .arr p.input) (by simp [fields]) rfl]
  dsimp only
  rw [validateItems, h.files, if_neg Bool.false_ne_true, h.input]
  rfl

theorem validateTools_dump (h : p.Valid) :
    validateTools (present (p.fields ++ p.extra.entries)) = .ok p.tools := by
  rw [validateTools, getItem_dump (p := p) (v := .arr p.tools) (by simp [fields]) rfl]
  dsimp only
  rw [validateToolTypes, mapM_ok_self h.tools]
  rfl

theorem validateToolChoice_dump (h : p.Valid) :
    validateToolChoice (present (p.fields ++ p.extra.entries)) = .ok p.toolChoice := by
  have hchoice := h.toolChoice
  rw [validateToolChoice, show fieldOf "tool_choice" [("tool_choice", p.toolChoice)] =
    p.toolChoice from rfl] at hchoice
  rw [validateToolChoice, fieldOf_dump (p := p) (v := p.toolChoice) (by simp [fields]), hchoice]

theorem validateStore_dump (h : p.Valid) :
    validateStore (present (p.fields ++ p.extra.entries)) = .ok p.store := by
  rw [validateStore, getItem_dump (p := p) (v := .bool p.store) (by simp [fields]) rfl, h.store]
  rfl

theorem validateInclude_dump (h : p.Valid) :
    validateInclude (present (p.fields ++ p.extra.entries)) = .ok p.includes := by
  rw [validateInclude,
    getItem_dump (p := p) (v := .arr (p.includes.map .str)) (by simp [fields]) rfl]
  exact mapM_map_ok fun entry hentry => if_pos (h.includes entry hentry)

theorem validateTruncation_dump (h : p.Valid) :
    validateTruncation (present (p.fields ++ p.extra.entries)) = .ok p.truncation := by
  have htruncation : optionalText [] "truncation" _ = .ok p.truncation :=
    optionalText_of_fieldOf (fieldOf_dump (p := p) (by simp [fields]))
  rw [validateTruncation, htruncation, h.truncation]
  rfl

theorem validate_dump (h : p.Valid) (hschema : p.SchemaNamed) :
    validate p.dump = .ok p.settled := by
  have hinstructions : requiredText "instructions" _ = .ok p.instructions :=
    requiredText_dump (p := p) (by simp [fields])
  have hparallel : optionalBool [] "parallel_tool_calls" _ = .ok p.parallelToolCalls :=
    optionalBool_of_fieldOf (fieldOf_dump (p := p) (by simp [fields]))
  have hreasoning : optionalModel [] "reasoning" ResponsesReasoning.validate _ =
      .ok (p.reasoning.map (·.settled)) :=
    optionalModel_of_fieldOf (·.dump) (fieldOf_dump (p := p) (by simp [fields])) fun r _ =>
      ⟨_, rfl, r.validate_dump⟩
  have hstream : optionalBool [] "stream" _ = .ok p.stream :=
    optionalBool_of_fieldOf (fieldOf_dump (p := p) (by simp [fields]))
  have htier : optionalText [] "service_tier" _ = .ok p.serviceTier :=
    optionalText_of_fieldOf (fieldOf_dump (p := p) (by simp [fields]))
  have hconversation : optionalText [] "conversation" _ = .ok p.conversation :=
    optionalText_of_fieldOf (fieldOf_dump (p := p) (by simp [fields]))
  have hprevious : optionalText [] "previous_response_id" _ = .ok p.previousResponseId :=
    optionalText_of_fieldOf (fieldOf_dump (p := p) (by simp [fields]))
  have hcacheKey : optionalText [] "prompt_cache_key" _ = .ok p.promptCacheKey :=
    optionalText_of_fieldOf (fieldOf_dump (p := p) (by simp [fields]))
  have htext : optionalModel [] "text" ResponsesTextControls.validate _ =
      .ok (p.text.map (·.settled)) :=
    optionalModel_of_fieldOf (·.dump) (fieldOf_dump (p := p) (by simp [fields])) fun t ht =>
      ⟨_, rfl, ResponsesTextControls.validate_dump (hschema t ht)⟩
  rw [dump, validate, validateModel_dump h, hinstructions, validateInput_dump h,
    validateTools_dump h, validateToolChoice_dump h, hparallel, hreasoning, validateStore_dump h,
    hstream, validateInclude_dump h, htier, hconversation, hprevious, validateTruncation_dump h,
    hcacheKey, htext, extra_dumped p.map_fst_fields]
  change (if ResponsesRequest.TwoPredecessors { p.settled with
      serviceTier := p.serviceTier.map normalizeServiceTierAlias
      previousResponseId := normalizePreviousResponseId p.previousResponseId } then _ else
    Except.ok { p.settled with
      serviceTier := p.serviceTier.map normalizeServiceTierAlias
      previousResponseId := normalizePreviousResponseId p.previousResponseId }) = _
  rw [h.serviceTier, h.previousResponseId]
  exact if_neg h.predecessors

theorem dump_settled : p.settled.dump = p.dump := by
  have hfields : p.settled.fields = p.fields := by
    simp [fields, settled, Function.comp_def, ResponsesReasoning.dump_settled,
      ResponsesTextControls.dump_settled]
  rw [dump, hfields]
  exact congrArg Json.obj present_settled

end Again

end ResponsesRequest

end CodexOctopus
