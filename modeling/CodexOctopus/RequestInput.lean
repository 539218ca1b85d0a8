import CodexOctopus.Json
import CodexOctopus.Python

/-!
# The input items of a request

`app/core/openai/requests.py`: the input of a request is a list of items, which the
validator of the field cleans. Interleaved reasoning is removed
(`_sanitize_interleaved_reasoning_input_item`), and the items of the assistant and of
tools take one form (`_normalize_role_input_item`).

`None` is the null document. An object has its keys once, so an operation may treat all
fields under a key alike.
-/

namespace CodexOctopus

open List Option Python

def fieldOf (key : String) (fs : List (String × Json)) : Json :=
  (getItem key fs).getD .null

def typeIn (types : List String) : Json → Bool
  | .str t => t ∈ types
  | _ => false

/-! ## Interleaved reasoning -/

def interleavedReasoningKeys : List String :=
  ["reasoning_content", "reasoning_details", "tool_calls", "function_call"]

def interleavedReasoningPartTypes : List String :=
  ["reasoning", "reasoning_content", "reasoning_details"]

def sanitizeContentPart : Json → Json
  | .obj fs =>
    if typeIn interleavedReasoningPartTypes (fieldOf "type" fs) then .null
    else .obj (fs.filter fun x => x.1 ∉ interleavedReasoningKeys)
  | part => part

def sanitizeContent : Json → Json
  | .arr parts => .arr ((parts.map sanitizeContentPart).filter fun part => !part.isNull)
  | .obj fs => sanitizeContentPart (.obj fs)
  | content => content

def sanitizeField (content : Json) (x : String × Json) : Option (String × Json) :=
  if x.1 ∈ interleavedReasoningKeys then none
  else if x.1 = "content" then
    if content.isNull then none else some (x.1, content)
  else some x

def sanitizeInputItem : Json → Json
  | .obj fs => .obj (fs.filterMap (sanitizeField (sanitizeContent (fieldOf "content" fs))))
  | item => item

/-! ## Items of the assistant and of tools -/

def assistantTextPartTypes : List String := ["text", "input_text", "output_text"]

def toolTextPartTypes : List String := ["text", "input_text", "output_text", "refusal"]

def extractTextContentPart (allowedTypes : List String) : Json → Option String
  | .obj fs =>
    let partType := fieldOf "type" fs
    let text := if typeIn allowedTypes partType || partType.isNull then (fieldOf "text" fs).str?
      else none
    text <|> if typeIn ["refusal"] partType then (fieldOf "refusal" fs).str? else none
  | _ => none

def outputText (text : String) : Json :=
  .obj [("type", .str "output_text"), ("text", .str text)]

def normalizeAssistantContentPart : Json → Json
  | .str text => outputText text
  | .obj fs =>
    match extractTextContentPart assistantTextPartTypes (.obj fs) with
    | some text => outputText text
    | none => .obj fs
  | part => part

def normalizeAssistantContent : Json → Json
  | .str text => .arr [outputText text]
  | .arr parts => .arr (parts.map normalizeAssistantContentPart)
  | .obj fs => .arr [normalizeAssistantContentPart (.obj fs)]
  | content => content

def normalizeAssistantInputItem (fs : List (String × Json)) : Json :=
  let content := fieldOf "content" fs
  let normalized := normalizeAssistantContent content
  if normalized.dumps = content.dumps then .obj fs
  else .obj (setItem "content" normalized fs)

def normalizeToolOutputValue : Json → String
  | .null => ""
  | .str text => text
  | .arr parts =>
    let texts := parts.filterMap fun part => part.str? <|> extractTextContentPart toolTextPartTypes
      part
    if texts ≠ [] then join "" texts else (Json.arr parts).dumpsRaw
  | .obj fs =>
    (extractTextContentPart toolTextPartTypes (.obj fs)).getD (Json.obj fs).dumpsRaw
  | .num n => n.text
  | .bool b => if b then "True" else "False"

def filledText (value : Json) : Option String := value.str?.filter (· ≠ "")

def normalizeToolInputItem (fs : List (String × Json)) : Except String Json :=
  match filledText (fieldOf "tool_call_id" fs) <|> filledText (fieldOf "toolCallId" fs) <|>
      filledText (fieldOf "call_id" fs) with
  | none => .error "tool input items must include 'tool_call_id'"
  | some callId =>
    let output := fieldOf "output" fs
    let outputValue := if output.isNull then fieldOf "content" fs else output
    .ok (.obj [("type", .str "function_call_output"), ("call_id", .str callId),
      ("output", .str (normalizeToolOutputValue outputValue))])

def normalizeRoleInputItem : Json → Except String Json
  | .obj fs =>
    if typeIn ["assistant"] (fieldOf "role" fs) then .ok (normalizeAssistantInputItem fs)
    else if typeIn ["tool"] (fieldOf "role" fs) then normalizeToolInputItem fs
    else .ok (.obj fs)
  | item => .ok item

def sanitizeInputItems (items : List Json) : Except String (List Json) :=
  ((items.map sanitizeInputItem).filter fun item => !item.isNull).mapM normalizeRoleInputItem

/-! ## Files -/

def isInputFileWithId : Json → Bool
  | .obj fs => typeIn ["input_file"] (fieldOf "type" fs) &&
      (filledText (fieldOf "file_id" fs)).isSome
  | _ => false

def contentParts : Json → List Json
  | .arr parts => parts
  | .obj fs => [.obj fs]
  | _ => []

def itemHasInputFile : Json → Bool
  | .obj fs =>
    isInputFileWithId (.obj fs) || (contentParts (fieldOf "content" fs)).any isInputFileWithId
  | _ => false

def hasInputFileId (items : List Json) : Bool := items.any itemHasInputFile

/-! ## Fields -/

section Fields

variable {fs : List (String × Json)} {key : String} {content : Json}

theorem fieldOf_filter (hkey : key ∉ interleavedReasoningKeys) :
    fieldOf key (fs.filter fun x => x.1 ∉ interleavedReasoningKeys) = fieldOf key fs := by
  rw [fieldOf, fieldOf, getItem, getItem, find?_filter]
  congr 3
  funext x
  by_cases hx : x.1 = key
  · simp [hx, hkey]
  · simp [hx]

theorem fieldOf_setItem_self {value : Json} :
    fieldOf key (setItem key value fs) = value := by
  rw [fieldOf, getItem_setItem_self, getD_some]

theorem fieldOf_setItem_of_ne {other : String} {value : Json} (hne : key ≠ other) :
    fieldOf other (setItem key value fs) = fieldOf other fs := by
  rw [fieldOf, getItem_setItem_of_ne hne, fieldOf]

theorem sanitizeField_name {x y : String × Json} (h : sanitizeField content x = some y) :
    y.1 = x.1 := by
  unfold sanitizeField at h
  split_ifs at h <;> cases h <;> rfl

theorem fieldOf_sanitizeField (hkey : key ∉ interleavedReasoningKeys) (hne : key ≠ "content") :
    fieldOf key (fs.filterMap (sanitizeField content)) = fieldOf key fs := by
  have hget : getItem key (fs.filterMap (sanitizeField content)) =
      getItem key fs := by
    induction fs with
    | nil => rfl
    | cons x fs ih =>
      rw [getItem_cons]
      split_ifs with hx
      · have hkeep : sanitizeField content x = some x := by
          rw [sanitizeField, if_neg (hx ▸ hkey), if_neg (hx ▸ hne)]
        rw [filterMap_cons_some hkeep, getItem_cons, if_pos hx]
      · rw [← ih, filterMap_cons]
        split
        · rfl
        · next y hy => rw [getItem_cons, if_neg (sanitizeField_name hy ▸ hx)]
  rw [fieldOf, hget, fieldOf]

theorem getItem_content_sanitizeField (hnull : content.isNull = false) :
    getItem "content" (fs.filterMap (sanitizeField content)) =
      (getItem "content" fs).map fun _ => content := by
  induction fs with
  | nil => rfl
  | cons x fs ih =>
    rw [getItem_cons]
    split_ifs with hx
    · have hset : sanitizeField content x = some ("content", content) := by
        rw [sanitizeField, hx, if_neg (by decide), if_pos rfl, hnull]
        rfl
      rw [filterMap_cons_some hset, getItem_cons, if_pos rfl, map_some]
    · rw [← ih, filterMap_cons]
      split
      · rfl
      · next y hy => rw [getItem_cons, if_neg (sanitizeField_name hy ▸ hx)]

theorem mem_sanitizeField {x : String × Json} (h : x ∈ fs.filterMap (sanitizeField content)) :
    x.1 ∉ interleavedReasoningKeys ∧
      (x.1 = "content" → x.2 = content ∧ content.isNull = false) := by
  obtain ⟨y, -, hy⟩ := mem_filterMap.mp h
  unfold sanitizeField at hy
  split_ifs at hy with hkey hcontent hnull
  · cases hy
    exact ⟨hkey, fun _ => ⟨rfl, Bool.eq_false_iff.mpr hnull⟩⟩
  · cases hy
    exact ⟨hkey, fun h => absurd h hcontent⟩

theorem eq_null {v : Json} (h : v.isNull = true) : v = .null := by
  cases v <;> first | rfl | cases h

theorem fieldOf_content_sanitizeField :
    fieldOf "content" (fs.filterMap (sanitizeField (sanitizeContent (fieldOf "content" fs)))) =
      sanitizeContent (fieldOf "content" fs) := by
  cases hnull : (sanitizeContent (fieldOf "content" fs)).isNull with
  | true =>
    have hnone : getItem "content"
        (fs.filterMap (sanitizeField (sanitizeContent (fieldOf "content" fs)))) = none := by
      refine getItem_eq_none fun x hx hname => ?_
      rw [((mem_sanitizeField hx).2 hname).2] at hnull
      cases hnull
    rw [fieldOf, hnone, eq_null hnull, getD_none]
  | false =>
    rw [fieldOf, getItem_content_sanitizeField hnull]
    cases hget : getItem "content" fs with
    | none =>
      rw [fieldOf, hget] at hnull
      cases hnull
    | some v => rfl

end Fields

/-! ## Cleaning twice -/

theorem sanitizeContentPart_idem (part : Json) :
    sanitizeContentPart (sanitizeContentPart part) = sanitizeContentPart part := by
  cases part with
  | obj fs =>
    rw [sanitizeContentPart]
    split_ifs with htype
    · rfl
    · rw [sanitizeContentPart, fieldOf_filter (by decide), if_neg htype, List.filter_filter]
      simp only [Bool.and_self]
  | _ => rfl

theorem sanitizeContent_idem (content : Json) :
    sanitizeContent (sanitizeContent content) = sanitizeContent content := by
  cases content with
  | arr parts =>
    rw [sanitizeContent, sanitizeContent]
    have hfixed : ∀ part ∈ (parts.map sanitizeContentPart).filter fun part => !part.isNull,
        sanitizeContentPart part = part := by
      intro part hpart
      obtain ⟨q, -, rfl⟩ := mem_map.mp (mem_of_mem_filter hpart)
      exact sanitizeContentPart_idem q
    rw [List.map_congr_left hfixed, List.map_id', List.filter_filter]
    simp only [Bool.and_self]
  | obj fs =>
    have hidem := sanitizeContentPart_idem (.obj fs)
    rw [sanitizeContent]
    rw [sanitizeContentPart] at hidem ⊢
    split_ifs at hidem ⊢
    · rfl
    · exact hidem
  | _ => rfl

structure SanitizedFields (fs : List (String × Json)) : Prop where
  keys : ∀ x ∈ fs, x.1 ∉ interleavedReasoningKeys
  content : ∀ x ∈ fs, x.1 = "content" →
    x.2 = fieldOf "content" fs ∧ (fieldOf "content" fs).isNull = false
  fixed : sanitizeContent (fieldOf "content" fs) = fieldOf "content" fs

theorem sanitizedFields_filterMap (fs : List (String × Json)) :
    SanitizedFields
      (fs.filterMap (sanitizeField (sanitizeContent (fieldOf "content" fs)))) where
  keys x hx := (mem_sanitizeField hx).1
  content x hx hname := by
    rw [fieldOf_content_sanitizeField]
    exact (mem_sanitizeField hx).2 hname
  fixed := by rw [fieldOf_content_sanitizeField, sanitizeContent_idem]

variable {fs : List (String × Json)} {content item : Json} {ε α : Type*} {items cleaned : List Json}

theorem SanitizedFields.sanitizeInputItem (h : SanitizedFields fs) :
    sanitizeInputItem (.obj fs) = .obj fs := by
  have hkeep : ∀ x ∈ fs, sanitizeField (fieldOf "content" fs) x = some x := by
    rintro ⟨n, v⟩ hx
    rw [sanitizeField, if_neg (h.keys _ hx)]
    split_ifs with hname hnull
    · rw [(h.content _ hx hname).2] at hnull
      cases hnull
    · rw [← (h.content _ hx hname).1]
    · rfl
  rw [CodexOctopus.sanitizeInputItem, h.fixed, filterMap_congr hkeep, filterMap_some]

theorem SanitizedFields.setContent (h : SanitizedFields fs)
    (hfixed : sanitizeContent content = content) (hnull : content.isNull = false) :
    SanitizedFields (setItem "content" content fs) where
  keys x hx := by
    obtain rfl | ⟨hx, -⟩ := mem_setItem hx
    · exact (by decide : "content" ∉ interleavedReasoningKeys)
    · exact h.keys x hx
  content x hx hname := by
    rw [fieldOf_setItem_self]
    obtain rfl | ⟨-, hne⟩ := mem_setItem hx
    · exact ⟨rfl, hnull⟩
    · exact absurd hname hne
  fixed := by rw [fieldOf_setItem_self, hfixed]

theorem normalizeAssistantContentPart_idem (part : Json) :
    normalizeAssistantContentPart (normalizeAssistantContentPart part) =
      normalizeAssistantContentPart part := by
  cases part with
  | str text => rfl
  | obj fs =>
    rw [normalizeAssistantContentPart]
    cases hextract : extractTextContentPart assistantTextPartTypes (.obj fs) with
    | some text => rfl
    | none =>
      dsimp only
      rw [normalizeAssistantContentPart, hextract]
  | _ => rfl

theorem normalizeAssistantContent_idem (content : Json) :
    normalizeAssistantContent (normalizeAssistantContent content) =
      normalizeAssistantContent content := by
  cases content with
  | arr parts =>
    rw [normalizeAssistantContent, normalizeAssistantContent, List.map_map]
    congr 1
    exact List.map_congr_left fun part _ => normalizeAssistantContentPart_idem part
  | obj fs =>
    rw [normalizeAssistantContent, normalizeAssistantContent, map_singleton,
      normalizeAssistantContentPart_idem]
  | str text => rfl
  | _ => rfl

theorem sanitizeContentPart_normalize {part : Json} (h : sanitizeContentPart part = part) :
    sanitizeContentPart (normalizeAssistantContentPart part) =
      normalizeAssistantContentPart part := by
  cases part with
  | obj fs =>
    rw [normalizeAssistantContentPart]
    cases extractTextContentPart assistantTextPartTypes (.obj fs) with
    | some text => rfl
    | none => exact h
  | _ => rfl

theorem isNull_normalizeAssistantContentPart {part : Json} (h : part.isNull = false) :
    (normalizeAssistantContentPart part).isNull = false := by
  cases part with
  | obj fs =>
    rw [normalizeAssistantContentPart]
    cases extractTextContentPart assistantTextPartTypes (.obj fs) <;> rfl
  | _ => exact h

theorem sanitizeContent_arr {parts : List Json}
    (hfixed : ∀ part ∈ parts, sanitizeContentPart part = part)
    (hnull : ∀ part ∈ parts, part.isNull = false) : sanitizeContent (.arr parts) = .arr parts := by
  rw [sanitizeContent, List.map_congr_left hfixed, List.map_id', List.filter_eq_self.mpr]
  intro part hpart
  rw [hnull part hpart]
  rfl

theorem sanitizeContent_normalize (h : sanitizeContent content = content) :
    sanitizeContent (normalizeAssistantContent content) = normalizeAssistantContent content := by
  cases content with
  | str text => rfl
  | arr parts =>
    have hparts := Json.arr.inj h
    have hfixed : ∀ part ∈ parts, sanitizeContentPart part = part ∧ part.isNull = false := by
      intro part hpart
      rw [← hparts] at hpart
      obtain ⟨hmem, hnull⟩ := mem_filter.mp hpart
      obtain ⟨q, -, rfl⟩ := mem_map.mp hmem
      exact ⟨sanitizeContentPart_idem q, by simpa using hnull⟩
    refine sanitizeContent_arr ?_ ?_
    · intro part hpart
      obtain ⟨q, hq, rfl⟩ := mem_map.mp hpart
      exact sanitizeContentPart_normalize (hfixed q hq).1
    · intro part hpart
      obtain ⟨q, hq, rfl⟩ := mem_map.mp hpart
      exact isNull_normalizeAssistantContentPart (hfixed q hq).2
  | obj fs =>
    refine sanitizeContent_arr ?_ ?_
    · intro part hpart
      rw [mem_singleton.mp hpart]
      exact sanitizeContentPart_normalize h
    · intro part hpart
      rw [mem_singleton.mp hpart]
      exact isNull_normalizeAssistantContentPart rfl
  | _ => exact h

structure SettledItem (item : Json) : Prop where
  isNull : item.isNull = false
  sanitized : sanitizeInputItem item = item
  normalized : normalizeRoleInputItem item = .ok item

theorem normalizeAssistantContent_null (h : (normalizeAssistantContent content).isNull = true) :
    content = .null := by
  cases content <;> first | rfl | cases h

theorem settledItem_assistant (hfs : SanitizedFields fs)
    (hrole : typeIn ["assistant"] (fieldOf "role" fs) = true) :
    SettledItem (normalizeAssistantInputItem fs) := by
  unfold normalizeAssistantInputItem
  dsimp only
  split_ifs with hsame
  · refine ⟨rfl, hfs.sanitizeInputItem, ?_⟩
    rw [normalizeRoleInputItem, if_pos hrole, normalizeAssistantInputItem, if_pos hsame]
  · have hnull : (normalizeAssistantContent (fieldOf "content" fs)).isNull = false := by
      refine Bool.eq_false_iff.mpr fun h => hsame ?_
      rw [normalizeAssistantContent_null h]
      rfl
    have hset := hfs.setContent (sanitizeContent_normalize hfs.fixed) hnull
    refine ⟨rfl, hset.sanitizeInputItem, ?_⟩
    rw [normalizeRoleInputItem, fieldOf_setItem_of_ne (by decide), if_pos hrole,
      normalizeAssistantInputItem, fieldOf_setItem_self, normalizeAssistantContent_idem,
      if_pos rfl]

theorem settledItem_tool (h : normalizeToolInputItem fs = .ok item) : SettledItem item := by
  unfold normalizeToolInputItem at h
  split at h
  · cases h
  · cases h
    have hfields : ∀ callId output, SanitizedFields
        [("type", .str "function_call_output"), ("call_id", .str callId),
          ("output", .str output)] := by
      intro callId output
      refine ⟨?_, ?_, rfl⟩
      · simp [interleavedReasoningKeys]
      · simp
    exact ⟨rfl, (hfields _ _).sanitizeInputItem, rfl⟩

theorem settledItem_normalizeRoleInputItem {cleaned : Json} (hnull : item.isNull = false)
    (hfields : ∀ fs, item = .obj fs → SanitizedFields fs)
    (h : normalizeRoleInputItem item = .ok cleaned) : SettledItem cleaned := by
  cases item with
  | obj fs =>
    have hfs := hfields fs rfl
    rw [normalizeRoleInputItem] at h
    split_ifs at h with hassistant htool
    · cases h
      exact settledItem_assistant hfs hassistant
    · exact settledItem_tool h
    · cases h
      refine ⟨rfl, hfs.sanitizeInputItem, ?_⟩
      rw [normalizeRoleInputItem, if_neg hassistant, if_neg htool]
  | _ =>
    cases h
    exact ⟨hnull, rfl, rfl⟩

theorem mapM_ok_mem {β : Type*} {f : α → Except ε β} {l : List α} {out : List β}
    (h : l.mapM f = .ok out) {y : β} (hy : y ∈ out) : ∃ x ∈ l, f x = .ok y := by
  induction l generalizing out with
  | nil =>
    cases h
    cases hy
  | cons x l ih =>
    rw [mapM_cons] at h
    cases hx : f x with
    | error e => simp [hx, bind, Except.bind] at h
    | ok z =>
      cases hl : l.mapM f with
      | error e => simp [hx, hl, bind, Except.bind] at h
      | ok zs =>
        obtain rfl : z :: zs = out := by
          simpa [hx, hl, bind, Except.bind, pure, Except.pure] using h
        obtain rfl | hy := mem_cons.mp hy
        · exact ⟨x, mem_cons_self, hx⟩
        · obtain ⟨w, hw, hwy⟩ := ih hl hy
          exact ⟨w, mem_cons_of_mem _ hw, hwy⟩

theorem mapM_map_ok {β : Type*} {f : α → Except ε β} {g : β → α} {l : List β}
    (h : ∀ y ∈ l, f (g y) = .ok y) : (l.map g).mapM f = .ok l := by
  induction l with
  | nil => rfl
  | cons y l ih =>
    rw [map_cons, mapM_cons, h y mem_cons_self,
      ih fun z hz => h z (mem_cons_of_mem _ hz)]
    rfl

theorem mapM_ok_self {f : α → Except ε α} {l : List α} (h : ∀ x ∈ l, f x = .ok x) :
    l.mapM f = .ok l := by
  simpa using mapM_map_ok (g := id) h

theorem settledItem_of_mem (h : sanitizeInputItems items = .ok cleaned) (hitem : item ∈ cleaned) :
    SettledItem item := by
  obtain ⟨y, hy, hnormalize⟩ := mapM_ok_mem h hitem
  obtain ⟨hmem, hnull⟩ := mem_filter.mp hy
  obtain ⟨x, -, rfl⟩ := mem_map.mp hmem
  refine settledItem_normalizeRoleInputItem (by simpa using hnull) (fun fs hfs => ?_) hnormalize
  cases x with
  | obj gs =>
    obtain rfl := Json.obj.inj hfs
    exact sanitizedFields_filterMap gs
  | _ => cases hfs

/-- **Cleaned items are left as they are.** -/
theorem sanitizeInputItems_fixed (h : sanitizeInputItems items = .ok cleaned) :
    sanitizeInputItems cleaned = .ok cleaned := by
  have hsettled : ∀ item ∈ cleaned, SettledItem item := fun item => settledItem_of_mem h
  have hkept : ∀ item ∈ cleaned, (!item.isNull) = true := fun item hitem => by
    rw [(hsettled item hitem).isNull]
    rfl
  rw [sanitizeInputItems, List.map_congr_left fun item hitem => (hsettled item hitem).sanitized,
    List.map_id', List.filter_eq_self.mpr hkept]
  exact mapM_ok_self fun item hitem => (hsettled item hitem).normalized

/-! ## Files in cleaned items -/

theorem isInputFileWithId_sanitizeContentPart (part : Json) :
    isInputFileWithId (sanitizeContentPart part) = true → isInputFileWithId part = true := by
  cases part with
  | obj fs =>
    rw [sanitizeContentPart]
    split_ifs
    · intro h
      cases h
    · rw [isInputFileWithId, isInputFileWithId, fieldOf_filter (by decide),
        fieldOf_filter (by decide)]
      exact id
  | _ => exact id

theorem isInputFileWithId_normalizeAssistantContentPart (part : Json) :
    isInputFileWithId (normalizeAssistantContentPart part) = true →
      isInputFileWithId part = true := by
  cases part with
  | obj fs =>
    rw [normalizeAssistantContentPart]
    cases extractTextContentPart assistantTextPartTypes (.obj fs) with
    | some text =>
      intro h
      cases h
    | none => exact id
  | str text =>
    intro h
    cases h
  | _ => exact id

theorem any_contentParts_sanitizeContent (content : Json) :
    (contentParts (sanitizeContent content)).any isInputFileWithId = true →
      (contentParts content).any isInputFileWithId = true := by
  cases content with
  | arr parts =>
    intro h
    obtain ⟨part, hpart, hfile⟩ := any_eq_true.mp h
    obtain ⟨q, hq, rfl⟩ := mem_map.mp (mem_of_mem_filter hpart)
    exact any_eq_true.mpr ⟨q, hq, isInputFileWithId_sanitizeContentPart q hfile⟩
  | obj fs =>
    intro h
    obtain ⟨part, hpart, hfile⟩ := any_eq_true.mp h
    refine any_eq_true.mpr ⟨.obj fs, mem_singleton_self _, ?_⟩
    refine isInputFileWithId_sanitizeContentPart _ ?_
    rw [sanitizeContent, sanitizeContentPart] at hpart
    rw [sanitizeContentPart]
    split_ifs at hpart ⊢
    · cases hpart
    · rwa [mem_singleton.mp hpart] at hfile
  | _ => exact id

theorem any_contentParts_normalize (content : Json) :
    (contentParts (normalizeAssistantContent content)).any isInputFileWithId = true →
      (contentParts content).any isInputFileWithId = true := by
  cases content with
  | str text =>
    intro h
    cases h
  | arr parts =>
    intro h
    obtain ⟨part, hpart, hfile⟩ := any_eq_true.mp h
    obtain ⟨q, hq, rfl⟩ := mem_map.mp hpart
    exact any_eq_true.mpr
      ⟨q, hq, isInputFileWithId_normalizeAssistantContentPart q hfile⟩
  | obj fs =>
    intro h
    obtain ⟨part, hpart, hfile⟩ := any_eq_true.mp h
    rw [mem_singleton.mp hpart] at hfile
    exact any_eq_true.mpr ⟨.obj fs, mem_singleton_self _,
      isInputFileWithId_normalizeAssistantContentPart _ hfile⟩
  | _ => exact id

theorem itemHasInputFile_sanitizeInputItem (item : Json) :
    itemHasInputFile (sanitizeInputItem item) = true → itemHasInputFile item = true := by
  cases item with
  | obj fs =>
    rw [sanitizeInputItem, itemHasInputFile, itemHasInputFile, Bool.or_eq_true, Bool.or_eq_true,
      isInputFileWithId, isInputFileWithId, fieldOf_sanitizeField (by decide) (by decide),
      fieldOf_sanitizeField (by decide) (by decide), fieldOf_content_sanitizeField]
    exact Or.imp_right (any_contentParts_sanitizeContent _)
  | _ => exact id

theorem itemHasInputFile_normalizeAssistantInputItem (fs : List (String × Json)) :
    itemHasInputFile (normalizeAssistantInputItem fs) = true →
      itemHasInputFile (.obj fs) = true := by
  unfold normalizeAssistantInputItem
  dsimp only
  split_ifs
  · exact id
  · rw [itemHasInputFile, itemHasInputFile, Bool.or_eq_true, Bool.or_eq_true, isInputFileWithId,
      isInputFileWithId, fieldOf_setItem_of_ne (by decide), fieldOf_setItem_of_ne (by decide),
      fieldOf_setItem_self]
    exact Or.imp_right (any_contentParts_normalize _)

theorem itemHasInputFile_normalizeRoleInputItem {cleaned : Json}
    (h : normalizeRoleInputItem item = .ok cleaned) (hfile : itemHasInputFile cleaned = true) :
    itemHasInputFile item = true := by
  cases item with
  | obj fs =>
    rw [normalizeRoleInputItem] at h
    split_ifs at h
    · cases h
      exact itemHasInputFile_normalizeAssistantInputItem fs hfile
    · unfold normalizeToolInputItem at h
      split at h
      · cases h
      · cases h
        cases hfile
    · cases h
      exact hfile
  | _ =>
    cases h
    exact hfile

/-- **Cleaning does not bring in a file.** -/
theorem hasInputFileId_sanitizeInputItems (h : sanitizeInputItems items = .ok cleaned)
    (hfile : hasInputFileId items = false) :
    hasInputFileId cleaned = false := by
  refine Bool.eq_false_iff.mpr fun hcleaned => ?_
  obtain ⟨item, hitem, hitemFile⟩ := any_eq_true.mp hcleaned
  obtain ⟨y, hy, hnormalize⟩ := mapM_ok_mem h hitem
  obtain ⟨x, hx, rfl⟩ := mem_map.mp (mem_of_mem_filter hy)
  have hxFile := itemHasInputFile_sanitizeInputItem x
    (itemHasInputFile_normalizeRoleInputItem hnormalize hitemFile)
  rw [hasInputFileId, any_eq_true.mpr ⟨x, hx, hxFile⟩] at hfile
  cases hfile

end CodexOctopus
