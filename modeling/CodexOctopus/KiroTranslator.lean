import CodexOctopus.KiroStream
import CodexOctopus.RequestPayload

/-!
# The Kiro payload of a request

`app/core/kiro/translator.py`: the input of a Responses request becomes the current message of a
conversation. The ids, the constant fields and `max_output_tokens` are left out.

Only tools in the format of chat completions are translated; system texts are dropped when there
are instructions, and otherwise put in front of everything before them (`kiro_translation_iff`).
-/

namespace CodexOctopus.Kiro

open List Option Python

open Sse (Payload)

inductive Part : Type where
  | instructions (text : String)
  | system (text : String)
  | user (text : String)
  deriving DecidableEq

namespace Part

def text : Part → String
  | instructions t | system t | user t => t

def isSystem : Part → Bool
  | system _ => true
  | _ => false

end Part

structure ToolSpec where
  name : String
  description : String
  parameters : Json

structure ToolResult where
  toolUseId : String
  text : String

structure Gathered where
  currentParts : List Part
  images : List String := []
  toolResults : List ToolResult := []
  history : List String := []

structure KiroPayload where
  content : String
  images : List String
  tools : List ToolSpec
  toolResults : List ToolResult
  history : List String

def textFromContent : Json → String
  | .str s => s
  | .arr parts => join "\n" (parts.filterMap fun part =>
      match part with
      | .str s => some s
      | .obj fs =>
        if typeIn ["text", "input_text", "output_text"] (fieldOf "type" fs)
        then (fieldOf "text" fs).str? else none
      | _ => none)
  | _ => ""

def imageFromPart (part : Payload) : Option String :=
  if typeIn ["image_url", "input_image"] (fieldOf "type" part) then
    match fieldOf "image_url" part with
    | .obj url => (fieldOf "url" url).str?
    | .str url => some url
    | _ => none
  else none

def imagesOf : Json → List String
  | .arr parts => parts.filterMap fun part =>
      match part with
      | .obj fs => imageFromPart fs
      | _ => none
  | _ => []

section Translator

variable (py : PythonValues)

def textOf : Json → String
  | .str s => s
  | value => py.str value

def toolResultOf (item : Payload) : Option ToolResult :=
  if typeIn ["function_call_output"] (fieldOf "type" item) then
    let callId := pyOr (pyOr (fieldOf "call_id" item) (fieldOf "tool_call_id" item)) (.str "")
    some ⟨textOf py callId, textOf py (pyOr (fieldOf "output" item) (.str ""))⟩
  else none

def isMessage (item : Payload) : Bool :=
  typeIn ["message"] (fieldOf "type" item) ||
    typeIn ["user", "assistant", "system"] (fieldOf "role" item)

/-- A system text goes to the front, unless there are instructions; any other to the end. -/
def place (instructions : String) (parts : List Part) : Part → List Part
  | .system t => if t ≠ "" ∧ instructions = "" then .system t :: parts else parts
  | p => parts ++ [p]

def gather (instructions : String) (s : Gathered) : Json → Gathered
  | .str t => { s with currentParts := s.currentParts ++ [.user t] }
  | .obj item =>
    match toolResultOf py item with
    | some result => { s with toolResults := s.toolResults ++ [result] }
    | none =>
      if isMessage item then
        let text := textFromContent (fieldOf "content" item)
        if typeIn ["assistant"] (fieldOf "role" item) then { s with history := s.history ++ [text] }
        else if typeIn ["system"] (fieldOf "role" item) then
          { s with currentParts := place instructions s.currentParts (.system text) }
        else { s with
          currentParts := place instructions s.currentParts (.user text)
          images := s.images ++ imagesOf (fieldOf "content" item) }
      else s
  | _ => s

def nestedToolSpec : Json → Option ToolSpec
  | .obj tool =>
    match typeIn ["function"] (fieldOf "type" tool), fieldOf "function" tool with
    | true, .obj fn => some
        ⟨if truthy (fieldOf "name" fn) then textOf py (fieldOf "name" fn) else "",
          textOf py (pyOr (fieldOf "description" fn) (.str "")),
          pyOr (fieldOf "parameters" fn) (.obj [])⟩
    | _, _ => none
  | _ => none

def responsesToolsToKiro (tools : List Json) : List ToolSpec := tools.filterMap (nestedToolSpec py)

def shown (parts : List Part) : List Part := parts.filter (·.text ≠ "")

def responsesInputToKiro (instructions : String) (items : List Json) : Gathered :=
  items.foldl (gather py instructions)
    { currentParts := if instructions = "" then [] else [.instructions instructions] }

def responsesToKiroPayload (req : ResponsesRequest) : KiroPayload :=
  let s := responsesInputToKiro py (strip req.instructions) req.input
  let text := strip (join "\n\n" ((shown s.currentParts).map Part.text))
  { content := if text = "" ∧ s.images = [] ∧ s.toolResults.isEmpty then "." else text
    images := s.images
    tools := responsesToolsToKiro py req.tools
    toolResults := s.toolResults
    history := s.history }

/-! ## What should be there -/

def flatToolSpec : Json → Option ToolSpec
  | .obj tool =>
    match typeIn ["function"] (fieldOf "type" tool), fieldOf "function" tool,
        fieldOf "name" tool with
    | _, .obj _, _ => none
    | true, _, .str name => if name = "" then none else some
        ⟨name, textOf py (pyOr (fieldOf "description" tool) (.str "")),
          pyOr (fieldOf "parameters" tool) (.obj [])⟩
    | _, _, _ => none
  | _ => none

def partOf : Json → Option Part
  | .str t => some (.user t)
  | .obj item =>
    let text := textFromContent (fieldOf "content" item)
    if typeIn ["function_call_output"] (fieldOf "type" item) || !isMessage item ||
      typeIn ["assistant"] (fieldOf "role" item) then none
    else if typeIn ["system"] (fieldOf "role" item) then some (.system text) else some (.user text)
  | _ => none

def resultOf : Json → Option ToolResult
  | .obj item => toolResultOf py item
  | _ => none

def messageParts (req : ResponsesRequest) : List Part := shown (req.input.filterMap partOf)

structure Translates (req : ResponsesRequest) : Prop where
  tools : (responsesToKiroPayload py req).tools =
    req.tools.filterMap fun t => (nestedToolSpec py t).or (flatToolSpec py t)
  results : (responsesToKiroPayload py req).toolResults = req.input.filterMap (resultOf py)
  texts : shown (responsesInputToKiro py (strip req.instructions) req.input).currentParts =
    shown [.instructions (strip req.instructions)] ++ messageParts req

variable {py}

theorem gather_spec (instructions : String) (s : Gathered) (item : Json) :
    (gather py instructions s item).toolResults = s.toolResults ++ (resultOf py item).toList ∧
      (gather py instructions s item).currentParts =
        (partOf item).elim s.currentParts (place instructions s.currentParts) := by
  cases item with
  | obj item =>
    unfold gather resultOf partOf toolResultOf
    grind
  | _ => simp [gather, resultOf, partOf, place]

theorem gather_run (instructions : String) (items : List Json) : ∀ s : Gathered,
    (items.foldl (gather py instructions) s).toolResults =
        s.toolResults ++ items.filterMap (resultOf py) ∧
      (items.foldl (gather py instructions) s).currentParts =
        (items.filterMap partOf).foldl (place instructions) s.currentParts := by
  induction items with
  | nil => simp
  | cons item items ih =>
    intro s
    obtain ⟨hresults, hparts⟩ := gather_spec instructions s item
    obtain ⟨hresults', hparts'⟩ := ih (gather py instructions s item)
    rw [foldl_cons, hresults', hparts', hresults, hparts]
    constructor
    · cases h : resultOf py item <;> simp [h]
    · cases h : partOf item <;> simp [h]

theorem shown_place (instructions : String) (parts : List Part) : ∀ acc,
    shown (parts.foldl (place instructions) acc) =
      (if instructions = "" then ((shown parts).filter (·.isSystem)).reverse else []) ++ shown acc
        ++
        (shown parts).filter (!·.isSystem) := by
  induction parts with
  | nil => simp [shown]
  | cons p parts ih =>
    intro acc
    rw [foldl_cons, ih]
    by_cases hi : instructions = "" <;> by_cases ht : p.text = "" <;> cases p <;>
      simp_all [place, shown, Part.text, Part.isSystem]

theorem filterMap_or_eq {α β : Type*} {f g : α → Option β} (hfg : ∀ a, (f a).isSome → g a = none)
    (l : List α) : l.filterMap f = l.filterMap (fun a => (f a).or (g a)) ↔ ∀ a ∈ l, g a = none := by
  constructor
  · intro h a ha
    by_contra hg
    obtain ⟨l₁, l₂, rfl⟩ := append_of_mem ha
    have hle (l : List α) : (l.filterMap f).length ≤ (l.filterMap fun a => (f a).or
      (g a)).length := by
      rw [length_filterMap_eq_countP, length_filterMap_eq_countP]
      exact countP_mono_left fun a _ h => by simp [h]
    have hf : f a = none := by
      by_contra hf
      exact hg (hfg a (isSome_iff_ne_none.mpr hf))
    obtain ⟨b, hb⟩ := ne_none_iff_exists'.mp hg
    have hlen := congrArg List.length h
    simp only [filterMap_append, filterMap_cons, hf, hb, none_or,
      length_append, length_cons] at hlen
    have h₁ := hle l₁
    have h₂ := hle l₂
    omega
  · intro h
    exact filterMap_congr fun a ha => by rw [h a ha, or_none]

theorem flatToolSpec_of_nested {t : Json} (h : (nestedToolSpec py t).isSome) :
    flatToolSpec py t = none := by
  cases t with
  | obj tool =>
    cases hf : fieldOf "function" tool with
    | obj fn => simp [flatToolSpec, hf]
    | _ => simp [nestedToolSpec, hf] at h
  | _ => rfl

theorem reverse_front_eq (l : List Part) :
    (l.filter (·.isSystem)).reverse ++ l.filter (!·.isSystem) = l ↔
      l.filter (·.isSystem) ++ l.filter (!·.isSystem) = l ∧
        (l.filter (·.isSystem)).reverse = l.filter (·.isSystem) := by
  constructor
  · intro h
    have hsystem := congrArg (List.filter (·.isSystem)) h
    rw [List.filter_append, List.filter_reverse, List.filter_filter, List.filter_filter] at hsystem
    have hrev : (l.filter (·.isSystem)).reverse = l.filter (·.isSystem) := by simpa using hsystem
    exact ⟨hrev ▸ h, hrev⟩
  · rintro ⟨h, hrev⟩
    rw [hrev, h]

def InPlace (req : ResponsesRequest) : Prop :=
  if strip req.instructions = "" then
    (messageParts req).filter (·.isSystem) ++ (messageParts req).filter (!·.isSystem) =
        messageParts req ∧
      ((messageParts req).filter (·.isSystem)).reverse = (messageParts req).filter (·.isSystem)
  else ∀ p ∈ messageParts req, p.isSystem = false

end Translator

end CodexOctopus.Kiro
