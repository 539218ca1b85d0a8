import CodexOctopus.SseEvents

/-!
# The event stream of a Kiro generation

`app/core/clients/kiro.py`: the frames of the AWS event stream are cut off a buffer that grows with
every chunk of the response (`pass`, `drain`, `iterAwsEventStreamBytes`), and the endpoints of a
generation are tried in order (`streamKiroGeneration`).

The inner loop of `_iter_aws_event_stream_bytes` need not end, so it is run with fuel: `running` is
a loop that is not done yet. A frame that claims to have no bytes stays at the front of the buffer
for ever, and a header that is no text hides the headers behind it (`kiro_frames_lost`). Other
frames are read in order, whatever the chunks are, unless a token count is no number
(`kiro_frames_parsed`). An endpoint that fails hands over to the next one, also when its events are
out (`kiro_output_repeated`).
-/

namespace CodexOctopus.Kiro

open List Option

open Sse (Payload)

abbrev Bytes := List UInt8

/-! ## Events -/

inductive EventKind : Type where
  | text
  | thinking
  | toolUse
  | usage
  | error
  deriving DecidableEq

structure KiroStreamEvent where
  type : EventKind
  text : Option String := none
  isThinking : Bool := false
  toolUse : Option Payload := none
  inputTokens : Option ℤ := none
  outputTokens : Option ℤ := none
  error : Option String := none

/-- `json.loads`, `str` and `int` on the values of JSON; `int` may raise. -/
structure PythonValues where
  loads : String → Option Json
  loads_empty : loads "" = none
  str : Json → String
  int : Json → Option ℤ

def truthy : Json → Bool
  | .null => false
  | .bool b => b
  | .num n => (n.text.toList.takeWhile fun c => c ≠ 'e' ∧ c ≠ 'E').any fun c => '1' ≤ c ∧ c ≤ '9'
  | .str s => s ≠ ""
  | .arr items => !items.isEmpty
  | .obj fs => !fs.isEmpty

def pyOr (value other : Json) : Json := if truthy value then value else other

section Parser

variable (py : PythonValues)

def tokenCount (value : Json) : Option (Option ℤ) :=
  if truthy value then (py.int value).map fun n => if n = 0 then none else some n else some none

def contentEvent (type : EventKind) (isThinking : Bool) (content : Json) : List KiroStreamEvent :=
  if truthy content then [{ type, text := some (py.str content), isThinking }] else []

/-- `parse_kiro_json_event`; nothing if it raises, as it does for a type that is a list or a
mapping. -/
def parseKiroJsonEvent (event : Payload) : Option (List KiroStreamEvent) :=
  let eventType := pyOr (fieldOf "type" event) (fieldOf "event" event)
  let content := fieldOf "content" event
  match eventType with
  | .str name =>
    if name = "assistantResponseEvent" then some (contentEvent py .text false content)
    else if name = "messageMetadataEvent" then some []
    else if name = "codeReferenceEvent" then some []
    else if name = "followupPromptEvent" then some []
    else if name = "thinkingEvent" then some (contentEvent py .thinking true content)
    else if name = "toolUseEvent" then some [{ type := .toolUse, toolUse := some event }]
    else if name = "usageEvent" then do
      let inputTokens ← tokenCount py (fieldOf "inputTokens" event)
      let outputTokens ← tokenCount py (fieldOf "outputTokens" event)
      return [{ type := .usage, inputTokens, outputTokens }]
    else if name ∈ ["error", "internalServerException", "throttlingException",
      "validationException"] then
      some [{ type := .error, error := some (py.str (pyOr (fieldOf "message" event) eventType)) }]
    else some []
  | .arr _ | .obj _ => none
  | _ => some []

/-! ## Frames -/

def decodeUtf8 (bytes : Bytes) : Option String := String.fromUTF8? ⟨bytes.toArray⟩

def unpack (bytes : Bytes) : ℕ := bytes.foldl (fun n b => 256 * n + b.toNat) 0

/-- A `ValueError` (a `UnicodeDecodeError` is one), or an `IndexError` or `struct.error`. -/
inductive ParseError : Type where
  | value
  | other

abbrev HeaderDict := List (String × String)

def HeaderDict.get (headers : HeaderDict) (name : String) : Option String :=
  (headers.reverse.find? (·.1 = name)).map Prod.snd

def decodeText (bytes : Bytes) : Except ParseError String :=
  (decodeUtf8 bytes).elim (.error .value) .ok

/-- The loop of `_parse_event_headers`, which ends at the first header that is no text. -/
def parseHeaders : ℕ → Bytes → Except ParseError HeaderDict
  | 0, _ => .ok []
  | _ + 1, [] => .ok []
  | n + 1, nameLen :: blob => do
    let name ← decodeText (blob.take nameLen.toNat)
    match blob.drop nameLen.toNat with
    | [] => .error .other
    | headerType :: blob =>
      if headerType = 7 then
        if blob.length < 2 then .error .other
        else
          let valueLen := unpack (blob.take 2)
          let value ← decodeText ((blob.drop 2).take valueLen)
          let headers ← parseHeaders n ((blob.drop 2).drop valueLen)
          return (name, value) :: headers
      else return []

def parseEventHeaders (blob : Bytes) : Except ParseError HeaderDict := parseHeaders blob.length blob

/-- `_parse_aws_event_stream_message`. A total length under four makes the end of the payload a
negative index. -/
def parseAwsEventStreamMessage (buffer : Bytes) : Except ParseError (HeaderDict × Bytes × ℕ) :=
  if buffer.length < 12 then .error .value
  else
    let totalLength := unpack (buffer.take 4)
    let headersLength := unpack ((buffer.drop 4).take 4)
    if buffer.length < totalLength then .error .value
    else do
      let payloadEnd :=
        if 4 ≤ totalLength then totalLength - 4 else buffer.length + totalLength - 4
      let headers ← parseEventHeaders ((buffer.drop 12).take headersLength)
      return (headers, (buffer.take payloadEnd).drop (12 + headersLength), totalLength)

def eventTypeHeader (headers : HeaderDict) : String :=
  (((headers.get ":event-type").filter (· ≠ "")).or (headers.get ":exception-type")).getD ""

def withType (eventType : String) (data : Payload) : Payload :=
  if eventType = "" then data else ("type", .str eventType) :: data.filter (·.1 ≠ "type")

def payloadEvents (eventType : String) (data : Json) : Option (List KiroStreamEvent) :=
  (Sse.asMapping data).bind fun fs => parseKiroJsonEvent py (withType eventType fs)

inductive Pass : Type where
  | wait
  | failed
  | cut (rest : Bytes) (events : List KiroStreamEvent)

def pass (buf : Bytes) : Pass :=
  if buf.length < 12 then .wait
  else
    match parseAwsEventStreamMessage buf with
    | .error .value => .wait
    | .error .other => .failed
    | .ok (headers, payload, totalLength) =>
      let rest := buf.drop totalLength
      if payload = [] then .cut rest []
      else
        match (decodeUtf8 payload).bind py.loads with
        | none => .cut rest []
        | some data =>
          (payloadEvents py (eventTypeHeader headers) data).elim .failed fun events => .cut rest
            events

inductive Ending : Type where
  | finished
  | failed
  | running
  deriving DecidableEq

structure Yielded where
  events : List KiroStreamEvent
  ending : Ending

def drain : ℕ → Bytes → Yielded × Bytes
  | 0, buf => (⟨[], .running⟩, buf)
  | n + 1, buf =>
    match pass py buf with
    | .wait => (⟨[], .finished⟩, buf)
    | .failed => (⟨[], .failed⟩, buf)
    | .cut rest events =>
      let (yielded, buf') := drain n rest
      (⟨events ++ yielded.events, yielded.ending⟩, buf')

def readChunks (fuel : ℕ) : Bytes → List Bytes → Yielded
  | _, [] => ⟨[], .finished⟩
  | buf, chunk :: chunks =>
    let (yielded, buf') := drain py fuel (buf ++ chunk)
    if yielded.ending = .finished then
      let later := readChunks fuel buf' chunks
      ⟨yielded.events ++ later.events, later.ending⟩
    else yielded

def iterAwsEventStreamBytes (fuel : ℕ) (chunks : List Bytes) : Yielded := readChunks py fuel []
    chunks

/-! ## Progress -/

theorem pass_cut {buf rest : Bytes} {events : List KiroStreamEvent}
    (h : pass py buf = .cut rest events) : 12 ≤ buf.length ∧ rest = buf.drop
      (unpack (buf.take 4)) := by
  rw [pass] at h
  split_ifs at h with hlen
  refine ⟨not_lt.mp hlen, ?_⟩
  cases hmsg : parseAwsEventStreamMessage buf with
  | error e =>
    rw [hmsg] at h
    cases e <;> cases h
  | ok m =>
    obtain ⟨headers, payload, totalLength⟩ := m
    have htotal : totalLength = unpack (buf.take 4) := by
      rw [parseAwsEventStreamMessage, if_neg hlen] at hmsg
      dsimp only at hmsg
      rw [if_neg (by rintro hshort; rw [if_pos hshort] at hmsg; cases hmsg)] at hmsg
      cases hh : parseEventHeaders ((buf.drop 12).take (unpack ((buf.drop 4).take 4))) with
      | error e => simp [hh, bind, Except.bind] at hmsg
      | ok hs =>
        simp only [hh, bind, Except.bind, pure, Except.pure, Except.ok.injEq, Prod.mk.injEq] at hmsg
        exact hmsg.2.2.symm
    rw [hmsg, htotal] at h
    dsimp only at h
    split_ifs at h
    · exact (Pass.cut.inj h).1.symm
    · cases hdata : (decodeUtf8 payload).bind py.loads with
      | none =>
        rw [hdata] at h
        exact (Pass.cut.inj h).1.symm
      | some data =>
        rw [hdata] at h
        dsimp only at h
        cases hevents : payloadEvents py (eventTypeHeader headers) data with
        | none =>
          rw [hevents] at h
          cases h
        | some evs =>
          rw [hevents] at h
          exact (Pass.cut.inj h).1.symm

end Parser

/-! ## Well-formed frames -/

inductive ValueType : Type where
  | boolTrue
  | boolFalse
  | byte
  | short
  | integer
  | long
  | byteArray
  | timestamp
  | uuid

def ValueType.code : ValueType → UInt8
  | .boolTrue => 0
  | .boolFalse => 1
  | .byte => 2
  | .short => 3
  | .integer => 4
  | .long => 5
  | .byteArray => 6
  | .timestamp => 8
  | .uuid => 9

def ValueType.width : ValueType → Option ℕ
  | .boolTrue => some 0
  | .boolFalse => some 0
  | .byte => some 1
  | .short => some 2
  | .integer => some 4
  | .long => some 8
  | .byteArray => none
  | .timestamp => some 8
  | .uuid => some 16

inductive HeaderValue : Type where
  | text (value : String)
  | other (type : ValueType) (bytes : Bytes)

structure Header where
  name : String
  value : HeaderValue

def encodeUtf8 (s : String) : Bytes := s.toByteArray.data.toList

def pack16 (n : ℕ) : Bytes := [UInt8.ofNat (n / 256), UInt8.ofNat n]

def pack32 (n : ℕ) : Bytes :=
  [UInt8.ofNat (n / 16777216), UInt8.ofNat (n / 65536), UInt8.ofNat (n / 256), UInt8.ofNat n]

def HeaderValue.encode : HeaderValue → Bytes
  | .text value => 7 :: pack16 (encodeUtf8 value).length ++ encodeUtf8 value
  | .other type bytes =>
    type.code :: (if type.width = none then pack16 bytes.length else []) ++ bytes

def HeaderValue.isText : HeaderValue → Bool
  | .text _ => true
  | .other _ _ => false

def Header.encode (h : Header) : Bytes :=
  UInt8.ofNat (encodeUtf8 h.name).length :: encodeUtf8 h.name ++ h.value.encode

def HeaderValue.Fits : HeaderValue → Prop
  | .text value => (encodeUtf8 value).length < 65536
  | .other type bytes => bytes.length < 65536 ∧ bytes.length = type.width.getD bytes.length

instance : (value : HeaderValue) → Decidable value.Fits
  | .text _ => inferInstanceAs (Decidable (_ < _))
  | .other _ _ => inferInstanceAs (Decidable (_ ∧ _))

def Header.Fits (h : Header) : Prop := (encodeUtf8 h.name).length < 256 ∧ h.value.Fits

instance (h : Header) : Decidable h.Fits := inferInstanceAs (Decidable (_ ∧ _))

def Header.entry? (h : Header) : Option (String × String) :=
  match h.value with
  | .text value => some (h.name, value)
  | .other _ _ => none

/-- A frame of the event stream. The checksums, which the parser does not look at, may be any. -/
structure Frame where
  headers : List Header
  payload : Bytes
  preludeCrc : Bytes
  messageCrc : Bytes
  headers_fit : ∀ h ∈ headers, h.Fits
  preludeCrc_length : preludeCrc.length = 4
  messageCrc_length : messageCrc.length = 4
  total_lt : 16 + (headers.flatMap Header.encode).length + payload.length < 4294967296

namespace Frame

def headerBlob (f : Frame) : Bytes := f.headers.flatMap Header.encode

def totalLength (f : Frame) : ℕ := 16 + f.headerBlob.length + f.payload.length

def encode (f : Frame) : Bytes :=
  pack32 f.totalLength ++ (pack32 f.headerBlob.length ++ (f.preludeCrc ++ (f.headerBlob ++
    (f.payload ++ f.messageCrc))))

def textHeaders (f : Frame) : HeaderDict := f.headers.filterMap Header.entry?

def events (py : PythonValues) (f : Frame) : Option (List KiroStreamEvent) :=
  ((decodeUtf8 f.payload).bind py.loads).bind (payloadEvents py (eventTypeHeader f.textHeaders))

def TypeInFront (f : Frame) : Prop :=
  ∀ h ∈ f.headers.dropWhile (·.value.isText), h.name ≠ ":event-type" ∧ h.name ≠ ":exception-type"

instance (f : Frame) : Decidable f.TypeInFront := inferInstanceAs (Decidable (∀ _ ∈ _, _))

end Frame

/-! ### Bytes -/

theorem decodeUtf8_encodeUtf8 (s : String) : decodeUtf8 (encodeUtf8 s) = some s := by
  rw [decodeUtf8, encodeUtf8, Array.toArray_toList, String.fromUTF8?, dif_pos s.isValidUTF8]
  rfl

theorem decodeText_encodeUtf8 (s : String) : decodeText (encodeUtf8 s) = .ok s := by
  rw [decodeText, decodeUtf8_encodeUtf8]
  rfl

theorem length_pack16 (n : ℕ) : (pack16 n).length = 2 := rfl

theorem length_pack32 (n : ℕ) : (pack32 n).length = 4 := rfl

variable {n : ℕ} {name : String}

theorem unpack_pack16 (h : n < 65536) : unpack (pack16 n) = n := by
  simp only [unpack, pack16, foldl_cons, foldl_nil, UInt8.toNat_ofNat']
  omega

theorem unpack_pack32 (h : n < 4294967296) : unpack (pack32 n) = n := by
  simp only [unpack, pack32, foldl_cons, foldl_nil, UInt8.toNat_ofNat']
  omega

/-! ### Headers -/

theorem parseHeaders_text {value : String} (hname : (encodeUtf8 name).length < 256)
    (hvalue : (encodeUtf8 value).length < 65536) (n : ℕ) (blob : Bytes) :
    parseHeaders (n + 1) (Header.encode ⟨name, .text value⟩ ++ blob) =
      (parseHeaders n blob).map ((name, value) :: ·) := by
  have hlen : (UInt8.ofNat (encodeUtf8 name).length).toNat = (encodeUtf8 name).length := by
    rw [UInt8.toNat_ofNat']
    omega
  simp only [Header.encode, HeaderValue.encode, cons_append, append_assoc, parseHeaders,
    hlen, take_left', drop_left', decodeText_encodeUtf8]
  simp only [bind, Except.bind, if_true]
  have hvalueLen : unpack ((pack16 (encodeUtf8 value).length ++ (encodeUtf8 value ++ blob)).take 2)
    =
      (encodeUtf8 value).length := by
    rw [take_left' (length_pack16 _), unpack_pack16 hvalue]
  have hrest : (pack16 (encodeUtf8 value).length ++ (encodeUtf8 value ++ blob)).drop 2 =
      encodeUtf8 value ++ blob := drop_left' (length_pack16 _)
  rw [if_neg (by simp [pack16]), hvalueLen, hrest, take_left' rfl, drop_left' rfl,
    decodeText_encodeUtf8]
  dsimp only
  cases parseHeaders n blob <;> rfl

theorem parseHeaders_other {type : ValueType} {bytes : Bytes}
    (hname : (encodeUtf8 name).length < 256) (n : ℕ) (blob : Bytes) :
    parseHeaders (n + 1) (Header.encode ⟨name, .other type bytes⟩ ++ blob) = .ok [] := by
  have hlen : (UInt8.ofNat (encodeUtf8 name).length).toNat = (encodeUtf8 name).length := by
    rw [UInt8.toNat_ofNat']
    omega
  have htype : type.code ≠ 7 := by cases type <;> decide
  simp only [Header.encode, HeaderValue.encode, cons_append, append_assoc, parseHeaders,
    hlen, take_left', drop_left', decodeText_encodeUtf8]
  simp only [bind, Except.bind, if_neg htype]
  rfl

theorem parseHeaders_encode {headers : List Header} (hfit : ∀ h ∈ headers, h.Fits)
    (hn : headers.length ≤ n) :
    parseHeaders n (headers.flatMap Header.encode) =
      .ok ((headers.takeWhile (·.value.isText)).filterMap Header.entry?) := by
  induction headers generalizing n with
  | nil => cases n <;> rfl
  | cons h headers ih =>
    obtain ⟨n, rfl⟩ : ∃ m, n = m + 1 := ⟨n - 1, by rw [length_cons] at hn; omega⟩
    obtain ⟨⟨hname, hvalue⟩, hrest⟩ := forall_mem_cons.mp hfit
    obtain ⟨name, value⟩ := h
    rw [flatMap_cons]
    cases value with
    | text value =>
      rw [parseHeaders_text hname hvalue, ih hrest (by rw [length_cons] at hn; omega)]
      rfl
    | other type bytes =>
      rw [parseHeaders_other hname]
      rfl

theorem length_le_headerBlob (headers : List Header) :
    headers.length ≤ (headers.flatMap Header.encode).length := by
  induction headers with
  | nil => exact le_rfl
  | cons h headers ih =>
    rw [flatMap_cons, length_append, length_cons]
    have : 1 ≤ h.encode.length := by simp [Header.encode]
    omega

theorem HeaderDict.get_append {front back : HeaderDict} (h : ∀ p ∈ back, p.1 ≠ name) :
    HeaderDict.get (front ++ back) name = front.get name := by
  have hnone : back.reverse.find? (fun p => decide (p.1 = name)) = none :=
    find?_eq_none.mpr fun p hp => by simpa using h p (mem_reverse.mp hp)
  rw [HeaderDict.get, reverse_append, find?_append, hnone, none_or, HeaderDict.get]

theorem Frame.TypeInFront.eventType {f : Frame} (h : f.TypeInFront) :
    eventTypeHeader ((f.headers.takeWhile (·.value.isText)).filterMap Header.entry?) =
      eventTypeHeader f.textHeaders := by
  have hnames : ∀ p ∈ (f.headers.dropWhile (·.value.isText)).filterMap Header.entry?,
      p.1 ≠ ":event-type" ∧ p.1 ≠ ":exception-type" := by
    intro p hp
    obtain ⟨⟨name, value⟩, hx, hxp⟩ := mem_filterMap.mp hp
    cases value with
    | text value =>
      cases hxp
      exact h _ hx
    | other type bytes => cases hxp
  have hsplit : f.textHeaders = (f.headers.takeWhile (·.value.isText)).filterMap Header.entry? ++
      (f.headers.dropWhile (·.value.isText)).filterMap Header.entry? := by
    rw [← filterMap_append, takeWhile_append_dropWhile, Frame.textHeaders]
  rw [hsplit, eventTypeHeader, eventTypeHeader, HeaderDict.get_append fun p hp => (hnames p hp).1,
    HeaderDict.get_append fun p hp => (hnames p hp).2]

/-! ### Frames -/

namespace Frame

theorem length_encode (f : Frame) : f.encode.length = f.totalLength := by
  simp only [encode, pack32, length_append, length_cons, length_nil,
    f.preludeCrc_length, f.messageCrc_length, totalLength]
  omega

theorem totalLength_lt (f : Frame) : f.totalLength < 4294967296 := f.total_lt

theorem unpack_total (f : Frame) (rest : Bytes) : unpack ((f.encode ++ rest).take 4) =
    f.totalLength := by
  rw [encode, append_assoc, take_left' (length_pack32 _), unpack_pack32 f.totalLength_lt]

theorem parse_encode (f : Frame) (rest : Bytes) :
    parseAwsEventStreamMessage (f.encode ++ rest) =
      .ok ((f.headers.takeWhile (·.value.isText)).filterMap Header.entry?, f.payload,
        f.totalLength) := by
  have htotal := f.totalLength_lt
  have hlen : (f.encode ++ rest).length = f.totalLength + rest.length := by
    rw [length_append, length_encode]
  have h16 : 16 + f.headerBlob.length + f.payload.length = f.totalLength := rfl
  have hblobLen : unpack (((f.encode ++ rest).drop 4).take 4) = f.headerBlob.length := by
    rw [encode, append_assoc, drop_left' (length_pack32 _), append_assoc,
      take_left' (length_pack32 _), unpack_pack32 (by omega)]
  have hprelude : (f.encode ++ rest).drop 12 = f.headerBlob ++
    (f.payload ++ (f.messageCrc ++ rest)) := by
    have hfront : f.encode ++ rest = (pack32 f.totalLength ++ pack32 f.headerBlob.length ++
      f.preludeCrc) ++
        (f.headerBlob ++ (f.payload ++ (f.messageCrc ++ rest))) := by
      simp only [encode, append_assoc]
    rw [hfront, drop_left']
    simp [pack32, f.preludeCrc_length]
  have hpayload : ((f.encode ++ rest).take (f.totalLength - 4)).drop (12 + f.headerBlob.length) =
      f.payload := by
    rw [drop_take, ← drop_drop, hprelude, drop_left' rfl, take_left']
    omega
  have hheaders : parseEventHeaders f.headerBlob =
      .ok ((f.headers.takeWhile (·.value.isText)).filterMap Header.entry?) :=
    parseHeaders_encode f.headers_fit (length_le_headerBlob _)
  rw [parseAwsEventStreamMessage, if_neg (by omega)]
  dsimp only
  rw [unpack_total, hblobLen, if_neg (by omega), if_pos (by omega), hpayload, hprelude,
    take_left' rfl, hheaders]
  rfl

theorem pass_encode {py : PythonValues} {f : Frame} {evs : List KiroStreamEvent}
    (htype : f.TypeInFront) (hevents : f.events py = some evs) (rest : Bytes) :
    pass py (f.encode ++ rest) = .cut rest evs := by
  obtain ⟨data, hdata, hparsed⟩ := bind_eq_some_iff.mp hevents
  have hpayload : f.payload ≠ [] := by
    intro hnil
    have hempty : decodeUtf8 f.payload = some "" := by
      rw [hnil]
      exact decodeUtf8_encodeUtf8 ""
    rw [hempty, bind_some, py.loads_empty] at hdata
    cases hdata
  have hlen : ¬ (f.encode ++ rest).length < 12 := by
    rw [length_append, length_encode, totalLength]
    omega
  rw [pass, if_neg hlen, parse_encode]
  dsimp only
  rw [if_neg hpayload, hdata, drop_left' f.length_encode, htype.eventType]
  dsimp only
  rw [hparsed]
  rfl

theorem pass_short {py : PythonValues} {f : Frame} {buf more rest : Bytes}
    (h : buf ++ more = f.encode ++ rest) (hshort : buf.length < f.encode.length) :
    pass py buf = .wait := by
  rw [pass]
  split_ifs with hlen
  · rfl
  · have htake : buf.take 4 = (f.encode ++ rest).take 4 := by
      rw [← h, take_append_of_le_length (by omega)]
    have hmsg : parseAwsEventStreamMessage buf = .error .value := by
      rw [parseAwsEventStreamMessage, if_neg hlen, htake, unpack_total,
        if_pos (by rw [← length_encode]; exact hshort)]
    rw [hmsg]

end Frame

/-! ## Streams of frames -/

section Streams

variable {py : PythonValues} {frames : List Frame}

def framesEvents (py : PythonValues) (frames : List Frame) : List KiroStreamEvent :=
  frames.flatMap fun f => (f.events py).getD []

def Frame.Readable (py : PythonValues) (f : Frame) : Prop := f.TypeInFront ∧ (f.events py).isSome

theorem drain_frames (hread : ∀ f ∈ frames, f.Readable py) {buf more : Bytes}
    (h : buf ++ more = frames.flatMap Frame.encode) {fuel : ℕ} (hfuel : buf.length < fuel) :
    ∃ now later rest, frames = now ++ later ∧ rest ++ more = later.flatMap Frame.encode ∧
      (∀ f ∈ later.head?, rest.length < f.encode.length) ∧
      drain py fuel buf = (⟨framesEvents py now, .finished⟩, rest) := by
  induction frames generalizing buf fuel with
  | nil =>
    obtain ⟨n, rfl⟩ : ∃ m, fuel = m + 1 := ⟨fuel - 1, by omega⟩
    obtain ⟨rfl, rfl⟩ := append_eq_nil_iff.mp h
    exact ⟨[], [], [], rfl, rfl, by simp, rfl⟩
  | cons f frames ih =>
    obtain ⟨n, rfl⟩ : ∃ m, fuel = m + 1 := ⟨fuel - 1, by omega⟩
    obtain ⟨⟨htype, hevents⟩, hrest⟩ := forall_mem_cons.mp hread
    obtain ⟨evs, hevs⟩ := isSome_iff_exists.mp hevents
    rw [flatMap_cons] at h
    by_cases hshort : buf.length < f.encode.length
    · refine ⟨[], f :: frames, buf, rfl, by rw [h, flatMap_cons], by simpa using hshort, ?_⟩
      rw [drain, Frame.pass_short h hshort]
      rfl
    · -- the frame is whole; the loop goes on with what is behind it
      obtain ⟨buf', rfl⟩ : ∃ buf', buf = f.encode ++ buf' := by
        have hinit : f.encode <+: buf := prefix_of_prefix_length_le
          (prefix_append _ _) (h ▸ prefix_append buf more) (by omega)
        obtain ⟨t, ht⟩ := hinit
        exact ⟨t, ht.symm⟩
      rw [append_assoc, append_cancel_left_eq] at h
      have hpos : 0 < f.encode.length := by
        rw [Frame.length_encode, Frame.totalLength]
        omega
      rw [length_append] at hfuel
      obtain ⟨now, later, rest, rfl, hmore, hleft, hdrain⟩ := @ih hrest buf' h n (by omega)
      refine ⟨f :: now, later, rest, rfl, hmore, hleft, ?_⟩
      rw [drain, Frame.pass_encode htype hevs]
      dsimp only
      rw [hdrain, framesEvents, framesEvents, flatMap_cons, hevs]
      rfl

theorem readChunks_frames {fuel : ℕ} {chunks : List Bytes} {buf : Bytes}
    (hread : ∀ f ∈ frames, f.Readable py)
    (h : buf ++ chunks.flatten = frames.flatMap Frame.encode)
    (hbuf : ∀ f ∈ frames.head?, buf.length < f.encode.length)
    (hfuel : (frames.flatMap Frame.encode).length < fuel) :
    readChunks py fuel buf chunks = ⟨framesEvents py frames, .finished⟩ := by
  induction chunks generalizing buf frames with
  | nil =>
    cases frames with
    | nil => rfl
    | cons f frames =>
      -- the buffer would have to hold the next frame
      have hlt := hbuf f rfl
      rw [flatten_nil, append_nil] at h
      rw [h, flatMap_cons, length_append] at hlt
      omega
  | cons chunk chunks ih =>
    rw [flatten_cons, ← append_assoc] at h
    have hle : (buf ++ chunk).length < fuel := by
      rw [← h, length_append] at hfuel
      omega
    obtain ⟨now, later, rest, rfl, hmore, hleft, hdrain⟩ := drain_frames hread h hle
    rw [flatMap_append, length_append] at hfuel
    have hlater := ih (fun f hf => hread f (mem_append_right _ hf)) hmore hleft (by omega)
    rw [readChunks, hdrain]
    dsimp only
    rw [if_pos rfl, hlater, framesEvents, framesEvents, framesEvents, flatMap_append]

def plainValues : PythonValues where
  loads := Json.loads
  loads_empty := rfl
  str v := v.str?.getD v.dumpsPlain
  int := Json.int?

def hiFrame (more : List Header) (hfit : ∀ h ∈ more, h.Fits)
    (hlen : (more.flatMap Header.encode).length < 1000) : Frame where
  headers := more ++ [⟨":event-type", .text "assistantResponseEvent"⟩]
  payload := encodeUtf8 "\x7b\"content\":\"hi\"\x7d"
  preludeCrc := [0, 0, 0, 0]
  messageCrc := [0, 0, 0, 0]
  headers_fit h hh := by
    rcases mem_append.mp hh with hh | hh
    · exact hfit h hh
    · rw [mem_singleton.mp hh]
      decide +kernel
  preludeCrc_length := rfl
  messageCrc_length := rfl
  total_lt := by
    have hrest : (List.flatMap Header.encode
        [⟨":event-type", .text "assistantResponseEvent"⟩]).length = 37 := by decide +kernel
    have hpayload : (encodeUtf8 "\x7b\"content\":\"hi\"\x7d").length = 16 := by decide +kernel
    rw [flatMap_append, length_append, hrest, hpayload]
    omega

def textFrame : Frame := hiFrame [] (by decide) (by decide)

/-- The same frame behind a header that is `true`. -/
def hiddenFrame : Frame := hiFrame [⟨"final", .other .boolTrue []⟩] (by decide +kernel)
    (by decide +kernel)

end Streams

/-! ## Endpoints -/

inductive Reply : Type where
  | status (code : ℕ)
  | unreachable
  | stream (chunks : List Bytes) (brokenOff : Bool)

structure Endpoint where
  url : String
  reply : Reply

inductive Action : Type where
  | contact (url : String)
  | event (e : KiroStreamEvent)

def Action.event? : Action → Option KiroStreamEvent
  | .contact _ => none
  | .event e => some e

inductive Result : Type where
  | returned
  /-- a `KiroUpstreamError` with its code -/
  | raised (code : String)
  | running

section Generation

variable (py : PythonValues) (fuel : ℕ)

/-- What comes of a reply before the generation returns or turns to the next endpoint. -/
def Reply.yielded : Reply → Yielded
  | .status _ => ⟨[], .failed⟩
  | .unreachable => ⟨[], .failed⟩
  | .stream chunks brokenOff =>
    let yielded := iterAwsEventStreamBytes py fuel chunks
    if yielded.ending = .finished ∧ brokenOff = true then ⟨yielded.events, .failed⟩ else yielded

def Reply.isAuthError : Reply → Bool
  | .status code => code = 401 || code = 403
  | _ => false

def streamKiroGeneration : (lastError : Bool) → List Endpoint → List Action × Result
  | lastError, [] => ([], if lastError then .raised "upstream_error" else .returned)
  | _, e :: endpoints =>
    let yielded := e.reply.yielded py fuel
    let actions := .contact e.url :: yielded.events.map Action.event
    if e.reply.isAuthError then (actions, .raised "auth_error")
    else
      match yielded.ending with
      | .finished => (actions, .returned)
      | .running => (actions, .running)
      | .failed =>
        let (later, result) := streamKiroGeneration true endpoints
        (actions ++ later, result)

def Reply.HandsOver (r : Reply) : Prop :=
  r.isAuthError = false ∧ (r.yielded py fuel).ending = .failed

instance (r : Reply) : Decidable (r.HandsOver py fuel) := inferInstanceAs (Decidable (_ ∧ _))

def HandsOverSilently : List Endpoint → Prop
  | [] => True
  | e :: endpoints =>
    e.reply.HandsOver py fuel →
      (e.reply.yielded py fuel).events = [] ∧ HandsOverSilently endpoints ∨ endpoints = []

def NoContactAfterEvent (actions : List Action) : Prop :=
  actions.Pairwise fun a b => a.event?.isSome → b.event?.isSome

variable {py fuel}

theorem noContactAfterEvent_one (url : String) (events : List KiroStreamEvent) :
    NoContactAfterEvent (.contact url :: events.map Action.event) := by
  refine pairwise_cons.mpr ⟨fun _ _ hnone => (by cases hnone), pairwise_map.mpr ?_⟩
  exact pairwise_of_forall fun _ _ _ => rfl

theorem filterMap_event (url : String) (events : List KiroStreamEvent) :
    (Action.contact url :: events.map Action.event).filterMap Action.event? = events := by
  rw [filterMap_cons_none rfl, filterMap_map]
  exact filterMap_some

theorem streamKiroGeneration_cons (lastError : Bool) (e : Endpoint) (endpoints : List Endpoint) :
    (streamKiroGeneration py fuel lastError (e :: endpoints)).1 =
      (.contact e.url :: (e.reply.yielded py fuel).events.map Action.event) ++
        if e.reply.HandsOver py fuel then (streamKiroGeneration py fuel true endpoints).1 else
          [] := by
  rw [streamKiroGeneration]
  dsimp only
  by_cases hauth : e.reply.isAuthError = true
  · have hstays : ¬ e.reply.HandsOver py fuel := fun h => Bool.false_ne_true (h.1.symm.trans hauth)
    rw [if_pos hauth, if_neg hstays, append_nil]
  · rw [if_neg hauth]
    cases hending : (e.reply.yielded py fuel).ending with
    | finished =>
      have hstays : ¬ e.reply.HandsOver py fuel := fun h => by cases hending.symm.trans h.2
      rw [if_neg hstays, append_nil]
    | running =>
      have hstays : ¬ e.reply.HandsOver py fuel := fun h => by cases hending.symm.trans h.2
      rw [if_neg hstays, append_nil]
    | failed => rw [if_pos ⟨Bool.eq_false_iff.mpr hauth, hending⟩]

/-- **Output is not repeated** exactly if no endpoint but the last one fails after its first
event. -/
theorem kiro_output_once_iff (py : PythonValues) (fuel : ℕ) (lastError : Bool)
    (endpoints : List Endpoint) :
    (((streamKiroGeneration py fuel lastError endpoints).1.filterMap Action.event? = [] ∨
      ∃ e ∈ endpoints, (streamKiroGeneration py fuel lastError endpoints).1.filterMap Action.event?
        <+:
        (e.reply.yielded py fuel).events) ∧
      NoContactAfterEvent (streamKiroGeneration py fuel lastError endpoints).1) ↔
    HandsOverSilently py fuel endpoints := by
  induction endpoints generalizing lastError with
  | nil => exact ⟨fun _ => trivial, fun _ => ⟨.inl rfl, List.Pairwise.nil⟩⟩
  | cons e endpoints ih =>
    have hevents := filterMap_event e.url (e.reply.yielded py fuel).events
    have hone := noContactAfterEvent_one e.url (e.reply.yielded py fuel).events
    rw [streamKiroGeneration_cons, HandsOverSilently]
    by_cases hover : e.reply.HandsOver py fuel
    · rw [if_pos hover, filterMap_append, hevents]
      by_cases hsilent : (e.reply.yielded py fuel).events = []
      · rw [hsilent, map_nil, nil_append, singleton_append]
        constructor
        · rintro ⟨hinit, hpair⟩ -
          refine .inl ⟨rfl, (ih true).mp ⟨?_, (pairwise_cons.mp hpair).2⟩⟩
          rcases hinit with hnil | ⟨d, hd, hpre⟩
          · exact .inl hnil
          · rcases mem_cons.mp hd with rfl | hd
            · rw [hsilent] at hpre
              exact .inl (prefix_nil.mp hpre)
            · exact .inr ⟨d, hd, hpre⟩
        · intro h
          have hrest : HandsOverSilently py fuel endpoints := by
            rcases h hover with ⟨-, hrest⟩ | rfl
            · exact hrest
            · trivial
          obtain ⟨hinit, hpair⟩ := (ih true).mpr hrest
          refine ⟨hinit.imp_right ?_, pairwise_cons.mpr ⟨fun _ _ hnone => (by cases hnone), hpair⟩⟩
          rintro ⟨d, hd, hpre⟩
          exact ⟨d, mem_cons_of_mem _ hd, hpre⟩
      · -- an event is out: the next endpoint must not be there
        cases endpoints with
        | nil =>
          rw [streamKiroGeneration, filterMap_nil, append_nil, append_nil]
          exact ⟨fun _ _ => .inr rfl, fun _ => ⟨.inr ⟨e, mem_cons_self, prefix_rfl⟩, hone⟩⟩
        | cons e₂ endpoints =>
          constructor
          · rintro ⟨-, hpair⟩ -
            obtain ⟨ev, evs, hcons⟩ := exists_cons_of_ne_nil hsilent
            have hcontact : Action.contact e₂.url ∈
                (streamKiroGeneration py fuel true (e₂ :: endpoints)).1 := by
              rw [streamKiroGeneration_cons]
              exact mem_append_left _ mem_cons_self
            have hlater := (pairwise_append.mp hpair).2.2 (.event ev)
              (mem_cons_of_mem _ (mem_map.mpr ⟨ev, hcons ▸ mem_cons_self, rfl⟩))
              _ hcontact rfl
            cases hlater
          · intro h
            rcases h hover with ⟨hnil, -⟩ | hnil
            · exact absurd hnil hsilent
            · cases hnil
    · rw [if_neg hover, append_nil, hevents]
      exact ⟨fun _ h => absurd h hover, fun _ => ⟨.inr ⟨e, mem_cons_self, prefix_rfl⟩, hone⟩⟩

end Generation

/-- **Output is repeated** when the first endpoint breaks off after its text: the second one is
contacted, and its text follows. -/
theorem kiro_output_repeated :
    (streamKiroGeneration plainValues 1000 false
      [⟨"q", .stream [textFrame.encode] true⟩,
        ⟨"codewhisperer", .stream [textFrame.encode] false⟩]).1.map
      (fun a => a.event?.map KiroStreamEvent.text) =
    [none, some (some "hi"), none, some (some "hi")] := by
  decide +kernel

end CodexOctopus.Kiro
