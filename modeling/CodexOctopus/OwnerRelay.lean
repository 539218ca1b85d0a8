import CodexOctopus.SseEvents
import CodexOctopus.SseSplitting

/-!
# Relaying the owner's events

`_iter_sse_event_blocks` of `app/modules/proxy/http_bridge_forwarding.py`, without its timeout: an
instance reads the blocks that the owner of a session sends from the bytes of the response. The
bytes of a character other than a newline have no newline among them (`mem_utf8EncodeChar`), so a
blank line is found where the owner put it, wherever the bytes are cut. So the events of
`format_sse_event` come through.
-/

namespace CodexOctopus.OwnerRelay

open List SseSplitting

def encode (text : String) : Bytes := text.toList.flatMap String.utf8EncodeChar

/-- `raw.decode("utf-8")`; `none` is its `UnicodeDecodeError`. -/
def decode (raw : Bytes) : Option String :=
  raw.toByteArray.utf8Decode?.map fun text => String.ofList text.toList

/-- `buffer.split(b"\n\n", 1)`, if there are two parts. -/
def cut : Bytes → Option (Bytes × Bytes)
  | a :: b :: rest =>
    if a = 10 ∧ b = 10 then some ([], rest)
    else (cut (b :: rest)).map fun p => (a :: p.1, p.2)
  | _ => none

theorem cut_shrinks {buffer : Bytes} {p : Bytes × Bytes} (h : cut buffer = some p) :
    p.2.length < buffer.length := by
  fun_induction cut buffer generalizing p with
  | case1 a b rest hsep =>
    cases h
    simp only [length_cons]
    omega
  | case2 a b rest hsep ih =>
    obtain ⟨q, hq, rfl⟩ := Option.map_eq_some_iff.mp h
    exact (ih hq).trans (Nat.lt_succ_self _)
  | case3 => cases h

/-- The inner loop: the raw blocks cut off, and the buffer that remains. -/
def popBlocks (buffer : Bytes) : List Bytes × Bytes :=
  match _h : cut buffer with
  | none => ([], buffer)
  | some (rawBlock, rest) =>
    let (rawBlocks, left) := popBlocks rest
    (rawBlock :: rawBlocks, left)
  termination_by buffer.length
  decreasing_by exact cut_shrinks _h

def readChunks : Bytes → List Bytes → List Bytes × Bytes
  | buffer, [] => ([], buffer)
  | buffer, chunk :: chunks =>
    if chunk = [] then readChunks buffer chunks
    else
      let popped := popBlocks (buffer ++ chunk)
      let later := readChunks popped.2 chunks
      (popped.1 ++ later.1, later.2)

def yieldBlocks : List Bytes → List String × Bool
  | [] => ([], true)
  | rawBlock :: rawBlocks =>
    match decode rawBlock with
    | none => ([], false)
    | some text =>
      let (texts, ok) := yieldBlocks rawBlocks
      (if text = "" then texts else (text ++ "\n\n") :: texts, ok)

/-- `_iter_sse_event_blocks`: what is yielded, and whether it ends without an exception. -/
def iterSseEventBlocks (chunks : List Bytes) : List String × Bool :=
  let (rawBlocks, buffer) := readChunks [] chunks
  let (texts, ok) := yieldBlocks rawBlocks
  if ok = false ∨ isBlank buffer = true then (texts, ok)
  else (decode buffer).elim (texts, false) fun text => (texts ++ [text], true)

/-- A text that the owner sends as a block: it is not empty, and the blank line behind it is the
only one. -/
def IsBlock (text : String) : Prop :=
  text ≠ "" ∧ ¬ ['\n', '\n'] <:+: text.toList ++ ['\n']

/-! ## One block -/

theorem decode_encode (text : String) : decode (encode text) = some text := by
  have h := List.utf8Decode?_utf8Encode (l := text.toList)
  rw [List.utf8Encode] at h
  rw [decode, encode, h]
  simp

theorem mem_utf8EncodeChar {c : Char} (h : 10 ∈ String.utf8EncodeChar c) : c = '\n' := by
  refine Char.toNat_inj.mp ?_
  change c.val.toNat = 10
  rw [String.utf8EncodeChar] at h
  -- only an ASCII character has a byte below 128
  split_ifs at h
  all_goals
    simp only [mem_cons, not_mem_nil, or_false, ← UInt8.toNat_inj, UInt8.toNat_ofNat',
      UInt8.toNat_ofNat] at h
    omega

variable {a b rest : Bytes} {p : Bytes × Bytes} {text : List Char}

theorem cut_append (h : cut a = some p) : cut (a ++ b) = some (p.1, p.2 ++ b) := by
  fun_induction cut a generalizing p with
  | case1 x y rest hsep =>
    cases h
    rw [cons_append, cons_append, cut, if_pos hsep]
  | case2 x y rest hsep ih =>
    obtain ⟨q, hq, rfl⟩ := Option.map_eq_some_iff.mp h
    rw [cons_append, cons_append, cut, if_neg hsep, ← cons_append, ih hq]
    rfl
  | case3 => cases h

theorem cut_cons {x : UInt8} (h : x = 10 → rest.head? ≠ some 10) :
    cut (x :: rest) = (cut rest).map fun p => (x :: p.1, p.2) := by
  cases rest with
  | nil => rfl
  | cons y rest => rw [cut, if_neg fun hsep => h hsep.1 (congrArg some hsep.2)]

theorem cut_bytes {bytes : Bytes} (h : 10 ∉ bytes) :
    cut (bytes ++ rest) = (cut rest).map fun p => (bytes ++ p.1, p.2) := by
  induction bytes with
  | nil => simp
  | cons x bytes ih =>
    obtain ⟨hx, hbytes⟩ := not_or.mp (mem_cons.not.mp h)
    rw [cons_append, cut_cons fun heq => absurd heq.symm hx, ih hbytes, Option.map_map]
    rfl

theorem head_encode (h : (text.flatMap String.utf8EncodeChar ++ 10 :: rest).head? = some 10) :
    (text ++ ['\n']).head? = some '\n' := by
  cases text with
  | nil => rfl
  | cons c text =>
    have hmem : 10 ∈ String.utf8EncodeChar c := by
      cases hbytes : String.utf8EncodeChar c with
      | nil => exact absurd hbytes String.utf8EncodeChar_ne_nil
      | cons x bytes =>
        rw [flatMap_cons, hbytes] at h
        exact mem_cons.mpr (.inl (Option.some.inj h).symm)
    rw [mem_utf8EncodeChar hmem]
    rfl

theorem cut_encode (h : ¬ ['\n', '\n'] <:+: text ++ ['\n']) :
    cut (text.flatMap String.utf8EncodeChar ++ 10 :: 10 :: rest) =
      some (text.flatMap String.utf8EncodeChar, rest) := by
  induction text with
  | nil => rfl
  | cons c text ih =>
    have htail := ih fun hinner => h (hinner.trans (suffix_cons _ _).isInfix)
    rw [flatMap_cons, append_assoc]
    by_cases hc : c = '\n'
    · subst hc
      rw [show String.utf8EncodeChar '\n' = [10] from rfl, singleton_append, cut_cons, htail]
      · rfl
      · intro _ hhead
        -- two newlines in a row
        obtain ⟨l, hl⟩ := head?_eq_some_iff.mp (head_encode hhead)
        exact h ⟨[], l, by rw [cons_append, hl]; rfl⟩
    · rw [cut_bytes fun hmem => hc (mem_utf8EncodeChar hmem), htail]
      rfl

/-! ## The stream -/

def stream (texts : List String) : Bytes := texts.flatMap fun text => encode (text ++ "\n\n")

theorem stream_cons (text : String) (texts : List String) :
    stream (text :: texts) = encode text ++ 10 :: 10 :: stream texts := by
  rw [stream, flatMap_cons, encode, String.toList_append, flatMap_append, append_assoc]
  rfl

variable {texts : List String} {left : Bytes}

theorem cut_stream (h : ∀ text ∈ texts, IsBlock text) :
    cut (stream texts) = texts.head?.map fun text => (encode text, stream texts.tail) := by
  cases texts with
  | nil => rfl
  | cons text texts =>
    rw [stream_cons, encode, cut_encode (h text mem_cons_self).2]
    rfl

theorem popBlocks_stream (h : ∀ text ∈ texts, IsBlock text) (hstream : a ++ b = stream texts) :
    ∃ done todo, texts = done ++ todo ∧ (popBlocks a).1 = done.map encode ∧
      (popBlocks a).2 ++ b = stream todo ∧ cut (popBlocks a).2 = none := by
  induction texts generalizing a with
  | nil =>
    obtain ⟨rfl, rfl⟩ := append_eq_nil_iff.mp hstream
    exact ⟨[], [], rfl, by simp [popBlocks, cut, stream]⟩
  | cons text texts ih =>
    rw [popBlocks]
    split
    · next hcut => exact ⟨[], text :: texts, rfl, rfl, hstream, hcut⟩
    · next rawBlock rest hcut =>
      have hfirst := cut_append (b := b) hcut
      rw [hstream, cut_stream h] at hfirst
      obtain ⟨hraw, hrest⟩ := Prod.mk.inj (Option.some.inj hfirst)
      obtain ⟨done, todo, rfl, hpop, hleft, hnone⟩ :=
        ih (fun t ht => h t (mem_cons_of_mem _ ht)) hrest.symm
      exact ⟨text :: done, todo, rfl, congrArg₂ cons hraw.symm hpop, hleft, hnone⟩

theorem readChunks_stream {chunks : List Bytes} (h : ∀ text ∈ texts, IsBlock text)
    (hcut : cut a = none) (hstream : a ++ chunks.flatten = stream texts) :
    readChunks a chunks = (texts.map encode, []) := by
  induction chunks generalizing a texts with
  | nil =>
    rw [flatten_nil, append_nil] at hstream
    rw [hstream, cut_stream h] at hcut
    obtain rfl : texts = [] := by simpa using hcut
    rw [hstream]
    rfl
  | cons chunk chunks ih =>
    rw [flatten_cons, ← append_assoc] at hstream
    rw [readChunks]
    split_ifs with hempty
    · rw [hempty, append_nil] at hstream
      exact ih h hcut hstream
    · obtain ⟨done, todo, rfl, hpop, hleft, hnone⟩ := popBlocks_stream h hstream
      dsimp only
      rw [ih (fun t ht => h t (mem_append_right _ ht)) hnone hleft, hpop, map_append]

theorem yieldBlocks_encode (h : ∀ text ∈ texts, IsBlock text) :
    yieldBlocks (texts.map encode) = (texts.map (· ++ "\n\n"), true) := by
  induction texts with
  | nil => rfl
  | cons text texts ih =>
    obtain ⟨htext, htexts⟩ := forall_mem_cons.mp h
    rw [map_cons, yieldBlocks, decode_encode, ih htexts]
    dsimp only
    rw [if_neg htext.1]
    rfl

/-- **The owner relay is transparent**: the blocks yielded are those that the owner sends, wherever
their bytes are cut. -/
theorem owner_relay_transparent (texts : List String) (chunks : List Bytes)
    (hblocks : ∀ text ∈ texts, IsBlock text)
    (hchunks : chunks.flatten = (texts.map (· ++ "\n\n")).flatMap encode) :
    iterSseEventBlocks chunks = (texts.map (· ++ "\n\n"), true) := by
  have hstream : [] ++ chunks.flatten = stream texts := by
    rw [nil_append, hchunks, stream, flatMap_map]
  rw [iterSseEventBlocks, readChunks_stream hblocks rfl hstream]
  dsimp only
  rw [yieldBlocks_encode hblocks]
  rfl

theorem owner_relay_transparent_cut :
    iterSseEventBlocks [[195], [169, 10], [10]] = (["é\n\n"], true) :=
  owner_relay_transparent ["é"] [[195], [169, 10], [10]] (by
    unfold IsBlock
    decide) (by decide)

/-! ## Events -/

open Sse

/-- The block of an event, without the blank line behind it. -/
def eventText (payload : Payload) : String :=
  (filledText (fieldOf "type" payload)).elim "" (fun type => "event: " ++ type ++ "\n") ++
    "data: " ++ (Json.obj payload).dumpsPlain

variable {payload : Payload}

theorem formatSseEvent_eq (payload : Payload) :
    formatSseEvent payload = eventText payload ++ "\n\n" := by
  unfold formatSseEvent eventText dataLine
  cases filledText (fieldOf "type" payload) <;> simp [← String.toList_inj]

theorem newline_notMem {text : String} (h : OneLine text) : '\n' ∉ text.toList := fun hmem =>
  absurd (h _ hmem) (by decide)

theorem not_blank_line {line rest : List Char} (hline : '\n' ∉ line)
    (hrest : ¬ ['\n', '\n'] <:+: rest) : ¬ ['\n', '\n'] <:+: line ++ rest := by
  induction line with
  | nil => exact hrest
  | cons c line ih =>
    obtain ⟨hc, hline⟩ := not_or.mp (mem_cons.not.mp hline)
    rw [cons_append, infix_cons_iff, cons_prefix_cons]
    exact not_or.mpr ⟨fun h => hc h.1, ih hline⟩

theorem isBlock_eventText (h : ∀ type, fieldOf "type" payload = .str type → OneLine type) :
    IsBlock (eventText payload) := by
  have hdata : OneLine ("data: " ++ (Json.obj payload).dumpsPlain) :=
    oneLine_append (by decide) (oneLine_dumpsPlain _)
  have hlast := @not_blank_line _ ['\n'] (newline_notMem hdata) (by decide)
  unfold eventText
  cases hfilled : filledText (fieldOf "type" payload) with
  | none =>
    refine ⟨by simp [← String.toList_inj], ?_⟩
    simpa using hlast
  | some type =>
    have hevent : OneLine ("event: " ++ type) :=
      oneLine_append (by decide) (h type (filledText_eq_some hfilled))
    refine ⟨by simp [← String.toList_inj], ?_⟩
    have hrest : ¬ ['\n', '\n'] <:+:
        '\n' :: (("data: " ++ (Json.obj payload).dumpsPlain).toList ++ ['\n']) := by
      rw [infix_cons_iff, cons_prefix_cons]
      exact not_or.mpr ⟨by simp, hlast⟩
    simpa using not_blank_line (newline_notMem hevent) hrest

theorem parse_formatSseEvent (R : JsonReader)
    (h : ∀ type, fieldOf "type" payload = .str type → OneLine type) :
    parseSseDataJson R.loads (formatSseEvent payload) = some payload := by
  have hdata := extract_data (oneLine_dumpsPlain (.obj payload))
  refine parse_of_lines R (R.loads_dumps (.obj payload)) ?_
  unfold formatSseEvent
  cases hfilled : filledText (fieldOf "type" payload) with
  | none => exact hdata
  | some type =>
    have hevent : OneLine ("event: " ++ type) :=
      oneLine_append (by decide) (h type (filledText_eq_some hfilled))
    rw [extractSseDataLines, splitLines_line hevent, filterMap_cons]
    simpa [parseSseField_event, extractSseDataLines, dataLine] using hdata

end CodexOctopus.OwnerRelay
