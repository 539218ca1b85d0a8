import CodexOctopus.SseSplitting

/-!
# Decompressing request bodies

`_decompress_body` of `app/core/middleware/request_decompression.py` for `gzip`, `deflate` and
`identity`. The decoders of `gzip` and `zlib` are parameters: they give out their output in order and
no more of it than they are asked for (`Decoder`). What the loops do is said in terms of all output
of an input (`inflate_eq`, `readLimited_eq`): both stop at the limit, but the one for `deflate`
already when the limit is reached.
-/

namespace CodexOctopus.RequestDecompression

open List SseSplitting

/-- A decoder. `rest` is what is to come of an input: all output, and whether the stream is
whole. -/
structure Decoder where
  State : Type
  start : State
  rest : State → Bytes → Bytes × Bool
  eof : State → Bool
  /-- `decompress(data, max_length)`: the output, the next state and `unconsumed_tail` -/
  decompress : State → Bytes → ℕ → Option (Bytes × State × Bytes)
  /-- an error comes after less output than the limit -/
  decompress_none : ∀ {d data n}, decompress d data n = none → ∀ more,
    (rest d (data ++ more)).1.length < n ∧ (rest d (data ++ more)).2 = false
  decompress_some : ∀ {d data n output d' tail}, decompress d data n = some (output, d', tail) →
    ∀ more, rest d (data ++ more) =
      (output ++ (rest d' (tail ++ more)).1, (rest d' (tail ++ more)).2)
  length_output : ∀ {d data n output d' tail}, decompress d data n = some (output, d', tail) →
    output.length ≤ n ∧ tail.length ≤ data.length
  /-- output below the limit is all that there is so far -/
  output_lt : ∀ {d data n output d' tail}, decompress d data n = some (output, d', tail) →
    output.length < n → tail = [] ∧ rest d' [] = ([], eof d')

inductive DecompressError where
  /-- `_DecompressedBodyTooLarge` -/
  | tooLarge
  /-- `zlib.error`, `BadGzipFile`, `EOFError` -/
  | invalid

/-- How it ends, and the most bytes of output that were buffered. -/
abbrev Run (α : Type) := Except DecompressError α × ℕ

def chunkSize : ℕ := 64 * 1024

variable {c : Decoder}

/-! ## The loops -/

def pump (maxSize : ℕ) (d : c.State) (buffer chunk : Bytes) : Run (c.State × Bytes) :=
  if _hchunk : chunk = [] then (.ok (d, buffer), buffer.length)
  else if _hremaining : maxSize - buffer.length = 0 then (.error .tooLarge, buffer.length)
  else
    match _h : c.decompress d chunk (maxSize - buffer.length) with
    | none => (.error .invalid, buffer.length)
    | some (output, d', tail) => pump maxSize d' (buffer ++ output) tail
  termination_by maxSize - buffer.length + chunk.length
  decreasing_by
    have htail := (c.length_output _h).2
    have hchunk := length_pos_iff.mpr _hchunk
    rw [length_append]
    by_cases hnil : output.length = 0
    · rw [(c.output_lt _h (by omega)).1, length_nil]
      omega
    · omega

/-- The last loop of `_decompress_deflate`, and its check for the end of the stream. -/
def drain (maxSize : ℕ) (d : c.State) (buffer : Bytes) : Run Bytes :=
  if _hremaining : maxSize - buffer.length = 0 then (.error .tooLarge, buffer.length)
  else
    match _h : c.decompress d [] (maxSize - buffer.length) with
    | none => (.error .invalid, buffer.length)
    | some (drained, d', _) =>
      if _hdrained : drained = [] then
        (if c.eof d' then .ok buffer else .error .invalid, buffer.length)
      else drain maxSize d' (buffer ++ drained)
  termination_by maxSize - buffer.length
  decreasing_by
    have hpos := length_pos_iff.mpr _hdrained
    rw [length_append]
    omega

def inflate (maxSize : ℕ) (d : c.State) (buffer data : Bytes) : Run Bytes :=
  if _hdata : data = [] then drain maxSize d buffer
  else
    match pump maxSize d buffer (data.take chunkSize) with
    | (.error e, n) => (.error e, n)
    | (.ok (d', buffer'), _) => inflate maxSize d' buffer' (data.drop chunkSize)
  termination_by data.length
  decreasing_by
    have hpos := length_pos_iff.mpr _hdata
    rw [length_drop, chunkSize]
    omega

def decompressDeflate (c : Decoder) (data : Bytes) (maxSize : ℕ) : Run Bytes :=
  inflate maxSize c.start [] data

/-- `read(size)` of a reader at `data`, which raises if the stream ends too early. -/
def Decoder.read (c : Decoder) (d : c.State) (data : Bytes) (size : ℕ) :
    Option (Bytes × c.State × Bytes) :=
  (c.decompress d data size).filter fun p => p.1.length = size || c.eof p.2.1

def readLimited (maxSize : ℕ) (d : c.State) (data buffer : Bytes) : Run Bytes :=
  match c.read d data chunkSize with
  | none => (.error .invalid, buffer.length)
  | some (chunk, d', tail) =>
    if _hchunk : chunk = [] then (.ok buffer, buffer.length)
    else if _htotal : maxSize < buffer.length + chunk.length then
      (.error .tooLarge, buffer.length + chunk.length)
    else readLimited maxSize d' tail (buffer ++ chunk)
  termination_by maxSize - buffer.length
  decreasing_by
    have hpos := length_pos_iff.mpr _hchunk
    rw [length_append]
    omega

def decompressGzip (c : Decoder) (data : Bytes) (maxSize : ℕ) : Run Bytes :=
  readLimited maxSize c.start data []

/-! ## What the loops do -/

variable {maxSize : ℕ} {d d' : c.State} {buffer chunk data : Bytes}

inductive Encoding where
  | gzip
  | deflate
  | identity

/-- What there is to decode for an encoding: all output, and whether the stream is valid. -/
structure Stage where
  encoding : Encoding
  output : Bytes
  whole : Bool

def readable (output : Bytes) (whole : Bool) : ℕ :=
  if whole then output.length else output.length / chunkSize * chunkSize

def Stage.stopped (maxSize : ℕ) : Stage → Bool
  | ⟨.gzip, output, whole⟩ => maxSize < readable output whole
  | ⟨.deflate, output, _⟩ => maxSize ≤ output.length
  | ⟨.identity, _, _⟩ => false

def Stage.answer (maxSize : ℕ) (s : Stage) : Except DecompressError Bytes :=
  if s.stopped maxSize then .error .tooLarge
  else if s.whole then .ok s.output else .error .invalid

def toCome (maxSize : ℕ) (d : c.State) (buffer input : Bytes) : Except DecompressError Bytes :=
  Stage.answer maxSize ⟨.deflate, buffer ++ (c.rest d input).1, (c.rest d input).2⟩

theorem toCome_full (hfull : maxSize - buffer.length = 0) (input : Bytes) :
    toCome maxSize d buffer input = .error .tooLarge := by
  rw [toCome, Stage.answer, if_pos]
  rw [Stage.stopped, decide_eq_true_eq, length_append]
  omega

theorem toCome_none (hbuffer : buffer.length ≤ maxSize)
    (h : c.decompress d chunk (maxSize - buffer.length) = none) (more : Bytes) :
    toCome maxSize d buffer (chunk ++ more) = .error .invalid := by
  obtain ⟨hlength, hwhole⟩ := c.decompress_none h more
  rw [toCome, Stage.answer, hwhole, if_neg]
  · rfl
  · rw [Stage.stopped, decide_eq_true_eq, length_append]
    omega

theorem toCome_some {output tail : Bytes}
    (h : c.decompress d chunk (maxSize - buffer.length) = some (output, d', tail)) (more : Bytes) :
    toCome maxSize d' (buffer ++ output) (tail ++ more) =
      toCome maxSize d buffer (chunk ++ more) := by
  rw [toCome, toCome, c.decompress_some h, append_assoc]

theorem pump_spec (more : Bytes) (hbuffer : buffer.length ≤ maxSize) :
    (pump maxSize d buffer chunk).2 ≤ maxSize ∧
    match (pump maxSize d buffer chunk).1 with
    | .error e => toCome maxSize d buffer (chunk ++ more) = .error e
    | .ok (d', buffer') => buffer'.length ≤ maxSize ∧
      toCome maxSize d' buffer' more = toCome maxSize d buffer (chunk ++ more) := by
  fun_induction pump maxSize d buffer chunk with
  | case1 d buffer => exact ⟨hbuffer, hbuffer, rfl⟩
  | case2 d buffer chunk hchunk hfull => exact ⟨hbuffer, toCome_full hfull _⟩
  | case3 d buffer chunk hchunk hfull h => exact ⟨hbuffer, toCome_none hbuffer h more⟩
  | case4 d buffer chunk hchunk hfull output d' tail h ih =>
    have houtput := (c.length_output h).1
    rw [← toCome_some h more]
    refine ih ?_
    rw [length_append]
    omega

theorem toCome_drained {tail : Bytes} (hfull : ¬ maxSize - buffer.length = 0)
    (h : c.decompress d [] (maxSize - buffer.length) = some ([], d', tail)) :
    toCome maxSize d buffer [] = if c.eof d' then .ok buffer else .error .invalid := by
  obtain ⟨rfl, hrest⟩ := c.output_lt h (Nat.pos_of_ne_zero hfull)
  have hsame : toCome maxSize d' buffer [] = toCome maxSize d buffer [] := by
    simpa using toCome_some h []
  rw [← hsame, toCome, hrest, append_nil, Stage.answer, if_neg]
  rw [Stage.stopped, decide_eq_true_eq]
  omega

theorem drain_eq (hbuffer : buffer.length ≤ maxSize) :
    (drain maxSize d buffer).1 = toCome maxSize d buffer [] ∧
      (drain maxSize d buffer).2 ≤ maxSize := by
  fun_induction drain maxSize d buffer with
  | case1 d buffer hfull => exact ⟨(toCome_full hfull _).symm, hbuffer⟩
  | case2 d buffer hfull h => exact ⟨(toCome_none hbuffer h []).symm, hbuffer⟩
  | case3 d buffer hfull d' tail h => exact ⟨(toCome_drained hfull h).symm, hbuffer⟩
  | case4 d buffer hfull drained d' tail h hdrained ih =>
    obtain ⟨houtput, htail⟩ := c.length_output h
    obtain rfl := eq_nil_of_length_eq_zero (Nat.le_zero.mp htail)
    have hsame : toCome maxSize d' (buffer ++ drained) [] = toCome maxSize d buffer [] :=
      toCome_some h []
    rw [← hsame]
    refine ih ?_
    rw [length_append]
    omega

theorem inflate_eq (hbuffer : buffer.length ≤ maxSize) :
    (inflate maxSize d buffer data).1 = toCome maxSize d buffer data ∧
      (inflate maxSize d buffer data).2 ≤ maxSize := by
  fun_induction inflate maxSize d buffer data with
  | case1 d buffer => exact drain_eq hbuffer
  | case2 d buffer data hdata e n hpump =>
    have hspec := @pump_spec c maxSize d buffer (data.take chunkSize) (data.drop chunkSize) hbuffer
    rw [hpump, take_append_drop] at hspec
    exact ⟨hspec.2.symm, hspec.1⟩
  | case3 d buffer data hdata d' buffer' n hpump ih =>
    have hspec := @pump_spec c maxSize d buffer (data.take chunkSize) (data.drop chunkSize) hbuffer
    rw [hpump, take_append_drop] at hspec
    rw [← hspec.2.2]
    exact ih hspec.2.1

def limited (maxSize : ℕ) (buffer output : Bytes) (whole : Bool) : Except DecompressError Bytes :=
  if maxSize < buffer.length + readable output whole then .error .tooLarge
  else if whole then .ok (buffer ++ output) else .error .invalid

theorem read_none (h : c.read d data chunkSize = none) :
    (c.rest d data).1.length < chunkSize ∧ (c.rest d data).2 = false := by
  rw [Decoder.read, Option.filter_eq_none_iff] at h
  cases hdecompress : c.decompress d data chunkSize with
  | none => simpa using c.decompress_none hdecompress []
  | some p =>
    obtain ⟨output, d', tail⟩ := p
    obtain ⟨hne, heof⟩ : output.length ≠ chunkSize ∧ c.eof d' = false := by
      simpa using h _ hdecompress
    have hshort := lt_of_le_of_ne (c.length_output hdecompress).1 hne
    obtain ⟨rfl, hrest⟩ := c.output_lt hdecompress hshort
    have hall := c.decompress_some hdecompress []
    rw [append_nil, append_nil, hrest, append_nil, heof] at hall
    rw [hall]
    exact ⟨hshort, rfl⟩

theorem read_some {tail : Bytes} (h : c.read d data chunkSize = some (chunk, d', tail)) :
    c.rest d data = (chunk ++ (c.rest d' tail).1, (c.rest d' tail).2) ∧
      chunk.length ≤ chunkSize ∧ (chunk.length < chunkSize → c.rest d' tail = ([], true)) := by
  obtain ⟨hdecompress, hready⟩ := Option.filter_eq_some_iff.mp h
  refine ⟨by simpa using c.decompress_some hdecompress [], (c.length_output hdecompress).1, ?_⟩
  intro hshort
  obtain ⟨rfl, hrest⟩ := c.output_lt hdecompress hshort
  have heof : c.eof d' = true := by simpa [hshort.ne] using hready
  rw [hrest, heof]

theorem readable_read {tail : Bytes} (h : c.read d data chunkSize = some (chunk, d', tail)) :
    readable (c.rest d data).1 (c.rest d data).2 =
      chunk.length + readable (c.rest d' tail).1 (c.rest d' tail).2 := by
  obtain ⟨hrest, hlength, hlast⟩ := read_some h
  rw [hrest]
  rcases hlength.lt_or_eq with hshort | hfull
  · rw [hlast hshort]
    simp [readable]
  · unfold readable
    dsimp only
    rw [length_append, hfull, Nat.add_div_left _ (by decide), Nat.succ_mul]
    split_ifs <;> omega

theorem readLimited_eq (hbuffer : buffer.length ≤ maxSize) :
    (readLimited maxSize d data buffer).1 =
      limited maxSize buffer (c.rest d data).1 (c.rest d data).2 ∧
    (readLimited maxSize d data buffer).2 ≤ maxSize + chunkSize := by
  fun_induction readLimited maxSize d data buffer with
  | case1 d data buffer h =>
    obtain ⟨hlength, hwhole⟩ := read_none h
    have hnothing : readable (c.rest d data).1 false = 0 := by
      simp [readable, Nat.div_eq_of_lt hlength]
    refine ⟨?_, by omega⟩
    rw [limited, hwhole, hnothing, if_neg (by omega)]
    rfl
  | case2 d data buffer d' tail h =>
    obtain ⟨hrest, -, hlast⟩ := read_some h
    rw [hlast (by decide)] at hrest
    refine ⟨?_, by omega⟩
    rw [hrest, limited, readable, if_pos rfl, if_neg (by simpa using hbuffer)]
    simp
  | case3 d data buffer chunk d' tail h hchunk htotal =>
    obtain ⟨-, hlength, -⟩ := read_some h
    refine ⟨?_, by omega⟩
    rw [limited, readable_read h, if_pos (by omega)]
  | case4 d data buffer chunk d' tail h hchunk htotal ih =>
    obtain ⟨hrest, -, -⟩ := read_some h
    have hsame : limited maxSize buffer (c.rest d data).1 (c.rest d data).2 =
        limited maxSize (buffer ++ chunk) (c.rest d' tail).1 (c.rest d' tail).2 := by
      rw [limited, limited, readable_read h, hrest, length_append, Nat.add_assoc, append_assoc]
    rw [hsame]
    refine ih ?_
    rw [length_append]
    omega

/-! ## Bodies -/

structure Codecs where
  gzip : Decoder
  zlib : Decoder

namespace Codecs

variable (cs : Codecs) (maxSize : ℕ)

def decompressStage (data : Bytes) : Encoding → Run Bytes
  | .gzip => decompressGzip cs.gzip data maxSize
  | .deflate => decompressDeflate cs.zlib data maxSize
  | .identity => (.ok data, 0)

def decompressStages (data : Bytes) : List Encoding → Run Bytes
  | [] => (.ok data, 0)
  | encoding :: encodings =>
    match cs.decompressStage maxSize data encoding with
    | (.error e, n) => (.error e, n)
    | (.ok result, n) =>
      let later := decompressStages result encodings
      (later.1, max n later.2)

def decompressBody (data : Bytes) (encodings : List Encoding) : Run Bytes :=
  cs.decompressStages maxSize data encodings.reverse

def stage (data : Bytes) (encoding : Encoding) : Stage :=
  let p := match encoding with
    | .gzip => cs.gzip.rest cs.gzip.start data
    | .deflate => cs.zlib.rest cs.zlib.start data
    | .identity => (data, true)
  ⟨encoding, p.1, p.2⟩

def stages (data : Bytes) : List Encoding → List Stage
  | [] => []
  | encoding :: encodings =>
    let s := cs.stage data encoding
    s :: if s.whole then stages s.output encodings else []

/-- **Exactness**: the decoded bytes are returned just if every stage is valid and fits, the error
is raised just if every stage is valid and some does not fit, and no more is buffered than the limit
and one chunk. -/
structure Exact (data : Bytes) (encodings : List Encoding) : Prop where
  returned : ∀ result, (cs.decompressBody maxSize data encodings).1 = .ok result ↔
    (∀ s ∈ cs.stages data encodings.reverse, s.whole = true ∧ s.output.length ≤ maxSize) ∧
      result = ((cs.stages data encodings.reverse).map Stage.output).getLastD data
  tooLarge : (cs.decompressBody maxSize data encodings).1 = .error .tooLarge ↔
    (∀ s ∈ cs.stages data encodings.reverse, s.whole = true) ∧
      ∃ s ∈ cs.stages data encodings.reverse, maxSize < s.output.length
  bounded : (cs.decompressBody maxSize data encodings).2 ≤ maxSize + chunkSize

end Codecs

def Told (maxSize : ℕ) (all : List Stage) : Prop :=
  if ∀ s ∈ all, s.whole = true then
    (∀ s ∈ all, s.output.length ≤ maxSize) ↔ ∀ s ∈ all, s.stopped maxSize = false
  else ∀ s ∈ all, s.stopped maxSize = false

def verdict (maxSize : ℕ) (data : Bytes) (all : List Stage) : Except DecompressError Bytes :=
  if ∀ s ∈ all, s.stopped maxSize = false then
    if ∀ s ∈ all, s.whole = true then .ok ((all.map Stage.output).getLastD data)
    else .error .invalid
  else .error .tooLarge

variable {cs : Codecs}

theorem decompressStage_eq (data : Bytes) (encoding : Encoding) :
    (cs.decompressStage maxSize data encoding).1 = (cs.stage data encoding).answer maxSize ∧
      (cs.decompressStage maxSize data encoding).2 ≤ maxSize + chunkSize := by
  cases encoding with
  | gzip =>
    obtain ⟨heq, hbound⟩ :=
      @readLimited_eq cs.gzip maxSize cs.gzip.start [] data (Nat.zero_le maxSize)
    refine ⟨heq.trans ?_, hbound⟩
    simp [limited, Stage.answer, Codecs.stage, Stage.stopped]
    rfl
  | deflate =>
    obtain ⟨heq, hbound⟩ :=
      @inflate_eq cs.zlib maxSize cs.zlib.start [] data (Nat.zero_le maxSize)
    exact ⟨heq, hbound.trans (Nat.le_add_right _ _)⟩
  | identity => exact ⟨rfl, Nat.zero_le _⟩

theorem verdict_cons {s : Stage} (hstopped : ¬ s.stopped maxSize = true) (hwhole : s.whole = true)
    (data : Bytes) (all : List Stage) :
    verdict maxSize data (s :: all) = verdict maxSize s.output all := by
  simp only [verdict, forall_mem_cons, Bool.eq_false_iff.mpr hstopped, hwhole, true_and, map_cons,
    getLastD_cons]

theorem decompressStages_eq (data : Bytes) (encodings : List Encoding) :
    (cs.decompressStages maxSize data encodings).1 =
      verdict maxSize data (cs.stages data encodings) ∧
    (cs.decompressStages maxSize data encodings).2 ≤ maxSize + chunkSize := by
  induction encodings generalizing data with
  | nil => exact ⟨by simp [Codecs.decompressStages, Codecs.stages, verdict], Nat.zero_le _⟩
  | cons encoding encodings ih =>
    obtain ⟨heq, hbound⟩ := @decompressStage_eq maxSize cs data encoding
    rw [Codecs.decompressStages, Codecs.stages]
    rcases hrun : cs.decompressStage maxSize data encoding with ⟨result, n⟩
    rw [hrun] at heq hbound
    dsimp only at heq hbound ⊢
    rw [Stage.answer] at heq
    split_ifs at heq with hstopped hwhole
    · subst heq
      exact ⟨by simp [verdict, hstopped], hbound⟩
    · subst heq
      obtain ⟨hlater, hboundLater⟩ := ih (cs.stage data encoding).output
      rw [if_pos hwhole, verdict_cons hstopped hwhole]
      exact ⟨hlater, max_le hbound hboundLater⟩
    · subst heq
      exact ⟨by simp [verdict, hstopped, hwhole], hbound⟩

theorem verdict_ok {all : List Stage} {result : Bytes} : verdict maxSize data all = .ok result ↔
    ((∀ s ∈ all, s.stopped maxSize = false) ∧ ∀ s ∈ all, s.whole = true) ∧
      result = (all.map Stage.output).getLastD data := by
  unfold verdict
  split_ifs with hfree hwhole
  · rw [Except.ok.injEq, eq_comm]
    tauto
  · simp [hwhole]
  · simp [hfree]

theorem verdict_tooLarge {all : List Stage} : verdict maxSize data all = .error .tooLarge ↔
    ¬ ∀ s ∈ all, s.stopped maxSize = false := by
  unfold verdict
  split_ifs with hfree hwhole
  · simpa using hfree
  · simpa using hfree
  · simp [hfree]

def stored : Decoder where
  State := Unit
  start := ()
  rest _ data := (data, true)
  eof _ := true
  decompress _ data n := some (data.take n, (), data.drop n)
  decompress_none h := by cases h
  decompress_some h more := by
    cases h
    rw [← append_assoc, take_append_drop]
  length_output h := by
    cases h
    exact ⟨length_take_le _ _, by simp⟩
  output_lt h hlt := by
    cases h
    rw [length_take] at hlt
    exact ⟨drop_of_length_le (by omega), rfl⟩

end CodexOctopus.RequestDecompression
