import CodexOctopus.KiroStream

/-!
# The Responses stream of a Kiro generation

`_stream_once_kiro` of `app/modules/proxy/service.py` turns the events of a generation into a
Responses stream and fills in the settlement. Ids, the model and the request log are left out.

The text is reported in full. A `tool_use` event is dropped, and an `error` event is only noted:
the stream is completed and a success is recorded all the same (`kiro_reports_iff`).
-/

namespace CodexOctopus.Kiro

open List

open Sse (Payload)

inductive OutputItem : Type where
  | message (text : String)
  | functionCall (tool : Payload)

inductive ResponseEvent : Type where
  | created
  | outputItemAdded
  | contentPartAdded
  | outputTextDelta (delta : String)
  | outputTextDone (text : String)
  | contentPartDone (text : String)
  | outputItemDone (item : OutputItem)
  | completed (output : List OutputItem) (inputTokens outputTokens totalTokens : ℤ)

inductive GenerationEnd : Type where
  | finished
  | upstreamError (code message : String)
  | exception (message : String)
  deriving DecidableEq

structure Settlement where
  failed : Bool := false
  inputTokens : Option ℤ := none
  outputTokens : Option ℤ := none
  errorCode : Option String := none
  errorMessage : Option String := none
  accountHealthError : Bool := false
  recordSuccess : Bool := true

structure Progress where
  outputText : String
  settlement : Settlement

def Progress.next (s : Progress) (e : KiroStreamEvent) : Progress × List ResponseEvent :=
  match e.type with
  | .text =>
    let text := e.text.getD ""
    if text = "" then (s, [])
    else ({ s with outputText := s.outputText ++ text }, [.outputTextDelta text])
  | .usage =>
    ({ s with settlement := { s.settlement with
        inputTokens := e.inputTokens.or s.settlement.inputTokens
        outputTokens := e.outputTokens.or s.settlement.outputTokens } }, [])
  | .error =>
    ({ s with settlement := { s.settlement with
        failed := true, errorCode := some "upstream_error", errorMessage := e.error } }, [])
  | _ => (s, [])

def Progress.run : Progress → List KiroStreamEvent → Progress × List ResponseEvent
  | s, [] => (s, [])
  | s, e :: es =>
    let (s₁, out₁) := s.next e
    let (s₂, out₂) := s₁.run es
    (s₂, out₁ ++ out₂)

def closing (text : String) (s : Settlement) : List ResponseEvent :=
  let inputTokens := s.inputTokens.getD 0
  let outputTokens := s.outputTokens.getD 0
  [.outputTextDone text, .contentPartDone text, .outputItemDone (.message text),
    .completed [.message text] inputTokens outputTokens (inputTokens + outputTokens)]

def streamOnceKiro (events : List KiroStreamEvent) (ending : GenerationEnd) :
    List ResponseEvent × Settlement :=
  let (s, deltas) := Progress.run ⟨"", {}⟩ events
  let out := [.created, .outputItemAdded, .contentPartAdded] ++ deltas
  match ending with
  | .finished => (out ++ closing s.outputText s.settlement, s.settlement)
  | .upstreamError code message =>
    (out, { s.settlement with
      failed := true, errorCode := some code, errorMessage := some message
      recordSuccess := false, accountHealthError := code = "auth_error" })
  | .exception message =>
    (out, { s.settlement with
      failed := true, errorCode := some "upstream_error", errorMessage := some message
      recordSuccess := false })

/-! ## What is reported -/

def KiroStreamEvent.textOf (e : KiroStreamEvent) : String :=
  if e.type = .text then e.text.getD "" else ""

def ResponseEvent.deltaOf : ResponseEvent → String
  | .outputTextDelta delta => delta
  | _ => ""

def OutputItem.textOf : OutputItem → String
  | .message text => text
  | .functionCall _ => ""

structure Reports (events : List KiroStreamEvent) (r : List ResponseEvent × Settlement) : Prop where
  text : String.join (r.1.map ResponseEvent.deltaOf) =
    String.join (events.map KiroStreamEvent.textOf)
  output : ∀ output i o t, ResponseEvent.completed output i o t ∈ r.1 →
    String.join (output.map OutputItem.textOf) = String.join (events.map KiroStreamEvent.textOf)
  tools : ∀ e ∈ events, e.type = .toolUse →
    ∃ tool, ResponseEvent.outputItemDone (.functionCall tool) ∈ r.1
  failure : ∀ e ∈ events, e.type = .error →
    (∀ output i o t, ResponseEvent.completed output i o t ∉ r.1) ∧ r.2.recordSuccess = false

theorem Progress.next_spec (s : Progress) (e : KiroStreamEvent) :
    (s.next e).1.outputText = s.outputText ++ e.textOf ∧
      (s.next e).2 = if e.textOf = "" then [] else [.outputTextDelta e.textOf] := by
  unfold Progress.next KiroStreamEvent.textOf
  cases e.type <;> simp
  split_ifs with h <;> simp [h]

theorem Progress.run_spec (events : List KiroStreamEvent) : ∀ s : Progress,
    (s.run events).1.outputText = s.outputText ++ String.join (events.map KiroStreamEvent.textOf) ∧
      String.join ((s.run events).2.map ResponseEvent.deltaOf) =
        String.join (events.map KiroStreamEvent.textOf) ∧
      ∀ x ∈ (s.run events).2, ∃ delta, x = .outputTextDelta delta := by
  induction events with
  | nil => exact fun s => ⟨by simp [run], rfl, nofun⟩
  | cons e events ih =>
    intro s
    obtain ⟨htext, hout⟩ := s.next_spec e
    obtain ⟨htext', hdeltas, honly⟩ := ih (s.next e).1
    refine ⟨?_, ?_, fun x hx => ?_⟩
    · simp only [run, htext', htext, map_cons, String.join_cons, String.append_assoc]
    · simp only [run, map_append, String.join_append, hdeltas, map_cons, String.join_cons,
        hout]
      split_ifs with h <;> simp [h, ResponseEvent.deltaOf]
    · have hx : x ∈ (s.next e).2 ++ ((s.next e).1.run events).2 := hx
      rcases mem_append.mp hx with hx | hx
      · rw [hout] at hx
        split_ifs at hx
        · cases hx
        · exact ⟨_, mem_singleton.mp hx⟩
      · exact honly x hx

/-- **A Kiro generation is reported** as it went, exactly when it has no `tool_use` event and does
not finish after an `error` event. -/
theorem kiro_reports_iff (events : List KiroStreamEvent) (ending : GenerationEnd) :
    Reports events (streamOnceKiro events ending) ↔
      (∀ e ∈ events, e.type ≠ .toolUse) ∧ (ending = .finished → ∀ e ∈ events, e.type ≠ .error) := by
  obtain ⟨htext, hdeltas, honly⟩ := Progress.run_spec events ⟨"", {}⟩
  have hcall (tool : Payload) : .outputItemDone (.functionCall tool) ∉
      (Progress.run ⟨"", {}⟩ events).2 := fun h => nomatch honly _ h
  have hdone (output : List OutputItem) (i o t : ℤ) :
      .completed output i o t ∉ (Progress.run ⟨"", {}⟩ events).2 := fun h => nomatch honly _ h
  rw [String.empty_append] at htext
  constructor
  · intro h
    refine ⟨fun e he htool => ?_, ?_⟩
    · obtain ⟨tool, htool⟩ := h.tools e he htool
      cases ending <;> simp [streamOnceKiro, closing, hcall] at htool
    · rintro rfl e he herror
      exact (h.failure e he herror).1 _ _ _ _
        (mem_append_right _ (.tail _ (.tail _ (.tail _ (.head _)))))
  · rintro ⟨htools, herrors⟩
    constructor
    · cases ending <;>
        simp [streamOnceKiro, closing, ResponseEvent.deltaOf, hdeltas]
    · intro output i o t hmem
      cases ending <;> simp [streamOnceKiro, closing, hdone] at hmem
      simp [hmem, htext, OutputItem.textOf]
    · exact fun e he htool => absurd htool (htools e he)
    · intro e he herror
      cases ending with
      | finished => exact absurd herror (herrors rfl e he)
      | upstreamError => exact ⟨fun _ _ _ _ => by simp [streamOnceKiro, hdone], rfl⟩
      | exception => exact ⟨fun _ _ _ _ => by simp [streamOnceKiro, hdone], rfl⟩

/-- **An error as the only event**: the response is completed and a success is recorded. -/
theorem kiro_error_completed :
    ∃ s, streamOnceKiro [{ type := .error, error := some "throttled" }] .finished =
        ([.created, .outputItemAdded, .contentPartAdded, .outputTextDone "", .contentPartDone "",
          .outputItemDone (.message ""), .completed [.message ""] 0 0 0], s) ∧
      s.recordSuccess = true :=
  ⟨_, rfl, rfl⟩

/-- **Frames become one response.** If the first endpoint sends readable frames, however they are
cut, no other one is contacted, and the client gets the texts of the frames as deltas, in order, and
then the completed response with all of the text. -/
theorem kiro_frames_answered (py : PythonValues) (frames : List Frame) (chunks : List Bytes)
    (fuel : ℕ) (url : String) (endpoints : List Endpoint) (hread : ∀ f ∈ frames, f.Readable py)
    (hchunks : chunks.flatten = frames.flatMap Frame.encode)
    (hfuel : (frames.flatMap Frame.encode).length < fuel) :
    streamKiroGeneration py fuel false (⟨url, .stream chunks false⟩ :: endpoints) =
      (.contact url :: (framesEvents py frames).map .event, .returned) ∧
    ∃ deltas settlement, streamOnceKiro (framesEvents py frames) .finished =
        ([.created, .outputItemAdded, .contentPartAdded] ++ deltas.map .outputTextDelta ++
          closing (String.join deltas) settlement, settlement) ∧
      String.join deltas = String.join ((framesEvents py frames).map KiroStreamEvent.textOf) := by
  have hstream : iterAwsEventStreamBytes py fuel chunks = ⟨framesEvents py frames, .finished⟩ := by
    refine readChunks_frames hread hchunks (fun f _ => ?_) hfuel
    rw [length_nil, Frame.length_encode, Frame.totalLength]
    omega
  obtain ⟨htext, hdeltas, honly⟩ := Progress.run_spec (framesEvents py frames) ⟨"", {}⟩
  rcases hrun : Progress.run ⟨"", {}⟩ (framesEvents py frames) with ⟨s, out⟩
  rw [hrun, String.empty_append] at htext
  rw [hrun] at hdeltas honly
  refine ⟨?_, out.map ResponseEvent.deltaOf, s.settlement, ?_, hdeltas⟩
  · simp [streamKiroGeneration, Reply.yielded, Reply.isAuthError, hstream]
  · have hall : (out.map ResponseEvent.deltaOf).map .outputTextDelta = out := by
      rw [map_map]
      refine (map_congr_left fun x hx => ?_).trans (map_id _)
      obtain ⟨delta, rfl⟩ := honly x hx
      rfl
    rw [streamOnceKiro, hrun, hall, hdeltas, ← htext]

theorem kiro_frames_answered_hi : ∃ deltas settlement,
    streamOnceKiro (framesEvents plainValues [textFrame]) .finished =
      ([.created, .outputItemAdded, .contentPartAdded] ++ deltas.map .outputTextDelta ++
        closing (String.join deltas) settlement, settlement) := by
  obtain ⟨-, deltas, settlement, h, -⟩ := kiro_frames_answered plainValues [textFrame]
    [textFrame.encode] 1000 "q" []
    (forall_mem_singleton.mpr ⟨by decide +kernel, by decide +kernel⟩) rfl (by decide +kernel)
  exact ⟨deltas, settlement, h⟩

end CodexOctopus.Kiro
