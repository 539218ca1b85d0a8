import CodexOctopus.StreamOnce

/-!
# What an attempt can do

What holds of every attempt, whatever the upstream answers (`streamOnce_spec`): it starts
no other attempt; it yields `response.created` once if the upstream does; and if it has
yielded a line, then it ends the request, or it is a Kiro attempt whose generation failed.
Only a Kiro attempt can send a request after it has yielded text.
-/

namespace CodexOctopus

open List

/-! ## What the client can see -/

def Item.isLine : Item → Bool
  | .line _ => true
  | _ => false

def Item.isText : Item → Bool
  | .line l => l.type.isTextDelta
  | _ => false

def Item.isCreated : Item → Bool
  | .line l => l.type = .created
  | _ => false

def NoAttemptAfterOutput (trace : List Item) : Prop :=
  trace.Pairwise fun x y => x.isLine = true → y ≠ .attempt

def NoRequestAfterText (trace : List Item) : Prop :=
  trace.Pairwise fun x y => x.isText = true → y ≠ .request

instance (trace : List Item) : Decidable (NoAttemptAfterOutput trace) :=
  inferInstanceAs (Decidable (List.Pairwise _ _))

instance (trace : List Item) : Decidable (NoRequestAfterText trace) :=
  inferInstanceAs (Decidable (List.Pairwise _ _))

section

variable {items : List Item} {outcome : Outcome}

variable {x : Item} {allowTransientRetry suppress allowRetry : Bool}

theorem Item.isLine_of_isText (h : x.isText = true) : x.isLine = true := by
  cases x with
  | line l => rfl
  | attempt | request | own l => cases h

theorem Item.isLine_of_isCreated (h : x.isCreated = true) : x.isLine = true := by
  cases x with
  | line l => rfl
  | attempt | request | own l => cases h

theorem noRequestAfterText_of_quiet (h : ∀ x ∈ items, x.isLine = false) :
    NoRequestAfterText items := by
  refine List.Pairwise.imp_of_mem (R := fun _ _ => True) ?_ (pairwise_of_forall fun _ _ => trivial)
  intro x y hx _ _ htext
  have hline := Item.isLine_of_isText htext
  rw [h x hx] at hline
  cases hline

/-! ### One attempt -/

theorem mem_requests {fallback : Bool} (h : x ∈ requests fallback) : x = .request := by
  cases fallback <;> simpa [requests] using h

theorem streamBlocks_spec {blocks lines : List Line}
    (h : streamBlocks allowRetry allowTransientRetry suppress blocks = (lines, outcome)) :
    lines = [] ∨ outcome = .finished ∨ ∃ code, outcome = .terminal code := by
  unfold streamBlocks at h
  split at h
  · exact .inl (Prod.mk.inj h).1.symm
  · split at h
    · split at h
      · exact .inl (Prod.mk.inj h).1.symm
      · split at h
        · exact .inl (Prod.mk.inj h).1.symm
        · exact .inr (.inr ⟨_, (Prod.mk.inj h).2.symm⟩)
    · exact .inr (.inl (Prod.mk.inj h).2.symm)

theorem streamOnceOpenAi_items {reply : OpenAiReply}
    (h : streamOnceOpenAi allowRetry allowTransientRetry suppress reply = (items, outcome)) :
    (∃ reqs : List Item, ∃ lines : List Line, items = reqs ++ lines.map .line ∧
      (∀ x ∈ reqs, x = .request)) ∧
    ((∀ x ∈ items, x.isLine = false) ∨ outcome = .finished ∨ ∃ code, outcome = .terminal code) := by
  cases reply with
  | overloaded | raised =>
    obtain ⟨rfl, _⟩ := Prod.mk.inj h
    exact ⟨⟨[], [], rfl, by simp⟩, .inl (by simp)⟩
  | rejected fallback status code =>
    obtain ⟨rfl, _⟩ := Prod.mk.inj h
    refine ⟨⟨_, [], (append_nil _).symm, fun x hx => mem_requests hx⟩, .inl fun x hx => ?_⟩
    rw [mem_requests hx]
    rfl
  | accepted fallback blocks ending =>
    rcases hb : streamBlocks allowRetry allowTransientRetry suppress (streamResponses blocks ending)
      with ⟨lines, outcome'⟩
    simp only [streamOnceOpenAi, hb] at h
    obtain ⟨rfl, rfl⟩ := Prod.mk.inj h
    refine ⟨⟨_, lines, rfl, fun x hx => mem_requests hx⟩, ?_⟩
    rcases streamBlocks_spec hb with rfl | hout
    · refine .inl fun x hx => ?_
      rw [map_nil, append_nil] at hx
      rw [mem_requests hx]
      rfl
    · exact .inr hout

theorem NoRequestAfterText.append {items' : List Item} (h : NoRequestAfterText items)
    (h' : NoRequestAfterText items')
    (hor : (∀ x ∈ items, x.isText = false) ∨ ∀ y ∈ items', y ≠ .request) :
    NoRequestAfterText (items ++ items') := by
  refine pairwise_append.mpr ⟨h, h', fun x hx y hy htext => ?_⟩
  rcases hor with hx' | hy'
  · rw [hx' x hx] at htext
    cases htext
  · exact hy' y hy

theorem noRequestAfterText_of_no_request (h : ∀ x ∈ items, x ≠ .request) :
    NoRequestAfterText items :=
  List.Pairwise.imp_of_mem (R := fun _ _ => True) (fun _ hy _ _ => h _ hy)
    (pairwise_of_forall fun _ _ => trivial)

def EndpointReply.breaksAfterText : EndpointReply → Bool
  | .events evs true => kiroTexts evs ≠ []
  | _ => false

theorem mem_streamKiroGeneration {lastError : Bool} {endpoints : List EndpointReply}
    (h : x ∈ (streamKiroGeneration lastError endpoints).1) :
    x = .request ∨ ∃ t, x = .line (textDelta t) := by
  induction endpoints generalizing lastError with
  | nil => cases h
  | cons e endpoints ih =>
    cases e with
    | status code =>
      simp only [streamKiroGeneration] at h
      split at h
      · exact .inl (by simpa using h)
      · rcases mem_cons.mp h with h | h
        · exact .inl h
        · exact ih h
    | unreachable =>
      rcases mem_cons.mp h with h | h
      · exact .inl h
      · exact ih h
    | events events brokenOff =>
      have hlines : ∀ x ∈ (kiroTexts events).map (fun t => Item.line (textDelta t)),
          x = .request ∨ ∃ t, x = .line (textDelta t) := by
        intro x hx
        obtain ⟨t, _, rfl⟩ := mem_map.mp hx
        exact .inr ⟨t, rfl⟩
      cases brokenOff with
      | false =>
        rcases mem_cons.mp h with h | h
        · exact .inl h
        · exact hlines x h
      | true =>
        rcases mem_append.mp h with h | h
        · rcases mem_cons.mp h with h | h
          · exact .inl h
          · exact hlines x h
        · exact ih h

theorem noRequestAfterText_cons_request (h : NoRequestAfterText items) :
    NoRequestAfterText (.request :: items) :=
  pairwise_cons.mpr ⟨fun _ _ htext => (by cases htext), h⟩

theorem noRequestAfterText_texts (ts : List String) :
    NoRequestAfterText (ts.map fun t => Item.line (textDelta t)) :=
  noRequestAfterText_of_no_request (by simp)

theorem noRequestAfterText_streamKiroGeneration {lastError : Bool} {endpoints : List EndpointReply}
    (h : ∀ e ∈ endpoints.dropLast, e.breaksAfterText = false) :
    NoRequestAfterText (streamKiroGeneration lastError endpoints).1 := by
  induction endpoints generalizing lastError with
  | nil => exact List.Pairwise.nil
  | cons e endpoints ih =>
    have hrest : NoRequestAfterText (streamKiroGeneration true endpoints).1 := by
      refine ih fun e' he' => h e' ?_
      cases endpoints with
      | nil => cases he'
      | cons e₂ endpoints => exact mem_cons_of_mem _ he'
    cases e with
    | status code =>
      simp only [streamKiroGeneration]
      split
      · exact noRequestAfterText_cons_request List.Pairwise.nil
      · exact noRequestAfterText_cons_request hrest
    | unreachable => exact noRequestAfterText_cons_request hrest
    | events events brokenOff =>
      cases brokenOff with
      | false => exact noRequestAfterText_cons_request (noRequestAfterText_texts _)
      | true =>
        refine (noRequestAfterText_cons_request (noRequestAfterText_texts _)).append hrest ?_
        cases endpoints with
        | nil => exact .inr fun y hy => by cases hy
        | cons e₂ endpoints =>
          -- not the last endpoint, so it has delivered no text
          have hnone : kiroTexts events = [] := by
            simpa [EndpointReply.breaksAfterText] using h _ mem_cons_self
          simp [hnone, Item.isText]

/-! ### How often `response.created` is yielded -/

theorem relay_sublist (suppress saw : Bool) (lines : List Line) :
    (relay suppress saw lines).Sublist lines := by
  induction lines generalizing saw with
  | nil => exact List.Sublist.refl _
  | cons l lines ih =>
    simp only [relay]
    split
    · exact (ih _).cons l
    · exact (ih _).cons_cons l

theorem upToTerminal_sublist (lines : List Line) : (upToTerminal lines).Sublist lines := by
  induction lines with
  | nil => exact List.Sublist.refl _
  | cons l lines ih =>
    simp only [upToTerminal]
    split
    · exact (nil_sublist _).cons_cons l
    · exact ih.cons_cons l

theorem streamBlocks_sublist (blocks : List Line) :
    (streamBlocks allowRetry allowTransientRetry suppress blocks).1.Sublist blocks := by
  unfold streamBlocks
  split
  · exact List.Sublist.refl _
  · split
    · split
      · exact nil_sublist _
      · split
        · exact nil_sublist _
        · exact (nil_sublist _).cons_cons _
    · exact relay_sublist _ _ _

def createdCount (lines : List Line) : ℕ := lines.countP fun l => l.type = .created

theorem createdCount_streamResponses (blocks : List Line) (ending : WireEnd) :
    createdCount (streamResponses blocks ending) ≤ createdCount blocks := by
  rw [streamResponses]
  split
  · exact (upToTerminal_sublist blocks).countP_le
  · simp [createdCount, responseFailedEvent]

theorem countP_isCreated_lines (lines : List Line) :
    (lines.map Item.line).countP Item.isCreated = createdCount lines := by
  rw [countP_map]
  rfl

theorem countP_isCreated_eq_zero (h : ∀ x ∈ items, x.isCreated = false) :
    items.countP Item.isCreated = 0 :=
  countP_eq_zero.mpr fun x hx hc => by rw [h x hx] at hc; cases hc

/-! ### What an attempt can do -/

def StreamReply.breaksAfterText : StreamReply → Bool
  | .kiro (.generation first _) => first.breaksAfterText
  | _ => false

def StreamReply.failsUpstream : StreamReply → Bool
  | .kiro (.generation first second) => (streamKiroGeneration false [first, second]).2.isSome
  | _ => false

def StreamReply.createdOnce : StreamReply → Bool
  | .openAi (.accepted _ blocks _) => createdCount blocks ≤ 1
  | _ => true

structure AttemptSpec (reply : StreamReply) (items : List Item) (outcome : Outcome) : Prop where
  no_attempt : ∀ x ∈ items, x ≠ .attempt
  no_request : reply.breaksAfterText = false → NoRequestAfterText items
  created : reply.createdOnce = true → items.countP Item.isCreated ≤ 1
  /-- lines are out only if the attempt ends the request, or a Kiro generation failed -/
  raises : (∀ x ∈ items, x.isLine = false) ∨ outcome = .finished ∨
    (∃ code, outcome = .terminal code) ∨
    reply.failsUpstream = true ∧ ∃ code, outcome = .retryable code

theorem attemptSpec_openAi {reply : OpenAiReply}
    (h : streamOnceOpenAi allowRetry allowTransientRetry suppress reply = (items, outcome)) :
    AttemptSpec (.openAi reply) items outcome := by
  obtain ⟨⟨reqs, lines, rfl, hreqs⟩, hraises⟩ := streamOnceOpenAi_items h
  have hquiet : ∀ x ∈ reqs, x.isLine = false := fun x hx => by rw [hreqs x hx]; rfl
  refine ⟨?_, fun _ => ?_, fun honce => ?_, ?_⟩
  · intro x hx
    rcases mem_append.mp hx with hx | hx
    · rw [hreqs x hx]
      exact Item.noConfusion
    · obtain ⟨l, _, rfl⟩ := mem_map.mp hx
      exact Item.noConfusion
  · refine (noRequestAfterText_of_quiet hquiet).append (noRequestAfterText_of_no_request (by simp))
      (.inr (by simp))
  · cases reply with
    | overloaded | raised =>
      rw [← (Prod.mk.inj h).1]
      exact Nat.zero_le _
    | rejected fallback status code =>
      have hzero : (requests fallback).countP Item.isCreated = 0 :=
        countP_isCreated_eq_zero fun x hx => by rw [mem_requests hx]; rfl
      rw [← (Prod.mk.inj h).1, hzero]
      exact Nat.zero_le _
    | accepted fallback blocks ending =>
      rw [← (Prod.mk.inj h).1, countP_append, countP_isCreated_lines,
        countP_isCreated_eq_zero fun x hx => by rw [mem_requests hx]; rfl, Nat.zero_add]
      have hle : createdCount blocks ≤ 1 := of_decide_eq_true honce
      exact Nat.le_trans (streamBlocks_sublist _).countP_le
        (Nat.le_trans (createdCount_streamResponses blocks ending) hle)
  · rcases hraises with hraises | hraises | hraises
    · exact .inl hraises
    · exact .inr (.inl hraises)
    · exact .inr (.inr (.inl hraises))

theorem attemptSpec_kiro {reply : KiroReply} (h : streamOnceKiro reply = (items, outcome)) :
    AttemptSpec (.kiro reply) items outcome := by
  cases reply with
  | raised =>
    obtain ⟨rfl, _⟩ := Prod.mk.inj h
    exact ⟨by simp, fun _ => List.Pairwise.nil, fun _ => Nat.zero_le _, .inl (by simp)⟩
  | generation first second =>
    rcases hgen : streamKiroGeneration false [first, second] with ⟨gen, error⟩
    have hmem : ∀ x ∈ gen, x = .request ∨ ∃ t, x = .line (textDelta t) := fun x hx =>
      mem_streamKiroGeneration (by rwa [hgen])
    have hopening : ∀ x ∈ kiroOpening, x.isText = false := by decide
    have hgenText : first.breaksAfterText = false → NoRequestAfterText (kiroOpening ++ gen) := by
      intro hfirst
      have hgen' := @noRequestAfterText_streamKiroGeneration false [first, second]
        (by simpa using hfirst)
      rw [hgen] at hgen'
      exact (noRequestAfterText_of_no_request (by decide)).append hgen' (.inl hopening)
    have hgenCreated : (kiroOpening ++ gen).countP Item.isCreated = 1 := by
      have hzero : gen.countP Item.isCreated = 0 := countP_isCreated_eq_zero fun x hx => by
        rcases hmem x hx with rfl | ⟨t, rfl⟩ <;> rfl
      rw [countP_append, hzero]
      rfl
    have hgenAttempt : ∀ x ∈ kiroOpening ++ gen, x ≠ .attempt := by
      intro x hx
      rcases mem_append.mp hx with hx | hx
      · exact (by decide : ∀ x ∈ kiroOpening, x ≠ .attempt) x hx
      · rcases hmem x hx with rfl | ⟨t, rfl⟩ <;> exact Item.noConfusion
    have hclosing : ∀ t, ∀ x ∈ kiroClosing t, x ≠ .request ∧ x ≠ .attempt ∧ x.isCreated =
      false := by
      intro t x hx
      simp only [kiroClosing, mem_cons, not_mem_nil, or_false] at hx
      rcases hx with rfl | rfl | rfl | rfl <;> exact ⟨Item.noConfusion, Item.noConfusion, rfl⟩
    simp only [streamOnceKiro, hgen] at h
    cases error with
    | none =>
      obtain ⟨rfl, rfl⟩ := Prod.mk.inj h
      refine ⟨?_, ?_, ?_, .inr (.inl rfl)⟩
      · intro x hx
        rcases mem_append.mp hx with hx | hx
        · exact hgenAttempt x hx
        · exact (hclosing _ x hx).2.1
      · intro hfirst
        exact (hgenText hfirst).append
          (noRequestAfterText_of_no_request fun x hx => (hclosing _ x hx).1)
          (.inr fun x hx => (hclosing _ x hx).1)
      · intro _
        refine Nat.le_of_eq ?_
        rw [countP_append, hgenCreated,
          countP_isCreated_eq_zero fun x hx => (hclosing _ x hx).2.2]
    | some code =>
      obtain ⟨rfl, rfl⟩ := Prod.mk.inj h
      refine ⟨hgenAttempt, hgenText, fun _ => Nat.le_of_eq hgenCreated, .inr
        (.inr (.inr ⟨?_, code, rfl⟩))⟩
      simp only [StreamReply.failsUpstream, hgen, Option.isSome_some]

theorem streamOnce_spec {reply : StreamReply}
    (h : streamOnce allowRetry allowTransientRetry suppress reply = (items, outcome)) :
    AttemptSpec reply items outcome := by
  cases reply with
  | openAi reply => exact attemptSpec_openAi h
  | kiro reply => exact attemptSpec_kiro h

end

end CodexOctopus
