import CodexOctopus.ResponsesRequest

/-!
# The payload of a request

`to_payload` of `app/core/openai/requests.py` brings the dump of a request into the form in
which it is sent: aliases are renamed, the input is cleaned once more, and the tools are
sorted by name, each with its keys in order.
-/

namespace CodexOctopus

open List Option Python

/-! ## `_strip_unsupported_fields` -/

def setDefaultText (key : String) (value : Json) (fs : List (String × Json)) :
    List (String × Json) :=
  match value with
  | .str text => if (getItem key fs).isSome then fs else setItem key (.str text) fs
  | _ => fs

def setMapping (key : String) (mapping fs : List (String × Json)) : List (String × Json) :=
  if mapping.isEmpty then fs else setItem key (.obj mapping) fs

def mappingOf : Json → List (String × Json)
  | .obj fs => fs
  | _ => []

def aliasNames : List String :=
  ["reasoningEffort", "reasoningSummary", "textVerbosity", "verbosity", "promptCacheKey",
    "promptCacheRetention"]

def normalizeOpenaiCompatibleAliases (payload : List (String × Json)) : List (String × Json) :=
  let popped (name : String) := fieldOf name payload
  let fs := payload.filter fun x => x.1 ∉ aliasNames
  let fs := setDefaultText "prompt_cache_key" (popped "promptCacheKey") fs
  let fs := setDefaultText "prompt_cache_retention" (popped "promptCacheRetention") fs
  let reasoning := setDefaultText "effort" (popped "reasoningEffort")
    (mappingOf (fieldOf "reasoning" fs))
  let reasoning := setDefaultText "summary" (popped "reasoningSummary") reasoning
  let fs := setMapping "reasoning" reasoning fs
  let text := setDefaultText "verbosity" (popped "textVerbosity") (mappingOf (fieldOf "text" fs))
  let text := setDefaultText "verbosity" (popped "verbosity") text
  setMapping "text" text fs

def normalizeServiceTierAliases (payload : List (String × Json)) : List (String × Json) :=
  match fieldOf "service_tier" payload with
  | .str tier => setItem "service_tier" (.str (normalizeServiceTierAlias tier)) payload
  | _ => payload

def sanitizeInterleavedReasoningInput (payload : List (String × Json)) :
    Except String (List (String × Json)) :=
  match fieldOf "input" payload with
  | .arr items => (sanitizeInputItems items).map fun items => setItem "input" (.arr items) payload
  | _ => .ok payload

def toolName (fs : List (String × Json)) : Option String :=
  (fieldOf "name" fs).str? <|> (fieldOf "name" (mappingOf (fieldOf "function" fs))).str?

def toolSortKey (tool : Json) : String := (toolName (mappingOf tool)).getD ""

/-- The tools as `_canonicalize_tools` leaves them; `_sort_keys_recursive` is `Json.canon`. -/
def canonicalTools (tools : List Json) : List Json :=
  (tools.insertionSort fun s t => toolSortKey s ≤ toolSortKey t).map Json.canon

def canonicalizeTools (payload : List (String × Json)) : List (String × Json) :=
  match fieldOf "tools" payload with
  | .arr (tool :: tools) => setItem "tools" (.arr (canonicalTools (tool :: tools))) payload
  | _ => payload

def unsupportedUpstreamFields : List String :=
  ["max_output_tokens", "prompt_cache_retention", "safety_identifier", "temperature"]

def stripUnsupportedFields (payload : List (String × Json)) : Except String
    (List (String × Json)) :=
  (sanitizeInterleavedReasoningInput
    (normalizeServiceTierAliases (normalizeOpenaiCompatibleAliases payload))).map fun fs =>
      (canonicalizeTools fs).filter fun x => x.1 ∉ unsupportedUpstreamFields

def ResponsesRequest.toPayload (p : ResponsesRequest) : Except String (List (String × Json)) :=
  stripUnsupportedFields (mappingOf p.dump)

/-! ## Validating a dump -/

def fieldIn (key : String) (v : Json) : Json := fieldOf key (mappingOf v)

/-- The text format of a request gives `schema` as null, and `schema_` beside it. -/
def LateSchema (j : Json) : Prop :=
  getItem "schema" (mappingOf (fieldIn "format" (fieldIn "text" j))) = some .null ∧
    ∃ x ∈ mappingOf (fieldIn "format" (fieldIn "text" j)), x.1 = "schema_" ∧ x.2.isNull = false

theorem optionalModel_ok {α : Type} {path : List String} {name : String}
    {read : List (String × Json) → Except RequestError α} {fs : List (String × Json)} {r : Option α}
    (h : optionalModel path name read fs = .ok r) :
    (fieldOf name fs = .null ∧ r = none) ∨
      ∃ gs a, fieldOf name fs = .obj gs ∧ read gs = .ok a ∧ r = some a := by
  unfold optionalModel at h
  split at h
  · next hnull =>
    cases h
    exact .inl ⟨hnull, rfl⟩
  · next gs hgs =>
    cases hread : read gs with
    | error e => simp [hread, Except.map] at h
    | ok a =>
      rw [hread] at h
      cases h
      exact .inr ⟨gs, a, hgs, hread, rfl⟩
  · cases h

namespace ResponsesTextFormat

variable {f : ResponsesTextFormat}

theorem validate_ok {gs : List (String × Json)} (h : ResponsesTextFormat.validate gs = .ok f) :
    f.schema = schemaOf gs ∧ f.extra = extraOf gs := by
  obtain ⟨type, -, h⟩ := bind_eq_ok.mp h
  obtain ⟨strict, -, h⟩ := bind_eq_ok.mp h
  obtain ⟨name, -, h⟩ := bind_eq_ok.mp h
  cases h
  exact ⟨rfl, rfl⟩

theorem not_schemaNamed_iff {gs : List (String × Json)} (hschema : f.schema = schemaOf gs)
    (hextra : f.extra = extraOf gs) :
    ¬f.SchemaNamed ↔ getItem "schema" gs = some .null ∧
      ∃ x ∈ gs, x.1 = "schema_" ∧ x.2.isNull = false := by
  rw [SchemaNamed, hschema, hextra, schemaOf, extraOf]
  cases hget : getItem "schema" gs with
  | none =>
    refine iff_of_false (fun hnot => hnot fun _ x hx hname => ?_) ?_
    · have hkeep := mem_of_mem_filter hx
      exact absurd hname (of_decide_eq_true (mem_filter.mp hkeep).2)
    · rintro ⟨hnull, -⟩
      cases hnull
  | some v =>
    rw [getD_some]
    constructor
    · intro hnot
      push Not at hnot
      obtain ⟨hnull, x, hx, hname, hx'⟩ := hnot
      exact ⟨congrArg some (eq_null hnull), x, mem_of_mem_filter hx, hname, by simpa using hx'⟩
    · rintro ⟨hv, x, hx, hname, hx'⟩ hnamed
      cases hv
      have hmem : x ∈ (Extra.of formatNames gs).entries :=
        mem_filter.mpr ⟨hx, decide_eq_true (by rw [hname]; decide)⟩
      rw [hnamed rfl x hmem hname] at hx'
      cases hx'

theorem schemaOf_dump_late (h : ¬f.SchemaNamed) :
    schemaOf (present (f.fields ++ f.extra.entries)) ≠ f.schema := by
  unfold SchemaNamed at h
  push Not at h
  obtain ⟨hnull, x, hx, hname, hx'⟩ := h
  have hget : getItem "schema" (present (f.fields ++ f.extra.entries)) = none := by
    rw [getItem_dumped f.map_fst_fields (by decide) (v := f.schema) (by simp [fields]), hnull]
    rfl
  rw [schemaOf, hget, getD_none, eq_null hnull]
  intro hfield
  have hsome : ((present (f.fields ++ f.extra.entries)).find? fun y => y.1 = "schema_").isSome :=
    find?_isSome.mpr ⟨x, mem_filter.mpr ⟨mem_append_right _ hx, by simpa using hx'⟩,
      decide_eq_true hname⟩
  obtain ⟨y, hy⟩ := isSome_iff_exists.mp hsome
  rw [fieldOf, getItem, hy, map_some, getD_some] at hfield
  have hpresent := (mem_filter.mp (mem_of_find?_eq_some hy)).2
  rw [hfield] at hpresent
  cases hpresent

end ResponsesTextFormat

namespace ResponsesRequest

variable {j : Json} {p q : ResponsesRequest}

def format (p : ResponsesRequest) : Option ResponsesTextFormat := p.text.bind (·.format)

theorem schemaNamed_iff : p.SchemaNamed ↔ ∀ f ∈ p.format, f.SchemaNamed := by
  simp only [SchemaNamed, ResponsesTextControls.SchemaNamed, format, mem_def,
    bind_eq_some_iff, forall_exists_index, and_imp]
  exact ⟨fun h f t ht hf => h t ht f hf, fun h t ht f hf => h f t ht hf⟩

theorem validate_format (h : validate j = .ok p) :
    (p.format = none ∧ fieldIn "format" (fieldIn "text" j) = .null) ∨
      ∃ f gs, p.format = some f ∧ fieldIn "format" (fieldIn "text" j) = .obj gs ∧
        f.schema = ResponsesTextFormat.schemaOf gs ∧ f.extra = ResponsesTextFormat.extraOf gs := by
  obtain ⟨fs, rfl, -, -, -, -, -, -, -, -, -, -, htext⟩ := validate_ok h
  have hfield : fieldIn "text" (.obj fs) = fieldOf "text" fs := rfl
  rw [format, hfield]
  obtain ⟨hnull, hnone⟩ | ⟨gs, t, hgs, hread, hsome⟩ := optionalModel_ok htext
  · rw [hnull, hnone]
    exact .inl ⟨rfl, rfl⟩
  · obtain ⟨verbosity, -, hread⟩ := bind_eq_ok.mp hread
    obtain ⟨format, hformat, hread⟩ := bind_eq_ok.mp hread
    cases hread
    rw [hgs, hsome]
    obtain ⟨hnull, hnone⟩ | ⟨gs', f, hgs', hread, hsome⟩ := optionalModel_ok hformat
    · exact .inl ⟨hnone, hnull⟩
    · exact .inr ⟨f, gs', hsome, hgs', ResponsesTextFormat.validate_ok hread⟩

theorem fieldIn_format_dump (p : ResponsesRequest) :
    fieldIn "format" (fieldIn "text" p.dump) = (p.format.map (·.dump)).getD .null := by
  have htext : fieldIn "text" p.dump = (p.text.map (·.dump)).getD .null :=
    fieldOf_dump (p := p) (by simp [fields])
  rw [htext, format]
  cases p.text with
  | none => rfl
  | some t =>
    exact fieldOf_dumped t.map_fst_fields (by decide) (by simp [ResponsesTextControls.fields])

theorem not_schemaNamed_iff_lateSchema (h : validate j = .ok p) : ¬p.SchemaNamed ↔ LateSchema
    j := by
  rw [schemaNamed_iff, LateSchema]
  obtain ⟨hnone, hnull⟩ | ⟨f, gs, hsome, hgs, hschema, hextra⟩ := validate_format h
  · rw [hnone, hnull]
    exact iff_of_false (not_not.mpr nofun) (fun hlate => nomatch hlate.1)
  · rw [hsome, hgs]
    refine Iff.trans ?_ (ResponsesTextFormat.not_schemaNamed_iff hschema hextra)
    simp

theorem dump_ne_of_lateSchema (h : validate j = .ok p) (hlate : LateSchema j)
    (hq : validate p.dump = .ok q) : q.dump ≠ p.dump := by
  intro hdump
  rw [← not_schemaNamed_iff_lateSchema h, schemaNamed_iff] at hlate
  push Not at hlate
  obtain ⟨f, hf, hnamed⟩ := hlate
  have hformat := fieldIn_format_dump p
  rw [mem_def.mp hf] at hformat
  obtain ⟨-, hnull⟩ | ⟨f', gs, hf', hgs, hschema, -⟩ := validate_format hq
  · rw [hformat] at hnull
    cases hnull
  · rw [hformat] at hgs
    cases hgs
    have hsame := fieldIn_format_dump q
    rw [hdump, hformat, hf'] at hsame
    have hread : ∀ g : ResponsesTextFormat, fieldIn "schema" g.dump = g.schema := fun g =>
      fieldOf_dumped g.map_fst_fields (by decide) (by simp [ResponsesTextFormat.fields])
    refine ResponsesTextFormat.schemaOf_dump_late hnamed ?_
    rw [← hschema, ← hread f', ← hread f]
    exact congrArg (fieldIn "schema") hsame.symm

/-- **Normalization is idempotent**, unless `schema_` is given beside a null `schema`. -/
theorem normalization_idempotent_iff (h : validate j = .ok p) :
    (∃ q, validate p.dump = .ok q ∧ q.dump = p.dump ∧ q.toPayload = p.toPayload) ↔
      ¬LateSchema j := by
  constructor
  · rintro ⟨q, hq, hdump, -⟩ hlate
    exact dump_ne_of_lateSchema h hlate hq hdump
  · intro hlate
    rw [← not_schemaNamed_iff_lateSchema h, not_not] at hlate
    refine ⟨p.settled, validate_dump (validate_valid h) hlate, dump_settled, ?_⟩
    rw [toPayload, dump_settled, toPayload]

def formatted (format : List (String × Json)) : Json :=
  .obj [("model", .str "m"), ("instructions", .str ""), ("input", .str "hi"),
    ("text", .obj [("format", .obj format)])]

theorem normalization_idempotent_named :
    ∃ p, validate (formatted [("schema_", .bool true)]) = .ok p ∧
      ∃ q, validate p.dump = .ok q ∧ q.dump = p.dump ∧ q.toPayload = p.toPayload := by
  obtain ⟨p, hp⟩ : ∃ p, validate (formatted [("schema_", .bool true)]) = .ok p := ⟨_, rfl⟩
  exact ⟨p, hp, (normalization_idempotent_iff hp).mpr fun h => nomatch h.1⟩

/-- **A null schema** gives way to the one beside it, and the dump changes. -/
theorem normalization_not_idempotent :
    ∃ p, validate (formatted [("schema", .null), ("schema_", .bool true)]) = .ok p ∧
      ∀ q, validate p.dump = .ok q → q.dump ≠ p.dump := by
  obtain ⟨p, hp⟩ : ∃ p, validate (formatted [("schema", .null), ("schema_", .bool true)]) = .ok p :=
    ⟨_, rfl⟩
  refine ⟨p, hp, fun q => dump_ne_of_lateSchema hp ⟨rfl, ("schema_", .bool true), ?_, rfl, rfl⟩⟩
  exact mem_cons_of_mem _ mem_cons_self

end ResponsesRequest

/-! ## The order of the tools -/

section Order

variable {α κ : Type*} [LinearOrder κ] (f : α → κ)

theorem find?_insertionSort (k : κ) (l : List α) :
    (l.insertionSort fun a b => f a ≤ f b).find? (fun a => f a = k) = l.find? fun a => f a = k := by
  induction l with
  | nil => rfl
  | cons a l ih =>
    rw [insertionSort_cons, find?_cons, ← ih]
    generalize l.insertionSort (fun a b => f a ≤ f b) = sorted
    induction sorted with
    | nil => rfl
    | cons b sorted ih =>
      rw [orderedInsert_cons]
      split_ifs with hle
      · rw [find?_cons]
      · rw [find?_cons, ih, find?_cons]
        by_cases hb : f b = k
        · have ha : f a ≠ k := fun ha => hle (ha.trans hb.symm).le
          simp [ha, hb]
        · simp [hb]

theorem orderedInsert_comm {a b : α} (hne : f a ≠ f b) (l : List α) :
    (l.orderedInsert (fun a b => f a ≤ f b) b).orderedInsert (fun a b => f a ≤ f b) a =
      (l.orderedInsert (fun a b => f a ≤ f b) a).orderedInsert (fun a b => f a ≤ f b) b := by
  induction l with
  | nil => grind
  | cons c l ih => grind

end Order

theorem getItem_canon (key : String) (fs : List (String × Json)) :
    getItem key (mappingOf (Json.obj fs).canon) = (getItem key fs).map Json.canon := by
  have hfields : getItem key (Json.canonFields fs) =
      (getItem key fs).map Json.canon := by
    induction fs with
    | nil => rfl
    | cons x fs ih =>
      obtain ⟨k, v⟩ := x
      rw [Json.canonFields, getItem_cons, getItem_cons, ih]
      split_ifs <;> rfl
  rw [← hfields, getItem, getItem]
  exact congrArg _ (find?_insertionSort Prod.fst key _)

theorem fieldIn_canon (key : String) (v : Json) : fieldIn key v.canon = (fieldIn key v).canon := by
  cases v with
  | obj fs =>
    rw [fieldIn, fieldOf, getItem_canon, fieldIn, fieldOf, mappingOf]
    cases getItem key fs <;> rfl
  | _ => rfl

theorem str?_canon (v : Json) : v.canon.str? = v.str? := by cases v <;> rfl

theorem toolSortKey_canon (tool : Json) : toolSortKey tool.canon = toolSortKey tool := by
  have hname : ∀ v, (fieldIn "name" v.canon).str? = (fieldIn "name" v).str? := fun v => by
    rw [fieldIn_canon, str?_canon]
  have hfunction := hname (fieldIn "function" tool)
  rw [← fieldIn_canon] at hfunction
  exact congrArg₂ (fun a b => Option.getD (a <|> b) "") (hname tool) hfunction

inductive KeySwap : Json → Json → Prop where
  | swap (xs : List (String × Json)) (x y : String × Json) (ys : List (String × Json))
      (apart : x.1 ≠ y.1) : KeySwap (.obj (xs ++ x :: y :: ys)) (.obj (xs ++ y :: x :: ys))
  | field {v w : Json} (xs : List (String × Json)) (key : String) (ys : List (String × Json))
      (h : KeySwap v w) : KeySwap (.obj (xs ++ (key, v) :: ys)) (.obj (xs ++ (key, w) :: ys))
  | item {v w : Json} (xs ys : List Json) (h : KeySwap v w) :
      KeySwap (.arr (xs ++ v :: ys)) (.arr (xs ++ w :: ys))

theorem canonItems_eq_map (vs : List Json) : Json.canonItems vs = vs.map Json.canon := by
  induction vs with
  | nil => rfl
  | cons v vs ih => rw [Json.canonItems, ih, map_cons]

theorem canonFields_eq_map (fs : List (String × Json)) :
    Json.canonFields fs = fs.map fun x => (x.1, x.2.canon) := by
  induction fs with
  | nil => rfl
  | cons x fs ih => rw [Json.canonFields, ih, map_cons]

theorem KeySwap.canon_eq {v w : Json} (h : KeySwap v w) : v.canon = w.canon := by
  induction h with
  | swap xs x y ys apart =>
    simp only [Json.canon, canonFields_eq_map, map_append, map_cons, List.insertionSort,
      foldr_append, foldr_cons]
    exact congrArg (fun l => Json.obj (List.foldr _ l _))
      (orderedInsert_comm (a := (x.1, x.2.canon)) (b := (y.1, y.2.canon)) Prod.fst apart _)
  | field xs key ys h ih => simp only [Json.canon, canonFields_eq_map, map_append, map_cons, ih]
  | item xs ys h ih => simp only [Json.canon, canonItems_eq_map, map_append, map_cons, ih]

def SameTools (tools tools' : List Json) : Prop :=
  ∃ l, tools.Perm l ∧ List.Forall₂ (Relation.EqvGen KeySwap) l tools'

theorem SameTools.perm_canon {tools tools' : List Json} (h : SameTools tools tools') :
    (tools.map Json.canon).Perm (tools'.map Json.canon) := by
  obtain ⟨l, hperm, hsame⟩ := h
  have heqv : ∀ {v w}, Relation.EqvGen KeySwap v w → v.canon = w.canon := by
    intro v w h
    induction h with
    | rel _ _ h => exact h.canon_eq
    | refl => rfl
    | symm _ _ _ ih => exact ih.symm
    | trans _ _ _ _ _ ih ih' => exact ih.trans ih'
  have hcanon : l.map Json.canon = tools'.map Json.canon :=
    forall₂_eq_eq_eq ▸ forall₂_map_left_iff.mpr
      (forall₂_map_right_iff.mpr (hsame.imp fun _ _ => heqv))
  exact hcanon ▸ hperm.map _

theorem pairwise_canonicalTools (tools : List Json) :
    (canonicalTools tools).Pairwise fun s t => toolSortKey s ≤ toolSortKey t := by
  have : Std.Total fun s t : Json => toolSortKey s ≤ toolSortKey t := ⟨fun _ _ => le_total _ _⟩
  have : IsTrans Json fun s t => toolSortKey s ≤ toolSortKey t := ⟨fun _ _ _ => le_trans⟩
  refine pairwise_map.mpr ((pairwise_insertionSort _ tools).imp fun hle => ?_)
  rwa [toolSortKey_canon, toolSortKey_canon]

theorem canonicalTools_perm (tools : List Json) :
    (canonicalTools tools).Perm (tools.map Json.canon) := (perm_insertionSort _ tools).map _

theorem find?_canonicalTools (tool : Json) (tools : List Json) :
    (canonicalTools (tool :: tools)).find? (fun t => toolSortKey t = toolSortKey tool) =
      some tool.canon := by
  rw [canonicalTools, find?_map]
  simp only [Function.comp_def, toolSortKey_canon]
  rw [find?_insertionSort toolSortKey, find?_cons_of_pos (by simp)]
  rfl

theorem canonicalTools_eq_iff (tools : List Json) :
    (∀ tools', SameTools tools tools' → canonicalTools tools' = canonicalTools tools) ↔
      ∀ s ∈ tools, ∀ t ∈ tools, toolSortKey s = toolSortKey t → s.canon = t.canon := by
  have hsame : ∀ {tools'}, tools.Perm tools' → SameTools tools tools' := fun hperm =>
    ⟨_, hperm, forall₂_same.mpr fun _ _ => .refl _⟩
  constructor
  · intro h s hs t ht hkey
    -- the one that is given first is sent first
    have hfirst : ∀ u ∈ tools, (canonicalTools tools).find?
        (fun v => toolSortKey v = toolSortKey u) = some u.canon := fun u hu => by
      obtain ⟨l, l', hl⟩ := append_of_mem hu
      have hperm : tools.Perm (u :: (l ++ l')) := hl ▸ perm_middle
      rw [← h _ (hsame hperm), find?_canonicalTools]
    have hs' := hfirst s hs
    rw [hkey, hfirst t ht] at hs'
    exact (some.inj hs').symm
  · intro h tools' hsame'
    have hperm : (canonicalTools tools').Perm (canonicalTools tools) :=
      (canonicalTools_perm tools').trans
        (hsame'.perm_canon.symm.trans (canonicalTools_perm tools).symm)
    refine hperm.eq_of_pairwise (fun a b ha hb hab hba => ?_) (pairwise_canonicalTools _)
      (pairwise_canonicalTools _)
    obtain ⟨s, hs, rfl⟩ := mem_map.mp
      ((canonicalTools_perm tools).mem_iff.mp (hperm.mem_iff.mp ha))
    obtain ⟨t, ht, rfl⟩ := mem_map.mp ((canonicalTools_perm tools).mem_iff.mp hb)
    rw [toolSortKey_canon, toolSortKey_canon] at hab hba
    exact h s hs t ht (le_antisymm hab hba)

section Fields

variable {key name : String} {fs : List (String × Json)}

theorem fieldOf_setDefaultText (hne : name ≠ key) (v : Json) :
    fieldOf key (setDefaultText name v fs) = fieldOf key fs := by
  unfold setDefaultText
  split
  · split_ifs
    · rfl
    · exact fieldOf_setItem_of_ne hne
  · rfl

theorem fieldOf_setMapping (hne : name ≠ key) (mapping : List (String × Json)) :
    fieldOf key (setMapping name mapping fs) = fieldOf key fs := by
  unfold setMapping
  split_ifs
  · rfl
  · exact fieldOf_setItem_of_ne hne

theorem fieldOf_without {names : List String} (h : key ∉ names) :
    fieldOf key (fs.filter fun x => x.1 ∉ names) = fieldOf key fs := by
  rw [fieldOf, getItem_filter (fun x hx => decide_eq_true (hx ▸ h)), fieldOf]

theorem fieldOf_normalizeAliases (hkey : key ∈ ["input", "tools"]) :
    fieldOf key (normalizeServiceTierAliases (normalizeOpenaiCompatibleAliases fs)) =
      fieldOf key fs := by
  have hne : ∀ name ∈ ["prompt_cache_key", "prompt_cache_retention", "reasoning", "text",
      "service_tier"], name ≠ key := by
    rintro name hname rfl
    revert name
    decide
  have haliases : fieldOf key (normalizeOpenaiCompatibleAliases fs) = fieldOf key fs := by
    have halias : key ∉ aliasNames := by
      revert key
      decide
    simp only [normalizeOpenaiCompatibleAliases]
    rw [fieldOf_setMapping (hne _ (by simp)), fieldOf_setMapping (hne _ (by simp)),
      fieldOf_setDefaultText (hne _ (by simp)), fieldOf_setDefaultText (hne _ (by simp)),
      fieldOf_without halias]
  rw [← haliases, normalizeServiceTierAliases]
  split
  · exact fieldOf_setItem_of_ne (hne _ (by simp))
  · rfl

theorem fieldOf_canonicalizeTools {tools : List Json} (h : fieldOf "tools" fs = .arr tools) :
    fieldOf "tools" (canonicalizeTools fs) = .arr (canonicalTools tools) := by
  rw [canonicalizeTools, h]
  cases tools with
  | nil => exact h
  | cons tool tools => exact fieldOf_setItem_self

end Fields

namespace ResponsesRequest

def payloadTools (p : ResponsesRequest) : Except String Json := p.toPayload.map (fieldOf "tools")

theorem payloadTools_eq {p : ResponsesRequest} (h : sanitizeInputItems p.input = .ok p.input) :
    p.payloadTools = .ok (.arr (canonicalTools p.tools)) := by
  have hinput : fieldOf "input" (mappingOf p.dump) = .arr p.input :=
    fieldOf_dump (p := p) (by simp [fields])
  have htools : fieldOf "tools" (mappingOf p.dump) = .arr p.tools :=
    fieldOf_dump (p := p) (by simp [fields])
  rw [← fieldOf_normalizeAliases (by simp)] at hinput htools
  rw [payloadTools, toPayload, stripUnsupportedFields, sanitizeInterleavedReasoningInput, hinput]
  dsimp only
  rw [h]
  simp only [Except.map]
  rw [fieldOf_without (by decide), fieldOf_canonicalizeTools]
  rw [fieldOf_setItem_of_ne (by decide), htools]

/-- **The order of the tools does not matter for the prompt cache** if, and only if, no two
different tools have the same name, or none. -/
theorem tool_order_iff {j : Json} {p : ResponsesRequest} (h : validate j = .ok p) :
    (∀ tools', SameTools p.tools tools' →
        payloadTools { p with tools := tools' } = p.payloadTools) ↔
      ∀ s ∈ p.tools, ∀ t ∈ p.tools, toolSortKey s = toolSortKey t → s.canon = t.canon := by
  have hinput := (validate_valid h).input
  rw [← canonicalTools_eq_iff]
  refine forall₂_congr fun tools' _ => ?_
  rw [payloadTools_eq (p := { p with tools := tools' }) hinput, payloadTools_eq hinput]
  simp

def withTools (tools : List Json) : Json :=
  .obj [("model", .str "m"), ("instructions", .str ""), ("input", .str "hi"), ("tools", .arr tools)]

def namedTool (name : String) : Json := .obj [("type", .str "function"), ("name", .str name)]

def builtinTool (type : String) : Json := .obj [("type", .str type)]

theorem tool_order_two_names :
    ∃ p, validate (withTools [namedTool "b", namedTool "a"]) = .ok p ∧
      ∀ tools', SameTools p.tools tools' →
        payloadTools { p with tools := tools' } = p.payloadTools := by
  refine ⟨_, rfl, (tool_order_iff (j := withTools [namedTool "b", namedTool "a"]) rfl).mpr ?_⟩
  have hkey : toolSortKey (namedTool "b") ≠ toolSortKey (namedTool "a") := by decide
  intro s hs t ht heq
  obtain rfl | rfl : s = namedTool "b" ∨ s = namedTool "a" := mem_pair.mp hs
  all_goals
    obtain rfl | rfl : t = namedTool "b" ∨ t = namedTool "a" := mem_pair.mp ht
  · rfl
  · exact absurd heq hkey
  · exact absurd heq.symm hkey
  · rfl

/-- **Two built-in tools** have no name, and are sent in the order in which they are given. -/
theorem builtin_order_kept :
    ∃ p, validate (withTools [builtinTool "web_search", builtinTool "image_generation"]) = .ok p ∧
      SameTools p.tools [builtinTool "image_generation", builtinTool "web_search"] ∧
      payloadTools { p with tools := [builtinTool "image_generation", builtinTool "web_search"] } ≠
        p.payloadTools := by
  refine ⟨_, rfl, ⟨_, List.Perm.swap _ _ _, forall₂_same.mpr fun _ _ => .refl _⟩, fun h => ?_⟩
  have hsent : (Except.ok (.arr [builtinTool "image_generation", builtinTool "web_search"]) :
      Except String Json) = .ok (.arr [builtinTool "web_search", builtinTool "image_generation"]) :=
        h
  simp [builtinTool] at hsent

end ResponsesRequest

end CodexOctopus
