import Mathlib.Data.List.Infix

/-!
# Splitting a byte stream into events

`_iter_sse_events` of `app/core/clients/proxy.py` collects chunks in a buffer and cuts off an event
at every separator, a blank line. What it is for is said byte by byte (`splitBytes`): a byte is
added to the event that is being read; the event is done when it ends with a separator, and too
large as soon as it is longer than allowed. The chunks do not matter because the loop computes just
that (`popAll_eq`, `readChunks_eq`), although it sees an event that is too large only at the end of
a chunk.
-/

namespace CodexOctopus.SseSplitting

open List Option

abbrev Bytes := List UInt8

/-! ## The loop -/

def find (separator buffer : Bytes) : Option ℕ := buffer.tails.findIdx? (separator.isPrefixOf ·)

def crlfSeparator : Bytes := [13, 10, 13, 10]

def lfSeparator : Bytes := [10, 10]

def findSseSeparator (buffer : Bytes) : Option (ℕ × ℕ) :=
  match find crlfSeparator buffer, find lfSeparator buffer with
  | none, none => none
  | some i, none => some (i, 4)
  | none, some j => some (j, 2)
  | some i, some j => if i ≤ j then some (i, 4) else some (j, 2)

def popSseEvent (buffer : Bytes) : Option (Bytes × Bytes) :=
  (findSseSeparator buffer).map fun s => (buffer.take (s.1 + s.2), buffer.drop (s.1 + s.2))

theorem popSseEvent_shrinks {buffer : Bytes} {p : Bytes × Bytes} (h : popSseEvent buffer = some p) :
    p.2.length < buffer.length := by
  obtain ⟨⟨i, n⟩, hfind, rfl⟩ := map_eq_some_iff.mp h
  have hn : 0 < n := by
    rw [findSseSeparator] at hfind
    split at hfind
    · cases hfind
    · cases hfind
      exact Nat.succ_pos _
    · cases hfind
      exact Nat.succ_pos _
    · split at hfind <;> cases hfind <;> exact Nat.succ_pos _
  cases buffer with
  | nil => cases h
  | cons b buffer =>
    rw [length_drop, length_cons]
    omega

/-- The inner loop: the raw events cut off, and the buffer that remains unless the error is
raised. -/
def popAll (maxEventBytes : ℕ) (buffer : Bytes) : List Bytes × Option Bytes :=
  match _h : popSseEvent buffer with
  | none => ([], if maxEventBytes < buffer.length then none else some buffer)
  | some (event, rest) =>
    if maxEventBytes < event.length then ([], none)
    else
      let (events, left) := popAll maxEventBytes rest
      (event :: events, left)
  termination_by buffer.length
  decreasing_by exact popSseEvent_shrinks _h

def readChunks (maxEventBytes : ℕ) : Bytes → List Bytes → List Bytes × Option Bytes
  | buffer, [] => ([], some buffer)
  | buffer, chunk :: chunks =>
    if chunk = [] then readChunks maxEventBytes buffer chunks
    else
      match popAll maxEventBytes (buffer ++ chunk) with
      | (events, none) => (events, none)
      | (events, some rest) =>
        let (later, left) := readChunks maxEventBytes rest chunks
        (events ++ later, left)

def isBlank (event : Bytes) : Bool := event.all (· ∈ [32, 9, 10, 11, 12, 13])

/-- A run of `_iter_sse_events`: the events cut off, of which the blank ones are dropped; the rest,
which is yielded as it is; and whether `StreamEventTooLargeError` is raised. -/
structure Split where
  events : List Bytes
  rest : Option Bytes
  tooLarge : Bool

def iterSseEvents (maxEventBytes : ℕ) (chunks : List Bytes) : Split :=
  match readChunks maxEventBytes [] chunks with
  | (events, none) => ⟨events, none, true⟩
  | (events, some buffer) =>
    if buffer = [] then ⟨events, none, false⟩
    else if maxEventBytes < buffer.length then ⟨events, none, true⟩
    else ⟨events, some buffer, false⟩

/-- The texts yielded, given `bytes.decode("utf-8", errors="replace")`. -/
def Split.yielded (decode : Bytes → String) (s : Split) : List String :=
  (s.events.filter (!isBlank ·) ++ s.rest.toList).map decode

/-! ## Byte by byte -/

def Ends (bytes : Bytes) : Prop := crlfSeparator <:+ bytes ∨ lfSeparator <:+ bytes

instance (bytes : Bytes) : Decidable (Ends bytes) := inferInstanceAs (Decidable (_ ∨ _))

def splitBytes (maxEventBytes : ℕ) : Bytes → Bytes → List Bytes × Option Bytes
  | event, [] => ([], some event)
  | event, b :: input =>
    if maxEventBytes < (event ++ [b]).length then ([], none)
    else if Ends (event ++ [b]) then
      let (events, left) := splitBytes maxEventBytes [] input
      ((event ++ [b]) :: events, left)
    else splitBytes maxEventBytes (event ++ [b]) input

/-! ### The first separator -/

section

variable {separator buffer event input rest : Bytes} {i n : ℕ}

theorem find_eq_some (h : find separator buffer = some i) :
    separator <+: buffer.drop i ∧ ∀ j < i, ¬ separator <+: buffer.drop j := by
  obtain ⟨hi, hp, hfirst⟩ := findIdx?_eq_some_iff_getElem.mp h
  rw [getElem_tails, isPrefixOf_iff_prefix] at hp
  refine ⟨hp, fun j hj hinit => hfirst j hj ?_⟩
  rw [getElem_tails, isPrefixOf_iff_prefix]
  exact hinit

theorem find_eq_none (hne : separator ≠ []) (h : find separator buffer = none) (j : ℕ) :
    ¬ separator <+: buffer.drop j := by
  intro hinit
  by_cases hj : j ≤ buffer.length
  · have hmem : buffer.drop j ∈ buffer.tails := (mem_tails _ _).mpr (drop_suffix _ _)
    have hnot := findIdx?_eq_none_iff.mp h _ hmem
    rw [Bool.eq_false_iff, Ne, isPrefixOf_iff_prefix] at hnot
    exact hnot hinit
  · rw [drop_of_length_le (by omega)] at hinit
    exact hne (prefix_nil.mp hinit)

theorem suffix_take_iff (hn : n ≤ buffer.length) :
    separator <:+ buffer.take n ↔ ∃ i, i + separator.length = n ∧ separator <+: buffer.drop i := by
  constructor
  · rintro ⟨t, ht⟩
    have hbuffer : buffer = t ++ (separator ++ buffer.drop n) := by
      rw [← append_assoc, ht, take_append_drop]
    refine ⟨t.length, ?_, ?_⟩
    · rw [← length_append, ht, length_take, min_eq_left hn]
    · rw [hbuffer, drop_left]
      exact prefix_append _ _
  · rintro ⟨i, rfl, r, hr⟩
    refine ⟨buffer.take i, ?_⟩
    rw [take_add, ← hr, take_left]

theorem ends_take_iff (hn : n ≤ buffer.length) :
    Ends (buffer.take n) ↔ (∃ i, i + 4 = n ∧ crlfSeparator <+: buffer.drop i) ∨
      ∃ i, i + 2 = n ∧ lfSeparator <+: buffer.drop i := by
  rw [Ends, suffix_take_iff hn, suffix_take_iff hn]
  rfl

theorem not_lf_of_crlf (h : crlfSeparator <+: buffer.drop i) {j : ℕ} (hj : i ≤ j) (hj' : j < i + 3)
    :
    ¬ lfSeparator <+: buffer.drop j := by
  obtain ⟨r, hr⟩ := h
  obtain ⟨k, rfl⟩ := Nat.exists_eq_add_of_le hj
  rw [← drop_drop, ← hr]
  obtain rfl | rfl | rfl : k = 0 ∨ k = 1 ∨ k = 2 := by omega
  · simp [crlfSeparator, lfSeparator, cons_prefix_cons]
  · simp [crlfSeparator, lfSeparator, cons_prefix_cons]
  · simp [crlfSeparator, lfSeparator, cons_prefix_cons]

inductive FirstEnd (buffer : Bytes) : Option (ℕ × ℕ) → Prop
  | nowhere (h : ∀ n ≤ buffer.length, ¬ Ends (buffer.take n)) : FirstEnd buffer none
  | found {i k : ℕ} (hle : i + k ≤ buffer.length) (hends : Ends (buffer.take (i + k)))
      (hfirst : ∀ n < i + k, ¬ Ends (buffer.take n)) : FirstEnd buffer (some (i, k))

theorem findSseSeparator_firstEnd (buffer : Bytes) : FirstEnd buffer (findSseSeparator buffer) := by
  have hlen : ∀ {s : Bytes} {i : ℕ}, s ≠ [] → s <+: buffer.drop i → i + s.length ≤
    buffer.length := by
    intro s i hne hs
    have hle := hs.length_le
    have hpos := length_pos_iff.mpr hne
    rw [length_drop] at hle
    omega
  have hcut : ∀ {i k : ℕ}, i + k ≤ buffer.length →
      ((∃ m, m + 4 = i + k ∧ crlfSeparator <+: buffer.drop m) ∨
        ∃ m, m + 2 = i + k ∧ lfSeparator <+: buffer.drop m) →
      (∀ m, m + 4 < i + k → ¬ crlfSeparator <+: buffer.drop m) →
      (∀ m, m + 2 < i + k → ¬ lfSeparator <+: buffer.drop m) → FirstEnd buffer (some (i, k)) := by
    intro i k hle hends hcrlf hlf
    refine .found hle ((ends_take_iff hle).mpr hends) fun n hn hendsN => ?_
    rcases (ends_take_iff (by omega)).mp hendsN with ⟨m, rfl, hm⟩ | ⟨m, rfl, hm⟩
    · exact hcrlf m hn hm
    · exact hlf m hn hm
  rw [findSseSeparator]
  cases hcrlf : find crlfSeparator buffer with
  | none =>
    have hno := find_eq_none (by decide) hcrlf
    cases hlf : find lfSeparator buffer with
    | none =>
      have hno' := find_eq_none (by decide) hlf
      refine .nowhere fun n hn hends => ?_
      rcases (ends_take_iff hn).mp hends with ⟨m, -, hm⟩ | ⟨m, -, hm⟩
      · exact hno m hm
      · exact hno' m hm
    | some j =>
      obtain ⟨hj, hfirst⟩ := find_eq_some hlf
      exact hcut (hlen (by decide) hj) (.inr ⟨j, rfl, hj⟩) (fun m _ => hno m)
        fun m hm => hfirst m (by omega)
  | some i =>
    obtain ⟨hi, hfirst⟩ := find_eq_some hcrlf
    cases hlf : find lfSeparator buffer with
    | none =>
      exact hcut (hlen (by decide) hi) (.inl ⟨i, rfl, hi⟩) (fun m hm => hfirst m (by omega))
        fun m _ => find_eq_none (by decide) hlf m
    | some j =>
      obtain ⟨hj, hfirst'⟩ := find_eq_some hlf
      dsimp only
      split_ifs with hle
      · -- a short separator that begins later ends later too
        refine hcut (hlen (by decide) hi) (.inl ⟨i, rfl, hi⟩) (fun m hm => hfirst m (by omega))
          fun m hm hlfm => ?_
        by_cases him : i ≤ m
        · exact not_lf_of_crlf hi him (by omega) hlfm
        · exact hfirst' m (by omega) hlfm
      · exact hcut (hlen (by decide) hj) (.inr ⟨j, rfl, hj⟩) (fun m hm => hfirst m (by omega))
          fun m hm => hfirst' m (by omega)

def Pending (event : Bytes) : Prop := ∀ n ≤ event.length, ¬ Ends (event.take n)

theorem FirstEnd.pending_lt {k : ℕ} (h : Pending event)
    (hfirst : FirstEnd (event ++ input) (some (i, k))) : event.length < i + k := by
  cases hfirst with
  | found hle hends _ =>
    by_contra hshort
    refine h (i + k) (by omega) ?_
    rwa [take_append_of_le_length (by omega)] at hends

theorem popSseEvent_pending (h : Pending event) {p : Bytes × Bytes}
    (hpop : popSseEvent (event ++ input) = some p) : event.length < p.1.length := by
  obtain ⟨⟨i, k⟩, hfind, rfl⟩ := map_eq_some_iff.mp hpop
  have hfirst := findSseSeparator_firstEnd (event ++ input)
  rw [hfind] at hfirst
  have hlt := hfirst.pending_lt h
  cases hfirst with
  | found hle _ _ =>
    dsimp only
    rwa [length_take, min_eq_left hle]

theorem popSseEvent_eq_none (h : Pending buffer) : popSseEvent buffer = none := by
  cases hpop : popSseEvent buffer with
  | none => rfl
  | some p =>
    have hpop' : popSseEvent (buffer ++ []) = some p := by rwa [append_nil]
    have hlt := popSseEvent_pending h hpop'
    obtain ⟨⟨i, k⟩, -, rfl⟩ := map_eq_some_iff.mp hpop
    rw [length_take] at hlt
    omega

theorem popSseEvent_ends {b : UInt8} (h : Pending event) (hends : Ends (event ++ [b])) :
    popSseEvent (event ++ b :: input) = some (event ++ [b], input) := by
  have hsplit : event ++ b :: input = (event ++ [b]) ++ input := by simp
  have hlen : (event ++ [b]).length = event.length + 1 := length_append
  have htake : (event ++ b :: input).take (event.length + 1) = event ++ [b] := by
    rw [hsplit, ← hlen, take_left]
  have hfirst := findSseSeparator_firstEnd (event ++ b :: input)
  rw [popSseEvent]
  generalize findSseSeparator (event ++ b :: input) = found at hfirst
  cases found with
  | none =>
    obtain ⟨hno⟩ := hfirst
    refine absurd (htake.symm ▸ hends) (hno (event.length + 1) ?_)
    rw [length_append, length_cons]
    omega
  | some p =>
    obtain ⟨i, k⟩ := p
    have hlt := hfirst.pending_lt h
    have hik : i + k = event.length + 1 := by
      cases hfirst with
      | found _ _ hno =>
        by_contra hne
        exact hno (event.length + 1) (by omega) (htake.symm ▸ hends)
    rw [map_some]
    dsimp only
    rw [hik, htake, hsplit, ← hlen, drop_left]

theorem pending_concat {b : UInt8} (h : Pending event) (hends : ¬ Ends (event ++ [b])) :
    Pending (event ++ [b]) := by
  intro n hn
  rw [length_append, length_singleton] at hn
  rcases Nat.lt_or_ge event.length n with hlt | hle
  · rwa [take_of_length_le (by rw [length_append, length_singleton]; omega)]
  · rw [take_append_of_le_length hle]
    exact h n hle

end

/-! ### The loop goes byte by byte -/

section

variable {maxEventBytes : ℕ} {event input : Bytes}

theorem popAll_tooLarge (h : Pending event) {b : UInt8}
    (hlong : maxEventBytes < (event ++ [b]).length) :
    popAll maxEventBytes (event ++ b :: input) = ([], none) := by
  rw [length_append, length_singleton] at hlong
  rw [popAll]
  split
  · rw [if_pos]
    rw [length_append, length_cons]
    omega
  · next e rest hpop =>
    have hlt := popSseEvent_pending h hpop
    rw [if_pos (by dsimp only at hlt; omega)]

theorem popAll_eq (h : Pending event) (hlen : event.length ≤ maxEventBytes) :
    popAll maxEventBytes (event ++ input) = splitBytes maxEventBytes event input := by
  induction input generalizing event with
  | nil =>
    rw [append_nil, popAll]
    split
    · rw [if_neg (by omega)]
      rfl
    · next e rest hpop =>
      rw [popSseEvent_eq_none h] at hpop
      cases hpop
  | cons b input ih =>
    rw [splitBytes]
    split_ifs with hlong hends
    · exact popAll_tooLarge h hlong
    · have hnil : Pending [] := by
        intro n _
        rw [take_nil]
        decide
      rw [popAll]
      split
      · next hpop =>
        rw [popSseEvent_ends h hends] at hpop
        cases hpop
      · next e rest hpop =>
        rw [popSseEvent_ends h hends] at hpop
        cases hpop
        rw [if_neg hlong, ← ih hnil (Nat.zero_le _), nil_append]
    · rw [← ih (pending_concat h hends) (by omega), append_assoc, singleton_append]

theorem splitBytes_pending (h : Pending event) (hlen : event.length ≤ maxEventBytes) :
    ∀ left ∈ (splitBytes maxEventBytes event input).2, Pending left ∧ left.length ≤
      maxEventBytes := by
  induction input generalizing event with
  | nil =>
    rintro left ⟨⟩
    exact ⟨h, hlen⟩
  | cons b input ih =>
    rw [splitBytes]
    split_ifs with hlong hends
    · exact nofun
    · refine ih ?_ (Nat.zero_le _)
      intro n _
      rw [take_nil]
      decide
    · exact ih (pending_concat h hends) (by omega)

theorem splitBytes_append (a b : Bytes) :
    splitBytes maxEventBytes event (a ++ b) =
      (splitBytes maxEventBytes event a).2.elim (splitBytes maxEventBytes event a) fun left =>
        ((splitBytes maxEventBytes event a).1 ++ (splitBytes maxEventBytes left b).1,
          (splitBytes maxEventBytes left b).2) := by
  induction a generalizing event with
  | nil => rfl
  | cons c a ih =>
    rw [cons_append, splitBytes, splitBytes]
    split_ifs
    · rfl
    · rw [ih]
      cases (splitBytes maxEventBytes [] a).2 <;> rfl
    · exact ih

theorem readChunks_eq {chunks : List Bytes} (h : Pending event)
    (hlen : event.length ≤ maxEventBytes) :
    readChunks maxEventBytes event chunks = splitBytes maxEventBytes event chunks.flatten := by
  induction chunks generalizing event with
  | nil => rfl
  | cons chunk chunks ih =>
    have hleft : ∀ left ∈ (splitBytes maxEventBytes event chunk).2, Pending left ∧ left.length ≤
      maxEventBytes :=
      splitBytes_pending h hlen
    rw [readChunks, flatten_cons, splitBytes_append]
    split_ifs with hnil
    · rw [hnil, ih h hlen]
      rfl
    · rw [popAll_eq h hlen]
      rcases hsplit : splitBytes maxEventBytes event chunk with ⟨events, left⟩
      rw [hsplit] at hleft
      cases left with
      | none => rfl
      | some left =>
        obtain ⟨hp, hl⟩ := hleft left rfl
        dsimp only [Option.elim]
        rw [ih hp hl]

theorem splitBytes_flatten {events : List Bytes} {left : Bytes}
    (h : splitBytes maxEventBytes event input = (events, some left)) :
    events.flatten ++ left = event ++ input ∧ ∀ e ∈ events, e.length ≤ maxEventBytes := by
  induction input generalizing event events with
  | nil =>
    cases h
    exact ⟨(append_nil _).symm, nofun⟩
  | cons b input ih =>
    rw [splitBytes] at h
    split_ifs at h with hlong hends
    · cases h
    · rcases hrest : splitBytes maxEventBytes [] input with ⟨later, left'⟩
      rw [hrest] at h
      cases h
      obtain ⟨hflat, hle⟩ := ih hrest
      refine ⟨?_, forall_mem_cons.mpr ⟨by omega, hle⟩⟩
      rw [flatten_cons, append_assoc, hflat, nil_append, append_assoc,
        singleton_append]
    · obtain ⟨hflat, hle⟩ := ih h
      exact ⟨by rw [hflat, append_assoc, singleton_append], hle⟩

end

theorem readChunks_nil (maxEventBytes : ℕ) (chunks : List Bytes) :
    readChunks maxEventBytes [] chunks = splitBytes maxEventBytes [] chunks.flatten :=
  readChunks_eq (by intro n _; rw [take_nil]; decide) (Nat.zero_le _)

/-- **Splitting does not depend on the chunks.** A run that is not too large loses nothing: the
events, the blank ones among them, and the rest are the input, and each is at most as long as
allowed. -/
theorem sse_splitting_whole (maxEventBytes : ℕ) (decode : Bytes → String) (chunks : List Bytes) :
    (∀ chunks' : List Bytes, chunks'.flatten = chunks.flatten →
      (iterSseEvents maxEventBytes chunks').yielded decode =
        (iterSseEvents maxEventBytes chunks).yielded decode ∧
      (iterSseEvents maxEventBytes chunks').tooLarge = (iterSseEvents maxEventBytes
        chunks).tooLarge) ∧
    ((iterSseEvents maxEventBytes chunks).tooLarge = false →
      ((iterSseEvents maxEventBytes chunks).events ++
        (iterSseEvents maxEventBytes chunks).rest.toList).flatten = chunks.flatten ∧
      ∀ e ∈ (iterSseEvents maxEventBytes chunks).events ++
        (iterSseEvents maxEventBytes chunks).rest.toList, e.length ≤ maxEventBytes) := by
  constructor
  · intro chunks' hflatten
    have hsame : iterSseEvents maxEventBytes chunks' = iterSseEvents maxEventBytes chunks := by
      rw [iterSseEvents, iterSseEvents, readChunks_nil, readChunks_nil, hflatten]
    rw [hsame]
    exact ⟨rfl, rfl⟩
  · intro hfits
    rw [iterSseEvents, readChunks_nil] at hfits ⊢
    rcases hsplit : splitBytes maxEventBytes [] chunks.flatten with ⟨events, left⟩
    rw [hsplit] at hfits
    cases left with
    | none => cases hfits
    | some left =>
      obtain ⟨hflat, hle⟩ := splitBytes_flatten hsplit
      dsimp only at hfits ⊢
      split_ifs at hfits ⊢ with hnil hlong
      · rw [hnil, append_nil, nil_append] at hflat
        exact ⟨by rw [toList_none, append_nil, hflat], by simpa using hle⟩
      · refine ⟨?_, ?_⟩
        · rw [toList_some, flatten_append, flatten_singleton, hflat, nil_append]
        · rw [toList_some]
          exact forall_mem_append.mpr ⟨hle, by simpa using hlong⟩

theorem sse_splitting_whole_cut :
    (iterSseEvents 8 [[97, 13, 10, 13], [10, 98]]).tooLarge =
      (iterSseEvents 8 [[97, 13, 10, 13, 10, 98]]).tooLarge :=
  ((sse_splitting_whole 8 (fun _ => "") [[97, 13, 10, 13, 10, 98]]).1 [[97, 13, 10, 13], [10, 98]]
    rfl).2

end CodexOctopus.SseSplitting
