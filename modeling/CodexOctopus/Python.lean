import Mathlib.Data.List.DropRight
import Mathlib.Algebra.Order.Ring.Unbundled.Rat

/-!
# Python

The operations on Python's strings and numbers that the models need.

* `strip` is `str.strip()`: it removes the characters Python counts as whitespace
  from both ends.
* `lower` is `str.lower()` as far as a comparison with ASCII text can tell. Besides
  the ASCII letters, two characters have a lower case that begins with an ASCII
  letter; every other character keeps away from ASCII, so it may stay as it is.
* `splitLines` is `str.splitlines()`, which knows more line breaks than a newline.
* `join` is `sep.join(parts)`.
* `fnmatch` is `fnmatch.fnmatchcase` for patterns without a bracket.
* `toInt` is `int(x)`, which rounds towards zero, and `orNone` is `x if x else None`,
  which counts zero as missing; floats are exact rationals.
-/

namespace Python

def isSpace (c : Char) : Bool :=
  let n := c.toNat
  (9 ≤ n && n ≤ 13) || (28 ≤ n && n ≤ 32) || n = 133 || n = 160 || n = 5760 ||
    (8192 ≤ n && n ≤ 8202) || n = 8232 || n = 8233 || n = 8239 || n = 8287 || n = 12288

def strip (s : String) : String :=
  String.ofList ((s.toList.dropWhile isSpace).reverse.dropWhile isSpace).reverse

variable {l : List Char} {s : String}

theorem dropWhile_isSpace (h : ∀ c ∈ l, isSpace c = false) :
    l.dropWhile isSpace = l := by
  cases l with
  | nil => rfl
  | cons c l => exact List.dropWhile_cons_of_neg (by simp [h c List.mem_cons_self])

theorem strip_eq_self (h : ∀ c ∈ s.toList, isSpace c = false) : strip s = s := by
  rw [strip, dropWhile_isSpace h, dropWhile_isSpace fun c hc => h c (List.mem_reverse.mp hc),
    List.reverse_reverse, String.ofList_toList]

theorem dropWhile_rdropWhile_dropWhile (p : Char → Bool) (l : List Char) :
    ((l.dropWhile p).rdropWhile p).dropWhile p = (l.dropWhile p).rdropWhile p := by
  obtain ⟨t, ht⟩ := List.rdropWhile_prefix p (l.dropWhile p)
  cases hm : (l.dropWhile p).rdropWhile p with
  | nil => rfl
  | cons c m =>
    rw [hm, List.cons_append] at ht
    have hidem := List.dropWhile_idempotent p l
    rw [← ht, List.dropWhile_eq_self_iff] at hidem
    exact List.dropWhile_cons_of_neg (hidem (Nat.succ_pos _))

theorem strip_strip (s : String) : strip (strip s) = strip s := by
  set l := s.toList.dropWhile isSpace
  have hstrip : strip s = String.ofList (l.rdropWhile isSpace) := rfl
  have htwice : strip (String.ofList (l.rdropWhile isSpace)) =
      String.ofList (((l.rdropWhile isSpace).dropWhile isSpace).rdropWhile isSpace) := by
    rw [strip, String.toList_ofList]
    rfl
  rw [hstrip, htwice, dropWhile_rdropWhile_dropWhile, List.rdropWhile_idempotent]

theorem strip_eq_rdropWhile {c : Char} (hs : s.toList = c :: l) (hc : isSpace c = false) :
    (strip s).toList = (c :: l).rdropWhile isSpace := by
  have hdrop : (c :: l).dropWhile isSpace = c :: l :=
    List.dropWhile_cons_of_neg (by simp [hc])
  rw [strip, String.toList_ofList, hs, hdrop]
  rfl

theorem head?_strip {c : Char} (hs : s.toList = c :: l) (hc : isSpace c = false) :
    (strip s).toList.head? = some c := by
  have hne : (c :: l).rdropWhile isSpace ≠ [] := by
    rw [Ne, List.rdropWhile_eq_nil_iff]
    intro hall
    exact Bool.false_ne_true (hc.symm.trans (hall c List.mem_cons_self))
  obtain ⟨rest, hrest⟩ := List.rdropWhile_prefix (p := isSpace) (l := c :: l)
  rw [strip_eq_rdropWhile hs hc]
  cases hcase : (c :: l).rdropWhile isSpace with
  | nil => exact absurd hcase hne
  | cons d m =>
    rw [hcase, List.cons_append] at hrest
    rw [List.head_eq_of_cons_eq hrest]
    rfl

def isLineBreak (c : Char) : Bool :=
  let n := c.toNat
  (10 ≤ n && n ≤ 13) || (28 ≤ n && n ≤ 30) || n = 133 || n = 8232 || n = 8233

def splitLinesChars : List Char → List (List Char)
  | [] => []
  | '\r' :: '\n' :: rest => [] :: splitLinesChars rest
  | c :: rest =>
    if isLineBreak c then [] :: splitLinesChars rest
    else
      match splitLinesChars rest with
      | [] => [[c]]
      | line :: lines => (c :: line) :: lines

def splitLines (s : String) : List String := (splitLinesChars s.toList).map String.ofList

theorem splitLinesChars_line (h : ∀ c ∈ l, isLineBreak c = false) (rest : List Char) :
    splitLinesChars (l ++ '\n' :: rest) = l :: splitLinesChars rest := by
  induction l with
  | nil =>
    rw [List.nil_append, splitLinesChars, if_pos (by decide)]
    exact nofun
  | cons c l ih =>
    obtain ⟨hc, hl⟩ := List.forall_mem_cons.mp h
    rw [List.cons_append, splitLinesChars, if_neg (by simp [hc]), ih hl]
    rintro _ rfl
    exact absurd hc (by decide)

def join (sep : String) (parts : List String) : String :=
  String.ofList (sep.toList.intercalate (parts.map String.toList))

theorem append_sep_left {sep : Char} {a b r t : List Char} (ha : sep ∉ a) (hb : sep ∉ b)
    (h : a ++ sep :: r = b ++ sep :: t) : a = b ∧ r = t := by
  induction a generalizing b with
  | nil =>
    cases b with
    | nil => exact ⟨rfl, List.tail_eq_of_cons_eq h⟩
    | cons c b => exact absurd (List.head_eq_of_cons_eq h ▸ List.mem_cons_self) hb
  | cons c a ih =>
    cases b with
    | nil => exact absurd (List.head_eq_of_cons_eq h ▸ List.mem_cons_self) ha
    | cons d b =>
      obtain ⟨rfl, hrest⟩ := List.cons.inj h
      obtain ⟨rfl, rfl⟩ := ih (fun hc => ha (List.mem_cons_of_mem _ hc))
        (fun hc => hb (List.mem_cons_of_mem _ hc)) hrest
      exact ⟨rfl, rfl⟩

theorem append_sep_right {sep : Char} {a b r t : List Char} (ha : sep ∉ a) (hb : sep ∉ b)
    (h : r ++ sep :: a = t ++ sep :: b) : r = t ∧ a = b := by
  have hrev := congrArg List.reverse h
  rw [List.reverse_append, List.reverse_append, List.reverse_cons, List.reverse_cons,
    List.append_assoc, List.append_assoc] at hrev
  obtain ⟨hab, hrt⟩ := append_sep_left (fun hc => ha (List.mem_reverse.mp hc))
    (fun hc => hb (List.mem_reverse.mp hc)) hrev
  exact ⟨List.reverse_injective hrt, List.reverse_injective hab⟩

/-! ## Dictionaries -/

section Dict

variable {β : Type*} {key other : String} {value : β}

def getItem (key : String) (d : List (String × β)) : Option β :=
  (d.find? fun x => x.1 = key).map Prod.snd

theorem getItem_cons (x : String × β) (d : List (String × β)) :
    getItem key (x :: d) = if x.1 = key then some x.2 else getItem key d := by
  rw [getItem, List.find?_cons]
  split_ifs with hx
  · simp [hx]
  · simp [hx, getItem]

variable {d : List (String × β)} {p : String × β → Bool}

theorem getItem_eq_none (h : ∀ x ∈ d, x.1 ≠ key) : getItem key d = none := by
  rw [getItem, List.find?_eq_none.mpr fun x hx => by simpa using h x hx, Option.map_none]

theorem mem_of_getItem (h : getItem key d = some value) :
    (key, value) ∈ d := by
  obtain ⟨x, hx, rfl⟩ := Option.map_eq_some_iff.mp h
  obtain rfl : x.1 = key := by simpa using List.find?_some hx
  exact List.mem_of_find?_eq_some hx

theorem getItem_filter (hp : ∀ x, x.1 = key → p x = true) (d : List (String × β)) :
    getItem key (d.filter p) = getItem key d := by
  induction d with
  | nil => rfl
  | cons x rest ih =>
    rw [List.filter_cons]
    split_ifs with hx
    · rw [getItem_cons, getItem_cons, ih]
    · rw [getItem_cons, if_neg fun hkey => hx (hp x hkey), ih]

def setItem (key : String) (value : β) (d : List (String × β)) : List (String × β) :=
  if d.any fun x => x.1 = key then d.map fun x => if x.1 = key then (key, value) else x
  else d ++ [(key, value)]

theorem find?_setItem (hp : ∀ v, p (key, v) = false) (d : List (String × β)) :
    (setItem key value d).find? p = d.find? p := by
  unfold setItem
  split
  · clear * - hp
    induction d with
    | nil => rfl
    | cons x d ih =>
      obtain ⟨n, v⟩ := x
      rw [List.map_cons, List.find?_cons, List.find?_cons, ih]
      split_ifs with hn
      · obtain rfl : n = key := hn
        rw [hp, hp]
      · rfl
  · rw [List.find?_append, List.find?_singleton, hp]
    simp

theorem mem_setItem {x : String × β} (hx : x ∈ setItem key value d) :
    x = (key, value) ∨ x ∈ d ∧ x.1 ≠ key := by
  unfold setItem at hx
  split at hx
  · obtain ⟨y, hy, rfl⟩ := List.mem_map.mp hx
    split_ifs with hkey
    · exact .inl rfl
    · exact .inr ⟨hy, hkey⟩
  · next hany =>
    obtain hx | hx := List.mem_append.mp hx
    · exact .inr ⟨hx, fun hkey => hany (List.any_eq_true.mpr ⟨x, hx, decide_eq_true hkey⟩)⟩
    · exact .inl (List.mem_singleton.mp hx)

theorem find?_setItem_self (hp : p (key, value) = true) (hother : ∀ x ∈ d, p x = true → x.1 = key) :
    (setItem key value d).find? p = some (key, value) := by
  have hsome : ((setItem key value d).find? p).isSome := by
    refine List.find?_isSome.mpr ⟨(key, value), ?_, hp⟩
    unfold setItem
    split
    · next hany =>
      obtain ⟨x, hx, hkey⟩ := List.any_eq_true.mp hany
      exact List.mem_map.mpr ⟨x, hx, if_pos (of_decide_eq_true hkey)⟩
    · exact List.mem_append_right _ List.mem_cons_self
  obtain ⟨x, hx⟩ := Option.isSome_iff_exists.mp hsome
  obtain rfl | ⟨hmem, hkey⟩ := mem_setItem (List.mem_of_find?_eq_some hx)
  · exact hx
  · exact absurd (hother x hmem (List.find?_some hx)) hkey

theorem getItem_setItem_self (d : List (String × β)) :
    getItem key (setItem key value d) = some value := by
  rw [getItem, find?_setItem_self (decide_eq_true rfl) fun _ _ => of_decide_eq_true,
    Option.map_some]

theorem getItem_setItem_of_ne (hne : key ≠ other) (d : List (String × β)) :
    getItem other (setItem key value d) = getItem other d := by
  rw [getItem, find?_setItem (fun _ => decide_eq_false hne), getItem]

end Dict

/-! ## Case, patterns and numbers -/

def lowerChar (c : Char) : List Char :=
  let n := c.toNat
  if 65 ≤ n && n ≤ 90 then [Char.ofNat (n + 32)]
  else if n = 0x130 then ['i', Char.ofNat 0x307]
  else if n = 0x212A then ['k']
  else [c]

def lower (s : String) : String := String.ofList (s.toList.flatMap lowerChar)

def glob : List Char → List Char → Bool
  | [], cs => cs.isEmpty
  | '*' :: ps, cs => cs.tails.any (glob ps)
  | '?' :: ps, cs =>
    match cs with
    | [] => false
    | _ :: cs => glob ps cs
  | p :: ps, cs =>
    match cs with
    | [] => false
    | c :: cs => p = c && glob ps cs

def fnmatch (pattern s : String) : Bool := glob pattern.toList s.toList

def toInt (x : ℚ) : ℤ := x.num.tdiv x.den

@[simp] theorem toInt_intCast (n : ℤ) : toInt (n : ℚ) = n := by
  rw [toInt, Rat.num_intCast, Rat.den_intCast, Nat.cast_one, Int.tdiv_one]

theorem toInt_nonneg {x : ℚ} (h : 0 ≤ x) : 0 ≤ toInt x :=
  Int.tdiv_nonneg (Rat.num_nonneg.mpr h) (Int.natCast_nonneg _)

theorem toInt_mono {x y : ℚ} (hx : 0 ≤ x) (h : x ≤ y) : toInt x ≤ toInt y := by
  have hfloor : ∀ z : ℚ, 0 ≤ z → toInt z = z.floor := fun z hz => by
    rw [toInt, Int.tdiv_eq_ediv_of_nonneg (Rat.num_nonneg.mpr hz), Rat.floor_def]
  rw [hfloor x hx, hfloor y (hx.trans h)]
  exact Rat.floor_monotone h

/-- The nearest integer as `format(x, ".0f")` has it: of two, the even one. -/
def roundHalfEven (x : ℚ) : ℤ :=
  let rest := x - x.floor
  if rest < 1 / 2 then x.floor
  else if 1 / 2 < rest then x.floor + 1
  else if x.floor % 2 = 0 then x.floor else x.floor + 1

def orNone (x : Option ℚ) : Option ℚ := x.filter (· ≠ 0)

end Python
