import Mathlib.Data.Bool.AllAny
import Mathlib.Data.List.Sort
import Mathlib.Data.List.TakeWhile
import Mathlib.Data.String.Basic

/-!
# JSON documents and their text

Documents as Python's `json` module holds them, and `json.dumps(...,
ensure_ascii=True, sort_keys=True, separators=(",", ":"))`.

* `render` writes a document with its keys in the order they have.
* `canon` sorts the keys of every object, and `dumps` renders the sorted document.
* `loads` reads a document, and `loads_dumpsPlain` says that it reads what is written. A value
  is read from its text whatever follows (`read_render`), so that the proof can go through
  arrays and objects.
* `render_injective`: hence the text determines the document.
* `printable_render`: the text is printable ASCII, so it is one line.

A number is kept as the text that Python writes for it; the texts of different
numbers differ.
-/

def isNumeric (c : Char) : Bool :=
  c.isDigit || c = '-' || c = '+' || c = '.' || c = 'e' || c = 'E'

structure JsonNumber where
  text : String
  nonempty : text ≠ ""
  numeric : ∀ c ∈ text.toList, isNumeric c = true
  deriving DecidableEq

inductive Json : Type where
  | null
  | bool (b : Bool)
  | num (n : JsonNumber)
  | str (s : String)
  | arr (items : List Json)
  | obj (fields : List (String × Json))

namespace Json

def isNull : Json → Bool
  | .null => true
  | _ => false

def str? : Json → Option String
  | .str s => some s
  | _ => none

/-! ## Characters -/

def hex4 (n : ℕ) : List Char :=
  [Nat.digitChar (n / 4096 % 16), Nat.digitChar (n / 256 % 16), Nat.digitChar (n / 16 % 16),
    Nat.digitChar (n % 16)]

def escapeChar (c : Char) : List Char :=
  let n := c.toNat
  if c = '"' then ['\\', '"']
  else if c = '\\' then ['\\', '\\']
  else if c = '\n' then ['\\', 'n']
  else if c = '\r' then ['\\', 'r']
  else if c = '\t' then ['\\', 't']
  else if n = 12 then ['\\', 'f']
  else if n = 8 then ['\\', 'b']
  else if 32 ≤ n ∧ n ≤ 126 then [c]
  else if n < 0x10000 then '\\' :: 'u' :: hex4 n
  else
    -- a surrogate pair
    '\\' :: 'u' :: hex4 (0xd800 + (n - 0x10000) / 0x400) ++
      '\\' :: 'u' :: hex4 (0xdc00 + (n - 0x10000) % 0x400)

def quote (s : String) : List Char := '"' :: s.toList.flatMap escapeChar ++ ['"']

def escapeRaw (c : Char) : List Char := if 126 < c.toNat then [c] else escapeChar c

def quoteRaw (s : String) : List Char := '"' :: s.toList.flatMap escapeRaw ++ ['"']

/-! ## Documents -/

mutual

def render (q : String → List Char) : Json → List Char
  | .null => ['n', 'u', 'l', 'l']
  | .bool true => ['t', 'r', 'u', 'e']
  | .bool false => ['f', 'a', 'l', 's', 'e']
  | .num n => n.text.toList
  | .str s => q s
  | .arr [] => ['[', ']']
  | .arr (v :: vs) => '[' :: render q v ++ renderItems q vs
  | .obj [] => ['{', '}']
  | .obj ((k, v) :: fs) => '{' :: q k ++ ':' :: render q v ++ renderFields q fs

def renderItems (q : String → List Char) : List Json → List Char
  | [] => [']']
  | v :: vs => ',' :: render q v ++ renderItems q vs

def renderFields (q : String → List Char) : List (String × Json) → List Char
  | [] => ['}']
  | (k, v) :: fs => ',' :: q k ++ ':' :: render q v ++ renderFields q fs

end

mutual

def canon : Json → Json
  | .arr vs => .arr (canonItems vs)
  | .obj fs => .obj ((canonFields fs).insertionSort fun a b => a.1 ≤ b.1)
  | v => v

def canonItems : List Json → List Json
  | [] => []
  | v :: vs => canon v :: canonItems vs

def canonFields : List (String × Json) → List (String × Json)
  | [] => []
  | (k, v) :: fs => (k, canon v) :: canonFields fs

end

def dumps (v : Json) : String := String.ofList (v.canon.render quote)

def dumpsRaw (v : Json) : String := String.ofList (v.render quoteRaw)

/-! ## The text determines the string -/

def hexValue (c : Char) : ℕ := if c.toNat < 58 then c.toNat - 48 else c.toNat - 87

theorem hexValue_digitChar : ∀ n < 16, hexValue (Nat.digitChar n) = n := by decide

def hexValue4 : List Char → ℕ
  | [a, b, c, d] => hexValue a * 4096 + hexValue b * 256 + hexValue c * 16 + hexValue d
  | _ => 0

variable {n : ℕ} {c : Char} {s : List Char}

theorem hexValue4_hex4 (h : n < 0x10000) : hexValue4 (hex4 n) = n := by
  have hdigit : ∀ m, hexValue (Nat.digitChar (m % 16)) = m % 16 := fun m =>
    hexValue_digitChar _ (Nat.mod_lt _ (by decide))
  simp only [hex4, hexValue4, hdigit]
  omega

def readUnit : List Char → Option (ℕ × List Char)
  | a :: b :: c :: d :: rest => some (hexValue4 [a, b, c, d], rest)
  | _ => none

theorem readUnit_hex4 (h : n < 0x10000) (rest : List Char) :
    readUnit (hex4 n ++ rest) = some (n, rest) := by
  have hread : readUnit (hex4 n ++ rest) = some (hexValue4 (hex4 n), rest) := rfl
  rw [hread, hexValue4_hex4 h]

def readEscape : List Char → Option (Char × List Char)
  | [] => none
  | e :: rest =>
    if e = 'u' then
      (readUnit rest).bind fun (n, rest) =>
        if 0xd800 ≤ n ∧ n < 0xdc00 then
          -- the second half of a pair, after its own backslash and `u`
          (readUnit (rest.drop 2)).map fun (m, rest) =>
            (Char.ofNat ((n - 0xd800) * 0x400 + (m - 0xdc00) + 0x10000), rest)
        else some (Char.ofNat n, rest)
    else if e = 'n' then some ('\n', rest)
    else if e = 'r' then some ('\r', rest)
    else if e = 't' then some ('\t', rest)
    else if e = 'f' then some (Char.ofNat 12, rest)
    else if e = 'b' then some (Char.ofNat 8, rest)
    else some (e, rest)

def readChar : List Char → Option (Char × List Char)
  | [] => none
  | c :: rest => if c = '\\' then readEscape rest else some (c, rest)

theorem not_surrogate (c : Char) : ¬(0xd800 ≤ c.toNat ∧ c.toNat < 0xdc00) := by
  rintro ⟨hle, hlt⟩
  rcases c.valid with h | ⟨h, -⟩
  · exact absurd hle (Nat.not_le.mpr h)
  · have : 0xdfff < c.toNat := h
    omega

theorem readChar_unit (h : n < 0x10000) (rest : List Char) :
    readChar ('\\' :: 'u' :: hex4 n ++ rest) =
      if 0xd800 ≤ n ∧ n < 0xdc00 then
        (readUnit (rest.drop 2)).map fun (m, rest) =>
          (Char.ofNat ((n - 0xd800) * 0x400 + (m - 0xdc00) + 0x10000), rest)
      else some (Char.ofNat n, rest) := by
  rw [List.cons_append, List.cons_append, readChar, if_pos rfl, readEscape, if_pos rfl,
    readUnit_hex4 h, Option.bind_some]

theorem readChar_escapeChar (c : Char) (rest : List Char) :
    readChar (escapeChar c ++ rest) = some (c, rest) := by
  unfold escapeChar
  dsimp only
  split_ifs with hquote hback hn hr ht hf hb hascii hunit
  · subst hquote; rfl
  · subst hback; rfl
  · subst hn; rfl
  · subst hr; rfl
  · subst ht; rfl
  · have hc : Char.ofNat 12 = c := by rw [← hf, Char.ofNat_toNat]
    rw [← hc]; rfl
  · have hc : Char.ofNat 8 = c := by rw [← hb, Char.ofNat_toNat]
    rw [← hc]; rfl
  · exact if_neg hback
  · rw [readChar_unit hunit, if_neg (not_surrogate c), Char.ofNat_toNat]
  · have hlt : c.toNat < 0x110000 := by
      rcases c.valid with h | ⟨-, h⟩
      · exact Nat.lt_trans h (by decide)
      · exact h
    rw [List.append_assoc, readChar_unit (by omega), if_pos (by omega)]
    rw [List.cons_append, List.cons_append, List.drop_succ_cons, List.drop_succ_cons,
      List.drop_zero, readUnit_hex4 (by omega), Option.map_some]
    have hn : (0xd800 + (c.toNat - 0x10000) / 0x400 - 0xd800) * 0x400 +
        (0xdc00 + (c.toNat - 0x10000) % 0x400 - 0xdc00) + 0x10000 = c.toNat := by omega
    dsimp only
    rw [hn, Char.ofNat_toNat]

theorem head?_escapeChar (c : Char) (s : List Char) : (escapeChar c ++ s).head? ≠ some '"' := by
  intro h
  have hread := readChar_escapeChar c s
  rcases hcs : escapeChar c ++ s with _ | ⟨d, t⟩
  · rw [hcs] at h
    cases h
  · rw [hcs] at h hread
    cases h
    cases hread
    simp [escapeChar] at hcs

def readString : ℕ → List Char → Option (List Char × List Char)
  | 0, _ => none
  | fuel + 1, cs =>
    if cs.head? = some '"' then some ([], cs.tail)
    else do
      let (c, rest) ← readChar cs
      let (text, rest) ← readString fuel rest
      return (c :: text, rest)

theorem readString_escape {cs : List Char} {fuel : ℕ} (rest : List Char) (h : cs.length < fuel) :
    readString fuel (cs.flatMap escapeChar ++ '"' :: rest) = some (cs, rest) := by
  induction cs generalizing fuel with
  | nil =>
    obtain ⟨fuel, rfl⟩ := Nat.exists_eq_add_of_lt h
    rfl
  | cons c cs ih =>
    obtain _ | fuel := fuel
    · cases h
    · rw [List.flatMap_cons, List.append_assoc, readString, if_neg (head?_escapeChar c _),
        readChar_escapeChar]
      simp only [Option.bind_eq_bind, Option.bind_some]
      rw [ih (Nat.lt_of_succ_lt_succ h)]
      rfl

/-! ## The text determines the document -/

def Stops (s : List Char) : Prop := ∀ c ∈ s.head?, isNumeric c = false

inductive Kind : Type where
  | null | true | false | num | str | arr | obj | other
  deriving DecidableEq

def kindOf (c : Char) : Kind :=
  if c = 'n' then .null
  else if c = 't' then .true
  else if c = 'f' then .false
  else if c = '"' then .str
  else if c = '[' then .arr
  else if c = '{' then .obj
  else if isNumeric c then .num
  else .other

def kind : Json → Kind
  | .null => .null
  | .bool b => if b then .true else .false
  | .num _ => .num
  | .str _ => .str
  | .arr _ => .arr
  | .obj _ => .obj

theorem kindOf_numeric (h : isNumeric c = true) : kindOf c = .num := by
  unfold kindOf
  rw [if_neg, if_neg, if_neg, if_neg, if_neg, if_neg, if_pos h]
  all_goals
    rintro rfl
    revert h
    decide

theorem head_render (v : Json) : ∃ c l, v.render quote = c :: l ∧ kindOf c = v.kind := by
  match v with
  | .null => exact ⟨_, _, rfl, rfl⟩
  | .bool true => exact ⟨_, _, rfl, rfl⟩
  | .bool false => exact ⟨_, _, rfl, rfl⟩
  | .num n =>
    rcases hn : n.text.toList with _ | ⟨c, l⟩
    · exact absurd (String.toList_eq_nil_iff.mp hn) n.nonempty
    · exact ⟨c, l, hn, kindOf_numeric (n.numeric c (hn ▸ List.mem_cons_self))⟩
  | .str s => exact ⟨_, _, rfl, rfl⟩
  | .arr [] => exact ⟨_, _, rfl, rfl⟩
  | .arr (_ :: _) => exact ⟨_, _, rfl, rfl⟩
  | .obj [] => exact ⟨_, _, rfl, rfl⟩
  | .obj ((_, _) :: _) => exact ⟨_, _, rfl, rfl⟩

theorem stops_renderItems (vs : List Json) (s : List Char) : Stops (renderItems quote vs ++ s) := by
  cases vs <;> (intro c hc; cases hc; rfl)

theorem stops_renderFields (fs : List (String × Json)) (s : List Char) :
    Stops (renderFields quote fs ++ s) := by
  cases fs <;> (intro c hc; cases hc; rfl)

/-! ### Integers -/

theorem toString_int_toList (n : ℤ) :
    (toString n).toList =
      if 0 ≤ n then Nat.toDigits 10 n.natAbs else '-' :: Nat.toDigits 10 n.natAbs := by
  cases n with
  | ofNat m =>
    have hpos : 0 ≤ Int.ofNat m := Int.natCast_nonneg m
    have htext : toString (Int.ofNat m) = toString m := rfl
    rw [if_pos hpos, htext, Nat.toString_eq_ofList_toDigits, String.toList_ofList]
    rfl
  | negSucc m =>
    have hneg : ¬0 ≤ Int.negSucc m := by omega
    have htext : toString (Int.negSucc m) = "-" ++ toString (m + 1) := rfl
    rw [if_neg hneg, htext, String.toList_append, Nat.toString_eq_ofList_toDigits]
    simp

theorem isDigit_of_mem_toDigits (h : c ∈ Nat.toDigits 10 n) :
    c.isDigit = true :=
  Nat.isDigit_of_mem_toDigits (by decide) (by decide) h

theorem toString_int_ne (n : ℤ) : toString n ≠ "" := by
  intro hempty
  have hlist := congrArg String.toList hempty
  rw [toString_int_toList] at hlist
  split_ifs at hlist
  · exact Nat.toDigits_ne_nil hlist
  · cases hlist

theorem toString_int_numeric (n : ℤ) : ∀ c ∈ (toString n).toList, isNumeric c = true := by
  have hdigit : ∀ c ∈ Nat.toDigits 10 n.natAbs, isNumeric c = true := fun c hc => by
    simp [isNumeric, isDigit_of_mem_toDigits hc]
  intro c hc
  rw [toString_int_toList] at hc
  split_ifs at hc
  · exact hdigit c hc
  · rcases List.mem_cons.mp hc with rfl | hc
    · rfl
    · exact hdigit c hc

def ofInt (n : ℤ) : Json := .num ⟨toString n, toString_int_ne n, toString_int_numeric n⟩

def intOfText (cs : List Char) : Option ℤ :=
  if cs.head? = some '-' then
    if cs.tail.all Char.isDigit then some (-(Nat.ofDigitChars 10 cs.tail 0 : ℤ)) else none
  else if cs.all Char.isDigit then some (Nat.ofDigitChars 10 cs 0 : ℤ) else none

def int? : Json → Option ℤ
  | .num n => intOfText n.text.toList
  | _ => none

theorem int?_ofInt (n : ℤ) : (ofInt n).int? = some n := by
  have hdigits : (Nat.toDigits 10 n.natAbs).all Char.isDigit = true :=
    List.all_eq_true.mpr fun c hc => isDigit_of_mem_toDigits hc
  have hread : Nat.ofDigitChars 10 (Nat.toDigits 10 n.natAbs) 0 = n.natAbs :=
    Nat.ofDigitChars_ten_toDigits
  change intOfText (toString n).toList = some n
  rw [toString_int_toList]
  by_cases hn : 0 ≤ n
  · have hhead : (Nat.toDigits 10 n.natAbs).head? ≠ some '-' := by
      intro hminus
      have hdigit := isDigit_of_mem_toDigits (List.mem_of_mem_head? (Option.mem_def.mpr hminus))
      cases hdigit
    rw [if_pos hn, intOfText, if_neg hhead, if_pos hdigits, hread]
    congr 1
    omega
  · have hhead : ('-' :: Nat.toDigits 10 n.natAbs).head? = some '-' := rfl
    rw [if_neg hn, intOfText, if_pos hhead, List.tail_cons, if_pos hdigits, hread]
    congr 1
    omega

/-! ### Reading a document

`json.loads`, which skips white space between tokens. It reads what `render` writes; a number
may be any run of the characters that numbers have. -/

def isSpace (c : Char) : Bool := c = ' ' || c = '\t' || c = '\n' || c = '\r'

def skipSpace (cs : List Char) : List Char := cs.dropWhile isSpace

def readLiteral (value : Json) (letters cs : List Char) : Option (Json × List Char) :=
  if cs.take letters.length = letters then some (value, cs.drop letters.length) else none

def readNumber (cs : List Char) : Option (Json × List Char) :=
  let text := cs.takeWhile isNumeric
  if h : text ≠ [] then
    some (.num ⟨String.ofList text, by simpa using h,
      by simpa using fun c hc => List.mem_takeWhile_imp hc⟩, cs.dropWhile isNumeric)
  else none

def expect (c : Char) (cs : List Char) : Option (List Char) :=
  if (skipSpace cs).head? = some c then some (skipSpace cs).tail else none

def readQuoted (cs : List Char) : Option (String × List Char) := do
  let cs ← expect '"' cs
  let (text, rest) ← readString (cs.length + 1) cs
  return (String.ofList text, rest)

mutual

def read : ℕ → List Char → Option (Json × List Char)
  | 0, _ => none
  | fuel + 1, cs =>
    match skipSpace cs with
    | [] => none
    | c :: rest =>
      match kindOf c with
      | .null => readLiteral .null ['u', 'l', 'l'] rest
      | .true => readLiteral (.bool true) ['r', 'u', 'e'] rest
      | .false => readLiteral (.bool false) ['a', 'l', 's', 'e'] rest
      | .num => readNumber (c :: rest)
      | .str => (readQuoted (c :: rest)).map fun (text, rest) => (.str text, rest)
      | .arr =>
        match expect ']' rest with
        | some rest => some (.arr [], rest)
        | none => do
          let (v, rest) ← read fuel rest
          let (vs, rest) ← readItems fuel rest
          return (.arr (v :: vs), rest)
      | .obj =>
        match expect '}' rest with
        | some rest => some (.obj [], rest)
        | none => do
          let (k, rest) ← readQuoted rest
          let rest ← expect ':' rest
          let (v, rest) ← read fuel rest
          let (fs, rest) ← readFields fuel rest
          return (.obj ((k, v) :: fs), rest)
      | .other => none

def readItems : ℕ → List Char → Option (List Json × List Char)
  | 0, _ => none
  | fuel + 1, cs =>
    match expect ']' cs with
    | some rest => some ([], rest)
    | none => do
      let rest ← expect ',' cs
      let (v, rest) ← read fuel rest
      let (vs, rest) ← readItems fuel rest
      return (v :: vs, rest)

def readFields : ℕ → List Char → Option (List (String × Json) × List Char)
  | 0, _ => none
  | fuel + 1, cs =>
    match expect '}' cs with
    | some rest => some ([], rest)
    | none => do
      let rest ← expect ',' cs
      let (k, rest) ← readQuoted rest
      let rest ← expect ':' rest
      let (v, rest) ← read fuel rest
      let (fs, rest) ← readFields fuel rest
      return ((k, v) :: fs, rest)

end

def loads (text : String) : Option Json := do
  let (v, rest) ← read text.length text.toList
  if skipSpace rest = [] then some v else none

theorem skipSpace_cons (h : isSpace c = false) :
    skipSpace (c :: s) = c :: s :=
  List.dropWhile_cons_of_neg (by simp [h])

theorem expect_self (h : isSpace c = false) :
    expect c (c :: s) = some s := by
  rw [expect, skipSpace_cons h]
  exact if_pos rfl

theorem expect_other {d : Char} (h : isSpace d = false) (hne : d ≠ c) :
    expect c (d :: s) = none := by
  rw [expect, skipSpace_cons h]
  exact if_neg fun heq => hne (Option.some.inj heq)

theorem isSpace_of_kind (h : kindOf c ≠ .other) : isSpace c = false := by
  simp only [isSpace, Bool.or_eq_false_iff, decide_eq_false_iff_not]
  refine ⟨⟨⟨?_, ?_⟩, ?_⟩, ?_⟩ <;> (rintro rfl; exact h rfl)

theorem kind_ne_other (v : Json) : v.kind ≠ .other := by
  cases v with
  | bool b => cases b <;> exact nofun
  | _ => exact nofun

theorem length_escape (cs : List Char) : cs.length ≤ (cs.flatMap escapeChar).length := by
  induction cs with
  | nil => exact Nat.le_refl 0
  | cons c cs ih =>
    have hpos : 0 < (escapeChar c).length := by
      refine List.length_pos_iff.mpr fun hnil => ?_
      have hread := readChar_escapeChar c []
      rw [hnil] at hread
      cases hread
    rw [List.flatMap_cons, List.length_append, List.length_cons]
    omega

theorem readQuoted_quote (text : String) (s : List Char) :
    readQuoted (quote text ++ s) = some (text, s) := by
  have hlen := length_escape text.toList
  rw [quote, List.cons_append, List.cons_append, List.append_assoc, readQuoted, expect_self rfl]
  simp only [Option.bind_eq_bind, Option.bind_some, List.cons_append, List.nil_append]
  rw [readString_escape s (by rw [List.length_append]; omega)]
  simp

theorem readNumber_text (n : JsonNumber) (hs : Stops s) :
    readNumber (n.text.toList ++ s) = some (.num n, s) := by
  have hstop : s.takeWhile isNumeric = [] ∧ s.dropWhile isNumeric = s := by
    cases s with
    | nil => exact ⟨rfl, rfl⟩
    | cons c s =>
      have hc : isNumeric c = false := hs c rfl
      exact ⟨List.takeWhile_cons_of_neg (by simp [hc]), List.dropWhile_cons_of_neg (by simp [hc])⟩
  have htake : (n.text.toList ++ s).takeWhile isNumeric = n.text.toList := by
    rw [List.takeWhile_append_of_pos n.numeric, hstop.1, List.append_nil]
  have hdrop : (n.text.toList ++ s).dropWhile isNumeric = s := by
    rw [List.dropWhile_append_of_pos n.numeric, hstop.2]
  have hne : n.text.toList ≠ [] := fun hnil => n.nonempty (String.toList_eq_nil_iff.mp hnil)
  simp only [readNumber, htake, hdrop, ne_eq, hne, not_false_eq_true, dite_true,
    String.ofList_toList]

theorem expect_render (hc : kindOf c = .other) (v : Json) (s : List Char) :
    expect c (v.render quote ++ s) = none := by
  obtain ⟨d, l, hv, hd⟩ := head_render v
  have hkind : kindOf d ≠ .other := hd ▸ kind_ne_other v
  rw [hv, List.cons_append]
  exact expect_other (isSpace_of_kind hkind) fun heq => hkind (heq ▸ hc)

mutual

theorem read_render : ∀ (v : Json) {fuel : ℕ} {s : List Char}, (v.render quote).length ≤ fuel →
    Stops s → read fuel (v.render quote ++ s) = some (v, s)
  | v, 0, s, hfuel, _ => by
    obtain ⟨c, l, hv, -⟩ := head_render v
    rw [hv] at hfuel
    cases hfuel
  | .null, fuel + 1, s, _, _ => rfl
  | .bool true, fuel + 1, s, _, _ => rfl
  | .bool false, fuel + 1, s, _, _ => rfl
  | .num n, fuel + 1, s, _, hs => by
    obtain ⟨c, l, hv, hc⟩ := head_render (.num n)
    have hread := readNumber_text n hs
    change n.text.toList = c :: l at hv
    rw [render]
    rw [hv, List.cons_append] at hread ⊢
    rw [read, skipSpace_cons (isSpace_of_kind (hc ▸ kind_ne_other (.num n)))]
    simp only [hc, kind, hread]
  | .str text, fuel + 1, s, _, _ => by
    have hread := readQuoted_quote text s
    rw [render]
    rw [quote, List.cons_append, List.cons_append] at hread ⊢
    rw [read, skipSpace_cons rfl]
    simp only [show kindOf '"' = .str from rfl, hread, Option.map_some]
  | .arr [], fuel + 1, s, _, _ => rfl
  | .arr (v :: vs), fuel + 1, s, hfuel, _ => by
    simp only [render, List.length_cons, List.length_append] at hfuel
    rw [render, List.cons_append, List.cons_append, List.append_assoc, read, skipSpace_cons rfl]
    simp only [show kindOf '[' = .arr from rfl, expect_render (c := ']') rfl]
    rw [read_render v (by omega) (stops_renderItems vs s)]
    simp only [Option.bind_eq_bind, Option.bind_some]
    rw [readItems_render vs (by omega)]
    rfl
  | .obj [], fuel + 1, s, _, _ => rfl
  | .obj ((k, v) :: fs), fuel + 1, s, hfuel, _ => by
    simp only [render, List.length_cons, List.length_append] at hfuel
    simp only [render, List.cons_append, List.append_assoc]
    rw [read, skipSpace_cons rfl]
    have hquote : ∀ t, expect '}' (quote k ++ t) = none := fun t => expect_other rfl (by decide)
    simp only [show kindOf '{' = .obj from rfl, hquote, readQuoted_quote,
      Option.bind_eq_bind, Option.bind_some]
    rw [expect_self rfl, Option.bind_some, read_render v (by omega) (stops_renderFields fs s)]
    simp only [Option.bind_some]
    rw [readFields_render fs (by omega)]
    rfl

theorem readItems_render : ∀ (vs : List Json) {fuel : ℕ} {s : List Char},
    (renderItems quote vs).length ≤ fuel →
      readItems fuel (renderItems quote vs ++ s) = some (vs, s)
  | vs, 0, s, hfuel => by cases vs <;> cases hfuel
  | [], fuel + 1, s, _ => rfl
  | v :: vs, fuel + 1, s, hfuel => by
    simp only [renderItems, List.length_cons, List.length_append] at hfuel
    rw [renderItems, List.cons_append, List.cons_append, List.append_assoc, readItems,
      expect_other rfl (by decide)]
    simp only [Option.bind_eq_bind]
    rw [expect_self rfl, Option.bind_some, read_render v (by omega) (stops_renderItems vs s)]
    simp only [Option.bind_some]
    rw [readItems_render vs (by omega)]
    rfl

theorem readFields_render : ∀ (fs : List (String × Json)) {fuel : ℕ} {s : List Char},
    (renderFields quote fs).length ≤ fuel →
      readFields fuel (renderFields quote fs ++ s) = some (fs, s)
  | fs, 0, s, hfuel => by cases fs <;> cases hfuel
  | [], fuel + 1, s, _ => rfl
  | (k, v) :: fs, fuel + 1, s, hfuel => by
    simp only [renderFields, List.length_cons, List.length_append] at hfuel
    simp only [renderFields, List.cons_append, List.append_assoc]
    rw [readFields, expect_other rfl (by decide)]
    simp only [Option.bind_eq_bind]
    rw [expect_self rfl, Option.bind_some, readQuoted_quote]
    simp only [Option.bind_some]
    rw [expect_self rfl, Option.bind_some, read_render v (by omega) (stops_renderFields fs s)]
    simp only [Option.bind_some]
    rw [readFields_render fs (by omega)]
    rfl

end

def dumpsPlain (v : Json) : String := String.ofList (v.render quote)

theorem loads_dumpsPlain (v : Json) : loads v.dumpsPlain = some v := by
  have hread := read_render v (s := []) (Nat.le_refl _) nofun
  rw [List.append_nil] at hread
  rw [loads, dumpsPlain, String.length_ofList, String.toList_ofList, hread]
  rfl

/-! ## The text is printable -/

def Printable (c : Char) : Prop := 32 ≤ c.toNat ∧ c.toNat ≤ 126

instance (c : Char) : Decidable (Printable c) := inferInstanceAs (Decidable (_ ∧ _))

theorem printable_of_isNumeric (h : isNumeric c = true) : Printable c := by
  simp only [isNumeric, Bool.or_eq_true, decide_eq_true_eq] at h
  rcases h with ((((h | rfl) | rfl) | rfl) | rfl) | rfl
  · rw [Char.isDigit_iff_toNat] at h
    exact ⟨Nat.le_trans (by decide) h.1, Nat.le_trans h.2 (by decide)⟩
  all_goals decide

theorem printable_hex4 (n : ℕ) : ∀ c ∈ hex4 n, Printable c := by
  have hdigit : ∀ m < 16, Printable (Nat.digitChar m) := by decide
  simp only [hex4, List.forall_mem_cons]
  exact ⟨hdigit _ (Nat.mod_lt _ (by decide)), hdigit _ (Nat.mod_lt _ (by decide)),
    hdigit _ (Nat.mod_lt _ (by decide)), hdigit _ (Nat.mod_lt _ (by decide)), nofun⟩

theorem printable_unit (n : ℕ) : ∀ c ∈ '\\' :: 'u' :: hex4 n, Printable c :=
  List.forall_mem_cons.mpr ⟨by decide, List.forall_mem_cons.mpr ⟨by decide, printable_hex4 n⟩⟩

theorem printable_escapeChar (c : Char) : ∀ d ∈ escapeChar c, Printable d := by
  unfold escapeChar
  dsimp only
  split_ifs with hquote hback hn hr ht hf hb hascii hunit
  any_goals
    refine List.all_iff_forall_prop.mp ?_
    decide
  · exact fun d hd => List.mem_singleton.mp hd ▸ hascii
  · exact printable_unit _
  · exact fun d hd => (List.mem_append.mp hd).elim (printable_unit _ d) (printable_unit _ d)

theorem printable_quote (text : String) : ∀ c ∈ quote text, Printable c := by
  intro c hc
  rcases List.mem_append.mp hc with hc | hc
  · rcases List.mem_cons.mp hc with rfl | hc
    · decide
    · obtain ⟨d, -, hd⟩ := List.mem_flatMap.mp hc
      exact printable_escapeChar d c hd
  · rw [List.mem_singleton.mp hc]
    decide

theorem printable_item {l m : List Char} (hc : Printable c) (hl : ∀ d ∈ l, Printable d)
    (hm : ∀ d ∈ m, Printable d) : ∀ d ∈ c :: l ++ m, Printable d :=
  List.forall_mem_append.mpr ⟨List.forall_mem_cons.mpr ⟨hc, hl⟩, hm⟩

mutual

theorem printable_render : ∀ (v : Json), ∀ c ∈ v.render quote, Printable c
  | .null => List.all_iff_forall_prop.mp (by decide)
  | .bool true => List.all_iff_forall_prop.mp (by decide)
  | .bool false => List.all_iff_forall_prop.mp (by decide)
  | .num n => fun c hc => printable_of_isNumeric (n.numeric c hc)
  | .str text => printable_quote text
  | .arr [] => List.all_iff_forall_prop.mp (by decide)
  | .arr (v :: vs) => printable_item (by decide) (printable_render v) (printable_renderItems vs)
  | .obj [] => List.all_iff_forall_prop.mp (by decide)
  | .obj ((k, v) :: fs) =>
    List.forall_mem_append.mpr ⟨printable_item (by decide) (printable_quote k)
      (List.forall_mem_cons.mpr ⟨by decide, printable_render v⟩), printable_renderFields fs⟩

theorem printable_renderItems : ∀ (vs : List Json), ∀ c ∈ renderItems quote vs, Printable c
  | [] => List.all_iff_forall_prop.mp (by decide)
  | v :: vs => printable_item (by decide) (printable_render v) (printable_renderItems vs)

theorem printable_renderFields :
    ∀ (fs : List (String × Json)), ∀ c ∈ renderFields quote fs, Printable c
  | [] => List.all_iff_forall_prop.mp (by decide)
  | (k, v) :: fs =>
    List.forall_mem_append.mpr ⟨printable_item (by decide) (printable_quote k)
      (List.forall_mem_cons.mpr ⟨by decide, printable_render v⟩), printable_renderFields fs⟩

end

/-- **The text determines the document.** -/
theorem render_injective {v w : Json} (h : v.render quote = w.render quote) : v = w := by
  have hloads := loads_dumpsPlain v
  rw [dumpsPlain, h] at hloads
  exact Option.some.inj (hloads.symm.trans (loads_dumpsPlain w))

/-- Documents with the same text are equal up to the order of keys. -/
theorem canon_eq_of_dumps_eq {v w : Json} (h : v.dumps = w.dumps) : v.canon = w.canon :=
  render_injective (String.ofList_inj.mp h)

end Json
