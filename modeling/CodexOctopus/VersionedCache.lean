import Mathlib.Order.Nat
import CodexOctopus.Threads

/-!
# Caches with a version

A cache stands before a database. A reader that misses takes the version of the cache,
reads the database and sets what it has read, provided the version is still the same. A
writer commits and then invalidates, which changes the version. Gets take no lock.

`Cache` says what gets, conditional sets and invalidations owe to each other. The
operations of `World` are numbered by `time`, and the `log` keeps the commits, the
invalidations and the gets that found something. A value carries the time of the first
read that it was made from, so that a run can say how old it is.

* `never_stale`: in every interleaving of any threads, a get after an invalidation of its key
  returns nothing that was read before the invalidation.
* `load`, `sat_load`: reading in the discipline.
* `Entries`: a dictionary of entries that expire.
-/

namespace VersionedCache

open Interaction

/-- A cache with states `σ`, keys `κ` and values `ν`; `ι` names what is invalidated. -/
structure Cache (σ κ ν ι : Type) where
  version : σ → ℕ
  get : σ → ℤ → κ → Option ν
  set : σ → ℤ → κ → ν → Option ℕ → σ
  invalidate : σ → ι → σ
  covers : ι → κ → Bool
  Held : σ → κ → ν → Prop
  held_of_get : ∀ {s now k v}, get s now k = some v → Held s k v
  version_set : ∀ {s now k v n}, version (set s now k v n) = version s
  held_set : ∀ {s now k v n k' v'}, Held (set s now k v n) k' v' →
    Held s k' v' ∨ v' = v ∧ ∀ m ∈ n, m = version s
  version_invalidate : ∀ {s i}, version s < version (invalidate s i)
  held_invalidate : ∀ {s i k v}, Held (invalidate s i) k v → Held s k v ∧ covers i k = false

/-- A database with states `Δ`: its queries `Q` with answers `D`, and its changes `X`. -/
structure Database (Δ Q D X : Type) where
  query : Q → Δ → D
  apply : X → Δ → Δ

structure Stamped (ν : Type) where
  value : ν
  readAt : Option ℕ

variable {σ κ ν ι Δ Q D X α C : Type}

inductive Op (κ ν ι Q X : Type) : Type where
  | get (k : κ)
  | version
  | read (q : Q)
  | set (k : κ) (v : Stamped ν) (ifVersion : Option ℕ)
  | invalidate (i : ι)
  | commit (x : X)
  | utcnow

abbrev Ans (D : Type) : Op κ ν ι Q X → Type
  | .get _ => Option (Stamped ν)
  | .version => ℕ
  | .read _ => D × ℕ
  | .set _ _ _ => Unit
  | .invalidate _ => Unit
  | .commit _ => Unit
  | .utcnow => ℤ

inductive Entry (κ ν ι : Type) : Type where
  | committed
  | invalidated (i : ι)
  | got (k : κ) (v : Stamped ν)

structure World (σ κ ν ι Δ : Type) where
  cache : σ
  clock : ℤ
  database : Δ
  time : ℕ
  log : List (ℕ × Entry κ ν ι)

def World.record (w : World σ κ ν ι Δ) (entry : Entry κ ν ι) : World σ κ ν ι Δ :=
  { w with time := w.time + 1, log := (w.time, entry) :: w.log }

def exec (cache : Cache σ κ (Stamped ν) ι) (db : Database Δ Q D X) :
    (op : Op κ ν ι Q X) → ℤ → World σ κ ν ι Δ → Option (World σ κ ν ι Δ × Ans D op)
  | .get k, _, w =>
    match cache.get w.cache w.clock k with
    | none => some ({ w with time := w.time + 1 }, none)
    | some v => some (w.record (.got k v), some v)
  | .version, _, w => some ({ w with time := w.time + 1 }, cache.version w.cache)
  | .read q, _, w => some ({ w with time := w.time + 1 }, (db.query q w.database, w.time))
  | .set k v n, _, w =>
    some ({ w with time := w.time + 1, cache := cache.set w.cache w.clock k v n }, ())
  | .invalidate i, _, w =>
    some ({ w.record (.invalidated i) with cache := cache.invalidate w.cache i }, ())
  | .commit x, _, w => some ({ w.record .committed with database := db.apply x w.database }, ())
  | .utcnow, now, w => some ({ w with time := w.time + 1 }, now)

def system (cache : Cache σ κ (Stamped ν) ι) (db : Database Δ Q D X)
    (program : C → Prog (Op κ ν ι Q X) (Ans D) α) :
    System (World σ κ ν ι Δ) (Op κ ν ι Q X) (Ans D) α C ℤ ℕ where
  exec _ := exec cache db
  program := program
  environment w elapsed := some { w with clock := w.clock + elapsed }

def NeverStale (cache : Cache σ κ (Stamped ν) ι) (db : Database Δ Q D X)
    (program : C → Prog (Op κ ν ι Q X) (Ans D) α) : Prop :=
  ∀ (w : World σ κ ν ι Δ) (actions : List (Action C ℤ ℕ)) (p : Pool (World σ κ ν ι Δ) (Ans D) α C),
    w.log = [] → Lts.run (system cache db program).step actions ⟨w, ∅⟩ = some p →
    ∀ k v i committed invalidated got, (committed, .committed) ∈ p.shared.log →
      (invalidated, .invalidated i) ∈ p.shared.log → (got, .got k v) ∈ p.shared.log →
      cache.covers i k = true → committed < invalidated → invalidated < got →
      ∀ n ∈ v.readAt, committed < n

/-! ## The discipline -/

def stamp? : Event (@Ans κ ν ι Q X D) → Option ℕ
  | ⟨.read _, r⟩ => some r.2
  | _ => none

def ReadAfter (m n : ℕ) : History (@Ans κ ν ι Q X D) → Prop
  | [] => False
  | e :: h => ReadAfter m n h ∨ stamp? e = some n ∧ ⟨.version, m⟩ ∈ h

/-- What a value is made from was read after the version was taken that it is set under. -/
def setSpec : Spec (@Ans κ ν ι Q X D) where
  pre h
    | .set _ v n => ∃ m, n = some m ∧ ∀ t ∈ v.readAt, ReadAfter m t h
    | _ => True
  post _ _ _ := True

structure Fresh (cache : Cache σ κ (Stamped ν) ι) (w : World σ κ ν ι Δ) : Prop where
  past : ∀ {t entry}, (t, entry) ∈ w.log → t < w.time
  held : ∀ {k v t i}, cache.Held w.cache k v → (t, .invalidated i) ∈ w.log →
    cache.covers i k = true → ∀ n ∈ v.readAt, t < n
  got : ∀ {k v t i t'}, (t', .got k v) ∈ w.log → (t, .invalidated i) ∈ w.log →
    cache.covers i k = true → t < t' → ∀ n ∈ v.readAt, t < n

structure Current (cache : Cache σ κ (Stamped ν) ι) (w : World σ κ ν ι Δ)
    (h : History (@Ans κ ν ι Q X D)) : Prop where
  version : ∀ {m}, ⟨.version, m⟩ ∈ h → m ≤ cache.version w.cache
  read : ∀ {m n}, ReadAfter m n h → m ≤ cache.version w.cache ∧
    (m = cache.version w.cache → ∀ {t i}, (t, .invalidated i) ∈ w.log → t < n)

variable {cache : Cache σ κ (Stamped ν) ι} {db : Database Δ Q D X} {w w' : World σ κ ν ι Δ}
  {h : History (@Ans κ ν ι Q X D)}

theorem Fresh.quiet (hw : Fresh cache w) (htime : w.time ≤ w'.time)
    (hcache : w'.cache = w.cache)
    (hlog : ∀ {t entry}, (t, entry) ∈ w'.log → (t, entry) ∈ w.log ∨
      t = w.time ∧ w.time < w'.time ∧ (∀ i, entry ≠ .invalidated i) ∧
        ∀ k v, entry = .got k v → cache.Held w.cache k v) : Fresh cache w' where
  past hmem := by
    rcases hlog hmem with hmem | ⟨rfl, hlt, -⟩
    · exact (hw.past hmem).trans_le htime
    · exact hlt
  held hheld hmem := by
    rw [hcache] at hheld
    rcases hlog hmem with hmem | ⟨-, -, hne, -⟩
    · exact hw.held hheld hmem
    · exact absurd rfl (hne _)
  got hgot hmem hcovers hlt := by
    rcases hlog hmem with hmem | ⟨-, -, hne, -⟩
    · rcases hlog hgot with hgot | ⟨-, -, -, hheld⟩
      · exact hw.got hgot hmem hcovers hlt
      · exact hw.held (hheld _ _ rfl) hmem hcovers
    · exact absurd rfl (hne _)

theorem Current.quiet (hlink : Current cache w h)
    (hversion : cache.version w'.cache = cache.version w.cache)
    (hlog : ∀ {t i}, (t, Entry.invalidated i) ∈ w'.log → (t, Entry.invalidated i) ∈ w.log) :
    Current cache w' h where
  version hmem := hversion ▸ hlink.version hmem
  read hread := by
    obtain ⟨hle, hcurrent⟩ := hlink.read hread
    exact ⟨hversion ▸ hle, fun hm _ _ hmem => hcurrent (hm.trans hversion) (hlog hmem)⟩

theorem fresh_set (hw : Fresh cache w) {k : κ} {v : Stamped ν} {n : Option ℕ}
    (hlink : Current cache w h) (hpre : (@setSpec κ ν ι Q D X).pre h (.set k v n)) :
    Fresh cache { w with time := w.time + 1, cache := cache.set w.cache w.clock k v n } where
  past hmem := (hw.past hmem).trans (Nat.lt_succ_self _)
  held hheld hmem hcovers t ht := by
    obtain ⟨m, rfl, hread⟩ := hpre
    rcases cache.held_set hheld with hheld | ⟨rfl, hversion⟩
    · exact hw.held hheld hmem hcovers t ht
    · exact (hlink.read (hread t ht)).2 (hversion m rfl) hmem
  got := hw.got

theorem fresh_invalidate (hw : Fresh cache w) (i : ι) :
    Fresh cache { w.record (.invalidated i) with cache := cache.invalidate w.cache i } where
  past hmem := by
    rcases List.mem_cons.mp hmem with heq | hmem
    · obtain ⟨rfl, -⟩ := Prod.mk.inj heq
      exact Nat.lt_succ_self _
    · exact (hw.past hmem).trans (Nat.lt_succ_self _)
  held hheld hmem hcovers := by
    obtain ⟨hheld, hother⟩ := cache.held_invalidate hheld
    rcases List.mem_cons.mp hmem with heq | hmem
    · obtain rfl := Entry.invalidated.inj (Prod.mk.inj heq).2
      exact absurd (hother.symm.trans hcovers) Bool.false_ne_true
    · exact hw.held hheld hmem hcovers
  got hgot hmem hcovers hlt := by
    have hgot := (List.mem_cons.mp hgot).resolve_left fun heq => nomatch (Prod.mk.inj heq).2
    rcases List.mem_cons.mp hmem with heq | hmem
    · -- a get that was logged came before this invalidation
      obtain ⟨rfl, -⟩ := Prod.mk.inj heq
      exact absurd (hw.past hgot) (Nat.not_lt_of_gt hlt)
    · exact hw.got hgot hmem hcovers hlt

theorem current_invalidate (hlink : Current cache w h) (i : ι) :
    Current cache { w.record (.invalidated i) with cache := cache.invalidate w.cache i } h where
  version hmem := (hlink.version hmem).trans cache.version_invalidate.le
  read hread := by
    have hlt := (hlink.read hread).1.trans_lt (@Cache.version_invalidate _ _ _ _ cache w.cache i)
    exact ⟨hlt.le, fun hm => absurd hm hlt.ne⟩

theorem Current.cons (hlink : Current cache w h) {e : Event (@Ans κ ν ι Q X D)}
    (hstamp : stamp? e = none) (hversion : ∀ m, e ≠ ⟨.version, m⟩) : Current cache w (e :: h) where
  version hmem := hlink.version ((List.mem_cons.mp hmem).resolve_left fun heq => hversion _
    heq.symm)
  read hread := by
    rcases hread with hread | ⟨hstamp', -⟩
    · exact hlink.read hread
    · cases hstamp.symm.trans hstamp'

theorem exec_current {op : Op κ ν ι Q X} {now : ℤ} {r : Ans D op} (hlink : Current cache w h)
    (hexec : exec cache db op now w = some (w', r)) : Current cache w' h := by
  cases op with
  | get k =>
    cases hget : cache.get w.cache w.clock k with
    | none =>
      rw [exec, hget] at hexec
      cases hexec
      exact hlink.quiet rfl fun hmem => hmem
    | some v =>
      rw [exec, hget] at hexec
      cases hexec
      exact hlink.quiet rfl fun hmem =>
        (List.mem_cons.mp hmem).resolve_left fun heq => nomatch (Prod.mk.inj heq).2
  | version =>
    cases hexec
    exact hlink.quiet rfl fun hmem => hmem
  | read q =>
    cases hexec
    exact hlink.quiet rfl fun hmem => hmem
  | set k v n =>
    cases hexec
    exact hlink.quiet cache.version_set fun hmem => hmem
  | invalidate i =>
    cases hexec
    exact current_invalidate hlink i
  | commit x =>
    cases hexec
    exact hlink.quiet rfl fun hmem =>
      (List.mem_cons.mp hmem).resolve_left fun heq => nomatch (Prod.mk.inj heq).2
  | utcnow =>
    cases hexec
    exact hlink.quiet rfl fun hmem => hmem

theorem exec_keeps {op : Op κ ν ι Q X} {now : ℤ} {r : Ans D op} (hw : Fresh cache w)
    (hlink : Current cache w h) (hpre : (@setSpec κ ν ι Q D X).pre h op)
    (hexec : exec cache db op now w = some (w', r)) :
    Fresh cache w' ∧ Current cache w' (⟨op, r⟩ :: h) := by
  have hlink' := exec_current hlink hexec
  have htick : Fresh cache { w with time := w.time + 1 } :=
    hw.quiet (Nat.le_succ _) rfl fun hmem => .inl hmem
  cases op with
  | get k =>
    cases hget : cache.get w.cache w.clock k with
    | none =>
      rw [exec, hget] at hexec
      cases hexec
      exact ⟨htick, hlink'.cons rfl nofun⟩
    | some v =>
      rw [exec, hget] at hexec
      cases hexec
      refine ⟨hw.quiet (Nat.le_succ _) rfl fun hmem => ?_, hlink'.cons rfl nofun⟩
      rcases List.mem_cons.mp hmem with heq | hmem
      · obtain ⟨rfl, rfl⟩ := Prod.mk.inj heq
        refine .inr ⟨rfl, Nat.lt_succ_self _, nofun, fun k' v' hgot => ?_⟩
        obtain ⟨rfl, rfl⟩ := Entry.got.inj hgot
        exact cache.held_of_get hget
      · exact .inl hmem
  | version =>
    cases hexec
    refine ⟨htick, ⟨fun {m} hmem => ?_, fun hread => ?_⟩⟩
    · rcases List.mem_cons.mp hmem with heq | hmem
      · obtain rfl : m = cache.version w.cache := eq_of_heq (Event.mk.inj heq).2
        exact le_rfl
      · exact hlink'.version hmem
    · rcases hread with hread | ⟨hstamp, -⟩
      · exact hlink'.read hread
      · cases hstamp
  | read q =>
    cases hexec
    refine ⟨htick, ⟨fun hmem => ?_, fun hread => ?_⟩⟩
    · exact hlink'.version ((List.mem_cons.mp hmem).resolve_left nofun)
    · rcases hread with hread | ⟨hstamp, hmem⟩
      · exact hlink'.read hread
      · -- all that was invalidated so far was invalidated before this read
        cases hstamp
        exact ⟨hlink.version hmem, fun _ _ _ hinvalidated => hw.past hinvalidated⟩
  | set k v n =>
    cases hexec
    exact ⟨fresh_set hw hlink hpre, hlink'.cons rfl nofun⟩
  | invalidate i =>
    cases hexec
    exact ⟨fresh_invalidate hw i, hlink'.cons rfl nofun⟩
  | commit x =>
    cases hexec
    refine ⟨hw.quiet (Nat.le_succ _) rfl fun hmem => ?_, hlink'.cons rfl nofun⟩
    rcases List.mem_cons.mp hmem with heq | hmem
    · obtain ⟨rfl, rfl⟩ := Prod.mk.inj heq
      exact .inr ⟨rfl, Nat.lt_succ_self _, nofun, nofun⟩
    · exact .inl hmem
  | utcnow =>
    cases hexec
    exact ⟨htick, hlink'.cons rfl nofun⟩

variable {program : C → Prog (Op κ ν ι Q X) (Ans D) α}

theorem upholds_fresh
    (hprogram : ∀ c, Sat (@setSpec κ ν ι Q D X) (fun _ _ => True) [] (program c)) :
    Upholds (system cache db program) (fun _ _ => True) (Fresh cache) (Current cache)
      (fun _ => setSpec) (fun _ _ _ => True) where
  spawn {_ _ c} _ _ := ⟨⟨nofun, nofun⟩, hprogram c⟩
  exec _ _ _ hinv hlink hpre hexec :=
    ⟨(exec_keeps hinv hlink hpre hexec).1, trivial, (exec_keeps hinv hlink hpre hexec).2⟩
  stable _ _ _ _ _ hexec hlink := exec_current hlink hexec
  environment {p _ _} _ hinv hw := by
    cases hw
    exact ⟨hinv.quiet le_rfl rfl fun hmem => .inl hmem,
      fun _ hlink => hlink.quiet rfl fun hmem => hmem⟩

/-- **What was invalidated is not served**, whatever threads keep to the discipline. -/
theorem never_stale (hprogram : ∀ c, Sat (@setSpec κ ν ι Q D X) (fun _ _ => True) [] (program c)) :
    NeverStale cache db program := by
  intro w actions p hlog hrun k v i committed invalidated got _ hinvalidated hgot hcovers hbefore
    hafter n hn
  have hstart : Fresh cache w := by
    constructor <;> simp [hlog]
  have halways : Lts.Along (system cache db program).step (fun _ _ => True) actions ⟨w, ∅⟩ :=
    Lts.along_of_invariant (fun (_ : True) _ => trivial) (fun _ => trivial) trivial
  have hverified := (upholds_fresh hprogram).run (Verified.start hstart) halways hrun
  exact hbefore.trans (hverified.inv.got hgot hinvalidated hcovers hafter n hn)

/-! ## Reading in the discipline -/

abbrev Loader (Q D α : Type) : Type := Prog Q (fun _ => D) α

def load : Loader Q D α → Option ℕ → Prog (Op κ ν ι Q X) (Ans D) (α × Option ℕ)
  | .ret a, first => .ret (a, first)
  | .call q k, first => .call (.read q) fun r => load (k r.1) (first.or (some r.2))

theorem sat_load (p : Loader Q D α) {first : Option ℕ} {m : ℕ}
    (hversion : ⟨.version, m⟩ ∈ h) (hfirst : ∀ n ∈ first, ReadAfter m n h) :
    Sat setSpec (fun h' r => ∀ n ∈ r.2, ReadAfter m n h') h
      (@load κ ν ι Q D X α p first) := by
  induction p generalizing h first with
  | ret a => exact hfirst
  | call q k ih =>
    refine ⟨trivial, fun r _ => ih r.1 (List.mem_cons_of_mem _ hversion) fun n hn => ?_⟩
    cases first with
    | none =>
      obtain rfl : r.2 = n := Option.some.inj hn
      exact .inr ⟨rfl, hversion⟩
    | some n' => exact .inl (hfirst n hn)

def loadAndSet {ε : Type} (k : κ) (p : Loader Q D (Except ε ν)) :
    Prog (Op κ ν ι Q X) (Ans D) (Except ε ν) := do
  let m : ℕ ← Prog.perform Op.version
  let r ← load p none
  match r.1 with
  | .error e => return .error e
  | .ok v =>
    Prog.perform (Op.set k ⟨v, r.2⟩ (some m))
    return .ok v

theorem sat_loadAndSet {ε : Type} (k : κ) (p : Loader Q D (Except ε ν)) :
    Sat setSpec (fun _ _ => True) h
      (@loadAndSet κ ν ι Q D X ε k p) := by
  refine ⟨trivial, fun m _ => ?_⟩
  have hnone : ∀ n ∈ (none : Option ℕ),
      ReadAfter m n ((⟨.version, m⟩ : Event (@Ans κ ν ι Q X D)) :: h) := by simp
  refine (sat_load p List.mem_cons_self hnone).bind fun h' r hr => ?_
  obtain ⟨r, first⟩ := r
  cases r with
  | error e => trivial
  | ok v => exact ⟨⟨m, rfl, hr⟩, fun _ _ => trivial⟩

/-! ## Entries that expire -/

structure Expiring (ν : Type) where
  data : ν
  expiresAt : ℤ

abbrev Entries (κ ν : Type) : Type := List (κ × Expiring ν)

namespace Entries

variable [DecidableEq κ] {entries : Entries κ ν} {k k' : κ} {v v' : ν}

def Holds (entries : Entries κ ν) (k : κ) (v : ν) : Prop :=
  ∃ expiresAt, (k, ⟨v, expiresAt⟩) ∈ entries

def get (entries : Entries κ ν) (now : ℤ) (k : κ) : Option ν :=
  match entries.find? fun x => x.1 = k with
  | none => none
  | some x => if x.2.expiresAt ≤ now then none else some x.2.data

/-- `cache[key] = value`: in the place that the key has, or at the end. -/
def set (entries : Entries κ ν) (k : κ) (e : Expiring ν) : Entries κ ν :=
  if entries.any fun x => x.1 = k then entries.map fun x => if x.1 = k then (k, e) else x
  else entries ++ [(k, e)]

def pop (entries : Entries κ ν) (k : κ) : Entries κ ν := entries.filter fun x => x.1 ≠ k

theorem holds_of_get {now : ℤ} (h : entries.get now k = some v) : entries.Holds k v := by
  unfold get at h
  split at h
  · cases h
  · next x hx =>
    obtain ⟨-, h⟩ := Option.ite_none_left_eq_some.mp h
    cases h
    obtain rfl : x.1 = k := by simpa using List.find?_some hx
    exact ⟨x.2.expiresAt, List.mem_of_find?_eq_some hx⟩

theorem holds_of_set {e : Expiring ν} (h : (entries.set k e).Holds k' v') :
    entries.Holds k' v' ∨ v' = e.data := by
  obtain ⟨expiresAt, hmem⟩ := h
  unfold set at hmem
  split at hmem
  · obtain ⟨x, hx, heq⟩ := List.mem_map.mp hmem
    split_ifs at heq
    · obtain ⟨-, rfl⟩ := Prod.mk.inj heq
      exact .inr rfl
    · subst heq
      exact .inl ⟨expiresAt, hx⟩
  · rcases List.mem_append.mp hmem with hmem | hmem
    · exact .inl ⟨expiresAt, hmem⟩
    · obtain ⟨-, rfl⟩ := Prod.mk.inj (List.mem_singleton.mp hmem)
      exact .inr rfl

theorem holds_of_pop (h : (entries.pop k).Holds k' v') : entries.Holds k' v' ∧ k' ≠ k := by
  obtain ⟨expiresAt, hmem⟩ := h
  obtain ⟨hmem, hne⟩ := List.mem_filter.mp hmem
  exact ⟨⟨expiresAt, hmem⟩, of_decide_eq_true hne⟩

end Entries

end VersionedCache
