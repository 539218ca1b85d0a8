import CodexOctopus.Python
import CodexOctopus.Threads

/-!
# Cache invalidation across replicas

Every replica bumps the version of a namespace in the database when its data changed, and
polls the versions to learn of the bumps of the others. `_poll_once` reads all versions and
runs the callbacks of a namespace whose version is new to it.

The poller's task waits for one poll before it begins the next, so reading the versions waits
while another poll works on its rows. The shared state keeps a *log* of the commits, of the
reads that succeeded and of the callbacks that completed, the latest first.

* `Moves`, `exec_keeps`: what a bump or an operation of a poll leaves of the log.
-/

namespace CodexOctopus.CacheInvalidation

open List Option Python Interaction Lts

inductive Entry : Type where
  | bumped (ns : String) (version : ℕ)
  | read
  | completed (ns : String) (callback : ℕ)
  deriving DecidableEq

structure World where
  versions : List (String × ℕ)
  knownVersions : List (String × ℕ)
  pollInitialized : Bool
  polling : Bool
  log : List Entry

inductive Op : Type where
  | select
  /-- `_known_versions.get` -/
  | known (ns : String)
  | initialized
  | callback (ns : String) (callback : ℕ)
  | setKnown (ns : String) (version : ℕ)
  /-- `_poll_initialized = True`, and the end of the poll -/
  | finish
  deriving DecidableEq

abbrev Op.Ans : Op → Type
  | .select => Option (List (String × ℕ))
  | .known _ => Option ℕ
  | .initialized => Bool
  | .callback _ _ => Bool
  | .setKnown _ _ => Unit
  | .finish => Unit

abbrev M (α : Type) : Type := Prog Op Op.Ans α

def runCallbacks (ns : String) : List ℕ → M Unit
  | [] => return
  | cb :: rest => do
    let _completed : Bool ← Prog.perform (Op.callback ns cb)
    runCallbacks ns rest

section Poll

-- the callbacks that were registered before the poller was started
variable (callbacks : String → List ℕ)

def pollRow (ns : String) (version : ℕ) : M Unit := do
  let prev : Option ℕ ← Prog.perform (Op.known ns)
  match prev with
  | some prev =>
    if version ≠ prev then runCallbacks ns (callbacks ns)
  | none =>
    let initialized : Bool ← Prog.perform Op.initialized
    if initialized && decide (0 < version) then runCallbacks ns (callbacks ns)
  Prog.perform (Op.setKnown ns version)

def pollRows : List (String × ℕ) → M Unit
  | [] => return
  | (ns, version) :: rest => do
    pollRow callbacks ns version
    pollRows rest

def pollOnce : M Unit := do
  let rows : Option (List (String × ℕ)) ← Prog.perform Op.select
  match rows with
  | none => return
  | some rows =>
    pollRows callbacks rows
    Prog.perform Op.finish

end Poll

inductive Ending : Type where
  | done
  | raised
  deriving DecidableEq

def exec : (op : Op) → Ending → World → Option (World × op.Ans)
  | .select, ending, w =>
    if w.polling then none
    else
      match ending with
      | .done => some ({ w with polling := true, log := .read :: w.log }, some w.versions)
      | .raised => some (w, none)
  | .known ns, _, w => some (w, getItem ns w.knownVersions)
  | .initialized, _, w => some (w, w.pollInitialized)
  | .callback ns cb, .done, w => some ({ w with log := .completed ns cb :: w.log }, true)
  | .callback _ _, .raised, w => some (w, false)
  | .setKnown ns version, _, w =>
    some ({ w with knownVersions := setItem ns version w.knownVersions }, ())
  | .finish, _, w => some ({ w with pollInitialized := true, polling := false }, ())

def World.version (w : World) (ns : String) : ℕ := (getItem ns w.versions).getD 0

def World.bump (w : World) (ns : String) : World :=
  { w with
    versions := setItem ns (w.version ns + 1) w.versions
    log := .bumped ns (w.version ns + 1) :: w.log }

def system (callbacks : String → List ℕ) : System World Op Op.Ans Unit Unit Ending String where
  exec _ := exec
  program _ := pollOnce callbacks
  environment w ns := some (w.bump ns)

abbrev State : Type := Pool World Op.Ans Unit Unit

structure Started (w : World) : Prop where
  rows : ∀ row ∈ w.versions, getItem row.1 w.versions = some row.2
  known : w.knownVersions = []
  initialized : w.pollInitialized = false
  polling : w.polling = false
  log : w.log = []

def Late (log : List Entry) (ns : String) (version : ℕ) : Prop :=
  List.Sublist [.bumped ns version, .read] log

def Done (log : List Entry) (ns : String) (version cb : ℕ) : Prop :=
  List.Sublist [.completed ns cb, .bumped ns version] log

instance (log : List Entry) (ns : String) (version : ℕ) : Decidable (Late log ns version) :=
  inferInstanceAs (Decidable (List.Sublist _ _))

instance (log : List Entry) (ns : String) (version cb : ℕ) : Decidable (Done log ns version cb) :=
  inferInstanceAs (Decidable (List.Sublist _ _))

def Op.isCallback : Op → Bool
  | .callback _ _ => true
  | _ => false

def Calm (p : State) : Action Unit Ending String → Prop
  | .resume tid .raised => ∀ op ∈ p.next tid, op.isCallback = false
  | _ => True

instance (p : State) : (a : Action Unit Ending String) → Decidable (Calm p a)
  | .resume tid .raised => inferInstanceAs (Decidable (∀ op ∈ p.next tid, op.isCallback = false))
  | .resume _ .done => inferInstanceAs (Decidable True)
  | .spawn _ _ => inferInstanceAs (Decidable True)
  | .environment _ => inferInstanceAs (Decidable True)

/-! ## What is kept -/

structure Moves (w w' : World) : Prop where
  version : ∀ ns, w.version ns ≤ w'.version ns
  initialized : w'.pollInitialized = false → w.pollInitialized = false
  bumped : ∀ {ns v}, v ≤ w.version ns → .bumped ns v ∈ w'.log → .bumped ns v ∈ w.log
  late : ∀ {ns v}, v ≤ w.version ns → Late w'.log ns v → Late w.log ns v
  done : ∀ {ns v cb}, Done w.log ns v cb → Done w'.log ns v cb

variable {w w' : World}

theorem Moves.entry {entry : Entry} (hlog : w'.log = entry :: w.log)
    (hversion : ∀ ns, w.version ns ≤ w'.version ns)
    (hinitialized : w'.pollInitialized = false → w.pollInitialized = false)
    (hentry : ∀ {ns v}, v ≤ w.version ns → Entry.bumped ns v ≠ entry) : Moves w w' where
  version := hversion
  initialized := hinitialized
  bumped hv hmem := by
    rw [hlog] at hmem
    exact (mem_cons.mp hmem).resolve_left (hentry hv)
  late hv hlate := by
    rw [Late, hlog, cons_sublist_cons'] at hlate
    exact hlate.resolve_right fun h => hentry hv h.1
  done hdone := by
    rw [Done, hlog]
    exact hdone.cons entry

theorem Moves.same (hlog : w'.log = w.log) (hversion : w'.versions = w.versions)
    (hinitialized : w'.pollInitialized = false → w.pollInitialized = false) : Moves w w' where
  version ns := by rw [World.version, World.version, hversion]
  initialized := hinitialized
  bumped _ hmem := by rwa [hlog] at hmem
  late _ hlate := by rwa [hlog] at hlate
  done hdone := by rwa [hlog]

theorem version_bump (w : World) (ns other : String) :
    (w.bump ns).version other = if other = ns then w.version ns + 1 else w.version other := by
  rw [World.version, World.bump]
  split_ifs with hns
  · rw [hns, getItem_setItem_self, getD_some]
  · rw [getItem_setItem_of_ne (Ne.symm hns), World.version]

theorem moves_bump (w : World) (ns : String) : Moves w (w.bump ns) := by
  refine .entry rfl (fun other => ?_) (fun h => h) fun {other v} hv heq => ?_
  · rw [version_bump]
    split_ifs with hns
    · rw [hns]
      exact Nat.le_succ _
    · exact le_rfl
  · obtain ⟨rfl, rfl⟩ := Entry.bumped.inj heq
    exact absurd hv (Nat.not_succ_le_self _)

theorem moves_exec {op : Op} {ending : Ending} {r : op.Ans}
    (hexec : exec op ending w = some (w', r)) : Moves w w' := by
  cases op with
  | select =>
    obtain ⟨-, hexec⟩ := ite_none_left_eq_some.mp hexec
    cases ending <;> cases hexec
    · exact .entry rfl (fun _ => le_rfl) (fun h => h) fun _ => nofun
    · exact .same rfl rfl fun h => h
  | known ns =>
    cases hexec
    exact .same rfl rfl fun h => h
  | initialized =>
    cases hexec
    exact .same rfl rfl fun h => h
  | callback ns cb =>
    cases ending <;> cases hexec
    · exact .entry rfl (fun _ => le_rfl) (fun h => h) fun _ => nofun
    · exact .same rfl rfl fun h => h
  | setKnown ns v =>
    cases hexec
    exact .same rfl rfl fun h => h
  | finish =>
    cases hexec
    exact .same rfl rfl nofun

section Poll

variable {callbacks : String → List ℕ}

def Known (callbacks : String → List ℕ) (w : World) (ns : String) (v : ℕ) : Prop :=
  v ≤ w.version ns ∧ (Late w.log ns v → ∀ cb ∈ callbacks ns, Done w.log ns v cb)

variable {ns : String} {v : ℕ} {h : History Op.Ans} {rows : List (String × ℕ)}

theorem Known.moves (hmoves : Moves w w') (h : Known callbacks w ns v) :
    Known callbacks w' ns v :=
  ⟨h.1.trans (hmoves.version ns), fun hlate cb hcb => hmoves.done
    (h.2 (hmoves.late h.1 hlate) cb hcb)⟩

structure Sound (callbacks : String → List ℕ) (w : World) : Prop where
  rows : ∀ {ns v}, (ns, v) ∈ w.versions → v ≤ w.version ns
  bumps : ∀ {ns v}, .bumped ns v ∈ w.log → 0 < v ∧ v ≤ w.version ns
  known : ∀ {ns v}, (ns, v) ∈ w.knownVersions → Known callbacks w ns v
  unread : w.pollInitialized = false → w.polling = false → .read ∉ w.log

structure Linked (callbacks : String → List ℕ) (w : World) (h : History Op.Ans) : Prop where
  bound : ∀ {rows ns v}, ⟨.select, some rows⟩ ∈ h → (ns, v) ∈ rows → v ≤ w.version ns
  early : ∀ {rows ns v}, ⟨.select, some rows⟩ ∈ h → (ns, v) ∈ rows →
    w.pollInitialized = false ∨ ⟨.initialized, false⟩ ∈ h → ¬ Late w.log ns v
  done : ∀ {rows ns v cb}, ⟨.select, some rows⟩ ∈ h → (ns, v) ∈ rows →
    ⟨.callback ns cb, true⟩ ∈ h → .bumped ns v ∈ w.log → Done w.log ns v cb
  known : ∀ {ns v}, ⟨.known ns, some v⟩ ∈ h → Known callbacks w ns v

def Handled (callbacks : String → List ℕ) (h : History Op.Ans) (ns : String) (v : ℕ) : Prop :=
  ⟨.known ns, some v⟩ ∈ h ∨ (∀ cb ∈ callbacks ns, ⟨.callback ns cb, true⟩ ∈ h) ∨
    ⟨.initialized, false⟩ ∈ h ∨ v = 0

theorem Handled.mono {h' : History Op.Ans} (hsub : h ⊆ h') (hhandled : Handled callbacks h ns v) :
    Handled callbacks h' ns v := by
  rcases hhandled with hknown | hrun | hfirst | hzero
  · exact .inl (hsub hknown)
  · exact .inr (.inl fun cb hcb => hsub (hrun cb hcb))
  · exact .inr (.inr (.inl (hsub hfirst)))
  · exact .inr (.inr (.inr hzero))

theorem Linked.handled (hw : Sound callbacks w) (hlink : Linked callbacks w h)
    (hselect : ⟨.select, some rows⟩ ∈ h) (hrow : (ns, v) ∈ rows)
    (hhandled : Handled callbacks h ns v) : Known callbacks w ns v := by
  refine ⟨hlink.bound hselect hrow, fun hlate cb hcb => ?_⟩
  have hbumped : .bumped ns v ∈ w.log := hlate.subset mem_cons_self
  rcases hhandled with hknown | hrun | hfirst | rfl
  · exact (hlink.known hknown).2 hlate cb hcb
  · exact hlink.done hselect hrow (hrun cb hcb) hbumped
  · exact absurd hlate (hlink.early hselect hrow (.inr hfirst))
  · exact absurd (hw.bumps hbumped).1 (lt_irrefl 0)

theorem Linked.moves (hmoves : Moves w w') (hlink : Linked callbacks w h) :
    Linked callbacks w' h where
  bound hselect hrow := (hlink.bound hselect hrow).trans (hmoves.version _)
  early hselect hrow hfirst hlate := by
    have hbound := hlink.bound hselect hrow
    exact hlink.early hselect hrow (hfirst.imp_left hmoves.initialized) (hmoves.late hbound hlate)
  done hselect hrow hcallback hbumped := by
    have hbound := hlink.bound hselect hrow
    exact hmoves.done (hlink.done hselect hrow hcallback (hmoves.bumped hbound hbumped))
  known hknown := (hlink.known hknown).moves hmoves

/-! ## The program of a poll -/

/-- What a poll does: it reads once, and knows a version after it has handled the row. -/
def pollSpec (callbacks : String → List ℕ) : Spec Op.Ans where
  pre h
    | .select => h = []
    | .setKnown ns v =>
      ∃ rows, ⟨.select, some rows⟩ ∈ h ∧ (ns, v) ∈ rows ∧ Handled callbacks h ns v
    | _ => True
  post _
    | .callback _ _, r => r = true
    | _, _ => True

def Delivered (callbacks : String → List ℕ) (h : History Op.Ans) : Prop :=
  ∀ rows, ⟨.select, some rows⟩ ∈ h → ∀ ns v, (ns, v) ∈ rows → Handled callbacks h ns v

def Later (e : Event Op.Ans) : Prop := e.op ≠ .select

theorem sat_runCallbacks (ns : String) (cbs : List ℕ) (h : History Op.Ans) :
    Sat (pollSpec callbacks)
      (fun h' _ => Grown Later h h' ∧ ∀ cb ∈ cbs, ⟨.callback ns cb, true⟩ ∈ h') h
      (runCallbacks ns cbs) := by
  induction cbs generalizing h with
  | nil => exact ⟨.refl, nofun⟩
  | cons cb cbs ih =>
    refine ⟨trivial, fun r hr => ?_⟩
    obtain rfl : r = true := hr
    refine (ih _).mono fun h' _ ⟨hgrown, hrun⟩ => ?_
    refine ⟨hgrown.trans (.cons nofun .refl), fun cb' hcb' => ?_⟩
    rcases mem_cons.mp hcb' with rfl | hcb'
    · exact hgrown.subset mem_cons_self
    · exact hrun cb' hcb'

theorem sat_pollRow (hselect : ⟨.select, some rows⟩ ∈ h) (hrow : (ns, v) ∈ rows) :
    Sat (pollSpec callbacks) (fun h' _ => Grown Later h h' ∧ Handled callbacks h' ns v) h
      (pollRow callbacks ns v) := by
  -- the last operation, after the row was handled
  have hset : ∀ h', Grown Later h h' → Handled callbacks h' ns v →
      Sat (pollSpec callbacks) (fun h' _ => Grown Later h h' ∧ Handled callbacks h' ns v) h'
        (Prog.perform (Op.setKnown ns v)) := by
    intro h' hgrown hhandled
    refine ⟨⟨rows, hgrown.subset hselect, hrow, hhandled⟩, fun r _ => ⟨.cons nofun hgrown, ?_⟩⟩
    exact hhandled.mono (subset_cons_self _ _)
  have hcallbacks : ∀ h', Grown Later h h' →
      Sat (pollSpec callbacks) (fun h' _ => Grown Later h h' ∧ Handled callbacks h' ns v) h'
        (runCallbacks ns (callbacks ns) >>= fun _ => Prog.perform (Op.setKnown ns v)) := by
    intro h' hgrown
    refine (sat_runCallbacks ns (callbacks ns) h').bind fun h'' _ ⟨hgrown', hrun⟩ => ?_
    exact hset h'' (hgrown'.trans hgrown) (.inr (.inl hrun))
  refine ⟨trivial, fun prev _ => ?_⟩
  cases prev with
  | some prev =>
    change Sat _ _ _ (if v ≠ prev then _ else _)
    by_cases hne : v ≠ prev
    · rw [if_pos hne]
      exact hcallbacks _ (.cons nofun .refl)
    · obtain rfl := not_not.mp hne
      rw [if_neg hne]
      exact hset _ (.cons nofun .refl) (.inl mem_cons_self)
  | none =>
    refine ⟨trivial, fun initialized _ => ?_⟩
    have hgrown : Grown Later h (⟨.initialized, initialized⟩ :: ⟨.known ns, none⟩ :: h) :=
      .cons nofun (.cons nofun .refl)
    change Sat _ _ _ (if (initialized && decide (0 < v)) = true then _ else _)
    by_cases hruns : (initialized && decide (0 < v)) = true
    · rw [if_pos hruns]
      exact hcallbacks _ hgrown
    · rw [if_neg hruns]
      refine hset _ hgrown ?_
      cases initialized with
      | false => exact .inr (.inr (.inl mem_cons_self))
      | true =>
        refine .inr (.inr (.inr ?_))
        simpa using hruns

theorem sat_pollRows (rest : List (String × ℕ)) (hselect : ⟨.select, some rows⟩ ∈ h)
    (hrest : rest ⊆ rows) :
    Sat (pollSpec callbacks)
      (fun h' _ => Grown Later h h' ∧ ∀ ns v, (ns, v) ∈ rest → Handled callbacks h' ns v) h
      (pollRows callbacks rest) := by
  induction rest generalizing h with
  | nil => exact ⟨.refl, nofun⟩
  | cons row rest ih =>
    obtain ⟨hrow, hrest⟩ := cons_subset.mp hrest
    refine (sat_pollRow hselect hrow).bind fun h₁ _ ⟨hgrown₁, hhandled⟩ => ?_
    refine (ih (hgrown₁.subset hselect) hrest).mono fun h₂ _ ⟨hgrown₂, hothers⟩ => ?_
    refine ⟨hgrown₂.trans hgrown₁, fun ns v hmem => ?_⟩
    rcases mem_cons.mp hmem with rfl | hmem
    · exact hhandled.mono hgrown₂.subset
    · exact hothers ns v hmem

theorem sat_pollOnce :
    Sat (pollSpec callbacks) (fun h _ => Delivered callbacks h) [] (pollOnce callbacks) := by
  refine ⟨rfl, fun rows _ => ?_⟩
  cases rows with
  | none =>
    intro rows hmem
    cases mem_singleton.mp hmem
  | some rows =>
    refine (sat_pollRows rows mem_cons_self (List.Subset.refl rows)).bind ?_
    rintro h _ ⟨hgrown, hhandled⟩
    refine ⟨trivial, fun _ _ rows' hselect ns v hrow => ?_⟩
    -- the rows of the history are those of the one read
    have hselect' : (⟨.select, some rows'⟩ : Event Op.Ans) ∈ h :=
      (mem_cons.mp hselect).resolve_left nofun
    rcases hgrown.mem_or hselect' with hmem | hlater
    · obtain rfl : rows' = rows := by simpa using hmem
      exact (hhandled ns v hrow).mono (subset_cons_self _ _)
    · exact absurd rfl hlater

theorem linked_select (hw : Sound callbacks w) (hidle : w.polling = false) :
    Linked callbacks { w with polling := true, log := .read :: w.log }
      [⟨.select, some w.versions⟩] where
  bound hselect hrow := by
    obtain rfl : _ = w.versions := by simpa using hselect
    exact hw.rows hrow
  early hselect hrow hfirst hlate := by
    have hunread := hw.unread (hfirst.resolve_right (by simp)) hidle
    have hmoves : Moves w { w with polling := true, log := .read :: w.log } :=
      .entry rfl (fun _ => le_rfl) (fun h => h) fun _ => nofun
    obtain rfl : _ = w.versions := by simpa using hselect
    have hread := (hmoves.late (hw.rows hrow) hlate).subset (mem_cons_of_mem _ mem_cons_self)
    exact hunread hread
  done _ _ hcallback := by simp at hcallback
  known hknown := by simp at hknown

theorem Linked.cons {e : Event Op.Ans} (hlink : Linked callbacks w h) (hlater : Later e)
    (hknown : ∀ ns v, e = ⟨.known ns, some v⟩ → Known callbacks w ns v)
    (hfirst : e = ⟨.initialized, false⟩ → w.pollInitialized = false)
    (hdone : ∀ ns v cb, e = ⟨.callback ns cb, true⟩ → .bumped ns v ∈ w.log → Done w.log ns v cb) :
    Linked callbacks w (e :: h) := by
  have hselected : ∀ {rows}, (⟨.select, some rows⟩ : Event Op.Ans) ∈ e :: h →
      (⟨.select, some rows⟩ : Event Op.Ans) ∈ h := by
    intro rows hmem
    rcases mem_cons.mp hmem with rfl | hmem
    · exact absurd rfl hlater
    · exact hmem
  refine ⟨fun hselect hrow => hlink.bound (hselected hselect) hrow,
    fun hselect hrow hearly => hlink.early (hselected hselect) hrow ?_,
    fun {rows ns v cb} hselect hrow hcallback hbumped => ?_, fun {ns v} hmem => ?_⟩
  · rcases hearly with hearly | hearly
    · exact .inl hearly
    · rcases mem_cons.mp hearly with heq | hmem
      · exact .inl (hfirst heq.symm)
      · exact .inr hmem
  · rcases mem_cons.mp hcallback with heq | hmem
    · exact hdone ns v cb heq.symm hbumped
    · exact hlink.done (hselected hselect) hrow hmem hbumped
  · rcases mem_cons.mp hmem with heq | hmem
    · exact hknown ns v heq.symm
    · exact hlink.known hmem

theorem Sound.of_moves (hmoves : Moves w w') (hw : Sound callbacks w)
    (hversions : w'.versions = w.versions)
    (hbumps : ∀ {ns v}, .bumped ns v ∈ w'.log → .bumped ns v ∈ w.log)
    (hknown : ∀ {ns v}, (ns, v) ∈ w'.knownVersions →
      (ns, v) ∈ w.knownVersions ∨ Known callbacks w' ns v)
    (hunread : w'.pollInitialized = false → w'.polling = false → .read ∉ w'.log) :
    Sound callbacks w' where
  rows hrow := by
    rw [hversions] at hrow
    exact (hw.rows hrow).trans (hmoves.version _)
  bumps hbumped :=
    ⟨(hw.bumps (hbumps hbumped)).1, (hw.bumps (hbumps hbumped)).2.trans (hmoves.version _)⟩
  known hmem := (hknown hmem).elim (fun h => (hw.known h).moves hmoves) fun h => h
  unread := hunread

theorem sound_bump (hw : Sound callbacks w) (ns : String) : Sound callbacks (w.bump ns) where
  rows {ns' v} hrow := by
    rcases mem_setItem hrow with heq | ⟨hmem, -⟩
    · obtain ⟨rfl, rfl⟩ := Prod.mk.inj heq
      rw [version_bump, if_pos rfl]
    · exact (hw.rows hmem).trans ((moves_bump w ns).version ns')
  bumps {ns' v} hbumped := by
    rcases mem_cons.mp hbumped with heq | hmem
    · obtain ⟨rfl, rfl⟩ := Entry.bumped.inj heq
      rw [version_bump, if_pos rfl]
      exact ⟨Nat.succ_pos _, le_rfl⟩
    · exact ⟨(hw.bumps hmem).1, (hw.bumps hmem).2.trans ((moves_bump w ns).version ns')⟩
  known hmem := (hw.known hmem).moves (moves_bump w ns)
  unread hfirst hidle hmem :=
    hw.unread hfirst hidle ((mem_cons.mp hmem).resolve_left nofun)

theorem exec_keeps {op : Op} {ending : Ending} {r : op.Ans} (hw : Sound callbacks w)
    (hlink : Linked callbacks w h) (hpre : (pollSpec callbacks).pre h op)
    (hexec : exec op ending w = some (w', r)) :
    Sound callbacks w' ∧ Linked callbacks w' (⟨op, r⟩ :: h) := by
  have hmoves := moves_exec hexec
  cases op with
  | select =>
    obtain ⟨hidle, hexec⟩ := ite_none_left_eq_some.mp hexec
    obtain rfl : h = [] := hpre
    cases ending <;> cases hexec
    · refine ⟨hw.of_moves hmoves rfl (fun hmem => (mem_cons.mp hmem).resolve_left nofun) .inl
        (fun _ => nofun), linked_select hw (by simpa using hidle)⟩
    · refine ⟨hw, ?_⟩
      constructor <;> simp
  | known ns =>
    cases hexec
    refine ⟨hw, hlink.cons nofun (fun ns' v heq => ?_) nofun nofun⟩
    obtain ⟨heq, hans⟩ := Event.mk.inj heq
    obtain rfl := Op.known.inj heq
    exact hw.known (mem_of_getItem (eq_of_heq hans))
  | initialized =>
    cases hexec
    refine ⟨hw, hlink.cons nofun nofun (fun heq => ?_) nofun⟩
    exact eq_of_heq (Event.mk.inj heq).2
  | callback ns cb =>
    cases ending <;> cases hexec
    · refine ⟨hw.of_moves hmoves rfl (fun hmem => (mem_cons.mp hmem).resolve_left nofun) .inl
        (fun hfirst hidle hmem => hw.unread hfirst hidle ((mem_cons.mp hmem).resolve_left nofun)),
        (hlink.moves hmoves).cons nofun nofun nofun fun ns' v cb' heq hbumped => ?_⟩
      obtain ⟨rfl, rfl⟩ := Op.callback.inj (Event.mk.inj heq).1
      have hmem := (mem_cons.mp hbumped).resolve_left nofun
      exact cons_sublist_cons.mpr (singleton_sublist.mpr hmem)
    · exact ⟨hw, hlink.cons nofun nofun nofun nofun⟩
  | setKnown ns v =>
    cases hexec
    obtain ⟨rows, hselect, hrow, hhandled⟩ := hpre
    have hknown := (hlink.handled hw hselect hrow hhandled).moves hmoves
    refine ⟨hw.of_moves hmoves rfl (fun hmem => hmem) (fun {ns' v'} hmem => ?_) hw.unread,
      (hlink.moves hmoves).cons nofun nofun nofun nofun⟩
    rcases mem_setItem hmem with heq | ⟨hmem, -⟩
    · obtain ⟨rfl, rfl⟩ := Prod.mk.inj heq
      exact .inr hknown
    · exact .inl hmem
  | finish =>
    cases hexec
    exact ⟨hw.of_moves hmoves rfl (fun hmem => hmem) .inl nofun,
      (hlink.moves hmoves).cons nofun nofun nofun nofun⟩

theorem upholds_delivery (callbacks : String → List ℕ) :
    Upholds (system callbacks) Calm (Sound callbacks) (Linked callbacks)
      (fun _ => pollSpec callbacks) (fun _ h _ => Delivered callbacks h) where
  spawn _ _ := ⟨by constructor <;> simp, sat_pollOnce⟩
  exec {p tid e t op k w' r} hok ht hprog hinv hlink hpre hexec := by
    obtain ⟨hsound, hlinked⟩ := exec_keeps hinv hlink hpre hexec
    refine ⟨hsound, ?_, hlinked⟩
    cases op with
    | callback ns cb =>
      cases e with
      | done =>
        obtain ⟨-, rfl⟩ := Prod.mk.inj (some.inj hexec)
        rfl
      | raised => cases hok _ (Pool.next_eq ht hprog)
    | select => trivial
    | known ns => trivial
    | initialized => trivial
    | setKnown ns v => trivial
    | finish => trivial
  stable _ _ _ _ _ hexec hlink := hlink.moves (moves_exec hexec)
  environment {p ns w'} _ hinv hw' := by
    cases hw'
    exact ⟨sound_bump hinv ns, fun h hlink => hlink.moves (moves_bump p.shared ns)⟩

end Poll

theorem Started.sound {callbacks : String → List ℕ} (hw : Started w) : Sound callbacks w where
  rows hrow := by
    rw [World.version, hw.rows _ hrow, getD_some]
  bumps hmem := by simp [hw.log] at hmem
  known hmem := by simp [hw.known] at hmem
  unread _ _ := by simp [hw.log]

/-- **No invalidation is lost** in a run in which no callback raises: a poll that returned and has
read a version, bumped after a successful read of this poller, finds every callback of the namespace
completed after the bump. -/
theorem invalidation_delivered (callbacks : String → List ℕ) (w : World) (hw : Started w)
    (actions : List (Action Unit Ending String)) (p : State)
    (hcalm : Along (system callbacks).step Calm actions ⟨w, ∅⟩)
    (hrun : run (system callbacks).step actions ⟨w, ∅⟩ = some p) :
    ∀ tid, p.outcome tid = some ((), ()) → ∀ rows, ⟨.select, some rows⟩ ∈ p.history tid →
      ∀ ns version, (ns, version) ∈ rows → Late p.shared.log ns version →
        ∀ cb ∈ callbacks ns, Done p.shared.log ns version cb := by
  intro tid hout rows hselect ns version hrow hlate cb hcb
  have hverified := (upholds_delivery callbacks).run (Verified.start hw.sound) hcalm hrun
  have hhandled := hverified.result hout rows hselect ns version hrow
  obtain ⟨t, ht, -, -⟩ := Pool.outcome_eq_some hout
  rw [Pool.history_eq ht] at hselect hhandled
  exact ((hverified.thread ht).1.handled hverified.inv hselect hrow hhandled).2 hlate cb hcb

def processCallbacks (ns : String) : List ℕ :=
  if ns = "api_key" then [1] else if ns = "firewall" then [2] else []

def fresh : World := ⟨[], [], false, false, []⟩

def wholePoll (tid n : ℕ) : List (Action Unit Ending String) :=
  .spawn tid () :: List.replicate n (.resume tid .done)

def rows? : Event Op.Ans → Option (List (String × ℕ))
  | ⟨.select, rows⟩ => rows
  | _ => none

theorem mem_of_rows {e : Event Op.Ans} {rows : List (String × ℕ)} (h : rows? e = some rows) :
    e = ⟨.select, some rows⟩ := by
  obtain ⟨op, r⟩ := e
  cases op with
  | select =>
    obtain rfl : r = some rows := h
    rfl
  | known ns => cases h
  | initialized => cases h
  | callback ns cb => cases h
  | setKnown ns v => cases h
  | finish => cases h

theorem invalidation_delivered_second : ∃ p,
    run (system processCallbacks).step
      (wholePoll 1 2 ++ [.environment "api_key"] ++ wholePoll 2 6) ⟨fresh, ∅⟩ = some p ∧
    p.outcome 2 = some ((), ()) ∧ Late p.shared.log "api_key" 1 ∧
    Done p.shared.log "api_key" 1 1 := by
  obtain ⟨p, hrun, houtcome, hrows, hlate⟩ : ∃ p,
      run (system processCallbacks).step
        (wholePoll 1 2 ++ [.environment "api_key"] ++ wholePoll 2 6) ⟨fresh, ∅⟩ = some p ∧
      p.outcome 2 = some ((), ()) ∧ [("api_key", 1)] ∈ (p.history 2).filterMap rows? ∧
      Late p.shared.log "api_key" 1 := by
    decide +kernel
  obtain ⟨e, he, hrows⟩ := mem_filterMap.mp hrows
  obtain rfl := mem_of_rows hrows
  have hstarted : Started fresh := ⟨nofun, rfl, rfl, rfl, rfl⟩
  exact ⟨p, hrun, houtcome, hlate, invalidation_delivered processCallbacks fresh hstarted _ p
    (by decide +kernel) hrun 2 houtcome _ he "api_key" 1 mem_cons_self hlate 1 mem_cons_self⟩

/-- **The first successful poll runs no callback.** The first poll fails, another replica bumps, and
no later poll completes a callback for the version. -/
theorem first_poll_skips : ∃ p,
    run (system processCallbacks).step
      ([.spawn 1 (), .resume 1 .raised, .environment "api_key"] ++ wholePoll 2 5 ++ wholePoll 3 4)
      ⟨fresh, ∅⟩ = some p ∧
    p.outcome 2 = some ((), ()) ∧ p.outcome 3 = some ((), ()) ∧
    (p.history 2).filterMap rows? = [[("api_key", 1)]] ∧
    (p.history 3).filterMap rows? = [[("api_key", 1)]] ∧
    p.shared.log = [.read, .read, .bumped "api_key" 1] := by
  decide +kernel

end CodexOctopus.CacheInvalidation
