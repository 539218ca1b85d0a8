import CodexOctopus.Threads
import Mathlib.Algebra.Order.Ring.Int

/-!
# Time-based one-time passwords

`confirm_totp_setup`, `verify_totp` and `disable_totp` as programs over the row of the
dashboard settings: reading the row, reading the clock, the conditional update of the last
verified step and the write of the secret are steps of their own, and any number of requests
take them in any order. The hash behind the codes, the Unicode tables and the decoder of
base 32 are parameters.

A step of time is *accepted* when the update that a request's success depends on goes
through: the write of the secret for a confirmation, the conditional update for the others.
The write of the secret clears the last verified step, so that the code that has confirmed the
setup is accepted again.
-/

namespace CodexOctopus.Totp

open List Option Interaction Lts

/-- `str.isdigit`, `str.isspace`, `str.upper`, whether `base64.b32decode` accepts a text, and
`pyotp.TOTP(secret, digits=6, interval=30).at`. -/
structure Library where
  isdigit : Char → Bool
  isspace : Char → Bool
  upper : String → String
  b32decodes : String → Bool
  codeAt : String → ℤ → String

inductive CodeError : Type where
  | valueError (message : String)
  | typeError (message : String)
  deriving DecidableEq

def totpPeriodSeconds : ℤ := 30

def totpDigits : ℕ := 6

def timeStep (now : ℤ) : ℤ := now / totpPeriodSeconds

section

variable (L : Library)

def normalizeSecret (secret : String) : Except CodeError String :=
  let compact := L.upper (String.ofList (secret.toList.filter fun ch => !L.isspace ch))
  let padding := String.ofList (List.replicate ((8 - compact.length % 8) % 8) '=')
  if compact = "" then .error (.valueError "secret is required")
  else if L.b32decodes (compact ++ padding) = false then .error (.valueError "Invalid TOTP secret")
  else .ok compact

def normalizeCode (code : String) : String := String.ofList (code.toList.filter L.isdigit)

def compareDigest (a b : String) : Except CodeError Bool :=
  if (a ++ b).toList.all (·.toNat < 128) then .ok (a = b)
  else .error (.typeError "comparing strings with non-ASCII characters is not supported")

def matchedStep (secret code : String) (lastVerifiedStep : Option ℤ) :
    List ℤ → Except CodeError (Option ℤ)
  | [] => .ok none
  | step :: steps =>
    if lastVerifiedStep.any (step ≤ ·) then matchedStep secret code lastVerifiedStep steps
    else
      match compareDigest (L.codeAt secret (step * totpPeriodSeconds)) code with
      | .error e => .error e
      | .ok true => .ok (some step)
      | .ok false => matchedStep secret code lastVerifiedStep steps

def verifyTotpCode (secret code : String) (window : ℕ) (now : ℤ) (lastVerifiedStep : Option ℤ) :
    Except CodeError (Option ℤ) :=
  match normalizeSecret L secret with
  | .error e => .error e
  | .ok secret =>
    if (normalizeCode L code).length ≠ totpDigits then .ok none
    else matchedStep L secret (normalizeCode L code) lastVerifiedStep
      ((List.range (2 * window + 1)).map fun i : ℕ => timeStep now - window + i)

end

/-- The row of `dashboard_settings`, as far as it is about authentication. Secrets stand
decrypted. -/
structure Settings where
  passwordHash : Option String
  totpSecret : Option String
  totpLastVerifiedStep : Option ℤ

inductive Entry : Type where
  | accepted (tid : ℕ) (step : ℤ)
  | written
  deriving DecidableEq

structure World where
  settings : Settings
  clock : ℤ
  log : List Entry

inductive TotpError : Type where
  | passwordSessionRequired (message : String)
  | alreadyConfigured (message : String)
  | notConfigured (message : String)
  | invalidSetup (message : String)
  | invalidCode (message : String)
  | raised (e : CodeError)
  | database
  deriving DecidableEq

/-- `DashboardSessionState`, without the expiry that `get` has checked. -/
structure SessionState where
  passwordVerified : Bool
  totpVerified : Bool
  deriving DecidableEq

inductive Op : Type where
  | getSettings
  | time
  | tryAdvance (step : ℤ)
  /-- the commit of `set_totp_secret`, with the columns changed since the row was read (`clears`:
  the last verified step is one) and the step that was matched -/
  | setTotpSecret (secret : Option String) (clears : Bool) (matched : Option ℤ)
  deriving DecidableEq

abbrev Op.Ans : Op → Type
  | .getSettings => Option Settings
  | .time => ℤ
  | .tryAdvance _ => Option Bool
  | .setTotpSecret _ _ _ => Option Unit

inductive Call : Type where
  | confirmTotpSetup (session : Option SessionState) (secret code : String)
  | verifyTotp (session : Option SessionState) (code : String)
  | disableTotp (session : Option SessionState) (code : String)
  deriving DecidableEq

abbrev Result (α : Type) : Type := Except TotpError α

abbrev M (α : Type) : Type := Prog Op Op.Ans α

def requireActivePasswordSession (session : Option SessionState) : M (Result Settings) := do
  let settings : Option Settings ← Prog.perform Op.getSettings
  match settings with
  | none => return .error .database
  | some settings =>
    if settings.passwordHash = none ∨ session.any (·.passwordVerified) = false then
      return .error (.passwordSessionRequired "Password-authenticated session is required")
    else return .ok settings

def requireTotpVerifiedSession (session : Option SessionState) : M (Result Settings) := do
  let settings ← requireActivePasswordSession session
  match settings with
  | .error e => return .error e
  | .ok settings =>
    if session.any (·.totpVerified) = false then
      return .error (.passwordSessionRequired "TOTP-verified session is required")
    else return .ok settings

section

variable (L : Library)

def advanceMatched : Except CodeError (Option ℤ) → M (Result Unit)
  | .error e => return .error (.raised e)
  | .ok none => return .error (.invalidCode "Invalid TOTP code")
  | .ok (some step) => do
    let updated : Option Bool ← Prog.perform (Op.tryAdvance step)
    match updated with
    | none => return .error .database
    | some false => return .error (.invalidCode "Invalid TOTP code")
    | some true => return .ok ()

def acceptCode (settings : Settings) (code : String) : M (Result Unit) :=
  match settings.totpSecret with
  | none => return .error (.notConfigured "TOTP is not configured")
  | some secret => do
    let now : ℤ ← Prog.perform Op.time
    advanceMatched (verifyTotpCode L secret code 1 now settings.totpLastVerifiedStep)

def setTotpSecret (secret : Option String) (clears : Bool) (matched : Option ℤ) : M (Result Unit) :=
    do
  let written : Option Unit ← Prog.perform (Op.setTotpSecret secret clears matched)
  match written with
  | none => return .error .database
  | some () => return .ok ()

/-- What `confirm_totp_setup` does with the result. The row was read before, so the last verified
step is written only if it was set then. -/
def confirmMatched (current : Settings) (secret : String) :
    Except CodeError (Option ℤ) → M (Result Unit)
  | .error (.valueError _) => return .error (.invalidSetup "Invalid TOTP setup payload")
  | .error (.typeError message) => return .error (.raised (.typeError message))
  | .ok none => return .error (.invalidCode "Invalid TOTP code")
  | .ok (some step) => setTotpSecret (some secret) current.totpLastVerifiedStep.isSome (some step)

def confirmTotpSetup (session : Option SessionState) (secret code : String) : M (Result Unit) := do
  let current ← requireActivePasswordSession session
  match current with
  | .error e => return .error e
  | .ok current =>
    if current.totpSecret.isSome then
      return .error (.alreadyConfigured
        "TOTP is already configured. Disable it before setting a new secret")
    else
      let now : ℤ ← Prog.perform Op.time
      confirmMatched current secret (verifyTotpCode L secret code 1 now none)

def verifyTotp (session : Option SessionState) (code : String) : M (Result Unit) := do
  let settings ← requireActivePasswordSession session
  match settings with
  | .error e => return .error e
  | .ok settings => acceptCode L settings code

/-- `disable_totp`. The conditional update has set the object's last verified step, so the commit
clears it. -/
def disableTotp (session : Option SessionState) (code : String) : M (Result Unit) := do
  let settings ← requireTotpVerifiedSession session
  match settings with
  | .error e => return .error e
  | .ok settings =>
    let accepted ← acceptCode L settings code
    match accepted with
    | .error e => return .error e
    | .ok () => setTotpSecret none true none

def program : Call → M (Result Unit)
  | .confirmTotpSetup session secret code => confirmTotpSetup L session secret code
  | .verifyTotp session code => verifyTotp L session code
  | .disableTotp session code => disableTotp L session code

end

inductive Ending : Type where
  | done
  | raised
  deriving DecidableEq

def World.advance (w : World) (tid : ℕ) (step : ℤ) : World × Option Bool :=
  if w.settings.totpLastVerifiedStep.all (· < step) then
    ({ w with
        settings := { w.settings with totpLastVerifiedStep := some step }
        log := .accepted tid step :: w.log }, some true)
  else (w, some false)

def World.write (w : World) (tid : ℕ) (secret : Option String) (clears : Bool) (matched : Option ℤ)
    :
    World :=
  { w with
    settings := { w.settings with
      totpSecret := secret
      totpLastVerifiedStep := if clears then none else w.settings.totpLastVerifiedStep }
    log := .written :: ((matched.map (Entry.accepted tid)).toList ++ w.log) }

def exec (tid : ℕ) : (op : Op) → Ending → World → Option (World × op.Ans)
  | .getSettings, .raised, w => some (w, none)
  | .getSettings, .done, w => some (w, some w.settings)
  | .time, _, w => some (w, w.clock)
  | .tryAdvance _, .raised, w => some (w, none)
  | .tryAdvance step, .done, w => some (w.advance tid step)
  | .setTotpSecret _ _ _, .raised, w => some (w, none)
  | .setTotpSecret secret clears matched, .done, w => some
      (w.write tid secret clears matched, some ())

def system (L : Library) : System World Op Op.Ans (Result Unit) Call Ending ℕ where
  exec := exec
  program := program L
  environment w seconds := some { w with clock := w.clock + seconds }

abbrev State : Type := Pool World Op.Ans (Result Unit) Call

/-! ## What a request does -/

variable {L : Library} {secret : String} {op : Op}

theorem matchedStep_mem {code : String} {last : Option ℤ} {steps : List ℤ} {step : ℤ}
    (h : matchedStep L secret code last steps = .ok (some step)) : step ∈ steps := by
  induction steps with
  | nil => cases h
  | cons s steps ih =>
    rw [matchedStep] at h
    split at h
    · exact mem_cons_of_mem _ (ih h)
    · split at h
      · cases h
      · cases h
        exact mem_cons_self
      · exact mem_cons_of_mem _ (ih h)

theorem verifyTotpCode_window {code : String} {window : ℕ} {now step : ℤ} {last : Option ℤ}
    (h : verifyTotpCode L secret code window now last = .ok (some step)) :
    timeStep now - window ≤ step := by
  unfold verifyTotpCode at h
  split at h
  · cases h
  · split_ifs at h
    · cases h
    · obtain ⟨i, -, rfl⟩ := mem_map.mp (matchedStep_mem h)
      exact le_add_of_nonneg_right (Int.natCast_nonneg i)

def accepts? : Event Op.Ans → Option ℤ
  | ⟨.tryAdvance step, some true⟩ => some step
  | ⟨.setTotpSecret _ _ matched, some ()⟩ => matched
  | _ => none

def IsWrite (e : Event Op.Ans) : Prop :=
  ∃ secret clears matched, e.op = .setTotpSecret secret clears matched

def InWindow (h : History Op.Ans) (step : ℤ) : Prop :=
  ∃ now, ⟨.time, now⟩ ∈ h ∧ timeStep now - 1 ≤ step

def ReadSecret (P : Option String → Prop) (h : History Op.Ans) : Prop :=
  ∃ settings, ⟨.getSettings, some settings⟩ ∈ h ∧ P settings.totpSecret

def Op.Allowed (h : History Op.Ans) : Op → Prop
  | .tryAdvance step => InWindow h step ∧ ReadSecret (· ≠ none) h
  | .setTotpSecret _ _ (some step) => InWindow h step ∧ ReadSecret (· = none) h
  | _ => True

def callSpec (_ : Call) : Spec Op.Ans where
  pre h op := (∀ e ∈ h, ¬ IsWrite e) ∧ op.Allowed h
  post _ _ _ := True

def Ends (_ : Call) (h : History Op.Ans) (r : Result Unit) : Prop :=
  r = .ok () → ∃ e ∈ h, (accepts? e).isSome = true

variable {c : Call} {h : History Op.Ans}

abbrev Unwritten (h : History Op.Ans) : Prop := ∀ e ∈ h, ¬ IsWrite e

theorem unwritten_cons {e : Event Op.Ans}
    (he : ∀ secret clears matched, e.op ≠ .setTotpSecret secret clears matched) (hh : Unwritten h) :
      Unwritten (e :: h) := by
  intro e' he'
  rcases mem_cons.mp he' with rfl | he'
  · rintro ⟨secret, clears, matched, heq⟩
    exact he secret clears matched heq
  · exact hh e' he'

def SessionEnds (h : History Op.Ans) : Result Settings → Prop
  | .ok settings => Unwritten h ∧ ⟨.getSettings, some settings⟩ ∈ h
  | .error _ => True

theorem sat_requireActivePasswordSession (session : Option SessionState) :
    Sat (callSpec c) SessionEnds [] (requireActivePasswordSession session) := by
  refine ⟨⟨nofun, trivial⟩, fun settings _ => ?_⟩
  cases settings with
  | none => trivial
  | some settings =>
    change Sat _ _ _ (if settings.passwordHash = none ∨ session.any (·.passwordVerified) = false
      then _ else _)
    split_ifs
    · trivial
    · exact ⟨unwritten_cons nofun nofun, mem_cons_self⟩

theorem sat_requireTotpVerifiedSession (session : Option SessionState) :
    Sat (callSpec c) SessionEnds [] (requireTotpVerifiedSession session) := by
  refine (sat_requireActivePasswordSession session).bind fun h settings hsettings => ?_
  cases settings with
  | error e => trivial
  | ok settings =>
    change Sat _ _ _ (if session.any (·.totpVerified) = false then _ else _)
    split_ifs
    · trivial
    · exact hsettings

def CodeEnds (h : History Op.Ans) (r : Result Unit) : Prop :=
  r = .ok () → Unwritten h ∧ ∃ e ∈ h, (accepts? e).isSome = true

theorem sat_advanceMatched {matched : Except CodeError (Option ℤ)} (hunwritten : Unwritten h)
    (hwindow : ∀ step, matched = .ok (some step) → InWindow h step)
    (hread : ReadSecret (· ≠ none) h) : Sat (callSpec c) CodeEnds h (advanceMatched matched) := by
  cases matched with
  | error e => exact nofun
  | ok matched =>
    cases matched with
    | none => exact nofun
    | some step =>
      refine ⟨⟨hunwritten, hwindow step rfl, hread⟩, fun updated _ => ?_⟩
      cases updated with
      | none => exact nofun
      | some updated =>
        cases updated with
        | false => exact nofun
        | true => exact fun _ => ⟨unwritten_cons nofun hunwritten, _, mem_cons_self, rfl⟩

theorem sat_acceptCode {settings : Settings} (code : String) (hunwritten : Unwritten h)
    (hread : ⟨.getSettings, some settings⟩ ∈ h) :
    Sat (callSpec c) CodeEnds h (acceptCode L settings code) := by
  unfold acceptCode
  cases hsecret : settings.totpSecret with
  | none => exact nofun
  | some secret =>
    refine ⟨⟨hunwritten, trivial⟩, fun now _ => sat_advanceMatched ?_ ?_ ?_⟩
    · exact unwritten_cons nofun hunwritten
    · exact fun step hverify => ⟨now, mem_cons_self, verifyTotpCode_window hverify⟩
    · exact ⟨settings, mem_cons_of_mem _ hread, by simp [hsecret]⟩

theorem sat_setTotpSecret {secret : Option String} {clears : Bool} {matched : Option ℤ}
    (hunwritten : Unwritten h) (hallowed : (Op.setTotpSecret secret clears matched).Allowed h)
    (haccepted : matched = none → ∃ e ∈ h, (accepts? e).isSome = true) :
    Sat (callSpec c) (Ends c) h (setTotpSecret secret clears matched) := by
  refine ⟨⟨hunwritten, hallowed⟩, fun written _ => ?_⟩
  cases written with
  | none => exact nofun
  | some _ =>
    intro _
    cases matched with
    | none =>
      obtain ⟨e, he, haccepts⟩ := haccepted rfl
      exact ⟨e, mem_cons_of_mem _ he, haccepts⟩
    | some step => exact ⟨_, mem_cons_self, rfl⟩

theorem sat_confirmMatched {current : Settings} {matched : Except CodeError (Option ℤ)}
    (hunwritten : Unwritten h) (hwindow : ∀ step, matched = .ok (some step) → InWindow h step)
    (hread : ReadSecret (· = none) h) :
    Sat (callSpec c) (Ends c) h (confirmMatched current secret matched) := by
  cases matched with
  | error e => cases e <;> exact nofun
  | ok matched =>
    cases matched with
    | none => exact nofun
    | some step => exact sat_setTotpSecret hunwritten ⟨hwindow step rfl, hread⟩ nofun

theorem sat_confirmTotpSetup (session : Option SessionState) (secret code : String) :
    Sat (callSpec c) (Ends c) [] (confirmTotpSetup L session secret code) := by
  refine (sat_requireActivePasswordSession session).bind fun h current hcurrent => ?_
  cases current with
  | error e => exact nofun
  | ok current =>
    obtain ⟨hunwritten, hread⟩ := hcurrent
    change Sat _ _ _ (if current.totpSecret.isSome then _ else _)
    split_ifs with hset
    · exact nofun
    refine ⟨⟨hunwritten, trivial⟩, fun now _ => sat_confirmMatched ?_ ?_ ?_⟩
    · exact unwritten_cons nofun hunwritten
    · exact fun step hverify => ⟨now, mem_cons_self, verifyTotpCode_window hverify⟩
    · exact ⟨current, mem_cons_of_mem _ hread, not_isSome_iff_eq_none.mp hset⟩

theorem sat_program (c : Call) : Sat (callSpec c) (Ends c) [] (program L c) := by
  cases c with
  | confirmTotpSetup session secret code => exact sat_confirmTotpSetup session secret code
  | verifyTotp session code =>
    refine (sat_requireActivePasswordSession session).bind fun h settings hsettings => ?_
    cases settings with
    | error e => exact nofun
    | ok settings =>
      exact (sat_acceptCode code hsettings.1 hsettings.2).mono fun _ _ hr hok => (hr hok).2
  | disableTotp session code =>
    refine (sat_requireTotpVerifiedSession session).bind fun h settings hsettings => ?_
    cases settings with
    | error e => exact nofun
    | ok settings =>
      refine (sat_acceptCode code hsettings.1 hsettings.2).bind fun h' accepted haccepted => ?_
      cases accepted with
      | error e => exact nofun
      | ok _ =>
        obtain ⟨hunwritten, haccepts⟩ := haccepted rfl
        exact sat_setTotpSecret hunwritten trivial fun _ => haccepts

/-! ## Accepted steps -/

def accepted : List Entry → List (ℕ × ℤ)
  | [] => []
  | .accepted tid step :: log => (tid, step) :: accepted log
  | .written :: log => accepted log

def beforeWrite : List Entry → List (ℕ × ℤ)
  | [] => []
  | .accepted _ _ :: log => beforeWrite log
  | .written :: log => accepted log

inductive Effect (tid : ℕ) (w : World) : Event Op.Ans → World → Prop where
  | read {e : Event Op.Ans} (hwrite : ¬ IsWrite e) (haccepts : accepts? e = none)
      (hsettings : ∀ settings, e = ⟨.getSettings, some settings⟩ → settings = w.settings)
      (htime : ∀ now, e = ⟨.time, now⟩ → now = w.clock) : Effect tid w e w
  | failed {secret : Option String} {clears : Bool} {matched : Option ℤ} :
      Effect tid w ⟨.setTotpSecret secret clears matched, none⟩ w
  | advanced {step : ℤ} (hlast : ∀ l ∈ w.settings.totpLastVerifiedStep, l < step) :
      Effect tid w ⟨.tryAdvance step, some true⟩
        { w with
          settings := { w.settings with totpLastVerifiedStep := some step }
          log := .accepted tid step :: w.log }
  | written (secret : Option String) (clears : Bool) (matched : Option ℤ) :
      Effect tid w ⟨.setTotpSecret secret clears matched, some ()⟩
        (w.write tid secret clears matched)

variable {tid : ℕ} {w w' : World} {e : Event Op.Ans}

theorem effect_of_exec {ending : Ending} {r : op.Ans} (hexec : exec tid op ending w = some (w', r))
    :
    Effect tid w ⟨op, r⟩ w' := by
  cases op with
  | getSettings =>
    cases ending <;> cases hexec
    · exact .read nofun rfl (fun settings heq => by cases heq; rfl) nofun
    · exact .read nofun rfl nofun nofun
  | time =>
    cases hexec
    exact .read nofun rfl nofun fun now heq => by cases heq; rfl
  | tryAdvance step =>
    cases ending with
    | raised =>
      cases hexec
      exact .read nofun rfl nofun nofun
    | done =>
      have hexec : w.advance tid step = (w', r) := some.inj hexec
      unfold World.advance at hexec
      split_ifs at hexec with hlast
      · obtain ⟨rfl, rfl⟩ := Prod.mk.inj hexec
        refine .advanced fun l hl => ?_
        rw [mem_def.mp hl] at hlast
        exact of_decide_eq_true hlast
      · obtain ⟨rfl, rfl⟩ := Prod.mk.inj hexec
        exact .read nofun rfl nofun nofun
  | setTotpSecret secret clears matched =>
    cases ending with
    | raised =>
      cases hexec
      exact .failed
    | done =>
      cases hexec
      exact .written secret clears matched

structure Ordered (w : World) : Prop where
  increasing : (accepted w.log).Pairwise fun x y => y.2 < x.2
  covered : ∀ x ∈ accepted w.log, x ∈ beforeWrite w.log ∨ ∃ l ∈ w.settings.totpLastVerifiedStep, x.2
    ≤ l
  unset : w.settings.totpSecret = none → ∀ x ∈ accepted w.log, x ∈ beforeWrite w.log

structure Current (w : World) (h : History Op.Ans) : Prop where
  secret : ∀ settings, ⟨.getSettings, some settings⟩ ∈ h →
    settings.totpSecret = w.settings.totpSecret
  late : ∀ now, ⟨.time, now⟩ ∈ h → ∀ x ∈ beforeWrite w.log, x.2 + 1 < timeStep now

theorem Current.lt_of_inWindow {step : ℤ} (hcurrent : Current w h) (hwindow : InWindow h step)
    {x : ℕ × ℤ} (hx : x ∈ beforeWrite w.log) : x.2 < step := by
  obtain ⟨now, hnow, hstep⟩ := hwindow
  have := hcurrent.late now hnow x hx
  omega

theorem accepted_write (matched : Option ℤ) (log : List Entry) :
    accepted ((matched.map (Entry.accepted tid)).toList ++ log) =
      (matched.map fun step => (tid, step)).toList ++ accepted log := by
  cases matched <;> rfl

theorem Effect.ordered (heffect : Effect tid w e w') (hw : Ordered w) (hcurrent : Current w h)
    (hallowed : e.op.Allowed h) : Ordered w' := by
  cases heffect with
  | read => exact hw
  | failed => exact hw
  | @advanced step hlast =>
    obtain ⟨hwindow, settings, hread, hset⟩ := hallowed
    have hlt : ∀ x ∈ accepted w.log, x.2 < step := by
      intro x hx
      rcases hw.covered x hx with hx | ⟨l, hl, hle⟩
      · exact hcurrent.lt_of_inWindow hwindow hx
      · exact hle.trans_lt (hlast l hl)
    refine ⟨pairwise_cons.mpr ⟨hlt, hw.increasing⟩, fun x hx => .inr ⟨step, rfl, ?_⟩, fun hunset =>
      ?_⟩
    · rcases mem_cons.mp hx with rfl | hx
      · exact le_rfl
      · exact (hlt x hx).le
    · exact absurd ((hcurrent.secret settings hread).trans hunset) hset
  | written secret clears matched =>
    have hlog : accepted (w.write tid secret clears matched).log =
        (matched.map fun step => (tid, step)).toList ++ accepted w.log := accepted_write matched
          w.log
    refine ⟨?_, fun x hx => .inl hx, fun _ x hx => hx⟩
    rw [hlog]
    cases matched with
    | none => exact hw.increasing
    | some step =>
      obtain ⟨hwindow, settings, hread, hunset⟩ := hallowed
      refine pairwise_cons.mpr ⟨fun x hx => ?_, hw.increasing⟩
      have hnone : w.settings.totpSecret = none := (hcurrent.secret settings hread).symm.trans
        hunset
      exact hcurrent.lt_of_inWindow hwindow (hw.unset hnone x hx)

theorem Effect.current (heffect : Effect tid w e w') (hwrite : ¬ IsWrite e) {h' : History Op.Ans}
    (hcurrent : Current w h') : Current w' h' := by
  cases heffect with
  | read => exact hcurrent
  | failed => exact hcurrent
  | advanced hlast => exact ⟨hcurrent.secret, hcurrent.late⟩
  | written secret clears matched => exact absurd ⟨secret, clears, matched, rfl⟩ hwrite

theorem Effect.current_self (heffect : Effect tid w e w') (hwrite : ¬ IsWrite e)
    (hlate : e.op = .time → ∀ x ∈ beforeWrite w.log, x.2 + 1 < timeStep w.clock)
    (hcurrent : Current w h) : Current w' (e :: h) := by
  obtain ⟨hsecret, hlateAll⟩ := heffect.current hwrite hcurrent
  cases heffect with
  | read _ _ hsettings htime =>
    refine ⟨fun settings hmem => ?_, fun now hmem => ?_⟩
    · rcases mem_cons.mp hmem with heq | hmem
      · rw [hsettings settings heq.symm]
      · exact hsecret settings hmem
    · rcases mem_cons.mp hmem with heq | hmem
      · rw [htime now heq.symm]
        exact hlate (by rw [← heq])
      · exact hlateAll now hmem
  | failed => exact absurd ⟨_, _, _, rfl⟩ hwrite
  | advanced hlast =>
    exact ⟨fun settings hmem => hsecret settings ((mem_cons.mp hmem).resolve_left nofun),
      fun now hmem => hlateAll now ((mem_cons.mp hmem).resolve_left nofun)⟩
  | written secret clears matched => exact absurd ⟨secret, clears, matched, rfl⟩ hwrite

theorem Effect.recorded (heffect : Effect tid w e w') {step : ℤ} (haccepts : accepts? e = some step)
    :
    (tid, step) ∈ accepted w'.log := by
  cases heffect with
  | read _ hnone => cases hnone.symm.trans haccepts
  | failed => cases haccepts
  | advanced hlast =>
    cases haccepts
    exact mem_cons_self
  | written secret clears matched =>
    obtain rfl : matched = some step := haccepts
    exact mem_cons_self

theorem Effect.accepted_subset (heffect : Effect tid w e w') : accepted w.log ⊆ accepted
    w'.log := by
  cases heffect with
  | read => exact List.Subset.refl _
  | failed => exact List.Subset.refl _
  | advanced hlast => exact subset_cons_self _ _
  | written secret clears matched =>
    have hlog : accepted (w.write tid secret clears matched).log =
        (matched.map fun step => (tid, step)).toList ++ accepted w.log := accepted_write matched
          w.log
    rw [hlog]
    exact subset_append_right _ _

/-! ## Whole runs -/

def Working (t : Thread Op.Ans (Result Unit) Call) : Bool :=
  !t.history.isEmpty && t.prog.isCall

/-- A good time: a secret is written while no other request is at work, and the clock is read when
the window is past the steps accepted before the last write. -/
def Op.Spaced (p : State) (tid : ℕ) : Op → Prop
  | .setTotpSecret _ _ _ => ∀ x ∈ p.threads.entries, x.1 ≠ tid → Working x.2 = false
  | .time => ∀ x ∈ beforeWrite p.shared.log, x.2 + 1 < timeStep p.shared.clock
  | .getSettings => True
  | .tryAdvance _ => True

instance (p : State) (tid : ℕ) : ∀ op : Op, Decidable (op.Spaced p tid)
  | .setTotpSecret _ _ _ =>
    inferInstanceAs (Decidable (∀ x ∈ p.threads.entries, x.1 ≠ tid → Working x.2 = false))
  | .time =>
    inferInstanceAs (Decidable (∀ x ∈ beforeWrite p.shared.log, x.2 + 1 < timeStep p.shared.clock))
  | .getSettings => inferInstanceAs (Decidable True)
  | .tryAdvance _ => inferInstanceAs (Decidable True)

def Spaced (p : State) : Action Call Ending ℕ → Prop
  | .resume tid _ => ∀ op ∈ p.next tid, op.Spaced p tid
  | .spawn _ _ => True
  | .environment _ => True

instance (p : State) : ∀ a, Decidable (Spaced p a)
  | .resume tid _ => inferInstanceAs (Decidable (∀ op ∈ p.next tid, op.Spaced p tid))
  | .spawn _ _ => inferInstanceAs (Decidable True)
  | .environment _ => inferInstanceAs (Decidable True)

variable {L : Library}

theorem upholds : Upholds (system L) (fun _ _ => True) (fun _ => True) (fun _ _ => True) callSpec
    Ends where
  spawn {_ _ c} _ _ := ⟨trivial, sat_program c⟩
  exec _ _ _ _ _ _ _ := ⟨trivial, trivial, trivial⟩
  stable _ _ _ _ _ _ _ := trivial
  environment _ _ _ := ⟨trivial, fun _ _ => trivial⟩

structure Discipline (p : State) : Prop where
  verified : Verified (fun _ => True) (fun _ _ => True) callSpec Ends p
  ordered : Ordered p.shared
  current : ∀ {tid t}, p.threads.lookup tid = some t → Working t = true → Current p.shared t.history
  recorded : ∀ {tid}, ∀ e ∈ p.history tid, ∀ step, accepts? e = some step →
    (tid, step) ∈ accepted p.shared.log

variable {p p' : State}

theorem Discipline.current_of_call (hp : Discipline p) {t : Thread Op.Ans (Result Unit) Call}
    {k : op.Ans → M (Result Unit)} (ht : p.threads.lookup tid = some t)
    (hprog : t.prog = .call op k) :
    Current p.shared t.history := by
  cases hh : t.history with
  | nil => exact ⟨nofun, nofun⟩
  | cons e h =>
    rw [← hh]
    refine hp.current ht ?_
    rw [Working, hh, hprog]
    rfl

theorem working_of_write {t : Thread Op.Ans (Result Unit) Call} {r : op.Ans} {tid' : ℕ}
    (hspaced : op.Spaced p tid) (hwrite : IsWrite ⟨op, r⟩) (ht : p.threads.lookup tid' = some t)
    (htid : tid' ≠ tid) : Working t = false := by
  obtain ⟨secret, clears, matched, rfl⟩ := hwrite
  exact hspaced ⟨tid', t⟩ (AList.mem_lookup_iff.mp ht) htid

theorem Discipline.resume {ending : Ending} (hp : Discipline p)
    (hok : Spaced p (.resume tid ending))
    (hverified : Verified (fun _ => True) (fun _ _ => True) callSpec Ends p')
    (hstep : (system L).step p (.resume tid ending) = some p') : Discipline p' := by
  obtain ⟨t, op, k, r, ht, hprog, hexec, hthreads⟩ := System.step_resume hstep
  have heffect := effect_of_exec hexec
  have hspaced := hok op (Pool.next_eq ht hprog)
  have hcurrent := hp.current_of_call ht hprog
  have hpre := hp.verified.pre ht hprog
  refine ⟨hverified, heffect.ordered hp.ordered hcurrent hpre.2, fun {tid' t'} ht' hworking => ?_,
    fun {tid'} x hx step haccepts => ?_⟩
  · by_cases htid : tid' = tid
    · subst htid
      obtain rfl := some.inj ((AList.lookup_insert _).symm.trans (hthreads ▸ ht'))
      -- it goes on, so this was not its write
      have hcall : ∃ op' k', k r = .call op' k' := by
        cases hk : k r with
        | ret a =>
          rw [Working, hk] at hworking
          cases hworking
        | call op' k' => exact ⟨op', k', rfl⟩
      obtain ⟨op', k', hk⟩ := hcall
      have hwrite := (hverified.pre ht' hk).1 _ mem_cons_self
      refine heffect.current_self hwrite (fun heq => ?_) hcurrent
      obtain rfl : op = .time := heq
      exact hspaced
    · rw [hthreads, AList.lookup_insert_ne htid] at ht'
      refine heffect.current (fun hwrite => ?_) (hp.current ht' hworking)
      exact Bool.false_ne_true ((working_of_write hspaced hwrite ht' htid).symm.trans hworking)
  · obtain ⟨-, op₁, -, r₁, -, -, hexec₁, hself, hothers⟩ := System.history_of_resume hstep
    by_cases htid : tid' = tid
    · subst htid
      rw [hself] at hx
      rcases mem_cons.mp hx with rfl | hx
      · exact (effect_of_exec hexec₁).recorded haccepts
      · exact heffect.accepted_subset (hp.recorded x hx step haccepts)
    · rw [hothers tid' htid] at hx
      exact heffect.accepted_subset (hp.recorded x hx step haccepts)

theorem Discipline.step {a : Action Call Ending ℕ} (hp : Discipline p) (hok : Spaced p a)
    (hstep : (system L).step p a = some p') : Discipline p' := by
  have hverified := upholds.step hp.verified trivial hstep
  cases a with
  | resume tid ending => exact hp.resume hok hverified hstep
  | spawn tid c =>
    have hhistory := System.history_of_step hstep nofun
    obtain ⟨-, rfl⟩ := System.step_spawn hstep
    refine ⟨hverified, hp.ordered, fun {tid' t'} ht' hworking => ?_, fun {tid'} e he => ?_⟩
    · by_cases htid : tid' = tid
      · subst htid
        obtain rfl := some.inj ((AList.lookup_insert _).symm.trans ht')
        cases hworking
      · exact hp.current ((AList.lookup_insert_ne htid).symm.trans ht') hworking
    · rw [hhistory tid'] at he
      exact hp.recorded e he
  | environment seconds =>
    have hhistory := System.history_of_step hstep nofun
    obtain ⟨hw', hthreads⟩ := System.step_environment hstep
    have hsettings : p'.shared.settings = p.shared.settings := by rw [← some.inj hw']
    have hlog : p'.shared.log = p.shared.log := by rw [← some.inj hw']
    refine ⟨hverified, ?_, fun {tid' t'} ht' hworking => ?_, fun {tid'} e he => ?_⟩
    · exact ⟨hlog ▸ hp.ordered.increasing, hlog ▸ hsettings ▸ hp.ordered.covered,
        hlog ▸ hsettings ▸ hp.ordered.unset⟩
    · obtain ⟨hsecret, hlate⟩ := hp.current (hthreads ▸ ht') hworking
      exact ⟨hsettings ▸ hsecret, hlog ▸ hlate⟩
    · rw [hhistory tid'] at he
      rw [hlog]
      exact hp.recorded e he

theorem discipline_start {w : World} (hlog : w.log = []) : Discipline ⟨w, ∅⟩ where
  verified := .start trivial
  ordered := by
    refine ⟨?_, ?_, ?_⟩ <;> rw [hlog]
    · exact .nil
    · exact nofun
    · exact fun _ => nofun
  current ht := by cases (AList.lookup_empty _).symm.trans ht
  recorded e he := by cases he

/-- **A code works once**: in every run whose operations come at a good time, the accepted steps are
strictly increasing, and every request that succeeded has one. -/
theorem totp_steps_increase (L : Library) {w : World} (hlog : w.log = [])
    {as : List (Action Call Ending ℕ)} {p : State} (hok : Along (system L).step Spaced as ⟨w, ∅⟩)
    (hrun : run (system L).step as ⟨w, ∅⟩ = some p) :
    (accepted p.shared.log).Pairwise (fun x y => y.2 < x.2) ∧
      ∀ tid c, p.outcome tid = some (c, .ok ()) → ∃ step, (tid, step) ∈ accepted p.shared.log := by
  have hp : Discipline p := run_invariant_along (fun hs hoks hstep => hs.step hoks hstep)
    (discipline_start hlog) hok hrun
  refine ⟨hp.ordered.increasing, fun tid c hout => ?_⟩
  obtain ⟨e, he, haccepts⟩ := hp.verified.result hout rfl
  obtain ⟨step, hstep⟩ := isSome_iff_exists.mp haccepts
  exact ⟨step, hp.recorded e he step hstep⟩

def sixDigits : Library where
  isdigit ch := ch.isDigit
  isspace ch := ch = ' '
  upper text := text
  b32decodes _ := true
  codeAt _ time :=
    if time = 60 then "000002" else if time = 150 then "000005" else "999999"

def passwordOnly : World := ⟨⟨some "hash", none, none⟩, 60, []⟩

def verifiedSession : Option SessionState := some ⟨true, true⟩

def confirmWaitVerify : List (Action Call Ending ℕ) :=
  [.spawn 0 (.confirmTotpSetup verifiedSession "ABCDEFGH" "000002"), .resume 0 .done, .resume 0
    .done,
    .resume 0 .done, .environment 90,
    .spawn 1 (.verifyTotp verifiedSession "000005"), .resume 1 .done, .resume 1 .done, .resume 1
      .done]

theorem totp_steps_increase_confirmWaitVerify : ∃ p,
    run (system sixDigits).step confirmWaitVerify ⟨passwordOnly, ∅⟩ = some p ∧
      accepted p.shared.log = [(1, 5), (0, 2)] ∧
      (accepted p.shared.log).Pairwise (fun x y => y.2 < x.2) := by
  obtain ⟨p, hrun, hlog⟩ : ∃ p,
      run (system sixDigits).step confirmWaitVerify ⟨passwordOnly, ∅⟩ = some p ∧
      accepted p.shared.log = [(1, 5), (0, 2)] := by
    decide +kernel
  have hincrease := totp_steps_increase sixDigits rfl (by decide +kernel) hrun
  exact ⟨p, hrun, hlog, hincrease.1⟩

def confirmVerify : List (Action Call Ending ℕ) :=
  [.spawn 0 (.confirmTotpSetup verifiedSession "ABCDEFGH" "000002"), .resume 0 .done, .resume 0
    .done,
    .resume 0 .done,
    .spawn 1 (.verifyTotp verifiedSession "000002"), .resume 1 .done, .resume 1 .done, .resume 1
      .done]

/-- **The code that has confirmed the setup is accepted again**, for the same step: the write of the
secret leaves no last verified step. -/
theorem confirmed_code_verified : ∃ p,
    run (system sixDigits).step confirmVerify ⟨passwordOnly, ∅⟩ = some p ∧
      p.outcome 0 = some (.confirmTotpSetup verifiedSession "ABCDEFGH" "000002", .ok ()) ∧
      p.outcome 1 = some (.verifyTotp verifiedSession "000002", .ok ()) ∧
      accepted p.shared.log = [(1, 2), (0, 2)] := by
  decide +kernel

end CodexOctopus.Totp
