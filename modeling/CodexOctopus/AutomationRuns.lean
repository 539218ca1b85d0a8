import CodexOctopus.DispatchPlan
import CodexOctopus.Threads

/-!
# The scheduled runs of automations

`run_due_jobs` of `app/modules/automations/service.py` after the manual runs, on any number of
replicas: a job whose slot has come gets a cycle, the plan of its accounts, and an account whose
time has come is claimed by a row with a unique `slot_key` and executed.

The cycle and the claim are commits of their own, so a replica may have read what another one is
about to change. What keeps them apart is the `IntegrityError` of the second insert: a row that was
executed stays until its job is deleted, and then no claim of the job succeeds any more
(`scheduled_runs_once`). A call that raises is one that is not resumed.
-/

namespace CodexOctopus.Automations

open List Interaction

structure AutomationJob where
  id : String
  enabled : Bool
  schedule : Schedule
  zone : Zone
  scheduleThresholdMinutes : ℤ

/-- `AutomationRunCycle` with the accounts of its plan. -/
structure RunCycle where
  cycleKey : String
  jobId : String
  accounts : List (String × ℤ)

structure Run where
  jobId : String
  slotKey : String
  cycleKey : String
  scheduledFor : ℤ
  accountId : Option String

def Run.slot (run : Run) : String × String := (run.jobId, run.slotKey)

/-- The tables, the ids of the jobs that were deleted (ids are not drawn twice), and the runs that
were executed, the latest first. -/
structure Tables where
  jobs : List AutomationJob
  cycles : List RunCycle
  runs : List Run
  deleted : List String
  executed : List Run

namespace Runs

inductive Op : Type where
  | listEnabledJobs
  | getRunCycle (cycleKey : String)
  | resolveJobAccountIds (jobId : String)
  | insertRunCycle (cycle : RunCycle)
  | listRunsForCycleKey (cycleKey : String)
  | claimRun (run : Run)
  | executeClaimedRun (run : Run)

abbrev Op.Ans : Op → Type
  | .listEnabledJobs => List AutomationJob
  | .getRunCycle _ => Option RunCycle
  | .resolveJobAccountIds _ => List String
  | .insertRunCycle _ => Unit
  | .listRunsForCycleKey _ => List Run
  | .claimRun _ => Bool
  | .executeClaimedRun _ => Unit

abbrev M (α : Type) : Type := Prog Op Op.Ans α

/-- SHA-1 in hexadecimal, `datetime.isoformat`, and the generator seeded for a job and a slot. -/
structure Given where
  sha1 : String → String
  isoformat : ℤ → String
  rng : String → ℤ → Rng

variable (given : Given) (now : ℤ)

/-- `_scheduled_slot_key` of an account. -/
def scheduledSlotKey (jobId accountId : String) (dueSlot : ℤ) : String :=
  let seed := jobId ++ ":" ++ given.isoformat dueSlot ++ ":" ++ accountId
  "scheduled:" ++ jobId ++ ":" ++ String.ofList ((given.sha1 seed).toList.take 20)

def scheduledCycleKey (jobId : String) (dueSlot : ℤ) : String :=
  "scheduled:" ++ jobId ++ ":" ++ given.isoformat dueSlot

/-- `_get_or_create_scheduled_cycle`; nothing is its `LookupError`. -/
def getOrCreateScheduledCycle (job : AutomationJob) (dueSlot : ℤ) : M (Option RunCycle) := do
  let cycleKey := scheduledCycleKey given job.id dueSlot
  let existing : Option RunCycle ← Prog.perform (Op.getRunCycle cycleKey)
  match existing with
  | some cycle => return some cycle
  | none =>
    let accountIds : List String ← Prog.perform (Op.resolveJobAccountIds job.id)
    let plan := buildDispatchPlan (given.rng job.id dueSlot) dueSlot accountIds
      (max 0 job.scheduleThresholdMinutes)
    Prog.perform (Op.insertRunCycle ⟨cycleKey, job.id, plan⟩)
    Prog.perform (Op.getRunCycle cycleKey)

/-- The loop over the accounts of a cycle, and the number of runs that were executed. -/
def runAccounts (job : AutomationJob) (dueSlot : ℤ) :
    List String → List (String × ℤ) → ℕ → M ℕ
  | _, [], executed => return executed
  | existing, (accountId, scheduledFor) :: accounts, executed =>
    if accountId ∈ existing ∨ scheduledFor > now then
      runAccounts job dueSlot existing accounts executed
    else do
      let run : Run := ⟨job.id, scheduledSlotKey given job.id accountId dueSlot,
        scheduledCycleKey given job.id dueSlot, scheduledFor, some accountId⟩
      let claimed : Bool ← Prog.perform (Op.claimRun run)
      if claimed then do
        Prog.perform (Op.executeClaimedRun run)
        runAccounts job dueSlot (accountId :: existing) accounts (executed + 1)
      else runAccounts job dueSlot existing accounts executed

def runJobs : List AutomationJob → ℕ → M (Option ℕ)
  | [], executed => return some executed
  | job :: jobs, executed =>
    match job.schedule.computeDueSlotForCurrentLocalDayUtc job.zone now with
    | none => runJobs jobs executed
    | some dueSlot => do
      let cycle ← getOrCreateScheduledCycle given job dueSlot
      match cycle with
      | none => return none
      | some cycle => do
        let runs : List Run ←
          Prog.perform (Op.listRunsForCycleKey (scheduledCycleKey given job.id dueSlot))
        let executed ← runAccounts given now job dueSlot (runs.filterMap Run.accountId)
          cycle.accounts executed
        runJobs jobs executed

def runDueJobs : M (Option ℕ) := do
  let jobs : List AutomationJob ← Prog.perform Op.listEnabledJobs
  runJobs given now jobs 0

/-! ## The replicas -/

/-- What comes from outside: the accounts that are eligible, and whether the one that a row refers
to exists. -/
structure Input where
  accountIds : List String
  accountExists : Bool

def claimRun (run : Run) (accountExists : Bool) (w : Tables) : Tables × Bool :=
  if (∃ job ∈ w.jobs, job.id = run.jobId) ∧ (∀ r ∈ w.runs, r.slotKey ≠ run.slotKey) ∧
      accountExists = true then
    ({ w with runs := run :: w.runs }, true)
  else (w, false)

def exec (w : Tables) : (op : Op) → Input → Tables × op.Ans
  | .listEnabledJobs, _ => (w, w.jobs.filter AutomationJob.enabled)
  | .getRunCycle cycleKey, _ => (w, w.cycles.find? (·.cycleKey = cycleKey))
  | .resolveJobAccountIds _, input => (w, input.accountIds)
  | .insertRunCycle cycle, _ =>
    if (∃ job ∈ w.jobs, job.id = cycle.jobId) ∧ ∀ c ∈ w.cycles, c.cycleKey ≠ cycle.cycleKey then
      ({ w with cycles := cycle :: w.cycles }, ())
    else (w, ())
  | .listRunsForCycleKey cycleKey, _ => (w, w.runs.filter (·.cycleKey = cycleKey))
  | .claimRun run, input => claimRun run input.accountExists w
  | .executeClaimedRun run, _ => ({ w with executed := run :: w.executed }, ())

/-- What others do to the tables. A job takes its cycles and runs with it when it is deleted; of a
run that stays, everything but its keys may change. -/
inductive Change : Type where
  | insertRun (run : Run) (accountExists : Bool)
  | updateRuns (accountId : Run → Option String)
  | createJob (job : AutomationJob)
  | updateJobs (f : AutomationJob → AutomationJob)
  | deleteJob (jobId : String)

def change (w : Tables) : Change → Option Tables
  | .insertRun run accountExists => some (claimRun run accountExists w).1
  | .updateRuns accountId =>
    some { w with runs := w.runs.map fun r => { r with accountId := accountId r } }
  | .createJob job =>
    if job.id ∈ w.deleted then none else some { w with jobs := job :: w.jobs }
  | .updateJobs f => some { w with jobs := w.jobs.map fun j => { f j with id := j.id } }
  | .deleteJob jobId => some { w with
      jobs := w.jobs.filter (·.id ≠ jobId)
      cycles := w.cycles.filter (·.jobId ≠ jobId)
      runs := w.runs.filter (·.jobId ≠ jobId)
      deleted := jobId :: w.deleted }

/-- A call of `run_due_jobs` is the moment that it works with. -/
def system : System Tables Op Op.Ans (Option ℕ) ℤ Input Change where
  exec _ op input w := some (exec w op input)
  program := runDueJobs given
  environment := change

abbrev State : Type := Pool Tables Op.Ans (Option ℕ) ℤ

/-! ## At most once -/

def callSpec : Spec Op.Ans where
  pre h
    | .executeClaimedRun run => h.head? = some ⟨.claimRun run, true⟩
    | _ => True
  post _ _ _ := True

abbrev Kept {α : Type} (h : History Op.Ans) (p : M α) : Prop := Sat callSpec (fun _ _ => True) h p

variable {given now} {w w' : Tables} {p p' : State} {tid : ℕ} {run : Run}

theorem kept_runAccounts {job : AutomationJob} {dueSlot : ℤ} {accounts : List (String × ℤ)} :
    ∀ {existing executed h},
      Kept h (runAccounts given now job dueSlot existing accounts executed) := by
  induction accounts with
  | nil => exact trivial
  | cons account accounts ih =>
    intro existing executed h
    rw [runAccounts]
    split_ifs
    · exact ih
    · refine ⟨trivial, fun claimed _ => ?_⟩
      cases claimed with
      | false => exact ih
      | true => exact ⟨rfl, fun _ _ => ih⟩

theorem kept_runJobs {jobs : List AutomationJob} :
    ∀ {executed h}, Kept h (runJobs given now jobs executed) := by
  induction jobs with
  | nil => exact trivial
  | cons job jobs ih =>
    intro executed h
    rw [runJobs]
    split
    · exact ih
    · refine Sat.bind (P := fun _ _ => True) ?_ fun h cycle _ => ?_
      · refine ⟨trivial, fun existing _ => ?_⟩
        cases existing with
        | some cycle => exact trivial
        | none => exact ⟨trivial, fun _ _ => ⟨trivial, fun _ _ => ⟨trivial, fun _ _ => trivial⟩⟩⟩
      · cases cycle with
        | none => exact trivial
        | some cycle =>
          exact ⟨trivial, fun _ _ => kept_runAccounts.bind fun _ _ _ => ih⟩

theorem upholds : Upholds (system given) (fun _ _ => True) (fun _ => True) (fun _ _ => True)
    (fun _ => callSpec) (fun _ _ _ => True) where
  spawn _ _ := ⟨trivial, trivial, fun _ _ => kept_runJobs⟩
  exec _ _ _ _ _ _ _ := ⟨trivial, trivial, trivial⟩
  stable _ _ _ _ _ _ _ := trivial
  environment _ _ _ := ⟨trivial, fun _ _ => trivial⟩

abbrev Disciplined (p : State) : Prop :=
  Verified (fun _ => True) (fun _ _ => True) (fun _ : ℤ => callSpec) (fun _ _ _ => True) p

/-- No claim of the slot succeeds any more. -/
def Spent (w : Tables) (slot : String × String) : Prop :=
  slot ∈ w.runs.map Run.slot ∨ slot.1 ∈ w.deleted

/-- A change of the tables that executes nothing. -/
structure Keeps (w w' : Tables) : Prop where
  executed : w'.executed = w.executed
  spent : ∀ {slot}, Spent w slot → Spent w' slot
  jobs : (∀ job ∈ w.jobs, job.id ∉ w.deleted) → ∀ job ∈ w'.jobs, job.id ∉ w'.deleted

theorem keeps_rfl : Keeps w w := ⟨rfl, fun h => h, fun h => h⟩

theorem keeps_claimRun {accountExists : Bool} : Keeps w (claimRun run accountExists w).1 := by
  unfold claimRun
  split_ifs
  · exact ⟨rfl, fun h => h.imp_left (mem_cons_of_mem _), fun h => h⟩
  · exact keeps_rfl

theorem keeps_exec {op : Op} {input : Input} (hop : ∀ run, op ≠ .executeClaimedRun run) :
    Keeps w (exec w op input).1 := by
  cases op with
  | claimRun run => exact keeps_claimRun
  | executeClaimedRun run => exact absurd rfl (hop run)
  | insertRunCycle cycle =>
    unfold exec
    dsimp only
    split_ifs
    · exact ⟨rfl, fun h => h, fun h => h⟩
    · exact keeps_rfl
  | listEnabledJobs => exact keeps_rfl
  | getRunCycle cycleKey => exact keeps_rfl
  | resolveJobAccountIds jobId => exact keeps_rfl
  | listRunsForCycleKey cycleKey => exact keeps_rfl

theorem keeps_change {c : Change} (h : change w c = some w') : Keeps w w' := by
  cases c with
  | insertRun run accountExists =>
    cases h
    exact keeps_claimRun
  | updateRuns accountId =>
    cases h
    refine ⟨rfl, fun h => h.imp_left fun hmem => ?_, fun h => h⟩
    rwa [map_map]
  | createJob job =>
    obtain ⟨hnew, h⟩ := Option.ite_none_left_eq_some.mp h
    cases h
    exact ⟨rfl, fun h => h, fun h => forall_mem_cons.mpr ⟨hnew, h⟩⟩
  | updateJobs f =>
    cases h
    exact ⟨rfl, fun h => h, fun h => forall_mem_map.mpr h⟩
  | deleteJob jobId =>
    cases h
    refine ⟨rfl, fun {slot} h => ?_, fun h job hjob => ?_⟩
    · -- the row of the slot is gone only if the job is
      by_cases hslot : slot.1 = jobId
      · exact .inr (mem_cons.mpr (.inl hslot))
      · refine h.imp (fun hmem => ?_) (mem_cons_of_mem _)
        obtain ⟨r, hr, rfl⟩ := mem_map.mp hmem
        exact mem_map.mpr ⟨r, mem_filter.mpr ⟨hr, decide_eq_true hslot⟩, rfl⟩
    · obtain ⟨hjob, hne⟩ := mem_filter.mp hjob
      exact not_or.mpr ⟨by simpa using hne, h job hjob⟩ ∘ mem_cons.mp

/-- **The slots that were executed** are different ones, and so are those that `holds` says a thread
has claimed and not executed yet. -/
structure Once (w : Tables) (holds : ℕ → Run → Prop) : Prop where
  jobs : ∀ job ∈ w.jobs, job.id ∉ w.deleted
  spent : ∀ slot ∈ w.executed.map Run.slot, Spent w slot
  nodup : (w.executed.map Run.slot).Nodup
  held : ∀ {tid run}, holds tid run → Spent w run.slot ∧ run.slot ∉ w.executed.map Run.slot
  apart : ∀ {tid tid' run run'}, holds tid run → holds tid' run' → run.slot = run'.slot → tid = tid'

namespace Once

variable {holds holds' : ℕ → Run → Prop}

theorem quiet (hw : Once w holds) (hkeeps : Keeps w w')
    (hholds : ∀ {tid run}, holds' tid run → holds tid run) : Once w' holds' where
  jobs := hkeeps.jobs hw.jobs
  spent slot hslot := hkeeps.spent (hw.spent slot (hkeeps.executed ▸ hslot))
  nodup := hkeeps.executed.symm ▸ hw.nodup
  held h := by
    rw [hkeeps.executed]
    exact (hw.held (hholds h)).imp_left hkeeps.spent
  apart h h' := hw.apart (hholds h) (hholds h')

/-- A claim succeeds only for a slot that was neither claimed nor executed. -/
theorem claim {accountExists : Bool} (hw : Once w holds)
    (hclaim : (claimRun run accountExists w).2 = true) (tid : ℕ)
    (hholds : ∀ {tid' run'}, holds' tid' run' → tid' = tid ∧ run' = run ∨ holds tid' run') :
    Once (claimRun run accountExists w).1 holds' := by
  have hkeeps : Keeps w (claimRun run accountExists w).1 := keeps_claimRun
  have hfree : ¬ Spent w run.slot := by
    unfold claimRun at hclaim
    split_ifs at hclaim with hnew
    obtain ⟨⟨job, hjob, hid⟩, hkey, -⟩ := hnew
    rintro (hmem | hdeleted)
    · obtain ⟨r, hr, hslot⟩ := mem_map.mp hmem
      exact hkey r hr (congrArg Prod.snd hslot)
    · exact hw.jobs job hjob (hid ▸ hdeleted)
  have hnow : Spent (claimRun run accountExists w).1 run.slot := by
    unfold claimRun at hclaim ⊢
    split_ifs at hclaim ⊢
    exact .inl mem_cons_self
  have hother {tid' run'} (h : holds tid' run') : run'.slot ≠ run.slot :=
    fun hslot => hfree (hslot ▸ (hw.held h).1)
  have hrest : Once (claimRun run accountExists w).1 holds := hw.quiet hkeeps id
  refine { hrest with held := fun h => ?_, apart := fun h h' hslot => ?_ }
  · rw [hkeeps.executed]
    rcases hholds h with ⟨rfl, rfl⟩ | h
    · exact ⟨hnow, fun hmem => hfree (hw.spent _ hmem)⟩
    · exact (hw.held h).imp_left hkeeps.spent
  · rcases hholds h with ⟨rfl, rfl⟩ | h <;> rcases hholds h' with ⟨rfl, rfl⟩ | h'
    · rfl
    · exact absurd hslot.symm (hother h')
    · exact absurd hslot (hother h)
    · exact hw.apart h h' hslot

theorem execute (hw : Once w holds) (hheld : holds tid run)
    (hholds : ∀ {tid' run'}, holds' tid' run' → tid' ≠ tid ∧ holds tid' run') :
    Once { w with executed := run :: w.executed } holds' := by
  obtain ⟨hspent, hfresh⟩ := hw.held hheld
  refine ⟨hw.jobs, forall_mem_cons.mpr ⟨hspent, hw.spent⟩, nodup_cons.mpr ⟨hfresh, hw.nodup⟩,
    fun h => ?_, fun h h' => hw.apart (hholds h).2 (hholds h').2⟩
  obtain ⟨hne, h⟩ := hholds h
  refine ⟨(hw.held h).1, fun hmem => ?_⟩
  rcases mem_cons.mp hmem with hslot | hmem
  · exact hne (hw.apart h hheld hslot)
  · exact (hw.held h).2 hmem

end Once

/-- The thread has claimed the run, and has done nothing since. -/
def Holds (p : State) (tid : ℕ) (run : Run) : Prop :=
  (p.history tid).head? = some ⟨.claimRun run, true⟩

theorem claimed_inj {run run' : Run} {claimed : Bool}
    (h : (⟨.claimRun run, claimed⟩ : Event Op.Ans) = ⟨.claimRun run', true⟩) :
    run' = run ∧ claimed = true := by
  cases h
  exact ⟨rfl, rfl⟩

theorem once_step {a : Action ℤ Input Change} (hp : Once p.shared (Holds p))
    (hdisciplined : Disciplined p) (h : (system given).step p a = some p') :
    Once p'.shared (Holds p') := by
  cases a with
  | spawn tid c =>
    have hsame := System.history_of_step h (by simp)
    obtain ⟨-, rfl⟩ := System.step_spawn h
    exact hp.quiet keeps_rfl fun hholds => by rwa [Holds, hsame] at hholds
  | environment c =>
    have hsame := System.history_of_step h (by simp)
    exact hp.quiet (keeps_change (System.step_environment h).1) fun hholds => by
      rwa [Holds, hsame] at hholds
  | resume tid input =>
    obtain ⟨t, op, k, r, ht, hprog, hexec, hself, hothers⟩ := System.history_of_resume h
    obtain ⟨hshared, rfl⟩ := Prod.mk.inj (Option.some.inj hexec)
    -- a thread holds what it has claimed in this step, or what it held before
    have hholds {tid' run'} (hholds : Holds p' tid' run') :
        tid' = tid ∧ (⟨op, (exec p.shared op input).2⟩ : Event Op.Ans) = ⟨.claimRun run', true⟩ ∨
          tid' ≠ tid ∧ Holds p tid' run' := by
      by_cases htid : tid' = tid
      · subst htid
        rw [Holds, hself] at hholds
        exact .inl ⟨rfl, Option.some.inj hholds⟩
      · rw [Holds, hothers tid' htid] at hholds
        exact .inr ⟨htid, hholds⟩
    have hquiet (hop : ∀ run, op ≠ .executeClaimedRun run) (hans : ∀ run,
        (⟨op, (exec p.shared op input).2⟩ : Event Op.Ans) ≠ ⟨.claimRun run, true⟩) :
        Once p'.shared (Holds p') :=
      hp.quiet (hshared ▸ keeps_exec hop) fun h => ((hholds h).resolve_left fun h => hans _ h.2).2
    cases op with
    | claimRun run =>
      by_cases hclaim : (claimRun run input.accountExists p.shared).2 = true
      · rw [← hshared]
        exact hp.claim hclaim tid fun h =>
          (hholds h).imp (fun h => ⟨h.1, (claimed_inj h.2).1⟩) And.right
      · exact hquiet nofun fun run' hevent => hclaim (claimed_inj hevent).2
    | executeClaimedRun run =>
      rw [← hshared]
      refine hp.execute ?_ fun h => (hholds h).resolve_left fun h => nomatch h.2
      rw [Holds, Pool.history_eq ht]
      exact hdisciplined.pre ht hprog
    | _ => exact hquiet nofun nofun

/-- **Scheduled runs are executed at most once.** However the calls of `run_due_jobs` on all
replicas and the changes of others are interleaved, no slot of a job is executed twice, and there is
a row for each slot that was executed, unless the job is deleted. -/
theorem scheduled_runs_once (given : Given) (jobs : List AutomationJob) (cycles : List RunCycle)
    (runs : List Run) (acts : List (Action ℤ Input Change)) (p : State)
    (hrun : Lts.run (system given).step acts ⟨⟨jobs, cycles, runs, [], []⟩, ∅⟩ = some p) :
    (p.shared.executed.map Run.slot).Nodup ∧
      ∀ run ∈ p.shared.executed,
        run.slot ∈ p.shared.runs.map Run.slot ∨ run.jobId ∈ p.shared.deleted := by
  have hinv : Once p.shared (Holds p) ∧ Disciplined p := by
    refine Lts.run_invariant
      (fun {s _ _} (hs : Once s.shared (Holds s) ∧ Disciplined s) hstep =>
        ⟨once_step hs.1 hs.2 hstep, upholds.step hs.2 trivial hstep⟩) ⟨?_, .start trivial⟩ hrun
    exact ⟨fun _ _ => not_mem_nil, nofun, nodup_nil, nofun, nofun⟩
  exact ⟨hinv.1.nodup, fun run hmem => hinv.1.spent _ (mem_map_of_mem hmem)⟩

def plain : Given where
  sha1 := id
  isoformat := toString
  rng _ _ := {
    sample := fun l k => l.take k
    shuffle := fun _ l => l
    choice := fun _ l => l.headI
    sample_subperm := fun _ => (take_sublist _ _).subperm
    length_sample := fun h => length_take_of_le h
    shuffle_perm := fun _ l => .refl l
    choice_mem := fun _ {l} h => by
      cases l with
      | nil => contradiction
      | cons a l => exact mem_cons_self }

/-- Two replicas see a slot at the same time, and both claim it. -/
def replicaActs : List (Action ℤ Input Change) :=
  .spawn 0 (36 * 60 * minute) :: .spawn 1 (36 * 60 * minute) ::
    (replicate 7 [.resume 0 ⟨["a"], true⟩, .resume 1 ⟨["a"], true⟩]).flatten ++
      [.resume 0 ⟨[], true⟩]

theorem scheduled_runs_once_replicas : ∃ p,
    Lts.run (system plain).step replicaActs
      ⟨⟨[⟨"j", true, .halfPastMidnight, Schedule.fallBack, 0⟩], [], [], [], []⟩, ∅⟩ = some p ∧
    p.outcome 0 = some (36 * 60 * minute, some 1) ∧ p.outcome 1 = some (36 * 60 * minute, some 0) ∧
    (p.shared.executed.map Run.slot).Nodup := by
  obtain ⟨p, hrun, hfirst, hsecond⟩ : ∃ p, Lts.run (system plain).step replicaActs
      ⟨⟨[⟨"j", true, .halfPastMidnight, Schedule.fallBack, 0⟩], [], [], [], []⟩, ∅⟩ = some p ∧
      p.outcome 0 = some (36 * 60 * minute, some 1) ∧
      p.outcome 1 = some (36 * 60 * minute, some 0) := by
    decide +kernel
  exact ⟨p, hrun, hfirst, hsecond, (scheduled_runs_once plain _ _ _ replicaActs p hrun).1⟩

end Runs

end CodexOctopus.Automations
