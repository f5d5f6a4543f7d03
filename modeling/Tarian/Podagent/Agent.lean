import Tarian.Podagent.Processes
import Tarian.Podagent.Files

/-!
# The policy cache under the three loops

Model of `SyncConstraints` and of the agent `Run` drives: three goroutines that each repeat one
pass (`loopSyncConstraints`, `loopValidateProcesses`, `loopValidateFileChecksums`).

* The constraint list is the only state the loops share. `SetConstraints` replaces it under the
  write lock; `ValidateProcesses` reads it under the read lock for its whole pass and
  `ValidateFileChecksums` copies it under the read lock. So every interleaving of the goroutines
  is a sequence of whole passes (`Action`), each reading one installed list: `step` and `run`.
* `configClient.GetConstraints` is the environment: it returns a response or an error, and the
  generated client returns a nil response with every error. `SyncConstraints` logs the error and
  then installs `r.GetConstraints()` all the same, which for a nil `r` is nil.

Results:
* `syncConstraints_error_drops_policy`: a failed fetch installs the empty list.
* `constraints_run`: after any run the installed list is the one the last sync installed (the
  response's list, or empty if that fetch failed), or the initial list if no sync ran.
* `run_failed_sync_silent`: after a failed fetch, no pass sends a request until the next sync.
-/

namespace Tarian.Podagent

open Tarian.Go
open Tarian.Tarianpb (Constraint GetConstraintsRequest GetConstraintsResponse Target Timestamp
  IngestEventRequest)

/-- What `configClient.GetConstraints` returns to `SyncConstraints`. -/
inductive GetConstraintsResult
  | ok (response : GetConstraintsResponse)
  | error (err : String)

/-- The response pointer `r`: the generated client returns nil with an error. -/
def GetConstraintsResult.response? : GetConstraintsResult → Option GetConstraintsResponse
  | .ok r => some r
  | .error _ => none

/-- The request `SyncConstraints` sends: the agent's namespace and labels. -/
def PodAgent.getConstraintsRequest (p : PodAgent) : GetConstraintsRequest :=
  ⟨p.«namespace», p.podLabels⟩

/-- `SyncConstraints`, given what the RPC returned: the error is only logged, and
`SetConstraints(r.GetConstraints())` runs either way. -/
def PodAgent.syncConstraints (p : PodAgent) (result : GetConstraintsResult) : PodAgent :=
  p.setConstraints (GetConstraintsResponse.getConstraints result.response?)

@[simp] theorem syncConstraints_constraints (p : PodAgent) (result : GetConstraintsResult) :
    (p.syncConstraints result).constraints =
      GetConstraintsResponse.getConstraints result.response? := rfl

/-- **A failed fetch drops the policy**: the error path installs the empty list. -/
theorem syncConstraints_error (p : PodAgent) (err : String) :
    (p.syncConstraints (.error err)).constraints = [] := rfl

/-- An agent with the spec's process rule installed loses it on the first failed fetch. -/
theorem syncConstraints_error_drops_policy :
    (((PodAgent.newPodAgent ":50052").setConstraints
        [⟨"tarian-system", none, [⟨some "^nginx.*"⟩], []⟩]).syncConstraints
      (.error "connection refused")).constraints = [] :=
  syncConstraints_error _ _

/-! ## Runs of the three loops -/

/-- One pass of one of the three loops, with what the environment supplies to it. -/
inductive Action
  | sync (result : GetConstraintsResult)
  | validateProcesses (ordDelete ordReport : RangeOrder (Int × Process)) (now : Timestamp)
      (processes : List Process)
  | validateFileChecksums (ordDelete : RangeOrder (String × Unit))
      (ordReport : RangeOrder (String × ViolatedFile)) (now : Timestamp) (fs : FileSystem)

section Run

variable (compile : String → Option Regexp)

/-- One pass: the agent after it and the request it sends, if any. -/
def step (p : PodAgent) : Action → PodAgent × Option IngestEventRequest
  | .sync result => (p.syncConstraints result, none)
  | .validateProcesses ordDelete ordReport now processes =>
    (p, p.validateProcessesPass compile ordDelete ordReport now processes)
  | .validateFileChecksums ordDelete ordReport now fs =>
    (p, p.validateFileChecksumsPass ordDelete ordReport fs now)

/-- A run of passes, in the order the scheduler interleaved them: the agent after it and the
requests sent, in order. -/
def run (p : PodAgent) : List Action → PodAgent × List IngestEventRequest
  | [] => (p, [])
  | a :: as =>
    let r := run (step compile p a).1 as
    (r.1, (step compile p a).2.toList ++ r.2)

/-- The list the last sync of a run installs, if the run syncs. -/
def lastSync : List Action → Option (List Constraint)
  | [] => none
  | .sync result :: as =>
    (lastSync as).or (some (GetConstraintsResponse.getConstraints result.response?))
  | _ :: as => lastSync as

/-- **The installed list after a run** is what its last sync installed, or the initial list. -/
theorem constraints_run (p : PodAgent) (as : List Action) :
    (run compile p as).1.constraints = (lastSync as).getD p.constraints := by
  induction as generalizing p with
  | nil => rfl
  | cons a as ih =>
    rw [run, ih]
    cases a <;> cases h : lastSync as <;> simp [lastSync, h, step]

/-! ## Passes against a list without rules -/

theorem run_append (p : PodAgent) (as₁ as₂ : List Action) :
    (run compile p (as₁ ++ as₂)).2 =
      (run compile p as₁).2 ++ (run compile (run compile p as₁).1 as₂).2 := by
  induction as₁ generalizing p with
  | nil => rfl
  | cons a as₁ ih => simp [run, ih]

/-- A pass against the empty list sends nothing. -/
theorem step_snd_of_constraints_nil {p : PodAgent} (hp : p.constraints = []) (a : Action) :
    (step compile p a).2 = none := by
  cases a with
  | sync => rfl
  | validateProcesses od orep now ps =>
    refine Option.not_isSome_iff_eq_none.mp fun h => ?_
    obtain ⟨k, ⟨r, hr, -⟩, -⟩ := (isSome_validateProcessesPass compile od orep p now ps).mp h
    simp [hp, validRegexps] at hr
  | validateFileChecksums od orep now fs =>
    refine Option.not_isSome_iff_eq_none.mp fun h => ?_
    obtain ⟨n, ⟨r, hr, -⟩, -⟩ := (isSome_validateFileChecksumsPass od orep fs p now).mp h
    simp [hp, fileRules] at hr

/-- Without a sync, a run on the empty list sends nothing. -/
theorem run_snd_of_constraints_nil {p : PodAgent} (hp : p.constraints = []) :
    ∀ {as : List Action}, (∀ a ∈ as, ∀ r, a ≠ .sync r) → (run compile p as).2 = []
  | [], _ => rfl
  | a :: as, hno => by
    have hstep : (step compile p a).1 = p := by
      cases a with
      | sync r => exact absurd rfl (hno _ (List.mem_cons_self _ _) r)
      | validateProcesses => rfl
      | validateFileChecksums => rfl
    simp only [run, step_snd_of_constraints_nil compile hp, hstep, Option.toList_none,
      List.nil_append]
    exact run_snd_of_constraints_nil hp fun a' ha' => hno a' (List.mem_cons_of_mem _ ha')

/-- **A failed fetch silences the agent until the next sync**: in any run, the passes between a
sync whose fetch failed and the next sync send no request, whatever the processes and files. -/
theorem run_failed_sync_silent (p : PodAgent) (as₁ as₂ : List Action) (err : String)
    (hno : ∀ a ∈ as₂, ∀ r, a ≠ .sync r) :
    (run compile p (as₁ ++ .sync (.error err) :: as₂)).2 = (run compile p as₁).2 := by
  rw [run_append]
  simp only [run, step, Option.toList_none, List.nil_append,
    run_snd_of_constraints_nil compile (syncConstraints_error _ err) hno, List.append_nil]

/-- A run that fetches the rule `nginx` and reports `sh`, then a failed fetch and the same
snapshot again: only the first `sh` is reported. -/
theorem run_failed_sync_silent_sh :
    let compile : String → Option Regexp := fun re => some ⟨(· == re)⟩
    let as₁ : List Action := [.sync (.ok ⟨[⟨"default", none, [⟨some "nginx"⟩], []⟩]⟩),
      .validateProcesses .asStored .asStored ⟨0, 0⟩ [⟨1, "nginx"⟩, ⟨2, "sh"⟩]]
    let as₂ : List Action := [.validateProcesses .asStored .asStored ⟨1, 0⟩ [⟨1, "nginx"⟩, ⟨2, "sh"⟩]]
    (∀ a ∈ as₂, ∀ r, a ≠ .sync r) ∧
      (run compile (PodAgent.newPodAgent "") (as₁ ++ .sync (.error "connection refused") :: as₂)).2 =
        (run compile (PodAgent.newPodAgent "") as₁).2 := by
  intro compile as₁ as₂
  have hno : ∀ a ∈ as₂, ∀ r, a ≠ .sync r := by simp [as₂]
  exact ⟨hno, run_failed_sync_silent compile _ as₁ as₂ "connection refused" hno⟩

end Run

end Tarian.Podagent
