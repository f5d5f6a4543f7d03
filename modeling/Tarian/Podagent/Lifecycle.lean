import Mathlib.Logic.Function.Basic
import Tarian.Podagent.Agent

/-!
# Starting and stopping the three loops

Model of `PodAgent.Run`, `GracefulStop` and the control flow around each loop's pass:

    for {
      <pass>
      select {
      case <-time.After(3 * time.Second):
      case <-ctx.Done():
        return ctx.Err()
      }
    }

* Each goroutine is at one of three places (`Pc`): in its pass, blocked in the `select`, or
  returned. A pass is one `Action` of the pass-level model, atomic for the reasons given there.
* `time.After` is created as the `select` starts, so it is never ready then, and the `select`
  commits to the first case that becomes ready. The timer case is therefore taken only while the
  context is live; once `GracefulStop` has cancelled it, a blocked loop can only return. The first
  pass runs before any `select`, so it runs even if the context was cancelled first.
* `Run` returns when `wg.Wait` does: when all three goroutines have returned.
* `grpc.Dial` does not block, and a dial error ends the process (`logger.Fatalw`), so the dial is
  not modelled. Neither is `Close`: a pass it interrupts fails its RPC, which the passes already
  allow (an erroring `GetConstraints`, a report whose delivery fails).
* A pass ends only if it returns (`Action.Returns`). A sync has its 5-second timeout and `Close`
  ends a report's RPC, but nothing ends an `os.Open` or `io.Copy` that blocks: a file pass that
  opens such a file never ends, and its loop never reaches the `select`.

Results:
* `runEvents_after_cancel`, `gracefulStop_bounds`: after cancellation each event of a loop lowers
  its `Pc.rank`, so each loop takes at most two more steps, of which at most one is a pass.
* `runEvents_stops`: after cancellation every schedule stops. Each loop event lowers the ranks'
  sum by one, and until all three loops have returned one of them can still step, as long as
  the passes still pending return.
-/

namespace Tarian.Podagent

open Tarian.Go
open Tarian.Tarianpb (IngestEventRequest)

/-- The three goroutines `Run` starts. -/
inductive Loop
  | syncConstraints
  | validateProcesses
  | validateFileChecksums
  deriving DecidableEq, Repr

/-- The loop whose pass an action is. -/
def Action.loop : Action → Loop
  | .sync _ => .syncConstraints
  | .validateProcesses .. => .validateProcesses
  | .validateFileChecksums .. => .validateFileChecksums

/-- The pass returns, run by the agent `p`: only a file pass can hang, on a file that blocks. -/
def Action.Returns (p : PodAgent) : Action → Prop
  | .validateFileChecksums _ _ _ fs => FilesReturn fs p.constraints
  | _ => True

instance (p : PodAgent) : DecidablePred (Action.Returns p)
  | .sync _ => inferInstanceAs (Decidable True)
  | .validateProcesses .. => inferInstanceAs (Decidable True)
  | .validateFileChecksums _ _ _ fs => inferInstanceAs (Decidable (FilesReturn fs p.constraints))

/-- Where a loop's goroutine is. -/
inductive Pc
  | pass
  | wait
  | returned
  deriving DecidableEq, Repr

/-- How many steps a loop can still take once the context is done. -/
def Pc.rank : Pc → Nat
  | .pass => 2
  | .wait => 1
  | .returned => 0

/-- The agent while `Run` runs. -/
structure Runtime where
  agent : PodAgent
  pc : Loop → Pc
  /-- `cancelCtx` is done: `GracefulStop` has called `cancelFunc`. -/
  cancelled : Bool
  /-- The requests sent so far, in order. -/
  sent : List IngestEventRequest

/-- What the scheduler and the environment do next. -/
inductive RunEvent
  /-- The loop of `a` finishes its pass, `a`, if that pass returns. -/
  | pass (a : Action)
  /-- `time.After(3 * time.Second)` fires first: the loop starts its next pass. -/
  | timer (l : Loop)
  /-- `ctx.Done()` fires first: the loop returns `ctx.Err()`. -/
  | done (l : Loop)
  /-- `GracefulStop`: `p.cancelFunc()`. -/
  | gracefulStop

/-- The loop an event belongs to, if any. -/
def RunEvent.loop? : RunEvent → Option Loop
  | .pass a => some a.loop
  | .timer l => some l
  | .done l => some l
  | .gracefulStop => none

/-- The events of loop `l`. -/
def loopEvents (l : Loop) (es : List RunEvent) : List RunEvent :=
  es.filter (·.loop? == some l)

/-- The passes of a run, in order. -/
def passes (es : List RunEvent) : List Action :=
  es.filterMap fun
    | .pass a => some a
    | _ => none

/-- Right after `Run` has started the three goroutines. -/
def Runtime.start (p : PodAgent) : Runtime := ⟨p, fun _ => .pass, false, []⟩

/-- `wg.Wait` returns: all three goroutines have returned. -/
def Runtime.stopped (s : Runtime) : Prop :=
  s.pc .syncConstraints = .returned ∧ s.pc .validateProcesses = .returned ∧
    s.pc .validateFileChecksums = .returned

section Lifecycle

variable (compile : String → Option Regexp)

/-- One event, if it is enabled. -/
def Runtime.step (s : Runtime) : RunEvent → Option Runtime
  | .pass a =>
    if s.pc a.loop = .pass ∧ a.Returns s.agent then
      some ⟨(Podagent.step compile s.agent a).1, Function.update s.pc a.loop .wait, s.cancelled,
        s.sent ++ (Podagent.step compile s.agent a).2.toList⟩
    else none
  | .timer l =>
    if s.pc l = .wait ∧ s.cancelled = false then
      some { s with pc := Function.update s.pc l .pass }
    else none
  | .done l =>
    if s.pc l = .wait ∧ s.cancelled = true then
      some { s with pc := Function.update s.pc l .returned }
    else none
  | .gracefulStop => some { s with cancelled := true }

/-- A run of events; `none` if one of them is not enabled. -/
def Runtime.runEvents (s : Runtime) : List RunEvent → Option Runtime
  | [] => some s
  | e :: es => (s.step compile e).bind fun s' => s'.runEvents es

theorem runEvents_cons {s s' : Runtime} {e : RunEvent} {es : List RunEvent}
    (h : s.runEvents compile (e :: es) = some s') :
    ∃ t, s.step compile e = some t ∧ t.runEvents compile es = some s' :=
  Option.bind_eq_some.mp h

theorem step_pass {s : Runtime} {a : Action} (h : s.pc a.loop = .pass)
    (hr : a.Returns s.agent) :
    s.step compile (.pass a) =
      some ⟨(Podagent.step compile s.agent a).1, Function.update s.pc a.loop .wait, s.cancelled,
        s.sent ++ (Podagent.step compile s.agent a).2.toList⟩ :=
  if_pos ⟨h, hr⟩

theorem step_done {s : Runtime} {l : Loop} (h : s.pc l = .wait) (hc : s.cancelled = true) :
    s.step compile (.done l) = some { s with pc := Function.update s.pc l .returned } :=
  if_pos ⟨h, hc⟩

/-- **What one event can do.** -/
theorem step_eq_some {s s' : Runtime} {e : RunEvent} (h : s.step compile e = some s') :
    (∃ a, e = .pass a ∧ s.pc a.loop = .pass ∧ a.Returns s.agent ∧
      s' = ⟨(Podagent.step compile s.agent a).1, Function.update s.pc a.loop .wait, s.cancelled,
        s.sent ++ (Podagent.step compile s.agent a).2.toList⟩) ∨
    (∃ l, e = .timer l ∧ s.pc l = .wait ∧ s.cancelled = false ∧
      s' = { s with pc := Function.update s.pc l .pass }) ∨
    (∃ l, e = .done l ∧ s.pc l = .wait ∧ s.cancelled = true ∧
      s' = { s with pc := Function.update s.pc l .returned }) ∨
    (e = .gracefulStop ∧ s' = { s with cancelled := true }) := by
  cases e with
  | pass a =>
    simp only [Runtime.step] at h
    split at h
    · exact .inl ⟨a, rfl, ‹_ ∧ _›.1, ‹_ ∧ _›.2, (Option.some_injective _ h).symm⟩
    · cases h
  | timer l =>
    simp only [Runtime.step] at h
    split at h
    · exact .inr (.inl ⟨l, rfl, ‹_ ∧ _›.1, ‹_ ∧ _›.2, (Option.some_injective _ h).symm⟩)
    · cases h
  | done l =>
    simp only [Runtime.step] at h
    split at h
    · exact .inr (.inr (.inl ⟨l, rfl, ‹_ ∧ _›.1, ‹_ ∧ _›.2, (Option.some_injective _ h).symm⟩))
    · cases h
  | gracefulStop => exact .inr (.inr (.inr ⟨rfl, (Option.some_injective _ h).symm⟩))

/-! ## After `GracefulStop` -/

section Cancelled

variable {compile}

/-- After cancellation, an event of loop `l` lowers its rank by one, and a pass of `l` is taken
only from `.pass`; the other events leave `l` where it is. -/
theorem step_after_cancel {s s' : Runtime} {e : RunEvent} (hc : s.cancelled = true)
    (h : s.step compile e = some s') (l : Loop) :
    s'.cancelled = true ∧ (loopEvents l [e]).length + (s'.pc l).rank = (s.pc l).rank ∧
      ((passes [e]).filter (·.loop = l)).length + (if s'.pc l = .pass then 1 else 0) =
        if s.pc l = .pass then 1 else 0 := by
  rcases step_eq_some compile h with ⟨a, rfl, hp, -, rfl⟩ | ⟨l', rfl, -, hf, rfl⟩ |
    ⟨l', rfl, hw, -, rfl⟩ | ⟨rfl, rfl⟩
  · by_cases hl : a.loop = l
    · subst hl
      simp [loopEvents, passes, RunEvent.loop?, hp, hc, Pc.rank]
    · simp [loopEvents, passes, RunEvent.loop?, hl, hc, Function.update_noteq (Ne.symm hl)]
  · simp [hc] at hf
  · by_cases hl : l' = l
    · subst hl
      simp [loopEvents, RunEvent.loop?, hw, hc, Pc.rank, passes]
    · simp [loopEvents, passes, RunEvent.loop?, hl, hc, Function.update_noteq (Ne.symm hl)]
  · simp [loopEvents, passes, RunEvent.loop?]

/-- **After cancellation, every event of a loop lowers its rank**, and the loop's passes are
bounded by whether it was in one. -/
theorem runEvents_after_cancel {s s' : Runtime} {es : List RunEvent} (hc : s.cancelled = true)
    (h : s.runEvents compile es = some s') (l : Loop) :
    s'.cancelled = true ∧ (loopEvents l es).length + (s'.pc l).rank = (s.pc l).rank ∧
      ((passes es).filter (·.loop = l)).length + (if s'.pc l = .pass then 1 else 0) =
        if s.pc l = .pass then 1 else 0 := by
  induction es generalizing s with
  | nil => cases h; simp [loopEvents, passes, hc]
  | cons e es ih =>
    obtain ⟨t, ht, hes⟩ := runEvents_cons compile h
    obtain ⟨htc, hr, hp⟩ := step_after_cancel hc ht l
    obtain ⟨ihc, ihr, ihp⟩ := ih htc hes
    have hl : loopEvents l (e :: es) = loopEvents l [e] ++ loopEvents l es :=
      List.filter_append [e] es
    have hq : passes (e :: es) = passes [e] ++ passes es := List.filterMap_append [e] es _
    rw [hl, hq, List.filter_append, List.length_append, List.length_append]
    exact ⟨ihc, by omega, by omega⟩

/-- **`GracefulStop` bounds what is left**: after it, each loop takes at most two more steps and
runs at most one more pass, none if it was not in a pass. -/
theorem gracefulStop_bounds {s s' : Runtime} {es : List RunEvent} (hc : s.cancelled = true)
    (h : s.runEvents compile es = some s') (l : Loop) :
    (loopEvents l es).length ≤ 2 ∧
      ((passes es).filter (·.loop = l)).length ≤ if s.pc l = .pass then 1 else 0 := by
  obtain ⟨-, hr, hp⟩ := runEvents_after_cancel hc h l
  have h2 : (s.pc l).rank ≤ 2 := by cases s.pc l <;> decide
  omega

/-- Stopped before any pass, the process loop still runs its first pass, then returns. -/
theorem gracefulStop_bounds_first_pass :
    let compile : String → Option Regexp := fun re => some ⟨(· == re)⟩
    let s : Runtime := ⟨PodAgent.newPodAgent "", fun _ => .pass, true, []⟩
    let fs : List RunEvent :=
      [.pass (.validateProcesses .asStored .asStored ⟨0, 0⟩ [⟨2, "sh"⟩]), .done .validateProcesses]
    s.cancelled = true ∧ ∃ s', s.runEvents compile fs = some s' ∧
      (loopEvents .validateProcesses fs).length ≤ 2 ∧
      ((passes fs).filter (·.loop = .validateProcesses)).length ≤
        if s.pc .validateProcesses = .pass then 1 else 0 := by
  intro compile s fs
  exact ⟨rfl, _, rfl, @gracefulStop_bounds compile s _ fs rfl rfl .validateProcesses⟩

end Cancelled

/-- The ranks of the three loops, summed. -/
def rankSum (pc : Loop → Pc) : Nat :=
  (pc .syncConstraints).rank + (pc .validateProcesses).rank + (pc .validateFileChecksums).rank

/-- The events of the three loops are those of each loop. -/
theorem length_filter_loop (es : List RunEvent) :
    (es.filter (·.loop?.isSome)).length = (loopEvents .syncConstraints es).length +
      (loopEvents .validateProcesses es).length + (loopEvents .validateFileChecksums es).length := by
  induction es with
  | nil => rfl
  | cons e es ih =>
    simp only [loopEvents, List.filter_cons] at ih ⊢
    cases h : e.loop? with
    | none => simpa [h] using ih
    | some l => cases l <;> simp [h, ih] <;> omega

/-- **A cancelled runtime is never stuck**: until all three loops have returned, some loop can
return or run the pass `env` gives it, if that pass returns. -/
theorem exists_step_of_not_stopped (env : (l : Loop) → { a : Action // a.loop = l })
    {s : Runtime} (henv : ∀ l, (env l).1.Returns s.agent) (hc : s.cancelled = true)
    (hs : ¬s.stopped) :
    ∃ l t, s.step compile (.pass (env l).1) = some t ∨ s.step compile (.done l) = some t := by
  have hl : ∃ l, s.pc l ≠ .returned := by
    by_contra! h
    exact hs ⟨h _, h _, h _⟩
  obtain ⟨l, hl⟩ := hl
  cases hpc : s.pc l with
  | returned => exact absurd hpc hl
  | pass =>
    have hpc' : s.pc (env l).1.loop = .pass := by rw [(env l).2, hpc]
    exact ⟨l, _, .inl (step_pass compile hpc' (henv l))⟩
  | wait => exact ⟨l, _, .inr (step_done compile hpc hc)⟩

/-- **`Run` returns after `GracefulStop`, under every schedule, when the passes still pending
return.** From any state after cancellation, each event of a loop lowers the ranks' sum by one,
so a run takes at most `rankSum s.pc ≤ 6` of them; and a state it reaches in which not all three
loops have returned can still let a loop return or run the pass `env` gives it, as long as those
passes return (no file a rule names blocks). So every schedule ends with `wg.Wait` returning. -/
theorem runEvents_stops (env : (l : Loop) → { a : Action // a.loop = l })
    (henv : ∀ l p, (env l).1.Returns p) {s t : Runtime} {es : List RunEvent}
    (hc : s.cancelled = true) (h : s.runEvents compile es = some t) :
    (es.filter (·.loop?.isSome)).length + rankSum t.pc = rankSum s.pc ∧
      (¬t.stopped → ∃ l t', t.step compile (.pass (env l).1) = some t' ∨
        t.step compile (.done l) = some t') := by
  obtain ⟨htc, h₁, -⟩ := runEvents_after_cancel hc h .syncConstraints
  obtain ⟨-, h₂, -⟩ := runEvents_after_cancel hc h .validateProcesses
  obtain ⟨-, h₃, -⟩ := runEvents_after_cancel hc h .validateFileChecksums
  refine ⟨?_, exists_step_of_not_stopped compile env (fun l => henv l _) htc⟩
  rw [length_filter_loop, rankSum, rankSum]
  omega

/-- Stopped before any pass, with every fetch failing, no process and every file unopenable: the
process loop runs its pass and returns, two of the six steps left. -/
theorem runEvents_stops_first_pass :
    let compile : String → Option Regexp := fun re => some ⟨(· == re)⟩
    let env : (l : Loop) → { a : Action // a.loop = l } := fun
      | .syncConstraints => ⟨.sync (.error ""), rfl⟩
      | .validateProcesses => ⟨.validateProcesses .asStored .asStored ⟨0, 0⟩ [], rfl⟩
      | .validateFileChecksums =>
        ⟨.validateFileChecksums .asStored .asStored ⟨0, 0⟩ fun _ => .openError, rfl⟩
    let s : Runtime := ⟨PodAgent.newPodAgent "", fun _ => .pass, true, []⟩
    let es : List RunEvent := [.pass (env .validateProcesses).1, .done .validateProcesses]
    (∀ l p, (env l).1.Returns p) ∧ s.cancelled = true ∧ ∃ t, s.runEvents compile es = some t ∧
      (es.filter (·.loop?.isSome)).length + rankSum t.pc = rankSum s.pc ∧
      (¬t.stopped → ∃ l t', t.step compile (.pass (env l).1) = some t' ∨
        t.step compile (.done l) = some t') := by
  intro compile env s es
  have henv : ∀ l p, (env l).1.Returns p := by
    intro l p
    cases l
    exacts [trivial, trivial, fun _ _ _ h => FileRead.noConfusion h]
  exact ⟨henv, rfl, _, rfl, runEvents_stops compile env henv rfl rfl⟩

end Lifecycle

end Tarian.Podagent
