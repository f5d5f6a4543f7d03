import Tarian.Podagent.Basic

/-!
# The process validator

Model of `ValidateProcesses`, `ReportViolationsToClusterAgent` and one iteration of
`loopValidateProcesses` (`pkg/podagent/podagent.go`).

* `regexp.Compile` is a parameter `compile`: the RE2 syntax and matching of Go's `regexp` package
  are the library's. A compiled expression is its `MatchString`.
* The nested loops are written as the source has them (`scanConstraint`, `scanRule`,
  `scanProcess`); `foldl_scanConstraint` flattens them into one loop over `scanPairs`, each valid
  rule against each process, which is where every proof starts.
* The deletion loop ranges over `allowedProcesses` and the reporter over the final map: each takes
  its own `RangeOrder`.

Results:
* `mem_validateProcesses`, `mem_keys_validateProcesses`: the returned map holds exactly the pids
  of `Violating` (some process with the pid fails some valid rule, none matches any), each with
  a process of the snapshot that matches no valid rule.
* `validateProcessesPass_reports_violating`: a pass sends a request iff such a pid exists, and
  its single target lists each one once, in filled slots; with distinct pids the listed processes
  are, up to order, the processes that match no valid rule, and nothing is sent when no rule is
  valid.
* `validateProcessesPass_range_orders`: the orders of the two map ranges change at most the order
  of the processes in a report.
-/

namespace Tarian.Podagent

open Tarian.Go
open Tarian.Tarianpb (Constraint AllowedProcessRule Target Timestamp IngestEventRequest
  EventTypeViolation)

/-- A compiled expression as the agent uses it: `(*regexp.Regexp).MatchString`. -/
structure Regexp where
  matchString : String → Bool

/-- The two maps `ValidateProcesses` fills, keyed by pid. -/
structure ProcessScan where
  violations : GoMap Int Process
  allowedProcesses : GoMap Int Process

section Validate

variable (compile : String → Option Regexp)

/-- The innermost loop's body: `process` against `rgx`. The `err != nil` test there reads the
error of `regexp.Compile`, nil on this path, so it never skips. -/
def scanProcess (rgx : Regexp) (s : ProcessScan) (process : Process) : ProcessScan :=
  if !rgx.matchString process.name then
    { s with violations := s.violations.insert process.pid process }
  else { s with allowedProcesses := s.allowedProcesses.insert process.pid process }

/-- The body of the loop over a constraint's `AllowedProcesses`: an empty regex, or one that does
not compile, is skipped. -/
def scanRule (processes : List Process) (s : ProcessScan) (allowedProcess : AllowedProcessRule) :
    ProcessScan :=
  if allowedProcess.getRegex = "" then s
  else
    match compile allowedProcess.getRegex with
    | none => s
    | some rgx => processes.foldl (scanProcess rgx) s

/-- The body of the loop over the constraints. A nil `AllowedProcesses` iterates nothing, which is
what its `continue` does. -/
def scanConstraint (processes : List Process) (s : ProcessScan) (constraint : Constraint) :
    ProcessScan :=
  constraint.allowedProcesses.foldl (scanRule compile processes) s

/-- `ValidateProcesses`: `ord` is the order of the `range allowedProcesses` that deletes the
allowed pids from `violations`. -/
def PodAgent.validateProcesses (ord : RangeOrder (Int × Process)) (p : PodAgent)
    (processes : List Process) : GoMap Int Process :=
  let s := p.constraints.foldl (scanConstraint compile processes) ⟨.empty, .empty⟩
  s.violations.deleteAll ((s.allowedProcesses.range ord).map Prod.fst)

/-! ## What the validator computes -/

/-- A valid process rule's compiled expression: its regex is non-empty and compiles. -/
def compileRule (r : AllowedProcessRule) : Option Regexp :=
  if r.getRegex = "" then none else compile r.getRegex

/-- The valid process rules of `cs`, compiled. -/
def validRegexps (cs : List Constraint) : List Regexp :=
  (cs.flatMap (·.allowedProcesses)).filterMap (compileRule compile)

/-- A pid a pass must report: some process with it fails some valid rule, and no process with it
matches any valid rule. -/
def Violating (cs : List Constraint) (processes : List Process) (k : Int) : Prop :=
  (∃ r ∈ validRegexps compile cs, ∃ q ∈ processes, q.pid = k ∧ r.matchString q.name = false) ∧
    ¬∃ r ∈ validRegexps compile cs, ∃ q ∈ processes, q.pid = k ∧ r.matchString q.name = true

/-- No valid rule of `cs` matches the process's name. -/
def Unmatched (cs : List Constraint) (q : Process) : Prop :=
  ∀ r ∈ validRegexps compile cs, r.matchString q.name = false

instance (cs : List Constraint) (q : Process) : Decidable (Unmatched compile cs q) :=
  inferInstanceAs (Decidable (∀ r ∈ validRegexps compile cs, _))

/-- The pairs the nested loops visit, in order: each valid rule against each process. -/
def scanPairs (cs : List Constraint) (processes : List Process) : List (Regexp × Process) :=
  (validRegexps compile cs).flatMap fun r => processes.map (r, ·)

/-- One visit of the flattened loop. -/
def scanPair (s : ProcessScan) (x : Regexp × Process) : ProcessScan := scanProcess x.1 s x.2

theorem mem_scanPairs {cs : List Constraint} {ps : List Process} {x : Regexp × Process} :
    x ∈ scanPairs compile cs ps ↔ x.1 ∈ validRegexps compile cs ∧ x.2 ∈ ps := by
  obtain ⟨r, q⟩ := x
  simp [scanPairs]

theorem scanRule_eq (ps : List Process) (s : ProcessScan) (r : AllowedProcessRule) :
    scanRule compile ps s r =
      ((compileRule compile r).toList.flatMap fun rgx => ps.map (rgx, ·)).foldl scanPair s := by
  unfold scanRule compileRule
  split
  · simp_all
  · split <;> simp_all [List.foldl_map, scanPair]

theorem foldl_scanRule (ps : List Process) :
    ∀ (rs : List AllowedProcessRule) (s : ProcessScan),
      rs.foldl (scanRule compile ps) s =
        ((rs.filterMap (compileRule compile)).flatMap fun r => ps.map (r, ·)).foldl scanPair s
  | [], s => rfl
  | r :: rs, s => by
    rw [List.foldl_cons, scanRule_eq, foldl_scanRule ps rs, ← List.foldl_append,
      ← List.flatMap_append]
    congr 2
    cases h : compileRule compile r <;> simp [h]

/-- **The nested loops are one loop over `scanPairs`.** -/
theorem foldl_scanConstraint (ps : List Process) :
    ∀ (cs : List Constraint) (s : ProcessScan),
      cs.foldl (scanConstraint compile ps) s = (scanPairs compile cs ps).foldl scanPair s
  | [], s => rfl
  | c :: cs, s => by
    rw [List.foldl_cons, foldl_scanConstraint ps cs, scanConstraint, foldl_scanRule]
    simp [scanPairs, validRegexps, List.filterMap_append, List.foldl_append]

theorem foldl_scanPair_violations (xs : List (Regexp × Process)) (s : ProcessScan) :
    (xs.foldl scanPair s).violations =
      xs.foldl (GoMap.insertIf (fun x => !x.1.matchString x.2.name) (·.2.pid) (·.2))
        s.violations := by
  induction xs generalizing s with
  | nil => rfl
  | cons x xs ih =>
    simp only [List.foldl_cons, ih]
    congr 1
    unfold scanPair scanProcess GoMap.insertIf
    split <;> simp_all

theorem foldl_scanPair_allowed (xs : List (Regexp × Process)) (s : ProcessScan) :
    (xs.foldl scanPair s).allowedProcesses =
      xs.foldl (GoMap.insertIf (fun x => x.1.matchString x.2.name) (·.2.pid) (·.2))
        s.allowedProcesses := by
  induction xs generalizing s with
  | nil => rfl
  | cons x xs ih =>
    simp only [List.foldl_cons, ih]
    congr 1
    unfold scanPair scanProcess GoMap.insertIf
    split <;> simp_all

/-- The validator's result as the two maps of the flattened loop. -/
theorem validateProcesses_eq (ord : RangeOrder (Int × Process)) (p : PodAgent)
    (ps : List Process) :
    p.validateProcesses compile ord ps =
      let s := (scanPairs compile p.constraints ps).foldl scanPair ⟨.empty, .empty⟩
      s.violations.deleteAll ((s.allowedProcesses.range ord).map Prod.fst) := by
  simp only [PodAgent.validateProcesses, foldl_scanConstraint]

theorem exists_mem_scanPairs {cs : List Constraint} {ps : List Process}
    {P : Regexp × Process → Prop} :
    (∃ x ∈ scanPairs compile cs ps, P x) ↔ ∃ r ∈ validRegexps compile cs, ∃ q ∈ ps, P (r, q) := by
  simp [scanPairs]

/-- **Every entry of the result is a process of the snapshot, under its own pid, that matches no
valid rule.** -/
theorem mem_validateProcesses {ord : RangeOrder (Int × Process)} {p : PodAgent}
    {ps : List Process} {k : Int} {q : Process}
    (h : (k, q) ∈ (p.validateProcesses compile ord ps).entries) :
    q ∈ ps ∧ q.pid = k ∧ Unmatched compile p.constraints q := by
  rw [validateProcesses_eq] at h
  simp only [GoMap.mem_entries_deleteAll, GoMap.mem_range_keys, foldl_scanPair_violations,
    foldl_scanPair_allowed, GoMap.mem_keys_foldl_insertIf] at h
  obtain ⟨hv, hk⟩ := h
  rcases GoMap.mem_foldl_insertIf _ _ _ hv with h | ⟨⟨r, q'⟩, hx, -, he⟩
  · simp at h
  · obtain ⟨rfl, rfl⟩ : k = q'.pid ∧ q = q' := by simpa using he
    have hq := ((mem_scanPairs compile).mp hx).2
    refine ⟨hq, rfl, fun r' hr' => ?_⟩
    by_contra hm
    exact hk (.inr ⟨(r', q), (mem_scanPairs compile).mpr ⟨hr', hq⟩, by simpa using hm, rfl⟩)

/-- **The result's pids are exactly the violating pids.** -/
theorem mem_keys_validateProcesses {ord : RangeOrder (Int × Process)} {p : PodAgent}
    {ps : List Process} {k : Int} :
    k ∈ (p.validateProcesses compile ord ps).keys ↔ Violating compile p.constraints ps k := by
  rw [validateProcesses_eq, GoMap.mem_keys]
  simp only [GoMap.mem_entries_deleteAll, GoMap.mem_range_keys, exists_and_right,
    ← GoMap.mem_keys, foldl_scanPair_violations, foldl_scanPair_allowed,
    GoMap.mem_keys_foldl_insertIf, exists_mem_scanPairs, Violating, GoMap.keys_empty,
    List.not_mem_nil, false_or, not_false_eq_true, true_and]
  refine and_congr (by simp only [and_comm, Bool.not_eq_true']) (not_congr ?_)
  simp only [and_comm]

end Validate

/-! ## The report and one pass of the loop -/

/-- `&tarianpb.Process{Pid: p.GetPid(), Name: p.GetName()}` for a visited entry. -/
def pbProcess (e : Int × Process) : Tarianpb.Process := ⟨e.2.pid, e.2.name⟩

/-- `ReportViolationsToClusterAgent`: the request it sends; `ord` is the order of its `range`. -/
def PodAgent.reportViolationsToClusterAgent (ord : RangeOrder (Int × Process)) (p : PodAgent)
    (now : Timestamp) (processes : GoMap Int Process) : IngestEventRequest :=
  let violatingProcesses :=
    fillSlots pbProcess (List.replicate processes.len none) 0 (processes.range ord)
  violationRequest now ⟨some p.pod, violatingProcesses, [], none⟩

theorem reportViolationsToClusterAgent_eq (ord : RangeOrder (Int × Process)) (p : PodAgent)
    (now : Timestamp) (m : GoMap Int Process) :
    p.reportViolationsToClusterAgent ord now m =
      violationRequest now ⟨some p.pod, (m.range ord).map (some ∘ pbProcess), [], none⟩ := by
  simp only [PodAgent.reportViolationsToClusterAgent, fillSlots_range]

section Pass

variable (compile : String → Option Regexp)

/-- One iteration of `loopValidateProcesses` on the snapshot `processes` that
`psutil.Processes()` returned: the request it sends, if any. -/
def PodAgent.validateProcessesPass (ordDelete ordReport : RangeOrder (Int × Process))
    (p : PodAgent) (now : Timestamp) (processes : List Process) : Option IngestEventRequest :=
  let violations := p.validateProcesses compile ordDelete processes
  if violations.len > 0 then some (p.reportViolationsToClusterAgent ordReport now violations)
  else none

/-- What a report's slots must hold: every slot filled, each violating pid once and no other pid,
each under the name of a process of the snapshot with that pid that matches no valid rule. -/
structure ListsViolating (cs : List Constraint) (ps : List Process)
    (slots : List (Option Tarianpb.Process)) : Prop where
  filled : ∀ s ∈ slots, s.isSome
  nodup : ((slots.filterMap id).map (·.pid)).Nodup
  complete : ∀ k, k ∈ (slots.filterMap id).map (·.pid) ↔ Violating compile cs ps k
  named : ∀ q ∈ slots.filterMap id,
    ∃ p ∈ ps, p.pid = q.pid ∧ p.name = q.name ∧ Unmatched compile cs p

/-- The range over the result visits each pid as its key. -/
theorem range_pids_validateProcesses (ord ord' : RangeOrder (Int × Process)) (p : PodAgent)
    (ps : List Process) :
    ((p.validateProcesses compile ord ps).range ord').map (·.2.pid) =
      ((p.validateProcesses compile ord ps).range ord').map Prod.fst :=
  List.map_congr_left fun _ he =>
    (mem_validateProcesses compile (GoMap.mem_range.mp he)).2.1

theorem listsViolating_range (ord ord' : RangeOrder (Int × Process)) (p : PodAgent)
    (ps : List Process) :
    ListsViolating compile p.constraints ps
      (((p.validateProcesses compile ord ps).range ord').map (some ∘ pbProcess)) := by
  have hf : (((p.validateProcesses compile ord ps).range ord').map (some ∘ pbProcess)).filterMap
      id = ((p.validateProcesses compile ord ps).range ord').map pbProcess := by
    simp [List.filterMap_map]
  have hpids : (((p.validateProcesses compile ord ps).range ord').map pbProcess).map (·.pid) =
      ((p.validateProcesses compile ord ps).range ord').map Prod.fst := by
    rw [List.map_map, ← range_pids_validateProcesses compile ord ord']
    rfl
  refine ⟨fun s hs => ?_, ?_, fun k => ?_, fun q hq => ?_⟩
  · obtain ⟨_, -, rfl⟩ := List.mem_map.mp hs; rfl
  · rw [hf, hpids]; exact GoMap.nodup_range_keys _ _
  · rw [hf, hpids, GoMap.mem_range_keys, mem_keys_validateProcesses]
  · rw [hf, List.mem_map] at hq
    obtain ⟨⟨k, q'⟩, he, rfl⟩ := hq
    obtain ⟨hq', -, hu⟩ := mem_validateProcesses compile (GoMap.mem_range.mp he)
    exact ⟨q', hq', rfl, rfl, hu⟩

theorem validateProcessesPass_eq (ordDelete ordReport : RangeOrder (Int × Process))
    (p : PodAgent) (now : Timestamp) (ps : List Process) :
    p.validateProcessesPass compile ordDelete ordReport now ps =
      if 0 < (p.validateProcesses compile ordDelete ps).len then
        some (violationRequest now ⟨some p.pod,
          ((p.validateProcesses compile ordDelete ps).range ordReport).map (some ∘ pbProcess), [],
          none⟩)
      else none := by
  simp only [PodAgent.validateProcessesPass, reportViolationsToClusterAgent_eq, gt_iff_lt]

theorem isSome_validateProcessesPass (ordDelete ordReport : RangeOrder (Int × Process))
    (p : PodAgent) (now : Timestamp) (ps : List Process) :
    (p.validateProcessesPass compile ordDelete ordReport now ps).isSome ↔
      ∃ k, Violating compile p.constraints ps k := by
  rw [validateProcessesPass_eq]
  split <;> rename_i h
  · simp only [Option.isSome_some, true_iff]
    obtain ⟨⟨k, _⟩, he⟩ := GoMap.len_pos_iff.mp h
    exact ⟨k, (mem_keys_validateProcesses compile).mp (GoMap.mem_keys.mpr ⟨_, he⟩)⟩
  · simp only [Option.isSome_none, Bool.false_eq_true, false_iff, not_exists]
    intro k hk
    obtain ⟨v, hv⟩ := GoMap.mem_keys.mp ((mem_keys_validateProcesses compile).mpr hk)
    exact h (GoMap.len_pos_iff.mpr ⟨_, hv⟩)

section DistinctPids

variable {compile} {cs : List Constraint} {ps : List Process}

/-- With distinct pids and some valid rule, a pid violates iff its process matches no valid
rule. -/
theorem violating_iff_unmatched (hnd : (ps.map (·.pid)).Nodup) (hv : validRegexps compile cs ≠ [])
    {k : Int} : Violating compile cs ps k ↔ ∃ q ∈ ps, q.pid = k ∧ Unmatched compile cs q := by
  have huniq : ∀ q ∈ ps, ∀ q' ∈ ps, q.pid = q'.pid → q = q' :=
    fun q hq q' hq' => List.inj_on_of_nodup_map hnd hq hq'
  constructor
  · rintro ⟨⟨r, hr, q, hq, rfl, -⟩, hno⟩
    refine ⟨q, hq, rfl, fun r' hr' => ?_⟩
    by_contra hm
    exact hno ⟨r', hr', q, hq, rfl, by simpa using hm⟩
  · rintro ⟨q, hq, rfl, hu⟩
    obtain ⟨r, hr⟩ := List.exists_mem_of_ne_nil _ hv
    refine ⟨⟨r, hr, q, hq, rfl, hu r hr⟩, ?_⟩
    rintro ⟨r', hr', q', hq', hpid, hm⟩
    rw [huniq q' hq' q hq hpid, hu r' hr'] at hm
    exact Bool.false_ne_true hm

/-- With distinct pids and some valid rule, every process that matches no valid rule is in the
result under its pid. -/
theorem mem_validateProcesses_of_unmatched (hnd : (ps.map (·.pid)).Nodup)
    (ord : RangeOrder (Int × Process)) {p : PodAgent} (hcs : p.constraints = cs)
    (hv : validRegexps compile cs ≠ []) {q : Process} (hq : q ∈ ps)
    (hu : Unmatched compile cs q) : (q.pid, q) ∈ (p.validateProcesses compile ord ps).entries := by
  subst hcs
  have hk : q.pid ∈ (p.validateProcesses compile ord ps).keys :=
    (mem_keys_validateProcesses compile).mpr ((violating_iff_unmatched hnd hv).mpr ⟨q, hq, rfl, hu⟩)
  obtain ⟨v, hv'⟩ := GoMap.mem_keys.mp hk
  obtain ⟨hvps, hpid, -⟩ := mem_validateProcesses compile hv'
  rwa [List.inj_on_of_nodup_map hnd hvps hq hpid] at hv'

/-- With distinct pids and some valid rule, the result's processes are, up to order, those that
match no valid rule. -/
theorem perm_unmatched (hnd : (ps.map (·.pid)).Nodup) (ord : RangeOrder (Int × Process))
    {p : PodAgent} (hv : validRegexps compile p.constraints ≠ []) :
    ((p.validateProcesses compile ord ps).entries.map (some ∘ pbProcess)).Perm
      ((ps.filter fun q => Unmatched compile p.constraints q).map
        fun q => some ⟨q.pid, q.name⟩) := by
  have h1 : ((p.validateProcesses compile ord ps).entries.map (some ∘ pbProcess)).Nodup := by
    refine List.Nodup.map_on (fun x hx y hy hxy => ?_) ((GoMap.nodup _).of_map _)
    obtain ⟨k, q⟩ := x
    obtain ⟨k', q'⟩ := y
    obtain ⟨-, rfl, -⟩ := mem_validateProcesses compile hx
    obtain ⟨-, rfl, -⟩ := mem_validateProcesses compile hy
    obtain ⟨hpid, -⟩ : q.pid = q'.pid ∧ q.name = q'.name := by simpa [pbProcess] using hxy
    rw [hpid] at hx ⊢
    rw [GoMap.eq_of_mem_entries hx hy]
  have h2 : ((ps.filter fun q => Unmatched compile p.constraints q).map
      fun q => (some ⟨q.pid, q.name⟩ : Option Tarianpb.Process)).Nodup := by
    refine List.Nodup.map_on (fun x hx y hy hxy => ?_) ((hnd.of_map _).filter _)
    obtain ⟨hpid, -⟩ : x.pid = y.pid ∧ x.name = y.name := by simpa using hxy
    exact List.inj_on_of_nodup_map hnd (List.mem_of_mem_filter hx) (List.mem_of_mem_filter hy) hpid
  rw [List.perm_ext_iff_of_nodup h1 h2]
  intro x
  simp only [List.mem_map, List.mem_filter, decide_eq_true_eq]
  constructor
  · rintro ⟨⟨k, q⟩, he, rfl⟩
    obtain ⟨hq, rfl, hu⟩ := mem_validateProcesses compile he
    exact ⟨q, ⟨hq, hu⟩, rfl⟩
  · rintro ⟨q, ⟨hq, hu⟩, rfl⟩
    exact ⟨(q.pid, q), mem_validateProcesses_of_unmatched hnd ord rfl hv hq hu, rfl⟩

end DistinctPids

/-- **One pass of `loopValidateProcesses` reports exactly the violating pids.** A request is sent
iff some pid violates; its single target lists every violating pid once, in filled slots, each
with a process of the snapshot that matches no valid rule. When the snapshot's pids are distinct,
nothing is sent if no rule is valid, and otherwise what is sent is, up to order, the processes
whose names match no valid rule. -/
theorem validateProcessesPass_reports_violating (ordDelete ordReport : RangeOrder (Int × Process))
    (p : PodAgent) (now : Timestamp) (ps : List Process) :
    ((p.validateProcessesPass compile ordDelete ordReport now ps).isSome ↔
        ∃ k, Violating compile p.constraints ps k) ∧
      (∀ req ∈ p.validateProcessesPass compile ordDelete ordReport now ps,
        ∃ t, req.event = some ⟨EventTypeViolation, none, some now, [t]⟩ ∧ t.pod = some p.pod ∧
          ListsViolating compile p.constraints ps t.violatingProcesses) ∧
      ((ps.map (·.pid)).Nodup →
        (validRegexps compile p.constraints = [] →
          p.validateProcessesPass compile ordDelete ordReport now ps = none) ∧
        (validRegexps compile p.constraints ≠ [] →
          ((p.validateProcessesPass compile ordDelete ordReport now ps).isSome ↔
            ∃ q ∈ ps, Unmatched compile p.constraints q) ∧
          ∀ req ∈ p.validateProcessesPass compile ordDelete ordReport now ps,
            ∃ t, req.event = some ⟨EventTypeViolation, none, some now, [t]⟩ ∧
              t.violatingProcesses.Perm
                ((ps.filter fun q => Unmatched compile p.constraints q).map
                  fun q => some ⟨q.pid, q.name⟩))) := by
  have hsome := isSome_validateProcessesPass compile ordDelete ordReport p now ps
  have hreq : ∀ req ∈ p.validateProcessesPass compile ordDelete ordReport now ps,
      req.event = some ⟨EventTypeViolation, none, some now, [⟨some p.pod,
        ((p.validateProcesses compile ordDelete ps).range ordReport).map (some ∘ pbProcess), [],
        none⟩]⟩ := by
    intro req hreq
    rw [validateProcessesPass_eq] at hreq
    split at hreq
    · rw [← Option.mem_some_iff.mp hreq]
      rfl
    · cases hreq
  refine ⟨hsome, fun req hr => ⟨_, hreq req hr, rfl, listsViolating_range compile _ _ p ps⟩,
    fun hnd => ⟨fun hv => ?_, fun hv => ⟨?_, fun req hr => ⟨_, hreq req hr, ?_⟩⟩⟩⟩
  · rw [← Option.not_isSome_iff_eq_none, hsome]
    rintro ⟨k, ⟨r, hr, -⟩, -⟩
    simp [hv] at hr
  · rw [hsome]
    simp only [violating_iff_unmatched hnd hv]
    constructor
    · rintro ⟨_, q, hq, -, hu⟩
      exact ⟨q, hq, hu⟩
    · rintro ⟨q, hq, hu⟩
      exact ⟨_, q, hq, rfl, hu⟩
  · exact ((GoMap.range_perm _ _).map _).trans (perm_unmatched hnd ordDelete hv)

/-- The deletion loop's order does not matter: it deletes the same pids in any order. -/
theorem validateProcesses_congr_ord (ord ord' : RangeOrder (Int × Process)) (p : PodAgent)
    (ps : List Process) :
    p.validateProcesses compile ord ps = p.validateProcesses compile ord' ps :=
  GoMap.deleteAll_congr _ fun _ => by rw [GoMap.mem_range_keys, GoMap.mem_range_keys]

/-- **Go's map order only reorders a process report**: whatever orders the runtime picks for the
two `range` loops, a pass sends a request under one choice iff under another, and the two
requests differ at most in the order of their processes. -/
theorem validateProcessesPass_range_orders (od od' orep orep' : RangeOrder (Int × Process))
    (p : PodAgent) (now : Timestamp) (ps : List Process) :
    ((p.validateProcessesPass compile od orep now ps).isSome ↔
        (p.validateProcessesPass compile od' orep' now ps).isSome) ∧
      ∀ req ∈ p.validateProcessesPass compile od orep now ps,
        ∀ req' ∈ p.validateProcessesPass compile od' orep' now ps,
          ∃ slots slots', req = violationRequest now ⟨some p.pod, slots, [], none⟩ ∧
            req' = violationRequest now ⟨some p.pod, slots', [], none⟩ ∧ slots.Perm slots' := by
  rw [validateProcessesPass_eq, validateProcessesPass_eq, validateProcesses_congr_ord compile od od']
  split
  · refine ⟨by simp, fun req hreq req' hreq' => ?_⟩
    rw [Option.mem_some_iff] at hreq hreq'
    exact ⟨_, _, hreq.symm, hreq'.symm,
      ((GoMap.range_perm _ _).trans (GoMap.range_perm _ _).symm).map _⟩
  · simp

end Pass

end Tarian.Podagent
