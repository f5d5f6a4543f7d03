import Tarian.Podagent.Processes
import Tarian.Podagent.Files

/-!
# How constraints compose

The cluster agent answers `GetConstraints` with every constraint whose selector matches the pod,
and the pod agent checks its snapshot against all of them at once (`ValidateProcesses`,
`ValidateFileChecksums` in `pkg/podagent/podagent.go`). The validators read a constraint list as
a union of allow rules: a pid is reported when no valid rule of any constraint matches its
process, a file when no valid rule for its name expects its digest. This module states what that
means for two constraint lists that meet on one pod.

Results:
* `mem_keys_validateProcesses_append`: under `cs₁ ++ cs₂` the validator reports a pid iff one of
  the lists has a valid rule and each list that has one reports it on its own.
* `validateProcesses_keys_antitone`: more constraints never report more pids, once the smaller
  list has a valid rule; in particular the order and repetition of the constraints the cluster
  agent returns do not change what is reported.
* `mem_keys_validateFileChecksums_append`, `mem_keys_validateFileChecksums_antitone`: the same,
  file by file, with "has a valid rule for the file" in place of "has a valid rule".
-/

namespace Tarian.Podagent

open Tarian.Go
open Tarian.Sha256 (sha256Hex sha256Hex_nil)
open Tarian.Tarianpb (Constraint AllowedProcessRule AllowedFileRule)

theorem flatMap_subset_flatMap {α β : Type} (f : α → List β) {l l' : List α} (h : l ⊆ l') :
    l.flatMap f ⊆ l'.flatMap f := fun _ hx =>
  let ⟨a, ha, hx⟩ := List.mem_flatMap.mp hx
  List.mem_flatMap.mpr ⟨a, h ha, hx⟩

/-! ## Process rules -/

section Processes

variable {compile : String → Option Regexp}

theorem validRegexps_append (cs₁ cs₂ : List Constraint) :
    validRegexps compile (cs₁ ++ cs₂) = validRegexps compile cs₁ ++ validRegexps compile cs₂ := by
  simp [validRegexps, List.filterMap_append]

theorem validRegexps_subset {cs cs' : List Constraint} (h : cs ⊆ cs') :
    validRegexps compile cs ⊆ validRegexps compile cs' :=
  List.filterMap_subset _ (flatMap_subset_flatMap _ h)

/-- A pid violating a list with more valid rules violates every list with fewer, as long as that
list has one: the process that failed a rule matches none of the larger list's rules. -/
theorem violating_of_validRegexps_subset {cs cs' : List Constraint} {ps : List Process} {k : Int}
    (hsub : validRegexps compile cs ⊆ validRegexps compile cs')
    (hv : validRegexps compile cs ≠ []) (h : Violating compile cs' ps k) :
    Violating compile cs ps k := by
  obtain ⟨⟨-, -, q, hq, hk, -⟩, hno⟩ := h
  obtain ⟨r, hr⟩ := List.exists_mem_of_ne_nil _ hv
  refine ⟨⟨r, hr, q, hq, hk, ?_⟩, fun ⟨r', hr', q', hq', hk', hm⟩ => hno ⟨r', hsub hr', q', hq', hk', hm⟩⟩
  exact Bool.eq_false_iff.mpr fun hm => hno ⟨r, hsub hr, q, hq, hk, hm⟩

theorem violating_append {cs₁ cs₂ : List Constraint} {ps : List Process} {k : Int} :
    Violating compile (cs₁ ++ cs₂) ps k ↔
      (validRegexps compile cs₁ ≠ [] ∨ validRegexps compile cs₂ ≠ []) ∧
        (validRegexps compile cs₁ ≠ [] → Violating compile cs₁ ps k) ∧
        (validRegexps compile cs₂ ≠ [] → Violating compile cs₂ ps k) := by
  have h₁ : validRegexps compile cs₁ ⊆ validRegexps compile (cs₁ ++ cs₂) := by
    rw [validRegexps_append]; exact List.subset_append_left _ _
  have h₂ : validRegexps compile cs₂ ⊆ validRegexps compile (cs₁ ++ cs₂) := by
    rw [validRegexps_append]; exact List.subset_append_right _ _
  constructor
  · intro h
    obtain ⟨r, hr, -⟩ := h.1
    rw [validRegexps_append, List.mem_append] at hr
    exact ⟨hr.imp List.ne_nil_of_mem List.ne_nil_of_mem,
      fun hv => violating_of_validRegexps_subset h₁ hv h,
      fun hv => violating_of_validRegexps_subset h₂ hv h⟩
  · rintro ⟨hne, hv₁, hv₂⟩
    have hfail : ∃ r ∈ validRegexps compile (cs₁ ++ cs₂), ∃ q ∈ ps,
        q.pid = k ∧ r.matchString q.name = false := by
      rcases hne with hne | hne
      · obtain ⟨⟨r, hr, hq⟩, -⟩ := hv₁ hne
        exact ⟨r, h₁ hr, hq⟩
      · obtain ⟨⟨r, hr, hq⟩, -⟩ := hv₂ hne
        exact ⟨r, h₂ hr, hq⟩
    refine ⟨hfail, fun ⟨r, hr, hm⟩ => ?_⟩
    rw [validRegexps_append, List.mem_append] at hr
    rcases hr with hr | hr
    · exact (hv₁ (List.ne_nil_of_mem hr)).2 ⟨r, hr, hm⟩
    · exact (hv₂ (List.ne_nil_of_mem hr)).2 ⟨r, hr, hm⟩

variable (compile)

/-- **Two constraint lists on one pod**: under `cs₁ ++ cs₂` the process validator reports a pid iff
one of the lists has a valid rule and each list that has one reports the pid on its own. -/
theorem mem_keys_validateProcesses_append (ord ord₁ ord₂ : RangeOrder (Int × Process))
    (p : PodAgent) (cs₁ cs₂ : List Constraint) (ps : List Process) (k : Int) :
    k ∈ ((p.setConstraints (cs₁ ++ cs₂)).validateProcesses compile ord ps).keys ↔
      (validRegexps compile cs₁ ≠ [] ∨ validRegexps compile cs₂ ≠ []) ∧
        (validRegexps compile cs₁ ≠ [] →
          k ∈ ((p.setConstraints cs₁).validateProcesses compile ord₁ ps).keys) ∧
        (validRegexps compile cs₂ ≠ [] →
          k ∈ ((p.setConstraints cs₂).validateProcesses compile ord₂ ps).keys) := by
  simp only [mem_keys_validateProcesses, PodAgent.setConstraints_constraints]
  exact violating_append

/-- **More constraints never report more pids**: every pid reported under `cs'` is reported under
any `cs ⊆ cs'` that has a valid rule. -/
theorem validateProcesses_keys_antitone (ord ord' : RangeOrder (Int × Process)) (p : PodAgent)
    (ps : List Process) {cs cs' : List Constraint} (hsub : cs ⊆ cs')
    (hv : validRegexps compile cs ≠ []) :
    ((p.setConstraints cs').validateProcesses compile ord' ps).keys ⊆
      ((p.setConstraints cs).validateProcesses compile ord ps).keys := by
  intro k hk
  rw [mem_keys_validateProcesses, PodAgent.setConstraints_constraints] at hk ⊢
  exact violating_of_validRegexps_subset (validRegexps_subset hsub) hv hk

end Processes

/-- An `nginx` policy, then an `sh` policy added to it, with `regexp.Compile` read as equality. -/
theorem validateProcesses_keys_antitone_sh :
    let compile : String → Option Regexp := fun s => some ⟨(· == s)⟩
    let cs : List Constraint := [⟨"", none, [⟨some "nginx"⟩], []⟩]
    cs ⊆ cs ++ [⟨"", none, [⟨some "sh"⟩], []⟩] ∧ validRegexps compile cs ≠ [] ∧
      ((PodAgent.newPodAgent "").setConstraints (cs ++ [⟨"", none, [⟨some "sh"⟩], []⟩])
          |>.validateProcesses compile .asStored [⟨1, "nginx"⟩, ⟨2, "sh"⟩, ⟨3, "nc"⟩]).keys ⊆
        ((PodAgent.newPodAgent "").setConstraints cs
          |>.validateProcesses compile .asStored [⟨1, "nginx"⟩, ⟨2, "sh"⟩, ⟨3, "nc"⟩]).keys := by
  intro compile cs
  have hsub : cs ⊆ cs ++ [⟨"", none, [⟨some "sh"⟩], []⟩] := List.subset_append_left _ _
  have hv : validRegexps compile cs ≠ [] := List.cons_ne_nil _ _
  exact ⟨hsub, hv, validateProcesses_keys_antitone compile .asStored .asStored _ _ hsub hv⟩

/-! ## File rules -/

/-- `cs` has a valid rule for the file `n`. -/
def HasFileRule (cs : List Constraint) (n : String) : Prop :=
  ∃ r ∈ fileRules cs, ValidFileRule r ∧ r.name = n

section Files

variable {digest : String → String}

theorem fileRules_append (cs₁ cs₂ : List Constraint) :
    fileRules (cs₁ ++ cs₂) = fileRules cs₁ ++ fileRules cs₂ := by
  simp [fileRules]

theorem fileRules_subset {cs cs' : List Constraint} (h : cs ⊆ cs') :
    fileRules cs ⊆ fileRules cs' :=
  flatMap_subset_flatMap _ h

/-- A file mismatched under a list with more rules is mismatched under every list with fewer that
has a valid rule for it: that rule cannot expect the file's digest. -/
theorem mismatched_of_fileRules_subset {cs cs' : List Constraint} {n : String}
    (hsub : fileRules cs ⊆ fileRules cs') (hn : HasFileRule cs n)
    (h : Mismatched digest cs' n) : Mismatched digest cs n := by
  obtain ⟨r, hr, hv, hrn⟩ := hn
  refine ⟨⟨r, hr, hv, hrn, fun he => h.2 ⟨r, hsub hr, hv, hrn, he⟩⟩,
    fun ⟨r', hr', hm⟩ => h.2 ⟨r', hsub hr', hm⟩⟩

theorem mismatched_append {cs₁ cs₂ : List Constraint} {n : String} :
    Mismatched digest (cs₁ ++ cs₂) n ↔
      (HasFileRule cs₁ n ∨ HasFileRule cs₂ n) ∧
        (HasFileRule cs₁ n → Mismatched digest cs₁ n) ∧
        (HasFileRule cs₂ n → Mismatched digest cs₂ n) := by
  have h₁ : fileRules cs₁ ⊆ fileRules (cs₁ ++ cs₂) := by
    rw [fileRules_append]; exact List.subset_append_left _ _
  have h₂ : fileRules cs₂ ⊆ fileRules (cs₁ ++ cs₂) := by
    rw [fileRules_append]; exact List.subset_append_right _ _
  constructor
  · intro h
    obtain ⟨r, hr, hv, hrn, -⟩ := h.1
    rw [fileRules_append, List.mem_append] at hr
    exact ⟨hr.imp (fun hr => ⟨r, hr, hv, hrn⟩) (fun hr => ⟨r, hr, hv, hrn⟩),
      fun hn => mismatched_of_fileRules_subset h₁ hn h,
      fun hn => mismatched_of_fileRules_subset h₂ hn h⟩
  · rintro ⟨hn, hm₁, hm₂⟩
    have hfail : ∃ r ∈ fileRules (cs₁ ++ cs₂), ValidFileRule r ∧ r.name = n ∧
        r.getSha256Sum ≠ digest n := by
      rcases hn with hn | hn
      · obtain ⟨⟨r, hr, hq⟩, -⟩ := hm₁ hn
        exact ⟨r, h₁ hr, hq⟩
      · obtain ⟨⟨r, hr, hq⟩, -⟩ := hm₂ hn
        exact ⟨r, h₂ hr, hq⟩
    refine ⟨hfail, fun ⟨r, hr, hv, hrn, he⟩ => ?_⟩
    rw [fileRules_append, List.mem_append] at hr
    rcases hr with hr | hr
    · exact (hm₁ ⟨r, hr, hv, hrn⟩).2 ⟨r, hr, hv, hrn, he⟩
    · exact (hm₂ ⟨r, hr, hv, hrn⟩).2 ⟨r, hr, hv, hrn, he⟩

end Files

/-- **Two constraint lists on one pod, file by file**: under `cs₁ ++ cs₂` the checksum validator
reports a file iff one of the lists has a valid rule for it and each list that has one reports it
on its own. -/
theorem mem_keys_validateFileChecksums_append (ord ord₁ ord₂ : RangeOrder (String × Unit))
    (fs : FileSystem) (p : PodAgent) (cs₁ cs₂ : List Constraint) (n : String) :
    n ∈ ((p.setConstraints (cs₁ ++ cs₂)).validateFileChecksums ord fs).keys ↔
      (HasFileRule cs₁ n ∨ HasFileRule cs₂ n) ∧
        (HasFileRule cs₁ n → n ∈ ((p.setConstraints cs₁).validateFileChecksums ord₁ fs).keys) ∧
        (HasFileRule cs₂ n → n ∈ ((p.setConstraints cs₂).validateFileChecksums ord₂ fs).keys) := by
  simp only [mem_keys_validateFileChecksums, PodAgent.setConstraints_constraints]
  exact mismatched_append

/-- **More constraints never report a file that fewer, with a rule for it, would pass.** -/
theorem mem_keys_validateFileChecksums_antitone (ord ord' : RangeOrder (String × Unit))
    (fs : FileSystem) (p : PodAgent) {cs cs' : List Constraint} {n : String} (hsub : cs ⊆ cs')
    (hn : HasFileRule cs n)
    (h : n ∈ ((p.setConstraints cs').validateFileChecksums ord' fs).keys) :
    n ∈ ((p.setConstraints cs).validateFileChecksums ord fs).keys := by
  rw [mem_keys_validateFileChecksums, PodAgent.setConstraints_constraints] at h ⊢
  exact mismatched_of_fileRules_subset (fileRules_subset hsub) hn h

/-- `/etc/app.conf` expected as `abc123`, then also as `def456`, on a pod where it cannot be
opened. -/
theorem mem_keys_validateFileChecksums_antitone_app_conf :
    let cs : List Constraint := [⟨"", none, [], [⟨"/etc/app.conf", some "abc123"⟩]⟩]
    let cs' : List Constraint := cs ++ [⟨"", none, [], [⟨"/etc/app.conf", some "def456"⟩]⟩]
    let fs : FileSystem := fun _ => .openError
    cs ⊆ cs' ∧ HasFileRule cs "/etc/app.conf" ∧
      "/etc/app.conf" ∈
        ((PodAgent.newPodAgent "").setConstraints cs' |>.validateFileChecksums .asStored fs).keys ∧
      "/etc/app.conf" ∈
        ((PodAgent.newPodAgent "").setConstraints cs |>.validateFileChecksums .asStored fs).keys := by
  intro cs cs' fs
  have hsub : cs ⊆ cs' := List.subset_append_left _ _
  have hn : HasFileRule cs "/etc/app.conf" := ⟨_, List.mem_singleton_self _, by decide, rfl⟩
  have h : "/etc/app.conf" ∈
      ((PodAgent.newPodAgent "").setConstraints cs' |>.validateFileChecksums .asStored fs).keys := by
    rw [mem_keys_validateFileChecksums, PodAgent.setConstraints_constraints,
      show fileDigest fs = fun _ => sha256Hex [] from rfl, sha256Hex_nil]
    unfold Mismatched; decide
  exact ⟨hsub, hn, h, mem_keys_validateFileChecksums_antitone .asStored .asStored fs _ hsub hn h⟩

end Tarian.Podagent
