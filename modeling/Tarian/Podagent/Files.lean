import Tarian.Podagent.Basic
import Tarian.Sha256

/-!
# The file checksum validator

Model of `ValidateFileChecksums`, `ReportViolatedFilesToClusterAgent` and one iteration of
`loopValidateFileChecksums` (`pkg/podagent/podagent.go`).

* A `FileSystem` says, for each name, what `os.Open` and `io.Copy` make of it during the pass:
  the open fails, the file is read to its end, the copy fails after some bytes, or one of the two
  never returns. The validator does not stop on either error: it logs, then hashes what was
  copied, which is nothing when the open failed (`io.Copy` from a nil `*os.File` reads no byte).
  A pass returns only if no file it opens blocks (`FilesReturn`); the functions below give what
  a pass that returns computes.
* The digest compared is `fmt.Sprintf("%x", ...)` of SHA-256 (`Sha256.lean`) of the copied bytes:
  `fileDigest`.
* The loop over the constraints' `AllowedFiles` is one loop over their concatenation
  (`foldl_scanFileConstraint`); an invalid rule leaves the scan unchanged.

Results:
* `mem_keys_validateFileChecksums`, `mem_validateFileChecksums`: the result holds exactly the
  names of `Mismatched` for the digests `fileDigest`, each with that digest as actual and the
  expected digest of a valid rule for the name that differs from it.
* `validateFileChecksumsPass_reports_mismatched`: when every file a valid rule names is read to
  its end, a pass sends a request iff some name is mismatched for the files' contents, and its
  single target lists each such name once.
* `validateFileChecksums_allows_unopenable`: a file that cannot be opened passes a rule that
  expects the digest of the empty input.
* `mem_keys_validateFileChecksums_of_openError`: such a file is reported iff some valid rule names
  it and none expects that digest.
* `validateFileChecksumsPass_range_orders`: the orders of the two map ranges change at most the
  order of the files in a report.
-/

namespace Tarian.Podagent

open Tarian.Go Tarian.Sha256
open Tarian.Tarianpb (Bytes Constraint AllowedFileRule Target Timestamp IngestEventRequest
  EventTypeViolation)

/-- What `os.Open` and `io.Copy` make of a file during one pass. -/
inductive FileRead
  /-- `os.Open` fails. -/
  | openError
  /-- The file is read to its end. -/
  | readAll (contents : Bytes)
  /-- `io.Copy` fails after copying these bytes. -/
  | readError (copied : Bytes)
  /-- `os.Open` or `io.Copy` never returns: a FIFO without a writer, or a file such as
  `/dev/zero` that has no end. -/
  | blocks
  deriving DecidableEq, Repr

/-- The bytes `io.Copy` writes into the hash. A pass that opens a file that blocks never gets to
hash it (`FilesReturn`). -/
def FileRead.copied : FileRead → Bytes
  | .openError => []
  | .readAll contents => contents
  | .readError copied => copied
  | .blocks => []

/-- The files as one pass of the validator reads them, by name. -/
abbrev FileSystem := String → FileRead

/-- `fmt.Sprintf("%x", s256.Sum(nil))` after copying the file into `s256`. -/
def fileDigest (fs : FileSystem) (name : String) : String := sha256Hex (fs name).copied

/-- The agent's `violatedFile`. -/
structure ViolatedFile where
  name : String
  expectedSha256Sum : String
  actualSha256Sum : String
  deriving DecidableEq, Repr

/-- The two maps `ValidateFileChecksums` fills, keyed by file name. -/
structure FileScan where
  violatedFiles : GoMap String ViolatedFile
  allowedFiles : GoMap String Unit

/-- The body of the loop over a constraint's `AllowedFiles`. -/
def scanFile (fs : FileSystem) (s : FileScan) (allowedFile : AllowedFileRule) : FileScan :=
  if allowedFile.name = "" ∨ allowedFile.getSha256Sum = "" then s
  else
    let actualSha256Sum := fileDigest fs allowedFile.name
    if actualSha256Sum = allowedFile.getSha256Sum then
      { s with allowedFiles := s.allowedFiles.insert allowedFile.name () }
    else
      let violated : ViolatedFile :=
        ⟨allowedFile.name, allowedFile.getSha256Sum, actualSha256Sum⟩
      { s with violatedFiles := s.violatedFiles.insert allowedFile.name violated }

/-- The body of the loop over the (copied) constraints. -/
def scanFileConstraint (fs : FileSystem) (s : FileScan) (constraint : Constraint) : FileScan :=
  constraint.allowedFiles.foldl (scanFile fs) s

/-- `ValidateFileChecksums`: `ord` is the order of the `range allowedFiles` that deletes the
allowed names from `violatedFiles`. The copy of `p.constraints` taken under the read lock is the
list itself. -/
def PodAgent.validateFileChecksums (ord : RangeOrder (String × Unit)) (fs : FileSystem)
    (p : PodAgent) : GoMap String ViolatedFile :=
  let constraints := p.constraints
  let s := constraints.foldl (scanFileConstraint fs) ⟨.empty, .empty⟩
  s.violatedFiles.deleteAll ((s.allowedFiles.range ord).map Prod.fst)

/-! ## What the validator computes -/

/-- The file rules of all constraints, in the order the loops visit them. -/
def fileRules (cs : List Constraint) : List AllowedFileRule := cs.flatMap (·.allowedFiles)

/-- A rule the validator evaluates: both its name and its digest are non-empty. -/
def ValidFileRule (r : AllowedFileRule) : Prop := r.name ≠ "" ∧ r.getSha256Sum ≠ ""

instance (r : AllowedFileRule) : Decidable (ValidFileRule r) :=
  inferInstanceAs (Decidable (_ ∧ _))

/-- The pass returns: none of the files it opens, one for each valid rule, blocks. -/
def FilesReturn (fs : FileSystem) (cs : List Constraint) : Prop :=
  ∀ r ∈ fileRules cs, ValidFileRule r → fs r.name ≠ .blocks

instance (fs : FileSystem) (cs : List Constraint) : Decidable (FilesReturn fs cs) :=
  inferInstanceAs (Decidable (∀ r ∈ fileRules cs, _))

/-- A name a pass must report, for the digests `digest`: some valid rule for it expects another
digest, and no valid rule for it expects this one. -/
def Mismatched (digest : String → String) (cs : List Constraint) (n : String) : Prop :=
  (∃ r ∈ fileRules cs, ValidFileRule r ∧ r.name = n ∧ r.getSha256Sum ≠ digest n) ∧
    ¬∃ r ∈ fileRules cs, ValidFileRule r ∧ r.name = n ∧ r.getSha256Sum = digest n

/-- **The loop over the constraints is one loop over their rules.** -/
theorem foldl_scanFileConstraint (fs : FileSystem) :
    ∀ (cs : List Constraint) (s : FileScan),
      cs.foldl (scanFileConstraint fs) s = (fileRules cs).foldl (scanFile fs) s
  | [], _ => rfl
  | c :: cs, s => by
    rw [List.foldl_cons, foldl_scanFileConstraint fs cs]
    simp [fileRules, scanFileConstraint, List.foldl_append]

theorem foldl_scanFile_violated (fs : FileSystem) (rs : List AllowedFileRule) (s : FileScan) :
    (rs.foldl (scanFile fs) s).violatedFiles =
      rs.foldl (GoMap.insertIf (fun r => ValidFileRule r ∧ fileDigest fs r.name ≠ r.getSha256Sum)
        (·.name) fun r => ⟨r.name, r.getSha256Sum, fileDigest fs r.name⟩) s.violatedFiles := by
  induction rs generalizing s with
  | nil => rfl
  | cons r rs ih =>
    simp only [List.foldl_cons, ih]
    congr 1
    unfold scanFile GoMap.insertIf ValidFileRule
    by_cases h1 : r.name = ""
    · simp [h1]
    by_cases h2 : r.getSha256Sum = ""
    · simp [h2]
    by_cases h3 : fileDigest fs r.name = r.getSha256Sum <;> simp [h1, h2, h3]

theorem foldl_scanFile_allowed (fs : FileSystem) (rs : List AllowedFileRule) (s : FileScan) :
    (rs.foldl (scanFile fs) s).allowedFiles =
      rs.foldl (GoMap.insertIf (fun r => ValidFileRule r ∧ fileDigest fs r.name = r.getSha256Sum)
        (·.name) fun _ => ()) s.allowedFiles := by
  induction rs generalizing s with
  | nil => rfl
  | cons r rs ih =>
    simp only [List.foldl_cons, ih]
    congr 1
    unfold scanFile GoMap.insertIf ValidFileRule
    by_cases h1 : r.name = ""
    · simp [h1]
    by_cases h2 : r.getSha256Sum = ""
    · simp [h2]
    by_cases h3 : fileDigest fs r.name = r.getSha256Sum <;> simp [h1, h2, h3]

/-- The validator's result as the two maps of the flattened loop. -/
theorem validateFileChecksums_eq (ord : RangeOrder (String × Unit)) (fs : FileSystem)
    (p : PodAgent) :
    p.validateFileChecksums ord fs =
      let s := (fileRules p.constraints).foldl (scanFile fs) ⟨.empty, .empty⟩
      s.violatedFiles.deleteAll ((s.allowedFiles.range ord).map Prod.fst) := by
  simp only [PodAgent.validateFileChecksums, foldl_scanFileConstraint]

/-- **The result's names are exactly the mismatched names.** -/
theorem mem_keys_validateFileChecksums {ord : RangeOrder (String × Unit)} {fs : FileSystem}
    {p : PodAgent} {n : String} :
    n ∈ (p.validateFileChecksums ord fs).keys ↔ Mismatched (fileDigest fs) p.constraints n := by
  rw [validateFileChecksums_eq, GoMap.mem_keys]
  simp only [GoMap.mem_entries_deleteAll, GoMap.mem_range_keys, exists_and_right,
    ← GoMap.mem_keys, foldl_scanFile_violated, foldl_scanFile_allowed,
    GoMap.mem_keys_foldl_insertIf, GoMap.keys_empty, List.not_mem_nil, false_or, Mismatched]
  refine and_congr ?_ (not_congr ?_) <;>
    exact exists_congr fun r => and_congr_right fun _ => by aesop

/-- **Every entry of the result is a file under its own name, with its digest as actual and the
expected digest of a valid rule for it that differs from that digest.** -/
theorem mem_validateFileChecksums {ord : RangeOrder (String × Unit)} {fs : FileSystem}
    {p : PodAgent} {n : String} {v : ViolatedFile}
    (h : (n, v) ∈ (p.validateFileChecksums ord fs).entries) :
    v.name = n ∧ v.actualSha256Sum = fileDigest fs n ∧
      ∃ r ∈ fileRules p.constraints, ValidFileRule r ∧ r.name = n ∧
        v.expectedSha256Sum = r.getSha256Sum ∧ r.getSha256Sum ≠ fileDigest fs n := by
  rw [validateFileChecksums_eq] at h
  simp only [GoMap.mem_entries_deleteAll, foldl_scanFile_violated] at h
  rcases GoMap.mem_foldl_insertIf _ _ _ h.1 with h | ⟨r, hr, hP, he⟩
  · simp at h
  · obtain ⟨rfl, rfl⟩ : n = r.name ∧ v = ⟨r.name, r.getSha256Sum, fileDigest fs r.name⟩ := by
      simpa using he
    simp only [decide_eq_true_eq] at hP
    exact ⟨rfl, rfl, r, hr, hP.1, rfl, rfl, Ne.symm hP.2⟩


/-! ## The report and one pass of the loop -/

/-- `&tarianpb.ViolatedFile{Name, ActualSha256Sum, ExpectedSha256Sum}` for a visited entry. -/
def pbViolatedFile (e : String × ViolatedFile) : Tarianpb.ViolatedFile :=
  ⟨e.2.name, e.2.actualSha256Sum, e.2.expectedSha256Sum⟩

/-- `ReportViolatedFilesToClusterAgent`: the request it sends; `ord` is the order of its
`range`. -/
def PodAgent.reportViolatedFilesToClusterAgent (ord : RangeOrder (String × ViolatedFile))
    (p : PodAgent) (now : Timestamp) (violatedFiles : GoMap String ViolatedFile) :
    IngestEventRequest :=
  let vf := fillSlots pbViolatedFile (List.replicate violatedFiles.len none) 0
    (violatedFiles.range ord)
  violationRequest now ⟨some p.pod, [], vf, none⟩

/-- One iteration of `loopValidateFileChecksums` over the files `fs`: the request it sends, if
any. -/
def PodAgent.validateFileChecksumsPass (ordDelete : RangeOrder (String × Unit))
    (ordReport : RangeOrder (String × ViolatedFile)) (fs : FileSystem) (p : PodAgent)
    (now : Timestamp) : Option IngestEventRequest :=
  let violatedFiles := p.validateFileChecksums ordDelete fs
  if violatedFiles.len > 0 then some (p.reportViolatedFilesToClusterAgent ordReport now violatedFiles)
  else none

/-- What a file report's slots must hold, for the digests `digest`: every slot filled, each
mismatched name once and no other name, each with its digest as actual and, as expected, the
digest of a valid rule for it that differs. -/
structure ListsMismatched (digest : String → String) (cs : List Constraint)
    (slots : List (Option Tarianpb.ViolatedFile)) : Prop where
  filled : ∀ s ∈ slots, s.isSome
  nodup : ((slots.filterMap id).map (·.name)).Nodup
  complete : ∀ n, n ∈ (slots.filterMap id).map (·.name) ↔ Mismatched digest cs n
  digests : ∀ f ∈ slots.filterMap id, f.actualSha256Sum = digest f.name ∧
    ∃ r ∈ fileRules cs, ValidFileRule r ∧ r.name = f.name ∧
      f.expectedSha256Sum = r.getSha256Sum ∧ r.getSha256Sum ≠ digest f.name

theorem validateFileChecksumsPass_eq (ordDelete : RangeOrder (String × Unit))
    (ordReport : RangeOrder (String × ViolatedFile)) (fs : FileSystem) (p : PodAgent)
    (now : Timestamp) :
    p.validateFileChecksumsPass ordDelete ordReport fs now =
      if 0 < (p.validateFileChecksums ordDelete fs).len then
        some (violationRequest now ⟨some p.pod, [],
          ((p.validateFileChecksums ordDelete fs).range ordReport).map (some ∘ pbViolatedFile),
          none⟩)
      else none := by
  simp only [PodAgent.validateFileChecksumsPass, PodAgent.reportViolatedFilesToClusterAgent,
    fillSlots_range, gt_iff_lt]

theorem listsMismatched_range (ord : RangeOrder (String × Unit))
    (ord' : RangeOrder (String × ViolatedFile)) (fs : FileSystem) (p : PodAgent) :
    ListsMismatched (fileDigest fs) p.constraints
      (((p.validateFileChecksums ord fs).range ord').map (some ∘ pbViolatedFile)) := by
  have hf : (((p.validateFileChecksums ord fs).range ord').map (some ∘ pbViolatedFile)).filterMap
      id = ((p.validateFileChecksums ord fs).range ord').map pbViolatedFile := by
    simp [List.filterMap_map]
  have hnames : (((p.validateFileChecksums ord fs).range ord').map pbViolatedFile).map (·.name) =
      ((p.validateFileChecksums ord fs).range ord').map Prod.fst := by
    rw [List.map_map]
    exact List.map_congr_left fun _ he => (mem_validateFileChecksums (GoMap.mem_range.mp he)).1
  refine ⟨fun s hs => ?_, ?_, fun n => ?_, fun f hf' => ?_⟩
  · obtain ⟨_, -, rfl⟩ := List.mem_map.mp hs; rfl
  · rw [hf, hnames]; exact GoMap.nodup_range_keys _ _
  · rw [hf, hnames, GoMap.mem_range_keys, mem_keys_validateFileChecksums]
  · rw [hf, List.mem_map] at hf'
    obtain ⟨⟨n, v⟩, he, rfl⟩ := hf'
    obtain ⟨rfl, hact, hr⟩ := mem_validateFileChecksums (GoMap.mem_range.mp he)
    exact ⟨hact, hr⟩

theorem isSome_validateFileChecksumsPass (ordDelete : RangeOrder (String × Unit))
    (ordReport : RangeOrder (String × ViolatedFile)) (fs : FileSystem) (p : PodAgent)
    (now : Timestamp) :
    (p.validateFileChecksumsPass ordDelete ordReport fs now).isSome ↔
      ∃ n, Mismatched (fileDigest fs) p.constraints n := by
  rw [validateFileChecksumsPass_eq]
  split <;> rename_i h
  · simp only [Option.isSome_some, true_iff]
    obtain ⟨⟨n, _⟩, he⟩ := GoMap.len_pos_iff.mp h
    exact ⟨n, mem_keys_validateFileChecksums.mp (GoMap.mem_keys.mpr ⟨_, he⟩)⟩
  · simp only [Option.isSome_none, Bool.false_eq_true, false_iff, not_exists]
    intro n hn
    obtain ⟨v, hv⟩ := GoMap.mem_keys.mp (mem_keys_validateFileChecksums.mpr hn)
    exact h (GoMap.len_pos_iff.mpr ⟨_, hv⟩)

section SameDigests

variable {d d' : String → String} {cs : List Constraint}

/-- Only the digests of files that valid rules name matter. -/
theorem mismatched_congr (h : ∀ r ∈ fileRules cs, ValidFileRule r → d r.name = d' r.name)
    (n : String) : Mismatched d cs n ↔ Mismatched d' cs n := by
  unfold Mismatched
  refine and_congr ?_ (not_congr ?_) <;>
    exact exists_congr fun r => and_congr_right fun hr => and_congr_right fun hv =>
      and_congr_right fun hn => by rw [← hn, h r hr hv]

theorem listsMismatched_congr (h : ∀ r ∈ fileRules cs, ValidFileRule r → d r.name = d' r.name)
    {slots : List (Option Tarianpb.ViolatedFile)} (hl : ListsMismatched d cs slots) :
    ListsMismatched d' cs slots := by
  refine ⟨hl.filled, hl.nodup, fun n => (hl.complete n).trans (mismatched_congr h n),
    fun f hf => ?_⟩
  obtain ⟨hact, r, hr, hv, hn, hexp, hne⟩ := hl.digests f hf
  rw [← hn, h r hr hv] at hact hne
  exact ⟨hn ▸ hact, r, hr, hv, hn, hexp, hn ▸ hne⟩

end SameDigests

/-- **One pass of `loopValidateFileChecksums` reports exactly the mismatched files.** When every
file that a valid rule names is read to its end, a request is sent iff some name is mismatched for
the SHA-256 of the files' contents; its single target lists each such name once, in filled slots,
with the file's digest as actual and, as expected, the digest of a valid rule for it that
differs. -/
theorem validateFileChecksumsPass_reports_mismatched (ordDelete : RangeOrder (String × Unit))
    (ordReport : RangeOrder (String × ViolatedFile)) (fs : FileSystem) (contents : String → Bytes)
    (p : PodAgent) (now : Timestamp)
    (hread : ∀ r ∈ fileRules p.constraints, ValidFileRule r →
      fs r.name = .readAll (contents r.name)) :
    ((p.validateFileChecksumsPass ordDelete ordReport fs now).isSome ↔
        ∃ n, Mismatched (fun n => sha256Hex (contents n)) p.constraints n) ∧
      ∀ req ∈ p.validateFileChecksumsPass ordDelete ordReport fs now,
        ∃ t, req.event = some ⟨EventTypeViolation, none, some now, [t]⟩ ∧ t.pod = some p.pod ∧
          ListsMismatched (fun n => sha256Hex (contents n)) p.constraints t.violatedFiles := by
  have hd : ∀ r ∈ fileRules p.constraints, ValidFileRule r →
      fileDigest fs r.name = sha256Hex (contents r.name) := fun r hr hv => by
    simp [fileDigest, hread r hr hv, FileRead.copied]
  refine ⟨(isSome_validateFileChecksumsPass ..).trans
    (exists_congr fun n => mismatched_congr hd n), fun req hreq => ?_⟩
  rw [validateFileChecksumsPass_eq] at hreq
  split at hreq
  · obtain rfl := Option.mem_some_iff.mp hreq
    exact ⟨_, rfl, rfl, listsMismatched_congr hd (listsMismatched_range ..)⟩
  · simp at hreq

/-- The spec's file scenario, read to its end: the file is empty and the rule expects another
digest. -/
theorem validateFileChecksumsPass_reports_app_conf :
    (∀ r ∈ fileRules [⟨"", none, [], [⟨"/etc/app.conf", some "abc123"⟩]⟩], ValidFileRule r →
        FileRead.readAll [] = FileRead.readAll []) ∧
      ((((PodAgent.newPodAgent "").setConstraints
          [⟨"", none, [], [⟨"/etc/app.conf", some "abc123"⟩]⟩]).validateFileChecksumsPass
          .asStored .asStored (fun _ => .readAll []) ⟨0, 0⟩).isSome ↔
        ∃ n, Mismatched (fun _ => sha256Hex [])
          [⟨"", none, [], [⟨"/etc/app.conf", some "abc123"⟩]⟩] n) :=
  ⟨fun _ _ _ => rfl, (validateFileChecksumsPass_reports_mismatched .asStored .asStored
    (fun _ => .readAll []) (fun _ => []) ((PodAgent.newPodAgent "").setConstraints
      [⟨"", none, [], [⟨"/etc/app.conf", some "abc123"⟩]⟩]) ⟨0, 0⟩ fun _ _ _ => rfl).1⟩

/-- **A file that cannot be opened passes a rule that expects the digest of the empty input**: the
validator hashes the nothing it copied, so the name is not in its result. -/
theorem validateFileChecksums_allows_unopenable (ord : RangeOrder (String × Unit)) :
    "/etc/app.conf" ∉ (((PodAgent.newPodAgent "").setConstraints [⟨"", none, [],
      [⟨"/etc/app.conf",
        some "e3b0c44298fc1c149afbf4c8996fb92427ae41e4649b934ca495991b7852b855"⟩]⟩]).validateFileChecksums
      ord (fun _ => .openError)).keys := by
  rw [mem_keys_validateFileChecksums]
  rintro ⟨⟨r, hr, -, -, hne⟩, -⟩
  simp only [fileRules, List.flatMap_cons, List.flatMap_nil, List.append_nil,
    List.mem_singleton, PodAgent.setConstraints_constraints] at hr
  subst hr
  exact hne (by simp [fileDigest, FileRead.copied, sha256Hex_nil, AllowedFileRule.getSha256Sum])

/-- **A file that cannot be opened is reported only if no rule expects the empty digest**: it is in
the result iff some valid rule names it and no valid rule for it expects `e3b0c442…b855`, the
digest of the empty input. -/
theorem mem_keys_validateFileChecksums_of_openError (ord : RangeOrder (String × Unit))
    {fs : FileSystem} (p : PodAgent) {n : String} (hn : fs n = .openError) :
    n ∈ (p.validateFileChecksums ord fs).keys ↔
      (∃ r ∈ fileRules p.constraints, ValidFileRule r ∧ r.name = n) ∧
        ¬∃ r ∈ fileRules p.constraints, ValidFileRule r ∧ r.name = n ∧
          r.getSha256Sum = "e3b0c44298fc1c149afbf4c8996fb92427ae41e4649b934ca495991b7852b855" := by
  have hd : fileDigest fs n =
      "e3b0c44298fc1c149afbf4c8996fb92427ae41e4649b934ca495991b7852b855" := by
    rw [fileDigest, hn]
    exact sha256Hex_nil
  rw [mem_keys_validateFileChecksums, Mismatched, hd]
  constructor
  · rintro ⟨⟨r, hr, hv, hrn, -⟩, hno⟩
    exact ⟨⟨r, hr, hv, hrn⟩, hno⟩
  · rintro ⟨⟨r, hr, hv, hrn⟩, hno⟩
    exact ⟨⟨r, hr, hv, hrn, fun he => hno ⟨r, hr, hv, hrn, he⟩⟩, hno⟩

/-- A missing `/etc/app.conf` under the rule expecting `abc123` is reported. -/
theorem mem_keys_validateFileChecksums_of_openError_app_conf :
    let p := (PodAgent.newPodAgent "").setConstraints
      [⟨"", none, [], [⟨"/etc/app.conf", some "abc123"⟩]⟩]
    (fun _ => .openError : FileSystem) "/etc/app.conf" = .openError ∧
      ("/etc/app.conf" ∈ (p.validateFileChecksums .asStored fun _ => .openError).keys ↔
        (∃ r ∈ fileRules p.constraints, ValidFileRule r ∧ r.name = "/etc/app.conf") ∧
          ¬∃ r ∈ fileRules p.constraints, ValidFileRule r ∧ r.name = "/etc/app.conf" ∧
            r.getSha256Sum =
              "e3b0c44298fc1c149afbf4c8996fb92427ae41e4649b934ca495991b7852b855") := by
  intro p
  exact ⟨rfl, mem_keys_validateFileChecksums_of_openError .asStored p rfl⟩


/-- The deletion loop's order does not matter: it deletes the same names in any order. -/
theorem validateFileChecksums_congr_ord (ord ord' : RangeOrder (String × Unit)) (fs : FileSystem)
    (p : PodAgent) : p.validateFileChecksums ord fs = p.validateFileChecksums ord' fs :=
  GoMap.deleteAll_congr _ fun _ => by rw [GoMap.mem_range_keys, GoMap.mem_range_keys]

/-- **Go's map order only reorders a file report**: whatever orders the runtime picks for the two
`range` loops, a pass sends a request under one choice iff under another, and the two requests
differ at most in the order of their files. -/
theorem validateFileChecksumsPass_range_orders (od od' : RangeOrder (String × Unit))
    (orep orep' : RangeOrder (String × ViolatedFile)) (fs : FileSystem) (p : PodAgent)
    (now : Timestamp) :
    ((p.validateFileChecksumsPass od orep fs now).isSome ↔
        (p.validateFileChecksumsPass od' orep' fs now).isSome) ∧
      ∀ req ∈ p.validateFileChecksumsPass od orep fs now,
        ∀ req' ∈ p.validateFileChecksumsPass od' orep' fs now,
          ∃ slots slots', req = violationRequest now ⟨some p.pod, [], slots, none⟩ ∧
            req' = violationRequest now ⟨some p.pod, [], slots', none⟩ ∧ slots.Perm slots' := by
  rw [validateFileChecksumsPass_eq, validateFileChecksumsPass_eq,
    validateFileChecksums_congr_ord od od']
  split
  · refine ⟨by simp, fun req hreq req' hreq' => ?_⟩
    rw [Option.mem_some_iff] at hreq hreq'
    exact ⟨_, _, hreq.symm, hreq'.symm,
      ((GoMap.range_perm _ _).trans (GoMap.range_perm _ _).symm).map _⟩
  · simp

end Tarian.Podagent
