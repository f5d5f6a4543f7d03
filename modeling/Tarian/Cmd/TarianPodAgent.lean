import Mathlib.Data.List.Basic
import Mathlib.Data.List.DropRight
import Tarian.Podagent.Agent

/-!
# The pod agent's command: the labels file and the flags

Model of `cmd/tarian-pod-agent/tarian-pod-agent.go`. `readLabelsFromFile` runs a `bufio.Scanner`
split with `ScanLines` over the file, and for each line that holds an `=` makes the label
`line[:idx]`, `strings.Trim(line[idx+1:], "\"")`. `run` builds the agent from the `run` command's
flags (`configureAgent`) before `agent.Run()`.

* `scanLines` is the scanner with its default buffer. It splits the input at `'\n'`, drops a
  final empty line and a `'\r'` before each `'\n'` (`dropCR`), and stops with `ErrTooLong` at the
  first line of `MaxScanTokenSize` bytes or more: such a line, even with its `'\n'`, does not fit
  in the buffer. The loop `for scanner.Scan()` sees the tokens before the stop; `scanner.Err()`
  is never read, so the stop is not reported.
* A copy error after some bytes ends the scan like the end of the file: the scanner's split
  function is then called at EOF on what it holds.
* Of the flags, `run` hands the agent the cluster agent's address and the pod's identity; the TLS
  flags only choose dial options, and the logging flags the logger, neither of which is modelled.

Results:
* `readLabelsFromFile_labelsFile`: the reader inverts the `KEY="VALUE"` encoding, lines without
  `=` interleaved, with or without a final newline, when every line is shorter than
  `MaxScanTokenSize`.
* `readLabelsFromFile_truncates_long_line`: a label whose line is 64 KiB long is dropped, with a
  nil error.
* `readLabelsFromFile_wellFormed`: every label it returns has a key without `=` and no `'\n'`
  in key or value, and a value that neither begins nor ends with `"`.
* `readLabelsFromFile_reread`: those labels, written back one `KEY="VALUE"` line each, read back
  unchanged when the lines are short enough.
* `configureAgent_getConstraintsRequest`: an agent started on such a labels file asks for the
  constraints of its namespace flag and exactly the file's labels, in order.
-/

namespace Tarian.Cmd

open Tarian.Podagent (FileSystem FileRead PodAgent)
open Tarian.Tarianpb (Bytes Label)

/-- `bufio.MaxScanTokenSize`, the largest token a `Scanner` with its default buffer holds. -/
def MaxScanTokenSize : Nat := 64 * 1024

/-- `bufio.ErrTooLong`, the one error that can end the scan of a file read without error. -/
inductive ScanError
  | errTooLong
  deriving DecidableEq, Repr

/-- `bufio`'s `dropCR`: a final `'\r'` is dropped. -/
def dropCR (line : Bytes) : Bytes := if line.getLast? = some 13 then line.dropLast else line

/-- The lines `ScanLines` cuts: the input split at `'\n'`, without the empty line after a final
`'\n'` (or of an empty input). -/
def lineSegments (input : Bytes) : List Bytes :=
  let s := input.splitOn 10
  if s.getLast? = some [] then s.dropLast else s

/-- The scan over the cut lines: each line as a token, until one too long for the buffer. -/
def scanTokens : List Bytes → List Bytes × Option ScanError
  | [] => ([], none)
  | line :: rest =>
    if MaxScanTokenSize ≤ line.length then ([], some .errTooLong)
    else
      let r := scanTokens rest
      (dropCR line :: r.1, r.2)

/-- `bufio.NewScanner` with `ScanLines` over the input: the tokens `Scan` yields, and the error
`Err` would report. -/
def scanLines (input : Bytes) : List Bytes × Option ScanError := scanTokens (lineSegments input)

/-- `strings.Trim(s, "\"")`. -/
def trimQuotes (s : Bytes) : Bytes := ((s.dropWhile (· == 34)).reverse.dropWhile (· == 34)).reverse

/-- The loop body: the label of a line that holds an `=` (`strings.Index(line, "=")`). -/
def labelOfLine (line : Bytes) : Option Label :=
  match line.findIdx? (· == 61) with
  | none => none
  | some idx => some ⟨line.take idx, trimQuotes (line.drop (idx + 1))⟩

/-- The `*PathError` `os.Open` returns. -/
structure PathError where
  op : String
  path : String
  deriving DecidableEq, Repr

/-- `readLabelsFromFile(path)`. -/
def readLabelsFromFile (fs : FileSystem) (path : String) : Except PathError (List Label) :=
  match fs path with
  | .openError => .error ⟨"open", path⟩
  | r => .ok ((scanLines r.copied).1.filterMap labelOfLine)

/-! ## The `KEY="VALUE"` encoding -/

/-- A line of a labels file: a label written `KEY="VALUE"`, or a line the reader skips. -/
inductive LabelLine
  | label (l : Label)
  | other (line : Bytes)

/-- The bytes of a line. -/
def LabelLine.render : LabelLine → Bytes
  | .label l => l.key ++ [61, 34] ++ l.value ++ [34]
  | .other line => line

/-- The label a line encodes, if it is one. -/
def LabelLine.label? : LabelLine → Option Label
  | .label l => some l
  | .other _ => none

/-- The lines a file can hold for the encoding to be undone: a key without `=`, `'\n'` or `'\r'`
and a value without `'\n'` or `'\r'` that neither begins nor ends with `"`; a skipped line
without `=` or `'\n'`. -/
def LabelLine.WellFormed : LabelLine → Prop
  | .label l => 61 ∉ l.key ∧ 10 ∉ l.key ∧ 13 ∉ l.key ∧ 10 ∉ l.value ∧ 13 ∉ l.value ∧
      l.value.head? ≠ some 34 ∧ l.value.getLast? ≠ some 34
  | .other line => 61 ∉ line ∧ 10 ∉ line

instance : DecidablePred LabelLine.WellFormed
  | .label _ => inferInstanceAs (Decidable (_ ∧ _))
  | .other _ => inferInstanceAs (Decidable (_ ∧ _))

/-- A labels file: the lines joined by `'\n'`, with a final `'\n'` or without. -/
def labelsFile (lines : List LabelLine) (finalNewline : Bool) : Bytes :=
  [10].intercalate (lines.map LabelLine.render) ++ if finalNewline then [10] else []


/-! ## The reader undoes the encoding -/

theorem scanTokens_of_short :
    ∀ lines : List Bytes, (∀ s ∈ lines, s.length < MaxScanTokenSize) →
      scanTokens lines = (lines.map dropCR, none)
  | [], _ => rfl
  | line :: rest, h => by
    have hl := h line (List.mem_cons_self _ _)
    rw [scanTokens, if_neg (by omega), scanTokens_of_short rest fun s hs => h s (.tail _ hs)]
    rfl

theorem labelOfLine_of_not_mem {line : Bytes} (h : 61 ∉ line) : labelOfLine line = none := by
  have : line.findIdx? (· == 61) = none :=
    List.findIdx?_eq_none_iff.mpr fun x hx => by simpa using ne_of_mem_of_not_mem hx h
  simp [labelOfLine, this]

theorem trimQuotes_quoted {v : Bytes} (h1 : v.head? ≠ some 34) (h2 : v.getLast? ≠ some 34) :
    trimQuotes (34 :: (v ++ [34])) = v := by
  rcases List.eq_nil_or_concat v with rfl | ⟨w, b, rfl⟩
  · rfl
  · have hb : b ≠ 34 := by simpa using h2
    have hd : (w ++ [b, 34]).dropWhile (· == 34) = w ++ [b, 34] := by
      cases w with
      | nil => simp [hb]
      | cons a w => simp_all
    simp [trimQuotes, hd, hb]

/-- A label line reads back as its label when the key has no `=` and the value neither begins
nor ends with `"`. -/
theorem labelOfLine_render_label {l : Label} (hk : 61 ∉ l.key) (hh : l.value.head? ≠ some 34)
    (hl : l.value.getLast? ≠ some 34) :
    labelOfLine (dropCR (LabelLine.label l).render) = some l := by
  have hcr : dropCR (LabelLine.label l).render = (LabelLine.label l).render :=
    if_neg (by rw [LabelLine.render, List.getLast?_concat]; decide)
  have hidx : (l.key ++ [61, 34] ++ l.value ++ [34]).findIdx? (· == 61) = some l.key.length := by
    have : l.key.findIdx? (· == 61) = none :=
      List.findIdx?_eq_none_iff.mpr fun x hx => by simpa using ne_of_mem_of_not_mem hx hk
    simp [List.findIdx?_append, this]
  have hdrop : (l.key ++ [61, 34] ++ l.value ++ [34]).drop (l.key.length + 1) =
      34 :: (l.value ++ [34]) := by
    rw [List.append_assoc, List.append_assoc, ← List.drop_drop, List.drop_left]
    rfl
  rw [hcr, LabelLine.render, labelOfLine, hidx]
  dsimp only
  rw [hdrop, trimQuotes_quoted hh hl]
  simp

/-- **A well-formed line reads back as what it encodes.** -/
theorem labelOfLine_render {x : LabelLine} (hw : x.WellFormed) :
    labelOfLine (dropCR x.render) = x.label? := by
  cases x with
  | label l =>
    obtain ⟨hk, -, -, -, -, hh, hl⟩ := hw
    exact labelOfLine_render_label hk hh hl
  | other line =>
    refine labelOfLine_of_not_mem fun h => hw.1 ?_
    unfold dropCR at h
    split at h
    exacts [List.dropLast_subset _ h, h]

theorem length_render_label (l : Label) :
    (LabelLine.label l).render.length = l.key.length + l.value.length + 3 := by
  simp only [LabelLine.render, List.length_append, List.length_cons, List.length_nil]
  omega

theorem newline_not_mem_render {x : LabelLine} (hw : x.WellFormed) : 10 ∉ x.render := by
  cases x with
  | label l =>
    obtain ⟨-, hk, -, hv, -⟩ := hw
    simp [LabelLine.render, hk, hv]
  | other line => exact hw.2

theorem intercalate_concat_nil : ∀ L : List Bytes, L ≠ [] →
    [(10 : UInt8)].intercalate (L ++ [[]]) = [10].intercalate L ++ [10]
  | [a], _ => by simp [List.intercalate]
  | a :: b :: L, _ => by
    have ih := intercalate_concat_nil (b :: L) (List.cons_ne_nil _ _)
    simp only [List.cons_append, List.intercalate, List.intersperse_cons_cons,
      List.flatten_cons] at ih ⊢
    rw [ih]
    simp

/-- The lines the scanner cuts from a labels file are the file's lines, up to one empty line at
the end. -/
theorem lineSegments_labelsFile (lines : List LabelLine) (nl : Bool)
    (hnl : ∀ x ∈ lines, 10 ∉ x.render) :
    lineSegments (labelsFile lines nl) = lines.map LabelLine.render ∨
      lineSegments (labelsFile lines nl) ++ [[]] = lines.map LabelLine.render ∨
      lineSegments (labelsFile lines nl) = lines.map LabelLine.render ++ [[]] := by
  have h10 : ∀ l ∈ lines.map LabelLine.render, (10 : UInt8) ∉ l := by
    simp only [List.mem_map]
    rintro _ ⟨x, hx, rfl⟩
    exact hnl x hx
  rcases eq_or_ne (lines.map LabelLine.render) [] with hL | hL
  · rw [List.map_eq_nil_iff] at hL
    subst hL
    cases nl <;> simp [labelsFile, lineSegments, List.splitOn, List.splitOnP, List.splitOnP.go]
  · cases nl with
    | true =>
      left
      have hsplit : (labelsFile lines true).splitOn 10 = lines.map LabelLine.render ++ [[]] := by
        rw [labelsFile, if_pos rfl, ← intercalate_concat_nil _ hL]
        refine List.splitOn_intercalate _ _ (fun l hl => ?_) (by simp)
        rcases List.mem_append.mp hl with hl | hl
        exacts [h10 l hl, by simp_all]
      simp [lineSegments, hsplit]
    | false =>
      have hsplit : (labelsFile lines false).splitOn 10 = lines.map LabelLine.render := by
        rw [labelsFile, if_neg (by decide), List.append_nil]
        exact List.splitOn_intercalate _ _ h10 hL
      simp only [lineSegments, hsplit]
      split <;> rename_i h
      · exact .inr (.inl (List.dropLast_append_getLast? _ h))
      · exact .inl rfl

/-- The labels the reader takes from the cut lines. -/
theorem filterMap_labelOfLine_concat_nil (S : List Bytes) :
    ((S ++ [[]]).map dropCR).filterMap labelOfLine = (S.map dropCR).filterMap labelOfLine := by
  simp [labelOfLine, dropCR]

/-- The reader undoes the encoding of lines without `'\n'` that each read back as what they
encode and are shorter than `MaxScanTokenSize`. -/
theorem readLabelsFromFile_encoded {fs : FileSystem} {path : String} {lines : List LabelLine}
    {nl : Bool} (hfs : fs path = .readAll (labelsFile lines nl))
    (hnl : ∀ x ∈ lines, 10 ∉ x.render)
    (hread : ∀ x ∈ lines, labelOfLine (dropCR x.render) = x.label?)
    (hshort : ∀ x ∈ lines, x.render.length < MaxScanTokenSize) :
    readLabelsFromFile fs path = .ok (lines.filterMap LabelLine.label?) := by
  have hL : ((lines.map LabelLine.render).map dropCR).filterMap labelOfLine =
      lines.filterMap LabelLine.label? := by
    rw [List.map_map, List.filterMap_map]
    exact List.filterMap_congr hread
  have hshortL : ∀ s ∈ lines.map LabelLine.render, s.length < MaxScanTokenSize := by
    simp only [List.mem_map]
    rintro _ ⟨x, hx, rfl⟩
    exact hshort x hx
  simp only [readLabelsFromFile, hfs, FileRead.copied, scanLines]
  congr 1
  rcases lineSegments_labelsFile lines nl hnl with h | h | h
  · rw [h, scanTokens_of_short _ hshortL, hL]
  · rw [scanTokens_of_short _ fun s hs => hshortL s (h ▸ List.mem_append_left _ hs),
      ← filterMap_labelOfLine_concat_nil, h, hL]
  · rw [h, scanTokens_of_short _ ?_, filterMap_labelOfLine_concat_nil, hL]
    simp only [List.mem_append, List.mem_singleton]
    rintro s (hs | rfl)
    exacts [hshortL s hs, by decide]

/-- **The reader undoes the `KEY="VALUE"` encoding** when every line of the file is shorter than
`MaxScanTokenSize`: in order, with lines without `=` interleaved, with or without a final
newline, and with a nil error. -/
theorem readLabelsFromFile_labelsFile {fs : FileSystem} {path : String} {lines : List LabelLine}
    {nl : Bool} (hfs : fs path = .readAll (labelsFile lines nl)) (hw : ∀ x ∈ lines, x.WellFormed)
    (hshort : ∀ x ∈ lines, x.render.length < MaxScanTokenSize) :
    readLabelsFromFile fs path = .ok (lines.filterMap LabelLine.label?) :=
  readLabelsFromFile_encoded hfs (fun x hx => newline_not_mem_render (hw x hx))
    (fun x hx => labelOfLine_render (hw x hx)) hshort

/-- A file of one line of `MaxScanTokenSize` bytes or more reads as no label, with a nil
error. -/
theorem readLabelsFromFile_long_line {x : LabelLine} (hw : x.WellFormed)
    (hlong : MaxScanTokenSize ≤ x.render.length) (path : String) :
    readLabelsFromFile (fun _ => .readAll (labelsFile [x] false)) path = .ok [] := by
  have hscan : ∀ rest, scanTokens (x.render :: rest) = ([], some .errTooLong) := fun rest => by
    rw [scanTokens, if_pos hlong]
  simp only [readLabelsFromFile, FileRead.copied, scanLines]
  rcases lineSegments_labelsFile [x] false (by simpa using newline_not_mem_render hw) with
    h | h | h
  · rw [List.map_singleton] at h
    rw [h, hscan, List.filterMap_nil]
  · rw [List.map_singleton] at h
    have hnil : ([] : Bytes) = x.render :=
      List.mem_singleton.mp (h ▸ List.mem_append_right _ (List.mem_singleton_self _))
    simp [← hnil, MaxScanTokenSize] at hlong
  · rw [List.map_singleton] at h
    rw [h, List.singleton_append, hscan, List.filterMap_nil]

/-- **A long line silently truncates the labels**: the label `a="x…x"` with a value of 65536
bytes is dropped, and the reader returns the empty list with a nil error. -/
theorem readLabelsFromFile_truncates_long_line :
    readLabelsFromFile
      (fun _ => .readAll (labelsFile [.label ⟨[97], List.replicate 65536 120⟩] false))
      "/etc/podinfo/labels" = .ok [] :=
  @readLabelsFromFile_long_line (.label ⟨[97], List.replicate 65536 120⟩)
    ⟨by decide, by decide, by decide, by rw [List.mem_replicate]; decide,
      by rw [List.mem_replicate]; decide, by rw [List.head?_replicate]; decide,
      by rw [List.getLast?_replicate]; decide⟩
    (by rw [length_render_label, List.length_replicate]; decide) _

/-! ## The reader on any file -/

/-- **The scan in closed form**: the lines before the first one too long for the buffer, each
without its final `'\r'`. -/
theorem scanTokens_fst : ∀ lines : List Bytes,
    (scanTokens lines).1 = (lines.takeWhile fun s => s.length < MaxScanTokenSize).map dropCR
  | [] => rfl
  | line :: rest => by
    rw [scanTokens, List.takeWhile_cons]
    by_cases h : MaxScanTokenSize ≤ line.length
    · simp [h]
    · simp [h, Nat.lt_of_not_le h, scanTokens_fst rest]

theorem newline_not_mem_of_mem_splitOn : ∀ {input seg : Bytes}, seg ∈ input.splitOn 10 →
    (10 : UInt8) ∉ seg
  | [], _, h => by simp_all
  | b :: input, seg, h => by
    have ih : ∀ seg ∈ input.splitOn 10, (10 : UInt8) ∉ seg := fun _ =>
      newline_not_mem_of_mem_splitOn
    rw [List.splitOn, List.splitOnP_cons] at h
    split at h
    · rcases List.mem_cons.mp h with rfl | h
      exacts [List.not_mem_nil _, ih _ h]
    · rename_i hb
      obtain ⟨s, ss, hs⟩ := List.exists_cons_of_ne_nil (List.splitOnP_ne_nil (· == 10) input)
      rw [hs, List.modifyHead_cons] at h
      have ih' : ∀ seg ∈ s :: ss, (10 : UInt8) ∉ seg := by rw [← hs]; exact ih
      rcases List.mem_cons.mp h with rfl | h
      · simp only [List.mem_cons, not_or]
        exact ⟨fun h10 => hb (by simp [h10]), ih' s (List.mem_cons_self _ _)⟩
      · exact ih' _ (List.mem_cons_of_mem _ h)

theorem newline_not_mem_of_mem_lineSegments {input seg : Bytes} (h : seg ∈ lineSegments input) :
    (10 : UInt8) ∉ seg := by
  dsimp only [lineSegments] at h
  split at h
  exacts [newline_not_mem_of_mem_splitOn (List.dropLast_subset _ h),
    newline_not_mem_of_mem_splitOn h]

theorem dropCR_subset (line : Bytes) : dropCR line ⊆ line := by
  unfold dropCR
  split
  exacts [List.dropLast_subset _, List.Subset.refl _]

theorem trimQuotes_subset (s : Bytes) : trimQuotes s ⊆ s :=
  (List.rdropWhile_prefix (· == 34) _).subset.trans (List.dropWhile_subset _)

theorem head?_trimQuotes (s : Bytes) : (trimQuotes s).head? ≠ some 34 := by
  obtain ⟨t, ht⟩ := List.rdropWhile_prefix (· == 34) (s.dropWhile (· == 34))
  have hd := List.head?_dropWhile_not (· == 34) s
  intro h
  rw [← ht, List.head?_append, show List.rdropWhile _ _ = trimQuotes s from rfl, h] at hd
  simp at hd

theorem getLast?_trimQuotes (s : Bytes) : (trimQuotes s).getLast? ≠ some 34 := by
  intro h
  have hne : trimQuotes s ≠ [] := by
    rintro h0
    simp [h0] at h
  rw [List.getLast?_eq_getLast _ hne, Option.some_inj] at h
  exact List.rdropWhile_last_not (· == 34) _ hne (by simpa using h)

/-- **What the loop body makes of a line**: a key before the first `=`, so without one, and a value
trimmed of its quotes, both cut from the line. -/
theorem labelOfLine_eq_some {line : Bytes} {l : Label} (h : labelOfLine line = some l) :
    61 ∉ l.key ∧ l.key ⊆ line ∧ l.value ⊆ line ∧ l.value.head? ≠ some 34 ∧
      l.value.getLast? ≠ some 34 := by
  unfold labelOfLine at h
  split at h
  · cases h
  · rename_i idx hidx
    cases h
    refine ⟨fun hk => ?_, List.take_subset _ _,
      (trimQuotes_subset _).trans (List.drop_subset _ _), head?_trimQuotes _, getLast?_trimQuotes _⟩
    obtain ⟨i, hi, hx⟩ := List.mem_take_iff_getElem.mp hk
    obtain ⟨_, _, hlt⟩ := List.findIdx?_eq_some_iff_getElem.mp hidx
    exact hlt i (by omega) (by simp [hx])

/-- Every label the reader returns is the label of a line without `'\n'`. -/
theorem mem_readLabelsFromFile {fs : FileSystem} {path : String} {labels : List Label}
    (h : readLabelsFromFile fs path = .ok labels) {l : Label} (hl : l ∈ labels) :
    ∃ line : Bytes, 10 ∉ line ∧ labelOfLine line = some l := by
  unfold readLabelsFromFile at h
  split at h
  · cases h
  · cases h
    obtain ⟨line, hline, hl⟩ := List.mem_filterMap.mp hl
    rw [scanLines, scanTokens_fst] at hline
    obtain ⟨seg, hseg, rfl⟩ := List.mem_map.mp hline
    exact ⟨_, fun h => newline_not_mem_of_mem_lineSegments (List.takeWhile_subset _ hseg)
      (dropCR_subset _ h), hl⟩

/-- **Every label the reader returns, from any file, is one the encoding can hold**: its key has
no `=` and neither key nor value a `'\n'`, and the value neither begins nor ends with `"`. -/
theorem readLabelsFromFile_wellFormed {fs : FileSystem} {path : String} {labels : List Label}
    (h : readLabelsFromFile fs path = .ok labels) :
    ∀ l ∈ labels, 61 ∉ l.key ∧ 10 ∉ l.key ∧ 10 ∉ l.value ∧ l.value.head? ≠ some 34 ∧
      l.value.getLast? ≠ some 34 := by
  intro l hl
  obtain ⟨line, h10, hline⟩ := mem_readLabelsFromFile h hl
  obtain ⟨hk, hks, hvs, hh, hlast⟩ := labelOfLine_eq_some hline
  exact ⟨hk, fun h => h10 (hks h), fun h => h10 (hvs h), hh, hlast⟩

/-- A labels file of `a="b"`. -/
theorem readLabelsFromFile_wellFormed_ab :
    readLabelsFromFile (fun _ => .readAll [97, 61, 34, 98, 34]) "/etc/podinfo/labels" =
        .ok [⟨[97], [98]⟩] ∧
      ∀ l ∈ [(⟨[97], [98]⟩ : Label)], 61 ∉ l.key ∧ 10 ∉ l.key ∧ 10 ∉ l.value ∧
        l.value.head? ≠ some 34 ∧ l.value.getLast? ≠ some 34 := by
  have h : readLabelsFromFile (fun _ => .readAll [97, 61, 34, 98, 34]) "/etc/podinfo/labels" =
      .ok [⟨[97], [98]⟩] := rfl
  exact ⟨h, readLabelsFromFile_wellFormed h⟩

/-- **Read, written back and read again, the labels come back unchanged**: the labels read from any
file, written one `KEY="VALUE"` line each, with or without a final newline, read back as the same
list, when each such line is shorter than `MaxScanTokenSize`. -/
theorem readLabelsFromFile_reread {fs : FileSystem} {path : String} {labels : List Label}
    (h : readLabelsFromFile fs path = .ok labels)
    (hshort : ∀ l ∈ labels, l.key.length + l.value.length + 3 < MaxScanTokenSize)
    (nl : Bool) (path' : String) :
    readLabelsFromFile (fun _ => .readAll (labelsFile (labels.map .label) nl)) path' =
      .ok labels := by
  have hline : ∀ x ∈ labels.map LabelLine.label,
      10 ∉ x.render ∧ labelOfLine (dropCR x.render) = x.label? := by
    simp only [List.mem_map]
    rintro _ ⟨l, hl, rfl⟩
    obtain ⟨line, h10, hline⟩ := mem_readLabelsFromFile h hl
    obtain ⟨hk, hks, hvs, hh, hlast⟩ := labelOfLine_eq_some hline
    exact ⟨by simpa [LabelLine.render] using ⟨fun h => h10 (hks h), fun h => h10 (hvs h)⟩,
      labelOfLine_render_label hk hh hlast⟩
  have hshort' : ∀ x ∈ labels.map LabelLine.label, x.render.length < MaxScanTokenSize := by
    simp only [List.mem_map]
    rintro _ ⟨l, hl, rfl⟩
    rw [length_render_label]
    exact hshort l hl
  rw [readLabelsFromFile_encoded rfl (fun x hx => (hline x hx).1) (fun x hx => (hline x hx).2)
    hshort', List.filterMap_map]
  exact congrArg Except.ok (List.filterMap_some labels)

/-- The labels of `a="b"`, written back with a final newline. -/
theorem readLabelsFromFile_reread_ab :
    readLabelsFromFile (fun _ => .readAll [97, 61, 34, 98, 34]) "/etc/podinfo/labels" =
        .ok [⟨[97], [98]⟩] ∧
      (∀ l ∈ [(⟨[97], [98]⟩ : Label)], l.key.length + l.value.length + 3 < MaxScanTokenSize) ∧
      readLabelsFromFile (fun _ => .readAll (labelsFile ([(⟨[97], [98]⟩ : Label)].map .label) true))
        "/tmp/labels" = .ok [⟨[97], [98]⟩] := by
  have h : readLabelsFromFile (fun _ => .readAll [97, 61, 34, 98, 34]) "/etc/podinfo/labels" =
      .ok [⟨[97], [98]⟩] := rfl
  have hshort : ∀ l ∈ [(⟨[97], [98]⟩ : Label)],
      l.key.length + l.value.length + 3 < MaxScanTokenSize := by decide
  exact ⟨h, hshort, readLabelsFromFile_reread h hshort true "/tmp/labels"⟩

/-! ## `run`: the agent the flags configure -/

/-- `defaultClusterAgentHost`. -/
def defaultClusterAgentHost : String := ""

/-- `defaultClusterAgentPort`. -/
def defaultClusterAgentPort : String := "50052"

/-- The values of the `run` command's flags that configure the agent. -/
structure RunFlags where
  host : String
  port : String
  podLabelsFile : String
  podName : String
  podUid : String
  «namespace» : String
  deriving DecidableEq, Repr

/-- Each flag's `Value` in `getCliApp`. -/
def RunFlags.defaults : RunFlags :=
  ⟨defaultClusterAgentHost, defaultClusterAgentPort, "", "", "", "tarian-system"⟩

/-- The labels `run` hands the agent from `--pod-labels-file`: nil when the file cannot be read
(the error is only logged). -/
def podLabelsOf (fs : FileSystem) (path : String) : List Label :=
  match readLabelsFromFile fs path with
  | .ok labels => labels
  | .error _ => []

/-- `run`, up to `agent.Run()`: the agent the flags configure. Each setter runs only for a
non-empty flag. -/
def configureAgent (fs : FileSystem) (c : RunFlags) : PodAgent :=
  let agent := PodAgent.newPodAgent (c.host ++ ":" ++ c.port)
  let agent := if c.podLabelsFile ≠ "" then agent.setPodLabels (podLabelsOf fs c.podLabelsFile)
    else agent
  let agent := if c.podName ≠ "" then agent.setPodName c.podName else agent
  let agent := if c.podUid ≠ "" then agent.setPodUid c.podUid else agent
  if c.«namespace» ≠ "" then agent.setNamespace c.«namespace» else agent

/-- The configured agent: skipping a setter for an empty flag leaves the same empty field, so the
agent holds every flag as given. -/
theorem configureAgent_eq (fs : FileSystem) (c : RunFlags) :
    configureAgent fs c =
      ⟨c.host ++ ":" ++ c.port, c.podName, c.podUid,
        if c.podLabelsFile = "" then [] else podLabelsOf fs c.podLabelsFile, c.«namespace», []⟩ := by
  unfold configureAgent
  split_ifs <;> simp_all [PodAgent.newPodAgent, PodAgent.setPodLabels, PodAgent.setPodName,
    PodAgent.setPodUid, PodAgent.setNamespace]

/-- Started with the defaults, the agent dials port 50052 of the local host and claims namespace
`tarian-system` with no labels. -/
example (fs : FileSystem) :
    configureAgent fs RunFlags.defaults = ⟨":50052", "", "", [], "tarian-system", []⟩ := rfl

/-- **The agent asks for the constraints of the labels in its labels file**: started with
`--pod-labels-file` naming a file of well-formed lines each shorter than `MaxScanTokenSize`, it
sends `GetConstraints` for its namespace flag and exactly the file's labels, in order. -/
theorem configureAgent_getConstraintsRequest {fs : FileSystem} {c : RunFlags}
    {lines : List LabelLine} {nl : Bool} (hpath : c.podLabelsFile ≠ "")
    (hfs : fs c.podLabelsFile = .readAll (labelsFile lines nl)) (hw : ∀ x ∈ lines, x.WellFormed)
    (hshort : ∀ x ∈ lines, x.render.length < MaxScanTokenSize) :
    (configureAgent fs c).getConstraintsRequest =
      ⟨c.«namespace», lines.filterMap LabelLine.label?⟩ := by
  rw [configureAgent_eq, if_neg hpath, podLabelsOf, readLabelsFromFile_labelsFile hfs hw hshort]
  rfl

/-- The sidecar's own flags on the file `a="b"`, `#`, `c="d"`. -/
theorem configureAgent_getConstraintsRequest_podinfo :
    let c : RunFlags := { RunFlags.defaults with podLabelsFile := "/etc/podinfo/labels" }
    let lines : List LabelLine := [.label ⟨[97], [98]⟩, .other [35], .label ⟨[99], [100]⟩]
    c.podLabelsFile ≠ "" ∧ (∀ x ∈ lines, x.WellFormed) ∧
      (∀ x ∈ lines, x.render.length < MaxScanTokenSize) ∧
      (configureAgent (fun _ => .readAll (labelsFile lines true)) c).getConstraintsRequest =
        ⟨"tarian-system", [⟨[97], [98]⟩, ⟨[99], [100]⟩]⟩ := by
  intro c lines
  have hw : ∀ x ∈ lines, x.WellFormed := by decide
  have hshort : ∀ x ∈ lines, x.render.length < MaxScanTokenSize := by decide
  exact ⟨by decide, hw, hshort, configureAgent_getConstraintsRequest (by decide) rfl hw hshort⟩

end Tarian.Cmd
