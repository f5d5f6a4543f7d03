import Mathlib.Data.List.Basic
import Tarian.Tarianpb

/-!
# Listing events and constraints (`tarianctl get`)

Model of `pkg/tarianctl/cmd/get/events.go` and `pkg/tarianctl/cmd/get/constraints.go`: the rows
the two commands append to their tables, and the strings in them.

* A `strings.Builder` is the list of strings written to it (`Builder`); `String()` is their
  concatenation.
* `violatingProcessesToString` and `violatedFilesToString` are one loop, `writeItems`, over two
  renderings of an item; `matchLabelsToString` and `allowedProcessesToString` share the comma
  loop `writeJoined`.
* The table is the list of rows appended to it; `tablewriter`'s layout is not modelled. The time
  column, `e.GetServerTimestamp().AsTime().Format(time.RFC3339)`, is a given function of the
  timestamp (`rfc3339`).
* The protobuf decoder gives nil for an empty repeated field, so `!= nil` on one is `≠ []`.

Results:
* `writeItems_eq`: a process or file list shows its first eleven items joined by `", "`, then,
  from eleven items on, `"... "`, the number of items not shown and `" more"`.
* `writeJoined_eq`: the label and rule columns are the items joined by `","`.
-/

namespace Tarian.Tarianctl

open Tarian.Tarianpb

/-- A `strings.Builder`: the strings written to it, in order. -/
abbrev Builder := List String

/-- `str.String()`. -/
def Builder.string (b : Builder) : String := String.join b

/-! ## `get events` -/

section Items

variable {α : Type}

/-- The loop `violatingProcessesToString` and `violatedFilesToString` share, over `n` items from
index `i`: the item, `", "` unless it is the last, and at index 10 the number of items left, after
which the loop breaks. -/
def writeItems (render : α → Builder) (n : Nat) : Nat → List α → Builder
  | _, [] => []
  | i, x :: rest =>
    render x ++ (if i < n - 1 then [", "] else []) ++
      if i ≥ 10 then ["... ", toString (n - i - 1), " more"]
      else writeItems render n (i + 1) rest

/-- The builder of the two functions, after the loop. -/
def itemsToString (render : α → Builder) (items : List α) : String :=
  Builder.string (writeItems render items.length 0 items)

end Items

/-- `violatingProcessesToString`: `pid:name` for each process. -/
def violatingProcessesToString (processes : List (Option Process)) : String :=
  itemsToString (fun p => [toString (Process.getPid p), ":", Process.getName p]) processes

/-- `violatedFilesToString`: the name of each file. -/
def violatedFilesToString (violatedFiles : List (Option ViolatedFile)) : String :=
  itemsToString (fun f => [ViolatedFile.getName f]) violatedFiles

/-- `falcoAlertToString`. -/
def falcoAlertToString : Option FalcoAlert → String
  | none => ""
  | some f => FalcoAlert.getOutput (some f)

/-- The `Events` column of a target: what `evt` holds. -/
def targetEvents (t : Target) : String :=
  Builder.string <|
    (if t.violatingProcesses ≠ [] then
      ["violating_processes = ", violatingProcessesToString t.violatingProcesses] else []) ++
    (if t.violatedFiles ≠ [] then
      ["violated_files = ", violatedFilesToString t.violatedFiles] else []) ++
    if t.falcoAlert.isSome then ["falco_alert = ", falcoAlertToString t.falcoAlert] else []

/-- The rows `get events` appends: one for each target of each event, in order. -/
def eventRows (rfc3339 : Option Timestamp → String) (events : List Event) : List (List String) :=
  events.flatMap fun e => e.targets.map fun t =>
    [rfc3339 e.serverTimestamp, Pod.getNamespace t.pod, Pod.getName t.pod, targetEvents t]

/-! ## `get constraints` -/

section Joined

variable {α : Type}

/-- The loop `matchLabelsToString` and `allowedProcessesToString` share: the item, then `","`
unless it is the last. -/
def writeJoined (render : α → Builder) (n : Nat) : Nat → List α → Builder
  | _, [] => []
  | i, x :: rest =>
    render x ++ (if i < n - 1 then [","] else []) ++ writeJoined render n (i + 1) rest

end Joined

/-- `matchLabelsToString`: empty without labels, else `matchLabels:` and `key=value` for each. -/
def matchLabelsToString (labels : List MatchLabel) : String :=
  if labels.length = 0 then ""
  else Builder.string
    (["matchLabels:"] ++ writeJoined (fun l => [l.key, "=", l.value]) labels.length 0 labels)

/-- `allowedProcessesToString`: `regex:` and the pattern for each rule. -/
def allowedProcessesToString (rules : List AllowedProcessRule) : String :=
  Builder.string (writeJoined (fun l => ["regex:", l.getRegex]) rules.length 0 rules)

/-- The rows `get constraints` appends: one for each constraint. -/
def constraintRows (constraints : List Constraint) : List (List String) :=
  constraints.map fun c =>
    [c.«namespace», matchLabelsToString (Selector.getMatchLabels c.selector),
      allowedProcessesToString c.allowedProcesses]

/-! ## The two loops -/

section Lists

variable {α : Type}

theorem intercalate_singleton (sep x : List α) : sep.intercalate [x] = x := by
  simp [List.intercalate]

theorem intercalate_cons_cons (sep x y : List α) (ys : List (List α)) :
    sep.intercalate (x :: y :: ys) = x ++ sep ++ sep.intercalate (y :: ys) := by
  simp [List.intercalate, List.intersperse_cons_cons]

end Lists

section Loops

variable {α : Type} (render : α → Builder)

/-- The item loop from any index up to 10, in closed form. -/
theorem writeItems_from (xs : List α) (i : Nat) (hi : i ≤ 10) :
    writeItems render (i + xs.length) i xs =
      [", "].intercalate ((xs.take (11 - i)).map render) ++
        (if 11 < i + xs.length then [", "] else []) ++
        if 11 ≤ i + xs.length then ["... ", toString (i + xs.length - 11), " more"] else [] := by
  induction xs generalizing i with
  | nil => simp [writeItems, List.intercalate]; omega
  | cons x rest ih =>
    have hn : i + (x :: rest).length = i + 1 + rest.length := by simp; omega
    rw [hn, writeItems]
    by_cases h10 : i = 10
    · subst h10
      simp [intercalate_singleton, show 10 + 1 + rest.length - 10 - 1 = rest.length by omega]
    · rw [if_neg (show ¬i ≥ 10 by omega), ih (i + 1) (by omega)]
      cases rest with
      | nil =>
        rw [show 11 - i = 10 - i + 1 by omega, List.take_succ_cons, List.take_nil]
        simp [intercalate_singleton, List.intercalate]
      | cons y ys =>
        rw [show 11 - i = 9 - i + 1 + 1 by omega, show 11 - (i + 1) = 9 - i + 1 by omega,
          if_pos (by simp; omega)]
        simp only [List.take_succ_cons, List.map_cons, intercalate_cons_cons, List.append_assoc]

/-- **The process and file lists**: the first eleven items joined by `", "`, then, from eleven
items on, `"... "`, the number of items not shown and `" more"`. -/
theorem writeItems_eq (xs : List α) :
    writeItems render xs.length 0 xs =
      [", "].intercalate ((xs.take 11).map render) ++
        (if 11 < xs.length then [", "] else []) ++
        if 11 ≤ xs.length then ["... ", toString (xs.length - 11), " more"] else [] := by
  simpa using writeItems_from render xs 0 (by omega)

/-- The comma loop from any index. -/
theorem writeJoined_from (xs : List α) (i : Nat) :
    writeJoined render (i + xs.length) i xs = [","].intercalate (xs.map render) := by
  induction xs generalizing i with
  | nil => rfl
  | cons x rest ih =>
    have hn : i + (x :: rest).length = i + 1 + rest.length := by simp; omega
    rw [hn, writeJoined, ih]
    cases rest with
    | nil => simp [List.intercalate]
    | cons y ys =>
      rw [if_pos (by simp; omega)]
      simp only [List.map_cons, intercalate_cons_cons]

/-- **The comma loop** joins the items by `","`. -/
theorem writeJoined_eq (xs : List α) :
    writeJoined render xs.length 0 xs = [","].intercalate (xs.map render) := by
  simpa using writeJoined_from render xs 0

end Loops

end Tarian.Tarianctl
