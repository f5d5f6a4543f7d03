import Mathlib.Data.List.Basic

/-!
# The wire types of `pkg/tarianpb`

The messages of `types.pb.go` that the modelled code reads or builds, with the fields it uses.

* A message-typed field (`*Pod`, `*Selector`, `*Event`) is an `Option`: a nil pointer is `none`,
  and the generated getters return the zero value for it.
* An `optional` scalar (`Regex *string`, `Sha256Sum *string`) is an `Option`, read through its
  getter, which gives `""` for nil.
* A repeated field is a list. The two slices the agent fills slot by slot after `make`
  (`ViolatingProcesses`, `ViolatedFiles`) are lists of pointers, so that an unfilled slot
  (a nil `*Process`) is representable.
* `int32` pids are `Int`: they are only compared and printed (`strconv.Itoa` is `toString`).
* A getter on a pointer (`GetPid`, `GetNamespace`, ...) is a function of the `Option`.
* A label's key and value are the bytes of the pod-labels file line they were cut from; every
  other Go `string` is a `String`.
-/

namespace Tarian.Tarianpb

/-- Go `string`s that are bytes read from a file. -/
abbrev Bytes := List UInt8

structure MatchLabel where
  key : String
  value : String
  deriving DecidableEq, Repr

structure Selector where
  matchLabels : List MatchLabel
  deriving DecidableEq, Repr

/-- `Selector.GetMatchLabels`. -/
def Selector.getMatchLabels (s : Option Selector) : List MatchLabel := (s.map (·.matchLabels)).getD []

structure AllowedProcessRule where
  regex : Option String
  deriving DecidableEq, Repr

/-- `AllowedProcessRule.GetRegex`. -/
def AllowedProcessRule.getRegex (r : AllowedProcessRule) : String := r.regex.getD ""

structure AllowedFileRule where
  name : String
  sha256sum : Option String
  deriving DecidableEq, Repr

/-- `AllowedFileRule.GetSha256Sum`. -/
def AllowedFileRule.getSha256Sum (r : AllowedFileRule) : String := r.sha256sum.getD ""

structure Constraint where
  «namespace» : String
  selector : Option Selector
  allowedProcesses : List AllowedProcessRule
  allowedFiles : List AllowedFileRule
  deriving DecidableEq, Repr

structure Process where
  pid : Int
  name : String
  deriving DecidableEq, Repr

/-- `Process.GetPid`. -/
def Process.getPid (p : Option Process) : Int := (p.map (·.pid)).getD 0

/-- `Process.GetName`. -/
def Process.getName (p : Option Process) : String := (p.map (·.name)).getD ""

structure ViolatedFile where
  name : String
  actualSha256Sum : String
  expectedSha256Sum : String
  deriving DecidableEq, Repr

/-- `ViolatedFile.GetName`. -/
def ViolatedFile.getName (f : Option ViolatedFile) : String := (f.map (·.name)).getD ""

structure Label where
  key : Bytes
  value : Bytes
  deriving DecidableEq, Repr

structure Pod where
  uid : String
  «namespace» : String
  name : String
  labels : List Label
  deriving DecidableEq, Repr

/-- `Pod.GetNamespace`. -/
def Pod.getNamespace (p : Option Pod) : String := (p.map (·.«namespace»)).getD ""

/-- `Pod.GetName`. -/
def Pod.getName (p : Option Pod) : String := (p.map (·.name)).getD ""

structure FalcoAlert where
  output : String
  deriving DecidableEq, Repr

/-- `FalcoAlert.GetOutput`. -/
def FalcoAlert.getOutput (f : Option FalcoAlert) : String := (f.map (·.output)).getD ""

structure Target where
  pod : Option Pod
  violatingProcesses : List (Option Process)
  violatedFiles : List (Option ViolatedFile)
  falcoAlert : Option FalcoAlert
  deriving DecidableEq, Repr

/-- A `google.protobuf.Timestamp`. -/
structure Timestamp where
  seconds : Int
  nanos : Int
  deriving DecidableEq, Repr

structure Event where
  type : String
  serverTimestamp : Option Timestamp
  clientTimestamp : Option Timestamp
  targets : List Target
  deriving DecidableEq, Repr

structure IngestEventRequest where
  event : Option Event
  deriving DecidableEq, Repr

structure GetConstraintsRequest where
  «namespace» : String
  labels : List Label
  deriving DecidableEq, Repr

structure GetConstraintsResponse where
  constraints : List Constraint
  deriving DecidableEq, Repr

/-- `GetConstraintsResponse.GetConstraints`: nil for a nil response, as every generated getter. -/
def GetConstraintsResponse.getConstraints : Option GetConstraintsResponse → List Constraint
  | some r => r.constraints
  | none => []

/-- Modelled from the spec: `tarianpb.EventTypeViolation` is declared outside `types.pb.go`; the
spec names the one event type "violation". -/
def EventTypeViolation : String := "violation"

end Tarian.Tarianpb
