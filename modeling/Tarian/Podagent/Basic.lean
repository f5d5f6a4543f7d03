import Tarian.Go.Map
import Tarian.Tarianpb

/-!
# The pod agent's state and its violation events

Model of the `PodAgent` struct of `pkg/podagent/podagent.go` and of what its two reporters share.

* `PodAgent` keeps the fields the validators, the reporters and `SyncConstraints` read: the pod's
  identity, its labels and namespace, and the installed constraint list. The gRPC connection,
  the clients and the cancellation context are the lifecycle's (`Lifecycle.lean`).
* Both reporters build the same request around their target: one event of type
  `EventTypeViolation`, stamped with the client's clock (`now`, a parameter for
  `timestamppb.Now()`), whose single target carries the agent's `pod`.
-/

namespace Tarian.Podagent

open Tarian.Tarianpb (Constraint Label Pod Target Timestamp IngestEventRequest EventTypeViolation)

/-- Modelled from the spec: the agent's `Process` (its `GetPid`, `GetName` and
`NewProcessesFromPsutil`) is declared outside `podagent.go`; the spec describes an observed
process as a pid and a name. -/
structure Process where
  pid : Int
  name : String
  deriving DecidableEq, Repr

structure PodAgent where
  clusterAgentAddress : String
  podName : String
  podUid : String
  podLabels : List Label
  «namespace» : String
  constraints : List Constraint
  deriving DecidableEq, Repr

namespace PodAgent

/-- `NewPodAgent`: every other field at its zero value. -/
def newPodAgent (clusterAgentAddress : String) : PodAgent :=
  ⟨clusterAgentAddress, "", "", [], "", []⟩

def setPodLabels (p : PodAgent) (labels : List Label) : PodAgent := { p with podLabels := labels }

def setPodName (p : PodAgent) (name : String) : PodAgent := { p with podName := name }

def setPodUid (p : PodAgent) (uid : String) : PodAgent := { p with podUid := uid }

def setNamespace (p : PodAgent) (ns : String) : PodAgent := { p with «namespace» := ns }

/-- `SetConstraints`: the whole list is replaced under the write lock. -/
def setConstraints (p : PodAgent) (constraints : List Constraint) : PodAgent :=
  { p with constraints := constraints }

/-- `&tarianpb.Pod{Uid, Name, Namespace, Labels}`, as both reporters build it. -/
def pod (p : PodAgent) : Pod := ⟨p.podUid, p.«namespace», p.podName, p.podLabels⟩

@[simp] theorem setConstraints_constraints (p : PodAgent) (cs : List Constraint) :
    (p.setConstraints cs).constraints = cs := rfl

@[simp] theorem setConstraints_pod (p : PodAgent) (cs : List Constraint) :
    (p.setConstraints cs).pod = p.pod := rfl

end PodAgent

/-- The `IngestEventRequest` both reporters send: one violation event with the one target. -/
def violationRequest (now : Timestamp) (t : Target) : IngestEventRequest :=
  ⟨some ⟨EventTypeViolation, none, some now, [t]⟩⟩

end Tarian.Podagent
