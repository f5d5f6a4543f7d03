import Tarian.Go.Map

/-!
# The sidecar injector (`PodAgentInjector.Handle`)

Model of `pkg/clusteragent/webhookserver/podagent_injector.go`: the mutating admission webhook
that adds the pod agent to an annotated pod.

* A pod is the parts of `corev1.Pod` that `Handle` reads or writes: its annotations (a nil map is
  `none`), its containers with their names, images, env, args and volume mounts, its volumes and
  `ShareProcessNamespace`. The decoder's result is the input (`Except String Pod`);
  `json.Marshal` of a pod does not fail, so the patch response carries the patched pod.
* `mergeVolumeMounts` is the loop that gives the sidecar every container's mounts, once per
  volume name, after its own `podinfo` mount; `registerFilePaths` is the loop of the register
  branch. That loop tests `mountPathsAdded` but records into `mountNamesAdded`, so its test
  never holds.
* The comment above the type (`podAnnotator adds an annotation to every incoming pods`) does not
  describe `Handle`: it adds a container, a volume and `ShareProcessNamespace`, never an
  annotation.

Results:
* `handle_sidecar_mounts`: on every pod it patches, the sidecar mounts `podinfo`, then the first
  mount of each volume name over the pod's containers, in order, a `podinfo` mount among them.
* `handle_downward_api_podinfo`: the merge never records the sidecar's own `podinfo` mount, and
  the `podinfo` volume is appended unchecked, so a valid pod that mounts a Downward-API `podinfo`
  volume at `/etc/podinfo` is patched into an invalid one: a second volume of that name and a
  sidecar with two mounts at that path.
* `handle_patched_idempotent`: the patched pod, admitted again, is left alone.
* `registerFilePaths_eq`: `--register-file-paths` lists every mount path but the two excluded
  ones, repeats included.
-/

namespace Tarian.Webhookserver

open Tarian.Go

structure VolumeMount where
  name : String
  mountPath : String
  deriving DecidableEq, Repr

/-- An `EnvVar` whose value is read from a pod field (`ValueFrom.FieldRef.FieldPath`). -/
structure EnvVar where
  name : String
  fieldPath : String
  deriving DecidableEq, Repr

structure Container where
  name : String
  image : String
  env : List EnvVar
  args : List String
  volumeMounts : List VolumeMount
  deriving DecidableEq, Repr

/-- A `DownwardAPIVolumeFile`: a file `path` holding the pod field `fieldPath`. -/
structure DownwardAPIVolumeFile where
  path : String
  fieldPath : String
  deriving DecidableEq, Repr

/-- A volume; `downwardAPI` is its Downward-API source, if it has one. -/
structure Volume where
  name : String
  downwardAPI : Option (List DownwardAPIVolumeFile)
  deriving DecidableEq, Repr

structure PodSpec where
  containers : List Container
  volumes : List Volume
  shareProcessNamespace : Option Bool
  deriving DecidableEq, Repr

structure Pod where
  annotations : Option (GoMap String String)
  spec : PodSpec

structure PodAgentContainerConfig where
  name : String
  image : String
  logEncoding : String
  host : String
  port : String
  deriving DecidableEq, Repr

/-- The webhook's state: the sidecar's configuration. -/
structure PodAgentInjector where
  config : PodAgentContainerConfig

def ThreatScanAnnotation : String := "pod-agent.k8s.tarian.dev/threat-scan"
def RegisterAnnotation : String := "pod-agent.k8s.tarian.dev/register"
def FileValidationIntervalAnnotation : String := "pod-agent.k8s.tarian.dev/file-validation-interval"
def RegisterFileIgnorePathsAnnotation : String := "pod-agent.k8s.tarian.dev/register-file-ignore-paths"

/-- `podInfoPath`. -/
def podInfoPath : String := "/etc/podinfo"

/-- The admission response. -/
inductive Response
  /-- `admission.Allowed(reason)`: the pod is admitted unchanged. -/
  | allowed (reason : String)
  /-- `admission.Errored(code, err)`. -/
  | errored (code : Nat) (err : String)
  /-- `admission.PatchResponseFromRaw(req.Object.Raw, marshaledPod)`: the patch that turns the
  pod as sent into `patched`. -/
  | patch (patched : Pod)

/-! ## The sidecar -/

/-- The mount loop's state: `volumeMounts` and `mountNamesAdded`. -/
structure MountMerge where
  volumeMounts : List VolumeMount
  mountNamesAdded : GoMap String Unit

/-- The mount loop's body: a mount whose volume name was added before is skipped. -/
def mergeMount (s : MountMerge) (vm : VolumeMount) : MountMerge :=
  if (s.mountNamesAdded.find? vm.name).isSome then s
  else ⟨s.volumeMounts ++ [vm], s.mountNamesAdded.insert vm.name ()⟩

/-- The loops over the containers and their mounts, after the sidecar's own `podinfo` mount. -/
def mergeVolumeMounts (containers : List Container) : MountMerge :=
  containers.foldl (fun s c => c.volumeMounts.foldl mergeMount s)
    ⟨[⟨"podinfo", podInfoPath⟩], .empty⟩

/-- The register branch's loop state: `mountPathsAdded`, `mountNamesAdded` and `mountPaths`. -/
structure PathScan where
  mountPathsAdded : GoMap String Unit
  mountNamesAdded : GoMap String Unit
  mountPaths : List String

/-- The register branch's loop body, as written: it tests `mountPathsAdded` and records the path
in `mountNamesAdded`. -/
def scanMountPath (s : PathScan) (vm : VolumeMount) : PathScan :=
  if (s.mountPathsAdded.find? vm.mountPath).isSome then s
  else
    let s := { s with mountNamesAdded := s.mountNamesAdded.insert vm.mountPath () }
    if vm.mountPath ≠ podInfoPath ∧ vm.mountPath ≠ "/var/run/secrets/kubernetes.io/serviceaccount"
    then { s with mountPaths := s.mountPaths ++ [vm.mountPath] }
    else s

/-- The paths `--register-file-paths` lists. -/
def registerFilePaths (m : MountMerge) : List String :=
  (m.volumeMounts.foldl scanMountPath ⟨.empty, m.mountNamesAdded, []⟩).mountPaths

/-- `podAgentArgs`, from the annotations and the merged mounts. -/
def podAgentArgs (config : PodAgentContainerConfig) (annotations : GoMap String String)
    (m : MountMerge) : List String :=
  let podAgentCommand :=
    if (annotations.find? RegisterAnnotation).isSome then "register" else "threat-scan"
  let args := ["--log-encoding=" ++ config.logEncoding, podAgentCommand, "--host=" ++ config.host,
    "--port=" ++ config.port, "--namespace=$(NAMESPACE)", "--pod-name=$(POD_NAME)",
    "--pod-uid=$(POD_UID)", "--pod-labels-file=/etc/podinfo/labels"]
  let args := match annotations.find? RegisterAnnotation with
    | some registerAnnotationValue =>
      args ++ ["--register-rules=" ++ registerAnnotationValue,
        "--register-file-paths=" ++ ",".intercalate (registerFilePaths m)]
    | none => args
  let args := match annotations.find? RegisterFileIgnorePathsAnnotation with
    | some v => args ++ ["--register-file-ignore-paths=" ++ v]
    | none => args
  match annotations.find? FileValidationIntervalAnnotation with
  | some fileValidationInterval => args ++ ["--file-validation-interval=" ++ fileValidationInterval]
  | none => args

/-- `podAgentContainer`. -/
def podAgentContainer (config : PodAgentContainerConfig) (annotations : GoMap String String)
    (m : MountMerge) : Container :=
  ⟨config.name, config.image,
    [⟨"NAMESPACE", "metadata.namespace"⟩, ⟨"POD_NAME", "metadata.name"⟩,
      ⟨"POD_UID", "metadata.uid"⟩],
    podAgentArgs config annotations m, m.volumeMounts⟩

/-- `podInfoVolume`: the pod's labels as the Downward-API file `labels`. -/
def podInfoVolume : Volume := ⟨"podinfo", some [⟨"labels", "metadata.labels"⟩]⟩

/-- The pod `Handle` marshals: the sidecar appended, the process namespace shared, the
`podinfo` volume appended. -/
def injectPodAgent (config : PodAgentContainerConfig) (annotations : GoMap String String)
    (pod : Pod) : Pod :=
  let m := mergeVolumeMounts pod.spec.containers
  { pod with spec :=
    { containers := pod.spec.containers ++ [podAgentContainer config annotations m]
      shareProcessNamespace := some true
      volumes := pod.spec.volumes ++ [podInfoVolume] } }

/-- `PodAgentInjector.Handle`, given the decoder's result. -/
def PodAgentInjector.handle (p : PodAgentInjector) (decoded : Except String Pod) : Response :=
  match decoded with
  | .error err => .errored 400 err
  | .ok pod =>
    match pod.annotations with
    | none => .allowed "no annotation found"
    | some annotations =>
      if (annotations.find? ThreatScanAnnotation).isNone ∧
          (annotations.find? RegisterAnnotation).isNone then
        .allowed ("annotation " ++ ThreatScanAnnotation ++ " or " ++ RegisterAnnotation ++
          " not found")
      else if pod.spec.containers.any (·.name == p.config.name) then
        .allowed ("container with name " ++ p.config.name ++ " already exists")
      else .patch (injectPodAgent p.config annotations pod)

/-! ## The merged mounts -/

/-- The first mount of each volume name not in `seen`, in order. -/
def firstMountsFrom (seen : List String) : List VolumeMount → List VolumeMount
  | [] => []
  | m :: ms =>
    if m.name ∈ seen then firstMountsFrom seen ms else m :: firstMountsFrom (m.name :: seen) ms

/-- The first mount of each volume name, in order. -/
def firstMounts (ms : List VolumeMount) : List VolumeMount := firstMountsFrom [] ms

theorem firstMountsFrom_sublist (seen : List String) :
    ∀ ms : List VolumeMount, (firstMountsFrom seen ms).Sublist ms
  | [] => .slnil
  | m :: ms => by
    unfold firstMountsFrom
    split
    exacts [(firstMountsFrom_sublist seen ms).cons m,
      (firstMountsFrom_sublist (m.name :: seen) ms).cons₂ m]

/-- The kept mounts have distinct names, none of them seen before. -/
theorem nodup_firstMountsFrom :
    ∀ (seen : List String) (ms : List VolumeMount),
      ((firstMountsFrom seen ms).map (·.name)).Nodup ∧
        ∀ m ∈ firstMountsFrom seen ms, m.name ∉ seen
  | _, [] => ⟨.nil, fun _ h => nomatch h⟩
  | seen, m :: ms => by
    unfold firstMountsFrom
    split
    · exact nodup_firstMountsFrom seen ms
    · rename_i hm
      obtain ⟨hnd, hnot⟩ := nodup_firstMountsFrom (m.name :: seen) ms
      refine ⟨List.nodup_cons.mpr ⟨fun h => ?_, hnd⟩, fun m' h' => ?_⟩
      · obtain ⟨m', hm', he⟩ := List.mem_map.mp h
        exact hnot m' hm' (he ▸ List.mem_cons_self _ _)
      · rcases List.mem_cons.mp h' with rfl | h'
        exacts [hm, fun h => hnot m' h' (List.mem_cons_of_mem _ h)]

/-- A mount is kept iff its name was not seen and it is the first mount of its name. -/
theorem mem_firstMountsFrom :
    ∀ {seen : List String} {ms : List VolumeMount} {m : VolumeMount},
      m ∈ firstMountsFrom seen ms ↔ m.name ∉ seen ∧ ms.find? (·.name == m.name) = some m
  | _, [], _ => by simp [firstMountsFrom]
  | seen, m₀ :: ms, m => by
    unfold firstMountsFrom
    by_cases he : m₀.name = m.name
    · have hfind : (m₀ :: ms).find? (·.name == m.name) = some m₀ := by simp [he]
      split
      · rw [mem_firstMountsFrom, hfind]
        simp_all
      · rw [List.mem_cons, mem_firstMountsFrom, hfind]
        simp_all [eq_comm]
    · have hfind : (m₀ :: ms).find? (·.name == m.name) = ms.find? (·.name == m.name) := by
        simp [he]
      have hne : m ≠ m₀ := fun h => he (h ▸ rfl)
      split
      · rw [mem_firstMountsFrom, hfind]
      · rw [List.mem_cons, mem_firstMountsFrom, hfind]
        simp [hne, Ne.symm he]

/-- The mount loop keeps, after what it held, the first mount of each name it had not seen. -/
theorem foldl_mergeMount (ms : List VolumeMount) (s : MountMerge) (seen : List String)
    (hs : ∀ k, k ∈ s.mountNamesAdded.keys ↔ k ∈ seen) :
    (ms.foldl mergeMount s).volumeMounts = s.volumeMounts ++ firstMountsFrom seen ms := by
  induction ms generalizing s seen with
  | nil => simp [firstMountsFrom]
  | cons m ms ih =>
    rw [List.foldl_cons, firstMountsFrom]
    by_cases hm : m.name ∈ seen
    · have : (s.mountNamesAdded.find? m.name).isSome := GoMap.isSome_find?.mpr ((hs _).mpr hm)
      rw [mergeMount, if_pos this, if_pos hm, ih s seen hs]
    · have : ¬(s.mountNamesAdded.find? m.name).isSome := fun h =>
        hm ((hs _).mp (GoMap.isSome_find?.mp h))
      rw [mergeMount, if_neg this, if_neg hm,
        ih _ (m.name :: seen) fun k => by simp [GoMap.mem_keys_insert, hs, or_comm]]
      simp

/-- **The sidecar's mounts**: its own `podinfo` mount, then the first mount of each volume name
over the pod's containers. -/
theorem mergeVolumeMounts_volumeMounts (cs : List Container) :
    (mergeVolumeMounts cs).volumeMounts =
      ⟨"podinfo", podInfoPath⟩ :: firstMounts (cs.flatMap (·.volumeMounts)) := by
  have hflat : ∀ (cs : List Container) (s : MountMerge),
      cs.foldl (fun s c => c.volumeMounts.foldl mergeMount s) s =
        (cs.flatMap (·.volumeMounts)).foldl mergeMount s := by
    intro cs
    induction cs with
    | nil => intro s; rfl
    | cons c cs ih => intro s; simp [ih, List.foldl_append]
  rw [mergeVolumeMounts, hflat, foldl_mergeMount _ _ [] (by simp)]
  rfl

/-! ## What `Handle` does -/

/-- **`Handle` patches exactly** an annotated pod with one of the two annotations and no
container of the sidecar's name, and the patched pod is `injectPodAgent`'s. -/
theorem handle_eq_patch {p : PodAgentInjector} {pod patched : Pod}
    (h : p.handle (.ok pod) = .patch patched) :
    ∃ annotations, pod.annotations = some annotations ∧
      ((annotations.find? ThreatScanAnnotation).isSome ∨
        (annotations.find? RegisterAnnotation).isSome) ∧
      (∀ c ∈ pod.spec.containers, c.name ≠ p.config.name) ∧
      patched = injectPodAgent p.config annotations pod := by
  simp only [PodAgentInjector.handle] at h
  cases ha : pod.annotations with
  | none => simp [ha] at h
  | some annotations =>
    simp only [ha] at h
    by_cases hp : (annotations.find? ThreatScanAnnotation).isNone ∧
        (annotations.find? RegisterAnnotation).isNone
    · rw [if_pos hp] at h; cases h
    rw [if_neg hp] at h
    by_cases hn : pod.spec.containers.any (·.name == p.config.name)
    · rw [if_pos hn] at h; cases h
    rw [if_neg hn] at h
    refine ⟨annotations, rfl, ?_, fun c hc hcn => hn (List.any_eq_true.mpr ⟨c, hc, by simp [hcn]⟩),
      (Response.patch.inj h).symm⟩
    rw [not_and_or] at hp
    simpa only [Bool.not_eq_true, ← Option.not_isSome, Bool.not_eq_false] using hp

/-- **The sidecar's mounts, on every pod `Handle` patches**: its own `podinfo` mount, then a
sublist of the mounts of the pod's containers with distinct volume names, holding exactly the first
mount of each name. A container's own `podinfo` mount is kept too: the loop does not count the
sidecar's mount among the names it has added. -/
theorem handle_sidecar_mounts {p : PodAgentInjector} {pod patched : Pod}
    (h : p.handle (.ok pod) = .patch patched) :
    ∃ c ms, patched.spec.containers = pod.spec.containers ++ [c] ∧
      c.volumeMounts = ⟨"podinfo", podInfoPath⟩ :: ms ∧
      ms.Sublist (pod.spec.containers.flatMap (·.volumeMounts)) ∧ (ms.map (·.name)).Nodup ∧
      ∀ m, m ∈ ms ↔
        (pod.spec.containers.flatMap (·.volumeMounts)).find? (·.name == m.name) = some m := by
  obtain ⟨annotations, -, -, -, rfl⟩ := handle_eq_patch h
  refine ⟨_, _, rfl, mergeVolumeMounts_volumeMounts _, firstMountsFrom_sublist _ _,
    (nodup_firstMountsFrom _ _).1, fun m => ?_⟩
  rw [firstMounts, mem_firstMountsFrom]
  simp

/-- The `data` pod: the sidecar mounts `podinfo`, then `data`. -/
theorem handle_sidecar_mounts_data :
    let p : PodAgentInjector := ⟨⟨"tarian-pod-agent", "tarian-pod-agent", "json", "", "80"⟩⟩
    let ann : GoMap String String := ⟨[( ThreatScanAnnotation, "")], List.nodup_singleton _⟩
    let pod : Pod :=
      ⟨some ann, ⟨[⟨"app", "nginx", [], [], [⟨"data", "/data"⟩, ⟨"data", "/data2"⟩]⟩],
        [⟨"data", none⟩], none⟩⟩
    let patched := injectPodAgent p.config ann pod
    p.handle (.ok pod) = .patch patched ∧
    ∃ c ms, patched.spec.containers = pod.spec.containers ++ [c] ∧
      c.volumeMounts = ⟨"podinfo", podInfoPath⟩ :: ms ∧
      ms.Sublist (pod.spec.containers.flatMap (·.volumeMounts)) ∧ (ms.map (·.name)).Nodup ∧
      ∀ m, m ∈ ms ↔
        (pod.spec.containers.flatMap (·.volumeMounts)).find? (·.name == m.name) = some m := by
  intro p ann pod patched
  have h : p.handle (.ok pod) = .patch patched := rfl
  exact ⟨h, handle_sidecar_mounts h⟩

/-- What the API server checks of the parts of a pod `Handle` changes: distinct volume names,
distinct mount paths in each container, and every mount naming a volume of the pod. -/
structure PodValid (pod : Pod) : Prop where
  volumeNames : (pod.spec.volumes.map (·.name)).Nodup
  mountPaths : ∀ c ∈ pod.spec.containers, (c.volumeMounts.map (·.mountPath)).Nodup
  mountVolumes : ∀ c ∈ pod.spec.containers, ∀ m ∈ c.volumeMounts,
    m.name ∈ pod.spec.volumes.map (·.name)

/-- **The Downward-API `podinfo` pod is patched into an invalid one.** A valid pod that mounts its
own `podinfo` volume at `/etc/podinfo` gets a second volume named `podinfo`, and a sidecar with
two mounts at `/etc/podinfo`: the API server rejects the patched pod. -/
theorem handle_downward_api_podinfo :
    let pod : Pod := ⟨some ⟨[( ThreatScanAnnotation, "")], List.nodup_singleton _⟩,
      ⟨[⟨"app", "nginx", [], [], [⟨"podinfo", podInfoPath⟩]⟩], [podInfoVolume], none⟩⟩
    PodValid pod ∧ ∃ patched c,
      (⟨⟨"tarian-pod-agent", "tarian-pod-agent", "json", "", "80"⟩⟩ : PodAgentInjector).handle
        (.ok pod) = .patch patched ∧
      patched.spec.containers = pod.spec.containers ++ [c] ∧ ¬PodValid patched ∧
      ¬(patched.spec.volumes.map (·.name)).Nodup ∧ ¬(c.volumeMounts.map (·.mountPath)).Nodup :=
  ⟨⟨by decide, by decide, by decide⟩, _, _, rfl, rfl, fun hv => absurd hv.volumeNames (by decide),
    by decide, by decide⟩

/-- **A patched pod is not patched again**: admitted a second time, it already has the sidecar. -/
theorem handle_patched_idempotent {p : PodAgentInjector} {pod patched : Pod}
    (h : p.handle (.ok pod) = .patch patched) :
    p.handle (.ok patched) =
      .allowed ("container with name " ++ p.config.name ++ " already exists") := by
  obtain ⟨annotations, ha, hpresent, -, rfl⟩ := handle_eq_patch h
  have hp : ¬((annotations.find? ThreatScanAnnotation).isNone ∧
      (annotations.find? RegisterAnnotation).isNone) := by
    revert hpresent
    cases annotations.find? ThreatScanAnnotation <;> cases annotations.find? RegisterAnnotation <;>
      simp
  have hn : (injectPodAgent p.config annotations pod).spec.containers.any
      (·.name == p.config.name) := by
    simp [injectPodAgent, podAgentContainer]
  simp only [PodAgentInjector.handle, injectPodAgent, ha] at hn ⊢
  rw [if_neg hp, if_pos hn]

/-- The `data` pod, once patched, is admitted unchanged. -/
theorem handle_patched_idempotent_data :
    let p : PodAgentInjector := ⟨⟨"tarian-pod-agent", "tarian-pod-agent", "json", "", "80"⟩⟩
    let pod : Pod := ⟨some ⟨[( ThreatScanAnnotation, "")], List.nodup_singleton _⟩,
      ⟨[⟨"app", "nginx", [], [], [⟨"data", "/data"⟩]⟩], [⟨"data", none⟩], none⟩⟩
    let patched := injectPodAgent p.config ⟨[( ThreatScanAnnotation, "")], List.nodup_singleton _⟩ pod
    p.handle (.ok pod) = .patch patched ∧
      p.handle (.ok patched) =
        .allowed ("container with name " ++ p.config.name ++ " already exists") := by
  intro p pod patched
  have h : p.handle (.ok pod) = .patch patched := rfl
  exact ⟨h, handle_patched_idempotent h⟩

/-- **`--register-file-paths` is not deduplicated**: the test on `mountPathsAdded` never holds,
so every mount path but `/etc/podinfo` and the service-account path is listed, repeats
included. -/
theorem registerFilePaths_eq (m : MountMerge) :
    registerFilePaths m = (m.volumeMounts.map (·.mountPath)).filter fun path =>
      path ≠ podInfoPath ∧ path ≠ "/var/run/secrets/kubernetes.io/serviceaccount" := by
  have h : ∀ (vms : List VolumeMount) (s : PathScan), s.mountPathsAdded = .empty →
      (vms.foldl scanMountPath s).mountPaths = s.mountPaths ++ (vms.map (·.mountPath)).filter
        fun path => path ≠ podInfoPath ∧ path ≠ "/var/run/secrets/kubernetes.io/serviceaccount" := by
    intro vms
    induction vms with
    | nil => simp
    | cons vm vms ih =>
      intro s hs
      have hnone : ¬(s.mountPathsAdded.find? vm.mountPath).isSome := by simp [hs, GoMap.find?]
      rw [List.foldl_cons, scanMountPath, if_neg hnone]
      dsimp only
      split <;> rw [ih] <;> simp_all
  simpa using h m.volumeMounts ⟨.empty, m.mountNamesAdded, []⟩ rfl

end Tarian.Webhookserver
