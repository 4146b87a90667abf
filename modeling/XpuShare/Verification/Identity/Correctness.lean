import XpuShare.Model.DevicePlugin
import XpuShare.Verification.Scheduler.Moves
import XpuShare.Verification.Scheduler.Runs

/-! # A GPU keeps its identity

From the device identifiers that the plugin hands out, through the environment of a container
and the REGISTER message of its client, to the context on which the scheduler registers it. In
the volume-mount mode every container gets the same value, and all GPUs become one. -/

namespace XpuShare

/-- A UUID as the driver writes it: letters, digits and dashes, shorter than the buffers it is
copied into. -/
structure PhysicalUuid (uuid : String) : Prop where
  chars : ∀ ch ∈ uuid.toList, ch.isAlphanum = true ∨ ch = '-'
  short : uuid.toList.length < gpuUuidLen

/-- Device identifiers of one GPU, at least one of them. -/
def DevicePlugin.OfGpu (p : DevicePlugin) (uuid : String) (ids : List String) : Prop :=
  uuid ∈ p.uuids ∧ ids ≠ [] ∧
    ∀ id ∈ ids, ∃ j < p.virtualDevices, id = generateDeviceID uuid (j + 1)

/-! ## From the identifiers to the message -/

section Plugin

variable {p : DevicePlugin} {uuid : String} {ids : List String}

theorem PhysicalUuid.of_all (h : uuid.toList.all (fun ch => ch.isAlphanum || ch = '-') = true)
    (hshort : uuid.toList.length < gpuUuidLen) : PhysicalUuid uuid where
  chars := by simpa [List.all_eq_true] using h
  short := hshort

theorem PhysicalUuid.no_underscore (h : PhysicalUuid uuid) : '_' ∉ uuid.toList := by
  intro hmem
  rcases h.chars '_' hmem with hch | hch
  · exact absurd hch (by decide)
  · exact absurd hch (by decide)

theorem splitUnderscores_append {l : List Char} (h : '_' ∉ l) (rest : List Char) :
    splitUnderscores (l ++ '_' :: '_' :: rest) = l :: splitUnderscores rest := by
  induction l with
  | nil => simp [splitUnderscores]
  | cons ch l ih =>
      rw [List.mem_cons, not_or] at h
      have hne : ch ≠ '_' := fun he => h.1 he.symm
      rw [List.cons_append]
      rw [splitUnderscores, ih h.2]
      intro rest' hch
      exact absurd hch hne

theorem uuidOfID_generateDeviceID (h : PhysicalUuid uuid) (ordinal : ℕ) :
    uuidOfID (generateDeviceID uuid ordinal) = uuid := by
  have hlist : (generateDeviceID uuid ordinal).toList =
      uuid.toList ++ '_' :: '_' :: (toString ordinal).toList := by
    simp [generateDeviceID]
  rw [uuidOfID, hlist, splitUnderscores_append h.no_underscore]
  simp

theorem DevicePlugin.OfGpu.exists (h : p.OfGpu uuid ids) : ids.all p.deviceExists = true := by
  rw [List.all_eq_true]
  intro id hid
  obtain ⟨j, hj, rfl⟩ := h.2.2 id hid
  simp only [deviceExists, decide_eq_true_eq, getDevices, List.mem_flatMap, List.mem_map,
    List.mem_range]
  exact ⟨uuid, h.1, j, hj, rfl⟩

theorem DevicePlugin.OfGpu.unique (h : p.OfGpu uuid ids) (huuid : PhysicalUuid uuid) :
    (ids.map uuidOfID).dedup = [uuid] := by
  have hmap : ids.map uuidOfID = List.replicate ids.length uuid := by
    rw [List.eq_replicate_iff]
    refine ⟨List.length_map _, ?_⟩
    intro text htext
    obtain ⟨id, hid, rfl⟩ := List.mem_map.mp htext
    obtain ⟨j, -, rfl⟩ := h.2.2 id hid
    exact uuidOfID_generateDeviceID huuid (j + 1)
  have hlength : ids.length ≠ 0 := by simpa using h.2.1
  rw [hmap, List.replicate_dedup hlength]

theorem strlcpy_of_short {text : String} {size : ℕ} (h : text.toList.length < size) :
    strlcpy text size = text := by
  rw [strlcpy, List.take_of_length_le (by omega), String.ofList_toList]

/-- The value of NVIDIA_VISIBLE_DEVICES in a container that has devices of one GPU. -/
def DevicePlugin.visibleDevices (p : DevicePlugin) (uuid : String) : String :=
  if p.useMounts then nvidiaExposeMountDir else uuid

theorem DevicePlugin.visibleDevices_short (p : DevicePlugin) (huuid : PhysicalUuid uuid) :
    (p.visibleDevices uuid).toList.length < gpuUuidLen := by
  unfold visibleDevices
  split
  · decide
  · exact huuid.short

/-- The request is granted, and the client in the container registers under the value of
NVIDIA_VISIBLE_DEVICES. -/
theorem DevicePlugin.OfGpu.allocateContainer (h : p.OfGpu uuid ids)
    (huuid : PhysicalUuid uuid) {order : List String → List String}
    (horder : ∀ l, (order l).Perm l) :
    ∃ r, p.allocateContainer order ids = some r ∧
      registeredUuid r.getenv = p.visibleDevices uuid := by
  have hone : order [uuid] = [uuid] := List.perm_singleton.mp (horder [uuid])
  have hshort := p.visibleDevices_short huuid
  refine ⟨_, by rw [DevicePlugin.allocateContainer, if_pos h.exists], ?_⟩
  rw [registeredUuid, nvshareGpuUuid]
  have hvisible : (if p.useMounts then nvidiaExposeMountDir else uuid) = p.visibleDevices uuid :=
    rfl
  simp only [h.unique huuid, hone, ContainerResponse.getenv, List.find?_cons]
  simp [hvisible, strlcpy_of_short hshort]

end Plugin

/-! ## From the message to the context -/

/-- `x` is the first context whose UUID the scheduler takes for this one. -/
def FirstContext (uuid : String) (x : CtxId) (s : Sched) : Prop :=
  x < s.nctx ∧ strncmpEq (s.ctx x).uuid uuid gpuUuidLen = true ∧
    ∀ y < x, strncmpEq (s.ctx y).uuid uuid gpuUuidLen = false

section Contexts

variable {cfg : Config} {env : Env} {s t : Sched} {uuid : String} {x : CtxId}

theorem FirstContext.unique {y : CtxId} (hx : FirstContext uuid x s)
    (hy : FirstContext uuid y s) : x = y := by
  rcases Nat.lt_trichotomy x y with hlt | heq | hgt
  · have hno := hy.2.2 x hlt
    rw [hx.2.1] at hno
    cases hno
  · exact heq
  · have hno := hx.2.2 y hgt
    rw [hy.2.1] at hno
    cases hno

/-- A context found for two short UUIDs shows that they are one. -/
theorem FirstContext.uuid_eq {uuid' : String} (hx : FirstContext uuid x s)
    (hx' : FirstContext uuid' x s) (hshort : uuid.toList.length < gpuUuidLen)
    (hshort' : uuid'.toList.length < gpuUuidLen) : uuid = uuid' := by
  have hsame := hx.2.1
  have hsame' := hx'.2.1
  simp only [strncmpEq, decide_eq_true_eq] at hsame hsame'
  rw [hsame, List.take_of_length_le hshort.le, List.take_of_length_le hshort'.le] at hsame'
  exact String.toList_injective hsame'

/-- The context `get_or_create_gpu_context` returns is the first one for its UUID. -/
theorem getOrCreateGpuContext_first (cfg : Config) (s : Sched)
    (hshort : uuid.toList.length < gpuUuidLen) :
    FirstContext uuid (getOrCreateGpuContext cfg uuid s).1
      (getOrCreateGpuContext cfg uuid s).2 := by
  unfold getOrCreateGpuContext
  split
  · rename_i x hfind
    rw [List.find?_range_eq_some] at hfind
    exact ⟨List.mem_range.mp hfind.2.1, hfind.1, fun y hy => by simpa using hfind.2.2 y hy⟩
  · rename_i hfind
    rw [List.find?_range_eq_none] at hfind
    refine ⟨Nat.lt_succ_self _, ?_, ?_⟩
    · simp [strlcpy_of_short hshort, strncmpEq]
    · intro y hy
      have hlt : y < s.nctx := hy
      simpa [Function.update_of_ne hlt.ne] using hfind y hlt

theorem enrol_first (cfg : Config) (s : Sched) (c : ClientId) (m : RegisterMsg)
    (e : RegisterEnv) (hshort : m.gpuUuid.toList.length < gpuUuidLen) :
    ∃ x, ((enrol cfg c m e s).client c).context = some x ∧
      FirstContext m.gpuUuid x (enrol cfg c m e s) := by
  refine ⟨(getOrCreateGpuContext cfg m.gpuUuid s).1, ?_, ?_⟩
  · simp [enrol, registeredRecord]
  · exact getOrCreateGpuContext_first cfg s hshort

/-- Contexts are never renamed and never removed. -/
def KeepsContexts (s t : Sched) : Prop :=
  s.nctx ≤ t.nctx ∧ ∀ x < s.nctx, (t.ctx x).uuid = (s.ctx x).uuid

theorem KeepsContexts.trans {u : Sched} (h : KeepsContexts s t) (h' : KeepsContexts t u) :
    KeepsContexts s u :=
  ⟨h.1.trans h'.1, fun x hx => (h'.2 x (hx.trans_le h.1)).trans (h.2 x hx)⟩

theorem KeepsContexts.first (h : KeepsContexts s t) (hx : FirstContext uuid x s) :
    FirstContext uuid x t := by
  refine ⟨hx.1.trans_le h.1, ?_, ?_⟩
  · rw [h.2 x hx.1]
    exact hx.2.1
  · intro y hy
    rw [h.2 y (hy.trans hx.1)]
    exact hx.2.2 y hy

theorem Action.keepsContexts {D : ClientId → Prop} {ok : Sched → Event → Prop}
    (h : Action cfg env D ok s t) : KeepsContexts s t := by
  cases h with
  | block x h =>
      refine ⟨h.frame.nctx.ge, fun y _ => ?_⟩
      by_cases hy : y = x
      · subst hy
        exact (congrArg GpuContext.uuid h.frame.fixed :)
      · rw [h.frame.ctx_ne y hy]
  | tune h => exact ⟨h.nctx.ge, fun y _ => (congrArg GpuContext.uuid (h.ctx y) :)⟩
  | accept garbage hok => exact ⟨le_rfl, fun _ _ => rfl⟩
  | enrol c m e hok hmem hunreg hid =>
      obtain ⟨x, -, -, hle, -, -, -, -, hctx⟩ := enrol_spec cfg c m e s
      refine ⟨hle, fun y hy => ?_⟩
      rcases hctx with ⟨-, hctx⟩ | ⟨hx, hctx⟩
      · rw [hctx]
      · have hne : y ≠ x := hx ▸ hy.ne
        rw [hctx, Function.update_of_ne hne]
  | insert c x hok hmem hon hctx hreq =>
      refine ⟨le_rfl, fun y _ => ?_⟩
      rw [Sched.modifyCtx_ctx]
      split
      · rename_i hy
        rw [hy]
      · rfl
  | memory c x v hok hmem hctx =>
      obtain ⟨usage, peak, overloaded, h⟩ := creditMemory_spec cfg x c v s
      rw [h]
      refine ⟨le_rfl, fun y _ => ?_⟩
      rw [Sched.modifyCtx_ctx]
      split
      · rename_i hy
        rw [hy]
        rfl
      · rfl
  | unlink c hctx => exact ⟨le_rfl, fun _ _ => rfl⟩
  | power on c hok => exact ⟨le_rfl, fun _ _ => rfl⟩
  | clear s₀ c hok =>
      refine ⟨le_rfl, fun y _ => ?_⟩
      simp only [clearRequests]
      split <;> rfl

theorem Step.keepsContexts {e : Event} (h : Step cfg env s e t) (hwf : WellFormed s) :
    KeepsContexts s t := by
  have hactions : Actions cfg env (fun _ => True) (fun _ _ => True) s t :=
    h.actions (fun _ _ _ => trivial) hwf trivial fun _ _ => trivial
  exact hactions.invariant (I := fun u => KeepsContexts s u)
    (fun _ _ ha hs => hs.trans ha.keepsContexts) ⟨le_rfl, fun _ _ => rfl⟩

theorem KeepsContexts.of_reaches (h : Transition.Reaches (Step cfg env) s t)
    (hwf : WellFormed s) : KeepsContexts s t := by
  have hboth : WellFormed t ∧ KeepsContexts s t := by
    refine h.invariant (I := fun u => WellFormed u ∧ KeepsContexts s u) ?_
      ⟨hwf, le_rfl, fun _ _ => rfl⟩
    rintro u e v hstep ⟨hwfu, hkeeps⟩
    exact ⟨hstep.wellFormed hwfu, hkeeps.trans (hstep.keepsContexts hwfu)⟩
  exact hboth.2

/-- A successful registration puts the client on the first context for its UUID. -/
theorem register_first {c : ClientId} {m : RegisterMsg} {e : RegisterEnv}
    (hunreg : hasRegistered s c = false)
    (h : Step cfg env s (.message c (.register m e)) t) (hin : c ∈ t.clients)
    (hshort : m.gpuUuid.toList.length < gpuUuidLen) :
    ∃ x, (t.client c).context = some x ∧ FirstContext m.gpuUuid x t := by
  have htuned := register_tuned hunreg h hin
  obtain ⟨x, hctx, hfirst⟩ := enrol_first cfg s c m e hshort
  have hkeeps : KeepsContexts (enrol cfg c m e s) t :=
    ⟨htuned.nctx.ge, fun y _ => (congrArg GpuContext.uuid (htuned.ctx y) :)⟩
  exact ⟨x, by rw [context_of_core (htuned.client c), hctx], hkeeps.first hfirst⟩

/-- Two registrations share a context exactly when they carry the same short UUID. -/
theorem context_eq_iff {s₁ s₂ s₃ : Sched} {c₁ c₂ : ClientId} {m₁ m₂ : RegisterMsg}
    {e₁ e₂ : RegisterEnv} (hwf : WellFormed s) (hunreg₁ : hasRegistered s c₁ = false)
    (hstep₁ : Step cfg env s (.message c₁ (.register m₁ e₁)) s₁) (hin₁ : c₁ ∈ s₁.clients)
    (hbetween : Transition.Reaches (Step cfg env) s₁ s₂) (hunreg₂ : hasRegistered s₂ c₂ = false)
    (hstep₂ : Step cfg env s₂ (.message c₂ (.register m₂ e₂)) s₃) (hin₂ : c₂ ∈ s₃.clients)
    (hshort₁ : m₁.gpuUuid.toList.length < gpuUuidLen)
    (hshort₂ : m₂.gpuUuid.toList.length < gpuUuidLen) :
    (s₁.client c₁).context = (s₃.client c₂).context ↔ m₁.gpuUuid = m₂.gpuUuid := by
  obtain ⟨x₁, hx₁, hfirst₁⟩ := register_first hunreg₁ hstep₁ hin₁ hshort₁
  obtain ⟨x₂, hx₂, hfirst₂⟩ := register_first hunreg₂ hstep₂ hin₂ hshort₂
  have hwf₁ : WellFormed s₁ := hstep₁.wellFormed hwf
  have hkeeps : KeepsContexts s₁ s₃ :=
    KeepsContexts.of_reaches (hbetween.tail hstep₂) hwf₁
  have hlater : FirstContext m₁.gpuUuid x₁ s₃ := hkeeps.first hfirst₁
  rw [hx₁, hx₂, Option.some.injEq]
  constructor
  · rintro rfl
    exact hlater.uuid_eq hfirst₂ hshort₁ hshort₂
  · intro hsame
    rw [hsame] at hlater
    exact hlater.unique hfirst₂

end Contexts

/-! ## End to end -/

theorem DevicePlugin.visibleDevices_eq_iff (p : DevicePlugin) (uuid uuid' : String) :
    p.visibleDevices uuid = p.visibleDevices uuid' ↔ p.useMounts = true ∨ uuid = uuid' := by
  unfold visibleDevices
  split
  · rename_i hmounts
    simp [hmounts]
  · rename_i hmounts
    simp [hmounts]

/-- Two containers are given devices of one GPU each, and the clients in them register, one
after the other, with the values they find in their environments. They end up on the same
context exactly when their GPUs are the same, if and only if devices are exposed through the
environment, or the GPUs are the same anyway. -/
theorem gpu_identity_iff {cfg : Config} {env : Env} {p : DevicePlugin}
    {order₁ order₂ : List String → List String} (horder₁ : ∀ l, (order₁ l).Perm l)
    (horder₂ : ∀ l, (order₂ l).Perm l) {uuid₁ uuid₂ : String} (huuid₁ : PhysicalUuid uuid₁)
    (huuid₂ : PhysicalUuid uuid₂) {ids₁ ids₂ : List String} (hids₁ : p.OfGpu uuid₁ ids₁)
    (hids₂ : p.OfGpu uuid₂ ids₂) {r₁ r₂ : ContainerResponse}
    (hr₁ : p.allocateContainer order₁ ids₁ = some r₁)
    (hr₂ : p.allocateContainer order₂ ids₂ = some r₂) {m₁ m₂ : RegisterMsg}
    (hm₁ : m₁.gpuUuid = registeredUuid r₁.getenv)
    (hm₂ : m₂.gpuUuid = registeredUuid r₂.getenv) {e₁ e₂ : RegisterEnv} {c₁ c₂ : ClientId}
    {s s₁ s₂ s₃ : Sched} (hreach : Transition.Reaches (Step cfg env) Sched.init s)
    (hunreg₁ : hasRegistered s c₁ = false)
    (hstep₁ : Step cfg env s (.message c₁ (.register m₁ e₁)) s₁) (hin₁ : c₁ ∈ s₁.clients)
    (hbetween : Transition.Reaches (Step cfg env) s₁ s₂) (hunreg₂ : hasRegistered s₂ c₂ = false)
    (hstep₂ : Step cfg env s₂ (.message c₂ (.register m₂ e₂)) s₃) (hin₂ : c₂ ∈ s₃.clients) :
    ((s₁.client c₁).context = (s₃.client c₂).context ↔ uuid₁ = uuid₂) ↔
      p.useMounts = false ∨ uuid₁ = uuid₂ := by
  obtain ⟨r₁', hr₁', hv₁⟩ := hids₁.allocateContainer huuid₁ horder₁
  obtain ⟨r₂', hr₂', hv₂⟩ := hids₂.allocateContainer huuid₂ horder₂
  obtain rfl : r₁ = r₁' := Option.some.inj (hr₁.symm.trans hr₁')
  obtain rfl : r₂ = r₂' := Option.some.inj (hr₂.symm.trans hr₂')
  rw [hv₁] at hm₁
  rw [hv₂] at hm₂
  rw [context_eq_iff (wellFormed_of_reaches hreach) hunreg₁ hstep₁ hin₁ hbetween hunreg₂ hstep₂
    hin₂ (hm₁ ▸ p.visibleDevices_short huuid₁) (hm₂ ▸ p.visibleDevices_short huuid₂), hm₁, hm₂,
    p.visibleDevices_eq_iff]
  cases p.useMounts with
  | false => simp
  | true => simp

/-- A plugin with two GPUs, each advertised twice. -/
def twoGpus (useMounts : Bool) : DevicePlugin := ⟨["GPU-a", "GPU-b"], 2, useMounts⟩

theorem twoGpus_first (useMounts : Bool) : (twoGpus useMounts).OfGpu "GPU-a" ["GPU-a__1"] := by
  refine ⟨by simp [twoGpus], by simp, ?_⟩
  intro id hid
  rw [List.mem_singleton.mp hid]
  exact ⟨0, by simp [twoGpus], by decide⟩

theorem twoGpus_second (useMounts : Bool) : (twoGpus useMounts).OfGpu "GPU-b" ["GPU-b__2"] := by
  refine ⟨by simp [twoGpus], by simp, ?_⟩
  intro id hid
  rw [List.mem_singleton.mp hid]
  exact ⟨1, by simp [twoGpus], by decide⟩

/-- Two connections. -/
def twoConnected : Sched := accept {} (accept {} Sched.init)

theorem twoConnected_reaches : Transition.Reaches (Step {} steady) Sched.init twoConnected :=
  ((Transition.Reaches.refl _).tail (e := .accept {}) ⟨rfl, 0, rfl⟩).tail (e := .accept {})
    ⟨rfl, 0, rfl⟩

/-- The state after client `c` has registered under a UUID. -/
def registeredOn (c : ClientId) (uuid : String) (s : Sched) : Sched :=
  (registerClient .static steady c { gpuUuid := uuid } { generatedId := c + 1 } s).2

/-- Containers with devices of different GPUs, exposed through the environment. -/
theorem gpu_identity_environment :
    ((registeredOn 0 "GPU-a" twoConnected).client 0).context =
        ((registeredOn 1 "GPU-b" (registeredOn 0 "GPU-a" twoConnected)).client 1).context ↔
      "GPU-a" = "GPU-b" := by
  have huuid₁ : PhysicalUuid "GPU-a" := .of_all (by decide) (by decide)
  have huuid₂ : PhysicalUuid "GPU-b" := .of_all (by decide) (by decide)
  have horder : ∀ l : List String, (id l).Perm l := fun l => List.Perm.refl l
  obtain ⟨r₁, hr₁, hv₁⟩ := (twoGpus_first false).allocateContainer huuid₁ horder
  obtain ⟨r₂, hr₂, hv₂⟩ := (twoGpus_second false).allocateContainer huuid₂ horder
  have hstep₁ : Step {} steady twoConnected
      (.message 0 (.register { gpuUuid := "GPU-a" } { generatedId := 1 }))
      (registeredOn 0 "GPU-a" twoConnected) := ⟨by decide, 0, rfl⟩
  have hstep₂ : Step {} steady (registeredOn 0 "GPU-a" twoConnected)
      (.message 1 (.register { gpuUuid := "GPU-b" } { generatedId := 2 }))
      (registeredOn 1 "GPU-b" (registeredOn 0 "GPU-a" twoConnected)) := ⟨by decide, 0, rfl⟩
  exact (gpu_identity_iff horder horder huuid₁ huuid₂ (twoGpus_first false)
    (twoGpus_second false) hr₁ hr₂ hv₁.symm hv₂.symm twoConnected_reaches (by decide) hstep₁
    (by decide) (Transition.Reaches.refl _) (by decide) hstep₂ (by decide)).mpr (Or.inl rfl)

/-- With volume mounts, clients of different GPUs share a context. -/
theorem gpu_identity_lost : ∃ r₁ r₂ : ContainerResponse,
    (twoGpus true).allocateContainer id ["GPU-a__1"] = some r₁ ∧
      (twoGpus true).allocateContainer id ["GPU-b__2"] = some r₂ ∧
      ¬ (((registeredOn 0 (registeredUuid r₁.getenv) twoConnected).client 0).context =
          ((registeredOn 1 (registeredUuid r₂.getenv)
            (registeredOn 0 (registeredUuid r₁.getenv) twoConnected)).client 1).context ↔
        "GPU-a" = "GPU-b") := by
  have horder : ∀ l : List String, (id l).Perm l := fun l => List.Perm.refl l
  obtain ⟨r₁, hr₁, hv₁⟩ :=
    (twoGpus_first true).allocateContainer (.of_all (by decide) (by decide)) horder
  obtain ⟨r₂, hr₂, hv₂⟩ :=
    (twoGpus_second true).allocateContainer (.of_all (by decide) (by decide)) horder
  have hsame : (twoGpus true).visibleDevices "GPU-b" = (twoGpus true).visibleDevices "GPU-a" :=
    rfl
  refine ⟨r₁, r₂, hr₁, hr₂, ?_⟩
  rw [hv₁, hv₂, hsame]
  decide

end XpuShare
