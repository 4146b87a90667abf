import Mathlib.Data.List.TakeWhile
import XpuShare.Verification.Extraction.Correctness
import XpuShare.Verification.Scheduler.Moves
import XpuShare.Verification.Scheduler.Runs

/-! # Limits follow the annotations

What one pass of the annotation watcher should make of a client's two limits, and exactly
when it does. A request that fails and a pod without the annotation look the same to the
watcher, which then keeps the memory limit and lifts the compute limit. It also takes for the
annotation whatever it finds in the pod's description behind the first string that is its
name. -/

namespace XpuShare

variable (env : Env)

/-- The integer a text is when written in decimal. -/
def decimalInteger (text : String) : Option ℤ :=
  let (negative, digits) := splitSign text.toList
  if digits ≠ [] ∧ digits.all Char.isDigit then
    let magnitude : ℤ := digits.foldl
      (fun acc digit => acc * 10 + (digit.toNat - '0'.toNat : ℕ)) 0
    some (if negative then -magnitude else magnitude)
  else none

/-- A request for the pod of a client: it has failed, whatever came back, or it has brought the
description of the pod, which has the annotation `value` or none. -/
inductive PodRequest where
  | failed (reply : PodReply)
  | fetched (value : Option String) (body : List Char)

/-- What the request comes to for `k8s_get_pod_annotation`. -/
def PodRequest.reply : PodRequest → PodReply
  | .failed reply => reply
  | .fetched _ body => .answered body

/-- The annotation that a request brings. -/
def PodRequest.value : PodRequest → Option String
  | .failed _ => none
  | .fetched value _ => value

/-- The memory limit a client should have after a pass: a failed request leaves it, and
without a positive annotation there is none. -/
def intendedMemoryLimit (parseMemorySize : String → ℕ) (old : ℕ) : PodRequest → ℕ
  | .failed _ => old
  | .fetched value _ => value.elim 0 parseMemorySize

/-- The compute limit a client should have after a pass: a failed request leaves it, and
without an integer from 1 to 100 it is 100. -/
def intendedCoreLimit (old : ℤ) : PodRequest → ℤ
  | .failed _ => old
  | .fetched value _ => annotatedCoreLimit (value.bind decimalInteger)

/-- Destinations and messages of the sends between two states. -/
def sentSince (s t : Sched) : List (ClientId × ToClient) :=
  (t.out.drop s.out.length).map fun m => (m.dest, m.msg)

/-- The limits of `c` are as intended, and it has been told those that changed. -/
structure Reconciled (parseMemorySize : String → ℕ) (c : ClientId) (memory core : PodRequest)
    (s t : Sched) : Prop where
  memoryLimit : (t.client c).memoryLimit =
    intendedMemoryLimit parseMemorySize (s.client c).memoryLimit memory
  coreLimit : (t.client c).coreLimit = intendedCoreLimit (s.client c).coreLimit core
  told : sentSince s t =
    (if (t.client c).memoryLimit ≠ (s.client c).memoryLimit then
      [(c, .updateLimit (t.client c).memoryLimit)] else []) ++
    (if (t.client c).coreLimit ≠ (s.client c).coreLimit then
      [(c, .updateCoreLimit (t.client c).coreLimit)] else [])

/-! ## When a pass reads the annotations right -/

/-- The size that a reply seems to give, 0 for none. -/
def foundMemory (parseMemorySize : String → ℕ) (reply : PodReply) : ℕ :=
  match k8sGetPodAnnotation memoryLimitAnnotation reply with
  | some value => parseMemorySize value
  | none => 0

/-- The compute limit that a reply seems to give, 100 for none. -/
def foundCore (reply : PodReply) : ℤ :=
  annotatedCoreLimit <| Option.map atoi <| k8sGetPodAnnotation coreLimitAnnotation reply

/-- A size found in the reply is that of the annotation, or after a failure the present limit,
and where none is found the annotation asks for the present limit. -/
def MemoryRead (parseMemorySize : String → ℕ) (old : ℕ) (request : PodRequest) : Prop :=
  if 0 < foundMemory parseMemorySize request.reply then
    foundMemory parseMemorySize request.reply =
      intendedMemoryLimit parseMemorySize old request
  else intendedMemoryLimit parseMemorySize old request = old

/-- What the reply shows under the name of an annotation is the annotation: the name is a string
of the pod's description only as that of the annotation, whose value has no escapes; and what
comes back from a failed request has no such string. -/
def Presented (annotationKey : String) : PodRequest → Prop
  | .failed .failed => True
  | .failed (.answered body) => ∃ ls, Json.IsText ls ∧ body = Json.text ls ∧
      annotationKey.toList ∉ Json.stringTokens ls
  | .fetched none body => ∃ ls, Json.IsText ls ∧ body = Json.text ls ∧
      annotationKey.toList ∉ Json.stringTokens ls
  | .fetched (some value) body => ∃ ls units, Json.IsText ls ∧ body = Json.text ls ∧
      OnlyMember annotationKey.toList (.string units) ls ∧ Json.Plain units ∧
      value.toList = Json.content units

/-- A pod without a positive memory annotation is only seen for a client without a limit. -/
def MemoryKept (parseMemorySize : String → ℕ) (old : ℕ) : PodRequest → Prop
  | .failed _ => True
  | .fetched (some value) _ => 0 < parseMemorySize value ∨ old = 0
  | .fetched none _ => old = 0

/-- The request for the compute annotation fails only for an unlimited client, and a text that
`atoi` takes for a limit below 100 is that number. -/
def CoreKept (old : ℤ) : PodRequest → Prop
  | .failed _ => old = 100
  | .fetched (some value) _ =>
      1 ≤ atoi value ∧ atoi value < 100 → decimalInteger value = some (atoi value)
  | .fetched none _ => True

/-! ## Reading integers -/

theorem splitSign_cases (l : List Char) :
    (∃ rest, l = '-' :: rest ∧ splitSign l = (true, rest)) ∨
      (∃ rest, l = '+' :: rest ∧ splitSign l = (false, rest)) ∨ splitSign l = (false, l) := by
  unfold splitSign
  split
  · exact Or.inl ⟨_, rfl, rfl⟩
  · exact Or.inr (Or.inl ⟨_, rfl, rfl⟩)
  · exact Or.inr (Or.inr rfl)

theorem not_isSpace_of_isDigit {ch : Char} (h : ch.isDigit = true) : isSpace ch = false := by
  simp only [Char.isDigit, Bool.and_eq_true, decide_eq_true_eq] at h
  simp only [isSpace, Bool.or_eq_false_iff, beq_eq_false_iff_ne, ne_eq]
  refine ⟨⟨⟨⟨⟨?_, ?_⟩, ?_⟩, ?_⟩, ?_⟩, ?_⟩ <;> rintro rfl <;> exact absurd h (by decide)

/-- A numeral has no leading space, and nothing after its digits. -/
theorem dropWhile_isSpace_of_digits {l : List Char} (hne : (splitSign l).2 ≠ [])
    (hdigits : (splitSign l).2.all Char.isDigit = true) : l.dropWhile isSpace = l := by
  rcases splitSign_cases l with ⟨rest, rfl, -⟩ | ⟨rest, rfl, -⟩ | hplain
  · rfl
  · rfl
  · rw [hplain] at hne hdigits
    cases l with
    | nil => rfl
    | cons ch rest =>
        simp only [List.all_cons, Bool.and_eq_true] at hdigits
        rw [List.dropWhile_cons_of_neg]
        simp [not_isSpace_of_isDigit hdigits.1]

theorem takeWhile_of_all {α : Type*} {p : α → Bool} {l : List α} (h : l.all p = true) :
    l.takeWhile p = l := by
  rw [List.takeWhile_eq_self_iff]
  exact List.all_eq_true.mp h

/-- `atoi` reads an integer that fits in an `int`. -/
theorem atoi_of_decimalInteger {text : String} {v : ℤ} (h : decimalInteger text = some v)
    (hlo : 1 ≤ v) (hhi : v ≤ 100) : atoi text = v := by
  unfold decimalInteger at h
  simp only [Option.ite_none_right_eq_some, Option.some.injEq] at h
  obtain ⟨⟨hne, hdigits⟩, hv⟩ := h
  unfold atoi
  simp only [dropWhile_isSpace_of_digits hne hdigits, takeWhile_of_all hdigits]
  rw [hv]
  have hclamped : max (-2 ^ 63) (min v (2 ^ 63 - 1)) = v := by omega
  rw [hclamped]
  exact toInt32_eq (by omega) (by omega)

/-- The watcher's reading of a text is the intended one unless `atoi` takes it for a number
below 100 that it is not. -/
theorem annotatedCoreLimit_atoi_iff (text : String) :
    annotatedCoreLimit (some (atoi text)) = annotatedCoreLimit (decimalInteger text) ↔
      (1 ≤ atoi text ∧ atoi text < 100 → decimalInteger text = some (atoi text)) := by
  cases hdec : decimalInteger text with
  | none =>
      simp only [annotatedCoreLimit]
      split <;> simp <;> omega
  | some v =>
      by_cases hv : 1 ≤ v ∧ v ≤ 100
      · have hatoi := atoi_of_decimalInteger hdec hv.1 hv.2
        simp [hatoi]
      · simp only [annotatedCoreLimit, hv, if_false, Option.some.injEq]
        split <;> omega

/-! ## The two updates -/

section Updates

variable (c : ClientId) (s : Sched)

/-- The memory limit the watcher leaves behind. -/
def watchedMemoryLimit (old : ℕ) : Option ℕ → ℕ
  | some n => if 0 < n then n else old
  | none => old

theorem updateMemoryLimit_memoryLimit (limit : Option ℕ) :
    ((updateMemoryLimit env c limit s).client c).memoryLimit =
      watchedMemoryLimit (s.client c).memoryLimit limit := by
  unfold updateMemoryLimit watchedMemoryLimit
  split
  · rename_i n
    by_cases hn : 0 < n
    · by_cases hsame : n = (s.client c).memoryLimit
      · simp [hn, ← hsame]
      · simp [hn, hsame]
    · simp [hn]
  · rfl

theorem updateMemoryLimit_coreLimit (limit : Option ℕ) :
    ((updateMemoryLimit env c limit s).client c).coreLimit = (s.client c).coreLimit := by
  unfold updateMemoryLimit
  split
  · split
    · simp
    · rfl
  · rfl

theorem updateMemoryLimit_out (limit : Option ℕ) : ∃ ok,
    (updateMemoryLimit env c limit s).out = s.out ++
      if watchedMemoryLimit (s.client c).memoryLimit limit ≠ (s.client c).memoryLimit then
        [⟨c, .updateLimit (watchedMemoryLimit (s.client c).memoryLimit limit), ok⟩] else [] := by
  refine ⟨env.sendOk s.out.length c, ?_⟩
  unfold updateMemoryLimit watchedMemoryLimit
  split
  · rename_i n
    by_cases hn : 0 < n
    · by_cases hsame : n = (s.client c).memoryLimit
      · simp [← hsame]
      · simp [hn, hsame, sendMessage, sendSucceeds]
    · simp [hn]
  · simp

theorem updateCoreLimit_memoryLimit (value : Option ℤ) :
    ((updateCoreLimit env c value s).client c).memoryLimit = (s.client c).memoryLimit := by
  unfold updateCoreLimit
  simp only
  split
  · simp
  · rfl

theorem updateCoreLimit_coreLimit (value : Option ℤ) :
    ((updateCoreLimit env c value s).client c).coreLimit = annotatedCoreLimit value := by
  unfold updateCoreLimit
  simp only
  split
  · simp
  · rename_i hsame
    simpa using (not_not.mp hsame).symm

theorem updateCoreLimit_out (value : Option ℤ) : ∃ ok,
    (updateCoreLimit env c value s).out = s.out ++
      if annotatedCoreLimit value ≠ (s.client c).coreLimit then
        [⟨c, .updateCoreLimit (annotatedCoreLimit value), ok⟩] else [] := by
  refine ⟨env.sendOk s.out.length c, ?_⟩
  unfold updateCoreLimit
  simp only
  split
  · simp [sendMessage, sendSucceeds]
  · simp

end Updates

/-! ## One pass -/

section Pass

variable {s : Sched} {c : ClientId}

/-- The watcher finds the client again under its identifier. -/
theorem find?_id_eq (hwf : WellFormed s) (hc : c ∈ s.clients) (hreg : hasRegistered s c = true) :
    (s.clients.find? fun d => (s.client d).id = (s.client c).id) = some c := by
  cases hfind : s.clients.find? fun d => (s.client d).id = (s.client c).id with
  | none =>
      rw [List.find?_eq_none] at hfind
      exact absurd (by simp) (hfind c hc)
  | some d =>
      have hid : (s.client d).id = (s.client c).id := by simpa using List.find?_some hfind
      rw [hwf.ids c hc d (List.mem_of_find?_eq_some hfind) hreg hid.symm]

/-- What one pass does to the client: both limits, and the updates for those that changed. -/
theorem watchClient_spec (hwf : WellFormed s) (hc : c ∈ s.clients)
    (hreg : hasRegistered s c = true) (parseMemorySize : String → ℕ) (memory core : PodReply) :
    let t := watchClient env parseMemorySize (s.client c).id memory core s
    (t.client c).memoryLimit = (if 0 < foundMemory parseMemorySize memory then
        foundMemory parseMemorySize memory else (s.client c).memoryLimit) ∧
      (t.client c).coreLimit = foundCore core ∧
      sentSince s t =
        (if (t.client c).memoryLimit ≠ (s.client c).memoryLimit then
          [(c, .updateLimit (t.client c).memoryLimit)] else []) ++
        (if (t.client c).coreLimit ≠ (s.client c).coreLimit then
          [(c, .updateCoreLimit (t.client c).coreLimit)] else []) := by
  intro t
  generalize hmem : k8sGetPodAnnotation memoryLimitAnnotation memory = memLimitStr at *
  generalize hcor : k8sGetPodAnnotation coreLimitAnnotation core = coreLimitStr at *
  have ht : t = updateCoreLimit env c (coreLimitStr.map atoi)
      (updateMemoryLimit env c (memLimitStr.map parseMemorySize) s) := by
    simp only [t, watchClient, hmem, hcor, annotationUpdate, find?_id_eq hwf hc hreg]
  have hfound : watchedMemoryLimit (s.client c).memoryLimit (memLimitStr.map parseMemorySize) =
      if 0 < foundMemory parseMemorySize memory then foundMemory parseMemorySize memory
      else (s.client c).memoryLimit := by
    rw [foundMemory, hmem]
    cases memLimitStr <;> rfl
  obtain ⟨ok, hmemory⟩ := updateMemoryLimit_out env c s (memLimitStr.map parseMemorySize)
  obtain ⟨ok', hcore⟩ := updateCoreLimit_out env c
    (updateMemoryLimit env c (memLimitStr.map parseMemorySize) s) (coreLimitStr.map atoi)
  rw [updateMemoryLimit_coreLimit, hmemory] at hcore
  have hlimit : (t.client c).memoryLimit =
      watchedMemoryLimit (s.client c).memoryLimit (memLimitStr.map parseMemorySize) := by
    rw [ht, updateCoreLimit_memoryLimit, updateMemoryLimit_memoryLimit]
  have hshare : (t.client c).coreLimit = annotatedCoreLimit (coreLimitStr.map atoi) := by
    rw [ht, updateCoreLimit_coreLimit]
  refine ⟨hlimit.trans hfound, hshare.trans (by rw [foundCore, hcor]), ?_⟩
  rw [← ht, ← hlimit, ← hshare] at hcore
  rw [sentSince, hcore, List.append_assoc, List.drop_left, List.map_append]
  congr 1
  · split <;> rfl
  · split <;> rfl

end Pass

/-! ## What the extraction finds -/

section Found

variable {annotationKey : String} {request : PodRequest}

/-- A reply that presents the annotation is read as such. -/
theorem Presented.found (h : Presented annotationKey request)
    (hkey : AnnotationKey annotationKey.toList) :
    k8sGetPodAnnotation annotationKey request.reply = request.value := by
  match request, h with
  | .failed .failed, _ => rfl
  | .failed (.answered _), ⟨ls, hjson, rfl, hnot⟩ =>
      rw [PodRequest.reply, k8sGetPodAnnotation, extractJsonString_of_notMem hjson hkey hnot]
      rfl
  | .fetched none _, ⟨ls, hjson, rfl, hnot⟩ =>
      rw [PodRequest.reply, k8sGetPodAnnotation, extractJsonString_of_notMem hjson hkey hnot]
      rfl
  | .fetched (some value) _, ⟨ls, units, hjson, rfl, hmember, hplain, hvalue⟩ =>
      rw [PodRequest.reply, k8sGetPodAnnotation, hmember.plain_eq hjson hkey hplain,
        Option.map_some, ← hvalue, String.ofList_toList, PodRequest.value]

theorem memoryLimitAnnotation_key : AnnotationKey memoryLimitAnnotation.toList := by
  unfold memoryLimitAnnotation
  exact ⟨by decide, by simp⟩

theorem coreLimitAnnotation_key : AnnotationKey coreLimitAnnotation.toList := by
  unfold coreLimitAnnotation
  exact ⟨by decide, by simp⟩

/-- For a reply that presents the annotation, reading it right is a matter of the annotation and
the present limit. -/
theorem memoryRead_iff (h : Presented memoryLimitAnnotation request)
    (parseMemorySize : String → ℕ) (old : ℕ) :
    MemoryRead parseMemorySize old request ↔ MemoryKept parseMemorySize old request := by
  have hfound := h.found memoryLimitAnnotation_key
  unfold MemoryRead foundMemory
  rw [hfound]
  match request with
  | .failed _ => simp [PodRequest.value, intendedMemoryLimit, MemoryKept]
  | .fetched none _ => simp [PodRequest.value, intendedMemoryLimit, MemoryKept, eq_comm]
  | .fetched (some value) _ =>
      simp only [PodRequest.value, Option.elim_some, intendedMemoryLimit, MemoryKept]
      split
      · simp [*]
      · omega

theorem coreRead_iff (h : Presented coreLimitAnnotation request) (old : ℤ) :
    foundCore request.reply = intendedCoreLimit old request ↔ CoreKept old request := by
  have hfound := h.found coreLimitAnnotation_key
  unfold foundCore
  rw [hfound]
  match request with
  | .failed _ =>
      simp only [PodRequest.value, Option.map_none, annotatedCoreLimit, intendedCoreLimit,
        CoreKept]
      exact eq_comm
  | .fetched none _ =>
      simp [PodRequest.value, annotatedCoreLimit, intendedCoreLimit, CoreKept]
  | .fetched (some value) _ =>
      simpa only [PodRequest.value, Option.map_some, intendedCoreLimit, Option.bind_some,
        CoreKept] using annotatedCoreLimit_atoi_iff value

end Found

/-- Limit reconciliation. For every registered client and all outcomes of the two requests of a
pass, whatever its limits were, the pass leaves both limits as intended and tells the client
those that changed, if and only if what the replies seem to give is what is intended, where a
size of zero stands for the present memory limit. When both replies present the annotations,
this is so if and only if a pod without a positive memory annotation meets a client without a
memory limit, a failed request for the compute annotation meets a client at 100, and `atoi` does
not take for a smaller number what is not one. -/
theorem limits_reconciled_iff {cfg : Config} {s : Sched} {c : ClientId}
    (hreach : Transition.Reaches (Step cfg env) Sched.init s) (hc : c ∈ s.clients)
    (hreg : hasRegistered s c = true) (parseMemorySize : String → ℕ)
    (memory core : PodRequest) :
    let t := watchClient env parseMemorySize (s.client c).id memory.reply core.reply s
    (Reconciled parseMemorySize c memory core s t ↔
      MemoryRead parseMemorySize (s.client c).memoryLimit memory ∧
        foundCore core.reply = intendedCoreLimit (s.client c).coreLimit core) ∧
    (Presented memoryLimitAnnotation memory → Presented coreLimitAnnotation core →
      (Reconciled parseMemorySize c memory core s t ↔
        MemoryKept parseMemorySize (s.client c).memoryLimit memory ∧
          CoreKept (s.client c).coreLimit core)) := by
  intro t
  obtain ⟨hlimit, hshare, htold⟩ := watchClient_spec env (wellFormed_of_reaches hreach)
    hc hreg parseMemorySize memory.reply core.reply
  have hmemory : MemoryRead parseMemorySize (s.client c).memoryLimit memory ↔
      (t.client c).memoryLimit =
        intendedMemoryLimit parseMemorySize (s.client c).memoryLimit memory := by
    rw [hlimit, MemoryRead]
    split
    · exact Iff.rfl
    · exact eq_comm
  have hexact : Reconciled parseMemorySize c memory core s t ↔
      MemoryRead parseMemorySize (s.client c).memoryLimit memory ∧
        foundCore core.reply = intendedCoreLimit (s.client c).coreLimit core := by
    rw [hmemory, ← hshare]
    constructor
    · intro h
      exact ⟨h.memoryLimit, h.coreLimit⟩
    · intro h
      exact ⟨h.1, h.2, htold⟩
  refine ⟨hexact, fun hmem hcor => ?_⟩
  rw [hexact, memoryRead_iff hmem, coreRead_iff hcor]

/-- The registration of the first client, with limits in its pod's annotations. -/
def enterLimited (memoryLimit : ℕ) (coreLimit : ℤ) : Event :=
  .message 0 (.register {}
    { generatedId := 1, coreAnnotated := some coreLimit, memoryAnnotated := some memoryLimit })

/-- The description of a pod with two annotations. -/
def describedPod : List Char :=
  ("\x7b\"annotations\":\x7b\"nvshare.com/gpu-memory-limit\":\"2Ki\"," ++
    "\"nvshare.com/gpu-core-limit\":\"30\"\x7d\x7d").toList

/-- A parser of one memory size. -/
def twoKibibytes (text : String) : ℕ := if text = "2Ki" then 2048 else 0

/-- Both annotations change, and the client is told. -/
theorem limits_reconciled_changed : ∃ s : Sched,
    Reconciled twoKibibytes 0 (.fetched (some "2Ki") describedPod)
      (.fetched (some "30") describedPod) s
      (watchClient steady twoKibibytes (s.client 0).id (.answered describedPod)
        (.answered describedPod) s) ∧
      (s.client 0).memoryLimit = 4096 ∧ (s.client 0).coreLimit = 50 := by
  obtain ⟨s, hreach, hc, hreg, hlimits⟩ := exists_reaches {} steady (fun _ _ => True) 0
    [.accept {}, enterLimited 4096 50]
    (fun s => 0 ∈ s.clients ∧ hasRegistered s 0 = true ∧
      (s.client 0).memoryLimit = 4096 ∧ (s.client 0).coreLimit = 50) (by decide +kernel)
  have hfound : foundMemory twoKibibytes (.answered describedPod) = 2048 := by decide +kernel
  have hmemory (old : ℕ) : MemoryRead twoKibibytes old (.fetched (some "2Ki") describedPod) := by
    rw [MemoryRead, PodRequest.reply, hfound, if_pos (by decide), intendedMemoryLimit]
    decide
  have hcore (old : ℤ) : foundCore (.answered describedPod) =
      intendedCoreLimit old (.fetched (some "30") describedPod) := by
    rw [intendedCoreLimit]
    decide +kernel
  exact ⟨s, ((limits_reconciled_iff steady (hreach.mono fun _ _ _ h => h.2) hc hreg twoKibibytes
    (.fetched (some "2Ki") describedPod) (.fetched (some "30") describedPod)).1).mpr
      ⟨hmemory _, hcore _⟩, hlimits⟩

/-- A pod whose compute annotation is 50, and whose memory annotation has been removed. -/
def unlimitedPod : List Char :=
  "\x7b\"annotations\":\x7b\"nvshare.com/gpu-core-limit\":\"50\"\x7d\x7d".toList

/-- A pod with the same compute annotation, and another whose value is its name. -/
def copiedPod : List Char :=
  ("\x7b\"annotations\":\x7b\"copied-from\":\"nvshare.com/gpu-core-limit\"," ++
    "\"priority\":\"7\",\"nvshare.com/gpu-core-limit\":\"50\"\x7d\x7d").toList

/-- A client limited to half of the GPU and to 4096 bytes. When both requests fail it is told
that it has the whole GPU, when its memory annotation is removed it keeps its limit, and when
the name of the compute annotation occurs before it, it gets another annotation's value. -/
theorem limits_not_reconciled : ∃ s : Sched,
    Transition.Reaches (Step {} steady) Sched.init s ∧ 0 ∈ s.clients ∧
      hasRegistered s 0 = true ∧
      ¬ Reconciled twoKibibytes 0 (.failed .failed) (.failed .failed) s
        (watchClient steady twoKibibytes (s.client 0).id .failed .failed s) ∧
      ¬ Reconciled twoKibibytes 0 (.fetched none unlimitedPod)
        (.fetched (some "50") unlimitedPod) s
        (watchClient steady twoKibibytes (s.client 0).id (.answered unlimitedPod)
          (.answered unlimitedPod) s) ∧
      ¬ Reconciled twoKibibytes 0 (.fetched none copiedPod) (.fetched (some "50") copiedPod) s
        (watchClient steady twoKibibytes (s.client 0).id (.answered copiedPod)
          (.answered copiedPod) s) := by
  obtain ⟨s, hreach, hc, hreg, hcore, hfailed, hmemory, hcopied⟩ :=
    exists_reaches {} steady (fun _ _ => True) 0 [.accept {}, enterLimited 4096 50]
      (fun s => 0 ∈ s.clients ∧ hasRegistered s 0 = true ∧ (s.client 0).coreLimit = 50 ∧
        ((watchClient steady twoKibibytes (s.client 0).id .failed .failed s).client 0).coreLimit
          = 100 ∧
        ((watchClient steady twoKibibytes (s.client 0).id (.answered unlimitedPod)
          (.answered unlimitedPod) s).client 0).memoryLimit = 4096 ∧
        ((watchClient steady twoKibibytes (s.client 0).id (.answered copiedPod)
          (.answered copiedPod) s).client 0).coreLimit = 7) (by decide +kernel)
  refine ⟨s, hreach.mono fun _ _ _ h => h.2, hc, hreg, ?_, ?_, ?_⟩
  · intro h
    have hkept := h.coreLimit
    rw [hfailed, intendedCoreLimit, hcore] at hkept
    cases hkept
  · intro h
    have hlifted := h.memoryLimit
    rw [hmemory, intendedMemoryLimit] at hlifted
    cases hlifted
  · intro h
    have hread := h.coreLimit
    have hintended : annotatedCoreLimit ((some "50").bind decimalInteger) = 50 := by
      decide +kernel
    rw [hcopied, intendedCoreLimit, hintended] at hread
    cases hread

end XpuShare
