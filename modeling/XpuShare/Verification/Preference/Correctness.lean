import XpuShare.Model.DevicePlugin

/-! # Preferred allocations

`GetPreferredAllocation` groups the available devices by GPU, sorts the GPUs by how many of
their devices are taken, and takes devices from the front until there are enough. -/

namespace XpuShare

/-- The available identifiers of a GPU. -/
def availableOn (ids : List String) (uuid : String) : List String :=
  ids.filter fun id => wellFormedID id && uuidOfID id = uuid

/-- How many devices of a GPU are taken. -/
def DevicePlugin.load (p : DevicePlugin) (ids : List String) (uuid : String) : ℤ :=
  max 0 (p.virtualDevices - (availableOn ids uuid).length)

/-- What a preferred allocation is to be. -/
structure PreferredSpec (p : DevicePlugin) (ids : List String) (size : ℤ) (r : Selection) :
    Prop where
  nodup : r.preferredDevices.Nodup
  available : ∀ id ∈ r.preferredDevices, id ∈ ids ∧ wellFormedID id = true
  number : (r.preferredDevices.length : ℤ) = min size (ids.filter wellFormedID).length
  leastLoaded : ∀ id ∈ r.preferredDevices, ∀ id' ∈ ids, wellFormedID id' = true →
    p.load ids (uuidOfID id') < p.load ids (uuidOfID id) → id' ∈ r.preferredDevices
  counted : ∀ id ∈ ids, wellFormedID id = true → r.gpuAllocationCount (uuidOfID id) =
    p.load ids (uuidOfID id) + (r.preferredDevices.filter (uuidOfID · = uuidOfID id)).length

/-! ## The maps -/

/-- What the maps hold after some identifiers. -/
structure GpuMaps.Holds (ids : List String) (g : GpuMaps) : Prop where
  nodup : g.keys.Nodup
  mem_keys : ∀ uuid, uuid ∈ g.keys ↔ ∃ id ∈ ids, wellFormedID id = true ∧ uuidOfID id = uuid
  devices : ∀ uuid, g.gpuDevices uuid = availableOn ids uuid
  count : ∀ uuid, g.gpuAvailableCount uuid = (availableOn ids uuid).length

section Maps

variable {ids : List String} {g : GpuMaps}

theorem availableOn_append_self {id : String} (hid : wellFormedID id = true) (ids : List String) :
    availableOn (ids ++ [id]) (uuidOfID id) = availableOn ids (uuidOfID id) ++ [id] := by
  simp [availableOn, hid]

theorem availableOn_append_other {id uuid : String}
    (h : ¬ (wellFormedID id = true ∧ uuidOfID id = uuid)) (ids : List String) :
    availableOn (ids ++ [id]) uuid = availableOn ids uuid := by
  have hnot : (wellFormedID id && decide (uuidOfID id = uuid)) = false := by
    simpa using h
  simp [availableOn, hnot]

theorem GpuMaps.Holds.add_malformed (h : g.Holds ids) {id : String}
    (hid : wellFormedID id = false) : g.Holds (ids ++ [id]) := by
  have hnot : ∀ uuid, ¬ (wellFormedID id = true ∧ uuidOfID id = uuid) := by simp [hid]
  refine ⟨h.nodup, ?_, ?_, ?_⟩
  · intro uuid
    rw [h.mem_keys uuid]
    simp [or_and_right, exists_or, hid]
  · intro uuid
    rw [availableOn_append_other (hnot uuid), h.devices uuid]
  · intro uuid
    rw [availableOn_append_other (hnot uuid), h.count uuid]

theorem GpuMaps.Holds.add (h : g.Holds ids) (id : String) : (g.add id).Holds (ids ++ [id]) := by
  unfold GpuMaps.add
  by_cases hid : wellFormedID id = true
  · rw [if_pos hid]
    simp only
    have hother : ∀ {uuid}, uuid ≠ uuidOfID id → ¬ (wellFormedID id = true ∧ uuidOfID id = uuid) :=
      fun hne hand => hne hand.2.symm
    refine ⟨?_, ?_, ?_, ?_⟩
    · simp only
      split
      · exact h.nodup
      · next hnew => simpa using h.nodup.concat hnew
    · intro uuid
      have hadd : uuid ∈ (if uuidOfID id ∈ g.keys then g.keys else g.keys ++ [uuidOfID id]) ↔
          uuid ∈ g.keys ∨ uuid = uuidOfID id := by
        split
        · next hmem => exact ⟨.inl, fun h => h.elim (fun hk => hk) fun he => he ▸ hmem⟩
        · simp
      rw [hadd, h.mem_keys uuid]
      constructor
      · rintro (⟨other, hmem, hother⟩ | rfl)
        · exact ⟨other, List.mem_append_left _ hmem, hother⟩
        · exact ⟨id, by simp, hid, rfl⟩
      · rintro ⟨other, hmem, hwell, rfl⟩
        rcases List.mem_append.mp hmem with hmem | hmem
        · exact .inl ⟨other, hmem, hwell, rfl⟩
        · exact .inr (by rw [List.mem_singleton.mp hmem])
    · intro uuid
      simp only
      by_cases hne : uuid = uuidOfID id
      · rw [hne, availableOn_append_self hid, Function.update_self, h.devices]
      · rw [availableOn_append_other (hother hne), Function.update_of_ne hne, h.devices]
    · intro uuid
      simp only
      by_cases hne : uuid = uuidOfID id
      · rw [hne, availableOn_append_self hid, Function.update_self, h.count, List.length_append,
          List.length_singleton]
      · rw [availableOn_append_other (hother hne), Function.update_of_ne hne, h.count]
  · rw [if_neg hid]
    exact h.add_malformed (Bool.eq_false_of_not_eq_true hid)

/-- The loop that builds the maps; `seen` are the identifiers before it. -/
theorem GpuMaps.Holds.foldl {seen : List String} (h : g.Holds seen) (ids : List String) :
    (ids.foldl GpuMaps.add g).Holds (seen ++ ids) := by
  induction ids generalizing seen g with
  | nil => simpa using h
  | cons id ids ih => simpa using ih (h.add id)

theorem gpuMaps_holds (ids : List String) : (gpuMaps ids).Holds ids := by
  have hempty : GpuMaps.Holds [] {} :=
    ⟨List.nodup_nil, by simp, fun _ => rfl, fun _ => rfl⟩
  exact hempty.foldl ids

end Maps

/-! ## The counts -/

theorem DevicePlugin.allocated_eq (p : DevicePlugin) (available : ℕ) :
    p.allocated available = max 0 ((p.virtualDevices : ℤ) - available) := by
  simp only [DevicePlugin.allocated]
  split <;> omega

theorem DevicePlugin.syncCounts_of_mem (p : DevicePlugin) (g : GpuMaps) {uuids : List String}
    {uuid : String} (h : uuid ∈ uuids) (count : String → ℤ) :
    p.syncCounts g uuids count uuid = p.allocated (g.gpuAvailableCount uuid) := by
  unfold DevicePlugin.syncCounts
  induction uuids using List.reverseRecOn with
  | nil => cases h
  | append_singleton uuids last ih =>
      rw [List.foldl_append, List.foldl_cons, List.foldl_nil]
      by_cases hlast : uuid = last
      · rw [hlast, Function.update_self]
      · rw [Function.update_of_ne hlast]
        apply ih
        simpa [hlast] using h

/-! ## The selection -/

section Selecting

variable (size : ℤ)

/-- One GPU gives devices until there are enough. -/
theorem selectDevices_preferred (uuid : String) (devices : List String) (r : Selection) :
    (selectDevices size uuid devices r).preferredDevices =
      r.preferredDevices ++ devices.take (size - r.preferredDevices.length).toNat := by
  induction devices generalizing r with
  | nil => simp [selectDevices]
  | cons devID devices ih =>
      rw [selectDevices]
      split
      · next hfull =>
          have hzero : (size - r.preferredDevices.length).toNat = 0 := by omega
          rw [hzero, List.take_zero, List.append_nil]
      · next hroom =>
          have hsucc : (size - r.preferredDevices.length).toNat =
              (size - (r.preferredDevices.length + 1 : ℕ)).toNat + 1 := by omega
          rw [ih, hsucc, List.take_succ_cons]
          simp

theorem selectDevices_count (uuid : String) (devices : List String) (r : Selection) :
    (selectDevices size uuid devices r).gpuAllocationCount =
      Function.update r.gpuAllocationCount uuid (r.gpuAllocationCount uuid +
        (devices.take (size - r.preferredDevices.length).toNat).length) := by
  induction devices generalizing r with
  | nil => simp [selectDevices]
  | cons devID devices ih =>
      rw [selectDevices]
      split
      · next hfull =>
          have hzero : (size - r.preferredDevices.length).toNat = 0 := by omega
          rw [hzero, List.take_zero]
          simp
      · next hroom =>
          have hsucc : (size - r.preferredDevices.length).toNat =
              (size - (r.preferredDevices.length + 1 : ℕ)).toNat + 1 := by omega
          rw [ih, hsucc, List.take_succ_cons]
          simp only [Function.update_self, Function.update_idem, List.length_append,
            List.length_cons, List.length_nil, zero_add]
          congr 1
          push_cast
          ring

/-- How many are missing once a GPU has given its devices. -/
theorem room_left (preferred devices : List String) :
    (size - (preferred ++ devices.take (size - preferred.length).toNat).length).toNat =
      (size - preferred.length).toNat - devices.length := by
  rw [List.length_append, List.length_take]
  omega

variable (gpuDevices : String → List String)

theorem selectGpus_preferred (gpuLoads : List GpuLoad) (r : Selection) :
    (selectGpus size gpuDevices gpuLoads r).preferredDevices = r.preferredDevices ++
      (gpuLoads.flatMap (gpuDevices ·.uuid)).take (size - r.preferredDevices.length).toNat := by
  induction gpuLoads generalizing r with
  | nil => simp [selectGpus]
  | cons gl gpuLoads ih =>
      rw [selectGpus]
      split
      · next hfull =>
          have hzero : (size - r.preferredDevices.length).toNat = 0 := by omega
          rw [hzero, List.take_zero, List.append_nil]
      · rw [ih, selectDevices_preferred, room_left, List.flatMap_cons, List.take_append,
          List.append_assoc]

variable {gpuDevices} (hdevices : ∀ uuid, ∀ id ∈ gpuDevices uuid, uuidOfID id = uuid)

include hdevices

/-- Each count grows by the number of devices taken from its GPU. -/
theorem selectGpus_count (gpuLoads : List GpuLoad) (r : Selection) (uuid : String) :
    (selectGpus size gpuDevices gpuLoads r).gpuAllocationCount uuid =
      r.gpuAllocationCount uuid +
        (((gpuLoads.flatMap (gpuDevices ·.uuid)).take
          (size - r.preferredDevices.length).toNat).filter (uuidOfID · = uuid)).length := by
  induction gpuLoads generalizing r with
  | nil => simp [selectGpus]
  | cons gl gpuLoads ih =>
      rw [selectGpus]
      split
      · next hfull =>
          have hzero : (size - r.preferredDevices.length).toNat = 0 := by omega
          rw [hzero, List.take_zero]
          simp
      · rw [ih, selectDevices_preferred, room_left, selectDevices_count, List.flatMap_cons,
          List.take_append, List.filter_append, List.length_append]
        have hmine : ∀ id ∈ (gpuDevices gl.uuid).take (size - r.preferredDevices.length).toNat,
            uuidOfID id = gl.uuid := fun id hid => hdevices _ id (List.mem_of_mem_take hid)
        generalize (gpuDevices gl.uuid).take (size - r.preferredDevices.length).toNat = taken at *
        by_cases hself : uuid = gl.uuid
        · have hall : taken.filter (uuidOfID · = gl.uuid) = taken :=
            List.filter_eq_self.mpr (by simpa using hmine)
          rw [hself, Function.update_self, hall]
          push_cast
          ring
        · have hnone : taken.filter (uuidOfID · = uuid) = [] := by
            rw [List.filter_eq_nil_iff]
            intro id hid
            rw [hmine id hid]
            simpa using fun he => hself he.symm
          rw [Function.update_of_ne hself, hnone, List.length_nil, Nat.zero_add]

end Selecting

/-! ## The sorted GPUs -/

/-- The GPUs with available devices, each with its load, in order of their loads. -/
structure SortedLoads (p : DevicePlugin) (ids : List String) (gpuLoads : List GpuLoad) : Prop where
  nodup : (gpuLoads.map GpuLoad.uuid).Nodup
  mem : ∀ uuid, uuid ∈ gpuLoads.map GpuLoad.uuid ↔
    ∃ id ∈ ids, wellFormedID id = true ∧ uuidOfID id = uuid
  count : ∀ gl ∈ gpuLoads, gl.count = p.load ids gl.uuid
  sorted : gpuLoads.Pairwise fun gl gl' => gl.count ≤ gl'.count

section Loads

variable {p : DevicePlugin} {ids : List String} {gpuLoads : List GpuLoad}

theorem mem_availableOn {id uuid : String} :
    id ∈ availableOn ids uuid ↔ id ∈ ids ∧ wellFormedID id = true ∧ uuidOfID id = uuid := by
  simp [availableOn]

/-- The counts are the loads, whatever they were before. -/
theorem DevicePlugin.syncCounts_gpuMaps (p : DevicePlugin) (ids : List String)
    {order : List String → List String} (horder : ∀ l, (order l).Perm l) {uuid : String}
    (h : uuid ∈ (gpuMaps ids).keys) (count : String → ℤ) :
    p.syncCounts (gpuMaps ids) (order (gpuMaps ids).keys) count uuid = p.load ids uuid := by
  have hmem : uuid ∈ order (gpuMaps ids).keys := (horder _).mem_iff.mpr h
  rw [p.syncCounts_of_mem _ hmem, p.allocated_eq, (gpuMaps_holds ids).count, DevicePlugin.load]

theorem sortedLoads_sort (p : DevicePlugin) (ids : List String)
    {order' : List String → List String} (horder' : ∀ l, (order' l).Perm l) {count : String → ℤ}
    (hcount : ∀ uuid ∈ (gpuMaps ids).keys, count uuid = p.load ids uuid) :
    SortedLoads p ids (SelectionSort.sort GpuLoad.count
      ((order' (gpuMaps ids).keys).map fun uuid => ⟨uuid, count uuid⟩).toArray).toList := by
  have hg := gpuMaps_holds ids
  have hperm := SelectionSort.sort_perm GpuLoad.count
    ((order' (gpuMaps ids).keys).map fun uuid => (⟨uuid, count uuid⟩ : GpuLoad)).toArray
  have huuids := hperm.map GpuLoad.uuid
  simp only [List.map_map, Function.comp_def, List.map_id'] at hperm huuids
  have hkeys := huuids.trans (horder' (gpuMaps ids).keys)
  refine ⟨hkeys.nodup_iff.mpr hg.nodup, ?_, ?_, SelectionSort.sort_pairwise _⟩
  · intro uuid
    rw [hkeys.mem_iff, hg.mem_keys]
  · intro gl hgl
    obtain ⟨uuid, huuid, rfl⟩ := List.mem_map.mp (hperm.mem_iff.mp hgl)
    exact hcount uuid ((horder' _).mem_iff.mp huuid)

namespace SortedLoads

variable (h : SortedLoads p ids gpuLoads)

include h

/-- Their devices, one GPU after the other, are the available ones. -/
theorem perm (hids : ids.Nodup) :
    (gpuLoads.flatMap fun gl => availableOn ids gl.uuid).Perm (ids.filter wellFormedID) := by
  rw [List.perm_ext_iff_of_nodup]
  · intro id
    rw [List.mem_flatMap, List.mem_filter]
    constructor
    · rintro ⟨gl, -, hid⟩
      rw [mem_availableOn] at hid
      exact ⟨hid.1, hid.2.1⟩
    · rintro ⟨hid, hwell⟩
      obtain ⟨gl, hgl, huuid⟩ := List.mem_map.mp ((h.mem (uuidOfID id)).mpr ⟨id, hid, hwell, rfl⟩)
      exact ⟨gl, hgl, mem_availableOn.mpr ⟨hid, hwell, huuid.symm⟩⟩
  · rw [List.nodup_flatMap]
    refine ⟨fun gl _ => hids.filter _, ?_⟩
    apply (List.pairwise_map.mp h.nodup).imp
    intro gl gl' hne id hid hid'
    rw [mem_availableOn] at hid hid'
    exact hne (hid.2.2.symm.trans hid'.2.2)
  · exact hids.filter _

/-- Devices of a GPU with a smaller load stand before those of one with a greater load. -/
theorem mem_take {n : ℕ} {id id' : String}
    (hid : id ∈ (gpuLoads.flatMap fun gl => availableOn ids gl.uuid).take n) (hid' : id' ∈ ids)
    (hwell : wellFormedID id' = true)
    (hless : p.load ids (uuidOfID id') < p.load ids (uuidOfID id)) :
    id' ∈ (gpuLoads.flatMap fun gl => availableOn ids gl.uuid).take n := by
  obtain ⟨gl, hgl, hin⟩ := List.mem_flatMap.mp (List.mem_of_mem_take hid)
  obtain ⟨gl', hgl', huuid'⟩ :=
    List.mem_map.mp ((h.mem (uuidOfID id')).mpr ⟨id', hid', hwell, rfl⟩)
  have huuid : uuidOfID id = gl.uuid := (mem_availableOn.mp hin).2.2
  have hcount : gl'.count < gl.count := by
    rw [h.count gl hgl, h.count gl' hgl', huuid', ← huuid]
    exact hless
  obtain ⟨front, back, rfl⟩ := List.append_of_mem hgl
  -- the other GPU is in front, since the loads ascend
  have hfront : gl' ∈ front := by
    rcases List.mem_append.mp hgl' with hmem | hmem
    · exact hmem
    · rcases List.mem_cons.mp hmem with rfl | hmem
      · exact absurd hcount (lt_irrefl _)
      · have hle := (List.pairwise_cons.mp (List.pairwise_append.mp h.sorted).2.1).1 gl' hmem
        exact absurd hcount (not_lt.mpr hle)
  have hnotin : id ∉ front.flatMap fun gl => availableOn ids gl.uuid := by
    intro hmem
    obtain ⟨other, hother, hin'⟩ := List.mem_flatMap.mp hmem
    have hsame : other.uuid = gl.uuid := (mem_availableOn.mp hin').2.2.symm.trans huuid
    have hnodup := h.nodup
    rw [List.map_append, List.map_cons] at hnodup
    exact (List.disjoint_of_nodup_append hnodup) (List.mem_map_of_mem hother)
      (by rw [hsame]; exact List.mem_cons_self)
  rw [List.flatMap_append, List.take_append] at hid ⊢
  have hlength : (front.flatMap fun gl => availableOn ids gl.uuid).length ≤ n := by
    by_contra hshort
    have hzero : n - (front.flatMap fun gl => availableOn ids gl.uuid).length = 0 := by omega
    rw [hzero, List.take_zero, List.append_nil] at hid
    exact hnotin (List.mem_of_mem_take hid)
  apply List.mem_append_left
  rw [List.take_of_length_le hlength, List.mem_flatMap]
  exact ⟨gl', hfront, mem_availableOn.mpr ⟨hid', hwell, huuid'.symm⟩⟩

end SortedLoads

end Loads

/-- Whatever the loads were taken to be before, and in whatever orders the maps are walked, the
preferred devices are the first of those available, in ascending order of their GPUs' loads. -/
theorem preferred_allocation_spec (p : DevicePlugin) {order order' : List String → List String}
    (horder : ∀ l, (order l).Perm l) (horder' : ∀ l, (order' l).Perm l) {ids : List String}
    (hids : ids.Nodup) {size : ℤ} (hsize : 0 ≤ size) (count : String → ℤ) :
    PreferredSpec p ids size (p.preferContainer order order' ids size count) := by
  have hg := gpuMaps_holds ids
  have hcount : ∀ uuid ∈ (gpuMaps ids).keys,
      p.syncCounts (gpuMaps ids) (order (gpuMaps ids).keys) count uuid = p.load ids uuid :=
    fun uuid h => p.syncCounts_gpuMaps ids horder h count
  have hloads := sortedLoads_sort p ids horder' hcount
  have hdevices : (gpuMaps ids).gpuDevices = availableOn ids := funext hg.devices
  have hmine : ∀ uuid, ∀ id ∈ availableOn ids uuid, uuidOfID id = uuid :=
    fun uuid id hid => (mem_availableOn.mp hid).2.2
  simp only [DevicePlugin.preferContainer, hdevices]
  generalize p.syncCounts (gpuMaps ids) (order (gpuMaps ids).keys) count = count' at *
  generalize (SelectionSort.sort GpuLoad.count
    ((order' (gpuMaps ids).keys).map fun uuid => ⟨uuid, count' uuid⟩).toArray).toList =
    gpuLoads at *
  have hpreferred := selectGpus_preferred size (availableOn ids) gpuLoads
    { gpuAllocationCount := count' }
  have hcounts := selectGpus_count size hmine gpuLoads { gpuAllocationCount := count' }
  simp only [List.nil_append, List.length_nil, Nat.cast_zero, sub_zero] at hpreferred hcounts
  have hperm := hloads.perm hids
  refine ⟨?_, ?_, ?_, ?_, ?_⟩
  · rw [hpreferred]
    exact (hperm.nodup_iff.mpr (hids.filter _)).sublist (List.take_sublist _ _)
  · intro id hid
    rw [hpreferred] at hid
    exact List.mem_filter.mp (hperm.mem_iff.mp (List.mem_of_mem_take hid))
  · rw [hpreferred, List.length_take, hperm.length_eq]
    omega
  · intro id hid id' hid' hwell hless
    rw [hpreferred] at hid ⊢
    exact hloads.mem_take hid hid' hwell hless
  · intro id hid hwell
    rw [hpreferred, hcounts (uuidOfID id), hcount _ ((hg.mem_keys _).mpr ⟨id, hid, hwell, rfl⟩)]

theorem preferred_allocation_spec_two_gpus :
    let p : DevicePlugin := { uuids := ["A", "B"], virtualDevices := 3, useMounts := false }
    let ids := ["B__1", "A__2", "device", "A__3"]
    let r := p.preferContainer List.reverse (fun l => l) ids 2 fun _ => 7
    r.preferredDevices = ["A__2", "A__3"] ∧ PreferredSpec p ids 2 r := by
  intro p ids r
  exact ⟨by decide +kernel, preferred_allocation_spec p List.reverse_perm List.Perm.refl
    (by decide +kernel) (by decide) _⟩

end XpuShare
