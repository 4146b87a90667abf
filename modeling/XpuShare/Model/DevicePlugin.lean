import XpuShare.Lib.SelectionSort
import XpuShare.Model.Client

/-! # The device plugin

The Kubernetes device plugin advertises each physical GPU under several device identifiers and
tells the containers that are given some of them which GPU they may see, through the
environment or through volume mounts. -/

namespace XpuShare

/-- The variables that `main` sets from its environment: the physical GPUs, how often each is
advertised, and whether devices are exposed through volume mounts. -/
structure DevicePlugin where
  uuids : List String
  virtualDevices : ℕ
  useMounts : Bool

def nvidiaExposeMountDir : String := "/var/run/nvidia-container-devices"

def generateDeviceID (uuid : String) (ordinal : ℕ) : String :=
  uuid ++ "__" ++ toString ordinal

/-- `getDevices`: the identifiers reported to the kubelet. -/
def DevicePlugin.getDevices (p : DevicePlugin) : List String :=
  p.uuids.flatMap fun uuid => (List.range p.virtualDevices).map fun j =>
    generateDeviceID uuid (j + 1)

def DevicePlugin.deviceExists (p : DevicePlugin) (id : String) : Bool := id ∈ p.getDevices

/-- `strings.Split(text, "__")`. -/
def splitUnderscores : List Char → List (List Char)
  | '_' :: '_' :: rest => [] :: splitUnderscores rest
  | ch :: rest =>
      match splitUnderscores rest with
      | [] => [[ch]]
      | part :: parts => (ch :: part) :: parts
  | [] => [[]]

/-- `parts[0]` of a device identifier. -/
def uuidOfID (id : String) : String :=
  String.ofList ((splitUnderscores id.toList).headD [])

structure Mount where
  hostPath : String
  containerPath : String
  readOnly : Bool := false
  deriving DecidableEq

/-- `ContainerAllocateResponse`. -/
structure ContainerResponse where
  envs : List (String × String)
  mounts : List Mount
  deriving DecidableEq

/-- The environment a container gets from its response. -/
def ContainerResponse.getenv (r : ContainerResponse) (name : String) : Option String :=
  (r.envs.find? (·.1 = name)).map Prod.snd

/-- The mounts of every container. -/
def commonMounts : List Mount :=
  [⟨"/var/run/nvshare/libnvshare.so", "/usr/lib/nvshare/libnvshare.so", true⟩,
    ⟨"/var/run/nvshare/scheduler.sock", "/var/run/nvshare/scheduler.sock", true⟩]

/-- `Allocate` on one container request; `order` is the order in which Go walks the set of
unique UUIDs. -/
def DevicePlugin.allocateContainer (p : DevicePlugin) (order : List String → List String)
    (ids : List String) : Option ContainerResponse :=
  if ids.all p.deviceExists then
    let allocated := order (ids.map uuidOfID).dedup
    some
      { envs :=
          [("LD_PRELOAD", "/usr/lib/nvshare/libnvshare.so"),
            ("NVIDIA_VISIBLE_DEVICES",
              if p.useMounts then nvidiaExposeMountDir else ",".intercalate allocated)]
        mounts := commonMounts ++ if p.useMounts then
          allocated.map fun uuid => ⟨"/dev/null", nvidiaExposeMountDir ++ "/" ++ uuid, false⟩
          else [] }
  else none

/-- `Allocate`, which fails as a whole if one request does. -/
def DevicePlugin.allocate (p : DevicePlugin) (order : List String → List String)
    (requests : List (List String)) : Option (List ContainerResponse) :=
  requests.mapM (p.allocateContainer order)

/-! ## Preferred allocations -/

/-- The identifier is split into a UUID and an ordinal. -/
def wellFormedID (id : String) : Bool := (splitUnderscores id.toList).length = 2

/-- The two maps that are built from the available identifiers, and their keys. -/
structure GpuMaps where
  keys : List String := []
  gpuDevices : String → List String := fun _ => []
  gpuAvailableCount : String → ℕ := fun _ => 0

def GpuMaps.add (g : GpuMaps) (devID : String) : GpuMaps :=
  if wellFormedID devID then
    let gpuUUID := uuidOfID devID
    { keys := if gpuUUID ∈ g.keys then g.keys else g.keys ++ [gpuUUID]
      gpuDevices := Function.update g.gpuDevices gpuUUID (g.gpuDevices gpuUUID ++ [devID])
      gpuAvailableCount :=
        Function.update g.gpuAvailableCount gpuUUID (g.gpuAvailableCount gpuUUID + 1) }
  else g

def gpuMaps (availableDeviceIDs : List String) : GpuMaps :=
  availableDeviceIDs.foldl GpuMaps.add {}

/-- How many devices of a GPU are taken if so many are available. -/
def DevicePlugin.allocated (p : DevicePlugin) (available : ℕ) : ℤ :=
  let allocated : ℤ := p.virtualDevices - available
  if allocated < 0 then 0 else allocated

/-- The loop that sets the counts of the GPUs with available devices. -/
def DevicePlugin.syncCounts (p : DevicePlugin) (g : GpuMaps) (uuids : List String)
    (gpuAllocationCount : String → ℤ) : String → ℤ :=
  uuids.foldl (fun count uuid =>
    Function.update count uuid (p.allocated (g.gpuAvailableCount uuid))) gpuAllocationCount

structure GpuLoad where
  uuid : String
  count : ℤ
  deriving Inhabited

structure Selection where
  preferredDevices : List String := []
  gpuAllocationCount : String → ℤ

/-- The inner loop, over the devices of one GPU. -/
def selectDevices (allocationSize : ℤ) (uuid : String) : List String → Selection → Selection
  | [], r => r
  | devID :: devices, r =>
      if allocationSize ≤ r.preferredDevices.length then r
      else selectDevices allocationSize uuid devices
        { preferredDevices := r.preferredDevices ++ [devID]
          gpuAllocationCount :=
            Function.update r.gpuAllocationCount uuid (r.gpuAllocationCount uuid + 1) }

/-- The outer loop, over the GPUs in order of their load. -/
def selectGpus (allocationSize : ℤ) (gpuDevices : String → List String) :
    List GpuLoad → Selection → Selection
  | [], r => r
  | gl :: gpuLoads, r =>
      if allocationSize ≤ r.preferredDevices.length then r
      else selectGpus allocationSize gpuDevices gpuLoads
        (selectDevices allocationSize gl.uuid (gpuDevices gl.uuid) r)

/-- `GetPreferredAllocation` on one container request: the identifiers it prefers and the
counts it leaves. `order` and `order'` are the orders in which Go walks the map, first to set
the counts and then to list the loads. -/
def DevicePlugin.preferContainer (p : DevicePlugin) (order order' : List String → List String)
    (availableDeviceIDs : List String) (allocationSize : ℤ) (gpuAllocationCount : String → ℤ) :
    Selection :=
  let g := gpuMaps availableDeviceIDs
  let count := p.syncCounts g (order g.keys) gpuAllocationCount
  let gpuLoads := (order' g.keys).map fun uuid => ⟨uuid, count uuid⟩
  let sorted := SelectionSort.sort GpuLoad.count gpuLoads.toArray
  selectGpus allocationSize g.gpuDevices sorted.toList { gpuAllocationCount := count }

end XpuShare
