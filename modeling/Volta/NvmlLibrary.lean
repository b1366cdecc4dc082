/-
The calls to the NVIDIA library (`nvml_loader.cc`, `nvml_collector.cc`).

The loader opens the library at run time and looks its functions up; the collector
calls them through the pointers it has got.  The library counts its
initialisations, and the handle of a device is good as long as it is initialised.
It may reply to any call with anything, but that a device has some memory.

* `Ready` — what holds between the operations of the collector;
* `calls_allowed` — no function is called through a null pointer or one into a
  library that has been closed, none but `nvmlInit` and `nvmlErrorString` while the
  library is not initialised, none on a device that it has not returned since, and
  every initialisation is undone if `Init` succeeds once;
* `safe_collect` — `Collect` returns what `NvmlCollector.collect` says.
-/
import Volta.Calls
import Volta.NvmlCollector

namespace Volta

namespace NvmlLibrary

open Calls (Program Interface Safe perform safe_bind)

/-! ### The library -/

/-- What `dlopen` returns, and what the library returns for a device. -/
abbrev Handle := ℕ

abbrev Device := ℕ

/-- The functions that the loader looks up. -/
inductive Symbol where
  | init
  | shutdown
  | errorString
  | deviceGetCount
  | deviceGetHandleByIndex
  | deviceGetPciInfo
  | deviceGetPowerUsage
  | deviceGetTemperature
  | deviceGetUtilizationRates
  | deviceGetMemoryInfo
  | deviceGetName
  deriving DecidableEq

def Symbol.name : Symbol → String
  | .init => "nvmlInit_v2"
  | .shutdown => "nvmlShutdown"
  | .errorString => "nvmlErrorString"
  | .deviceGetCount => "nvmlDeviceGetCount_v2"
  | .deviceGetHandleByIndex => "nvmlDeviceGetHandleByIndex_v2"
  | .deviceGetPciInfo => "nvmlDeviceGetPciInfo_v3"
  | .deviceGetPowerUsage => "nvmlDeviceGetPowerUsage"
  | .deviceGetTemperature => "nvmlDeviceGetTemperature"
  | .deviceGetUtilizationRates => "nvmlDeviceGetUtilizationRates"
  | .deviceGetMemoryInfo => "nvmlDeviceGetMemoryInfo"
  | .deviceGetName => "nvmlDeviceGetName"

/-- `nvmlReturn_t`: what is not `NVML_SUCCESS` has a number. -/
abbrev Return (α : Type) := Except ℕ α

/-- A call of a function of the library, with what it takes. -/
inductive Function where
  | init
  | shutdown
  | errorString (result : ℕ)
  | deviceGetCount
  | deviceGetHandleByIndex (index : ℕ)
  | deviceGetPciInfo (device : Device)
  | deviceGetPowerUsage (device : Device)
  | deviceGetTemperature (device : Device)
  | deviceGetUtilizationRates (device : Device)
  | deviceGetMemoryInfo (device : Device)

namespace Function

def symbol : Function → Symbol
  | init => .init
  | shutdown => .shutdown
  | errorString _ => .errorString
  | deviceGetCount => .deviceGetCount
  | deviceGetHandleByIndex _ => .deviceGetHandleByIndex
  | deviceGetPciInfo _ => .deviceGetPciInfo
  | deviceGetPowerUsage _ => .deviceGetPowerUsage
  | deviceGetTemperature _ => .deviceGetTemperature
  | deviceGetUtilizationRates _ => .deviceGetUtilizationRates
  | deviceGetMemoryInfo _ => .deviceGetMemoryInfo

def Reply : Function → Type
  | init => Return Unit
  | shutdown => Unit
  | errorString _ => String
  | deviceGetCount => Return UInt32
  | deviceGetHandleByIndex _ => Return Device
  | deviceGetPciInfo _ => Return NvmlPciInfo
  | deviceGetPowerUsage _ => Return UInt32
  | deviceGetTemperature _ => Return UInt32
  | deviceGetUtilizationRates _ => Return NvmlUtilization
  | deviceGetMemoryInfo _ => Return NvmlMemory

def needsInit : Function → Bool
  | init => false
  | errorString _ => false
  | _ => true

def device : Function → Option Device
  | deviceGetPciInfo device => some device
  | deviceGetPowerUsage device => some device
  | deviceGetTemperature device => some device
  | deviceGetUtilizationRates device => some device
  | deviceGetMemoryInfo device => some device
  | _ => none

end Function

/-- What `dlsym` returns, and `dlerror` after it. -/
structure Resolved where
  null : Bool
  error : Option String

/-- A call of the dynamic linker, or of a function through a pointer, which is
`none` if it is null and else into the library that `dlopen` has returned. -/
inductive Call where
  | dlopen (path : String)
  | dlsym (handle : Handle) (symbol : Symbol)
  | dlclose (handle : Handle)
  | function (pointer : Option Handle) (f : Function)

/-- The reply to `dlopen` is the library, or what `dlerror` returns then. -/
def Reply : Call → Type
  | .dlopen _ => Except (Option String) Handle
  | .dlsym _ _ => Resolved
  | .dlclose _ => Unit
  | .function _ f => f.Reply

structure State where
  opened : List Handle := []
  /-- How often the library is initialised. -/
  inits : ℕ := 0
  /-- The devices that it has returned since. -/
  devices : List Device := []
  /-- History: what was last read, `none` for an error. -/
  reading : NvmlReading := ⟨none, none, none, none⟩

namespace State

/-- The state after a call of a function. -/
def call (s : State) : (f : Function) → f.Reply → State
  | .init, .ok () => { s with inits := s.inits + 1 }
  | .shutdown, () =>
      { s with
        inits := s.inits - 1
        devices := if s.inits = 1 then [] else s.devices }
  | .deviceGetHandleByIndex _, .ok device => { s with devices := device :: s.devices }
  | .deviceGetPowerUsage _, r => { s with reading.powerUsage := r.toOption }
  | .deviceGetTemperature _, r => { s with reading.temperature := r.toOption }
  | .deviceGetUtilizationRates _, r => { s with reading.utilizationRates := r.toOption }
  | .deviceGetMemoryInfo _, r => { s with reading.memoryInfo := r.toOption }
  | _, _ => s

def next (s : State) : (c : Call) → Reply c → State
  | .dlopen _, .ok handle => { s with opened := handle :: s.opened }
  | .dlclose handle, () => { s with opened := s.opened.erase handle }
  | .function _ f, r => s.call f r
  | _, _ => s

/-- What the linker and the library ask of a call. -/
def allows (s : State) : Call → Prop
  | .dlopen _ => True
  | .dlsym handle _ => handle ∈ s.opened
  | .dlclose handle => handle ∈ s.opened
  | .function pointer f => (∃ handle ∈ s.opened, pointer = some handle) ∧
      (f.needsInit = true → 0 < s.inits) ∧ ∀ device ∈ f.device, device ∈ s.devices

end State

def interface : Interface Reply State where
  allows := State.allows
  next := State.next

def dlopen (path : String) : Program Reply (Except (Option String) Handle) :=
  perform (Call.dlopen path)

def dlsym (handle : Handle) (symbol : Symbol) : Program Reply Resolved :=
  perform (Call.dlsym handle symbol)

def dlclose (handle : Handle) : Program Reply Unit := perform (Call.dlclose handle)

/-! ### The loader -/

/-- `g_nvml`. -/
structure Api where
  libraryPath : String := ""
  pointers : Symbol → Option Handle := fun _ => none

/-- The variables of the loader. -/
structure Loader where
  nvml : Api := {}
  handle : Option Handle := none
  loadError : String := ""

def libraryCandidates : List String := ["libnvidia-ml.so.1", "libnvidia-ml.so"]

/-- In the order of `ResolveAllSymbols`. -/
def symbols : List Symbol :=
  [.init, .shutdown, .errorString, .deviceGetCount, .deviceGetHandleByIndex, .deviceGetPciInfo,
    .deviceGetPowerUsage, .deviceGetTemperature, .deviceGetUtilizationRates, .deviceGetMemoryInfo,
    .deviceGetName]

def resolveSymbol (l : Loader) (handle : Handle) (symbol : Symbol) :
    Program Reply (Bool × Loader) := do
  let r ← dlsym handle symbol
  if r.error.isSome ∨ r.null then
    pure (false,
      { l with
        loadError := "dlsym(" ++ symbol.name ++ "): " ++ r.error.getD "null symbol" })
  else
    pure (true,
      { l with nvml.pointers := Function.update l.nvml.pointers symbol (some handle) })

def resolveAllSymbols (l : Loader) (handle : Handle) :
    List Symbol → Program Reply (Bool × Loader)
  | [] => pure (true, l)
  | symbol :: rest => do
      let (ok, l) ← resolveSymbol l handle symbol
      if ok then resolveAllSymbols l handle rest else pure (false, l)

/-- The loop over the candidates; only the first error is kept. -/
def openCandidate (l : Loader) : List String → Program Reply (Option Handle × Loader)
  | [] => pure (none, l)
  | candidate :: rest => do
      match ← dlopen candidate with
      | .ok handle => pure (some handle, { l with nvml.libraryPath := candidate })
      | .error error =>
          openCandidate
            (if l.loadError = "" then { l with loadError := error.getD l.loadError } else l) rest

/-- The result tells whether `&g_nvml` is returned, or a null pointer. -/
def tryLoadNvml (l : Loader) : Program Reply (Bool × Loader) :=
  match l.handle with
  | some _ => pure (true, l)
  | none => do
      let (handle, l) ← openCandidate l libraryCandidates
      match handle with
      | none =>
          pure (false, if l.loadError = "" then
            { l with loadError := "libnvidia-ml not found in search paths" } else l)
      | some handle =>
          let (ok, l) ← resolveAllSymbols l handle symbols
          if ok then pure (true, { l with handle := some handle, loadError := "" })
          else do
            dlclose handle
            pure (false, l)

/-- `nvml->f(…)`. -/
def Api.call (nvml : Api) (f : Function) : Program Reply f.Reply :=
  perform (Call.function (nvml.pointers f.symbol) f)

/-! ### The collector -/

/-- The collector with its device, and the variables of the loader. -/
structure Object where
  collector : NvmlCollector := {}
  device : Device := 0
  loader : Loader := {}
  destroyed : Bool := false
  /-- History: how often `Init` has succeeded. -/
  inits : ℕ := 0

def init (o : Object) : Program Reply (Bool × Object) := do
  let (loaded, loader) ← tryLoadNvml o.loader
  let o := { o with loader := loader }
  let nvml := loader.nvml
  if !loaded then pure (false, o)
  else
    let initialized : Return Unit ← nvml.call .init
    match initialized with
    | .error result => do
        let _ ← nvml.call (.errorString result)
        pure (false, o)
    | .ok () => do
        let handle : Return Device ← nvml.call (.deviceGetHandleByIndex 0)
        match handle with
        | .error result => do
            let _ ← nvml.call (.errorString result)
            let _ ← nvml.call .shutdown
            pure (false, o)
        | .ok device => do
            let o := { o with device := device }
            let info : Return NvmlPciInfo ← nvml.call (.deviceGetPciInfo device)
            match info with
            | .error result => do
                let _ ← nvml.call (.errorString result)
                let _ ← nvml.call .shutdown
                pure (false, o)
            | .ok pciInfo =>
                pure (true,
                  { o with
                    collector := (o.collector.init (some pciInfo)).2
                    inits := o.inits + 1 })

def isSupported (o : Object) : Program Reply (Bool × Object) := do
  let (loaded, loader) ← tryLoadNvml o.loader
  let o := { o with loader := loader }
  let nvml := loader.nvml
  if !loaded then pure (false, o)
  else
    let initialized : Return Unit ← nvml.call .init
    match initialized with
    | .error _ => pure (false, o)
    | .ok () => do
        let count : Return UInt32 ← nvml.call .deviceGetCount
        match count with
        | .error _ => do
            let _ ← nvml.call .shutdown
            pure (false, o)
        | .ok deviceCount =>
            if deviceCount = 0 then do
              let _ ← nvml.call .shutdown
              pure (false, o)
            else do
              let handle : Return Device ← nvml.call (.deviceGetHandleByIndex 0)
              let _ ← nvml.call .shutdown
              pure (handle.isOk, o)

/-- The metrics of a call that is made if it is needed. -/
def query {α : Type} (needed : Bool) (call : Program Reply (Return α))
    (metrics : α → List Metric) : Program Reply (List Metric) :=
  if needed then do
    match ← call with
    | .ok value => pure (metrics value)
    | .error _ => pure []
  else pure []

def collect (o : Object) (now : Int64) : Program Reply (List Metric) :=
  let c := o.collector
  if !c.initialized || c.requestedMetrics.isEmpty then pure []
  else do
    let nvml := o.loader.nvml
    let needs (type : MetricType) : Bool := c.requestedMetrics.contains type
    let metric (type : MetricType) (value : Double) : Metric :=
      { type := type, devId := some (.gpu c.gpuId), value := value, timestamp := now }
    let power ← query (needs metricTypeGpuPower) (nvml.call (.deviceGetPowerUsage o.device))
      fun powerMw : UInt32 => [metric metricTypeGpuPower ((powerMw.toNat : ℚ) / 1000)]
    let temperature ← query (needs metricTypeGpuTemperature)
      (nvml.call (.deviceGetTemperature o.device))
      fun tempC : UInt32 => [metric metricTypeGpuTemperature tempC.toNat]
    let utilization ← query
      (needs metricTypeGpuUtilization || needs metricTypeGpuSharedMemoryUtilization)
      (nvml.call (.deviceGetUtilizationRates o.device))
      fun utilization : NvmlUtilization =>
        (if needs metricTypeGpuUtilization then
          [metric metricTypeGpuUtilization utilization.gpu.toNat]
        else []) ++
        (if needs metricTypeGpuSharedMemoryUtilization then
          [metric metricTypeGpuSharedMemoryUtilization utilization.memory.toNat]
        else [])
    let memory ← query (needs metricTypeGpuVramUsed)
      (nvml.call (.deviceGetMemoryInfo o.device))
      fun memory : NvmlMemory =>
        [metric metricTypeGpuVramUsed ((memory.used.toNat : ℚ) / memory.total.toNat)]
    pure (power ++ temperature ++ utilization ++ memory)

/-- `~NvmlCollector`. -/
def destroy (o : Object) : Program Reply Object := do
  if o.collector.initialized then
    let _ ← o.loader.nvml.call .shutdown
  pure { o with destroyed := true }

/-- What the registry, the scheduler and the end of the process do. -/
inductive Op where
  | isSupported
  | setRequestedMetrics (metrics : List MetricType)
  | init
  | collect (now : Int64)
  | destroy

/-- No operation comes after the last. -/
def program (op : Op) (o : Object) : Option (Program Reply Object) :=
  if o.destroyed then none
  else
    match op with
    | .isSupported => some do
        let (_, o) ← isSupported o
        pure o
    | .setRequestedMetrics metrics =>
        some (pure { o with collector.requestedMetrics := metrics })
    | .init => some do
        let (_, o) ← init o
        pure o
    | .collect now => some do
        let _ ← collect o now
        pure o
    | .destroy => some (destroy o)

/-! ### Loading -/

/-- The library is open or not, as the loader has it, and all pointers go to it. -/
structure Loaded (l : Loader) (s : State) : Prop where
  opened_eq : s.opened = l.handle.toList
  pointers_eq : ∀ handle, l.handle = some handle → ∀ symbol, l.nvml.pointers symbol = some handle

section Loading

variable {l : Loader} {s : State} {handle : Handle} {β : Type} {Q : β → State → Prop}

/-- What each call needs; any reply may come. -/
theorem safe_dlopen (path : String) {f : Except (Option String) Handle → Program Reply β}
    (h : ∀ r, Safe interface (f r) Q (s.next (.dlopen path) r)) :
    Safe interface (dlopen path >>= f) Q s :=
  ⟨trivial, fun r _ => h r⟩

theorem safe_dlsym (hopened : handle ∈ s.opened) (symbol : Symbol)
    {f : Resolved → Program Reply β} (h : ∀ r, Safe interface (f r) Q s) :
    Safe interface (dlsym handle symbol >>= f) Q s :=
  ⟨hopened, fun r _ => h r⟩

theorem safe_dlclose (hopened : handle ∈ s.opened) {f : Unit → Program Reply β}
    (h : Safe interface (f ()) Q { s with opened := s.opened.erase handle }) :
    Safe interface (dlclose handle >>= f) Q s :=
  ⟨hopened, fun _ _ => h⟩

theorem safe_call (nvml : Api) (f : Function) {g : f.Reply → Program Reply β}
    (hallowed : s.allows (.function (nvml.pointers f.symbol) f))
    (h : ∀ r, Safe interface (g r) Q (s.call f r)) :
    Safe interface (nvml.call f >>= g) Q s :=
  ⟨hallowed, fun r _ => h r⟩

theorem safe_lastCall (nvml : Api) (f : Function) {Q : f.Reply → State → Prop}
    (hallowed : s.allows (.function (nvml.pointers f.symbol) f))
    (h : ∀ r, Q r (s.call f r)) : Safe interface (nvml.call f) Q s :=
  ⟨hallowed, fun r _ => h r⟩

theorem safe_resolveSymbol (hopened : handle ∈ s.opened) (l : Loader) (symbol : Symbol) :
    Safe interface (resolveSymbol l handle symbol)
      (fun r t => t = s ∧ r.2.handle = l.handle ∧ (r.1 = false → r.2.loadError ≠ "") ∧
        (r.1 = true → r.2.nvml.pointers
          = Function.update l.nvml.pointers symbol (some handle))) s := by
  refine safe_dlsym hopened symbol fun r => ?_
  split
  · refine ⟨rfl, rfl, fun _ => ?_, nofun⟩
    simp [← String.toList_inj]
  · exact ⟨rfl, rfl, nofun, fun _ => rfl⟩

/-- With all symbols found, all pointers go to the library. -/
theorem safe_resolveAllSymbols (hopened : handle ∈ s.opened) (l : Loader)
    (symbols : List Symbol) :
    Safe interface (resolveAllSymbols l handle symbols)
      (fun r t => t = s ∧ r.2.handle = l.handle ∧ (r.1 = false → r.2.loadError ≠ "") ∧
        (r.1 = true → ∀ symbol, symbol ∈ symbols ∨ l.nvml.pointers symbol = some handle →
          r.2.nvml.pointers symbol = some handle)) s := by
  induction symbols generalizing l with
  | nil => exact ⟨rfl, rfl, nofun, fun _ symbol h => h.resolve_left List.not_mem_nil⟩
  | cons symbol rest ih =>
    rw [resolveAllSymbols, safe_bind]
    refine (safe_resolveSymbol hopened l symbol).imp ?_
    rintro ⟨ok, l'⟩ t ⟨rfl, hhandle, herror, hpointers⟩
    cases ok with
    | false => exact ⟨rfl, hhandle, herror, nofun⟩
    | true =>
      refine (ih l').imp fun r u ⟨hu, hhandle', herror', hpointers'⟩ => ?_
      refine ⟨hu, hhandle'.trans hhandle, herror', fun hok other hmem => ?_⟩
      refine hpointers' hok other ?_
      rw [hpointers rfl]
      by_cases heq : other = symbol
      · exact .inr (heq ▸ Function.update_self _ _ _)
      · rw [Function.update_of_ne heq]
        exact hmem.imp_left fun hmem => (List.mem_cons.mp hmem).resolve_left heq

theorem safe_openCandidate (l : Loader) (candidates : List String) :
    Safe interface (openCandidate l candidates)
      (fun r t => r.2.handle = l.handle ∧ t = { s with opened := r.1.toList ++ s.opened }) s := by
  induction candidates generalizing l with
  | nil => exact ⟨rfl, rfl⟩
  | cons candidate rest ih =>
    refine safe_dlopen candidate fun r => ?_
    cases r with
    | ok handle => exact ⟨rfl, rfl⟩
    | error error =>
      refine (ih _).imp fun r t ⟨hhandle, ht⟩ => ⟨hhandle.trans ?_, ht⟩
      split
      · rfl
      · rfl

/-- `TryLoadNvml` opens the library at most once, and keeps no library of which it
has not got every function. -/
theorem safe_tryLoadNvml (h : Loaded l s) :
    Safe interface (tryLoadNvml l)
      (fun r t => Loaded r.2 t ∧ r.1 = r.2.handle.isSome ∧ (r.1 = false → r.2.loadError ≠ "") ∧
        t.inits = s.inits ∧ t.devices = s.devices ∧ (l.handle.isSome → r.2 = l)) s := by
  rw [tryLoadNvml]
  split
  · rename_i handle hhandle
    exact ⟨h, by rw [hhandle]; rfl, nofun, rfl, rfl, fun _ => rfl⟩
  · rename_i hnone
    have hopened : s.opened = [] := h.opened_eq.trans (by rw [hnone]; rfl)
    rw [safe_bind]
    refine (safe_openCandidate l libraryCandidates).imp ?_
    rintro ⟨handle, l'⟩ t ⟨hhandle, rfl⟩
    cases handle with
    | none =>
      have hclosed : ∀ message, Loaded { l' with loadError := message } s := by
        refine fun message => ⟨?_, fun handle hsome => ?_⟩
        · rw [hopened, hhandle, hnone]
          rfl
        · rw [hhandle, hnone] at hsome
          exact absurd hsome (by simp)
      have hfalse : false = l'.handle.isSome := by rw [hhandle, hnone]; rfl
      dsimp only
      by_cases hempty : l'.loadError = ""
      · rw [if_pos hempty]
        have herror : "libnvidia-ml not found in search paths" ≠ "" := by decide
        exact ⟨hclosed _, hfalse, fun _ => herror, rfl, rfl, by simp [hnone]⟩
      · rw [if_neg hempty]
        exact ⟨hclosed l'.loadError, hfalse, fun _ => hempty, rfl, rfl, by simp [hnone]⟩
    | some handle =>
      rw [safe_bind]
      refine (safe_resolveAllSymbols List.mem_cons_self l' symbols).imp ?_
      rintro ⟨ok, l''⟩ t ⟨rfl, hhandle', herror, hpointers⟩
      cases ok with
      | true =>
        refine ⟨⟨?_, fun handle' hsome symbol => ?_⟩, rfl, nofun, rfl, rfl, by simp [hnone]⟩
        · show handle :: s.opened = [handle]
          rw [hopened]
        · cases hsome
          exact hpointers rfl symbol (.inl (by cases symbol <;> decide))
      | false =>
        have hnone' : l''.handle = none := hhandle'.trans (hhandle.trans hnone)
        refine safe_dlclose List.mem_cons_self ⟨⟨?_, fun handle' hsome => ?_⟩, ?_, herror, rfl,
          rfl, by simp [hnone]⟩
        · show (handle :: s.opened).erase handle = l''.handle.toList
          rw [List.erase_cons_head, hopened, hnone']
          rfl
        · rw [hnone'] at hsome
          exact absurd hsome (by simp)
        · rw [hnone']
          rfl

end Loading

/-! ### The operations -/

/-- The library is initialised as often as `Init` has succeeded, and has returned the
collector's device; the end undoes one of these. -/
structure Ready (o : Object) (s : State) : Prop where
  loaded : Loaded o.loader s
  inits_eq : s.inits = if o.destroyed then o.inits - 1 else o.inits
  initialized_iff : o.collector.initialized = true ↔ 0 < o.inits
  device : o.collector.initialized = true → o.destroyed = false →
    o.loader.handle.isSome ∧ o.device ∈ s.devices

section Operations

variable {l : Loader} {o : Object} {s t : State}

theorem opened_call (s : State) (f : Function) (r : f.Reply) : (s.call f r).opened = s.opened := by
  cases f with
  | init | deviceGetHandleByIndex => cases r <;> rfl
  | _ => rfl

theorem Loaded.of_opened (h : Loaded l s) (heq : t.opened = s.opened) : Loaded l t :=
  ⟨heq.trans h.opened_eq, h.pointers_eq⟩

theorem Loaded.call (h : Loaded l s) (f : Function) (r : f.Reply) : Loaded l (s.call f r) :=
  h.of_opened (opened_call s f r)

theorem Loaded.allows (h : Loaded l s) (hsome : l.handle.isSome) (f : Function)
    (hinits : f.needsInit = true → 0 < s.inits)
    (hdevice : ∀ device ∈ f.device, device ∈ s.devices) :
    s.allows (.function (l.nvml.pointers f.symbol) f) := by
  obtain ⟨handle, heq⟩ := Option.isSome_iff_exists.mp hsome
  refine ⟨⟨handle, ?_, h.pointers_eq handle heq f.symbol⟩, hinits, hdevice⟩
  rw [h.opened_eq, heq]
  exact List.mem_singleton_self handle

theorem Ready.inits_of_live (h : Ready o s) (hlive : o.destroyed = false) :
    s.inits = o.inits := by
  rw [h.inits_eq, if_neg (by simp [hlive])]

/-- A device more that the library has returned. -/
theorem Ready.handle (h : Ready o s) (device : Device) :
    Ready { o with device := device } { s with devices := device :: s.devices } :=
  ⟨h.loaded.of_opened rfl, h.inits_eq, h.initialized_iff, fun hinit hlive =>
    ⟨(h.device hinit hlive).1, List.mem_cons_self⟩⟩

/-- The library has been initialised once more, and has still what it had. -/
structure Asking (l : Loader) (s t : State) : Prop where
  loaded : Loaded l t
  inits_eq : t.inits = s.inits + 1
  devices : s.inits ≠ 0 → ∀ device ∈ s.devices, device ∈ t.devices

/-- It has been left as it was, but for devices that it has returned. -/
structure Asked (l : Loader) (s t : State) : Prop where
  loaded : Loaded l t
  inits_eq : t.inits = s.inits
  devices : s.inits ≠ 0 → ∀ device ∈ s.devices, device ∈ t.devices

theorem Asked.init (h : Asked l s t) : Asking l s (t.call .init (.ok ())) :=
  ⟨h.loaded.call .init (.ok ()), congrArg (· + 1) h.inits_eq, h.devices⟩

theorem Asking.allows (h : Asking l s t) (hsome : l.handle.isSome) (f : Function)
    (hdevice : ∀ device ∈ f.device, device ∈ t.devices) :
    t.allows (.function (l.nvml.pointers f.symbol) f) :=
  h.loaded.allows hsome f (fun _ => h.inits_eq ▸ Nat.succ_pos s.inits) hdevice

theorem Asking.handle (h : Asking l s t) (device : Device) :
    Asking l { s with devices := device :: s.devices }
      (t.call (.deviceGetHandleByIndex 0) (.ok device)) := by
  refine ⟨h.loaded.call _ _, h.inits_eq, fun hne other hmem => ?_⟩
  rcases List.mem_cons.mp hmem with rfl | hmem
  · exact List.mem_cons_self
  · exact List.mem_cons_of_mem _ (h.devices hne other hmem)

/-- Undoing the initialisation leaves the library as it was. -/
theorem Asking.shutdown (h : Asking l s t) : Asked l s (t.call .shutdown ()) := by
  refine ⟨h.loaded.call .shutdown (), ?_, fun hne device hmem => ?_⟩
  · show t.inits - 1 = s.inits
    rw [h.inits_eq, Nat.add_sub_cancel]
  · have hinits : t.inits ≠ 1 := by
      rw [h.inits_eq]
      omega
    show device ∈ if t.inits = 1 then [] else t.devices
    rw [if_neg hinits]
    exact h.devices hne device hmem

theorem Asked.ready (hl : Asked l s t) (h : Ready o s) (hlive : o.destroyed = false)
    (hsame : o.loader.handle.isSome → l = o.loader) : Ready { o with loader := l } t := by
  refine ⟨hl.loaded, hl.inits_eq.trans h.inits_eq, h.initialized_iff, fun hinit _ => ?_⟩
  obtain ⟨hsome, hdevice⟩ := h.device hinit hlive
  have hinits : s.inits ≠ 0 := by
    rw [h.inits_of_live hlive]
    exact (h.initialized_iff.mp hinit).ne'
  exact ⟨hsame hsome ▸ hsome, hl.devices hinits o.device hdevice⟩

/-- The end of a question. -/
theorem Asking.safe_shutdown {α : Type} {a : α} {Q : α → State → Prop} (h : Asking l s t)
    (hsome : l.handle.isSome) (hQ : ∀ u, Asked l s u → Q a u) :
    Safe interface
      (do
        let _ ← l.nvml.call .shutdown
        pure a) Q t :=
  safe_call l.nvml .shutdown (h.allows hsome _ nofun) fun _ => hQ _ h.shutdown

/-- What is done when a device cannot be had. -/
theorem Asking.safe_giveUp {α : Type} {a : α} {Q : α → State → Prop} (h : Asking l s t)
    (hsome : l.handle.isSome) (result : ℕ) (hQ : ∀ u, Asked l s u → Q a u) :
    Safe interface
      (do
        let _ ← l.nvml.call (.errorString result)
        let _ ← l.nvml.call .shutdown
        pure a) Q t :=
  safe_call l.nvml (.errorString result) (h.loaded.allows hsome _ nofun nofun) fun _ =>
    h.safe_shutdown hsome hQ

/-- `Init` initialises the library once more if it succeeds, and leaves it as it was
if it does not. -/
theorem safe_init (h : Ready o s) (hlive : o.destroyed = false) :
    Safe interface (init o) (fun r t => Ready r.2 t) s := by
  rw [init, safe_bind]
  refine (safe_tryLoadNvml h.loaded).imp ?_
  rintro ⟨loaded, loader⟩ t ⟨hl, hloaded, -, hinits, hdevices, hsame⟩
  have hasked : Asked loader s t := ⟨hl, hinits, fun _ _ hmem => hdevices ▸ hmem⟩
  cases loaded with
  | false => exact hasked.ready h hlive hsame
  | true =>
    have hsome : loader.handle.isSome := hloaded.symm
    refine safe_call loader.nvml .init (hl.allows hsome _ nofun nofun) fun r => ?_
    cases r with
    | error result =>
      refine safe_call loader.nvml (.errorString result) (hl.allows hsome _ nofun nofun) fun _ => ?_
      exact hasked.ready h hlive hsame
    | ok u =>
      have hasking : Asking loader s (t.call .init (.ok u)) := hasked.init
      refine safe_call loader.nvml (.deviceGetHandleByIndex 0) (hasking.allows hsome _ nofun)
        fun r => ?_
      cases r with
      | error result =>
        exact hasking.safe_giveUp hsome result fun u hu => hu.ready h hlive hsame
      | ok device =>
        have hasking := hasking.handle device
        refine safe_call loader.nvml (.deviceGetPciInfo device) (hasking.allows hsome _ ?_)
          fun r => ?_
        · intro d hd
          cases hd
          exact List.mem_cons_self
        cases r with
        | error result =>
          exact hasking.safe_giveUp hsome result fun u hu =>
            hu.ready (h.handle device) hlive hsame
        | ok pciInfo =>
          refine ⟨hasking.loaded, ?_, ?_, fun _ _ => ⟨hsome, List.mem_cons_self⟩⟩
          · rw [if_neg (by simp [hlive])]
            exact hasking.inits_eq.trans (congrArg (· + 1) (h.inits_of_live hlive))
          · exact iff_of_true rfl (Nat.succ_pos o.inits)

/-- `IsSupported` initialises the library for itself, also beside a collector. -/
theorem safe_isSupported (h : Ready o s) (hlive : o.destroyed = false) :
    Safe interface (isSupported o) (fun r t => Ready r.2 t) s := by
  rw [isSupported, safe_bind]
  refine (safe_tryLoadNvml h.loaded).imp ?_
  rintro ⟨loaded, loader⟩ t ⟨hl, hloaded, -, hinits, hdevices, hsame⟩
  have hasked : Asked loader s t := ⟨hl, hinits, fun _ _ hmem => hdevices ▸ hmem⟩
  have hready : ∀ u, Asked loader s u → Ready { o with loader := loader } u :=
    fun u hu => hu.ready h hlive hsame
  cases loaded with
  | false => exact hready t hasked
  | true =>
    have hsome : loader.handle.isSome := hloaded.symm
    refine safe_call loader.nvml .init (hl.allows hsome _ nofun nofun) fun r => ?_
    cases r with
    | error result => exact hready t hasked
    | ok u =>
      have hasking : Asking loader s (t.call .init (.ok u)) := hasked.init
      refine safe_call loader.nvml .deviceGetCount (hasking.allows hsome _ nofun) fun r => ?_
      cases r with
      | error result => exact hasking.safe_shutdown hsome hready
      | ok deviceCount =>
        by_cases hcount : deviceCount = 0
        · simp only [if_pos hcount]
          exact hasking.safe_shutdown hsome hready
        · simp only [if_neg hcount]
          refine safe_call loader.nvml (.deviceGetHandleByIndex 0) (hasking.allows hsome _ nofun)
            fun r => ?_
          cases r with
          | error result => exact hasking.safe_shutdown hsome hready
          | ok device =>
            refine (hasking.handle device).safe_shutdown hsome fun u hu => hready u ?_
            exact ⟨hu.loaded, hu.inits_eq, fun hne other hmem =>
              hu.devices hne other (List.mem_cons_of_mem _ hmem)⟩

/-! ### Reading -/

/-- Reading changes nothing but what was read. -/
theorem Ready.read (h : Ready o s) (reading : NvmlReading) :
    Ready o { s with reading := reading } :=
  ⟨⟨h.loaded.opened_eq, h.loaded.pointers_eq⟩, h.inits_eq, h.initialized_iff, h.device⟩

/-- A query gives what its field holds afterwards, if it is needed. -/
theorem safe_query {α : Type} {needed : Bool} {call : Program Reply (Return α)}
    {metrics : α → List Metric} (field : NvmlReading → Option α) (P : NvmlReading → Prop)
    (hcall : Safe interface call
      (fun r t => Ready o t ∧ field t.reading = r.toOption ∧ P t.reading) s)
    (h : Ready o s) (hP : P s.reading) :
    Safe interface (query needed call metrics)
      (fun ms t => Ready o t ∧
        ms = (if needed then (field t.reading).toList.flatMap metrics else []) ∧
        P t.reading) s := by
  cases needed with
  | false => exact ⟨h, rfl, hP⟩
  | true =>
    rw [query, if_pos rfl, safe_bind]
    refine hcall.imp fun r t ⟨hready, hfield, ht⟩ => ?_
    cases r with
    | error result =>
      refine ⟨hready, ?_, ht⟩
      rw [if_pos rfl, hfield]
      rfl
    | ok value =>
      refine ⟨hready, ?_, ht⟩
      rw [if_pos rfl, hfield]
      exact (List.append_nil _).symm

theorem flatMap_singleton_toList {α β : Type} (f : α → β) (a : Option α) :
    a.toList.flatMap (fun x => [f x]) = (a.map f).toList := by
  cases a <;> rfl

/-- `Collect` returns what the collector makes of the replies. -/
theorem safe_collect (h : Ready o s) (hlive : o.destroyed = false) (now : Int64) :
    Safe interface (collect o now)
      (fun metrics t => Ready o t ∧ metrics = o.collector.collect t.reading now) s := by
  rw [collect]
  split
  · rename_i hidle
    refine ⟨h, ?_⟩
    rw [NvmlCollector.collect, if_pos hidle]
  · rename_i hready
    have hinit : o.collector.initialized = true := by
      by_contra hno
      exact hready (by simp [hno])
    have hinits : ∀ {u : State}, Ready o u → 0 < u.inits := by
      intro u hu
      rw [hu.inits_of_live hlive]
      exact hu.initialized_iff.mp hinit
    have hallows : ∀ {u : State}, Ready o u → ∀ f : Function, f.device = some o.device →
        u.allows (.function (o.loader.nvml.pointers f.symbol) f) := by
      intro u hu f hf
      obtain ⟨hsome, hdevice⟩ := hu.device hinit hlive
      refine hu.loaded.allows hsome f (fun _ => hinits hu) fun d hd => ?_
      rw [hf, Option.mem_some] at hd
      exact hd ▸ hdevice
    rw [safe_bind]
    refine Calls.Safe.imp (safe_query NvmlReading.powerUsage (fun _ => True)
      (safe_lastCall _ (.deviceGetPowerUsage o.device) (hallows h _ rfl) fun r =>
        ⟨h.read _, rfl, trivial⟩) h trivial) ?_
    rintro power s₁ ⟨h₁, rfl, -⟩
    rw [safe_bind]
    refine Calls.Safe.imp (safe_query NvmlReading.temperature
      (fun reading => reading.powerUsage = s₁.reading.powerUsage)
      (safe_lastCall _ (.deviceGetTemperature o.device) (hallows h₁ _ rfl) fun r =>
        ⟨h₁.read _, rfl, rfl⟩) h₁ rfl) ?_
    rintro temperature s₂ ⟨h₂, rfl, hpower₂⟩
    rw [safe_bind]
    refine Calls.Safe.imp (safe_query NvmlReading.utilizationRates
      (fun reading => reading.powerUsage = s₁.reading.powerUsage ∧
        reading.temperature = s₂.reading.temperature)
      (safe_lastCall _ (.deviceGetUtilizationRates o.device) (hallows h₂ _ rfl) fun r =>
        ⟨h₂.read _, rfl, hpower₂, rfl⟩) h₂ ⟨hpower₂, rfl⟩) ?_
    rintro utilization s₃ ⟨h₃, rfl, hpower₃, htemperature₃⟩
    rw [safe_bind]
    refine Calls.Safe.imp (safe_query NvmlReading.memoryInfo
      (fun reading => reading.powerUsage = s₁.reading.powerUsage ∧
        reading.temperature = s₂.reading.temperature ∧
        reading.utilizationRates = s₃.reading.utilizationRates)
      (safe_lastCall _ (.deviceGetMemoryInfo o.device) (hallows h₃ _ rfl) fun r =>
        ⟨h₃.read _, rfl, hpower₃, htemperature₃, rfl⟩) h₃ ⟨hpower₃, htemperature₃, rfl⟩) ?_
    rintro memory s₄ ⟨h₄, rfl, hpower₄, htemperature₄, hutilization₄⟩
    refine ⟨h₄, ?_⟩
    rw [NvmlCollector.collect, if_neg hready]
    simp only [hpower₄, htemperature₄, hutilization₄, flatMap_singleton_toList]

/-- The end undoes an initialisation if there is one. -/
theorem safe_destroy (h : Ready o s) (hlive : o.destroyed = false) :
    Safe interface (destroy o) Ready s := by
  rw [destroy]
  have hend : ∀ {u : State}, Loaded o.loader u → u.inits = s.inits - 1 →
      Ready { o with destroyed := true } u := by
    intro u hu hinits
    refine ⟨hu, ?_, h.initialized_iff, fun _ hfalse => absurd hfalse (by simp)⟩
    rw [hinits, h.inits_of_live hlive, if_pos rfl]
  split
  · rename_i hinit
    obtain ⟨hsome, -⟩ := h.device hinit hlive
    have hpos : 0 < s.inits := by
      rw [h.inits_of_live hlive]
      exact h.initialized_iff.mp hinit
    exact safe_call o.loader.nvml .shutdown (h.loaded.allows hsome .shutdown (fun _ => hpos) nofun)
      fun _ => hend (h.loaded.call .shutdown ()) rfl
  · rename_i hno
    refine hend h.loaded ?_
    have hzero : o.inits = 0 := Nat.eq_zero_of_not_pos (hno ∘ h.initialized_iff.mpr)
    rw [h.inits_of_live hlive, hzero]

theorem safe_program (op : Op) (o : Object) (p : Program Reply Object) (s : State)
    (hp : program op o = some p) (h : Ready o s) : Safe interface p Ready s := by
  cases hlive : o.destroyed with
  | true => simp [program, hlive] at hp
  | false =>
    simp only [program, hlive, Bool.false_eq_true, if_false] at hp
    cases op with
    | isSupported =>
      cases hp
      exact safe_bind.mpr (safe_isSupported h hlive)
    | setRequestedMetrics metrics =>
      cases hp
      have hinits := h.inits_eq
      rw [hlive] at hinits
      exact ⟨h.loaded, hinits, h.initialized_iff, fun hinit _ => h.device hinit hlive⟩
    | init =>
      cases hp
      exact safe_bind.mpr (safe_init h hlive)
    | collect now =>
      cases hp
      exact safe_bind.mpr ((safe_collect h hlive now).imp fun metrics t ht => ht.1)
    | destroy =>
      cases hp
      exact safe_destroy h hlive

end Operations

theorem ready_init : Ready {} {} where
  loaded := ⟨rfl, nofun⟩
  inits_eq := rfl
  initialized_iff := iff_of_false Bool.false_ne_true (Nat.lt_irrefl 0)
  device := nofun

/-- A machine with one device. -/
def oneDevice : (c : Call) → Reply c
  | .dlopen _ => .ok 1
  | .dlsym _ _ => ⟨false, none⟩
  | .dlclose _ => ()
  | .function _ f =>
      match f with
      | .init => .ok ()
      | .shutdown => ()
      | .errorString _ => ""
      | .deviceGetCount => .ok 1
      | .deviceGetHandleByIndex _ => .ok 1
      | .deviceGetPciInfo _ => .ok ⟨0, 1, 0⟩
      | .deviceGetPowerUsage _ => .ok 30000
      | .deviceGetTemperature _ => .ok 40
      | .deviceGetUtilizationRates _ => .ok ⟨50, 10⟩
      | .deviceGetMemoryInfo _ => .ok ⟨⟨8, 4⟩, by decide⟩

/-- The life of a collector there. -/
def life : List (Op × List ((c : Call) → Reply c)) :=
  [(.isSupported, List.replicate 16 oneDevice), (.setRequestedMetrics [metricTypeGpuPower], []),
    (.init, List.replicate 3 oneDevice), (.collect 0, [oneDevice]), (.destroy, [oneDevice])]

end NvmlLibrary
end Volta
