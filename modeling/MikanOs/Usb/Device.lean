import MikanOs.Usb.ArrayMap
import MikanOs.Usb.ClassDriver

/-!
# MikanOs.Usb.Device

The host-controller independent part of a USB device (`usb/device.cpp`):
which class driver serves which endpoint, and the initialization that reads
the descriptors of a device, one control transfer after another.

As in `MikanOs.Usb.ClassDriver`, a function that ends by asking for a
transfer returns it as its `Outcome`.
-/

namespace MikanOs.Usb

/-- `class usb::Device`.  A class driver is named by its place in `drivers`,
which stands for the objects `NewClassDriver` has made. -/
structure Device where
  this : BitVec 64
  classDrivers : Nat → Option Nat
  drivers : List HIDDriver
  numConfigurations : BitVec 8
  configIndex : BitVec 8
  isInitialized : Bool
  initializePhase : Nat
  epConfigs : Nat → EndpointConfig
  numEpConfigs : Nat
  eventWaiters : ArrayMap SetupData (Option Nat) 4

/-! ## descriptors -/

namespace Descriptor

def kDevice : BitVec 8 := 1#8
def kConfiguration : BitVec 8 := 2#8
def kInterface : BitVec 8 := 4#8
def kEndpoint : BitVec 8 := 5#8

/-- The byte of a descriptor at an offset. -/
def byte (env : Env) (p : BitVec 64) (off : Nat) : BitVec 8 := env.mem (p + BitVec.ofNat 64 off)

/-- `DescriptorDynamicCast` answers with the descriptor it was given. -/
def hasType (env : Env) (p : BitVec 64) (type : BitVec 8) : Except Fault Bool :=
  if p = 0#64 then throw .nullPointer else pure (byte env p 1 = type)

end Descriptor

open Descriptor

/-- `MakeEPConfig`. -/
def makeEPConfig (env : Env) (epDesc : BitVec 64) : EndpointConfig where
  epId := EndpointID.new ((byte env epDesc 2).extractLsb' 0 4).toNat ((byte env epDesc 2).getLsbD 7)
  epType := EndpointType.ofBits ((byte env epDesc 3).extractLsb' 0 2)
  maxPacketSize := (byte env epDesc 4).toNat + 256 * (byte env epDesc 5).toNat
  interval := (byte env epDesc 6).toNat

/-- `class ConfigurationDescriptorReader`. -/
structure ConfigurationDescriptorReader where
  descBuf : BitVec 64
  descBufLen : Int
  p : BitVec 64

namespace ConfigurationDescriptorReader

/-- `Next()`. -/
def next (env : Env) (r : ConfigurationDescriptorReader) :
    Option (BitVec 64) × ConfigurationDescriptorReader :=
  let p := r.p + (byte env r.p 0).setWidth 64
  (if p < r.descBuf + BitVec.ofInt 64 r.descBufLen then some p else none, { r with p := p })

/-- `Next<T>()`. -/
def nextOf (env : Env) (type : BitVec 8) :
    Nat → ConfigurationDescriptorReader →
      Except Fault (Option (BitVec 64) × ConfigurationDescriptorReader)
  | 0, _ => throw .endless
  | n + 1, r =>
      match r.next env with
      | (none, r) => pure (none, r)
      | (some q, r) => if byte env q 1 = type then pure (some q, r) else nextOf env type n r

end ConfigurationDescriptorReader

namespace Device

/-- `offsetof(usb::Device, buf_)`. -/
def offsetofBuf : Nat := 136

/-- `buf_.size()`. -/
def bufSize : Nat := 256

/-- `buf_.data()`. -/
def buf (d : Device) : BitVec 64 := d.this + BitVec.ofNat 64 offsetofBuf

/-- A device as constructed; the members without an initializer are still
those of the zeroed pool. -/
def new (this : BitVec 64) : Device where
  this := this
  classDrivers := fun _ => none
  drivers := []
  numConfigurations := 0#8
  configIndex := 0#8
  isInitialized := false
  initializePhase := 0
  epConfigs := fun _ => ⟨EndpointID.none, .kControl, 0, 0⟩
  numEpConfigs := 0
  eventWaiters := ArrayMap.new 4 none

/-- `usb::Device::ControlIn` and `usb::Device::ControlOut`. -/
def registerWaiter (d : Device) (setupData : SetupData) : Option Nat → Device
  | none => d
  | some issuer => { d with eventWaiters := d.eventWaiters.put setupData (some issuer) }

/-! ## requests -/

/-- `GetDescriptor`. -/
def getDescriptor (epId : EndpointID) (descType descIndex : BitVec 8) (buf : BitVec 64)
    (len : Nat) : Transfer :=
  .controlIn epId
    { requestType := RequestType.new RequestType.kIn RequestType.kStandard RequestType.kDevice
      request := Request.kGetDescriptor
      value := (descType.setWidth 16 <<< 8) ||| descIndex.setWidth 16
      index := 0#16
      length := BitVec.ofNat 16 len } buf len none

/-- `SetConfiguration`. -/
def setConfiguration (epId : EndpointID) (configValue : BitVec 8) : Transfer :=
  .controlOut epId
    { requestType := RequestType.new RequestType.kOut RequestType.kStandard RequestType.kDevice
      request := Request.kSetConfiguration
      value := configValue.setWidth 16
      index := 0#16
      length := 0#16 } 0#64 0 none

/-! ## initialization -/

/-- `StartInitialize`. -/
def startInitialize (d : Device) : Device × Transfer :=
  ({ d with isInitialized := false, initializePhase := 1 },
    getDescriptor kDefaultControlPipeID kDevice 0#8 d.buf bufSize)

/-- `InitializePhase1`. -/
def initializePhase1 (env : Env) (d : Device) (buf : BitVec 64) : Device × Transfer :=
  ({ d with numConfigurations := byte env buf 17, configIndex := 0#8, initializePhase := 2 },
    getDescriptor kDefaultControlPipeID kConfiguration 0#8 d.buf bufSize)

/-- `NewClassDriver`: the place of the driver, if the interface is a HID boot
keyboard or mouse. -/
def newClassDriver (env : Env) (h : Host) (d : Device) (ifDesc : BitVec 64) :
    Except Fault (Option Nat × Host × Device) :=
  if byte env ifDesc 5 = 3#8 ∧ byte env ifDesc 6 = 1#8 then
    if byte env ifDesc 7 = 1#8 then make .keyboard env.keyObserver
    else if byte env ifDesc 7 = 2#8 then make .mouse env.mouseObserver
    else pure (none, h, d)
  else pure (none, h, d)
where
  /-- `new HIDKeyboardDriver` or `new HIDMouseDriver`, subscribed to by the
  default observer if there is one. -/
  make (kind : HIDKind) (observed : Bool) : Except Fault (Option Nat × Host × Device) :=
    let a := h.allocArray env HIDDriver.sizeofDriver 1 0#32 0#32
    if a.1 = 0#64 then throw .nullPointer
    else
      let driver := HIDDriver.new a.1 kind (byte env ifDesc 2)
      let driver := if observed then { driver with numObservers := 1 } else driver
      pure (some d.drivers.length, a.2, { d with drivers := d.drivers ++ [driver] })

/-- The inner loop of `InitializePhase2`: collect `numEndpoints` endpoint
descriptors, and let the driver serve their endpoints. -/
def collectEndpoints (env : Env) (driver numEndpoints : Nat) :
    Nat → ConfigurationDescriptorReader → Device → Except Fault Device
  | 0, _, _ => throw .endless
  | n + 1, r, d =>
      if d.numEpConfigs < numEndpoints then
        match r.next env with
        | (none, _) => throw .nullPointer
        | (some desc, r) =>
            if byte env desc 1 = kEndpoint then
              if d.numEpConfigs < 16 then
                let conf := makeEPConfig env desc
                collectEndpoints env driver numEndpoints n r
                  { d with
                    epConfigs := update d.epConfigs d.numEpConfigs conf
                    numEpConfigs := d.numEpConfigs + 1
                    classDrivers := update d.classDrivers conf.epId.number.toNat (some driver) }
              else throw .outOfBounds
            else collectEndpoints env driver numEndpoints n r d
      else pure d

/-- The outer loop of `InitializePhase2`: look for an interface with a class
driver. -/
def findInterface (env : Env) :
    Nat → ConfigurationDescriptorReader → Host → Device →
      Except Fault (Option Nat × Host × Device)
  | 0, _, _, _ => throw .endless
  | n + 1, r, h, d => do
      let (ifDesc, r) ← r.nextOf env kInterface env.steps
      match ifDesc with
      | none => pure (none, h, d)
      | some ifDesc => do
          let (classDriver, h, d) ← d.newClassDriver env h ifDesc
          match classDriver with
          | none => findInterface env n r h d
          | some driver => do
              let d ← collectEndpoints env driver (byte env ifDesc 4).toNat env.steps r
                { d with numEpConfigs := 0 }
              pure (some driver, h, d)

/-- `InitializePhase2`. -/
def initializePhase2 (env : Env) (h : Host) (d : Device) (buf : BitVec 64) (len : Int) :
    Except Fault (Device × Host × Outcome) := do
  let isConf ← hasType env buf kConfiguration
  if isConf then
    let (classDriver, h, d) ← findInterface env env.steps ⟨buf, len, buf⟩ h d
    match classDriver with
    | none => pure (d, h, .error .kSuccess)
    | some _ =>
        pure ({ d with initializePhase := 3 }, h,
          .transfer (setConfiguration kDefaultControlPipeID (byte env buf 5)))
  else pure (d, h, .error .kInvalidDescriptor)

/-- The loop of `InitializePhase3`, from entry `i` on. -/
def setEndpoints (d : Device) : Nat → Nat → Except Fault Device
  | 0, _ => pure d
  | n + 1, i => do
      let k ← checked 16 i
      let num ← checked 16 (d.epConfigs k).epId.number
      match d.classDrivers num with
      | none => throw .nullPointer
      | some driver =>
          let drivers := d.drivers.modify driver fun c => c.setEndpoint (d.epConfigs k)
          setEndpoints { d with drivers := drivers } n (i + 1)

/-- `InitializePhase3`. -/
def initializePhase3 (d : Device) : Except Fault Device := do
  let d ← d.setEndpoints d.numEpConfigs 0
  pure { d with initializePhase := 4, isInitialized := true }

/-! ## completions -/

/-- A virtual call on a class driver. -/
def driverAt (d : Device) (driver : Nat) : Except Fault HIDDriver :=
  match d.drivers[driver]? with
  | none => throw .nullPointer
  | some c => pure c

/-- `OnControlCompleted`. -/
def onControlCompleted (env : Env) (h : Host) (d : Device) (setupData : SetupData)
    (buf : BitVec 64) (len : Int) : Except Fault (Device × Host × Outcome) :=
  if d.isInitialized then
    match d.eventWaiters.get setupData with
    | none => pure (d, h, .error .kNoWaiter)
    | some none => throw .nullPointer
    | some (some driver) => do
        let c ← d.driverAt driver
        let r := c.onControlCompleted
        pure ({ d with drivers := d.drivers.set driver r.1 }, h, r.2)
  else if d.initializePhase = 1 then
    if setupData.request = Request.kGetDescriptor then do
      let isDevice ← hasType env buf kDevice
      if isDevice then
        let r := d.initializePhase1 env buf
        pure (r.1, h, .transfer r.2)
      else pure (d, h, .error .kInvalidPhase)
    else pure (d, h, .error .kInvalidPhase)
  else if d.initializePhase = 2 then
    if setupData.request = Request.kGetDescriptor then do
      let isConf ← hasType env buf kConfiguration
      if isConf then d.initializePhase2 env h buf len
      else pure (d, h, .error .kInvalidPhase)
    else pure (d, h, .error .kInvalidPhase)
  else if d.initializePhase = 3 then
    if setupData.request = Request.kSetConfiguration then do
      let d ← d.initializePhase3
      pure (d, h, .error .kSuccess)
    else pure (d, h, .error .kInvalidPhase)
  else pure (d, h, .error .kNotImplemented)

/-- `OnInterruptCompleted`. -/
def onInterruptCompleted (env : Env) (h : Host) (d : Device) (epId : EndpointID) (len : Int) :
    Except Fault (Device × Host × Outcome) := do
  let num ← checked 16 epId.number
  match d.classDrivers num with
  | none => pure (d, h, .error .kNoWaiter)
  | some driver => do
      let c ← d.driverAt driver
      let (c, h, o) ← c.onInterruptCompleted env h epId len
      pure ({ d with drivers := d.drivers.set driver c }, h, o)

end Device

end MikanOs.Usb
