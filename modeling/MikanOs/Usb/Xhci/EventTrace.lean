import MikanOs.Lib.Traced
import MikanOs.Usb.Xhci.Lookups

/-!
# MikanOs.Usb.Xhci.EventTrace

What is looked up while an event is handled, access by access, also when the
handler comes to no end.  `Tracing` holds the functions of the driver again,
with a `look` at each place where the source indexes one of the tables; what
looks nothing up is lifted as a whole.  `Tracing.onEvent_traces` says that
without these records they are the functions of the driver, and that all that is
on record is among the `Lookups` of the event.
-/

namespace MikanOs.Usb

open Descriptor

/-- A computation that puts on record what it looks up. -/
abbrev Tracing : Type → Type := Traced Lookup Fault

namespace Tracing

/-- An access to a table. -/
def look (l : Lookup) : Tracing PUnit := Traced.note l

/-! ## the base class -/

/-- The inner loop of `InitializePhase2`. -/
def collectEndpoints (env : Env) (driver numEndpoints : Nat) :
    Nat → ConfigurationDescriptorReader → Device → Tracing Device
  | 0, _, _ => .fail .endless
  | n + 1, r, d =>
      if d.numEpConfigs < numEndpoints then
        match r.next env with
        | (none, _) => .fail .nullPointer
        | (some desc, r) =>
            if byte env desc 1 = kEndpoint then
              if d.numEpConfigs < 16 then do
                let conf := makeEPConfig env desc
                look (.classDriver conf.epId.number)
                collectEndpoints env driver numEndpoints n r
                  { d with
                    epConfigs := update d.epConfigs d.numEpConfigs conf
                    numEpConfigs := d.numEpConfigs + 1
                    classDrivers := update d.classDrivers conf.epId.number.toNat (some driver) }
              else .fail .outOfBounds
            else collectEndpoints env driver numEndpoints n r d
      else pure d

/-- The outer loop of `InitializePhase2`. -/
def findInterface (env : Env) :
    Nat → ConfigurationDescriptorReader → Host → Device → Tracing (Option Nat × Host × Device)
  | 0, _, _, _ => .fail .endless
  | n + 1, r, h, d => do
      let (ifDesc, r) ← .lift (r.nextOf env kInterface env.steps)
      match ifDesc with
      | none => pure (none, h, d)
      | some ifDesc => do
          let (classDriver, h, d) ← .lift (d.newClassDriver env h ifDesc)
          match classDriver with
          | none => findInterface env n r h d
          | some driver => do
              let d ← collectEndpoints env driver (byte env ifDesc 4).toNat env.steps r
                { d with numEpConfigs := 0 }
              pure (some driver, h, d)

/-- `InitializePhase2`. -/
def initializePhase2 (env : Env) (h : Host) (d : Device) (buf : BitVec 64) (len : Int) :
    Tracing (Device × Host × Outcome) := do
  let isConf ← .lift (hasType env buf kConfiguration)
  if isConf then
    let (classDriver, h, d) ← findInterface env env.steps ⟨buf, len, buf⟩ h d
    match classDriver with
    | none => pure (d, h, .error .kSuccess)
    | some _ =>
        pure ({ d with initializePhase := 3 }, h,
          .transfer (Device.setConfiguration kDefaultControlPipeID (byte env buf 5)))
  else pure (d, h, .error .kInvalidDescriptor)

/-- The loop of `InitializePhase3`. -/
def setEndpoints (d : Device) : Nat → Nat → Tracing Device
  | 0, _ => pure d
  | n + 1, i => do
      let k ← .lift (checked 16 i)
      look (.classDriver (d.epConfigs k).epId.number)
      let num ← .lift (checked 16 (d.epConfigs k).epId.number)
      match d.classDrivers num with
      | none => .fail .nullPointer
      | some driver =>
          let drivers := d.drivers.modify driver fun c => c.setEndpoint (d.epConfigs k)
          setEndpoints { d with drivers := drivers } n (i + 1)

/-- `InitializePhase3`. -/
def initializePhase3 (d : Device) : Tracing Device := do
  let d ← setEndpoints d d.numEpConfigs 0
  pure { d with initializePhase := 4, isInitialized := true }

/-- `OnControlCompleted`. -/
def onControlCompleted (env : Env) (h : Host) (d : Device) (setupData : SetupData)
    (buf : BitVec 64) (len : Int) : Tracing (Device × Host × Outcome) :=
  if d.isInitialized then .lift (d.onControlCompleted env h setupData buf len)
  else if d.initializePhase = 2 then
    if setupData.request = Request.kGetDescriptor then do
      let isConf ← .lift (hasType env buf kConfiguration)
      if isConf then initializePhase2 env h d buf len
      else pure (d, h, .error .kInvalidPhase)
    else pure (d, h, .error .kInvalidPhase)
  else if d.initializePhase = 3 then
    if setupData.request = Request.kSetConfiguration then do
      let d ← initializePhase3 d
      pure (d, h, .error .kSuccess)
    else pure (d, h, .error .kInvalidPhase)
  else .lift (d.onControlCompleted env h setupData buf len)

/-- `OnInterruptCompleted`. -/
def onInterruptCompleted (env : Env) (h : Host) (d : Device) (epId : EndpointID) (len : Int) :
    Tracing (Device × Host × Outcome) := do
  look (.classDriver epId.number)
  .lift (d.onInterruptCompleted env h epId len)

variable {p : Lookup → Prop} {env : Env} {d : Device}

theorem collectEndpoints_traces
    (hp : ∀ desc, p (.classDriver (makeEPConfig env desc).epId.number))
    (driver numEndpoints n : Nat) (r : ConfigurationDescriptorReader) (d : Device) :
    Traces p (collectEndpoints env driver numEndpoints n r d)
      (Device.collectEndpoints env driver numEndpoints n r d) := by
  induction n generalizing r d with
  | zero => exact .fail _
  | succ n ih =>
      unfold collectEndpoints Device.collectEndpoints
      refine .ite (fun _ => ?_) fun _ => .pure d
      rcases r.next env with ⟨_ | desc, r'⟩
      · exact .fail _
      · refine .ite (fun _ => .ite (fun _ => ?_) fun _ => .fail _) fun _ => ih r' d
        refine .bind_ok (.note (hp desc)) ?_
        exact ih r' _

theorem findInterface_traces
    (hp : ∀ desc, p (.classDriver (makeEPConfig env desc).epId.number)) (n : Nat)
    (r : ConfigurationDescriptorReader) (h : Host) (d : Device) :
    Traces p (findInterface env n r h d) (Device.findInterface env n r h d) := by
  induction n generalizing r h d with
  | zero => exact .fail _
  | succ n ih =>
      refine .bind (.lift _) fun found _ => ?_
      obtain ⟨ifDesc, r'⟩ := found
      cases ifDesc with
      | none => exact .pure _
      | some ifDesc =>
          refine .bind (.lift _) fun made _ => ?_
          obtain ⟨classDriver, h', d'⟩ := made
          cases classDriver with
          | none => exact ih r' h' d'
          | some driver =>
              exact .bind (collectEndpoints_traces hp _ _ _ _ _) fun _ _ => .pure _

theorem initializePhase2_traces
    (hp : ∀ desc, p (.classDriver (makeEPConfig env desc).epId.number)) (h : Host) (d : Device)
    (buf : BitVec 64) (len : Int) :
    Traces p (initializePhase2 env h d buf len) (d.initializePhase2 env h buf len) := by
  refine .bind (.lift _) fun isConf _ => .ite (fun _ => ?_) fun _ => .pure _
  refine .bind (findInterface_traces hp _ _ _ _) fun found _ => ?_
  obtain ⟨classDriver, h', d'⟩ := found
  cases classDriver with
  | none => exact .pure _
  | some driver => exact .pure _

/-- From entry `i` on. -/
theorem setEndpoints_traces (n i : Nat) (d : Device)
    (hp : ∀ j, j < i + n → p (.classDriver (d.epConfigs j).epId.number)) :
    Traces p (setEndpoints d n i) (d.setEndpoints n i) := by
  induction n generalizing i d with
  | zero => exact .pure d
  | succ n ih =>
      refine .bind (.lift _) fun k hk => ?_
      obtain rfl : i = k := (checked_eq_ok.mp hk).2
      refine .bind_ok (.note (hp i (by omega))) (.bind (.lift _) fun num _ => ?_)
      rcases d.classDrivers num with _ | driver
      · exact .fail _
      · refine ih (i + 1) _ ?_
        exact fun j hj => hp j (by omega)

theorem onControlCompleted_traces (h : Host) (setupData : SetupData) (buf : BitVec 64) (len : Int)
    (collect : d.initializePhase = 2 → ∀ desc, p (.classDriver (makeEPConfig env desc).epId.number))
    (serve : d.initializePhase = 3 → ∀ j < d.numEpConfigs,
      p (.classDriver (d.epConfigs j).epId.number)) :
    Traces p (onControlCompleted env h d setupData buf len)
      (d.onControlCompleted env h setupData buf len) := by
  unfold onControlCompleted
  by_cases ready : d.isInitialized = true
  · rw [if_pos ready]
    exact .lift _
  rw [if_neg ready]
  by_cases two : d.initializePhase = 2
  · have hone : ¬ d.initializePhase = 1 := by omega
    unfold Device.onControlCompleted
    rw [if_neg ready, if_neg hone, if_pos two, if_pos two]
    refine .ite (fun _ => .bind (.lift _) fun isConf _ => .ite (fun _ => ?_) fun _ => .pure _)
      fun _ => .pure _
    exact initializePhase2_traces (collect two) h d buf len
  rw [if_neg two]
  by_cases three : d.initializePhase = 3
  · have hone : ¬ d.initializePhase = 1 := by omega
    unfold Device.onControlCompleted
    rw [if_neg ready, if_neg hone, if_neg two, if_pos three, if_pos three]
    refine .ite (fun _ => .bind ?_ fun _ _ => .pure _) fun _ => .pure _
    exact .bind (setEndpoints_traces _ _ _ fun j hj => serve three j (by omega)) fun _ _ => .pure _
  · rw [if_neg three]
    exact .lift _

theorem onInterruptCompleted_traces (h : Host) (d : Device) {epId : EndpointID} (len : Int)
    (hp : p (.classDriver epId.number)) : Traces p (onInterruptCompleted env h d epId len)
      (d.onInterruptCompleted env h epId len) := .bind_ok (.note hp) (.lift _)

end Tracing

namespace Xhci.Tracing

open Controller (Lookups)
open Usb.Tracing (look)

section

variable {p : Lookup → Prop} {env : Env} {trb : Trb} {slotId port : BitVec 8}

/-! ## transfer events -/

/-- `Log(TransferEventTRB)`. -/
def logTransferEvent (env : Env) (p : Pipes) (trb : Trb) : Tracing PUnit :=
  if TransferEventTRB.eventData.get trb = 1#1 then
    look (.completionCodeName (TransferEventTRB.completionCode.get trb))
  else do
    look (.trbTypeName (TRB.trbType.get (p.trbAt env (TransferEventTRB.pointer trb))))
    look (.completionCodeName (TransferEventTRB.completionCode.get trb))

/-- `OnTransferEventReceived` from there to the call of the base class. -/
def completedTransfer (env : Env) (p : Pipes) (trb : Trb) :
    Tracing (Pipes.Completion × Pipes) := do
  let (c, q) ← .lift (p.completedTransfer env trb)
  match c with
  | .error .kNoCorrespondingSetupStage => do
      look (.trbTypeName (TRB.trbType.get (p.trbAt env (TransferEventTRB.pointer trb))))
      pure (c, q)
  | _ => pure (c, q)

/-- The call of the base class. -/
def report (env : Env) (h : Host) (p : Pipes) :
    Pipes.Completion → Tracing (Error × Pipes × Host)
  | .error e => pure (e, p, h)
  | .interrupt epId len => do
      let (base, h, o) ← Usb.Tracing.onInterruptCompleted env h p.base epId len
      .lift (Pipes.finish h { p with base := base } o)
  | .control _ setupData buf len => do
      let (base, h, o) ← Usb.Tracing.onControlCompleted env h p.base setupData buf len
      .lift (Pipes.finish h { p with base := base } o)

/-- `OnTransferEventReceived`. -/
def onTransferEventReceived (env : Env) (h : Host) (p : Pipes) (trb : Trb) :
    Tracing (Error × Pipes × Host) := do
  let h := h.act (.completionCodeName (TransferEventTRB.completionCode.get trb))
  logTransferEvent env p trb
  let (c, p) ← completedTransfer env p trb
  report env h p c

/-- What is reported as an interrupt transfer was a Normal TRB. -/
theorem completedTransfer_interrupt (env : Env) (p : Pipes) (trb : Trb) :
    Returns (p.completedTransfer env trb) fun r => ∀ epId len, r.1 = .interrupt epId len →
      TRB.trbType.get (p.trbAt env (TransferEventTRB.pointer trb)) = NormalTRB.type ∧
        epId = ⟨(TransferEventTRB.endpointId.get trb).toNat⟩ := by
  unfold Pipes.completedTransfer
  refine .ite (fun _ => .of_pure nofun) fun _ => .ite (fun normal => .of_pure ?_) fun _ => ?_
  · rintro epId len heq
    exact ⟨normal, (Pipes.Completion.interrupt.inj heq).1.symm⟩
  split
  · exact .of_pure nofun
  · exact .ite (fun _ => .of_throw _) fun _ => .ite (fun _ => .of_pure nofun) fun _ =>
      .ite (fun _ => .of_pure nofun) fun _ => .of_pure nofun

/-- What a transfer event of a device may look up. -/
structure Reported (p : Lookup → Prop) (env : Env) (pipes : Pipes) (trb : Trb) : Prop where
  code : p (.completionCodeName (TransferEventTRB.completionCode.get trb))
  issuer : p (.trbTypeName (TRB.trbType.get (pipes.trbAt env (TransferEventTRB.pointer trb))))
  interrupt : TRB.trbType.get (pipes.trbAt env (TransferEventTRB.pointer trb)) = NormalTRB.type →
    p (.classDriver (EndpointID.number ⟨(TransferEventTRB.endpointId.get trb).toNat⟩))
  collect : pipes.base.initializePhase = 2 →
    ∀ desc, p (.classDriver (makeEPConfig env desc).epId.number)
  serve : pipes.base.initializePhase = 3 → ∀ j < pipes.base.numEpConfigs,
    p (.classDriver (pipes.base.epConfigs j).epId.number)

theorem completedTransfer_traces {pipes : Pipes} (may : Reported p env pipes trb) :
    Traces p (completedTransfer env pipes trb) (pipes.completedTransfer env trb) := by
  have hsame : Traces p (completedTransfer env pipes trb)
      (pipes.completedTransfer env trb >>= pure) := by
    refine .bind (.lift _) fun r _ => ?_
    obtain ⟨c, q⟩ := r
    simp only
    split
    · exact .bind_ok (.note may.issuer) (.pure _)
    · exact .pure _
  rwa [bind_pure] at hsame

theorem onTransferEventReceived_traces (h : Host) {pipes : Pipes} (may : Reported p env pipes trb) :
    Traces p (onTransferEventReceived env h pipes trb)
      (pipes.onTransferEventReceived env h trb) := by
  have hlog : Traces p (logTransferEvent env pipes trb) (.ok ⟨⟩) := by
    unfold logTransferEvent
    split
    · exact .note may.code
    · exact .bind_ok (.note may.issuer) (.note may.code)
  refine .bind_ok hlog (.bind (completedTransfer_traces may) fun c hc => ?_)
  have hinterrupt := completedTransfer_interrupt env pipes trb c hc
  have hbase := Pipes.completedTransfer_base env pipes trb c hc
  obtain ⟨c, pipes'⟩ := c
  cases c with
  | error e => exact .pure _
  | interrupt epId len =>
      obtain ⟨normal, rfl⟩ := hinterrupt epId len rfl
      exact .bind (Usb.Tracing.onInterruptCompleted_traces _ _ _ (may.interrupt normal))
        fun _ _ => .lift _
  | control epId setupData buf len =>
      refine .bind (Usb.Tracing.onControlCompleted_traces _ _ _ _ ?_ ?_) fun _ _ => .lift _
      · rw [hbase]
        exact may.collect
      · rw [hbase]
        exact may.serve

/-! ## the device table -/

/-- `devices_[slotId]`, once the slot has been checked. -/
def lookSlot (m : DeviceManager) (slotId : BitVec 8) : Tracing PUnit :=
  if slotId.toNat ≤ m.maxSlots then look (.device slotId) else pure ⟨⟩

/-- `FindBySlot`. -/
def findBySlot (m : DeviceManager) (slotId : BitVec 8) : Tracing (Option Device) := do
  lookSlot m slotId
  pure (m.findBySlot slotId)

/-- `AllocDevice`. -/
def allocDevice (env : Env) (h : Host) (m : DeviceManager) (slotId dbreg : BitVec 8) :
    Tracing (Error × DeviceManager × Host) := do
  lookSlot m slotId
  .lift (m.allocDevice env h slotId dbreg)

/-- `LoadDCBAA`. -/
def loadDCBAA (m : DeviceManager) (slotId : BitVec 8) : Tracing (Error × DeviceManager) := do
  lookSlot m slotId
  .lift (m.loadDCBAA slotId)

theorem lookSlot_traces (m : DeviceManager) (hp : slotId.toNat ≤ m.maxSlots → p (.device slotId)) :
    Traces p (lookSlot m slotId) (.ok ⟨⟩) := by
  unfold lookSlot
  split
  · next hslot => exact .note (hp hslot)
  · exact .pure _

theorem findBySlot_traces (m : DeviceManager)
    (hp : slotId.toNat ≤ m.maxSlots → p (.device slotId)) :
    Traces p (findBySlot m slotId) (.ok (m.findBySlot slotId)) :=
  .bind_ok (lookSlot_traces m hp) (.pure _)

theorem allocDevice_traces (h : Host) (m : DeviceManager) (dbreg : BitVec 8)
    (hp : slotId.toNat ≤ m.maxSlots → p (.device slotId)) :
    Traces p (allocDevice env h m slotId dbreg) (m.allocDevice env h slotId dbreg) :=
  .bind_ok (lookSlot_traces m hp) (.lift _)

theorem loadDCBAA_traces (m : DeviceManager) (hp : slotId.toNat ≤ m.maxSlots → p (.device slotId)) :
    Traces p (loadDCBAA m slotId) (m.loadDCBAA slotId) :=
  .bind_ok (lookSlot_traces m hp) (.lift _)

/-! ## the phases of a port -/

/-- `PortAt`. -/
def portAt (s : Controller) (port : BitVec 8) : Tracing Controller := do
  look (.portRegisterSet port)
  pure (s.portAt port)

/-- `AddressDevice` of the device in a slot. -/
def addressSlot (env : Env) (s : Controller) (port slotId : BitVec 8) (dev : Device) :
    Tracing (Error × Controller) := do
  let s ← portAt s port
  let (tr, pipes, h) ← .lift (dev.pipes.allocTransferRing env s.host 1 32)
  match tr with
  | none => .fail .nullPointer
  | some tr => do
      let dev :=
        { dev with inputCtx := Controller.addressInput env port dev.inputCtx tr, pipes := pipes }
      let s := s.setDevice slotId dev h
      let (_, devmgr) ← loadDCBAA s.devmgr slotId
      let s := { s with devmgr := devmgr }.setPhase port .kAddressingDevice
      let s ← .lift (s.pushCommand port (AddressDeviceCommandTRB.new dev.inputContext slotId))
      pure (.kSuccess, s)

/-- `AddressDevice`. -/
def addressDevice (env : Env) (s : Controller) (port slotId : BitVec 8) :
    Tracing (Error × Controller) := do
  let (_, devmgr, h) ← allocDevice env s.host s.devmgr slotId slotId
  let s := { s with devmgr := devmgr, host := h }
  match ← findBySlot s.devmgr slotId with
  | none => pure (.kInvalidSlotID, s)
  | some dev => addressSlot env s port slotId dev

/-- `InitializeDevice`. -/
def initializeDevice (s : Controller) (port slotId : BitVec 8) : Tracing (Error × Controller) := do
  let _ ← findBySlot s.devmgr slotId
  .lift (s.initializeDevice port slotId)

/-- `CompleteConfiguration`. -/
def completeConfiguration (s : Controller) (port slotId : BitVec 8) :
    Tracing (Error × Controller) := do
  let _ ← findBySlot s.devmgr slotId
  .lift (s.completeConfiguration port slotId)

/-- `ConfigureEndpoints` of the device in a slot. -/
def configureEndpoints (env : Env) (s : Controller) (slotId : BitVec 8) (dev : Device) :
    Tracing (Error × Controller) := do
  look (.portRegisterSet (SlotContext.rootHubPortNum.get (env.slotContext slotId)))
  .lift (s.configureEndpoints env slotId dev)

/-- The port that starts over. -/
def resumeWaiting (env : Env) (s : Controller) : Tracing (Error × Controller) :=
  match s.firstWaiting with
  | none => pure (.kSuccess, s)
  | some i => do
      let s ← portAt s i
      .lift (s.resetPort env i)

theorem portAt_traces (s : Controller) (hp : p (.portRegisterSet port)) :
    Traces p (portAt s port) (.ok (s.portAt port)) :=
  .bind_ok (.note hp) (.pure _)

theorem addressSlot_traces (s : Controller) (dev : Device) (hport : p (.portRegisterSet port))
    (hslot : slotId.toNat ≤ s.devmgr.maxSlots → p (.device slotId)) :
    Traces p (addressSlot env s port slotId dev) (s.addressSlot env port slotId dev) := by
  refine .bind_ok (portAt_traces s hport) (.bind (.lift _) fun r _ => ?_)
  obtain ⟨tr, pipes, h⟩ := r
  cases tr with
  | none => exact .fail _
  | some tr =>
      exact .bind (loadDCBAA_traces _ hslot) fun _ _ => .bind (.lift _) fun _ _ => .pure _

theorem addressDevice_traces (s : Controller) (hport : p (.portRegisterSet port))
    (hslot : slotId.toNat ≤ s.devmgr.maxSlots → p (.device slotId)) :
    Traces p (addressDevice env s port slotId) (s.addressDevice env port slotId) := by
  refine .bind (allocDevice_traces _ _ _ hslot) fun r hr => ?_
  obtain ⟨e, m, h⟩ := r
  have hmax : m.maxSlots = s.devmgr.maxSlots := by
    rcases DeviceManager.allocDevice_ok hr with ⟨_, rfl, _⟩ | ⟨_, dev, rfl⟩ <;> rfl
  rw [← hmax] at hslot
  refine .bind_ok (findBySlot_traces m hslot) ?_
  simp only
  rcases m.findBySlot slotId with _ | dev
  · exact .pure _
  · exact addressSlot_traces _ dev hport hslot

theorem initializeDevice_traces (s : Controller)
    (hslot : slotId.toNat ≤ s.devmgr.maxSlots → p (.device slotId)) :
    Traces p (initializeDevice s port slotId) (s.initializeDevice port slotId) :=
  .bind_ok (findBySlot_traces _ hslot) (.lift _)

theorem completeConfiguration_traces (s : Controller)
    (hslot : slotId.toNat ≤ s.devmgr.maxSlots → p (.device slotId)) :
    Traces p (completeConfiguration s port slotId) (s.completeConfiguration port slotId) :=
  .bind_ok (findBySlot_traces _ hslot) (.lift _)

theorem resumeWaiting_traces (s : Controller)
    (hp : ∀ port, s.firstWaiting = some port → p (.portRegisterSet port)) :
    Traces p (resumeWaiting env s) (s.resumeWaiting env) := by
  unfold resumeWaiting Controller.resumeWaiting
  rcases hfirst : s.firstWaiting with _ | port
  · exact .pure _
  · exact .bind_ok (portAt_traces s (hp port hfirst)) (.lift _)

end

section

variable {env : Env} {s : Controller} {trb : Trb}

/-! ## events -/

/-- `OnEvent(PortStatusChangeEventTRB)`. -/
def onPortStatusChange (env : Env) (s : Controller) (trb : Trb) : Tracing (Error × Controller) := do
  look (.portRegisterSet (PortStatusChangeEventTRB.portId.get trb))
  .lift (s.onPortStatusChange env trb)

/-- `OnEvent(TransferEventTRB)`. -/
def onTransferEvent (env : Env) (s : Controller) (trb : Trb) : Tracing (Error × Controller) := do
  let slotId := TransferEventTRB.slotId.get trb
  match ← findBySlot s.devmgr slotId with
  | none => pure (.kInvalidSlotID, s)
  | some dev => do
      let (err, pipes, h) ← onTransferEventReceived env s.host dev.pipes trb
      let dev := { dev with pipes := pipes }
      let s := s.setDevice slotId dev h
      if err ≠ .kSuccess then pure (err, s)
      else
        let port := SlotContext.rootHubPortNum.get (env.slotContext slotId)
        if dev.pipes.base.isInitialized ∧ s.portConfigPhase port = .kInitializingDevice then
          configureEndpoints env s slotId dev
        else pure (.kSuccess, s)

/-- `OnEvent(CommandCompletionEventTRB)`. -/
def onCommandCompletion (env : Env) (s : Controller) (trb : Trb) :
    Tracing (Error × Controller) := do
  let issuerType := TRB.trbType.get (s.trbAt env (CommandCompletionEventTRB.pointer trb))
  let slotId := CommandCompletionEventTRB.slotId.get trb
  let port := SlotContext.rootHubPortNum.get (env.slotContext slotId)
  look (.trbTypeName issuerType)
  if issuerType = EnableSlotCommandTRB.type then
    if s.portConfigPhase s.addressingPort ≠ .kEnablingSlot then pure (.kInvalidPhase, s)
    else addressDevice env s s.addressingPort slotId
  else if issuerType = AddressDeviceCommandTRB.type then
    match ← findBySlot s.devmgr slotId with
    | none => pure (.kInvalidSlotID, s)
    | some _ =>
        if port ≠ s.addressingPort then pure (.kInvalidPhase, s)
        else if s.portConfigPhase port ≠ .kAddressingDevice then pure (.kInvalidPhase, s)
        else do
          let (err, s) ← resumeWaiting env { s with addressingPort := 0#8 }
          if err ≠ .kSuccess then pure (err, s) else initializeDevice s port slotId
  else if issuerType = ConfigureEndpointCommandTRB.type then
    match ← findBySlot s.devmgr slotId with
    | none => pure (.kInvalidSlotID, s)
    | some _ =>
        if s.portConfigPhase port ≠ .kConfiguringEndpoints then pure (.kInvalidPhase, s)
        else completeConfiguration s port slotId
  else pure (.kInvalidPhase, s)

/-- The dispatch of `ProcessEvent`. -/
def onEvent (env : Env) (s : Controller) (trb : Trb) : Tracing (Error × Controller) :=
  let type := TRB.trbType.get trb
  if type = TransferEventTRB.type then onTransferEvent env s trb
  else if type = PortStatusChangeEventTRB.type then onPortStatusChange env s trb
  else if type = CommandCompletionEventTRB.type then onCommandCompletion env s trb
  else pure (.kNotImplemented, s)

theorem onTransferEvent_traces (type : TRB.trbType.get trb = TransferEventTRB.type) :
    Traces (Lookups env s trb) (onTransferEvent env s trb) (s.onTransferEvent env trb) := by
  unfold onTransferEvent Controller.onTransferEvent
  refine .bind_ok (findBySlot_traces _ (.transferSlot type)) ?_
  simp only
  rcases found : s.devmgr.findBySlot (TransferEventTRB.slotId.get trb) with _ | dev
  · exact .pure _
  have may : Reported (Lookups env s trb) env dev.pipes trb :=
    ⟨.completionCode type found, .transferIssuer type found, .interruptDriver type found,
      .collectDriver type found, fun three j few => .serveDriver type found three few⟩
  refine .bind (onTransferEventReceived_traces _ may) fun r _ => ?_
  obtain ⟨err, pipes, h⟩ := r
  refine .ite (fun _ => .pure _) fun _ => .ite (fun phase => ?_) fun _ => .pure _
  exact .bind_ok (.note (.initializedPort type found phase.2)) (.lift _)

theorem onCommandCompletion_traces
    (type : TRB.trbType.get trb = CommandCompletionEventTRB.type) :
    Traces (Lookups env s trb) (onCommandCompletion env s trb)
      (s.onCommandCompletion env trb) := by
  unfold onCommandCompletion Controller.onCommandCompletion
  have hfind : Traces (Lookups env s trb)
      (findBySlot s.devmgr (CommandCompletionEventTRB.slotId.get trb))
      (.ok (s.devmgr.findBySlot (CommandCompletionEventTRB.slotId.get trb))) :=
    findBySlot_traces s.devmgr (.commandSlot type)
  refine .bind_ok (.note (.commandIssuer type)) (.ite (fun _ => ?_) fun _ =>
    .ite (fun _ => .bind_ok hfind ?_) fun _ => .ite (fun _ => .bind_ok hfind ?_) fun _ => .pure _)
  · refine .ite (fun _ => .pure _) fun phase => ?_
    exact addressDevice_traces s (.enabledPort type (Decidable.not_not.mp phase))
      (.commandSlot type)
  · simp only
    rcases s.devmgr.findBySlot (CommandCompletionEventTRB.slotId.get trb) with _ | dev
    · exact .pure _
    refine .ite (fun _ => .pure _) fun _ => .ite (fun _ => .pure _) fun _ => ?_
    refine .bind (resumeWaiting_traces _ fun port first => .resumedPort type first) fun r hr => ?_
    obtain ⟨err, t⟩ := r
    obtain ⟨_, hdevmgr⟩ := (Controller.resumeWaiting_ends rfl hr).eq_kSuccess
    refine .ite (fun _ => .pure _) fun _ => initializeDevice_traces t ?_
    rw [hdevmgr]
    exact .commandSlot (s := s) type
  · rcases s.devmgr.findBySlot (CommandCompletionEventTRB.slotId.get trb) with _ | dev
    · exact .pure _
    exact .ite (fun _ => .pure _) fun _ => completeConfiguration_traces s (.commandSlot type)

/-- **What is looked up while an event is handled** is among its lookups, and to
put it on record changes nothing. -/
theorem onEvent_traces (env : Env) (s : Controller) (trb : Trb) :
    Traces (Lookups env s trb) (onEvent env s trb) (s.onEvent env trb) := by
  unfold onEvent Controller.onEvent
  refine .ite onTransferEvent_traces fun _ => .ite (fun type => ?_) fun _ =>
    .ite onCommandCompletion_traces fun _ => .pure _
  exact .bind_ok (.note (.changedPort type)) (.lift _)

/-! ## what is looked up in any case -/

/-- The completion code of a transfer event about a device. -/
theorem mem_completionCode (type : TRB.trbType.get trb = TransferEventTRB.type)
    (found : s.devmgr.findBySlot (TransferEventTRB.slotId.get trb) = some dev) :
    .completionCodeName (TransferEventTRB.completionCode.get trb) ∈ (onEvent env s trb).items := by
  have hlog : ∀ pipes, .completionCodeName (TransferEventTRB.completionCode.get trb) ∈
      (logTransferEvent env pipes trb).items := by
    intro pipes
    unfold logTransferEvent
    split
    · exact List.mem_singleton_self _
    · exact Traced.mem_bind_right rfl (List.mem_singleton_self _)
  have hfind : (findBySlot s.devmgr (TransferEventTRB.slotId.get trb)).result = .ok (some dev) :=
    found ▸ (findBySlot_traces (p := fun _ => True) s.devmgr fun _ => trivial).result
  unfold onEvent
  rw [if_pos type]
  exact Traced.mem_bind_right hfind (Traced.mem_bind_left (Traced.mem_bind_left (hlog _)))

/-- The port of a port status change event. -/
theorem mem_changedPort (type : TRB.trbType.get trb = PortStatusChangeEventTRB.type) :
    .portRegisterSet (PortStatusChangeEventTRB.portId.get trb) ∈ (onEvent env s trb).items := by
  have hother : ¬ TRB.trbType.get trb = TransferEventTRB.type := by
    rw [type]
    decide
  unfold onEvent
  rw [if_neg hother, if_pos type]
  exact Traced.mem_bind_left (List.mem_singleton_self _)

end

end Xhci.Tracing

end MikanOs.Usb
