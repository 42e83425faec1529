import MikanOs.Usb.Xhci.ClassDrivers
import MikanOs.Usb.Xhci.Handlers

/-!
# MikanOs.Usb.Xhci.Lookups

The tables that the fields of an event select from.  `Lookups` has one
constructor for each access to one of them in the code behind `ProcessEvent`,
with the guards that lead there, and names the index.

Two of the tables are accessed without a check; these accesses are part of what
the driver does to the outside (`Io`), and `onEvent_looks` says that those an
event leaves behind are among its lookups.  The accesses to all of the tables,
one by one, are the subject of `MikanOs.Usb.Xhci.EventTrace`.
-/

namespace MikanOs.Usb

/-- An access to a table, with its index. -/
inductive Lookup
  /-- `PortRegisterSets()[port - 1]` -/
  | portRegisterSet (port : BitVec 8)
  /-- `devices_[slotId]` -/
  | device (slotId : BitVec 8)
  /-- `class_drivers_[number]` -/
  | classDriver (number : Int)
  /-- `kTRBCompletionCodeToName[code]` -/
  | completionCodeName (code : BitVec 8)
  /-- `kTRBTypeToName[type]` -/
  | trbTypeName (type : BitVec 6)

/-- The access an action records. -/
def Io.lookup : Io → Option Lookup
  | .portAt port => some (.portRegisterSet port)
  | .completionCodeName code => some (.completionCodeName code)
  | _ => none

/-- The accesses on record. -/
def Host.lookups (h : Host) : List Lookup := h.io.filterMap Io.lookup

theorem Host.lookups_act (h : Host) (e : Io) :
    (h.act e).lookups = h.lookups ++ e.lookup.toList := by
  unfold lookups act
  rw [List.filterMap_append]
  cases he : e.lookup <;> simp [he]

/-- An action that is no access. -/
theorem Host.lookups_act_none {e : Io} (he : e.lookup = none) (h : Host) :
    (h.act e).lookups = h.lookups := by
  rw [lookups_act, he]
  exact List.append_nil _

/-- The pool cursor plays no part. -/
theorem Host.lookups_of_io {h h' : Host} (hio : h'.io = h.io) : h'.lookups = h.lookups :=
  congrArg (List.filterMap Io.lookup) hio

theorem Host.io_grant (h : Host) (a : BitVec 64 × BitVec 64) : (h.grant a).2.io = h.io := rfl

theorem Host.io_allocArray (env : Env) (h : Host) (sizeofT numObj : Nat)
    (alignment boundary : BitVec 32) :
    (h.allocArray env sizeofT numObj alignment boundary).2.io = h.io := by
  rw [allocArray, io_grant]

/-- The endpoint numbers of a device are indices of `class_drivers_`. -/
def Device.Numbered (d : Device) : Prop :=
  ∀ i, 0 ≤ (d.epConfigs i).epId.number ∧ (d.epConfigs i).epId.number < 16

/-- Nothing is looked up, and the endpoint numbers stay in range. -/
structure Keeps (h : Host) (d : Device) (h' : Host) (d' : Device) : Prop where
  lookups : h'.lookups = h.lookups
  numbered : d.Numbered → d'.Numbered

namespace Keeps

variable {h h' h'' : Host} {d d' d'' : Device}

theorem refl (h : Host) (d : Device) : Keeps h d h d := ⟨rfl, id⟩

theorem trans (hfirst : Keeps h d h' d') (hlast : Keeps h' d' h'' d'') : Keeps h d h'' d'' :=
  ⟨hlast.lookups.trans hfirst.lookups, fun hd => hlast.numbered (hfirst.numbered hd)⟩

/-- The endpoints are left alone. -/
theorem of_epConfigs (hlookups : h'.lookups = h.lookups) (hconfigs : d'.epConfigs = d.epConfigs) :
    Keeps h d h' d' := by
  refine ⟨hlookups, fun hd => ?_⟩
  unfold Device.Numbered
  rw [hconfigs]
  exact hd

end Keeps

namespace HIDDriver

/-- Observers are told things, and nothing is looked up. -/
theorem lookups_onDataReceived (env : Env) (h : Host) (c : HIDDriver) :
    (c.onDataReceived env h).lookups = h.lookups := by
  have hnone : ∀ e ∈ (c.notifications env).flatMap (List.replicate c.numObservers),
      e.lookup = none := by
    intro e he
    obtain ⟨e', hmem, hrep⟩ := List.mem_flatMap.mp he
    rw [List.eq_of_mem_replicate hrep]
    unfold notifications at hmem
    split at hmem
    · obtain ⟨key, _, rfl⟩ := List.mem_map.mp hmem
      rfl
    · rw [List.mem_singleton.mp hmem]
      rfl
  unfold onDataReceived Host.lookups
  rw [List.filterMap_append, List.filterMap_eq_nil_iff.mpr hnone, List.append_nil]

theorem onInterruptCompleted_keeps (env : Env) (h : Host) (c : HIDDriver) (epId : EndpointID)
    (len : Int) : Returns (c.onInterruptCompleted env h epId len)
      fun r => r.2.1.lookups = h.lookups := by
  unfold onInterruptCompleted
  exact .ite (fun _ => .ite (fun _ => .of_pure (lookups_onDataReceived env h c))
    fun _ => .of_throw _) fun _ => .of_pure rfl

end HIDDriver

namespace Device

/-! ## the base class -/

theorem newClassDriver_keeps (env : Env) (h : Host) (d : Device) (ifDesc : BitVec 64) :
    Returns (d.newClassDriver env h ifDesc) fun r => Keeps h d r.2.1 r.2.2 := by
  have hmake : ∀ kind observed, Returns (newClassDriver.make env h d ifDesc kind observed)
      fun r => Keeps h d r.2.1 r.2.2 := by
    intro kind observed
    unfold newClassDriver.make
    have hio := Host.io_allocArray env h HIDDriver.sizeofDriver 1 0#32 0#32
    generalize h.allocArray env HIDDriver.sizeofDriver 1 0#32 0#32 = a at hio ⊢
    exact .ite (fun _ => .of_throw _) fun _ =>
      .of_pure (.of_epConfigs (Host.lookups_of_io hio) rfl)
  unfold newClassDriver
  exact .ite (fun _ => .ite (fun _ => hmake _ _) fun _ => .ite (fun _ => hmake _ _)
    fun _ => .of_pure (.refl h d)) fun _ => .of_pure (.refl h d)

/-- The endpoint descriptors that are collected have numbers in range. -/
theorem collectEndpoints_numbered {env : Env} {driver numEndpoints n : Nat}
    {r : ConfigurationDescriptorReader} {d d' : Device}
    (ret : collectEndpoints env driver numEndpoints n r d = .ok d') (hd : d.Numbered) :
    d'.Numbered := by
  obtain ⟨rest, _, _, _, _, rfl⟩ := collectEndpoints_ok ret
  generalize endpointsOf env rest = eps
  intro i
  rw [foldl_collect_epConfigs]
  split
  · next hi =>
    obtain ⟨q, _, hq⟩ := List.mem_map.mp
      (List.getElem_mem (l := eps.map (makeEPConfig env)) (n := i - d.numEpConfigs) (by omega))
    rw [← hq, number_makeEPConfig]
    have hlt := endpointNumber_lt env q
    omega
  · exact hd i

theorem findInterface_keeps (env : Env) (n : Nat) (r : ConfigurationDescriptorReader) (h : Host)
    (d : Device) : Returns (findInterface env n r h d) fun r => Keeps h d r.2.1 r.2.2 := by
  induction n generalizing r h d with
  | zero => exact .of_throw _
  | succ n ih =>
      refine .seq fun found => ?_
      obtain ⟨ifDesc, r⟩ := found
      cases ifDesc with
      | none => exact .of_pure (.refl h d)
      | some ifDesc =>
          refine .bind (newClassDriver_keeps env h d ifDesc) fun made hmade => ?_
          obtain ⟨classDriver, h₁, d₁⟩ := made
          cases classDriver with
          | none => exact fun a ha => hmade.trans (ih r h₁ d₁ a ha)
          | some driver =>
              intro a ha
              obtain ⟨d₂, hcollect, hret⟩ := Returns.bind_eq_ok.mp ha
              cases Returns.pure_eq_ok.mp hret
              exact ⟨hmade.lookups, fun hd =>
                collectEndpoints_numbered hcollect (hmade.numbered hd)⟩

theorem onControlCompleted_keeps (env : Env) (h : Host) (d : Device) (setupData : SetupData)
    (buf : BitVec 64) (len : Int) : Returns (d.onControlCompleted env h setupData buf len)
      fun r => Keeps h d r.2.1 r.1 := by
  have hsame : ∀ {o : Outcome}, Returns (pure (d, h, o) : Except Fault (Device × Host × Outcome))
      fun r => Keeps h d r.2.1 r.1 := .of_pure (.refl h d)
  have hphase : Returns (d.initializePhase2 env h buf len) fun r => Keeps h d r.2.1 r.1 := by
    refine .seq fun isConf => .ite (fun _ => ?_) fun _ => hsame
    refine .bind (findInterface_keeps env env.steps _ h d) fun found hfound => ?_
    obtain ⟨classDriver, h₁, d₁⟩ := found
    cases classDriver with
    | none => exact .of_pure hfound
    | some driver => exact .of_pure (hfound.trans (.of_epConfigs rfl rfl))
  unfold onControlCompleted
  refine .ite (fun _ => ?_) fun _ => .ite (fun _ => ?_) fun _ => .ite (fun _ => ?_) fun _ =>
    .ite (fun _ => ?_) fun _ => hsame
  · split
    · exact hsame
    · exact .of_throw _
    · exact .seq fun c => .of_pure (.of_epConfigs rfl rfl)
  · exact .ite (fun _ => .seq fun _ => .ite (fun _ => .of_pure (.of_epConfigs rfl rfl))
      fun _ => hsame) fun _ => hsame
  · exact .ite (fun _ => .seq fun _ => .ite (fun _ => hphase) fun _ => hsame) fun _ => hsame
  · refine .ite (fun _ => fun r hret => ?_) fun _ => hsame
    obtain ⟨d₁, hthree, hpure⟩ := Returns.bind_eq_ok.mp hret
    obtain ⟨d₂, hset, hmade⟩ := Returns.bind_eq_ok.mp hthree
    cases Returns.pure_eq_ok.mp hmade
    cases Returns.pure_eq_ok.mp hpure
    exact .of_epConfigs rfl (by rw [setEndpoints_frame hset])

theorem onInterruptCompleted_keeps (env : Env) (h : Host) (d : Device) (epId : EndpointID)
    (len : Int) : Returns (d.onInterruptCompleted env h epId len)
      fun r => Keeps h d r.2.1 r.1 := by
  refine .seq fun num => ?_
  split
  · exact .of_pure (.refl h d)
  · refine .seq fun c => .bind (HIDDriver.onInterruptCompleted_keeps env h c epId len)
      fun r hr => .of_pure (.of_epConfigs hr rfl)

end Device

namespace Xhci

namespace Pipes

/-! ## transfers -/

theorem control_keeps (transferType : BitVec 2) (dataIn statusIn : Bool) (h : Host) (p : Pipes)
    (epId : EndpointID) (sd : SetupData) (buf : BitVec 64) (len : Int) (issuer : Option Nat) :
    Returns (control transferType dataIn statusIn h p epId sd buf len issuer)
      fun r => r.2.2.lookups = h.lookups := by
  unfold control
  refine .ite (fun _ => .of_pure rfl) fun _ => .seq fun i => ?_
  simp only
  split
  · exact .of_pure rfl
  · exact .ite (fun _ => .seq fun _ => .seq fun _ => .seq fun _ =>
      .of_pure (Host.lookups_act_none rfl h))
      fun _ => .seq fun _ => .seq fun _ => .of_pure (Host.lookups_act_none rfl h)

theorem interruptIn_keeps (h : Host) (p : Pipes) (epId : EndpointID) (buf : BitVec 64)
    (len : Int) : Returns (interruptIn h p epId buf len) fun r => r.2.2.lookups = h.lookups := by
  refine .seq fun i => ?_
  simp only
  split
  · exact .of_pure rfl
  · exact .seq fun _ => .of_pure (Host.lookups_act_none rfl h)

theorem registered_epConfigs (d : Usb.Device) (t : Transfer) :
    (registered d t).epConfigs = d.epConfigs := by
  cases t with
  | controlIn epId sd buf len issuer => cases issuer <;> rfl
  | controlOut epId sd buf len issuer => cases issuer <;> rfl
  | interruptIn epId buf len => rfl

theorem run_keeps (h : Host) (p : Pipes) (t : Transfer) :
    Returns (p.run h t) fun r => Keeps h p.base r.2.2 r.2.1.base := by
  intro r hret
  have hlookups : r.2.2.lookups = h.lookups := by
    cases t with
    | controlIn epId sd buf len issuer => exact control_keeps _ _ _ _ _ _ _ _ _ _ r hret
    | controlOut epId sd buf len issuer => exact control_keeps _ _ _ _ _ _ _ _ _ _ r hret
    | interruptIn epId buf len => exact interruptIn_keeps h p epId buf len r hret
  refine .of_epConfigs hlookups ?_
  rw [(run_returns h p t r hret).2, registered_epConfigs]

theorem finish_keeps (h : Host) (p : Pipes) (o : Outcome) :
    Returns (p.finish h o) fun r => Keeps h p.base r.2.2 r.2.1.base := by
  cases o with
  | error e => exact .of_pure (.refl h p.base)
  | transfer t => exact run_keeps h p t

theorem report_keeps (env : Env) (h : Host) (p : Pipes) (c : Completion) :
    Returns (p.report env h c) fun r => Keeps h p.base r.2.2 r.2.1.base := by
  cases c with
  | error e => exact .of_pure (.refl h p.base)
  | interrupt epId len =>
      exact .bind (Usb.Device.onInterruptCompleted_keeps env h p.base epId len) fun r hr a ha =>
        hr.trans (finish_keeps _ _ _ a ha)
  | control epId sd buf len =>
      exact .bind (Usb.Device.onControlCompleted_keeps env h p.base sd buf len) fun r hr a ha =>
        hr.trans (finish_keeps _ _ _ a ha)

theorem completedTransfer_base (env : Env) (p : Pipes) (trb : Trb) :
    Returns (p.completedTransfer env trb) fun r => r.2.base = p.base := by
  unfold completedTransfer
  refine .ite (fun _ => .of_pure rfl) fun _ => .ite (fun _ => .of_pure rfl) fun _ => ?_
  split
  · exact .of_pure rfl
  · exact .ite (fun _ => .of_throw _) fun _ => .ite (fun _ => .of_pure rfl) fun _ =>
      .ite (fun _ => .of_pure rfl) fun _ => .of_pure rfl

/-- A transfer event looks up the name of its completion code. -/
theorem onTransferEventReceived_lookups (env : Env) (h : Host) (p : Pipes) (trb : Trb) :
    Returns (p.onTransferEventReceived env h trb) fun r =>
      r.2.2.lookups = h.lookups ++
          [.completionCodeName (TransferEventTRB.completionCode.get trb)] ∧
        (p.base.Numbered → r.2.1.base.Numbered) := by
  refine .bind (completedTransfer_base env p trb) fun c hc a ha => ?_
  have hkeeps := report_keeps env _ _ c.1 a ha
  rw [hc] at hkeeps
  exact ⟨hkeeps.lookups.trans (Host.lookups_act _ _), hkeeps.numbered⟩

theorem installRing_keeps (env : Env) {h : Host} (p : Pipes) (i bufSize : Nat)
    {a : BitVec 64 × Host} (hio : a.2.io = h.io) :
    Keeps h p.base (p.installRing env i bufSize a).2.2
      (p.installRing env i bufSize a).2.1.base := by
  unfold installRing
  split
  · exact .of_epConfigs (Host.lookups_of_io hio) rfl
  · generalize Ring.initializeRing env.pool a.2.allocPtr bufSize = r
    obtain ⟨_, ring, allocPtr⟩ := r
    exact .of_epConfigs (Host.lookups_of_io hio) rfl

theorem allocTransferRing_keeps (env : Env) (h : Host) (p : Pipes) (dci : Int) (bufSize : Nat) :
    Returns (p.allocTransferRing env h dci bufSize) fun r =>
      Keeps h p.base r.2.2 r.2.1.base :=
  .seq fun i => .of_pure (installRing_keeps env p i bufSize (Host.io_allocArray env h _ _ _ _))

theorem configureDrivers_keeps (h : Host) (p : Pipes) (n i : Nat) :
    Returns (p.configureDrivers h n i) fun r => Keeps h p.base r.2.2 r.2.1.base := by
  induction n generalizing h p i with
  | zero => exact .of_pure (.refl h p.base)
  | succ n ih =>
      unfold configureDrivers
      split
      · exact ih h p (i + 1)
      · refine .seq fun c => .bind (run_keeps _ _ _) fun r hr => ?_
        have hkeeps : Keeps h p.base r.2.2 r.2.1.base := ⟨hr.lookups, hr.numbered⟩
        exact .ite (fun _ a ha => hkeeps.trans (ih _ _ _ a ha)) fun _ => .of_pure hkeeps

end Pipes

/-- The endpoint numbers of all devices are indices of `class_drivers_`. -/
def DeviceManager.Numbered (m : DeviceManager) : Prop :=
  ∀ slotId dev, m.devices slotId = some dev → dev.pipes.base.Numbered

namespace DeviceManager

theorem Numbered.set {m : DeviceManager} (h : m.Numbered) (hdev : dev.pipes.base.Numbered) :
    (m.set slotId dev).Numbered := by
  intro slotId' dev' hat
  by_cases heq : slotId' = slotId
  · rw [heq, set_devices_self] at hat
    rw [← Option.some.inj hat]
    exact hdev
  · exact h slotId' dev' ((update_ne heq _ _).symm.trans hat)

/-- A new device has no endpoints yet. -/
theorem numbered_new (this : BitVec 64) (slotId dbreg : BitVec 8) :
    (Device.new this slotId dbreg).pipes.base.Numbered := by
  intro i
  show 0 ≤ EndpointID.none.number ∧ EndpointID.none.number < 16
  decide

theorem allocDevice_keeps (env : Env) (h : Host) (m : DeviceManager) (slotId dbreg : BitVec 8) :
    Returns (m.allocDevice env h slotId dbreg) fun r =>
      r.2.2.lookups = h.lookups ∧ (m.Numbered → r.2.1.Numbered) := by
  have hio := Host.io_allocArray env h Device.sizeofDevice 1 64#32 4096#32
  unfold allocDevice
  generalize h.allocArray env Device.sizeofDevice 1 64#32 4096#32 = a at hio ⊢
  refine .ite (fun _ => .of_pure ⟨rfl, id⟩) fun _ => ?_
  split
  · exact .of_pure ⟨rfl, id⟩
  · exact .ite (fun _ => .of_throw _) fun _ =>
      .of_pure ⟨Host.lookups_of_io hio, fun hm => hm.set (numbered_new _ _ _)⟩

theorem loadDCBAA_devices (m : DeviceManager) (slotId : BitVec 8) :
    Returns (m.loadDCBAA slotId) fun r => r.2.devices = m.devices := by
  unfold loadDCBAA
  refine .ite (fun _ => .of_pure rfl) fun _ => ?_
  split
  · exact .of_throw _
  · exact .of_pure rfl

end DeviceManager

namespace Controller

/-! ## the lookups of an event -/

/-- The accesses made while an event is handled. -/
inductive Lookups (env : Env) (s : Controller) (trb : Trb) : Lookup → Prop
  /-- `FindBySlot` -/
  | transferSlot (type : TRB.trbType.get trb = TransferEventTRB.type)
      (slot : (TransferEventTRB.slotId.get trb).toNat ≤ s.devmgr.maxSlots) :
      Lookups env s trb (.device (TransferEventTRB.slotId.get trb))
  /-- `Log(TransferEventTRB)` -/
  | completionCode (type : TRB.trbType.get trb = TransferEventTRB.type)
      (found : s.devmgr.findBySlot (TransferEventTRB.slotId.get trb) = some dev) :
      Lookups env s trb (.completionCodeName (TransferEventTRB.completionCode.get trb))
  /-- `Log(TransferEventTRB)`, and `OnTransferEventReceived` of a TRB that is not in the map -/
  | transferIssuer (type : TRB.trbType.get trb = TransferEventTRB.type)
      (found : s.devmgr.findBySlot (TransferEventTRB.slotId.get trb) = some dev) :
      Lookups env s trb
        (.trbTypeName (TRB.trbType.get (dev.pipes.trbAt env (TransferEventTRB.pointer trb))))
  /-- `OnInterruptCompleted` -/
  | interruptDriver (type : TRB.trbType.get trb = TransferEventTRB.type)
      (found : s.devmgr.findBySlot (TransferEventTRB.slotId.get trb) = some dev)
      (normal : TRB.trbType.get (dev.pipes.trbAt env (TransferEventTRB.pointer trb)) =
        NormalTRB.type) :
      Lookups env s trb
        (.classDriver (EndpointID.number ⟨(TransferEventTRB.endpointId.get trb).toNat⟩))
  /-- `InitializePhase2` of a descriptor -/
  | collectDriver (type : TRB.trbType.get trb = TransferEventTRB.type)
      (found : s.devmgr.findBySlot (TransferEventTRB.slotId.get trb) = some dev)
      (phase : dev.pipes.base.initializePhase = 2) (desc : BitVec 64) :
      Lookups env s trb (.classDriver (makeEPConfig env desc).epId.number)
  /-- `InitializePhase3` -/
  | serveDriver (type : TRB.trbType.get trb = TransferEventTRB.type)
      (found : s.devmgr.findBySlot (TransferEventTRB.slotId.get trb) = some dev)
      (phase : dev.pipes.base.initializePhase = 3) (few : i < dev.pipes.base.numEpConfigs) :
      Lookups env s trb (.classDriver (dev.pipes.base.epConfigs i).epId.number)
  /-- `ConfigureEndpoints` -/
  | initializedPort (type : TRB.trbType.get trb = TransferEventTRB.type)
      (found : s.devmgr.findBySlot (TransferEventTRB.slotId.get trb) = some dev)
      (phase : s.portConfigPhase (contextPort env (TransferEventTRB.slotId.get trb)) =
        .kInitializingDevice) :
      Lookups env s trb (.portRegisterSet (contextPort env (TransferEventTRB.slotId.get trb)))
  /-- `OnEvent(PortStatusChangeEventTRB)` -/
  | changedPort (type : TRB.trbType.get trb = PortStatusChangeEventTRB.type) :
      Lookups env s trb (.portRegisterSet (PortStatusChangeEventTRB.portId.get trb))
  /-- `OnEvent(CommandCompletionEventTRB)` -/
  | commandIssuer (type : TRB.trbType.get trb = CommandCompletionEventTRB.type) :
      Lookups env s trb (.trbTypeName (s.issuerType env trb))
  /-- `AllocDevice`, `FindBySlot` and `LoadDCBAA` -/
  | commandSlot (type : TRB.trbType.get trb = CommandCompletionEventTRB.type)
      (slot : (CommandCompletionEventTRB.slotId.get trb).toNat ≤ s.devmgr.maxSlots) :
      Lookups env s trb (.device (CommandCompletionEventTRB.slotId.get trb))
  /-- `AddressDevice` -/
  | enabledPort (type : TRB.trbType.get trb = CommandCompletionEventTRB.type)
      (phase : s.portConfigPhase s.addressingPort = .kEnablingSlot) :
      Lookups env s trb (.portRegisterSet s.addressingPort)
  /-- the port that starts over -/
  | resumedPort (type : TRB.trbType.get trb = CommandCompletionEventTRB.type)
      (first : s.firstWaiting = some port) : Lookups env s trb (.portRegisterSet port)

/-- What a call may look up, and that it leaves all endpoint numbers in
range. -/
structure Looks (p : Lookup → Prop) (s t : Controller) : Prop where
  lookups : ∃ ls, t.host.lookups = s.host.lookups ++ ls ∧ ∀ l ∈ ls, p l
  numbered : s.devmgr.Numbered → t.devmgr.Numbered

namespace Looks

variable {p : Lookup → Prop} {s t u : Controller}

theorem quiet (hlookups : t.host.lookups = s.host.lookups)
    (hnumbered : s.devmgr.Numbered → t.devmgr.Numbered) : Looks p s t :=
  ⟨⟨[], by rw [hlookups, List.append_nil], fun _ hl => absurd hl List.not_mem_nil⟩, hnumbered⟩

theorem refl (s : Controller) : Looks p s s := quiet rfl id

theorem trans (hfirst : Looks p s t) (hlast : Looks p t u) : Looks p s u := by
  obtain ⟨ls, hls, hp⟩ := hfirst.lookups
  obtain ⟨ls', hls', hp'⟩ := hlast.lookups
  refine ⟨⟨ls ++ ls', by rw [hls', hls, List.append_assoc], fun l hl => ?_⟩,
    fun hs => hlast.numbered (hfirst.numbered hs)⟩
  exact (List.mem_append.mp hl).elim (hp l) (hp' l)

/-- `PortAt`. -/
theorem portAt (hp : p (.portRegisterSet port)) (s : Controller) : Looks p s (s.portAt port) := by
  refine ⟨⟨[.portRegisterSet port], Host.lookups_act _ _, fun l hl => ?_⟩, id⟩
  rw [List.mem_singleton.mp hl]
  exact hp

/-- A device is written back. -/
theorem setDevice {dev : Device} (dev' : Device) {h : Host}
    (found : s.devmgr.findBySlot slotId = some dev)
    (hkeeps : Keeps s.host dev.pipes.base h dev'.pipes.base) :
    Looks p s (s.setDevice slotId dev' h) :=
  quiet hkeeps.lookups fun hs =>
    hs.set (hkeeps.numbered (hs slotId dev (DeviceManager.le_of_findBySlot found).2))

end Looks

/-! ## what the handlers look up -/

theorem pushCommand_looks {p : Lookup → Prop} (s : Controller) (port : BitVec 8) (cmd : Trb) :
    Returns (s.pushCommand port cmd) (Looks p s) := by
  intro t ret
  rw [pushCommand_ok ret]
  exact .quiet (Host.lookups_act_none rfl _) id

theorem resetPort_looks {p : Lookup → Prop} (env : Env) (s : Controller) (port : BitVec 8) :
    Returns (s.resetPort env port) fun r => Looks p s r.2 := by
  unfold resetPort
  refine .ite (fun _ => .of_pure (.refl s)) fun _ => .ite (fun _ => .of_pure (.quiet rfl id))
    fun _ => .ite (fun _ => .of_pure (.refl s)) fun _ => ?_
  intro r ret
  obtain ⟨h, hreset, hret⟩ := Returns.bind_eq_ok.mp ret
  obtain ⟨_, _, hact⟩ := Returns.bind_eq_ok.mp hreset
  cases Returns.pure_eq_ok.mp hact
  cases Returns.pure_eq_ok.mp hret
  exact .quiet (Host.lookups_act_none rfl _) id

theorem enableSlot_looks {p : Lookup → Prop} (env : Env) (s : Controller) (port : BitVec 8) :
    Returns (s.enableSlot env port) fun r => Looks p s r.2 := by
  unfold enableSlot
  refine .ite (fun _ => ?_) fun _ => .of_pure (.refl s)
  refine .bind (pushCommand_looks (p := p) _ _ _) fun t ht => .of_pure (Looks.trans ?_ ht)
  exact .quiet (Host.lookups_act_none rfl s.host) id

theorem addressSlot_looks {p : Lookup → Prop} (env : Env) (s : Controller)
    (port slotId : BitVec 8) (dev : Device) (found : s.devmgr.findBySlot slotId = some dev)
    (hp : p (.portRegisterSet port)) :
    Returns (s.addressSlot env port slotId dev) fun r => Looks p s r.2 := by
  unfold addressSlot
  refine .bind (Pipes.allocTransferRing_keeps env _ dev.pipes 1 32) fun r hr => ?_
  obtain ⟨tr, pipes, h⟩ := r
  cases tr with
  | none => exact .of_throw _
  | some tr =>
      refine .bind (DeviceManager.loadDCBAA_devices _ slotId) fun m hm => ?_
      refine .bind (pushCommand_looks (p := p) _ _ _) fun t ht => .of_pure (Looks.trans ?_ ht)
      have hwritten := Looks.setDevice (p := p) (s := s.portAt port)
        { dev with inputCtx := addressInput env port dev.inputCtx tr, pipes := pipes }
        found ⟨hr.lookups, hr.numbered⟩
      refine (Looks.portAt hp s).trans (hwritten.trans (.quiet rfl fun hs slot' dev' hat => ?_))
      exact hs slot' dev' (hm ▸ hat)

theorem addressDevice_looks {p : Lookup → Prop} (env : Env) (s : Controller)
    (port slotId : BitVec 8) (hp : p (.portRegisterSet port)) :
    Returns (s.addressDevice env port slotId) fun r => Looks p s r.2 := by
  unfold addressDevice
  refine .bind (DeviceManager.allocDevice_keeps env s.host s.devmgr slotId slotId) fun r hr => ?_
  obtain ⟨_, m, h⟩ := r
  have hquiet : Looks p s { s with devmgr := m, host := h } := .quiet hr.1 hr.2
  simp only
  split
  · exact .of_pure hquiet
  · next dev found => exact fun a ha => hquiet.trans (addressSlot_looks env _ _ _ dev found hp a ha)

theorem initializeDevice_looks {p : Lookup → Prop} (s : Controller) (port slotId : BitVec 8) :
    Returns (s.initializeDevice port slotId) fun r => Looks p s r.2 := by
  unfold initializeDevice
  split
  · exact .of_pure (.refl s)
  · next dev found =>
    refine .bind (Pipes.run_keeps s.host { dev.pipes with base := dev.pipes.base.startInitialize.1 }
      dev.pipes.base.startInitialize.2) fun r hr => .of_pure ?_
    have hphase : Looks p s (s.setPhase port .kInitializingDevice) := .quiet rfl id
    exact hphase.trans
      (.setDevice { dev with pipes := r.2.1 } found ⟨hr.lookups, hr.numbered⟩)

theorem completeConfiguration_looks {p : Lookup → Prop} (s : Controller)
    (port slotId : BitVec 8) :
    Returns (s.completeConfiguration port slotId) fun r => Looks p s r.2 := by
  unfold completeConfiguration
  split
  · exact .of_pure (.refl s)
  · next dev found =>
    refine .bind (Pipes.configureDrivers_keeps _ _ _ _) fun r hr => .of_pure ?_
    exact (Looks.setDevice { dev with pipes := r.2.1 } found hr).trans (.quiet rfl id)

theorem configureEach_keeps (env : Env) (portSpeed : BitVec 4) (h : Host) (dev : Device)
    (n i : Nat) : Returns (configureEach env portSpeed h dev n i)
      fun r => Keeps h dev.pipes.base r.2 r.1.pipes.base := by
  induction n generalizing h dev i with
  | zero => exact .of_pure (.refl h _)
  | succ n ih =>
      refine .seq fun k => .seq fun d => ?_
      refine .bind (Pipes.allocTransferRing_keeps env h dev.pipes _ 32) fun r hr => ?_
      obtain ⟨tr, pipes, h'⟩ := r
      cases tr with
      | none => exact .of_throw _
      | some tr => exact fun a ha => hr.trans (ih _ _ _ a ha)

theorem configureEndpoints_looks {p : Lookup → Prop} (env : Env) (s : Controller)
    (slotId : BitVec 8) (dev : Device) (found : s.devmgr.findBySlot slotId = some dev)
    (hp : p (.portRegisterSet (contextPort env slotId))) :
    Returns (s.configureEndpoints env slotId dev) fun r => Looks p s r.2 := by
  unfold configureEndpoints
  refine .ite (fun _ => .of_pure ?_) fun _ => ?_
  · exact (Looks.portAt hp s).trans
      (.setDevice (s := s.portAt _) _ found ⟨rfl, id⟩)
  · refine .bind (configureEach_keeps env _ _ _ _ _) fun r hr => ?_
    refine .bind (pushCommand_looks (p := p) _ _ _) fun t ht => .of_pure (Looks.trans ?_ ht)
    exact (Looks.portAt hp s).trans ((Looks.setDevice (s := s.portAt _) r.1 found
      ⟨hr.lookups, hr.numbered⟩).trans (.quiet rfl id))

theorem onTransferEvent_looks {env : Env} {s : Controller} {trb : Trb}
    (type : TRB.trbType.get trb = TransferEventTRB.type) :
    Returns (s.onTransferEvent env trb) fun r => Looks (Lookups env s trb) s r.2 := by
  unfold onTransferEvent
  simp only
  split
  · exact .of_pure (.refl s)
  · next dev found =>
    refine .bind (Pipes.onTransferEventReceived_lookups env s.host dev.pipes trb) fun r hr => ?_
    obtain ⟨err, pipes, h⟩ := r
    have hfirst : Looks (Lookups env s trb) s
        (s.setDevice (TransferEventTRB.slotId.get trb) { dev with pipes := pipes } h) := by
      refine ⟨⟨_, hr.1, fun l hl => ?_⟩, fun hs => ?_⟩
      · rw [List.mem_singleton.mp hl]
        exact .completionCode type found
      · exact hs.set (hr.2 (hs _ dev (DeviceManager.le_of_findBySlot found).2))
    refine .ite (fun _ => .of_pure hfirst) fun _ => .ite (fun hphase => ?_)
      fun _ => .of_pure hfirst
    intro a ha
    have hslot := (DeviceManager.le_of_findBySlot found).1
    exact hfirst.trans (configureEndpoints_looks env _ _ _ (DeviceManager.findBySlot_set hslot _)
      (.initializedPort type found hphase.2) a ha)

theorem onPortStatusChange_looks {env : Env} {s : Controller} {trb : Trb}
    (type : TRB.trbType.get trb = PortStatusChangeEventTRB.type) :
    Returns (s.onPortStatusChange env trb) fun r => Looks (Lookups env s trb) s r.2 := by
  have hport : Looks (Lookups env s trb) s (s.portAt (PortStatusChangeEventTRB.portId.get trb)) :=
    .portAt (.changedPort type) s
  unfold onPortStatusChange
  simp only
  split
  · exact fun a ha => hport.trans (resetPort_looks env _ _ a ha)
  · exact fun a ha => hport.trans (enableSlot_looks env _ _ a ha)
  · exact .of_pure hport

theorem resumeWaiting_looks {p : Lookup → Prop} (env : Env) (s : Controller)
    (hp : ∀ port, s.firstWaiting = some port → p (.portRegisterSet port)) :
    Returns (s.resumeWaiting env) fun r => Looks p s r.2 := by
  unfold resumeWaiting
  split
  · exact .of_pure (.refl s)
  · next port first =>
    exact fun a ha => (Looks.portAt (hp port first) s).trans (resetPort_looks env _ _ a ha)

theorem onCommandCompletion_looks {env : Env} {s : Controller} {trb : Trb}
    (type : TRB.trbType.get trb = CommandCompletionEventTRB.type) :
    Returns (s.onCommandCompletion env trb) fun r => Looks (Lookups env s trb) s r.2 := by
  unfold onCommandCompletion
  refine .ite (fun _ => ?_) fun _ => .ite (fun _ => ?_) fun _ => .ite (fun _ => ?_)
    fun _ => .of_pure (.refl s)
  · refine .ite (fun _ => .of_pure (.refl s)) fun hphase => ?_
    exact addressDevice_looks env s _ _ (.enabledPort type (Decidable.not_not.mp hphase))
  · split
    · exact .of_pure (.refl s)
    · refine .ite (fun _ => .of_pure (.refl s)) fun _ => .ite (fun _ => .of_pure (.refl s))
        fun _ => ?_
      have hfree : Looks (Lookups env s trb) s { s with addressingPort := 0#8 } := .quiet rfl id
      refine .bind (resumeWaiting_looks (p := Lookups env s trb) env
        { s with addressingPort := 0#8 } fun port first => .resumedPort type first) fun r hr => ?_
      exact .ite (fun _ => .of_pure (hfree.trans hr)) fun _ a ha =>
        (hfree.trans hr).trans (initializeDevice_looks _ _ _ a ha)
  · split
    · exact .of_pure (.refl s)
    · exact .ite (fun _ => .of_pure (.refl s)) fun _ => completeConfiguration_looks s _ _

/-- **What an event puts on record is among its lookups.** -/
theorem onEvent_looks (env : Env) (s : Controller) (trb : Trb) :
    Returns (s.onEvent env trb) fun r => Looks (Lookups env s trb) s r.2 := by
  unfold onEvent
  exact .ite (fun type => onTransferEvent_looks type) fun _ =>
    .ite (fun type => onPortStatusChange_looks type) fun _ =>
    .ite (fun type => onCommandCompletion_looks type) fun _ => .of_pure (.refl s)

end Controller

end Xhci

end MikanOs.Usb
