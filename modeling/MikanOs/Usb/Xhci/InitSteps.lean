import MikanOs.Usb.Xhci.EndpointTable
import MikanOs.Usb.Xhci.Lookups
import MikanOs.Usb.Xhci.PoolExhaustion
import MikanOs.Usb.Xhci.TransferCalls

/-!
# MikanOs.Usb.Xhci.InitSteps

The initialization of a device, forward: a device that waits for the answer to
one of its requests takes it, and makes the next.  `MikanOs.Usb.Xhci.InitRun`
says what the phases are worth whatever comes in; here it is said what has to
come in for a device to get from one to the next.
-/

namespace MikanOs.Usb

open Descriptor

/-! ## a configuration in memory -/

/-- A buffer holds a configuration descriptor with a supported interface and
the endpoints `eps`, at most 16 of them and endpoint 0 not among them. -/
structure Offers (env : Env) (buf : BitVec 64) (len : Int) (eps : List (BitVec 64)) : Prop where
  type : byte env buf 1 = kConfiguration
  accepts : ∃ skipped ifDesc rest r,
    Reads env ⟨buf, len, buf⟩ (skipped ++ ifDesc :: rest) r ∧
      (∀ q ∈ skipped, ¬ Supported env q) ∧ Supported env ifDesc ∧ eps = endpointsOf env rest ∧
      eps.length = (byte env ifDesc 4).toNat ∧
      (skipped ++ ifDesc :: rest).length < env.steps
  few : eps.length ≤ 16
  indices : ∀ q ∈ eps, endpointNumber env q ≠ 0

/-- The request for a class driver. -/
def driverRequest : Request := Host.arrayRequest HIDDriver.sizeofDriver 1 0#32 0#32

theorem driverRequest_valid : driverRequest.Valid := ⟨by decide, .inl rfl, .inl rfl⟩

namespace Device

theorem allocated_ne_zero {env : Env} {h : Host} (cursor : CursorOk env.pool h.allocPtr)
    {rs : List Request} (room : HasRoom env.pool h.allocPtr (driverRequest :: rs)) :
    (allocated env h).1 ≠ 0#64 := by
  unfold allocated
  rw [Host.allocArray_eq]
  exact ((Host.hasRoom_cons driverRequest_valid cursor rs).mp room).1

theorem fresh_driverFor (env : Env) (this ifDesc : BitVec 64) :
    Fresh (driverFor env this ifDesc) := by
  unfold driverFor
  dsimp only
  generalize (if byte env ifDesc 7 = 1#8 then env.keyObserver else env.mouseObserver) = observed
  cases observed with
  | false => exact ⟨_, _, _, 0, rfl⟩
  | true => exact ⟨_, _, _, 1, rfl⟩

/-- `InitializePhase2` of such a configuration. -/
theorem Offers.initializePhase2 {env : Env} {buf : BitVec 64} {len : Int} {eps : List (BitVec 64)}
    (h : Offers env buf len eps) (d : Device) (host : Host) (hbuf : buf ≠ 0#64)
    (room : (allocated env host).1 ≠ 0#64) : ∃ c, Fresh c ∧
      d.initializePhase2 env host buf len =
        .ok ({ d.adopt env c eps with initializePhase := 3 }, (allocated env host).2,
          .transfer (setConfiguration kDefaultControlPipeID (byte env buf 5))) := by
  obtain ⟨skipped, ifDesc, rest, r, hreads, hskip, hif, rfl, hlength, hsteps⟩ := h.accepts
  rw [List.length_append, List.length_cons] at hsteps
  have hfew := h.few
  obtain ⟨r₁, hrest, hfind⟩ := findInterface_of_supported (n := env.steps) host d hreads hskip hif
    (by omega) (by omega)
  have hcollect : collectEndpoints env d.drivers.length (byte env ifDesc 4).toNat env.steps r₁
      (d.withDriver env host ifDesc) = .ok _ :=
    collectEndpoints_of_reads hrest hlength ((Nat.zero_add _).symm ▸ hfew) (by omega)
  refine ⟨driverFor env (allocated env host).1 ifDesc, fresh_driverFor env _ ifDesc, ?_⟩
  rw [initializePhase2_eq hbuf h.type, hfind, if_neg room, hcollect]
  rfl

end Device

end MikanOs.Usb

namespace MikanOs.Usb.Xhci

open Usb.Device Descriptor

/-! ## one request at a time -/

namespace ControlRun

variable {p : Pipes} {o : Outstanding} {trb : Trb}

/-- The base class object has no part in it. -/
theorem Consistent.withBase {os : List Outstanding} (h : Consistent ⟨p, os⟩) (d : Usb.Device) :
    Consistent ⟨{ p with base := d }, os⟩ :=
  step_consistent _ _ h (.other ⟨p, os⟩ _ rfl rfl)

/-- A device that waits for nothing makes a request. -/
theorem Consistent.ask (h : Consistent ⟨p, []⟩) {q : ControlRequest} (sized : q.Sized)
    (issuerless : q.issuer = none) (host : Host) :
    ∃ p' h' o, q.call host p = .ok (.kSuccess, p', h') ∧ o.request = q ∧
      Consistent ⟨p', [o]⟩ ∧ p'.base = p.base := by
  obtain ⟨tr, taken, items, hinv⟩ := h
  have hcall := call_eq q host hinv.ring hinv.placed.nonnull hinv.index_lt
  refine ⟨_, _, .issued q tr, hcall, rfl, ?_, ?_⟩
  · exact ⟨_, _, _, hinv.call (Nat.zero_lt_succ 9) sized hcall⟩
  · rw [issuerless]
    rfl

/-- The event for the one entry of the map completes the request. -/
theorem Consistent.reports (h : Consistent ⟨p, [o]⟩)
    (code : Succeeded (TransferEventTRB.completionCode.get trb))
    (pending : p.setupStageMap.get (TransferEventTRB.pointer trb) ≠ none) : o.Reports trb := by
  obtain ⟨tr, taken, items, hinv⟩ := h
  have hlen := o.request.length_stages
  have hkey : TransferEventTRB.pointer trb ∈ p.setupStageMap.live.map Prod.fst :=
    Decidable.byContradiction fun hnot => pending (ArrayMap.get_eq_none hnot)
  rw [(hinv.map.map Prod.fst).mem_iff] at hkey
  have hpointer : TransferEventTRB.pointer trb = o.entry.1 := List.mem_singleton.mp hkey
  have hlocated := hinv.located.1
  refine ⟨code, 1, o.request.reportStage, rfl, ?_, ?_⟩
  · unfold ControlRequest.reportStage
    split
    · decide
    · exact BitField.get_put _ _ _
  · have haddr : o.addrs[1]? = some (tr.entry ((taken + 1) % 31)) := by
      rw [hlocated, List.getElem?_map, List.getElem?_range (by omega)]
      rfl
    rw [hpointer, Outstanding.entry, haddr, List.getD_eq_getElem?_getD, haddr]
    rfl

/-- It is reported to the base class, and the device waits for nothing. -/
theorem Consistent.completed (h : Consistent ⟨p, [o]⟩)
    (code : Succeeded (TransferEventTRB.completionCode.get trb))
    (pending : p.setupStageMap.get (TransferEventTRB.pointer trb) ≠ none) (env : Env)
    (host : Host) : ∃ p', Consistent ⟨p', []⟩ ∧ p'.base = p.base ∧
      p.onTransferEventReceived env host trb = p'.report env
        (host.act (.completionCodeName (TransferEventTRB.completionCode.get trb)))
        (o.completion trb) := by
  have hreports := h.reports code pending
  obtain ⟨p', hcompleted, _, hreport, _⟩ := h.roundTrip.reports o [] env host trb rfl hreports
  refine ⟨p', ?_, Pipes.completedTransfer_base env p trb _ hcompleted, hreport⟩
  exact step_consistent _ _ h (.complete ⟨p, [o]⟩ o [] env trb rfl hreports hcompleted)

end ControlRun

/-! ## the requests of an initialization -/

/-- `GetDescriptor` with a whole buffer to fill. -/
def getDescriptorRequest (d : Usb.Device) (type : BitVec 8) : ControlRequest where
  dirIn := true
  setupData :=
    { requestType := RequestType.new RequestType.kIn RequestType.kStandard RequestType.kDevice
      request := Request.kGetDescriptor
      value := (type.setWidth 16 <<< 8) ||| (0#8).setWidth 16
      index := 0#16
      length := BitVec.ofNat 16 bufSize }
  buf := d.buf
  len := bufSize
  issuer := none

/-- `SetConfiguration`. -/
def setConfigurationRequest (configValue : BitVec 8) : ControlRequest where
  dirIn := false
  setupData :=
    { requestType := RequestType.new RequestType.kOut RequestType.kStandard RequestType.kDevice
      request := Request.kSetConfiguration
      value := configValue.setWidth 16
      index := 0#16
      length := 0#16 }
  buf := 0#64
  len := 0
  issuer := none

theorem run_getDescriptor (h : Host) (p : Pipes) (d : Usb.Device) (type : BitVec 8) :
    p.run h (getDescriptor kDefaultControlPipeID type 0#8 d.buf bufSize) =
      (getDescriptorRequest d type).call h p := by
  simp only [Pipes.run, getDescriptor, ControlRequest.call, getDescriptorRequest, if_true]

theorem run_setConfiguration (h : Host) (p : Pipes) (configValue : BitVec 8) :
    p.run h (setConfiguration kDefaultControlPipeID configValue) =
      (setConfigurationRequest configValue).call h p := by
  simp only [Pipes.run, setConfiguration, ControlRequest.call, setConfigurationRequest,
    Bool.false_eq_true, if_false]

/-- A device in a phase of its initialization, with its one request
outstanding. -/
structure Asked (n : Nat) (q : ControlRequest) (p : Pipes) : Prop where
  outstanding : ∃ o, o.request = q ∧ ControlRun.Consistent ⟨p, [o]⟩
  starting : p.base.isInitialized = false
  phase : p.base.initializePhase = n

/-- An event that completes the request a device waits for. -/
structure Answer (p : Pipes) (trb : Trb) : Prop where
  code : Succeeded (TransferEventTRB.completionCode.get trb)
  pending : p.setupStageMap.get (TransferEventTRB.pointer trb) ≠ none

/-- The name of its completion code is looked up. -/
def noticed (host : Host) (trb : Trb) : Host :=
  host.act (.completionCodeName (TransferEventTRB.completionCode.get trb))

/-- How much of its buffer an event says has been filled. -/
def ControlRequest.filled (q : ControlRequest) (trb : Trb) : Int :=
  if q.buf = 0#64 then 0 else q.len - (TransferEventTRB.trbTransferLength.get trb).toNat

namespace Asked

variable {n : Nat} {q : ControlRequest} {p : Pipes} {trb : Trb} {env : Env} {host h' : Host}
  {d : Usb.Device} {out : Outcome}

/-- The base class is told, and what it ends with is carried out by a device
that waits for nothing. -/
theorem answered (h : Asked n q p) (answer : Answer p trb)
    (done : p.base.onControlCompleted env (noticed host trb) q.setupData q.buf (q.filled trb) =
      .ok (d, h', out)) :
    ∃ p', ControlRun.Consistent ⟨p', []⟩ ∧ p'.base = d ∧
      p.onTransferEventReceived env host trb = Pipes.finish h' p' out := by
  obtain ⟨o, rfl, hrun⟩ := h.outstanding
  obtain ⟨p₁, hrun₁, hbase, hreport⟩ := hrun.completed answer.code answer.pending env host
  rw [← hbase] at done
  refine ⟨{ p₁ with base := d }, hrun₁.withBase d, rfl, ?_⟩
  rw [hreport]
  exact Returns.bind_ok done _

/-- And if that is the next request, it makes it. -/
theorem next (h : Asked n q p) (answer : Answer p trb)
    (done : p.base.onControlCompleted env (noticed host trb) q.setupData q.buf (q.filled trb) =
      .ok (d, h', .transfer t)) {q' : ControlRequest} (sized : q'.Sized)
    (issuerless : q'.issuer = none) (made : ∀ h p, Pipes.run h p t = q'.call h p)
    (starting : d.isInitialized = false) :
    ∃ p' h'', p.onTransferEventReceived env host trb = .ok (.kSuccess, p', h'') ∧
      Asked d.initializePhase q' p' ∧ p'.base = d := by
  obtain ⟨p₁, hrun, hbase, hret⟩ := h.answered answer done
  obtain ⟨p', h'', o, hcall, hreq, hrun', hbase'⟩ := hrun.ask sized issuerless h'
  have hd : p'.base = d := hbase'.trans hbase
  refine ⟨p', h'', ?_, ⟨⟨o, hreq, hrun'⟩, hd ▸ starting, hd ▸ rfl⟩, hd⟩
  rw [hret]
  exact (made h' p₁).trans hcall

end Asked

theorem sized_getDescriptorRequest (d : Usb.Device) (type : BitVec 8) :
    (getDescriptorRequest d type).Sized :=
  ⟨show (0 : Int) ≤ bufSize by decide, show (bufSize : Int) < 2 ^ 17 by decide⟩

theorem sized_setConfigurationRequest (configValue : BitVec 8) :
    (setConfigurationRequest configValue).Sized :=
  ⟨Int.le_refl 0, show (0 : Int) < 2 ^ 17 by decide⟩

/-! ## from one phase to the next -/

variable {p : Pipes} {trb : Trb} {env : Env}

/-- `StartInitialize` asks for the device descriptor. -/
theorem startInitialize_asks (h : ControlRun.Consistent ⟨p, []⟩) (host : Host) :
    ∃ p' h', p.startInitialize host = .ok (.kSuccess, p', h') ∧
      Asked 1 (getDescriptorRequest p.base kDevice) p' ∧ p'.base = p.base.startInitialize.1 := by
  obtain ⟨p', h', o, hcall, hreq, hrun, hbase⟩ := (h.withBase p.base.startInitialize.1).ask
    (sized_getDescriptorRequest p.base kDevice) rfl host
  rw [← run_getDescriptor] at hcall
  exact ⟨p', h', hcall, ⟨⟨o, hreq, hrun⟩, hbase ▸ rfl, hbase ▸ rfl⟩, hbase⟩

/-- With the device descriptor it asks for the configuration descriptor. -/
theorem Asked.device (h : Asked 1 (getDescriptorRequest p.base kDevice) p) (answer : Answer p trb)
    (hbuf : p.base.buf ≠ 0#64) (type : byte env p.base.buf 1 = kDevice) (host : Host) :
    ∃ p' h', p.onTransferEventReceived env host trb = .ok (.kSuccess, p', h') ∧
      Asked 2 (getDescriptorRequest p.base kConfiguration) p' ∧
      p'.base = (p.base.initializePhase1 env p.base.buf).1 := by
  have hdone : p.base.onControlCompleted env (noticed host trb)
      (getDescriptorRequest p.base kDevice).setupData p.base.buf
      ((getDescriptorRequest p.base kDevice).filled trb) =
      .ok ((p.base.initializePhase1 env p.base.buf).1, noticed host trb,
        .transfer (p.base.initializePhase1 env p.base.buf).2) := by
    unfold Usb.Device.onControlCompleted
    rw [h.starting, h.phase]
    simp only [getDescriptorRequest, hasType_of_ne hbuf, type, if_true, Bool.false_eq_true,
      if_false, bind, Except.bind, decide_true, pure, Except.pure]
  exact h.next answer hdone (sized_getDescriptorRequest p.base kConfiguration) rfl
    (fun h p' => run_getDescriptor h p' p.base kConfiguration) h.starting

/-- With a configuration descriptor it sets a configuration. -/
theorem Asked.configuration (h : Asked 2 (getDescriptorRequest p.base kConfiguration) p)
    (answer : Answer p trb) (hbuf : p.base.buf ≠ 0#64) {eps : List (BitVec 64)}
    (offers : Offers env p.base.buf
      ((getDescriptorRequest p.base kConfiguration).filled trb) eps) {host : Host}
    (cursor : CursorOk env.pool host.allocPtr) {rs : List Request}
    (room : HasRoom env.pool host.allocPtr (driverRequest :: rs)) :
    ∃ p' h' c, p.onTransferEventReceived env host trb = .ok (.kSuccess, p', h') ∧
      Asked 3 (setConfigurationRequest (byte env p.base.buf 5)) p' ∧ Fresh c ∧
      p'.base = { p.base.adopt env c eps with initializePhase := 3 } := by
  have hroom := allocated_ne_zero (h := noticed host trb) cursor room
  obtain ⟨c, hfresh, hphase⟩ := Offers.initializePhase2 offers p.base _ hbuf hroom
  have hdone : p.base.onControlCompleted env (noticed host trb)
      (getDescriptorRequest p.base kConfiguration).setupData p.base.buf
      ((getDescriptorRequest p.base kConfiguration).filled trb) =
      .ok ({ p.base.adopt env c eps with initializePhase := 3 },
        (allocated env (noticed host trb)).2,
        .transfer (setConfiguration kDefaultControlPipeID (byte env p.base.buf 5))) := by
    unfold Usb.Device.onControlCompleted
    rw [h.starting, h.phase]
    simp only [getDescriptorRequest, hasType_of_ne hbuf, offers.type, if_true, if_false,
      Bool.false_eq_true, bind, Except.bind, decide_true, Nat.reduceEqDiff]
    exact hphase
  obtain ⟨p', h', hret, hasked, hbase⟩ := h.next answer hdone
    (sized_setConfigurationRequest (byte env p.base.buf 5)) rfl
    (fun h p' => run_setConfiguration h p' _)
    ((InitRun.adopt_frame env p.base c eps).2.trans h.starting)
  exact ⟨p', h', c, hret, hasked, hfresh, hbase⟩

/-- When it is set, the class driver gets its endpoints, and the device is
initialized. -/
theorem Asked.setting {value : BitVec 8} (h : Asked 3 (setConfigurationRequest value) p)
    (answer : Answer p trb) {env' : Env} {eps : List (BitVec 64)} {c : HIDDriver}
    (served : p.base.Served (eps.map (makeEPConfig env')) c) (env : Env) (host : Host) :
    ∃ p' h', p.onTransferEventReceived env host trb = .ok (.kSuccess, p', h') ∧
      ControlRun.Consistent ⟨p', []⟩ ∧ p'.base.isInitialized = true ∧ h'.allocPtr = host.allocPtr ∧
      p'.base.Served (eps.map (makeEPConfig env'))
        ((eps.map (makeEPConfig env')).foldl HIDDriver.setEndpoint c) := by
  have hdriven : ∀ j, 0 ≤ j → j < 0 + p.base.numEpConfigs → ∃ num k,
      checked 16 (p.base.epConfigs j).epId.number = .ok num ∧
        p.base.classDrivers num = some k := by
    intro j _ hj
    obtain ⟨num, k, hnum, hk, _⟩ := served.entriesOk.driven j (by omega)
    exact ⟨num, k, hnum, hk⟩
  obtain ⟨d, hset, _⟩ := setEndpoints_returns (Nat.zero_add _ ▸ served.entriesOk.few) hdriven
  have hdone : p.base.onControlCompleted env (noticed host trb)
      (setConfigurationRequest value).setupData 0#64 0 =
      .ok ({ d with initializePhase := 4, isInitialized := true }, noticed host trb,
        .error .kSuccess) := by
    unfold Usb.Device.onControlCompleted Usb.Device.initializePhase3
    rw [h.starting, h.phase]
    simp only [setConfigurationRequest, hset, if_true, if_false, Bool.false_eq_true, bind,
      Except.bind, pure, Except.pure, Nat.reduceEqDiff]
  obtain ⟨p', hrun, hbase, hret⟩ := h.answered answer hdone
  refine ⟨p', _, hret, hrun, by rw [hbase], rfl, ?_⟩
  rw [hbase]
  exact served.setEndpoints hset 4 true

/-- The default control pipe of a device that makes requests has a ring. -/
theorem ControlRun.Consistent.buffered {os : List Outstanding}
    (h : ControlRun.Consistent ⟨p, os⟩) : Buffered p.transferRings 1 := by
  obtain ⟨tr, _, _, hinv⟩ := h
  exact ⟨0, tr, rfl, hinv.ring, hinv.placed.nonnull⟩

/-! ## the class driver -/

theorem Buffered.controlled {epId : EndpointID} {rings rings' : Rings} {dci : Int}
    (h : Buffered rings dci) (pushed : Controlled epId rings rings') : Buffered rings' dci := by
  cases pushed with
  | none => exact h
  | pushed i tr ts _ ring buffer _ =>
      obtain ⟨d, tr', hd, hring, hbuffer⟩ := h
      by_cases hi : d = i
      · exact ⟨d, (tr.pushAll ts).2, hd, hi ▸ update_self rings i _, by rwa [Ring.pushAll_buf]⟩
      · exact ⟨d, tr', hd, (update_ne hi rings _).trans hring, hbuffer⟩

/-- A class driver is started as many times as it is listed, on a device whose
default control pipe has a ring. -/
theorem startEach_replicate {c : HIDDriver} (one : p.base.drivers = [c])
    (pipe : Buffered p.transferRings 1) (n : Nat) (h : Host) :
    ∃ p' h', p.startEach h (List.replicate n 0) = .ok (.kSuccess, p', h') ∧
      p'.base.drivers = [if n = 0 then c else c.started] ∧
      p'.base.isInitialized = p.base.isInitialized ∧ p'.base.configs = p.base.configs ∧
      ∀ dci, Buffered p.transferRings dci → Buffered p'.transferRings dci := by
  induction n generalizing p c h with
  | zero => exact ⟨p, h, rfl, one, rfl, rfl, fun _ hdci => hdci⟩
  | succ n ih =>
      have hdriver : p.base.driverAt 0 = .ok c := by
        rw [Usb.Device.driverAt, one]
        rfl
      obtain ⟨d, tr, hd, hring, hbuffer⟩ := id pipe
      obtain rfl : 0 = d := (checked_eq_ok.mp hd).2
      obtain ⟨p₁, hret, hbase⟩ := Pipes.control_ok
        (p := { p with base := { p.base with drivers := p.base.drivers.set 0 c.started } })
        hring hbuffer SetupStageTRB.kOutDataStage false true h c.setProtocol 0#64 0 (some 0)
      have hpushed := Pipes.control_controlled _ _ _ _ _ _ _ _ _ _ _ hret
      have hone : p₁.base.drivers = [c.started] := by
        rw [hbase, one]
        rfl
      obtain ⟨p', h', hrest, hdrivers, hready, hconfigs, hrings⟩ :=
        ih hone (pipe.controlled hpushed) (h.act (.doorbell p.dbreg 1#8))
      refine ⟨p', h', ?_, ?_, ?_, ?_, fun dci hdci => hrings dci (hdci.controlled hpushed)⟩
      · rw [List.replicate_succ]
        simp only [Pipes.startEach, hdriver, HIDDriver.onEndpointsConfigured_eq, Pipes.run,
          Pipes.controlOut, hret, bind, Except.bind, if_true]
        exact hrest
      · rw [hdrivers, if_neg (Nat.succ_ne_zero n)]
        exact congrArg (fun c' => [c']) (ite_self c.started)
      · rw [hready, hbase]
        rfl
      · rw [hconfigs, hbase]
        rfl

/-- What is left of a device whose class driver has been started. -/
structure Running (p p' : Pipes) : Prop where
  /-- with an endpoint to serve it has made its first request -/
  driver : ∃ c, p'.base.drivers = [c] ∧ (p'.base.configs ≠ [] → c.initializePhase = 1)
  ready : p'.base.isInitialized = p.base.isInitialized
  configs : p'.base.configs = p.base.configs
  rings : ∀ dci, Buffered p.transferRings dci → Buffered p'.transferRings dci

/-- `OnEndpointsConfigured` starts the class driver of a device. -/
theorem onEndpointsConfigured_served {eps : List (BitVec 64)} {c : HIDDriver}
    (served : p.base.Served (eps.map (makeEPConfig env)) c) (pipe : Buffered p.transferRings 1)
    (h : Host) : ∃ p' h', p.onEndpointsConfigured h = .ok (.kSuccess, p', h') ∧ Running p p' := by
  obtain ⟨p', h', hret, hdrivers, hready, hconfigs, hrings⟩ :=
    startEach_replicate served.drivers pipe (Pipes.starts p.base).length h
  refine ⟨p', h', ?_, ⟨_, hdrivers, fun hsome => ?_⟩, hready, hconfigs, hrings⟩
  · rw [Pipes.onEndpointsConfigured_eq, InitRun.starts_eq_replicate served]
    exact hret
  · rw [hconfigs, served.listed] at hsome
    obtain ⟨config, hmem⟩ := List.exists_mem_of_ne_nil _ hsome
    obtain ⟨q, _, hq⟩ := List.mem_map.mp hmem
    have hnumber : config.epId.number.toNat < 16 := by
      have hlt := endpointNumber_lt env q
      rw [← hq, number_makeEPConfig]
      omega
    have hstarted : 0 ∈ Pipes.starts p.base :=
      Pipes.mem_starts.mpr ⟨_, hnumber, served.registered hmem⟩
    rw [if_neg (by rw [List.length_eq_zero_iff]; exact List.ne_nil_of_mem hstarted)]
    rfl

end MikanOs.Usb.Xhci
