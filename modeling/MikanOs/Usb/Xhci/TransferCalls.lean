import MikanOs.Usb.Xhci.FailedTransfer
import MikanOs.Usb.Xhci.RingLayout

/-!
# MikanOs.Usb.Xhci.TransferCalls

What the calls on a device do to its transfer rings: a control request pushes
its TRBs to the ring of the default control pipe, an interrupt transfer pushes
one Normal TRB to the ring of its endpoint, and a transfer event does what the
base class answers it with (`Received`).

Each call is inverted once; what a run keeps of the rings is read off these
lemmas.
-/

namespace MikanOs.Usb.Xhci

open Relation Usb.Device

/-! ## what a call pushes -/

/-- A TRB that is not a Normal TRB. -/
def NotNormal (t : Trb) : Prop := TRB.trbType.get t ≠ NormalTRB.type

instance (t : Trb) : Decidable (NotNormal t) := inferInstanceAs (Decidable (_ ≠ _))

/-- The rings after a control transfer on an endpoint: as before, or with TRBs
pushed to the endpoint's ring, none of them a Normal TRB. -/
inductive Controlled (epId : EndpointID) (rings : Rings) : Rings → Prop
  | none : Controlled epId rings rings
  | pushed (i : Nat) (tr : Ring) (ts : List Trb) (index : checked 31 (epId.addr - 1) = .ok i)
      (ring : rings i = some tr) (buffer : tr.buf ≠ 0#64) (types : ∀ t ∈ ts, NotNormal t) :
      Controlled epId rings (update rings i (some (tr.pushAll ts).2))

/-- `MakeDataStageTRB` with its interrupt. -/
theorem notNormal_data (buf : BitVec 64) (len : Int) (dirIn : Bool) :
    NotNormal (DataStageTRB.interruptOnCompletion.put (makeDataStageTRB buf len dirIn) 1#1) := by
  have htype : TRB.trbType.get (DataStageTRB.interruptOnCompletion.put
      (makeDataStageTRB buf len dirIn) 1#1) = DataStageTRB.type := by
    simp (disch := decide) only [makeDataStageTRB, DataStageTRB.new, TRB.ofType,
      BitField.get_put_of_disjoint, BitField.get_put]
  rw [NotNormal, htype]
  decide

theorem notNormal_setup (sd : SetupData) (transferType : BitVec 2) :
    NotNormal (makeSetupStageTRB sd transferType) := by
  rw [NotNormal, ControlRequest.type_makeSetupStageTRB]
  decide

theorem notNormal_status (direction : BitVec 1) :
    NotNormal (StatusStageTRB.direction.put StatusStageTRB.new direction) := by
  revert direction
  decide

theorem tryPush_returns (tr : Ring) (t : Trb) :
    Returns (tr.tryPush t) fun r => tr.buf ≠ 0#64 ∧ r = tr.push t := by
  unfold Ring.tryPush
  exact .ite (fun _ => .of_throw _) fun buffer => .of_pure ⟨buffer, rfl⟩

namespace Pipes

/-- **A control transfer** touches the ring of its endpoint only. -/
theorem control_controlled (transferType : BitVec 2) (dataIn statusIn : Bool) (h : Host) (p : Pipes)
    (epId : EndpointID) (sd : SetupData) (buf : BitVec 64) (len : Int) (issuer : Option Nat) :
    Returns (control transferType dataIn statusIn h p epId sd buf len issuer)
      fun r => Controlled epId p.transferRings r.2.1.transferRings := by
  unfold control
  refine .ite (fun _ => .of_pure .none) fun _ => ?_
  have hchecked : Returns (checked 31 (epId.addr - 1))
      fun i => checked 31 (epId.addr - 1) = .ok i := fun i hi => hi
  refine .bind hchecked fun i hi => ?_
  cases ring : p.transferRings i with
  | none =>
      exact .of_pure .none
  | some tr =>
      refine .ite (fun _ => ?_) fun _ => ?_
      · refine .bind (tryPush_returns _ _) fun r₁ h₁ => ?_
        refine .bind (tryPush_returns _ _) fun r₂ h₂ => ?_
        refine .bind (tryPush_returns _ _) fun r₃ h₃ => .of_pure ?_
        obtain ⟨hbuf, rfl⟩ := h₁
        obtain ⟨_, rfl⟩ := h₂
        obtain ⟨_, rfl⟩ := h₃
        refine .pushed i tr [_, _, _] hi ring hbuf ?_
        simp only [List.forall_mem_cons, List.not_mem_nil, false_imp_iff, implies_true, and_true]
        exact ⟨notNormal_setup _ _, notNormal_data _ _ _, notNormal_status _⟩
      · refine .bind (tryPush_returns _ _) fun r₁ h₁ => ?_
        refine .bind (tryPush_returns _ _) fun r₂ h₂ => .of_pure ?_
        obtain ⟨hbuf, rfl⟩ := h₁
        obtain ⟨_, rfl⟩ := h₂
        refine .pushed i tr [_, _] hi ring hbuf ?_
        simp only [List.forall_mem_cons, List.not_mem_nil, false_imp_iff, implies_true, and_true]
        exact ⟨notNormal_setup _ _, by decide⟩

theorem finish_controlIn {h h' : Host} {p p' : Pipes} {e : Error} {epId : EndpointID}
    {sd : SetupData} {buf : BitVec 64} {len : Int} {issuer : Option Nat}
    (ret : finish h p (.transfer (.controlIn epId sd buf len issuer)) = .ok (e, p', h')) :
    Controlled epId p.transferRings p'.transferRings :=
  control_controlled SetupStageTRB.kInDataStage true false h p epId sd buf len issuer _ ret

theorem finish_controlOut {h h' : Host} {p p' : Pipes} {e : Error} {epId : EndpointID}
    {sd : SetupData} {buf : BitVec 64} {len : Int} {issuer : Option Nat}
    (ret : finish h p (.transfer (.controlOut epId sd buf len issuer)) = .ok (e, p', h')) :
    Controlled epId p.transferRings p'.transferRings :=
  control_controlled SetupStageTRB.kOutDataStage false true h p epId sd buf len issuer _ ret

/-- The TRB of an interrupt transfer. -/
def normalTRB (buf : BitVec 64) (len : Int) : Trb :=
  NormalTRB.interruptOnCompletion.put (NormalTRB.interruptOnShortPacket.put
    (NormalTRB.trbTransferLength.put (NormalTRB.dataBufferPointer.put NormalTRB.new buf)
      (BitVec.ofInt 17 len)) 1#1) 1#1

theorem get_normalTRB (buf : BitVec 64) (len : Int) :
    TRB.trbType.get (normalTRB buf len) = NormalTRB.type ∧
      NormalTRB.dataBufferPointer.get (normalTRB buf len) = buf := by
  simp (disch := decide) only [normalTRB, NormalTRB.new, TRB.ofType,
    BitField.get_put_of_disjoint, BitField.get_put, and_self]

/-- **An interrupt transfer** pushes one Normal TRB to the ring of its
endpoint. -/
theorem interruptIn_ok {h h' : Host} {p p' : Pipes} {epId : EndpointID} {buf : BitVec 64}
    {len : Int} {e : Error} (ret : p.interruptIn h epId buf len = .ok (e, p', h')) :
    ∃ i, checked 31 (epId.addr - 1) = .ok i ∧ ((p.transferRings i = none ∧ p' = p) ∨
      ∃ tr, p.transferRings i = some tr ∧ tr.buf ≠ 0#64 ∧
        p' = { p with
          transferRings := update p.transferRings i (some (tr.push (normalTRB buf len)).2) }) := by
  obtain ⟨i, hi, hrest⟩ := Returns.bind_eq_ok.mp ret
  refine ⟨i, hi, ?_⟩
  cases ring : p.transferRings i with
  | none =>
      simp only [ring] at hrest
      cases Returns.pure_eq_ok.mp hrest
      exact .inl ⟨rfl, rfl⟩
  | some tr =>
      simp only [ring] at hrest
      obtain ⟨r, hpush, hret⟩ := Returns.bind_eq_ok.mp hrest
      obtain ⟨buffer, rfl⟩ := tryPush_returns _ _ _ hpush
      cases Returns.pure_eq_ok.mp hret
      exact .inr ⟨tr, rfl, buffer, rfl⟩

end Pipes

/-! ## the ring of the default control pipe -/

/-- The rings lie apart, and that of the default control pipe carries no Normal
TRB. -/
structure Tidy (cursor : BitVec 64) (rings : Rings) : Prop where
  laid : Laid cursor rings
  room : 512 ≤ cursor.toNat
  control : ∀ tr, rings 0 = some tr → tr.Lacks NormalTRB.type

namespace Tidy

variable {cursor : BitVec 64} {rings rings' : Rings}

/-- A control transfer leaves the other rings alone. -/
theorem controlled (h : Tidy cursor rings) (hpush : Controlled kDefaultControlPipeID rings rings') :
    Tidy cursor rings' ∧ ∀ i ≠ 0, rings' i = rings i := by
  cases hpush with
  | none => exact ⟨h, fun _ _ => rfl⟩
  | pushed i tr ts index ring buffer types =>
      obtain rfl : 0 = i := (checked_eq_ok.mp index).2
      refine ⟨⟨h.laid.push ring (tr.pushAll_buf ts) (tr.pushAll_bufSize ts), h.room,
        fun tr' htr' => ?_⟩, fun i hi => update_ne hi _ _⟩
      rw [update_self] at htr'
      obtain rfl := Option.some.inj htr'
      exact (h.control tr ring).pushAll types (by decide)

/-- So does a TRB on another ring. -/
theorem push (h : Tidy cursor rings) {n : Nat} {tr : Ring} (hn : n ≠ 0) (ring : rings n = some tr)
    (t : Trb) : Tidy cursor (update rings n (some (tr.push t).2)) where
  laid := h.laid.push ring (tr.push_buf t) (tr.push_bufSize t)
  room := h.room
  control tr' htr' := h.control tr' (by rwa [update_ne hn.symm] at htr')

/-- What the default control pipe completes is no interrupt transfer. -/
theorem notNormal_entry {p : Pipes} (h : Tidy cursor p.transferRings) {tr : Ring}
    (ring : p.transferRings 0 = some tr) {k : Nat} (hk : k < 32) (env : Env) :
    NotNormal (p.trbAt env (tr.entry k)) := by
  have hself := tr.trbAt_entry_of_bufSize (h.laid.bufSize 0 tr ring) hk
  have hfirst : p.trbAt env (tr.entry k) = tr.trbs k := by
    simp [Pipes.trbAt, List.range_succ_eq_map, ring, hself]
  rw [hfirst]
  exact h.control tr ring k

end Tidy

/-! ## transfer events -/

instance (code : BitVec 8) : Decidable (Succeeded code) := inferInstanceAs (Decidable (_ ∨ _))

namespace Pipes

/-- What a transfer event does to a device, by the TRB it points at. -/
inductive Received (env : Env) (h : Host) (p : Pipes) (trb : Trb) : Pipes → Prop
  | failed (failed : ¬ Succeeded (TransferEventTRB.completionCode.get trb)) :
      Received env h p trb p
  | refused (succeeded : Succeeded (TransferEventTRB.completionCode.get trb))
      (type : NotNormal (p.trbAt env (TransferEventTRB.pointer trb)))
      (map : ArrayMap (BitVec 64) (BitVec 64) 16) :
      Received env h p trb { p with setupStageMap := map }
  | interrupt (succeeded : Succeeded (TransferEventTRB.completionCode.get trb))
      (type : ¬ NotNormal (p.trbAt env (TransferEventTRB.pointer trb))) (h₁ h₂ h' : Host)
      (len : Int) (d : Usb.Device) (o : Outcome) (e : Error)
      (completed : p.base.onInterruptCompleted env h₁
        ⟨(TransferEventTRB.endpointId.get trb).toNat⟩ len = .ok (d, h₂, o))
      (carried : finish h₂ { p with base := d } o = .ok (e, p', h')) :
      Received env h p trb p'
  | control (succeeded : Succeeded (TransferEventTRB.completionCode.get trb))
      (type : NotNormal (p.trbAt env (TransferEventTRB.pointer trb))) (h₁ h₂ h' : Host)
      (map : ArrayMap (BitVec 64) (BitVec 64) 16) (sd : SetupData) (buf : BitVec 64) (len : Int)
      (d : Usb.Device) (o : Outcome) (e : Error)
      (completed : p.base.onControlCompleted env h₁ sd buf len = .ok (d, h₂, o))
      (carried : finish h₂ { p with base := d, setupStageMap := map } o = .ok (e, p', h')) :
      Received env h p trb p'

theorem onTransferEventReceived_received {env : Env} {h h' : Host} {p p' : Pipes} {trb : Trb}
    {e : Error} (ret : p.onTransferEventReceived env h trb = .ok (e, p', h')) :
    Received env h p trb p' := by
  by_cases hcode : Succeeded (TransferEventTRB.completionCode.get trb)
  · obtain ⟨⟨c, p₁⟩, hcompleted, hreport⟩ := Returns.bind_eq_ok.mp ret
    unfold completedTransfer at hcompleted
    simp only [ControlRun.code_ok hcode, if_false] at hcompleted
    split at hcompleted
    · next htype =>
      cases Returns.pure_eq_ok.mp hcompleted
      obtain ⟨⟨d, h₂, o⟩, hdone, hcarried⟩ := Returns.bind_eq_ok.mp hreport
      exact .interrupt hcode (not_not_intro htype) _ h₂ h' _ d o e hdone hcarried
    · next htype =>
      split at hcompleted
      · cases Returns.pure_eq_ok.mp hcompleted
        cases Returns.pure_eq_ok.mp hreport
        exact .refused hcode htype p.setupStageMap
      · split at hcompleted
        · exact absurd hcompleted Returns.throw_ne_ok
        · split at hcompleted
          · cases Returns.pure_eq_ok.mp hcompleted
            obtain ⟨⟨d, h₂, o⟩, hdone, hcarried⟩ := Returns.bind_eq_ok.mp hreport
            exact .control hcode htype _ h₂ h' _ _ _ _ d o e hdone hcarried
          · split at hcompleted
            · cases Returns.pure_eq_ok.mp hcompleted
              obtain ⟨⟨d, h₂, o⟩, hdone, hcarried⟩ := Returns.bind_eq_ok.mp hreport
              exact .control hcode htype _ h₂ h' _ _ _ _ d o e hdone hcarried
            · cases Returns.pure_eq_ok.mp hcompleted
              cases Returns.pure_eq_ok.mp hreport
              exact .refused hcode htype _
  · rw [FailingRun.onTransferEventReceived_failed hcode] at ret
    cases Returns.pure_eq_ok.mp ret
    exact .failed hcode

variable {env : Env} {h : Host} {p p' : Pipes} {trb : Trb} {c : HIDDriver}

/-- A control completion on an initialized device with one class driver: nothing
happens, or it is the one the driver has waited for. -/
theorem Received.control_ready (received : Received env h p trb p')
    (type : NotNormal (p.trbAt env (TransferEventTRB.pointer trb)))
    (ready : p.base.isInitialized = true) (drivers : p.base.drivers = [c]) :
    (p'.base = p.base ∧ p'.transferRings = p.transferRings) ∨
      (c.initializePhase = 1 ∧ ∃ (p₁ : Pipes) (h₁ h₂ : Host) (e : Error),
        p₁.base = { p.base with drivers := [{ c with initializePhase := 2 }] } ∧
          p₁.transferRings = p.transferRings ∧
          p₁.interruptIn h₁ c.epInterruptIn c.buf c.inPacketSize = .ok (e, p', h₂)) := by
  cases received with
  | failed => exact .inl ⟨rfl, rfl⟩
  | refused => exact .inl ⟨rfl, rfl⟩
  | interrupt _ normal => exact absurd type normal
  | control _ _ h₁ h₂ h' map sd buf len d o e completed carried =>
      rcases (onControlCompleted_completed completed).of_ready ready with
        ⟨rfl, rfl⟩ | ⟨driver, c', waiter, found, rfl, rfl⟩
      · rw [(InitRun.finish_error carried).2]
        exact .inl ⟨rfl, rfl⟩
      · obtain ⟨rfl, rfl⟩ := eq_of_only drivers found
        by_cases hphase : c.initializePhase = 1
        · rw [HIDDriver.onControlCompleted, if_pos hphase, drivers] at carried
          let d := { p.base with drivers := [{ c with initializePhase := 2 }] }
          exact .inr ⟨hphase, { p with base := d, setupStageMap := map }, h₂, h', e, rfl, rfl,
            carried⟩
        · rw [HIDDriver.onControlCompleted, if_neg hphase, drivers] at carried
          rw [(InitRun.finish_error carried).2]
          refine .inl ⟨?_, rfl⟩
          show { p.base with drivers := [c] } = p.base
          rw [← drivers]

/-- A report from an interrupt-IN endpoint of a class driver, which asks for the
next one. -/
theorem Received.interrupt_ready (received : Received env h p trb p')
    (succeeded : Succeeded (TransferEventTRB.completionCode.get trb))
    (type : ¬ NotNormal (p.trbAt env (TransferEventTRB.pointer trb)))
    (drivers : p.base.drivers = [c])
    (endpoint : ((TransferEventTRB.endpointId.get trb).toNat : Int) = c.epInterruptIn.addr)
    (isIn : c.epInterruptIn.isIn = true)
    (registered : p.base.classDrivers c.epInterruptIn.number.toNat = some 0) :
    ∃ (c' : HIDDriver) (p₁ : Pipes) (h₁ h₂ : Host) (e : Error),
      c' = { c with previousBuf := c'.previousBuf } ∧
        p₁.base = { p.base with drivers := [c'] } ∧ p₁.transferRings = p.transferRings ∧
        p₁.interruptIn h₁ c.epInterruptIn c.buf c.inPacketSize = .ok (e, p', h₂) := by
  cases received with
  | failed failed => exact absurd succeeded failed
  | refused _ other => exact absurd other type
  | control _ other => exact absurd other type
  | interrupt _ _ h₁ h₂ h' len d o e completed carried =>
      have hep : (⟨(TransferEventTRB.endpointId.get trb).toNat⟩ : EndpointID) = c.epInterruptIn :=
        congrArg EndpointID.mk endpoint
      rw [hep] at completed
      obtain ⟨num, hnum, hrest⟩ := Returns.bind_eq_ok.mp completed
      obtain rfl := (checked_eq_ok.mp hnum).2
      rw [registered] at hrest
      obtain ⟨c₀, hc₀, hcall⟩ := Returns.bind_eq_ok.mp hrest
      obtain ⟨_, rfl⟩ := eq_of_only drivers (driverAt_ok hc₀)
      obtain ⟨⟨c', h₃, o'⟩, hdone, hret⟩ := Returns.bind_eq_ok.mp hcall
      unfold HIDDriver.onInterruptCompleted at hdone
      rw [if_pos isIn] at hdone
      split at hdone
      · cases Returns.pure_eq_ok.mp hdone
        cases Returns.pure_eq_ok.mp hret
        rw [drivers] at carried
        let received (i : Nat) : BitVec 8 :=
          if (i : Int) < len then c.buffer env i else c.previousBuf i
        let c' := { c with previousBuf := received }
        exact ⟨c', { p with base := { p.base with drivers := [c'] } }, _, _, _, rfl, rfl, rfl,
          carried⟩
      · exact absurd hdone Returns.throw_ne_ok

/-- A control completion on a device that is being initialized. -/
theorem Received.control_starting {this : BitVec 64} {r : InitRun}
    (hrun : ReflTransGen InitRun.Step (InitRun.start (Usb.Device.new this)) r)
    (device : r.device = p.base) (received : Received env h p trb p')
    (type : NotNormal (p.trbAt env (TransferEventTRB.pointer trb))) :
    (∃ r', ReflTransGen InitRun.Step (InitRun.start (Usb.Device.new this)) r' ∧
      r'.device = p'.base) ∧
      Controlled kDefaultControlPipeID p.transferRings p'.transferRings := by
  cases received with
  | failed => exact ⟨⟨r, hrun, device⟩, .none⟩
  | refused => exact ⟨⟨r, hrun, device⟩, .none⟩
  | interrupt _ normal => exact absurd type normal
  | control _ _ h₁ h₂ h' map sd buf len d o e completed carried =>
      have hcall := InitRun.Call.mk (s := r) { p with setupStageMap := map } p' h₁ h₂ h' sd len d e
        (by rw [device]; exact completed) carried
      refine ⟨⟨_, hrun.tail ⟨buf, env, o, e, hcall⟩, rfl⟩, ?_⟩
      have hrefused : ∀ e₀, o = .error e₀ → Controlled kDefaultControlPipeID p.transferRings
          p'.transferRings := by
        rintro e₀ rfl
        rw [(InitRun.finish_error carried).2]
        exact .none
      cases onControlCompleted_completed completed with
      | noWaiter => exact hrefused _ rfl
      | forwarded _ driver c' waiter found =>
          rw [← device, (InitRun.tables hrun).get_eq_none] at waiter
          contradiction
      | outOfPhase => exact hrefused _ rfl
      | noPhase => exact hrefused _ rfl
      | gotDevice =>
          have hpush := finish_controlIn carried
          exact hpush
      | unsupported => exact hrefused _ rfl
      | configuring =>
          have hpush := finish_controlOut carried
          exact hpush
      | configured => exact hrefused _ rfl

/-- A class driver keeps its endpoint, whatever is reported. -/
theorem Received.uses {epId : EndpointID} {classDrivers : Nat → Option Nat}
    (received : Received env h p trb p') (uses : Uses epId classDrivers p.base) :
    Uses epId classDrivers p'.base := by
  cases received with
  | failed => exact uses
  | refused => exact uses
  | interrupt _ _ h₁ h₂ h' len d o e completed carried =>
      exact uses.serve (.reported (.interrupt _ len completed) carried)
  | control _ _ h₁ h₂ h' map sd buf len d o e completed carried =>
      have hserve : Serve { p with setupStageMap := map } p' :=
        .reported (.control sd buf len completed) carried
      exact Uses.serve (p := { p with setupStageMap := map }) uses hserve

end Pipes

/-! ## the start of the class drivers -/

/-- The SET_PROTOCOL requests of the class driver go to the default control
pipe. -/
theorem Pipes.startEach_started {p p' : Pipes} {h h' : Host} {e : Error} {c : HIDDriver}
    {cursor : BitVec 64} {drivers : List Nat} (one : p.base.drivers = [c])
    (tidy : Tidy cursor p.transferRings) (ret : p.startEach h drivers = .ok (e, p', h')) :
    (∃ c', (c' = c ∨ c' = c.started) ∧ p'.base = { p.base with
        drivers := [c'], eventWaiters := p'.base.eventWaiters }) ∧
      Tidy cursor p'.transferRings ∧ ∀ i ≠ 0, p'.transferRings i = p.transferRings i := by
  induction drivers generalizing p h c with
  | nil =>
      cases Returns.pure_eq_ok.mp ret
      exact ⟨⟨c, .inl rfl, by rw [← one]⟩, tidy, fun _ _ => rfl⟩
  | cons driver rest ih =>
      obtain ⟨c₀, hc, hrest⟩ := Returns.bind_eq_ok.mp ret
      obtain ⟨⟨e₁, p₁, h₁⟩, hrun, hnext⟩ := Returns.bind_eq_ok.mp hrest
      obtain ⟨rfl, rfl⟩ := eq_of_only one (driverAt_ok hc)
      have hbase := (run_returns _ _ _ _ hrun).2
      have hpush := finish_controlOut hrun
      obtain ⟨htidy, hrings⟩ := tidy.controlled hpush
      simp only [one] at hbase
      simp only at hnext
      have hone : p₁.base.drivers = [c.started] := by
        rw [hbase]
        rfl
      have hfirst : p₁.base = { p.base with
          drivers := [c.started], eventWaiters := p₁.base.eventWaiters } := by
        rw [hbase]
        rfl
      split at hnext
      · obtain ⟨⟨c', hc', hlast⟩, htidy', hrings'⟩ := ih hone htidy hnext
        refine ⟨⟨c', .inr (hc'.elim id id), ?_⟩, htidy', fun i hi =>
          (hrings' i hi).trans (hrings i hi)⟩
        rw [hlast, hfirst]
      · cases Returns.pure_eq_ok.mp hnext
        exact ⟨⟨c.started, .inr rfl, hfirst⟩, htidy, hrings⟩

end MikanOs.Usb.Xhci
