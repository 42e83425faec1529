import MikanOs.Usb.Xhci.InterruptRun
import MikanOs.Usb.Xhci.PoolRoom

/-!
# MikanOs.Usb.Xhci.InterruptPipe

The interrupt transfers of a HID device.  A class driver asks for the first
one when its SET_PROTOCOL request has been completed, and for the next one
with each report.

`oneArmed` says that this keeps exactly one such transfer going, unless the
descriptors of the device put its interrupt-IN endpoint on the default control
pipe.
-/

namespace MikanOs.Usb.Xhci

open Relation Usb.Device

namespace PipeRun

variable {pool : MemoryPool} {this : BitVec 64} {s t : PipeRun}

/-! ## the invariant -/

/-- The interrupt-IN endpoint of a class driver is one of the device's, if it
has got any. -/
def Listed (configs : List EndpointConfig) (c : HIDDriver) : Prop :=
  (∃ config ∈ configs, config.epId.isIn = true ∧ c.epInterruptIn = config.epId) ∨
    c.epInterruptIn = EndpointID.none

/-- What holds in every reachable state, by the stage of the bring-up. -/
inductive Inv (this : BitVec 64) (s : PipeRun) : Prop
  | addressed (stage : s.stage = .addressed) (tidy : Tidy s.cursor s.rings) (unused : s.Unused 0)
      (fresh : s.taken 0 = 0 ∧ ∀ tr, s.rings 0 = some tr → tr.Blank)
      (base : s.base = Usb.Device.new this)
  | initializing (stage : s.stage = .initializing) (tidy : Tidy s.cursor s.rings)
      (unused : s.Unused 0) (r : InitRun)
      (run : ReflTransGen InitRun.Step (InitRun.start (Usb.Device.new this)) r)
      (device : r.device = s.base)
  | configured (stage : s.stage = .configured) (tidy : Tidy s.cursor s.rings) (unused : s.Unused 0)
      (ready : s.base.isInitialized = true) (c : HIDDriver)
      (served : s.base.Served s.base.configs c) (listed : Listed s.base.configs c)
      (rings : ∀ config ∈ s.base.configs, ∃ i tr, checked 31 (config.epId.addr - 1) = .ok i ∧
        s.rings i = some tr)
  | serving (stage : s.stage = .running) (n : Nat) (c : HIDDriver) (tr : Ring) (items : List Trb)
      (serving : Serving s n c tr items)
  | silent (stage : s.stage = .running) (c : HIDDriver) (silent : Silent s c)
  | misplaced (stage : s.stage = .running) (classDrivers : Nat → Option Nat)
      (uses : Pipes.Uses kDefaultControlPipeID classDrivers s.base)

theorem allocArray_device (env : Env) (h : Host) :
    h.allocArray env Device.sizeofDevice 1 64#32 4096#32 =
      h.grant (deviceRequest.serve env.pool h.allocPtr) := rfl

theorem inv_addressed (h : Addressed pool this s) : Inv this s := by
  obtain ⟨env, host, h₁, h', slotId, dbreg, tr, p, rfl, cursor, device, made, ring⟩ := h
  rw [allocArray_device] at device
  obtain ⟨hok, _, hblock⟩ := serve_cursor deviceRequest_valid cursor
  generalize deviceRequest.serve env.pool host.allocPtr = a at device hok hblock
  have hthis : a.1 = this := by rw [← host.grant_fst a, device]
  have hcursor : a.2 = h₁.allocPtr := by rw [← host.grant_allocPtr a, device]
  rw [hthis, hcursor] at hblock
  rw [hcursor] at hok
  obtain ⟨_, hstop⟩ := hblock made
  have hsize : deviceRequest.size.toNat = 3520 := by decide
  have granted := granted_of_allocTransferRing hok ring
  have hle := granted.le
  obtain ⟨tr', h'', hsame⟩ := Controller.allocTransferRing_ok env h₁
    (Device.new this slotId dbreg).pipes 32 (show checked 31 (1 - 1) = .ok 0 from rfl)
  rw [hsame] at ring
  obtain ⟨rfl, hrest⟩ := Prod.mk.inj (Except.ok.inj ring)
  obtain ⟨rfl, rfl⟩ := Prod.mk.inj hrest
  have laid := (Laid.none h₁.allocPtr).install granted (Nat.le_refl _) (by omega) 0
  have hroom : 512 ≤ h''.allocPtr.toNat := by omega
  refine .addressed rfl ⟨laid, hroom, fun tr' htr' => ?_⟩ (fun i hi _ => ⟨rfl, fun tr' htr' => ?_⟩)
    ⟨rfl, fun tr' htr' => ?_⟩ rfl
  · obtain rfl : tr = tr' := Option.some.inj htr'
    exact granted.blank.lacks (by decide)
  · have hnone : none = some tr' := (update_ne hi (fun _ => none) (some tr)).symm.trans htr'
    exact nomatch hnone
  · obtain rfl : tr = tr' := Option.some.inj htr'
    exact granted.blank

/-! ## steps -/

/-- `InitializeDevice`. -/
theorem Inv.startInitialize {h h' : Host} {p : Pipes} {e : Error} (hinv : Inv this s)
    (stage : s.stage = .addressed) (ret : s.dev.pipes.startInitialize h = .ok (e, p, h')) :
    Inv this { s.after p with stage := .initializing } := by
  cases hinv with
  | addressed _ tidy unused fresh base =>
      have hrun : Pipes.run h { s.dev.pipes with base := s.base.startInitialize.1 }
          s.base.startInitialize.2 = .ok (e, p, h') := ret
      have hbase := (Pipes.run_returns _ _ _ _ hrun).2
      have hpush := Pipes.finish_controlIn hrun
      obtain ⟨htidy, hrings⟩ := tidy.controlled hpush
      refine .initializing rfl htidy (fun i hi hn => ?_) (InitRun.start (Usb.Device.new this)) .refl
        ?_
      · obtain ⟨htaken, hblank⟩ := unused i hi hn
        refine ⟨htaken, fun tr htr => hblank tr ?_⟩
        rw [← hrings i hi]
        exact htr
      · rw [← base]
        exact hbase.symm
  | initializing stage' | configured stage' | serving stage' | silent stage' | misplaced stage' =>
      exact absurd (stage.symm.trans stage') (by decide)

/-- A transfer event. -/
theorem Inv.event {env : Env} {h h' : Host} {p : Pipes} {e : Error} {tr : Ring} {trb : Trb}
    {i k : Nat} (hinv : Inv this s) (completes : s.Completes tr trb i k)
    (ret : s.dev.pipes.onTransferEventReceived env h trb = .ok (e, p, h')) :
    Inv this (s.complete p trb i k) := by
  have received := Pipes.onTransferEventReceived_received ret
  cases hinv with
  | addressed _ _ unused fresh =>
      by_cases hi : i = 0
      · subst hi
        have hflight := completes.inFlight
        rw [fresh.1] at hflight
        exact absurd hflight ((fresh.2 tr completes.ring).holds.not_inFlight (Nat.zero_le _))
      · exact absurd completes (unused.not_completes hi hi)
  | initializing stage tidy unused r run device =>
      obtain rfl : i = 0 :=
        Decidable.byContradiction fun hi => unused.not_completes hi hi completes
      obtain ⟨⟨r', run', device'⟩, hpush⟩ :=
        received.control_starting run device (completes.notNormal tidy env)
      obtain ⟨htidy, hrings⟩ := tidy.controlled hpush
      exact .initializing stage htidy (unused.complete (.inl rfl) fun j hj _ => hrings j hj) r' run'
        device'
  | configured stage tidy unused ready c served listed rings =>
      obtain rfl : i = 0 :=
        Decidable.byContradiction fun hi => unused.not_completes hi hi completes
      rcases received.control_ready (completes.notNormal tidy env) ready served.drivers with
        ⟨hbase, hrings⟩ | ⟨hphase, _⟩
      · have hnow : (s.complete p trb 0 k).rings = s.rings := hrings
        have hdev : (s.complete p trb 0 k).base = s.base := hbase
        exact .configured stage (hnow ▸ tidy)
          (unused.complete (.inl rfl) fun j _ _ => congrFun hrings j) (hdev ▸ ready) c
          (hdev ▸ served) (hdev ▸ listed) (hdev ▸ hnow ▸ rings)
      · rw [served.idle] at hphase
        contradiction
  | serving stage n c tr' items serving =>
      obtain ⟨c', tr'', items', hserving⟩ := serving.event completes received
      exact .serving stage n c' tr'' items' hserving
  | silent stage c silent => exact .silent stage c (silent.event completes received)
  | misplaced stage classDrivers uses =>
      exact .misplaced stage classDrivers (received.uses uses)

/-- `ConfigureEndpoints`. -/
theorem Inv.configureEndpoints {env : Env} {h h' : Host} {speed : BitVec 4} {input : InputContext}
    {dev : Device} (hinv : Inv this s) (stage : s.stage = .initializing)
    (ready : s.base.isInitialized = true) (cursor : CursorOk env.pool h.allocPtr)
    (later : s.cursor.toNat ≤ h.allocPtr.toNat)
    (ret : Controller.configureEach env speed h { s.dev with inputCtx := input }
      s.base.numEpConfigs 0 = .ok (dev, h')) : Inv this (s.configure dev h') := by
  cases hinv with
  | initializing _ tidy unused r run device =>
      have hroom := tidy.room
      obtain ⟨hbase, hle, hlaid, hconfigured⟩ :=
        configureEach_configured { s.dev with inputCtx := input } tidy.laid cursor later
          (by omega) ret
      rw [← List.range_eq_range'] at hconfigured
      rw [← device] at ready
      obtain ⟨a, ifDesc, eps, one, accepts, hconfigs⟩ := InitRun.accepted_of_initialized run ready
      obtain ⟨c, fresh, served⟩ := InitRun.served_of_initialized run ready one accepts
      rw [hconfigs, device] at served
      rw [device] at ready
      have hdev : (s.configure dev h').base = s.base := hbase
      refine .configured rfl ⟨hlaid, by show 512 ≤ h'.allocPtr.toNat; omega, fun tr htr => ?_⟩
        (fun i hi hn => ?_) (hdev ▸ ready) _ (hdev ▸ served) ?_ ?_
      · rcases hconfigured.rest 0 with hkeep | ⟨tr', htr', hblank⟩
        · exact tidy.control tr (hkeep.symm.trans htr)
        · obtain rfl := Option.some.inj (htr'.symm.trans htr)
          exact hblank.lacks (by decide)
      · obtain ⟨htaken, hold⟩ := unused i hi hn
        refine ⟨?_, fun tr htr => ?_⟩
        · show (if _ then 0 else s.taken i) = 0
          rw [htaken, ite_self]
        · rcases hconfigured.rest i with hkeep | ⟨tr', htr', hblank⟩
          · exact hold tr (hkeep.symm.trans htr)
          · obtain rfl := Option.some.inj (htr'.symm.trans htr)
            exact hblank
      · rw [hdev]
        rcases HIDDriver.foldl_setEndpoint_epInterruptIn s.base.configs c with
          ⟨config, hmem, hin, heq⟩ | ⟨_, hkeep⟩
        · exact .inl ⟨config, hmem, hin.2, heq⟩
        · exact .inr (hkeep.trans fresh.idle.2)
      · rw [hdev]
        intro config hmem
        obtain ⟨i, tr, hi, htr, _⟩ := hconfigured.new config hmem
        exact ⟨i, tr, hi, htr⟩
  | addressed stage' | configured stage' | serving stage' | silent stage' | misplaced stage' =>
      exact absurd (stage.symm.trans stage') (by decide)

/-- `CompleteConfiguration`. -/
theorem Inv.completeConfiguration {h h' : Host} {p : Pipes} {e : Error} (hinv : Inv this s)
    (stage : s.stage = .configured) (ret : s.dev.pipes.onEndpointsConfigured h = .ok (e, p, h')) :
    Inv this { s.after p with stage := .running } := by
  cases hinv with
  | configured _ tidy unused ready c served listed rings =>
      rw [Pipes.onEndpointsConfigured_eq] at ret
      obtain ⟨⟨c', hstarted, hbase⟩, htidy, hrings⟩ :=
        Pipes.startEach_started served.drivers tidy ret
      have hep : c'.epInterruptIn = c.epInterruptIn := by rcases hstarted with rfl | rfl <;> rfl
      have hearly : c'.initializePhase ≠ 2 := by
        rcases hstarted with rfl | rfl
        · rw [served.idle]
          decide
        · show 1 ≠ 2
          decide
      have hunused : ∀ i ≠ 0, s.taken i = 0 ∧ ∀ tr, p.transferRings i = some tr → tr.Blank := by
        intro i hi
        obtain ⟨htaken, hblank⟩ := unused i hi hi
        exact ⟨htaken, fun tr htr => hblank tr ((hrings i hi).symm.trans htr)⟩
      have hready : p.base.isInitialized = true := by rw [hbase]; exact ready
      have hdrivers : p.base.drivers = [c'] := by rw [hbase]
      have hclasses : p.base.classDrivers = s.base.classDrivers := by rw [hbase]; rfl
      rcases listed with ⟨config, hmem, hin, heq⟩ | hnone
      · obtain ⟨n, tr, hn, htr⟩ := rings config hmem
        by_cases hzero : n = 0
        · refine .misplaced rfl s.base.classDrivers ⟨hready, hclasses, c', hdrivers, ?_⟩
          rw [hep, heq]
          obtain ⟨⟨hlo, hhi⟩, hindex⟩ := checked_eq_ok.mp hn
          exact congrArg EndpointID.mk (show config.epId.addr = 1 by omega)
        · have hring : p.transferRings n = some tr := (hrings n hzero).trans htr
          obtain ⟨htaken, hblank⟩ := hunused n hzero
          have hindex : checked 31 (c'.epInterruptIn.addr - 1) = .ok n := by rw [hep, heq]; exact hn
          have hregistered : p.base.classDrivers c'.epInterruptIn.number.toNat = some 0 := by
            rw [hclasses, hep, heq]
            exact served.registered hmem
          refine .serving rfl n c' tr [] ⟨htidy, fun i hi _ => hunused i hi, ⟨hready, hdrivers,
            hregistered, by rw [hep, heq]; exact hin, hindex, hzero⟩, hring, ?_, fun _ => ?_,
            fun hphase => absurd hphase hearly⟩
          · show tr.Carries c'.buf (s.taken n) []
            rw [htaken]
            exact .of_blank (hblank tr hring) _
          · exact htaken.symm
      · exact .silent rfl c' ⟨htidy, fun i hi _ => hunused i hi, hready, hdrivers,
          hep.trans hnone, hearly⟩
  | addressed stage' | initializing stage' | serving stage' | silent stage' | misplaced stage' =>
      exact absurd (stage.symm.trans stage') (by decide)

/-- Every step keeps the invariant. -/
theorem Inv.step (s t : PipeRun) (hinv : Inv this s) (hstep : Step pool s t) : Inv this t := by
  cases hstep with
  | startInitialize h stage ret => exact hinv.startInitialize stage ret
  | event env h tr trb i k completes ret => exact hinv.event completes ret
  | configureEndpoints env h speed input dev stage ready pool_eq cursor later ret =>
      exact hinv.configureEndpoints stage ready (pool_eq ▸ cursor) later ret
  | completeConfiguration h stage ret => exact hinv.completeConfiguration stage ret

/-! ## the theorem -/

/-- Without a transfer of the class driver none is armed. -/
theorem oneArmed_of_unused (tidy : Tidy s.cursor s.rings) (unused : s.Unused 0)
    (early : ∀ c ∈ s.base.drivers, c.initializePhase ≠ 2)
    (apart : ∀ c ∈ s.base.drivers, c.epInterruptIn ≠ kDefaultControlPipeID) : OneArmed s := by
  have hidle : ∀ i tr k, i ≠ 0 → s.rings i = some tr → ¬ tr.InFlight (s.taken i) k := by
    intro i tr k hi htr
    obtain ⟨htaken, hblank⟩ := unused i hi hi
    rw [htaken]
    exact (hblank tr htr).holds.not_inFlight (Nat.zero_le _)
  refine ⟨fun tr tr' i i' k k' h _ => ?_, fun c hc hphase => absurd hphase (early c hc),
    fun c hc i tr hi htr k k' hk _ => ?_⟩
  · by_cases hi : i = 0
    · subst hi
      exact absurd (tidy.control tr h.ring _) h.type
    · exact absurd h.inFlight (hidle i tr k hi h.ring)
  · by_cases hzero : i = 0
    · subst hzero
      obtain ⟨⟨hlo, hhi⟩, hindex⟩ := checked_eq_ok.mp hi
      exact absurd (congrArg EndpointID.mk (show c.epInterruptIn.addr = 1 by omega)) (apart c hc)
    · exact absurd hk (hidle i tr k hzero htr)

/-- With a class driver at work it is the one on its ring. -/
theorem Serving.one_armed {n : Nat} {c : HIDDriver} {tr : Ring} {items : List Trb}
    (h : Serving s n c tr items) : OneArmed s := by
  have honly : ∀ x i k, s.Armed x i k → i = n ∧ k = s.taken n := by
    intro x i k harmed
    by_cases hzero : i = 0
    · subst hzero
      exact absurd (h.tidy.control x harmed.ring _) harmed.type
    · by_cases hn : i = n
      · subst hn
        obtain rfl := Option.some.inj (h.ring.symm.trans harmed.ring)
        exact ⟨rfl, (h.carries.inFlight_iff.mp harmed.inFlight).1⟩
      · obtain ⟨htaken, hblank⟩ := h.unused i hzero hn
        have hflight := harmed.inFlight
        rw [htaken] at hflight
        exact absurd hflight ((hblank x harmed.ring).holds.not_inFlight (Nat.zero_le _))
  refine ⟨fun x x' i i' k k' harmed harmed' => ?_, fun c₀ hc hphase hok => ?_,
    fun c₀ hc i x hi hx k k' hk hk' => ?_⟩
  · obtain ⟨hi, hk⟩ := honly x i k harmed
    obtain ⟨hi', hk'⟩ := honly x' i' k' harmed'
    exact ⟨hi.trans hi'.symm, hk.trans hk'.symm⟩
  · rw [h.bound.drivers] at hc
    obtain rfl := List.mem_singleton.mp hc
    have hlen := h.kept hphase hok
    obtain ⟨htype, hpointer⟩ := h.carries.trb_of_waiting hlen
    exact ⟨tr, n, s.taken n, h.bound.index,
      ⟨h.ring, h.carries.inFlight_iff.mpr ⟨rfl, hlen⟩, htype⟩, hpointer⟩
  · rw [h.bound.drivers] at hc
    obtain rfl := List.mem_singleton.mp hc
    obtain rfl := Except.ok.inj (h.bound.index.symm.trans hi)
    obtain rfl := Option.some.inj (h.ring.symm.trans hx)
    exact ((h.carries.inFlight_iff.mp hk).1).trans ((h.carries.inFlight_iff.mp hk').1).symm

/-- The class drivers of a device that is being initialized have not been
started. -/
theorem phase_of_initializing {r : InitRun} (tables : InitRun.Tables r) :
    ∀ c ∈ r.device.drivers, c.initializePhase = 0 := by
  cases tables with
  | early _ _ unserved => rw [unserved.drivers]; exact nofun
  | chosen _ _ _ _ _ _ _ _ _ served =>
      rw [served.drivers]
      exact fun c hc => List.mem_singleton.mp hc ▸ served.idle
  | done _ _ _ _ _ _ _ _ _ served =>
      rw [served.drivers]
      exact fun c hc => List.mem_singleton.mp hc ▸ served.idle

/-- **One interrupt transfer is kept armed**: in every state of every run from
the allocation of a HID device on, no two interrupt transfers are in flight;
there is one from the first accepted SET_PROTOCOL completion on, until a
transfer fails; and its ring never holds another TRB.  So it is unless the
interrupt-IN endpoint is the default control pipe. -/
theorem oneArmed {s₀ s : PipeRun} (start : Addressed pool this s₀)
    (hrun : ReflTransGen (Step pool) s₀ s)
    (apart : ∀ c ∈ s.base.drivers, c.epInterruptIn ≠ kDefaultControlPipeID) : OneArmed s := by
  have hstep : ∀ s t, Inv this s → Step pool s t → Inv this t := Inv.step
  cases Run.invariant hstep (inv_addressed start) hrun with
  | addressed _ tidy unused _ base =>
      refine oneArmed_of_unused tidy unused ?_ apart
      rw [base]
      exact nofun
  | initializing _ tidy unused r run device =>
      refine oneArmed_of_unused tidy unused (fun c hc => ?_) apart
      rw [phase_of_initializing (InitRun.tables run) c (device ▸ hc)]
      decide
  | configured _ tidy unused _ c served =>
      refine oneArmed_of_unused tidy unused (fun c' hc => ?_) apart
      rw [served.drivers] at hc
      rw [List.mem_singleton.mp hc, served.idle]
      decide
  | serving _ n c tr items serving => exact serving.one_armed
  | silent _ c silent =>
      refine oneArmed_of_unused silent.tidy silent.unused (fun c' hc => ?_) apart
      rw [silent.drivers] at hc
      rw [List.mem_singleton.mp hc]
      exact silent.early
  | misplaced _ _ uses =>
      obtain ⟨c, hone, hep⟩ := uses.driver
      exact absurd hep (apart c (by rw [hone]; exact List.mem_cons_self))

/-! ## keyboards -/

/-- A computed step: the next call of the bring-up, or the event of TRB `k` of
ring `i`, with what is then in the buffer of the device. -/
inductive Move
  | startInitialize
  | event (bytes : List (BitVec 8)) (code : BitVec 8) (residual : BitVec 24) (i k : Nat)
  | configureEndpoints
  | completeConfiguration

/-- Between two calls, somewhere in the pool. -/
def between : Host := ⟨0x110000#64, []⟩

/-- The transfer event of a TRB. -/
def eventOf (tr : Ring) (code : BitVec 8) (residual : BitVec 24) (i k : Nat) : Trb :=
  let trb := TransferEventTRB.trbPointer.put 0#128 (tr.entry (k % (tr.bufSize - 1)))
  let trb := TransferEventTRB.completionCode.put trb code
  let trb := TransferEventTRB.trbTransferLength.put trb residual
  TransferEventTRB.endpointId.put trb (BitVec.ofNat 5 (i + 1))

def move (s : PipeRun) : Move → Except Fault PipeRun
  | .startInitialize => do
      let (_, p, _) ← s.dev.pipes.startInitialize between
      if s.stage = .addressed then pure { s.after p with stage := .initializing }
      else throw .endless
  | .event bytes code residual i k =>
      match s.rings i with
      | none => throw .nullPointer
      | some tr => do
          let env := { Env.zero poolAtMiB with
            mem := fun a => bytes.getD (a - s.base.buf).toNat 0#8 }
          let trb := eventOf tr code residual i k
          let (_, p, _) ← s.dev.pipes.onTransferEventReceived env between trb
          if i < 31 ∧ tr.InFlight (s.taken i) k ∧
              TransferEventTRB.pointer trb = tr.entry (k % (tr.bufSize - 1)) ∧
              (TransferEventTRB.endpointId.get trb).toNat = i + 1 then
            pure (s.complete p trb i k)
          else throw .endless
  | .configureEndpoints => do
      let (dev, h) ← Controller.configureEach (Env.zero poolAtMiB) 3#4 between
        { s.dev with inputCtx := s.dev.inputCtx } s.base.numEpConfigs 0
      if s.stage = .initializing ∧ s.base.isInitialized = true ∧
          s.cursor.toNat ≤ between.allocPtr.toNat then pure (s.configure dev h)
      else throw .endless
  | .completeConfiguration => do
      let (_, p, _) ← s.dev.pipes.onEndpointsConfigured between
      if s.stage = .configured then pure { s.after p with stage := .running } else throw .endless

theorem cursorOk_between : CursorOk poolAtMiB between.allocPtr := ⟨by decide, by decide⟩

theorem step_of_move {m : Move} (ret : s.move m = .ok t) : Step poolAtMiB s t := by
  cases m with
  | startInitialize =>
      obtain ⟨⟨e, p, h⟩, hcall, hret⟩ := Returns.bind_eq_ok.mp ret
      obtain ⟨stage, hmade⟩ := Returns.guard_eq_ok.mp hret
      obtain rfl := Returns.pure_eq_ok.mp hmade
      exact .startInitialize between stage hcall
  | event bytes code residual i k =>
      rw [move] at ret
      split at ret
      · exact absurd ret Returns.throw_ne_ok
      · next tr ring =>
        obtain ⟨⟨e, p, h⟩, hcall, hret⟩ := Returns.bind_eq_ok.mp ret
        obtain ⟨⟨index, inFlight, pointer, endpoint⟩, hmade⟩ := Returns.guard_eq_ok.mp hret
        obtain rfl := Returns.pure_eq_ok.mp hmade
        exact .event _ between tr _ i k ⟨ring, index, inFlight, pointer, endpoint⟩ hcall
  | configureEndpoints =>
      obtain ⟨⟨dev, h⟩, hcall, hret⟩ := Returns.bind_eq_ok.mp ret
      obtain ⟨⟨stage, ready, later⟩, hmade⟩ := Returns.guard_eq_ok.mp hret
      obtain rfl := Returns.pure_eq_ok.mp hmade
      exact .configureEndpoints (Env.zero poolAtMiB) between 3#4 s.dev.inputCtx dev stage ready rfl
        cursorOk_between later hcall
  | completeConfiguration =>
      obtain ⟨⟨e, p, h⟩, hcall, hret⟩ := Returns.bind_eq_ok.mp ret
      obtain ⟨stage, hmade⟩ := Returns.guard_eq_ok.mp hret
      obtain rfl := Returns.pure_eq_ok.mp hmade
      exact .completeConfiguration between stage hcall

/-- A device in a fresh pool. -/
def address : Except Fault PipeRun := do
  let a := (⟨0x100000#64, []⟩ : Host).allocArray (Env.zero poolAtMiB) Device.sizeofDevice 1 64#32
    4096#32
  let (tr, p, h) ← (Device.new a.1 1#8 1#8).pipes.allocTransferRing (Env.zero poolAtMiB) a.2 1 32
  if a.1 ≠ 0#64 ∧ tr.isSome = true then
    pure ⟨{ Device.new a.1 1#8 1#8 with pipes := p }, .addressed, fun _ => 0, h.allocPtr, false⟩
  else throw .endless

theorem addressed_of_address (ret : address = .ok s) : ∃ this, Addressed poolAtMiB this s := by
  rw [address] at ret
  generalize hdevice : (⟨0x100000#64, []⟩ : Host).allocArray (Env.zero poolAtMiB)
    Device.sizeofDevice 1 64#32 4096#32 = a at ret
  obtain ⟨⟨tr, p, h⟩, hring, hret⟩ := Returns.bind_eq_ok.mp ret
  obtain ⟨⟨made, hsome⟩, hmade⟩ := Returns.guard_eq_ok.mp hret
  obtain rfl := Returns.pure_eq_ok.mp hmade
  obtain ⟨tr, rfl⟩ := Option.isSome_iff_exists.mp hsome
  exact ⟨a.1, .mk (Env.zero poolAtMiB) ⟨0x100000#64, []⟩ a.2 h 1#8 1#8 tr p rfl
    (cursorOk_base poolAtMiB) hdevice made hring⟩

/-- The bring-up of a keyboard, up to the start of its class driver. -/
def bringUpMoves (addresses : List (BitVec 8)) : List Move :=
  let conf := InitRun.keyboardConfiguration addresses
  [.startInitialize, .event [18, 1] 13#8 238#24 0 1,
    .event conf 13#8 (BitVec.ofNat 24 (256 - conf.length)) 0 4, .event [] 1#8 0#24 0 7,
    .configureEndpoints, .completeConfiguration]

/-- A keyboard with endpoints at some addresses, and what happens to it then. -/
def keyboard (addresses : List (BitVec 8)) (events : List Move) : Except Fault PipeRun := do
  let s ← address
  (bringUpMoves addresses ++ events).foldlM move s

theorem run_of_foldlM {moves : List Move} (ret : moves.foldlM move s = .ok t) :
    ReflTransGen (Step poolAtMiB) s t := by
  induction moves generalizing s with
  | nil =>
      obtain rfl := Returns.pure_eq_ok.mp ret
      exact .refl
  | cons m moves ih =>
      rw [List.foldlM_cons] at ret
      obtain ⟨s', hmove, hrest⟩ := Returns.bind_eq_ok.mp ret
      exact .head (step_of_move hmove) (ih hrest)

/-- What is computed of a keyboard holds at the end of a run. -/
theorem exists_of_keyboard {addresses : List (BitVec 8)} {events : List Move} {f : PipeRun → α}
    {x : α} (h : (keyboard addresses events).toOption.map f = some x) :
    ∃ this s₀ s, Addressed poolAtMiB this s₀ ∧ ReflTransGen (Step poolAtMiB) s₀ s ∧ f s = x := by
  cases hret : keyboard addresses events with
  | error e => rw [hret] at h; contradiction
  | ok s =>
      rw [hret] at h
      obtain ⟨s₀, hstart, hmoves⟩ := Returns.bind_eq_ok.mp hret
      obtain ⟨this, haddressed⟩ := addressed_of_address hstart
      exact ⟨this, s₀, s, haddressed, run_of_foldlM hmoves, Option.some.inj h⟩

/-- A keyboard with an interrupt-IN endpoint 1, after a report of five bytes. -/
theorem oneArmed_keyboard : ∃ this s₀ s, Addressed poolAtMiB this s₀ ∧
    ReflTransGen (Step poolAtMiB) s₀ s ∧
    s.base.drivers.map (fun c => (c.epInterruptIn.addr, c.initializePhase)) = [(3, 2)] ∧
    OneArmed s := by
  have hup : (keyboard [0x81] [.event [] 1#8 0#24 0 9, .event [] 13#8 3#24 2 0]).toOption.map
      (fun s => s.base.drivers.map fun c => (c.epInterruptIn.addr, c.initializePhase)) =
        some [(3, 2)] := by
    decide +kernel
  obtain ⟨this, s₀, s, start, hrun, hdrivers⟩ := exists_of_keyboard hup
  refine ⟨this, s₀, s, start, hrun, hdrivers, oneArmed start hrun fun c hc hep => ?_⟩
  have hmem : (c.epInterruptIn.addr, c.initializePhase) ∈ [((3 : Int), 2)] :=
    hdrivers ▸ List.mem_map_of_mem hc
  have haddr : c.epInterruptIn.addr = 3 := congrArg Prod.fst (List.mem_singleton.mp hmem)
  have hthree : kDefaultControlPipeID.addr = 3 := hep ▸ haddr
  exact absurd hthree (by decide)

/-- With an interrupt-IN endpoint 0 the two TRBs of a SET_PROTOCOL request are
in flight on its ring. -/
theorem not_oneArmed : ∃ this s₀ s, Addressed poolAtMiB this s₀ ∧
    ReflTransGen (Step poolAtMiB) s₀ s ∧
    s.base.drivers.map HIDDriver.epInterruptIn = [kDefaultControlPipeID] ∧
    (s.rings 0).map (fun tr => decide (tr.InFlight (s.taken 0) 0 ∧ tr.InFlight (s.taken 0) 1)) =
      some true ∧ ¬ OneArmed s := by
  have hup : (keyboard [0x80] []).toOption.map
      (fun s => (s.base.drivers.map HIDDriver.epInterruptIn, (s.rings 0).map fun tr =>
        decide (tr.InFlight (s.taken 0) 0 ∧ tr.InFlight (s.taken 0) 1))) =
        some ([kDefaultControlPipeID], some true) := by
    decide +kernel
  obtain ⟨this, s₀, s, start, hrun, hs⟩ := exists_of_keyboard hup
  obtain ⟨hdrivers, hring⟩ := Prod.mk.inj hs
  refine ⟨this, s₀, s, start, hrun, hdrivers, hring, fun h => ?_⟩
  obtain ⟨c, hc, hep⟩ := List.map_eq_singleton_iff.mp hdrivers
  obtain ⟨tr, htr, hflight⟩ := Option.map_eq_some_iff.mp hring
  obtain ⟨hfirst, hsecond⟩ := of_decide_eq_true hflight
  have hindex : checked 31 (c.epInterruptIn.addr - 1) = .ok 0 := by rw [hep]; rfl
  have heq := h.alone c (by rw [hc]; exact List.mem_cons_self) 0 tr hindex htr 0 1 hfirst hsecond
  exact absurd heq (by decide)

end PipeRun

end MikanOs.Usb.Xhci
