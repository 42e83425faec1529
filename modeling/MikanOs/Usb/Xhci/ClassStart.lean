import Mathlib.Data.List.Nodup
import MikanOs.Usb.Xhci.ClassDrivers
import MikanOs.Usb.Xhci.ControlTransfer

/-!
# MikanOs.Usb.Xhci.ClassStart

`OnEndpointsConfigured` starts the class drivers by going through
`class_drivers_`, which has an entry for each endpoint number.  A driver that
serves endpoints of several numbers is there several times.

`startedOnce_iff` says for which configurations every driver is started once,
with a request whose completion it accepts.
-/

namespace MikanOs.Usb.HIDDriver

/-- The SET_PROTOCOL request of a driver. -/
def setProtocol (c : HIDDriver) : SetupData where
  requestType := RequestType.new RequestType.kOut RequestType.kClass RequestType.kInterface
  request := Request.kSetProtocol
  value := 0#16
  index := c.interfaceIndex.setWidth 16
  length := 0#16

/-- A driver whose request is under way. -/
def started (c : HIDDriver) : HIDDriver := { c with initializePhase := 1 }

theorem onEndpointsConfigured_eq (c : HIDDriver) (self : Nat) : c.onEndpointsConfigured self =
    (c.started, .controlOut kDefaultControlPipeID c.setProtocol 0#64 0 (some self)) := rfl

end MikanOs.Usb.HIDDriver

namespace MikanOs.Usb.Xhci

open Relation Usb.Device

namespace Pipes

/-! ## the loop -/

/-- The class drivers `OnEndpointsConfigured` calls, in order. -/
def starts (d : Usb.Device) : List Nat := (List.range 16).filterMap d.classDrivers

theorem mem_starts {d : Usb.Device} {driver : Nat} :
    driver ∈ starts d ↔ ∃ j < 16, d.classDrivers j = some driver := by
  simp only [starts, List.mem_filterMap, List.mem_range]

/-- `OnEndpointsConfigured` of some class drivers, one after another. -/
def startEach (h : Host) (p : Pipes) : List Nat → Except Fault (Error × Pipes × Host)
  | [] => pure (.kSuccess, p, h)
  | driver :: rest => do
      let c ← p.base.driverAt driver
      let (c, t) := c.onEndpointsConfigured driver
      let base := { p.base with drivers := p.base.drivers.set driver c }
      let (err, p, h) ← run h { p with base := base } t
      if err = .kSuccess then startEach h p rest else pure (err, p, h)

theorem registered_classDrivers (d : Usb.Device) (t : Transfer) :
    (registered d t).classDrivers = d.classDrivers := by
  cases t with
  | controlIn epId sd buf len issuer => cases issuer <;> rfl
  | controlOut epId sd buf len issuer => cases issuer <;> rfl
  | interruptIn epId buf len => rfl

/-- The loop passes over the entries without a driver. -/
theorem configureDrivers_eq (h : Host) (p : Pipes) (n i : Nat) : p.configureDrivers h n i =
    p.startEach h ((List.range' i n).filterMap p.base.classDrivers) := by
  induction n generalizing h p i with
  | zero => rfl
  | succ n ih =>
      rw [configureDrivers, List.range'_succ, List.filterMap_cons]
      cases hentry : p.base.classDrivers i with
      | none => exact ih h p (i + 1)
      | some driver =>
          simp only [startEach]
          cases hc : p.base.driverAt driver with
          | error e => rfl
          | ok c =>
              let base := { p.base with
                drivers := p.base.drivers.set driver (c.onEndpointsConfigured driver).1 }
              cases hrun : run h { p with base := base } (c.onEndpointsConfigured driver).2 with
              | error e => simp only [bind, Except.bind, base, hrun]
              | ok r =>
                  have hbase := (run_returns h _ _ r hrun).2
                  have hsame : r.2.1.base.classDrivers = p.base.classDrivers := by
                    rw [hbase, registered_classDrivers]
                  simp only [bind, Except.bind, base, hrun, ih, hsame]

/-- `OnEndpointsConfigured` calls the drivers of `starts`. -/
theorem onEndpointsConfigured_eq (h : Host) (p : Pipes) :
    p.onEndpointsConfigured h = p.startEach h (starts p.base) := by
  rw [onEndpointsConfigured, configureDrivers_eq, starts, List.range_eq_range']

/-! ## requests on a ring -/

/-- A control request succeeds when the default control pipe has a ring with a
buffer. -/
theorem control_ok {p : Pipes} {tr : Ring} (ring : p.transferRings 0 = some tr)
    (buffer : tr.buf ≠ 0#64) (transferType : BitVec 2) (dataIn statusIn : Bool) (h : Host)
    (sd : SetupData) (buf : BitVec 64) (len : Int) (issuer : Option Nat) :
    ∃ p', control transferType dataIn statusIn h p kDefaultControlPipeID sd buf len issuer =
        .ok (.kSuccess, p', h.act (.doorbell p.dbreg 1#8)) ∧
      p'.base = p.base.registerWaiter sd issuer := by
  have hnum : ¬ (kDefaultControlPipeID.number < 0 ∨ 15 < kDefaultControlPipeID.number) := by decide
  have hchecked : checked 31 (kDefaultControlPipeID.addr - 1) = .ok 0 := rfl
  have hdoor : BitVec.ofInt 8 kDefaultControlPipeID.addr = 1#8 := rfl
  have hpush₁ := ControlRun.tryPush_eq buffer
  have hpush₂ := fun t => ControlRun.tryPush_eq (r := (tr.push t).2)
    (by rw [Ring.push_buf]; exact buffer)
  have hpush₃ := fun t u => ControlRun.tryPush_eq (r := ((tr.push t).2.push u).2)
    (by rw [Ring.push_buf, Ring.push_buf]; exact buffer)
  unfold control
  simp only [hnum, hchecked, ring, hdoor, if_false, bind, Except.bind]
  by_cases hbuf : buf = 0#64
  · simp only [hbuf, ne_eq, not_true, if_false, hpush₁, hpush₂]
    exact ⟨_, rfl, rfl⟩
  · simp only [hbuf, ne_eq, not_false_iff, if_true, hpush₁, hpush₂, hpush₃]
    exact ⟨_, rfl, rfl⟩

end Pipes

/-! ## the theorem -/

namespace Pipes

/-- Completions of some requests, in order, are all accepted: each is passed
to a class driver that goes on with a transfer. -/
def AcceptsEach : List SetupData → Usb.Device → Prop
  | [], _ => True
  | setupData :: rest, d => ∀ env h buf len, ∃ d' t,
      d.onControlCompleted env h setupData buf len = .ok (d', h, .transfer t) ∧ AcceptsEach rest d'

/-- The SET_PROTOCOL requests of some class drivers. -/
def requestsOf (d : Usb.Device) (drivers : List Nat) : List SetupData :=
  drivers.filterMap fun driver => d.drivers[driver]?.map HIDDriver.setProtocol

/-- `OnEndpointsConfigured` starts each class driver exactly once. -/
structure StartedOnce (h : Host) (p : Pipes) : Prop where
  /-- every registered driver is called once -/
  once : ∀ j < 16, ∀ driver, p.base.classDrivers j = some driver →
    (starts p.base).count driver = 1
  /-- each call sends one request, and every completion is accepted -/
  sent : ∃ p' h', p.onEndpointsConfigured h = .ok (.kSuccess, p', h') ∧
    h'.io = h.io ++ (starts p.base).map (fun _ => .doorbell p.dbreg 1#8) ∧
    AcceptsEach (requestsOf p.base (starts p.base)) p'.base

end Pipes

namespace InitRun

variable {d : Usb.Device} {configs : List EndpointConfig} {c : HIDDriver}

/-- Endpoints of two numbers make two entries. -/
theorem two_le_length_starts {j j' : Nat} (hj : j < 16) (hj' : j' < 16) (hne : j ≠ j')
    (hreg : d.classDrivers j = some 0) (hreg' : d.classDrivers j' = some 0) :
    2 ≤ (Pipes.starts d).length := by
  have hlen : (Pipes.starts d).length =
      ((List.range 16).filter fun i => (d.classDrivers i).isSome).length := by
    rw [Pipes.starts, List.length_filterMap_eq_countP, List.countP_eq_length_filter]
  have hnodup : [j, j'].Nodup := by simpa using hne
  rw [hlen]
  refine hnodup.length_le_of_subset fun i hi => ?_
  rcases List.mem_cons.mp hi with rfl | hi
  · exact List.mem_filter.mpr ⟨List.mem_range.mpr hj, by rw [hreg]; rfl⟩
  · obtain rfl := List.mem_singleton.mp hi
    exact List.mem_filter.mpr ⟨List.mem_range.mpr hj', by rw [hreg']; rfl⟩

/-- Every entry is the one driver. -/
theorem starts_eq_replicate (h : d.Served configs c) :
    Pipes.starts d = List.replicate (Pipes.starts d).length 0 := by
  refine List.eq_replicate_of_mem fun k hk => ?_
  obtain ⟨j, _, hj⟩ := Pipes.mem_starts.mp hk
  rw [h.classDrivers] at hj
  split at hj
  · exact (Option.some.inj hj).symm
  · contradiction

/-- Endpoints of one number make one entry. -/
theorem starts_of_one {n : Nat} (h : d.Served configs c) (hn : n < 16)
    (some : ∃ config ∈ configs, config.epId.number.toNat = n)
    (all : ∀ config ∈ configs, config.epId.number.toNat = n) : Pipes.starts d = [0] := by
  have hentry : d.classDrivers = fun j => if j = n then .some 0 else none := by
    funext j
    rw [h.classDrivers]
    by_cases hj : j = n
    · rw [if_pos hj, hj, if_pos some]
    · rw [if_neg hj, if_neg]
      rintro ⟨config, hmem, hconfig⟩
      exact hj (hconfig.symm.trans (all config hmem))
  have hall : ∀ n < 16, (List.range 16).filterMap
      (fun j => if j = n then Option.some 0 else Option.none) = [0] := by decide
  rw [Pipes.starts, hentry]
  exact hall n hn

/-- Without endpoints nobody is called. -/
theorem starts_of_none (h : d.Served [] c) : Pipes.starts d = [] := by
  refine List.filterMap_eq_nil_iff.mpr fun j _ => ?_
  rw [h.classDrivers, if_neg (by simp)]

theorem starts_served (h : d.Served configs c) (n : Nat) (hn : n < 16)
    (all : ∀ config ∈ configs, config.epId.number.toNat = n) :
    Pipes.starts d = [] ∨ Pipes.starts d = [0] := by
  cases configs with
  | nil => exact .inl (starts_of_none h)
  | cons config configs =>
      exact .inr (starts_of_one h hn ⟨config, List.mem_cons_self, all _ List.mem_cons_self⟩ all)

/-- The device whose one class driver has been started. -/
def begun (d : Usb.Device) (c : HIDDriver) : Usb.Device :=
  { d with drivers := [c.started] }.registerWaiter c.setProtocol (some 0)

/-- The first start of the driver succeeds. -/
theorem startEach_one (served : d.Served configs c) {p : Pipes} (base : p.base = d) {tr : Ring}
    (ring : p.transferRings 0 = some tr) (buffer : tr.buf ≠ 0#64) (h : Host) (rest : List Nat) :
    ∃ p' : Pipes, p'.base = begun d c ∧
      p.startEach h (0 :: rest) = p'.startEach (h.act (.doorbell p.dbreg 1#8)) rest := by
  subst base
  have hdriver : p.base.driverAt 0 = .ok c := by
    rw [Usb.Device.driverAt, served.drivers]
    rfl
  obtain ⟨p', hret, hbase⟩ := Pipes.control_ok
    (p := { p with base := { p.base with drivers := p.base.drivers.set 0 c.started } })
    ring buffer SetupStageTRB.kOutDataStage false true h c.setProtocol 0#64 0 (some 0)
  refine ⟨p', ?_, ?_⟩
  · rw [hbase, served.drivers]
    rfl
  · simp only [Pipes.startEach, hdriver, HIDDriver.onEndpointsConfigured_eq, Pipes.run,
      Pipes.controlOut, hret, bind, Except.bind, if_true]

/-- Its completion is accepted. -/
theorem begun_accepts (served : d.Served configs c) (ready : d.isInitialized = true) (env : Env)
    (h : Host) (buf : BitVec 64) (len : Int) :
    (begun d c).onControlCompleted env h c.setProtocol buf len =
      .ok ({ begun d c with drivers := [{ c with initializePhase := 2 }] }, h,
        .transfer (.interruptIn c.epInterruptIn c.buf c.inPacketSize)) := by
  have hready : (begun d c).isInitialized = true := ready
  have hwaiter : (begun d c).eventWaiters.get c.setProtocol = some (some 0) := by
    show (d.eventWaiters.put _ _).get _ = _
    rw [served.eventWaiters, ArrayMap.get_put_self (ArrayMap.get_new _ _), ArrayMap.live_new]
    rfl
  unfold Usb.Device.onControlCompleted
  rw [if_pos hready, hwaiter]
  rfl

/-- Without registered drivers there is nothing to start. -/
theorem startedOnce_of_none {p : Pipes} (hstarts : Pipes.starts p.base = []) (h : Host) :
    Pipes.StartedOnce h p := by
  refine ⟨fun j hj driver hdriver => ?_, p, h, ?_, ?_, ?_⟩
  · have hmem : driver ∈ Pipes.starts p.base := Pipes.mem_starts.mpr ⟨j, hj, hdriver⟩
    rw [hstarts] at hmem
    contradiction
  · rw [Pipes.onEndpointsConfigured_eq, hstarts]
    rfl
  · rw [hstarts, List.map_nil, List.append_nil]
  · rw [hstarts]
    trivial

/-- A driver with one entry is started once. -/
theorem startedOnce_of_one {p : Pipes} (served : p.base.Served configs c)
    (ready : p.base.isInitialized = true) (hstarts : Pipes.starts p.base = [0]) {tr : Ring}
    (ring : p.transferRings 0 = some tr) (buffer : tr.buf ≠ 0#64) (h : Host) :
    Pipes.StartedOnce h p := by
  obtain ⟨p', hbegun, hret⟩ := startEach_one served rfl ring buffer h []
  refine ⟨fun j hj driver hdriver => ?_, p', h.act (.doorbell p.dbreg 1#8), ?_, ?_, ?_⟩
  · have hmem : driver ∈ Pipes.starts p.base := Pipes.mem_starts.mpr ⟨j, hj, hdriver⟩
    rw [hstarts] at hmem ⊢
    rw [List.mem_singleton.mp hmem]
    rfl
  · rw [Pipes.onEndpointsConfigured_eq, hstarts, hret]
    rfl
  · rw [hstarts]
    rfl
  · have hrequests : Pipes.requestsOf p.base [0] = [c.setProtocol] := by
      rw [Pipes.requestsOf, List.filterMap_cons, served.drivers]
      rfl
    rw [hstarts, hrequests, hbegun]
    intro env host buf len
    exact ⟨_, _, begun_accepts served ready env host buf len, trivial⟩

/-- The driver of a descriptor is registered for the number of each endpoint of
the interface. -/
theorem registered_of_mem {env : Env} {eps : List (BitVec 64)}
    (served : d.Served (eps.map (makeEPConfig env)) c) {q : BitVec 64} (hq : q ∈ eps) :
    d.classDrivers (endpointNumber env q) = some 0 := by
  have hreg := served.registered (List.mem_map_of_mem hq)
  rwa [number_makeEPConfig] at hreg

/-- **Each class driver is started once** exactly when all its endpoints have
one number: for a device with an accepted configuration descriptor, whose
default control pipe has a ring. -/
theorem startedOnce_iff {this : BitVec 64} {s : InitRun}
    (hrun : ReflTransGen Step (start (Usb.Device.new this)) s)
    (ready : s.device.isInitialized = true) {a : Delivery} (one : s.accepted = [a])
    {ifDesc : BitVec 64} {eps : List (BitVec 64)} (accepts : Accepts a.env a.buf a.len ifDesc eps)
    {p : Pipes} (base : p.base = s.device) {tr : Ring} (ring : p.transferRings 0 = some tr)
    (buffer : tr.buf ≠ 0#64) (h : Host) :
    Pipes.StartedOnce h p ↔
      ∀ q ∈ eps, ∀ q' ∈ eps, endpointNumber a.env q = endpointNumber a.env q' := by
  obtain ⟨c, _, served⟩ := served_of_initialized hrun ready one accepts
  constructor
  · intro hstarted q hq q' hq'
    refine Decidable.byContradiction fun hne => ?_
    have htwo := two_le_length_starts (endpointNumber_lt a.env q) (endpointNumber_lt a.env q') hne
      (registered_of_mem served hq) (registered_of_mem served hq')
    have hcount := hstarted.once _ (endpointNumber_lt a.env q) 0
      (by rw [base]; exact registered_of_mem served hq)
    rw [base, starts_eq_replicate served, List.count_replicate_self] at hcount
    omega
  · intro hall
    have hsame : ∃ n < 16, ∀ config ∈ eps.map (makeEPConfig a.env),
        config.epId.number.toNat = n := by
      cases eps with
      | nil => exact ⟨0, by decide, nofun⟩
      | cons q eps =>
          refine ⟨endpointNumber a.env q, endpointNumber_lt a.env q, fun config hmem => ?_⟩
          obtain ⟨q', hq', rfl⟩ := List.mem_map.mp hmem
          rw [number_makeEPConfig]
          exact hall q' hq' q List.mem_cons_self
    obtain ⟨n, hn, hconfigs⟩ := hsame
    rw [← base] at served ready
    rcases starts_served served n hn hconfigs with hstarts | hstarts
    · exact startedOnce_of_none hstarts h
    · exact startedOnce_of_one served ready hstarts ring buffer h

/-! ## keyboards -/

/-- A device whose default control pipe has a ring. -/
def connected (d : Usb.Device) : Pipes :=
  { bare d with transferRings := update (fun _ => none) 0 (some ControlRun.firstRing) }

/-- A keyboard with one endpoint is started once. -/
theorem startedOnce_keyboard : ∃ s, ReflTransGen Step (start sampleDevice) s ∧
    s.device.isInitialized = true ∧
    Pipes.StartedOnce ⟨0x100000#64, []⟩ (connected s.device) := by
  have hready : (bringUp [0x81]).toOption.map
      (fun s => (s.device.isInitialized, s.device.numEpConfigs)) = some (true, 1) := by
    decide +kernel
  obtain ⟨s, hrun, hs⟩ := exists_of_bringUp hready
  obtain ⟨ready, hnum⟩ := Prod.mk.inj hs
  obtain ⟨a, ifDesc, eps, one, accepts, hconfigs⟩ := accepted_of_initialized hrun ready
  have hlen := congrArg List.length hconfigs
  rw [List.length_map, configs, List.length_map, List.length_range, hnum] at hlen
  obtain ⟨q, rfl⟩ := List.length_eq_one_iff.mp hlen
  refine ⟨s, hrun, ready,
    (startedOnce_iff hrun ready one accepts rfl rfl (by decide) _).mpr ?_⟩
  intro x hx y hy
  rw [List.mem_singleton.mp hx, List.mem_singleton.mp hy]

/-- A keyboard with an interrupt-IN endpoint 1 and an interrupt-OUT endpoint 2
is started twice. -/
theorem not_startedOnce_two_numbers : ∃ s a ifDesc eps tr,
    ReflTransGen Step (start sampleDevice) s ∧ s.device.isInitialized = true ∧
      s.accepted = [a] ∧ Accepts a.env a.buf a.len ifDesc eps ∧
      (connected s.device).transferRings 0 = some tr ∧ tr.buf ≠ 0#64 ∧
      Pipes.starts s.device = [0, 0] ∧
      ¬ Pipes.StartedOnce ⟨0x100000#64, []⟩ (connected s.device) := by
  have hready : (bringUp [0x81, 0x02]).toOption.map
      (fun s => (s.device.isInitialized, Pipes.starts s.device, s.device.classDrivers 1)) =
        some (true, [0, 0], some 0) := by
    decide +kernel
  obtain ⟨s, hrun, hs⟩ := exists_of_bringUp hready
  obtain ⟨ready, hrest⟩ := Prod.mk.inj hs
  obtain ⟨hstarts, hdriver⟩ := Prod.mk.inj hrest
  obtain ⟨a, ifDesc, eps, one, accepts, _⟩ := accepted_of_initialized hrun ready
  refine ⟨s, a, ifDesc, eps, ControlRun.firstRing, hrun, ready, one, accepts, rfl, by decide,
    hstarts, fun hstarted => ?_⟩
  have hcount := hstarted.once 1 (by decide) 0 hdriver
  have htwo : Pipes.starts (connected s.device).base = [0, 0] := hstarts
  rw [htwo] at hcount
  contradiction

end InitRun

end MikanOs.Usb.Xhci
