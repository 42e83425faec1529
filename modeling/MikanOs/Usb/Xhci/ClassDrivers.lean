import MikanOs.Usb.Xhci.InitRun

/-!
# MikanOs.Usb.Xhci.ClassDrivers

What an initialization leaves in the tables of endpoints and class drivers:
one class driver, and the endpoints of the accepted configuration descriptor.
`tables` is the invariant of `MikanOs.Usb.Xhci.InitRun` that says so.
-/

namespace MikanOs.Usb

namespace HIDDriver

/-! ## the endpoints of a driver -/

theorem setEndpoint_frame (c : HIDDriver) (config : EndpointConfig) :
    c.setEndpoint config =
      { c with
        epInterruptIn := (c.setEndpoint config).epInterruptIn
        epInterruptOut := (c.setEndpoint config).epInterruptOut } := by
  unfold setEndpoint
  split
  · rfl
  · split <;> rfl

/-- A driver's phase does not depend on its endpoints. -/
theorem foldl_setEndpoint_phase (configs : List EndpointConfig) (c : HIDDriver) :
    (configs.foldl setEndpoint c).initializePhase = c.initializePhase := by
  induction configs generalizing c with
  | nil => rfl
  | cons config configs ih => rw [List.foldl_cons, ih, setEndpoint_frame]

/-- The last interrupt-IN endpoint counts; without one the driver keeps what
it had. -/
theorem foldl_setEndpoint_epInterruptIn (configs : List EndpointConfig) (c : HIDDriver) :
    (∃ config ∈ configs, (config.epType = .kInterrupt ∧ config.epId.isIn = true) ∧
      (configs.foldl setEndpoint c).epInterruptIn = config.epId) ∨
    ((∀ config ∈ configs, ¬ (config.epType = .kInterrupt ∧ config.epId.isIn = true)) ∧
      (configs.foldl setEndpoint c).epInterruptIn = c.epInterruptIn) := by
  induction configs generalizing c with
  | nil => exact .inr ⟨nofun, rfl⟩
  | cons config configs ih =>
      rw [List.foldl_cons]
      rcases ih (c.setEndpoint config) with ⟨last, hmem, hin, hlast⟩ | ⟨hnone, hkeep⟩
      · exact .inl ⟨last, List.mem_cons_of_mem _ hmem, hin, hlast⟩
      · by_cases hin : config.epType = .kInterrupt ∧ config.epId.isIn = true
        · refine .inl ⟨config, List.mem_cons_self, hin, hkeep.trans ?_⟩
          rw [setEndpoint, if_pos hin]
        · refine .inr ⟨fun x hx => ?_, hkeep.trans ?_⟩
          · cases List.mem_cons.mp hx with
            | inl heq => exact heq ▸ hin
            | inr hmem => exact hnone x hmem
          · rw [setEndpoint, if_neg hin]
            split <;> rfl

end HIDDriver

namespace Device

/-! ## one driver for all endpoints -/

/-- A device whose only class driver is `c`, and serves the endpoints
`configs`.  Nobody has issued a request yet. -/
structure Served (configs : List EndpointConfig) (c : HIDDriver) (d : Device) : Prop where
  drivers : d.drivers = [c]
  idle : c.initializePhase = 0
  listed : d.configs = configs
  few : configs.length ≤ 16
  classDrivers : ∀ j, d.classDrivers j =
    if ∃ config ∈ configs, config.epId.number.toNat = j then some 0 else none
  eventWaiters : d.eventWaiters = ArrayMap.new 4 none

/-- Without a class driver yet. -/
structure Unserved (d : Device) : Prop where
  drivers : d.drivers = []
  classDrivers : ∀ j, d.classDrivers j = none
  eventWaiters : d.eventWaiters = ArrayMap.new 4 none

theorem Fresh.idle {c : HIDDriver} (h : Fresh c) :
    c.initializePhase = 0 ∧ c.epInterruptIn = EndpointID.none := by
  obtain ⟨this, kind, interfaceIndex, numObservers, rfl⟩ := h
  exact ⟨rfl, rfl⟩

theorem Served.numEpConfigs {configs : List EndpointConfig} {c : HIDDriver} {d : Device}
    (h : d.Served configs c) : d.numEpConfigs = configs.length := by
  rw [← h.listed, Device.configs, List.length_map, List.length_range]

/-- The driver is registered for the number of each endpoint. -/
theorem Served.registered {configs : List EndpointConfig} {c : HIDDriver} {d : Device}
    (h : d.Served configs c) {config : EndpointConfig} (hmem : config ∈ configs) :
    d.classDrivers config.epId.number.toNat = some 0 := by
  rw [h.classDrivers, if_pos ⟨config, hmem, rfl⟩]

/-- An accepted descriptor brings in its class driver. -/
theorem Unserved.adopt {d : Device} {env : Env} {c : HIDDriver} {eps : List (BitVec 64)}
    (h : d.Unserved) (fresh : Fresh c) (few : eps.length ≤ 16) (phase : Nat) :
    Served (eps.map (makeEPConfig env)) c
      { d.adopt env c eps with initializePhase := phase } := by
  let d₁ := { d with drivers := d.drivers ++ [c], numEpConfigs := 0 }
  have hadopt : d.adopt env c eps = (eps.map (makeEPConfig env)).foldl (collect 0) d₁ := by
    have hplace : d.drivers.length = 0 := congrArg List.length h.drivers
    unfold Device.adopt
    rw [hplace]
  rw [hadopt]
  have hconfigs := foldl_collect_epConfigs 0 (eps.map (makeEPConfig env)) d₁
  have hdrivers := foldl_collect_classDrivers 0 (eps.map (makeEPConfig env)) d₁
  rw [foldl_collect]
  refine ⟨?_, fresh.idle.1, ?_, by rwa [List.length_map], fun j => ?_, h.eventWaiters⟩
  · show d.drivers ++ [c] = [c]
    rw [h.drivers]
    rfl
  · have hnum : d₁.numEpConfigs = 0 := rfl
    refine List.ext_getElem ?_ fun i hi hi' => ?_
    · simp only [Device.configs, List.length_map, List.length_range, hnum, Nat.zero_add]
    · simp only [Device.configs, List.getElem_map, List.getElem_range]
      rw [hconfigs, dif_pos ⟨Nat.zero_le i, by rw [hnum, Nat.zero_add]; exact hi'⟩]
      simp only [hnum, Nat.sub_zero, List.getElem_map]
  · rw [hdrivers]
    split
    · rfl
    · exact h.classDrivers j

/-- The loop of `InitializePhase3` gives it its endpoints. -/
theorem Served.setEndpoints {configs : List EndpointConfig} {c : HIDDriver} {d d' : Device}
    (h : d.Served configs c) (ret : d.setEndpoints d.numEpConfigs 0 = .ok d') (phase : Nat)
    (ready : Bool) : Served configs (configs.foldl HIDDriver.setEndpoint c)
      { d' with initializePhase := phase, isInitialized := ready } := by
  have hall : ∀ j, 0 ≤ j → j < 0 + d.numEpConfigs →
      d.classDrivers (d.epConfigs j).epId.number.toNat = some 0 := by
    intro j _ hj
    have hmem : d.epConfigs j ∈ configs := by
      rw [← h.listed]
      exact List.mem_map.mpr ⟨j, List.mem_range.mpr (by omega), rfl⟩
    exact h.registered hmem
  have hset := setEndpoints_ok hall ret
  rw [← List.range_eq_range'] at hset
  have hrange : (List.range d.numEpConfigs).map d.epConfigs = configs := h.listed
  rw [hrange, h.drivers] at hset
  rw [hset]
  exact ⟨rfl, (HIDDriver.foldl_setEndpoint_phase configs c).trans h.idle, h.listed, h.few,
    h.classDrivers, h.eventWaiters⟩

end Device

end MikanOs.Usb

namespace MikanOs.Usb.Xhci.InitRun

open Relation Usb.Device

/-! ## along the run -/

variable {s t : InitRun} {buf : BitVec 64} {env : Env} {o : Outcome} {e : Error}

/-- No request of an initialization has an issuer. -/
theorem completed_issuerless {env : Env} {h h' : Host} {d d' : Usb.Device} {setupData : SetupData}
    {buf : BitVec 64} {len : Int} {tr : Transfer}
    (completed : Completed env h d setupData buf len d' h' (.transfer tr)) (x : Usb.Device) :
    registered x tr = x := by
  generalize ho : Outcome.transfer tr = o at completed
  cases completed with
  | noWaiter => contradiction
  | forwarded ready driver c waiter found =>
      rcases onControlCompleted_outcome c with hc | hc
      · rw [hc] at ho; contradiction
      · rw [hc] at ho; cases ho; rfl
  | outOfPhase => contradiction
  | noPhase => contradiction
  | gotDevice => cases ho; rfl
  | unsupported => contradiction
  | configuring => cases ho; rfl
  | configured => contradiction

/-- What is carried out after a completion is not seen in the base class
object. -/
theorem finish_base {env : Env} {h h' h'' : Host} {d : Usb.Device} {p p' : Pipes}
    {setupData : SetupData} {buf : BitVec 64} {len : Int}
    (completed : Completed env h d setupData buf len p.base h' o)
    (carried : p.finish h' o = .ok (e, p', h'')) : p'.base = p.base := by
  cases o with
  | error e₀ => rw [(finish_error carried).2]
  | transfer tr => exact (finish_transfer (completed_issuerless completed p.base) carried).2

/-- A call leaves the device as `OnControlCompleted` does. -/
theorem Call.completed (h : Call s buf env o e t) : ∃ h h' setupData len,
    Completed env h s.device setupData buf len t.device h' o ∧
      t.accepted = s.accepted ++
        if s.device.initializePhase = 2 ∧ t.device.initializePhase = 3 then [⟨env, buf, len⟩]
        else [] := by
  obtain ⟨p, p', h, h', h'', setupData, len, d, e, completed, carried⟩ := h
  have hcompleted := onControlCompleted_completed completed
  have hbase : p'.base = d := finish_base (p := { p with base := d }) hcompleted carried
  exact ⟨h, h', setupData, len, hbase ▸ hcompleted, rfl⟩

/-- What the tables of a device hold, by its phase. -/
inductive Tables (s : InitRun) : Prop
  | early (phase : s.device.initializePhase < 3) (ready : s.device.isInitialized = false)
      (unserved : s.device.Unserved) (none : s.accepted = [])
  | chosen (phase : s.device.initializePhase = 3) (ready : s.device.isInitialized = false)
      (a : Delivery) (ifDesc : BitVec 64) (eps : List (BitVec 64)) (c : HIDDriver)
      (one : s.accepted = [a]) (accepts : Accepts a.env a.buf a.len ifDesc eps) (fresh : Fresh c)
      (served : s.device.Served (eps.map (makeEPConfig a.env)) c)
  | done (phase : s.device.initializePhase = 4) (ready : s.device.isInitialized = true)
      (a : Delivery) (ifDesc : BitVec 64) (eps : List (BitVec 64)) (c : HIDDriver)
      (one : s.accepted = [a]) (accepts : Accepts a.env a.buf a.len ifDesc eps) (fresh : Fresh c)
      (served : s.device.Served (eps.map (makeEPConfig a.env))
        ((eps.map (makeEPConfig a.env)).foldl HIDDriver.setEndpoint c))

theorem tables_start (this : BitVec 64) : Tables (start (Usb.Device.new this)) :=
  .early (show 1 < 3 by decide) rfl ⟨rfl, fun _ => rfl, rfl⟩ rfl

/-- What does not concern the device does not concern its tables. -/
theorem Tables.congr (h : Tables s) (device : t.device = s.device)
    (accepted : t.accepted = s.accepted) : Tables t := by
  cases h with
  | early phase ready unserved none =>
      exact .early (device ▸ phase) (device ▸ ready) (device ▸ unserved) (accepted.trans none)
  | chosen phase ready a ifDesc eps c one accepts fresh served =>
      exact .chosen (device ▸ phase) (device ▸ ready) a ifDesc eps c (accepted.trans one) accepts
        fresh (device ▸ served)
  | done phase ready a ifDesc eps c one accepts fresh served =>
      exact .done (device ▸ phase) (device ▸ ready) a ifDesc eps c (accepted.trans one) accepts
        fresh (device ▸ served)

/-- Nobody waits for a request that has not been issued. -/
theorem Tables.get_eq_none (h : Tables s) (setupData : SetupData) :
    s.device.eventWaiters.get setupData = none := by
  cases h with
  | early _ _ unserved _ => rw [unserved.eventWaiters, ArrayMap.get_new]
  | chosen _ _ _ _ _ _ _ _ _ served => rw [served.eventWaiters, ArrayMap.get_new]
  | done _ _ _ _ _ _ _ _ _ served => rw [served.eventWaiters, ArrayMap.get_new]

/-- Every call keeps them so. -/
theorem Tables.step (h : Tables s) (hstep : Step s t) : Tables t := by
  obtain ⟨buf, env, o, e, hcall⟩ := hstep
  obtain ⟨host, host', setupData, len, hcompleted, haccepted⟩ := hcall.completed
  have hsame : t.device = s.device → Tables t := fun hd =>
    h.congr hd (by rw [haccepted, hd, if_neg (by omega), List.append_nil])
  generalize hd : t.device = d at hcompleted
  cases hcompleted with
  | noWaiter => exact hsame hd
  | forwarded ready driver c waiter found =>
      rw [h.get_eq_none] at waiter
      contradiction
  | outOfPhase => exact hsame hd
  | noPhase => exact hsame hd
  | unsupported => exact hsame hd
  | gotDevice starting phase request type =>
      cases h with
      | early _ _ unserved none =>
          rw [if_neg (by omega), List.append_nil] at haccepted
          have htwo : t.device.initializePhase = 2 := by rw [hd]; rfl
          exact .early (by omega) (by rw [hd]; exact starting)
            (by rw [hd]; exact ⟨unserved.drivers, unserved.classDrivers, unserved.eventWaiters⟩)
            (haccepted.trans none)
      | chosen three => omega
      | done four => omega
  | configuring starting phase request type ifDesc eps c accepts fresh few =>
      cases h with
      | early _ _ unserved none =>
          have hthree : t.device.initializePhase = 3 := by rw [hd]
          rw [if_pos ⟨phase, hthree⟩, none] at haccepted
          refine .chosen hthree ?_ _ ifDesc eps c haccepted accepts fresh ?_
          · rw [hd]
            exact (adopt_frame env s.device c eps).2.trans starting
          · rw [hd]
            exact unserved.adopt fresh few 3
      | chosen three => omega
      | done four => omega
  | configured starting phase request d' set =>
      cases h with
      | early early => omega
      | chosen _ _ a ifDesc eps c one accepts fresh served =>
          rw [if_neg (by omega), List.append_nil] at haccepted
          have hserved := served.setEndpoints set 4 true
          exact .done (by rw [hd]) (by rw [hd]) a ifDesc eps c (haccepted.trans one) accepts fresh
            (by rw [hd]; exact hserved)
      | done four => omega

/-- The tables along every initialization of a new device. -/
theorem tables {this : BitVec 64} (hrun : ReflTransGen Step (start (Usb.Device.new this)) s) :
    Tables s := by
  have hstep : ∀ s t, Tables s → Step s t → Tables t := fun _ _ => Tables.step
  exact Run.invariant hstep (tables_start this) hrun

/-- **An initialized device** has one class driver, for all the endpoints of
the configuration descriptor it has accepted. -/
theorem served_of_initialized {this : BitVec 64}
    (hrun : ReflTransGen Step (start (Usb.Device.new this)) s)
    (ready : s.device.isInitialized = true) {a : Delivery} (one : s.accepted = [a])
    {ifDesc : BitVec 64} {eps : List (BitVec 64)} (accepts : Accepts a.env a.buf a.len ifDesc eps) :
    ∃ c, Fresh c ∧ s.device.Served (eps.map (makeEPConfig a.env))
      ((eps.map (makeEPConfig a.env)).foldl HIDDriver.setEndpoint c) := by
  cases tables hrun with
  | early _ starting => rw [starting] at ready; contradiction
  | chosen _ starting => rw [starting] at ready; contradiction
  | done _ _ a' ifDesc' eps' c one' accepts' fresh served =>
      obtain rfl := (List.cons.inj (one'.symm.trans one)).1
      obtain ⟨_, rfl⟩ := accepts'.unique accepts
      exact ⟨c, fresh, served⟩

/-- An initialized device has accepted one configuration descriptor, with as
many endpoints as it lists now. -/
theorem accepted_of_initialized {this : BitVec 64}
    (hrun : ReflTransGen Step (start (Usb.Device.new this)) s)
    (ready : s.device.isInitialized = true) : ∃ a ifDesc eps, s.accepted = [a] ∧
      Accepts a.env a.buf a.len ifDesc eps ∧
      eps.map (makeEPConfig a.env) = s.device.configs := by
  cases tables hrun with
  | early _ starting => rw [starting] at ready; contradiction
  | chosen _ starting => rw [starting] at ready; contradiction
  | done _ _ a ifDesc eps c one accepts fresh served =>
      exact ⟨a, ifDesc, eps, one, accepts, served.listed.symm⟩

end MikanOs.Usb.Xhci.InitRun
