import MikanOs.Usb.Xhci.ClassStart
import MikanOs.Usb.Xhci.Controller

/-!
# MikanOs.Usb.Xhci.EndpointIndex

A device context index is made of an endpoint address of a descriptor, and
used for the contexts and the transfer rings of a device without a check.
Index 1 is that of the default control pipe and index 0 that of the slot, so
an endpoint of a class driver must have one of 2 to 31.

`indicesOk_iff` says for which configurations that is so, for the endpoints
that are configured and for those the class driver uses later.
-/

namespace MikanOs.Usb.Xhci

open Relation Usb.Device Descriptor

/-- An index for an endpoint other than the default control pipe. -/
def IndexOk (epId : EndpointID) : Prop := 2 ≤ epId.addr ∧ epId.addr ≤ 31

instance (epId : EndpointID) : Decidable (IndexOk epId) := inferInstanceAs (Decidable (_ ∧ _))

/-- Only endpoint 0 has no such index. -/
theorem indexOk_makeEPConfig (env : Env) (q : BitVec 64) :
    IndexOk (makeEPConfig env q).epId ↔ endpointNumber env q ≠ 0 := by
  have hbit := Bool.toNat_le ((byte env q 2).getLsbD 7)
  have hlt := endpointNumber_lt env q
  have haddr : (makeEPConfig env q).epId.addr =
      2 * ((endpointNumber env q : Nat) : Int) + ((byte env q 2).getLsbD 7).toNat := rfl
  rw [IndexOk, haddr]
  omega

theorem not_indexOk_none : ¬ IndexOk EndpointID.none := by
  rintro ⟨htwo, _⟩
  contradiction

/-! ## a device in use -/

namespace Pipes

/-- A completion passed to the base class, whatever it says. -/
inductive Reported (env : Env) (h : Host) (p : Pipes) : Usb.Device → Host → Outcome → Prop
  | control (setupData : SetupData) (buf : BitVec 64) (len : Int)
      (ret : p.base.onControlCompleted env h setupData buf len = .ok (d, h', o)) :
      Reported env h p d h' o
  | interrupt (epId : EndpointID) (len : Int)
      (ret : p.base.onInterruptCompleted env h epId len = .ok (d, h', o)) : Reported env h p d h' o

/-- A call on an initialized device: its class drivers are started, or a
completion is passed on, with the transfer this ends with carried out. -/
inductive Serve (p : Pipes) : Pipes → Prop
  | configured (ret : p.onEndpointsConfigured h = .ok (e, p', h')) : Serve p p'
  | reported (call : Reported env h p d h' o)
      (carried : finish h' { p with base := d } o = .ok (e, p', h'')) : Serve p p'

/-- A class driver calls `InterruptIn` for an endpoint. -/
def Asks (p : Pipes) (epId : EndpointID) : Prop :=
  ∃ env h d h' buf len, Reported env h p d h' (.transfer (.interruptIn epId buf len))

/-- What a completion on an initialized device comes to: an error of the base
class, or a call of one driver, which keeps its endpoints and asks for nothing
but its interrupt-IN endpoint. -/
inductive Handled (d : Usb.Device) : Usb.Device → Outcome → Prop
  | refused (e : Error) : Handled d d (.error e)
  | called (driver : Nat) (c c' : HIDDriver) (found : d.drivers[driver]? = some c)
      (known : (∃ j, d.classDrivers j = some driver) ∨
        ∃ setupData, d.eventWaiters.get setupData = some (some driver))
      (same : c'.epInterruptIn = c.epInterruptIn)
      (asks : (∃ e, o = .error e) ∨
        o = .transfer (.interruptIn c.epInterruptIn c.buf c.inPacketSize)) :
      Handled d { d with drivers := d.drivers.set driver c' } o

/-- `HIDBaseDriver::OnInterruptCompleted`. -/
theorem onInterruptCompleted_ok {env : Env} {h h' : Host} {c c' : HIDDriver} {epId : EndpointID}
    {len : Int} {o : Outcome} (ret : c.onInterruptCompleted env h epId len = .ok (c', h', o)) :
    c'.epInterruptIn = c.epInterruptIn ∧ ((∃ e, o = .error e) ∨
      o = .transfer (.interruptIn c.epInterruptIn c.buf c.inPacketSize)) := by
  unfold HIDDriver.onInterruptCompleted at ret
  split at ret
  · split at ret
    · cases Returns.pure_eq_ok.mp ret
      exact ⟨rfl, .inr rfl⟩
    · exact absurd ret Returns.throw_ne_ok
  · cases Returns.pure_eq_ok.mp ret
    exact ⟨rfl, .inl ⟨_, rfl⟩⟩

theorem onControlCompleted_epInterruptIn (c : HIDDriver) :
    c.onControlCompleted.1.epInterruptIn = c.epInterruptIn := by
  unfold HIDDriver.onControlCompleted
  split <;> rfl

theorem Reported.handled {env : Env} {h h' : Host} {p : Pipes} {d : Usb.Device} {o : Outcome}
    (call : Reported env h p d h' o) (ready : p.base.isInitialized = true) :
    Handled p.base d o := by
  cases call with
  | control setupData buf len ret =>
      rcases (onControlCompleted_completed ret).of_ready ready with
        ⟨rfl, rfl⟩ | ⟨driver, c, waiter, found, rfl, rfl⟩
      · exact .refused _
      · refine .called driver c _ found (.inr ⟨_, waiter⟩) (onControlCompleted_epInterruptIn c) ?_
        exact (InitRun.onControlCompleted_outcome c).imp (fun he => ⟨_, he⟩) id
  | interrupt epId len ret =>
      unfold Usb.Device.onInterruptCompleted at ret
      obtain ⟨num, _, hnum⟩ := Returns.bind_eq_ok.mp ret
      split at hnum
      · cases Returns.pure_eq_ok.mp hnum
        exact .refused _
      · next driver hdriver =>
        obtain ⟨c, hc, hcall⟩ := Returns.bind_eq_ok.mp hnum
        obtain ⟨⟨c', h₁, o₁⟩, hdone, hret⟩ := Returns.bind_eq_ok.mp hcall
        cases Returns.pure_eq_ok.mp hret
        obtain ⟨hsame, hasks⟩ := onInterruptCompleted_ok hdone
        exact .called driver c c' (driverAt_ok hc) (.inl ⟨num, hdriver⟩) hsame hasks

/-- What is carried out of a handled completion is not seen in the base class
object. -/
theorem Handled.finish {h h' : Host} {p p' : Pipes} {d d' : Usb.Device} {o : Outcome} {e : Error}
    (handled : Handled d d' o) (carried : finish h { p with base := d' } o = .ok (e, p', h')) :
    p'.base = d' := by
  have hasks : (∃ e, o = .error e) ∨ ∃ epId buf len, o = .transfer (.interruptIn epId buf len) := by
    cases handled with
    | refused e => exact .inl ⟨e, rfl⟩
    | called driver c c' found known same asks =>
        exact asks.imp id fun ho => ⟨_, _, _, ho⟩
  rcases hasks with ⟨e₀, rfl⟩ | ⟨epId, buf, len, rfl⟩
  · rw [(InitRun.finish_error carried).2]
  · exact (InitRun.finish_transfer rfl carried).2

/-! ## what use keeps -/

/-- An initialized device whose one class driver has an interrupt-IN endpoint
`epId`, whoever waits. -/
structure Uses (epId : EndpointID) (classDrivers : Nat → Option Nat) (d : Usb.Device) : Prop where
  ready : d.isInitialized = true
  classDrivers : d.classDrivers = classDrivers
  driver : ∃ c, d.drivers = [c] ∧ c.epInterruptIn = epId

/-- An initialized device that no driver serves, and nobody waits for. -/
structure Unused (d : Usb.Device) : Prop where
  ready : d.isInitialized = true
  classDrivers : ∀ j, d.classDrivers j = none
  eventWaiters : ∀ setupData, d.eventWaiters.get setupData = none

variable {p p' : Pipes} {epId : EndpointID} {classDrivers : Nat → Option Nat}

/-- Starting class drivers changes neither their endpoints nor who they are. -/
theorem Uses.startEach {h h' : Host} {e : Error} {drivers : List Nat}
    (hp : Uses epId classDrivers p.base) (ret : p.startEach h drivers = .ok (e, p', h')) :
    Uses epId classDrivers p'.base := by
  induction drivers generalizing p h with
  | nil =>
      cases Returns.pure_eq_ok.mp ret
      exact hp
  | cons driver rest ih =>
      obtain ⟨c, hc, hrest⟩ := Returns.bind_eq_ok.mp ret
      obtain ⟨⟨e₁, p₁, h₁⟩, hrun, hnext⟩ := Returns.bind_eq_ok.mp hrest
      have hp₁ : Uses epId classDrivers p₁.base := by
        obtain ⟨c₀, hone, hep⟩ := hp.driver
        obtain ⟨rfl, hc₀⟩ := eq_of_only hone (driverAt_ok hc)
        have hbase := (run_returns _ _ _ _ hrun).2
        simp only at hbase
        rw [hbase]
        refine ⟨hp.ready, hp.classDrivers, c.started, ?_, hc₀ ▸ hep⟩
        show p.base.drivers.set 0 _ = _
        rw [hone]
        rfl
      simp only at hnext
      split at hnext
      · exact ih hp₁ hnext
      · cases Returns.pure_eq_ok.mp hnext
        exact hp₁

/-- A completion reaches the one driver, which keeps its endpoint and asks for
nothing else. -/
theorem Uses.handled {d d' : Usb.Device} {o : Outcome} (hd : Uses epId classDrivers d)
    (handled : Handled d d' o) : Uses epId classDrivers d' ∧
      ((∃ e, o = .error e) ∨ ∃ buf len, o = .transfer (.interruptIn epId buf len)) := by
  cases handled with
  | refused e => exact ⟨hd, .inl ⟨e, rfl⟩⟩
  | called driver c c' found known same asks =>
      obtain ⟨c₀, hone, rfl⟩ := hd.driver
      obtain ⟨rfl, rfl⟩ := eq_of_only hone found
      refine ⟨⟨hd.ready, hd.classDrivers, c', ?_, same⟩, asks.imp id fun ho => ⟨_, _, ho⟩⟩
      show d.drivers.set 0 c' = [c']
      rw [hone]
      rfl

/-- Every call keeps the endpoints. -/
theorem Uses.serve (hp : Uses epId classDrivers p.base) (hstep : Serve p p') :
    Uses epId classDrivers p'.base := by
  cases hstep with
  | configured ret =>
      rw [onEndpointsConfigured_eq] at ret
      exact hp.startEach ret
  | reported call carried =>
      have handled := call.handled hp.ready
      rw [handled.finish carried]
      exact (hp.handled handled).1

/-- The driver asks for its own endpoint only. -/
theorem Uses.asks {x : EndpointID} (hp : Uses epId classDrivers p.base) (hasks : Asks p x) :
    x = epId := by
  obtain ⟨env, h, d, h', buf, len, call⟩ := hasks
  rcases (hp.handled (call.handled hp.ready)).2 with ⟨e, he⟩ | ⟨buf', len', ho⟩
  · contradiction
  · cases ho
    rfl

/-- A completion reaches nobody on a device that no driver serves. -/
theorem Unused.handled {d d' : Usb.Device} {o : Outcome} (hd : Unused d)
    (handled : Handled d d' o) : d' = d ∧ ∃ e, o = .error e := by
  cases handled with
  | refused e => exact ⟨rfl, e, rfl⟩
  | called driver c c' found known same asks =>
      rcases known with ⟨j, hj⟩ | ⟨setupData, hwait⟩
      · rw [hd.classDrivers] at hj; contradiction
      · rw [hd.eventWaiters] at hwait; contradiction

/-- Nothing happens to such a device. -/
theorem Unused.serve (hp : Unused p.base) (hstep : Serve p p') : Unused p'.base := by
  cases hstep with
  | configured ret =>
      have hnone : starts p.base = [] :=
        List.filterMap_eq_nil_iff.mpr fun j _ => hp.classDrivers j
      rw [onEndpointsConfigured_eq, hnone] at ret
      cases Returns.pure_eq_ok.mp ret
      exact hp
  | reported call carried =>
      have handled := call.handled hp.ready
      rw [handled.finish carried, (hp.handled handled).1]
      exact hp

theorem Unused.not_asks {x : EndpointID} (hp : Unused p.base) : ¬ Asks p x := by
  rintro ⟨env, h, d, h', buf, len, call⟩
  obtain ⟨_, e, he⟩ := hp.handled (call.handled hp.ready)
  contradiction

end Pipes

/-! ## `ConfigureEndpoints` -/

namespace Controller

/-- Setting a bit other than the slot's. -/
theorem addContextFlags_enableEndpoint (c : InputContext) {dci : Nat} (h : 0 < dci) :
    (InputControlContext.addContextFlags.get
        (c.enableEndpoint dci).inputControlContext).getLsbD 0 =
      (InputControlContext.addContextFlags.get c.inputControlContext).getLsbD 0 := by
  have hbit : (1#32 <<< dci).getLsbD 0 = false := by
    rw [BitVec.getLsbD_shiftLeft]
    simp [h]
  simp only [InputContext.enableEndpoint, InputContext.addContext, BitField.get_put,
    BitVec.getLsbD_or, hbit, Bool.or_false]

/-- What `ConfigureEndpoints` leaves alone. -/
structure Spares (dev dev' : Device) : Prop where
  /-- the ring of the default control pipe is not replaced -/
  ring : dev'.pipes.transferRings 0 = dev.pipes.transferRings 0
  /-- no endpoint sets the flag of the slot context -/
  slot : (InputControlContext.addContextFlags.get
      dev'.inputCtx.inputControlContext).getLsbD 0 =
    (InputControlContext.addContextFlags.get dev.inputCtx.inputControlContext).getLsbD 0

/-- A new ring is put in its place, and in no other. -/
theorem installRing_eq (env : Env) (p : Pipes) (i bufSize : Nat) (a : BitVec 64 × Host) :
    ∃ tr h', p.installRing env i bufSize a =
      (tr, { p with transferRings := update p.transferRings i tr }, h') := by
  unfold Pipes.installRing
  split
  · exact ⟨none, a.2, rfl⟩
  · exact ⟨some _, _, rfl⟩

theorem allocTransferRing_ok (env : Env) (h : Host) (p : Pipes) (bufSize : Nat) {dci : Int}
    {i : Nat} (hi : checked 31 (dci - 1) = .ok i) : ∃ tr h',
      p.allocTransferRing env h dci bufSize =
        .ok (tr, { p with transferRings := update p.transferRings i tr }, h') := by
  obtain ⟨tr, h', hinstall⟩ := installRing_eq env p i bufSize
    (h.allocArray env Pipes.sizeofRing 1 64#32 4096#32)
  refine ⟨tr, h', ?_⟩
  rw [Pipes.allocTransferRing, hi, ← hinstall]
  rfl

/-- The device after a round of `ConfigureEndpoints`. -/
def configured (speed : BitVec 4) (dev : Device) (config : EndpointConfig) (d : Nat) (tr : Ring) :
    Device :=
  let input := dev.inputCtx.enableEndpoint (d + 1)
  let ctx := initializeEndpointContext (input.epContexts d) speed config tr
  { dev with
    inputCtx := { input with epContexts := update input.epContexts d ctx }
    pipes := { dev.pipes with transferRings := update dev.pipes.transferRings d (some tr) } }

/-- A round of `ConfigureEndpoints` on an index inside the arrays. -/
theorem configureEach_succ (env : Env) (speed : BitVec 4) (h : Host) {dev : Device} (n : Nat)
    {i d : Nat} (hi : i < 16)
    (hd : checked 31 ((dev.pipes.base.epConfigs i).epId.addr - 1) = .ok d) :
    configureEach env speed h dev (n + 1) i = .error .nullPointer ∨
      ∃ tr h', dev.pipes.allocTransferRing env h (dev.pipes.base.epConfigs i).epId.addr 32 =
          .ok (some tr, { dev.pipes with
            transferRings := update dev.pipes.transferRings d (some tr) }, h') ∧
        configureEach env speed h dev (n + 1) i = configureEach env speed h'
          (configured speed dev (dev.pipes.base.epConfigs i) d tr) n (i + 1) := by
  have hk : checked 16 (i : Int) = .ok i := checked_eq_ok.mpr ⟨by omega, by omega⟩
  obtain ⟨tr, h', halloc⟩ := allocTransferRing_ok env h dev.pipes 32 hd
  rw [configureEach]
  simp only [hk, bind, Except.bind, hd, halloc]
  cases tr with
  | none => exact .inl rfl
  | some tr => exact .inr ⟨tr, h', rfl, rfl⟩

/-- A round that got through has made a ring. -/
theorem configureEach_round {env : Env} {speed : BitVec 4} {h : Host} {dev : Device} {n i : Nat}
    {r : Device × Host} (ret : configureEach env speed h dev (n + 1) i = .ok r) :
    i < 16 ∧ ∃ d tr h', checked 31 ((dev.pipes.base.epConfigs i).epId.addr - 1) = .ok d ∧
      dev.pipes.allocTransferRing env h (dev.pipes.base.epConfigs i).epId.addr 32 =
        .ok (some tr, { dev.pipes with
          transferRings := update dev.pipes.transferRings d (some tr) }, h') ∧
      configureEach env speed h' (configured speed dev (dev.pipes.base.epConfigs i) d tr) n
        (i + 1) = .ok r := by
  obtain ⟨k, hk, hrest⟩ := Returns.bind_eq_ok.mp ret
  obtain ⟨⟨_, hsixteen⟩, hki⟩ := checked_eq_ok.mp hk
  obtain rfl : i = k := by omega
  obtain ⟨d, hd, _⟩ := Returns.bind_eq_ok.mp hrest
  have hi : i < 16 := by omega
  rcases configureEach_succ env speed h n hi hd with hnull | ⟨tr, h', halloc, hnext⟩
  · rw [hnull] at ret
    contradiction
  · exact ⟨hi, d, tr, h', hd, halloc, hnext ▸ ret⟩

/-- With valid indices the loop of `ConfigureEndpoints` stays inside its
arrays; only a ring it cannot have can stop it. -/
theorem configureEach_inside {env : Env} {speed : BitVec 4} {n i : Nat} (few : i + n ≤ 16)
    (h : Host) {dev : Device}
    (hok : ∀ j, i ≤ j → j < i + n → IndexOk (dev.pipes.base.epConfigs j).epId) :
    configureEach env speed h dev n i = .error .nullPointer ∨
      ∃ dev' h', configureEach env speed h dev n i = .ok (dev', h') ∧ Spares dev dev' := by
  induction n generalizing h dev i with
  | zero => exact .inr ⟨dev, h, rfl, rfl, rfl⟩
  | succ n ih =>
      obtain ⟨htwo, hmax⟩ := hok i (Nat.le_refl i) (by omega)
      have hdci : checked 31 ((dev.pipes.base.epConfigs i).epId.addr - 1) =
          .ok ((dev.pipes.base.epConfigs i).epId.addr - 1).toNat :=
        checked_eq_ok.mpr ⟨by omega, rfl⟩
      generalize hplace : ((dev.pipes.base.epConfigs i).epId.addr - 1).toNat = d at hdci
      rcases configureEach_succ env speed h n (by omega) hdci with hnull | ⟨tr, h', _, hnext⟩
      · exact .inl hnull
      · have hrest : ∀ j, i + 1 ≤ j → j < i + 1 + n →
            IndexOk (dev.pipes.base.epConfigs j).epId :=
          fun j hj hj' => hok j (by omega) (by omega)
        rw [hnext]
        refine (@ih (i + 1) (by omega) h' (configured speed dev _ d tr) hrest).imp id ?_
        rintro ⟨dev', h'', hret, hspares⟩
        refine ⟨dev', h'', hret, hspares.ring.trans ?_, hspares.slot.trans ?_⟩
        · exact update_ne (by omega) _ _
        · exact addContextFlags_enableEndpoint dev.inputCtx (Nat.succ_pos d)

end Controller

/-! ## the theorem -/

namespace InitRun

/-- Every index an endpoint of the device is used with is valid, as far as it
is configured and as far as a class driver asks for it in the course of any
use of the device. -/
structure IndicesOk (d : Usb.Device) : Prop where
  configured : ∀ config ∈ d.configs, IndexOk config.epId
  asked : ∀ p q epId, p.base = d → ReflTransGen Pipes.Serve p q → q.Asks epId → IndexOk epId

/-- A driver that is registered can be started, and then asks for its
interrupt-IN endpoint. -/
theorem asks_of_registered {d : Usb.Device} {configs : List EndpointConfig} {c : HIDDriver}
    (served : d.Served configs c) (ready : d.isInitialized = true) {j : Nat} (hj : j < 16)
    (registered : d.classDrivers j = some 0) :
    ∃ p q, p.base = d ∧ ReflTransGen Pipes.Serve p q ∧ q.Asks c.epInterruptIn := by
  have hmem : 0 ∈ Pipes.starts d := Pipes.mem_starts.mpr ⟨j, hj, registered⟩
  obtain ⟨rest, hstarts⟩ : ∃ rest, Pipes.starts d = 0 :: rest := by
    have hall := starts_eq_replicate served
    cases hn : (Pipes.starts d).length with
    | zero => rw [List.length_eq_zero_iff.mp hn] at hmem; contradiction
    | succ n => exact ⟨_, by rw [hall, hn]; rfl⟩
  have hdriver : d.driverAt 0 = .ok c := by
    rw [Usb.Device.driverAt, served.drivers]
    rfl
  -- without a ring the request fails, but its issuer has been registered
  have hret : (bare d).onEndpointsConfigured ⟨0x100000#64, []⟩ =
      .ok (.kTransferRingNotSet, bare (begun d c), ⟨0x100000#64, []⟩) := by
    have hbase : (bare d).base = d := rfl
    rw [Pipes.onEndpointsConfigured_eq, hbase, hstarts]
    simp only [Pipes.startEach, hbase, hdriver, HIDDriver.onEndpointsConfigured_eq, bind,
      Except.bind, served.drivers]
    rfl
  refine ⟨bare d, bare (begun d c), rfl, .single (.configured hret), ?_⟩
  exact ⟨Env.zero poolAtMiB, ⟨0x100000#64, []⟩, _, _, _, _,
    .control c.setProtocol 0#64 0 (begun_accepts served ready _ _ _ _)⟩

/-- On a device whose indices are valid a driver with an endpoint has an
interrupt-IN endpoint. -/
theorem interruptIn_of_indicesOk {d : Usb.Device} {env : Env} {eps : List (BitVec 64)}
    {c : HIDDriver} (fresh : Fresh c) (served : d.Served (eps.map (makeEPConfig env))
      ((eps.map (makeEPConfig env)).foldl HIDDriver.setEndpoint c))
    (ready : d.isInitialized = true) (hok : IndicesOk d) :
    eps = [] ∨ ∃ q ∈ eps, InterruptIn env q := by
  refine Classical.byContradiction fun hnot => ?_
  obtain ⟨hne, hnone⟩ := not_or.mp hnot
  obtain ⟨x, hx⟩ := List.exists_mem_of_ne_nil eps hne
  obtain ⟨p, q, base, hserve, hasks⟩ := asks_of_registered served ready
    (endpointNumber_lt env x) (registered_of_mem served hx)
  have hindex := hok.asked p q _ base hserve hasks
  rcases HIDDriver.foldl_setEndpoint_epInterruptIn (eps.map (makeEPConfig env)) c with
    ⟨config, hmem, hin, _⟩ | ⟨_, hkeep⟩
  · obtain ⟨y, hy, rfl⟩ := List.mem_map.mp hmem
    exact hnone ⟨y, hy, (interruptIn_iff env y).mp hin⟩
  · rw [hkeep, fresh.idle.2] at hindex
    exact not_indexOk_none hindex

/-- No driver without endpoints asks for a transfer. -/
theorem not_asks_of_unused {d : Usb.Device} {c : HIDDriver} (served : d.Served [] c)
    (ready : d.isInitialized = true) {p q : Pipes} {epId : EndpointID} (base : p.base = d)
    (hserve : ReflTransGen Pipes.Serve p q) : ¬ q.Asks epId := by
  have hunused : Pipes.Unused p.base := by
    rw [base]
    refine ⟨ready, fun j => ?_, fun setupData => ?_⟩
    · rw [served.classDrivers, if_neg (by simp)]
    · rw [served.eventWaiters, ArrayMap.get_new]
  have hstep : ∀ p p' : Pipes, Pipes.Unused p.base → Pipes.Serve p p' →
      Pipes.Unused p'.base := fun _ _ => Pipes.Unused.serve
  exact (Run.invariant hstep hunused hserve).not_asks

/-- Whatever a device is used for, its driver asks for the interrupt-IN endpoint
it has been given. -/
theorem eq_of_asks {d : Usb.Device} {configs : List EndpointConfig} {c : HIDDriver}
    (served : d.Served configs c) (ready : d.isInitialized = true) {p q : Pipes}
    {epId : EndpointID} (base : p.base = d) (hserve : ReflTransGen Pipes.Serve p q)
    (hasks : q.Asks epId) : epId = c.epInterruptIn := by
  have huses : Pipes.Uses c.epInterruptIn d.classDrivers p.base := by
    rw [base]
    exact ⟨ready, rfl, c, served.drivers, rfl⟩
  have hstep : ∀ p p' : Pipes, Pipes.Uses c.epInterruptIn d.classDrivers p.base →
      Pipes.Serve p p' → Pipes.Uses c.epInterruptIn d.classDrivers p'.base :=
    fun _ _ => Pipes.Uses.serve
  exact (Run.invariant hstep huses hserve).asks hasks

/-- **Endpoint indices are valid** exactly when no endpoint of the interface
has number 0, and one of them is an interrupt-IN endpoint unless there are
none.  Then `ConfigureEndpoints` stays inside its arrays, and leaves the
default control pipe and the flag of the slot context alone. -/
theorem indicesOk_iff {this : BitVec 64} {s : InitRun}
    (hrun : ReflTransGen Step (start (Usb.Device.new this)) s)
    (ready : s.device.isInitialized = true) {a : Delivery} (one : s.accepted = [a])
    {ifDesc : BitVec 64} {eps : List (BitVec 64)}
    (accepts : Accepts a.env a.buf a.len ifDesc eps) :
    (IndicesOk s.device ↔ (∀ q ∈ eps, endpointNumber a.env q ≠ 0) ∧
      (eps = [] ∨ ∃ q ∈ eps, InterruptIn a.env q)) ∧
    (IndicesOk s.device → ∀ env speed h dev, dev.pipes.base = s.device →
      Controller.configureEach env speed h dev s.device.numEpConfigs 0 = .error .nullPointer ∨
        ∃ dev' h', Controller.configureEach env speed h dev s.device.numEpConfigs 0 =
          .ok (dev', h') ∧ Controller.Spares dev dev') := by
  obtain ⟨c, fresh, served⟩ := served_of_initialized hrun ready one accepts
  have hconfigs : (∀ config ∈ s.device.configs, IndexOk config.epId) ↔
      ∀ q ∈ eps, endpointNumber a.env q ≠ 0 := by
    rw [served.listed, List.forall_mem_map]
    simp only [indexOk_makeEPConfig]
  refine ⟨⟨fun hok => ⟨hconfigs.mp hok.configured,
    interruptIn_of_indicesOk fresh served ready hok⟩, fun ⟨hnumbers, hin⟩ =>
    ⟨hconfigs.mpr hnumbers, fun p q epId base hserve hasks => ?_⟩⟩, ?_⟩
  · rcases hin with rfl | ⟨x, hx, hin⟩
    · exact absurd hasks (not_asks_of_unused served ready base hserve)
    · rw [eq_of_asks served ready base hserve hasks]
      rcases HIDDriver.foldl_setEndpoint_epInterruptIn (eps.map (makeEPConfig a.env)) c with
        ⟨config, hmem, _, heq⟩ | ⟨hnone, _⟩
      · obtain ⟨y, hy, rfl⟩ := List.mem_map.mp hmem
        rw [heq]
        exact (indexOk_makeEPConfig a.env y).mpr (hnumbers y hy)
      · exact absurd ((interruptIn_iff a.env x).mpr hin) (hnone _ (List.mem_map_of_mem hx))
  · intro hok env speed h dev base
    have hfew := served.few
    rw [← served.numEpConfigs] at hfew
    refine Controller.configureEach_inside (by omega) h fun j _ hj => ?_
    rw [base]
    exact hok.configured _ (List.mem_map.mpr ⟨j, List.mem_range.mpr (by omega), rfl⟩)

/-! ## keyboards -/

/-- The indices of a keyboard with an interrupt-IN endpoint 1 are valid. -/
theorem indicesOk_keyboard : ∃ s, ReflTransGen Step (start sampleDevice) s ∧
    s.device.isInitialized = true ∧ IndicesOk s.device := by
  have hready : (bringUp [0x81]).toOption.map
      (fun s => (s.device.isInitialized, s.device.configs)) =
        some (true, [⟨⟨3⟩, .kInterrupt, 8, 10⟩]) := by
    decide +kernel
  obtain ⟨s, hrun, hs⟩ := exists_of_bringUp hready
  obtain ⟨ready, hlisted⟩ := Prod.mk.inj hs
  obtain ⟨a, ifDesc, eps, one, accepts, hconfigs⟩ := accepted_of_initialized hrun ready
  rw [hlisted] at hconfigs
  obtain ⟨q, rfl, hq⟩ := List.map_eq_singleton_iff.mp hconfigs
  refine ⟨s, hrun, ready, (indicesOk_iff hrun ready one accepts).1.mpr ⟨fun x hx => ?_, .inr ?_⟩⟩
  · rw [List.mem_singleton.mp hx, ← indexOk_makeEPConfig, hq]
    exact ⟨by decide, by decide⟩
  · refine ⟨q, List.mem_cons_self, (interruptIn_iff a.env q).mp ?_⟩
    rw [hq]
    exact ⟨rfl, rfl⟩

/-- An endpoint 0 is configured with the index of the default control pipe;
and a driver without an interrupt-IN endpoint asks for index 0. -/
theorem not_indicesOk :
    (∃ s a ifDesc eps, ReflTransGen Step (start sampleDevice) s ∧
      s.device.isInitialized = true ∧ s.accepted = [a] ∧ Accepts a.env a.buf a.len ifDesc eps ∧
      s.device.configs.map (fun config => config.epId.addr) = [1] ∧ ¬ IndicesOk s.device) ∧
    ∃ s a ifDesc eps, ReflTransGen Step (start sampleDevice) s ∧
      s.device.isInitialized = true ∧ s.accepted = [a] ∧ Accepts a.env a.buf a.len ifDesc eps ∧
      (∃ p q, p.base = s.device ∧ ReflTransGen Pipes.Serve p q ∧ q.Asks ⟨0⟩) ∧
      ¬ IndicesOk s.device := by
  constructor
  · have hready : (bringUp [0x80]).toOption.map (fun s => (s.device.isInitialized,
        s.device.configs.map fun config => config.epId.addr)) = some (true, [1]) := by
      decide +kernel
    obtain ⟨s, hrun, hs⟩ := exists_of_bringUp hready
    obtain ⟨ready, haddrs⟩ := Prod.mk.inj hs
    obtain ⟨a, ifDesc, eps, one, accepts, _⟩ := accepted_of_initialized hrun ready
    refine ⟨s, a, ifDesc, eps, hrun, ready, one, accepts, haddrs, fun hok => ?_⟩
    obtain ⟨config, hlisted, haddr⟩ := List.map_eq_singleton_iff.mp haddrs
    have hindex := hok.configured config (by rw [hlisted]; exact List.mem_cons_self)
    rw [IndexOk, haddr] at hindex
    omega
  · have hready : (bringUp [0x02]).toOption.map (fun s => (s.device.isInitialized,
        s.device.drivers.map HIDDriver.epInterruptIn, s.device.classDrivers 2)) =
          some (true, [⟨0⟩], some 0) := by
      decide +kernel
    obtain ⟨s, hrun, hs⟩ := exists_of_bringUp hready
    obtain ⟨ready, hrest⟩ := Prod.mk.inj hs
    obtain ⟨hdrivers, hreg⟩ := Prod.mk.inj hrest
    obtain ⟨a, ifDesc, eps, one, accepts, _⟩ := accepted_of_initialized hrun ready
    obtain ⟨c, _, served⟩ := served_of_initialized hrun ready one accepts
    rw [served.drivers] at hdrivers
    obtain ⟨p, q, base, hserve, hasks⟩ := asks_of_registered served ready (by decide) hreg
    rw [(List.cons.inj hdrivers).1] at hasks
    refine ⟨s, a, ifDesc, eps, hrun, ready, one, accepts, ⟨p, q, base, hserve, hasks⟩,
      fun hok => ?_⟩
    exact not_indexOk_none (hok.asked p q _ base hserve hasks)

end InitRun

end MikanOs.Usb.Xhci
