import MikanOs.Usb.Xhci.ClassStart

/-!
# MikanOs.Usb.Xhci.Waiters

Which class driver is told that a control request has been completed.  The
issuer of a request is looked up by its `SetupData` in `event_waiters_`, a map
of four entries that every request is added to and none removed from: it holds
the first four requests of the device, and the first of them with the same
`SetupData` decides.
-/

namespace MikanOs.Usb.Xhci

open Relation Usb.Device

/-- A device, and the requests that its class drivers have issued: their
`SetupData`, and who issued them. -/
structure WaiterRun where
  pipes : Pipes
  issued : List (SetupData × Nat)

namespace WaiterRun

/-! ## the run -/

/-- One step of a run: a class driver issues a request, which is completed; or
class drivers do anything else, to themselves and to the rings. -/
inductive Step : WaiterRun → WaiterRun → Prop
  | request (s : WaiterRun) (q : ControlRequest) (driver : Nat) (issuer : q.issuer = some driver)
      (real : driver < s.pipes.base.drivers.length)
      (call : q.call h s.pipes = .ok (.kSuccess, p, h')) (buf : BitVec 64) (len : Int)
      (completed : p.base.onControlCompleted env host q.setupData buf len = .ok (d, host', o))
      (carried : Pipes.finish host' { p with base := d } o = .ok (e, p', host'')) :
      Step s ⟨p', s.issued ++ [(q.setupData, driver)]⟩
  | other (s : WaiterRun) (p' : Pipes) (drivers : List HIDDriver)
      (objects : drivers.length = s.pipes.base.drivers.length)
      (base : p'.base = { s.pipes.base with drivers := drivers }) : Step s ⟨p', s.issued⟩

/-- The issuer of the first of some requests with some `SetupData`. -/
def firstIssuer (requests : List (SetupData × Nat)) (setupData : SetupData) : Option Nat :=
  (requests.find? fun r => r.1 = setupData).map Prod.snd

/-- What holds in every reachable state: the map holds the first requests. -/
structure Inv (s : WaiterRun) : Prop where
  ready : s.pipes.base.isInitialized = true
  waiters : s.pipes.base.eventWaiters.table =
    ArrayMap.slotsOf 4 none (s.issued.map fun r => (r.1, some r.2))

/-- What the map finds. -/
theorem Inv.get (h : Inv s) (setupData : SetupData) :
    s.pipes.base.eventWaiters.get setupData =
      (firstIssuer (s.issued.take 4) setupData).map some := by
  rw [ArrayMap.get, h.waiters, ArrayMap.getFrom_slotsOf, ← List.map_take, List.find?_map,
    firstIssuer, Option.map_map, Option.map_map]
  rfl

/-- A call adds its request. -/
theorem Inv.call {q : ControlRequest} {driver : Nat} {h h' : Host} {e : Error} {p : Pipes}
    (hs : Inv s) (issuer : q.issuer = some driver) (call : q.call h s.pipes = .ok (e, p, h')) :
    Inv ⟨p, s.issued ++ [(q.setupData, driver)]⟩ := by
  rw [q.call_eq_control] at call
  have hbase := (Pipes.control_returns _ _ _ _ _ _ _ _ _ _ _ call).2
  rw [issuer] at hbase
  refine ⟨?_, ?_⟩
  · show p.base.isInitialized = true
    rw [hbase]
    exact hs.ready
  · show p.base.eventWaiters.table = _
    rw [hbase, List.map_append]
    show ArrayMap.putFrom _ _ _ = _
    rw [hs.waiters]
    exact ArrayMap.putFrom_slotsOf none _ _ _

/-- A completion leaves the map alone. -/
theorem Inv.completed {h h' : Host} {env : Env} {setupData : SetupData} {buf : BitVec 64}
    {len : Int} {d : Usb.Device} {o : Outcome} {e : Error} {p' : Pipes} (hs : Inv s)
    (completed : s.pipes.base.onControlCompleted env h setupData buf len = .ok (d, h', o))
    (carried : Pipes.finish h' { s.pipes with base := d } o = .ok (e, p', h'')) :
    Inv ⟨p', s.issued⟩ := by
  have hcompleted := onControlCompleted_completed completed
  have hbase : p'.base = d :=
    InitRun.finish_base (p := { s.pipes with base := d }) hcompleted carried
  have hd : ∃ drivers, d = { s.pipes.base with drivers := drivers } := by
    rcases hcompleted.of_ready hs.ready with ⟨rfl, _⟩ | ⟨_, _, _, _, rfl, _⟩
    · exact ⟨_, rfl⟩
    · exact ⟨_, rfl⟩
  obtain ⟨drivers, rfl⟩ := hd
  exact ⟨by rw [hbase]; exact hs.ready, by rw [hbase]; exact hs.waiters⟩

/-- Every step keeps the invariant. -/
theorem Inv.step (s t : WaiterRun) (hs : Inv s) (hstep : Step s t) : Inv t := by
  cases hstep with
  | request _ q driver issuer _ call buf len completed carried =>
      exact (hs.call issuer call).completed completed carried
  | other _ p' drivers _ base =>
      exact ⟨by rw [base]; exact hs.ready, by rw [base]; exact hs.waiters⟩

/-- A device that has just been initialized, of any class drivers. -/
structure Idle (p : Pipes) : Prop where
  ready : p.base.isInitialized = true
  eventWaiters : p.base.eventWaiters = ArrayMap.new 4 none

/-- Initialization leaves the map empty. -/
theorem idle_of_initialized {this : BitVec 64} {s : InitRun} {p : Pipes}
    (hrun : ReflTransGen InitRun.Step (InitRun.start (Usb.Device.new this)) s)
    (ready : s.device.isInitialized = true) (base : p.base = s.device) : Idle p := by
  refine ⟨by rw [base]; exact ready, ?_⟩
  rw [base]
  cases InitRun.tables hrun with
  | early _ starting => rw [starting] at ready; contradiction
  | chosen _ starting => rw [starting] at ready; contradiction
  | done _ _ _ _ _ _ _ _ _ served => exact served.eventWaiters

theorem Idle.inv {p : Pipes} (h : Idle p) : Inv ⟨p, []⟩ :=
  ⟨h.ready, by rw [h.eventWaiters]; rfl⟩

/-! ## the theorem -/

/-- A completion is passed to a class driver, whatever that and the others are
doing, and the answer is not that nobody waits. -/
structure Forwarded (p : Pipes) (setupData : SetupData) (driver : Nat) : Prop where
  passed : ∀ env h buf len (drivers : List HIDDriver) c, drivers[driver]? = some c →
    { p.base with drivers := drivers }.onControlCompleted env h setupData buf len =
      .ok ({ p.base with drivers := drivers.set driver c.onControlCompleted.1 }, h,
        c.onControlCompleted.2)
  awaited : ∀ env h epId buf len (drivers : List HIDDriver), driver < drivers.length →
    Returns ({ p with base := { p.base with drivers := drivers } }.report env h
      (.control epId setupData buf len)) fun r => r.1 ≠ .kNoWaiter

/-- A completion goes to whom the map finds. -/
theorem onControlCompleted_eq {d : Usb.Device} {setupData : SetupData} {driver : Nat}
    {c : HIDDriver} (ready : d.isInitialized = true)
    (waiter : d.eventWaiters.get setupData = some (some driver))
    (found : d.drivers[driver]? = some c) (env : Env) (h : Host) (buf : BitVec 64) (len : Int) :
    d.onControlCompleted env h setupData buf len =
      .ok ({ d with drivers := d.drivers.set driver c.onControlCompleted.1 }, h,
        c.onControlCompleted.2) := by
  unfold Usb.Device.onControlCompleted Usb.Device.driverAt
  rw [if_pos ready, waiter]
  simp only [found]
  rfl

/-- Who is told does not answer that nobody waits. -/
theorem report_ne_kNoWaiter {p : Pipes} {setupData : SetupData} {driver : Nat} {c : HIDDriver}
    (ready : p.base.isInitialized = true)
    (waiter : p.base.eventWaiters.get setupData = some (some driver))
    (found : p.base.drivers[driver]? = some c) (env : Env) (h : Host) (epId : EndpointID)
    (buf : BitVec 64) (len : Int) :
    Returns (p.report env h (.control epId setupData buf len)) fun r => r.1 ≠ .kNoWaiter := by
  unfold Pipes.report
  simp only [onControlCompleted_eq ready waiter found, bind, Except.bind]
  rcases InitRun.onControlCompleted_outcome c with ho | ho
  · rw [ho]
    exact .of_pure (by simp)
  · rw [ho]
    intro r hret
    obtain ⟨herr, _⟩ :=
      Pipes.run_returns h _ (.interruptIn c.epInterruptIn c.buf c.inPacketSize) r hret
    rcases herr with he | he | he <;> rw [he] <;> simp

/-- A keyboard driver in some phase. -/
def keyboardIn (phase : Nat) : HIDDriver :=
  { HIDDriver.new 0x300000#64 .keyboard 0#8 with initializePhase := phase }

/-- The driver that the map finds is told. -/
theorem forwarded_of_get {p : Pipes} {setupData : SetupData} {driver : Nat}
    (ready : p.base.isInitialized = true)
    (waiter : p.base.eventWaiters.get setupData = some (some driver)) :
    Forwarded p setupData driver where
  passed env h buf len drivers _ found :=
    onControlCompleted_eq (d := { p.base with drivers := drivers }) ready waiter found env h buf len
  awaited env h epId buf len drivers hlt :=
    report_ne_kNoWaiter (p := { p with base := { p.base with drivers := drivers } }) ready waiter
      (List.getElem?_eq_getElem hlt) env h epId buf len

/-- Nobody else is. -/
theorem get_of_forwarded {p : Pipes} {setupData : SetupData} {driver : Nat}
    (ready : p.base.isInitialized = true) (forwarded : Forwarded p setupData driver) :
    p.base.eventWaiters.get setupData = some (some driver) := by
  -- only this driver waits for a completion
  let drivers (n : Nat) : List HIDDriver :=
    (List.replicate n (keyboardIn 0)).set driver (keyboardIn 1)
  have hpassed := fun n (hn : driver < n) => forwarded.passed (Env.zero poolAtMiB) ⟨0#64, []⟩ 0#64 0
    (drivers n) (keyboardIn 1) (by simp [drivers, hn])
  cases hget : p.base.eventWaiters.get setupData with
  | none =>
      have hret := hpassed (driver + 1) (Nat.lt_succ_self driver)
      unfold Usb.Device.onControlCompleted at hret
      rw [if_pos ready] at hret
      simp only [hget] at hret
      obtain ⟨_, ho⟩ := Prod.mk.inj (Prod.mk.inj (Except.ok.inj hret)).2
      contradiction
  | some waiter =>
      cases waiter with
      | none =>
          have hret := hpassed (driver + 1) (Nat.lt_succ_self driver)
          unfold Usb.Device.onControlCompleted at hret
          rw [if_pos ready] at hret
          simp only [hget] at hret
          contradiction
      | some other =>
          by_cases hother : other = driver
          · rw [hother]
          · have hret := hpassed (max other driver + 1) (by omega)
            have hfound : (drivers (max other driver + 1))[other]? = some (keyboardIn 0) := by
              simp only [drivers, List.getElem?_set_ne (Ne.symm hother)]
              rw [List.getElem?_replicate, if_pos (by omega)]
            rw [onControlCompleted_eq (d := { p.base with drivers := drivers _ }) ready hget
              hfound] at hret
            obtain ⟨_, ho⟩ := Prod.mk.inj (Prod.mk.inj (Except.ok.inj hret)).2
            contradiction

/-- **Control completions reach their issuer** exactly when the first request
with this `SetupData`, among the first four requests that the class drivers of
the device have issued, was issued by the same driver. -/
theorem forwarded_iff {p₀ p : Pipes} (idle : Idle p₀) {s : WaiterRun}
    (hrun : ReflTransGen Step ⟨p₀, []⟩ s) {q : ControlRequest} {driver : Nat}
    (issuer : q.issuer = some driver) {h h' : Host}
    (call : q.call h s.pipes = .ok (.kSuccess, p, h')) :
    Forwarded p q.setupData driver ↔
      firstIssuer ((s.issued ++ [(q.setupData, driver)]).take 4) q.setupData = some driver := by
  have hinv := (Run.invariant Inv.step idle.inv hrun).call issuer call
  have hget := hinv.get q.setupData
  constructor
  · intro forwarded
    rw [get_of_forwarded hinv.ready forwarded] at hget
    cases hfirst : firstIssuer ((s.issued ++ [(q.setupData, driver)]).take 4) q.setupData with
    | none => rw [hfirst] at hget; contradiction
    | some k => rw [hfirst] at hget; exact (Option.some.inj hget).symm
  · intro hfirst
    rw [hfirst] at hget
    exact forwarded_of_get hinv.ready hget

/-! ## five requests -/

/-- A device with a keyboard that has been started. -/
def keyboardDevice : Pipes :=
  InitRun.connected { InitRun.sampleDevice with isInitialized := true, drivers := [keyboardIn 2] }

theorem idle_keyboardDevice : Idle keyboardDevice := ⟨rfl, rfl⟩

/-- A request of the keyboard. -/
def keyboardRequest (index : BitVec 16) : ControlRequest where
  dirIn := false
  setupData := ⟨0x21#8, Request.kSetProtocol, 0#16, index, 0#16⟩
  buf := 0#64
  len := 0
  issuer := some 0

/-- A request and its completion, computed. -/
def perform (s : WaiterRun) (index : BitVec 16) : Except Fault WaiterRun :=
  let q := keyboardRequest index
  if 0 < s.pipes.base.drivers.length then do
    let (e, p, _) ← q.call ⟨0x100000#64, []⟩ s.pipes
    if e = .kSuccess then do
      let (d, h, o) ← p.base.onControlCompleted (Env.zero poolAtMiB) ⟨0x100000#64, []⟩
        q.setupData 0#64 0
      let (_, p, _) ← Pipes.finish h { p with base := d } o
      pure ⟨p, s.issued ++ [(q.setupData, 0)]⟩
    else throw .endless
  else throw .endless

theorem step_of_perform {s t : WaiterRun} {index : BitVec 16} (ret : s.perform index = .ok t) :
    Step s t := by
  obtain ⟨real, hsend⟩ := Returns.guard_eq_ok.mp ret
  obtain ⟨⟨e, p, h₁⟩, call, haccept⟩ := Returns.bind_eq_ok.mp hsend
  obtain ⟨rfl, hrest⟩ := Returns.guard_eq_ok.mp haccept
  obtain ⟨⟨d, h₂, o⟩, completed, hlast⟩ := Returns.bind_eq_ok.mp hrest
  obtain ⟨⟨e', p', h₃⟩, carried, hret⟩ := Returns.bind_eq_ok.mp hlast
  cases Returns.pure_eq_ok.mp hret
  exact .request s _ 0 rfl real call 0#64 0 completed carried

theorem run_of_performs {s t : WaiterRun} {indices : List (BitVec 16)}
    (ret : indices.foldlM perform s = .ok t) : ReflTransGen Step s t := by
  induction indices generalizing s with
  | nil => cases Returns.pure_eq_ok.mp ret; exact .refl
  | cons index indices ih =>
      obtain ⟨u, hfirst, hrest⟩ := Returns.bind_eq_ok.mp ret
      exact .head (step_of_perform hfirst) (ih hrest)

/-- A request after four distinct ones: what the map finds for it, and the
requests before it. -/
def fifth (index : BitVec 16) :
    Except Fault (Bool × Option (Option Nat) × List (SetupData × Nat)) := do
  let s ← [0#16, 1#16, 2#16, 3#16].foldlM perform ⟨keyboardDevice, []⟩
  let (e, p, _) ← (keyboardRequest index).call ⟨0x100000#64, []⟩ s.pipes
  if e = .kSuccess then
    pure (p.base.isInitialized, p.base.eventWaiters.get (keyboardRequest index).setupData, s.issued)
  else throw .endless

def fourIssued : List (SetupData × Nat) :=
  [0#16, 1#16, 2#16, 3#16].map fun index => ((keyboardRequest index).setupData, 0)

/-- What is computed of it holds at the end of a run. -/
theorem exists_of_fifth {index : BitVec 16} {ready : Bool} {waiter : Option (Option Nat)}
    {issued : List (SetupData × Nat)}
    (h : (fifth index).toOption = some (ready, waiter, issued)) :
    ∃ s p h', ReflTransGen Step ⟨keyboardDevice, []⟩ s ∧
      (keyboardRequest index).call ⟨0x100000#64, []⟩ s.pipes = .ok (.kSuccess, p, h') ∧
      p.base.isInitialized = ready ∧
      p.base.eventWaiters.get (keyboardRequest index).setupData = waiter ∧ s.issued = issued := by
  cases hret : fifth index with
  | error f => rw [hret] at h; contradiction
  | ok r =>
      rw [hret] at h
      obtain rfl := Option.some.inj h
      obtain ⟨s, hrun, hrest⟩ := Returns.bind_eq_ok.mp hret
      obtain ⟨⟨e, p, h'⟩, call, hlast⟩ := Returns.bind_eq_ok.mp hrest
      obtain ⟨rfl, hpure⟩ := Returns.guard_eq_ok.mp hlast
      obtain ⟨hready, hvalues⟩ := Returns.pure_mk_eq_ok.mp hpure
      obtain ⟨hwaiter, hissued⟩ := Prod.mk.inj hvalues
      exact ⟨s, p, h', run_of_performs hrun, call, hready, hwaiter, hissued⟩

/-- The first request, made once more after three others, still reaches its
issuer. -/
theorem forwarded_again : ∃ s p h', ReflTransGen Step ⟨keyboardDevice, []⟩ s ∧
    s.issued.length = 4 ∧
    (keyboardRequest 0#16).call ⟨0x100000#64, []⟩ s.pipes = .ok (.kSuccess, p, h') ∧
      Forwarded p (keyboardRequest 0#16).setupData 0 := by
  have hfifth : (fifth 0#16).toOption = some (true, some (some 0), fourIssued) := by
    decide +kernel
  obtain ⟨s, p, h', hrun, call, _, _, hissued⟩ := exists_of_fifth hfifth
  refine ⟨s, p, h', hrun, by rw [hissued]; rfl, call, ?_⟩
  refine (forwarded_iff idle_keyboardDevice hrun rfl call).mpr ?_
  rw [hissued]
  decide

/-- Nobody is told of the completion of a fifth distinct request. -/
theorem not_forwarded_fifth : ∃ s p h', Idle keyboardDevice ∧
    ReflTransGen Step ⟨keyboardDevice, []⟩ s ∧
    (keyboardRequest 4#16).call ⟨0x100000#64, []⟩ s.pipes = .ok (.kSuccess, p, h') ∧
    (∀ env h buf len, p.base.onControlCompleted env h (keyboardRequest 4#16).setupData buf len =
      .ok (p.base, h, .error .kNoWaiter)) ∧
    ¬ Forwarded p (keyboardRequest 4#16).setupData 0 := by
  have hfifth : (fifth 4#16).toOption = some (true, none, fourIssued) := by
    decide +kernel
  obtain ⟨s, p, h', hrun, call, ready, hnone, _⟩ := exists_of_fifth hfifth
  refine ⟨s, p, h', idle_keyboardDevice, hrun, call, fun env h buf len => ?_,
    fun forwarded => ?_⟩
  · unfold Usb.Device.onControlCompleted
    rw [if_pos ready, hnone]
    rfl
  · rw [get_of_forwarded ready forwarded] at hnone
    contradiction

end WaiterRun

end MikanOs.Usb.Xhci
