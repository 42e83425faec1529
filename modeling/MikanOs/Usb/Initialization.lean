import MikanOs.Usb.Configuration

/-!
# MikanOs.Usb.Initialization

What `usb::Device::OnControlCompleted` can do, said once.  `Completed` has
one constructor for each way it can return, with the guards that lead there
and the device it leaves; `onControlCompleted_completed` says that there is no
other way.
-/

namespace MikanOs.Usb.Device

open Descriptor

/-- `OnControlCompleted`. -/
inductive Completed (env : Env) (h : Host) (d : Device) (setupData : SetupData) (buf : BitVec 64)
    (len : Int) : Device → Host → Outcome → Prop
  | noWaiter (ready : d.isInitialized = true) (none : d.eventWaiters.get setupData = none) :
      Completed env h d setupData buf len d h (.error .kNoWaiter)
  | forwarded (ready : d.isInitialized = true) (driver : Nat) (c : HIDDriver)
      (waiter : d.eventWaiters.get setupData = some (some driver))
      (found : d.drivers[driver]? = some c) :
      Completed env h d setupData buf len
        { d with drivers := d.drivers.set driver c.onControlCompleted.1 } h c.onControlCompleted.2
  | outOfPhase (starting : d.isInitialized = false)
      (phase : d.initializePhase = 1 ∨ d.initializePhase = 2 ∨ d.initializePhase = 3) :
      Completed env h d setupData buf len d h (.error .kInvalidPhase)
  | noPhase (starting : d.isInitialized = false) (early : d.initializePhase ≠ 1)
      (later : d.initializePhase ≠ 2) (latest : d.initializePhase ≠ 3) :
      Completed env h d setupData buf len d h (.error .kNotImplemented)
  | gotDevice (starting : d.isInitialized = false) (phase : d.initializePhase = 1)
      (request : setupData.request = Request.kGetDescriptor) (type : byte env buf 1 = kDevice) :
      Completed env h d setupData buf len (d.initializePhase1 env buf).1 h
        (.transfer (d.initializePhase1 env buf).2)
  | unsupported (starting : d.isInitialized = false) (phase : d.initializePhase = 2) (h' : Host) :
      Completed env h d setupData buf len d h' (.error .kSuccess)
  | configuring (starting : d.isInitialized = false) (phase : d.initializePhase = 2)
      (request : setupData.request = Request.kGetDescriptor)
      (type : byte env buf 1 = kConfiguration) (ifDesc : BitVec 64) (eps : List (BitVec 64))
      (c : HIDDriver) (accepts : Accepts env buf len ifDesc eps) (fresh : Fresh c)
      (few : eps.length ≤ 16) (h' : Host) :
      Completed env h d setupData buf len { d.adopt env c eps with initializePhase := 3 } h'
        (.transfer (setConfiguration kDefaultControlPipeID (byte env buf 5)))
  | configured (starting : d.isInitialized = false) (phase : d.initializePhase = 3)
      (request : setupData.request = Request.kSetConfiguration) (d' : Device)
      (set : d.setEndpoints d.numEpConfigs 0 = .ok d') :
      Completed env h d setupData buf len { d' with initializePhase := 4, isInitialized := true } h
        (.error .kSuccess)

variable {env : Env} {h h' : Host} {d d' : Device} {setupData : SetupData} {buf : BitVec 64}
  {len : Int} {o : Outcome}

/-- `DescriptorDynamicCast` of a buffer. -/
theorem hasType_ok {type : BitVec 8} {b : Bool} (ret : hasType env buf type = .ok b) :
    b = decide (byte env buf 1 = type) := by
  unfold hasType at ret
  split at ret
  · exact absurd ret Returns.throw_ne_ok
  · exact (Returns.pure_eq_ok.mp ret).symm

theorem driverAt_ok {driver : Nat} {c : HIDDriver} (ret : d.driverAt driver = .ok c) :
    d.drivers[driver]? = some c := by
  unfold driverAt at ret
  split at ret
  · exact absurd ret Returns.throw_ne_ok
  · next hc => rw [hc, Returns.pure_eq_ok.mp ret]

/-- A device with one class driver has it at index 0. -/
theorem eq_of_only {driver : Nat} {c c' : HIDDriver} (one : d.drivers = [c])
    (found : d.drivers[driver]? = some c') : driver = 0 ∧ c = c' := by
  rw [one, List.getElem?_singleton] at found
  split at found
  · next hzero => exact ⟨hzero, Option.some.inj found⟩
  · contradiction

/-- `InitializePhase2` of a configuration descriptor. -/
theorem initializePhase2_completed (starting : d.isInitialized = false)
    (phase : d.initializePhase = 2) (request : setupData.request = Request.kGetDescriptor)
    (type : byte env buf 1 = kConfiguration)
    (ret : d.initializePhase2 env h buf len = .ok (d', h', o)) :
    Completed env h d setupData buf len d' h' o := by
  unfold initializePhase2 at ret
  obtain ⟨isConf, htype, hrest⟩ := Returns.bind_eq_ok.mp ret
  rw [hasType_ok htype] at hrest
  rw [if_pos (by simpa using type)] at hrest
  obtain ⟨⟨place, h₁, d₁⟩, hfind, hret⟩ := Returns.bind_eq_ok.mp hrest
  rcases findInterface_ok (.nil _) nofun hfind with
    ⟨rfl, rfl⟩ | ⟨rfl, ifDesc, eps, c, haccepts, hfresh, hfew, rfl⟩
  · cases Returns.pure_eq_ok.mp hret
    exact .unsupported starting phase _
  · cases Returns.pure_eq_ok.mp hret
    exact .configuring starting phase request type ifDesc eps c haccepts hfresh hfew _

/-- On an initialized device. -/
theorem onControlCompleted_ready (ready : d.isInitialized = true)
    (ret : d.onControlCompleted env h setupData buf len = .ok (d', h', o)) :
    Completed env h d setupData buf len d' h' o := by
  unfold onControlCompleted at ret
  rw [if_pos ready] at ret
  split at ret
  · next hnone =>
    cases Returns.pure_eq_ok.mp ret
    exact .noWaiter ready hnone
  · exact absurd ret Returns.throw_ne_ok
  · next driver hwaiter =>
    obtain ⟨c, hc, hret⟩ := Returns.bind_eq_ok.mp ret
    cases Returns.pure_eq_ok.mp hret
    exact .forwarded ready driver c hwaiter (driverAt_ok hc)

/-- In phase 1. -/
theorem onControlCompleted_one (starting : d.isInitialized = false) (phase : d.initializePhase = 1)
    (ret : d.onControlCompleted env h setupData buf len = .ok (d', h', o)) :
    Completed env h d setupData buf len d' h' o := by
  unfold onControlCompleted at ret
  rw [if_neg (Bool.eq_false_iff.mp starting), if_pos phase] at ret
  split at ret
  · next hrequest =>
    obtain ⟨isDevice, htype, hrest⟩ := Returns.bind_eq_ok.mp ret
    rw [hasType_ok htype] at hrest
    split at hrest
    · next htype =>
      cases Returns.pure_eq_ok.mp hrest
      exact .gotDevice starting phase hrequest (by simpa using htype)
    · cases Returns.pure_eq_ok.mp hrest
      exact .outOfPhase starting (.inl phase)
  · cases Returns.pure_eq_ok.mp ret
    exact .outOfPhase starting (.inl phase)

/-- In phase 2. -/
theorem onControlCompleted_two (starting : d.isInitialized = false) (phase : d.initializePhase = 2)
    (ret : d.onControlCompleted env h setupData buf len = .ok (d', h', o)) :
    Completed env h d setupData buf len d' h' o := by
  unfold onControlCompleted at ret
  rw [if_neg (Bool.eq_false_iff.mp starting), if_neg (by omega), if_pos phase] at ret
  split at ret
  · next hrequest =>
    obtain ⟨isConf, htype, hrest⟩ := Returns.bind_eq_ok.mp ret
    rw [hasType_ok htype] at hrest
    split at hrest
    · next htype =>
      exact initializePhase2_completed starting phase hrequest (by simpa using htype) hrest
    · cases Returns.pure_eq_ok.mp hrest
      exact .outOfPhase starting (.inr (.inl phase))
  · cases Returns.pure_eq_ok.mp ret
    exact .outOfPhase starting (.inr (.inl phase))

/-- In phase 3. -/
theorem onControlCompleted_three (starting : d.isInitialized = false)
    (phase : d.initializePhase = 3)
    (ret : d.onControlCompleted env h setupData buf len = .ok (d', h', o)) :
    Completed env h d setupData buf len d' h' o := by
  unfold onControlCompleted at ret
  rw [if_neg (Bool.eq_false_iff.mp starting), if_neg (by omega), if_neg (by omega),
    if_pos phase] at ret
  split at ret
  · next hrequest =>
    unfold initializePhase3 at ret
    obtain ⟨d₁, hthree, hret⟩ := Returns.bind_eq_ok.mp ret
    obtain ⟨d₂, hset, hmade⟩ := Returns.bind_eq_ok.mp hthree
    cases Returns.pure_eq_ok.mp hmade
    cases Returns.pure_eq_ok.mp hret
    exact .configured starting phase hrequest d₂ hset
  · cases Returns.pure_eq_ok.mp ret
    exact .outOfPhase starting (.inr (.inr phase))

theorem onControlCompleted_completed
    (ret : d.onControlCompleted env h setupData buf len = .ok (d', h', o)) :
    Completed env h d setupData buf len d' h' o := by
  cases hready : d.isInitialized with
  | true => exact onControlCompleted_ready hready ret
  | false =>
      by_cases h1 : d.initializePhase = 1
      · exact onControlCompleted_one hready h1 ret
      by_cases h2 : d.initializePhase = 2
      · exact onControlCompleted_two hready h2 ret
      by_cases h3 : d.initializePhase = 3
      · exact onControlCompleted_three hready h3 ret
      unfold onControlCompleted at ret
      rw [if_neg (Bool.eq_false_iff.mp hready), if_neg h1, if_neg h2, if_neg h3] at ret
      cases Returns.pure_eq_ok.mp ret
      exact .noPhase hready h1 h2 h3

/-- An initialized device only passes a completion on to the class driver that
waits for it. -/
theorem Completed.of_ready (completed : Completed env h d setupData buf len d' h' o)
    (ready : d.isInitialized = true) :
    (d' = d ∧ o = .error .kNoWaiter) ∨
      ∃ driver c, d.eventWaiters.get setupData = some (some driver) ∧
        d.drivers[driver]? = some c ∧
        d' = { d with drivers := d.drivers.set driver c.onControlCompleted.1 } ∧
        o = c.onControlCompleted.2 := by
  have hstarted : ¬ d.isInitialized = false := by simp [ready]
  cases completed with
  | noWaiter => exact .inl ⟨rfl, rfl⟩
  | forwarded _ driver c waiter found => exact .inr ⟨driver, c, waiter, found, rfl, rfl⟩
  | outOfPhase starting => exact absurd starting hstarted
  | noPhase starting => exact absurd starting hstarted
  | gotDevice starting => exact absurd starting hstarted
  | unsupported starting => exact absurd starting hstarted
  | configuring starting => exact absurd starting hstarted
  | configured starting => exact absurd starting hstarted

end MikanOs.Usb.Device
