import MikanOs.Usb.Xhci.CommandCompletion
import MikanOs.Usb.Xhci.EventTrace

/-!
# MikanOs.Usb.Xhci.EventIndices

Which events stay within the tables of the driver.  Most indices are checked,
or come from fields too narrow to leave their table; the port of a port status
change event and the completion code of a transfer event are neither.
`accesses_inRange_iff` says that these two decide, and `inBounds_iff` that they
do so in every reachable state.
-/

namespace MikanOs.Usb

open Relation

/-- The bounds of the tables. -/
def Lookup.InRange (s : Xhci.Controller) : Lookup → Prop
  | .portRegisterSet port => 1 ≤ port.toNat ∧ port.toNat ≤ s.maxPorts.toNat
  | .device slotId => slotId.toNat ≤ s.devmgr.maxSlots
  | .classDriver number => 0 ≤ number ∧ number < 16
  | .completionCodeName code => code.toNat < 37
  | .trbTypeName type => type.toNat < 64

instance (s : Xhci.Controller) : (l : Lookup) → Decidable (l.InRange s)
  | .portRegisterSet _ => inferInstanceAs (Decidable (_ ∧ _))
  | .device _ => inferInstanceAs (Decidable (_ ≤ _))
  | .classDriver _ => inferInstanceAs (Decidable (_ ∧ _))
  | .completionCodeName _ => inferInstanceAs (Decidable (_ < _))
  | .trbTypeName _ => inferInstanceAs (Decidable (_ < _))

namespace Xhci

namespace Controller

/-- Only ports there are have left the first phase. -/
def Confined (s : Controller) : Prop :=
  ∀ port, s.portConfigPhase port ≠ .kNotConnected → Lookup.InRange s (.portRegisterSet port)

/-- The unchecked fields of an event are in range. -/
structure Fits (s : Controller) (trb : Trb) : Prop where
  code : TRB.trbType.get trb = TransferEventTRB.type →
    s.devmgr.findBySlot (TransferEventTRB.slotId.get trb) ≠ none →
      (TransferEventTRB.completionCode.get trb).toNat < 37
  port : TRB.trbType.get trb = PortStatusChangeEventTRB.type →
    Lookup.InRange s (.portRegisterSet (PortStatusChangeEventTRB.portId.get trb))

/-! ## lookups -/

/-- **The lookups of an event are in range** when its unchecked fields are. -/
theorem lookups_inRange_iff {s : Controller} (confined : s.Confined)
    (numbered : s.devmgr.Numbered) (env : Env) (trb : Trb) :
    (∀ l, Lookups env s trb l → l.InRange s) ↔ s.Fits trb := by
  constructor
  · intro h
    refine ⟨fun type found => ?_, fun type => h _ (.changedPort type)⟩
    obtain ⟨dev, hdev⟩ := Option.ne_none_iff_exists'.mp found
    exact h _ (.completionCode type hdev)
  · intro fits l hl
    cases hl with
    | transferSlot _ slot => exact slot
    | completionCode type found => exact fits.code type (by rw [found]; simp)
    | transferIssuer => exact (TRB.trbType.get _).isLt
    | interruptDriver =>
        have hlt := (TransferEventTRB.endpointId.get trb).isLt
        have hnumber : 0 ≤ ((TransferEventTRB.endpointId.get trb).toNat : Int) / 2 ∧
            ((TransferEventTRB.endpointId.get trb).toNat : Int) / 2 < 16 := by omega
        exact hnumber
    | collectDriver _ _ _ desc =>
        have hlt := endpointNumber_lt env desc
        show 0 ≤ (makeEPConfig env desc).epId.number ∧ (makeEPConfig env desc).epId.number < 16
        rw [number_makeEPConfig]
        omega
    | serveDriver _ found => exact numbered _ _ (DeviceManager.le_of_findBySlot found).2 _
    | initializedPort _ _ phase => exact confined _ (by rw [phase]; decide)
    | changedPort type => exact fits.port type
    | commandIssuer => exact (TRB.trbType.get _).isLt
    | commandSlot _ slot => exact slot
    | enabledPort _ phase => exact confined _ (by rw [phase]; decide)
    | resumedPort _ first => exact confined _ (by rw [phase_firstWaiting first]; decide)

/-- **The accesses that are made**, one after another, are in range under the
same condition. -/
theorem accesses_inRange_iff {s : Controller} (confined : s.Confined)
    (numbered : s.devmgr.Numbered) (env : Env) (trb : Trb) :
    (∀ l ∈ (Tracing.onEvent env s trb).items, l.InRange s) ↔ s.Fits trb := by
  constructor
  · intro h
    refine ⟨fun type found => ?_, fun type => h _ (Tracing.mem_changedPort type)⟩
    obtain ⟨dev, hdev⟩ := Option.ne_none_iff_exists'.mp found
    exact h _ (Tracing.mem_completionCode type hdev)
  · intro fits l hl
    exact (lookups_inRange_iff confined numbered env trb).mpr fits l
      ((Tracing.onEvent_traces env s trb).items l hl)

/-! ## ports -/

namespace Confined

variable {s t : Controller}

/-- A port there is enters a phase. -/
theorem setPhase (h : s.Confined) (hport : Lookup.InRange s (.portRegisterSet port))
    (phase : ConfigPhase) : (s.setPhase port phase).Confined := by
  intro p hp
  by_cases heq : p = port
  · rw [heq]
    exact hport
  · exact h p fun hn => hp ((update_ne heq _ _).trans hn)

/-- A port that has left the first phase enters another. -/
theorem move (h : s.Confined) (hphase : s.portConfigPhase port ≠ .kNotConnected)
    (phase : ConfigPhase) : (s.setPhase port phase).Confined :=
  h.setPhase (h port hphase) phase

theorem of_resetPort (h : s.Confined) (hport : Lookup.InRange s (.portRegisterSet port))
    (ends : ResetPortEnds env s port err t) : t.Confined := by
  cases ends with
  | absent => exact h
  | waiting => exact h.setPhase hport _
  | refused => exact h
  | resetting => exact h.setPhase hport _

theorem of_portStatusChange (h : s.Confined) (hport : Lookup.InRange s (.portRegisterSet port))
    (ends : PortStatusChangeEnds env s port err t) : t.Confined := by
  cases ends with
  | reset _ ends => exact of_resetPort (s := s.portAt port) h hport ends
  | enable _ ends =>
      cases ends with
      | early => exact h
      | enabling => exact h.setPhase hport _
  | refused => exact h

theorem of_transfer (h : s.Confined) (ends : TransferEnds s port slotId err t) : t.Confined := by
  cases ends with
  | noDevice => exact h
  | reported => exact h
  | configure _ _ _ _ phase ends =>
      cases ends with
      | unknownSpeed => exact h
      | configuring => exact h.move (by rw [phase]; decide) _

theorem of_commandCompletion (h : s.Confined)
    (ends : CommandCompletionEnds env s type port slotId err t) : t.Confined := by
  cases ends with
  | notEnabling => exact h
  | enabled _ phase ends =>
      cases ends with
      | noSlot => exact h
      | addressing => exact h.move (by rw [phase]; decide) _
  | noDevice => exact h
  | notAddressing => exact h
  | addressed _ _ phase resumed =>
      have hport := h port (by rw [phase]; decide)
      cases resumed with
      | nobody => exact h.setPhase hport _
      | absent => exact h.setPhase hport _
      | resuming i first =>
          have hi := h i (by rw [phase_firstWaiting first]; decide)
          exact (h.setPhase hi .kResettingPort).setPhase hport .kInitializingDevice
  | notConfiguring => exact h
  | configured _ phase => exact h.move (by rw [phase]; decide) _
  | unknown => exact h

/-- Events that fit touch no other ports. -/
theorem of_event (h : s.Confined) (fits : s.Fits trb) (ends : EventEnds env s trb err t) :
    t.Confined := by
  cases ends with
  | transfer _ ends => exact h.of_transfer ends
  | portStatusChange type ends => exact h.of_portStatusChange (fits.port type) ends
  | commandCompletion _ ends => exact h.of_commandCompletion ends
  | unknown => exact h

theorem of_configurePort (h : s.Confined) (hport : Lookup.InRange s (.portRegisterSet port))
    (ret : s.configurePort env port = .ok (err, t)) : t.Confined := by
  rcases configurePort_ends ret with ⟨_, rfl⟩ | ⟨_, ends⟩
  · exact h
  · exact h.of_resetPort hport ends

end Confined

/-! ## refusals -/

/-- Some field of an event is out of range. -/
inductive OutOfRange (s : Controller) (trb : Trb) : Prop
  | port (type : TRB.trbType.get trb = PortStatusChangeEventTRB.type)
      (range : ¬ Lookup.InRange s (.portRegisterSet (PortStatusChangeEventTRB.portId.get trb)))
  | transferSlot (type : TRB.trbType.get trb = TransferEventTRB.type)
      (range : ¬ Lookup.InRange s (.device (TransferEventTRB.slotId.get trb)))
  | code (type : TRB.trbType.get trb = TransferEventTRB.type)
      (range : ¬ Lookup.InRange s
        (.completionCodeName (TransferEventTRB.completionCode.get trb)))
  | commandSlot (type : TRB.trbType.get trb = CommandCompletionEventTRB.type)
      (range : ¬ Lookup.InRange s (.device (CommandCompletionEventTRB.slotId.get trb)))

/-- An event is answered with an error, and moves no port. -/
structure Refused (s : Controller) (err : Error) (t : Controller) : Prop where
  error : err ≠ .kSuccess
  phases : t.portConfigPhase = s.portConfigPhase
  addressingPort : t.addressingPort = s.addressingPort

theorem findBySlot_of_not_inRange {s : Controller}
    (range : ¬ Lookup.InRange s (.device slotId)) : s.devmgr.findBySlot slotId = none :=
  if_pos (Nat.lt_of_not_le range)

/-- A transfer event about a slot without a device. -/
theorem refused_transfer {s t : Controller}
    (hnone : s.devmgr.findBySlot slotId = none) (ends : TransferEnds s port slotId err t) :
    Refused s err t := by
  cases ends with
  | noDevice => exact ⟨by decide, rfl, rfl⟩
  | reported _ found => rw [hnone] at found; contradiction
  | configure _ found => rw [hnone] at found; contradiction

/-- A command completion event about a slot there is not. -/
theorem refused_commandCompletion {s t : Controller}
    (range : ¬ Lookup.InRange s (.device slotId))
    (ends : CommandCompletionEnds env s type port slotId err t) : Refused s err t := by
  have hnone := findBySlot_of_not_inRange range
  cases ends with
  | notEnabling => exact ⟨by decide, rfl, rfl⟩
  | enabled _ _ ends =>
      cases ends with
      | noSlot => exact ⟨by decide, rfl, rfl⟩
      | addressing slot => exact absurd slot range
  | noDevice => exact ⟨by decide, rfl, rfl⟩
  | notAddressing => exact ⟨by decide, rfl, rfl⟩
  | addressed _ _ _ _ _ found => rw [hnone] at found; contradiction
  | notConfiguring => exact ⟨by decide, rfl, rfl⟩
  | configured _ _ _ found => rw [hnone] at found; contradiction
  | unknown => exact ⟨by decide, rfl, rfl⟩

/-- **Fields out of range are refused** in an event that fits. -/
theorem refused_of_outOfRange {s t : Controller} (fits : s.Fits trb) (out : s.OutOfRange trb)
    (ret : s.onEvent env trb = .ok (err, t)) : Refused s err t := by
  have htypes : TransferEventTRB.type ≠ PortStatusChangeEventTRB.type ∧
      TransferEventTRB.type ≠ CommandCompletionEventTRB.type ∧
      PortStatusChangeEventTRB.type ≠ CommandCompletionEventTRB.type := by decide
  cases onEvent_ends ret with
  | transfer type ends =>
      refine refused_transfer ?_ ends
      cases out with
      | port type' => exact absurd (type.symm.trans type') htypes.1
      | transferSlot _ range => exact findBySlot_of_not_inRange range
      | code _ range => exact Decidable.not_not.mp fun found => range (fits.code type found)
      | commandSlot type' => exact absurd (type.symm.trans type') htypes.2.1
  | portStatusChange type ends =>
      cases out with
      | port _ range => exact absurd (fits.port type) range
      | transferSlot type' => exact absurd (type'.symm.trans type) htypes.1
      | code type' => exact absurd (type'.symm.trans type) htypes.1
      | commandSlot type' => exact absurd (type.symm.trans type') htypes.2.2
  | commandCompletion type ends =>
      cases out with
      | port type' => exact absurd (type'.symm.trans type) htypes.2.2
      | transferSlot type' => exact absurd (type'.symm.trans type) htypes.2.1
      | code type' => exact absurd (type'.symm.trans type) htypes.2.1
      | commandSlot _ range => exact refused_commandCompletion range ends
  | unknown => exact ⟨by decide, rfl, rfl⟩

theorem onTransferEvent_of_none {s : Controller}
    (hnone : s.devmgr.findBySlot (TransferEventTRB.slotId.get trb) = none) :
    s.onTransferEvent env trb = .ok (.kInvalidSlotID, s) := by
  unfold onTransferEvent
  simp only [hnone]
  rfl

/-- A command completion event about a slot there is not is turned away. -/
theorem turnedAway_of_not_inRange {s : Controller} {issuer : BitVec 6}
    (range : ¬ Lookup.InRange s (.device slotId)) : s.TurnedAway issuer port slotId := by
  have hnone := findBySlot_of_not_inRange range
  by_cases enable : issuer = EnableSlotCommandTRB.type
  · exact .noSlot enable (Nat.lt_of_not_le range)
  by_cases address : issuer = AddressDeviceCommandTRB.type
  · exact .noDevice (.inl address) hnone
  by_cases configure : issuer = ConfigureEndpointCommandTRB.type
  · exact .noDevice (.inr configure) hnone
  · exact .unknown enable address configure

/-- An event with a field out of range comes to its end. -/
theorem onEvent_of_outOfRange {s : Controller} (fits : s.Fits trb) (out : s.OutOfRange trb) :
    ∃ err, s.onEvent env trb = .ok (err, s) := by
  unfold onEvent
  cases out with
  | port type range => exact absurd (fits.port type) range
  | transferSlot type range =>
      simp only [if_pos type]
      exact ⟨_, onTransferEvent_of_none (findBySlot_of_not_inRange range)⟩
  | code type range =>
      simp only [if_pos type]
      refine ⟨_, onTransferEvent_of_none ?_⟩
      exact Decidable.not_not.mp fun found => range (fits.code type found)
  | commandSlot type range =>
      simp only [type]
      exact (turnedAway_of_not_inRange range).onCommandCompletion

end Controller

namespace Driver

/-! ## runs -/

/-- One call that returns: `ConfigurePort` of a port there is, or
`ProcessEvent` with an event that fits. -/
inductive FitStep (d : Driver) : Driver → Prop
  | configurePort (env : Env) (port : BitVec 8) (range : d.PortOk port)
      (ret : d.configurePort env port = .ok (err, d')) : FitStep d d'
  | processEvent (env : Env) (fits : d.er.hasFront env 1 = true → d.xhc.Fits (d.event env))
      (ret : d.processEvent env = .ok (err, d')) : FitStep d d'

/-- What holds in every reachable state. -/
structure Tidy (d : Driver) : Prop where
  confined : d.xhc.Confined
  numbered : d.xhc.devmgr.Numbered

theorem FitStep.tidy (d d' : Driver) (h : d.Tidy) (hstep : FitStep d d') : d'.Tidy := by
  cases hstep with
  | configurePort env port range ret =>
      have hcall := configurePort_ok ret
      have hlooks : Controller.Looks (fun _ => True) d.xhc d'.xhc := by
        unfold Controller.configurePort at hcall
        split at hcall
        · exact Controller.resetPort_looks env d.xhc port _ hcall
        · obtain ⟨_, hsame⟩ := Returns.pure_mk_eq_ok.mp hcall
          exact hsame ▸ .refl _
      exact ⟨h.confined.of_configurePort range hcall, hlooks.numbered h.numbered⟩
  | processEvent env fits ret =>
      rcases processEvent_ends ret with ⟨_, _, rfl⟩ | ⟨front, hevent, _⟩
      · exact h
      · exact ⟨h.confined.of_event (fits front) (Controller.onEvent_ends hevent),
          (Controller.onEvent_looks env d.xhc _ _ hevent).numbered h.numbered⟩

/-- What is in bounds of an event at the front of the event ring. -/
structure InBounds (env : Env) (d : Driver) : Prop where
  /-- every access is to an entry that exists -/
  lookups : ∀ l, Controller.Lookups env d.xhc (d.event env) l → l.InRange d.xhc
  /-- so are those that are made, also when the call does not return -/
  accesses : ∀ l ∈ (Tracing.onEvent env d.xhc (d.event env)).items, l.InRange d.xhc
  /-- and those that a call that returns leaves on record -/
  recorded : ∀ err d', d.processEvent env = .ok (err, d') → ∃ ls,
    d'.xhc.host.lookups = d.xhc.host.lookups ++ ls ∧ ∀ l ∈ ls, l.InRange d.xhc
  /-- an event with a field out of range is refused -/
  refused : d.xhc.OutOfRange (d.event env) → ∃ err d', d.processEvent env = .ok (err, d') ∧
    Controller.Refused d.xhc err d'.xhc

/-- **No event leaves the tables of the driver** but a transfer event about a
device with a completion code from 37 on, and a port status change event about
a port there is not. -/
theorem inBounds_iff {d₀ d : Driver} (untouched : d₀.xhc.Untouched)
    (empty : ∀ slotId, d₀.xhc.devmgr.devices slotId = none) (hrun : ReflTransGen FitStep d₀ d)
    {env : Env} (front : d.er.hasFront env 1 = true) :
    d.InBounds env ↔ d.xhc.Fits (d.event env) := by
  have htidy : d.Tidy := by
    refine Run.invariant FitStep.tidy ⟨fun port hport => ?_, fun slotId dev hdev => ?_⟩ hrun
    · exact absurd (untouched.phase port) hport
    · rw [empty slotId] at hdev
      contradiction
  have hrange := Controller.lookups_inRange_iff htidy.confined htidy.numbered env (d.event env)
  have haccess := Controller.accesses_inRange_iff htidy.confined htidy.numbered env (d.event env)
  constructor
  · exact fun h => haccess.mp h.accesses
  · intro fits
    refine ⟨hrange.mpr fits, haccess.mpr fits, fun err d' ret => ?_, fun out => ?_⟩
    · rcases processEvent_ends ret with ⟨hempty, _⟩ | ⟨_, hevent, _⟩
      · rw [front] at hempty
        contradiction
      · obtain ⟨ls, hls, hmem⟩ := (Controller.onEvent_looks env d.xhc _ _ hevent).lookups
        exact ⟨ls, hls, fun l hl => hrange.mpr fits l (hmem l hl)⟩
    · obtain ⟨err, hevent⟩ := Controller.onEvent_of_outOfRange fits out
      exact ⟨err, _, processEvent_of front hevent,
        Controller.refused_of_outOfRange fits out hevent⟩

/-! ## samples -/

/-- An event that is not about a transfer fits when its port exists. -/
theorem fits_of_eventOk {d : Driver} (ok : d.EventOk env)
    (other : TRB.trbType.get (d.event env) ≠ TransferEventTRB.type)
    (front : d.er.hasFront env 1 = true) : d.xhc.Fits (d.event env) :=
  ⟨fun type => absurd type other, fun type => ok front type⟩

/-- Calls made one after another, without transfer events, are a run. -/
theorem fitRun_of_follow {d d' : Driver} {cs : List (Env × Option (BitVec 8))}
    (other : ∀ c ∈ cs, ∀ a, TRB.trbType.get (c.1.trb a) ≠ TransferEventTRB.type)
    (h : d.follow cs = some d') : ReflTransGen FitStep d d' := by
  induction cs generalizing d with
  | nil =>
      obtain rfl := Option.some.inj h
      exact .refl
  | cons c cs ih =>
      have hrest := fun c' hc' => other c' (List.mem_cons_of_mem c hc')
      obtain ⟨env, _ | port⟩ := c
      · rw [follow] at h
        split at h
        · next hok =>
          split at h
          · next hret =>
            have hother := other (env, none) List.mem_cons_self (d.er.readDequeuePointer env 2)
            exact .head (.processEvent env (fits_of_eventOk hok hother) hret) (ih hrest h)
          · contradiction
        · contradiction
      · rw [follow] at h
        split at h
        · next hok =>
          split at h
          · next hret => exact .head (.configurePort env port hok hret) (ih hrest h)
          · contradiction
        · contradiction

theorem fitRun_threePorts : ReflTransGen FitStep fresh threePorts := by
  refine fitRun_of_follow (fun c hc => ?_) (follow_getD (by decide +kernel))
  have hseeing : ∀ event connected port,
      TRB.trbType.get (TRB.withCycle event true) ≠ TransferEventTRB.type →
        ∀ a, TRB.trbType.get ((seeing event connected port).trb a) ≠ TransferEventTRB.type :=
    fun _ _ _ h _ => h
  simp only [configureThree, List.mem_cons, List.not_mem_nil, or_false] at hc
  rcases hc with rfl | rfl | rfl | rfl | rfl <;> exact hseeing _ _ _ (by decide)

/-- A transfer event. -/
def transferEvent (code slotId : BitVec 8) : Trb :=
  TransferEventTRB.slotId.put
    (TransferEventTRB.completionCode.put (TRB.ofType TransferEventTRB.type) code) slotId

/-- A successful transfer of the device in slot 1. -/
theorem inBounds_threePorts :
    threePorts.InBounds (seeing (transferEvent 1#8 1#8) (fun _ => true) 1#8) :=
  (inBounds_iff fresh_untouched (fun _ => rfl) fitRun_threePorts (by decide +kernel)).mpr
    ⟨fun _ _ => by decide +kernel, fun type => absurd type (by decide +kernel)⟩

/-- What `ProcessEvent` of an event has put on record last. -/
def lastRecorded (env : Env) (d : Driver) : Option Io :=
  (d.processEvent env).toOption.bind fun r => r.2.xhc.host.io.getLast?

/-- A transfer of that device with completion code 200, and a change of
port 0. -/
theorem not_inBounds_threePorts : ReflTransGen FitStep fresh threePorts ∧
    lastRecorded (seeing (transferEvent 200#8 1#8) (fun _ => true) 1#8) threePorts =
      some (.completionCodeName 200#8) ∧
    ¬ threePorts.InBounds (seeing (transferEvent 200#8 1#8) (fun _ => true) 1#8) ∧
    lastRecorded (seeing (portStatusChange 0#8) (fun _ => true) 1#8) threePorts =
      some (.portAt 0#8) ∧
    ¬ threePorts.InBounds (seeing (portStatusChange 0#8) (fun _ => true) 1#8) := by
  refine ⟨fitRun_threePorts, by decide +kernel, fun h => ?_, by decide +kernel, fun h => ?_⟩
  · have hsome : (threePorts.xhc.devmgr.findBySlot 1#8).isSome = true := by decide +kernel
    obtain ⟨dev, found⟩ := Option.isSome_iff_exists.mp hsome
    have hrange := h.lookups _ (.completionCode (by decide +kernel) found)
    exact absurd hrange (by decide +kernel)
  · have hrange := h.lookups _ (.changedPort (by decide +kernel))
    exact absurd hrange (by decide +kernel)

end Driver

end Xhci

end MikanOs.Usb
