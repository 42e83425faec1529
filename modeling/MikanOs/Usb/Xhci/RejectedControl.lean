import MikanOs.Usb.Xhci.Device

/-!
# MikanOs.Usb.Xhci.RejectedControl

Control requests that are refused.  `ControlIn` and `ControlOut` of the base
class note who waits for the completion, and only then does the derived class
look at the endpoint.  `rejected_iff` says when a refused request leaves a
trace for this reason.
-/

namespace MikanOs.Usb

namespace ArrayMap

variable {K V : Type} {N : Nat}

/-- No slot is free. -/
def Full (m : ArrayMap K V N) : Prop := ∀ slot ∈ m.table, slot.1 ≠ none

theorem putFrom_eq_self_iff (key : K) (value : V) (table : List (Option K × V)) :
    putFrom key value table = table ↔ ∀ slot ∈ table, slot.1 ≠ none := by
  induction table with
  | nil => exact ⟨fun _ => nofun, fun _ => rfl⟩
  | cons slot rest ih =>
      obtain ⟨k, v⟩ := slot
      rw [List.forall_mem_cons]
      cases k with
      | none =>
          rw [putFrom]
          exact ⟨fun h => absurd (Prod.mk.inj (List.cons.inj h).1).1 (Option.some_ne_none key),
            fun h => absurd rfl h.1⟩
      | some k =>
          rw [putFrom, List.cons_inj_right, ih]
          exact (and_iff_right (Option.some_ne_none k)).symm

/-- `put` changes every map that is not full. -/
theorem put_eq_self_iff (m : ArrayMap K V N) (key : K) (value : V) :
    m.put key value = m ↔ m.Full := by
  obtain ⟨table, hsize⟩ := m
  rw [put, ArrayMap.mk.injEq]
  exact putFrom_eq_self_iff key value table

end ArrayMap

end MikanOs.Usb

namespace MikanOs.Usb.Xhci.Pipes

/-! ## refused requests -/

/-- An endpoint that a control request is refused for: its number is out of
range, or it has no transfer ring. -/
def Refuses (p : Pipes) (epId : EndpointID) : Prop :=
  (epId.number < 0 ∨ 15 < epId.number) ∨
    ∃ i, checked 31 (epId.addr - 1) = .ok i ∧ p.transferRings i = none

/-- What a refused request must not change. -/
structure Unchanged (h : Host) (p : Pipes) (h' : Host) (p' : Pipes) : Prop where
  eventWaiters : p'.base.eventWaiters = p.base.eventWaiters
  setupStageMap : p'.setupStageMap = p.setupStageMap
  transferRings : p'.transferRings = p.transferRings
  /-- no doorbell is rung, nor anything else done to the outside -/
  host : h' = h

/-- A call that returns an error has changed nothing. -/
def ErrorsChangeNothing (h : Host) (p : Pipes) (call : Except Fault (Error × Pipes × Host)) :
    Prop :=
  ∀ err p' h', call = .ok (err, p', h') → err ≠ .kSuccess → Unchanged h p h' p'

variable {h : Host} {p : Pipes} {epId : EndpointID}

/-- Such a request fails, and all that is left of it is the waiter. -/
theorem control_refused (refuses : p.Refuses epId) (transferType : BitVec 2)
    (dataIn statusIn : Bool) (h : Host) (setupData : SetupData) (buf : BitVec 64) (len : Int)
    (issuer : Option Nat) : ∃ err, err ≠ .kSuccess ∧
      control transferType dataIn statusIn h p epId setupData buf len issuer =
        .ok (err, { p with base := p.base.registerWaiter setupData issuer }, h) := by
  unfold control
  by_cases hnumber : epId.number < 0 ∨ 15 < epId.number
  · exact ⟨.kInvalidEndpointNumber, nofun, if_pos hnumber⟩
  · obtain ⟨i, hi, hring⟩ := refuses.resolve_left hnumber
    refine ⟨.kTransferRingNotSet, nofun, (if_neg hnumber).trans ?_⟩
    simp only [hi, hring, bind, Except.bind]
    rfl

/-- No other request fails. -/
theorem control_accepted (transferType : BitVec 2) (dataIn statusIn : Bool) (h : Host)
    (setupData : SetupData) (buf : BitVec 64) (len : Int) (issuer : Option Nat)
    (accepts : ¬ p.Refuses epId) :
    Returns (control transferType dataIn statusIn h p epId setupData buf len issuer)
      fun r => r.1 = .kSuccess := by
  rw [Refuses, not_or] at accepts
  unfold control
  refine .ite (fun hnumber => absurd hnumber accepts.1) fun _ => ?_
  have hchecked : Returns (checked 31 (epId.addr - 1))
      fun i => checked 31 (epId.addr - 1) = .ok i := fun i hi => hi
  refine .bind hchecked fun i hi => ?_
  cases hring : p.transferRings i with
  | none => exact absurd ⟨i, hi, hring⟩ accepts.2
  | some tr =>
      exact .ite (fun _ => .seq fun _ => .seq fun _ => .seq fun _ => .of_pure rfl)
        fun _ => .seq fun _ => .seq fun _ => .of_pure rfl

/-- Noting a waiter changes who waits, as long as there is room for one. -/
theorem registerWaiter_eventWaiters_iff (d : Usb.Device) (setupData : SetupData)
    (issuer : Option Nat) :
    (d.registerWaiter setupData issuer).eventWaiters = d.eventWaiters ↔
      issuer = none ∨ d.eventWaiters.Full := by
  cases issuer with
  | none => exact ⟨fun _ => .inl rfl, fun _ => rfl⟩
  | some issuer =>
      have hput := ArrayMap.put_eq_self_iff d.eventWaiters setupData (some issuer)
      exact ⟨fun hsame => .inr (hput.mp hsame),
        fun hfull => hput.mpr (hfull.resolve_left (Option.some_ne_none issuer))⟩

theorem control_errorsChangeNothing_iff (transferType : BitVec 2) (dataIn statusIn : Bool)
    (h : Host) (p : Pipes) (epId : EndpointID) (setupData : SetupData) (buf : BitVec 64)
    (len : Int) (issuer : Option Nat) :
    ErrorsChangeNothing h p
        (control transferType dataIn statusIn h p epId setupData buf len issuer) ↔
      ¬ p.Refuses epId ∨ issuer = none ∨ p.base.eventWaiters.Full := by
  by_cases refuses : p.Refuses epId
  · obtain ⟨err, herr, hret⟩ :=
      control_refused refuses transferType dataIn statusIn h setupData buf len issuer
    rw [hret, or_iff_right (not_not_intro refuses),
      ← registerWaiter_eventWaiters_iff p.base setupData issuer]
    constructor
    · exact fun hnothing => (hnothing err _ _ rfl herr).eventWaiters
    · rintro hsame err p' h' heq -
      cases heq
      exact ⟨hsame, rfl, rfl, rfl⟩
  · refine ⟨fun _ => .inl refuses, fun _ err p' h' hret herr => ?_⟩
    exact absurd (control_accepted transferType dataIn statusIn h setupData buf len issuer refuses
      _ hret) herr

/-! ## the theorem -/

/-- **A refused control request** changes nothing just when there is no issuer
to be noted as waiting, or no room to note it. -/
theorem rejected_iff (h : Host) (p : Pipes) (epId : EndpointID) (setupData : SetupData)
    (buf : BitVec 64) (len : Int) (issuer : Option Nat) :
    (ErrorsChangeNothing h p (p.controlIn h epId setupData buf len issuer) ↔
      ¬ p.Refuses epId ∨ issuer = none ∨ p.base.eventWaiters.Full) ∧
    (ErrorsChangeNothing h p (p.controlOut h epId setupData buf len issuer) ↔
      ¬ p.Refuses epId ∨ issuer = none ∨ p.base.eventWaiters.Full) :=
  ⟨control_errorsChangeNothing_iff _ _ _ _ _ _ _ _ _ _,
    control_errorsChangeNothing_iff _ _ _ _ _ _ _ _ _ _⟩

/-- A class driver asks a new device, which has no transfer ring yet, for its
descriptor. -/
theorem not_errorsChangeNothing :
    ¬ ErrorsChangeNothing ⟨0x100000#64, []⟩ (Device.new 0x200000#64 1#8 1#8).pipes
      ((Device.new 0x200000#64 1#8 1#8).pipes.controlIn ⟨0x100000#64, []⟩ kDefaultControlPipeID
        ⟨0x80#8, Request.kGetDescriptor, 0x100#16, 0#16, 18#16⟩ 0x300000#64 18 (some 0)) := by
  intro hnothing
  have hsame := (hnothing .kTransferRingNotSet _ _ rfl nofun).eventWaiters
  exact absurd (congrArg (fun m => (m.table.map Prod.fst).head?) hsame) (by decide)

end MikanOs.Usb.Xhci.Pipes
