import MikanOs.Usb.Xhci.TransferCalls

/-!
# MikanOs.Usb.Xhci.InterruptRun

A HID device from its allocation on, as a run: its initialization,
`ConfigureEndpoints`, the SET_PROTOCOL requests of its class driver, and one
transfer event after another, each of which completes a TRB in flight.

`Serving` is what holds of a class driver that has been started and has an
interrupt-IN endpoint with a ring of its own; `Serving.event` is its step.
-/

namespace MikanOs.Usb.Xhci

open Relation Usb.Device

/-! ## the run -/

/-- How far a device has been brought up. -/
inductive Stage
  | addressed
  | initializing
  | configured
  | running
  deriving DecidableEq

/-- A device in use.  Of each of its transfer rings the controller is past the
first `taken` TRBs; `cursor` is where the pool cursor was left when the last
ring had been made. -/
structure PipeRun where
  dev : Device
  stage : Stage
  taken : Nat → Nat
  cursor : BitVec 64
  failed : Bool

namespace PipeRun

/-- The base class object. -/
def base (s : PipeRun) : Usb.Device := s.dev.pipes.base

/-- `transfer_rings_`. -/
def rings (s : PipeRun) : Rings := s.dev.pipes.transferRings

/-- What a call has left of the object. -/
def after (s : PipeRun) (p : Pipes) : PipeRun := { s with dev := { s.dev with pipes := p } }

/-- A transfer event that completes TRB number `k` of ring `i`, which is in
flight. -/
structure Completes (s : PipeRun) (tr : Ring) (trb : Trb) (i k : Nat) : Prop where
  ring : s.rings i = some tr
  index : i < 31
  inFlight : tr.InFlight (s.taken i) k
  pointer : TransferEventTRB.pointer trb = tr.entry (k % (tr.bufSize - 1))
  endpoint : (TransferEventTRB.endpointId.get trb).toNat = i + 1

/-- The controller is past that TRB. -/
def complete (s : PipeRun) (p : Pipes) (trb : Trb) (i k : Nat) : PipeRun :=
  { s.after p with
    taken := update s.taken i (k + 1)
    failed := s.failed || decide (¬ Succeeded (TransferEventTRB.completionCode.get trb)) }

/-- The controller starts over on the rings of the endpoints that have been
configured. -/
def configure (s : PipeRun) (dev : Device) (h : Host) : PipeRun :=
  { s with
    dev := dev
    stage := .configured
    taken := fun i => if ∃ config ∈ s.base.configs, config.epId.addr = i + 1 then 0 else s.taken i
    cursor := h.allocPtr }

/-- `AddressDevice` as far as the device is concerned: it has been allocated,
and given the ring of its default control pipe. -/
inductive Addressed (pool : MemoryPool) (this : BitVec 64) : PipeRun → Prop
  | mk (env : Env) (h h₁ h' : Host) (slotId dbreg : BitVec 8) (tr : Ring) (p : Pipes)
      (pool_eq : env.pool = pool) (cursor : CursorOk pool h.allocPtr)
      (device : h.allocArray env Device.sizeofDevice 1 64#32 4096#32 = (this, h₁))
      (made : this ≠ 0#64)
      (ring : (Device.new this slotId dbreg).pipes.allocTransferRing env h₁ 1 32 =
        .ok (some tr, p, h')) :
      Addressed pool this
        ⟨{ Device.new this slotId dbreg with pipes := p }, .addressed, fun _ => 0, h'.allocPtr,
          false⟩

/-- One step of a run: the next call of the bring-up, or a transfer event.
Between two steps anything may happen to other devices and to the pool. -/
inductive Step (pool : MemoryPool) (s : PipeRun) : PipeRun → Prop
  | startInitialize (h : Host) (stage : s.stage = .addressed)
      (ret : s.dev.pipes.startInitialize h = .ok (e, p', h')) :
      Step pool s { s.after p' with stage := .initializing }
  | event (env : Env) (h : Host) (tr : Ring) (trb : Trb) (i k : Nat)
      (completes : s.Completes tr trb i k)
      (ret : s.dev.pipes.onTransferEventReceived env h trb = .ok (e, p', h')) :
      Step pool s (s.complete p' trb i k)
  | configureEndpoints (env : Env) (h : Host) (speed : BitVec 4) (input : InputContext)
      (dev : Device) (stage : s.stage = .initializing) (ready : s.base.isInitialized = true)
      (pool_eq : env.pool = pool) (cursor : CursorOk pool h.allocPtr)
      (later : s.cursor.toNat ≤ h.allocPtr.toNat)
      (ret : Controller.configureEach env speed h { s.dev with inputCtx := input }
        s.base.numEpConfigs 0 = .ok (dev, h')) :
      Step pool s (s.configure dev h')
  | completeConfiguration (h : Host) (stage : s.stage = .configured)
      (ret : s.dev.pipes.onEndpointsConfigured h = .ok (e, p', h')) :
      Step pool s { s.after p' with stage := .running }

/-- TRB number `k` of ring `i` is a Normal TRB in flight. -/
structure Armed (s : PipeRun) (tr : Ring) (i k : Nat) : Prop where
  ring : s.rings i = some tr
  inFlight : tr.InFlight (s.taken i) k
  type : ¬ NotNormal (tr.trbs (k % (tr.bufSize - 1)))

/-- What is to hold of the interrupt transfers of a device. -/
structure OneArmed (s : PipeRun) : Prop where
  /-- no two Normal TRBs are in flight -/
  unique : ∀ tr tr' i i' k k', s.Armed tr i k → s.Armed tr' i' k' → i = i' ∧ k = k'
  /-- once its SET_PROTOCOL request has been accepted, and until a transfer
  fails, there is one for the buffer of the class driver -/
  kept : ∀ c ∈ s.base.drivers, c.initializePhase = 2 → s.failed = false →
    ∃ tr i k, checked 31 (c.epInterruptIn.addr - 1) = .ok i ∧ s.Armed tr i k ∧
      NormalTRB.dataBufferPointer.get (tr.trbs (k % (tr.bufSize - 1))) = c.buf
  /-- no other TRB is in flight on the ring of its interrupt-IN endpoint -/
  alone : ∀ c ∈ s.base.drivers, ∀ i tr, checked 31 (c.epInterruptIn.addr - 1) = .ok i →
    s.rings i = some tr → ∀ k k', tr.InFlight (s.taken i) k → tr.InFlight (s.taken i) k' → k = k'

end PipeRun

/-! ## the ring of an interrupt-IN endpoint -/

/-- A ring of interrupt transfers for one buffer, of which no more than one is
in flight. -/
structure Ring.Carries (r : Ring) (buf : BitVec 64) (taken : Nat) (items : List Trb) : Prop where
  bufSize : r.bufSize = 32
  holds : r.Holds taken items
  few : items.length ≤ taken + 1
  normal : ∀ t, items[taken]? = some t → ∃ len, t = Pipes.normalTRB buf len
  buffer : items ≠ [] → r.buf ≠ 0#64

namespace Ring.Carries

variable {r : Ring} {buf : BitVec 64} {taken : Nat} {items : List Trb}

theorem of_blank (h : r.Blank) (buf : BitVec 64) : r.Carries buf 0 [] where
  bufSize := h.bufSize
  holds := h.holds
  few := Nat.zero_le _
  normal := nofun
  buffer := absurd rfl

/-- What is in flight is the next TRB. -/
theorem inFlight_iff (h : r.Carries buf taken items) :
    r.InFlight taken k ↔ k = taken ∧ items.length = taken + 1 := by
  have hfew := h.few
  rw [h.holds.inFlight_iff]
  omega

/-- It is a Normal TRB for the buffer. -/
theorem trb_of_waiting (h : r.Carries buf taken items) (hlen : items.length = taken + 1) :
    ¬ NotNormal (r.trbs (taken % (r.bufSize - 1))) ∧
      NormalTRB.dataBufferPointer.get (r.trbs (taken % (r.bufSize - 1))) = buf := by
  have hlt : taken < items.length := by omega
  obtain ⟨len, hitem⟩ := h.normal _ (List.getElem?_eq_getElem hlt)
  have hbody := h.holds.slots.live hlt (Nat.le_refl _)
  rw [Nat.zero_add, hitem] at hbody
  obtain ⟨htype, hpointer⟩ := Pipes.get_normalTRB buf len
  refine ⟨not_not_intro ?_, ?_⟩
  · exact (TRB.get_eq_of_body_eq (by decide) hbody).trans htype
  · exact (TRB.get_eq_of_body_eq (by decide) hbody).trans hpointer

/-- The controller takes it. -/
theorem take (h : r.Carries buf taken items) (hlen : items.length = taken + 1) :
    r.Carries buf (taken + 1) items where
  bufSize := h.bufSize
  holds := h.holds.takeTo (Nat.le_succ taken) (Nat.le_of_eq hlen.symm)
  few := by omega
  normal t ht := by
    rw [List.getElem?_eq_none (Nat.le_of_eq hlen)] at ht
    contradiction
  buffer := h.buffer

/-- The next one is pushed. -/
theorem arm (h : r.Carries buf taken items) (hlen : items.length = taken) (hbuf : r.buf ≠ 0#64)
    (len : Int) :
    (r.push (Pipes.normalTRB buf len)).2.Carries buf taken
      (items ++ [Pipes.normalTRB buf len]) where
  bufSize := (r.push_bufSize _).trans h.bufSize
  holds := Ring.push_holds h.holds (by rw [h.bufSize]; decide) (by rw [h.bufSize]; omega) _
  few := by rw [List.length_append, hlen]; exact Nat.le_refl _
  normal t ht := by
    rw [← hlen, List.getElem?_concat_length] at ht
    exact ⟨len, (Option.some.inj ht).symm⟩
  buffer _ := by rw [Ring.push_buf]; exact hbuf

end Ring.Carries

namespace PipeRun

variable {s t : PipeRun} {n : Nat} {c c' : HIDDriver} {tr : Ring} {items : List Trb}

/-! ## a class driver at work -/

/-- The rings but that of the default control pipe and ring `n` have not been
used. -/
def Unused (s : PipeRun) (n : Nat) : Prop :=
  ∀ i, i ≠ 0 → i ≠ n → s.taken i = 0 ∧ ∀ tr, s.rings i = some tr → tr.Blank

/-- A device with a class driver whose interrupt-IN endpoint has ring `n`. -/
structure Bound (d : Usb.Device) (n : Nat) (c : HIDDriver) : Prop where
  ready : d.isInitialized = true
  drivers : d.drivers = [c]
  registered : d.classDrivers c.epInterruptIn.number.toNat = some 0
  isIn : c.epInterruptIn.isIn = true
  index : checked 31 (c.epInterruptIn.addr - 1) = .ok n
  inner : n ≠ 0

theorem Bound.change {d : Usb.Device} (h : Bound d n c)
    (same : c'.epInterruptIn = c.epInterruptIn) : Bound { d with drivers := [c'] } n c' where
  ready := h.ready
  drivers := rfl
  registered := same ▸ h.registered
  isIn := same ▸ h.isIn
  index := same ▸ h.index
  inner := h.inner

/-- The class driver has started: on its ring there is the transfer it is
waiting for, from the time it has accepted the completion of its request. -/
structure Serving (s : PipeRun) (n : Nat) (c : HIDDriver) (tr : Ring) (items : List Trb) :
    Prop where
  tidy : Tidy s.cursor s.rings
  unused : s.Unused n
  bound : Bound s.base n c
  ring : s.rings n = some tr
  carries : tr.Carries c.buf (s.taken n) items
  early : c.initializePhase ≠ 2 → items.length = s.taken n
  kept : c.initializePhase = 2 → s.failed = false → items.length = s.taken n + 1

/-- No TRB is in flight on a ring that has not been used. -/
theorem Unused.not_completes {trb : Trb} {i k : Nat} (h : s.Unused n) (hi : i ≠ 0) (hn : i ≠ n) :
    ¬ s.Completes tr trb i k := by
  intro completes
  obtain ⟨htaken, hblank⟩ := h i hi hn
  have hflight := completes.inFlight
  rw [htaken] at hflight
  exact (hblank tr completes.ring).holds.not_inFlight (Nat.zero_le _) hflight

/-- Nor is an unused ring touched. -/
theorem Unused.complete {p : Pipes} {trb : Trb} {i k : Nat} (h : s.Unused n)
    (hi : i = 0 ∨ i = n) (rings : ∀ j, j ≠ 0 → j ≠ n → p.transferRings j = s.rings j) :
    (s.complete p trb i k).Unused n := by
  intro j hj hjn
  have hne : j ≠ i := by omega
  obtain ⟨htaken, hblank⟩ := h j hj hjn
  refine ⟨(update_ne hne _ _).trans htaken, fun tr htr => hblank tr ?_⟩
  rw [← rings j hj hjn]
  exact htr

/-- The event of the default control pipe is not one of an interrupt transfer. -/
theorem Completes.notNormal {trb : Trb} {k : Nat} (completes : s.Completes tr trb 0 k)
    (tidy : Tidy s.cursor s.rings) (env : Env) :
    NotNormal (s.dev.pipes.trbAt env (TransferEventTRB.pointer trb)) := by
  have hsize := tidy.laid.bufSize 0 tr completes.ring
  have hlt : k % (tr.bufSize - 1) < 31 := by rw [hsize]; exact Nat.mod_lt _ (by decide)
  rw [completes.pointer]
  exact tidy.notNormal_entry completes.ring (by omega) env

theorem failed_eq_false {p : Pipes} {trb : Trb} {i k : Nat}
    (h : (s.complete p trb i k).failed = false) :
    s.failed = false ∧ Succeeded (TransferEventTRB.completionCode.get trb) := by
  have hboth := Bool.or_eq_false_iff.mp h
  exact ⟨hboth.1, Decidable.not_not.mp (of_decide_eq_false hboth.2)⟩

namespace Serving

/-- A completion that the class driver is not concerned with. -/
theorem pass {p : Pipes} {trb : Trb} {k : Nat} (h : Serving s n c tr items)
    (base : p.base = s.base) (rings : p.transferRings = s.rings) :
    Serving (s.complete p trb 0 k) n c tr items := by
  have htaken : (s.complete p trb 0 k).taken n = s.taken n := update_ne h.bound.inner _ _
  have hrings : (s.complete p trb 0 k).rings = s.rings := rings
  have hbase : (s.complete p trb 0 k).base = s.base := base
  refine ⟨hrings ▸ h.tidy, h.unused.complete (.inl rfl) fun j _ _ => congrFun rings j,
    hbase ▸ h.bound, hrings ▸ h.ring, htaken ▸ h.carries, htaken ▸ h.early, fun hphase hok => ?_⟩
  rw [htaken]
  exact h.kept hphase (failed_eq_false hok).1

/-- The transfer of the class driver fails. -/
theorem fail {trb : Trb} {k : Nat} (h : Serving s n c tr items)
    (completes : s.Completes tr trb n k)
    (failed : ¬ Succeeded (TransferEventTRB.completionCode.get trb)) :
    Serving (s.complete s.dev.pipes trb n k) n c tr items := by
  obtain ⟨rfl, hlen⟩ := h.carries.inFlight_iff.mp completes.inFlight
  have htaken : (s.complete s.dev.pipes trb n (s.taken n)).taken n = s.taken n + 1 :=
    update_self _ _ _
  refine ⟨h.tidy, h.unused.complete (.inr rfl) fun j _ _ => rfl, h.bound, h.ring,
    htaken ▸ h.carries.take hlen, fun _ => htaken ▸ hlen, fun _ hok => ?_⟩
  exact absurd (failed_eq_false hok).2 failed

/-- What an interrupt transfer of the class driver comes to. -/
theorem asked {p p' : Pipes} {h₁ h₂ : Host} {e : Error} (h : Serving s n c tr items)
    (rings : p.transferRings = s.rings)
    (ret : p.interruptIn h₁ c.epInterruptIn c.buf c.inPacketSize = .ok (e, p', h₂)) :
    tr.buf ≠ 0#64 ∧ p'.base = p.base ∧ p'.transferRings =
      update s.rings n (some (tr.push (Pipes.normalTRB c.buf c.inPacketSize)).2) := by
  obtain ⟨i, hi, hpush⟩ := Pipes.interruptIn_ok ret
  obtain rfl : n = i := Except.ok.inj (h.bound.index.symm.trans hi)
  rw [rings, h.ring] at hpush
  rcases hpush with ⟨hnone, _⟩ | ⟨tr', htr', hbuf, rfl⟩
  · contradiction
  · obtain rfl := Option.some.inj htr'
    exact ⟨hbuf, rfl, rfl⟩

/-- The class driver asks for a transfer while none is in flight. -/
theorem arm {p p' : Pipes} {h₁ h₂ : Host} {e : Error} {trb : Trb} {i k : Nat}
    (h : Serving s n c tr items) (base : p.base = { s.base with drivers := [c'] })
    (rings : p.transferRings = s.rings)
    (ret : p.interruptIn h₁ c.epInterruptIn c.buf c.inPacketSize = .ok (e, p', h₂))
    (hi : i = 0 ∨ i = n) (same : c'.epInterruptIn = c.epInterruptIn) (buf : c'.buf = c.buf)
    (phase : c'.initializePhase = 2)
    (carries : tr.Carries c.buf ((s.complete p' trb i k).taken n) items)
    (idle : items.length = (s.complete p' trb i k).taken n) :
    ∃ tr' items', Serving (s.complete p' trb i k) n c' tr' items' := by
  obtain ⟨hbuf, hbase, hrings⟩ := h.asked rings ret
  have hnow : (s.complete p' trb i k).rings =
      update s.rings n (some (tr.push (Pipes.normalTRB c.buf c.inPacketSize)).2) := hrings
  have hdev : (s.complete p' trb i k).base = { s.base with drivers := [c'] } :=
    hbase.trans base
  refine ⟨(tr.push (Pipes.normalTRB c.buf c.inPacketSize)).2,
    items ++ [Pipes.normalTRB c.buf c.inPacketSize], ?_, ?_, ?_, ?_, ?_, ?_, ?_⟩
  · rw [hnow]
    exact h.tidy.push h.bound.inner h.ring _
  · exact h.unused.complete hi fun j _ hjn => by rw [hrings]; exact update_ne hjn _ _
  · rw [hdev]
    exact h.bound.change same
  · rw [hnow]
    exact update_self _ _ _
  · rw [buf]
    exact carries.arm idle hbuf _
  · exact fun hne => absurd phase hne
  · intro _ _
    rw [List.length_append, idle]
    rfl

/-- A report of the class driver, or the failure of one. -/
theorem report {env : Env} {host : Host} {p : Pipes} {trb : Trb} {k : Nat}
    (h : Serving s n c tr items) (completes : s.Completes tr trb n k)
    (received : Pipes.Received env host s.dev.pipes trb p) :
    ∃ c' tr' items', Serving (s.complete p trb n k) n c' tr' items' := by
  obtain ⟨rfl, hlen⟩ := h.carries.inFlight_iff.mp completes.inFlight
  have hphase : c.initializePhase = 2 := Decidable.byContradiction fun hne => by
    have hidle := h.early hne
    omega
  have htype : ¬ NotNormal (s.dev.pipes.trbAt env (TransferEventTRB.pointer trb)) := by
    have hnonempty : items ≠ [] := fun hnil => by rw [hnil] at hlen; contradiction
    have hlt : s.taken n % (tr.bufSize - 1) < 32 := by
      rw [h.carries.bufSize]
      have hmod := Nat.mod_lt (s.taken n) (show 0 < 31 by decide)
      exact Nat.lt_succ_of_lt hmod
    rw [completes.pointer, h.tidy.laid.trbAt_entry completes.index h.ring
      (h.carries.buffer hnonempty) hlt]
    exact (h.carries.trb_of_waiting hlen).1
  by_cases hcode : Succeeded (TransferEventTRB.completionCode.get trb)
  · have hendpoint : ((TransferEventTRB.endpointId.get trb).toNat : Int) =
        c.epInterruptIn.addr := by
      have hindex := checked_eq_ok.mp h.bound.index
      have hep := completes.endpoint
      omega
    obtain ⟨c', p₁, h₁, h₂, e, hsame, hbase, hrings, ret⟩ :=
      received.interrupt_ready hcode htype h.bound.drivers hendpoint h.bound.isIn
        h.bound.registered
    have htaken : (s.complete p trb n (s.taken n)).taken n = s.taken n + 1 := update_self _ _ _
    refine ⟨c', h.arm hbase hrings ret (.inr rfl) (by rw [hsame]) (by rw [hsame]; rfl)
      (by rw [hsame]; exact hphase) ?_ ?_⟩
    · rw [htaken]
      exact h.carries.take hlen
    · rw [htaken, hlen]
  · cases received with
    | failed => exact ⟨c, tr, items, h.fail completes hcode⟩
    | refused succeeded => exact absurd succeeded hcode
    | interrupt succeeded => exact absurd succeeded hcode
    | control succeeded => exact absurd succeeded hcode

/-- Every event keeps the class driver at work. -/
theorem event {env : Env} {host : Host} {p : Pipes} {tr' : Ring} {trb : Trb} {i k : Nat}
    (h : Serving s n c tr items) (completes : s.Completes tr' trb i k)
    (received : Pipes.Received env host s.dev.pipes trb p) :
    ∃ c' tr' items', Serving (s.complete p trb i k) n c' tr' items' := by
  by_cases hzero : i = 0
  · subst hzero
    have htype := completes.notNormal h.tidy env
    rcases received.control_ready htype h.bound.ready h.bound.drivers with
      ⟨hbase, hrings⟩ | ⟨hphase, p₁, h₁, h₂, e, hbase, hrings, ret⟩
    · exact ⟨c, tr, items, h.pass hbase hrings⟩
    · have hidle := h.early (by rw [hphase]; decide)
      have htaken : (s.complete p trb 0 k).taken n = s.taken n := update_ne h.bound.inner _ _
      refine ⟨_, h.arm hbase hrings ret (.inl rfl) rfl rfl rfl ?_ ?_⟩
      · rw [htaken]
        exact h.carries
      · rw [htaken]
        exact hidle
  · by_cases hn : i = n
    · subst hn
      obtain rfl := Option.some.inj (h.ring.symm.trans completes.ring)
      exact h.report completes received
    · exact absurd completes (h.unused.not_completes hzero hn)

end Serving

/-! ## a class driver without an interrupt-IN endpoint -/

/-- A class driver that asks for nothing. -/
structure Silent (s : PipeRun) (c : HIDDriver) : Prop where
  tidy : Tidy s.cursor s.rings
  unused : s.Unused 0
  ready : s.base.isInitialized = true
  drivers : s.base.drivers = [c]
  endpoint : c.epInterruptIn = EndpointID.none
  early : c.initializePhase ≠ 2

/-- A request of it would not return. -/
theorem Silent.event {env : Env} {host : Host} {p : Pipes} {tr : Ring} {trb : Trb} {i k : Nat}
    (h : Silent s c) (completes : s.Completes tr trb i k)
    (received : Pipes.Received env host s.dev.pipes trb p) : Silent (s.complete p trb i k) c := by
  obtain rfl : i = 0 := Decidable.byContradiction fun hi => h.unused.not_completes hi hi completes
  have htype := completes.notNormal h.tidy env
  rcases received.control_ready htype h.ready h.drivers with
    ⟨hbase, hrings⟩ | ⟨_, p₁, h₁, h₂, e, _, _, ret⟩
  · have hnow : (s.complete p trb 0 k).rings = s.rings := hrings
    have hdev : (s.complete p trb 0 k).base = s.base := hbase
    exact ⟨hnow ▸ h.tidy, h.unused.complete (.inl rfl) fun j _ _ => congrFun hrings j,
      hdev ▸ h.ready, hdev ▸ h.drivers, h.endpoint, h.early⟩
  · obtain ⟨j, hj, _⟩ := Pipes.interruptIn_ok ret
    rw [h.endpoint] at hj
    have hindex := (checked_eq_ok.mp hj).1.1
    contradiction

end PipeRun

end MikanOs.Usb.Xhci
