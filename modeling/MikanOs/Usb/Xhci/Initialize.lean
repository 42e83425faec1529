import Mathlib.Logic.Function.Iterate
import MikanOs.Usb.Xhci.EventOrder
import MikanOs.Usb.Xhci.PortPhases

/-!
# MikanOs.Usb.Xhci.Initialize

`Controller::Initialize` (`usb/xhci/xhci.cpp`) as far as it decides what the
driver starts from: the tables of the device manager, the scratchpad buffers
of the controller, the command ring and the event ring, one after another
from the pool.  What it writes to registers other than `ERDP` plays no part
in the rest of the driver.
-/

namespace MikanOs.Usb.Xhci

/-! ## the code -/

/-- `Controller::kDeviceSize`. -/
def kDeviceSize : Nat := 8

/-- The size of a pointer. -/
def sizeofPointer : Nat := 8

/-- `DeviceManager::Initialize`. -/
def DeviceManager.initializeTables (env : Env) (h : Host) (maxSlots : Nat) :
    Error × DeviceManager × Host :=
  let a := h.allocArray env sizeofPointer (maxSlots + 1) 0#32 0#32
  if a.1 = 0#64 then (.kNoEnoughMemory, .empty maxSlots, a.2)
  else
    let b := a.2.allocArray env sizeofPointer (maxSlots + 1) 64#32 4096#32
    if b.1 = 0#64 then (.kNoEnoughMemory, .empty maxSlots, b.2)
    else (.kSuccess, .empty maxSlots, b.2)

/-- One scratchpad buffer, of which the driver keeps nothing but the cursor. -/
def allocScratchpadBuffer (env : Env) (h : Host) : Host :=
  (h.allocArray env 1 4096 4096#32 4096#32).2

/-- The scratchpad buffers. -/
def allocScratchpadBuffers (env : Env) (h : Host) (n : Nat) : Host :=
  (allocScratchpadBuffer env)^[n] h

/-- The scratchpad buffer array, if the controller wants one: its address
goes to entry 0 of the device context array. -/
def DeviceManager.storeScratchpad (env : Env) (h : Host) (m : DeviceManager)
    (maxScratchpadBuffers : Nat) : Except Fault (DeviceManager × Host) :=
  if 0 < maxScratchpadBuffers then
    let a := h.allocArray env sizeofPointer maxScratchpadBuffers 64#32 4096#32
    if a.1 = 0#64 then throw .nullPointer
    else pure
      ({ m with deviceContextPointers := update m.deviceContextPointers 0#8 a.1 },
        allocScratchpadBuffers env a.2 maxScratchpadBuffers)
  else pure (m, h)

/-- `Initialize` once there is a command ring, `a` being what its
initialization returned. -/
def onCommandRing (env : Env) (maxPorts : BitVec 8) (erdp : BitVec 64) (devmgr : DeviceManager)
    (h : Host) (a : Error × Ring × BitVec 64) : Error × Option Driver :=
  if a.1 ≠ .kSuccess then (a.1, none)
  else
    let b := EventRing.initializeRing env { h with allocPtr := a.2.2 } erdp 32
    if b.1 ≠ .kSuccess then (b.1, none)
    else (.kSuccess, some ⟨.untouched maxPorts devmgr a.2.1 b.2.2, b.2.1⟩)

/-- `Initialize` once there are tables, `a` being what their initialization
returned. -/
def onTables (env : Env) (maxPorts : BitVec 8) (maxScratchpadBuffers : Nat) (erdp : BitVec 64)
    (a : Error × DeviceManager × Host) : Except Fault (Error × Option Driver) :=
  if a.1 ≠ .kSuccess then pure (a.1, none)
  else do
    let (devmgr, h) ← a.2.1.storeScratchpad env a.2.2 maxScratchpadBuffers
    pure (onCommandRing env maxPorts erdp devmgr h (Ring.initializeRing env.pool h.allocPtr 32))

/-- `Initialize`, when `ERDP` holds `erdp` before; there is a driver to speak
of only if every part of it succeeds. -/
def initializeController (env : Env) (maxPorts : BitVec 8) (maxScratchpadBuffers : Nat)
    (erdp : BitVec 64) (h : Host) : Except Fault (Error × Option Driver) :=
  onTables env maxPorts maxScratchpadBuffers erdp
    (DeviceManager.initializeTables env h kDeviceSize)

namespace Driver

/-- What `Initialize` leaves. -/
structure Initialized (d : Driver) : Prop where
  untouched : d.xhc.Untouched
  maxSlots : d.xhc.devmgr.maxSlots = kDeviceSize
  devices : ∀ slotId, d.xhc.devmgr.devices slotId = none
  fresh : d.xhc.cr.Fresh
  bufSize : d.xhc.cr.bufSize = 32
  er : EventRun.At 0 d.er

end Driver

/-! ## what it leaves -/

/-- An allocation leaves the cursor where the pool can reach. -/
theorem exists_allocArray {env : Env} {h : Host} {size n : Nat} {alignment boundary : BitVec 32}
    (hr : Request.Valid ⟨BitVec.ofNat 64 size * BitVec.ofNat 64 n, alignment, boundary⟩)
    (hp : CursorOk env.pool h.allocPtr) :
    ∃ a, h.allocArray env size n alignment boundary = a ∧ CursorOk env.pool a.2.allocPtr := by
  refine ⟨_, rfl, ?_⟩
  rw [Host.allocArray, Host.grant_allocPtr]
  exact (allocMem_refines hr hp).2.2

theorem cursorOk_allocScratchpadBuffer {env : Env} (h : Host) (hp : CursorOk env.pool h.allocPtr) :
    CursorOk env.pool (allocScratchpadBuffer env h).allocPtr := by
  have hr : Request.Valid ⟨BitVec.ofNat 64 1 * BitVec.ofNat 64 4096, 4096#32, 4096#32⟩ :=
    ⟨by decide +kernel, .inr ⟨12, rfl⟩, .inr ⟨12, rfl⟩⟩
  obtain ⟨a, ha, hok⟩ := exists_allocArray hr hp
  rw [allocScratchpadBuffer, ha]
  exact hok

theorem cursorOk_allocScratchpadBuffers {env : Env} {h : Host} (hp : CursorOk env.pool h.allocPtr)
    (n : Nat) : CursorOk env.pool (allocScratchpadBuffers env h n).allocPtr :=
  Function.Iterate.rec (fun h : Host => CursorOk env.pool h.allocPtr) hp
    (fun h => cursorOk_allocScratchpadBuffer h) n

/-- A table of pointers can be asked for. -/
theorem table_valid {n : Nat} {alignment boundary : BitVec 32} (h : n < 65536)
    (ha : ZeroOrPowerOfTwo alignment) (hb : ZeroOrPowerOfTwo boundary) :
    Request.Valid ⟨BitVec.ofNat 64 sizeofPointer * BitVec.ofNat 64 n, alignment, boundary⟩ := by
  refine ⟨?_, ha, hb⟩
  unfold sizeofPointer
  simp only [BitVec.toNat_mul, BitVec.toNat_ofNat]
  omega

/-- The tables are empty. -/
theorem initializeTables_ok {env : Env} {h h' : Host} {m : DeviceManager} {maxSlots : Nat}
    (hp : CursorOk env.pool h.allocPtr) (hsize : maxSlots + 1 < 65536)
    (ret : DeviceManager.initializeTables env h maxSlots = (.kSuccess, m, h')) :
    m = .empty maxSlots ∧ CursorOk env.pool h'.allocPtr := by
  have hfirst : Request.Valid ⟨_, 0#32, 0#32⟩ := table_valid hsize (.inl rfl) (.inl rfl)
  have hsecond : Request.Valid ⟨_, 64#32, 4096#32⟩ :=
    table_valid hsize (.inr ⟨6, rfl⟩) (.inr ⟨12, rfl⟩)
  obtain ⟨a, ha, haok⟩ := exists_allocArray hfirst hp
  obtain ⟨b, hb, hbok⟩ := exists_allocArray hsecond haok
  unfold DeviceManager.initializeTables at ret
  rw [ha] at ret
  simp only at ret
  rw [hb] at ret
  split at ret
  · exact absurd (Prod.mk.inj ret).1 (by decide)
  split at ret
  · exact absurd (Prod.mk.inj ret).1 (by decide)
  · obtain ⟨rfl, rfl⟩ := Prod.mk.inj (Prod.mk.inj ret).2
    exact ⟨rfl, hbok⟩

/-- The scratchpad array goes to entry 0, and nowhere else. -/
theorem storeScratchpad_ok {env : Env} {h h' : Host} {m m' : DeviceManager} {n : Nat}
    (hp : CursorOk env.pool h.allocPtr) (hn : n < 65536)
    (ret : m.storeScratchpad env h n = .ok (m', h')) :
    m'.maxSlots = m.maxSlots ∧ m'.devices = m.devices ∧
      (0 < n → m'.deviceContextPointers 0#8 ≠ 0#64) ∧ CursorOk env.pool h'.allocPtr := by
  have hr : Request.Valid ⟨_, 64#32, 4096#32⟩ := table_valid hn (.inr ⟨6, rfl⟩) (.inr ⟨12, rfl⟩)
  obtain ⟨a, ha, hok⟩ := exists_allocArray hr hp
  unfold DeviceManager.storeScratchpad at ret
  rw [ha] at ret
  split at ret
  · simp only at ret
    split at ret
    · exact absurd ret Returns.throw_ne_ok
    · next hnull =>
      obtain ⟨rfl, rfl⟩ := Returns.pure_mk_eq_ok.mp ret
      refine ⟨rfl, rfl, fun _ => ?_, cursorOk_allocScratchpadBuffers hok n⟩
      show update m.deviceContextPointers 0#8 a.1 0#8 ≠ 0#64
      rw [update_self]
      exact hnull
  · next hzero =>
    obtain ⟨rfl, rfl⟩ := Returns.pure_mk_eq_ok.mp ret
    exact ⟨rfl, rfl, fun hpos => absurd hpos hzero, hp⟩

/-- The rings of a driver are as they are to be. -/
theorem onCommandRing_ok {env : Env} {h : Host} {m : DeviceManager} {d : Driver}
    {a : Error × Ring × BitVec 64} (hring : a.1 = .kSuccess → a.2.1.Fresh ∧ a.2.1.bufSize = 32)
    (hcursor : a.1 = .kSuccess → CursorOk env.pool a.2.2)
    (ret : onCommandRing env maxPorts erdp m h a = (err, some d)) :
    (∃ h', d.xhc = .untouched maxPorts m a.2.1 h') ∧ d.xhc.cr.Fresh ∧ d.xhc.cr.bufSize = 32 ∧
      EventRun.At 0 d.er := by
  unfold onCommandRing at ret
  by_cases hsuccess : a.1 = .kSuccess
  · rw [if_neg (not_not_intro hsuccess)] at ret
    rcases hinit : EventRing.initializeRing env { h with allocPtr := a.2.2 } erdp 32 with
      ⟨e, er, h'⟩
    rw [hinit] at ret
    by_cases he : e = .kSuccess
    · subst he
      obtain rfl := Option.some.inj (Prod.mk.inj ret).2
      obtain ⟨hfresh, hsize⟩ := hring hsuccess
      exact ⟨⟨h', rfl⟩, hfresh, hsize,
        EventRun.initializeRing_at (hcursor hsuccess) (by decide) (by decide) hinit⟩
    · simp only [ne_eq, he, not_false_eq_true, if_true] at ret
      exact absurd (Prod.mk.inj ret).2 (by simp)
  · rw [if_pos hsuccess] at ret
    exact absurd (Prod.mk.inj ret).2 (by simp)

/-- A ring from the pool leaves the cursor where the pool can reach. -/
theorem initializeRing_ok {env : Env} {p : BitVec 64} {bufSize : Nat} (hp : CursorOk env.pool p)
    (hsize : sizeofTRB * bufSize ≤ 2 ^ 31) {a : Error × Ring × BitVec 64}
    (ha : Ring.initializeRing env.pool p bufSize = a) (hsuccess : a.1 = .kSuccess) :
    a.2.1.Fresh ∧ a.2.1.bufSize = bufSize ∧ CursorOk env.pool a.2.2 := by
  obtain ⟨e, cr, p'⟩ := a
  obtain rfl := hsuccess
  obtain ⟨hnull, hptr⟩ := Ring.buf_ne_zero_of_onBlock
    (a := (bufRequest bufSize).serve env.pool p) ha
  obtain ⟨hfresh, hbufSize⟩ := Ring.initializeRing_fresh hp hsize ha hnull
  have hcursor := (allocMem_refines (bufRequest_valid hsize) hp).2.2
  rw [hptr] at hcursor
  exact ⟨hfresh, hbufSize, hcursor⟩

theorem onTables_ok {env : Env} {n : Nat} {d : Driver} {a : Error × DeviceManager × Host}
    (htables : a.1 = .kSuccess → a.2.1 = .empty kDeviceSize ∧ CursorOk env.pool a.2.2.allocPtr)
    (hn : n < 65536) (ret : onTables env maxPorts n erdp a = .ok (err, some d)) :
    d.Initialized ∧ d.xhc.maxPorts = maxPorts ∧
      (0 < n → d.xhc.devmgr.deviceContextPointers 0#8 ≠ 0#64) := by
  unfold onTables at ret
  by_cases hsuccess : a.1 = .kSuccess
  · rw [if_neg (not_not_intro hsuccess)] at ret
    obtain ⟨hempty, hp⟩ := htables hsuccess
    obtain ⟨⟨m, h⟩, hstore, hret⟩ := Returns.bind_eq_ok.mp ret
    obtain ⟨hslots, hdevices, hentry, hp'⟩ := storeScratchpad_ok hp hn hstore
    rw [hempty] at hslots hdevices
    have hlimit : sizeofTRB * 32 ≤ 2 ^ 31 := by decide
    have hring := initializeRing_ok hp' hlimit rfl
    obtain ⟨⟨h', hxhc⟩, hfresh, hsize, hat⟩ := onCommandRing_ok
      (fun he => ⟨(hring he).1, (hring he).2.1⟩) (fun he => (hring he).2.2)
      (Returns.pure_eq_ok.mp hret)
    refine ⟨⟨?_, ?_, ?_, hfresh, hsize, hat⟩, ?_, ?_⟩
    · rw [hxhc]
      exact ⟨fun _ => rfl, rfl, rfl⟩
    · rw [hxhc]
      exact hslots
    · intro slotId
      rw [hxhc]
      exact congrFun hdevices slotId
    · rw [hxhc]
      rfl
    · rw [hxhc]
      exact hentry
  · rw [if_pos hsuccess] at ret
    exact absurd (Returns.pure_mk_eq_ok.mp ret).2 (by simp)

/-- **`Initialize`**: what it returns when it succeeds is initialized. -/
theorem initializeController_ok {env : Env} {h : Host} {n : Nat} {d : Driver}
    (hp : CursorOk env.pool h.allocPtr) (hn : n < 65536)
    (ret : initializeController env maxPorts n erdp h = .ok (err, some d)) :
    d.Initialized ∧ d.xhc.maxPorts = maxPorts ∧
      (0 < n → d.xhc.devmgr.deviceContextPointers 0#8 ≠ 0#64) := by
  refine onTables_ok (fun he => ?_) hn ret
  rcases htables : DeviceManager.initializeTables env h kDeviceSize with ⟨e, m, h'⟩
  rw [htables] at he
  obtain rfl := he
  exact initializeTables_ok hp (by decide) htables

/-- The sample driver is what `Initialize` returns for a controller with four
ports that wants two scratchpad buffers. -/
theorem initializeController_fresh :
    initializeController (Env.zero poolAtMiB) 4#8 2 0#64 ⟨0x100000#64, []⟩ =
      .ok (.kSuccess, some Driver.fresh) := rfl

theorem Driver.fresh_initialized : Driver.fresh.Initialized :=
  (initializeController_ok (cursorOk_base poolAtMiB) (by decide) initializeController_fresh).1

end MikanOs.Usb.Xhci
