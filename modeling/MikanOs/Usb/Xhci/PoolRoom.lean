import MikanOs.Usb.PoolRequests
import MikanOs.Usb.Xhci.RingLayout

/-!
# MikanOs.Usb.Xhci.PoolRoom

What the driver asks of the pool for a device: the device object, and for
each transfer ring the ring object and its buffer.  `AllocTransferRing` makes
a ring with a buffer just when the pool has room for both, and once there is
no room for a buffer there never is again (`Starved.mono`).
-/

namespace MikanOs.Usb.Xhci

/-- The request for a device object. -/
def deviceRequest : Request := Host.arrayRequest Device.sizeofDevice 1 64#32 4096#32

theorem deviceRequest_valid : deviceRequest.Valid := ⟨by decide, .inr ⟨6, rfl⟩, .inr ⟨12, rfl⟩⟩

theorem buf32_valid : (bufRequest 32).Valid := bufRequest_valid (by decide)

/-- The requests for a transfer ring of 32 entries. -/
def ringRequests : List Request := [ControlRun.ringRequest, bufRequest 32]

/-- The requests for so many of them. -/
def ringsRequests : Nat → List Request
  | 0 => []
  | n + 1 => ringRequests ++ ringsRequests n

/-! ## `AllocTransferRing` -/

/-- A ring of 32 entries on a buffer, before its first push. -/
def Ring.on (buf : BitVec 64) : Ring := ⟨buf, 32, fun _ => 0#128, true, 0⟩

/-- The device with a ring in a place. -/
def Pipes.withRing (p : Pipes) (d : Nat) (tr : Option Ring) : Pipes :=
  { p with transferRings := update p.transferRings d tr }

/-- `AllocTransferRing` by what the pool answers for the object. -/
theorem installRing_grant (env : Env) (h : Host) (p : Pipes) (d : Nat) (a : BitVec 64 × BitVec 64) :
    p.installRing env d 32 (h.grant a) =
      if a.1 = 0#64 then (none, p.withRing d none, { h with allocPtr := a.2 })
      else
        let b := (bufRequest 32).serve env.pool a.2
        (some (Ring.on b.1), p.withRing d (some (Ring.on b.1)), { h with allocPtr := b.2 }) := by
  unfold Pipes.installRing
  rw [Host.grant_fst, Host.grant_allocPtr, initializeRing_eq]
  generalize (bufRequest 32).serve env.pool a.2 = b
  split <;> rfl

theorem allocTransferRing_eq (env : Env) (h : Host) (p : Pipes) {dci : Int} {d : Nat}
    (hd : checked 31 (dci - 1) = .ok d) : p.allocTransferRing env h dci 32 =
      .ok (p.installRing env d 32
        (h.grant (ControlRun.ringRequest.serve env.pool h.allocPtr))) := by
  rw [Pipes.allocTransferRing, hd, ControlRun.allocArray_ring]
  rfl

/-- Room for a ring is room for the object, and then for the buffer. -/
theorem hasRoom_ring {pool : MemoryPool} {p : BitVec 64} (cursor : CursorOk pool p)
    (rs : List Request) : HasRoom pool p (ringRequests ++ rs) ↔
      (ControlRun.ringRequest.serve pool p).1 ≠ 0#64 ∧
        ((bufRequest 32).serve pool (ControlRun.ringRequest.serve pool p).2).1 ≠ 0#64 ∧
        HasRoom pool ((bufRequest 32).serve pool (ControlRun.ringRequest.serve pool p).2).2 rs := by
  have hok := (allocMem_refines ControlRun.ringRequest_valid cursor).2.2
  rw [ringRequests, List.cons_append, List.cons_append, List.nil_append,
    hasRoom_cons ControlRun.ringRequest_valid cursor, hasRoom_cons buf32_valid hok]

/-- There is no room for a buffer. -/
def Starved (pool : MemoryPool) (p : BitVec 64) : Prop := ¬ HasRoom pool p [bufRequest 32]

theorem buf32_placeable : (bufRequest 32).Placeable :=
  ⟨⟨by decide, buf32_valid.alignment, buf32_valid.boundary⟩, by decide, .inr (by decide)⟩

/-- And there never is again. -/
theorem Starved.mono {pool : MemoryPool} {p q : BitVec 64} (h : Starved pool p)
    (hle : p.toNat ≤ q.toNat) : Starved pool q := by
  rintro ⟨hfit, _⟩
  refine h ⟨Nat.le_trans (Nat.add_le_add_right ?_ _) hfit, trivial⟩
  exact place_mono buf32_placeable hle

theorem starved_iff {pool : MemoryPool} {p : BitVec 64} (cursor : CursorOk pool p) :
    Starved pool p ↔ ((bufRequest 32).serve pool p).1 = 0#64 := by
  rw [Starved, hasRoom_cons buf32_valid cursor, not_and_or, ne_eq, not_not]
  exact or_iff_left fun h => h trivial

/-- What comes of `AllocTransferRing`: no object, an object without a buffer,
or a ring. -/
inductive RingAlloc (env : Env) (h : Host) (p : Pipes) (d : Nat) : Option Ring × Pipes × Host → Prop
  | object (h' : Host) (full : ∀ rs, ¬ HasRoom env.pool h.allocPtr (ringRequests ++ rs)) :
      RingAlloc env h p d (none, p.withRing d none, h')
  | buffer (tr : Ring) (h' : Host) (null : tr.buf = 0#64)
      (full : ∀ rs, ¬ HasRoom env.pool h.allocPtr (ringRequests ++ rs))
      (cursor : CursorOk env.pool h'.allocPtr) (starved : Starved env.pool h'.allocPtr) :
      RingAlloc env h p d (some tr, p.withRing d (some tr), h')
  | granted (tr : Ring) (h' : Host) (buffer : tr.buf ≠ 0#64)
      (room : ∀ rs, HasRoom env.pool h.allocPtr (ringRequests ++ rs) ↔
        HasRoom env.pool h'.allocPtr rs)
      (cursor : CursorOk env.pool h'.allocPtr) (unstarved : ¬ Starved env.pool h.allocPtr) :
      RingAlloc env h p d (some tr, p.withRing d (some tr), h')

/-- By the answers for the object and for the buffer. -/
theorem ringAlloc_of_answers (env : Env) (h : Host) (p : Pipes) (d : Nat)
    {a b : BitVec 64 × BitVec 64}
    (room : ∀ rs, HasRoom env.pool h.allocPtr (ringRequests ++ rs) ↔
      a.1 ≠ 0#64 ∧ b.1 ≠ 0#64 ∧ HasRoom env.pool b.2 rs)
    (starved : Starved env.pool a.2 ↔ b.1 = 0#64) (hle : h.allocPtr.toNat ≤ a.2.toNat)
    (hle' : a.2.toNat ≤ b.2.toNat) (cursor : CursorOk env.pool b.2) :
    RingAlloc env h p d
      (if a.1 = 0#64 then (none, p.withRing d none, { h with allocPtr := a.2 })
      else
        (some (Ring.on b.1), p.withRing d (some (Ring.on b.1)), { h with allocPtr := b.2 })) := by
  by_cases hobject : a.1 = 0#64
  · rw [if_pos hobject]
    exact .object _ fun rs hrs => ((room rs).mp hrs).1 hobject
  · rw [if_neg hobject]
    by_cases hbuffer : b.1 = 0#64
    · exact .buffer _ _ hbuffer (fun rs hrs => ((room rs).mp hrs).2.1 hbuffer) cursor
        ((starved.mpr hbuffer).mono hle')
    · refine .granted _ _ hbuffer (fun rs => ?_) cursor fun h => hbuffer (starved.mp (h.mono hle))
      exact (room rs).trans ⟨fun h => h.2.2, fun h => ⟨hobject, hbuffer, h⟩⟩

theorem allocTransferRing_answer {env : Env} {h : Host} (p : Pipes) {dci : Int} {d : Nat}
    (hd : checked 31 (dci - 1) = .ok d) (cursor : CursorOk env.pool h.allocPtr) :
    ∃ r, p.allocTransferRing env h dci 32 = .ok r ∧ RingAlloc env h p d r := by
  obtain ⟨hok, hle, _⟩ := serve_cursor ControlRun.ringRequest_valid cursor
  obtain ⟨hok', hle', _⟩ := serve_cursor buf32_valid hok
  refine ⟨_, allocTransferRing_eq env h p hd, ?_⟩
  rw [installRing_grant]
  exact ringAlloc_of_answers env h p d (hasRoom_ring cursor) (starved_iff hok) hle hle' hok'

/-- With room for the object and for the buffer `AllocTransferRing` makes a
ring. -/
theorem allocTransferRing_of_room {env : Env} {h : Host} (p : Pipes) {dci : Int} {d : Nat}
    (hd : checked 31 (dci - 1) = .ok d) (cursor : CursorOk env.pool h.allocPtr)
    {rs : List Request} (room : HasRoom env.pool h.allocPtr (ringRequests ++ rs)) : ∃ tr h',
      p.allocTransferRing env h dci 32 = .ok (some tr, p.withRing d (some tr), h') ∧
        tr.buf ≠ 0#64 ∧ HasRoom env.pool h'.allocPtr rs := by
  obtain ⟨_, halloc, hanswer⟩ := allocTransferRing_answer p hd cursor
  cases hanswer with
  | object h' full => exact absurd room (full rs)
  | buffer tr h' null full cursor' starved => exact absurd room (full rs)
  | granted tr h' buffer rest cursor' unstarved => exact ⟨tr, h', halloc, buffer, (rest rs).mp room⟩

/-- The buffer of a ring is aligned to 64 bytes. -/
theorem dvd_buf_of_allocTransferRing {env : Env} {h h' : Host} {p p' : Pipes} {dci : Int} {d : Nat}
    {tr : Ring} (hd : checked 31 (dci - 1) = .ok d) (cursor : CursorOk env.pool h.allocPtr)
    (alloc : p.allocTransferRing env h dci 32 = .ok (some tr, p', h')) (buffer : tr.buf ≠ 0#64) :
    64 ∣ tr.buf.toNat := by
  have hok := (allocMem_refines ControlRun.ringRequest_valid cursor).2.2
  rw [allocTransferRing_eq env h p hd] at alloc
  exact (ControlRun.installRing_fresh hok (Except.ok.inj alloc) buffer).1.placed.aligned

/-! ## `AllocDevice` -/

/-- What comes of `AllocDevice` of a free slot: the constructor runs at the null
address, or there is a new device. -/
inductive DeviceAlloc (env : Env) (h : Host) (m : DeviceManager) (slotId dbreg : BitVec 8) :
    Except Fault (Error × DeviceManager × Host) → Prop
  | null (full : ∀ rs, ¬ HasRoom env.pool h.allocPtr (deviceRequest :: rs)) :
      DeviceAlloc env h m slotId dbreg (.error .nullPointer)
  | made (this : BitVec 64) (h' : Host) (nonnull : this ≠ 0#64)
      (room : ∀ rs, HasRoom env.pool h.allocPtr (deviceRequest :: rs) ↔
        HasRoom env.pool h'.allocPtr rs)
      (cursor : CursorOk env.pool h'.allocPtr) :
      DeviceAlloc env h m slotId dbreg
        (.ok (.kSuccess, m.set slotId (Device.new this slotId dbreg), h'))

/-- By the answer for the object. -/
theorem deviceAlloc_of_answer (env : Env) (h : Host) (m : DeviceManager) (slotId dbreg : BitVec 8)
    {a : BitVec 64 × BitVec 64}
    (room : ∀ rs, HasRoom env.pool h.allocPtr (deviceRequest :: rs) ↔
      a.1 ≠ 0#64 ∧ HasRoom env.pool a.2 rs) (cursor : CursorOk env.pool a.2) :
    DeviceAlloc env h m slotId dbreg
      (if (h.grant a).1 = 0#64 then throw .nullPointer
      else pure (.kSuccess, m.set slotId (Device.new (h.grant a).1 slotId dbreg),
        (h.grant a).2)) := by
  by_cases hnull : a.1 = 0#64
  · rw [Host.grant_fst, if_pos hnull]
    exact .null fun rs hrs => ((room rs).mp hrs).1 hnull
  · rw [Host.grant_fst, if_neg hnull]
    exact .made _ _ hnull (fun rs => (room rs).trans (and_iff_right hnull)) cursor

theorem allocDevice_answer {env : Env} {h : Host} {m : DeviceManager} {slotId : BitVec 8}
    (dbreg : BitVec 8) (hslot : slotId.toNat ≤ m.maxSlots) (free : m.devices slotId = none)
    (cursor : CursorOk env.pool h.allocPtr) :
    DeviceAlloc env h m slotId dbreg (m.allocDevice env h slotId dbreg) := by
  unfold DeviceManager.allocDevice
  rw [if_neg (Nat.not_lt_of_le hslot), free, Host.allocArray_eq, ← deviceRequest]
  exact deviceAlloc_of_answer env h m slotId dbreg (hasRoom_cons deviceRequest_valid cursor)
    (serve_cursor deviceRequest_valid cursor).1

end MikanOs.Usb.Xhci
