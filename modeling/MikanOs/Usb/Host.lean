import MikanOs.Error
import MikanOs.Usb.Memory

/-!
# MikanOs.Usb.Host

What the driver shares with everything outside its own variables.

`Env` is what a call reads and never writes: registers of the controller,
memory that the controller fills, and what was fixed before the driver
started.  Each call into the driver has its own `Env`, so between two calls
the outside may change in any way; during a call memory that is not
`volatile` stays as it is, and a register may change from one read to the
next.

`Host` is what a call changes: the pool cursor, and a record `io` of what it
did to the outside.  Functions that take a `Host` and not the state of the
controller cannot touch the latter.
-/

namespace MikanOs.Usb

/-- What one call into the driver reads. -/
structure Env where
  pool : MemoryPool
  /-- `HIDKeyboardDriver::default_observer` is set -/
  keyObserver : Bool
  /-- `HIDMouseDriver::default_observer` is set -/
  mouseObserver : Bool
  /-- what the reads of a port's `PORTSC` return, one after another -/
  portsc : BitVec 8 → Nat → BitVec 32
  /-- `slot_context` of the device context of the device in a slot -/
  slotContext : BitVec 8 → BitVec 256
  /-- the TRB at an address outside the rings of the driver -/
  trb : BitVec 64 → BitVec 128
  /-- the byte at an address in a data buffer -/
  mem : BitVec 64 → BitVec 8
  /-- the low four bits of `ERDP` at its successive reads -/
  erdpLow : Nat → BitVec 4
  /-- rounds after which a loop that is still running counts as endless -/
  steps : Nat

/-- Everything reads as zero. -/
def Env.zero (pool : MemoryPool) : Env where
  pool := pool
  keyObserver := false
  mouseObserver := false
  portsc := fun _ _ => 0#32
  slotContext := fun _ => 0#256
  trb := fun _ => 0#128
  mem := fun _ => 0#8
  erdpLow := fun _ => 0#4
  steps := 8

/-- What the driver does to the outside, and the indices it looks up in
tables it does not check against. -/
inductive Io
  | doorbell (index target : BitVec 8)
  | portsc (port : BitVec 8) (value : BitVec 32)
  | portAt (port : BitVec 8)
  | completionCodeName (code : BitVec 8)
  | keyPush (keycode : BitVec 8)
  | mouseMove (dx dy : BitVec 8)
  deriving DecidableEq, Repr

/-- What a call changes outside the driver's objects. -/
structure Host where
  allocPtr : BitVec 64
  io : List Io

namespace Host

/-- Record an action. -/
def act (h : Host) (e : Io) : Host := { h with io := h.io ++ [e] }

/-- Take over what an allocation returned. -/
def grant (h : Host) (a : BitVec 64 × BitVec 64) : BitVec 64 × Host :=
  (a.1, { h with allocPtr := a.2 })

/-- `AllocArray<T>(num_obj, alignment, boundary)`. -/
def allocArray (env : Env) (h : Host) (sizeofT numObj : Nat) (alignment boundary : BitVec 32) :
    BitVec 64 × Host :=
  h.grant (Usb.allocArray env.pool h.allocPtr sizeofT (BitVec.ofNat 64 numObj) alignment boundary)

/-- The request such a call makes. -/
def arrayRequest (sizeofT numObj : Nat) (alignment boundary : BitVec 32) : Request :=
  ⟨BitVec.ofNat 64 sizeofT * BitVec.ofNat 64 numObj, alignment, boundary⟩

theorem allocArray_eq (env : Env) (h : Host) (sizeofT numObj : Nat)
    (alignment boundary : BitVec 32) : h.allocArray env sizeofT numObj alignment boundary =
      h.grant ((arrayRequest sizeofT numObj alignment boundary).serve env.pool h.allocPtr) := rfl

theorem grant_fst (h : Host) (a : BitVec 64 × BitVec 64) : (h.grant a).1 = a.1 := rfl

theorem grant_allocPtr (h : Host) (a : BitVec 64 × BitVec 64) :
    (h.grant a).2.allocPtr = a.2 := rfl

/-- Room for a request and others is room for the request, and then for the
others. -/
theorem hasRoom_cons {r : Request} (hr : r.Valid) {pool : MemoryPool} {h : Host}
    (cursor : CursorOk pool h.allocPtr) (rs : List Request) : HasRoom pool h.allocPtr (r :: rs) ↔
      (h.grant (r.serve pool h.allocPtr)).1 ≠ 0#64 ∧
        HasRoom pool (h.grant (r.serve pool h.allocPtr)).2.allocPtr rs := by
  rw [grant_fst, grant_allocPtr, Usb.hasRoom_cons hr cursor]

theorem cursorOk_grant {r : Request} (hr : r.Valid) {pool : MemoryPool} {h : Host}
    (cursor : CursorOk pool h.allocPtr) :
    CursorOk pool (h.grant (r.serve pool h.allocPtr)).2.allocPtr := by
  rw [grant_allocPtr]
  exact (allocMem_refines hr cursor).2.2

end Host

/-! ## arrays -/

/-- An index into a C++ array of `n` elements. -/
def checked (n : Nat) (i : Int) : Except Fault Nat :=
  if 0 ≤ i ∧ i < n then pure i.toNat else throw .outOfBounds

theorem checked_eq_ok {n k : Nat} {i : Int} :
    checked n i = .ok k ↔ (0 ≤ i ∧ i < n) ∧ i.toNat = k := by
  rw [checked, Returns.guard_eq_ok, Returns.pure_eq_ok]

/-- Overwrite one element of an array. -/
def update [DecidableEq ι] (a : ι → α) (i : ι) (x : α) : ι → α := fun j => if j = i then x else a j

@[simp] theorem update_self [DecidableEq ι] (a : ι → α) (i : ι) (x : α) : update a i x i = x :=
  if_pos rfl

theorem update_ne [DecidableEq ι] {i j : ι} (h : j ≠ i) (a : ι → α) (x : α) :
    update a i x j = a j := if_neg h

/-- Writing back what is there. -/
theorem update_eq_self [DecidableEq ι] (a : ι → α) (i : ι) : update a i (a i) = a := by
  funext j
  unfold update
  split
  · next h => rw [h]
  · rfl

/-- The second of two writes to one place counts. -/
theorem update_update [DecidableEq ι] (a : ι → α) (i : ι) (x y : α) :
    update (update a i x) i y = update a i y := by
  funext j
  unfold update
  split <;> rfl

/-- Writes to two places may change places. -/
theorem update_comm [DecidableEq ι] {i j : ι} (h : i ≠ j) (a : ι → α) (x y : α) :
    update (update a j y) i x = update (update a i x) j y := by
  funext k
  unfold update
  by_cases hi : k = i
  · rw [if_pos hi, if_neg (hi ▸ h), if_pos hi]
  · rw [if_neg hi, if_neg hi]

end MikanOs.Usb
