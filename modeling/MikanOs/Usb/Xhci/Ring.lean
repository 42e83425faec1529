import MikanOs.Error
import MikanOs.Lib.LapRing
import MikanOs.Usb.Memory
import MikanOs.Usb.Xhci.Trb

/-!
# MikanOs.Usb.Xhci.Ring

The command and transfer rings (`Ring` of `usb/xhci/ring.cpp`): the driver
writes TRBs one after another, keeps the last entry of the buffer for a Link
TRB back to the start, and flips its cycle state each time it passes it.

A push is a list of 32-bit stores in program order (`pushStores`), the last
word of each TRB last; `push` carries all of them out.  `Ring.Holds` says
what the buffer contains after a history of pushes, in terms of the lap-bit
ring of `MikanOs.Lib.LapRing`, and `push_holds` is its step.
-/

namespace MikanOs.Usb.Xhci

open LapRing

/-! ## the code -/

/-- `sizeof(TRB)`. -/
def sizeofTRB : Nat := 16

/-- The address of an entry of a buffer of TRBs. -/
def entryAt (buf : BitVec 64) (i : Nat) : BitVec 64 := buf + BitVec.ofNat 64 (sizeofTRB * i)

/-- `class Ring`, with the TRBs its buffer holds. -/
structure Ring where
  buf : BitVec 64
  bufSize : Nat
  trbs : Nat → Trb
  cycleBit : Bool
  writeIndex : Nat

/-- One 32-bit store into the buffer. -/
structure Store where
  index : Nat
  word : Fin 4
  value : BitVec 32

/-- Carry out a store. -/
def storeWord (mem : Nat → Trb) (st : Store) : Nat → Trb := fun i =>
  if i = st.index then (TRB.data st.word).put (mem i) st.value else mem i

/-- The last word of a TRB with the producer's cycle bit:
`(data[3] & 0xfffffffeu) | cycle_bit_`. -/
def lastWord (data : Trb) (cycleBit : Bool) : BitVec 32 :=
  ((TRB.data 3).get data &&& 0xfffffffe#32) ||| (BitVec.ofBool cycleBit).setWidth 32

/-- The stores of `CopyToLast`: `data[0..2]` are written prior to
`data[3]`. -/
def copyStores (index : Nat) (cycleBit : Bool) (data : Trb) : List Store :=
  [⟨index, 0, (TRB.data 0).get data⟩, ⟨index, 1, (TRB.data 1).get data⟩,
    ⟨index, 2, (TRB.data 2).get data⟩, ⟨index, 3, lastWord data cycleBit⟩]

namespace Ring

/-- The address of an entry. -/
def entry (r : Ring) (i : Nat) : BitVec 64 := entryAt r.buf i

/-- The Link TRB `Push` places in the last entry. -/
def link (r : Ring) : Trb := LinkTRB.toggleCycle.put (LinkTRB.new r.buf) 1#1

/-- The ring on the block `AllocArray` returned, with the error of
`Initialize` and the new `alloc_ptr`. -/
def onBlock (bufSize : Nat) (a : BitVec 64 × BitVec 64) : Error × Ring × BitVec 64 :=
  (if a.1 = 0#64 then .kNoEnoughMemory else .kSuccess,
    { buf := a.1, bufSize := bufSize, trbs := fun _ => 0#128, cycleBit := true, writeIndex := 0 },
    a.2)

/-- `Initialize`. -/
def initializeRing (pool : MemoryPool) (allocPtr : BitVec 64) (bufSize : Nat) :
    Error × Ring × BitVec 64 :=
  onBlock bufSize (allocArray pool allocPtr sizeofTRB (BitVec.ofNat 64 bufSize) 64#32
    (BitVec.ofNat 32 (64 * 1024)))

/-- `CopyToLast`. -/
def copyToLast (r : Ring) (data : Trb) : Ring :=
  { r with trbs := (copyStores r.writeIndex r.cycleBit data).foldl storeWord r.trbs }

/-- `Push`: the address of the TRB in the ring, and the ring. -/
def push (r : Ring) (data : Trb) : BitVec 64 × Ring :=
  let trbPtr := r.entry r.writeIndex
  let r := r.copyToLast data
  let r := { r with writeIndex := r.writeIndex + 1 }
  if r.writeIndex = r.bufSize - 1 then
    let r := r.copyToLast r.link
    (trbPtr, { r with writeIndex := 0, cycleBit := !r.cycleBit })
  else (trbPtr, r)

/-- The TRB at an address, if it is the address of an entry. -/
def trbAt (r : Ring) (a : BitVec 64) : Option Trb :=
  let off := (a - r.buf).toNat
  if off % sizeofTRB = 0 ∧ off / sizeofTRB < r.bufSize then some (r.trbs (off / sizeofTRB))
  else none

/-! ## a push as a list of stores -/

/-- The stores of `Push`, in program order. -/
def pushStores (r : Ring) (data : Trb) : List Store :=
  copyStores r.writeIndex r.cycleBit data ++
    if r.writeIndex + 1 = r.bufSize - 1 then copyStores (r.writeIndex + 1) r.cycleBit r.link else []

/-- What `Push` does to the members of the ring, its buffer aside. -/
def advance (r : Ring) : Ring :=
  if r.writeIndex + 1 = r.bufSize - 1 then { r with writeIndex := 0, cycleBit := !r.cycleBit }
  else { r with writeIndex := r.writeIndex + 1 }

/-- `Push` carries out its stores and advances. -/
theorem push_eq (r : Ring) (data : Trb) :
    r.push data = (r.entry r.writeIndex,
      { r.advance with trbs := (r.pushStores data).foldl storeWord r.trbs }) := by
  unfold push advance pushStores copyToLast
  by_cases h : r.writeIndex + 1 = r.bufSize - 1
  · simp only [h, if_true, List.foldl_append, link]
  · simp only [h, if_false, List.append_nil]

@[simp] theorem advance_buf (r : Ring) : r.advance.buf = r.buf := by
  unfold advance; split <;> rfl

@[simp] theorem advance_bufSize (r : Ring) : r.advance.bufSize = r.bufSize := by
  unfold advance; split <;> rfl

@[simp] theorem advance_trbs (r : Ring) : r.advance.trbs = r.trbs := by
  unfold advance; split <;> rfl

@[simp] theorem push_buf (r : Ring) (data : Trb) : (r.push data).2.buf = r.buf := by
  rw [push_eq]; exact advance_buf r

@[simp] theorem push_bufSize (r : Ring) (data : Trb) : (r.push data).2.bufSize = r.bufSize := by
  rw [push_eq]; exact advance_bufSize r

end Ring

/-! ## what the stores write -/

theorem storeWord_ne (mem : Nat → Trb) {st : Store} (h : i ≠ st.index) :
    storeWord mem st i = mem i := if_neg h

theorem storeWord_self (mem : Nat → Trb) (st : Store) :
    storeWord mem st st.index = (TRB.data st.word).put (mem st.index) st.value := if_pos rfl

/-- A word other than the one stored keeps its value. -/
theorem get_storeWord_ne (mem : Nat → Trb) (st : Store) {j : Fin 4} (h : j ≠ st.word) (i : Nat) :
    (TRB.data j).get (storeWord mem st i) = (TRB.data j).get (mem i) := by
  unfold storeWord
  split
  · exact BitField.get_put_of_disjoint (TRB.data_disjoint h) _ _
  · rfl

/-- A store into one of the first three words leaves every cycle bit
alone. -/
theorem cycle_storeWord (mem : Nat → Trb) {st : Store} (h : st.word ≠ 3) (i : Nat) :
    TRB.cycle (storeWord mem st i) = TRB.cycle (mem i) := by
  unfold TRB.cycle
  rw [TRB.cycleBit_get_eq, TRB.cycleBit_get_eq, get_storeWord_ne mem st (Ne.symm h)]

/-- `lastWord` is the last word of the TRB with the cycle bit set. -/
theorem lastWord_eq (data : Trb) (c : Bool) :
    lastWord data c = (TRB.data 3).get (TRB.withCycle data c) := by
  have hmask : ~~~(BitVec.allOnes 1).setWidth 32 = 0xfffffffe#32 := by decide
  calc
    lastWord data c = TRB.cycleBitOfWord.put ((TRB.data 3).get data) (BitVec.ofBool c) := by
      simp only [lastWord, BitField.put, TRB.cycleBitOfWord, BitField.lowest,
        BitVec.shiftLeft_zero, hmask]
    _ = (TRB.data 3).get (TRB.withCycle data c) :=
      (BitField.get_put_of_contains TRB.cycleBitOfWord rfl data _).symm

/-! ## copying a TRB word by word -/

/-- The first `j` words of entry `i` are those of `d`. -/
def Copied (j : Nat) (mem : Nat → Trb) (i : Nat) (d : Trb) : Prop :=
  ∀ w : Fin 4, w.val < j → (TRB.data w).get (mem i) = (TRB.data w).get d

theorem copied_zero (mem : Nat → Trb) (i : Nat) (d : Trb) : Copied 0 mem i d :=
  fun w h => absurd h (Nat.not_lt_zero w)

/-- The stores of `CopyToLast` left after `j` of them. -/
theorem drop_copyStores (i : Nat) (c : Bool) (d : Trb) (hj : j < 4) :
    ∃ st, (copyStores i c d).drop j = st :: (copyStores i c d).drop (j + 1) ∧
      st.index = i ∧ st.word.val = j ∧
      st.value = (TRB.data st.word).get (if j = 3 then TRB.withCycle d c else d) := by
  have hcases : j = 0 ∨ j = 1 ∨ j = 2 ∨ j = 3 := by omega
  rcases hcases with rfl | rfl | rfl | rfl
  · exact ⟨_, rfl, rfl, rfl, rfl⟩
  · exact ⟨_, rfl, rfl, rfl, rfl⟩
  · exact ⟨_, rfl, rfl, rfl, rfl⟩
  · exact ⟨_, rfl, rfl, rfl, lastWord_eq d c⟩

/-- One more of the first three words is in place. -/
theorem copied_succ {mem : Nat → Trb} {s : Store} {d : Trb} (h : Copied j mem s.index d)
    (hword : s.word.val = j) (hvalue : s.value = (TRB.data s.word).get d) :
    Copied (j + 1) (storeWord mem s) s.index d := by
  intro w hw
  by_cases hlast : w = s.word
  · subst hlast
    rw [storeWord_self, BitField.get_put, hvalue]
  · have hne : w.val ≠ s.word.val := fun h => hlast (Fin.ext h)
    rw [get_storeWord_ne mem s hlast]
    exact h w (by omega)

/-- With the last word the whole TRB is in place, under its cycle bit. -/
theorem storeWord_last {mem : Nat → Trb} {s : Store} {d : Trb} (h : Copied 3 mem s.index d)
    (hword : s.word.val = 3) (hvalue : s.value = (TRB.data s.word).get (TRB.withCycle d c)) :
    storeWord mem s s.index = TRB.withCycle d c := by
  apply TRB.ext_data
  intro w
  by_cases hlast : w = s.word
  · subst hlast
    rw [storeWord_self, BitField.get_put, hvalue]
  · have hne : w.val ≠ s.word.val := fun h => hlast (Fin.ext h)
    have hw3 : w ≠ 3 := fun h3 => hne (by rw [h3, hword]; rfl)
    rw [get_storeWord_ne mem s hlast, h w (by omega), TRB.withCycle,
      BitField.get_put_of_disjoint (TRB.data_disjoint_cycleBit hw3)]

/-- Copying all four words puts the whole TRB in place. -/
theorem foldl_copyStores_self (mem : Nat → Trb) (i : Nat) (c : Bool) (d : Trb) :
    (copyStores i c d).foldl storeWord mem i = TRB.withCycle d c := by
  have h1 := copied_succ (s := ⟨i, 0, (TRB.data 0).get d⟩) (copied_zero mem i d) rfl rfl
  have h2 := copied_succ (s := ⟨i, 1, (TRB.data 1).get d⟩) h1 rfl rfl
  have h3 := copied_succ (s := ⟨i, 2, (TRB.data 2).get d⟩) h2 rfl rfl
  exact storeWord_last (s := ⟨i, 3, lastWord d c⟩) h3 rfl (lastWord_eq d c)

/-- Copying into one entry leaves the others alone. -/
theorem foldl_copyStores_ne (mem : Nat → Trb) (c : Bool) (d : Trb) {i k : Nat} (h : k ≠ i) :
    (copyStores i c d).foldl storeWord mem k = mem k := by
  simp only [copyStores, List.foldl_cons, List.foldl_nil]
  rw [storeWord_ne _ h, storeWord_ne _ h, storeWord_ne _ h, storeWord_ne _ h]

/-! ## lap rings in memory -/

/-- The `N` entries from `b` on are a lap ring that holds `items`, the first
`taken` of them already taken; the lap bit of an entry is its cycle bit. -/
def Segment (b N taken : Nat) (items : List Trb) (mem : Nat → Trb) : Prop :=
  LapRing.Holds N taken (items.map TRB.body) (fun i => TRB.body (mem (b + i)))
    (fun i => TRB.cycle (mem (b + i)))

namespace Segment

variable {b N taken : Nat} {items : List Trb} {mem mem' : Nat → Trb}

/-- Zeroed entries hold nothing. -/
theorem init (b : Nat) (hN : 0 < N) (hmem : ∀ i, mem i = 0#128) : Segment b N 0 [] mem :=
  LapRing.Holds.init hN _ fun i _ => by simp only [hmem]; decide

/-- Only the entries of the segment count. -/
theorem congr (h : Segment b N taken items mem)
    (hmem : ∀ i, b ≤ i → i < b + N → mem' i = mem i) : Segment b N taken items mem' :=
  LapRing.Holds.congr h (fun i hi => by rw [hmem _ (by omega) (by omega)])
    (fun i hi => by rw [hmem _ (by omega) (by omega)])

theorem taken_le (h : Segment b N taken items mem) : taken ≤ items.length := by
  simpa using LapRing.Holds.taken_le h

/-- The consumer's entry shows the consumer's cycle exactly when a TRB is
waiting. -/
theorem ready_iff (h : Segment b N taken items mem) :
    TRB.cycle (mem (b + taken % N)) = lapBit N taken ↔ taken < items.length := by
  simpa using LapRing.Holds.ready_iff h

/-- What waits in the consumer's entry is the next TRB. -/
theorem front (h : Segment b N taken items mem) (hlt : taken < items.length) :
    TRB.body (mem (b + taken % N)) = TRB.body items[taken] := by
  rw [← List.getElem_map TRB.body (h := by simpa using hlt)]
  exact LapRing.Holds.front h _

/-- An entry not yet taken holds its TRB. -/
theorem live (h : Segment b N taken items mem) (hk : k < items.length) (hle : taken ≤ k) :
    TRB.body (mem (b + k % N)) = TRB.body items[k] := by
  rw [← List.getElem_map TRB.body (h := by simpa using hk)]
  exact (LapRing.Holds.live h k _ hle).1

/-- The consumer takes a TRB. -/
theorem take (h : Segment b N taken items mem) (hlt : taken < items.length) :
    Segment b N (taken + 1) items mem :=
  LapRing.Holds.take h (by simpa using hlt)

/-- A store that leaves the cycle bits alone, into the entry about to be
committed. -/
theorem scribble (h : Segment b N taken items mem) (hroom : items.length < taken + N)
    {st : Store} (hindex : st.index = b + items.length % N) (hword : st.word ≠ 3) :
    Segment b N taken items (storeWord mem st) := by
  have hbit : (fun i => TRB.cycle (storeWord mem st (b + i))) =
      fun i => TRB.cycle (mem (b + i)) := funext fun i => cycle_storeWord mem hword (b + i)
  unfold Segment
  rw [hbit]
  refine LapRing.Holds.scribble h (by simpa using hroom) fun i hi => ?_
  rw [List.length_map] at hi
  rw [storeWord_ne mem (by omega)]

/-- The entry about to be committed receives its TRB, cycle bit included. -/
theorem commit (h : Segment b N taken items mem) (hroom : items.length < taken + N)
    (hne : ∀ i, i ≠ b + items.length % N → mem' i = mem i)
    (hself : mem' (b + items.length % N) = TRB.withCycle d (lapBit N items.length)) :
    Segment b N taken (items ++ [d]) mem' := by
  unfold Segment
  rw [List.map_append, List.map_singleton]
  refine LapRing.Holds.commit h (by simpa using hroom) (fun i hi => ?_) (fun i hi => ?_) ?_ ?_
  · rw [List.length_map] at hi
    rw [hne _ (by omega)]
  · rw [List.length_map] at hi
    rw [hne _ (by omega)]
  · simp only [List.length_map, hself, TRB.body_withCycle]
  · simp only [List.length_map, hself, TRB.cycle_withCycle]

end Segment

/-! ## addresses -/

/-- A buffer of `n` TRBs that is an object in memory: 64-byte aligned, as
`AllocArray` was asked for, and inside the address space. -/
structure Placed (buf : BitVec 64) (n : Nat) : Prop where
  nonnull : buf ≠ 0#64
  aligned : 64 ∣ buf.toNat
  fits : buf.toNat + sizeofTRB * n ≤ 2 ^ 64

theorem entryAt_zero (buf : BitVec 64) : entryAt buf 0 = buf := by simp [entryAt]

/-- The entry after an entry. -/
theorem entryAt_succ (buf : BitVec 64) (i : Nat) : entryAt buf i + 16#64 = entryAt buf (i + 1) := by
  unfold entryAt sizeofTRB
  rw [Nat.mul_add, BitVec.ofNat_add, BitVec.add_assoc]

/-- A register that leaves out the low four bits of an address still holds
all of an aligned one. -/
theorem shift_of_aligned {p : BitVec 64} (h : 16 ∣ p.toNat) :
    ((p >>> 4).setWidth 60).setWidth 64 <<< 4 = p := BitField.shiftLeft_of_dvd rfl h

namespace Placed

variable {buf : BitVec 64} {n : Nat} (h : Placed buf n)

include h

/-- Address of an entry. -/
theorem toNat_entryAt (hi : i < n) : (entryAt buf i).toNat = buf.toNat + sizeofTRB * i := by
  have hfits := h.fits
  unfold entryAt sizeofTRB at *
  rw [BitVec.toNat_add, BitVec.toNat_ofNat]
  omega

/-- Distance of an entry from the start of the buffer; past the last entry it
is the length of the buffer. -/
theorem toNat_entryAt_sub (hi : i ≤ n) : (entryAt buf i - buf).toNat = sizeofTRB * i := by
  have hfits := h.fits
  have hnull : buf.toNat ≠ 0 := fun hz => h.nonnull (BitVec.eq_of_toNat_eq hz)
  unfold entryAt sizeofTRB at *
  rw [BitVec.add_comm, BitVec.add_sub_cancel, BitVec.toNat_ofNat]
  omega

/-- Distinct entries have distinct addresses. -/
theorem entryAt_inj (hi : i ≤ n) (hj : j ≤ n) (he : entryAt buf i = entryAt buf j) : i = j := by
  have hi' := h.toNat_entryAt_sub hi
  rw [he, h.toNat_entryAt_sub hj] at hi'
  exact (Nat.eq_of_mul_eq_mul_left (by decide) hi').symm

/-- No entry is at the null address. -/
theorem entryAt_ne_zero (hi : i < n) : entryAt buf i ≠ 0#64 := by
  intro h0
  have haddr := h.toNat_entryAt hi
  have hnull : buf.toNat ≠ 0 := fun hz => h.nonnull (BitVec.eq_of_toNat_eq hz)
  rw [h0, BitVec.toNat_ofNat, Nat.zero_mod] at haddr
  omega

/-- Entries are 16-byte aligned. -/
theorem dvd_entryAt (hi : i < n) : 16 ∣ (entryAt buf i).toNat := by
  obtain ⟨k, hk⟩ := h.aligned
  rw [h.toNat_entryAt hi]
  unfold sizeofTRB
  omega

end Placed

/-- The request for a buffer of `bufSize` TRBs. -/
def bufRequest (bufSize : Nat) : Request :=
  ⟨BitVec.ofNat 64 sizeofTRB * BitVec.ofNat 64 bufSize, 64#32, BitVec.ofNat 32 (64 * 1024)⟩

theorem toNat_bufRequest {bufSize : Nat} (hsize : sizeofTRB * bufSize ≤ 2 ^ 31) :
    (bufRequest bufSize).size.toNat = sizeofTRB * bufSize := by
  unfold sizeofTRB at *
  simp only [bufRequest, sizeofTRB, BitVec.toNat_mul, BitVec.toNat_ofNat]
  omega

theorem bufRequest_valid {bufSize : Nat} (hsize : sizeofTRB * bufSize ≤ 2 ^ 31) :
    (bufRequest bufSize).Valid :=
  ⟨toNat_bufRequest hsize ▸ hsize, .inr ⟨6, rfl⟩, .inr ⟨16, rfl⟩⟩

/-- A block the pool handed out for a buffer is placed. -/
theorem placed_of_sound {pool : MemoryPool} {bufSize : Nat} {ptr : BitVec 64}
    (hsize : sizeofTRB * bufSize ≤ 2 ^ 31)
    (h : Block.Sound pool ⟨bufRequest bufSize, ptr⟩) (hnull : ptr ≠ 0#64) :
    Placed ptr bufSize where
  nonnull := hnull
  aligned := h.aligned (by show 0 < (64#32).toNat; decide)
  fits := by
    have hend := h.inside.2
    have hroom := pool.room
    rw [Block.stop, toNat_bufRequest hsize] at hend
    simp only at hend
    omega

/-- A ring whose buffer is an object in memory. -/
abbrev Ring.Placed (r : Ring) : Prop := Xhci.Placed r.buf r.bufSize

namespace Ring

theorem entry_zero (r : Ring) : r.entry 0 = r.buf := entryAt_zero r.buf

/-- The entry after an entry. -/
theorem entry_succ (r : Ring) (i : Nat) : r.entry i + 16#64 = r.entry (i + 1) :=
  entryAt_succ r.buf i

/-- Reading at the address of an entry. -/
theorem trbAt_entry {r : Ring} (h : r.Placed) (hi : i < r.bufSize) :
    r.trbAt (r.entry i) = some (r.trbs i) := by
  have hdiv : sizeofTRB * i / sizeofTRB = i := Nat.mul_div_cancel_left i (by decide)
  have hmod : sizeofTRB * i % sizeofTRB = 0 := Nat.mul_mod_right _ _
  simp only [trbAt, entry, h.toNat_entryAt_sub (Nat.le_of_lt hi), hdiv, hmod, hi, and_self, if_true]

/-- Distinct entries have distinct addresses. -/
theorem entry_inj {r : Ring} (h : r.Placed) (hi : i < r.bufSize) (hj : j < r.bufSize)
    (he : r.entry i = r.entry j) : i = j :=
  h.entryAt_inj (Nat.le_of_lt hi) (Nat.le_of_lt hj) he

/-- The Link TRB is one. -/
theorem trbType_link (r : Ring) : TRB.trbType.get r.link = LinkTRB.type := by
  rw [link, BitField.get_put_of_disjoint (by decide), LinkTRB.new,
    BitField.get_put_of_disjoint (by decide), TRB.ofType, BitField.get_put]

theorem toggleCycle_link (r : Ring) : LinkTRB.toggleCycle.get r.link = 1#1 :=
  BitField.get_put _ _ _

/-- The Link TRB points back to the start of the buffer. -/
theorem pointer_link {r : Ring} (h : r.Placed) : LinkTRB.pointer r.link = r.buf := by
  rw [LinkTRB.pointer, link, BitField.get_put_of_disjoint (by decide), LinkTRB.new,
    BitField.get_put]
  exact shift_of_aligned (Nat.dvd_trans (by decide) h.aligned)

end Ring

/-! ## frames -/

namespace Ring

@[simp] theorem advance_link (r : Ring) : r.advance.link = r.link := by
  unfold link; rw [advance_buf]

@[simp] theorem advance_entry (r : Ring) : r.advance.entry = r.entry := by
  unfold entry; rw [advance_buf]

@[simp] theorem push_entry (r : Ring) (data : Trb) : (r.push data).2.entry = r.entry := by
  unfold entry; rw [push_buf]

theorem placed_advance {r : Ring} (h : r.Placed) : r.advance.Placed :=
  ⟨r.advance_buf ▸ h.nonnull, r.advance_buf ▸ h.aligned,
    r.advance_buf ▸ r.advance_bufSize ▸ h.fits⟩

end Ring

/-! ## whole pushes -/

/-- The ring after `items` have been pushed, of which the controller may
still look at all but the first `taken`. -/
structure Ring.Holds (r : Ring) (taken : Nat) (items : List Trb) : Prop where
  index : r.writeIndex = items.length % (r.bufSize - 1)
  cycle : r.cycleBit = lapBit (r.bufSize - 1) items.length
  slots : Segment 0 (r.bufSize - 1) taken items r.trbs

namespace Ring

/-- Initialized: members and buffer as `Initialize` leaves them. -/
structure Fresh (r : Ring) : Prop where
  placed : r.Placed
  cycleBit : r.cycleBit = true
  writeIndex : r.writeIndex = 0
  zero : ∀ i, r.trbs i = 0#128

theorem eq_of_onBlock {bufSize : Nat} {r : Ring} {a : BitVec 64 × BitVec 64}
    (h : onBlock bufSize a = (e, r, p')) :
    a.1 = r.buf ∧ r = ⟨r.buf, bufSize, fun _ => 0#128, true, 0⟩ := by
  obtain ⟨rfl, _⟩ := Prod.mk.inj (Prod.mk.inj h).2
  exact ⟨rfl, rfl⟩

/-- `Initialize` succeeds when there is a buffer. -/
theorem buf_ne_zero_of_onBlock {bufSize : Nat} {r : Ring} {a : BitVec 64 × BitVec 64}
    (h : onBlock bufSize a = (.kSuccess, r, p')) : r.buf ≠ 0#64 ∧ a.2 = p' := by
  unfold onBlock at h
  obtain ⟨herr, hrest⟩ := Prod.mk.inj h
  obtain ⟨rfl, hptr⟩ := Prod.mk.inj hrest
  refine ⟨fun hnull => ?_, hptr⟩
  rw [if_pos hnull] at herr
  contradiction

/-- A ring with a buffer is as `Initialize` promises. -/
theorem initializeRing_fresh {pool : MemoryPool} {p p' : BitVec 64} {bufSize : Nat} {r : Ring}
    (hp : CursorOk pool p) (hsize : sizeofTRB * bufSize ≤ 2 ^ 31)
    (h : initializeRing pool p bufSize = (e, r, p')) (hnull : r.buf ≠ 0#64) :
    r.Fresh ∧ r.bufSize = bufSize := by
  obtain ⟨hptr, hr⟩ := eq_of_onBlock (a := (bufRequest bufSize).serve pool p) h
  generalize r.buf = ptr at hptr hr hnull
  subst hr
  have hsound := serve_sound (bufRequest_valid hsize) hp hptr hnull
  exact ⟨⟨placed_of_sound hsize hsound hnull, rfl, rfl, fun _ => rfl⟩, rfl⟩

/-- A fresh ring holds nothing. -/
theorem Fresh.holds {r : Ring} (h : r.Fresh) (hsize : 2 ≤ r.bufSize) : r.Holds 0 [] where
  index := by rw [h.writeIndex]; exact (Nat.zero_mod _).symm
  cycle := by rw [h.cycleBit]; exact (lapBit_of_lt (by show 0 < _; omega)).symm
  slots := Segment.init 0 (by omega) h.zero

/-- What `advance` does to the members, in terms of the number of TRBs
pushed. -/
theorem advance_members {r : Ring} {n : Nat} (hsize : 2 ≤ r.bufSize)
    (hindex : r.writeIndex = n % (r.bufSize - 1)) (hcycle : r.cycleBit = lapBit (r.bufSize - 1) n) :
    r.advance.writeIndex = (n + 1) % (r.bufSize - 1) ∧
      r.advance.cycleBit = lapBit (r.bufSize - 1) (n + 1) := by
  unfold advance
  rw [hindex, succ_mod (by omega), lapBit_succ (by omega)]
  split
  · exact ⟨rfl, by rw [← hcycle]⟩
  · exact ⟨rfl, hcycle⟩

/-- The Link TRB lies outside the slots, so of all that `Push` stores only
the TRB pushed shows in them. -/
theorem foldl_pushStores {r : Ring} (data : Trb) (hi : i < r.bufSize - 1) :
    (r.pushStores data).foldl storeWord r.trbs i =
      if i = r.writeIndex then TRB.withCycle data r.cycleBit else r.trbs i := by
  have hcopy : (copyStores r.writeIndex r.cycleBit data).foldl storeWord r.trbs i =
      if i = r.writeIndex then TRB.withCycle data r.cycleBit else r.trbs i := by
    split
    · next h => subst h; exact foldl_copyStores_self _ _ _ _
    · next h => exact foldl_copyStores_ne _ _ _ h
  unfold pushStores
  rw [List.foldl_append, ← hcopy]
  split
  · next h => exact foldl_copyStores_ne _ _ _ (by omega)
  · rfl

/-- **A push adds its TRB**: as long as a lap's worth of entries is not
waiting, the ring then holds one more, and none of the others has moved. -/
theorem push_holds {r : Ring} (h : r.Holds taken items) (hsize : 2 ≤ r.bufSize)
    (hroom : items.length < taken + (r.bufSize - 1)) (data : Trb) :
    (r.push data).2.Holds taken (items ++ [data]) := by
  obtain ⟨hindex, hcycle⟩ := advance_members hsize h.index h.cycle
  rw [push_eq]
  refine ⟨?_, ?_, ?_⟩
  · rw [List.length_append, advance_bufSize]
    exact hindex
  · rw [List.length_append, advance_bufSize]
    exact hcycle
  · rw [advance_bufSize]
    -- entries past the slots do not count, so the stores may be read as one
    let mem := fun i => if i = r.writeIndex then TRB.withCycle data r.cycleBit else r.trbs i
    have hcommit : Segment 0 (r.bufSize - 1) taken (items ++ [data]) mem := by
      refine h.slots.commit hroom (fun i hi => ?_) ?_
      · rw [Nat.zero_add, ← h.index] at hi
        exact if_neg hi
      · rw [Nat.zero_add, ← h.index, ← h.cycle]
        exact if_pos rfl
    refine hcommit.congr fun i _ hi => ?_
    exact foldl_pushStores data (by omega)

/-- Where a push puts its TRB. -/
theorem push_fst {r : Ring} (h : r.Holds taken items) (data : Trb) :
    (r.push data).1 = r.entry (items.length % (r.bufSize - 1)) := by
  rw [push_eq, h.index]

/-- The controller is done with TRBs. -/
theorem Holds.takeTo {r : Ring} (h : r.Holds taken items) (hle : taken ≤ taken')
    (hlen : taken' ≤ items.length) : r.Holds taken' items :=
  ⟨h.index, h.cycle, LapRing.Holds.takeTo h.slots hle (by rw [List.length_map]; exact hlen)⟩

/-- Push TRBs one after another: their addresses, and the ring. -/
def pushAll (r : Ring) : List Trb → List (BitVec 64) × Ring
  | [] => ([], r)
  | t :: ts => ((r.push t).1 :: ((r.push t).2.pushAll ts).1, ((r.push t).2.pushAll ts).2)

@[simp] theorem pushAll_buf (r : Ring) (ts : List Trb) : (r.pushAll ts).2.buf = r.buf := by
  induction ts generalizing r with
  | nil => rfl
  | cons t ts ih => rw [pushAll, ih, push_buf]

@[simp] theorem pushAll_bufSize (r : Ring) (ts : List Trb) :
    (r.pushAll ts).2.bufSize = r.bufSize := by
  induction ts generalizing r with
  | nil => rfl
  | cons t ts ih => rw [pushAll, ih, push_bufSize]

theorem pushAll_append (r : Ring) (ts us : List Trb) :
    (r.pushAll (ts ++ us)).2 = ((r.pushAll ts).2.pushAll us).2 := by
  induction ts generalizing r with
  | nil => rfl
  | cons t ts ih => exact ih _

@[simp] theorem pushAll_entry (r : Ring) (ts : List Trb) : (r.pushAll ts).2.entry = r.entry := by
  unfold entry; rw [pushAll_buf]

theorem placed_pushAll {r : Ring} (h : r.Placed) (ts : List Trb) : (r.pushAll ts).2.Placed :=
  ⟨r.pushAll_buf ts ▸ h.nonnull, r.pushAll_buf ts ▸ h.aligned,
    r.pushAll_buf ts ▸ r.pushAll_bufSize ts ▸ h.fits⟩

/-- Several pushes add their TRBs, each at the entry its place in the history
gives it. -/
theorem pushAll_holds {r : Ring} (h : r.Holds taken items) (hsize : 2 ≤ r.bufSize) (ts : List Trb)
    (hroom : items.length + ts.length ≤ taken + (r.bufSize - 1)) :
    (r.pushAll ts).2.Holds taken (items ++ ts) ∧
      (r.pushAll ts).1 = (List.range ts.length).map
        fun j => r.entry ((items.length + j) % (r.bufSize - 1)) := by
  induction ts generalizing r items with
  | nil => exact ⟨by simpa [pushAll] using h, rfl⟩
  | cons t ts ih =>
      rw [List.length_cons] at hroom
      have hpush := push_holds h hsize (by omega) t
      have hlen : (items ++ [t]).length = items.length + 1 := List.length_append
      obtain ⟨hholds, haddrs⟩ := ih hpush (by rw [push_bufSize]; exact hsize)
        (by rw [hlen, push_bufSize]; omega)
      refine ⟨?_, ?_⟩
      · rw [List.append_assoc] at hholds
        exact hholds
      · rw [pushAll, push_fst h, haddrs, List.length_cons, List.range_succ_eq_map, List.map_cons,
          List.map_map, push_entry, push_bufSize, hlen]
        refine congrArg _ (List.map_congr_left fun j _ => ?_)
        rw [Function.comp_apply, Nat.succ_eq_add_one, Nat.add_assoc, Nat.add_comm 1 j]

/-- The TRB just pushed, as memory holds it. -/
theorem push_trbs_self {r : Ring} (data : Trb) (h : r.writeIndex < r.bufSize - 1) :
    (r.push data).2.trbs r.writeIndex = TRB.withCycle data r.cycleBit := by
  rw [push_eq]
  exact (foldl_pushStores data h).trans (if_pos rfl)

/-- A TRB not yet taken is found at the address its push returned. -/
theorem Holds.trbAt {r : Ring} (h : r.Holds taken items) (hp : r.Placed) (hsize : 2 ≤ r.bufSize)
    (hk : items[k]? = some d) (hle : taken ≤ k) :
    ∃ t, r.trbAt (r.entry (k % (r.bufSize - 1))) = some t ∧ TRB.body t = TRB.body d := by
  obtain ⟨hlen, hd⟩ := List.getElem?_eq_some_iff.mp hk
  have hlt : k % (r.bufSize - 1) < r.bufSize - 1 := Nat.mod_lt _ (by omega)
  refine ⟨_, trbAt_entry hp (by omega), ?_⟩
  have hlive := h.slots.live hlen hle
  rwa [Nat.zero_add, hd] at hlive

end Ring

end MikanOs.Usb.Xhci
