import MikanOs.Lib.Run
import MikanOs.Usb.Xhci.EventRing

/-!
# MikanOs.Usb.Xhci.EventOrder

The event ring between the controller, which writes events into the segment
one after another, and the driver, which handles one per `ProcessEvent`.

There is no count of the events waiting.  That the cycle bit of the entry at
`ERDP` says whether one is, and that the entry then holds the right event, is
the lap-bit ring of `MikanOs.Lib.LapRing` once more, this time with the
driver as the consumer.
-/

namespace MikanOs.Usb.Xhci

open LapRing Relation

/-! ## the run -/

/-- Driver and controller: the entries of the segment, where the controller
writes next and with which cycle state, the events it has written, and how
many `ProcessEvent` has found. -/
structure EventRun where
  driver : Driver
  seg : Nat → Trb
  enqueue : Nat
  cycleState : Bool
  written : List Trb
  handled : Nat

namespace EventRun

/-- The segment as `Initialize` leaves it. -/
def start (d : Driver) : EventRun := ⟨d, fun _ => 0#128, 0, true, [], 0⟩

/-- The address of an entry of the segment. -/
def entry (s : EventRun) (i : Nat) : BitVec 64 := entryAt s.driver.er.buf i

/-- The controller writes an event: into the next entry, under its cycle
state, which it toggles when it has filled the last entry. -/
def write (s : EventRun) (event : Trb) : EventRun :=
  let last := s.enqueue + 1 = s.driver.er.bufSize
  { s with
    seg := update s.seg s.enqueue (TRB.withCycle event s.cycleState)
    enqueue := if last then 0 else s.enqueue + 1
    cycleState := if last then !s.cycleState else s.cycleState
    written := s.written ++ [event] }

/-- An environment in which the segment reads as the controller has written
it. -/
def Seen (s : EventRun) (env : Env) : Prop :=
  ∀ i < s.driver.er.bufSize, env.trb (s.entry i) = s.seg i

/-- One step of either side.  The controller stays within a lap of the
dequeue pointer; in between the rest of the driver may change. -/
inductive Step : EventRun → EventRun → Prop
  | write (s : EventRun) (event : Trb)
      (room : s.written.length < s.handled + s.driver.er.bufSize) : Step s (s.write event)
  | process (s : EventRun) (env : Env) (seen : s.Seen env)
      (ret : s.driver.processEvent env = .ok (err, d')) :
      Step s { s with
        driver := d'
        handled := if s.driver.er.hasFront env 1 then s.handled + 1 else s.handled }
  | other (s : EventRun) (xhc : Controller) :
      Step s { s with driver := ⟨xhc, s.driver.er⟩ }

/-! ## the dequeue pointer -/

theorem readDequeuePointer_eq (env : Env) (er : EventRing) (k : Nat) :
    er.readDequeuePointer env k = Erdp.pointer er.erdp := by
  unfold EventRing.readDequeuePointer EventRing.readErdp Erdp.pointer
  rw [BitField.get_put_of_disjoint (by decide)]

/-- `ERDP` gives back the aligned address put into it. -/
theorem pointer_setPointer (v : BitVec 64) {p : BitVec 64} (h : 16 ∣ p.toNat) :
    Erdp.pointer (Erdp.setPointer v p) = p := by
  unfold Erdp.pointer Erdp.setPointer
  rw [BitField.get_put]
  exact shift_of_aligned h

/-- The low four bits are written back as read. -/
theorem low_setPointer (v p : BitVec 64) : Erdp.low.get (Erdp.setPointer v p) = Erdp.low.get v :=
  BitField.get_put_of_disjoint (by decide) _ _

/-- Writes to `ERDP`: they keep the low four bits and address an entry. -/
def GoodWrite (er : EventRing) (w : BitVec 64 × BitVec 64) : Prop :=
  Erdp.low.get w.2 = Erdp.low.get w.1 ∧ ∃ i < er.bufSize, Erdp.pointer w.2 = entryAt er.buf i

/-- The event ring after `n` events have been dequeued. -/
structure At (n : Nat) (er : EventRing) : Prop where
  pos : 0 < er.bufSize
  lt : er.bufSize < 2 ^ 16
  placed : Placed er.buf er.bufSize
  erst : er.erst = ⟨er.buf, BitVec.ofNat 16 er.bufSize⟩
  pointer : Erdp.pointer er.erdp = entryAt er.buf (n % er.bufSize)
  cycle : er.cycleBit = lapBit er.bufSize n
  writes : ∀ w ∈ er.erdpWrites, GoodWrite er w

/-- The entry `Pop` moves the dequeue pointer to, and the cycle state it
expects there. -/
theorem At.pop_eq {n : Nat} {er : EventRing} (h : At n er) (env : Env) (k : Nat) :
    er.pop env k = { er with cycleBit := lapBit er.bufSize (n + 1) }.writeDequeuePointer env
      (entryAt er.buf ((n + 1) % er.bufSize)) (k + 1) := by
  have hmod := Nat.mod_lt n h.pos
  have hsize : (BitVec.ofNat 16 er.bufSize).toNat = er.bufSize := by
    rw [BitVec.toNat_ofNat]
    exact Nat.mod_eq_of_lt h.lt
  have hend : er.buf + BitVec.ofNat 64 (sizeofTRB * er.bufSize) = entryAt er.buf er.bufSize := rfl
  unfold EventRing.pop
  simp only [readDequeuePointer_eq, h.pointer, entryAt_succ, h.erst, hsize, hend]
  rw [succ_mod h.pos, lapBit_succ h.pos, ← h.cycle]
  by_cases hlast : n % er.bufSize + 1 = er.bufSize
  · rw [hlast, if_pos rfl, if_pos rfl, if_pos rfl, entryAt_zero]
  · have hne : entryAt er.buf (n % er.bufSize + 1) ≠ entryAt er.buf er.bufSize := fun he =>
      hlast (h.placed.entryAt_inj (by omega) (Nat.le_refl _) he)
    rw [if_neg hne, if_neg hlast, if_neg hlast, ← h.erst]

/-- **`Pop`** dequeues one event. -/
theorem At.pop {n : Nat} {er : EventRing} (h : At n er) (env : Env) (k : Nat) :
    At (n + 1) (er.pop env k) := by
  have hlt := Nat.mod_lt (n + 1) h.pos
  have hptr := fun v => pointer_setPointer v (h.placed.dvd_entryAt hlt)
  rw [h.pop_eq]
  exact {
    pos := h.pos
    lt := h.lt
    placed := h.placed
    erst := h.erst
    pointer := hptr _
    cycle := rfl
    writes := by
      intro w hw
      cases List.mem_append.mp hw with
      | inl hold => exact h.writes w hold
      | inr hnew =>
          obtain rfl := List.mem_singleton.mp hnew
          exact ⟨low_setPointer _ _, _, hlt, hptr _⟩ }

@[simp] theorem pop_bufSize (er : EventRing) (env : Env) (k : Nat) :
    (er.pop env k).bufSize = er.bufSize := by
  unfold EventRing.pop
  simp only
  split <;> rfl

/-! ## the invariant -/

/-- What holds in every reachable state: the segment is a lap ring whose
consumer is the driver. -/
structure Inv (s : EventRun) : Prop where
  ring : At s.handled s.driver.er
  index : s.enqueue = s.written.length % s.driver.er.bufSize
  cycle : s.cycleState = lapBit s.driver.er.bufSize s.written.length
  slots : Segment 0 s.driver.er.bufSize s.handled s.written s.seg

/-- The controller writing an event keeps the invariant. -/
theorem Inv.write (h : Inv s) (event : Trb)
    (room : s.written.length < s.handled + s.driver.er.bufSize) : Inv (s.write event) where
  ring := h.ring
  index := by
    show (if s.enqueue + 1 = s.driver.er.bufSize then 0 else s.enqueue + 1) =
      (s.written ++ [event]).length % s.driver.er.bufSize
    rw [List.length_append, List.length_singleton, succ_mod h.ring.pos, h.index]
  cycle := by
    show (if s.enqueue + 1 = s.driver.er.bufSize then !s.cycleState else s.cycleState) =
      lapBit s.driver.er.bufSize (s.written ++ [event]).length
    rw [List.length_append, List.length_singleton, lapBit_succ h.ring.pos, h.index, h.cycle]
  slots := by
    refine h.slots.commit room (fun i hi => ?_) ?_
    · rw [Nat.zero_add, ← h.index] at hi
      exact update_ne hi _ _
    · rw [Nat.zero_add, ← h.index, ← h.cycle]
      exact update_self _ _ _

/-- The driver sees an event exactly when one is waiting. -/
theorem Inv.hasFront_iff (h : Inv s) (seen : s.Seen env) (k : Nat) :
    s.driver.er.hasFront env k = true ↔ s.handled < s.written.length := by
  have hseen : env.trb (entryAt s.driver.er.buf (s.handled % s.driver.er.bufSize)) = s.seg _ :=
    seen _ (Nat.mod_lt _ h.ring.pos)
  unfold EventRing.hasFront
  rw [readDequeuePointer_eq, h.ring.pointer, hseen, h.ring.cycle, beq_iff_eq]
  have hready := h.slots.ready_iff
  rwa [Nat.zero_add] at hready

/-- The TRB at the dequeue pointer is the next event, but for its cycle
bit. -/
theorem Inv.front (h : Inv s) (seen : s.Seen env) (k : Nat)
    (hlt : s.handled < s.written.length) :
    TRB.body (env.trb (s.driver.er.readDequeuePointer env k)) =
      TRB.body s.written[s.handled] := by
  have hseen : env.trb (entryAt s.driver.er.buf (s.handled % s.driver.er.bufSize)) = s.seg _ :=
    seen _ (Nat.mod_lt _ h.ring.pos)
  rw [readDequeuePointer_eq, h.ring.pointer, hseen]
  have hfront := h.slots.front hlt
  rwa [Nat.zero_add] at hfront

/-- The handlers do not touch the event ring; `ProcessEvent` pops it once, or
not at all. -/
theorem processEvent_er {d d' : Driver} (h : d.processEvent env = .ok (err, d')) :
    d'.er = if d.er.hasFront env 1 then d.er.pop env 3 else d.er := by
  unfold Driver.processEvent at h
  by_cases hfront : d.er.hasFront env 1 = true
  · rw [if_neg (not_not_intro hfront)] at h
    obtain ⟨⟨e, xhc⟩, _, hret⟩ := Returns.bind_eq_ok.mp h
    obtain ⟨_, rfl⟩ := Returns.pure_mk_eq_ok.mp hret
    rw [if_pos hfront]
  · rw [if_pos hfront] at h
    obtain ⟨_, rfl⟩ := Returns.pure_mk_eq_ok.mp h
    rw [if_neg hfront]

/-- `ProcessEvent` keeps the invariant. -/
theorem Inv.process (h : Inv s) (seen : s.Seen env)
    (ret : s.driver.processEvent env = .ok (err, d')) :
    Inv { s with
      driver := d'
      handled := if s.driver.er.hasFront env 1 then s.handled + 1 else s.handled } := by
  have her := processEvent_er ret
  obtain ⟨xhc', er'⟩ := d'
  simp only at her
  subst her
  by_cases hfront : s.driver.er.hasFront env 1 = true
  · have hlt := (h.hasFront_iff seen 1).mp hfront
    simp only [if_pos hfront]
    exact ⟨h.ring.pop env 3, by simpa using h.index, by simpa using h.cycle,
      by simpa using h.slots.take hlt⟩
  · simp only [if_neg hfront]
    exact ⟨h.ring, h.index, h.cycle, h.slots⟩

/-- Every step keeps the invariant. -/
theorem step_inv (s t : EventRun) (h : Inv s) (hstep : Step s t) : Inv t := by
  cases hstep with
  | write _ event room => exact h.write event room
  | process _ env seen ret => exact h.process seen ret
  | other _ xhc => exact ⟨h.ring, h.index, h.cycle, h.slots⟩

/-- `Initialize` on a block that is good for a buffer. -/
theorem onBlock_at {env : Env} {a : BitVec 64 × Host} {h' : Host} {er : EventRing}
    {bufSize : Nat} (hblock : a.1 ≠ 0#64 → Placed a.1 bufSize) (hpos : 1 ≤ bufSize)
    (hlt : bufSize < 65536)
    (hinit : EventRing.onBlock env erdp bufSize a = (.kSuccess, er, h')) : At 0 er := by
  unfold EventRing.onBlock at hinit
  by_cases hnull : a.1 = 0#64
  · rw [if_pos hnull] at hinit
    exact absurd (Prod.mk.inj hinit).1 (by decide)
  rw [if_neg hnull] at hinit
  generalize Host.allocArray env _ _ _ _ _ = b at hinit
  by_cases hnull' : b.1 = 0#64
  · simp only [hnull', if_true] at hinit
    exact absurd (Prod.mk.inj hinit).1 (by decide)
  simp only [hnull', if_false] at hinit
  obtain ⟨rfl, _⟩ := Prod.mk.inj (Prod.mk.inj hinit).2
  have hplaced := hblock hnull
  have haligned : 16 ∣ a.1.toNat := by
    have hdvd := hplaced.dvd_entryAt hpos
    rwa [entryAt_zero] at hdvd
  exact {
    pos := hpos
    lt := hlt
    placed := hplaced
    erst := rfl
    pointer := by
      refine (pointer_setPointer _ haligned).trans ?_
      show a.1 = entryAt a.1 (0 % bufSize)
      rw [Nat.zero_mod, entryAt_zero]
    cycle := (lapBit_of_lt hpos).symm
    writes := by
      intro w hw
      obtain rfl := List.mem_singleton.mp hw
      exact ⟨low_setPointer _ _, 0, hpos,
        (pointer_setPointer _ haligned).trans (entryAt_zero _).symm⟩ }

/-- A block for a buffer of TRBs. -/
theorem placed_of_allocArray {env : Env} {h : Host} {bufSize : Nat}
    (hp : CursorOk env.pool h.allocPtr) (hsize : sizeofTRB * bufSize ≤ 2 ^ 31)
    {a : BitVec 64 × Host}
    (ha : h.allocArray env sizeofTRB bufSize 64#32 (BitVec.ofNat 32 (64 * 1024)) = a)
    (hnull : a.1 ≠ 0#64) : Placed a.1 bufSize := by
  have hptr : ((bufRequest bufSize).serve env.pool h.allocPtr).1 = a.1 := by
    rw [← ha, Host.allocArray, Host.grant_fst]
    rfl
  exact placed_of_sound hsize (serve_sound (bufRequest_valid hsize) hp hptr hnull) hnull

/-- An event ring as `Initialize` leaves it. -/
theorem initializeRing_at {env : Env} {h h' : Host} {er : EventRing} {bufSize : Nat}
    (hp : CursorOk env.pool h.allocPtr) (hpos : 1 ≤ bufSize) (hlt : bufSize < 65536)
    (hinit : EventRing.initializeRing env h erdp bufSize = (.kSuccess, er, h')) : At 0 er := by
  have hsize : sizeofTRB * bufSize ≤ 2 ^ 31 := by unfold sizeofTRB; omega
  exact onBlock_at (placed_of_allocArray hp hsize rfl) hpos hlt hinit

/-! ## events are handled once and in order -/

/-- What the event ring promises in one state of a run. -/
structure InOrder (s : EventRun) : Prop where
  /-- an event is found exactly when one is waiting -/
  found_iff : ∀ env, s.Seen env → ∀ k,
    s.driver.er.hasFront env k = true ↔ s.handled < s.written.length
  /-- the next call dispatches the next event, whatever becomes of it, and
  dequeues it -/
  dispatches : ∀ env, s.Seen env → ∀ hlt : s.handled < s.written.length,
    ∃ t er', TRB.body t = TRB.body s.written[s.handled] ∧ At (s.handled + 1) er' ∧
      s.driver.processEvent env = do
        let (err, xhc) ← s.driver.xhc.onEvent env t
        pure (err, ⟨xhc, er'⟩)
  /-- without an event the call does nothing -/
  idle : ∀ env, s.Seen env → s.handled = s.written.length →
    s.driver.processEvent env = .ok (.kSuccess, s.driver)
  /-- as many events have been dequeued as have been found -/
  dequeued : At s.handled s.driver.er
  /-- every write to `ERDP` was a good one -/
  writes : ∀ w ∈ s.driver.er.erdpWrites, GoodWrite s.driver.er w

theorem Inv.inOrder (h : Inv s) : InOrder s where
  found_iff _ seen k := h.hasFront_iff seen k
  dispatches env seen hlt := by
    have hfront := (h.hasFront_iff seen 1).mpr hlt
    refine ⟨_, _, h.front seen 2 hlt, h.ring.pop env 3, ?_⟩
    rw [Driver.processEvent, if_neg (not_not_intro hfront)]
  idle env seen hall := by
    have hfront : ¬ s.driver.er.hasFront env 1 = true := by
      rw [h.hasFront_iff seen 1]
      omega
    rw [Driver.processEvent, if_pos hfront]
    rfl
  dequeued := h.ring
  writes := h.ring.writes

/-- **Events are handled exactly once and in order**, over every run that
starts from an initialized event ring. -/
theorem in_order {env : Env} {h h' : Host} {er : EventRing} {bufSize : Nat}
    (hp : CursorOk env.pool h.allocPtr) (hpos : 1 ≤ bufSize) (hlt : bufSize < 65536)
    (hinit : EventRing.initializeRing env h erdp bufSize = (.kSuccess, er, h'))
    (hrun : ReflTransGen Step (start ⟨xhc, er⟩) s) : InOrder s := by
  have hat := initializeRing_at hp hpos hlt hinit
  have hstart : Inv (start ⟨xhc, er⟩) := {
    ring := hat
    index := (Nat.zero_mod _).symm
    cycle := (lapBit_of_lt hat.pos).symm
    slots := Segment.init 0 hat.pos fun _ => rfl }
  exact (Run.invariant step_inv hstart hrun).inOrder

/-! ## a sample -/

/-- A driver whose event ring has two entries, in a fresh pool. -/
def twoEntries : Driver where
  xhc := .untouched 4#8 (.empty 8) ⟨0x100100#64, 32, fun _ => 0#128, true, 0⟩ ⟨0x100300#64, []⟩
  er :=
    { buf := 0x100000#64
      bufSize := 2
      cycleBit := true
      erst := ⟨0x100000#64, 2#16⟩
      erdp := 0x100000#64
      erdpWrites := [(0#64, 0x100000#64)] }

instance (s : EventRun) (env : Env) : Decidable (s.Seen env) :=
  inferInstanceAs (Decidable (∀ i < _, _ = _))

/-- The segment as the controller has written it; everything else reads as zero. -/
def shown (s : EventRun) : Env :=
  { Env.zero poolAtMiB with trb := fun a => s.seg ((a - s.driver.er.buf).toNat / 16) }

/-- The controller writes an event, or `ProcessEvent` is called. -/
inductive Move
  | write (event : Trb)
  | process

/-- A step, if it is one. -/
def move (s : EventRun) : Move → Option EventRun
  | .write event =>
      if s.written.length < s.handled + s.driver.er.bufSize then some (s.write event) else none
  | .process =>
      if s.Seen s.shown then
        (s.driver.processEvent s.shown).toOption.map fun r => { s with
          driver := r.2
          handled := if s.driver.er.hasFront s.shown 1 then s.handled + 1 else s.handled }
      else none

theorem step_of_move (s : EventRun) (m : Move) (t : EventRun) (h : s.move m = some t) :
    Step s t := by
  cases m with
  | write event =>
      rw [move] at h
      split at h
      · next room =>
        obtain rfl := Option.some.inj h
        exact .write s event room
      · contradiction
  | process =>
      rw [move] at h
      split at h
      · next seen =>
        obtain ⟨⟨err, d'⟩, hret, rfl⟩ := Option.map_eq_some_iff.mp h
        cases hcall : s.driver.processEvent s.shown with
        | error e => rw [hcall] at hret; contradiction
        | ok r =>
            rw [hcall] at hret
            obtain rfl := Option.some.inj hret
            exact .process s s.shown seen hcall
      · contradiction

/-- A change of a port. -/
def changed (port : BitVec 8) : Trb :=
  PortStatusChangeEventTRB.portId.put (TRB.ofType PortStatusChangeEventTRB.type) port

/-- Two events have been handled, and the third is in the first entry again. -/
theorem in_order_secondLap : ∃ s, ReflTransGen Step (start twoEntries) s ∧
    (s.handled, s.written.length, s.enqueue, s.cycleState) = (2, 3, 1, false) ∧ InOrder s := by
  have hmoves : ([.write (changed 1#8), .write (changed 2#8), .process, .write (changed 3#8),
      .process].foldlM move (start twoEntries)).map (fun s =>
        (s.handled, s.written.length, s.enqueue, s.cycleState)) = some (2, 3, 1, false) := by
    decide +kernel
  obtain ⟨s, hrun, hat⟩ := Run.exists_of_foldlM step_of_move hmoves
  exact ⟨s, hrun, hat, in_order (h := ⟨0x100000#64, []⟩) (cursorOk_base poolAtMiB) (by decide)
    (by decide) (show EventRing.initializeRing (Env.zero poolAtMiB) _ 0#64 2 =
      (.kSuccess, twoEntries.er, ⟨0x100050#64, []⟩) from rfl) hrun⟩

end EventRun

end MikanOs.Usb.Xhci
