import MikanOs.Usb.Xhci.HostController

/-!
# MikanOs.Usb.Xhci.BringUp

`Controller::Initialize` and `Controller::Run`, access by access, against the
controller of `MikanOs.Usb.Xhci.HostController`.

What `Initialize` allocates, and what it returns, is what
`initializeWithArray` says; here the accesses count, and the addresses that
the controller is given.
-/

namespace MikanOs.Usb.Xhci

open Interaction

/-! ## the code -/

/-- A part of the driver that talks to the controller. -/
abbrev Program := ExceptT Fault (Interaction RegisterAccess RegisterAccess.Answer)

namespace Program

/-- One access. -/
def access (op : RegisterAccess) : Program op.Answer := ExceptT.lift (perform op)

/-- A loop around one access. -/
def accessUntil (op : RegisterAccess) (stop : op.Answer → Bool) : Program op.Answer :=
  ExceptT.lift (await op stop)

/-- `reg.Read()`, some changes, `reg.Write(value)`. -/
def modify (r : Register) (f : BitVec r.width → BitVec r.width) : Program Unit := do
  let value ← access (.read r)
  access (.write r (f value))

/-- A part that talks to nobody. -/
def silent (x : Except Fault α) : Program α := ExceptT.mk (.ret x)

end Program

open Program

/-- `std::find_if` over the extended capabilities, in less than `n` steps. -/
def findExtended (pred : BitVec 32 → Bool) : Nat → BitVec 64 → Program (BitVec 64)
  | 0, _ => throw .endless
  | n + 1, it =>
      if it = 0#64 then pure it
      else do
        let reg ← access (.readExt it)
        if pred reg then pure it
        else
          -- `operator++` reads the register again
          let reg ← access (.readExt it)
          findExtended pred n (addOrNull it ((ExtendedRegister.nextPointer.get reg).setWidth 32))

/-- The condition of the loop that waits for the BIOS, negated. -/
def letGo (r : BitVec 32) : Bool :=
  ¬ (Usblegsup.hcBiosOwnedSemaphore.get r = 1#1 ∨ Usblegsup.hcOsOwnedSemaphore.get r = 0#1)

/-- `RequestHCOwnership`. -/
def requestOwnership (steps : Nat) (mmioBase : BitVec 64) (hccp : BitVec 32) : Program Unit := do
  let extUsblegsup ← findExtended isUsblegsup steps (extendedRegisterList mmioBase hccp)
  if extUsblegsup = 0#64 then pure ()
  else
    let r ← access (.readExt extUsblegsup)
    if Usblegsup.hcOsOwnedSemaphore.get r = 1#1 then pure ()
    else
      access (.writeExt extUsblegsup (Usblegsup.hcOsOwnedSemaphore.put r 1#1))
      let _ ← accessUntil (.readExt extUsblegsup) letGo

/-- What `Initialize` first writes to `USBCMD`. -/
def haltCommand (usbcmd usbsts : BitVec 32) : BitVec 32 :=
  let usbcmd := Usbcmd.interrupterEnable.put usbcmd 0#1
  let usbcmd := Usbcmd.hostSystemErrorEnable.put usbcmd 0#1
  let usbcmd := Usbcmd.enableWrapEvent.put usbcmd 0#1
  -- the controller must be halted before it is reset
  if Usbsts.hostControllerHalted.get usbsts = 0#1 then Usbcmd.runStop.put usbcmd 0#1 else usbcmd

/-- The part of `Initialize` that stops the controller. -/
def haltController : Program Unit := do
  let usbcmd ← access (.read .usbcmd)
  let usbsts ← access (.read .usbsts)
  access (.write .usbcmd (haltCommand usbcmd usbsts))
  let _ ← accessUntil (.read .usbsts) fun v => Usbsts.hostControllerHalted.get v = 1#1

/-- The part that resets it. -/
def resetController : Program Unit := do
  modify .usbcmd fun usbcmd => Usbcmd.hostControllerReset.put usbcmd 1#1
  let _ ← accessUntil (.read .usbcmd) fun v => Usbcmd.hostControllerReset.get v = 0#1
  let _ ← accessUntil (.read .usbsts) fun v => Usbsts.controllerNotReady.get v = 0#1

/-- `DeviceManager::Initialize`, with the address of the array of device
contexts. -/
def DeviceManager.initializeTablesAt (env : Env) (h : Host) (maxSlots : Nat) :
    Error × BitVec 64 × DeviceManager × Host :=
  let a := h.allocArray env sizeofPointer (maxSlots + 1) 0#32 0#32
  if a.1 = 0#64 then (.kNoEnoughMemory, 0#64, .empty maxSlots, a.2)
  else
    let b := a.2.allocArray env sizeofPointer (maxSlots + 1) 64#32 4096#32
    if b.1 = 0#64 then (.kNoEnoughMemory, b.1, .empty maxSlots, b.2)
    else (.kSuccess, b.1, .empty maxSlots, b.2)

/-- `EventRing::Initialize` once there are a segment and a segment table. -/
def EventRing.publish (bufSize : Nat) (segment erst : BitVec 64) : Program EventRing := do
  modify .erstsz fun erstsz => Erstsz.eventRingSegmentTableSize.put erstsz 1#16
  let erdp ← access (.read .erdp)
  access (.write .erdp (Erdp.setPointer erdp segment))
  modify .erstba fun erstba => Erstba.setPointer erstba erst
  pure { buf := segment, bufSize := bufSize, cycleBit := true
         erst := ⟨segment, BitVec.ofNat 16 bufSize⟩
         erdp := Erdp.setPointer erdp segment
         erdpWrites := [(erdp, Erdp.setPointer erdp segment)] }

/-- `EventRing::Initialize`: the error, and with success the ring, the address
of its segment table and the host. -/
def EventRing.initializeOn (env : Env) (h : Host) (bufSize : Nat) :
    Program (Error × Option (EventRing × BitVec 64 × Host)) := do
  let a := h.allocArray env sizeofTRB bufSize 64#32 (BitVec.ofNat 32 (64 * 1024))
  if a.1 = 0#64 then pure (.kNoEnoughMemory, none)
  else
    let b := a.2.allocArray env sizeofEntry 1 64#32 (BitVec.ofNat 32 (64 * 1024))
    if b.1 = 0#64 then pure (.kNoEnoughMemory, none)
    else
      let er ← EventRing.publish bufSize a.1 b.1
      pure (.kSuccess, some (er, b.1, b.2))

/-- What `Initialize` leaves when it succeeds. -/
structure BroughtUp where
  driver : Driver
  /-- the array of device contexts -/
  contexts : BitVec 64
  /-- the event ring segment table -/
  erst : BitVec 64

/-- What `Initialize` returns, what it leaves, and the entries of the
scratchpad buffer array. -/
abbrev ControllerOutcome := Error × Option BroughtUp × List (BitVec 64)

/-- The end of `Initialize`: interrupts. -/
def enableInterrupts : Program Unit := do
  modify .iman fun iman => Iman.interruptEnable.put (Iman.interruptPending.put iman 1#1) 1#1
  let _ ← access (.read .iman)
  modify .usbcmd fun usbcmd => Usbcmd.interrupterEnable.put usbcmd 1#1

/-- `Initialize` from the rings on, `cr` being what the initialization of the
command ring returned. -/
def programRings (env : Env) (maxPorts : BitVec 8) (contexts : BitVec 64)
    (entries : List (BitVec 64)) (devmgr : DeviceManager) (h : Host)
    (cr : Error × Ring × BitVec 64) : Program ControllerOutcome :=
  if cr.1 ≠ .kSuccess then pure (cr.1, none, entries)
  else do
    modify .crcr fun crcr => registerCommandRing crcr cr.2.1
    match ← EventRing.initializeOn env { h with allocPtr := cr.2.2 } 32 with
    | (err, none) => pure (err, none, entries)
    | (_, some (er, erst, h)) =>
        enableInterrupts
        pure (.kSuccess, some ⟨⟨.untouched maxPorts devmgr cr.2.1 h, er⟩, contexts, erst⟩, entries)

/-- `Initialize` once there are tables. -/
def resetAndProgram (env : Env) (steps : Nat) (mmioBase : BitVec 64) (maxPorts : BitVec 8)
    (contexts : BitVec 64) (devmgr : DeviceManager) (h : Host) : Program ControllerOutcome := do
  let hccparams1 ← access (.read .hccparams1)
  requestOwnership steps mmioBase hccparams1
  haltController
  resetController
  let _ ← access (.read .hcsparams1)
  modify .config fun config => Config.maxDeviceSlotsEnabled.put config (BitVec.ofNat 8 kDeviceSize)
  let hcsparams2 ← access (.read .hcsparams2)
  let (entries, devmgr, h) ←
    silent (devmgr.writeScratchpad env h (maxScratchpadBuffers hcsparams2).toNat)
  access (.write .dcbaap (Dcbaap.setPointer 0#64 contexts))
  programRings env maxPorts contexts entries devmgr h
    (Ring.initializeRing env.pool h.allocPtr 32)

/-- The constructor of `Controller`, then `Initialize`. -/
def initializeHardware (env : Env) (steps : Nat) (mmioBase : BitVec 64) (h : Host) :
    Program ControllerOutcome := do
  let hcsparams1 ← access (.read .hcsparams1)
  let a := DeviceManager.initializeTablesAt env h kDeviceSize
  if a.1 ≠ .kSuccess then pure (a.1, none, [])
  else
    resetAndProgram env steps mmioBase (Hcsparams1.maxPorts.get hcsparams1) a.2.1 a.2.2.1 a.2.2.2

/-- `Run`. -/
def runController : Program Error := do
  modify .usbcmd fun usbcmd => Usbcmd.runStop.put usbcmd 1#1
  let _ ← access (.read .usbcmd)
  let _ ← accessUntil (.read .usbsts) fun v => Usbsts.hostControllerHalted.get v = 0#1
  pure .kSuccess

/-! ## single accesses -/

variable {b : Board} {s t : Hc}

/-- The controller is halted, and the driver has it. -/
structure Hc.Idle (b : Board) (s : Hc) : Prop where
  owned : s.Owned b
  halted : s.phase = .halted
  stopped : Usbcmd.runStop.get s.usbcmd = 0#1

theorem Hc.Idle.wrote (h : s.Idle b) (r : Register) (v : BitVec r.width) : (s.wrote r v).Idle b :=
  ⟨h.owned, h.halted, h.stopped⟩

theorem access_yields (op : RegisterAccess) {post : op.Answer → Hc → Prop}
    (allowed : s.Allowed b op) (h : ∀ a t, s.Answers b op a t → post a t) :
    Yields (controller b) post (access op) s :=
  Yields.lift (Ensures.perform op allowed h)

/-- A read, whatever happens in the meantime. -/
theorem read_yields (b : Board) (s : Hc) (r : Register) : Yields (controller b)
    (fun v t => ∃ p, s.phase.Later p ∧ t = { s with phase := p } ∧ t.Reads b r v)
    (access (.read r)) s := by
  refine access_yields (.read r) trivial fun v t hanswer => ?_
  cases hanswer with
  | read later reads => exact ⟨_, later, rfl, reads⟩

/-- To a halted controller nothing happens in the meantime. -/
theorem read_halted (halted : s.phase = .halted) (r : Register) :
    Yields (controller b) (fun v t => s.Reads b r v ∧ t = s) (access (.read r)) s := by
  refine (read_yields b s r).mono ?_
  rintro v t ⟨p, hp, rfl, hv⟩
  rw [halted] at hp
  cases hp with
  | halted =>
      have hsame : ({ s with phase := .halted } : Hc) = s := by rw [← halted]
      rw [hsame] at hv
      exact ⟨hv, hsame⟩

/-- A register is programmed. -/
theorem write_idle {r : Register} (idle : s.Idle b) (may : s.MayProgram r) (v : BitVec r.width) :
    Yields (controller b) (fun _ t => t = s.wrote r v) (access (.write r v)) s := by
  have hr : r ≠ .usbcmd := by
    rintro rfl
    exact may
  have hallowed : s.Allowed b (.write r v) := by
    cases r with
    | usbcmd => exact absurd rfl hr
    | _ => exact ⟨idle.owned, may⟩
  refine access_yields (.write r v) hallowed fun x t hanswer => ?_
  cases hanswer with
  | command _ => exact absurd rfl hr
  | write _ => rfl

/-- A register is read, changed and written back. -/
theorem modify_idle {r : Register} (idle : s.Idle b) (may : s.MayProgram r)
    (f : BitVec r.width → BitVec r.width) :
    Yields (controller b) (fun _ t => ∃ v, t = s.wrote r (f v)) (modify r f) s := by
  refine (read_halted idle.halted r).bind ?_
  rintro v _ ⟨_, rfl⟩
  exact (write_idle idle may (f v)).mono fun _ _ h => ⟨v, h⟩

/-- A value is written to `USBCMD`. -/
theorem command_yields {v : BitVec 32} (owned : s.Owned b) (may : s.MayCommand v) :
    Yields (controller b) (fun _ t => ∃ p, Hc.Commanded v s.phase p ∧ t = s.command v p)
      (access (.write .usbcmd v)) s := by
  refine access_yields (.write .usbcmd v) ⟨owned, may⟩ fun x t hanswer => ?_
  cases hanswer with
  | command hphase => exact ⟨_, hphase, rfl⟩
  | write hr => exact absurd rfl hr

/-- How many reads a phase will go on for at most. -/
def Phase.left : Phase → Nat
  | .halting n => n + 1
  | .resetting n => n + 1
  | .notReady n => n + 1
  | .starting n => n + 1
  | _ => 0

/-- A loop around a read. -/
theorem readUntil_yields (r : Register) {stop : BitVec r.width → Bool}
    {post : BitVec r.width → Hc → Prop} (inv : Hc → Prop)
    (hstop : ∀ s p v, inv s → s.phase.Later p → Hc.Reads b { s with phase := p } r v →
      stop v = true → post v { s with phase := p })
    (hagain : ∀ s p v, inv s → s.phase.Later p → Hc.Reads b { s with phase := p } r v →
      stop v = false → inv { s with phase := p } ∧ p.left < s.phase.left)
    (h : inv s) : Yields (controller b) post (accessUntil (.read r) stop) s := by
  refine Yields.lift (Ensures.await (RegisterAccess.read r) inv (fun s : Hc => s.phase.left)
    (fun _ _ => trivial) ?_ ?_ h)
  · intro s v t hinv hanswer hsuits
    cases hanswer with
    | read later reads => exact hstop s _ v hinv later reads hsuits
  · intro s v t hinv hanswer hfails
    cases hanswer with
    | read later reads => exact hagain s _ v hinv later reads hfails

/-! ## whose the controller is -/

/-- A register of the list as the firmware leaves it. -/
theorem readExt_found (found : s.owner = .firmware) (a : BitVec 64) :
    Yields (controller b) (fun v t => v = b.mmio a ∧ t = s) (access (.readExt a)) s := by
  refine access_yields (.readExt a) trivial fun v t hanswer => ?_
  cases hanswer with
  | readExt h =>
      cases h with
      | found _ => exact ⟨rfl, rfl⟩
      | other h _ => exact absurd (found.symm.trans h) nofun
      | waits h _ => exact absurd (found.symm.trans h) nofun
      | lets h _ _ => exact absurd (found.symm.trans h) nofun
      | after h => exact absurd (found.symm.trans h) nofun

/-- The search goes along the list and changes nothing. -/
theorem findExtended_yields (found : s.owner = .firmware) (pred : BitVec 32 → Bool)
    {it : BitVec 64} {as : List (BitVec 64)} {n : Nat}
    (h : Linked.Visits (nextRegister b.mmio) (node it) as) (hn : as.length < n) :
    Yields (controller b)
      (fun r t => r = (as.find? fun a => pred (b.mmio a)).getD 0#64 ∧ t = s)
      (findExtended pred n it) s := by
  generalize hstart : node it = start at h
  induction h generalizing it n with
  | stop =>
      obtain ⟨n, rfl⟩ := Nat.exists_eq_succ_of_ne_zero (Nat.ne_zero_of_lt hn)
      rw [findExtended, if_pos (node_eq_none.mp hstart)]
      exact .pure ⟨node_eq_none.mp hstart, rfl⟩
  | @visit a as hrest ih =>
      obtain ⟨n, rfl⟩ := Nat.exists_eq_succ_of_ne_zero (Nat.ne_zero_of_lt hn)
      obtain ⟨rfl, hne⟩ := node_eq_some.mp hstart
      rw [findExtended, if_neg hne, List.find?_cons]
      refine (readExt_found found it).bind ?_
      rintro _ _ ⟨rfl, rfl⟩
      by_cases hpred : pred (b.mmio it)
      · rw [if_pos hpred, hpred]
        exact .pure ⟨rfl, rfl⟩
      · rw [if_neg hpred, Bool.eq_false_iff.mpr hpred]
        refine (readExt_found found it).bind ?_
        rintro _ _ ⟨rfl, rfl⟩
        have hnext : node (addOrNull it
            ((ExtendedRegister.nextPointer.get (b.mmio it)).setWidth 32)) =
            nextRegister b.mmio it := by
          rw [nextRegister, increment, if_pos hne]
        exact ih (Nat.succ_lt_succ_iff.mp hn) hnext

/-- A controller whose firmware need not be asked. -/
theorem Hc.owned_of_firmware (found : s.owner = .firmware)
    (h : ∀ a, b.usblegsup = some a → Usblegsup.hcOsOwnedSemaphore.get (b.mmio a) = 1#1) :
    s.Owned b := by
  unfold Hc.Owned
  rw [found]
  exact h

/-- The driver has the controller, which goes on with what it does. -/
structure Hc.Claimed (b : Board) (s t : Hc) : Prop where
  owned : t.Owned b
  phase : t.phase = s.phase
  usbcmd : t.usbcmd = s.usbcmd

/-- The firmware is asked. -/
theorem ask_yields (found : s.owner = .firmware) {a : BitVec 64} {v : BitVec 32}
    (hid : isUsblegsup (b.mmio a))
    (bios : Usblegsup.hcBiosOwnedSemaphore.get v = Usblegsup.hcBiosOwnedSemaphore.get (b.mmio a))
    (os : Usblegsup.hcOsOwnedSemaphore.get v = 1#1) :
    Yields (controller b) (fun _ t => ∃ n, t = { s with owner := .asked a n })
      (access (.writeExt a v)) s := by
  refine access_yields (.writeExt a v) ⟨found, hid, bios, os⟩ fun _ t hanswer => ?_
  cases hanswer with
  | writeExt => exact ⟨_, rfl⟩

/-- The wait for the firmware. -/
theorem waitOwned_yields {a : BitVec 64} {n : Nat} (asked : s.owner = .asked a n) :
    Yields (controller b) (fun _ t => s.Claimed b t) (accessUntil (.readExt a) letGo) s := by
  refine Yields.lift (Ensures.await (RegisterAccess.readExt a)
    (fun t => ∃ m, t = { s with owner := .asked a m })
    (fun t : Hc => match t.owner with | .asked _ m => m | _ => 0) (fun _ _ => trivial) ?_ ?_
    ⟨n, by rw [← asked]⟩)
  · rintro _ v t ⟨m, rfl⟩ hanswer hsuits
    cases hanswer with
    | readExt h =>
        cases h with
        | found h => cases h
        | other h hne =>
            cases h
            exact absurd rfl hne
        | waits h bios =>
            have hgo := of_decide_eq_true hsuits
            exact absurd (.inl bios) hgo
        | lets h bios os => exact ⟨trivial, rfl, rfl⟩
        | after h => cases h
  · rintro _ v t ⟨m, rfl⟩ hanswer hfails
    cases hanswer with
    | readExt h =>
        cases h with
        | found h => cases h
        | other h hne =>
            cases h
            exact absurd rfl hne
        | waits h bios =>
            cases h
            exact ⟨⟨_, rfl⟩, Nat.lt_succ_self _⟩
        | lets h bios os =>
            refine absurd ?_ (of_decide_eq_false hfails)
            rintro (hbios | hos)
            · exact absurd (bios.symm.trans hbios) (by decide)
            · exact absurd (os.symm.trans hos) (by decide)
        | after h => cases h

/-- The controller is the driver's after `RequestHCOwnership`. -/
theorem requestOwnership_yields (found : s.owner = .firmware) {steps : Nat}
    (hsteps : b.capabilities.length < steps) :
    Yields (controller b) (fun _ t => s.Claimed b t)
      (requestOwnership steps b.mmioBase b.hccparams1) s := by
  unfold requestOwnership
  refine (findExtended_yields found isUsblegsup b.visits hsteps).bind ?_
  rintro _ _ ⟨rfl, rfl⟩
  cases hfind : b.capabilities.find? fun a => isUsblegsup (b.mmio a) with
  | none =>
      rw [Option.getD_none, if_pos rfl]
      have howned := Hc.owned_of_firmware found fun a ha => nomatch hfind.symm.trans ha
      exact .pure ⟨howned, rfl, rfl⟩
  | some a =>
      have hne := ne_zero_of_visits b.visits a (List.mem_of_find?_eq_some hfind)
      have hid := List.find?_some hfind
      rw [Option.getD_some, if_neg hne]
      refine (readExt_found found a).bind ?_
      rintro _ _ ⟨rfl, rfl⟩
      by_cases hos : Usblegsup.hcOsOwnedSemaphore.get (b.mmio a) = 1#1
      · rw [if_pos hos]
        have howned := Hc.owned_of_firmware found fun a' ha' =>
          Option.some.inj (hfind.symm.trans ha') ▸ hos
        exact .pure ⟨howned, rfl, rfl⟩
      · rw [if_neg hos]
        have hbios : Usblegsup.hcBiosOwnedSemaphore.get
            (Usblegsup.hcOsOwnedSemaphore.put (b.mmio a) 1#1) =
            Usblegsup.hcBiosOwnedSemaphore.get (b.mmio a) :=
          BitField.get_put_of_disjoint (by decide) _ _
        refine (ask_yields found hid hbios (BitField.get_put _ _ _)).bind ?_
        rintro _ t ⟨n, rfl⟩
        exact (waitOwned_yields rfl).bind fun _ _ h => .pure ⟨h.owned, h.phase, h.usbcmd⟩

/-! ## stop, reset -/

theorem ne_zero_iff {x : BitVec 1} : x ≠ 0#1 ↔ x = 1#1 := by
  revert x
  decide

/-- The controller as the firmware may have left it: running, halted or on
the way there. -/
inductive Hc.AtRest (s : Hc) : Prop
  | running (phase : s.phase = .running) (go : Usbcmd.runStop.get s.usbcmd = 1#1)
  | halting (n : Nat) (phase : s.phase = .halting n) (stopped : Usbcmd.runStop.get s.usbcmd = 0#1)
  | halted (phase : s.phase = .halted) (stopped : Usbcmd.runStop.get s.usbcmd = 0#1)

theorem Hc.AtRest.later (h : s.AtRest) {p : Phase} (hp : s.phase.Later p) :
    Hc.AtRest { s with phase := p } := by
  cases h with
  | running phase go =>
      rw [phase] at hp
      cases hp with
      | running => exact .running rfl go
  | halting n phase stopped =>
      rw [phase] at hp
      cases hp with
      | halting => exact .halting _ rfl stopped
      | stopped => exact .halted rfl stopped
  | halted phase stopped =>
      rw [phase] at hp
      cases hp with
      | halted => exact .halted rfl stopped

theorem Hc.AtRest.congr (h : s.AtRest) (hphase : t.phase = s.phase)
    (husbcmd : t.usbcmd = s.usbcmd) : t.AtRest := by
  cases h with
  | running phase go => exact .running (hphase.trans phase) (husbcmd ▸ go)
  | halting n phase stopped => exact .halting n (hphase.trans phase) (husbcmd ▸ stopped)
  | halted phase stopped => exact .halted (hphase.trans phase) (husbcmd ▸ stopped)

theorem Hc.AtRest.reset_eq (h : s.AtRest) : s.phase.hostControllerReset = 0#1 := by
  cases h with
  | running phase _ => rw [phase]; rfl
  | halting n phase _ => rw [phase]; rfl
  | halted phase _ => rw [phase]; rfl

/-- What is read from `USBSTS` tells a halted controller from a running
one. -/
theorem Hc.AtRest.stopped_of_reads (h : s.AtRest) {v : BitVec 32} (hv : s.Reads b .usbsts v)
    (hhalted : Usbsts.hostControllerHalted.get v = 1#1) :
    s.phase = .halted ∧ Usbcmd.runStop.get s.usbcmd = 0#1 := by
  cases h with
  | running phase _ =>
      have hzero := hv.1 0#1 (by rw [phase]; rfl)
      exact absurd (hzero.symm.trans hhalted) (by decide)
  | halting n phase _ =>
      have hzero := hv.1 0#1 (by rw [phase]; rfl)
      exact absurd (hzero.symm.trans hhalted) (by decide)
  | halted phase stopped => exact ⟨phase, stopped⟩

theorem runStop_haltCommand {usbcmd usbsts : BitVec 32}
    (h : Usbsts.hostControllerHalted.get usbsts = 1#1 → Usbcmd.runStop.get usbcmd = 0#1) :
    Usbcmd.runStop.get (haltCommand usbcmd usbsts) = 0#1 := by
  unfold haltCommand
  by_cases hhalted : Usbsts.hostControllerHalted.get usbsts = 0#1
  · rw [if_pos hhalted, BitField.get_put]
  · rw [if_neg hhalted, BitField.get_put_of_disjoint (by decide),
      BitField.get_put_of_disjoint (by decide), BitField.get_put_of_disjoint (by decide),
      h (ne_zero_iff.mp hhalted)]

theorem reset_haltCommand (usbcmd usbsts : BitVec 32) :
    Usbcmd.hostControllerReset.get (haltCommand usbcmd usbsts) =
      Usbcmd.hostControllerReset.get usbcmd := by
  unfold haltCommand
  have hdisjoint : (Usbcmd.hostControllerReset.Disjoint Usbcmd.runStop) := by decide
  split
  · rw [BitField.get_put_of_disjoint hdisjoint, BitField.get_put_of_disjoint (by decide),
      BitField.get_put_of_disjoint (by decide), BitField.get_put_of_disjoint (by decide)]
  · rw [BitField.get_put_of_disjoint (by decide), BitField.get_put_of_disjoint (by decide),
      BitField.get_put_of_disjoint (by decide)]

/-- The controller is halted, or on the way there. -/
structure Hc.Stopping (b : Board) (s : Hc) : Prop where
  owned : s.Owned b
  stopped : Usbcmd.runStop.get s.usbcmd = 0#1
  phase : s.phase = .halted ∨ ∃ n, s.phase = .halting n

/-- A command that tells it to stop. -/
theorem Hc.AtRest.stop_yields (rest : s.AtRest) (owned : s.Owned b) {v : BitVec 32}
    (hstop : Usbcmd.runStop.get v = 0#1) (hreset : Usbcmd.hostControllerReset.get v = 0#1) :
    Yields (controller b) (fun _ t => t.Stopping b) (access (.write .usbcmd v)) s := by
  have hnoreset : ¬ Usbcmd.hostControllerReset.get v = 1#1 := by
    rw [hreset]
    decide
  have hnogo : ¬ Usbcmd.runStop.get v = 1#1 := by
    rw [hstop]
    decide
  have hmay : s.MayCommand v := by
    refine ⟨?_, ?_, fun h => absurd h hnoreset, fun h => absurd h hnogo⟩
    · intro n h
      cases rest <;> simp_all
    · intro n h
      cases rest <;> simp_all
  refine (command_yields owned hmay).mono ?_
  rintro _ _ ⟨p, hp, rfl⟩
  rw [Hc.command_of_not_reset hreset]
  refine ⟨owned, hstop, ?_⟩
  rcases hp.of_stop hstop hreset with ⟨rfl, hrunning⟩ | ⟨_, hhalting⟩
  · cases rest with
    | running phase _ => exact absurd phase hrunning
    | halting n phase _ => exact .inr ⟨n, phase⟩
    | halted phase _ => exact .inl phase
  · exact .inr hhalting

/-- The wait for it. -/
theorem waitHalted_yields (h : s.Stopping b) :
    Yields (controller b) (fun _ t => t.Idle b) (accessUntil (.read .usbsts) fun v =>
      Usbsts.hostControllerHalted.get v = 1#1) s := by
  refine readUntil_yields .usbsts (Hc.Stopping b) ?_ ?_ h
  · rintro t p v ⟨howned, hstop, hphase⟩ hp hv hhalted
    have hone : Usbsts.hostControllerHalted.get v = 1#1 := of_decide_eq_true hhalted
    refine ⟨howned, ?_, hstop⟩
    rcases hphase with hphase | ⟨n, hphase⟩
    · rw [hphase] at hp
      cases hp with
      | halted => rfl
    · rw [hphase] at hp
      cases hp with
      | halting => exact absurd ((hv.1 0#1 rfl).symm.trans hone) (by decide)
      | stopped => rfl
  · rintro t p v ⟨howned, hstop, hphase⟩ hp hv hhalted
    have hnot : ¬ Usbsts.hostControllerHalted.get v = 1#1 := of_decide_eq_false hhalted
    rcases hphase with hphase | ⟨n, hphase⟩
    · rw [hphase] at hp
      cases hp with
      | halted => exact absurd (hv.1 1#1 rfl) hnot
    · rw [hphase] at hp ⊢
      cases hp with
      | halting => exact ⟨⟨howned, hstop, .inr ⟨_, rfl⟩⟩, Nat.lt_succ_self _⟩
      | stopped => exact absurd (hv.1 1#1 rfl) hnot

/-- The controller comes to a halt. -/
theorem haltController_yields (owned : s.Owned b) (rest : s.AtRest) :
    Yields (controller b) (fun _ t => t.Idle b) haltController s := by
  unfold haltController
  refine (read_yields b s .usbcmd).bind ?_
  rintro (usbcmd : BitVec 32) _ ⟨p, hp, rfl, hv⟩
  have hrest := rest.later hp
  have hvalue : usbcmd = Usbcmd.hostControllerReset.put s.usbcmd p.hostControllerReset := hv
  refine (read_yields b _ .usbsts).bind ?_
  rintro (usbsts : BitVec 32) _ ⟨q, hq, rfl, hsts⟩
  have hrest' := hrest.later hq
  have hgo : Usbcmd.runStop.get usbcmd = Usbcmd.runStop.get s.usbcmd := by
    rw [hvalue, BitField.get_put_of_disjoint (by decide)]
  have hstop : Usbcmd.runStop.get (haltCommand usbcmd usbsts) = 0#1 :=
    runStop_haltCommand fun hhalted => hgo.trans (hrest'.stopped_of_reads hsts hhalted).2
  have hreset : Usbcmd.hostControllerReset.get (haltCommand usbcmd usbsts) = 0#1 := by
    rw [reset_haltCommand, hvalue, BitField.get_put]
    exact hrest.reset_eq
  refine (hrest'.stop_yields owned hstop hreset).bind fun _ t hstopping => ?_
  exact (waitHalted_yields hstopping).bind fun _ _ h => .pure h

/-- The controller once it has been told to reset itself. -/
def Hc.afterReset (owner : Owner) (p : Phase) : Hc := ⟨owner, p, 0#32, fun _ => none⟩

/-- The command to do so. -/
theorem Hc.Idle.reset_yields (idle : s.Idle b) :
    Yields (controller b) (fun _ t => ∃ n, t = .afterReset s.owner (.resetting n))
      (modify .usbcmd fun usbcmd => Usbcmd.hostControllerReset.put usbcmd 1#1) s := by
  refine (read_halted idle.halted .usbcmd).bind ?_
  rintro (v : BitVec 32) s ⟨hv, rfl⟩
  have hvalue : v = Usbcmd.hostControllerReset.put s.usbcmd s.phase.hostControllerReset := hv
  have hreset : Usbcmd.hostControllerReset.get (Usbcmd.hostControllerReset.put v 1#1) = 1#1 :=
    BitField.get_put _ _ _
  have hstop : Usbcmd.runStop.get (Usbcmd.hostControllerReset.put v 1#1) = 0#1 := by
    rw [BitField.get_put_of_disjoint (by decide), hvalue, BitField.get_put_of_disjoint (by decide)]
    exact idle.stopped
  have hmay : s.MayCommand (Usbcmd.hostControllerReset.put v 1#1) := by
    refine ⟨?_, ?_, fun _ => ⟨idle.halted, hstop⟩, fun h => ?_⟩
    · simp [idle.halted]
    · simp [idle.halted]
    · exact absurd (hstop.symm.trans h) (by decide)
  refine (command_yields idle.owned hmay).mono ?_
  rintro _ _ ⟨p, hp, rfl⟩
  obtain ⟨n, rfl⟩ := hp.of_reset hreset
  exact ⟨n, Hc.command_of_reset hreset⟩

/-- The wait until the reset is over. -/
theorem waitReset_yields {owner : Owner} (n : Nat) :
    Yields (controller b) (fun _ t => ∃ m, t = .afterReset owner (.notReady m))
      (accessUntil (.read .usbcmd) fun v => Usbcmd.hostControllerReset.get v = 0#1)
      (.afterReset owner (.resetting n)) := by
  refine readUntil_yields .usbcmd
    (fun t : Hc => ∃ m, t = .afterReset owner (.resetting m)) ?_ ?_ ⟨n, rfl⟩
  · rintro t p v ⟨m, rfl⟩ hp hv hover
    have hzero : Usbcmd.hostControllerReset.get v = 0#1 := of_decide_eq_true hover
    have hvalue : v = Usbcmd.hostControllerReset.put 0#32 p.hostControllerReset := hv
    rw [hvalue, BitField.get_put] at hzero
    cases hp with
    | resetting =>
        have hone : (1#1 : BitVec 1) = 0#1 := hzero
        exact absurd hone (by decide)
    | reset => exact ⟨_, rfl⟩
  · rintro t p v ⟨m, rfl⟩ hp hv hover
    have hne : ¬ Usbcmd.hostControllerReset.get v = 0#1 := of_decide_eq_false hover
    have hvalue : v = Usbcmd.hostControllerReset.put 0#32 p.hostControllerReset := hv
    rw [hvalue, BitField.get_put] at hne
    cases hp with
    | resetting => exact ⟨⟨_, rfl⟩, Nat.lt_succ_self _⟩
    | reset => exact absurd rfl hne

/-- The wait until the controller is ready. -/
theorem waitReady_yields {owner : Owner} (n : Nat) :
    Yields (controller b) (fun _ t => t = .afterReset owner .halted)
      (accessUntil (.read .usbsts) fun v => Usbsts.controllerNotReady.get v = 0#1)
      (.afterReset owner (.notReady n)) := by
  refine readUntil_yields .usbsts
    (fun t : Hc => ∃ m, t = .afterReset owner (.notReady m)) ?_ ?_ ⟨n, rfl⟩
  · rintro t p v ⟨m, rfl⟩ hp hv hready
    have hzero : Usbsts.controllerNotReady.get v = 0#1 := of_decide_eq_true hready
    cases hp with
    | notReady => exact absurd ((hv.2 1#1 rfl).symm.trans hzero) (by decide)
    | ready => rfl
  · rintro t p v ⟨m, rfl⟩ hp hv hready
    have hne : ¬ Usbsts.controllerNotReady.get v = 0#1 := of_decide_eq_false hready
    cases hp with
    | notReady => exact ⟨⟨_, rfl⟩, Nat.lt_succ_self _⟩
    | ready => exact absurd (hv.2 0#1 rfl) hne

/-- A halted controller is reset, and forgets what it has been told. -/
theorem resetController_yields (idle : s.Idle b) :
    Yields (controller b) (fun _ t => t = .afterReset s.owner .halted) resetController s := by
  refine idle.reset_yields.bind ?_
  rintro _ _ ⟨n, rfl⟩
  refine (waitReset_yields n).bind ?_
  rintro _ _ ⟨m, rfl⟩
  exact (waitReady_yields m).bind fun _ _ h => .pure h

/-! ## the tables and the rings -/

/-- A command to a halted controller that leaves it halted. -/
theorem modify_usbcmd_idle {f : BitVec 32 → BitVec 32} (idle : s.Idle b)
    (hgo : ∀ v, Usbcmd.runStop.get (f v) = Usbcmd.runStop.get v)
    (hreset : ∀ v, Usbcmd.hostControllerReset.get (f v) = Usbcmd.hostControllerReset.get v) :
    Yields (controller b)
      (fun _ t => ∃ v, t = { s with usbcmd := f v } ∧ Usbcmd.runStop.get (f v) = 0#1)
      (modify .usbcmd f) s := by
  refine (read_halted idle.halted .usbcmd).bind ?_
  rintro (v : BitVec 32) s ⟨hv, rfl⟩
  have hvalue : v = Usbcmd.hostControllerReset.put s.usbcmd s.phase.hostControllerReset := hv
  have hstop : Usbcmd.runStop.get (f v) = 0#1 := by
    rw [hgo, hvalue, BitField.get_put_of_disjoint (by decide)]
    exact idle.stopped
  have hnoreset : Usbcmd.hostControllerReset.get (f v) = 0#1 := by
    rw [hreset, hvalue, BitField.get_put, idle.halted]
    rfl
  have hmay : s.MayCommand (f v) := by
    refine ⟨?_, ?_, fun h => ?_, fun h => ?_⟩
    · simp [idle.halted]
    · simp [idle.halted]
    · exact absurd (hnoreset.symm.trans h) (by decide)
    · exact absurd (hstop.symm.trans h) (by decide)
  refine (command_yields idle.owned hmay).mono ?_
  rintro _ _ ⟨p, hp, rfl⟩
  rcases hp.of_stop hstop hnoreset with ⟨rfl, _⟩ | ⟨hrunning, _⟩
  · exact ⟨v, Hc.command_of_not_reset hnoreset, hstop⟩
  · exact absurd idle.halted hrunning

/-- `EventRing::Initialize` tells the controller of the segment and of the
table, the latter last. -/
theorem publish_yields (idle : s.Idle b) (bufSize : Nat) (segment erst : BitVec 64) :
    Yields (controller b) (fun er t => ∃ v erdp w,
      t = ((s.wrote .erstsz (Erstsz.eventRingSegmentTableSize.put v 1#16)).wrote .erdp
        (Erdp.setPointer erdp segment)).wrote .erstba (Erstba.setPointer w erst) ∧
      er = { buf := segment, bufSize := bufSize, cycleBit := true
             erst := ⟨segment, BitVec.ofNat 16 bufSize⟩
             erdp := Erdp.setPointer erdp segment
             erdpWrites := [(erdp, Erdp.setPointer erdp segment)] })
      (EventRing.publish bufSize segment erst) s := by
  unfold EventRing.publish
  refine (modify_idle (r := .erstsz) idle idle.halted _).bind ?_
  rintro _ _ ⟨v, rfl⟩
  have idle₁ := idle.wrote .erstsz (Erstsz.eventRingSegmentTableSize.put v 1#16)
  refine (read_halted idle₁.halted .erdp).bind ?_
  rintro erdp _ ⟨_, rfl⟩
  refine (write_idle (r := .erdp) idle₁ idle₁.halted _).bind ?_
  rintro _ _ rfl
  have idle₂ := idle₁.wrote .erdp (Erdp.setPointer erdp segment)
  refine (modify_idle (r := .erstba) idle₂ ⟨idle₂.halted,
    Hc.isSome_wrote_of_isSome (Hc.isSome_wrote _ _ _) _ _, Hc.isSome_wrote _ _ _⟩ _).bind ?_
  rintro _ _ ⟨w, rfl⟩
  exact .pure ⟨v, erdp, w, rfl, rfl⟩

/-- The environment that answers reads of `ERDP` as the controller did. -/
def Env.withErdp (env : Env) (erdp : BitVec 64) : Env :=
  { env with erdpLow := fun _ => Erdp.low.get erdp }

theorem allocArray_withErdp (env : Env) (erdp : BitVec 64) (h : Host) (size n : Nat)
    (alignment boundary : BitVec 32) : h.allocArray (Env.withErdp env erdp) size n alignment
      boundary = h.allocArray env size n alignment boundary := rfl

/-- What comes of `EventRing::Initialize`: the pool is exhausted, or there is a
ring and the controller knows. -/
inductive EventRingBegun (env : Env) (h : Host) (bufSize : Nat) (s : Hc) :
    Error × Option (EventRing × BitVec 64 × Host) → Hc → Prop
  | failed {err : Error} (failed : err ≠ .kSuccess)
      (agrees : (EventRing.initializeRing (Env.withErdp env 0#64) h 0#64 bufSize).1 = err) :
      EventRingBegun env h bufSize s (err, none) s
  | made (erdp : BitVec 64) {er : EventRing} {erst : BitVec 64} {h' : Host} {v : BitVec 32}
      {w : BitVec 64} (aligned : CursorOk env.pool h.allocPtr → 64 ∣ erst.toNat)
      (agrees : EventRing.initializeRing (Env.withErdp env erdp) h erdp bufSize =
        (.kSuccess, er, h')) :
      EventRingBegun env h bufSize s (.kSuccess, some (er, erst, h'))
        (((s.wrote .erstsz (Erstsz.eventRingSegmentTableSize.put v 1#16)).wrote .erdp
          er.erdp).wrote .erstba (Erstba.setPointer w erst))

/-- The request for an event ring segment table. -/
def erstRequest : Request :=
  Host.arrayRequest EventRing.sizeofEntry 1 64#32 (BitVec.ofNat 32 (64 * 1024))

theorem erstRequest_valid : erstRequest.Valid :=
  ⟨by decide +kernel, .inr ⟨6, rfl⟩, .inr ⟨16, rfl⟩⟩

/-- A block that is to be aligned to 64 bytes. -/
theorem dvd_of_serve {r : Request} (hr : r.Valid) {pool : MemoryPool} {p ptr : BitVec 64}
    (cursor : CursorOk pool p) (hptr : (r.serve pool p).1 = ptr) (hnull : ptr ≠ 0#64)
    (halign : r.alignment = 64#32) : 64 ∣ ptr.toNat := by
  have hdvd := (serve_sound hr cursor hptr hnull).aligned
  rw [halign] at hdvd
  exact hdvd (by decide)

/-- The table is aligned to 64 bytes. -/
theorem dvd_erst {env : Env} {h : Host} {bufSize : Nat} (hsize : sizeofTRB * bufSize ≤ 2 ^ 31)
    {seg tab : BitVec 64 × Host}
    (hseg : h.allocArray env sizeofTRB bufSize 64#32 (BitVec.ofNat 32 (64 * 1024)) = seg)
    (htab : seg.2.allocArray env EventRing.sizeofEntry 1 64#32 (BitVec.ofNat 32 (64 * 1024)) =
      tab) (hnull : tab.1 ≠ 0#64) (cursor : CursorOk env.pool h.allocPtr) : 64 ∣ tab.1.toNat := by
  have hcursor : CursorOk env.pool seg.2.allocPtr := by
    rw [← hseg]
    exact Host.cursorOk_grant (bufRequest_valid hsize) cursor
  have hptr : (erstRequest.serve env.pool seg.2.allocPtr).1 = tab.1 := by
    rw [← htab, Host.allocArray_eq, Host.grant_fst, erstRequest]
  exact dvd_of_serve erstRequest_valid hcursor hptr hnull rfl

/-- By the answers for the segment and for the table. -/
theorem initializeOn_of_answers (idle : s.Idle b) {env : Env} {h : Host} {bufSize : Nat}
    (hsize : sizeofTRB * bufSize ≤ 2 ^ 31) {seg tab : BitVec 64 × Host}
    (hseg : h.allocArray env sizeofTRB bufSize 64#32 (BitVec.ofNat 32 (64 * 1024)) = seg)
    (htab : seg.2.allocArray env EventRing.sizeofEntry 1 64#32 (BitVec.ofNat 32 (64 * 1024)) =
      tab) :
    Yields (controller b) (EventRingBegun env h bufSize s)
      (EventRing.initializeOn env h bufSize) s := by
  unfold EventRing.initializeOn
  rw [hseg]
  by_cases hnull : seg.1 = 0#64
  · simp only [hnull, if_true]
    refine .pure (.failed nofun ?_)
    rw [EventRing.initializeRing, allocArray_withErdp, hseg, EventRing.onBlock, if_pos hnull]
  simp only [hnull, if_false]
  rw [htab]
  by_cases hnull' : tab.1 = 0#64
  · simp only [hnull', if_true]
    refine .pure (.failed nofun ?_)
    rw [EventRing.initializeRing, allocArray_withErdp, hseg, EventRing.onBlock, if_neg hnull,
      allocArray_withErdp, htab]
    simp only [hnull', if_true]
  simp only [hnull', if_false]
  refine (publish_yields idle bufSize seg.1 tab.1).bind ?_
  rintro er _ ⟨v, erdp, w, rfl, rfl⟩
  refine .pure (.made erdp (dvd_erst hsize hseg htab hnull') ?_)
  rw [EventRing.initializeRing, allocArray_withErdp, hseg, EventRing.onBlock, if_neg hnull,
    allocArray_withErdp, htab]
  simp only [hnull', if_false, EventRing.writeDequeuePointer, EventRing.readErdp, Env.withErdp,
    BitField.put_get, List.nil_append]

/-- Interrupts are enabled. -/
theorem enableInterrupts_yields (idle : s.Idle b) :
    Yields (controller b) (fun _ t => ∃ i c, t = { s.wrote .iman i with usbcmd := c } ∧
      Iman.interruptEnable.get i = 1#1 ∧ Usbcmd.runStop.get c = 0#1 ∧
      Usbcmd.interrupterEnable.get c = 1#1) enableInterrupts s := by
  unfold enableInterrupts
  refine (modify_idle (r := .iman) idle idle.halted _).bind ?_
  rintro _ _ ⟨i, rfl⟩
  refine (read_halted (idle.wrote _ _).halted .iman).bind ?_
  rintro _ _ ⟨_, rfl⟩
  refine (modify_usbcmd_idle (idle.wrote _ _) ?_ ?_).mono ?_
  · intro v
    exact BitField.get_put_of_disjoint (by decide) _ _
  · intro v
    exact BitField.get_put_of_disjoint (by decide) _ _
  rintro _ _ ⟨c, rfl, hstop⟩
  exact ⟨_, _, rfl, BitField.get_put _ _ _, hstop, BitField.get_put _ _ _⟩

/-- What the controller has been told of the driver. -/
structure Hc.Told (s : Hc) (u : BroughtUp) : Prop where
  config : ∃ v, s.written .config =
    some (Config.maxDeviceSlotsEnabled.put v (BitVec.ofNat 8 kDeviceSize))
  dcbaap : s.written .dcbaap = some (Dcbaap.setPointer 0#64 u.contexts)
  crcr : ∃ v, s.written .crcr = some (registerCommandRing v u.driver.xhc.cr)
  erstsz : ∃ v, s.written .erstsz = some (Erstsz.eventRingSegmentTableSize.put v 1#16)
  erdp : s.written .erdp = some u.driver.er.erdp
  erstba : ∃ v, s.written .erstba = some (Erstba.setPointer v u.erst)
  iman : ∃ v, s.written .iman = some v ∧ Iman.interruptEnable.get v = 1#1
  interrupts : Usbcmd.interrupterEnable.get s.usbcmd = 1#1
  aligned : 64 ∣ u.erst.toNat

/-- It has all that it is to work with. -/
theorem Hc.Told.programmed {u : BroughtUp} (h : s.Told u) : s.Programmed := by
  rintro r (rfl | rfl | rfl | rfl | rfl | rfl)
  · obtain ⟨v, hv⟩ := h.config
    rw [hv]
    rfl
  · rw [h.dcbaap]
    rfl
  · obtain ⟨v, hv⟩ := h.crcr
    rw [hv]
    rfl
  · obtain ⟨v, hv⟩ := h.erstsz
    rw [hv]
    rfl
  · rw [h.erdp]
    rfl
  · obtain ⟨v, hv⟩ := h.erstba
    rw [hv]
    rfl

/-- What `Initialize` leaves on its side and on that of the controller, `call`
being what it returns according to the pool. -/
structure ControllerOutcome.Fits (b : Board) (call : Error × Option Driver)
    (entries : List (BitVec 64)) (contexts : BitVec 64) (o : ControllerOutcome) (t : Hc) :
    Prop where
  idle : t.Idle b
  returned : call = (o.1, o.2.1.map BroughtUp.driver)
  entries : o.2.2 = entries
  told : ∀ u ∈ o.2.1, t.Told u ∧ u.contexts = contexts

/-- From the rings on. -/
theorem programRings_yields (idle : s.Idle b) (env : Env) (maxPorts : BitVec 8)
    (entries : List (BitVec 64)) (devmgr : DeviceManager) (h : Host)
    (cr : Error × Ring × BitVec 64) {contexts : BitVec 64}
    (cursor : cr.1 = .kSuccess → CursorOk env.pool cr.2.2)
    (hconfig : ∃ v, s.written .config =
      some (Config.maxDeviceSlotsEnabled.put v (BitVec.ofNat 8 kDeviceSize)))
    (hdcbaap : s.written .dcbaap = some (Dcbaap.setPointer 0#64 contexts)) :
    Yields (controller b) (fun o t => ∃ erdp,
      o.Fits b (onCommandRing (Env.withErdp env erdp) maxPorts erdp devmgr h cr) entries contexts t)
      (programRings env maxPorts contexts entries devmgr h cr) s := by
  unfold programRings
  by_cases hring : cr.1 ≠ .kSuccess
  · rw [if_pos hring]
    refine .pure ⟨0#64, idle, ?_, rfl, nofun⟩
    rw [onCommandRing, if_pos hring]
    rfl
  rw [if_neg hring]
  refine (modify_idle (r := .crcr) idle idle.halted _).bind ?_
  rintro _ _ ⟨c, rfl⟩
  have idle₁ := idle.wrote .crcr (registerCommandRing c cr.2.1)
  refine (initializeOn_of_answers idle₁ (by decide) rfl rfl).bind ?_
  rintro _ _ (⟨failed, agrees⟩ | @⟨erdp, er, erst, h', v, w, aligned, agrees⟩)
  · refine .pure ⟨0#64, idle₁, ?_, rfl, nofun⟩
    rw [onCommandRing, if_neg hring]
    simp only [agrees, ne_eq, failed, not_false_eq_true, if_true]
    rfl
  have idle₂ := ((idle₁.wrote .erstsz (Erstsz.eventRingSegmentTableSize.put v 1#16)).wrote .erdp
    er.erdp).wrote .erstba (Erstba.setPointer w erst)
  refine (enableInterrupts_yields idle₂).bind ?_
  rintro _ _ ⟨i, c', rfl, henable, hstop, hinterrupts⟩
  refine .pure ⟨erdp, ⟨idle₂.owned, idle₂.halted, hstop⟩, ?_, rfl, ?_⟩
  · rw [onCommandRing, if_neg hring]
    simp only [agrees, ne_eq, not_true_eq_false, if_false]
    rfl
  rintro u ⟨⟩
  refine ⟨⟨hconfig, hdcbaap, ⟨c, ?_⟩, ⟨v, ?_⟩, ?_, ⟨w, ?_⟩, ⟨i, ?_, henable⟩, hinterrupts,
    aligned (cursor (not_not.mp hring))⟩, rfl⟩
  -- what was written last to each of the others
  all_goals rfl

/-! ## `Initialize` -/

theorem silent_ensures (b : Board) (s : Hc) (x : Except Fault α) :
    Ensures (controller b) (fun r t => r = x ∧ t = s) (silent x).run s :=
  .ret ⟨rfl, rfl⟩

theorem fillScratchpad_withErdp (env : Env) (erdp : BitVec 64) (h : Host) (n : Nat) :
    fillScratchpad (Env.withErdp env erdp) h n = fillScratchpad env h n := by
  induction n generalizing h with
  | zero => rfl
  | succ n ih =>
      rw [fillScratchpad, fillScratchpad, allocArray_withErdp, ih]

theorem writeScratchpad_withErdp (env : Env) (erdp : BitVec 64) (h : Host) (m : DeviceManager)
    (n : Nat) : m.writeScratchpad (Env.withErdp env erdp) h n = m.writeScratchpad env h n := by
  unfold DeviceManager.writeScratchpad
  simp only [allocArray_withErdp, fillScratchpad_withErdp]

theorem initializeTables_withErdp (env : Env) (erdp : BitVec 64) (h : Host) (maxSlots : Nat) :
    DeviceManager.initializeTables (Env.withErdp env erdp) h maxSlots =
      DeviceManager.initializeTables env h maxSlots := by
  unfold DeviceManager.initializeTables
  rw [allocArray_withErdp]
  rfl

/-- With tables, `Initialize` goes on with the scratchpad buffers. -/
theorem onTablesWithArray_withErdp (env : Env) (erdp : BitVec 64) (maxPorts : BitVec 8) (n : Nat)
    (devmgr : DeviceManager) (h : Host) :
    onTablesWithArray (Env.withErdp env erdp) maxPorts n erdp (.kSuccess, devmgr, h) =
      devmgr.writeScratchpad env h n >>= fun x =>
        let r := onCommandRing (Env.withErdp env erdp) maxPorts erdp x.2.1 x.2.2
          (Ring.initializeRing env.pool x.2.2.allocPtr 32)
        .ok (r.1, r.2, x.1) := by
  unfold onTablesWithArray
  rw [if_neg (not_not_intro rfl), writeScratchpad_withErdp]
  rfl

/-- What `Initialize` comes to, `call` being what it returns according to the
pool: the null pointer if the scratchpad buffer array is one, else a
controller that is halted, and that has been told of the driver if there is
one. -/
def ControllerOutcome.Settles (b : Board) (call : BitVec 64 → Except Fault (Error × Option Driver ×
    List (BitVec 64))) (contexts : BitVec 64) (r : Except Fault ControllerOutcome) (t : Hc) :
    Prop :=
  (∃ erdp, call erdp = (fun o => (o.1, o.2.1.map BroughtUp.driver, o.2.2)) <$> r) ∧ t.Idle b ∧
    ∀ o, r = .ok o → ∀ u ∈ o.2.1, t.Told u ∧ u.contexts = contexts

/-- `Initialize` once there are tables. -/
theorem resetAndProgram_ensures (found : s.owner = .firmware) (rest : s.AtRest) {steps : Nat}
    (hsteps : b.capabilities.length < steps) {env : Env} (maxPorts : BitVec 8)
    (contexts : BitVec 64) (devmgr : DeviceManager) {h : Host}
    (cursor : CursorOk env.pool h.allocPtr) :
    Ensures (controller b)
      (ControllerOutcome.Settles b (fun erdp => onTablesWithArray (Env.withErdp env erdp) maxPorts
        (maxScratchpadBuffers b.hcsparams2).toNat erdp (.kSuccess, devmgr, h)) contexts)
      (resetAndProgram env steps b.mmioBase maxPorts contexts devmgr h).run s := by
  unfold resetAndProgram
  refine (read_yields b s .hccparams1).seq ?_
  rintro _ _ ⟨p, hp, rfl, rfl⟩
  refine (requestOwnership_yields (s := { s with phase := p }) found hsteps).seq ?_
  rintro _ t claimed
  have hrest := (rest.later hp).congr claimed.phase claimed.usbcmd
  refine (haltController_yields claimed.owned hrest).seq ?_
  rintro _ t idle
  refine (resetController_yields idle).seq ?_
  rintro _ _ rfl
  have idle₁ : (Hc.afterReset t.owner .halted).Idle b := ⟨idle.owned, rfl, rfl⟩
  refine (read_halted idle₁.halted .hcsparams1).seq ?_
  rintro _ _ ⟨_, rfl⟩
  refine (modify_idle (r := .config) idle₁ idle₁.halted _).seq ?_
  rintro _ _ ⟨v, rfl⟩
  have idle₂ := idle₁.wrote .config
    (Config.maxDeviceSlotsEnabled.put v (BitVec.ofNat 8 kDeviceSize))
  refine (read_halted idle₂.halted .hcsparams2).seq ?_
  rintro _ _ ⟨rfl, rfl⟩
  refine Ensures.bindExcept (silent_ensures b _ _) ?_ ?_
  · rintro ⟨entries, devmgr', h'⟩ _ ⟨hstore, rfl⟩
    refine (write_idle (r := .dcbaap) idle₂ idle₂.halted _).seq ?_
    rintro _ _ rfl
    have idle₃ := idle₂.wrote .dcbaap (Dcbaap.setPointer 0#64 contexts)
    have hn : (maxScratchpadBuffers b.hcsparams2).toNat < 65536 := BitVec.isLt _
    have hcursor : CursorOk env.pool h'.allocPtr := by
      have hstored : devmgr.storeScratchpad env h (maxScratchpadBuffers b.hcsparams2).toNat =
          .ok (devmgr', h') := by
        rw [storeScratchpad_eq, ← hstore]
        rfl
      exact (storeScratchpad_ok cursor hn hstored).2.2.2
    refine Ensures.mono (programRings_yields idle₃ env maxPorts entries devmgr' h'
      (Ring.initializeRing env.pool h'.allocPtr 32)
      (fun hsuccess => (initializeRing_ok hcursor (by decide) rfl hsuccess).2.2) ⟨v, rfl⟩ rfl) ?_
    rintro _ t ⟨o, rfl, erdp, fits⟩
    refine ⟨⟨erdp, (onTablesWithArray_withErdp _ _ _ _ _ _).trans ?_⟩, fits.idle, ?_⟩
    · rw [← hstore]
      refine congrArg Except.ok ?_
      rw [fits.returned, ← fits.entries]
    · rintro _ ⟨⟩ u hu
      exact fits.told u hu
  · rintro f _ ⟨hstore, rfl⟩
    refine ⟨⟨0#64, (onTablesWithArray_withErdp _ _ _ _ _ _).trans ?_⟩, idle₂,
      fun _ returned => ?_⟩
    · rw [← hstore]
      rfl
    · cases returned

theorem initializeTablesAt_eq (env : Env) (h : Host) (maxSlots : Nat) :
    DeviceManager.initializeTables env h maxSlots =
      ((DeviceManager.initializeTablesAt env h maxSlots).1,
        (DeviceManager.initializeTablesAt env h maxSlots).2.2) := by
  unfold DeviceManager.initializeTables DeviceManager.initializeTablesAt
  simp only
  split
  · rfl
  split
  · rfl
  · rfl

/-- How `Initialize` may end. -/
structure Initialized (b : Board) (env : Env) (h : Host) (r : Except Fault ControllerOutcome)
    (t : Hc) : Prop where
  /-- it returns what the pool has it return -/
  returns : ∃ erdp, initializeWithArray (Env.withErdp env erdp)
    (Hcsparams1.maxPorts.get b.hcsparams1) b.hcsparams2 erdp h =
      (fun o => (o.1, o.2.1.map BroughtUp.driver, o.2.2)) <$> r
  /-- the controller is halted, unless there were no tables -/
  halted : t.Idle b ∨
    (∃ err, r = .ok (err, none, []) ∧ err ≠ .kSuccess) ∧ t.owner = .firmware ∧ t.AtRest
  /-- if there is a driver, the controller has been told of it -/
  told : ∀ o, r = .ok o → ∀ u ∈ o.2.1,
    t.Told u ∧ u.contexts = (DeviceManager.initializeTablesAt env h kDeviceSize).2.1

/-- **`Initialize`** comes to its end, whatever the pool has room for, and
asks nothing of the controller that it would not put up with. -/
theorem initializeHardware_ensures (found : s.owner = .firmware) (rest : s.AtRest) {steps : Nat}
    (hsteps : b.capabilities.length < steps) {env : Env} {h : Host}
    (cursor : CursorOk env.pool h.allocPtr) :
    Ensures (controller b) (Initialized b env h)
      (initializeHardware env steps b.mmioBase h).run s := by
  unfold initializeHardware
  refine (read_yields b s .hcsparams1).seq ?_
  rintro _ _ ⟨p, hp, rfl, rfl⟩
  have htables := initializeTablesAt_eq env h kDeviceSize
  have hanswer : TablesAlloc env h kDeviceSize _ := initializeTables_answer (by decide) cursor
  have hcall : ∀ erdp, initializeWithArray (Env.withErdp env erdp)
      (Hcsparams1.maxPorts.get b.hcsparams1) b.hcsparams2 erdp h =
      onTablesWithArray (Env.withErdp env erdp) (Hcsparams1.maxPorts.get b.hcsparams1)
        (maxScratchpadBuffers b.hcsparams2).toNat erdp
        (DeviceManager.initializeTables env h kDeviceSize) := by
    intro erdp
    rw [initializeWithArray, initializeTables_withErdp]
  rcases htab : DeviceManager.initializeTablesAt env h kDeviceSize with ⟨err, contexts, devmgr, h'⟩
  rw [htab] at htables
  rw [htables] at hcall hanswer
  cases hanswer with
  | failed err m h' failed full =>
      simp only [failed, ne_eq, not_false_eq_true, if_true]
      have hrest := rest.later hp
      refine Ensures.ret ⟨⟨0#64, (hcall 0#64).trans (if_pos failed)⟩,
        .inr ⟨⟨err, rfl, failed⟩, found, hrest⟩, ?_⟩
      rintro _ ⟨⟩ u ⟨⟩
  | made h' room _ cursor' =>
      simp only [ne_eq, not_true_eq_false, if_false]
      refine (resetAndProgram_ensures (s := { s with phase := p }) found (rest.later hp) hsteps _
        contexts _ cursor').mono ?_
      rintro r t ⟨⟨erdp, hreturns⟩, idle, told⟩
      refine ⟨⟨erdp, (hcall erdp).trans hreturns⟩, .inl idle, ?_⟩
      rw [htab]
      exact told

/-! ## `Run` -/

/-- The wait for the controller to run. -/
theorem waitRunning_yields {owner : Owner} {usbcmd : BitVec 32}
    {written : (r : Register) → Option (BitVec r.width)} {p : Phase}
    (hp : p = .running ∨ ∃ n, p = .starting n) :
    Yields (controller b) (fun _ t => t = ⟨owner, .running, usbcmd, written⟩)
      (accessUntil (.read .usbsts) fun v => Usbsts.hostControllerHalted.get v = 0#1)
      ⟨owner, p, usbcmd, written⟩ := by
  refine readUntil_yields .usbsts (fun t : Hc => t = ⟨owner, .running, usbcmd, written⟩ ∨
    ∃ m, t = ⟨owner, .starting m, usbcmd, written⟩) ?_ ?_ ?_
  · rintro t p v (rfl | ⟨m, rfl⟩) hp hv hrunning
    · cases hp with
      | running => rfl
    · have hzero : Usbsts.hostControllerHalted.get v = 0#1 := of_decide_eq_true hrunning
      cases hp with
      | starting => exact absurd ((hv.1 1#1 rfl).symm.trans hzero) (by decide)
      | started => rfl
  · rintro t p v hinv hp hv hrunning
    have hne : ¬ Usbsts.hostControllerHalted.get v = 0#1 := of_decide_eq_false hrunning
    rcases hinv with rfl | ⟨m, rfl⟩
    · cases hp with
      | running => exact absurd (hv.1 0#1 rfl) hne
    · cases hp with
      | starting => exact ⟨.inr ⟨_, rfl⟩, Nat.lt_succ_self _⟩
      | started => exact absurd (hv.1 0#1 rfl) hne
  · rcases hp with rfl | ⟨n, rfl⟩
    · exact .inl rfl
    · exact .inr ⟨n, rfl⟩

/-- The command to run. -/
theorem Hc.Idle.start_yields (idle : s.Idle b) (programmed : s.Programmed) :
    Yields (controller b) (fun _ t => ∃ n c, t = ⟨s.owner, .starting n, c, s.written⟩ ∧
      Usbcmd.runStop.get c = 1#1 ∧
      Usbcmd.interrupterEnable.get c = Usbcmd.interrupterEnable.get s.usbcmd)
      (modify .usbcmd fun usbcmd => Usbcmd.runStop.put usbcmd 1#1) s := by
  refine (read_halted idle.halted .usbcmd).bind ?_
  rintro (v : BitVec 32) s ⟨hv, rfl⟩
  have hvalue : v = Usbcmd.hostControllerReset.put s.usbcmd s.phase.hostControllerReset := hv
  have hgo : Usbcmd.runStop.get (Usbcmd.runStop.put v 1#1) = 1#1 := BitField.get_put _ _ _
  have hnoreset : Usbcmd.hostControllerReset.get (Usbcmd.runStop.put v 1#1) = 0#1 := by
    rw [BitField.get_put_of_disjoint (by decide), hvalue, BitField.get_put, idle.halted]
    rfl
  have hmay : s.MayCommand (Usbcmd.runStop.put v 1#1) := by
    refine ⟨?_, ?_, fun h => ?_, fun _ => .inr ⟨idle.halted, programmed⟩⟩
    · simp [idle.halted]
    · simp [idle.halted]
    · exact absurd (hnoreset.symm.trans h) (by decide)
  refine (command_yields idle.owned hmay).mono ?_
  rintro _ _ ⟨p, hp, rfl⟩
  rw [idle.halted] at hp
  obtain ⟨n, rfl⟩ := hp.of_start hgo hnoreset
  refine ⟨n, Usbcmd.runStop.put v 1#1, Hc.command_of_not_reset hnoreset, hgo, ?_⟩
  rw [BitField.get_put_of_disjoint (by decide), hvalue, BitField.get_put_of_disjoint (by decide)]

/-- **`Run`** starts a halted controller that has all it is to work with, and
waits until it runs. -/
theorem runController_yields (idle : s.Idle b) (programmed : s.Programmed) :
    Yields (controller b) (fun err t => err = .kSuccess ∧ t.phase = .running ∧
      t.written = s.written ∧ Usbcmd.runStop.get t.usbcmd = 1#1 ∧
      Usbcmd.interrupterEnable.get t.usbcmd = Usbcmd.interrupterEnable.get s.usbcmd)
      runController s := by
  unfold runController
  refine (idle.start_yields programmed).bind ?_
  rintro _ _ ⟨n, c, rfl, hgo, hinterrupts⟩
  refine (read_yields b _ .usbcmd).bind ?_
  rintro _ _ ⟨p, hp, rfl, _⟩
  have hphase : p = .running ∨ ∃ m, p = .starting m := by
    cases hp with
    | starting => exact .inr ⟨_, rfl⟩
    | started => exact .inl rfl
  refine (waitRunning_yields hphase).bind ?_
  rintro _ _ rfl
  exact .pure ⟨rfl, rfl, rfl, hgo, hinterrupts⟩

end MikanOs.Usb.Xhci
