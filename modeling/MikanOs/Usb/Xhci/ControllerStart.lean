import MikanOs.Usb.Xhci.BringUp

/-!
# MikanOs.Usb.Xhci.ControllerStart

`KernelMain` (`main.cpp`) calls `Initialize` and then `Run`, whatever the
former returns.  When the pool has room for what `Initialize` asks for
(`startRequests`), the controller runs in the end, and what it has been told
is what the driver goes by (`Hc.Knows`).
-/

namespace MikanOs.Usb.Xhci

open Interaction

/-! ## what is asked of the pool -/

/-- The requests for the rings: the command ring, the event ring and its
segment table. -/
def startRingRequests : List Request := [bufRequest 32, bufRequest 32, erstRequest]

/-- The requests `Initialize` makes for a controller that asks for so many
scratchpad buffers. -/
def startRequests (n : Nat) : List Request :=
  tableRequests kDeviceSize ++ ((if 0 < n then scratchpadRequests n else []) ++ startRingRequests)

variable {env : Env} {h : Host} {rs : List Request}

theorem fillScratchpad_of_room {n : Nat} (cursor : CursorOk env.pool h.allocPtr)
    (room : HasRoom env.pool h.allocPtr (List.replicate n scratchpadRequest ++ rs)) :
    CursorOk env.pool (fillScratchpad env h n).2.allocPtr ∧
      HasRoom env.pool (fillScratchpad env h n).2.allocPtr rs := by
  induction n generalizing h with
  | zero => exact ⟨cursor, room⟩
  | succ n ih =>
      rw [List.replicate_succ, List.cons_append] at room
      have hroom := (Host.hasRoom_cons scratchpadRequest_valid cursor _).mp room
      have hcursor := Host.cursorOk_grant scratchpadRequest_valid cursor
      rw [fillScratchpad_succ, allocScratchpadBuffer, Host.allocArray_eq, ← scratchpadRequest]
      exact ih hcursor hroom.2

/-- With room the array is not null, and what is left is left. -/
theorem writeScratchpad_of_room {n : Nat} (hn : n < 65536)
    (cursor : CursorOk env.pool h.allocPtr) (m : DeviceManager)
    (room : HasRoom env.pool h.allocPtr ((if 0 < n then scratchpadRequests n else []) ++ rs)) :
    ∃ entries m' h', m.writeScratchpad env h n = .ok (entries, m', h') ∧
      CursorOk env.pool h'.allocPtr ∧ HasRoom env.pool h'.allocPtr rs := by
  unfold DeviceManager.writeScratchpad
  by_cases hpos : 0 < n
  · rw [if_pos hpos] at room ⊢
    have hr : (Host.arrayRequest sizeofPointer n 64#32 4096#32).Valid :=
      table_valid hn (.inr ⟨6, rfl⟩) (.inr ⟨12, rfl⟩)
    have hroom := (Host.hasRoom_cons hr cursor _).mp room
    have hcursor := Host.cursorOk_grant hr cursor
    obtain ⟨hcursor', hroom'⟩ := fillScratchpad_of_room hcursor hroom.2
    rw [Host.allocArray_eq]
    simp only [hroom.1, if_false]
    exact ⟨_, _, _, rfl, hcursor', hroom'⟩
  · rw [if_neg hpos] at room ⊢
    exact ⟨_, _, _, rfl, cursor, room⟩

theorem onBlock_of_answers {bufSize : Nat} {x y : BitVec 64 × Host} (hx : x.1 ≠ 0#64)
    (hy : x.2.allocArray env EventRing.sizeofEntry 1 64#32 (BitVec.ofNat 32 (64 * 1024)) = y)
    (hnull : y.1 ≠ 0#64) (erdp : BitVec 64) :
    ∃ er h', EventRing.onBlock env erdp bufSize x = (.kSuccess, er, h') := by
  rw [EventRing.onBlock, if_neg hx, hy]
  simp only [hnull, if_false]
  exact ⟨_, _, rfl⟩

theorem initializeEventRing_of_room (cursor : CursorOk env.pool h.allocPtr)
    (room : HasRoom env.pool h.allocPtr [bufRequest 32, erstRequest]) (erdp : BitVec 64) :
    ∃ er h', EventRing.initializeRing env h erdp 32 = (.kSuccess, er, h') := by
  have hseg := (Host.hasRoom_cons buf32_valid cursor _).mp room
  have hcursor := Host.cursorOk_grant buf32_valid cursor
  have hbuf : Host.arrayRequest sizeofTRB 32 64#32 (BitVec.ofNat 32 (64 * 1024)) = bufRequest 32 :=
    rfl
  rw [EventRing.initializeRing, Host.allocArray_eq, hbuf]
  generalize h.grant ((bufRequest 32).serve env.pool h.allocPtr) = x at hseg hcursor
  have htab := ((Host.hasRoom_cons erstRequest_valid hcursor _).mp hseg.2).1
  refine onBlock_of_answers hseg.1 ?_ htab erdp
  rw [Host.allocArray_eq, ← erstRequest]

/-- With a block for the command ring and room for the event ring. -/
theorem onCommandRing_of_block {cr : BitVec 64 × BitVec 64} (hcr : cr.1 ≠ 0#64)
    (cursor : CursorOk env.pool cr.2) (room : HasRoom env.pool cr.2 [bufRequest 32, erstRequest])
    (maxPorts : BitVec 8) (erdp : BitVec 64) (m : DeviceManager) (h : Host) :
    ∃ d, onCommandRing env maxPorts erdp m h (Ring.onBlock 32 cr) = (.kSuccess, some d) := by
  have hring : ∃ er h', EventRing.initializeRing env { h with allocPtr := cr.2 } erdp 32 =
      (.kSuccess, er, h') :=
    initializeEventRing_of_room (h := { h with allocPtr := cr.2 }) cursor room erdp
  obtain ⟨er, h', her⟩ := hring
  have hsuccess : (Ring.onBlock 32 cr).1 = .kSuccess := if_neg hcr
  have hptr : (Ring.onBlock 32 cr).2.2 = cr.2 := rfl
  rw [onCommandRing, if_neg (not_not_intro hsuccess), hptr, her]
  exact ⟨_, rfl⟩

/-- With room there are rings. -/
theorem onCommandRing_of_room (cursor : CursorOk env.pool h.allocPtr)
    (room : HasRoom env.pool h.allocPtr startRingRequests) (maxPorts : BitVec 8)
    (erdp : BitVec 64) (m : DeviceManager) :
    ∃ d, onCommandRing env maxPorts erdp m h (Ring.initializeRing env.pool h.allocPtr 32) =
      (.kSuccess, some d) := by
  have hcr := (hasRoom_cons buf32_valid cursor _).mp room
  have hcursor := (allocMem_refines buf32_valid cursor).2.2
  rw [initializeRing_eq]
  exact onCommandRing_of_block hcr.1 hcursor hcr.2 maxPorts erdp m h

/-- With room for everything `Initialize` succeeds. -/
theorem initializeWithArray_of_room {hcsparams2 : BitVec 32}
    (cursor : CursorOk env.pool h.allocPtr)
    (room : HasRoom env.pool h.allocPtr (startRequests (scratchpadsAsked hcsparams2)))
    (maxPorts : BitVec 8) (erdp : BitVec 64) :
    ∃ d entries, initializeWithArray env maxPorts hcsparams2 erdp h =
      .ok (.kSuccess, some d, entries) := by
  have hle := scratchpadsAsked_le hcsparams2
  have hanswer : TablesAlloc env h kDeviceSize _ := initializeTables_answer (by decide) cursor
  rw [initializeWithArray, toNat_maxScratchpadBuffers]
  generalize DeviceManager.initializeTables env h kDeviceSize = a at hanswer
  cases hanswer with
  | failed err m h' failed full => exact absurd room.of_append full
  | made h' _ rest cursor' =>
      obtain ⟨entries, m', h'', hstore, hcursor, hroom⟩ :=
        writeScratchpad_of_room (by omega) cursor' (.empty kDeviceSize) ((rest _).mp room)
      obtain ⟨d, hd⟩ := onCommandRing_of_room hcursor hroom maxPorts erdp m'
      refine ⟨d, entries, ?_⟩
      rw [onTablesWithArray, if_neg (not_not_intro rfl), Returns.bind_ok hstore]
      simp only [hd]
      rfl

/-! ## what the controller knows -/

/-- What the controller has been told is what the driver goes by.  An array of
device contexts from 2 GiB on need not survive the write to `DCBAAP`
(`survives_iff`). -/
structure Hc.Knows (s : Hc) (u : BroughtUp) : Prop where
  slots : ∃ v, s.written .config = some v ∧
    (Config.maxDeviceSlotsEnabled.get v).toNat = u.driver.xhc.devmgr.maxSlots
  contexts : ∃ v, s.written .dcbaap = some v ∧
    (u.contexts.toNat < 2 ^ 31 → Dcbaap.pointer v = u.contexts)
  commandRing : ∃ v, s.written .crcr = some v ∧ Crcr.pointer v = u.driver.xhc.cr.buf ∧
    Crcr.ringCycleState.get v = BitVec.ofBool u.driver.xhc.cr.cycleBit ∧
    Crcr.commandStop.get v = 0#1 ∧ Crcr.commandAbort.get v = 0#1
  segments : ∃ v, s.written .erstsz = some v ∧ Erstsz.eventRingSegmentTableSize.get v = 1#16
  segment : u.driver.er.erst = ⟨u.driver.er.buf, BitVec.ofNat 16 u.driver.er.bufSize⟩
  segmentTable : ∃ v, s.written .erstba = some v ∧ Erstba.pointer v = u.erst
  dequeue : ∃ v, s.written .erdp = some v ∧ Erdp.pointer v = u.driver.er.buf
  interrupts : (∃ v, s.written .iman = some v ∧ Iman.interruptEnable.get v = 1#1) ∧
    Usbcmd.interrupterEnable.get s.usbcmd = 1#1

variable {b : Board} {s : Hc}

theorem Hc.Told.knows {u : BroughtUp} (told : s.Told u) (initialized : u.driver.Initialized)
    (contexts : 64 ∣ u.contexts.toNat) : s.Knows u := by
  have hcr : 64 ∣ u.driver.xhc.cr.buf.toNat := initialized.fresh.placed.aligned
  obtain ⟨slots, hslots⟩ := told.config
  obtain ⟨c, hc⟩ := told.crcr
  obtain ⟨v, hv⟩ := told.erstsz
  obtain ⟨w, hw⟩ := told.erstba
  have htells := registerCommandRing_tells c hcr
  refine ⟨⟨_, hslots, ?_⟩, ⟨_, told.dcbaap, fun hlow => ?_⟩, ⟨_, hc, htells.1, ?_, htells.2.2⟩,
    ⟨_, hv, BitField.get_put _ _ _⟩, initialized.er.erst, ⟨_, hw, ?_⟩, ⟨_, told.erdp, ?_⟩,
    told.iman, told.interrupts⟩
  · rw [BitField.get_put, initialized.maxSlots]
    rfl
  · exact ((survives_iff .dcbaap 0#64 contexts).mpr (.inr (.inl hlow))).pointer
  · rw [initialized.fresh.cycleBit]
    exact htells.2.1
  · exact AddressRegister.pointer_setPointer (r := .erstba) (by decide) w told.aligned
  · rw [initialized.er.pointer, Nat.zero_mod, entryAt_zero]

theorem initializeTablesAt_success {maxSlots : Nat} {x y : BitVec 64 × Host}
    (hx : h.allocArray env sizeofPointer (maxSlots + 1) 0#32 0#32 = x)
    (hy : x.2.allocArray env sizeofPointer (maxSlots + 1) 64#32 4096#32 = y)
    {contexts : BitVec 64} {m : DeviceManager} {h' : Host}
    (success : DeviceManager.initializeTablesAt env h maxSlots = (.kSuccess, contexts, m, h')) :
    contexts = y.1 ∧ y.1 ≠ 0#64 := by
  unfold DeviceManager.initializeTablesAt at success
  rw [hx] at success
  simp only at success
  rw [hy] at success
  split at success
  · exact absurd (Prod.mk.inj success).1 nofun
  split at success
  · exact absurd (Prod.mk.inj success).1 nofun
  · next hsecond => exact ⟨(Prod.mk.inj (Prod.mk.inj success).2).1.symm, hsecond⟩

/-- The array of device contexts is aligned to 64 bytes. -/
theorem dvd_contexts {maxSlots : Nat} (hsize : maxSlots + 1 < 65536)
    (cursor : CursorOk env.pool h.allocPtr) {contexts : BitVec 64} {m : DeviceManager} {h' : Host}
    (success : DeviceManager.initializeTablesAt env h maxSlots = (.kSuccess, contexts, m, h')) :
    64 ∣ contexts.toNat := by
  have hfirst : (Host.arrayRequest sizeofPointer (maxSlots + 1) 0#32 0#32).Valid :=
    table_valid hsize (.inl rfl) (.inl rfl)
  have hsecond : (Host.arrayRequest sizeofPointer (maxSlots + 1) 64#32 4096#32).Valid :=
    table_valid hsize (.inr ⟨6, rfl⟩) (.inr ⟨12, rfl⟩)
  have hcursor := Host.cursorOk_grant hfirst cursor
  obtain ⟨rfl, hnull⟩ := initializeTablesAt_success (Host.allocArray_eq _ _ _ _ _ _)
    (Host.allocArray_eq _ _ _ _ _ _) success
  exact dvd_of_serve hsecond hcursor (Host.grant_fst _ _).symm hnull rfl

/-! ## from `Initialize` to `Run` -/

/-- The part of `KernelMain` that sets up the controller. -/
def startController (env : Env) (steps : Nat) (mmioBase : BitVec 64) (h : Host) :
    Program ControllerOutcome := do
  let o ← initializeHardware env steps mmioBase h
  -- the error of `Initialize` is only logged
  let _ ← runController
  pure o

/-- What `Initialize` returns when it succeeds. -/
structure Readied (b : Board) (env : Env) (o : ControllerOutcome) (u : BroughtUp) : Prop where
  success : o.1 = .kSuccess
  driver : o.2.1 = some u
  initialized : u.driver.Initialized
  maxPorts : u.driver.xhc.maxPorts = Hcsparams1.maxPorts.get b.hcsparams1
  scratchpads : 0 < scratchpadsAsked b.hcsparams2 →
    ScratchpadReady env.pool (scratchpadsAsked b.hcsparams2)
      (u.driver.xhc.devmgr.deviceContextPointers 0#8) o.2.2

/-- Success means that there were tables. -/
theorem tables_of_success {maxPorts : BitVec 8} {hcsparams2 : BitVec 32} {erdp : BitVec 64}
    {d : Driver} {entries : List (BitVec 64)}
    {a : Error × BitVec 64 × DeviceManager × Host}
    (ha : DeviceManager.initializeTablesAt env h kDeviceSize = a)
    (success : initializeWithArray (Env.withErdp env erdp) maxPorts hcsparams2 erdp h =
      .ok (.kSuccess, some d, entries)) : a.1 = .kSuccess := by
  by_contra hfailed
  rw [initializeWithArray, initializeTables_withErdp, initializeTablesAt_eq, ha, onTablesWithArray,
    if_pos hfailed] at success
  exact Option.some_ne_none d (congrArg (fun o => o.2.1) (Except.ok.inj success)).symm

/-- What `Initialize` has done when it succeeds. -/
theorem driver_of_success {maxPorts : BitVec 8} {hcsparams2 : BitVec 32} {erdp : BitVec 64}
    {d : Driver} {entries : List (BitVec 64)} (cursor : CursorOk env.pool h.allocPtr)
    (room : HasRoom env.pool h.allocPtr (startRequests (scratchpadsAsked hcsparams2)))
    (success : initializeWithArray env maxPorts hcsparams2 erdp h =
      .ok (.kSuccess, some d, entries)) :
    d.Initialized ∧ d.xhc.maxPorts = maxPorts ∧
      (0 < scratchpadsAsked hcsparams2 → ScratchpadReady env.pool (scratchpadsAsked hcsparams2)
        (d.xhc.devmgr.deviceContextPointers 0#8) entries) := by
  have hcontroller := initializeController_eq env maxPorts hcsparams2 erdp h
  rw [success] at hcontroller
  obtain ⟨hinit, hports, _⟩ := initializeController_ok cursor (BitVec.isLt _) hcontroller
  refine ⟨hinit, hports, fun hpos => ?_⟩
  have hroom : HasRoom env.pool h.allocPtr
      (tableRequests kDeviceSize ++ scratchpadRequests (scratchpadsAsked hcsparams2)) := by
    rw [startRequests, if_pos hpos, ← List.append_assoc] at room
    exact room.of_append
  obtain ⟨_, _, _, hret, _, hready⟩ :=
    (scratchpad_reported_iff maxPorts hcsparams2 erdp cursor).mpr fun _ => .inr hroom
  rw [success] at hret
  simp only [Except.ok.injEq, Prod.mk.injEq] at hret
  obtain ⟨rfl, hd, rfl⟩ := hret
  obtain ⟨driver, hdriver, ready⟩ := (hready rfl).resolve_left (Nat.ne_of_gt hpos)
  obtain rfl := Option.some.inj (hd.trans hdriver)
  exact ready

/-- `Initialize`, with room in the pool. -/
theorem started_of_initialized (cursor : CursorOk env.pool h.allocPtr)
    (room : HasRoom env.pool h.allocPtr (startRequests (scratchpadsAsked b.hcsparams2)))
    {r : Except Fault ControllerOutcome} (ends : Initialized b env h r s) :
    ∃ o, r = .ok o ∧ ∃ u, Readied b env o u ∧ s.Idle b ∧ s.Told u ∧ s.Knows u := by
  obtain ⟨erdp, hreturns⟩ := ends.returns
  have hcursor : CursorOk (Env.withErdp env erdp).pool h.allocPtr := cursor
  obtain ⟨d, entries, hsuccess⟩ := initializeWithArray_of_room hcursor room
    (Hcsparams1.maxPorts.get b.hcsparams1) erdp
  rw [hsuccess] at hreturns
  cases r with
  | error f => exact absurd hreturns nofun
  | ok o =>
      obtain ⟨err, u?, entries'⟩ := o
      have heq := Except.ok.inj hreturns
      simp only [Prod.mk.injEq] at heq
      obtain ⟨rfl, hdriver, rfl⟩ := heq
      cases u? with
      | none => exact absurd hdriver nofun
      | some u =>
          obtain rfl := Option.some.inj hdriver
          have hidle : s.Idle b := by
            rcases ends.halted with hidle | ⟨⟨_, heq, _⟩, _⟩
            · exact hidle
            · exact absurd (congrArg (fun o => o.2.1) (Except.ok.inj heq)) nofun
          obtain ⟨told, hcontexts⟩ := ends.told _ rfl u rfl
          obtain ⟨hinit, hports, hready⟩ := driver_of_success hcursor room hsuccess
          have hdvd : 64 ∣ u.contexts.toNat := by
            rcases htab : DeviceManager.initializeTablesAt env h kDeviceSize with ⟨e, c, m, h'⟩
            obtain rfl : e = .kSuccess := tables_of_success htab hsuccess
            rw [hcontexts, htab]
            exact dvd_contexts (by decide) cursor htab
          exact ⟨_, rfl, u, ⟨rfl, rfl, hinit, hports, hready⟩, hidle, told, told.knows hinit hdvd⟩

/-- What `Run` changes is nothing the controller was told. -/
theorem Hc.Knows.of_written {t : Hc} {u : BroughtUp} (h : s.Knows u)
    (hwritten : t.written = s.written)
    (hinterrupts : Usbcmd.interrupterEnable.get t.usbcmd = Usbcmd.interrupterEnable.get s.usbcmd) :
    t.Knows u := by
  obtain ⟨slots, contexts, commandRing, segments, segment, segmentTable, dequeue, interrupts⟩ := h
  rw [← hwritten] at slots contexts commandRing segments segmentTable dequeue interrupts
  exact ⟨slots, contexts, commandRing, segments, segment, segmentTable, dequeue, interrupts.1,
    hinterrupts.trans interrupts.2⟩

theorem startController_yields (found : s.owner = .firmware) (rest : s.AtRest) {steps : Nat}
    (hsteps : b.capabilities.length < steps) (cursor : CursorOk env.pool h.allocPtr)
    (room : HasRoom env.pool h.allocPtr (startRequests (scratchpadsAsked b.hcsparams2))) :
    Yields (controller b)
      (fun o t => ∃ u, Readied b env o u ∧ t.phase = .running ∧ t.Knows u)
      (startController env steps b.mmioBase h) s := by
  have hinit : Yields (controller b)
      (fun o t => ∃ u, Readied b env o u ∧ Hc.Idle b t ∧ Hc.Told t u ∧ Hc.Knows t u)
      (initializeHardware env steps b.mmioBase h) s :=
    (initializeHardware_ensures found rest hsteps cursor).mono
      fun _ _ ends => started_of_initialized cursor room ends
  refine hinit.bind ?_
  rintro o t ⟨u, ready, idle, told, knows⟩
  refine (runController_yields idle told.programmed).bind ?_
  rintro _ t' ⟨_, hrunning, hwritten, _, hinterrupts⟩
  exact .pure ⟨u, ready, hrunning, knows.of_written hwritten hinterrupts⟩

/-- What the driver and the controller have come to. -/
def Started (b : Board) (env : Env) (r : Except Fault ControllerOutcome) (t : Hc) : Prop :=
  ∃ o, r = .ok o ∧ ∃ u, Readied b env o u ∧ t.phase = .running ∧ t.Knows u

/-- **The controller is started**, if the pool has room for what it needs:
however long it takes over each step, and however the firmware has left it,
the driver comes to the end of `Run`, does nothing on the way there that the
controller would not put up with, and leaves it running with all that it has
to know, the array of device contexts included if it lies below 2 GiB. -/
theorem startController_runs (found : s.owner = .firmware) (rest : s.AtRest) {steps : Nat}
    (hsteps : b.capabilities.length < steps) (cursor : CursorOk env.pool h.allocPtr)
    (room : HasRoom env.pool h.allocPtr (startRequests (scratchpadsAsked b.hcsparams2))) :
    Runs (controller b) (Started b env) ((startController env steps b.mmioBase h).run, s) :=
  ensures_iff.mp (startController_yields found rest hsteps cursor room)

/-- A controller with four ports that wants two scratchpad buffers, and that
the firmware has to let go of. -/
def sampleBoard : Board where
  mmioBase := 0x1000#64
  hcsparams1 := 0x04000008#32
  hcsparams2 := 0x10000000#32
  hccparams1 := 0x00080000#32
  mmio := sampleMmio
  capabilities := [0x1020#64, 0x1030#64]
  visits := .visit (a := 0x1020#64) (.visit (a := 0x1030#64) .stop)

theorem startController_runs_sample :
    Runs (controller sampleBoard) (Started sampleBoard (Env.zero poolAtMiB))
      ((startController (Env.zero poolAtMiB) 3 0x1000#64 ⟨0x100000#64, []⟩).run,
        ⟨.firmware, .running, 0x5#32, fun _ => none⟩) :=
  startController_runs (b := sampleBoard) rfl (.running rfl (by decide)) (by decide)
    (cursorOk_base poolAtMiB) (by decide +kernel)

/-- **`Initialize` alone** needs no room for that: whatever it gets from the
pool, it comes to its end and does nothing that the controller would not put
up with.  How it ends is decided by the pool: it returns, or, when the array
for the scratchpad buffers has been refused, writes to the null pointer.  It
leaves the controller halted, once it has tables. -/
theorem initializeHardware_runs (found : s.owner = .firmware) (rest : s.AtRest) {steps : Nat}
    (hsteps : b.capabilities.length < steps) (cursor : CursorOk env.pool h.allocPtr) :
    Runs (controller b) (Initialized b env h)
      ((initializeHardware env steps b.mmioBase h).run, s) :=
  ensures_iff.mp (initializeHardware_ensures found rest hsteps cursor)

/-- The same controller, if it wants no scratchpad buffers. -/
def boardWithoutScratchpad : Board := { sampleBoard with hcsparams2 := 0#32 }

/-- With room for the tables and the command ring, and none for the event
ring: it returns an error. -/
theorem initializeHardware_runs_sample :
    (initializeWithArray (Env.zero poolAtMiB)
        (Hcsparams1.maxPorts.get boardWithoutScratchpad.hcsparams1)
        boardWithoutScratchpad.hcsparams2 0#64 ⟨0x11fc00#64, []⟩).toOption.map (·.1) =
      some .kNoEnoughMemory ∧
    Runs (controller boardWithoutScratchpad)
      (Initialized boardWithoutScratchpad (Env.zero poolAtMiB) ⟨0x11fc00#64, []⟩)
      ((initializeHardware (Env.zero poolAtMiB) 3 0x1000#64 ⟨0x11fc00#64, []⟩).run,
        ⟨.firmware, .halting 4, 0x4#32, fun _ => none⟩) :=
  ⟨by decide +kernel, initializeHardware_runs (b := boardWithoutScratchpad) rfl
    (.halting 4 rfl (by decide)) (by decide) ⟨by decide, by decide⟩⟩

end MikanOs.Usb.Xhci
