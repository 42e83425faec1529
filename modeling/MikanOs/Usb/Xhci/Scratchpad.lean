import MikanOs.Usb.Xhci.Initialize
import MikanOs.Usb.Xhci.PoolRoom

/-!
# MikanOs.Usb.Xhci.Scratchpad

The scratchpad buffers of the controller: how many it asks for, and what
`Controller::Initialize` writes to the array it gives the controller.  For
the rest of the driver the array is a number of blocks less in the pool
(`storeScratchpad_eq`); here its entries count, for the controller writes to
the pages they point at.

`Initialize` looks neither at the address of the array nor at what it gets
for the entries, so it is right just when the pool has room for everything.
-/

namespace MikanOs.Usb.Xhci

/-! ## the code -/

namespace Hcsparams2

def maxScratchpadBuffersHigh : BitField 32 5 := ⟨21, by decide⟩
def maxScratchpadBuffersLow : BitField 32 5 := ⟨27, by decide⟩

end Hcsparams2

/-- `max_scratchpad_buffers`: the fields are combined as `int`s. -/
def maxScratchpadBuffers (hcsparams2 : BitVec 32) : BitVec 16 :=
  ((Hcsparams2.maxScratchpadBuffersLow.get hcsparams2).setWidth 32 |||
    (Hcsparams2.maxScratchpadBuffersHigh.get hcsparams2).setWidth 32 <<< 5).setWidth 16

/-- The entries of the array, and the host once they are written. -/
def fillScratchpad (env : Env) (h : Host) : Nat → List (BitVec 64) × Host
  | 0 => ([], h)
  | n + 1 =>
      let a := h.allocArray env 1 4096 4096#32 4096#32
      let r := fillScratchpad env a.2 n
      (a.1 :: r.1, r.2)

/-- The part of `Initialize` about them, with the entries of the array. -/
def DeviceManager.writeScratchpad (env : Env) (h : Host) (m : DeviceManager) (n : Nat) :
    Except Fault (List (BitVec 64) × DeviceManager × Host) :=
  if 0 < n then
    let a := h.allocArray env sizeofPointer n 64#32 4096#32
    -- the first entry is written to whatever address this is
    if a.1 = 0#64 then throw .nullPointer
    else
      let r := fillScratchpad env a.2 n
      pure (r.1, { m with deviceContextPointers := update m.deviceContextPointers 0#8 a.1 }, r.2)
  else pure ([], m, h)

/-- `Initialize` once there are tables, with the entries of the array. -/
def onTablesWithArray (env : Env) (maxPorts : BitVec 8) (n : Nat) (erdp : BitVec 64)
    (a : Error × DeviceManager × Host) :
    Except Fault (Error × Option Driver × List (BitVec 64)) :=
  if a.1 ≠ .kSuccess then pure (a.1, none, [])
  else do
    let (entries, devmgr, h) ← a.2.1.writeScratchpad env a.2.2 n
    let r := onCommandRing env maxPorts erdp devmgr h (Ring.initializeRing env.pool h.allocPtr 32)
    pure (r.1, r.2, entries)

/-- `Initialize`, with the entries of the array. -/
def initializeWithArray (env : Env) (maxPorts : BitVec 8) (hcsparams2 : BitVec 32)
    (erdp : BitVec 64) (h : Host) : Except Fault (Error × Option Driver × List (BitVec 64)) :=
  onTablesWithArray env maxPorts (maxScratchpadBuffers hcsparams2).toNat erdp
    (DeviceManager.initializeTables env h kDeviceSize)

/-! ## without the entries -/

theorem fillScratchpad_succ (env : Env) (h : Host) (n : Nat) : fillScratchpad env h (n + 1) =
    ((h.allocArray env 1 4096 4096#32 4096#32).1 ::
        (fillScratchpad env (allocScratchpadBuffer env h) n).1,
      (fillScratchpad env (allocScratchpadBuffer env h) n).2) := by
  rw [fillScratchpad, allocScratchpadBuffer]

theorem fillScratchpad_snd (env : Env) (h : Host) (n : Nat) :
    (fillScratchpad env h n).2 = allocScratchpadBuffers env h n := by
  induction n generalizing h with
  | zero => rfl
  | succ n ih =>
      rw [fillScratchpad_succ, ih, allocScratchpadBuffers, allocScratchpadBuffers,
        Function.iterate_succ_apply]

/-- With an answer for the array. -/
theorem storeScratchpad_of_answer (env : Env) (m : DeviceManager) (n : Nat)
    (a : BitVec 64 × Host) :
    (if a.1 = 0#64 then throw .nullPointer
    else pure ({ m with deviceContextPointers := update m.deviceContextPointers 0#8 a.1 },
      allocScratchpadBuffers env a.2 n) : Except Fault (DeviceManager × Host)) =
      Prod.snd <$> (if a.1 = 0#64 then throw .nullPointer
      else pure ((fillScratchpad env a.2 n).1,
        { m with deviceContextPointers := update m.deviceContextPointers 0#8 a.1 },
        (fillScratchpad env a.2 n).2) :
          Except Fault (List (BitVec 64) × DeviceManager × Host)) := by
  rw [fillScratchpad_snd]
  split <;> rfl

theorem storeScratchpad_eq (env : Env) (h : Host) (m : DeviceManager) (n : Nat) :
    m.storeScratchpad env h n = Prod.snd <$> m.writeScratchpad env h n := by
  unfold DeviceManager.storeScratchpad DeviceManager.writeScratchpad
  by_cases hn : 0 < n
  · rw [if_pos hn, if_pos hn]
    exact storeScratchpad_of_answer env m n _
  · rw [if_neg hn, if_neg hn]
    rfl

theorem onTables_eq (env : Env) (maxPorts : BitVec 8) (n : Nat) (erdp : BitVec 64)
    (a : Error × DeviceManager × Host) : onTables env maxPorts n erdp a =
      (fun r => (r.1, r.2.1)) <$> onTablesWithArray env maxPorts n erdp a := by
  unfold onTables onTablesWithArray
  by_cases herr : a.1 ≠ .kSuccess
  · rw [if_pos herr, if_pos herr]
    rfl
  · rw [if_neg herr, if_neg herr, storeScratchpad_eq]
    cases a.2.1.writeScratchpad env a.2.2 n with
    | error f => rfl
    | ok r =>
        obtain ⟨entries, devmgr, h'⟩ := r
        have hforget : ∀ x : Error × Option Driver, (pure x : Except Fault _) =
            (fun r => (r.1, r.2.1)) <$> pure (x.1, x.2, entries) := fun _ => rfl
        exact hforget (onCommandRing env maxPorts erdp devmgr h'
          (Ring.initializeRing env.pool h'.allocPtr 32))

/-- It is the `Initialize` the driver starts from. -/
theorem initializeController_eq (env : Env) (maxPorts : BitVec 8) (hcsparams2 : BitVec 32)
    (erdp : BitVec 64) (h : Host) :
    initializeController env maxPorts (maxScratchpadBuffers hcsparams2).toNat erdp h =
      (fun r => (r.1, r.2.1)) <$> initializeWithArray env maxPorts hcsparams2 erdp h :=
  onTables_eq env maxPorts _ erdp _

/-! ## how many -/

/-- The number a controller asks for. -/
def scratchpadsAsked (hcsparams2 : BitVec 32) : Nat :=
  32 * (Hcsparams2.maxScratchpadBuffersHigh.get hcsparams2).toNat +
    (Hcsparams2.maxScratchpadBuffersLow.get hcsparams2).toNat

theorem toNat_maxScratchpadBuffers (hcsparams2 : BitVec 32) :
    (maxScratchpadBuffers hcsparams2).toNat = scratchpadsAsked hcsparams2 := by
  unfold maxScratchpadBuffers scratchpadsAsked
  generalize Hcsparams2.maxScratchpadBuffersHigh.get hcsparams2 = hi
  generalize Hcsparams2.maxScratchpadBuffersLow.get hcsparams2 = lo
  have hhi := hi.isLt
  have hlo := lo.isLt
  have hlo' : lo.toNat % 2 ^ 32 = lo.toNat := Nat.mod_eq_of_lt (by omega)
  have hhi' : hi.toNat % 2 ^ 32 = hi.toNat := Nat.mod_eq_of_lt (by omega)
  have hshift : hi.toNat * 2 ^ 5 % 2 ^ 32 = 2 ^ 5 * hi.toNat := by omega
  have hor := Nat.two_pow_add_eq_or_of_lt hlo hi.toNat
  simp only [BitVec.toNat_setWidth, BitVec.toNat_or, BitVec.toNat_shiftLeft, Nat.shiftLeft_eq,
    hlo', hhi', hshift]
  rw [Nat.or_comm, ← hor]
  omega

theorem scratchpadsAsked_le (hcsparams2 : BitVec 32) : scratchpadsAsked hcsparams2 ≤ 1023 := by
  have hhi := (Hcsparams2.maxScratchpadBuffersHigh.get hcsparams2).isLt
  have hlo := (Hcsparams2.maxScratchpadBuffersLow.get hcsparams2).isLt
  unfold scratchpadsAsked
  omega

/-! ## what is asked of the pool -/

/-- The request for a scratchpad buffer. -/
def scratchpadRequest : Request := Host.arrayRequest 1 4096 4096#32 4096#32

theorem scratchpadRequest_valid : scratchpadRequest.Valid :=
  ⟨by decide +kernel, .inr ⟨12, rfl⟩, .inr ⟨12, rfl⟩⟩

/-- The requests for the array and for the buffers. -/
def scratchpadRequests (n : Nat) : List Request :=
  Host.arrayRequest sizeofPointer n 64#32 4096#32 :: List.replicate n scratchpadRequest

theorem scratchpadRequests_valid {n : Nat} (hn : n < 65536) :
    ∀ r ∈ scratchpadRequests n, r.Valid := by
  rw [scratchpadRequests, List.forall_mem_cons]
  refine ⟨table_valid hn (.inr ⟨6, rfl⟩) (.inr ⟨12, rfl⟩), fun r hr => ?_⟩
  rw [List.eq_of_mem_replicate hr]
  exact scratchpadRequest_valid

/-- The requests for the tables of the device manager. -/
def tableRequests (maxSlots : Nat) : List Request :=
  [Host.arrayRequest sizeofPointer (maxSlots + 1) 0#32 0#32,
    Host.arrayRequest sizeofPointer (maxSlots + 1) 64#32 4096#32]

/-! ## what comes of it -/

/-- The entries are the blocks of a run of calls. -/
theorem fillScratchpad_fst (env : Env) (h : Host) (n : Nat) :
    (fillScratchpad env h n).1.map (Block.mk scratchpadRequest) =
      runCalls env.pool h.allocPtr ((List.replicate n scratchpadRequest).map .allocMem) := by
  induction n generalizing h with
  | zero => rfl
  | succ n ih =>
      rw [fillScratchpad_succ, List.map_cons, ih, List.replicate_succ, List.map_cons, runCalls]
      rw [allocScratchpadBuffer, Host.allocArray_eq, Host.grant_fst, Host.grant_allocPtr,
        ← scratchpadRequest]

/-- What comes of the part of `Initialize` about scratchpad buffers, when some
are asked for: the array is written to the null address, or a run of calls has
been made for the array and the buffers. -/
inductive ScratchpadAlloc (env : Env) (h : Host) (m : DeviceManager) (n : Nat) :
    Except Fault (List (BitVec 64) × DeviceManager × Host) → Prop
  | null (full : ¬ HasRoom env.pool h.allocPtr (scratchpadRequests n)) :
      ScratchpadAlloc env h m n (.error .nullPointer)
  | written (array : BitVec 64) (entries : List (BitVec 64)) (h' : Host) (nonnull : array ≠ 0#64)
      (blocks : runCalls env.pool h.allocPtr ((scratchpadRequests n).map .allocMem) =
        ⟨Host.arrayRequest sizeofPointer n 64#32 4096#32, array⟩ ::
          entries.map (Block.mk scratchpadRequest)) :
      ScratchpadAlloc env h m n (.ok (entries,
        { m with deviceContextPointers := update m.deviceContextPointers 0#8 array }, h'))

/-- By the answer for the array and what becomes of the entries. -/
theorem scratchpadAlloc_of_answer (env : Env) (h : Host) (m : DeviceManager) (n : Nat)
    {a : BitVec 64 × BitVec 64} {r : List (BitVec 64) × Host}
    (full : a.1 = 0#64 → ¬ HasRoom env.pool h.allocPtr (scratchpadRequests n))
    (blocks : runCalls env.pool h.allocPtr ((scratchpadRequests n).map .allocMem) =
      ⟨Host.arrayRequest sizeofPointer n 64#32 4096#32, a.1⟩ ::
        r.1.map (Block.mk scratchpadRequest)) :
    ScratchpadAlloc env h m n
      (if (h.grant a).1 = 0#64 then throw .nullPointer
      else pure (r.1, { m with
        deviceContextPointers := update m.deviceContextPointers 0#8 (h.grant a).1 }, r.2)) := by
  by_cases hnull : a.1 = 0#64
  · rw [Host.grant_fst, if_pos hnull]
    exact .null (full hnull)
  · rw [Host.grant_fst, if_neg hnull]
    exact .written _ _ _ hnull blocks

theorem writeScratchpad_answer {env : Env} {h : Host} (m : DeviceManager) {n : Nat} (hpos : 0 < n)
    (hn : n < 65536) (cursor : CursorOk env.pool h.allocPtr) :
    ScratchpadAlloc env h m n (m.writeScratchpad env h n) := by
  have hr : (Host.arrayRequest sizeofPointer n 64#32 4096#32).Valid :=
    table_valid hn (.inr ⟨6, rfl⟩) (.inr ⟨12, rfl⟩)
  unfold DeviceManager.writeScratchpad
  rw [if_pos hpos, Host.allocArray_eq]
  refine scratchpadAlloc_of_answer env h m n (fun hnull room => ?_) ?_
  · exact ((hasRoom_cons hr cursor _).mp room).1 hnull
  · rw [fillScratchpad_fst, Host.grant_allocPtr, scratchpadRequests, List.map_cons, runCalls]

/-- What comes of the tables of the device manager. -/
inductive TablesAlloc (env : Env) (h : Host) (maxSlots : Nat) : Error × DeviceManager × Host → Prop
  | failed (err : Error) (m : DeviceManager) (h' : Host) (failed : err ≠ .kSuccess)
      (full : ¬ HasRoom env.pool h.allocPtr (tableRequests maxSlots)) :
      TablesAlloc env h maxSlots (err, m, h')
  | made (h' : Host) (room : HasRoom env.pool h.allocPtr (tableRequests maxSlots))
      (rest : ∀ rs, HasRoom env.pool h.allocPtr (tableRequests maxSlots ++ rs) ↔
        HasRoom env.pool h'.allocPtr rs) (cursor : CursorOk env.pool h'.allocPtr) :
      TablesAlloc env h maxSlots (.kSuccess, .empty maxSlots, h')

/-- By the answers for the two of them. -/
theorem tablesAlloc_of_answers (env : Env) (h : Host) (maxSlots : Nat)
    {a b : BitVec 64 × Host}
    (room : ∀ rs, HasRoom env.pool h.allocPtr (tableRequests maxSlots ++ rs) ↔
      a.1 ≠ 0#64 ∧ b.1 ≠ 0#64 ∧ HasRoom env.pool b.2.allocPtr rs)
    (cursor : CursorOk env.pool b.2.allocPtr) :
    TablesAlloc env h maxSlots
      (if a.1 = 0#64 then (.kNoEnoughMemory, .empty maxSlots, a.2)
      else if b.1 = 0#64 then (.kNoEnoughMemory, .empty maxSlots, b.2)
      else (.kSuccess, .empty maxSlots, b.2)) := by
  have htables := room []
  rw [List.append_nil] at htables
  by_cases hfirst : a.1 = 0#64
  · rw [if_pos hfirst]
    exact .failed _ _ _ nofun fun h => (htables.mp h).1 hfirst
  rw [if_neg hfirst]
  by_cases hsecond : b.1 = 0#64
  · rw [if_pos hsecond]
    exact .failed _ _ _ nofun fun h => (htables.mp h).2.1 hsecond
  · rw [if_neg hsecond]
    refine .made _ (htables.mpr ⟨hfirst, hsecond, trivial⟩) (fun rs => (room rs).trans ?_) cursor
    exact ⟨fun h => h.2.2, fun h => ⟨hfirst, hsecond, h⟩⟩

theorem initializeTables_answer {env : Env} {h : Host} {maxSlots : Nat}
    (hsize : maxSlots + 1 < 65536) (cursor : CursorOk env.pool h.allocPtr) :
    TablesAlloc env h maxSlots (DeviceManager.initializeTables env h maxSlots) := by
  have hfirst : (Host.arrayRequest sizeofPointer (maxSlots + 1) 0#32 0#32).Valid :=
    table_valid hsize (.inl rfl) (.inl rfl)
  have hsecond : (Host.arrayRequest sizeofPointer (maxSlots + 1) 64#32 4096#32).Valid :=
    table_valid hsize (.inr ⟨6, rfl⟩) (.inr ⟨12, rfl⟩)
  have hok := Host.cursorOk_grant hfirst cursor
  refine tablesAlloc_of_answers env h maxSlots (fun rs => ?_) (Host.cursorOk_grant hsecond hok)
  exact (Host.hasRoom_cons hfirst cursor _).trans
    (and_congr_right fun _ => Host.hasRoom_cons hsecond hok rs)

/-! ## complete or reported -/

/-- What a controller needs that asks for so many scratchpad buffers. -/
structure ScratchpadReady (pool : MemoryPool) (n : Nat) (array : BitVec 64)
    (entries : List (BitVec 64)) : Prop where
  length : entries.length = n
  array : pool.base.toNat ≤ array.toNat ∧
    array.toNat + sizeofPointer * n ≤ pool.base.toNat + kMemoryPoolSize
  pages : ∀ e ∈ entries, e ≠ 0#64 ∧ 4096 ∣ e.toNat ∧ pool.base.toNat ≤ e.toNat ∧
    e.toNat + 4096 ≤ pool.base.toNat + kMemoryPoolSize
  apart : entries.Pairwise fun e e' => e.toNat + 4096 ≤ e'.toNat ∨ e'.toNat + 4096 ≤ e.toNat

/-- What `Initialize` owes: no null entry, and with its success an array for the
buffers that are asked for. -/
def ScratchpadReported (pool : MemoryPool) (n : Nat)
    (call : Except Fault (Error × Option Driver × List (BitVec 64))) : Prop :=
  ∃ err d entries, call = .ok (err, d, entries) ∧ (∀ e ∈ entries, e ≠ 0#64) ∧
    (err = .kSuccess → n = 0 ∨ ∃ driver, d = some driver ∧
      ScratchpadReady pool n (driver.xhc.devmgr.deviceContextPointers 0#8) entries)

theorem not_scratchpadReported_error (pool : MemoryPool) (n : Nat) (f : Fault) :
    ¬ ScratchpadReported pool n (.error f) := by
  rintro ⟨_, _, _, hret, _⟩
  contradiction

theorem stop_scratchpad (e : BitVec 64) : (Block.mk scratchpadRequest e).stop = e.toNat + 4096 := by
  have hsize : scratchpadRequest.size.toNat = 4096 := by decide +kernel
  rw [Block.stop, Block.mk_ptr, hsize]

theorem stop_array {n : Nat} (hn : n < 65536) (array : BitVec 64) :
    (Block.mk (Host.arrayRequest sizeofPointer n 64#32 4096#32) array).stop =
      array.toNat + sizeofPointer * n := by
  rw [Block.stop, Block.mk_ptr, Host.arrayRequest, BitVec.toNat_mul, BitVec.toNat_ofNat,
    BitVec.toNat_ofNat]
  unfold sizeofPointer
  omega

/-- The blocks of a run of calls, if none is null, are what the controller
needs. -/
theorem scratchpadReady_of_blocks {pool : MemoryPool} {p : BitVec 64} {n : Nat} {array : BitVec 64}
    {entries : List (BitVec 64)} (hn : n < 65536) (cursor : CursorOk pool p)
    (blocks : runCalls pool p ((scratchpadRequests n).map .allocMem) =
      ⟨Host.arrayRequest sizeofPointer n 64#32 4096#32, array⟩ ::
        entries.map (Block.mk scratchpadRequest))
    (nonnull : array ≠ 0#64) (granted : ∀ e ∈ entries, e ≠ 0#64) :
    ScratchpadReady pool n array entries := by
  have hvalid : ∀ c ∈ (scratchpadRequests n).map Call.allocMem, c.Valid :=
    List.forall_mem_map.mpr (scratchpadRequests_valid hn)
  have hlength := length_runCalls pool p (scratchpadRequests n)
  obtain ⟨hsound, hapart⟩ := runCalls_sound cursor hvalid
  rw [blocks] at hlength hsound hapart
  rw [List.forall_mem_cons, List.forall_mem_map] at hsound
  rw [List.pairwise_cons, List.pairwise_map] at hapart
  obtain ⟨hlow, hhigh⟩ := (hsound.1 nonnull).inside
  rw [stop_array hn] at hhigh
  refine ⟨?_, ⟨hlow, hhigh⟩, fun e he => ?_, ?_⟩
  · rw [List.length_cons, List.length_map, scratchpadRequests, List.length_cons,
      List.length_replicate] at hlength
    exact Nat.succ.inj hlength
  · have hpage := hsound.2 e he (granted e he)
    obtain ⟨hbase, hstop⟩ := hpage.inside
    rw [stop_scratchpad] at hstop
    have halign : 0 < scratchpadRequest.alignment.toNat := by decide
    exact ⟨granted e he, hpage.aligned halign, hbase, hstop⟩
  · refine List.Pairwise.imp_of_mem ?_ hapart.2
    intro e e' he he' h
    have hdisjoint := h (granted e he) (granted e' he')
    rwa [Block.Disjoint, stop_scratchpad, stop_scratchpad] at hdisjoint

/-- If `Initialize` succeeds the tables are those with the array. -/
theorem onCommandRing_success {env : Env} {maxPorts : BitVec 8} {erdp : BitVec 64}
    {m : DeviceManager} {h : Host} {a : Error × Ring × BitVec 64}
    (success : (onCommandRing env maxPorts erdp m h a).1 = .kSuccess) :
    ∃ driver, (onCommandRing env maxPorts erdp m h a).2 = some driver ∧ driver.xhc.devmgr = m := by
  unfold onCommandRing at success ⊢
  by_cases hring : a.1 ≠ .kSuccess
  · rw [if_pos hring] at success
    exact absurd success hring
  rw [if_neg hring] at success ⊢
  rcases hinit : EventRing.initializeRing env { h with allocPtr := a.2.2 } erdp 32 with ⟨e, er, h'⟩
  rw [hinit] at success
  by_cases hevents : e ≠ .kSuccess
  · rw [if_pos hevents] at success
    exact absurd success hevents
  · rw [if_neg hevents]
    exact ⟨_, rfl, rfl⟩

theorem onTablesWithArray_reported_iff {env : Env} {h : Host} {n : Nat}
    {a : Error × DeviceManager × Host} (maxPorts : BitVec 8) (erdp : BitVec 64) (hn : n < 65536)
    (answer : TablesAlloc env h kDeviceSize a) :
    ScratchpadReported env.pool n (onTablesWithArray env maxPorts n erdp a) ↔
      (HasRoom env.pool h.allocPtr (tableRequests kDeviceSize) → n = 0 ∨
        HasRoom env.pool h.allocPtr (tableRequests kDeviceSize ++ scratchpadRequests n)) := by
  unfold onTablesWithArray
  cases answer with
  | failed err m h' failed full =>
      rw [if_pos failed]
      exact iff_of_true ⟨_, _, _, rfl, nofun, fun h => absurd h failed⟩ fun h => absurd h full
  | made h' room rest cursor =>
      rw [if_neg (not_not_intro rfl), imp_iff_right room, rest]
      rcases Nat.eq_zero_or_pos n with rfl | hpos
      · exact iff_of_true ⟨_, _, _, rfl, nofun, fun _ => .inl rfl⟩ (.inl rfl)
      have hanswer := writeScratchpad_answer (.empty kDeviceSize) hpos hn cursor
      rw [or_iff_right (Nat.ne_of_gt hpos)]
      generalize (DeviceManager.empty kDeviceSize).writeScratchpad env h' n = w at hanswer ⊢
      cases hanswer with
      | null full => exact iff_of_false (not_scratchpadReported_error _ _ _) full
      | written array entries h'' nonnull blocks =>
          have hroom := runCalls_granted_iff cursor (scratchpadRequests_valid hn)
          rw [blocks, List.forall_mem_cons, List.forall_mem_map] at hroom
          rw [← hroom]
          constructor
          · rintro ⟨_, _, _, hret, hall, _⟩
            obtain ⟨_, hret⟩ := Prod.mk.inj (Except.ok.inj hret)
            obtain ⟨_, rfl⟩ := Prod.mk.inj hret
            exact ⟨nonnull, hall⟩
          · rintro ⟨_, hall⟩
            refine ⟨_, _, _, rfl, hall, fun hsuccess => .inr ?_⟩
            obtain ⟨driver, hdriver, hdevmgr⟩ := onCommandRing_success hsuccess
            refine ⟨driver, hdriver, ?_⟩
            rw [hdevmgr]
            simp only [update_self]
            exact scratchpadReady_of_blocks hn cursor blocks nonnull hall

/-- **Scratchpad set-up is complete or reported** just when the tables do not
fit, no buffer is asked for, or there is room for the array and all buffers
after the tables. -/
theorem scratchpad_reported_iff {env : Env} {h : Host} (maxPorts : BitVec 8)
    (hcsparams2 : BitVec 32) (erdp : BitVec 64) (cursor : CursorOk env.pool h.allocPtr) :
    ScratchpadReported env.pool (scratchpadsAsked hcsparams2)
        (initializeWithArray env maxPorts hcsparams2 erdp h) ↔
      (HasRoom env.pool h.allocPtr (tableRequests kDeviceSize) →
        scratchpadsAsked hcsparams2 = 0 ∨ HasRoom env.pool h.allocPtr
          (tableRequests kDeviceSize ++ scratchpadRequests (scratchpadsAsked hcsparams2))) := by
  have hle := scratchpadsAsked_le hcsparams2
  rw [initializeWithArray, toNat_maxScratchpadBuffers]
  exact onTablesWithArray_reported_iff maxPorts erdp (by omega)
    (initializeTables_answer (by decide) cursor)

/-- Two buffers fit. -/
theorem scratchpad_reported_two :
    ScratchpadReported poolAtMiB (scratchpadsAsked 0x10000000#32)
      (initializeWithArray (Env.zero poolAtMiB) 4#8 0x10000000#32 0#64 ⟨0x100000#64, []⟩) :=
  have cursor : CursorOk (Env.zero poolAtMiB).pool (Host.mk 0x100000#64 []).allocPtr :=
    cursorOk_base poolAtMiB
  (scratchpad_reported_iff 4#8 0x10000000#32 0#64 cursor).mpr fun _ => .inr (by decide +kernel)

/-- A pool that starts in the middle of a page. -/
def poolMidPage : MemoryPool where
  base := 0x100800#64
  aligned := by decide
  nonnull := by decide
  room := by decide

/-- Of 32 buffers the last does not fit, and `Initialize` succeeds; with 256
bytes left the array is written to the null address. -/
theorem not_scratchpad_reported :
    (initializeWithArray (Env.zero poolMidPage) 4#8 0x200000#32 0#64 ⟨0x100800#64, []⟩).toOption.map
      (fun r => (r.1, r.2.2.length, r.2.2.getLast?)) = some (.kSuccess, 32, some 0#64) ∧
    initializeWithArray (Env.zero poolAtMiB) 4#8 0x200000#32 0#64 ⟨0x11ff00#64, []⟩ =
      .error .nullPointer ∧
    ¬ ScratchpadReported poolMidPage (scratchpadsAsked 0x200000#32)
      (initializeWithArray (Env.zero poolMidPage) 4#8 0x200000#32 0#64 ⟨0x100800#64, []⟩) ∧
    ¬ ScratchpadReported poolAtMiB (scratchpadsAsked 0x200000#32)
      (initializeWithArray (Env.zero poolAtMiB) 4#8 0x200000#32 0#64 ⟨0x11ff00#64, []⟩) := by
  have hnull : initializeWithArray (Env.zero poolAtMiB) 4#8 0x200000#32 0#64 ⟨0x11ff00#64, []⟩ =
      .error .nullPointer := rfl
  have hmid : (initializeWithArray (Env.zero poolMidPage) 4#8 0x200000#32 0#64
      ⟨0x100800#64, []⟩).toOption.map (fun r => (r.1, r.2.2.length, r.2.2.getLast?)) =
        some (.kSuccess, 32, some 0#64) := by decide +kernel
  refine ⟨hmid, hnull, ?_, ?_⟩
  · rintro ⟨err, d, entries, hret, hall, _⟩
    rw [hret] at hmid
    have hlast : entries.getLast? = some 0#64 :=
      (Prod.mk.inj (Prod.mk.inj (Option.some.inj hmid)).2).2
    exact hall _ (List.mem_of_getLast? hlast) rfl
  · rw [hnull]
    exact not_scratchpadReported_error _ _ _

end MikanOs.Usb.Xhci
