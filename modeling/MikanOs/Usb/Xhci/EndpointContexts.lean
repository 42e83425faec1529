import MikanOs.Usb.Xhci.PoolRoom

/-!
# MikanOs.Usb.Xhci.EndpointContexts

What `ConfigureEndpoints` tells the controller about the endpoints of a
device: the flags of the input control context, an endpoint context for each
index listed, and in it the ring that `transfer_rings_` has for that index.

An index may be listed more than once, and then counts for what it was
listed with last (`lastFor`).  `Programmed` is the invariant of the loop over
the endpoint configs, of those that are done; `Programmed.step` is a round.
-/

namespace MikanOs.Usb.Xhci

/-! ## the fields of an endpoint context -/

/-- Taking the last set bit of the first `n` finds the highest, once it is
among them. -/
theorem foldl_lastSetBit {v : BitVec 32} (h : v ≠ 0#32) {n : Nat} (hn : v.toNat.log2 < n) :
    (List.range n).foldl (fun msb i => if v.getLsbD i then (i : Int) else msb) 0 =
      v.toNat.log2 := by
  have hne : v.toNat ≠ 0 := fun h0 => h (BitVec.eq_of_toNat_eq h0)
  induction n with
  | zero => exact absurd hn (Nat.not_lt_zero _)
  | succ n ih =>
      rw [List.range_succ, List.foldl_append, List.foldl_cons, List.foldl_nil]
      rcases Nat.lt_or_eq_of_le (Nat.le_of_lt_succ hn) with hlt | rfl
      · have hclear : v.getLsbD n = false :=
          Nat.testBit_lt_two_pow ((Nat.log2_lt hne).mp hlt)
        rw [hclear, if_neg Bool.false_ne_true, ih hlt]
      · have hset : v.getLsbD v.toNat.log2 = true := Nat.testBit_log2 hne
        rw [hset, if_pos rfl]

/-- `MostSignificantBit` is the logarithm. -/
theorem mostSignificantBit_eq {v : BitVec 32} (h : v ≠ 0#32) :
    mostSignificantBit v = v.toNat.log2 := by
  have hne : v.toNat ≠ 0 := fun h0 => h (BitVec.eq_of_toNat_eq h0)
  rw [mostSignificantBit, if_neg h]
  exact foldl_lastSetBit h ((Nat.log2_lt hne).mpr v.isLt)

/-- The interval as the controller wants it, by the speed of the port. -/
def intervalCode (speed : BitVec 4) (type : EndpointType) (interval : Nat) : Nat :=
  if speed = 1#4 ∨ speed = 2#4 then
    if type = .kIsochronous then interval + 2 else interval.log2 + 3
  else interval - 1

theorem convertInterval_eq (speed : BitVec 4) (type : EndpointType) {interval : Int}
    (hpos : 1 ≤ interval) (hlt : interval < 2 ^ 31) :
    convertInterval speed type interval = intervalCode speed type interval.toNat := by
  obtain ⟨n, rfl⟩ := Int.eq_ofNat_of_zero_le (by omega : 0 ≤ interval)
  have hn : (BitVec.ofInt 32 (n : Int)).toNat = n := by
    rw [BitVec.ofInt_natCast, BitVec.toNat_ofNat]
    omega
  have hne : BitVec.ofInt 32 (n : Int) ≠ 0#32 := by
    intro h0
    rw [h0] at hn
    simp only [BitVec.toNat_zero] at hn
    omega
  unfold convertInterval intervalCode
  rw [mostSignificantBit_eq hne, hn, Int.toNat_natCast]
  split
  · split <;> rfl
  · omega

/-- The endpoint type as the controller wants it: 4 for a control endpoint;
1, 2 and 3 for the others, and 4 more if data comes in. -/
def typeCode (config : EndpointConfig) : Nat :=
  let dirIn := if config.epId.isIn then 4 else 0
  match config.epType with
  | .kControl => 4
  | .kIsochronous => 1 + dirIn
  | .kBulk => 2 + dirIn
  | .kInterrupt => 3 + dirIn

theorem toNat_epTypeCode (config : EndpointConfig) :
    (epTypeCode config).toNat = typeCode config := by
  unfold epTypeCode typeCode
  cases config.epType <;> cases config.epId.isIn <;> rfl

/-- An endpoint context for an endpoint, with its TRBs in a buffer. -/
structure Describes (ctx : BitVec 256) (speed : BitVec 4) (config : EndpointConfig)
    (buf : BitVec 64) : Prop where
  epType : (EndpointContext.epType.get ctx).toNat = typeCode config
  maxPacketSize : EndpointContext.maxPacketSize.get ctx = BitVec.ofInt 16 config.maxPacketSize
  interval : (EndpointContext.interval.get ctx).toNat =
    intervalCode speed config.epType config.interval.toNat % 256
  dequeueCycleState : EndpointContext.dequeueCycleState.get ctx = 1#1
  transferRingBuffer : EndpointContext.transferRingBuffer ctx = buf
  averageTrbLength : EndpointContext.averageTrbLength.get ctx = 1#16
  maxPrimaryStreams : EndpointContext.maxPrimaryStreams.get ctx = 0#5
  mult : EndpointContext.mult.get ctx = 0#2
  errorCount : EndpointContext.errorCount.get ctx = 3#2

/-- What a round writes to an endpoint context. -/
theorem describes_initializeEndpointContext (ctx : BitVec 256) (speed : BitVec 4)
    {config : EndpointConfig} {tr : Ring} (hpos : 1 ≤ config.interval)
    (hlt : config.interval < 2 ^ 31) (hbuf : 64 ∣ tr.buf.toNat) :
    Describes (initializeEndpointContext ctx speed config tr) speed config tr.buf := by
  have hinterval := convertInterval_eq speed config.epType hpos hlt
  constructor
  all_goals
    simp (disch := decide) only [EndpointContext.transferRingBuffer, initializeEndpointContext,
      EndpointContext.setTransferRingBuffer, BitField.get_put, BitField.get_put_of_disjoint]
  · exact toNat_epTypeCode config
  · rw [hinterval, BitVec.ofInt_natCast, BitVec.toNat_ofNat]
  · exact shift_of_aligned (Nat.dvd_trans (by decide) hbuf)

/-! ## the loop -/

/-- What an index is listed with last. -/
def lastFor (configs : List EndpointConfig) (dci : Int) : Option EndpointConfig :=
  configs.reverse.find? fun config => config.epId.addr = dci

theorem lastFor_append_self (configs : List EndpointConfig) {config : EndpointConfig} {dci : Int}
    (h : config.epId.addr = dci) : lastFor (configs ++ [config]) dci = some config := by
  rw [lastFor, List.reverse_append, List.reverse_singleton, List.singleton_append,
    List.find?_cons_of_pos (by simpa using h)]

theorem lastFor_append_ne (configs : List EndpointConfig) {config : EndpointConfig} {dci : Int}
    (h : config.epId.addr ≠ dci) : lastFor (configs ++ [config]) dci = lastFor configs dci := by
  rw [lastFor, List.reverse_append, List.reverse_singleton, List.singleton_append,
    List.find?_cons_of_neg (by simpa using h)]
  rfl

theorem lastFor_isSome_iff {configs : List EndpointConfig} {dci : Int} :
    (lastFor configs dci).isSome ↔ ∃ config ∈ configs, config.epId.addr = dci := by
  simp [lastFor, List.find?_isSome]

/-- What the input context of a device says, and the rings that go with it,
after some endpoint configs in a row. -/
structure Programmed (speed : BitVec 4) (configs : List EndpointConfig) (dev dev' : Device) :
    Prop where
  /-- a flag is set for each index listed -/
  add : ∀ i < 32, (InputControlContext.addContextFlags.get
      dev'.inputCtx.inputControlContext).getLsbD i =
    ((InputControlContext.addContextFlags.get dev.inputCtx.inputControlContext).getLsbD i ||
      (lastFor configs i).isSome)
  drop : InputControlContext.dropContextFlags.get dev'.inputCtx.inputControlContext =
    InputControlContext.dropContextFlags.get dev.inputCtx.inputControlContext
  slotContext : dev'.inputCtx.slotContext = dev.inputCtx.slotContext
  /-- an index that is listed has a new ring, and a context for it -/
  listed : ∀ (i : Nat) config, lastFor configs (i + 1) = some config → ∃ tr,
    dev'.pipes.transferRings i = some tr ∧ tr.Blank ∧ tr.buf ≠ 0#64 ∧
      Describes (dev'.inputCtx.epContexts i) speed config tr.buf
  /-- and no other has -/
  unlisted : ∀ i : Nat, lastFor configs (i + 1) = none →
    dev'.pipes.transferRings i = dev.pipes.transferRings i ∧
      dev'.inputCtx.epContexts i = dev.inputCtx.epContexts i
  rest : dev' = { dev with
    inputCtx := dev'.inputCtx
    pipes := { dev.pipes with transferRings := dev'.pipes.transferRings } }

/-- The buffers of the new rings lie apart from each other, below the pool
cursor. -/
structure Apart (cursor : BitVec 64) (configs : List EndpointConfig) (rings : Rings) : Prop where
  below : ∀ (i : Nat) tr, (lastFor configs (i + 1)).isSome → rings i = some tr →
    tr.buf.toNat + 512 ≤ cursor.toNat
  apart : ∀ (i j : Nat) tr tr', i ≠ j → (lastFor configs (i + 1)).isSome →
    (lastFor configs (j + 1)).isSome → rings i = some tr → rings j = some tr' →
    tr.buf.toNat + 512 ≤ tr'.buf.toNat ∨ tr'.buf.toNat + 512 ≤ tr.buf.toNat

theorem getLsbD_addContext (c : InputContext) (k : Nat) {i : Nat} (hi : i < 32) :
    (InputControlContext.addContextFlags.get (c.addContext k).inputControlContext).getLsbD i =
      ((InputControlContext.addContextFlags.get c.inputControlContext).getLsbD i ||
        decide (k = i)) := by
  have hbit : (1#32 <<< k).getLsbD i = decide (k = i) := by
    rw [BitVec.getLsbD_shiftLeft, BitVec.getLsbD_one]
    simp only [hi, decide_true, Bool.true_and]
    rw [Bool.eq_iff_iff]
    simp only [Bool.and_eq_true, Bool.not_eq_true', decide_eq_false_iff_not, decide_eq_true_eq]
    omega
  rw [InputContext.addContext, BitField.get_put, BitVec.getLsbD_or, hbit]

theorem dropContextFlags_addContext (c : InputContext) (k : Nat) :
    InputControlContext.dropContextFlags.get (c.addContext k).inputControlContext =
      InputControlContext.dropContextFlags.get c.inputControlContext :=
  BitField.get_put_of_disjoint (by decide) _ _

theorem Programmed.nil (speed : BitVec 4) (dev : Device) : Programmed speed [] dev dev where
  add _ _ := (Bool.or_false _).symm
  drop := rfl
  slotContext := rfl
  listed := nofun
  unlisted _ _ := ⟨rfl, rfl⟩
  rest := rfl

section

open Controller

variable (speed : BitVec 4) (dev : Device) (config : EndpointConfig) {d i : Nat} (tr : Ring)

theorem configured_rings_self :
    (configured speed dev config d tr).pipes.transferRings d = some tr := update_self _ _ _

theorem configured_rings_ne (h : i ≠ d) :
    (configured speed dev config d tr).pipes.transferRings i = dev.pipes.transferRings i :=
  update_ne h _ _

theorem configured_contexts_self : (configured speed dev config d tr).inputCtx.epContexts d =
    initializeEndpointContext (dev.inputCtx.epContexts d) speed config tr := update_self _ _ _

theorem configured_contexts_ne (h : i ≠ d) :
    (configured speed dev config d tr).inputCtx.epContexts i = dev.inputCtx.epContexts i :=
  update_ne h _ _

end

/-- **A round** of the loop. -/
theorem Programmed.step {speed : BitVec 4} {configs : List EndpointConfig} {dev dev' : Device}
    (h : Programmed speed configs dev dev') {config : EndpointConfig} {d : Nat} {tr : Ring}
    (hd : config.epId.addr = d + 1) (hpos : 1 ≤ config.interval)
    (hlt : config.interval < 2 ^ 31) (blank : tr.Blank) (buffer : tr.buf ≠ 0#64)
    (aligned : 64 ∣ tr.buf.toNat) : Programmed speed (configs ++ [config]) dev
      (Controller.configured speed dev' config d tr) where
  add i hi := by
    have hflag := getLsbD_addContext dev'.inputCtx (d + 1) hi
    refine hflag.trans ?_
    rw [h.add i hi]
    by_cases hdi : d + 1 = i
    · rw [lastFor_append_self configs (by omega), decide_eq_true hdi]
      simp
    · rw [lastFor_append_ne configs (by omega), decide_eq_false hdi, Bool.or_false]
  drop := (dropContextFlags_addContext dev'.inputCtx (d + 1)).trans h.drop
  slotContext := h.slotContext
  listed i c hc := by
    by_cases hi : i = d
    · subst hi
      rw [lastFor_append_self configs hd] at hc
      obtain rfl := Option.some.inj hc
      refine ⟨tr, configured_rings_self speed dev' config tr, blank, buffer, ?_⟩
      rw [configured_contexts_self]
      exact describes_initializeEndpointContext _ speed hpos hlt aligned
    · rw [lastFor_append_ne configs (by omega)] at hc
      rw [configured_rings_ne speed dev' config tr hi,
        configured_contexts_ne speed dev' config tr hi]
      exact h.listed i c hc
  unlisted i hi := by
    have hne : i ≠ d := by
      rintro rfl
      rw [lastFor_append_self configs hd] at hi
      contradiction
    rw [lastFor_append_ne configs (by omega)] at hi
    rw [configured_rings_ne speed dev' config tr hne,
      configured_contexts_ne speed dev' config tr hne]
    exact h.unlisted i hi
  rest := by
    rw [Controller.configured]
    conv => lhs; rw [h.rest]

/-- A new ring lies above all earlier ones. -/
theorem Apart.step {cursor : BitVec 64} {configs : List EndpointConfig} {rings : Rings}
    (h : Apart cursor configs rings) {config : EndpointConfig} {d : Nat}
    (hd : config.epId.addr = d + 1) {pool : MemoryPool} {cursor' : BitVec 64} {tr : Ring}
    (granted : Granted pool cursor cursor' tr) (buffer : tr.buf ≠ 0#64) :
    Apart cursor' (configs ++ [config]) (update rings d (some tr)) := by
  have hle := granted.le
  obtain ⟨hlo, hhi⟩ := granted.buffer buffer
  have hold : ∀ (i : Nat) x, (lastFor (configs ++ [config]) (i + 1)).isSome →
      update rings d (some tr) i = some x →
        (i = d ∧ x = tr) ∨ (lastFor configs (i + 1)).isSome ∧ rings i = some x := by
    intro i x hi hx
    by_cases hid : i = d
    · subst hid
      rw [update_self] at hx
      exact .inl ⟨rfl, (Option.some.inj hx).symm⟩
    · rw [update_ne hid] at hx
      rw [lastFor_append_ne configs (by omega)] at hi
      exact .inr ⟨hi, hx⟩
  constructor
  · intro i x hi hx
    rcases hold i x hi hx with ⟨_, rfl⟩ | ⟨hi', hx'⟩
    · exact hhi
    · exact Nat.le_trans (h.below i x hi' hx') hle
  · intro i j x x' hne hi hj hx hx'
    rcases hold i x hi hx with ⟨rfl, rfl⟩ | ⟨hiold, hxold⟩
    · rcases hold j x' hj hx' with ⟨rfl, _⟩ | ⟨hjold, hxold'⟩
      · exact absurd rfl hne
      · exact .inr (Nat.le_trans (h.below j x' hjold hxold') hlo)
    · rcases hold j x' hj hx' with ⟨_, rfl⟩ | ⟨hjold, hxold'⟩
      · exact .inl (Nat.le_trans (h.below i x hiold hxold) hlo)
      · exact h.apart i j x x' hne hiold hjold hxold hxold'

/-- A round that gets its ring. -/
theorem configureEach_of_some {env : Env} {speed : BitVec 4} {h h' : Host} {dev : Device}
    {config : EndpointConfig} {i d : Nat} {tr : Ring} (n : Nat) (hi : i < 16)
    (hconfig : dev.pipes.base.epConfigs i = config) (hd : checked 31 (config.epId.addr - 1) = .ok d)
    (alloc : dev.pipes.allocTransferRing env h config.epId.addr 32 =
      .ok (some tr, dev.pipes.withRing d (some tr), h')) :
    Controller.configureEach env speed h dev (n + 1) i =
      Controller.configureEach env speed h' (Controller.configured speed dev config d tr) n
        (i + 1) := by
  have hk : checked 16 (i : Int) = .ok i := checked_eq_ok.mpr ⟨by omega, by omega⟩
  rw [Controller.configureEach]
  simp only [hk, bind, Except.bind, hconfig, hd, alloc]
  rfl

/-- A config `ConfigureEndpoints` is made for. -/
structure Configurable (config : EndpointConfig) : Prop where
  index : 1 ≤ config.epId.addr ∧ config.epId.addr ≤ 31
  interval : 1 ≤ config.interval ∧ config.interval < 2 ^ 31

/-- **The loop**, with room for all its rings. -/
theorem configureEach_programs {env : Env} {speed : BitVec 4} {dev₀ dev : Device}
    {done : List EndpointConfig} {n i : Nat} {h : Host}
    (programmed : Programmed speed done dev₀ dev)
    (apart : Apart h.allocPtr done dev.pipes.transferRings) (few : i + n ≤ 16)
    (cursor : CursorOk env.pool h.allocPtr)
    (ok : ∀ j, i ≤ j → j < i + n → Configurable (dev₀.pipes.base.epConfigs j))
    (room : HasRoom env.pool h.allocPtr (ringsRequests n)) : ∃ dev' h',
      Controller.configureEach env speed h dev n i = .ok (dev', h') ∧
        Programmed speed (done ++ (List.range' i n).map dev₀.pipes.base.epConfigs) dev₀ dev' ∧
        Apart h'.allocPtr (done ++ (List.range' i n).map dev₀.pipes.base.epConfigs)
          dev'.pipes.transferRings := by
  induction n generalizing h dev i done with
  | zero =>
      rw [List.range'_zero, List.map_nil, List.append_nil]
      exact ⟨dev, h, rfl, programmed, apart⟩
  | succ n ih =>
      obtain ⟨⟨hone, hmax⟩, hpos, hlt⟩ := ok i (Nat.le_refl i) (by omega)
      have hbase : dev.pipes.base = dev₀.pipes.base := congrArg (·.pipes.base) programmed.rest
      generalize hconfig : dev₀.pipes.base.epConfigs i = config at hone hmax hpos hlt
      have hd : checked 31 (config.epId.addr - 1) = .ok (config.epId.addr - 1).toNat :=
        checked_eq_ok.mpr ⟨by omega, rfl⟩
      have haddr : config.epId.addr = (config.epId.addr - 1).toNat + 1 := by omega
      generalize (config.epId.addr - 1).toNat = d at hd haddr
      obtain ⟨tr, h₁, halloc, hbuffer, hroom⟩ :=
        allocTransferRing_of_room dev.pipes hd cursor room
      have granted := granted_of_allocTransferRing cursor halloc
      have haligned := dvd_buf_of_allocTransferRing hd cursor halloc hbuffer
      rw [configureEach_of_some n (by omega) ((congrFun (congrArg _ hbase) i).trans hconfig) hd
        halloc]
      have hnext := ih (i := i + 1) (programmed.step haddr hpos hlt granted.blank hbuffer haligned)
        (apart.step haddr granted hbuffer) (by omega) granted.cursor
        (fun j hj hj' => ok j (by omega) (by omega)) hroom
      obtain ⟨dev', h', hret, hprogrammed, hapart⟩ := hnext
      rw [List.append_assoc, List.singleton_append, ← hconfig, ← List.map_cons,
        ← List.range'_succ] at hprogrammed hapart
      exact ⟨dev', h', hret, hprogrammed, hapart⟩

/-! ## `ConfigureEndpoints` -/

/-- The device as the loop finds it: its input context has the slot context
and no endpoint. -/
def startConfigure (env : Env) (slotId : BitVec 8) (dev : Device) : Device :=
  let input := InputContext.enableSlotContext
    { dev.inputCtx with
      inputControlContext := 0#256
      slotContext := env.slotContext slotId }
  { dev with inputCtx := { input with
      slotContext := SlotContext.contextEntries.put input.slotContext 31#5 } }

/-- The speed of the port a device is at. -/
def portSpeed (env : Env) (slotId : BitVec 8) : BitVec 4 :=
  (Port.ofEnv env (SlotContext.rootHubPortNum.get (env.slotContext slotId))).speed 0

/-- What `ConfigureEndpoints` leaves of a device. -/
structure EndpointsConfigured (env : Env) (slotId : BitVec 8) (dev dev' : Device) : Prop where
  drop : InputControlContext.dropContextFlags.get dev'.inputCtx.inputControlContext = 0#32
  add : ∀ i < 32, (InputControlContext.addContextFlags.get
      dev'.inputCtx.inputControlContext).getLsbD i = true ↔
    i = 0 ∨ ∃ config ∈ dev.pipes.base.configs, config.epId.addr = i
  slotContext : dev'.inputCtx.slotContext =
    SlotContext.contextEntries.put (env.slotContext slotId) 31#5
  /-- the context of an index listed is that of its last config, and of a new
  ring in the same place -/
  listed : ∀ (i : Nat) config, lastFor dev.pipes.base.configs (i + 1) = some config → ∃ tr,
    dev'.pipes.transferRings i = some tr ∧ tr.Blank ∧ tr.buf ≠ 0#64 ∧
      Describes (dev'.inputCtx.epContexts i) (portSpeed env slotId) config tr.buf
  apart : ∀ (i j : Nat) tr tr', i ≠ j → (lastFor dev.pipes.base.configs (i + 1)).isSome →
    (lastFor dev.pipes.base.configs (j + 1)).isSome → dev'.pipes.transferRings i = some tr →
    dev'.pipes.transferRings j = some tr' →
    tr.buf.toNat + 512 ≤ tr'.buf.toNat ∨ tr'.buf.toNat + 512 ≤ tr.buf.toNat
  unlisted : ∀ i : Nat, lastFor dev.pipes.base.configs (i + 1) = none →
    dev'.pipes.transferRings i = dev.pipes.transferRings i ∧
      dev'.inputCtx.epContexts i = dev.inputCtx.epContexts i
  rest : dev' = { dev with
    inputCtx := dev'.inputCtx
    pipes := { dev.pipes with transferRings := dev'.pipes.transferRings } }

/-- The flags of the slot context alone. -/
theorem flags_startConfigure (env : Env) (slotId : BitVec 8) (dev : Device) {i : Nat}
    (hi : i < 32) : (InputControlContext.addContextFlags.get
        (startConfigure env slotId dev).inputCtx.inputControlContext).getLsbD i =
      decide (0 = i) := by
  refine (getLsbD_addContext _ 0 hi).trans ?_
  have hzero : InputControlContext.addContextFlags.get 0#256 = 0#32 := by decide
  show ((InputControlContext.addContextFlags.get 0#256).getLsbD i || _) = _
  rw [hzero, BitVec.getLsbD_zero, Bool.false_or]

theorem endpointsConfigured_of_programmed {env : Env} {slotId : BitVec 8} {dev dev' : Device}
    {cursor : BitVec 64}
    (h : Programmed (portSpeed env slotId) dev.pipes.base.configs (startConfigure env slotId dev)
      dev')
    (apart : Apart cursor dev.pipes.base.configs dev'.pipes.transferRings) :
    EndpointsConfigured env slotId dev dev' where
  drop := by
    have hzero : InputControlContext.dropContextFlags.get 0#256 = 0#32 := by decide
    rw [h.drop]
    exact (dropContextFlags_addContext _ 0).trans hzero
  add i hi := by
    rw [h.add i hi, flags_startConfigure env slotId dev hi, Bool.or_eq_true,
      lastFor_isSome_iff, decide_eq_true_eq, eq_comm]
  slotContext := h.slotContext
  listed := h.listed
  apart := apart.apart
  unlisted := h.unlisted
  rest := h.rest

/-- The port of a device. -/
def portOf (env : Env) (slotId : BitVec 8) : BitVec 8 :=
  SlotContext.rootHubPortNum.get (env.slotContext slotId)

/-- `ConfigureEndpoints`, with names for what it starts from. -/
theorem configureEndpoints_eq (env : Env) (s : Controller) (slotId : BitVec 8) (dev : Device) :
    s.configureEndpoints env slotId dev =
      if portSpeed env slotId = 0#4 ∨ 5#4 < portSpeed env slotId then
        .ok (.kUnknownXHCISpeedID, (s.portAt (portOf env slotId)).setDevice slotId
          (startConfigure env slotId dev) (s.portAt (portOf env slotId)).host)
      else (do
        let (dev', h) ← Controller.configureEach env (portSpeed env slotId)
          (s.portAt (portOf env slotId)).host (startConfigure env slotId dev)
          dev.pipes.base.numEpConfigs 0
        let s ← (((s.portAt (portOf env slotId)).setDevice slotId dev' h).setPhase
          (portOf env slotId) .kConfiguringEndpoints).pushCommand (portOf env slotId)
            (ConfigureEndpointCommandTRB.new dev'.inputContext dev'.slotId)
        pure (.kSuccess, s)) := rfl

/-- With a buffer for the command ring a command is pushed, and the tables are
left alone. -/
theorem pushCommand_of_buf {s : Controller} (h : s.cr.buf ≠ 0#64) (port : BitVec 8) (cmd : Trb) :
    ∃ s', s.pushCommand port cmd = .ok s' ∧ s'.devmgr = s.devmgr := by
  unfold Controller.pushCommand Ring.tryPush
  rw [if_neg h]
  exact ⟨_, rfl, rfl⟩

/-- **`ConfigureEndpoints` and the rings agree**: with room for the rings it
succeeds, and each index listed has a context for its last config that points
at the new ring of the same index. -/
theorem configureEndpoints_agrees {env : Env} {s : Controller} {slotId : BitVec 8} {dev : Device}
    (cursor : CursorOk env.pool s.host.allocPtr) (commandRing : s.cr.buf ≠ 0#64)
    (speed : 1 ≤ (portSpeed env slotId).toNat ∧ (portSpeed env slotId).toNat ≤ 5)
    (few : dev.pipes.base.numEpConfigs ≤ 16)
    (indices : ∀ config ∈ dev.pipes.base.configs, IndexOk config.epId)
    (intervals : ∀ config ∈ dev.pipes.base.configs,
      1 ≤ config.interval ∧ config.interval < 2 ^ 31)
    (room : HasRoom env.pool s.host.allocPtr (ringsRequests dev.pipes.base.numEpConfigs)) :
    ∃ s' dev', s.configureEndpoints env slotId dev = .ok (.kSuccess, s') ∧
      s'.devmgr = s.devmgr.set slotId dev' ∧ EndpointsConfigured env slotId dev dev' := by
  have hknown : ¬ (portSpeed env slotId = 0#4 ∨ 5#4 < portSpeed env slotId) := by
    rw [BitVec.lt_def, ← BitVec.toNat_inj]
    simp only [BitVec.toNat_ofNat]
    omega
  have hok : ∀ j, 0 ≤ j → j < 0 + dev.pipes.base.numEpConfigs →
      Configurable (dev.pipes.base.epConfigs j) := by
    intro j _ hj
    have hmem : dev.pipes.base.epConfigs j ∈ dev.pipes.base.configs :=
      List.mem_map_of_mem (List.mem_range.mpr (by omega))
    obtain ⟨htwo, hmax⟩ := indices _ hmem
    exact ⟨⟨by omega, hmax⟩, intervals _ hmem⟩
  have happart : Apart s.host.allocPtr [] (startConfigure env slotId dev).pipes.transferRings :=
    ⟨nofun, nofun⟩
  obtain ⟨dev', h', hret, hprogrammed, hapart⟩ :=
    configureEach_programs (h := (s.portAt (portOf env slotId)).host)
      (Programmed.nil (portSpeed env slotId) _) happart (by omega) cursor hok room
  rw [List.nil_append, ← List.range_eq_range'] at hprogrammed hapart
  obtain ⟨s', hpush, hdevmgr⟩ := pushCommand_of_buf
    (s := ((s.portAt (portOf env slotId)).setDevice slotId dev' h').setPhase (portOf env slotId)
      .kConfiguringEndpoints) commandRing (portOf env slotId)
    (ConfigureEndpointCommandTRB.new dev'.inputContext dev'.slotId)
  refine ⟨s', dev', ?_, hdevmgr, endpointsConfigured_of_programmed hprogrammed hapart⟩
  rw [configureEndpoints_eq, if_neg hknown, hret]
  simp only [bind, Except.bind]
  rw [hpush]
  rfl

/-- An interrupt-IN endpoint that is listed twice, and a bulk-OUT endpoint. -/
def threeConfigs : List EndpointConfig :=
  [⟨⟨3⟩, .kInterrupt, 8, 10⟩, ⟨⟨3⟩, .kInterrupt, 16, 4⟩, ⟨⟨4⟩, .kBulk, 64, 1⟩]

/-- A device with these endpoints. -/
def threeConfigsDevice : Device :=
  let dev := Device.new 0x200000#64 1#8 1#8
  { dev with pipes := { dev.pipes with base := { dev.pipes.base with
      epConfigs := fun i => threeConfigs.getD i ⟨⟨0⟩, .kControl, 0, 0⟩
      numEpConfigs := 3 } } }

/-- Every port is one of a full-speed device. -/
def fullSpeedEnv : Env := { Env.zero poolAtMiB with portsc := fun _ _ => 0x00000403#32 }

/-- A controller whose command ring is at the start of the pool. -/
def readyController : Controller :=
  Controller.untouched 4#8 (.empty 8) (Ring.on 0x100000#64) ⟨0x100200#64, []⟩

/-- The endpoints of the device are configured. -/
theorem configureEndpoints_agrees_threeConfigs : ∃ s' dev',
    readyController.configureEndpoints fullSpeedEnv 1#8 threeConfigsDevice = .ok (.kSuccess, s') ∧
      s'.devmgr = readyController.devmgr.set 1#8 dev' ∧
      EndpointsConfigured fullSpeedEnv 1#8 threeConfigsDevice dev' :=
  configureEndpoints_agrees ⟨by decide, by decide⟩ (by decide) (by decide) (by decide) (by decide)
    (by decide) (by decide)

end MikanOs.Usb.Xhci
