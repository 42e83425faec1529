import MikanOs.Lib.Run
import MikanOs.Usb.Initialization
import MikanOs.Usb.Xhci.Device

/-!
# MikanOs.Usb.Xhci.InitRun

The initialization of a device as a run: `StartInitialize`, and then one
`OnControlCompleted` after another, each with the transfer it ends with
carried out.  Nothing is assumed about what the calls are given.

`sound` says what the phases of `usb::Device` are worth: each is entered once
and in order, with the request that goes with it.
-/

namespace MikanOs.Usb.Xhci

open Relation Usb.Device Descriptor

/-! ## virtual calls -/

/-- What a virtual call leaves of the base class object. -/
def registered (d : Usb.Device) : Transfer → Usb.Device
  | .controlIn _ setupData _ _ issuer => d.registerWaiter setupData issuer
  | .controlOut _ setupData _ _ issuer => d.registerWaiter setupData issuer
  | .interruptIn _ _ _ => d

/-- The errors of a virtual call. -/
def TransferError (e : Error) : Prop :=
  e = .kSuccess ∨ e = .kInvalidEndpointNumber ∨ e = .kTransferRingNotSet

namespace Pipes

theorem control_returns (transferType : BitVec 2) (dataIn statusIn : Bool) (h : Host) (p : Pipes)
    (epId : EndpointID) (sd : SetupData) (buf : BitVec 64) (len : Int) (issuer : Option Nat) :
    Returns (control transferType dataIn statusIn h p epId sd buf len issuer)
      fun r => TransferError r.1 ∧ r.2.1.base = p.base.registerWaiter sd issuer := by
  unfold control
  refine .ite (fun _ => .of_pure ⟨.inr (.inl rfl), rfl⟩) fun _ => .seq fun i => ?_
  simp only
  split
  · exact .of_pure ⟨.inr (.inr rfl), rfl⟩
  · exact .ite (fun _ => .seq fun _ => .seq fun _ => .seq fun _ => .of_pure ⟨.inl rfl, rfl⟩)
      fun _ => .seq fun _ => .seq fun _ => .of_pure ⟨.inl rfl, rfl⟩

theorem interruptIn_returns (h : Host) (p : Pipes) (epId : EndpointID) (buf : BitVec 64)
    (len : Int) : Returns (interruptIn h p epId buf len)
      fun r => TransferError r.1 ∧ r.2.1.base = p.base := by
  refine .seq fun i => ?_
  simp only
  split
  · exact .of_pure ⟨.inr (.inr rfl), rfl⟩
  · exact .seq fun _ => .of_pure ⟨.inl rfl, rfl⟩

/-- A virtual call registers its issuer, and has three errors to choose from. -/
theorem run_returns (h : Host) (p : Pipes) (t : Transfer) : Returns (p.run h t)
    fun r => TransferError r.1 ∧ r.2.1.base = registered p.base t := by
  cases t with
  | controlIn epId sd buf len issuer => exact control_returns _ _ _ _ _ _ _ _ _ _
  | controlOut epId sd buf len issuer => exact control_returns _ _ _ _ _ _ _ _ _ _
  | interruptIn epId buf len => exact interruptIn_returns _ _ _ _ _

end Pipes

/-! ## the run -/

/-- What a completion delivers: memory, and where in it the data is. -/
structure Delivery where
  env : Env
  buf : BitVec 64
  len : Int

/-- `configuration_value` of a configuration descriptor. -/
def Delivery.configurationValue (a : Delivery) : BitVec 8 := byte a.env a.buf 5

/-- A device that is being initialized: the control requests it has asked for
so far, and the configuration descriptors it has accepted. -/
structure InitRun where
  device : Usb.Device
  requests : List Transfer
  accepted : List Delivery

namespace InitRun

/-- The control request a call ends with. -/
def asked : Outcome → List Transfer
  | .error _ => []
  | .transfer (.interruptIn _ _ _) => []
  | .transfer t => [t]

/-- `StartInitialize`. -/
def start (d : Usb.Device) : InitRun := ⟨d.startInitialize.1, [d.startInitialize.2], []⟩

/-- A call of `OnControlCompleted` on the device: what it ends with, and the
error it returns.  A descriptor has been accepted when it leaves phase 2. -/
inductive Call (s : InitRun) (buf : BitVec 64) (env : Env) (o : Outcome) : Error → InitRun → Prop
  | mk (p p' : Pipes) (h h' h'' : Host) (setupData : SetupData) (len : Int) (d : Usb.Device)
      (e : Error)
      (completed : s.device.onControlCompleted env h setupData buf len = .ok (d, h', o))
      (carried : Pipes.finish h' { p with base := d } o = .ok (e, p', h'')) :
      Call s buf env o e
        { device := p'.base
          requests := s.requests ++ asked o
          accepted := s.accepted ++
            if s.device.initializePhase = 2 ∧ p'.base.initializePhase = 3 then [⟨env, buf, len⟩]
            else [] }

/-- Any call. -/
def Step (s t : InitRun) : Prop := ∃ buf env o e, Call s buf env o e t

/-- What a call on a device in some phase can do: nothing, with or without an
answer of `kInvalidPhase`; or enter the next phase, with its request. -/
inductive Moves (s : InitRun) (buf : BitVec 64) (env : Env) : Error → InitRun → Prop
  | same (e : Error) (h : e ≠ .kInvalidPhase) (d : Usb.Device) (this : d.this = s.device.this)
      (phase : d.initializePhase = s.device.initializePhase)
      (ready : d.isInitialized = s.device.isInitialized) :
      Moves s buf env e { s with device := d }
  | invalid : Moves s buf env .kInvalidPhase s
  | configuration (e : Error) (h : e ≠ .kInvalidPhase) (d : Usb.Device)
      (this : d.this = s.device.this)
      (starting : s.device.isInitialized = false) (phase : s.device.initializePhase = 1)
      (enters : d.initializePhase = 2) (still : d.isInitialized = false) :
      Moves s buf env e
        { s with
          device := d
          requests := s.requests ++ [getDescriptor kDefaultControlPipeID kConfiguration 0#8
            s.device.buf bufSize] }
  | setting (e : Error) (h : e ≠ .kInvalidPhase) (d : Usb.Device) (len : Int)
      (this : d.this = s.device.this) (starting : s.device.isInitialized = false)
      (phase : s.device.initializePhase = 2) (enters : d.initializePhase = 3)
      (still : d.isInitialized = false) :
      Moves s buf env e
        { device := d
          requests := s.requests ++ [setConfiguration kDefaultControlPipeID (byte env buf 5)]
          accepted := s.accepted ++ [⟨env, buf, len⟩] }
  | done (d : Usb.Device) (this : d.this = s.device.this)
      (starting : s.device.isInitialized = false) (phase : s.device.initializePhase = 3)
      (enters : d.initializePhase = 4) (ready : d.isInitialized = true) :
      Moves s buf env .kSuccess { s with device := d }

variable {s t : InitRun} {buf : BitVec 64} {env : Env} {o : Outcome} {e : Error}

/-- The device an accepted descriptor leaves has kept its address and is not
initialized yet. -/
theorem adopt_frame (env : Env) (d : Usb.Device) (c : HIDDriver) (eps : List (BitVec 64)) :
    (d.adopt env c eps).this = d.this ∧ (d.adopt env c eps).isInitialized = d.isInitialized := by
  unfold adopt
  rw [foldl_collect]
  exact ⟨rfl, rfl⟩

/-- A class driver asks for no control request when one is completed. -/
theorem onControlCompleted_outcome (c : HIDDriver) :
    c.onControlCompleted.2 = .error .kNotImplemented ∨
      c.onControlCompleted.2 = .transfer (.interruptIn c.epInterruptIn c.buf c.inPacketSize) := by
  unfold HIDDriver.onControlCompleted
  split
  · exact .inr rfl
  · exact .inl rfl

theorem TransferError.ne (h : TransferError e) : e ≠ .kInvalidPhase := by
  rcases h with rfl | rfl | rfl <;> decide

/-- Nothing is carried out after an error. -/
theorem finish_error {h h' : Host} {p p' : Pipes} {e₀ : Error}
    (ret : p.finish h (.error e₀) = .ok (e, p', h')) : e = e₀ ∧ p' = p := by
  cases Returns.pure_eq_ok.mp ret
  exact ⟨rfl, rfl⟩

/-- What has been carried out of a request without an issuer, or of an
interrupt transfer, is not seen in the base class object. -/
theorem finish_transfer {h h' : Host} {p p' : Pipes} {tr : Transfer}
    (hissuer : registered p.base tr = p.base)
    (ret : p.finish h (.transfer tr) = .ok (e, p', h')) :
    e ≠ .kInvalidPhase ∧ p'.base = p.base := by
  obtain ⟨herr, hbase⟩ := Pipes.run_returns h p tr _ ret
  exact ⟨TransferError.ne herr, hbase.trans hissuer⟩

/-- A call that stays in its phase and asks for no control request. -/
theorem moves_same {d : Usb.Device} {o : Outcome} {len : Int} (he : e ≠ .kInvalidPhase)
    (this : d.this = s.device.this) (phase : d.initializePhase = s.device.initializePhase)
    (ready : d.isInitialized = s.device.isInitialized) (hasked : asked o = []) :
    Moves s buf env e
      { device := d
        requests := s.requests ++ asked o
        accepted := s.accepted ++
          if s.device.initializePhase = 2 ∧ d.initializePhase = 3 then
            [⟨env, buf, len⟩] else [] } := by
  rw [hasked, if_neg (by omega), List.append_nil, List.append_nil]
  exact .same e he d this phase ready

/-- Every call does one of these things. -/
theorem Call.moves (h : Call s buf env o e t) : Moves s buf env e t := by
  obtain ⟨p, p', h, h', h'', setupData, len, d, e, completed, carried⟩ := h
  cases onControlCompleted_completed completed with
  | noWaiter ready none =>
      obtain ⟨rfl, rfl⟩ := finish_error carried
      exact moves_same (by decide) rfl rfl rfl rfl
  | forwarded ready driver c waiter found =>
      rcases onControlCompleted_outcome c with ho | ho
      · rw [ho] at carried ⊢
        obtain ⟨rfl, rfl⟩ := finish_error carried
        exact moves_same (by decide) rfl rfl rfl rfl
      · rw [ho] at carried ⊢
        obtain ⟨he, hbase⟩ := finish_transfer rfl carried
        rw [hbase]
        exact moves_same he rfl rfl rfl rfl
  | outOfPhase starting phase =>
      obtain ⟨rfl, rfl⟩ := finish_error carried
      have hsame : ¬ (s.device.initializePhase = 2 ∧ s.device.initializePhase = 3) := by omega
      show Moves s buf env .kInvalidPhase
        ⟨s.device, s.requests ++ [], s.accepted ++ if _ then _ else _⟩
      rw [if_neg hsame, List.append_nil, List.append_nil]
      exact .invalid
  | noPhase starting early later latest =>
      obtain ⟨rfl, rfl⟩ := finish_error carried
      exact moves_same (by decide) rfl rfl rfl rfl
  | gotDevice starting phase request type =>
      obtain ⟨he, hbase⟩ := finish_transfer rfl carried
      have hsame : ¬ (s.device.initializePhase = 2 ∧ p'.base.initializePhase = 3) := by omega
      rw [if_neg hsame, List.append_nil, hbase]
      exact .configuration e he _ rfl starting phase rfl starting
  | unsupported starting phase h' =>
      obtain ⟨rfl, rfl⟩ := finish_error carried
      exact moves_same (by decide) rfl rfl rfl rfl
  | configuring starting phase request type ifDesc eps c accepts fresh few h' =>
      obtain ⟨he, hbase⟩ := finish_transfer rfl carried
      obtain ⟨hthis, hready⟩ := adopt_frame env s.device c eps
      have hthree : p'.base.initializePhase = 3 := by rw [hbase]
      rw [if_pos ⟨phase, hthree⟩, hbase]
      exact .setting e he _ len hthis starting phase rfl (hready.trans starting)
  | configured starting phase request d' set =>
      obtain ⟨rfl, rfl⟩ := finish_error carried
      have hthis : d'.this = s.device.this := by rw [setEndpoints_frame set]
      have hsame : ¬ (s.device.initializePhase = 2 ∧ 4 = 3) := by omega
      show Moves s buf env .kSuccess ⟨_, s.requests ++ [], s.accepted ++ if _ then _ else _⟩
      rw [if_neg hsame, List.append_nil, List.append_nil]
      exact .done _ hthis starting phase rfl rfl

/-- Only `OnControlCompleted` itself answers with `kInvalidPhase`. -/
theorem Call.eq_of_invalid (h : Call s buf env o .kInvalidPhase t) :
    t = s ∧ o = .error .kInvalidPhase := by
  have hmoves := h.moves
  constructor
  · cases hmoves with
    | same _ hne => exact absurd rfl hne
    | invalid => rfl
    | configuration _ hne => exact absurd rfl hne
    | setting _ hne => exact absurd rfl hne
  · obtain ⟨p, p', h, h', h'', setupData, len, d, _, _, carried⟩ := h
    cases o with
    | error e => rw [(finish_error carried).1]
    | transfer tr => exact absurd rfl (TransferError.ne (Pipes.run_returns h' _ tr _ carried).1)

/-! ## the theorem -/

/-- The requests of an initialization, given the descriptors accepted. -/
def script (d : Usb.Device) (accepted : List Delivery) : List Transfer :=
  getDescriptor kDefaultControlPipeID kDevice 0#8 d.buf bufSize ::
    getDescriptor kDefaultControlPipeID kConfiguration 0#8 d.buf bufSize ::
      accepted.map fun a => setConfiguration kDefaultControlPipeID a.configurationValue

/-- What holds of a device while it is initialized. -/
structure Sound (d₀ : Usb.Device) (s : InitRun) : Prop where
  this : s.device.this = d₀.this
  phase : 1 ≤ s.device.initializePhase ∧ s.device.initializePhase ≤ 4
  ready : s.device.isInitialized = true ↔ s.device.initializePhase = 4
  /-- one descriptor has been accepted from phase 3 on, and none before -/
  accepted : s.accepted.length = if s.device.initializePhase < 3 then 0 else 1
  /-- as many of the requests have been made as phases have been entered -/
  requests : s.requests = (script d₀ s.accepted).take s.device.initializePhase

theorem sound_start (d₀ : Usb.Device) : Sound d₀ (start d₀) where
  this := rfl
  phase := ⟨Nat.le_refl 1, Nat.le_add_left 1 3⟩
  ready := ⟨fun h => absurd h Bool.false_ne_true, fun h => absurd h (Nat.ne_of_beq_eq_false rfl)⟩
  accepted := rfl
  requests := rfl

/-- Every call keeps it so. -/
theorem Sound.step {d₀ : Usb.Device} (hs : Sound d₀ s) (h : Step s t) : Sound d₀ t := by
  obtain ⟨buf, env, o, e, hcall⟩ := h
  have hacc := hs.accepted
  have hreq := hs.requests
  cases hcall.moves with
  | same _ _ d this phase ready =>
      exact ⟨this.trans hs.this, phase ▸ hs.phase, by rw [ready, phase]; exact hs.ready,
        phase ▸ hacc, phase ▸ hreq⟩
  | invalid => exact hs
  | configuration _ _ d this starting phase enters still =>
      rw [phase, if_pos (by decide)] at hacc
      rw [phase] at hreq
      have hbuf : s.device.buf = d₀.buf := congrArg (· + BitVec.ofNat 64 offsetofBuf) hs.this
      refine ⟨this.trans hs.this, by rw [enters]; decide, by rw [enters, still]; decide, ?_, ?_⟩
      · rw [enters]
        exact hacc
      · rw [enters, hreq, hbuf]
        rfl
  | setting _ _ d _ this starting phase enters still =>
      rw [phase, if_pos (by decide)] at hacc
      rw [phase] at hreq
      obtain hnil := List.length_eq_zero_iff.mp hacc
      refine ⟨this.trans hs.this, by rw [enters]; decide, by rw [enters, still]; decide, ?_, ?_⟩
      · rw [enters, hnil]
        rfl
      · rw [enters, hreq, hnil]
        rfl
  | done d this starting phase enters ready =>
      rw [phase, if_neg (by decide)] at hacc
      rw [phase] at hreq
      obtain ⟨v, hv⟩ := List.length_eq_one_iff.mp hacc
      refine ⟨this.trans hs.this, by rw [enters]; decide, by rw [enters, ready]; decide, ?_, ?_⟩
      · rw [enters]
        exact hacc
      · rw [enters, hreq, hv]
        rfl

/-- A call enters at most one phase. -/
theorem Moves.phase_le (h : Moves s buf env e t) :
    s.device.initializePhase ≤ t.device.initializePhase ∧
      t.device.initializePhase ≤ s.device.initializePhase + 1 := by
  cases h with
  | same _ _ d _ phase _ => exact ⟨Nat.le_of_eq phase.symm, Nat.le_succ_of_le (Nat.le_of_eq phase)⟩
  | invalid => exact ⟨Nat.le_refl _, Nat.le_succ _⟩
  | configuration _ _ d _ _ phase enters _ => simp only; omega
  | setting _ _ d _ _ _ phase enters _ => simp only; omega
  | done d _ _ phase enters _ => simp only; omega

/-- **Initialization phases are sound.**  After `StartInitialize`, whatever
completions come in: the phase is 1 to 4, the device counts as initialized in
phase 4 only, and it has asked for the first requests of the script, one for
each of the phases 1 to 3 it has entered, the last with the value from the
descriptor it has accepted.  A call enters at most the next phase; one that
answers `kInvalidPhase` changes nothing and asks for nothing. -/
theorem phases_sound {d₀ : Usb.Device} {s : InitRun} (hrun : ReflTransGen Step (start d₀) s) :
    (start d₀).device.initializePhase = 1 ∧ Sound d₀ s ∧
      ∀ buf env o e t, Call s buf env o e t →
        (s.device.initializePhase ≤ t.device.initializePhase ∧
          t.device.initializePhase ≤ s.device.initializePhase + 1) ∧
        (e = .kInvalidPhase → t = s ∧ o = .error .kInvalidPhase) := by
  have hstep : ∀ s t, Sound d₀ s → Step s t → Sound d₀ t := fun _ _ => Sound.step
  refine ⟨rfl, Run.invariant hstep (sound_start d₀) hrun, ?_⟩
  intro buf env o e t hcall
  refine ⟨hcall.moves.phase_le, fun he => ?_⟩
  subst he
  exact hcall.eq_of_invalid

/-! ## a keyboard -/

/-- A device without transfer rings. -/
def bare (d : Usb.Device) : Pipes := ⟨d, 1#8, fun _ => none, ArrayMap.new 16 0#64⟩

/-- A call on a device that is being initialized, computed. -/
def complete (s : InitRun) (env : Env) (request : BitVec 8) (len : Int) : Except Fault InitRun := do
  if s.device.isInitialized then throw .endless
  else
    let (d, _, o) ← s.device.onControlCompleted env ⟨0x100000#64, []⟩
      ⟨0#8, request, 0#16, 0#16, 0#16⟩ s.device.buf len
    pure
      { device := d
        requests := s.requests ++ asked o
        accepted := s.accepted ++
          if s.device.initializePhase = 2 ∧ d.initializePhase = 3 then
            [⟨env, s.device.buf, len⟩] else [] }

theorem step_of_complete {request : BitVec 8} {len : Int}
    (ret : s.complete env request len = .ok t) : Step s t := by
  unfold complete at ret
  split at ret
  · exact absurd ret Returns.throw_ne_ok
  · next hstarting =>
    obtain ⟨⟨d, h', o⟩, completed, hret⟩ := Returns.bind_eq_ok.mp ret
    cases Returns.pure_eq_ok.mp hret
    have hcarried : ∃ e p' h'', Pipes.finish h' { bare d with base := d } o = .ok (e, p', h'') ∧
        p'.base = d := by
      cases onControlCompleted_completed completed with
      | noWaiter ready => exact absurd ready hstarting
      | forwarded ready => exact absurd ready hstarting
      | outOfPhase => exact ⟨_, _, _, rfl, rfl⟩
      | noPhase => exact ⟨_, _, _, rfl, rfl⟩
      | gotDevice => exact ⟨_, _, _, rfl, rfl⟩
      | unsupported => exact ⟨_, _, _, rfl, rfl⟩
      | configuring => exact ⟨_, _, _, rfl, rfl⟩
      | configured => exact ⟨_, _, _, rfl, rfl⟩
    obtain ⟨e, p', h'', hfinish, rfl⟩ := hcarried
    exact ⟨_, _, o, e, .mk (bare p'.base) p' _ h' h'' _ len p'.base e completed hfinish⟩

/-- A device at 2 MiB. -/
def sampleDevice : Usb.Device := Usb.Device.new 0x200000#64

/-- The buffer of the device holds a descriptor. -/
def received (bytes : List (BitVec 8)) : Env :=
  { Env.zero poolAtMiB with mem := fun a => bytes.getD (a - sampleDevice.buf).toNat 0#8 }

/-- A configuration with one boot keyboard and its interrupt endpoints. -/
def keyboardConfiguration (addresses : List (BitVec 8)) : List (BitVec 8) :=
  [9, 2, 0, 0, 1, 1, 0, 0xa0, 50] ++
    [9, 4, 0, 0, BitVec.ofNat 8 addresses.length, 3, 1, 1, 0] ++
    addresses.flatMap fun address => [7, 5, address, 3, 8, 0, 10]

/-- The initialization of a keyboard with endpoints at some addresses. -/
def bringUp (addresses : List (BitVec 8)) : Except Fault InitRun := do
  let conf := keyboardConfiguration addresses
  let s ← (start sampleDevice).complete (received [18, 1]) Request.kGetDescriptor 18
  let s ← s.complete (received conf) Request.kGetDescriptor conf.length
  s.complete (received []) Request.kSetConfiguration 0

theorem run_of_bringUp {addresses : List (BitVec 8)} (ret : bringUp addresses = .ok s) :
    ReflTransGen Step (start sampleDevice) s := by
  obtain ⟨s₁, h₁, hrest⟩ := Returns.bind_eq_ok.mp ret
  obtain ⟨s₂, h₂, h₃⟩ := Returns.bind_eq_ok.mp hrest
  exact ((ReflTransGen.single (step_of_complete h₁)).tail (step_of_complete h₂)).tail
    (step_of_complete h₃)

/-- What is computed of a bring-up holds at the end of a run. -/
theorem exists_of_bringUp {addresses : List (BitVec 8)} {f : InitRun → α} {x : α}
    (h : (bringUp addresses).toOption.map f = some x) :
    ∃ s, ReflTransGen Step (start sampleDevice) s ∧ f s = x := by
  cases hret : bringUp addresses with
  | error e => rw [hret] at h; contradiction
  | ok s => rw [hret] at h; exact ⟨s, run_of_bringUp hret, Option.some.inj h⟩

/-- A boot keyboard goes through all phases. -/
theorem phases_sound_keyboard : ∃ s, s.device.initializePhase = 4 ∧
    (start sampleDevice).device.initializePhase = 1 ∧ Sound sampleDevice s ∧
      ∀ buf env o e t, Call s buf env o e t →
        (s.device.initializePhase ≤ t.device.initializePhase ∧
          t.device.initializePhase ≤ s.device.initializePhase + 1) ∧
        (e = .kInvalidPhase → t = s ∧ o = .error .kInvalidPhase) := by
  have hfour : (bringUp [0x81]).toOption.map (fun s => s.device.initializePhase) = some 4 := by
    decide +kernel
  obtain ⟨s, hrun, hphase⟩ := exists_of_bringUp hfour
  exact ⟨s, hphase, phases_sound hrun⟩

end InitRun

end MikanOs.Usb.Xhci
