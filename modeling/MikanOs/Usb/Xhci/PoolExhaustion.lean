import MikanOs.Usb.Xhci.CommandCompletion
import MikanOs.Usb.Xhci.EndpointContexts

/-!
# MikanOs.Usb.Xhci.PoolExhaustion

What becomes of a device the pool has no room for.  `AllocDevice` does not
look at what the pool answers, and `AddressDevice` and `ConfigureEndpoints`
do not look at what `AllocTransferRing` returns, nor does that at what
`Initialize` of the ring does; so each of them reports a pool that is
exhausted just when it does not get as far as asking it.
-/

namespace MikanOs.Usb.Xhci

open Controller

/-! ## `AllocDevice` -/

/-- What `AllocDevice` owes: a new device, or an error and the tables as they
were. -/
def DeviceReported (m : DeviceManager) (slotId dbreg : BitVec 8)
    (call : Except Fault (Error × DeviceManager × Host)) : Prop :=
  ∃ err m' h', call = .ok (err, m', h') ∧
    ((err = .kSuccess ∧ ∃ this, this ≠ 0#64 ∧ m' = m.set slotId (Device.new this slotId dbreg)) ∨
      (err ≠ .kSuccess ∧ m' = m))

theorem allocDevice_reported_iff {env : Env} {h : Host} (m : DeviceManager)
    (slotId dbreg : BitVec 8) (cursor : CursorOk env.pool h.allocPtr) :
    DeviceReported m slotId dbreg (m.allocDevice env h slotId dbreg) ↔
      m.maxSlots < slotId.toNat ∨ m.devices slotId ≠ none ∨
        HasRoom env.pool h.allocPtr [deviceRequest] := by
  by_cases hbeyond : m.maxSlots < slotId.toNat
  · rw [DeviceManager.allocDevice_of_lt hbeyond]
    exact ⟨fun _ => .inl hbeyond, fun _ => ⟨_, _, _, rfl, .inr ⟨nofun, rfl⟩⟩⟩
  rw [or_iff_right hbeyond]
  cases htaken : m.devices slotId with
  | some dev =>
      rw [DeviceManager.allocDevice_of_some (Nat.le_of_not_lt hbeyond) htaken]
      exact ⟨fun _ => .inl nofun, fun _ => ⟨_, _, _, rfl, .inr ⟨nofun, rfl⟩⟩⟩
  | none =>
      rw [or_iff_right (not_not_intro rfl)]
      have hanswer := allocDevice_answer dbreg (Nat.le_of_not_lt hbeyond) htaken cursor
      generalize m.allocDevice env h slotId dbreg = ret at hanswer
      cases hanswer with
      | null full =>
          refine ⟨?_, fun room => absurd room (full [])⟩
          rintro ⟨_, _, _, hret, _⟩
          contradiction
      | made this h' nonnull room cursor' =>
          exact ⟨fun _ => (room []).mpr trivial,
            fun _ => ⟨_, _, _, rfl, .inl ⟨rfl, this, nonnull, rfl⟩⟩⟩

/-! ## transfer rings -/

/-- The ring of a context index is there, and has a buffer. -/
def Buffered (rings : Rings) (dci : Int) : Prop :=
  ∃ d tr, checked 31 (dci - 1) = .ok d ∧ rings d = some tr ∧ tr.buf ≠ 0#64

/-- What a call that makes rings for a device owes: an error and no command,
or a ring with a buffer for each index. -/
def RingsReported (s : Controller) (slotId : BitVec 8) (dcis : List Int)
    (call : Except Fault (Error × Controller)) : Prop :=
  ∃ err s', call = .ok (err, s') ∧ ((err ≠ .kSuccess ∧ s'.commands = s.commands) ∨
    ∃ dev, s'.devmgr.devices slotId = some dev ∧
      ∀ dci ∈ dcis, Buffered dev.pipes.transferRings dci)

theorem buffered_withRing_iff {p : Pipes} {dci : Int} {d : Nat} {tr : Ring}
    (hd : checked 31 (dci - 1) = .ok d) :
    Buffered (p.withRing d (some tr)).transferRings dci ↔ tr.buf ≠ 0#64 := by
  have hself : (p.withRing d (some tr)).transferRings d = some tr := update_self _ _ _
  constructor
  · rintro ⟨d', tr', hd', hring, hbuffer⟩
    obtain rfl := Except.ok.inj (hd.symm.trans hd')
    rwa [Option.some.inj (hself.symm.trans hring)]
  · exact fun hbuffer => ⟨d, tr, hd, hself, hbuffer⟩

theorem not_ringsReported_error (s : Controller) (slotId : BitVec 8) (dcis : List Int)
    (f : Fault) : ¬ RingsReported s slotId dcis (.error f) := by
  rintro ⟨_, _, hret, _⟩
  contradiction

/-- A call that succeeds. -/
theorem ringsReported_success_iff {s s' : Controller} {slotId : BitVec 8} {dcis : List Int}
    {dev : Device} (hdev : s'.devmgr.devices slotId = some dev) :
    RingsReported s slotId dcis (.ok (.kSuccess, s')) ↔
      ∀ dci ∈ dcis, Buffered dev.pipes.transferRings dci := by
  constructor
  · rintro ⟨err, t, hret, hcase⟩
    obtain ⟨rfl, rfl⟩ := Prod.mk.inj (Except.ok.inj hret)
    rcases hcase with ⟨herr, _⟩ | ⟨dev', hdev', hbuffered⟩
    · exact absurd rfl herr
    · rwa [Option.some.inj (hdev.symm.trans hdev')]
  · exact fun hbuffered => ⟨_, _, rfl, .inr ⟨dev, hdev, hbuffered⟩⟩

/-! ## `AddressDevice` -/

/-- With a ring object `AddressDevice` succeeds. -/
theorem addressSlot_of_some {env : Env} {s : Controller} {port slotId : BitVec 8} {dev : Device}
    {tr : Ring} {pipes : Pipes} {h' : Host} (hslot : slotId.toNat ≤ s.devmgr.maxSlots)
    (commandRing : s.cr.buf ≠ 0#64)
    (alloc : dev.pipes.allocTransferRing env (s.portAt port).host 1 32 =
      .ok (some tr, pipes, h')) :
    ∃ s' dev', s.addressSlot env port slotId dev = .ok (.kSuccess, s') ∧
      s'.devmgr.devices slotId = some dev' ∧ dev'.pipes = pipes := by
  let dev' : Device :=
    { dev with inputCtx := addressInput env port dev.inputCtx tr, pipes := pipes }
  have hload := DeviceManager.loadDCBAA_set (m := s.devmgr) hslot dev'
  obtain ⟨s', hpush, hdevmgr⟩ := pushCommand_of_buf
    (s := { (s.portAt port).setDevice slotId dev' h' with
      devmgr := s.devmgr.load slotId dev' }.setPhase port .kAddressingDevice) commandRing port
    (AddressDeviceCommandTRB.new dev'.inputContext slotId)
  refine ⟨s', dev', ?_, ?_, rfl⟩
  · exact Returns.bind_eq_ok.mpr ⟨_, alloc, Returns.bind_eq_ok.mpr ⟨_, hload,
      Returns.bind_eq_ok.mpr ⟨_, hpush, rfl⟩⟩⟩
  · rw [hdevmgr]
    exact DeviceManager.load_devices_self s.devmgr slotId dev'

theorem addressSlot_reported_iff {env : Env} {s : Controller} (port : BitVec 8) {slotId : BitVec 8}
    (dev : Device) (hslot : slotId.toNat ≤ s.devmgr.maxSlots) (commandRing : s.cr.buf ≠ 0#64)
    (cursor : CursorOk env.pool s.host.allocPtr) :
    RingsReported s slotId [1] (s.addressSlot env port slotId dev) ↔
      HasRoom env.pool s.host.allocPtr ringRequests := by
  have hd : checked 31 (1 - 1) = .ok 0 := rfl
  obtain ⟨_, halloc, hanswer⟩ :=
    allocTransferRing_answer (h := (s.portAt port).host) dev.pipes hd cursor
  cases hanswer with
  | object h' full =>
      have hret : s.addressSlot env port slotId dev = .error .nullPointer :=
        Returns.bind_ok halloc _
      rw [hret]
      exact iff_of_false (not_ringsReported_error _ _ _ _) fun room =>
        full [] (by rwa [List.append_nil])
  | buffer tr h' null full cursor' starved =>
      obtain ⟨s', dev', hret, hdev, hpipes⟩ := addressSlot_of_some hslot commandRing halloc
      rw [hret, ringsReported_success_iff hdev, List.forall_mem_singleton, hpipes,
        buffered_withRing_iff hd]
      exact iff_of_false (not_not_intro null) fun room => full [] (by rwa [List.append_nil])
  | granted tr h' buffer room cursor' unstarved =>
      obtain ⟨s', dev', hret, hdev, hpipes⟩ := addressSlot_of_some hslot commandRing halloc
      rw [hret, ringsReported_success_iff hdev, List.forall_mem_singleton, hpipes,
        buffered_withRing_iff hd]
      exact iff_of_true buffer (List.append_nil ringRequests ▸ (room []).mpr trivial)

/-- `AddressDevice` of a slot whose device, old or new, has been found. -/
theorem addressDevice_of_alloc {env : Env} {s : Controller} {port slotId : BitVec 8} {e : Error}
    {m : DeviceManager} {h' : Host} {dev : Device}
    (alloc : s.devmgr.allocDevice env s.host slotId slotId = .ok (e, m, h'))
    (found : m.findBySlot slotId = some dev) : s.addressDevice env port slotId =
      ({ s with devmgr := m, host := h' } : Controller).addressSlot env port slotId dev := by
  refine (Returns.bind_ok alloc _).trans ?_
  simp only
  rw [found]

/-- What `AddressDevice` asks the pool for. -/
def addressRequests (m : DeviceManager) (slotId : BitVec 8) : List Request :=
  if (m.devices slotId).isNone then deviceRequest :: ringRequests else ringRequests

theorem addressDevice_reported_iff {env : Env} {s : Controller} (port slotId : BitVec 8)
    (commandRing : s.cr.buf ≠ 0#64) (cursor : CursorOk env.pool s.host.allocPtr) :
    RingsReported s slotId [1] (s.addressDevice env port slotId) ↔
      s.devmgr.maxSlots < slotId.toNat ∨
        HasRoom env.pool s.host.allocPtr (addressRequests s.devmgr slotId) := by
  by_cases hbeyond : s.devmgr.maxSlots < slotId.toNat
  · rw [addressDevice_beyond hbeyond]
    exact iff_of_true ⟨_, _, rfl, .inl ⟨nofun, rfl⟩⟩ (.inl hbeyond)
  have hslot := Nat.le_of_not_lt hbeyond
  rw [or_iff_right hbeyond, addressRequests]
  cases htaken : s.devmgr.devices slotId with
  | some dev =>
      have halloc := DeviceManager.allocDevice_of_some hslot htaken env s.host slotId
      rw [addressDevice_of_alloc halloc ((DeviceManager.findBySlot_of_le hslot).trans htaken)]
      exact addressSlot_reported_iff port dev hslot commandRing cursor
  | none =>
      have hanswer := allocDevice_answer slotId hslot htaken cursor
      generalize hcall : s.devmgr.allocDevice env s.host slotId slotId = call at hanswer
      cases hanswer with
      | null full =>
          have hret : s.addressDevice env port slotId = .error .nullPointer := by
            unfold Controller.addressDevice
            rw [hcall]
            rfl
          rw [hret]
          exact iff_of_false (not_ringsReported_error _ _ _ _) (full ringRequests)
      | made this h' nonnull room cursor' =>
          have hrings := addressSlot_reported_iff
            (s := { s with
              devmgr := s.devmgr.set slotId (Device.new this slotId slotId)
              host := h' }) port (Device.new this slotId slotId) hslot commandRing cursor'
          rw [addressDevice_of_alloc hcall (DeviceManager.findBySlot_set hslot _),
            Option.isNone_none, if_pos rfl]
          exact hrings.trans (room ringRequests).symm

/-! ## `ConfigureEndpoints` -/

/-- The context indices of some endpoint configs in a row. -/
def dcisFrom (dev : Device) (i n : Nat) : List Int :=
  (List.range' i n).map fun j => (dev.pipes.base.epConfigs j).epId.addr

theorem dcisFrom_succ (dev : Device) (i n : Nat) : dcisFrom dev i (n + 1) =
    (dev.pipes.base.epConfigs i).epId.addr :: dcisFrom dev (i + 1) n := by
  rw [dcisFrom, List.range'_succ, List.map_cons]
  rfl

/-- What a round has got from the pool. -/
theorem ringAlloc_of_configureEach {env : Env} {speed : BitVec 4} {n i : Nat} {h : Host}
    {dev : Device} {r : Device × Host} (cursor : CursorOk env.pool h.allocPtr)
    (ret : configureEach env speed h dev (n + 1) i = .ok r) :
    i < 16 ∧ ∃ d tr h₁, checked 31 ((dev.pipes.base.epConfigs i).epId.addr - 1) = .ok d ∧
      RingAlloc env h dev.pipes d (some tr, dev.pipes.withRing d (some tr), h₁) ∧
      configureEach env speed h₁ (configured speed dev (dev.pipes.base.epConfigs i) d tr) n
        (i + 1) = .ok r := by
  obtain ⟨hi, d, tr, h₁, hd, halloc, hnext⟩ := configureEach_round ret
  obtain ⟨_, hsame, hanswer⟩ := allocTransferRing_answer dev.pipes hd cursor
  obtain rfl := Except.ok.inj (hsame.symm.trans halloc)
  exact ⟨hi, d, tr, h₁, hd, hanswer, hnext⟩

/-- Once a ring has no buffer, no later one has: the last one made is one
without. -/
theorem exists_not_buffered {env : Env} {speed : BitVec 4} {n i : Nat} {h h' : Host}
    {dev dev' : Device} {dci : Int} (last : ¬ Buffered dev.pipes.transferRings dci)
    (cursor : CursorOk env.pool h.allocPtr) (starved : Starved env.pool h.allocPtr)
    (ret : configureEach env speed h dev n i = .ok (dev', h')) :
    ∃ dci' ∈ dci :: dcisFrom dev i n, ¬ Buffered dev'.pipes.transferRings dci' := by
  induction n generalizing h dev i dci with
  | zero =>
      cases Returns.pure_eq_ok.mp ret
      exact ⟨dci, List.mem_cons_self, last⟩
  | succ n ih =>
      obtain ⟨_, d, tr, h₁, hd, halloc, hnext⟩ := ringAlloc_of_configureEach cursor ret
      rw [dcisFrom_succ]
      cases halloc with
      | buffer _ _ null full cursor₁ starved₁ =>
          have hbad : ¬ Buffered (configured speed dev (dev.pipes.base.epConfigs i) d
              tr).pipes.transferRings (dev.pipes.base.epConfigs i).epId.addr :=
            fun h => (buffered_withRing_iff hd).mp h null
          obtain ⟨dci', hmem, hnot⟩ := ih hbad cursor₁ starved₁ hnext
          exact ⟨dci', List.mem_cons_of_mem _ hmem, hnot⟩
      | granted _ _ buffer room cursor₁ unstarved => exact absurd starved unstarved

/-- If the loop gets through with a buffer for every ring, there was room. -/
theorem hasRoom_of_configureEach {env : Env} {speed : BitVec 4} {n i : Nat} {h h' : Host}
    {dev dev' : Device} (hi : i ≤ 16) (cursor : CursorOk env.pool h.allocPtr)
    (ret : configureEach env speed h dev n i = .ok (dev', h'))
    (buffered : ∀ dci ∈ dcisFrom dev i n, Buffered dev'.pipes.transferRings dci) :
    i + n ≤ 16 ∧ (∀ dci ∈ dcisFrom dev i n, 1 ≤ dci ∧ dci ≤ 31) ∧
      HasRoom env.pool h.allocPtr (ringsRequests n) := by
  induction n generalizing h dev i with
  | zero => exact ⟨hi, nofun, trivial⟩
  | succ n ih =>
      obtain ⟨hlt, d, tr, h₁, hd, halloc, hnext⟩ := ringAlloc_of_configureEach cursor ret
      rw [dcisFrom_succ] at buffered ⊢
      cases halloc with
      | buffer _ _ null full cursor₁ starved =>
          obtain ⟨dci, hmem, hnot⟩ := exists_not_buffered
            (fun h => (buffered_withRing_iff hd).mp h null) cursor₁ starved hnext
          exact absurd (buffered dci hmem) hnot
      | granted _ _ buffer room cursor₁ unstarved =>
          have hrest := fun dci h => buffered dci (List.mem_cons_of_mem _ h)
          obtain ⟨hfew, hindices, hroom⟩ := ih hlt cursor₁ hnext hrest
          obtain ⟨⟨hlo, hhi⟩, _⟩ := checked_eq_ok.mp hd
          refine ⟨by omega, List.forall_mem_cons.mpr ⟨⟨by omega, by omega⟩, hindices⟩, ?_⟩
          exact (room (ringsRequests n)).mpr hroom

/-- A ring with a buffer is put in one place, or in another. -/
theorem Buffered.withRing {p : Pipes} {d : Nat} {tr : Ring} (buffer : tr.buf ≠ 0#64) {dci : Int}
    (h : Buffered p.transferRings dci) : Buffered (p.withRing d (some tr)).transferRings dci := by
  obtain ⟨d', tr', hd', hring, hbuffer⟩ := h
  by_cases hdd : d' = d
  · exact ⟨d', tr, hd', hdd ▸ update_self _ _ _, buffer⟩
  · exact ⟨d', tr', hd', (update_ne hdd _ _).trans hring, hbuffer⟩

/-- And with room it does.  The rings that are `done` keep a buffer. -/
theorem configureEach_of_hasRoom {env : Env} (speed : BitVec 4) {n i : Nat} {h : Host}
    {dev : Device} {done : List Int}
    (buffered : ∀ dci ∈ done, Buffered dev.pipes.transferRings dci)
    (cursor : CursorOk env.pool h.allocPtr) (few : i + n ≤ 16)
    (indices : ∀ dci ∈ dcisFrom dev i n, 1 ≤ dci ∧ dci ≤ 31)
    (room : HasRoom env.pool h.allocPtr (ringsRequests n)) :
    ∃ dev' h', configureEach env speed h dev n i = .ok (dev', h') ∧
      ∀ dci ∈ done ++ dcisFrom dev i n, Buffered dev'.pipes.transferRings dci := by
  induction n generalizing h dev i done with
  | zero => exact ⟨dev, h, rfl, by simpa [dcisFrom] using buffered⟩
  | succ n ih =>
      rw [dcisFrom_succ] at indices ⊢
      obtain ⟨hindex, hindices⟩ := List.forall_mem_cons.mp indices
      have hd : checked 31 ((dev.pipes.base.epConfigs i).epId.addr - 1) = .ok _ :=
        checked_eq_ok.mpr ⟨by omega, rfl⟩
      obtain ⟨tr, h₁, halloc, hbuffer, hroom⟩ := allocTransferRing_of_room dev.pipes hd cursor room
      have hcursor := (granted_of_allocTransferRing cursor halloc).cursor
      rw [configureEach_of_some n (by omega) rfl hd halloc, List.append_cons]
      refine ih ?_ hcursor (by omega) hindices hroom
      intro dci hdci
      rcases List.mem_append.mp hdci with hold | hnew
      · exact (buffered dci hold).withRing hbuffer
      · rw [List.mem_singleton.mp hnew]
        exact (buffered_withRing_iff hd).mpr hbuffer

/-- **The loop** of `ConfigureEndpoints` gets through with a buffer for every
ring just when its indices lie inside the arrays and there is room for all of
them. -/
theorem configureEach_buffered_iff {env : Env} (speed : BitVec 4) {h : Host} (dev : Device)
    (n : Nat) (cursor : CursorOk env.pool h.allocPtr) :
    (∃ dev' h', configureEach env speed h dev n 0 = .ok (dev', h') ∧
        ∀ dci ∈ dcisFrom dev 0 n, Buffered dev'.pipes.transferRings dci) ↔
      n ≤ 16 ∧ (∀ dci ∈ dcisFrom dev 0 n, 1 ≤ dci ∧ dci ≤ 31) ∧
        HasRoom env.pool h.allocPtr (ringsRequests n) := by
  constructor
  · rintro ⟨dev', h', hret, hbuffered⟩
    obtain ⟨hfew, hrest⟩ := hasRoom_of_configureEach (Nat.zero_le 16) cursor hret hbuffered
    exact ⟨by omega, hrest⟩
  · rintro ⟨hfew, hindices, hroom⟩
    exact configureEach_of_hasRoom speed (List.forall_mem_nil _) cursor (by omega) hindices hroom

/-- The context indices of the endpoints of a device. -/
def dcis (dev : Device) : List Int := dev.pipes.base.configs.map (·.epId.addr)

theorem dcisFrom_zero (env : Env) (slotId : BitVec 8) (dev : Device) :
    dcisFrom (startConfigure env slotId dev) 0 dev.pipes.base.numEpConfigs = dcis dev := by
  rw [dcis, Usb.Device.configs, List.map_map, List.range_eq_range']
  rfl

/-- A speed there is no code for. -/
def SpeedUnknown (env : Env) (slotId : BitVec 8) : Prop :=
  portSpeed env slotId = 0#4 ∨ 5#4 < portSpeed env slotId

instance (env : Env) (slotId : BitVec 8) : Decidable (SpeedUnknown env slotId) :=
  inferInstanceAs (Decidable (_ ∨ _))

/-- With a loop that gets through `ConfigureEndpoints` succeeds. -/
theorem configureEndpoints_of_ok {env : Env} {s : Controller} {slotId : BitVec 8}
    {dev dev' : Device} {h' : Host} (known : ¬ SpeedUnknown env slotId)
    (commandRing : s.cr.buf ≠ 0#64)
    (each : configureEach env (portSpeed env slotId) (s.portAt (portOf env slotId)).host
      (startConfigure env slotId dev) dev.pipes.base.numEpConfigs 0 = .ok (dev', h')) :
    ∃ s', s.configureEndpoints env slotId dev = .ok (.kSuccess, s') ∧
      s'.devmgr.devices slotId = some dev' := by
  obtain ⟨s', hpush, hdevmgr⟩ := pushCommand_of_buf
    (s := ((s.portAt (portOf env slotId)).setDevice slotId dev' h').setPhase (portOf env slotId)
      .kConfiguringEndpoints) commandRing (portOf env slotId)
    (ConfigureEndpointCommandTRB.new dev'.inputContext dev'.slotId)
  refine ⟨s', ?_, ?_⟩
  · refine (configureEndpoints_eq env s slotId dev).trans ((if_neg known).trans ?_)
    exact Returns.bind_eq_ok.mpr ⟨_, each, Returns.bind_eq_ok.mpr ⟨_, hpush, rfl⟩⟩
  · rw [hdevmgr]
    exact DeviceManager.set_devices_self s.devmgr slotId dev'

theorem configureEndpoints_reported_iff {env : Env} {s : Controller} (slotId : BitVec 8)
    (dev : Device) (commandRing : s.cr.buf ≠ 0#64) (cursor : CursorOk env.pool s.host.allocPtr) :
    RingsReported s slotId (dcis dev) (s.configureEndpoints env slotId dev) ↔
      SpeedUnknown env slotId ∨ dev.pipes.base.numEpConfigs ≤ 16 ∧
        (∀ dci ∈ dcis dev, 1 ≤ dci ∧ dci ≤ 31) ∧
        HasRoom env.pool s.host.allocPtr (ringsRequests dev.pipes.base.numEpConfigs) := by
  by_cases hspeed : SpeedUnknown env slotId
  · have hret := (configureEndpoints_eq env s slotId dev).trans (if_pos hspeed)
    rw [hret]
    exact iff_of_true ⟨_, _, rfl, .inl ⟨nofun, rfl⟩⟩ (.inl hspeed)
  have hloop := configureEach_buffered_iff (h := (s.portAt (portOf env slotId)).host)
    (portSpeed env slotId) (startConfigure env slotId dev) dev.pipes.base.numEpConfigs cursor
  rw [or_iff_right hspeed]
  rw [dcisFrom_zero] at hloop
  refine Iff.trans ?_ hloop
  cases heach : configureEach env (portSpeed env slotId) (s.portAt (portOf env slotId)).host
      (startConfigure env slotId dev) dev.pipes.base.numEpConfigs 0 with
  | error f =>
      have hret : s.configureEndpoints env slotId dev = .error f := by
        refine (configureEndpoints_eq env s slotId dev).trans ((if_neg hspeed).trans ?_)
        rw [heach]
        rfl
      rw [hret]
      exact iff_of_false (not_ringsReported_error _ _ _ _) nofun
  | ok r =>
      obtain ⟨dev', h'⟩ := r
      obtain ⟨s', hret, hdev⟩ := configureEndpoints_of_ok hspeed commandRing heach
      rw [hret, ringsReported_success_iff hdev]
      refine ⟨fun h => ⟨dev', h', rfl, h⟩, ?_⟩
      rintro ⟨_, _, hsame, hall⟩
      obtain ⟨rfl, _⟩ := Prod.mk.inj (Except.ok.inj hsame)
      exact hall

/-! ## all three -/

/-- **Pool exhaustion is reported** while a device is added just when the pool
is not asked, or has room for everything it is asked for. -/
theorem poolExhaustion_reported_iff {env : Env} {s : Controller}
    (cursor : CursorOk env.pool s.host.allocPtr) (commandRing : s.cr.buf ≠ 0#64) :
    (∀ slotId dbreg : BitVec 8,
      DeviceReported s.devmgr slotId dbreg (s.devmgr.allocDevice env s.host slotId dbreg) ↔
        s.devmgr.maxSlots < slotId.toNat ∨ s.devmgr.devices slotId ≠ none ∨
          HasRoom env.pool s.host.allocPtr [deviceRequest]) ∧
    (∀ port slotId : BitVec 8,
      RingsReported s slotId [1] (s.addressDevice env port slotId) ↔
        s.devmgr.maxSlots < slotId.toNat ∨
          HasRoom env.pool s.host.allocPtr (addressRequests s.devmgr slotId)) ∧
    ∀ (slotId : BitVec 8) (dev : Device),
      RingsReported s slotId (dcis dev) (s.configureEndpoints env slotId dev) ↔
        SpeedUnknown env slotId ∨ dev.pipes.base.numEpConfigs ≤ 16 ∧
          (∀ dci ∈ dcis dev, 1 ≤ dci ∧ dci ≤ 31) ∧
          HasRoom env.pool s.host.allocPtr (ringsRequests dev.pipes.base.numEpConfigs) :=
  ⟨fun slotId dbreg => allocDevice_reported_iff s.devmgr slotId dbreg cursor,
    fun port slotId => addressDevice_reported_iff port slotId commandRing cursor,
    fun slotId dev => configureEndpoints_reported_iff slotId dev commandRing cursor⟩

/-- A controller with a device in slot 1, and so much of the pool handed
out. -/
def drained (allocPtr : BitVec 64) : Controller :=
  .untouched 4#8 ((DeviceManager.empty 8).set 1#8 threeConfigsDevice) (Ring.on 0x100000#64)
    ⟨allocPtr, []⟩

/-- Half of the pool is enough. -/
theorem poolExhaustion_reported_half :
    DeviceReported (drained 0x110000#64).devmgr 2#8 2#8
      ((drained 0x110000#64).devmgr.allocDevice fullSpeedEnv (drained 0x110000#64).host 2#8 2#8) ∧
    RingsReported (drained 0x110000#64) 2#8 [1]
      ((drained 0x110000#64).addressDevice fullSpeedEnv 1#8 2#8) ∧
    RingsReported (drained 0x110000#64) 1#8 (dcis threeConfigsDevice)
      ((drained 0x110000#64).configureEndpoints fullSpeedEnv 1#8 threeConfigsDevice) := by
  have cursor : CursorOk fullSpeedEnv.pool (drained 0x110000#64).host.allocPtr :=
    ⟨by decide, by decide⟩
  obtain ⟨halloc, haddress, hconfigure⟩ := poolExhaustion_reported_iff cursor (by decide)
  exact ⟨(halloc 2#8 2#8).mpr (.inr (.inr (by decide))), (haddress 1#8 2#8).mpr (.inr (by decide)),
    (hconfigure 1#8 threeConfigsDevice).mpr (.inr (by decide))⟩

/-- Without any of it a device is constructed at the null address; with 256
bytes, enough for a ring object but not for its buffer, a device is addressed
on a ring without one. -/
theorem not_poolExhaustion_reported :
    (drained 0x120000#64).devmgr.allocDevice fullSpeedEnv (drained 0x120000#64).host 2#8 2#8 =
      .error .nullPointer ∧
    ((drained 0x11ff00#64).addressDevice fullSpeedEnv 1#8 1#8).map
      (fun r => (r.1, r.2.commands.length)) = .ok (.kSuccess, 1) ∧
    ¬ DeviceReported (drained 0x120000#64).devmgr 2#8 2#8
      ((drained 0x120000#64).devmgr.allocDevice fullSpeedEnv (drained 0x120000#64).host 2#8 2#8) ∧
    ¬ RingsReported (drained 0x11ff00#64) 1#8 [1]
      ((drained 0x11ff00#64).addressDevice fullSpeedEnv 1#8 1#8) ∧
    ¬ RingsReported (drained 0x11ff00#64) 1#8 (dcis threeConfigsDevice)
      ((drained 0x11ff00#64).configureEndpoints fullSpeedEnv 1#8 threeConfigsDevice) := by
  have hempty : CursorOk fullSpeedEnv.pool (drained 0x120000#64).host.allocPtr :=
    ⟨by decide, by decide⟩
  have hlast : CursorOk fullSpeedEnv.pool (drained 0x11ff00#64).host.allocPtr :=
    ⟨by decide, by decide⟩
  refine ⟨rfl, rfl, ?_, ?_, ?_⟩
  · rw [allocDevice_reported_iff _ _ _ hempty]
    decide
  · rw [addressDevice_reported_iff _ _ (by decide) hlast]
    decide
  · rw [configureEndpoints_reported_iff _ _ (by decide) hlast]
    exact not_or_intro (by decide) fun h => absurd h.2.2 (by decide)

end MikanOs.Usb.Xhci
