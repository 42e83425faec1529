import MikanOs.Usb.ConfigurationRuns
import MikanOs.Usb.Xhci.EndpointIndex

/-!
# MikanOs.Usb.Xhci.EndpointTable

The table of endpoints has 16 entries, and the loop that fills it runs as far
as the byte `num_endpoints` of the interface descriptor says.  `Overflows` is
what a buffer looks like that makes it go further; with any other buffer the
table is left so that the later phases can rely on it.
-/

namespace MikanOs.Usb

namespace Device

/-! ## entries -/

/-- The later phases find what they look up in the tables of a device. -/
structure EntriesOk (d : Device) : Prop where
  few : d.numEpConfigs ≤ 16
  /-- a listed endpoint has a number in range, and a class driver at it -/
  driven : ∀ i < d.numEpConfigs, ∃ num k, checked 16 (d.epConfigs i).epId.number = .ok num ∧
    d.classDrivers num = some k ∧ k < d.drivers.length

variable {d : Device}

theorem EntriesOk.of_empty (h : d.numEpConfigs = 0) : d.EntriesOk :=
  ⟨by omega, fun i hi => by omega⟩

/-- The endpoints of an accepted configuration are such entries. -/
theorem Served.entriesOk {env : Env} {eps : List (BitVec 64)} {c : HIDDriver}
    (h : d.Served (eps.map (makeEPConfig env)) c) : d.EntriesOk := by
  refine ⟨h.numEpConfigs ▸ h.few, fun i hi => ?_⟩
  have hmem : d.epConfigs i ∈ eps.map (makeEPConfig env) := by
    rw [← h.listed]
    exact List.mem_map_of_mem (List.mem_range.mpr hi)
  obtain ⟨q, _, hq⟩ := List.mem_map.mp hmem
  have hnumber := number_makeEPConfig env q
  have hlt := endpointNumber_lt env q
  refine ⟨_, 0, checked_eq_ok.mpr ⟨?_, rfl⟩, h.registered hmem, ?_⟩
  · rw [← hq]
    omega
  · rw [h.drivers]
    exact Nat.one_pos

/-- The loop of `InitializePhase3` over such entries. -/
theorem setEndpoints_returns {n i : Nat} (hmax : i + n ≤ 16)
    (hdriven : ∀ j, i ≤ j → j < i + n → ∃ num k,
      checked 16 (d.epConfigs j).epId.number = .ok num ∧ d.classDrivers num = some k) :
    ∃ d', d.setEndpoints n i = .ok d' ∧ d'.drivers.length = d.drivers.length := by
  induction n generalizing d i with
  | zero => exact ⟨d, rfl, rfl⟩
  | succ n ih =>
      have hi : checked 16 (i : Int) = .ok i := checked_eq_ok.mpr ⟨by omega, by omega⟩
      obtain ⟨num, k, hnum, hk⟩ := hdriven i (Nat.le_refl i) (by omega)
      obtain ⟨d', hret, hlength⟩ := ih
        (d := { d with drivers := d.drivers.modify k fun c => c.setEndpoint (d.epConfigs i) })
        (i := i + 1) (by omega) fun j hj hj' => hdriven j (by omega) (by omega)
      refine ⟨d', ?_, hlength.trans (List.length_modify _ _ _)⟩
      rw [setEndpoints]
      simp only [hi, hnum, hk, bind, Except.bind]
      exact hret

/-- **`InitializePhase3`** returns, and leaves the entries as they are. -/
theorem EntriesOk.initializePhase3 (h : d.EntriesOk) :
    ∃ d', d.initializePhase3 = .ok d' ∧ d'.EntriesOk := by
  have hdriven : ∀ j, 0 ≤ j → j < 0 + d.numEpConfigs → ∃ num k,
      checked 16 (d.epConfigs j).epId.number = .ok num ∧ d.classDrivers num = some k := by
    intro j _ hj
    obtain ⟨num, k, hnum, hk, _⟩ := h.driven j (by omega)
    exact ⟨num, k, hnum, hk⟩
  obtain ⟨d', hret, hlength⟩ := setEndpoints_returns (Nat.zero_add _ ▸ h.few) hdriven
  refine ⟨{ d' with initializePhase := 4, isInitialized := true }, ?_, ?_⟩
  · rw [Device.initializePhase3, hret]
    rfl
  · rw [setEndpoints_frame hret]
    refine ⟨h.few, fun i hi => ?_⟩
    obtain ⟨num, k, hnum, hk, hlt⟩ := h.driven i hi
    exact ⟨num, k, hnum, hk, hlength ▸ hlt⟩

end Device

end MikanOs.Usb

namespace MikanOs.Usb.Xhci

open Descriptor Relation Usb.Device

/-- `ConfigureEndpoints` leaves its arrays only with an endpoint 0 OUT, whose
index is 0. -/
theorem Controller.configureEach_outOfBounds {env : Env} {speed : BitVec 4} {h : Host}
    {dev : Device} {n i : Nat} (hmax : i + n ≤ 16)
    (hnumber : ∀ j, i ≤ j → j < i + n → ∃ num,
      checked 16 (dev.pipes.base.epConfigs j).epId.number = .ok num)
    (ret : configureEach env speed h dev n i = .error .outOfBounds) :
    ∃ j, i ≤ j ∧ j < i + n ∧ (dev.pipes.base.epConfigs j).epId.addr = 0 := by
  induction n generalizing h dev i with
  | zero => cases ret
  | succ n ih =>
      by_cases hzero : (dev.pipes.base.epConfigs i).epId.addr = 0
      · exact ⟨i, Nat.le_refl i, by omega, hzero⟩
      · obtain ⟨num, hnum⟩ := hnumber i (Nat.le_refl i) (by omega)
        obtain ⟨hrange, _⟩ := checked_eq_ok.mp hnum
        rw [EndpointID.number] at hrange
        have hdci : checked 31 ((dev.pipes.base.epConfigs i).epId.addr - 1) =
            .ok ((dev.pipes.base.epConfigs i).epId.addr - 1).toNat :=
          checked_eq_ok.mpr ⟨by omega, rfl⟩
        rcases configureEach_succ env speed h n (by omega) hdci with hnull | ⟨tr, h', _, hnext⟩
        · rw [hnull] at ret
          cases ret
        · rw [hnext] at ret
          have hrest : ∀ j, i + 1 ≤ j → j < i + 1 + n → ∃ num,
              checked 16 (dev.pipes.base.epConfigs j).epId.number = .ok num :=
            fun j hj hj' => hnumber j (by omega) (by omega)
          obtain ⟨j, hj, hj', haddr⟩ :=
            @ih h' (configured speed dev _ _ tr) (i + 1) (by omega) hrest ret
          exact ⟨j, by omega, by omega, haddr⟩

namespace InitRun

variable {s t : InitRun} {this buf : BitVec 64} {env : Env} {h : Host} {len : Int}

/-! ## before an interface is chosen -/

/-- Until then no endpoint is listed. -/
theorem numEpConfigs_step (hs : s.device.initializePhase < 3 → s.device.numEpConfigs = 0)
    (hstep : Step s t) : t.device.initializePhase < 3 → t.device.numEpConfigs = 0 := by
  obtain ⟨buf, env, o, e, hcall⟩ := hstep
  obtain ⟨host, host', setupData, len, hcompleted, _⟩ := hcall.completed
  generalize t.device = d at hcompleted
  cases hcompleted with
  | noWaiter => exact hs
  | forwarded => exact hs
  | outOfPhase => exact hs
  | noPhase => exact hs
  | unsupported => exact hs
  | gotDevice _ phase => exact fun _ => hs (by omega)
  | configuring => exact fun hphase => absurd hphase (Nat.lt_irrefl 3)
  | configured => exact fun hphase => absurd hphase (Nat.not_lt_of_le (Nat.le_succ 3))

theorem numEpConfigs_early (hrun : ReflTransGen Step (start (Usb.Device.new this)) s)
    (hphase : s.device.initializePhase < 3) : s.device.numEpConfigs = 0 := by
  have hstep : ∀ s t : InitRun, (s.device.initializePhase < 3 → s.device.numEpConfigs = 0) →
      Step s t → t.device.initializePhase < 3 → t.device.numEpConfigs = 0 :=
    fun _ _ => numEpConfigs_step
  exact Run.invariant hstep (fun _ => rfl) hrun hphase

/-! ## the theorem -/

/-- `InitializePhase2` writes to no entry past the ends of the tables, and
where it returns the later phases find what they look up in them. -/
def StaysInTables (env : Env) (h : Host) (d : Usb.Device) (buf : BitVec 64) (len : Int) : Prop :=
  ∀ n, d.initializePhase2 (env.withSteps n) h buf len ≠ .error .outOfBounds ∧
    ∀ d' h' o, d.initializePhase2 (env.withSteps n) h buf len = .ok (d', h', o) →
      d'.EntriesOk ∧ ∃ d'', d'.initializePhase3 = .ok d'' ∧ d''.EntriesOk ∧
        ∀ env speed h dev, dev.pipes.base = d'' →
          Controller.configureEach env speed h dev d''.numEpConfigs 0 = .error .outOfBounds →
            ∃ i < d''.numEpConfigs, (d''.epConfigs i).epId.addr = 0

/-- What a device in phase 2 is left as. -/
theorem entriesOk_of_phase2 (hrun : ReflTransGen Step (start (Usb.Device.new this)) s)
    (hphase : s.device.initializePhase = 2) (hbuf : buf ≠ 0#64) {d : Usb.Device} {h' : Host}
    {o : Outcome} (ret : s.device.initializePhase2 env h buf len = .ok (d, h', o)) :
    d.EntriesOk := by
  have hempty : s.device.EntriesOk := .of_empty (numEpConfigs_early hrun (by omega))
  by_cases htype : byte env buf 1 = kConfiguration
  · cases tables hrun with
    | early _ starting unserved _ =>
        have hcompleted : Completed env h s.device ⟨0#8, Request.kGetDescriptor, 0#16, 0#16, 0#16⟩
            buf len d h' o := initializePhase2_completed starting hphase rfl htype ret
        cases hcompleted with
        | noWaiter => exact hempty
        | forwarded ready =>
            rw [starting] at ready
            contradiction
        | outOfPhase => exact hempty
        | noPhase => exact hempty
        | unsupported => exact hempty
        | gotDevice _ one => omega
        | configuring _ _ _ _ ifDesc eps c accepts fresh few =>
            exact (unserved.adopt fresh few 3).entriesOk
        | configured _ three => omega
    | chosen three => omega
    | done four => omega
  · rw [initializePhase2_of_type hbuf htype] at ret
    cases ret
    exact hempty

/-- **The endpoint table** of a new device stays in range, unless the first
supported interface in the buffer says that it has more than 16 endpoints and
17 endpoint descriptors come after it. -/
theorem staysInTables_iff (hrun : ReflTransGen Step (start (Usb.Device.new this)) s)
    (hphase : s.device.initializePhase = 2) (hbuf : buf ≠ 0#64) :
    StaysInTables env h s.device buf len ↔
      ¬ (byte env buf 1 = kConfiguration ∧ (allocated env h).1 ≠ 0#64 ∧
        Overflows env buf len) := by
  constructor
  · rintro hstays ⟨htype, halloc, hoverflows⟩
    obtain ⟨N, hN⟩ := initializePhase2_of_overflows s.device h hbuf htype hoverflows
    exact (hstays N).1 ((hN N (Nat.le_refl N)).trans (if_neg halloc))
  · intro hfits n
    refine ⟨fun ret => ?_, fun d' h' o ret => ?_⟩
    · by_cases htype : byte env buf 1 = kConfiguration
      · obtain ⟨x, hexplains, heq⟩ :=
          initializePhase2_explains h s.device len hbuf htype n
        rw [heq] at ret
        rcases x with e | x
        · cases ret
          exact hfits ⟨htype, hexplains⟩
        · cases ret
      · have htype : byte (env.withSteps n) buf 1 ≠ kConfiguration := htype
        rw [initializePhase2_of_type hbuf htype] at ret
        cases ret
    · have hentries := entriesOk_of_phase2 hrun hphase hbuf ret
      obtain ⟨d'', hthree, hentries'⟩ := hentries.initializePhase3
      refine ⟨hentries, d'', hthree, hentries', ?_⟩
      rintro env speed h dev rfl hout
      have hnumber : ∀ j, 0 ≤ j → j < 0 + dev.pipes.base.numEpConfigs → ∃ num,
          checked 16 (dev.pipes.base.epConfigs j).epId.number = .ok num := by
        intro j _ hj
        obtain ⟨num, _, hnum, _⟩ := hentries'.driven j (by omega)
        exact ⟨num, hnum⟩
      obtain ⟨j, _, hj, haddr⟩ := Controller.configureEach_outOfBounds
        (Nat.zero_add _ ▸ hentries'.few) hnumber hout
      exact ⟨j, by omega, haddr⟩

/-! ## keyboards -/

/-- A device that has been asked for its configuration descriptor. -/
theorem exists_asked {f : Usb.Device → α} {x : α}
    (h : ((start sampleDevice).complete (received [18, 1]) Request.kGetDescriptor 18).toOption.map
      (fun s => (s.device.initializePhase, f s.device)) = some (2, x)) :
    ∃ s, ReflTransGen Step (start sampleDevice) s ∧ s.device.initializePhase = 2 ∧
      f s.device = x := by
  cases hret : (start sampleDevice).complete (received [18, 1]) Request.kGetDescriptor 18 with
  | error e => rw [hret] at h; contradiction
  | ok s =>
      rw [hret] at h
      obtain ⟨hphase, hx⟩ := Prod.mk.inj (Option.some.inj h)
      exact ⟨s, .single (step_of_complete hret), hphase, hx⟩

/-- A keyboard with one endpoint. -/
theorem staysInTables_keyboard : ∃ s, ReflTransGen Step (start sampleDevice) s ∧
    s.device.initializePhase = 2 ∧ StaysInTables (received (keyboardConfiguration [0x81]))
      ⟨0x100000#64, []⟩ s.device sampleDevice.buf 25 := by
  obtain ⟨s, hrun, hphase, _⟩ := exists_asked (f := fun _ => ()) (x := ()) (by decide +kernel)
  refine ⟨s, hrun, hphase, (staysInTables_iff hrun hphase (by decide)).mpr ?_⟩
  rintro ⟨_, _, ifDesc, rest, r, hfinds, hnum, _⟩
  have hfirst : Finds (received (keyboardConfiguration [0x81])) sampleDevice.buf 25 0x200091#64 []
      ⟨sampleDevice.buf, 25, 0x200091#64⟩ :=
    ⟨[], .cons rfl (.nil _), nofun, by decide, by decide, by decide, by decide⟩
  rw [hfirst.unique hfinds] at hnum
  exact absurd hnum (by decide)

/-- What a call that does not return stops with. -/
def faultOf : Except Fault α → Option Fault
  | .error e => some e
  | .ok _ => none

theorem eq_of_faultOf {x : Except Fault α} {e : Fault} (h : faultOf x = some e) : x = .error e := by
  cases x with
  | error e' => rw [Option.some.inj h]
  | ok a => cases h

/-- A keyboard with 17 endpoints. -/
theorem not_staysInTables : ∃ s, ReflTransGen Step (start sampleDevice) s ∧
    s.device.initializePhase = 2 ∧
    ¬ StaysInTables (received (keyboardConfiguration (List.replicate 16 0x81 ++ [0x88])))
      ⟨0x100000#64, []⟩ s.device sampleDevice.buf 137 := by
  let ended : Usb.Device → Option Fault := fun d =>
    faultOf (d.initializePhase2
      ((received (keyboardConfiguration (List.replicate 16 0x81 ++ [0x88]))).withSteps 32)
      ⟨0x100000#64, []⟩ sampleDevice.buf 137)
  obtain ⟨s, hrun, hphase, hout⟩ :=
    exists_asked (f := ended) (x := some .outOfBounds) (by decide +kernel)
  exact ⟨s, hrun, hphase, fun hstays => (hstays 32).1 (eq_of_faultOf hout)⟩

end InitRun

end MikanOs.Usb.Xhci
