import MikanOs.Usb.Device

/-!
# MikanOs.Usb.Configuration

What `InitializePhase2` makes of a configuration descriptor.

`Reads` follows the reader over the descriptors in the buffer, whatever is in
them.  `Accepts` says in these terms which interface is chosen and which
endpoint descriptors are taken, and does not mention the state of the device;
`findInterface_ok` says that the loops of the source do just that, and how
they leave the device.
-/

namespace MikanOs.Usb

open Descriptor

/-! ## reading -/

/-- The reader goes over the descriptors at the addresses `qs`. -/
inductive Reads (env : Env) : ConfigurationDescriptorReader → List (BitVec 64) →
    ConfigurationDescriptorReader → Prop
  | nil (r : ConfigurationDescriptorReader) : Reads env r [] r
  | cons {r r' r'' : ConfigurationDescriptorReader} {q : BitVec 64} {qs : List (BitVec 64)}
      (next : r.next env = (some q, r')) (rest : Reads env r' qs r'') : Reads env r (q :: qs) r''

namespace Reads

variable {env : Env} {r r' r'' : ConfigurationDescriptorReader} {qs qs' : List (BitVec 64)}

theorem append (h : Reads env r qs r') (h' : Reads env r' qs' r'') :
    Reads env r (qs ++ qs') r'' := by
  induction h with
  | nil _ => exact h'
  | cons next _ ih => exact .cons next (ih h')

/-- What is read is in the buffer: of two readings one goes on from the other. -/
theorem comparable (h : Reads env r qs r') (h' : Reads env r qs' r'') :
    qs <+: qs' ∨ qs' <+: qs := by
  induction h generalizing qs' with
  | nil _ => exact .inl (List.nil_prefix)
  | cons next _ ih =>
      cases h' with
      | nil _ => exact .inr (List.nil_prefix)
      | cons next' rest' =>
          cases next.symm.trans next'
          cases ih rest' with
          | inl hpre => exact .inl ((List.prefix_cons_inj _).mpr hpre)
          | inr hpre => exact .inr ((List.prefix_cons_inj _).mpr hpre)

end Reads

/-! ## the descriptors that count -/

/-- An interface descriptor of a boot keyboard or a boot mouse. -/
def Supported (env : Env) (q : BitVec 64) : Prop :=
  byte env q 1 = kInterface ∧ byte env q 5 = 3#8 ∧ byte env q 6 = 1#8 ∧
    (byte env q 7 = 1#8 ∨ byte env q 7 = 2#8)

/-- The endpoint descriptors among some. -/
def endpointsOf (env : Env) (qs : List (BitVec 64)) : List (BitVec 64) :=
  qs.filter fun q => byte env q 1 = kEndpoint

/-- In the configuration descriptor in a buffer the first supported interface
is `ifDesc`, and `eps` are the next endpoint descriptors, as many as it says
it has. -/
def Accepts (env : Env) (buf : BitVec 64) (len : Int) (ifDesc : BitVec 64)
    (eps : List (BitVec 64)) : Prop :=
  ∃ skipped rest r, Reads env ⟨buf, len, buf⟩ (skipped ++ ifDesc :: rest) r ∧
    (∀ q ∈ skipped, ¬ Supported env q) ∧ Supported env ifDesc ∧
    eps = endpointsOf env rest ∧ eps.length = (byte env ifDesc 4).toNat

/-- The first supported interface of a list that begins with another. -/
theorem eq_of_prefix_of_supported {env : Env} {skipped skipped' rest rest' : List (BitVec 64)}
    {q q' : BitVec 64} (h : ∀ x ∈ skipped, ¬ Supported env x) (hq : Supported env q)
    (h' : ∀ x ∈ skipped', ¬ Supported env x) (hq' : Supported env q')
    (hpre : skipped ++ q :: rest <+: skipped' ++ q' :: rest') : q = q' ∧ rest <+: rest' := by
  induction skipped generalizing skipped' with
  | nil =>
      cases skipped' with
      | nil => exact List.cons_prefix_cons.mp hpre
      | cons x xs =>
          obtain ⟨rfl, _⟩ := List.cons_prefix_cons.mp hpre
          exact absurd hq (h' q List.mem_cons_self)
  | cons x xs ih =>
      cases skipped' with
      | nil =>
          obtain ⟨rfl, _⟩ := List.cons_prefix_cons.mp hpre
          exact absurd hq' (h x List.mem_cons_self)
      | cons y ys =>
          obtain ⟨rfl, htail⟩ := List.cons_prefix_cons.mp hpre
          exact ih (fun z hz => h z (List.mem_cons_of_mem x hz))
            (fun z hz => h' z (List.mem_cons_of_mem x hz)) htail

/-- The buffer determines what is accepted. -/
theorem Accepts.unique {env : Env} {buf : BitVec 64} {len : Int} {q q' : BitVec 64}
    {eps eps' : List (BitVec 64)} (h : Accepts env buf len q eps)
    (h' : Accepts env buf len q' eps') : q = q' ∧ eps = eps' := by
  obtain ⟨skipped, rest, r, hreads, hskip, hq, rfl, hlen⟩ := h
  obtain ⟨skipped', rest', r', hreads', hskip', hq', rfl, hlen'⟩ := h'
  cases hreads.comparable hreads' with
  | inl hpre =>
      obtain ⟨rfl, hrest⟩ := eq_of_prefix_of_supported hskip hq hskip' hq' hpre
      have hsub : endpointsOf env rest <+: endpointsOf env rest' := hrest.filter _
      exact ⟨rfl, hsub.eq_of_length (hlen.trans hlen'.symm)⟩
  | inr hpre =>
      obtain ⟨rfl, hrest⟩ := eq_of_prefix_of_supported hskip' hq' hskip hq hpre
      have hsub : endpointsOf env rest' <+: endpointsOf env rest := hrest.filter _
      exact ⟨rfl, (hsub.eq_of_length (hlen'.trans hlen.symm)).symm⟩

/-! ## endpoints in descriptors -/

/-- The endpoint number in `bEndpointAddress`. -/
def endpointNumber (env : Env) (q : BitVec 64) : Nat := ((byte env q 2).extractLsb' 0 4).toNat

/-- An interrupt-IN endpoint, from `bEndpointAddress` and `bmAttributes`. -/
def InterruptIn (env : Env) (q : BitVec 64) : Prop :=
  (byte env q 2).getLsbD 7 = true ∧ (byte env q 3).extractLsb' 0 2 = 3#2

theorem endpointNumber_lt (env : Env) (q : BitVec 64) : endpointNumber env q < 16 :=
  ((byte env q 2).extractLsb' 0 4).isLt

/-- `EndpointID` keeps the endpoint number. -/
theorem number_makeEPConfig (env : Env) (q : BitVec 64) :
    (makeEPConfig env q).epId.number = endpointNumber env q := by
  have hbit := Bool.toNat_le ((byte env q 2).getLsbD 7)
  show (2 * ((endpointNumber env q : Nat) : Int) + _) / 2 = _
  omega

/-- `EndpointID` keeps the direction. -/
theorem isIn_makeEPConfig (env : Env) (q : BitVec 64) :
    (makeEPConfig env q).epId.isIn = (byte env q 2).getLsbD 7 := by
  show decide ((2 * ((endpointNumber env q : Nat) : Int) +
    ((byte env q 2).getLsbD 7).toNat) % 2 = 1) = _
  cases (byte env q 2).getLsbD 7 with
  | false => exact decide_eq_false (by simp only [Bool.toNat_false]; omega)
  | true => exact decide_eq_true (by simp only [Bool.toNat_true]; omega)

theorem ofBits_eq_kInterrupt (b : BitVec 2) : EndpointType.ofBits b = .kInterrupt ↔ b = 3#2 := by
  revert b
  decide

/-- What `SetEndpoint` tests of an interrupt-IN endpoint. -/
theorem interruptIn_iff (env : Env) (q : BitVec 64) :
    ((makeEPConfig env q).epType = .kInterrupt ∧ (makeEPConfig env q).epId.isIn = true) ↔
      InterruptIn env q := by
  rw [isIn_makeEPConfig, and_comm]
  exact and_congr_right fun _ => ofBits_eq_kInterrupt _

namespace Device

/-! ## the loops -/

/-- `Next<T>()` passes over descriptors of other types. -/
theorem nextOf_ok {env : Env} {type : BitVec 8} {n : Nat} {r r' : ConfigurationDescriptorReader}
    {q : BitVec 64} (ret : r.nextOf env type n = .ok (some q, r')) :
    ∃ skipped, Reads env r (skipped ++ [q]) r' ∧ (∀ x ∈ skipped, byte env x 1 ≠ type) ∧
      byte env q 1 = type := by
  induction n generalizing r with
  | zero => exact absurd ret Returns.throw_ne_ok
  | succ n ih =>
      unfold ConfigurationDescriptorReader.nextOf at ret
      split at ret
      · cases Returns.pure_eq_ok.mp ret
      · next x r₁ hnext =>
        split at ret
        · next htype =>
          cases Returns.pure_eq_ok.mp ret
          exact ⟨[], .cons hnext (.nil _), nofun, htype⟩
        · next htype =>
          obtain ⟨skipped, hreads, hskip, hq⟩ := ih ret
          refine ⟨x :: skipped, .cons hnext hreads, fun y hy => ?_, hq⟩
          cases List.mem_cons.mp hy with
          | inl heq => exact heq ▸ htype
          | inr hmem => exact hskip y hmem

/-- A class driver as `NewClassDriver` makes it. -/
def Fresh (c : HIDDriver) : Prop :=
  ∃ this kind interfaceIndex numObservers,
    c = { HIDDriver.new this kind interfaceIndex with numObservers := numObservers }

/-- `NewClassDriver` of an interface. -/
theorem newClassDriver_ok {env : Env} {h h' : Host} {d d' : Device} {ifDesc : BitVec 64}
    {place : Option Nat} (hif : byte env ifDesc 1 = kInterface)
    (ret : d.newClassDriver env h ifDesc = .ok (place, h', d')) :
    (¬ Supported env ifDesc ∧ place = none ∧ h' = h ∧ d' = d) ∨
      (Supported env ifDesc ∧ place = some d.drivers.length ∧
        ∃ c, Fresh c ∧ d' = { d with drivers := d.drivers ++ [c] }) := by
  have hmake : ∀ {kind observed}, newClassDriver.make env h d ifDesc kind observed =
      .ok (place, h', d') → place = some d.drivers.length ∧
        ∃ c, Fresh c ∧ d' = { d with drivers := d.drivers ++ [c] } := by
    intro kind observed hret
    unfold newClassDriver.make at hret
    simp only at hret
    split at hret
    · exact absurd hret Returns.throw_ne_ok
    · obtain ⟨rfl, hrest⟩ := Returns.pure_mk_eq_ok.mp hret
      obtain ⟨_, rfl⟩ := Prod.mk.inj hrest
      refine ⟨rfl, _, ?_, rfl⟩
      split
      · exact ⟨_, _, _, _, rfl⟩
      · exact ⟨_, _, _, 0, rfl⟩
  unfold newClassDriver at ret
  split at ret
  · next hclass =>
    split at ret
    · next hproto => exact .inr ⟨⟨hif, hclass.1, hclass.2, .inl hproto⟩, hmake ret⟩
    · next hkey =>
      split at ret
      · next hproto => exact .inr ⟨⟨hif, hclass.1, hclass.2, .inr hproto⟩, hmake ret⟩
      · next hmouse =>
        obtain ⟨rfl, hrest⟩ := Returns.pure_mk_eq_ok.mp ret
        obtain ⟨rfl, rfl⟩ := Prod.mk.inj hrest
        exact .inl ⟨fun hs => hs.2.2.2.elim hkey hmouse, rfl, rfl, rfl⟩
  · next hclass =>
    obtain ⟨rfl, hrest⟩ := Returns.pure_mk_eq_ok.mp ret
    obtain ⟨rfl, rfl⟩ := Prod.mk.inj hrest
    exact .inl ⟨fun hs => hclass ⟨hs.2.1, hs.2.2.1⟩, rfl, rfl, rfl⟩

/-- The device after one endpoint has been given to a class driver. -/
def collect (driver : Nat) (d : Device) (config : EndpointConfig) : Device :=
  { d with
    epConfigs := update d.epConfigs d.numEpConfigs config
    numEpConfigs := d.numEpConfigs + 1
    classDrivers := update d.classDrivers config.epId.number.toNat (some driver) }

/-- The inner loop takes the endpoint descriptors it finds. -/
theorem collectEndpoints_ok {env : Env} {driver numEndpoints n : Nat}
    {r : ConfigurationDescriptorReader} {d d' : Device}
    (ret : collectEndpoints env driver numEndpoints n r d = .ok d') :
    ∃ rest r', Reads env r rest r' ∧
      (endpointsOf env rest).length = numEndpoints - d.numEpConfigs ∧
      (d.numEpConfigs ≤ 16 → d.numEpConfigs + (endpointsOf env rest).length ≤ 16) ∧
      d' = ((endpointsOf env rest).map (makeEPConfig env)).foldl (collect driver) d := by
  induction n generalizing r d with
  | zero => exact absurd ret Returns.throw_ne_ok
  | succ n ih =>
      unfold collectEndpoints at ret
      split at ret
      · split at ret
        · exact absurd ret Returns.throw_ne_ok
        · next hmore _ desc r₁ hnext =>
          split at ret
          · next htype =>
            split at ret
            · next hfew =>
              obtain ⟨rest, r', hreads, hlen, hmax, rfl⟩ := ih ret
              have hcons : endpointsOf env (desc :: rest) = desc :: endpointsOf env rest :=
                List.filter_cons_of_pos (by simpa using htype)
              simp only at hlen hmax
              refine ⟨desc :: rest, r', .cons hnext hreads, ?_, fun _ => ?_, ?_⟩
              · rw [hcons, List.length_cons]
                omega
              · have hle := hmax hfew
                rw [hcons, List.length_cons]
                omega
              · rw [hcons]
                rfl
            · exact absurd ret Returns.throw_ne_ok
          · next htype =>
            obtain ⟨rest, r', hreads, hlen, hmax, rfl⟩ := ih ret
            have hcons : endpointsOf env (desc :: rest) = endpointsOf env rest :=
              List.filter_cons_of_neg (by simpa using htype)
            exact ⟨desc :: rest, r', .cons hnext hreads, hcons ▸ hlen, hcons ▸ hmax, by rw [hcons]⟩
      · next hdone =>
        cases Returns.pure_eq_ok.mp ret
        have hnil : (endpointsOf env []).length = 0 := rfl
        exact ⟨[], r, .nil r, by omega, by omega, rfl⟩

/-- The device after a supported interface has been found and its endpoints
have been given to its class driver `c`. -/
def adopt (env : Env) (d : Device) (c : HIDDriver) (eps : List (BitVec 64)) : Device :=
  (eps.map (makeEPConfig env)).foldl (collect d.drivers.length)
    { d with drivers := d.drivers ++ [c], numEpConfigs := 0 }

/-- The outer loop of `InitializePhase2`, from a place where no interface has
been chosen yet. -/
theorem findInterface_ok {env : Env} {buf : BitVec 64} {len : Int} {n : Nat}
    {passed : List (BitVec 64)} {r : ConfigurationDescriptorReader} {h h' : Host} {d d' : Device}
    {place : Option Nat} (hreads : Reads env ⟨buf, len, buf⟩ passed r)
    (hpassed : ∀ q ∈ passed, ¬ Supported env q)
    (ret : findInterface env n r h d = .ok (place, h', d')) :
    (place = none ∧ d' = d) ∨
      (place = some d.drivers.length ∧ ∃ ifDesc eps c, Accepts env buf len ifDesc eps ∧ Fresh c ∧
        eps.length ≤ 16 ∧ d' = d.adopt env c eps) := by
  induction n generalizing passed r h with
  | zero => exact absurd ret Returns.throw_ne_ok
  | succ n ih =>
      unfold findInterface at ret
      obtain ⟨⟨found, r₁⟩, hnext, hrest⟩ := Returns.bind_eq_ok.mp ret
      cases found with
      | none =>
          cases Returns.pure_eq_ok.mp hrest
          exact .inl ⟨rfl, rfl⟩
      | some ifDesc =>
          obtain ⟨skipped, hskipped, htypes, hif⟩ := nextOf_ok hnext
          obtain ⟨⟨classDriver, h₁, d₁⟩, hnew, hchosen⟩ := Returns.bind_eq_ok.mp hrest
          have hskip : ∀ q ∈ passed ++ skipped, ¬ Supported env q := by
            intro q hq
            cases List.mem_append.mp hq with
            | inl hold => exact hpassed q hold
            | inr hnew => exact fun hs => htypes q hnew hs.1
          rcases newClassDriver_ok hif hnew with ⟨hno, rfl, rfl, rfl⟩ | ⟨hyes, rfl, c, hfresh, rfl⟩
          · refine ih (hreads.append hskipped) (fun q hq => ?_) hchosen
            rw [← List.append_assoc] at hq
            cases List.mem_append.mp hq with
            | inl hold => exact hskip q hold
            | inr hlast => exact List.mem_singleton.mp hlast ▸ hno
          · obtain ⟨d₂, hcollect, hret⟩ := Returns.bind_eq_ok.mp hchosen
            obtain ⟨rest, r', hafter, hlen, hmax, rfl⟩ := collectEndpoints_ok hcollect
            cases Returns.pure_eq_ok.mp hret
            have hmax : 0 + (endpointsOf env rest).length ≤ 16 := hmax (Nat.zero_le _)
            refine .inr ⟨rfl, ifDesc, endpointsOf env rest, c, ?_, hfresh, by omega, rfl⟩
            have hall := (hreads.append hskipped).append hafter
            rw [← List.append_assoc, List.append_assoc] at hall
            exact ⟨passed ++ skipped, rest, r', hall, hskip, hyes, rfl, hlen⟩

/-! ## what the endpoints leave behind -/

/-- Giving out endpoints touches nothing but the tables of endpoints. -/
theorem foldl_collect (driver : Nat) (configs : List EndpointConfig) (d : Device) :
    configs.foldl (collect driver) d =
      { d with
        epConfigs := (configs.foldl (collect driver) d).epConfigs
        numEpConfigs := d.numEpConfigs + configs.length
        classDrivers := (configs.foldl (collect driver) d).classDrivers } := by
  induction configs generalizing d with
  | nil => rfl
  | cons config configs ih =>
      rw [List.foldl_cons, ih (collect driver d config)]
      simp only [collect, List.length_cons, Nat.add_assoc, Nat.add_comm 1]

/-- The configs are listed in order. -/
theorem foldl_collect_epConfigs (driver : Nat) (configs : List EndpointConfig) (d : Device)
    (i : Nat) : (configs.foldl (collect driver) d).epConfigs i =
      if h : d.numEpConfigs ≤ i ∧ i < d.numEpConfigs + configs.length then
        configs[i - d.numEpConfigs]
      else d.epConfigs i := by
  induction configs generalizing d with
  | nil => rw [dif_neg (by simp only [List.length_nil]; omega)]; rfl
  | cons config configs ih =>
      rw [List.foldl_cons, ih (collect driver d config)]
      have hnum : (collect driver d config).numEpConfigs = d.numEpConfigs + 1 := rfl
      have hconfigs : (collect driver d config).epConfigs =
        update d.epConfigs d.numEpConfigs config := rfl
      by_cases hi : i = d.numEpConfigs
      · subst hi
        rw [dif_neg (by omega), dif_pos (by simp), hconfigs, update_self]
        simp
      · by_cases hlt : d.numEpConfigs + 1 ≤ i ∧ i < d.numEpConfigs + 1 + configs.length
        · rw [dif_pos (hnum ▸ hlt), dif_pos (by simp only [List.length_cons]; omega)]
          have hpos : i - d.numEpConfigs = i - (d.numEpConfigs + 1) + 1 := by omega
          simp only [hnum, hpos, List.getElem_cons_succ]
        · rw [dif_neg (hnum ▸ hlt), dif_neg (by simp only [List.length_cons]; omega), hconfigs,
            update_ne hi]

/-- The endpoint numbers of the configs lead to the driver. -/
theorem foldl_collect_classDrivers (driver : Nat) (configs : List EndpointConfig) (d : Device)
    (j : Nat) : (configs.foldl (collect driver) d).classDrivers j =
      if ∃ config ∈ configs, config.epId.number.toNat = j then some driver
      else d.classDrivers j := by
  induction configs generalizing d with
  | nil => rw [if_neg (by simp)]; rfl
  | cons config configs ih =>
      rw [List.foldl_cons, ih (collect driver d config)]
      simp only [List.mem_cons, exists_eq_or_imp]
      by_cases hrest : ∃ config ∈ configs, config.epId.number.toNat = j
      · rw [if_pos hrest, if_pos (.inr hrest)]
      · rw [if_neg hrest]
        by_cases hfirst : config.epId.number.toNat = j
        · subst hfirst
          rw [if_pos (.inl rfl)]
          exact update_self _ _ _
        · rw [if_neg (by simp [hfirst, hrest])]
          exact update_ne (Ne.symm hfirst) _ _

/-! ## the endpoints of a driver -/

/-- The configs of a device. -/
def configs (d : Device) : List EndpointConfig := (List.range d.numEpConfigs).map d.epConfigs

/-- `InitializePhase3` touches nothing but the drivers. -/
theorem setEndpoints_frame {n i : Nat} {d d' : Device} (ret : d.setEndpoints n i = .ok d') :
    d' = { d with drivers := d'.drivers } := by
  induction n generalizing d i with
  | zero => cases Returns.pure_eq_ok.mp ret; rfl
  | succ n ih =>
      unfold setEndpoints at ret
      obtain ⟨k, _, hnumber⟩ := Returns.bind_eq_ok.mp ret
      obtain ⟨num, _, hdriver⟩ := Returns.bind_eq_ok.mp hnumber
      split at hdriver
      · exact absurd hdriver Returns.throw_ne_ok
      · exact (ih hdriver).trans rfl

/-- When all configs lead to one driver, it is given all of them, in order. -/
theorem setEndpoints_ok {n i k : Nat} {d d' : Device}
    (hall : ∀ j, i ≤ j → j < i + n → d.classDrivers (d.epConfigs j).epId.number.toNat = some k)
    (ret : d.setEndpoints n i = .ok d') :
    d' = { d with drivers := d.drivers.modify k fun c =>
      ((List.range' i n).map d.epConfigs).foldl HIDDriver.setEndpoint c } := by
  induction n generalizing d i with
  | zero =>
      have hmodify : d.drivers.modify k (fun c => c) = d.drivers := List.modify_id k d.drivers
      rw [← Returns.pure_eq_ok.mp ret]
      show d = { d with drivers := d.drivers.modify k fun c => c }
      rw [hmodify]
  | succ n ih =>
      unfold setEndpoints at ret
      obtain ⟨j, hj, hnumber⟩ := Returns.bind_eq_ok.mp ret
      obtain ⟨num, hnum, hdriver⟩ := Returns.bind_eq_ok.mp hnumber
      have hji : j = i := (checked_eq_ok.mp hj).2.symm
      subst hji
      rw [← (checked_eq_ok.mp hnum).2, hall j (Nat.le_refl j) (by omega)] at hdriver
      have hrest : ∀ l, j + 1 ≤ l → l < j + 1 + n →
          d.classDrivers (d.epConfigs l).epId.number.toNat = some k :=
        fun l hl hl' => hall l (by omega) (by omega)
      have hnext := ih
        (d := { d with drivers := d.drivers.modify k fun c => c.setEndpoint (d.epConfigs j) })
        hrest hdriver
      refine hnext.trans ?_
      simp only [List.modify_modify_eq]
      rfl

end Device

end MikanOs.Usb
