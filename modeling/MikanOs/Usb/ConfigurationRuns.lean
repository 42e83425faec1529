import MikanOs.Usb.Configuration

/-!
# MikanOs.Usb.ConfigurationRuns

When `InitializePhase2` returns, and with what.  `MikanOs.Usb.Configuration`
says what is known when it has returned; here it is the other way round, from
what the reader finds in the buffer to what the loops of the source do with
enough rounds.

The model gives up after `Env.steps` rounds, so that a call returns if it does
so for some number of them.
-/

namespace MikanOs.Usb

open Descriptor

/-- With another number of rounds. -/
def Env.withSteps (env : Env) (n : Nat) : Env := { env with steps := n }

namespace Reads

variable {env : Env} {r r' r'' : ConfigurationDescriptorReader} {qs qs' : List (BitVec 64)}

theorem of_append (h : Reads env r (qs ++ qs') r'') :
    ∃ r', Reads env r qs r' ∧ Reads env r' qs' r'' := by
  induction qs generalizing r with
  | nil => exact ⟨r, .nil r, h⟩
  | cons q qs ih =>
      cases h with
      | cons next rest =>
          obtain ⟨r', hfirst, hrest⟩ := ih rest
          exact ⟨r', .cons next hfirst, hrest⟩

/-- The reader does not count. -/
theorem withSteps (n : Nat) : Reads (env.withSteps n) r qs r' ↔ Reads env r qs r' := by
  constructor
  · intro h
    induction h with
    | nil r => exact .nil r
    | cons next _ ih => exact .cons next ih
  · intro h
    induction h with
    | nil r => exact .nil r
    | cons next _ ih => exact .cons next ih

end Reads

/-! ## what is in the buffer -/

/-- The reader comes to the end, and not to a supported interface. -/
def Ends (env : Env) (buf : BitVec 64) (len : Int) : Prop :=
  ∃ qs r r', Reads env ⟨buf, len, buf⟩ qs r ∧ (∀ q ∈ qs, ¬ Supported env q) ∧
    r.next env = (none, r')

/-- The first supported interface is `ifDesc`, and the reader goes on over
`rest`. -/
def Finds (env : Env) (buf : BitVec 64) (len : Int) (ifDesc : BitVec 64)
    (rest : List (BitVec 64)) (r : ConfigurationDescriptorReader) : Prop :=
  ∃ skipped, Reads env ⟨buf, len, buf⟩ (skipped ++ ifDesc :: rest) r ∧
    (∀ q ∈ skipped, ¬ Supported env q) ∧ Supported env ifDesc

/-- The first supported interface says it has more than 16 endpoints, and 17
endpoint descriptors come after it. -/
def Overflows (env : Env) (buf : BitVec 64) (len : Int) : Prop :=
  ∃ ifDesc rest r, Finds env buf len ifDesc rest r ∧ 16 < (byte env ifDesc 4).toNat ∧
    16 < (endpointsOf env rest).length

section

variable {env : Env} {buf ifDesc : BitVec 64} {len : Int} {rest eps : List (BitVec 64)}
  {r : ConfigurationDescriptorReader}

theorem Ends.withSteps (n : Nat) : Ends (env.withSteps n) buf len ↔ Ends env buf len := by
  simp only [Ends, Reads.withSteps]
  rfl

theorem Finds.withSteps (n : Nat) :
    Finds (env.withSteps n) buf len ifDesc rest r ↔ Finds env buf len ifDesc rest r := by
  simp only [Finds, Reads.withSteps]
  rfl

theorem Overflows.withSteps (n : Nat) :
    Overflows (env.withSteps n) buf len ↔ Overflows env buf len := by
  simp only [Overflows, Finds.withSteps]
  rfl

theorem Accepts.withSteps (n : Nat) :
    Accepts (env.withSteps n) buf len ifDesc eps ↔ Accepts env buf len ifDesc eps := by
  simp only [Accepts, Reads.withSteps]
  rfl

end

theorem accepts_iff {env : Env} {buf : BitVec 64} {len : Int} {ifDesc : BitVec 64}
    {eps : List (BitVec 64)} :
    Accepts env buf len ifDesc eps ↔ ∃ rest r, Finds env buf len ifDesc rest r ∧
      eps = endpointsOf env rest ∧ eps.length = (byte env ifDesc 4).toNat := by
  constructor
  · rintro ⟨skipped, rest, r, hreads, hskip, hif, heps, hlength⟩
    exact ⟨rest, r, ⟨skipped, hreads, hskip, hif⟩, heps, hlength⟩
  · rintro ⟨rest, r, ⟨skipped, hreads, hskip, hif⟩, heps, hlength⟩
    exact ⟨skipped, rest, r, hreads, hskip, hif, heps, hlength⟩

/-- There is only one first supported interface. -/
theorem Finds.unique {env : Env} {buf ifDesc q : BitVec 64} {len : Int}
    {rest rest' : List (BitVec 64)} {r r' : ConfigurationDescriptorReader}
    (h : Finds env buf len ifDesc rest r) (h' : Finds env buf len q rest' r') : q = ifDesc := by
  obtain ⟨skipped, hreads, hno, hif⟩ := h
  obtain ⟨skipped', hreads', hno', hif'⟩ := h'
  cases hreads.comparable hreads' with
  | inl hpre => exact (eq_of_prefix_of_supported hno hif hno' hif' hpre).1.symm
  | inr hpre => exact (eq_of_prefix_of_supported hno' hif' hno hif hpre).1

namespace Device

variable {env : Env} {r r' r'' : ConfigurationDescriptorReader} {q ifDesc buf : BitVec 64}
  {rest skipped : List (BitVec 64)} {n : Nat} {h : Host} {d : Device} {len : Int}

/-! ## class drivers -/

/-- What `new` makes the class driver of. -/
@[irreducible] def allocated (env : Env) (h : Host) : BitVec 64 × Host :=
  h.allocArray env HIDDriver.sizeofDriver 1 0#32 0#32

/-- The class driver of a supported interface. -/
def driverFor (env : Env) (this ifDesc : BitVec 64) : HIDDriver :=
  let keyboard := byte env ifDesc 7 = 1#8
  let driver := HIDDriver.new this (if keyboard then .keyboard else .mouse) (byte env ifDesc 2)
  if (if keyboard then env.keyObserver else env.mouseObserver) then
    { driver with numObservers := 1 }
  else driver

/-- The device with it, before it has endpoints. -/
def withDriver (env : Env) (h : Host) (d : Device) (ifDesc : BitVec 64) : Device :=
  { d with
    drivers := d.drivers ++ [driverFor env (allocated env h).1 ifDesc]
    numEpConfigs := 0 }

theorem newClassDriver_of_not_supported (htype : byte env ifDesc 1 = kInterface)
    (hnot : ¬ Supported env ifDesc) : d.newClassDriver env h ifDesc = .ok (none, h, d) := by
  unfold newClassDriver
  split
  · next hclass =>
    rw [if_neg fun hkey => hnot ⟨htype, hclass.1, hclass.2, .inl hkey⟩,
      if_neg fun hmouse => hnot ⟨htype, hclass.1, hclass.2, .inr hmouse⟩]
    rfl
  · rfl

theorem newClassDriver_of_supported (hif : Supported env ifDesc) :
    d.newClassDriver env h ifDesc =
      if (allocated env h).1 = 0#64 then .error .nullPointer
      else .ok (some d.drivers.length, (allocated env h).2,
        { d with drivers := d.drivers ++ [driverFor env (allocated env h).1 ifDesc] }) := by
  obtain ⟨_, hclass, hsub, hprotocol⟩ := hif
  unfold newClassDriver allocated
  rw [if_pos ⟨hclass, hsub⟩]
  by_cases hkey : byte env ifDesc 7 = 1#8
  · rw [if_pos hkey, newClassDriver.make]
    simp only [driverFor, hkey, if_true]
    rfl
  · rw [if_neg hkey, if_pos (hprotocol.resolve_left hkey), newClassDriver.make]
    simp only [driverFor, hkey, if_false]
    rfl

/-! ## with enough rounds -/

theorem nextOf_of_reads {type : BitVec 8} (hreads : Reads env r (skipped ++ [q]) r')
    (hskip : ∀ x ∈ skipped, byte env x 1 ≠ type) (htype : byte env q 1 = type)
    (hn : skipped.length < n) : r.nextOf env type n = .ok (some q, r') := by
  induction skipped generalizing r n with
  | nil =>
      obtain ⟨n, rfl⟩ := Nat.exists_eq_add_of_lt hn
      cases hreads with
      | cons next rest =>
          cases rest
          rw [ConfigurationDescriptorReader.nextOf, next]
          exact if_pos htype
  | cons x skipped ih =>
      obtain ⟨n, rfl⟩ := Nat.exists_eq_add_one.mpr (Nat.zero_lt_of_lt hn)
      cases hreads with
      | cons next rest =>
          rw [ConfigurationDescriptorReader.nextOf, next]
          refine (if_neg (hskip x List.mem_cons_self)).trans ?_
          exact ih rest (fun y hy => hskip y (List.mem_cons_of_mem _ hy))
            (Nat.lt_of_succ_lt_succ hn)

theorem nextOf_of_end {type : BitVec 8} (hreads : Reads env r skipped r')
    (hskip : ∀ x ∈ skipped, byte env x 1 ≠ type) (hend : r'.next env = (none, r''))
    (hn : skipped.length < n) : r.nextOf env type n = .ok (none, r'') := by
  induction hreads generalizing n with
  | nil r =>
      obtain ⟨n, rfl⟩ := Nat.exists_eq_add_one.mpr (Nat.zero_lt_of_lt hn)
      rw [ConfigurationDescriptorReader.nextOf, hend]
      rfl
  | @cons r r₁ r' x skipped next rest ih =>
      obtain ⟨n, rfl⟩ := Nat.exists_eq_add_one.mpr (Nat.zero_lt_of_lt hn)
      rw [ConfigurationDescriptorReader.nextOf, next]
      refine (if_neg (hskip x List.mem_cons_self)).trans ?_
      exact ih (fun y hy => hskip y (List.mem_cons_of_mem _ hy)) hend (Nat.lt_of_succ_lt_succ hn)

variable {driver numEndpoints : Nat}

theorem endpointsOf_cons_of_eq (h : byte env q 1 = kEndpoint) (rest : List (BitVec 64)) :
    endpointsOf env (q :: rest) = q :: endpointsOf env rest :=
  List.filter_cons_of_pos (by simpa using h)

theorem endpointsOf_cons_of_ne (h : byte env q 1 ≠ kEndpoint) (rest : List (BitVec 64)) :
    endpointsOf env (q :: rest) = endpointsOf env rest :=
  List.filter_cons_of_neg (by simpa using h)

/-- The inner loop with as many endpoint descriptors as it is to collect. -/
theorem collectEndpoints_of_reads (hreads : Reads env r rest r')
    (hlength : (endpointsOf env rest).length = numEndpoints - d.numEpConfigs)
    (hmax : d.numEpConfigs + (endpointsOf env rest).length ≤ 16) (hn : rest.length < n) :
    collectEndpoints env driver numEndpoints n r d =
      .ok (((endpointsOf env rest).map (makeEPConfig env)).foldl (collect driver) d) := by
  induction hreads generalizing d n with
  | nil r =>
      obtain ⟨n, rfl⟩ := Nat.exists_eq_add_one.mpr (Nat.zero_lt_of_lt hn)
      have hnil : (endpointsOf env []).length = 0 := rfl
      rw [collectEndpoints, if_neg (by omega)]
      rfl
  | @cons r r₁ r' q rest next _ ih =>
      obtain ⟨n, rfl⟩ := Nat.exists_eq_add_one.mpr (Nat.zero_lt_of_lt hn)
      have hn : rest.length < n := Nat.lt_of_succ_lt_succ hn
      rw [collectEndpoints]
      by_cases htype : byte env q 1 = kEndpoint
      · rw [endpointsOf_cons_of_eq htype] at hlength hmax ⊢
        rw [List.length_cons] at hlength hmax
        rw [if_pos (by omega), next]
        simp only [htype, if_true]
        rw [if_pos (by omega)]
        exact ih (d := collect driver d (makeEPConfig env q)) (by simp only [collect]; omega)
          (by simp only [collect]; omega) hn
      · rw [endpointsOf_cons_of_ne htype] at hlength hmax ⊢
        by_cases hmore : d.numEpConfigs < numEndpoints
        · rw [if_pos hmore, next]
          simp only [htype, if_false]
          exact ih hlength hmax hn
        · have hnone : endpointsOf env rest = [] := List.length_eq_zero_iff.mp (by omega)
          rw [if_neg hmore, hnone]
          rfl

/-- The inner loop with one endpoint descriptor too many. -/
theorem collectEndpoints_of_overflow (hreads : Reads env r rest r') (hd : d.numEpConfigs ≤ 16)
    (hnum : 16 < numEndpoints) (hmany : 16 < d.numEpConfigs + (endpointsOf env rest).length)
    (hn : rest.length < n) : collectEndpoints env driver numEndpoints n r d =
      .error .outOfBounds := by
  induction hreads generalizing d n with
  | nil r =>
      have hnil : (endpointsOf env []).length = 0 := rfl
      omega
  | @cons r r₁ r' q rest next _ ih =>
      obtain ⟨n, rfl⟩ := Nat.exists_eq_add_one.mpr (Nat.zero_lt_of_lt hn)
      have hn : rest.length < n := Nat.lt_of_succ_lt_succ hn
      rw [collectEndpoints, if_pos (by omega), next]
      by_cases htype : byte env q 1 = kEndpoint
      · rw [endpointsOf_cons_of_eq htype, List.length_cons] at hmany
        simp only [htype, if_true]
        by_cases hroom : d.numEpConfigs < 16
        · rw [if_pos hroom]
          exact ih (d := collect driver d (makeEPConfig env q)) (by simp only [collect]; omega)
            (by simp only [collect]; omega) hn
        · exact if_neg hroom
      · rw [endpointsOf_cons_of_ne htype] at hmany
        simp only [htype, if_false]
        exact ih hd hmany hn

/-- Where the first interface is among the descriptors, if there is one. -/
theorem first_interface (env : Env) (qs : List (BitVec 64)) :
    (∀ q ∈ qs, byte env q 1 ≠ kInterface) ∨ ∃ before q after, qs = before ++ q :: after ∧
      (∀ x ∈ before, byte env x 1 ≠ kInterface) ∧ byte env q 1 = kInterface := by
  induction qs with
  | nil => exact .inl nofun
  | cons x qs ih =>
      by_cases hx : byte env x 1 = kInterface
      · exact .inr ⟨[], x, qs, rfl, nofun, hx⟩
      · rcases ih with hnone | ⟨before, q, after, rfl, hbefore, hq⟩
        · exact .inl (List.forall_mem_cons.mpr ⟨hx, hnone⟩)
        · exact .inr ⟨x :: before, q, after, rfl, List.forall_mem_cons.mpr ⟨hx, hbefore⟩, hq⟩

/-- Induction over the interfaces that the outer loop has no class driver
for, down to the round that comes past the last of them. -/
@[elab_as_elim]
theorem search_induction {motive : Nat → ConfigurationDescriptorReader → Prop}
    (hreads : Reads env r (skipped ++ rest) r') (hskip : ∀ x ∈ skipped, ¬ Supported env x)
    (hsteps : skipped.length < env.steps) (hn : skipped.length < n)
    (last : ∀ n r before, Reads env r (before ++ rest) r' →
      (∀ x ∈ before, byte env x 1 ≠ kInterface) → before.length < env.steps → motive (n + 1) r)
    (skip : ∀ n r q r₁, r.nextOf env kInterface env.steps = .ok (some q, r₁) →
      byte env q 1 = kInterface → ¬ Supported env q → motive n r₁ → motive (n + 1) r) :
    motive n r := by
  induction n generalizing r skipped with
  | zero => exact absurd hn (Nat.not_lt_zero _)
  | succ n ih =>
      rcases first_interface env skipped with
        hnone | ⟨before, q, after, rfl, hbefore, htype⟩
      · exact last n r skipped hreads hnone hsteps
      · rw [List.append_assoc, List.cons_append, List.append_cons] at hreads
        obtain ⟨r₁, hfirst, hafter⟩ := hreads.of_append
        rw [List.length_append, List.length_cons] at hsteps hn
        have hnot := hskip q (List.mem_append_right _ List.mem_cons_self)
        have hnext : r.nextOf env kInterface env.steps = .ok (some q, r₁) :=
          nextOf_of_reads hfirst hbefore htype (by omega)
        refine skip n r q r₁ hnext htype hnot (ih hafter (fun x hx => ?_) (by omega) (by omega))
        exact hskip x (List.mem_append_right _ (List.mem_cons_of_mem _ hx))

/-- A round of the outer loop that comes to an interface it has no class
driver for. -/
theorem findInterface_skip (hnext : r.nextOf env kInterface env.steps = .ok (some q, r'))
    (htype : byte env q 1 = kInterface) (hnot : ¬ Supported env q) :
    findInterface env (n + 1) r h d = findInterface env n r' h d := by
  rw [findInterface, hnext]
  simp only [bind, Except.bind, newClassDriver_of_not_supported htype hnot]

/-- The last round leaves the rest to the inner loop. -/
theorem findInterface_take (hnext : r.nextOf env kInterface env.steps = .ok (some q, r'))
    (hif : Supported env q) : findInterface env (n + 1) r h d =
      if (allocated env h).1 = 0#64 then .error .nullPointer
      else (collectEndpoints env d.drivers.length (byte env q 4).toNat env.steps r'
        (d.withDriver env h q)).map fun d' => (some d.drivers.length, (allocated env h).2, d') := by
  rw [findInterface, hnext]
  simp only [bind, Except.bind]
  rw [newClassDriver_of_supported hif]
  by_cases hroom : (allocated env h).1 = 0#64
  · rw [if_pos hroom, if_pos hroom]
  · rw [if_neg hroom, if_neg hroom]
    rfl

/-- The outer loop comes to the end. -/
theorem findInterface_of_end {qs : List (BitVec 64)} (hreads : Reads env r qs r')
    (hskip : ∀ x ∈ qs, ¬ Supported env x) (hend : r'.next env = (none, r''))
    (hsteps : qs.length < env.steps) (hn : qs.length < n) :
    findInterface env n r h d = .ok (none, h, d) := by
  rw [← List.append_nil qs] at hreads
  refine search_induction hreads hskip hsteps hn ?_ ?_
  · intro n r before hreads hnone hsteps
    rw [List.append_nil] at hreads
    rw [findInterface, nextOf_of_end hreads hnone hend hsteps]
    rfl
  · intro n r q r₁ hnext htype hnot ih
    rw [findInterface_skip hnext htype hnot]
    exact ih

/-- The outer loop comes to a supported interface, and leaves the rest to the
inner loop. -/
theorem findInterface_of_supported (h : Host) (d : Device)
    (hreads : Reads env r (skipped ++ ifDesc :: rest) r')
    (hskip : ∀ x ∈ skipped, ¬ Supported env x) (hif : Supported env ifDesc)
    (hsteps : skipped.length < env.steps) (hn : skipped.length < n) :
    ∃ r₁, Reads env r₁ rest r' ∧ findInterface env n r h d =
      if (allocated env h).1 = 0#64 then .error .nullPointer
      else (collectEndpoints env d.drivers.length (byte env ifDesc 4).toNat env.steps r₁
        (d.withDriver env h ifDesc)).map fun d' =>
          (some d.drivers.length, (allocated env h).2, d') := by
  refine search_induction hreads hskip hsteps hn ?_ ?_
  · intro n r before hreads hnone hsteps
    rw [List.append_cons] at hreads
    obtain ⟨r₁, hfirst, hafter⟩ := hreads.of_append
    exact ⟨r₁, hafter, findInterface_take (nextOf_of_reads hfirst hnone hif.1 hsteps) hif⟩
  · rintro n r q r₁ hnext htype hnot ⟨r₂, hafter, ih⟩
    exact ⟨r₂, hafter, (findInterface_skip hnext htype hnot).trans ih⟩

/-! ## what `InitializePhase2` returns -/

theorem allocated_withSteps (env : Env) (h : Host) (n : Nat) :
    allocated (env.withSteps n) h = allocated env h := by
  unfold allocated Host.allocArray
  rfl

theorem allocated_fst (env : Env) (h : Host) : (allocated env h).1 =
    (Usb.allocArray env.pool h.allocPtr HIDDriver.sizeofDriver 1 0#32 0#32).1 := by
  unfold allocated Host.allocArray
  exact Host.grant_fst _ _

theorem withDriver_withSteps (env : Env) (h : Host) (d : Device) (ifDesc : BitVec 64) (n : Nat) :
    d.withDriver (env.withSteps n) h ifDesc = d.withDriver env h ifDesc := by
  unfold withDriver
  rw [allocated_withSteps]
  rfl

/-- The device with the driver and the endpoints of an accepted interface. -/
def accepted (env : Env) (h : Host) (d : Device) (ifDesc : BitVec 64) (eps : List (BitVec 64)) :
    Device :=
  { d.adopt env (driverFor env (allocated env h).1 ifDesc) eps with initializePhase := 3 }

theorem hasType_of_ne (hbuf : buf ≠ 0#64) (type : BitVec 8) :
    hasType env buf type = .ok (decide (byte env buf 1 = type)) :=
  if_neg hbuf

/-- What follows the loops. -/
def conclude (env : Env) (buf : BitVec 64) :
    Option Nat × Host × Device → Device × Host × Outcome
  | (none, h, d) => (d, h, .error .kSuccess)
  | (some _, h, d) => ({ d with initializePhase := 3 }, h,
      .transfer (setConfiguration kDefaultControlPipeID (byte env buf 5)))

/-- The loops decide. -/
theorem initializePhase2_eq (hbuf : buf ≠ 0#64) (htype : byte env buf 1 = kConfiguration) :
    d.initializePhase2 env h buf len =
      (findInterface env env.steps ⟨buf, len, buf⟩ h d).map (conclude env buf) := by
  unfold initializePhase2
  rw [hasType_of_ne hbuf, htype]
  simp only [bind, Except.bind, decide_true, if_true]
  rcases findInterface env env.steps ⟨buf, len, buf⟩ h d with _ | ⟨_ | _, _, _⟩ <;> rfl

/-- Something else than a configuration descriptor. -/
theorem initializePhase2_of_type (hbuf : buf ≠ 0#64) (htype : byte env buf 1 ≠ kConfiguration) :
    d.initializePhase2 env h buf len = .ok (d, h, .error .kInvalidDescriptor) := by
  unfold initializePhase2
  rw [hasType_of_ne hbuf]
  simp only [htype, decide_false]
  rfl

/-- A configuration without a supported interface. -/
theorem initializePhase2_of_ends (hbuf : buf ≠ 0#64) (htype : byte env buf 1 = kConfiguration)
    (hends : Ends env buf len) : ∃ N, ∀ n, N ≤ n →
      d.initializePhase2 (env.withSteps n) h buf len = .ok (d, h, .error .kSuccess) := by
  obtain ⟨qs, r, r', hreads, hskip, hend⟩ := hends
  refine ⟨qs.length + 1, fun n hn => ?_⟩
  have hfind : findInterface (env.withSteps n) n ⟨buf, len, buf⟩ h d = .ok (none, h, d) :=
    findInterface_of_end ((Reads.withSteps n).mpr hreads) hskip hend hn hn
  have heq : d.initializePhase2 (env.withSteps n) h buf len =
      (findInterface (env.withSteps n) n ⟨buf, len, buf⟩ h d).map
        (conclude (env.withSteps n) buf) := initializePhase2_eq hbuf htype
  rw [heq, hfind]
  rfl

/-- A supported interface, up to the inner loop. -/
theorem initializePhase2_of_finds (d : Device) (h : Host) (hbuf : buf ≠ 0#64)
    (htype : byte env buf 1 = kConfiguration) (hfinds : Finds env buf len ifDesc rest r) :
    ∃ N, ∀ n, N ≤ n → rest.length < n ∧ ∃ r₁,
      Reads (env.withSteps n) r₁ rest r ∧ d.initializePhase2 (env.withSteps n) h buf len =
        if (allocated env h).1 = 0#64 then .error .nullPointer
        else (collectEndpoints (env.withSteps n) d.drivers.length (byte env ifDesc 4).toNat n r₁
          (d.withDriver env h ifDesc)).map fun d' =>
            conclude env buf (some d.drivers.length, (allocated env h).2, d') := by
  obtain ⟨skipped, hreads, hskip, hif⟩ := hfinds
  refine ⟨(skipped ++ ifDesc :: rest).length, fun n hn => ?_⟩
  rw [List.length_append, List.length_cons] at hn
  have hsteps : skipped.length < n := by omega
  obtain ⟨r₁, hrest, hfind⟩ := findInterface_of_supported (n := n) h d
    ((Reads.withSteps n).mpr hreads) hskip hif hsteps hsteps
  have heq : d.initializePhase2 (env.withSteps n) h buf len =
      (findInterface (env.withSteps n) n ⟨buf, len, buf⟩ h d).map
        (conclude (env.withSteps n) buf) := initializePhase2_eq hbuf htype
  rw [allocated_withSteps, withDriver_withSteps] at hfind
  refine ⟨by omega, r₁, hrest, ?_⟩
  rw [heq, hfind]
  split
  · rfl
  · show ((collectEndpoints (env.withSteps n) d.drivers.length (byte env ifDesc 4).toNat n r₁ _).map
      _).map _ = _
    cases collectEndpoints (env.withSteps n) d.drivers.length (byte env ifDesc 4).toNat n r₁ _ <;>
      rfl

/-- The inner loop begins without endpoints. -/
theorem initializePhase2_of_accepts (d : Device) (h : Host) (hbuf : buf ≠ 0#64)
    (htype : byte env buf 1 = kConfiguration) {eps : List (BitVec 64)}
    (haccepts : Accepts env buf len ifDesc eps) (hfew : eps.length ≤ 16) :
    ∃ N, ∀ n, N ≤ n → d.initializePhase2 (env.withSteps n) h buf len =
      if (allocated env h).1 = 0#64 then .error .nullPointer
      else .ok (accepted env h d ifDesc eps, (allocated env h).2,
        .transfer (setConfiguration kDefaultControlPipeID (byte env buf 5))) := by
  obtain ⟨rest, r, hfinds, rfl, hlength⟩ := accepts_iff.mp haccepts
  obtain ⟨N, hN⟩ := initializePhase2_of_finds d h hbuf htype hfinds
  refine ⟨N, fun n hn => ?_⟩
  obtain ⟨hrest, r₁, hreads, heq⟩ := hN n hn
  rw [heq]
  split
  · rfl
  · have hcollect : collectEndpoints (env.withSteps n) d.drivers.length (byte env ifDesc 4).toNat n
        r₁ (d.withDriver env h ifDesc) = .ok _ :=
      collectEndpoints_of_reads hreads hlength ((Nat.zero_add _).symm ▸ hfew) hrest
    rw [hcollect]
    rfl

theorem initializePhase2_of_overflows (d : Device) (h : Host) (hbuf : buf ≠ 0#64)
    (htype : byte env buf 1 = kConfiguration) (hoverflows : Overflows env buf len) :
    ∃ N, ∀ n, N ≤ n → d.initializePhase2 (env.withSteps n) h buf len =
      if (allocated env h).1 = 0#64 then .error .nullPointer else .error .outOfBounds := by
  obtain ⟨ifDesc, rest, r, hfinds, hnum, hmany⟩ := hoverflows
  obtain ⟨N, hN⟩ := initializePhase2_of_finds d h hbuf htype hfinds
  refine ⟨N, fun n hn => ?_⟩
  obtain ⟨hrest, r₁, hreads, heq⟩ := hN n hn
  rw [heq]
  split
  · rfl
  · have hcollect : collectEndpoints (env.withSteps n) d.drivers.length (byte env ifDesc 4).toNat n
        r₁ (d.withDriver env h ifDesc) = .error .outOfBounds :=
      collectEndpoints_of_overflow hreads (Nat.zero_le 16) hnum
        ((Nat.zero_add _).symm ▸ hmany) hrest
    rw [hcollect]
    rfl

/-! ## and only then -/

/-- `Next<T>()` comes to the end. -/
theorem nextOf_none {type : BitVec 8} (ret : r.nextOf env type n = .ok (none, r')) :
    ∃ skipped r₁, Reads env r skipped r₁ ∧ (∀ x ∈ skipped, byte env x 1 ≠ type) ∧
      r₁.next env = (none, r') := by
  induction n generalizing r with
  | zero => exact absurd ret Returns.throw_ne_ok
  | succ n ih =>
      unfold ConfigurationDescriptorReader.nextOf at ret
      split at ret
      · next r₁ hnext =>
        cases Returns.pure_eq_ok.mp ret
        exact ⟨[], r, .nil r, nofun, hnext⟩
      · next x r₁ hnext =>
        split at ret
        · cases Returns.pure_eq_ok.mp ret
        · next htype =>
          obtain ⟨skipped, r₂, hreads, hskip, hend⟩ := ih ret
          exact ⟨x :: skipped, r₂, .cons hnext hreads,
            List.forall_mem_cons.mpr ⟨htype, hskip⟩, hend⟩

theorem nextOf_error {type : BitVec 8} {e : Fault} (ret : r.nextOf env type n = .error e) :
    e = .endless := by
  induction n generalizing r with
  | zero =>
      cases ret
      rfl
  | succ n ih =>
      unfold ConfigurationDescriptorReader.nextOf at ret
      split at ret
      · cases ret
      · split at ret
        · cases ret
        · exact ih ret

/-- The inner loop writes past the table. -/
theorem collectEndpoints_outOfBounds
    (ret : collectEndpoints env driver numEndpoints n r d = .error .outOfBounds) :
    ∃ rest r', Reads env r rest r' ∧ (d.numEpConfigs ≤ 16 → 16 < numEndpoints ∧
      16 < d.numEpConfigs + (endpointsOf env rest).length) := by
  induction n generalizing r d with
  | zero => cases ret
  | succ n ih =>
      unfold collectEndpoints at ret
      split at ret
      · next hmore =>
        split at ret
        · cases ret
        · next q r₁ hnext =>
          split at ret
          · next htype =>
            split at ret
            · next hroom =>
              obtain ⟨rest, r', hreads, hover⟩ := ih ret
              refine ⟨q :: rest, r', .cons hnext hreads, fun _ => ?_⟩
              obtain ⟨hnum, hmany⟩ := hover hroom
              rw [endpointsOf_cons_of_eq htype, List.length_cons]
              simp only at hmany
              omega
            · refine ⟨[q], r₁, .cons hnext (.nil r₁), fun hd => ?_⟩
              rw [endpointsOf_cons_of_eq htype, List.length_cons]
              omega
          · next htype =>
            obtain ⟨rest, r', hreads, hover⟩ := ih ret
            refine ⟨q :: rest, r', .cons hnext hreads, ?_⟩
            rwa [endpointsOf_cons_of_ne htype]
      · cases ret

/-- What a result of the loops says about the buffer and the pool. -/
def Explains (env : Env) (h : Host) (d : Device) (buf : BitVec 64) (len : Int) :
    Except Fault (Option Nat × Host × Device) → Prop
  | .ok (none, h', d') => Ends env buf len ∧ h' = h ∧ d' = d
  | .ok (some _, _, _) => (allocated env h).1 ≠ 0#64 ∧
      ∃ ifDesc eps, Accepts env buf len ifDesc eps ∧ eps.length ≤ 16
  | .error .outOfBounds => (allocated env h).1 ≠ 0#64 ∧ Overflows env buf len
  | .error _ => True

/-- The inner loop, after the interface. -/
theorem explains_collect {passed : List (BitVec 64)}
    (hreads : Reads env ⟨buf, len, buf⟩ (passed ++ [ifDesc]) r)
    (hpassed : ∀ q ∈ passed, ¬ Supported env q) (hif : Supported env ifDesc) :
    Explains env h d buf len (if (allocated env h).1 = 0#64 then .error .nullPointer
      else (collectEndpoints env d.drivers.length (byte env ifDesc 4).toNat n r
        (d.withDriver env h ifDesc)).map fun d' =>
          (some d.drivers.length, (allocated env h).2, d')) := by
  have hfinds : ∀ {rest r'}, Reads env r rest r' → Finds env buf len ifDesc rest r' := by
    intro rest r' hrest
    have hall := hreads.append hrest
    rw [List.append_assoc, List.singleton_append] at hall
    exact ⟨passed, hall, hpassed, hif⟩
  by_cases hroom : (allocated env h).1 = 0#64
  · rw [if_pos hroom]
    exact True.intro
  · rw [if_neg hroom]
    cases hcollect : collectEndpoints env d.drivers.length (byte env ifDesc 4).toNat n r
      (d.withDriver env h ifDesc) with
    | ok d' =>
        obtain ⟨rest, r', hrest, hlength, hmax, _⟩ := collectEndpoints_ok hcollect
        have hmax : 0 + (endpointsOf env rest).length ≤ 16 := hmax (Nat.zero_le 16)
        exact ⟨hroom, ifDesc, endpointsOf env rest,
          accepts_iff.mpr ⟨rest, r', hfinds hrest, rfl, hlength⟩, by omega⟩
    | error e =>
        cases e with
        | nullPointer => exact True.intro
        | endless => exact True.intro
        | outOfBounds =>
            obtain ⟨rest, r', hrest, hover⟩ := collectEndpoints_outOfBounds hcollect
            obtain ⟨hnum, hmany⟩ := hover (Nat.zero_le 16)
            rw [show (d.withDriver env h ifDesc).numEpConfigs = 0 from rfl, Nat.zero_add] at hmany
            exact ⟨hroom, ifDesc, rest, r', hfinds hrest, hnum, hmany⟩

/-- Whatever the loops return, or write past the table, is in the buffer. -/
theorem findInterface_explains {passed : List (BitVec 64)}
    (hreads : Reads env ⟨buf, len, buf⟩ passed r) (hpassed : ∀ q ∈ passed, ¬ Supported env q) :
    Explains env h d buf len (findInterface env n r h d) := by
  induction n generalizing passed r with
  | zero => exact True.intro
  | succ n ih =>
      cases hnext : r.nextOf env kInterface env.steps with
      | error e =>
          obtain rfl := nextOf_error hnext
          rw [findInterface, hnext]
          exact True.intro
      | ok found =>
          obtain ⟨found, r₁⟩ := found
          cases found with
          | none =>
              rw [findInterface, hnext]
              obtain ⟨skipped, r₂, hskipped, htypes, hend⟩ := nextOf_none hnext
              refine ⟨⟨passed ++ skipped, r₂, r₁, hreads.append hskipped, ?_, hend⟩, rfl, rfl⟩
              exact List.forall_mem_append.mpr ⟨hpassed, fun q hq hs => htypes q hq hs.1⟩
          | some ifDesc =>
              obtain ⟨skipped, hskipped, htypes, hif⟩ := nextOf_ok hnext
              have hskip : ∀ q ∈ passed ++ skipped, ¬ Supported env q :=
                List.forall_mem_append.mpr ⟨hpassed, fun q hq hs => htypes q hq hs.1⟩
              have hall := hreads.append hskipped
              rw [← List.append_assoc] at hall
              by_cases hsupported : Supported env ifDesc
              · rw [findInterface_take hnext hsupported]
                exact explains_collect hall hskip hsupported
              · rw [findInterface_skip hnext hif hsupported]
                exact ih hall (List.forall_mem_append.mpr
                  ⟨hskip, List.forall_mem_singleton.mpr hsupported⟩)

/-- And that does not depend on the number of rounds. -/
theorem search_explains (env : Env) (h : Host) (d : Device) (buf : BitVec 64) (len : Int)
    (n : Nat) :
    Explains env h d buf len (findInterface (env.withSteps n) n ⟨buf, len, buf⟩ h d) := by
  have hexplains : Explains (env.withSteps n) h d buf len
      (findInterface (env.withSteps n) n ⟨buf, len, buf⟩ h d) :=
    findInterface_explains (.nil _) nofun
  have hsame : Explains (env.withSteps n) h d buf len = Explains env h d buf len := by
    funext x
    unfold Explains
    simp only [Ends.withSteps, Accepts.withSteps, Overflows.withSteps, allocated_withSteps]
  exact hsame ▸ hexplains

/-- What `InitializePhase2` says about the buffer and the pool. -/
theorem initializePhase2_explains (h : Host) (d : Device) (len : Int) (hbuf : buf ≠ 0#64)
    (htype : byte env buf 1 = kConfiguration) (n : Nat) : ∃ x, Explains env h d buf len x ∧
      d.initializePhase2 (env.withSteps n) h buf len = x.map (conclude env buf) := by
  have htype : byte (env.withSteps n) buf 1 = kConfiguration := htype
  exact ⟨_, search_explains env h d buf len n, initializePhase2_eq hbuf htype⟩

end Device

end MikanOs.Usb
