import Mathlib.Data.List.Forall2
import MikanOs.Usb.ReaderProgress

/-!
# MikanOs.Usb.DescriptorList

`InitializePhase2` on a configuration as it should be: a list of descriptors,
one after another in the buffer.

What is chosen is said of the list alone, without the reader and without
addresses; `At` ties a descriptor of the list to the place the reader finds it
at.
-/

namespace MikanOs.Usb

open Descriptor

/-! ## descriptors -/

namespace Bytes

/-- A field of a descriptor that is given by its bytes. -/
def field (b : List (BitVec 8)) (off : Nat) : BitVec 8 := b.getD off 0#8

/-- The size of the struct for a type, where a field of it is used. -/
def sizeofStruct (type : BitVec 8) : Nat :=
  if type = kConfiguration ∨ type = kInterface then 9 else if type = kEndpoint then 7 else 2

/-- As long as its length says, and as its struct at least. -/
structure Wellformed (b : List (BitVec 8)) : Prop where
  length : (field b 0).toNat = b.length
  size : sizeofStruct (field b 1) ≤ b.length

instance (b : List (BitVec 8)) : Decidable (Wellformed b) :=
  decidable_of_iff (_ ∧ _) ⟨fun h => ⟨h.1, h.2⟩, fun h => ⟨h.length, h.size⟩⟩

/-- An interface of a boot keyboard or a boot mouse. -/
def IsBoot (b : List (BitVec 8)) : Prop :=
  field b 1 = kInterface ∧ field b 5 = 3#8 ∧ field b 6 = 1#8 ∧
    (field b 7 = 1#8 ∨ field b 7 = 2#8)

instance (b : List (BitVec 8)) : Decidable (IsBoot b) := inferInstanceAs (Decidable (_ ∧ _))

/-- `num_endpoints` of an interface. -/
def numEndpoints (b : List (BitVec 8)) : Nat := (field b 4).toNat

/-- The endpoints among some descriptors. -/
def endpoints (bs : List (List (BitVec 8))) : List (List (BitVec 8)) :=
  bs.filter fun b => field b 1 = kEndpoint

/-- The descriptors before the next interface. -/
def ownDescriptors (bs : List (List (BitVec 8))) : List (List (BitVec 8)) :=
  bs.takeWhile fun b => field b 1 ≠ kInterface

/-- What the fields of an endpoint descriptor mean. -/
structure Decodes (b : List (BitVec 8)) (c : EndpointConfig) : Prop where
  number : c.epId.number = ((field b 2).extractLsb' 0 4).toNat
  isIn : c.epId.isIn = (field b 2).getLsbD 7
  epType : c.epType = EndpointType.ofBits ((field b 3).extractLsb' 0 2)
  maxPacketSize : c.maxPacketSize = (field b 4).toNat + 256 * (field b 5).toNat
  interval : c.interval = (field b 6).toNat

/-- A configuration descriptor and what follows it. -/
structure Configuration (conf : List (BitVec 8)) (bs : List (List (BitVec 8))) : Prop where
  type : field conf 1 = kConfiguration
  wellformed : ∀ b ∈ conf :: bs, Wellformed b
  /-- a boot interface has its endpoints before the next interface -/
  enough : ∀ before b after, bs = before ++ b :: after → IsBoot b → numEndpoints b ≤ 15 ∧
    numEndpoints b ≤ (endpoints (ownDescriptors after)).length

end Bytes

/-! ## in memory -/

/-- The bytes in memory from an address on. -/
def Holds (env : Env) (p : BitVec 64) (bytes : List (BitVec 8)) : Prop :=
  ∀ i (h : i < bytes.length), byte env p i = bytes[i]

theorem Holds.of_append {env : Env} {p : BitVec 64} {xs ys : List (BitVec 8)}
    (h : Holds env p (xs ++ ys)) :
    Holds env p xs ∧ Holds env (p + BitVec.ofNat 64 xs.length) ys := by
  constructor
  · intro i hi
    rw [h i (by rw [List.length_append]; omega), List.getElem_append_left hi]
  · intro i hi
    have hoff : p + BitVec.ofNat 64 xs.length + BitVec.ofNat 64 i =
        p + BitVec.ofNat 64 (xs.length + i) := by
      rw [BitVec.add_assoc, BitVec.ofNat_add]
    have hbyte := h (xs.length + i) (by rw [List.length_append]; omega)
    rw [List.getElem_append_right (Nat.le_add_right _ _)] at hbyte
    rw [byte, hoff]
    simp only [Nat.add_sub_cancel_left] at hbyte
    exact hbyte

open Bytes Device

/-- A well-formed descriptor at an address. -/
structure At (env : Env) (b : List (BitVec 8)) (q : BitVec 64) : Prop where
  wf : Wellformed b
  bytes : Holds env q b

namespace At

variable {env : Env} {b : List (BitVec 8)} {q : BitVec 64}

theorem byte_eq (h : At env b q) {off : Nat} (hoff : off < b.length) :
    byte env q off = field b off := by
  rw [h.bytes off hoff, field, List.getD_eq_getElem?_getD, List.getElem?_eq_getElem hoff,
    Option.getD_some]

theorem two_le (h : At env b q) : 2 ≤ b.length := by
  refine Nat.le_trans ?_ h.wf.size
  unfold sizeofStruct
  split
  · decide
  · split <;> decide

theorem type_eq (h : At env b q) : byte env q 1 = field b 1 := h.byte_eq h.two_le

theorem nine_le (h : At env b q) (htype : field b 1 = kConfiguration ∨ field b 1 = kInterface) :
    9 ≤ b.length := by
  have hsize := h.wf.size
  rwa [sizeofStruct, if_pos htype] at hsize

theorem seven_le (h : At env b q) (htype : field b 1 = kEndpoint) : 7 ≤ b.length := by
  have hsize := h.wf.size
  rwa [sizeofStruct, htype, if_neg (by decide), if_pos rfl] at hsize

theorem supported_iff (h : At env b q) : Supported env q ↔ IsBoot b := by
  unfold Supported IsBoot
  rw [h.type_eq]
  refine and_congr_right fun htype => ?_
  have hnine := h.nine_le (.inr htype)
  rw [h.byte_eq (by omega), h.byte_eq (by omega), h.byte_eq (by omega)]

/-- `MakeEPConfig` reads what the fields mean. -/
theorem decodes (h : At env b q) (htype : field b 1 = kEndpoint) :
    Decodes b (makeEPConfig env q) := by
  have hseven := h.seven_le htype
  constructor
  · rw [number_makeEPConfig, endpointNumber, h.byte_eq (by omega)]
  · rw [isIn_makeEPConfig, h.byte_eq (by omega)]
  · rw [← h.byte_eq (by omega)]
    rfl
  · rw [← h.byte_eq (by omega), ← h.byte_eq (by omega)]
    rfl
  · rw [← h.byte_eq (by omega)]
    rfl

end At

/-! ## the reader goes over the list -/

section

variable {env : Env} {buf p : BitVec 64} {len : Int} {b : List (BitVec 8)}
  {bs : List (List (BitVec 8))}

/-- From one descriptor to the next. -/
theorem At.next_eq (h : At env b p) (hlen : 0 ≤ len) (hfits : buf.toNat + len.toNat < 2 ^ 64)
    (hp : p.toNat + b.length ≤ buf.toNat + len.toNat) :
    (p + BitVec.ofNat 64 b.length).toNat = p.toNat + b.length ∧
      ConfigurationDescriptorReader.next env ⟨buf, len, p⟩ =
        (if p.toNat + b.length < buf.toNat + len.toNat then some (p + BitVec.ofNat 64 b.length)
          else none, ⟨buf, len, p + BitVec.ofNat 64 b.length⟩) := by
  have htwo := h.two_le
  have hlength : (byte env p 0).setWidth 64 = BitVec.ofNat 64 b.length := by
    rw [h.byte_eq (by omega), ← h.wf.length]
    refine BitVec.eq_of_toNat_eq ?_
    rw [BitVec.toNat_setWidth, BitVec.toNat_ofNat]
  have hp' : (p + BitVec.ofNat 64 b.length).toNat = p.toNat + b.length := by
    rw [BitVec.toNat_add, BitVec.toNat_ofNat]
    omega
  refine ⟨hp', ?_⟩
  simp only [ConfigurationDescriptorReader.next, hlength, BitVec.lt_def, hp', toNat_end hlen hfits]

/-- It comes to each descriptor of the list, and then to the end. -/
theorem exists_reads (hwf : ∀ x ∈ b :: bs, Wellformed x) (hmem : Holds env p (b :: bs).flatten)
    (hlen : 0 ≤ len) (hfits : buf.toNat + len.toNat < 2 ^ 64)
    (hend : p.toNat + (b :: bs).flatten.length = buf.toNat + len.toNat) :
    At env b p ∧ ∃ qs r r', Reads env ⟨buf, len, p⟩ qs r ∧ List.Forall₂ (At env) bs qs ∧
      r.next env = (none, r') := by
  induction bs generalizing b p with
  | nil =>
      rw [List.flatten_cons, List.flatten_nil, List.append_nil] at hmem hend
      have hat : At env b p := ⟨hwf b List.mem_cons_self, hmem⟩
      obtain ⟨_, hnext⟩ := hat.next_eq hlen hfits (Nat.le_of_eq hend)
      rw [if_neg (by omega)] at hnext
      exact ⟨hat, [], _, _, .nil _, .nil, hnext⟩
  | cons c bs ih =>
      rw [List.flatten_cons] at hmem hend
      rw [List.length_append] at hend
      obtain ⟨hfirst, hrest⟩ := hmem.of_append
      have hat : At env b p := ⟨hwf b List.mem_cons_self, hfirst⟩
      obtain ⟨hp', hnext⟩ := hat.next_eq hlen hfits (by omega)
      obtain ⟨hc, qs, r, r', hreads, hats, hlast⟩ :=
        ih (fun x hx => hwf x (List.mem_cons_of_mem _ hx)) hrest (by omega)
      have htwo := hc.two_le
      rw [List.flatten_cons, List.length_append] at hend
      rw [if_pos (by omega)] at hnext
      exact ⟨hat, _ :: qs, r, r', .cons hnext hreads, .cons hc hats, hlast⟩

/-- Two lists that go together, from an element of the one on. -/
theorem forall₂_append_cons {R : α → β → Prop} {xs ys : List α} {x : α} {zs : List β}
    (h : List.Forall₂ R (xs ++ x :: ys) zs) : ∃ us u vs, zs = us ++ u :: vs ∧
      List.Forall₂ R xs us ∧ R x u ∧ List.Forall₂ R ys vs := by
  induction xs generalizing zs with
  | nil =>
      obtain ⟨u, vs, hx, hys, rfl⟩ := List.forall₂_cons_left_iff.mp h
      exact ⟨[], u, vs, rfl, .nil, hx, hys⟩
  | cons y xs ih =>
      obtain ⟨v, zs, hy, hrest, rfl⟩ := List.forall₂_cons_left_iff.mp h
      obtain ⟨us, u, vs, rfl, hxs, hx, hys⟩ := ih hrest
      exact ⟨v :: us, u, vs, rfl, .cons hy hxs, hx, hys⟩

/-- Nothing at a place is supported that is not a boot interface. -/
theorem not_supported_of_forall₂ {qs : List (BitVec 64)} (h : List.Forall₂ (At env) bs qs)
    (hno : ∀ b ∈ bs, ¬ IsBoot b) : ∀ q ∈ qs, ¬ Supported env q := by
  induction h with
  | nil => exact nofun
  | cons hat _ ih =>
      obtain ⟨hb, hbs⟩ := List.forall_mem_cons.mp hno
      exact List.forall_mem_cons.mpr ⟨fun hs => hb (hat.supported_iff.mp hs), ih hbs⟩

/-- The endpoints of a list are at the endpoints of its places. -/
theorem forall₂_endpoints {qs : List (BitVec 64)} (h : List.Forall₂ (At env) bs qs) :
    List.Forall₂ (At env) (endpoints bs) (endpointsOf env qs) :=
  List.rel_filter (fun b q hat => by simp only [hat.type_eq]) h

/-- A part of a list that has so many of its endpoints. -/
theorem exists_prefix_endpointsOf (env : Env) (qs : List (BitVec 64)) {n : Nat}
    (h : n ≤ (endpointsOf env qs).length) :
    ∃ rest tail, qs = rest ++ tail ∧ endpointsOf env rest = (endpointsOf env qs).take n := by
  induction qs generalizing n with
  | nil => exact ⟨[], [], rfl, List.take_nil.symm⟩
  | cons q qs ih =>
      by_cases htype : byte env q 1 = kEndpoint
      · rw [endpointsOf_cons_of_eq htype] at h ⊢
        cases n with
        | zero => exact ⟨[], q :: qs, rfl, rfl⟩
        | succ n =>
            obtain ⟨rest, tail, rfl, heq⟩ := ih (Nat.le_of_succ_le_succ h)
            refine ⟨q :: rest, tail, rfl, ?_⟩
            rw [endpointsOf_cons_of_eq htype, List.take_succ_cons, heq]
      · rw [endpointsOf_cons_of_ne htype] at h ⊢
        obtain ⟨rest, tail, rfl, heq⟩ := ih h
        exact ⟨q :: rest, tail, rfl, (endpointsOf_cons_of_ne htype rest).trans heq⟩

end

/-! ## what is chosen -/

namespace Device

/-- The device with the endpoints `eps` of the interface `ifDesc`, and a new
class driver at their numbers. -/
structure Selected (d : Device) (ifDesc : List (BitVec 8)) (eps : List (List (BitVec 8)))
    (d' : Device) : Prop where
  few : eps.length = numEndpoints ifDesc
  count : d'.numEpConfigs = numEndpoints ifDesc
  configs : ∀ i (h : i < eps.length), Decodes eps[i] (d'.epConfigs i)
  driver : ∃ c, d'.drivers = d.drivers ++ [c] ∧ c.interfaceIndex = field ifDesc 2 ∧
    c.kind = if field ifDesc 7 = 1#8 then .keyboard else .mouse
  registered : ∀ j, d'.classDrivers j =
    if ∃ b ∈ eps, ((field b 2).extractLsb' 0 4).toNat = j then some d.drivers.length
    else d.classDrivers j
  phase : d'.initializePhase = 3
  this : d'.this = d.this
  isInitialized : d'.isInitialized = d.isInitialized
  eventWaiters : d'.eventWaiters = d.eventWaiters

variable {env : Env} {h : Host} {d : Device} {ifDesc : List (BitVec 8)} {q : BitVec 64}
  {eps : List (List (BitVec 8))} {qs : List (BitVec 64)}

theorem driverFor_of_at (hat : At env ifDesc q) (htype : field ifDesc 1 = kInterface)
    (this : BitVec 64) : (driverFor env this q).interfaceIndex = field ifDesc 2 ∧
      (driverFor env this q).kind = if field ifDesc 7 = 1#8 then .keyboard else .mouse := by
  have hnine := hat.nine_le (.inr htype)
  unfold driverFor
  rw [hat.byte_eq (by omega), hat.byte_eq (by omega)]
  by_cases hkey : field ifDesc 7 = 1#8
  · simp only [hkey, if_true]
    split <;> exact ⟨rfl, rfl⟩
  · simp only [hkey, if_false]
    split <;> exact ⟨rfl, rfl⟩

/-- An endpoint number that is at a place is in the list. -/
theorem exists_number_iff (h : List.Forall₂ (At env) eps qs)
    (htypes : ∀ b ∈ eps, field b 1 = kEndpoint) (j : Nat) :
    (∃ config ∈ qs.map (makeEPConfig env), config.epId.number.toNat = j) ↔
      ∃ b ∈ eps, ((field b 2).extractLsb' 0 4).toNat = j := by
  induction h with
  | nil => simp
  | @cons b q eps qs hat _ ih =>
      obtain ⟨hb, hrest⟩ := List.forall_mem_cons.mp htypes
      have hnumber := (hat.decodes hb).number
      simp only [List.map_cons, List.mem_cons, exists_eq_or_imp, ih hrest, hnumber,
        Int.toNat_natCast]

/-- The accepted device, in terms of the descriptors. -/
theorem selected_of_accepted (h : Host) (d : Device) (hif : At env ifDesc q)
    (htype : field ifDesc 1 = kInterface) (heps : List.Forall₂ (At env) eps qs)
    (htypes : ∀ b ∈ eps, field b 1 = kEndpoint) (hlength : eps.length = numEndpoints ifDesc) :
    Selected d ifDesc eps (accepted env h d q qs) := by
  let c := driverFor env (allocated env h).1 q
  let d₁ : Device := { d with drivers := d.drivers ++ [c], numEpConfigs := 0 }
  have hsame : qs.length = eps.length := heps.length_eq.symm
  have haccepted : accepted env h d q qs =
      { (qs.map (makeEPConfig env)).foldl (collect d.drivers.length) d₁ with
        initializePhase := 3 } := rfl
  have hconfigs := foldl_collect_epConfigs d.drivers.length (qs.map (makeEPConfig env)) d₁
  have hdrivers := foldl_collect_classDrivers d.drivers.length (qs.map (makeEPConfig env)) d₁
  rw [haccepted, foldl_collect]
  refine ⟨hlength, ?_, fun i hi => ?_, ⟨c, rfl, driverFor_of_at hif htype _⟩, fun j => ?_, rfl, rfl,
    rfl, rfl⟩
  · show 0 + (qs.map (makeEPConfig env)).length = _
    rw [Nat.zero_add, List.length_map, hsame, hlength]
  · have hi' : i < qs.length := hsame.symm ▸ hi
    have hmem : d₁.numEpConfigs ≤ i ∧ i < d₁.numEpConfigs + (qs.map (makeEPConfig env)).length := by
      rw [List.length_map]
      exact ⟨Nat.zero_le i, by show i < 0 + _; omega⟩
    show Decodes eps[i] (((qs.map (makeEPConfig env)).foldl _ d₁).epConfigs i)
    rw [hconfigs, dif_pos hmem]
    have hat : At env eps[i] qs[i] := heps.get hi hi'
    have hzero : i - d₁.numEpConfigs = i := Nat.sub_zero i
    simp only [hzero, List.getElem_map]
    exact hat.decodes (htypes _ (List.getElem_mem hi))
  · show ((qs.map (makeEPConfig env)).foldl _ d₁).classDrivers j = _
    rw [hdrivers]
    simp only [exists_number_iff heps htypes]
    rfl

/-! ## the theorem -/

variable {buf : BitVec 64} {conf : List (BitVec 8)} {bs skipped after : List (List (BitVec 8))}

/-- The reader on a configuration. -/
theorem reads_of_configuration (hmem : Holds env buf (conf :: bs).flatten)
    (hfits : buf.toNat + (conf :: bs).flatten.length < 2 ^ 64) (hconf : Configuration conf bs) :
    At env conf buf ∧ ∃ qs r r', Reads env ⟨buf, (conf :: bs).flatten.length, buf⟩ qs r ∧
      List.Forall₂ (At env) bs qs ∧ r.next env = (none, r') :=
  exists_reads hconf.wellformed hmem (Int.natCast_nonneg _) hfits rfl

/-- The endpoints that are taken, and the first so many of them. -/
theorem length_take_endpoints (hconf : Configuration conf (skipped ++ ifDesc :: after))
    (hboot : IsBoot ifDesc) :
    numEndpoints ifDesc ≤ 15 ∧ numEndpoints ifDesc ≤ (endpoints after).length ∧
      ((endpoints after).take (numEndpoints ifDesc)).length = numEndpoints ifDesc := by
  obtain ⟨hmax, henough⟩ := hconf.enough skipped ifDesc after rfl hboot
  have hown : (endpoints (ownDescriptors after)).length ≤ (endpoints after).length :=
    ((List.takeWhile_sublist _).filter _).length_le
  have hle := Nat.le_trans henough hown
  exact ⟨hmax, hle, List.length_take_of_le hle⟩

/-- The first boot interface of a configuration is the one accepted. -/
theorem accepts_of_configuration
    (hmem : Holds env buf (conf :: (skipped ++ ifDesc :: after)).flatten)
    (hfits : buf.toNat + (conf :: (skipped ++ ifDesc :: after)).flatten.length < 2 ^ 64)
    (hconf : Configuration conf (skipped ++ ifDesc :: after))
    (hno : ∀ b ∈ skipped, ¬ IsBoot b) (hboot : IsBoot ifDesc) : ∃ q qs, At env ifDesc q ∧
      List.Forall₂ (At env) ((endpoints after).take (numEndpoints ifDesc)) qs ∧
      Accepts env buf (conf :: (skipped ++ ifDesc :: after)).flatten.length q qs := by
  obtain ⟨_, qs, r, r', hreads, hats, _⟩ := reads_of_configuration hmem hfits hconf
  obtain ⟨us, q, vs, rfl, hskip, hif, hafter⟩ := forall₂_append_cons hats
  obtain ⟨_, hle, hlength⟩ := length_take_endpoints hconf hboot
  have hends := forall₂_endpoints hafter
  obtain ⟨rest, tail, rfl, hrest⟩ := exists_prefix_endpointsOf env vs
    (n := numEndpoints ifDesc) (hends.length_eq ▸ hle)
  have heps : List.Forall₂ (At env) ((endpoints after).take (numEndpoints ifDesc))
      (endpointsOf env rest) := hrest ▸ List.forall₂_take _ hends
  have hnine := hif.nine_le (.inr hboot.1)
  have hcount : (endpointsOf env rest).length = (byte env q 4).toNat := by
    rw [← heps.length_eq, hlength, hif.byte_eq (by omega)]
    rfl
  have hsplit : us ++ q :: (rest ++ tail) = us ++ q :: rest ++ tail := by
    rw [List.append_assoc, List.cons_append]
  rw [hsplit] at hreads
  obtain ⟨r₁, hfirst, _⟩ := hreads.of_append
  exact ⟨q, _, hif, heps, us, rest, r₁, hfirst, not_supported_of_forall₂ hskip hno,
    hif.supported_iff.mpr hboot, rfl, hcount⟩

/-- No interface that it has a class driver for. -/
theorem initializePhase2_of_no_boot (hbuf : buf ≠ 0#64)
    (hmem : Holds env buf (conf :: bs).flatten)
    (hfits : buf.toNat + (conf :: bs).flatten.length < 2 ^ 64) (hconf : Configuration conf bs)
    (hno : ∀ b ∈ bs, ¬ IsBoot b) : ∃ N, ∀ n, N ≤ n →
      d.initializePhase2 (env.withSteps n) h buf (conf :: bs).flatten.length =
        .ok (d, h, .error .kSuccess) := by
  obtain ⟨hat, qs, r, r', hreads, hats, hend⟩ := reads_of_configuration hmem hfits hconf
  exact initializePhase2_of_ends hbuf (hat.type_eq.trans hconf.type)
    ⟨qs, r, r', hreads, not_supported_of_forall₂ hats hno, hend⟩

/-- The first one that it has a class driver for. -/
theorem initializePhase2_of_boot (h : Host) (d : Device) (hbuf : buf ≠ 0#64)
    (hmem : Holds env buf (conf :: (skipped ++ ifDesc :: after)).flatten)
    (hfits : buf.toNat + (conf :: (skipped ++ ifDesc :: after)).flatten.length < 2 ^ 64)
    (hconf : Configuration conf (skipped ++ ifDesc :: after))
    (hno : ∀ b ∈ skipped, ¬ IsBoot b) (hboot : IsBoot ifDesc) : ∃ N, ∀ n, N ≤ n →
      if (allocated env h).1 = 0#64 then
        d.initializePhase2 (env.withSteps n) h buf
          (conf :: (skipped ++ ifDesc :: after)).flatten.length = .error .nullPointer
      else ∃ d', d.initializePhase2 (env.withSteps n) h buf
            (conf :: (skipped ++ ifDesc :: after)).flatten.length =
          .ok (d', (allocated env h).2,
            .transfer (setConfiguration kDefaultControlPipeID (field conf 5))) ∧
        Selected d ifDesc ((endpoints after).take (numEndpoints ifDesc)) d' := by
  obtain ⟨hat, _⟩ := reads_of_configuration hmem hfits hconf
  obtain ⟨q, qs, hif, heps, haccepts⟩ := accepts_of_configuration hmem hfits hconf hno hboot
  obtain ⟨hmax, _, hlength⟩ := length_take_endpoints hconf hboot
  have htypes : ∀ b ∈ (endpoints after).take (numEndpoints ifDesc), field b 1 = kEndpoint :=
    fun b hb => by simpa using (List.mem_filter.mp (List.mem_of_mem_take hb)).2
  have hfive : byte env buf 5 = field conf 5 :=
    hat.byte_eq (Nat.lt_of_lt_of_le (by decide) (hat.nine_le (.inl hconf.type)))
  obtain ⟨N, hN⟩ := initializePhase2_of_accepts d h hbuf (hat.type_eq.trans hconf.type) haccepts
    (by rw [← heps.length_eq, hlength]; omega)
  refine ⟨N, fun n hn => ?_⟩
  rw [hN n hn, hfive]
  split
  · rfl
  · exact ⟨_, rfl, selected_of_accepted h d hif hboot.1 heps htypes hlength⟩

/-- **`InitializePhase2` chooses** the first interface of a boot keyboard or
boot mouse in a well-formed configuration, and takes the endpoints that follow
it, as many as it has; without such an interface it does nothing. -/
theorem initializePhase2_selects (env : Env) (h : Host) (d : Device) {buf : BitVec 64}
    {conf : List (BitVec 8)} {bs : List (List (BitVec 8))} (hbuf : buf ≠ 0#64)
    (hmem : Holds env buf (conf :: bs).flatten)
    (hfits : buf.toNat + (conf :: bs).flatten.length < 2 ^ 64) (hconf : Configuration conf bs) :
    ((∀ b ∈ bs, ¬ IsBoot b) → ∃ N, ∀ n, N ≤ n →
      d.initializePhase2 (env.withSteps n) h buf (conf :: bs).flatten.length =
        .ok (d, h, .error .kSuccess)) ∧
    ∀ skipped ifDesc after, bs = skipped ++ ifDesc :: after → (∀ b ∈ skipped, ¬ IsBoot b) →
      IsBoot ifDesc → ∃ N, ∀ n, N ≤ n →
        if (allocated env h).1 = 0#64 then
          d.initializePhase2 (env.withSteps n) h buf (conf :: bs).flatten.length =
            .error .nullPointer
        else ∃ d', d.initializePhase2 (env.withSteps n) h buf (conf :: bs).flatten.length =
            .ok (d', (allocated env h).2,
              .transfer (setConfiguration kDefaultControlPipeID (field conf 5))) ∧
          Selected d ifDesc ((endpoints after).take (numEndpoints ifDesc)) d' := by
  refine ⟨initializePhase2_of_no_boot hbuf hmem hfits hconf, ?_⟩
  rintro skipped ifDesc after rfl hno hboot
  exact initializePhase2_of_boot h d hbuf hmem hfits hconf hno hboot

/-- What has been delivered is in memory. -/
theorem holds_delivered (buf : BitVec 64) {bytes : List (BitVec 8)} (h : bytes.length < 2 ^ 64) :
    Holds (delivered buf bytes) buf bytes := by
  intro i hi
  have hoff : (buf + BitVec.ofNat 64 i - buf).toNat = i := by
    rw [BitVec.add_comm, BitVec.add_sub_cancel, BitVec.toNat_ofNat]
    omega
  show bytes.getD (buf + BitVec.ofNat 64 i - buf).toNat 0#8 = _
  rw [hoff, List.getD_eq_getElem?_getD, List.getElem?_eq_getElem hi, Option.getD_some]

/-- A keyboard, after an interface of another class. -/
def keyboardDescriptors : List (List (BitVec 8)) :=
  [[9, 4, 0, 0, 1, 8, 6, 80, 0], [7, 5, 0x02, 2, 64, 0, 0], [9, 4, 1, 0, 1, 3, 1, 1, 0],
    [9, 33, 0x11, 1, 0, 1, 34, 63, 0], [7, 5, 0x81, 3, 8, 0, 10]]

theorem configuration_keyboard :
    Configuration [9, 2, 50, 0, 2, 1, 0, 0xa0, 50] keyboardDescriptors where
  type := rfl
  wellformed := by decide
  enough := by
    rintro before b after heq
    rcases before with _ | ⟨_, _ | ⟨_, _ | ⟨_, _ | ⟨_, _ | ⟨_, before⟩⟩⟩⟩⟩
    · cases heq
      decide
    · cases heq
      decide
    · cases heq
      decide
    · cases heq
      decide
    · cases heq
      decide
    · simp [keyboardDescriptors] at heq

/-- The second interface is chosen. -/
theorem initializePhase2_selects_keyboard : ∃ N, ∀ n, N ≤ n → ∃ d' h',
    (Device.new 0x200000#64).initializePhase2
        ((delivered 0x200088#64 ([9, 2, 50, 0, 2, 1, 0, 0xa0, 50] ::
          keyboardDescriptors).flatten).withSteps n) ⟨0x100000#64, []⟩ 0x200088#64 50 =
      .ok (d', h', .transfer (setConfiguration kDefaultControlPipeID 1#8)) ∧
    Selected (Device.new 0x200000#64) [9, 4, 1, 0, 1, 3, 1, 1, 0]
      [[7, 5, 0x81, 3, 8, 0, 10]] d' := by
  let env := delivered 0x200088#64 ([9, 2, 50, 0, 2, 1, 0, 0xa0, 50] :: keyboardDescriptors).flatten
  obtain ⟨N, hN⟩ := (initializePhase2_selects env ⟨0x100000#64, []⟩ (Device.new 0x200000#64)
    (by decide) (holds_delivered _ (by decide +kernel)) (by decide +kernel)
    configuration_keyboard).2
    (keyboardDescriptors.take 2) [9, 4, 1, 0, 1, 3, 1, 1, 0] (keyboardDescriptors.drop 3) rfl
    (by decide) (by decide)
  refine ⟨N, fun n hn => ?_⟩
  have hchosen := hN n hn
  rw [if_neg (allocated_delivered _ _)] at hchosen
  obtain ⟨d', hret, hselected⟩ := hchosen
  exact ⟨d', _, hret, hselected⟩

end Device

end MikanOs.Usb
