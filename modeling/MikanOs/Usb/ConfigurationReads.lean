import MikanOs.Usb.ReaderProgress

/-!
# MikanOs.Usb.ConfigurationReads

Which bytes `InitializePhase2` reads.

The functions of `MikanOs.Usb.Device` read memory through `byte`, wherever the
address is.  Here each of them has a list of the places it reads, in the order
of the source, on the path that the function itself takes; reads by the log
are among them.  `ReadsInside` is the property of the buffer that keeps all of
them inside the bytes delivered.
-/

namespace MikanOs.Usb

open Descriptor

/-- A read of a byte, or of a field of a null pointer. -/
inductive Access
  | read (a : BitVec 64)
  | null
  deriving DecidableEq, Repr

/-- Inside the `len` bytes of a buffer. -/
def Access.Inside (buf : BitVec 64) (len : Int) : Access → Prop
  | .read a => ((a - buf).toNat : Int) < len
  | .null => False

namespace Descriptor

/-- `HIDDescriptor::kType`. -/
def kHID : BitVec 8 := 33#8

/-- Fields of a descriptor, at their offsets. -/
def fields (q : BitVec 64) (offs : List Nat) : List Access :=
  offs.map fun off => .read (q + BitVec.ofNat 64 off)

/-! ## the places -/

/-- A round of the loop of `Log(HIDDescriptor)`: both fields of a class
descriptor, and `num_descriptors` before each of them. -/
def classDescriptorReads (q : BitVec 64) (i : Nat) : List Access :=
  fields q [5, 5, 6 + 3 * i, 5, 7 + 3 * i, 8 + 3 * i]

/-- `Log(HIDDescriptor)`. -/
def hidReads (env : Env) (q : BitVec 64) : List Access :=
  fields q [2, 3, 5] ++ (List.range (byte env q 5).toNat).flatMap (classDescriptorReads q) ++
    fields q [5]

/-- `NewClassDriver`. -/
def newClassDriverReads (env : Env) (q : BitVec 64) : List Access :=
  fields q [5] ++
    if byte env q 5 = 3#8 then
      fields q [6] ++
        if byte env q 6 = 1#8 then
          fields q [7] ++
            if byte env q 7 = 1#8 then fields q [2]
            else fields q [7] ++ if byte env q 7 = 2#8 then fields q [2] else []
        else []
    else []

/-- What the inner loop reads of what `Next()` has returned. -/
def endpointReads (env : Env) : Option (BitVec 64) → List Access
  | none => [.null]
  | some q =>
      fields q [1] ++
        if byte env q 1 = kEndpoint then fields q [2, 2, 3, 4, 5, 6]
        else fields q [1] ++ if byte env q 1 = kHID then hidReads env q else []

end Descriptor

/-- `Next<T>()`. -/
def ConfigurationDescriptorReader.nextOfReads (env : Env) (type : BitVec 8) :
    Nat → ConfigurationDescriptorReader → List Access
  | 0, _ => []
  | n + 1, r =>
      .read r.p ::
        match r.next env with
        | (none, _) => []
        | (some q, r) =>
            fields q [1] ++ if byte env q 1 = type then [] else nextOfReads env type n r

namespace Device

/-- The inner loop of `InitializePhase2`, which has collected `count`
endpoints. -/
def collectReads (env : Env) (ifDesc : BitVec 64) :
    Nat → ConfigurationDescriptorReader → Nat → List Access
  | 0, _, _ => []
  | n + 1, r, count =>
      fields ifDesc [4] ++
        if count < (byte env ifDesc 4).toNat then
          .read r.p :: (endpointReads env (r.next env).1 ++
            match r.next env with
            | (none, _) => []
            | (some desc, r) =>
                if byte env desc 1 = kEndpoint then
                  if count < 16 then collectReads env ifDesc n r (count + 1) else []
                else collectReads env ifDesc n r count)
        else []

/-- The outer loop of `InitializePhase2`. -/
def findReads (env : Env) :
    Nat → ConfigurationDescriptorReader → Host → Device → List Access
  | 0, _, _, _ => []
  | n + 1, r, h, d =>
      r.nextOfReads env kInterface env.steps ++
        match r.nextOf env kInterface env.steps with
        | .ok (some ifDesc, r) =>
            fields ifDesc [5, 6, 7] ++ newClassDriverReads env ifDesc ++
              match d.newClassDriver env h ifDesc with
              | .ok (none, h, d) => findReads env n r h d
              | .ok (some _, _, _) => collectReads env ifDesc env.steps r 0
              | .error _ => []
        | _ => []

/-- `InitializePhase2`: after the loops `configuration_value` is logged and
passed on. -/
def initializePhase2Reads (env : Env) (h : Host) (d : Device) (buf : BitVec 64) (len : Int) :
    List Access :=
  if buf = 0#64 then [.null]
  else
    fields buf [1] ++
      if byte env buf 1 = kConfiguration then
        findReads env env.steps ⟨buf, len, buf⟩ h d ++
          match findInterface env env.steps ⟨buf, len, buf⟩ h d with
          | .ok (some _, _, _) => fields buf [5, 5]
          | _ => []
      else []

end Device

/-! ## the property of the buffer -/

/-- The first `n` bytes of a descriptor are inside the buffer. -/
def Room (buf : BitVec 64) (len : Int) (q : BitVec 64) (n : Nat) : Prop :=
  ((q - buf).toNat : Int) + n ≤ len

/-- What the inner loop needs of what `Next()` returns. -/
def EndpointInside (env : Env) (buf : BitVec 64) (len : Int) : Option (BitVec 64) → Prop
  | none => False
  | some q => Room buf len q 2 ∧ (byte env q 1 = kEndpoint → Room buf len q 7) ∧
      (byte env q 1 = kHID → Room buf len q (6 + 3 * (byte env q 5).toNat))

instance (buf : BitVec 64) (len : Int) (q : BitVec 64) (n : Nat) : Decidable (Room buf len q n) :=
  inferInstanceAs (Decidable (_ ≤ _))

/-- Every descriptor up to the first supported interface has its type inside
the buffer, and an interface descriptor its first eight bytes. -/
def SearchInside (env : Env) (buf : BitVec 64) (len : Int) : Prop :=
  ∀ passed q r, Reads env ⟨buf, len, buf⟩ (passed ++ [q]) r → (∀ x ∈ passed, ¬ Supported env x) →
    Room buf len q 2 ∧ (byte env q 1 = kInterface → Room buf len q 8)

/-- After that interface, as long as endpoints are missing, there is another
descriptor, with what is read of it inside the buffer.  No more than 17
endpoints count: the table has no entry for the last. -/
def CollectInside (env : Env) (buf : BitVec 64) (len : Int) : Prop :=
  ∀ ifDesc rest r, Finds env buf len ifDesc rest r →
    (endpointsOf env rest).length < (byte env ifDesc 4).toNat →
    (endpointsOf env rest).length ≤ 16 → EndpointInside env buf len (r.next env).1

/-! ## offsets -/

/-- A buffer with its bytes delivered, below the top of the address space. -/
structure Fits (buf : BitVec 64) (len : Int) : Prop where
  nonneg : 0 ≤ len
  most : len ≤ 256
  top : buf.toNat + len.toNat + 255 < 2 ^ 64

variable {env : Env} {buf q ifDesc : BitVec 64} {len : Int} {r r' : ConfigurationDescriptorReader}
  {passed skipped rest : List (BitVec 64)} {n m : Nat} {offs : List Nat}

theorem Room.mono (h : Room buf len q n) (hle : m ≤ n) : Room buf len q m := by
  unfold Room at *
  omega

/-- An address a little after another. -/
theorem toNat_field (hq : (q - buf).toNat < 256) {off : Nat} (hoff : off < 2 ^ 32) :
    (q + BitVec.ofNat 64 off - buf).toNat = (q - buf).toNat + off := by
  have hcomm : q + BitVec.ofNat 64 off - buf = q - buf + BitVec.ofNat 64 off := by
    rw [BitVec.sub_eq_add_neg, BitVec.sub_eq_add_neg, BitVec.add_assoc, BitVec.add_assoc,
      BitVec.add_comm (-buf)]
  rw [hcomm, BitVec.toNat_add, BitVec.toNat_ofNat]
  omega

theorem fields_inside (hmax : len ≤ 256) (h : Room buf len q n) (hoffs : ∀ off ∈ offs, off < n) :
    ∀ a ∈ fields q offs, a.Inside buf len := by
  refine List.forall_mem_map.mpr fun off hoff => ?_
  have hlt := hoffs off hoff
  unfold Room at h
  show ((q + BitVec.ofNat 64 off - buf).toNat : Int) < len
  rw [toNat_field (by omega) (by omega)]
  omega

theorem room_of_fields (off : Nat) (hq : (q - buf).toNat < 256) (hoff : off < 2 ^ 32)
    (h : (Access.read (q + BitVec.ofNat 64 off)).Inside buf len) : Room buf len q (off + 1) := by
  have h : ((q + BitVec.ofNat 64 off - buf).toNat : Int) < len := h
  rw [toNat_field hq hoff] at h
  unfold Room
  omega

/-- The last byte the log reads of a HID descriptor. -/
theorem hidReads_inside (hq : (q - buf).toNat < 256) (hmax : len ≤ 256) :
    (∀ a ∈ hidReads env q, a.Inside buf len) ↔
      Room buf len q (6 + 3 * (byte env q 5).toNat) := by
  have hbyte := (byte env q 5).isLt
  unfold hidReads
  generalize (byte env q 5).toNat = num at hbyte ⊢
  constructor
  · intro h
    cases num with
    | zero =>
        exact room_of_fields 5 hq (by omega)
          (h _ (List.mem_append_right _ List.mem_cons_self))
    | succ k =>
        have hlast : Access.read (q + BitVec.ofNat 64 (8 + 3 * k)) ∈ classDescriptorReads q k :=
          List.mem_map_of_mem (by simp)
        have hmem := List.mem_flatMap.mpr ⟨k, List.mem_range.mpr (Nat.lt_succ_self k), hlast⟩
        have hroom := room_of_fields _ hq (by omega)
          (h _ (List.mem_append_left _ (List.mem_append_right _ hmem)))
        exact hroom.mono (by omega)
  · intro h a ha
    rcases List.mem_append.mp ha with ha | ha
    · rcases List.mem_append.mp ha with ha | ha
      · exact fields_inside hmax h (by simp; omega) a ha
      · obtain ⟨i, hi, ha⟩ := List.mem_flatMap.mp ha
        have hlt := List.mem_range.mp hi
        exact fields_inside hmax h (by simp; omega) a ha
    · exact fields_inside hmax h (by simp; omega) a ha

/-- What the inner loop needs is what it reads. -/
theorem endpointReads_inside {x : Option (BitVec 64)} (hx : ∀ q ∈ x, (q - buf).toNat < 256)
    (hmax : len ≤ 256) :
    (∀ a ∈ endpointReads env x, a.Inside buf len) ↔ EndpointInside env buf len x := by
  cases x with
  | none => exact ⟨fun h => h _ List.mem_cons_self, False.elim⟩
  | some q =>
      have hq := hx q rfl
      have hone : Room buf len q 2 → ∀ a ∈ fields q [1], a.Inside buf len :=
        fun h => fields_inside hmax h (by simp)
      simp only [endpointReads, List.forall_mem_append, EndpointInside]
      constructor
      · rintro ⟨htype, hrest⟩
        refine ⟨room_of_fields 1 hq (by omega) (htype _ List.mem_cons_self), fun hep => ?_,
          fun hhid => ?_⟩
        · rw [if_pos hep] at hrest
          exact room_of_fields 6 hq (by omega) (hrest _ (List.mem_map_of_mem (by simp)))
        · rw [if_neg (by rw [hhid]; decide), if_pos hhid] at hrest
          exact (hidReads_inside hq hmax).mp (List.forall_mem_append.mp hrest).2
      · rintro ⟨htype, hep, hhid⟩
        refine ⟨hone htype, ?_⟩
        split
        · next h => exact fields_inside hmax (hep h) (by simp)
        · refine List.forall_mem_append.mpr ⟨hone htype, ?_⟩
          split
          · next h => exact (hidReads_inside hq hmax).mpr (hhid h)
          · exact nofun

/-- What is read of an interface, if only the first eight bytes are inside. -/
theorem newClassDriverReads_inside (hmax : len ≤ 256) (h : Room buf len q 8) :
    ∀ a ∈ newClassDriverReads env q, a.Inside buf len := by
  have hfield : ∀ off < 8, ∀ a ∈ fields q [off], a.Inside buf len :=
    fun off hoff => fields_inside hmax h (List.forall_mem_singleton.mpr hoff)
  unfold newClassDriverReads
  refine List.forall_mem_append.mpr ⟨hfield 5 (by omega), ?_⟩
  split
  · refine List.forall_mem_append.mpr ⟨hfield 6 (by omega), ?_⟩
    split
    · refine List.forall_mem_append.mpr ⟨hfield 7 (by omega), ?_⟩
      split
      · exact hfield 2 (by omega)
      · refine List.forall_mem_append.mpr ⟨hfield 7 (by omega), ?_⟩
        split
        · exact hfield 2 (by omega)
        · exact nofun
    · exact nofun
  · exact nofun

/-- Inside the buffer the reader comes to nothing but the buffer. -/
theorem Reads.inside {p : BitVec 64} {qs : List (BitVec 64)} (fits : Fits buf len)
    (hreads : Reads env ⟨buf, len, p⟩ qs r)
    (hp : buf.toNat ≤ p.toNat ∧ p.toNat ≤ buf.toNat + len.toNat) :
    ∀ q ∈ qs, ((q - buf).toNat : Int) < len := by
  have hlen := fits.nonneg
  generalize hr : (⟨buf, len, p⟩ : ConfigurationDescriptorReader) = r₀ at hreads
  induction hreads generalizing p with
  | nil r => exact nofun
  | @cons r r₁ r' q qs next rest ih =>
      subst hr
      obtain ⟨p', hp', hnext⟩ := next_eq env hlen fits.top hp.2
      rw [hnext] at next
      obtain ⟨hq, rfl⟩ := Prod.mk.inj next
      split at hq
      · next hin =>
        obtain rfl := Option.some.inj hq
        refine List.forall_mem_cons.mpr ⟨?_, ih ⟨by omega, by omega⟩ rfl⟩
        rw [BitVec.toNat_sub_of_le (BitVec.le_def.mpr (by omega))]
        omega
      · cases hq

theorem Reads.inside_start {qs : List (BitVec 64)} (fits : Fits buf len)
    (hreads : Reads env ⟨buf, len, buf⟩ qs r) : ∀ q ∈ qs, ((q - buf).toNat : Int) < len :=
  hreads.inside fits ⟨Nat.le_refl _, Nat.le_add_right _ _⟩

/-- The length of the descriptor the reader is at. -/
theorem Reads.p_inside {qs : List (BitVec 64)} (fits : Fits buf len) (hroom : 0 < len)
    (hreads : Reads env ⟨buf, len, buf⟩ qs r) : (Access.read r.p).Inside buf len := by
  show ((r.p - buf).toNat : Int) < len
  rcases hreads.p_mem with rfl | hmem
  · rw [BitVec.sub_self]
    exact hroom
  · exact hreads.inside_start fits _ hmem

/-- What `Next()` returns is near the beginning. -/
theorem Reads.next_near {qs : List (BitVec 64)} (fits : Fits buf len)
    (hreads : Reads env ⟨buf, len, buf⟩ qs r) :
    ∀ q ∈ (r.next env).1, (q - buf).toNat < 256 := by
  intro q hq
  have hmore : Reads env r [q] (r.next env).2 := .cons (Prod.ext hq rfl) (.nil _)
  have hin := (hreads.append hmore).inside_start fits q (List.mem_append_right _ List.mem_cons_self)
  have hmost := fits.most
  omega

/-! ## nothing else is read -/

/-- `Next<T>()`, as long as no interface has been chosen. -/
theorem nextOfReads_inside (fits : Fits buf len) (hroom : 0 < len)
    (hsearch : SearchInside env buf len) (hreads : Reads env ⟨buf, len, buf⟩ passed r)
    (hpassed : ∀ x ∈ passed, ¬ Supported env x) :
    ∀ a ∈ r.nextOfReads env kInterface n, a.Inside buf len := by
  induction n generalizing passed r with
  | zero => exact nofun
  | succ n ih =>
      unfold ConfigurationDescriptorReader.nextOfReads
      refine List.forall_mem_cons.mpr ⟨hreads.p_inside fits hroom, ?_⟩
      split
      · exact nofun
      · next q r₁ hnext =>
        have hall := hreads.append (.cons hnext (.nil r₁))
        refine List.forall_mem_append.mpr ⟨?_, ?_⟩
        · exact fields_inside fits.most (hsearch passed q r₁ hall hpassed).1 (by simp)
        · split
          · exact nofun
          · next htype =>
            refine ih hall (List.forall_mem_append.mpr ⟨hpassed, ?_⟩)
            exact List.forall_mem_singleton.mpr fun hs => htype hs.1

theorem Finds.reads (h : Finds env buf len ifDesc rest r) :
    ∃ qs, Reads env ⟨buf, len, buf⟩ qs r := by
  obtain ⟨skipped, hreads, _⟩ := h
  exact ⟨_, hreads⟩

theorem Finds.next (h : Finds env buf len ifDesc rest r) (hnext : r.next env = (some q, r')) :
    Finds env buf len ifDesc (rest ++ [q]) r' := by
  obtain ⟨skipped, hreads, hskip, hif⟩ := h
  have hall := hreads.append (.cons hnext (.nil r'))
  rw [List.append_assoc, List.cons_append] at hall
  exact ⟨skipped, hall, hskip, hif⟩

namespace Device

variable {h : Host} {d : Device}

theorem length_endpointsOf_next (env : Env) (rest : List (BitVec 64)) (q : BitVec 64) :
    (endpointsOf env (rest ++ [q])).length =
      (endpointsOf env rest).length + if byte env q 1 = kEndpoint then 1 else 0 := by
  unfold endpointsOf
  rw [List.filter_append, List.length_append]
  split
  · next h => rw [List.filter_cons_of_pos (by simpa using h)]; rfl
  · next h => rw [List.filter_cons_of_neg (by simpa using h)]; rfl

/-- The inner loop, after the interface `ifDesc`. -/
theorem collectReads_inside (fits : Fits buf len) (hcollect : CollectInside env buf len)
    (hif : Room buf len ifDesc 8) (hfinds : Finds env buf len ifDesc rest r) {count : Nat}
    (hcount : count = (endpointsOf env rest).length) (hmax : count ≤ 16) :
    ∀ a ∈ collectReads env ifDesc n r count, a.Inside buf len := by
  induction n generalizing rest r count with
  | zero => exact nofun
  | succ n ih =>
      unfold collectReads
      refine List.forall_mem_append.mpr ⟨fields_inside fits.most hif (by simp), ?_⟩
      split
      · next hmore =>
        obtain ⟨qs, hreads⟩ := hfinds.reads
        have hroom : 0 < len := by
          unfold Room at hif
          omega
        refine List.forall_mem_cons.mpr ⟨hreads.p_inside fits hroom, ?_⟩
        refine List.forall_mem_append.mpr ⟨?_, ?_⟩
        · refine (endpointReads_inside (hreads.next_near fits) fits.most).mpr ?_
          exact hcollect ifDesc rest r hfinds (hcount ▸ hmore) (hcount ▸ hmax)
        · split
          · exact nofun
          · next q r₁ hnext =>
            have hlength := length_endpointsOf_next env rest q
            have hnow := hfinds.next hnext
            split
            · next htype =>
              rw [if_pos htype] at hlength
              split
              · exact ih hnow (by omega) (by omega)
              · exact nofun
            · next htype =>
              rw [if_neg htype] at hlength
              exact ih hnow (by omega) hmax
      · exact nofun

/-- The outer loop. -/
theorem findReads_inside (fits : Fits buf len) (hroom : 0 < len)
    (hsearch : SearchInside env buf len)
    (hcollect : (allocated env h).1 ≠ 0#64 → CollectInside env buf len)
    (hreads : Reads env ⟨buf, len, buf⟩ passed r) (hpassed : ∀ x ∈ passed, ¬ Supported env x) :
    ∀ a ∈ findReads env n r h d, a.Inside buf len := by
  induction n generalizing passed r with
  | zero => exact nofun
  | succ n ih =>
      unfold findReads
      refine List.forall_mem_append.mpr
        ⟨nextOfReads_inside fits hroom hsearch hreads hpassed, ?_⟩
      split
      · next q r₁ hnext =>
        obtain ⟨skipped, hskipped, htypes, hif⟩ := nextOf_ok hnext
        have hskip : ∀ q ∈ passed ++ skipped, ¬ Supported env q :=
          List.forall_mem_append.mpr ⟨hpassed, fun q hq hs => htypes q hq hs.1⟩
        have hall := hreads.append hskipped
        rw [← List.append_assoc] at hall
        have hroom8 : Room buf len q 8 := (hsearch _ q r₁ hall hskip).2 hif
        refine List.forall_mem_append.mpr ⟨List.forall_mem_append.mpr
          ⟨fields_inside fits.most hroom8 (by simp),
            newClassDriverReads_inside fits.most hroom8⟩, ?_⟩
        by_cases hsupported : Supported env q
        · rw [newClassDriver_of_supported hsupported]
          by_cases halloc : (allocated env h).1 = 0#64
          · rw [if_pos halloc]
            exact nofun
          · rw [if_neg halloc]
            exact collectReads_inside fits (hcollect halloc) hroom8
              ⟨_, hall, hskip, hsupported⟩ rfl (Nat.zero_le 16)
        · rw [newClassDriver_of_not_supported hif hsupported]
          exact ih hall (List.forall_mem_append.mpr
            ⟨hskip, List.forall_mem_singleton.mpr hsupported⟩)
      · exact nofun

/-! ## and all of it is read -/

/-- `Next<T>()` reads the type of each descriptor it passes over. -/
theorem mem_nextOfReads {type : BitVec 8} (hreads : Reads env r (skipped ++ [q]) r')
    (hskip : ∀ x ∈ skipped, byte env x 1 ≠ type) (hn : skipped.length < n) :
    fields q [1] ⊆ r.nextOfReads env type n := by
  induction skipped generalizing r n with
  | nil =>
      obtain ⟨n, rfl⟩ := Nat.exists_eq_add_of_lt hn
      cases hreads with
      | cons next rest =>
          unfold ConfigurationDescriptorReader.nextOfReads
          rw [next]
          exact List.subset_cons_of_subset _ (List.subset_append_left _ _)
  | cons x skipped ih =>
      obtain ⟨n, rfl⟩ := Nat.exists_eq_add_one.mpr (Nat.zero_lt_of_lt hn)
      cases hreads with
      | cons next rest =>
          unfold ConfigurationDescriptorReader.nextOfReads
          rw [next]
          refine List.subset_cons_of_subset _ (List.subset_append_of_subset_right _ ?_)
          rw [if_neg (hskip x List.mem_cons_self)]
          exact ih rest (fun y hy => hskip y (List.mem_cons_of_mem _ hy))
            (Nat.lt_of_succ_lt_succ hn)

/-- The inner loop goes on to read as long as endpoints are missing. -/
theorem mem_collectReads {count : Nat} (hreads : Reads env r rest r')
    (hmore : count + (endpointsOf env rest).length < (byte env ifDesc 4).toNat)
    (hmax : count + (endpointsOf env rest).length ≤ 16) (hn : rest.length < n) :
    endpointReads env (r'.next env).1 ⊆ collectReads env ifDesc n r count := by
  induction hreads generalizing count n with
  | nil r =>
      obtain ⟨n, rfl⟩ := Nat.exists_eq_add_one.mpr (Nat.zero_lt_of_lt hn)
      unfold collectReads
      rw [if_pos (by omega)]
      exact List.subset_append_of_subset_right _
        (List.subset_cons_of_subset _ (List.subset_append_left _ _))
  | @cons r r₁ r' q rest next _ ih =>
      obtain ⟨n, rfl⟩ := Nat.exists_eq_add_one.mpr (Nat.zero_lt_of_lt hn)
      have hn : rest.length < n := Nat.lt_of_succ_lt_succ hn
      unfold collectReads
      rw [if_pos (by omega), next]
      refine List.subset_append_of_subset_right _
        (List.subset_cons_of_subset _ (List.subset_append_of_subset_right _ ?_))
      by_cases htype : byte env q 1 = kEndpoint
      · rw [endpointsOf_cons_of_eq htype, List.length_cons] at hmore hmax
        simp only [htype, if_true]
        rw [if_pos (by omega)]
        exact ih (by omega) (by omega) hn
      · rw [endpointsOf_cons_of_ne htype] at hmore hmax
        simp only [htype, if_false]
        exact ih hmore hmax hn

/-- A round of the outer loop that comes to an interface. -/
theorem findReads_succ (hnext : r.nextOf env kInterface env.steps = .ok (some q, r')) :
    findReads env (n + 1) r h d = r.nextOfReads env kInterface env.steps ++
      (fields q [5, 6, 7] ++ newClassDriverReads env q ++
        match d.newClassDriver env h q with
        | .ok (none, h, d) => findReads env n r' h d
        | .ok (some _, _, _) => collectReads env q env.steps r' 0
        | .error _ => []) := by
  rw [findReads, hnext]

/-- And it has no class driver for it. -/
theorem findReads_skip (hnext : r.nextOf env kInterface env.steps = .ok (some q, r'))
    (htype : byte env q 1 = kInterface) (hnot : ¬ Supported env q) :
    findReads env (n + 1) r h d = r.nextOfReads env kInterface env.steps ++
      (fields q [5, 6, 7] ++ newClassDriverReads env q) ++ findReads env n r' h d := by
  rw [findReads_succ hnext, newClassDriver_of_not_supported htype hnot]
  simp only [List.append_assoc]

/-- The outer loop reads the type of each descriptor it comes to, and more of
an interface. -/
theorem mem_findReads (h : Host) (d : Device) (hreads : Reads env r (passed ++ [q]) r')
    (hpassed : ∀ x ∈ passed, ¬ Supported env x) (hsteps : passed.length < env.steps)
    (hn : passed.length < n) : fields q [1] ⊆ findReads env n r h d ∧
      (byte env q 1 = kInterface → fields q [5, 6, 7] ⊆ findReads env n r h d) := by
  refine search_induction hreads hpassed hsteps hn ?_ ?_
  · intro n r before hreads hnone hsteps
    refine ⟨?_, fun hif => ?_⟩
    · unfold findReads
      exact List.subset_append_of_subset_left _ (mem_nextOfReads hreads hnone hsteps)
    · rw [findReads_succ (nextOf_of_reads hreads hnone hif hsteps), List.append_assoc]
      exact List.subset_append_of_subset_right _ (List.subset_append_left _ _)
  · rintro n r x r₁ hnext htype hnot ⟨htypes, hfields⟩
    rw [findReads_skip hnext htype hnot]
    exact ⟨List.subset_append_of_subset_right _ htypes,
      fun hif => List.subset_append_of_subset_right _ (hfields hif)⟩

/-- And then what the inner loop reads. -/
theorem mem_findReads_collect (d : Device) (hreads : Reads env r (skipped ++ ifDesc :: rest) r')
    (hskip : ∀ x ∈ skipped, ¬ Supported env x) (hif : Supported env ifDesc)
    (halloc : (allocated env h).1 ≠ 0#64)
    (hmore : (endpointsOf env rest).length < (byte env ifDesc 4).toNat)
    (hmax : (endpointsOf env rest).length ≤ 16)
    (hsteps : (skipped ++ rest).length < env.steps) (hn : skipped.length < n) :
    endpointReads env (r'.next env).1 ⊆ findReads env n r h d := by
  rw [List.length_append] at hsteps
  refine search_induction hreads hskip (by omega) hn ?_ ?_
  · intro n r before hreads hnone hbefore
    rw [List.append_cons] at hreads
    obtain ⟨r₁, hfirst, hafter⟩ := hreads.of_append
    rw [findReads_succ (nextOf_of_reads hfirst hnone hif.1 hbefore),
      newClassDriver_of_supported hif, if_neg halloc]
    refine List.subset_append_of_subset_right _ (List.subset_append_of_subset_right _ ?_)
    exact mem_collectReads hafter (by omega) (by omega) (by omega)
  · intro n r x r₁ hnext htype hnot ih
    rw [findReads_skip hnext htype hnot]
    exact List.subset_append_of_subset_right _ ih

/-! ## the theorem -/

theorem SearchInside.withSteps (n : Nat) :
    SearchInside (env.withSteps n) buf len ↔ SearchInside env buf len := by
  simp only [SearchInside, Reads.withSteps]
  rfl

theorem CollectInside.withSteps (n : Nat) :
    CollectInside (env.withSteps n) buf len ↔ CollectInside env buf len := by
  simp only [CollectInside, Finds.withSteps]
  rfl

/-- A call that chose an interface has eight bytes of it inside. -/
theorem room_of_found {h' : Host} {d' : Device} {driver : Nat} (hsearch : SearchInside env buf len)
    (ret : findInterface env n ⟨buf, len, buf⟩ h d = .ok (some driver, h', d')) : 8 ≤ len := by
  rcases findInterface_ok (.nil _) nofun ret with ⟨hnone, _⟩ | ⟨_, q, eps, _, haccepts, _⟩
  · contradiction
  · obtain ⟨skipped, rest, r, hreads, hskip, hif, _⟩ := haccepts
    rw [List.append_cons] at hreads
    obtain ⟨r₁, hfirst, _⟩ := hreads.of_append
    have hroom := (hsearch skipped q r₁ hfirst hskip).2 hif.1
    unfold Room at hroom
    omega

/-- With any number of rounds, every read is inside the buffer. -/
def ReadsInside (env : Env) (h : Host) (d : Device) (buf : BitVec 64) (len : Int) : Prop :=
  ∀ n, ∀ a ∈ d.initializePhase2Reads (env.withSteps n) h buf len, a.Inside buf len

theorem room_start : Room buf len buf n ↔ (n : Int) ≤ len := by
  rw [Room, BitVec.sub_self]
  show (0 : Int) + n ≤ len ↔ _
  rw [Int.zero_add]

namespace ReadsInside

theorem start (hin : ReadsInside env h d buf len) (hbuf : buf ≠ 0#64) : 2 ≤ len := by
  have hall := hin 0
  rw [initializePhase2Reads, if_neg hbuf] at hall
  have hone := (List.forall_mem_append.mp hall).1 _ List.mem_cons_self
  exact room_start.mp (room_of_fields 1 (by rw [BitVec.sub_self]; decide) (by omega) hone)

theorem findReads (hin : ReadsInside env h d buf len) (hbuf : buf ≠ 0#64)
    (htype : byte env buf 1 = kConfiguration) (n : Nat) :
    ∀ a ∈ findReads (env.withSteps n) n ⟨buf, len, buf⟩ h d, a.Inside buf len := by
  have hall := hin n
  have htype : byte (env.withSteps n) buf 1 = kConfiguration := htype
  rw [initializePhase2Reads, if_neg hbuf, if_pos htype] at hall
  exact (List.forall_mem_append.mp (List.forall_mem_append.mp hall).2).1

/-- The search comes to each of these descriptors. -/
theorem search (hin : ReadsInside env h d buf len) (hbuf : buf ≠ 0#64)
    (htype : byte env buf 1 = kConfiguration) (fits : Fits buf len) :
    SearchInside env buf len := by
  intro passed q r hreads hpassed
  have hall := hin.findReads hbuf htype (passed.length + 1)
  have hnear : (q - buf).toNat < 256 := by
    have hlt := hreads.inside_start fits q (List.mem_append_right _ List.mem_cons_self)
    have hmost := fits.most
    omega
  have hreads' : Reads (env.withSteps (passed.length + 1)) ⟨buf, len, buf⟩ (passed ++ [q]) r :=
    (Reads.withSteps _).mpr hreads
  obtain ⟨htypes, hfields⟩ :=
    mem_findReads h d hreads' hpassed (Nat.lt_succ_self _) (Nat.lt_succ_self _)
  refine ⟨room_of_fields 1 hnear (by omega) (hall _ (htypes List.mem_cons_self)), fun hif => ?_⟩
  have hseven : Access.read (q + BitVec.ofNat 64 7) ∈ fields q [5, 6, 7] :=
    List.mem_map_of_mem (by simp)
  exact room_of_fields 7 hnear (by omega) (hall _ (hfields hif hseven))

/-- And the inner loop to each of these. -/
theorem collect (hin : ReadsInside env h d buf len) (hbuf : buf ≠ 0#64)
    (htype : byte env buf 1 = kConfiguration) (fits : Fits buf len)
    (halloc : (allocated env h).1 ≠ 0#64) : CollectInside env buf len := by
  intro ifDesc rest r hfinds hmore hmax
  obtain ⟨qs, hqs⟩ := hfinds.reads
  obtain ⟨skipped, hreads, hskip, hif⟩ := hfinds
  refine (endpointReads_inside (hqs.next_near fits) fits.most).mp fun a ha => ?_
  let n := (skipped ++ rest).length + 1
  have hlt : skipped.length < n := by
    simp only [n, List.length_append]
    omega
  have hreach : endpointReads env (r.next env).1 ⊆
      Device.findReads (env.withSteps n) n ⟨buf, len, buf⟩ h d :=
    mem_findReads_collect d ((Reads.withSteps n).mpr hreads) hskip hif
      (by rw [allocated_withSteps]; exact halloc) hmore hmax (Nat.lt_succ_self _) hlt
  exact hin.findReads hbuf htype n a (hreach ha)

end ReadsInside

/-- **`InitializePhase2` reads inside the buffer** just when the buffer has
the two bytes of a descriptor type and, if it is a configuration descriptor,
what the two loops come to is inside it. -/
theorem readsInside_iff (env : Env) (h : Host) (d : Device) {buf : BitVec 64} {len : Int}
    (hbuf : buf ≠ 0#64) (fits : Fits buf len) :
    ReadsInside env h d buf len ↔
      2 ≤ len ∧ (byte env buf 1 = kConfiguration → SearchInside env buf len ∧
        ((allocated env h).1 ≠ 0#64 → CollectInside env buf len)) := by
  refine ⟨fun hin => ⟨hin.start hbuf, fun htype => ⟨hin.search hbuf htype fits,
    hin.collect hbuf htype fits⟩⟩, ?_⟩
  rintro ⟨htwo, hconf⟩ n
  rw [initializePhase2Reads, if_neg hbuf]
  refine List.forall_mem_append.mpr
    ⟨fields_inside fits.most (room_start.mpr htwo) (by simp), ?_⟩
  split
  · next htype =>
    obtain ⟨hsearch, hcollect⟩ := hconf htype
    have hsearch := (SearchInside.withSteps n).mpr hsearch
    refine List.forall_mem_append.mpr ⟨?_, ?_⟩
    · refine findReads_inside fits (by omega) hsearch (fun halloc => ?_) (.nil _) nofun
      rw [allocated_withSteps] at halloc
      exact (CollectInside.withSteps n).mpr (hcollect halloc)
    · split
      · next hfind =>
        have height : ((8 : Nat) : Int) ≤ len := room_of_found hsearch hfind
        exact fields_inside fits.most (room_start.mpr height) (by simp)
      · exact nofun
  · exact nofun

/-- What the reader comes to in the configuration of a keyboard. -/
theorem prefix_of_reads_bootKeyboard {qs : List (BitVec 64)} {r : ConfigurationDescriptorReader}
    (h : Reads (delivered 0x200088#64 bootKeyboard) ⟨0x200088#64, 34, 0x200088#64⟩ qs r) :
    qs <+: [0x200091#64, 0x20009a#64, 0x2000a3#64] := by
  rcases h.comparable reads_bootKeyboard with hpre | ⟨tail, rfl⟩
  · exact hpre
  · cases reads_bootKeyboard.of_prefix h with
    | nil _ => exact List.prefix_refl _
    | cons next _ =>
        have hend : ConfigurationDescriptorReader.next (delivered 0x200088#64 bootKeyboard)
          ⟨0x200088#64, 34, 0x2000a3#64⟩ = (none, ⟨0x200088#64, 34, 0x2000aa#64⟩) := rfl
        exact nomatch hend.symm.trans next

/-- A keyboard: all that is read of its configuration is there. -/
theorem readsInside_keyboard :
    ReadsInside (delivered 0x200088#64 bootKeyboard) ⟨0x100000#64, []⟩ (Device.new 0x200000#64)
      0x200088#64 34 := by
  let env := delivered 0x200088#64 bootKeyboard
  have hif : Supported env 0x200091#64 := ⟨by decide, by decide, by decide, by decide⟩
  refine (readsInside_iff env _ _ (by decide) ⟨by decide, by decide, by decide⟩).mpr
    ⟨by decide, fun _ => ⟨fun passed q r hreads hpassed => ?_, fun _ => ?_⟩⟩
  · have hpre := prefix_of_reads_bootKeyboard hreads
    rcases passed with _ | ⟨x, passed⟩
    · obtain ⟨rfl, _⟩ := List.cons_prefix_cons.mp hpre
      exact ⟨by decide, fun _ => by decide⟩
    · obtain ⟨rfl, _⟩ := List.cons_prefix_cons.mp hpre
      exact absurd hif (hpassed _ List.mem_cons_self)
  · intro ifDesc rest r hfinds hfew _
    obtain rfl := finds_bootKeyboard.unique hfinds
    obtain ⟨skipped, hreads, hskip, _⟩ := hfinds
    obtain ⟨tail, htail⟩ := prefix_of_reads_bootKeyboard hreads
    rcases skipped with _ | ⟨x, skipped⟩
    · have hrest : rest ++ tail = [0x20009a#64, 0x2000a3#64] := (List.cons.inj htail).2
      rcases tail with _ | ⟨y, tail⟩
      · rw [List.append_nil] at hrest
        rw [hrest] at hfew
        exact absurd hfew (by decide)
      · have hmem : y ∈ [0x20009a#64, 0x2000a3#64] :=
          hrest ▸ List.mem_append_right _ List.mem_cons_self
        have hinside : ∀ y ∈ [0x20009a#64, 0x2000a3#64],
            EndpointInside env 0x200088#64 34 (some y) :=
          List.forall_mem_cons.mpr ⟨⟨by decide, by decide, by decide⟩,
            List.forall_mem_singleton.mpr ⟨by decide, by decide, by decide⟩⟩
        cases hreads.of_prefix (htail ▸ reads_bootKeyboard) with
        | cons next _ =>
            rw [next]
            exact hinside y hmem
    · obtain ⟨rfl, _⟩ := List.cons.inj htail
      exact absurd hif (hskip _ List.mem_cons_self)

/-- A keyboard that promises an endpoint, and ends there: the null pointer
that `Next()` returns is read through. -/
theorem not_readsInside :
    ¬ ReadsInside
      (delivered 0x200088#64 [9, 2, 18, 0, 1, 1, 0, 0x80, 50, 9, 4, 0, 0, 1, 3, 1, 1, 0])
      ⟨0x100000#64, []⟩ (Device.new 0x200000#64) 0x200088#64 18 := by
  intro hin
  have hnull : Access.null ∈ (Device.new 0x200000#64).initializePhase2Reads
      ((delivered 0x200088#64 [9, 2, 18, 0, 1, 1, 0, 0x80, 50, 9, 4, 0, 0, 1, 3, 1, 1, 0]).withSteps
        4) ⟨0x100000#64, []⟩ 0x200088#64 18 := by
    decide +kernel
  exact hin 4 _ hnull

end Device

end MikanOs.Usb
