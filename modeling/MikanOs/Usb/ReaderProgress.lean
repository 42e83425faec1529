import MikanOs.Usb.ConfigurationRuns

/-!
# MikanOs.Usb.ReaderProgress

Whether `InitializePhase2` comes to an end.

A descriptor of length zero keeps the reader where it is, and nothing in the
source looks for one.  As long as none is met the reader advances, so the
search for an interface ends; the loop over the endpoints ends when the buffer
holds as many as the interface says it has.
-/

namespace MikanOs.Usb

open Descriptor

variable {env : Env} {buf p : BitVec 64} {len : Int} {r r' : ConfigurationDescriptorReader}
  {qs passed : List (BitVec 64)} {ifDesc : BitVec 64} {eps : List (BitVec 64)}

/-! ## standing still -/

/-- The reader is at a descriptor of length zero. -/
def Stalls (env : Env) (r : ConfigurationDescriptorReader) : Prop :=
  byte env r.p 0 = 0#8 ∧ r.p < r.descBuf + BitVec.ofInt 64 r.descBufLen

instance (env : Env) (r : ConfigurationDescriptorReader) : Decidable (Stalls env r) :=
  inferInstanceAs (Decidable (_ ∧ _))

/-- While it looks for an interface the reader meets no descriptor of length
zero. -/
def Advances (env : Env) (buf : BitVec 64) (len : Int) : Prop :=
  ∀ passed r, Reads env ⟨buf, len, buf⟩ passed r → (∀ q ∈ passed, ¬ Supported env q) →
    ¬ Stalls env r

namespace Stalls

/-- `Next()` returns the same descriptor again. -/
theorem next_eq (h : Stalls env r) : r.next env = (some r.p, r) := by
  have hp : r.p + (byte env r.p 0).setWidth 64 = r.p := by
    rw [h.1]
    exact BitVec.add_zero r.p
  simp only [ConfigurationDescriptorReader.next, hp, if_pos h.2]

/-- And so does every later call. -/
theorem reads (h : Stalls env r) (hreads : Reads env r qs r') :
    r' = r ∧ ∀ q ∈ qs, q = r.p := by
  induction hreads with
  | nil r => exact ⟨rfl, nofun⟩
  | cons next rest ih =>
      cases h.next_eq.symm.trans next
      obtain ⟨rfl, hqs⟩ := ih h
      exact ⟨rfl, List.forall_mem_cons.mpr ⟨rfl, hqs⟩⟩

end Stalls

/-- The reader stands where it last read. -/
theorem Reads.p_mem (h : Reads env r qs r') : r' = r ∨ r'.p ∈ qs := by
  induction h with
  | nil r => exact .inl rfl
  | @cons r r₁ r₂ q qs next rest ih =>
      have hp : r₁.p = q := by
        unfold ConfigurationDescriptorReader.next at next
        obtain ⟨hq, rfl⟩ := Prod.mk.inj next
        split at hq
        · exact Option.some.inj hq
        · cases hq
      cases ih with
      | inl heq => exact .inr (heq ▸ hp ▸ List.mem_cons_self)
      | inr hmem => exact .inr (List.mem_cons_of_mem _ hmem)

/-- A longer reading goes on from a shorter one. -/
theorem Reads.of_prefix {qs' : List (BitVec 64)} {r₁ r₂ : ConfigurationDescriptorReader}
    (h : Reads env r qs r₁) (h' : Reads env r (qs ++ qs') r₂) : Reads env r₁ qs' r₂ := by
  induction h with
  | nil r => exact h'
  | cons next _ ih =>
      cases h' with
      | cons next' rest' =>
          cases next.symm.trans next'
          exact ih rest'

/-- A prefix of a list stops before an element it does not have. -/
theorem prefix_of_not_mem {qs' rest : List (BitVec 64)} (hpre : qs <+: qs' ++ ifDesc :: rest)
    (hnot : ifDesc ∉ qs) : qs <+: qs' := by
  cases List.prefix_or_prefix_of_prefix hpre (List.prefix_append qs' (ifDesc :: rest)) with
  | inl h => exact h
  | inr h =>
      obtain ⟨tail, rfl⟩ := h
      cases tail with
      | nil => exact ⟨[], by rw [List.append_nil, List.append_nil]⟩
      | cons q tail =>
          obtain ⟨rfl, _⟩ := List.cons_prefix_cons.mp ((List.prefix_append_right_inj qs').mp hpre)
          exact absurd (List.mem_append_right _ List.mem_cons_self) hnot

/-- Coming to the end, the reader never stood still. -/
theorem Ends.advances (h : Ends env buf len) : Advances env buf len := by
  obtain ⟨qs, r', r'', hqs, _, hend⟩ := h
  intro passed r hpassed _ hstalls
  have hlast : r'.next env = (some r.p, r) := by
    cases hpassed.comparable hqs with
    | inl hpre =>
        obtain ⟨tail, rfl⟩ := hpre
        obtain ⟨rfl, _⟩ := hstalls.reads (hpassed.of_prefix hqs)
        exact hstalls.next_eq
    | inr hpre =>
        obtain ⟨tail, rfl⟩ := hpre
        cases hqs.of_prefix hpassed with
        | nil _ => exact hstalls.next_eq
        | cons next _ => exact nomatch hend.symm.trans next
  exact nomatch hend.symm.trans hlast

/-- And then there is no supported interface. -/
theorem Ends.not_finds {rest : List (BitVec 64)} (h : Ends env buf len) :
    ¬ Finds env buf len ifDesc rest r := by
  obtain ⟨qs, r', r'', hqs, hno, hend⟩ := h
  rintro ⟨skipped, hreads, _, hif⟩
  have hmem : ifDesc ∈ skipped ++ ifDesc :: rest := List.mem_append_right _ List.mem_cons_self
  cases hreads.comparable hqs with
  | inl hpre => exact hno ifDesc (hpre.subset hmem) hif
  | inr hpre =>
      obtain ⟨tail, heq⟩ := hpre
      rw [← heq] at hreads hmem
      cases hqs.of_prefix hreads with
      | nil _ =>
          rw [List.append_nil] at hmem
          exact hno ifDesc hmem hif
      | cons next _ => exact nomatch hend.symm.trans next

/-- Finding a supported interface, it did not stand still on the way. -/
theorem Finds.advances {rest : List (BitVec 64)} (htype : byte env buf 1 = kConfiguration)
    (h : Finds env buf len ifDesc rest r') : Advances env buf len := by
  obtain ⟨skipped, hreads, _, hif⟩ := h
  intro passed r hpassed hno hstalls
  have hmem : ifDesc ∉ passed := fun hin => hno ifDesc hin hif
  have hpre : passed <+: skipped := by
    cases hpassed.comparable hreads with
    | inl hpre => exact prefix_of_not_mem hpre hmem
    | inr hpre => exact absurd (hpre.subset (List.mem_append_right _ List.mem_cons_self)) hmem
  obtain ⟨tail, rfl⟩ := hpre
  rw [List.append_assoc] at hreads
  obtain ⟨_, hsame⟩ := hstalls.reads (hpassed.of_prefix hreads)
  obtain rfl := hsame ifDesc (List.mem_append_right _ List.mem_cons_self)
  cases hpassed.p_mem with
  | inl heq =>
      subst heq
      exact absurd (hif.1.symm.trans htype) (by decide)
  | inr hin => exact hmem hin

/-! ## going on -/

theorem toNat_end (hlen : 0 ≤ len) (hfits : buf.toNat + len.toNat < 2 ^ 64) :
    (buf + BitVec.ofInt 64 len).toNat = buf.toNat + len.toNat := by
  rw [BitVec.toNat_add, BitVec.toNat_ofInt]
  omega

/-- The reader, while the addresses do not wrap. -/
theorem next_eq (env : Env) (hlen : 0 ≤ len) (hfits : buf.toNat + len.toNat + 255 < 2 ^ 64)
    (hp : p.toNat ≤ buf.toNat + len.toNat) :
    ∃ p' : BitVec 64, p'.toNat = p.toNat + (byte env p 0).toNat ∧
      ConfigurationDescriptorReader.next env ⟨buf, len, p⟩ =
        (if p'.toNat < buf.toNat + len.toNat then some p' else none, ⟨buf, len, p'⟩) := by
  have hbyte := (byte env p 0).isLt
  have hp' : (p + (byte env p 0).setWidth 64).toNat = p.toNat + (byte env p 0).toNat := by
    rw [BitVec.toNat_add, BitVec.toNat_setWidth]
    omega
  refine ⟨_, hp', ?_⟩
  simp only [ConfigurationDescriptorReader.next, BitVec.lt_def,
    toNat_end hlen (Nat.lt_of_add_right_lt hfits)]

/-- A reader that advances comes to the end, or to a supported interface. -/
theorem Advances.ends_or_finds (h : Advances env buf len) (hlen : 0 ≤ len)
    (hfits : buf.toNat + len.toNat + 255 < 2 ^ 64) :
    Ends env buf len ∨ ∃ ifDesc rest r, Finds env buf len ifDesc rest r := by
  -- by what is left of the buffer, from any place the search comes to
  suffices hfrom : ∀ left passed p, Reads env ⟨buf, len, buf⟩ passed ⟨buf, len, p⟩ →
      (∀ q ∈ passed, ¬ Supported env q) → p.toNat ≤ buf.toNat + len.toNat →
      buf.toNat + len.toNat - p.toNat ≤ left →
      Ends env buf len ∨ ∃ ifDesc rest r, Finds env buf len ifDesc rest r from
    hfrom _ [] buf (.nil _) nofun (Nat.le_add_right _ _) (Nat.le_refl _)
  intro left
  induction left with
  | zero =>
      intro passed p hreads hpassed hp hleft
      obtain ⟨p', hp', hnext⟩ := next_eq env hlen hfits hp
      rw [if_neg (by omega)] at hnext
      exact .inl ⟨passed, _, _, hreads, hpassed, hnext⟩
  | succ left ih =>
      intro passed p hreads hpassed hp hleft
      obtain ⟨p', hp', hnext⟩ := next_eq env hlen hfits hp
      by_cases hin : p'.toNat < buf.toNat + len.toNat
      · rw [if_pos hin] at hnext
        have hlast : Reads env ⟨buf, len, p⟩ [p'] ⟨buf, len, p'⟩ := .cons hnext (.nil _)
        have hall := hreads.append hlast
        by_cases hsupported : Supported env p'
        · exact .inr ⟨p', [], _, passed, hall, hpassed, hsupported⟩
        · have hmoves : (byte env p 0).toNat ≠ 0 := by
            intro hzero
            refine h passed _ hreads hpassed ⟨BitVec.eq_of_toNat_eq hzero, ?_⟩
            rw [BitVec.lt_def, toNat_end hlen (Nat.lt_of_add_right_lt hfits)]
            show p.toNat < _
            omega
          refine ih (passed ++ [p']) p' hall ?_ (Nat.le_of_lt hin) (by omega)
          exact List.forall_mem_append.mpr ⟨hpassed, List.forall_mem_singleton.mpr hsupported⟩
      · rw [if_neg hin] at hnext
        exact .inl ⟨passed, _, _, hreads, hpassed, hnext⟩

/-! ## whether it returns -/

namespace Device

variable {d : Device} {h : Host}

/-- What `InitializePhase2` returned with is in the buffer and the pool. -/
theorem initializePhase2_returned {n : Nat} {ret : Device × Host × Outcome} (hbuf : buf ≠ 0#64)
    (htype : byte env buf 1 = kConfiguration)
    (hret : d.initializePhase2 (env.withSteps n) h buf len = .ok ret) :
    Ends env buf len ∨ (allocated env h).1 ≠ 0#64 ∧
      ∃ ifDesc eps, Accepts env buf len ifDesc eps ∧ eps.length ≤ 16 := by
  obtain ⟨x, hexplains, heq⟩ := initializePhase2_explains h d len hbuf htype n
  rw [heq] at hret
  rcases x with e | ⟨_ | driver, h', d'⟩
  · cases hret
  · exact .inl hexplains.1
  · exact .inr hexplains

/-- A call that returns met no descriptor of length zero. -/
theorem advances_of_returns {n : Nat} {ret : Device × Host × Outcome} (hbuf : buf ≠ 0#64)
    (htype : byte env buf 1 = kConfiguration)
    (hret : d.initializePhase2 (env.withSteps n) h buf len = .ok ret) : Advances env buf len := by
  rcases initializePhase2_returned hbuf htype hret with hends | ⟨_, ifDesc, eps, haccepts, _⟩
  · exact hends.advances
  · obtain ⟨rest, r, hfinds, _, _⟩ := accepts_iff.mp haccepts
    exact hfinds.advances htype

/-- **`InitializePhase2` returns** just when the buffer does not begin with a
configuration descriptor, or no descriptor of length zero comes before the
first supported interface and, if there is such an interface, its class driver
can be made, it says it has at most 16 endpoints and as many endpoint
descriptors come after it. -/
theorem initializePhase2_returns_iff (env : Env) (h : Host) (d : Device) {buf : BitVec 64}
    {len : Int} (hbuf : buf ≠ 0#64) (hlen : 0 ≤ len)
    (hfits : buf.toNat + len.toNat + 255 < 2 ^ 64) :
    (∃ n ret, d.initializePhase2 (env.withSteps n) h buf len = .ok ret) ↔
      (byte env buf 1 = kConfiguration → Advances env buf len ∧
        ∀ ifDesc rest r, Finds env buf len ifDesc rest r → (allocated env h).1 ≠ 0#64 ∧
          (byte env ifDesc 4).toNat ≤ 16 ∧ ∃ eps, Accepts env buf len ifDesc eps) := by
  constructor
  · rintro ⟨n, ret, hret⟩ htype
    refine ⟨advances_of_returns hbuf htype hret, fun ifDesc rest r hfinds => ?_⟩
    rcases initializePhase2_returned hbuf htype hret with hends | ⟨halloc, q, eps, haccepts, hfew⟩
    · exact absurd hfinds hends.not_finds
    · obtain ⟨rest', r', hfinds', heps, hlength⟩ := accepts_iff.mp haccepts
      obtain rfl := hfinds.unique hfinds'
      exact ⟨halloc, hlength ▸ hfew, eps, haccepts⟩
  · intro hgood
    by_cases htype : byte env buf 1 = kConfiguration
    · obtain ⟨hadvances, hsupported⟩ := hgood htype
      rcases hadvances.ends_or_finds hlen hfits with hends | ⟨ifDesc, rest, r, hfinds⟩
      · obtain ⟨N, hN⟩ := initializePhase2_of_ends (h := h) (d := d) hbuf htype hends
        exact ⟨N, _, hN N (Nat.le_refl N)⟩
      · obtain ⟨halloc, hnum, eps, haccepts⟩ := hsupported ifDesc rest r hfinds
        obtain ⟨_, _, _, _, hlength⟩ := accepts_iff.mp haccepts
        obtain ⟨N, hN⟩ := initializePhase2_of_accepts d h hbuf htype haccepts (hlength ▸ hnum)
        exact ⟨N, _, (hN N (Nat.le_refl N)).trans (if_neg halloc)⟩
    · exact ⟨0, _, initializePhase2_of_type hbuf htype⟩

/-- What a device has delivered to a buffer; everything else reads as zero. -/
def delivered (buf : BitVec 64) (bytes : List (BitVec 8)) : Env :=
  { Env.zero poolAtMiB with mem := fun a => bytes.getD (a - buf).toNat 0#8 }

/-- A new pool has room for a class driver. -/
theorem allocated_delivered (buf : BitVec 64) (bytes : List (BitVec 8)) :
    (allocated (delivered buf bytes) ⟨0x100000#64, []⟩).1 ≠ 0#64 := by
  have hroom :
      (Usb.allocArray poolAtMiB 0x100000#64 HIDDriver.sizeofDriver 1 0#32 0#32).1 ≠ 0#64 := by
    decide +kernel
  rw [allocated_fst]
  exact hroom

/-- The configuration of a boot keyboard: its interface, HID descriptor and
endpoint. -/
def bootKeyboard : List (BitVec 8) :=
  [9, 2, 34, 0, 1, 1, 0, 0xa0, 50, 9, 4, 0, 0, 1, 3, 1, 1, 0, 9, 33, 0x11, 1, 0, 1, 34, 63, 0,
    7, 5, 0x81, 3, 8, 0, 10]

theorem reads_bootKeyboard : Reads (delivered 0x200088#64 bootKeyboard)
    ⟨0x200088#64, 34, 0x200088#64⟩ [0x200091#64, 0x20009a#64, 0x2000a3#64]
      ⟨0x200088#64, 34, 0x2000a3#64⟩ := by
  refine .cons (show _ = (_, ⟨0x200088#64, 34, 0x200091#64⟩) from rfl) ?_
  refine .cons (show _ = (_, ⟨0x200088#64, 34, 0x20009a#64⟩) from rfl) ?_
  exact .cons rfl (.nil _)

theorem finds_bootKeyboard : Finds (delivered 0x200088#64 bootKeyboard) 0x200088#64 34
    0x200091#64 [0x20009a#64, 0x2000a3#64] ⟨0x200088#64, 34, 0x2000a3#64⟩ :=
  ⟨[], reads_bootKeyboard, nofun, by decide, by decide, by decide, by decide⟩

/-- A keyboard is found, with its endpoint. -/
theorem initializePhase2_returns_keyboard : ∃ n ret,
    (Device.new 0x200000#64).initializePhase2
      ((delivered 0x200088#64 bootKeyboard).withSteps n) ⟨0x100000#64, []⟩ 0x200088#64 34 =
        .ok ret := by
  let env := delivered 0x200088#64 bootKeyboard
  refine (initializePhase2_returns_iff env _ _ (by decide) (by decide) (by decide)).mpr
    fun htype => ⟨finds_bootKeyboard.advances htype, fun ifDesc rest r hfinds => ?_⟩
  obtain rfl := finds_bootKeyboard.unique hfinds
  exact ⟨allocated_delivered _ _, by decide, [0x2000a3#64],
    accepts_iff.mpr ⟨_, _, finds_bootKeyboard, by decide, by decide⟩⟩

/-- Ten bytes, of which the last is a length of zero. -/
theorem initializePhase2_stalls : ¬ ∃ n ret,
    (Device.new 0x200000#64).initializePhase2
      ((delivered 0x200088#64 [9, 2, 10, 0, 1, 1, 0, 0x80, 50, 0]).withSteps n)
      ⟨0x100000#64, []⟩ 0x200088#64 10 = .ok ret := by
  rintro ⟨n, ret, hret⟩
  have hnext : ConfigurationDescriptorReader.next
      (delivered 0x200088#64 [9, 2, 10, 0, 1, 1, 0, 0x80, 50, 0]) ⟨0x200088#64, 10, 0x200088#64⟩ =
        (some 0x200091#64, ⟨0x200088#64, 10, 0x200091#64⟩) := rfl
  refine advances_of_returns (by decide) rfl hret [0x200091#64] _ (.cons hnext (.nil _)) ?_ ?_
  · exact List.forall_mem_singleton.mpr fun hs => absurd hs.1 (by decide)
  · decide

end Device

end MikanOs.Usb
