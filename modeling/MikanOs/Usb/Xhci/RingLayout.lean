import MikanOs.Usb.Xhci.EndpointIndex

/-!
# MikanOs.Usb.Xhci.RingLayout

The transfer rings of a device side by side: which TRBs of a ring the
controller finds waiting, what a new ring is, and where in the pool the
buffers lie, also after `ConfigureEndpoints`.

Buffers that lie apart are what makes `Pipes.trbAt` read the TRB that a
transfer event points at, and not one of another ring (`Laid.trbAt_entry`).
-/

namespace MikanOs.Usb.Xhci

open LapRing Usb.Device

/-! ## TRBs in flight -/

namespace Ring

/-- A controller that is past the first `taken` TRBs of a ring finds TRB
number `k` waiting: every entry from its own up to that one carries the cycle
bit it expects there. -/
def InFlight (r : Ring) (taken k : Nat) : Prop :=
  taken ≤ k ∧ ∀ m < k + 1, taken ≤ m →
    TRB.cycle (r.trbs (m % (r.bufSize - 1))) = lapBit (r.bufSize - 1) m

instance (r : Ring) (taken k : Nat) : Decidable (r.InFlight taken k) :=
  inferInstanceAs (Decidable (_ ∧ _))

/-- What waits is what has been pushed and not taken. -/
theorem Holds.inFlight_iff {r : Ring} (h : r.Holds taken items) :
    r.InFlight taken k ↔ taken ≤ k ∧ k < items.length := by
  have hpos := LapRing.Holds.pos h.slots
  refine and_congr_right fun hle => ⟨fun hcycle => ?_, fun hlt m hm hm' => ?_⟩
  · refine Decidable.byContradiction fun hn => ?_
    have htaken := h.slots.taken_le
    have hstale := LapRing.Holds.stale h.slots items.length (by simp)
      (by rw [List.length_map]; omega)
    rw [Nat.zero_add, hcycle items.length (by omega) htaken] at hstale
    exact absurd hstale (by simp)
  · have hlive := (LapRing.Holds.live h.slots m (by rw [List.length_map]; omega) hm').2
    rwa [Nat.zero_add] at hlive

/-- A ring of 32 entries before its first push, with a buffer or without. -/
structure Blank (r : Ring) : Prop where
  bufSize : r.bufSize = 32
  cycleBit : r.cycleBit = true
  writeIndex : r.writeIndex = 0
  zero : ∀ i, r.trbs i = 0#128

theorem Blank.holds {r : Ring} (h : r.Blank) : r.Holds 0 [] where
  index := by rw [h.writeIndex]; exact (Nat.zero_mod _).symm
  cycle := by rw [h.cycleBit, h.bufSize]; exact (lapBit_of_lt (by decide)).symm
  slots := Segment.init 0 (by rw [h.bufSize]; decide) h.zero

/-- The controller has taken everything. -/
theorem Holds.not_inFlight {r : Ring} (h : r.Holds taken items) (all : items.length ≤ taken) :
    ¬ r.InFlight taken k := by
  rw [h.inFlight_iff]
  omega

/-! ## TRBs of other types -/

/-- No entry of a ring is a TRB of a type. -/
def Lacks (r : Ring) (type : BitVec 6) : Prop := ∀ k, TRB.trbType.get (r.trbs k) ≠ type

theorem trbType_withCycle (t : Trb) (c : Bool) :
    TRB.trbType.get (TRB.withCycle t c) = TRB.trbType.get t :=
  TRB.get_eq_of_body_eq (by decide) (TRB.body_withCycle t c)

/-- An entry after a push: the TRB pushed, the Link TRB, or what it was. -/
theorem push_trbs_cases (r : Ring) (data : Trb) (k : Nat) :
    (r.push data).2.trbs k = TRB.withCycle data r.cycleBit ∨
      (r.push data).2.trbs k = TRB.withCycle r.link r.cycleBit ∨
      (r.push data).2.trbs k = r.trbs k := by
  have hcopy : ∀ mem : Nat → Trb, ∀ i d, (copyStores i r.cycleBit d).foldl storeWord mem k =
      TRB.withCycle d r.cycleBit ∨ (copyStores i r.cycleBit d).foldl storeWord mem k = mem k := by
    intro mem i d
    by_cases hk : k = i
    · rw [hk]
      exact .inl (foldl_copyStores_self _ _ _ _)
    · exact .inr (foldl_copyStores_ne _ _ _ hk)
  have hdata := hcopy r.trbs r.writeIndex data
  rw [push_eq]
  simp only [pushStores, List.foldl_append]
  generalize (copyStores r.writeIndex r.cycleBit data).foldl storeWord r.trbs = mem at hdata
  split
  · rcases hcopy mem (r.writeIndex + 1) r.link with hlink | hsame
    · exact .inr (.inl hlink)
    · exact hdata.imp hsame.trans fun h => .inr (hsame.trans h)
  · exact hdata.imp id .inr

/-- Pushing TRBs of other types. -/
theorem Lacks.push {r : Ring} {type : BitVec 6} (h : r.Lacks type) {data : Trb}
    (hdata : TRB.trbType.get data ≠ type) (hlink : LinkTRB.type ≠ type) :
    (r.push data).2.Lacks type := by
  intro k
  rcases r.push_trbs_cases data k with hk | hk | hk
  · rw [hk, trbType_withCycle]
    exact hdata
  · rw [hk, trbType_withCycle, trbType_link]
    exact hlink
  · rw [hk]
    exact h k

theorem Lacks.pushAll {r : Ring} {type : BitVec 6} (h : r.Lacks type) {ts : List Trb}
    (hts : ∀ t ∈ ts, TRB.trbType.get t ≠ type) (hlink : LinkTRB.type ≠ type) :
    (r.pushAll ts).2.Lacks type := by
  induction ts generalizing r with
  | nil => exact h
  | cons t ts ih =>
      exact ih (h.push (hts t List.mem_cons_self) hlink)
        fun t' ht' => hts t' (List.mem_cons_of_mem t ht')

theorem Blank.lacks {r : Ring} {type : BitVec 6} (h : r.Blank) (hzero : 0#6 ≠ type) :
    r.Lacks type := by
  intro k
  rw [h.zero]
  exact hzero

end Ring

/-! ## new rings -/

/-- Serving a request moves the pool cursor forward, past the block if there
is one. -/
theorem serve_cursor {r : Request} (hr : r.Valid) {pool : MemoryPool} {p : BitVec 64}
    (hp : CursorOk pool p) : CursorOk pool (r.serve pool p).2 ∧
      p.toNat ≤ (r.serve pool p).2.toNat ∧ ((r.serve pool p).1 ≠ 0#64 →
        p.toNat ≤ (r.serve pool p).1.toNat ∧
          (r.serve pool p).1.toNat + r.size.toNat = (r.serve pool p).2.toNat) := by
  obtain ⟨hblock, hcursor, hok⟩ := allocMem_refines hr hp
  refine ⟨hok, hcursor ▸ poolAllocator.le_step pool.limit p.toNat r, fun hnull => ?_⟩
  rw [blockAt_eq_some hnull] at hblock
  obtain ⟨hplace, _, hstop⟩ := BumpAllocator.step_granted hblock.symm
  refine ⟨?_, (hcursor.trans hstop).symm⟩
  rw [hplace]
  exact poolAllocator.le_place p.toNat r

/-- A ring made while the pool cursor went from one place to another, with its
buffer in between if it has got one. -/
structure Granted (pool : MemoryPool) (p p' : BitVec 64) (tr : Ring) : Prop where
  blank : tr.Blank
  cursor : CursorOk pool p'
  le : p.toNat ≤ p'.toNat
  buffer : tr.buf ≠ 0#64 → p.toNat ≤ tr.buf.toNat ∧ tr.buf.toNat + 512 ≤ p'.toNat

theorem initializeRing_eq (pool : MemoryPool) (p : BitVec 64) (bufSize : Nat) :
    Ring.initializeRing pool p bufSize = Ring.onBlock bufSize ((bufRequest bufSize).serve pool p) :=
  rfl

/-- `Initialize` of a ring of 32 entries. -/
theorem granted_of_initializeRing {pool : MemoryPool} {p p' : BitVec 64} {tr : Ring}
    (hp : CursorOk pool p) (h : Ring.initializeRing pool p 32 = (e, tr, p')) :
    Granted pool p p' tr := by
  have hsize : sizeofTRB * 32 ≤ 2 ^ 31 := by decide
  have hlen : (bufRequest 32).size.toNat = 512 := toNat_bufRequest hsize
  obtain ⟨hok, hle, hblock⟩ := serve_cursor (bufRequest_valid hsize) hp
  rw [hlen] at hblock
  rw [initializeRing_eq] at h
  generalize (bufRequest 32).serve pool p = a at h hok hle hblock
  obtain ⟨buf, cursor⟩ := a
  obtain ⟨_, hrest⟩ := Prod.mk.inj h
  obtain ⟨rfl, rfl⟩ := Prod.mk.inj hrest
  refine ⟨⟨rfl, rfl, rfl, fun _ => rfl⟩, hok, hle, fun hnull => ?_⟩
  obtain ⟨hlo, hhi⟩ := hblock hnull
  exact ⟨hlo, Nat.le_of_eq hhi⟩

/-- `AllocTransferRing`. -/
theorem granted_of_allocTransferRing {env : Env} {h h' : Host} {p p' : Pipes} {dci : Int}
    {tr : Ring} (cursor : CursorOk env.pool h.allocPtr)
    (alloc : p.allocTransferRing env h dci 32 = .ok (some tr, p', h')) :
    Granted env.pool h.allocPtr h'.allocPtr tr := by
  obtain ⟨i, _, hinstall⟩ := Returns.bind_eq_ok.mp alloc
  rw [ControlRun.allocArray_ring] at hinstall
  obtain ⟨hok, hle, _⟩ := serve_cursor ControlRun.ringRequest_valid cursor
  generalize ControlRun.ringRequest.serve env.pool h.allocPtr = a at hinstall hok hle
  have hret := Returns.pure_eq_ok.mp hinstall
  unfold Pipes.installRing at hret
  split at hret
  · exact absurd (Prod.mk.inj hret).1 (by simp)
  · rw [Host.grant_allocPtr] at hret
    generalize hinit : Ring.initializeRing env.pool a.2 32 = r at hret
    obtain ⟨e, ring, allocPtr⟩ := r
    simp only [Prod.mk.injEq, Option.some.injEq] at hret
    obtain ⟨rfl, _, rfl⟩ := hret
    have hgranted := granted_of_initializeRing hok hinit
    exact ⟨hgranted.blank, hgranted.cursor, Nat.le_trans hle hgranted.le, fun hnull =>
      ⟨Nat.le_trans hle (hgranted.buffer hnull).1, (hgranted.buffer hnull).2⟩⟩

/-! ## the layout -/

/-- The transfer rings of a device. -/
abbrev Rings := Nat → Option Ring

/-- The buffers of the rings lie apart from each other, below a place of the
pool cursor and clear of the null address. -/
structure Laid (cursor : BitVec 64) (rings : Rings) : Prop where
  bufSize : ∀ i tr, rings i = some tr → tr.bufSize = 32
  below : ∀ i tr, rings i = some tr → tr.buf ≠ 0#64 →
    512 ≤ tr.buf.toNat ∧ tr.buf.toNat + 512 ≤ cursor.toNat
  apart : ∀ i j tr tr', i ≠ j → rings i = some tr → rings j = some tr' → tr.buf ≠ 0#64 →
    tr'.buf ≠ 0#64 → tr.buf.toNat + 512 ≤ tr'.buf.toNat ∨ tr'.buf.toNat + 512 ≤ tr.buf.toNat

/-- The one element of a list at which a function has a value. -/
theorem findSome?_of_only {l : List ι} {f : ι → Option α} {i : ι} {x : α} (hi : i ∈ l)
    (hx : f i = some x) (only : ∀ j, j ≠ i → f j = none) : l.findSome? f = some x := by
  obtain ⟨before, after, rfl, hnot⟩ := List.eq_append_cons_of_mem hi
  have hbefore : before.findSome? f = none := List.findSome?_eq_none_iff.mpr fun j hj =>
    only j fun heq => hnot (heq ▸ hj)
  rw [List.findSome?_append, hbefore, List.findSome?_cons, hx]
  rfl

/-- An entry of a ring of 32, wherever the ring lies. -/
theorem Ring.trbAt_entry_of_bufSize (tr : Ring) (hsize : tr.bufSize = 32) {k : Nat} (hk : k < 32) :
    tr.trbAt (tr.entry k) = some (tr.trbs k) := by
  have hoff : (tr.entry k - tr.buf).toNat = 16 * k := by
    unfold Ring.entry entryAt sizeofTRB
    rw [BitVec.add_comm, BitVec.add_sub_cancel, BitVec.toNat_ofNat]
    omega
  unfold Ring.trbAt sizeofTRB
  rw [hoff, if_pos (by rw [hsize]; omega), Nat.mul_div_cancel_left k (by decide)]

namespace Laid

variable {cursor : BitVec 64} {rings : Rings}

/-- A ring does not cover the entries of another. -/
theorem trbAt_other (h : Laid cursor rings) {i j k : Nat} {tr tr' : Ring} (hne : j ≠ i)
    (hi : rings i = some tr) (hj : rings j = some tr') (buffer : tr.buf ≠ 0#64) (hk : k < 32) :
    tr'.trbAt (tr.entry k) = none := by
  obtain ⟨hlow, hhigh⟩ := h.below i tr hi buffer
  have hlt := cursor.isLt
  have hentry : (tr.entry k).toNat = tr.buf.toNat + 16 * k := by
    unfold Ring.entry entryAt sizeofTRB
    rw [BitVec.toNat_add, BitVec.toNat_ofNat]
    omega
  have hfar : 512 ≤ (tr.entry k - tr'.buf).toNat := by
    rw [BitVec.toNat_sub, hentry]
    by_cases hnull : tr'.buf = 0#64
    · have hzero : tr'.buf.toNat = 0 := congrArg BitVec.toNat hnull
      omega
    · obtain ⟨hlow', hhigh'⟩ := h.below j tr' hj hnull
      have hapart := h.apart i j tr tr' (Ne.symm hne) hi hj buffer hnull
      omega
  have hsize := h.bufSize j tr' hj
  unfold Ring.trbAt sizeofTRB
  rw [if_neg (by rw [hsize]; omega)]

/-- **Reading at the address of an entry** of a ring with a buffer. -/
theorem trbAt_entry {p : Pipes} (h : Laid cursor p.transferRings) {i k : Nat} {tr : Ring}
    (hi : i < 31) (ring : p.transferRings i = some tr) (buffer : tr.buf ≠ 0#64) (hk : k < 32)
    (env : Env) : p.trbAt env (tr.entry k) = tr.trbs k := by
  have hsize := h.bufSize i tr ring
  have hself := tr.trbAt_entry_of_bufSize hsize hk
  have hfind : (List.range 31).findSome?
      (fun j => (p.transferRings j).bind (·.trbAt (tr.entry k))) = some (tr.trbs k) := by
    refine findSome?_of_only (List.mem_range.mpr hi) (by rw [ring]; exact hself) fun j hj => ?_
    cases hother : p.transferRings j with
    | none => rfl
    | some tr' => exact h.trbAt_other hj ring hother buffer hk
  rw [Pipes.trbAt, hfind]
  rfl

/-- The pool cursor has moved on. -/
theorem mono (h : Laid cursor rings) {cursor' : BitVec 64} (hle : cursor.toNat ≤ cursor'.toNat) :
    Laid cursor' rings where
  bufSize := h.bufSize
  below i tr hi hnull := ⟨(h.below i tr hi hnull).1, Nat.le_trans (h.below i tr hi hnull).2 hle⟩
  apart := h.apart

/-- A ring is replaced by one with the same buffer. -/
theorem push (h : Laid cursor rings) {i : Nat} {tr tr' : Ring} (ring : rings i = some tr)
    (buf : tr'.buf = tr.buf) (bufSize : tr'.bufSize = tr.bufSize) :
    Laid cursor (update rings i (some tr')) := by
  have hold : ∀ j x, update rings i (some tr') j = some x →
      ∃ y, rings j = some y ∧ x.buf = y.buf ∧ x.bufSize = y.bufSize := by
    intro j x hx
    by_cases hj : j = i
    · rw [hj, update_self] at hx
      obtain rfl := Option.some.inj hx
      exact ⟨tr, hj ▸ ring, buf, bufSize⟩
    · rw [update_ne hj] at hx
      exact ⟨x, hx, rfl, rfl⟩
  constructor
  · intro j x hx
    obtain ⟨y, hy, _, hsize⟩ := hold j x hx
    rw [hsize]
    exact h.bufSize j y hy
  · intro j x hx hnull
    obtain ⟨y, hy, hbuf, _⟩ := hold j x hx
    rw [hbuf] at hnull ⊢
    exact h.below j y hy hnull
  · intro j k x x' hne hx hx' hnull hnull'
    obtain ⟨y, hy, hbuf, _⟩ := hold j x hx
    obtain ⟨y', hy', hbuf', _⟩ := hold k x' hx'
    rw [hbuf] at hnull ⊢
    rw [hbuf'] at hnull' ⊢
    exact h.apart j k y y' hne hy hy' hnull hnull'

/-- A new ring is put in a place, whatever was there before. -/
theorem install (h : Laid cursor rings) {pool : MemoryPool} {p p' : BitVec 64} {tr : Ring}
    (granted : Granted pool p p' tr) (later : cursor.toNat ≤ p.toNat) (room : 512 ≤ p.toNat)
    (i : Nat) : Laid p' (update rings i (some tr)) := by
  have hle := granted.le
  have hcases : ∀ j x, update rings i (some tr) j = some x →
      (j = i ∧ x = tr) ∨ (j ≠ i ∧ rings j = some x) := by
    intro j x hx
    by_cases hj : j = i
    · rw [hj, update_self] at hx
      exact .inl ⟨hj, (Option.some.inj hx).symm⟩
    · rw [update_ne hj] at hx
      exact .inr ⟨hj, hx⟩
  constructor
  · intro j x hx
    rcases hcases j x hx with ⟨_, rfl⟩ | ⟨_, hx⟩
    · exact granted.blank.bufSize
    · exact h.bufSize j x hx
  · intro j x hx hnull
    rcases hcases j x hx with ⟨_, rfl⟩ | ⟨_, hx⟩
    · obtain ⟨hlo, hhi⟩ := granted.buffer hnull
      exact ⟨Nat.le_trans room hlo, hhi⟩
    · obtain ⟨hlo, hhi⟩ := h.below j x hx hnull
      exact ⟨hlo, by omega⟩
  · intro j k x x' hne hx hx' hnull hnull'
    rcases hcases j x hx with ⟨rfl, rfl⟩ | ⟨_, hold⟩
    · rcases hcases k x' hx' with ⟨rfl, _⟩ | ⟨_, hold'⟩
      · exact absurd rfl hne
      · have hnew := (granted.buffer hnull).1
        have hbelow := (h.below k x' hold' hnull').2
        exact .inr (by omega)
    · rcases hcases k x' hx' with ⟨_, rfl⟩ | ⟨_, hold'⟩
      · have hnew := (granted.buffer hnull').1
        have hbelow := (h.below j x hold hnull).2
        exact .inl (by omega)
      · exact h.apart j k x x' hne hold hold' hnull hnull'

theorem none (cursor : BitVec 64) : Laid cursor fun _ => Option.none :=
  ⟨nofun, nofun, nofun⟩

end Laid

/-! ## `ConfigureEndpoints` -/

/-- The rings after `ConfigureEndpoints` of some endpoints: each of these has a
new one, and every other ring is what it was. -/
structure Configured (configs : List EndpointConfig) (rings rings' : Rings) : Prop where
  new : ∀ config ∈ configs, ∃ d tr, checked 31 (config.epId.addr - 1) = .ok d ∧
    rings' d = some tr ∧ tr.Blank
  rest : ∀ d, rings' d = rings d ∨ ∃ tr, rings' d = some tr ∧ tr.Blank

/-- The loop of `ConfigureEndpoints`. -/
theorem configureEach_configured {env : Env} {speed : BitVec 4} {n i : Nat} {h h' : Host}
    (dev : Device) {dev' : Device} {cursor : BitVec 64}
    (laid : Laid cursor dev.pipes.transferRings) (ok : CursorOk env.pool h.allocPtr)
    (later : cursor.toNat ≤ h.allocPtr.toNat) (room : 512 ≤ h.allocPtr.toNat)
    (ret : Controller.configureEach env speed h dev n i = .ok (dev', h')) :
    dev'.pipes.base = dev.pipes.base ∧ h.allocPtr.toNat ≤ h'.allocPtr.toNat ∧
      Laid h'.allocPtr dev'.pipes.transferRings ∧
      Configured ((List.range' i n).map dev.pipes.base.epConfigs) dev.pipes.transferRings
        dev'.pipes.transferRings := by
  induction n generalizing h dev i cursor with
  | zero =>
      cases Returns.pure_eq_ok.mp ret
      exact ⟨rfl, Nat.le_refl _, laid.mono later, nofun, fun d => .inl rfl⟩
  | succ n ih =>
      obtain ⟨_, d, tr, h₁, hd, halloc, hnext⟩ := Controller.configureEach_round ret
      have granted := granted_of_allocTransferRing ok halloc
      have hle := granted.le
      have laid₁ := laid.install granted later room d
      obtain ⟨hbase, hle', hlaid, hnew, hold⟩ := ih _ laid₁ granted.cursor (Nat.le_refl _)
        (by omega) hnext
      refine ⟨hbase, Nat.le_trans hle hle', hlaid, fun config hmem => ?_, fun j => ?_⟩
      · rw [List.range'_succ, List.map_cons] at hmem
        rcases List.mem_cons.mp hmem with rfl | hmem
        · refine ⟨d, ?_⟩
          rcases hold d with hkeep | ⟨tr', htr', hblank⟩
          · exact ⟨tr, hd, hkeep.trans (update_self _ _ _), granted.blank⟩
          · exact ⟨tr', hd, htr', hblank⟩
        · exact hnew config hmem
      · rcases hold j with hkeep | hblank
        · by_cases hj : j = d
          · exact .inr ⟨tr, hkeep.trans (by rw [hj]; exact update_self _ _ _), granted.blank⟩
          · exact .inl (hkeep.trans (update_ne hj _ _))
        · exact .inr hblank

end MikanOs.Usb.Xhci
