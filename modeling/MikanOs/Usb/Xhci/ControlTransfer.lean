import Mathlib.Algebra.Group.Int.Defs
import MikanOs.Lib.Run
import MikanOs.Usb.Xhci.Device

/-!
# MikanOs.Usb.Xhci.ControlTransfer

Control requests on the default control pipe of a device, from the call to
the transfer event that completes them.

The driver remembers an outstanding request by two addresses only: that of
the TRB whose completion will be reported, as a key of `setup_stage_map_`,
and that of its setup stage TRB, which is read back from the ring.
`roundtrip` says that this is enough: along every run the map holds exactly
the outstanding requests, and each event reports the request it completes.
-/

namespace MikanOs.Usb.Xhci

open Relation

/-! ## requests -/

/-- A call of `ControlIn` or `ControlOut` on the default control pipe. -/
structure ControlRequest where
  dirIn : Bool
  setupData : SetupData
  buf : BitVec 64
  len : Int
  issuer : Option Nat

namespace ControlRequest

/-- The call itself. -/
def call (q : ControlRequest) (h : Host) (p : Pipes) : Except Fault (Error × Pipes × Host) :=
  if q.dirIn then
    Pipes.controlIn h p kDefaultControlPipeID q.setupData q.buf q.len q.issuer
  else Pipes.controlOut h p kDefaultControlPipeID q.setupData q.buf q.len q.issuer

/-- The TRB of its setup stage. -/
def setupStage (q : ControlRequest) : Trb :=
  makeSetupStageTRB q.setupData
    (if q.buf = 0#64 then SetupStageTRB.kNoDataStage
      else if q.dirIn then SetupStageTRB.kInDataStage else SetupStageTRB.kOutDataStage)

/-- The TRB whose completion is reported: that of the data stage, or of the
status stage if there is none. -/
def reportStage (q : ControlRequest) : Trb :=
  if q.buf = 0#64 then
    StatusStageTRB.interruptOnCompletion.put
      (StatusStageTRB.direction.put StatusStageTRB.new 1#1) 1#1
  else
    DataStageTRB.interruptOnCompletion.put (makeDataStageTRB q.buf q.len q.dirIn) 1#1

/-- The TRBs of the request, in ring order. -/
def stages (q : ControlRequest) : List Trb :=
  q.setupStage :: q.reportStage ::
    if q.buf = 0#64 then []
    else [StatusStageTRB.direction.put StatusStageTRB.new (BitVec.ofBool (!q.dirIn))]

/-- The lengths a TRB can hold. -/
def Sized (q : ControlRequest) : Prop := 0 ≤ q.len ∧ q.len < 2 ^ 17

theorem length_stages (q : ControlRequest) :
    2 ≤ q.stages.length ∧ q.stages.length ≤ 3 := by
  unfold stages
  split <;> simp

/-- Both calls are `control`, with the direction of the data. -/
theorem call_eq_control (q : ControlRequest) (h : Host) (p : Pipes) :
    q.call h p = Pipes.control
      (if q.dirIn then SetupStageTRB.kInDataStage else SetupStageTRB.kOutDataStage)
      q.dirIn (!q.dirIn) h p kDefaultControlPipeID q.setupData q.buf q.len q.issuer := by
  obtain ⟨dirIn, setupData, buf, len, issuer⟩ := q
  cases dirIn with
  | false => simp only [call, Pipes.controlOut, if_false, Bool.false_eq_true, Bool.not_false]
  | true => simp only [call, Pipes.controlIn, if_true, Bool.not_true]

/-! ## encoding and decoding -/

/-- A setup stage TRB is one. -/
theorem type_makeSetupStageTRB (sd : SetupData) (transferType : BitVec 2) :
    TRB.trbType.get (makeSetupStageTRB sd transferType) = SetupStageTRB.type := by
  simp (disch := decide) only [makeSetupStageTRB, SetupStageTRB.new, TRB.ofType,
    BitField.get_put_of_disjoint, BitField.get_put]

theorem type_setupStage (q : ControlRequest) :
    TRB.trbType.get q.setupStage = SetupStageTRB.type := type_makeSetupStageTRB _ _

/-- The setup stage TRB decodes to the request's `SetupData`. -/
theorem setupDataOf_makeSetupStageTRB (sd : SetupData) (transferType : BitVec 2) :
    setupDataOf (makeSetupStageTRB sd transferType) = sd := by
  obtain ⟨requestType, request, value, index, length⟩ := sd
  simp (disch := decide) only [setupDataOf, makeSetupStageTRB, BitField.get_put_of_disjoint,
    BitField.get_put]

/-- `SetupData` does not depend on the cycle bit. -/
theorem setupDataOf_eq_of_body_eq {s t : Trb} (h : TRB.body s = TRB.body t) :
    setupDataOf s = setupDataOf t := by
  simp only [setupDataOf, TRB.get_eq_of_body_eq (f := SetupStageTRB.requestType) (by decide) h,
    TRB.get_eq_of_body_eq (f := SetupStageTRB.request) (by decide) h,
    TRB.get_eq_of_body_eq (f := SetupStageTRB.value) (by decide) h,
    TRB.get_eq_of_body_eq (f := SetupStageTRB.index) (by decide) h,
    TRB.get_eq_of_body_eq (f := SetupStageTRB.length) (by decide) h]

/-- The reported TRB without a data stage. -/
theorem type_reportStage_of_null {q : ControlRequest} (h : q.buf = 0#64) :
    TRB.trbType.get q.reportStage = StatusStageTRB.type := by
  rw [reportStage, if_pos h]
  decide

/-- The reported TRB with a data stage. -/
theorem data_reportStage {q : ControlRequest} (h : q.buf ≠ 0#64) (hsized : q.Sized) :
    TRB.trbType.get q.reportStage = DataStageTRB.type ∧
      DataStageTRB.dataBufferPointer.get q.reportStage = q.buf ∧
      ((DataStageTRB.trbTransferLength.get q.reportStage).toNat : Int) = q.len := by
  rw [reportStage, if_neg h]
  simp (disch := decide) only [makeDataStageTRB, DataStageTRB.new, TRB.ofType,
    BitField.get_put_of_disjoint, BitField.get_put, true_and]
  obtain ⟨hlo, hhi⟩ := hsized
  rw [BitVec.toNat_ofInt]
  omega

/-- Only the reported TRB interrupts on completion. -/
theorem eq_one_of_interrupt {q : ControlRequest} (ht : q.stages[j]? = some t)
    (hioc : DataStageTRB.interruptOnCompletion.get t = 1#1) : j = 1 := by
  have hsetup : DataStageTRB.interruptOnCompletion.get q.setupStage = 0#1 := by
    unfold setupStage makeSetupStageTRB
    simp (disch := decide) only [BitField.get_put_of_disjoint]
    decide
  have hstatus : ∀ b, DataStageTRB.interruptOnCompletion.get
      (StatusStageTRB.direction.put StatusStageTRB.new (BitVec.ofBool b)) = 0#1 := by decide
  match j with
  | 0 =>
      obtain rfl : q.setupStage = t := by simpa [stages] using ht
      rw [hsetup] at hioc
      contradiction
  | 1 => rfl
  | 2 =>
      unfold stages at ht
      split at ht
      · simp at ht
      · obtain rfl := by simpa using ht
        rw [hstatus] at hioc
        contradiction
  | j + 3 =>
      have hlen := q.length_stages
      rw [List.getElem?_eq_none (by omega)] at ht
      contradiction

end ControlRequest

/-! ## the run -/

/-- A request not completed yet, and the addresses `Push` returned for its
stages. -/
structure Outstanding where
  request : ControlRequest
  addrs : List (BitVec 64)

namespace Outstanding

/-- The request as issued on a ring. -/
def issued (q : ControlRequest) (tr : Ring) : Outstanding := ⟨q, (tr.pushAll q.stages).1⟩

/-- The address of the reported TRB, with that of the setup stage. -/
def entry (o : Outstanding) : BitVec 64 × BitVec 64 := (o.addrs.getD 1 0#64, o.addrs.getD 0 0#64)

/-- A transfer event that completes the request: successfully, and pointing
at the TRB of the request that interrupts on completion. -/
def Reports (o : Outstanding) (trb : Trb) : Prop :=
  (TransferEventTRB.completionCode.get trb = 1#8 ∨
      TransferEventTRB.completionCode.get trb = 13#8) ∧
    ∃ (j : Nat) (t : Trb), o.request.stages[j]? = some t ∧
      DataStageTRB.interruptOnCompletion.get t = 1#1 ∧
      o.addrs[j]? = some (TransferEventTRB.pointer trb)

/-- What an event that completes the request has to report. -/
def completion (o : Outstanding) (trb : Trb) : Pipes.Completion :=
  .control ⟨(TransferEventTRB.endpointId.get trb).toNat⟩ o.request.setupData o.request.buf
    (if o.request.buf = 0#64 then 0
      else o.request.len - (TransferEventTRB.trbTransferLength.get trb).toNat)

end Outstanding

/-- A device, and the requests outstanding on its default control pipe. -/
structure ControlRun where
  pipes : Pipes
  outstanding : List Outstanding

namespace ControlRun

/-- One step of a run: a request is made, the oldest one is completed, or the
device does anything that leaves this pipe and the map alone (what the base
class does with a completion, transfers on other endpoints). -/
inductive Step : ControlRun → ControlRun → Prop
  | call (s : ControlRun) (q : ControlRequest) (h : Host) (tr : Ring)
      (few : s.outstanding.length < 10) (sized : q.Sized)
      (ring : s.pipes.transferRings 0 = some tr)
      (ret : q.call h s.pipes = .ok (e, p', h')) :
      Step s ⟨p', s.outstanding ++ [.issued q tr]⟩
  | complete (s : ControlRun) (o : Outstanding) (rest : List Outstanding) (env : Env) (trb : Trb)
      (head : s.outstanding = o :: rest) (reports : o.Reports trb)
      (ret : s.pipes.completedTransfer env trb = .ok (c, p')) :
      Step s ⟨p', rest⟩
  | other (s : ControlRun) (p' : Pipes) (ring : p'.transferRings 0 = s.pipes.transferRings 0)
      (map : p'.setupStageMap = s.pipes.setupStageMap) :
      Step s ⟨p', s.outstanding⟩

/-! ## the invariant -/

/-- The stages of the outstanding requests, in ring order. -/
def stages (os : List Outstanding) : List Trb := os.flatMap fun o => o.request.stages

/-- The outstanding requests lie one after another on the ring, the first at
place `k` of its history. -/
def Located (entry : Nat → BitVec 64) : Nat → List Outstanding → Prop
  | _, [] => True
  | k, o :: os =>
      o.addrs = (List.range o.request.stages.length).map (fun j => entry ((k + j) % 31)) ∧
        Located entry (k + o.request.stages.length) os

/-- What holds in every reachable state: `items` have been pushed to the
ring, all but the first `taken` of them for the outstanding requests. -/
structure Inv (tr : Ring) (taken : Nat) (items : List Trb) (s : ControlRun) : Prop where
  ring : s.pipes.transferRings 0 = some tr
  placed : tr.Placed
  size : tr.bufSize = 32
  holds : tr.Holds taken items
  waiting : items.drop taken = stages s.outstanding
  located : Located tr.entry taken s.outstanding
  few : s.outstanding.length ≤ 10
  sized : ∀ o ∈ s.outstanding, o.request.Sized
  map : s.pipes.setupStageMap.live.Perm (s.outstanding.map Outstanding.entry)

/-- The invariant, for some history. -/
def Consistent (s : ControlRun) : Prop := ∃ tr taken items, Inv tr taken items s

theorem length_stages_le (os : List Outstanding) :
    (stages os).length ≤ 3 * os.length := by
  induction os with
  | nil => exact Nat.le_refl 0
  | cons o os ih =>
      have hlen := o.request.length_stages
      rw [stages, List.flatMap_cons, List.length_append, List.length_cons]
      rw [stages] at ih
      omega

theorem located_append {o : Outstanding} {e : Nat → BitVec 64} (h : Located e k os)
    (ho : o.addrs = (List.range o.request.stages.length).map
      fun j => e ((k + (stages os).length + j) % 31)) : Located e k (os ++ [o]) := by
  induction os generalizing k with
  | nil => exact ⟨by simpa [stages] using ho, trivial⟩
  | cons o' os ih =>
      refine ⟨h.1, ih h.2 ?_⟩
      rw [ho]
      refine List.map_congr_left fun j _ => ?_
      rw [stages, List.flatMap_cons, List.length_append, ← Nat.add_assoc]
      rfl

/-- The entry of a request, in terms of its place. -/
theorem entry_eq {o : Outstanding} {e : Nat → BitVec 64} (h : o.addrs =
    (List.range o.request.stages.length).map fun j => e ((k + j) % 31)) :
    o.entry = (e ((k + 1) % 31), e (k % 31)) := by
  obtain ⟨n, hn⟩ : ∃ n, o.request.stages.length = n + 2 :=
    ⟨o.request.stages.length - 2, by have := o.request.length_stages; omega⟩
  rw [hn, List.range_succ_eq_map, List.range_succ_eq_map] at h
  rw [Outstanding.entry, h]
  rfl

/-- Every key is the address of a place the outstanding requests take up. -/
theorem exists_place {e : Nat → BitVec 64} (h : Located e k os)
    (hx : x ∈ os.map Outstanding.entry) :
    ∃ m, k < m ∧ m < k + (stages os).length ∧ x.1 = e (m % 31) := by
  induction os generalizing k with
  | nil => exact (List.not_mem_nil hx).elim
  | cons o os ih =>
      have hlen := o.request.length_stages
      rw [stages, List.flatMap_cons, List.length_append]
      rw [List.map_cons, List.mem_cons] at hx
      cases hx with
      | inl heq =>
          refine ⟨k + 1, by omega, by omega, ?_⟩
          rw [heq, entry_eq h.1]
      | inr hrest =>
          obtain ⟨m, hlo, hhi, hm⟩ := ih h.2 hrest
          rw [stages] at hhi
          exact ⟨m, by omega, by omega, hm⟩

/-- No two outstanding requests share a key. -/
theorem keys_nodup {e : Nat → BitVec 64} (hinj : ∀ i j, i < 31 → j < 31 → e i = e j → i = j)
    (h : Located e k os) (hlap : (stages os).length ≤ 31) :
    ((os.map Outstanding.entry).map Prod.fst).Nodup := by
  induction os generalizing k with
  | nil => exact List.nodup_nil
  | cons o os ih =>
      have hlen := o.request.length_stages
      rw [stages, List.flatMap_cons, List.length_append] at hlap
      rw [List.map_cons, List.map_cons, List.nodup_cons]
      refine ⟨fun hmem => ?_, ih h.2 (by rw [stages]; omega)⟩
      obtain ⟨x, hx, hfst⟩ := List.mem_map.mp hmem
      obtain ⟨m, hlo, hhi, hm⟩ := exists_place h.2 hx
      rw [stages] at hhi
      rw [entry_eq h.1, hm] at hfst
      have hplace := hinj _ _ (Nat.mod_lt _ (by decide)) (Nat.mod_lt _ (by decide)) hfst
      exact LapRing.mod_ne_mod (N := 31) (j := k + 1) (k := m) (by omega) (by omega) hplace.symm

/-! ## a call -/

/-- The entry of a request just issued. -/
theorem entry_issued (q : ControlRequest) (tr : Ring) : (Outstanding.issued q tr).entry =
    (((tr.push q.setupStage).2.push q.reportStage).1, (tr.push q.setupStage).1) := rfl

theorem tryPush_eq {r : Ring} (h : r.buf ≠ 0#64) (t : Trb) : r.tryPush t = .ok (r.push t) :=
  if_neg h

/-- **A call** on a ring with a buffer succeeds: it pushes the stages, and
remembers the address of the first under that of the second. -/
theorem call_eq {p : Pipes} {tr : Ring} (q : ControlRequest) (h : Host)
    (hring : p.transferRings 0 = some tr) (hnull : tr.buf ≠ 0#64)
    (hindex : tr.writeIndex < tr.bufSize - 1) :
    q.call h p = .ok (.kSuccess,
      { p with
        base := p.base.registerWaiter q.setupData q.issuer
        transferRings := update p.transferRings 0 (some (tr.pushAll q.stages).2)
        setupStageMap := p.setupStageMap.put (Outstanding.issued q tr).entry.1
          (Outstanding.issued q tr).entry.2 },
      h.act (.doorbell p.dbreg 1#8)) := by
  -- the setup stage just pushed passes for one
  have htype := TRB.get_eq_of_body_eq (f := TRB.trbType) (by decide)
    (TRB.body_withCycle q.setupStage tr.cycleBit)
  rw [← Ring.push_trbs_self q.setupStage hindex, q.type_setupStage] at htype
  have hcast : trbDynamicCast SetupStageTRB.type ((tr.push q.setupStage).2.trbs tr.writeIndex)
      (tr.push q.setupStage).1 = (tr.push q.setupStage).1 := if_pos htype
  have hnum : ¬ (kDefaultControlPipeID.number < 0 ∨ 15 < kDefaultControlPipeID.number) := by decide
  have hchecked : checked 31 (kDefaultControlPipeID.addr - 1) = .ok 0 := rfl
  have hdoor : BitVec.ofInt 8 kDefaultControlPipeID.addr = 1#8 := rfl
  rw [q.call_eq_control, Pipes.control]
  simp only [hnum, hchecked, hring, hdoor, if_false, bind, Except.bind]
  have hpush₁ := tryPush_eq hnull
  have hpush₂ := fun t => tryPush_eq (r := (tr.push t).2) (by rw [Ring.push_buf]; exact hnull)
  have hpush₃ := fun t u => tryPush_eq (r := ((tr.push t).2.push u).2)
    (by rw [Ring.push_buf, Ring.push_buf]; exact hnull)
  rw [entry_issued]
  by_cases hbuf : q.buf = 0#64
  · simp only [ControlRequest.setupStage, hbuf, if_true] at hcast
    simp only [hbuf, ne_eq, not_true, if_false, if_true, hpush₁, hpush₂, hcast, pure, Except.pure,
      ControlRequest.stages, ControlRequest.setupStage, ControlRequest.reportStage, Ring.pushAll]
  · simp only [ControlRequest.setupStage, hbuf, if_false] at hcast
    simp only [hbuf, ne_eq, not_false_iff, if_false, if_true, hpush₁, hpush₂, hpush₃, hcast, pure,
      Except.pure, ControlRequest.stages, ControlRequest.setupStage, ControlRequest.reportStage,
      Ring.pushAll]

/-! ## a completion -/

section

variable {env : Env} {p : Pipes} {trb : Trb} {setup : BitVec 64}
  (hcode : TransferEventTRB.completionCode.get trb = 1#8 ∨
    TransferEventTRB.completionCode.get trb = 13#8)

include hcode

theorem code_ok : ¬ (TransferEventTRB.completionCode.get trb ≠ 1#8 ∧
    TransferEventTRB.completionCode.get trb ≠ 13#8) := fun hn =>
  hcode.elim hn.1 hn.2

/-- The event of a data stage on the map. -/
theorem completedTransfer_data
    (htype : TRB.trbType.get (p.trbAt env (TransferEventTRB.pointer trb)) = DataStageTRB.type)
    (hget : p.setupStageMap.get (TransferEventTRB.pointer trb) = some setup)
    (hnull : setup ≠ 0#64) :
    p.completedTransfer env trb = .ok (.control ⟨(TransferEventTRB.endpointId.get trb).toNat⟩
        (setupDataOf (p.trbAt env setup))
        (DataStageTRB.dataBufferPointer.get (p.trbAt env (TransferEventTRB.pointer trb)))
        ((DataStageTRB.trbTransferLength.get (p.trbAt env (TransferEventTRB.pointer trb))).toNat -
          (TransferEventTRB.trbTransferLength.get trb).toNat),
      { p with setupStageMap := p.setupStageMap.delete (TransferEventTRB.pointer trb) }) := by
  have hnormal : ¬ DataStageTRB.type = NormalTRB.type := by decide
  simp only [Pipes.completedTransfer, code_ok hcode, if_false, htype, hnormal, hget, hnull, if_true]
  rfl

/-- The event of a status stage on the map. -/
theorem completedTransfer_status
    (htype : TRB.trbType.get (p.trbAt env (TransferEventTRB.pointer trb)) = StatusStageTRB.type)
    (hget : p.setupStageMap.get (TransferEventTRB.pointer trb) = some setup)
    (hnull : setup ≠ 0#64) :
    p.completedTransfer env trb = .ok (.control ⟨(TransferEventTRB.endpointId.get trb).toNat⟩
        (setupDataOf (p.trbAt env setup)) 0#64 0,
      { p with setupStageMap := p.setupStageMap.delete (TransferEventTRB.pointer trb) }) := by
  have hnormal : ¬ StatusStageTRB.type = NormalTRB.type := by decide
  have hdata : ¬ StatusStageTRB.type = DataStageTRB.type := by decide
  simp only [Pipes.completedTransfer, code_ok hcode, if_false, htype, hnormal, hdata, hget, hnull,
    if_true]
  rfl

end

namespace Inv

variable {tr : Ring} {taken : Nat} {items : List Trb} {s : ControlRun}

theorem length_items (h : Inv tr taken items s) :
    items.length = taken + (stages s.outstanding).length := by
  have hle := h.holds.slots.taken_le
  have hlen := congrArg List.length h.waiting
  rw [List.length_drop] at hlen
  omega

theorem mod_size (h : Inv tr taken items s) : tr.bufSize - 1 = 31 := by rw [h.size]

theorem index_lt (h : Inv tr taken items s) : tr.writeIndex < tr.bufSize - 1 := by
  rw [h.holds.index]
  exact Nat.mod_lt _ (by rw [h.mod_size]; decide)

theorem length_live (h : Inv tr taken items s) :
    s.pipes.setupStageMap.live.length = s.outstanding.length := by
  rw [h.map.length_eq, List.length_map]

/-- The keys of the map are distinct. -/
theorem nodup (h : Inv tr taken items s) : (s.pipes.setupStageMap.live.map Prod.fst).Nodup := by
  rw [(h.map.map Prod.fst).nodup_iff]
  refine keys_nodup (fun i j hi hj he => ?_) h.located ?_
  · exact Ring.entry_inj h.placed (by rw [h.size]; omega) (by rw [h.size]; omega) he
  · have hle := length_stages_le s.outstanding
    have hfew := h.few
    omega

/-- A call keeps the invariant. -/
theorem call {q : ControlRequest} {host : Host} (h : Inv tr taken items s)
    (few : s.outstanding.length < 10) (sized : q.Sized)
    (ret : q.call host s.pipes = .ok (e, p', h')) :
    Inv (tr.pushAll q.stages).2 taken (items ++ q.stages)
      ⟨p', s.outstanding ++ [.issued q tr]⟩ := by
  have hsize := h.size
  have hmod := h.mod_size
  have hitems := h.length_items
  have hle := length_stages_le s.outstanding
  have hlen := q.length_stages
  obtain ⟨hholds, haddrs⟩ := Ring.pushAll_holds h.holds (by omega) q.stages (by omega)
  rw [call_eq q host h.ring h.placed.nonnull h.index_lt] at ret
  obtain ⟨rfl, _⟩ := Prod.mk.inj (Prod.mk.inj (Except.ok.inj ret)).2
  exact {
    ring := update_self s.pipes.transferRings 0 _
    placed := Ring.placed_pushAll h.placed _
    size := by rw [Ring.pushAll_bufSize]; exact hsize
    holds := hholds
    waiting := by
      rw [List.drop_append_of_le_length (by omega), h.waiting, stages, stages, List.flatMap_append]
      simp [Outstanding.issued]
    located := by
      rw [Ring.pushAll_entry]
      refine located_append h.located ?_
      rw [Outstanding.issued, haddrs, hitems, hmod]
    few := by rw [List.length_append]; exact few
    sized := by
      intro o ho
      cases List.mem_append.mp ho with
      | inl hold => exact h.sized o hold
      | inr hnew => rw [List.mem_singleton.mp hnew]; exact sized
    map := by
      have hput := ArrayMap.live_put (m := s.pipes.setupStageMap) (by rw [h.length_live]; omega)
        (Outstanding.issued q tr).entry.1 (Outstanding.issued q tr).entry.2
      rw [List.map_append]
      exact (hput.trans (h.map.cons _)).trans (List.perm_append_singleton _ _).symm }

/-- Memory holds the stages of the oldest request. -/
theorem trbAt (h : Inv tr taken items s) (head : s.outstanding = o :: rest)
    (hj : o.request.stages[j]? = some d) (env : Env) :
    TRB.body (s.pipes.trbAt env (tr.entry ((taken + j) % 31))) = TRB.body d := by
  have hlt : j < o.request.stages.length := (List.getElem?_eq_some_iff.mp hj).1
  have hitem : items[taken + j]? = some d := by
    rw [← List.getElem?_drop, h.waiting, head, stages, List.flatMap_cons,
      List.getElem?_append_left hlt, hj]
  obtain ⟨t, hat, hbody⟩ := h.holds.trbAt h.placed (by rw [h.size]; decide) hitem
    (Nat.le_add_right _ _)
  have hlook : s.pipes.trbAt env (tr.entry ((taken + j) % 31)) = t := by
    rw [h.mod_size] at hat
    simp [Pipes.trbAt, List.range_succ_eq_map, h.ring, hat]
  rw [hlook, hbody]

/-- A completion of the oldest request points at its second TRB. -/
theorem pointer_eq (h : Inv tr taken items s) (head : s.outstanding = o :: rest)
    (reports : o.Reports trb) :
    TransferEventTRB.pointer trb = tr.entry ((taken + 1) % 31) ∧
      o.request.stages[1]? = some o.request.reportStage := by
  have hlen := o.request.length_stages
  have hlocated := h.located
  rw [head] at hlocated
  obtain ⟨_, j, t, hj, hioc, haddr⟩ := reports
  obtain rfl := o.request.eq_one_of_interrupt hj hioc
  obtain rfl : o.request.reportStage = t := Option.some.inj hj
  rw [hlocated.1, List.getElem?_map, List.getElem?_range (by omega)] at haddr
  exact ⟨(Option.some.inj haddr).symm, hj⟩

/-- The map has the oldest request by that TRB. -/
theorem mem_live (h : Inv tr taken items s) (head : s.outstanding = o :: rest) :
    (tr.entry ((taken + 1) % 31), tr.entry (taken % 31)) ∈ s.pipes.setupStageMap.live := by
  have hlocated := h.located
  have hmap := h.map
  rw [head] at hlocated hmap
  rw [hmap.mem_iff, List.map_cons, entry_eq hlocated.1]
  exact List.mem_cons_self

/-- The oldest request is done with. -/
theorem forget (h : Inv tr taken items s) (head : s.outstanding = o :: rest) :
    Inv tr (taken + o.request.stages.length) items
      ⟨{ s.pipes with
          setupStageMap := s.pipes.setupStageMap.delete (tr.entry ((taken + 1) % 31)) }, rest⟩ := by
  have hitems := h.length_items
  have hwaiting := h.waiting
  have hlocated := h.located
  have hmap := h.map
  have hfew := h.few
  rw [head] at hitems hwaiting hlocated hmap hfew
  rw [stages, List.flatMap_cons] at hwaiting
  rw [stages, List.flatMap_cons, List.length_append] at hitems
  rw [List.length_cons] at hfew
  exact {
    ring := h.ring
    placed := h.placed
    size := h.size
    holds := h.holds.takeTo (Nat.le_add_right _ _) (by omega)
    waiting := by
      rw [← List.drop_drop, hwaiting, List.drop_left]
      rfl
    located := hlocated.2
    few := by show rest.length ≤ 10; omega
    sized := fun o' ho' => h.sized o' (head ▸ List.mem_cons_of_mem _ ho')
    map := by
      have hdelete := (ArrayMap.live_delete (h.mem_live head) h.nodup).trans hmap
      rw [List.map_cons, entry_eq hlocated.1] at hdelete
      exact hdelete.cons_inv }

/-- **A completion** of the oldest request is recognized: it reports that
request, and the map forgets it. -/
theorem completedTransfer (h : Inv tr taken items s) (head : s.outstanding = o :: rest)
    (reports : o.Reports trb) (env : Env) :
    ∃ p', s.pipes.completedTransfer env trb = .ok (o.completion trb, p') ∧
      Inv tr (taken + o.request.stages.length) items ⟨p', rest⟩ := by
  obtain ⟨hptr, hj⟩ := h.pointer_eq head reports
  have hcode := reports.1
  have hreport := h.trbAt head hj env
  have hsetup := h.trbAt head (j := 0) rfl env
  have hget := ArrayMap.get_eq_some (h.mem_live head) h.nodup
  have hforget := h.forget head
  rw [← hptr] at hreport hget hforget
  rw [Nat.add_zero] at hsetup
  have htype := TRB.get_eq_of_body_eq (f := TRB.trbType) (by decide) hreport
  have hnull : tr.entry (taken % 31) ≠ 0#64 :=
    h.placed.entryAt_ne_zero (by rw [h.size]; omega)
  have hdata : setupDataOf (s.pipes.trbAt env (tr.entry (taken % 31))) = o.request.setupData := by
    rw [ControlRequest.setupDataOf_eq_of_body_eq hsetup]
    exact ControlRequest.setupDataOf_makeSetupStageTRB _ _
  refine ⟨_, ?_, hforget⟩
  by_cases hbuf : o.request.buf = 0#64
  · rw [ControlRequest.type_reportStage_of_null hbuf] at htype
    rw [completedTransfer_status hcode htype hget hnull, hdata, Outstanding.completion,
      if_pos hbuf, hbuf]
  · obtain ⟨hkind, hbuffer, hlength⟩ := ControlRequest.data_reportStage hbuf
      (h.sized o (head ▸ List.mem_cons_self))
    rw [hkind] at htype
    rw [completedTransfer_data hcode htype hget hnull, hdata, Outstanding.completion,
      if_neg hbuf, ← hbuffer, ← hlength,
      TRB.get_eq_of_body_eq (f := DataStageTRB.dataBufferPointer) (by decide) hreport,
      TRB.get_eq_of_body_eq (f := DataStageTRB.trbTransferLength) (by decide) hreport]

end Inv

/-- Every step keeps the invariant. -/
theorem step_consistent (s s' : ControlRun) (h : Consistent s) (hstep : Step s s') :
    Consistent s' := by
  obtain ⟨tr, taken, items, h⟩ := h
  cases hstep with
  | call _ q host tr' few sized ring ret =>
      obtain rfl := Option.some.inj (h.ring.symm.trans ring)
      exact ⟨_, _, _, h.call few sized ret⟩
  | complete _ o rest env trb head reports ret =>
      obtain ⟨p', hcompleted, h'⟩ := h.completedTransfer head reports env
      obtain ⟨_, rfl⟩ := Prod.mk.inj (Except.ok.inj (hcompleted.symm.trans ret))
      exact ⟨_, _, _, h'⟩
  | other _ p' ring map =>
      exact ⟨_, _, _, { h with ring := ring.trans h.ring, map := map ▸ h.map }⟩

/-! ## errors -/

/-- What the base class ends with never blames the map. -/
theorem onControlCompleted_ne (env : Env) (host : Host) (d : Usb.Device) (sd : SetupData)
    (buf : BitVec 64) (len : Int) : Returns (d.onControlCompleted env host sd buf len)
      fun r => r.2.2 ≠ .error .kNoCorrespondingSetupStage := by
  have hphase : Returns (d.initializePhase2 env host buf len)
      fun r => r.2.2 ≠ .error .kNoCorrespondingSetupStage := by
    refine .seq fun isConf => .ite (fun _ => .seq fun found => ?_) fun _ => .of_pure (by simp)
    obtain ⟨driver, _, _⟩ := found
    cases driver with
    | none => exact .of_pure (by simp)
    | some driver => exact .of_pure (by simp)
  unfold Usb.Device.onControlCompleted
  refine .ite (fun _ => ?_) fun _ => .ite (fun _ => ?_) fun _ => .ite (fun _ => ?_) fun _ =>
    .ite (fun _ => ?_) fun _ => .of_pure (by simp)
  · split
    · exact .of_pure (by simp)
    · exact .of_throw _
    · refine .seq fun c => .of_pure ?_
      unfold HIDDriver.onControlCompleted
      split <;> simp
  · exact .ite (fun _ => .seq fun _ => .ite (fun _ => .of_pure (by simp)) fun _ =>
      .of_pure (by simp)) fun _ => .of_pure (by simp)
  · exact .ite (fun _ => .seq fun _ => .ite (fun _ => hphase) fun _ => .of_pure (by simp))
      fun _ => .of_pure (by simp)
  · exact .ite (fun _ => .seq fun _ => .of_pure (by simp)) fun _ => .of_pure (by simp)

/-- Nor does a control transfer. -/
theorem control_ne (transferType : BitVec 2) (dataIn statusIn : Bool) (host : Host) (p : Pipes)
    (epId : EndpointID) (sd : SetupData) (buf : BitVec 64) (len : Int) (issuer : Option Nat) :
    Returns (Pipes.control transferType dataIn statusIn host p epId sd buf len issuer)
      fun r => r.1 ≠ .kNoCorrespondingSetupStage := by
  unfold Pipes.control
  refine .ite (fun _ => .of_pure (by simp)) fun _ => .seq fun i => ?_
  simp only
  split
  · exact .of_pure (by simp)
  · exact .ite (fun _ => .seq fun _ => .seq fun _ => .seq fun _ => .of_pure (by simp))
      fun _ => .seq fun _ => .seq fun _ => .of_pure (by simp)

/-- Nor does any other. -/
theorem run_ne (host : Host) (p : Pipes) (t : Transfer) :
    Returns (p.run host t) fun r => r.1 ≠ .kNoCorrespondingSetupStage := by
  cases t with
  | controlIn epId sd buf len issuer => exact control_ne _ _ _ _ _ _ _ _ _ _
  | controlOut epId sd buf len issuer => exact control_ne _ _ _ _ _ _ _ _ _ _
  | interruptIn epId buf len =>
      refine .seq fun i => ?_
      simp only
      split
      · exact .of_pure (by simp)
      · exact .seq fun _ => .of_pure (by simp)

/-- A control completion is never answered with
`kNoCorrespondingSetupStage`. -/
theorem report_ne (env : Env) (host : Host) (p : Pipes) (epId : EndpointID) (sd : SetupData)
    (buf : BitVec 64) (len : Int) : Returns (p.report env host (.control epId sd buf len))
      fun r => r.1 ≠ .kNoCorrespondingSetupStage := by
  refine .bind (onControlCompleted_ne env host p.base sd buf len) fun r hr => ?_
  obtain ⟨base, host', o⟩ := r
  cases o with
  | error e => exact .of_pure fun he => hr (congrArg Outcome.error he)
  | transfer t => exact run_ne _ _ _

/-! ## the theorem -/

/-- What holds of a device in the middle of a run. -/
structure RoundTrip (s : ControlRun) : Prop where
  /-- the map holds exactly the outstanding requests -/
  map : s.pipes.setupStageMap.live.Perm (s.outstanding.map Outstanding.entry)
  /-- with fewer than ten of them, every call succeeds -/
  accepts : ∀ (q : ControlRequest) (h : Host), s.outstanding.length < 10 →
    ∃ p' h', q.call h s.pipes = .ok (.kSuccess, p', h')
  /-- the event of the oldest request makes one call of `OnControlCompleted`,
  for that request, with the others left in the map -/
  reports : ∀ o rest env h trb, s.outstanding = o :: rest → o.Reports trb → ∃ p',
    s.pipes.completedTransfer env trb = .ok (o.completion trb, p') ∧
      p'.setupStageMap.live.Perm (rest.map Outstanding.entry) ∧
      s.pipes.onTransferEventReceived env h trb = p'.report env
        (h.act (.completionCodeName (TransferEventTRB.completionCode.get trb)))
        (o.completion trb) ∧
      Returns (s.pipes.onTransferEventReceived env h trb)
        fun r => r.1 ≠ .kNoCorrespondingSetupStage

/-- The request for a ring object. -/
def ringRequest : Usb.Request :=
  ⟨BitVec.ofNat 64 Pipes.sizeofRing * BitVec.ofNat 64 1, 64#32, 4096#32⟩

theorem ringRequest_valid : ringRequest.Valid := ⟨by decide, .inr ⟨6, rfl⟩, .inr ⟨12, rfl⟩⟩

theorem allocArray_ring (env : Env) (h : Host) :
    h.allocArray env Pipes.sizeofRing 1 64#32 4096#32 =
      h.grant (ringRequest.serve env.pool h.allocPtr) := rfl

/-- A ring object with a buffer is fresh. -/
theorem installRing_fresh {env : Env} {h h' : Host} {p p' : Pipes} {tr : Ring}
    {a : BitVec 64 × BitVec 64} (cursor : CursorOk env.pool a.2)
    (install : p.installRing env i 32 (h.grant a) = (some tr, p', h')) (buffer : tr.buf ≠ 0#64) :
    tr.Fresh ∧ tr.bufSize = 32 ∧ p'.transferRings i = some tr ∧
      p'.setupStageMap = p.setupStageMap := by
  unfold Pipes.installRing at install
  split at install
  · exact absurd (Prod.mk.inj install).1 (by simp)
  · generalize hinit : Ring.initializeRing env.pool (h.grant a).2.allocPtr 32 = r at install
    obtain ⟨e, ring, allocPtr⟩ := r
    simp only [Prod.mk.injEq, Option.some.injEq] at install
    obtain ⟨rfl, rfl, _⟩ := install
    obtain ⟨hfresh, hsize⟩ := Ring.initializeRing_fresh (p := (h.grant a).2.allocPtr) cursor
      (by decide) hinit buffer
    exact ⟨hfresh, hsize, update_self p.transferRings i _, rfl⟩

/-- A ring with a buffer from `AllocTransferRing`, for the default control
pipe. -/
theorem allocTransferRing_fresh {env : Env} {h h' : Host} {p p' : Pipes} {tr : Ring}
    (cursor : CursorOk env.pool h.allocPtr)
    (alloc : p.allocTransferRing env h 1 32 = .ok (some tr, p', h')) (buffer : tr.buf ≠ 0#64) :
    tr.Fresh ∧ tr.bufSize = 32 ∧ p'.transferRings 0 = some tr ∧
      p'.setupStageMap = p.setupStageMap := by
  have hcursor := (allocMem_refines ringRequest_valid cursor).2.2
  have hchecked : checked 31 (1 - 1) = .ok 0 := rfl
  rw [Pipes.allocTransferRing, hchecked, allocArray_ring] at alloc
  exact installRing_fresh hcursor (Except.ok.inj alloc) buffer

/-- A device whose default control pipe has just been given its ring. -/
theorem consistent_of_alloc {env : Env} {h h' : Host} {p p' : Pipes} {tr : Ring}
    (cursor : CursorOk env.pool h.allocPtr)
    (alloc : p.allocTransferRing env h 1 32 = .ok (some tr, p', h')) (buffer : tr.buf ≠ 0#64)
    (empty : p.setupStageMap.live = []) : Consistent ⟨p', []⟩ := by
  obtain ⟨fresh, size, ring, map⟩ := allocTransferRing_fresh cursor alloc buffer
  exact ⟨tr, 0, [], {
    ring := ring
    placed := fresh.placed
    size := size
    holds := fresh.holds (by omega)
    waiting := rfl
    located := trivial
    few := Nat.zero_le _
    sized := fun o ho => absurd ho List.not_mem_nil
    map := by rw [map, empty]; exact .refl _ }⟩

/-- What the invariant promises. -/
theorem Consistent.roundTrip {s : ControlRun} (h : Consistent s) : RoundTrip s := by
  obtain ⟨tr, taken, items, hinv⟩ := h
  exact {
    map := hinv.map
    accepts := fun q host _ =>
      ⟨_, _, call_eq q host hinv.ring hinv.placed.nonnull hinv.index_lt⟩
    reports := fun o rest env host trb head reports => by
      obtain ⟨p₁, hcompleted, h₁⟩ := hinv.completedTransfer head reports env
      have hreport : s.pipes.onTransferEventReceived env host trb = p₁.report env
          (host.act (.completionCodeName (TransferEventTRB.completionCode.get trb)))
          (o.completion trb) := by
        rw [Pipes.onTransferEventReceived, hcompleted]
        rfl
      refine ⟨p₁, hcompleted, h₁.map, hreport, ?_⟩
      rw [hreport]
      exact report_ne _ _ _ _ _ _ _ }

/-- **Control requests round-trip**: in every run from a device whose default
control pipe has just been given its ring, the map holds exactly the
outstanding requests, and the event that completes the oldest of them is
reported for that request. -/
theorem roundtrip {env : Env} {h h' : Host} {p p' : Pipes} {tr : Ring} {s : ControlRun}
    (cursor : CursorOk env.pool h.allocPtr)
    (alloc : p.allocTransferRing env h 1 32 = .ok (some tr, p', h')) (buffer : tr.buf ≠ 0#64)
    (empty : p.setupStageMap.live = []) (hrun : ReflTransGen Step ⟨p', []⟩ s) : RoundTrip s :=
  (Run.invariant step_consistent (consistent_of_alloc cursor alloc buffer empty) hrun).roundTrip

/-! ## a sample -/

/-- A device without transfer rings. -/
def barePipes : Pipes := (Device.new 0x200000#64 1#8 1#8).pipes

/-- The ring a fresh pool gives it. -/
def firstRing : Ring := ⟨0x100040#64, 32, fun _ => 0#128, true, 0⟩

/-- A request for a device descriptor. -/
def descriptorRequest : ControlRequest where
  dirIn := true
  setupData := ⟨0x80#8, Request.kGetDescriptor, 0x100#16, 0#16, 18#16⟩
  buf := 0x300000#64
  len := 18
  issuer := none

/-- The round trip after one call on a fresh pool. -/
theorem roundtrip_descriptor : ∃ p h, descriptorRequest.call ⟨0x100240#64, []⟩
      { barePipes with transferRings := update barePipes.transferRings 0 (some firstRing) } =
        .ok (.kSuccess, p, h) ∧
      RoundTrip ⟨p, [.issued descriptorRequest firstRing]⟩ := by
  have alloc : barePipes.allocTransferRing (Env.zero poolAtMiB) ⟨0x100000#64, []⟩ 1 32 =
      .ok (some firstRing,
        { barePipes with transferRings := update barePipes.transferRings 0 (some firstRing) },
        ⟨0x100240#64, []⟩) := rfl
  have hcall := call_eq descriptorRequest ⟨0x100240#64, []⟩
    (p := { barePipes with transferRings := update barePipes.transferRings 0 (some firstRing) })
    rfl (by decide) (by decide)
  exact ⟨_, _, hcall, roundtrip (cursorOk_base poolAtMiB) alloc (by decide) (ArrayMap.live_new _)
    (.single (.call _ _ _ firstRing (by decide) ⟨by decide, by decide⟩ rfl hcall))⟩

end ControlRun

end MikanOs.Usb.Xhci
