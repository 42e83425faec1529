import MikanOs.Usb.Xhci.ControlTransfer

/-!
# MikanOs.Usb.Xhci.FailedTransfer

Control requests on the default control pipe of which some fail.  A transfer
event with any completion code but Success and Short Packet is answered
before `setup_stage_map_` is looked at, so the entry of a request that failed
stays in the map for good: it is exact as long as no request has failed, and
never after.
-/

namespace MikanOs.Usb.Xhci

open Relation

/-- The completion codes of a transfer that went well: Success and Short
Packet. -/
def Succeeded (code : BitVec 8) : Prop := code = 1#8 ∨ code = 13#8

/-- A transfer event that is the last one of a request: it reports the
request, or one of its stages failed. -/
def Outstanding.Ends (o : Outstanding) (trb : Trb) : Prop :=
  o.Reports trb ∨ (¬ Succeeded (TransferEventTRB.completionCode.get trb) ∧
    TransferEventTRB.pointer trb ∈ o.addrs)

/-- A device and its outstanding requests, with the completion codes of the
events so far and the states that the run has gone through. -/
structure FailingRun where
  now : ControlRun
  codes : List (BitVec 8)
  states : List ControlRun

namespace FailingRun

/-! ## the run -/

/-- The start of a run. -/
def start (p : Pipes) : FailingRun := ⟨⟨p, []⟩, [], []⟩

/-- One step of a run: a request is made, the oldest one ends with any
completion code, or the device does anything that leaves this pipe and the map
alone. -/
inductive Step : FailingRun → FailingRun → Prop
  | call (s : FailingRun) (q : ControlRequest) (h : Host) (tr : Ring)
      (few : s.now.outstanding.length < 10) (sized : q.Sized)
      (ring : s.now.pipes.transferRings 0 = some tr)
      (ret : q.call h s.now.pipes = .ok (e, p', h')) :
      Step s ⟨⟨p', s.now.outstanding ++ [.issued q tr]⟩, s.codes,
        s.states ++ [⟨p', s.now.outstanding ++ [.issued q tr]⟩]⟩
  | event (s : FailingRun) (o : Outstanding) (rest : List Outstanding) (env : Env) (trb : Trb)
      (head : s.now.outstanding = o :: rest) (ends : o.Ends trb)
      (ret : s.now.pipes.completedTransfer env trb = .ok (c, p')) :
      Step s ⟨⟨p', rest⟩, s.codes ++ [TransferEventTRB.completionCode.get trb],
        s.states ++ [⟨p', rest⟩]⟩
  | other (s : FailingRun) (p' : Pipes)
      (ring : p'.transferRings 0 = s.now.pipes.transferRings 0)
      (map : p'.setupStageMap = s.now.pipes.setupStageMap) :
      Step s ⟨⟨p', s.now.outstanding⟩, s.codes, s.states ++ [⟨p', s.now.outstanding⟩]⟩

/-- The keys of the map are the reported TRBs of the outstanding requests. -/
def Exact (t : ControlRun) : Prop :=
  ∀ key, key ∈ t.pipes.setupStageMap.live.map Prod.fst ↔
    ∃ o ∈ t.outstanding, o.entry.1 = key

/-- Failed transfers leave nothing behind: the map has been exact after every
step, and whatever completes successfully from now on is reported as its own
request. -/
structure NoResidue (s : FailingRun) : Prop where
  exact_states : ∀ t ∈ s.states, Exact t
  delivered : s.now.RoundTrip

/-! ## failures -/

/-- **A failed transfer** is answered with `kTransferFailed`, and the map keeps
its entry. -/
theorem completedTransfer_failed {trb : Trb}
    (failed : ¬ Succeeded (TransferEventTRB.completionCode.get trb)) (env : Env) (p : Pipes) :
    p.completedTransfer env trb = .ok (.error .kTransferFailed, p) := by
  obtain ⟨hsuccess, hshort⟩ := not_or.mp failed
  exact if_pos ⟨hsuccess, hshort⟩

/-- Nothing else happens to the device either. -/
theorem onTransferEventReceived_failed {trb : Trb}
    (failed : ¬ Succeeded (TransferEventTRB.completionCode.get trb)) (env : Env) (h : Host)
    (p : Pipes) : p.onTransferEventReceived env h trb =
      .ok (.kTransferFailed, p,
        h.act (.completionCodeName (TransferEventTRB.completionCode.get trb))) := by
  rw [Pipes.onTransferEventReceived, completedTransfer_failed failed]
  rfl

theorem exact_of_inv {tr : Ring} {taken : Nat} {items : List Trb} {t : ControlRun}
    (h : ControlRun.Inv tr taken items t) : Exact t := by
  intro key
  rw [(h.map.map Prod.fst).mem_iff, List.map_map, List.mem_map]
  rfl

/-- The map is not exact after a failure: it holds the entry of the request
that failed, which is not that of any other. -/
theorem not_exact_of_failed {tr : Ring} {taken : Nat} {items : List Trb} {t : ControlRun}
    (h : ControlRun.Inv tr taken items t) (head : t.outstanding = o :: rest) :
    ¬ Exact ⟨t.pipes, rest⟩ := by
  intro hexact
  have hkey : o.entry.1 ∈ t.pipes.setupStageMap.live.map Prod.fst :=
    (exact_of_inv h o.entry.1).mpr ⟨o, head ▸ List.mem_cons_self, rfl⟩
  obtain ⟨o', hmem, heq⟩ := (hexact o.entry.1).mp hkey
  have hnodup := h.nodup
  rw [(h.map.map Prod.fst).nodup_iff, head, List.map_cons, List.map_cons, List.nodup_cons] at hnodup
  exact hnodup.1 (List.mem_map.mpr ⟨o'.entry, List.mem_map_of_mem hmem, heq⟩)

/-! ## the invariant -/

/-- What holds in every reachable state: with no failure so far the map has
been exact, and after one it has not. -/
structure Inv (s : FailingRun) : Prop where
  consistent : (∀ c ∈ s.codes, Succeeded c) → s.now.Consistent
  exact_states : (∀ c ∈ s.codes, Succeeded c) → ∀ t ∈ s.states, Exact t
  residue : ¬ (∀ c ∈ s.codes, Succeeded c) → ∃ t ∈ s.states, ¬ Exact t

theorem Inv.start {p : Pipes} (h : ControlRun.Consistent ⟨p, []⟩) : Inv (.start p) where
  consistent _ := h
  exact_states _ _ ht := absurd ht List.not_mem_nil
  residue hn := absurd (fun _ hc => absurd hc List.not_mem_nil) hn

/-- A step of the requests themselves keeps it. -/
theorem Inv.move {t : ControlRun} (h : Inv s) (hstep : ControlRun.Step s.now t) :
    Inv ⟨t, s.codes, s.states ++ [t]⟩ where
  consistent hok := ControlRun.step_consistent _ _ (h.consistent hok) hstep
  exact_states hok := by
    obtain ⟨_, _, _, hinv⟩ := ControlRun.step_consistent _ _ (h.consistent hok) hstep
    intro t' ht'
    cases List.mem_append.mp ht' with
    | inl hold => exact h.exact_states hok t' hold
    | inr hnew => rw [List.mem_singleton.mp hnew]; exact exact_of_inv hinv
  residue hn := by
    obtain ⟨t', hmem, hresidue⟩ := h.residue hn
    exact ⟨t', List.mem_append_left _ hmem, hresidue⟩

/-- One more code. -/
theorem all_append {codes : List (BitVec 8)} {c : BitVec 8} :
    (∀ c' ∈ codes ++ [c], Succeeded c') ↔ (∀ c' ∈ codes, Succeeded c') ∧ Succeeded c := by
  simp only [List.forall_mem_append, List.forall_mem_singleton]

/-- An event that reports its request keeps it. -/
theorem Inv.report {t : ControlRun} (h : Inv s) (ok : Succeeded c)
    (hstep : ControlRun.Step s.now t) : Inv ⟨t, s.codes ++ [c], s.states ++ [t]⟩ where
  consistent hok := (h.move hstep).consistent (all_append.mp hok).1
  exact_states hok := (h.move hstep).exact_states (all_append.mp hok).1
  residue hn := (h.move hstep).residue fun hok => hn (all_append.mpr ⟨hok, ok⟩)

/-- An event that fails leaves the entry behind. -/
theorem Inv.fail {o : Outstanding} {rest : List Outstanding} (h : Inv s)
    (failed : ¬ Succeeded c) (head : s.now.outstanding = o :: rest) :
    Inv ⟨⟨s.now.pipes, rest⟩, s.codes ++ [c], s.states ++ [⟨s.now.pipes, rest⟩]⟩ where
  consistent hok := absurd (all_append.mp hok).2 failed
  exact_states hok := absurd (all_append.mp hok).2 failed
  residue _ := by
    by_cases hok : ∀ c ∈ s.codes, Succeeded c
    · obtain ⟨_, _, _, hinv⟩ := h.consistent hok
      exact ⟨_, List.mem_append_right _ (List.mem_singleton_self _), not_exact_of_failed hinv head⟩
    · obtain ⟨t, hmem, hresidue⟩ := h.residue hok
      exact ⟨t, List.mem_append_left _ hmem, hresidue⟩

/-- Every step keeps the invariant. -/
theorem Inv.step (s t : FailingRun) (h : Inv s) (hstep : Step s t) : Inv t := by
  cases hstep with
  | call _ q host tr few sized ring ret => exact h.move (.call s.now q host tr few sized ring ret)
  | event _ o rest env trb head ends ret =>
      by_cases hcode : Succeeded (TransferEventTRB.completionCode.get trb)
      · have reports : o.Reports trb := ends.resolve_right fun hn => hn.1 hcode
        exact h.report hcode (.complete s.now o rest env trb head reports ret)
      · rw [completedTransfer_failed hcode] at ret
        obtain ⟨_, rfl⟩ := Prod.mk.inj (Except.ok.inj ret)
        exact h.fail hcode head
  | other _ p' ring map => exact h.move (.other s.now p' ring map)

/-! ## the theorem -/

/-- **Failed transfers leave no residue** exactly as long as there are none:
in every run of control requests from a device whose default control pipe has
just been given its ring, the map has always been exact, and later requests
are reported as their own, if and only if every completion code so far was
Success or Short Packet. -/
theorem noResidue_iff {env : Env} {h h' : Host} {p p' : Pipes} {tr : Ring} {s : FailingRun}
    (cursor : CursorOk env.pool h.allocPtr)
    (alloc : p.allocTransferRing env h 1 32 = .ok (some tr, p', h')) (buffer : tr.buf ≠ 0#64)
    (empty : p.setupStageMap.live = []) (hrun : ReflTransGen Step (.start p') s) :
    NoResidue s ↔ ∀ c ∈ s.codes, Succeeded c := by
  have hinv := Run.invariant Inv.step
    (Inv.start (ControlRun.consistent_of_alloc cursor alloc buffer empty)) hrun
  constructor
  · intro hclean
    refine Classical.byContradiction fun hn => ?_
    obtain ⟨t, hmem, hresidue⟩ := hinv.residue hn
    exact hresidue (hclean.exact_states t hmem)
  · intro hok
    exact ⟨hinv.exact_states hok, (hinv.consistent hok).roundTrip⟩

/-! ## one request -/

/-- A device that has just been given the ring of its default control pipe. -/
def ringPipes : Pipes :=
  { ControlRun.barePipes with
    transferRings := update ControlRun.barePipes.transferRings 0 (some ControlRun.firstRing) }

theorem allocTransferRing_ringPipes :
    ControlRun.barePipes.allocTransferRing (Env.zero poolAtMiB) ⟨0x100000#64, []⟩ 1 32 =
      .ok (some ControlRun.firstRing, ringPipes, ⟨0x100240#64, []⟩) := rfl

/-- The transfer event for the data stage of the first request on that ring. -/
def dataStageEvent (code : BitVec 8) : Trb :=
  TransferEventTRB.completionCode.put 0x100050#128 code

theorem completionCode_dataStageEvent (code : BitVec 8) :
    TransferEventTRB.completionCode.get (dataStageEvent code) = code := BitField.get_put _ _ _

theorem pointer_dataStageEvent (code : BitVec 8) :
    TransferEventTRB.pointer (dataStageEvent code) = 0x100050#64 := by
  unfold TransferEventTRB.pointer dataStageEvent
  rw [BitField.get_put_of_disjoint (by decide)]
  decide

/-- The request of the run. -/
def outstandingRequest : Outstanding :=
  .issued ControlRun.descriptorRequest ControlRun.firstRing

/-- A run of one request, with any completion code. -/
theorem run_descriptor (code : BitVec 8) : ∃ p p', ReflTransGen Step (.start ringPipes)
    ⟨⟨p', []⟩, [code], [⟨p, [outstandingRequest]⟩, ⟨p', []⟩]⟩ := by
  obtain ⟨p, h, hcall⟩ : ∃ p h, ControlRun.descriptorRequest.call ⟨0x100240#64, []⟩ ringPipes =
      .ok (.kSuccess, p, h) :=
    ⟨_, _, ControlRun.call_eq ControlRun.descriptorRequest ⟨0x100240#64, []⟩ rfl (by decide)
      (by decide)⟩
  have hcode := completionCode_dataStageEvent code
  have haddr : outstandingRequest.addrs[1]? =
      some (TransferEventTRB.pointer (dataStageEvent code)) := by
    rw [pointer_dataStageEvent]
    rfl
  have hends : outstandingRequest.Ends (dataStageEvent code) := by
    by_cases hok : Succeeded code
    · exact .inl ⟨hcode.symm ▸ hok, 1, ControlRun.descriptorRequest.reportStage, rfl, by decide,
        haddr⟩
    · exact .inr ⟨hcode.symm ▸ hok, List.mem_of_getElem? haddr⟩
  obtain ⟨c, p', ret⟩ : ∃ c p', p.completedTransfer (Env.zero poolAtMiB) (dataStageEvent code) =
      .ok (c, p') := by
    by_cases hok : Succeeded code
    · obtain ⟨_, _, _, hinv⟩ := ControlRun.step_consistent _ _
        (ControlRun.consistent_of_alloc (cursorOk_base poolAtMiB) allocTransferRing_ringPipes
          (by decide) (ArrayMap.live_new _))
        (.call ⟨ringPipes, []⟩ _ _ ControlRun.firstRing (by decide) ⟨by decide, by decide⟩ rfl
          hcall)
      obtain ⟨p', hret, _⟩ := hinv.completedTransfer rfl
        (hends.resolve_right fun hn => hn.1 (hcode.symm ▸ hok)) (Env.zero poolAtMiB)
      exact ⟨_, p', hret⟩
    · exact ⟨_, _, completedTransfer_failed (hcode.symm ▸ hok) _ _⟩
  have hfirst : Step (.start ringPipes)
      ⟨⟨p, [outstandingRequest]⟩, [], [⟨p, [outstandingRequest]⟩]⟩ :=
    .call (.start ringPipes) _ _ ControlRun.firstRing (by decide) ⟨by decide, by decide⟩ rfl hcall
  have hlast := Step.event ⟨⟨p, [outstandingRequest]⟩, [], [⟨p, [outstandingRequest]⟩]⟩
    outstandingRequest [] (Env.zero poolAtMiB) (dataStageEvent code) rfl hends ret
  rw [hcode] at hlast
  exact ⟨p, p', .head hfirst (.single hlast)⟩

/-- A run of one request that succeeds. -/
theorem noResidue_descriptor : ∃ p p',
    NoResidue ⟨⟨p', []⟩, [1#8], [⟨p, [outstandingRequest]⟩, ⟨p', []⟩]⟩ := by
  obtain ⟨p, p', hrun⟩ := run_descriptor 1#8
  exact ⟨p, p', (noResidue_iff (cursorOk_base poolAtMiB) allocTransferRing_ringPipes
    (by decide) (ArrayMap.live_new _) hrun).mpr (by simp [Succeeded])⟩

/-- A run of one request that fails with a transaction error. -/
theorem not_noResidue_descriptor : ∃ p p', ReflTransGen Step (.start ringPipes)
    ⟨⟨p', []⟩, [4#8], [⟨p, [outstandingRequest]⟩, ⟨p', []⟩]⟩ ∧
      ¬ NoResidue ⟨⟨p', []⟩, [4#8], [⟨p, [outstandingRequest]⟩, ⟨p', []⟩]⟩ := by
  obtain ⟨p, p', hrun⟩ := run_descriptor 4#8
  have hinv := Run.invariant Inv.step (Inv.start (ControlRun.consistent_of_alloc
    (cursorOk_base poolAtMiB) allocTransferRing_ringPipes (by decide) (ArrayMap.live_new _))) hrun
  obtain ⟨t, hmem, hresidue⟩ := hinv.residue fun hok =>
    absurd (hok 4#8 (List.mem_singleton_self _)) (by simp [Succeeded])
  exact ⟨p, p', hrun, fun hclean => hresidue (hclean.exact_states t hmem)⟩

end FailingRun

end MikanOs.Usb.Xhci
