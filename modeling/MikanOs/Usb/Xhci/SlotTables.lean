import MikanOs.Lib.MapHistory
import MikanOs.Usb.Xhci.Initialize
import MikanOs.Usb.Xhci.PoolRoom

/-!
# MikanOs.Usb.Xhci.SlotTables

The two tables of the device manager, over any calls after `Initialize`.
Which slots have a device is what the calls themselves say (`latest`), and the
array the controller reads holds nothing but contexts of such devices.

`TableOutcome` is all that can come of a call.  `AllocDevice` does not look at what
the pool answers, `LoadDCBAA` not at whether there is a device, and `Remove`
not at the slot; so each of them goes wrong just when it would have had to
(`soundThrough_iff`).
-/

namespace MikanOs.Usb.Xhci

open MapHistory

/-! ## calls -/

/-- A call of the device manager.  Between two of them the pool may have been
used for something else. -/
inductive TableCall
  | allocDevice (env : Env) (host : Host) (slotId dbreg : BitVec 8)
  | loadDCBAA (slotId : BitVec 8)
  | remove (slotId : BitVec 8)
  | findBySlot (slotId : BitVec 8)

/-- What one returns. -/
inductive TableAnswer
  | error (err : Error)
  | device (dev : Option Device)

/-- Make a call. -/
def DeviceManager.call (m : DeviceManager) :
    TableCall → Except Fault (TableAnswer × DeviceManager)
  | .allocDevice env host slotId dbreg => do
      let (err, m, _) ← m.allocDevice env host slotId dbreg
      pure (.error err, m)
  | .loadDCBAA slotId => do
      let (err, m) ← m.loadDCBAA slotId
      pure (.error err, m)
  | .remove slotId => do
      let (err, m) ← m.remove slotId
      pure (.error err, m)
  | .findBySlot slotId => pure (.device (m.findBySlot slotId), m)

/-- An error, or no device. -/
def TableAnswer.Refusal : TableAnswer → Prop
  | .error err => err ≠ .kSuccess
  | .device dev => dev = none

namespace TableCall

/-- A call that is to be refused. -/
def Invalid (m : DeviceManager) : TableCall → Prop
  | .allocDevice _ _ slotId _ => m.maxSlots < slotId.toNat ∨ m.devices slotId ≠ none
  | .loadDCBAA slotId => m.maxSlots < slotId.toNat ∨ m.devices slotId = none
  | .remove slotId => m.maxSlots < slotId.toNat
  | .findBySlot slotId => m.maxSlots < slotId.toNat

/-- A call the code is up to. -/
def Served (m : DeviceManager) : TableCall → Prop
  | .allocDevice env host slotId _ => m.maxSlots < slotId.toNat ∨ m.devices slotId ≠ none ∨
      HasRoom env.pool host.allocPtr [deviceRequest]
  | .loadDCBAA slotId => m.maxSlots < slotId.toNat ∨ m.devices slotId ≠ none
  | .remove slotId => slotId.toNat ≤ m.maxSlots
  | .findBySlot _ => True

instance (m : DeviceManager) (c : TableCall) : Decidable (c.Served m) :=
  match c with
  | .allocDevice _ _ _ _ => inferInstanceAs (Decidable (_ ∨ _ ∨ _))
  | .loadDCBAA _ => inferInstanceAs (Decidable (_ ∨ _))
  | .remove _ => inferInstanceAs (Decidable (_ ≤ _))
  | .findBySlot _ => isTrue trivial

/-- The pool is in a state it can reach. -/
def AtCursor : TableCall → Prop
  | .allocDevice env host _ _ => CursorOk env.pool host.allocPtr
  | _ => True

end TableCall

/-- What an answered call says about a slot. -/
def slotChange : TableCall × TableAnswer → Option (Op (BitVec 8) Unit)
  | (.allocDevice _ _ slotId _, .error .kSuccess) => some (.put slotId ())
  | (.remove slotId, .error .kSuccess) => some (.delete slotId)
  | _ => none

/-- All that is said of the slots. -/
def slotChanges (past : List (TableCall × TableAnswer)) : List (Op (BitVec 8) Unit) :=
  past.filterMap slotChange

/-! ## one call -/

/-- All that can come of a call. -/
inductive TableOutcome (m : DeviceManager) :
    TableCall → Except Fault (TableAnswer × DeviceManager) → Prop
  | refused (c : TableCall) (a : TableAnswer) (served : c.Served m) (refusal : a.Refusal) :
      TableOutcome m c (.ok (a, m))
  | faulted (c : TableCall) (f : Fault) (unserved : ¬ c.Served m) : TableOutcome m c (.error f)
  | allocated (env : Env) (host : Host) (slotId dbreg : BitVec 8) (dev : Device)
      (slot : slotId.toNat ≤ m.maxSlots) (free : m.devices slotId = none)
      (room : HasRoom env.pool host.allocPtr [deviceRequest]) :
      TableOutcome m (.allocDevice env host slotId dbreg) (.ok (.error .kSuccess, m.set slotId dev))
  | loaded (slotId : BitVec 8) (dev : Device) (slot : slotId.toNat ≤ m.maxSlots)
      (taken : m.devices slotId = some dev) :
      TableOutcome m (.loadDCBAA slotId) (.ok (.error .kSuccess, m.load slotId dev))
  | removed (slotId : BitVec 8) (slot : slotId.toNat ≤ m.maxSlots) :
      TableOutcome m (.remove slotId) (.ok (.error .kSuccess, { m with
        deviceContextPointers := update m.deviceContextPointers slotId 0#64
        devices := update m.devices slotId none }))
  | found (slotId : BitVec 8) (slot : slotId.toNat ≤ m.maxSlots) :
      TableOutcome m (.findBySlot slotId) (.ok (.device (m.devices slotId), m))

theorem outcome_allocDevice (m : DeviceManager) (slotId dbreg : BitVec 8) {env : Env} {host : Host}
    (cursor : CursorOk env.pool host.allocPtr) :
    TableOutcome m (.allocDevice env host slotId dbreg)
      (m.call (.allocDevice env host slotId dbreg)) := by
  rw [DeviceManager.call]
  by_cases hbeyond : m.maxSlots < slotId.toNat
  · rw [DeviceManager.allocDevice_of_lt hbeyond]
    exact .refused _ _ (.inl hbeyond) nofun
  have hslot := Nat.le_of_not_lt hbeyond
  cases htaken : m.devices slotId with
  | some dev =>
      rw [DeviceManager.allocDevice_of_some hslot htaken]
      exact .refused _ _ (.inr (.inl (by rw [htaken]; nofun))) nofun
  | none =>
      have hanswer := allocDevice_answer dbreg hslot htaken cursor
      generalize m.allocDevice env host slotId dbreg = ret at hanswer
      cases hanswer with
      | null full =>
          refine .faulted _ _ ?_
          rintro (h | h | h)
          · exact hbeyond h
          · exact h htaken
          · exact full [] h
      | made this h' nonnull room cursor' =>
          exact .allocated _ _ _ _ _ hslot htaken ((room []).mpr trivial)

theorem outcome_loadDCBAA (m : DeviceManager) (slotId : BitVec 8) :
    TableOutcome m (.loadDCBAA slotId) (m.call (.loadDCBAA slotId)) := by
  rw [DeviceManager.call]
  by_cases hbeyond : m.maxSlots < slotId.toNat
  · rw [DeviceManager.loadDCBAA_of_lt hbeyond]
    exact .refused _ _ (.inl hbeyond) nofun
  have hslot := Nat.le_of_not_lt hbeyond
  cases htaken : m.devices slotId with
  | none =>
      rw [DeviceManager.loadDCBAA_of_none hslot htaken]
      exact .faulted _ _ (not_or_intro hbeyond (not_not_intro htaken))
  | some dev =>
      rw [DeviceManager.loadDCBAA_of_some hslot htaken]
      exact .loaded _ _ hslot htaken

/-- **A call** has one of the outcomes. -/
theorem outcome_call (m : DeviceManager) {c : TableCall} (cursor : c.AtCursor) :
    TableOutcome m c (m.call c) := by
  cases c with
  | allocDevice env host slotId dbreg => exact outcome_allocDevice m slotId dbreg cursor
  | loadDCBAA slotId => exact outcome_loadDCBAA m slotId
  | remove slotId =>
      rw [DeviceManager.call, DeviceManager.remove]
      by_cases hbeyond : m.maxSlots < slotId.toNat
      · rw [if_pos hbeyond]
        exact .faulted _ _ (Nat.not_le_of_lt hbeyond)
      · rw [if_neg hbeyond]
        exact .removed _ (Nat.le_of_not_lt hbeyond)
  | findBySlot slotId =>
      rw [DeviceManager.call, DeviceManager.findBySlot]
      by_cases hbeyond : m.maxSlots < slotId.toNat
      · rw [if_pos hbeyond]
        exact .refused _ _ trivial rfl
      · rw [if_neg hbeyond]
        exact .found _ (Nat.le_of_not_lt hbeyond)

/-- What a call owes: to return, and to refuse what is invalid. -/
def CallSound (m : DeviceManager) (c : TableCall)
    (ret : Except Fault (TableAnswer × DeviceManager)) : Prop :=
  ∃ a m', ret = .ok (a, m') ∧ (c.Invalid m → a.Refusal ∧ m' = m)

theorem TableOutcome.sound_iff {m : DeviceManager} {c : TableCall}
    {ret : Except Fault (TableAnswer × DeviceManager)} (h : TableOutcome m c ret) :
    CallSound m c ret ↔ c.Served m := by
  cases h with
  | refused _ a served refusal => exact iff_of_true ⟨a, m, rfl, fun _ => ⟨refusal, rfl⟩⟩ served
  | faulted _ f unserved =>
      refine iff_of_false ?_ unserved
      rintro ⟨_, _, hret, _⟩
      contradiction
  | allocated env host slotId dbreg dev slot free room =>
      refine iff_of_true ⟨_, _, rfl, ?_⟩ (.inr (.inr room))
      rintro (hbeyond | htaken)
      · exact absurd hbeyond (Nat.not_lt_of_le slot)
      · exact absurd free htaken
  | loaded slotId dev slot taken =>
      refine iff_of_true ⟨_, _, rfl, ?_⟩ (.inr (by rw [taken]; nofun))
      rintro (hbeyond | hfree)
      · exact absurd hbeyond (Nat.not_lt_of_le slot)
      · rw [taken] at hfree
        contradiction
  | removed slotId slot =>
      exact iff_of_true ⟨_, _, rfl, fun hbeyond => absurd hbeyond (Nat.not_lt_of_le slot)⟩ slot
  | found slotId slot =>
      exact iff_of_true ⟨_, _, rfl, fun hbeyond => absurd hbeyond (Nat.not_lt_of_le slot)⟩ trivial

/-! ## what is kept -/

/-- What the controller is shown for a slot is nothing, or the context of the
device that is there. -/
def DeviceManager.EntryOk (m : DeviceManager) (slotId : BitVec 8) : Prop :=
  m.deviceContextPointers slotId = 0#64 ∨ ∃ dev, m.devices slotId = some dev ∧
    m.deviceContextPointers slotId = dev.deviceContext

/-- The tables after some calls that have been answered. -/
structure TablesSound (past : List (TableCall × TableAnswer)) (m : DeviceManager) : Prop where
  coherent : ∀ slotId : BitVec 8, 1 ≤ slotId.toNat → slotId.toNat ≤ m.maxSlots → m.EntryOk slotId
  found : ∀ slotId : BitVec 8, m.findBySlot slotId ≠ none ↔
    latest (slotChanges past) slotId ≠ none

theorem TablesSound.empty (maxSlots : Nat) : TablesSound [] (.empty maxSlots) where
  coherent _ _ _ := .inl rfl
  found _ := iff_of_false (not_not_intro (ite_self none)) (not_not_intro rfl)

theorem slotChanges_append (past : List (TableCall × TableAnswer)) (x : TableCall × TableAnswer) :
    slotChanges (past ++ [x]) = slotChanges past ++ (slotChange x).toList := by
  rw [slotChanges, List.filterMap_append]
  cases hx : slotChange x with
  | none => rw [List.filterMap_cons_none hx]; rfl
  | some op => rw [List.filterMap_cons_some hx]; rfl

/-- A slot the last call has not changed. -/
theorem latest_slotChanges_of_ne (past : List (TableCall × TableAnswer))
    {x : TableCall × TableAnswer} (slotId : BitVec 8)
    (h : ∀ op, slotChange x = some op → slotId ≠ op.key) :
    latest (slotChanges (past ++ [x])) slotId = latest (slotChanges past) slotId := by
  rw [slotChanges_append]
  cases hx : slotChange x with
  | none => rw [Option.toList_none, List.append_nil]
  | some op => exact latest_append_ne _ op (h op hx)

theorem slotChange_of_refusal (c : TableCall) {a : TableAnswer} (h : a.Refusal) :
    slotChange (c, a) = none := by
  cases a with
  | device dev => cases c <;> rfl
  | error err =>
      cases err with
      | kSuccess => exact absurd rfl h
      | _ => cases c <;> rfl

section

variable {past : List (TableCall × TableAnswer)} {m m' : DeviceManager}
  {x : TableCall × TableAnswer}

/-- What changes nothing keeps the tables in order. -/
theorem TablesSound.idle (h : TablesSound past m) (hx : slotChange x = none) :
    TablesSound (past ++ [x]) m := by
  refine ⟨h.coherent, fun slotId => ?_⟩
  have hsame := latest_slotChanges_of_ne past (x := x) slotId (by rw [hx]; nofun)
  rw [hsame]
  exact h.found slotId

/-- What changes one slot keeps the tables in order if that slot is. -/
theorem TablesSound.at_slot (h : TablesSound past m) (slotId : BitVec 8)
    (slots : m'.maxSlots = m.maxSlots)
    (others : ∀ s, s ≠ slotId → m'.devices s = m.devices s ∧
      m'.deviceContextPointers s = m.deviceContextPointers s)
    (change : ∀ op, slotChange x = some op → slotId = op.key)
    (entry : 1 ≤ slotId.toNat → m'.EntryOk slotId)
    (found : m'.findBySlot slotId ≠ none ↔ latest (slotChanges (past ++ [x])) slotId ≠ none) :
    TablesSound (past ++ [x]) m' := by
  constructor
  · intro s hone hmax
    by_cases hs : s = slotId
    · subst hs
      exact entry hone
    · obtain ⟨hdevices, hcontexts⟩ := others s hs
      rw [DeviceManager.EntryOk, hdevices, hcontexts]
      exact h.coherent s hone (slots ▸ hmax)
  · intro s
    by_cases hs : s = slotId
    · subst hs
      exact found
    · rw [latest_slotChanges_of_ne past s fun op hop => change op hop ▸ hs,
        DeviceManager.findBySlot, slots, (others s hs).1]
      exact h.found s

end

/-- **A call** keeps the tables in order. -/
theorem TablesSound.step {past : List (TableCall × TableAnswer)} {m m' : DeviceManager}
    {c : TableCall} {a : TableAnswer} (h : TablesSound past m)
    (outcome : TableOutcome m c (.ok (a, m'))) : TablesSound (past ++ [(c, a)]) m' := by
  cases outcome with
  | refused _ _ served refusal => exact h.idle (slotChange_of_refusal c refusal)
  | found slotId slot => exact h.idle rfl
  | allocated env host slotId dbreg dev slot free room =>
      refine h.at_slot slotId rfl (fun s hs => ⟨update_ne hs _ _, rfl⟩) ?_ ?_ ?_
      · rintro op ⟨⟩
        rfl
      · -- the array has no context for a slot that was free
        intro hone
        rcases h.coherent slotId hone slot with hnull | ⟨dev', hdev', _⟩
        · exact .inl hnull
        · rw [free] at hdev'
          contradiction
      · rw [slotChanges_append, DeviceManager.findBySlot_set slot]
        exact iff_of_true nofun (latest_put_self _ slotId () ▸ nofun)
  | loaded slotId dev slot taken =>
      have hset := DeviceManager.set_eq_self taken
      have hdevices : (m.load slotId dev).devices = m.devices :=
        congrArg (·.devices) hset
      refine h.at_slot slotId rfl
        (fun s hs => ⟨congrFun hdevices s, update_ne hs _ _⟩) nofun (fun _ => .inr ⟨dev, ?_, ?_⟩) ?_
      · exact DeviceManager.load_devices_self m slotId dev
      · exact DeviceManager.load_pointers_self m slotId dev
      · have hlatest := latest_slotChanges_of_ne past
          (x := (.loadDCBAA slotId, .error .kSuccess)) slotId nofun
        rw [hlatest, DeviceManager.findBySlot, hdevices]
        exact h.found slotId
  | removed slotId slot =>
      refine h.at_slot slotId rfl
        (fun s hs => ⟨update_ne hs _ _, update_ne hs _ _⟩) ?_ (fun _ => .inl (update_self _ _ _)) ?_
      · rintro op ⟨⟩
        rfl
      · rw [slotChanges_append]
        refine iff_of_false (not_not_intro ?_) (not_not_intro (latest_delete_self _ slotId))
        exact (if_neg (Nat.not_lt_of_le slot)).trans (update_self _ _ _)

/-! ## all calls -/

/-- Every call returns and refuses what is invalid, and the tables are in order
before and after each. -/
def SoundThrough (m : DeviceManager) (past : List (TableCall × TableAnswer)) :
    List TableCall → Prop
  | [] => TablesSound past m
  | c :: cs => TablesSound past m ∧ ∃ a m', m.call c = .ok (a, m') ∧
      (c.Invalid m → a.Refusal ∧ m' = m) ∧ SoundThrough m' (past ++ [(c, a)]) cs

/-- The code is up to every call, as it finds the tables. -/
def ServedThrough (m : DeviceManager) : List TableCall → Prop
  | [] => True
  | c :: cs => c.Served m ∧ ∀ a m', m.call c = .ok (a, m') → ServedThrough m' cs

theorem servedThrough_error {m : DeviceManager} {c : TableCall} {f : Fault}
    (h : m.call c = .error f) (cs : List TableCall) :
    c.Served m ↔ ServedThrough m (c :: cs) := by
  refine (and_iff_left fun a m' hret => ?_).symm
  rw [h] at hret
  contradiction

theorem servedThrough_ok {m m' : DeviceManager} {c : TableCall} {a : TableAnswer}
    (h : m.call c = .ok (a, m')) (cs : List TableCall) :
    c.Served m ∧ ServedThrough m' cs ↔ ServedThrough m (c :: cs) := by
  refine and_congr_right fun _ => ⟨fun hrest a' m'' hret => ?_, fun hrest => hrest a m' h⟩
  obtain ⟨_, rfl⟩ := Prod.mk.inj (Except.ok.inj (h.symm.trans hret))
  exact hrest

instance decidableServedThrough (m : DeviceManager) (calls : List TableCall) :
    Decidable (ServedThrough m calls) :=
  match calls with
  | [] => isTrue trivial
  | c :: cs =>
      match h : m.call c with
      | .error _ => decidable_of_iff _ (servedThrough_error h cs)
      | .ok (_, m') =>
          have := decidableServedThrough m' cs
          decidable_of_iff _ (servedThrough_ok h cs)

theorem TablesSound.through_iff {past : List (TableCall × TableAnswer)} {m : DeviceManager}
    (h : TablesSound past m) {calls : List TableCall} (cursors : ∀ c ∈ calls, c.AtCursor) :
    SoundThrough m past calls ↔ ServedThrough m calls := by
  induction calls generalizing m past with
  | nil => exact iff_of_true h trivial
  | cons c cs ih =>
      have houtcome := outcome_call m (cursors c List.mem_cons_self)
      have hcs : ∀ c ∈ cs, c.AtCursor := fun c hc => cursors c (List.mem_cons_of_mem _ hc)
      constructor
      · rintro ⟨_, a, m', hret, hinvalid, hrest⟩
        refine ⟨houtcome.sound_iff.mp ⟨a, m', hret, hinvalid⟩, fun a' m'' hret' => ?_⟩
        obtain ⟨rfl, rfl⟩ := Prod.mk.inj (Except.ok.inj (hret.symm.trans hret'))
        exact (ih (h.step (hret ▸ houtcome)) hcs).mp hrest
      · rintro ⟨hserved, hrest⟩
        obtain ⟨a, m', hret, hinvalid⟩ := houtcome.sound_iff.mpr hserved
        exact ⟨h, a, m', hret, hinvalid,
          (ih (h.step (hret ▸ houtcome)) hcs).mpr (hrest a m' hret)⟩

/-- Whatever comes of it `Initialize` leaves the tables empty. -/
theorem initializeTables_of_answers (maxSlots : Nat) (a b : BitVec 64 × Host) :
    (if a.1 = 0#64 then (.kNoEnoughMemory, .empty maxSlots, a.2)
    else if b.1 = 0#64 then (.kNoEnoughMemory, .empty maxSlots, b.2)
    else (.kSuccess, .empty maxSlots, b.2) : Error × DeviceManager × Host).2.1 =
      .empty maxSlots := by
  split
  · rfl
  · split <;> rfl

theorem initializeTables_empty (env : Env) (h : Host) (maxSlots : Nat) :
    (DeviceManager.initializeTables env h maxSlots).2.1 = .empty maxSlots :=
  initializeTables_of_answers maxSlots _ _

/-- **The two tables** are in order through any calls after `Initialize` just
when the code is up to every one of them. -/
theorem soundThrough_iff {env : Env} {h h' : Host} {maxSlots : Nat} {m : DeviceManager}
    (init : DeviceManager.initializeTables env h maxSlots = (.kSuccess, m, h'))
    {calls : List TableCall} (cursors : ∀ c ∈ calls, c.AtCursor) :
    SoundThrough m [] calls ↔ ServedThrough m calls := by
  have hempty := initializeTables_empty env h maxSlots
  rw [init] at hempty
  obtain rfl := hempty
  exact (TablesSound.empty maxSlots).through_iff cursors

/-- A device comes, is shown to the controller, and goes; what is asked of slots
there are not, or of a slot that is taken, is refused. -/
def slotCalls : List TableCall :=
  [.allocDevice (Env.zero poolAtMiB) ⟨0x1000c8#64, []⟩ 1#8 1#8,
    .allocDevice (Env.zero poolAtMiB) ⟨0x101e00#64, []⟩ 1#8 1#8, .loadDCBAA 1#8, .loadDCBAA 9#8,
    .findBySlot 1#8, .remove 1#8, .findBySlot 1#8, .remove 1#8]

theorem slotCalls_atCursor : ∀ c ∈ slotCalls, c.AtCursor := by
  simp only [slotCalls, List.forall_mem_cons]
  exact ⟨⟨by decide, by decide⟩, ⟨by decide, by decide⟩, trivial, trivial, trivial, trivial,
    trivial, trivial, nofun⟩

theorem soundThrough_slotCalls : SoundThrough (.empty 8) [] slotCalls :=
  have init : DeviceManager.initializeTables (Env.zero poolAtMiB) ⟨0x100000#64, []⟩ 8 =
      (.kSuccess, .empty 8, ⟨0x1000c8#64, []⟩) := rfl
  (soundThrough_iff init slotCalls_atCursor).mpr (by decide)

/-- `Remove` of a slot there is not, `LoadDCBAA` of one without a device, and
`AllocDevice` from a pool that is exhausted. -/
theorem not_soundThrough :
    DeviceManager.initializeTables (Env.zero poolAtMiB) ⟨0x100000#64, []⟩ 8 =
      (.kSuccess, .empty 8, ⟨0x1000c8#64, []⟩) ∧
    (DeviceManager.empty 8).call (.remove 9#8) = .error .outOfBounds ∧
    (DeviceManager.empty 8).call (.loadDCBAA 1#8) = .error .nullPointer ∧
    (DeviceManager.empty 8).call
      (.allocDevice (Env.zero poolAtMiB) ⟨0x120000#64, []⟩ 1#8 1#8) = .error .nullPointer ∧
    ¬ SoundThrough (.empty 8) [] [.remove 9#8] ∧ ¬ SoundThrough (.empty 8) [] [.loadDCBAA 1#8] ∧
    ¬ SoundThrough (.empty 8) []
      [.allocDevice (Env.zero poolAtMiB) ⟨0x120000#64, []⟩ 1#8 1#8] := by
  refine ⟨rfl, rfl, rfl, rfl, ?_, ?_, ?_⟩
  · rintro ⟨_, _, _, hret, _⟩
    contradiction
  · rintro ⟨_, _, _, hret, _⟩
    contradiction
  · rintro ⟨_, _, _, hret, _⟩
    contradiction

end MikanOs.Usb.Xhci
