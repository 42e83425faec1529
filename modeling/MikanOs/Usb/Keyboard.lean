import MikanOs.Usb.ClassDriver

/-!
# MikanOs.Usb.Keyboard

What a boot keyboard's observers are told over a sequence of reports.

A report is eight bytes: the modifier keys, a reserved byte, and the codes of
up to six keys that are down.  A key is pressed when its code is in a report
and was not in the one before.  `OnDataReceived` looks for the code in the
whole previous buffer, which begins with the first two bytes of the previous
report; `observe_eq_iff` says when that makes a difference.
-/

namespace MikanOs.Usb.Keyboard

/-- A boot keyboard report. -/
abbrev Report := Fin 8 → BitVec 8

/-- Bytes 2 to 7. -/
def keys (r : Report) : List (BitVec 8) := [r 2, r 3, r 4, r 5, r 6, r 7]

/-- The keys pressed since the previous report. -/
def pressed (prev r : Report) : List (BitVec 8) :=
  (keys r).filter fun key => key ≠ 0#8 ∧ key ∉ keys prev

/-- What `n` observers ought to be told, report by report. -/
def expected (n : Nat) (prev : Report) : List Report → List (List Io)
  | [] => []
  | r :: rs => ((pressed prev r).map Io.keyPush).flatMap (List.replicate n) :: expected n r rs

/-- No key pressed has the code that is the previous report's modifier byte or
reserved byte. -/
def Clear (prev : Report) : List Report → Prop
  | [] => True
  | r :: rs => (∀ key ∈ pressed prev r, key ≠ prev 0 ∧ key ≠ prev 1) ∧ Clear r rs

/-- `Clear` can be checked report by report. -/
def decidableClear : (prev : Report) → (rs : List Report) → Decidable (Clear prev rs)
  | _, [] => isTrue trivial
  | _, r :: rs => @instDecidableAnd _ _ inferInstance (decidableClear r rs)

instance (prev : Report) (rs : List Report) : Decidable (Clear prev rs) := decidableClear prev rs

/-- What a driver's buffer holds. -/
def report (d : HIDDriver) (env : Env) : Report := fun i => d.buffer env i

/-- The previous buffer after a report of full length, and before the first
one if there were no keys. -/
def stored (prev : Report) (i : Nat) : BitVec 8 := if h : i < 8 then prev ⟨i, h⟩ else 0#8

/-- Let the driver handle one report after another: what it tells its
observers about each. -/
def observe (epId : EndpointID) : HIDDriver → Host → List Env → Except Fault (List (List Io))
  | _, _, [] => pure []
  | d, h, env :: envs => do
      let (d', h', _) ← d.onInterruptCompleted env h epId 8
      let rest ← observe epId d' h' envs
      pure (h'.io.drop h.io.length :: rest)

/-! ## one report -/

/-- A code is nowhere in the previous buffer. -/
theorem stored_ne_iff {prev : Report} {key : BitVec 8} (hkey : key ≠ 0#8) :
    (∀ i < HIDDriver.kBufferSize, stored prev i ≠ key) ↔
      key ∉ keys prev ∧ key ≠ prev 0 ∧ key ≠ prev 1 := by
  have hfin : (∀ i < HIDDriver.kBufferSize, stored prev i ≠ key) ↔ ∀ i : Fin 8, prev i ≠ key := by
    constructor
    · intro h i
      have hi := h i (Nat.lt_of_lt_of_le i.isLt (by decide))
      rwa [stored, dif_pos i.isLt] at hi
    · intro h i _
      unfold stored
      split
      · exact h _
      · exact Ne.symm hkey
  rw [hfin]
  simp only [keys, List.mem_cons, List.not_mem_nil, or_false, not_or]
  constructor
  · intro h
    exact ⟨⟨(h 2).symm, (h 3).symm, (h 4).symm, (h 5).symm, (h 6).symm, (h 7).symm⟩,
      (h 0).symm, (h 1).symm⟩
  · rintro ⟨⟨h2, h3, h4, h5, h6, h7⟩, h0, h1⟩ i heq
    match i with
    | 0 => exact h0 heq.symm
    | 1 => exact h1 heq.symm
    | 2 => exact h2 heq.symm
    | 3 => exact h3 heq.symm
    | 4 => exact h4 heq.symm
    | 5 => exact h5 heq.symm
    | 6 => exact h6 heq.symm
    | 7 => exact h7 heq.symm

/-- The driver reports the keys pressed, but for those it finds in the first
two bytes of the previous report. -/
theorem newKeys_eq {d : HIDDriver} {prev : Report} (h : d.previousBuf = stored prev) (env : Env) :
    d.newKeys env =
      (pressed prev (report d env)).filter fun key => key ≠ prev 0 ∧ key ≠ prev 1 := by
  unfold HIDDriver.newKeys pressed
  rw [List.filter_filter, h]
  show List.filter _ (keys (report d env)) = List.filter _ (keys (report d env))
  refine List.filter_congr fun key _ => ?_
  by_cases hkey : key = 0#8
  · simp [hkey]
  · rw [Bool.eq_iff_iff]
    simp only [hkey, ne_eq, not_false_eq_true, true_and, decide_eq_true_eq, Bool.and_eq_true]
    exact (stored_ne_iff hkey).trans and_comm

/-- Handling a report of full length. -/
theorem onInterruptCompleted_eq {d : HIDDriver} {epId : EndpointID} (hin : epId.isIn = true)
    {prev : Report} (h : d.previousBuf = stored prev) (env : Env) (host : Host) :
    d.onInterruptCompleted env host epId 8 =
      .ok ({ d with previousBuf := stored (report d env) }, d.onDataReceived env host,
        .transfer (.interruptIn d.epInterruptIn d.buf d.inPacketSize)) := by
  have hcopied : (fun i : Nat => if (i : Int) < 8 then d.buffer env i else d.previousBuf i) =
      stored (report d env) := by
    funext i
    rw [h]
    unfold stored report
    by_cases hi : i < 8
    · rw [if_pos (by omega), dif_pos hi]
    · rw [if_neg (by omega), dif_neg hi, dif_neg hi]
  unfold HIDDriver.onInterruptCompleted
  rw [if_pos hin, if_pos (by decide), hcopied]
  rfl

theorem length_flatMap_replicate (n : Nat) (ios : List Io) :
    (ios.flatMap (List.replicate n)).length = ios.length * n := by
  induction ios with
  | nil => exact (Nat.zero_mul n).symm
  | cons io ios ih =>
      rw [List.flatMap_cons, List.length_append, List.length_replicate, ih, List.length_cons,
        Nat.succ_mul, Nat.add_comm]

/-- Telling `n` observers fewer keys than there are is telling them something
else. -/
theorem flatMap_replicate_filter_iff (n : Nat) (ios : List (BitVec 8)) (p : BitVec 8 → Bool) :
    ((ios.filter p).map Io.keyPush).flatMap (List.replicate n) =
        (ios.map Io.keyPush).flatMap (List.replicate n) ↔
      n = 0 ∨ ∀ key ∈ ios, p key := by
  constructor
  · intro heq
    by_cases hn : n = 0
    · exact .inl hn
    · have hlength := congrArg List.length heq
      rw [length_flatMap_replicate, length_flatMap_replicate, List.length_map,
        List.length_map] at hlength
      have hfilter : (ios.filter p).length = ios.length :=
        Nat.eq_of_mul_eq_mul_right (Nat.pos_of_ne_zero hn) hlength
      exact .inr (List.length_filter_eq_length_iff.mp hfilter)
  · rintro (rfl | hall)
    · have hnone : ∀ ios : List Io, ios.flatMap (List.replicate 0) = [] :=
        fun _ => List.flatMap_eq_nil_iff.mpr fun _ _ => rfl
      rw [hnone, hnone]
    · rw [List.filter_eq_self.mpr hall]

/-! ## all reports -/

/-- The first report, and the others. -/
theorem observe_cons {d : HIDDriver} {prev : Report} (hprev : d.previousBuf = stored prev)
    {epId : EndpointID} (hin : epId.isIn = true) {h : Host} {told : List Io}
    {rest : List (List Io)} :
    observe epId d h (env :: envs) = .ok (told :: rest) ↔
      (d.onDataReceived env h).io.drop h.io.length = told ∧
        observe epId { d with previousBuf := stored (report d env) } (d.onDataReceived env h) envs =
          .ok rest := by
  rw [observe, onInterruptCompleted_eq hin hprev, Returns.bind_eq_ok]
  constructor
  · rintro ⟨_, hfirst, hthen⟩
    cases hfirst
    obtain ⟨_, hobserve, hret⟩ := Returns.bind_eq_ok.mp hthen
    obtain ⟨hhead, rfl⟩ := List.cons.inj (Returns.pure_eq_ok.mp hret)
    exact ⟨hhead, hobserve⟩
  · rintro ⟨hhead, hobserve⟩
    refine ⟨_, rfl, Returns.bind_eq_ok.mpr ⟨_, hobserve, ?_⟩⟩
    exact Returns.pure_eq_ok.mpr (congrArg (· :: rest) hhead)

/-- What the observers are told about a report. -/
theorem told_eq {d : HIDDriver} (hkind : d.kind = .keyboard) {prev : Report}
    (hprev : d.previousBuf = stored prev) (env : Env) (h : Host) :
    (d.onDataReceived env h).io.drop h.io.length =
      (((pressed prev (report d env)).filter fun key => key ≠ prev 0 ∧ key ≠ prev 1).map
        Io.keyPush).flatMap (List.replicate d.numObservers) := by
  unfold HIDDriver.onDataReceived HIDDriver.notifications
  rw [hkind, newKeys_eq hprev, List.drop_left]

/-- What the observers are told from some report on, according to the report
before it. -/
theorem observe_eq_iff {d : HIDDriver} (hkind : d.kind = .keyboard) {prev : Report}
    (hprev : d.previousBuf = stored prev) {epId : EndpointID} (hin : epId.isIn = true) (h : Host)
    (envs : List Env) :
    observe epId d h envs = .ok (expected d.numObservers prev (envs.map (report d))) ↔
      d.numObservers = 0 ∨ Clear prev (envs.map (report d)) := by
  induction envs generalizing d h prev with
  | nil => exact ⟨fun _ => .inr trivial, fun _ => rfl⟩
  | cons env envs ih =>
      have hrest := ih (d := { d with previousBuf := stored (report d env) }) hkind rfl
        (d.onDataReceived env h)
      rw [List.map_cons, expected, observe_cons hprev hin, told_eq hkind hprev,
        flatMap_replicate_filter_iff]
      refine (and_congr_right' hrest).trans ?_
      show (_ ∨ _) ∧ (d.numObservers = 0 ∨ Clear (report d env) (envs.map (report d))) ↔ _
      rw [← or_and_left]
      simp only [Clear, decide_eq_true_eq]

/-- The report of no keys at all. -/
def noKeys : Report := fun _ => 0#8

theorem stored_noKeys : stored noKeys = fun _ => 0#8 := by
  funext i
  unfold stored noKeys
  split <;> rfl

/-- **When key presses are reported exactly.**  From a keyboard that has not
sent anything yet, the observers are told of the keys pressed, report by
report, if and only if there is no observer, or no key is pressed whose code
is the previous report's modifier byte or reserved byte. -/
theorem reported_exactly_iff {d : HIDDriver} (hkind : d.kind = .keyboard)
    (hnew : d.previousBuf = fun _ => 0#8) {epId : EndpointID} (hin : epId.isIn = true) (h : Host)
    (envs : List Env) :
    observe epId d h envs = .ok (expected d.numObservers noKeys (envs.map (report d))) ↔
      d.numObservers = 0 ∨ Clear noKeys (envs.map (report d)) :=
  observe_eq_iff hkind (hnew.trans stored_noKeys.symm) hin h envs

/-- A keyboard with one observer. -/
def keyboard : HIDDriver := { HIDDriver.new 0x1000#64 .keyboard 0#8 with numObservers := 1 }

/-- The keyboard's buffer holds a report with a modifier byte and one key. -/
def typing (modifier key : BitVec 8) : Env :=
  { Env.zero poolAtMiB with
    mem := fun a =>
      if a = keyboard.buf then modifier else if a = keyboard.buf + 2#64 then key else 0#8 }

/-- The left Shift key goes down, and then the A key. -/
theorem reported_exactly_iff_shift_a :
    observe ⟨3⟩ keyboard ⟨0#64, []⟩ [typing 2 0, typing 2 4] =
        .ok (expected 1 noKeys ([typing 2 0, typing 2 4].map (report keyboard))) ↔
      keyboard.numObservers = 0 ∨ Clear noKeys ([typing 2 0, typing 2 4].map (report keyboard)) :=
  reported_exactly_iff rfl rfl rfl _ _

/-- The left Alt key goes down, whose bit among the modifiers is the code of
the A key, and then the A key: it is not reported. -/
theorem not_reported_exactly_alt_a :
    expected 1 noKeys ([typing 4 0, typing 4 4].map (report keyboard)) = [[], [.keyPush 4]] ∧
      observe ⟨3⟩ keyboard ⟨0#64, []⟩ [typing 4 0, typing 4 4] ≠ .ok [[], [.keyPush 4]] := by
  refine ⟨rfl, fun heq => ?_⟩
  have hclear := (observe_eq_iff rfl stored_noKeys.symm rfl _ _).mp heq
  exact absurd hclear (by decide)

end MikanOs.Usb.Keyboard
