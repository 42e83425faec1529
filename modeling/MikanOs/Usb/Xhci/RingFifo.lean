import MikanOs.Lib.Run
import MikanOs.Usb.Xhci.Ring

/-!
# MikanOs.Usb.Xhci.RingFifo

A ring between the driver and the controller: `Ring::Push` on one side, one
32-bit store at a time, and on the other a consumer that knows nothing of the
driver's members and goes by the cycle bits in memory.

`Step` interleaves the two in every order.  The invariant `Inv` says that the
buffer is two lap rings (`Segment`): the slots before the last entry, which
hold the TRBs pushed, and the last entry by itself, which holds one Link TRB
per lap.  `lossless` reads the contract of the ring off it.
-/

namespace MikanOs.Usb.Xhci

open LapRing Relation

/-! ## the consumer -/

/-- An xHCI consumer: where it looks next, and the cycle bit it expects
there. -/
structure Consumer where
  ptr : BitVec 64
  cycleState : Bool

/-- What a consumer does with the TRB it looks at: nothing if the cycle bit
is not its own, else follow a Link TRB or take any other. -/
def Consumer.step (c : Consumer) (t : Trb) : Option (Consumer × Option Trb) :=
  if TRB.cycle t = c.cycleState then
    if TRB.trbType.get t = LinkTRB.type then
      some (⟨LinkTRB.pointer t,
        if LinkTRB.toggleCycle.get t = 1#1 then !c.cycleState else c.cycleState⟩, none)
    else some (⟨c.ptr + 16#64, c.cycleState⟩, some t)
  else none

/-! ## the two sides together -/

/-- A ring in use: the stores left of the `Push` in progress, every TRB whose
`Push` has begun, and every TRB the consumer has taken. -/
structure Fifo where
  ring : Ring
  pending : List Store
  pushed : List Trb
  consumer : Consumer
  taken : List Trb

namespace Fifo

/-- A ring before its first `Push`: the consumer starts at `Buffer()` with
cycle state 1. -/
def start (r : Ring) : Fifo := ⟨r, [], [], ⟨r.buf, true⟩, []⟩

/-- The driver calls `Push`. -/
def push (s : Fifo) (data : Trb) : Fifo :=
  { s with ring := s.ring.advance, pending := s.ring.pushStores data, pushed := s.pushed ++ [data] }

/-- The next store of the `Push` in progress reaches memory. -/
def store (s : Fifo) (st : Store) (rest : List Store) : Fifo :=
  { s with ring := { s.ring with trbs := storeWord s.ring.trbs st }, pending := rest }

/-- The consumer looks at the TRB at its pointer. -/
def consume (s : Fifo) : Option Fifo :=
  (s.ring.trbAt s.consumer.ptr).bind fun t =>
    (s.consumer.step t).map fun (c, taken) =>
      { s with consumer := c, taken := s.taken ++ taken.toList }

/-- One step of either side.  A `Push` needs room: no more than `B - 2` TRBs
are ever waiting. -/
inductive Step : Fifo → Fifo → Prop
  | push (s : Fifo) (data : Trb) (idle : s.pending = [])
      (type : TRB.trbType.get data ≠ LinkTRB.type)
      (room : s.pushed.length + 1 ≤ s.taken.length + (s.ring.bufSize - 2)) :
      Step s (s.push data)
  | store (s : Fifo) (st : Store) (rest : List Store) (next : s.pending = st :: rest) :
      Step s (s.store st rest)
  | consume (s s' : Fifo) (h : s.consume = some s') : Step s s'

/-- The stores left can be carried out one after another. -/
theorem run_stores (s : Fifo) : ReflTransGen Step s
    { s with
      ring := { s.ring with trbs := s.pending.foldl storeWord s.ring.trbs }
      pending := [] } := by
  obtain ⟨ring, pending, pushed, consumer, taken⟩ := s
  induction pending generalizing ring with
  | nil => exact .refl
  | cons st rest ih => exact .head (.store _ st rest rfl) (ih _)

/-- A `Push` the consumer does not interrupt is `Ring.push`. -/
theorem run_push (s : Fifo) (data : Trb) (idle : s.pending = [])
    (type : TRB.trbType.get data ≠ LinkTRB.type)
    (room : s.pushed.length + 1 ≤ s.taken.length + (s.ring.bufSize - 2)) :
    ReflTransGen Step s
      { s with ring := (s.ring.push data).2, pushed := s.pushed ++ [data] } := by
  have hrun := ReflTransGen.head (Step.push s data idle type room) (run_stores (s.push data))
  rw [Ring.push_eq]
  simpa [push, idle] using hrun

/-! ## the invariant -/

/-- The stores of the Link TRB that follow those of TRB number `n`. -/
def linkStores (N n : Nat) (link : Trb) : List Store :=
  if n % N + 1 = N then copyStores N (lapBit N n) link else []

/-- How far the `Push` in progress has come, when `n` TRBs and `links` Link
TRBs are complete in memory. -/
inductive Progress (N n links : Nat) (r : Ring) (pending : List Store) (pushed : List Trb) : Prop
  | idle (left : pending = []) (all : n = pushed.length) (laps : links = n / N)
  | writing (j : Nat) (hj : j < 4) (d : Trb) (last : n + 1 = pushed.length)
      (item : pushed[n]? = some d) (laps : links = n / N)
      (left : pending = (copyStores (n % N) (lapBit N n) d).drop j ++ linkStores N n r.link)
      (copied : Copied j r.trbs (n % N) d)
  | linking (j : Nat) (hj : j < 4) (all : n = pushed.length) (full : n = N * (links + 1))
      (left : pending = (copyStores N (lapBit 1 links) r.link).drop j)
      (copied : Copied j r.trbs N r.link)

/-- Where the consumer stands after taking `m` TRBs and following `followed`
Link TRBs. -/
inductive At (N m followed : Nat) (entry : Nat → BitVec 64) (c : Consumer) : Prop
  | slot (laps : followed = m / N) (ptr : c.ptr = entry (m % N)) (cycle : c.cycleState = lapBit N m)
  | link (full : m = N * (followed + 1)) (ptr : c.ptr = entry N)
      (cycle : c.cycleState = lapBit 1 followed)

/-- What holds in every reachable state. -/
structure Inv (N n links followed : Nat) (s : Fifo) : Prop where
  size : s.ring.bufSize = N + 1
  two_le : 2 ≤ N
  placed : s.ring.Placed
  index : s.ring.writeIndex = s.pushed.length % N
  cycle : s.ring.cycleBit = lapBit N s.pushed.length
  noLink : ∀ t ∈ s.pushed, TRB.trbType.get t ≠ LinkTRB.type
  room : s.pushed.length < s.taken.length + N
  prefix_eq : s.taken.map TRB.body = (s.pushed.map TRB.body).take s.taken.length
  data : Segment 0 N s.taken.length (s.pushed.take n) s.ring.trbs
  link : Segment N 1 followed (List.replicate links s.ring.link) s.ring.trbs
  progress : Progress N n links s.ring s.pending s.pushed
  pos : At N s.taken.length followed s.ring.entry s.consumer

/-- The invariant, for some progress of the two sides. -/
def Consistent (N : Nat) (s : Fifo) : Prop := ∃ n links followed, Inv N n links followed s

/-! ## laps -/

/-- The Link TRB of a lap carries the cycle bit of the lap. -/
theorem lapBit_one_div (N k : Nat) : lapBit 1 (k / N) = lapBit N k := by
  simp only [lapBit, Nat.div_one]

/-- A lap that ends here is full. -/
theorem full_of_mod {n N : Nat} (h : n % N + 1 = N) : n + 1 = N * (n / N + 1) := by
  have hn := Nat.div_add_mod n N
  rw [Nat.mul_add]
  omega

/-- Laps the consumer has gone through. -/
theorem At.le_followed {e : Nat → BitVec 64} (h : At N m followed e c) (hN : 0 < N)
    (hlt : N * links < m) : links ≤ followed := by
  cases h with
  | slot laps _ _ =>
      rw [laps, Nat.le_div_iff_mul_le hN, Nat.mul_comm]
      omega
  | link full _ _ =>
      rw [full] at hlt
      have hlaps := Nat.lt_of_mul_lt_mul_left hlt
      omega

/-! ## progress -/

theorem Progress.le_pushed {ts : List Trb} (h : Progress N n links r left ts) :
    n ≤ ts.length := by
  cases h with
  | idle _ all _ => omega
  | writing _ _ _ last _ _ _ _ => omega
  | linking _ _ all _ _ _ => omega

/-- With no store left, every TRB is complete. -/
theorem Progress.of_nil {ts : List Trb} (h : Progress N n links r [] ts) :
    n = ts.length ∧ links = n / N := by
  cases h with
  | idle _ all laps => exact ⟨all, laps⟩
  | writing j hj d _ _ _ left _ =>
      obtain ⟨st, hst, _⟩ := drop_copyStores (n % N) (lapBit N n) d hj
      rw [hst] at left
      contradiction
  | linking j hj _ _ left _ =>
      obtain ⟨st, hst, _⟩ := drop_copyStores N (lapBit 1 links) r.link hj
      rw [hst] at left
      contradiction

/-- Every store left goes to the slot being written or to the last entry. -/
theorem index_of_mem_copyStores (h : st ∈ copyStores i c d) : st.index = i := by
  simp only [copyStores, List.mem_cons, List.not_mem_nil, or_false] at h
  rcases h with rfl | rfl | rfl | rfl <;> rfl

/-! ## one step -/

/-- A store changes nothing but the buffer and the stores left. -/
theorem Inv.store {st : Store} (h : Inv N n links followed s)
    (data : Segment 0 N s.taken.length (s.pushed.take n') (storeWord s.ring.trbs st))
    (link : Segment N 1 followed (List.replicate links' s.ring.link) (storeWord s.ring.trbs st))
    (progress : Progress N n' links' { s.ring with trbs := storeWord s.ring.trbs st } rest
      s.pushed) :
    Inv N n' links' followed (s.store st rest) where
  size := h.size
  two_le := h.two_le
  placed := ⟨h.placed.nonnull, h.placed.aligned, h.placed.fits⟩
  index := h.index
  cycle := h.cycle
  noLink := h.noLink
  room := h.room
  prefix_eq := h.prefix_eq
  data := data
  link := link
  progress := progress
  pos := h.pos

/-- A store of the TRB being pushed. -/
theorem store_writing {st : Store} (h : Inv N n links followed s) (hj : j < 4)
    (last : n + 1 = s.pushed.length) (item : s.pushed[n]? = some d) (laps : links = n / N)
    (pending : s.pending = (copyStores (n % N) (lapBit N n) d).drop j ++
      linkStores N n s.ring.link)
    (copied : Copied j s.ring.trbs (n % N) d) (hnext : s.pending = st :: rest) :
    ∃ n' links', Inv N n' links' followed (s.store st rest) := by
  obtain ⟨st', hdrop, hindex, hword, hvalue⟩ := drop_copyStores (n % N) (lapBit N n) d hj
  rw [hnext, hdrop, List.cons_append] at pending
  obtain ⟨rfl, hrest⟩ := List.cons.inj pending
  have htwo := h.two_le
  have hslot : n % N < N := Nat.mod_lt n (by omega)
  have hlen : (s.pushed.take n).length = n := by rw [List.length_take]; omega
  have hroom : (s.pushed.take n).length < s.taken.length + N := by have := h.room; omega
  have hat : st.index = 0 + (s.pushed.take n).length % N := by rw [hlen, hindex, Nat.zero_add]
  have hlink : Segment N 1 followed (List.replicate links s.ring.link)
      (storeWord s.ring.trbs st) := h.link.congr fun i hi _ => storeWord_ne _ (by omega)
  rw [← hindex] at copied
  by_cases hj3 : j = 3
  · subst hj3
    rw [if_pos rfl] at hvalue
    have hself := storeWord_last copied hword hvalue
    have hdata : Segment 0 N s.taken.length (s.pushed.take (n + 1))
        (storeWord s.ring.trbs st) := by
      rw [List.take_add_one, item]
      refine h.data.commit hroom (fun i hi => storeWord_ne _ (by omega)) ?_
      rw [← hat, hself, hlen]
    have hleft : rest = linkStores N n s.ring.link := hrest
    by_cases hfull : n % N + 1 = N
    · -- the last slot before the end: the Link TRB comes next
      rw [linkStores, if_pos hfull] at hleft
      refine ⟨n + 1, links, h.store hdata hlink
        (.linking 0 (by decide) last ?_ ?_ (copied_zero _ _ _))⟩
      · rw [laps]; exact full_of_mod hfull
      · rw [laps, lapBit_one_div]; exact hleft
    · rw [linkStores, if_neg hfull] at hleft
      refine ⟨n + 1, links, h.store hdata hlink (.idle hleft last ?_)⟩
      rw [laps, succ_div (by omega), if_neg hfull]
  · rw [if_neg hj3] at hvalue
    have hw3 : st.word ≠ 3 := fun hw => hj3 (by rw [← hword, hw]; rfl)
    refine ⟨n, links, h.store (h.data.scribble hroom hat hw3) hlink
      (.writing (j + 1) (by omega) d last item laps hrest ?_)⟩
    have hcopied := copied_succ copied hword hvalue
    rwa [hindex] at hcopied

/-- A store of the Link TRB. -/
theorem store_linking {st : Store} (h : Inv N n links followed s) (hj : j < 4)
    (all : n = s.pushed.length) (full : n = N * (links + 1))
    (pending : s.pending = (copyStores N (lapBit 1 links) s.ring.link).drop j)
    (copied : Copied j s.ring.trbs N s.ring.link) (hnext : s.pending = st :: rest) :
    ∃ n' links', Inv N n' links' followed (s.store st rest) := by
  obtain ⟨st', hdrop, hindex, hword, hvalue⟩ := drop_copyStores N (lapBit 1 links) s.ring.link hj
  rw [hnext, hdrop] at pending
  obtain ⟨rfl, hrest⟩ := List.cons.inj pending
  have htwo := h.two_le
  have hle : links ≤ followed := by
    refine h.pos.le_followed (by omega) ?_
    have hroom := h.room
    rw [← all, full, Nat.mul_add] at hroom
    omega
  have hlen : (List.replicate links s.ring.link).length = links := List.length_replicate
  have hroom : (List.replicate links s.ring.link).length < followed + 1 := by omega
  have hat : st.index = N + (List.replicate links s.ring.link).length % 1 := by omega
  have hdata : Segment 0 N s.taken.length (s.pushed.take n) (storeWord s.ring.trbs st) :=
    h.data.congr fun i _ hi => storeWord_ne _ (by omega)
  rw [← hindex] at copied
  by_cases hj3 : j = 3
  · subst hj3
    rw [if_pos rfl] at hvalue
    have hself := storeWord_last copied hword hvalue
    have hlink : Segment N 1 followed (List.replicate (links + 1) s.ring.link)
        (storeWord s.ring.trbs st) := by
      rw [List.replicate_succ']
      refine h.link.commit hroom (fun i hi => storeWord_ne _ (by omega)) ?_
      rw [← hat, hself, hlen]
    refine ⟨n, links + 1, h.store hdata hlink (.idle hrest all ?_)⟩
    rw [full, Nat.mul_div_cancel_left _ (by omega)]
  · rw [if_neg hj3] at hvalue
    have hw3 : st.word ≠ 3 := fun hw => hj3 (by rw [← hword, hw]; rfl)
    refine ⟨n, links, h.store hdata (h.link.scribble hroom hat hw3)
      (.linking (j + 1) (by omega) all full hrest ?_)⟩
    have hcopied := copied_succ copied hword hvalue
    rwa [hindex] at hcopied

/-- Every store keeps the invariant. -/
theorem store_inv {st : Store} (h : Inv N n links followed s) (hnext : s.pending = st :: rest) :
    ∃ n' links', Inv N n' links' followed (s.store st rest) := by
  cases h.progress with
  | idle pending _ _ =>
      rw [hnext] at pending
      contradiction
  | writing j hj d last item laps pending copied =>
      exact store_writing h hj last item laps pending copied hnext
  | linking j hj all full pending copied =>
      exact store_linking h hj all full pending copied hnext

/-- Beginning a `Push` keeps the invariant. -/
theorem push_inv (h : Inv N n links followed s) (idle : s.pending = [])
    (type : TRB.trbType.get data ≠ LinkTRB.type)
    (room : s.pushed.length + 1 ≤ s.taken.length + (s.ring.bufSize - 2)) :
    Inv N n links followed (s.push data) := by
  obtain ⟨hn, hlinks⟩ := (idle ▸ h.progress).of_nil
  have hsize := h.size
  have htwo := h.two_le
  have hN : s.ring.bufSize - 1 = N := by omega
  have htaken := h.data.taken_le
  rw [List.length_take] at htaken
  obtain ⟨hindex, hcycle⟩ := Ring.advance_members (r := s.ring) (n := s.pushed.length) (by omega)
    (hN ▸ h.index) (hN ▸ h.cycle)
  rw [hN] at hindex hcycle
  have hlen : (s.push data).pushed.length = s.pushed.length + 1 := List.length_append
  exact {
    size := by rw [push, Ring.advance_bufSize]; exact hsize
    two_le := htwo
    placed := Ring.placed_advance h.placed
    index := hlen ▸ hindex
    cycle := hlen ▸ hcycle
    noLink := by
      intro t ht
      cases List.mem_append.mp ht with
      | inl hold => exact h.noLink t hold
      | inr hnew => exact List.mem_singleton.mp hnew ▸ type
    room := by rw [hlen]; show _ < s.taken.length + N; omega
    prefix_eq := by
      show _ = ((s.pushed ++ [data]).map TRB.body).take s.taken.length
      rw [List.map_append, List.take_append_of_le_length (by rw [List.length_map]; omega)]
      exact h.prefix_eq
    data := by
      show Segment 0 N s.taken.length ((s.pushed ++ [data]).take n) s.ring.advance.trbs
      rw [List.take_append_of_le_length (by omega), Ring.advance_trbs]
      exact h.data
    link := by
      show Segment N 1 followed (List.replicate links s.ring.advance.link) s.ring.advance.trbs
      rw [Ring.advance_link, Ring.advance_trbs]
      exact h.link
    progress := by
      refine .writing 0 (by decide) data (by omega) ?_ hlinks ?_ (copied_zero _ _ _)
      · rw [hn]; exact List.getElem?_concat_length
      · show s.ring.pushStores data = copyStores _ _ data ++ linkStores N n s.ring.advance.link
        rw [Ring.pushStores, Ring.advance_link, linkStores, h.index, h.cycle, hN, hn]
        split
        · next hfull => rw [hfull]
        · rfl
    pos := by
      show At N s.taken.length followed s.ring.advance.entry s.consumer
      rw [Ring.advance_entry]
      exact h.pos }

/-! ## what the consumer sees -/

/-- At a slot the consumer goes on exactly when the TRB it is about to take
is complete, and then takes that TRB. -/
theorem consume_slot (h : Inv N n links followed s)
    (ptr : s.consumer.ptr = s.ring.entry (s.taken.length % N))
    (cycle : s.consumer.cycleState = lapBit N s.taken.length) :
    (s.taken.length < n → ∃ t, s.pushed[s.taken.length]?.map TRB.body = some (TRB.body t) ∧
        s.consume = some { s with
          consumer := ⟨s.ring.entry (s.taken.length % N + 1), lapBit N s.taken.length⟩
          taken := s.taken ++ [t] }) ∧
      (¬ s.taken.length < n → s.consume = none) := by
  have hsize := h.size
  have htwo := h.two_le
  have hpushed := h.progress.le_pushed
  have hslot : s.taken.length % N < N := Nat.mod_lt _ (by omega)
  have hlen : (s.pushed.take n).length = n := by rw [List.length_take]; omega
  have hlook := Ring.trbAt_entry h.placed (i := s.taken.length % N) (by omega)
  have hready := h.data.ready_iff
  rw [Nat.zero_add, hlen, ← cycle] at hready
  constructor
  · intro hlt
    have hitem : s.pushed[s.taken.length]? = some s.pushed[s.taken.length] :=
      List.getElem?_eq_getElem (by omega)
    have hbody := h.data.front (by omega)
    rw [Nat.zero_add, List.getElem_take] at hbody
    have htype : TRB.trbType.get (s.ring.trbs (s.taken.length % N)) ≠ LinkTRB.type := by
      rw [TRB.get_eq_of_body_eq (by decide) hbody]
      exact h.noLink _ (List.getElem_mem _)
    refine ⟨s.ring.trbs (s.taken.length % N), by rw [hitem, Option.map_some, hbody], ?_⟩
    simp only [consume, ptr, hlook, Consumer.step, hready.mpr hlt, if_true, htype, if_false,
      Option.bind_some, Option.map_some, Option.toList_some, Ring.entry_succ]
    rw [cycle]
  · intro hge
    simp only [consume, ptr, hlook, Consumer.step, mt hready.mp hge, if_false, Option.bind_some,
      Option.map_none]

/-- At the last entry the consumer goes on exactly when the Link TRB of its
lap is complete, and then returns to the start. -/
theorem consume_link (h : Inv N n links followed s) (ptr : s.consumer.ptr = s.ring.entry N)
    (cycle : s.consumer.cycleState = lapBit 1 followed) :
    (followed < links → s.consume =
        some { s with consumer := ⟨s.ring.entry 0, !lapBit 1 followed⟩ }) ∧
      (¬ followed < links → s.consume = none) := by
  have hsize := h.size
  have hlook := Ring.trbAt_entry h.placed (i := N) (by omega)
  have hready := h.link.ready_iff
  rw [Nat.mod_one, Nat.add_zero, List.length_replicate, ← cycle] at hready
  constructor
  · intro hlt
    have hbody := h.link.front (by rw [List.length_replicate]; exact hlt)
    rw [Nat.mod_one, Nat.add_zero, List.getElem_replicate] at hbody
    have htype : TRB.trbType.get (s.ring.trbs N) = LinkTRB.type :=
      (TRB.get_eq_of_body_eq (by decide) hbody).trans s.ring.trbType_link
    have htoggle : LinkTRB.toggleCycle.get (s.ring.trbs N) = 1#1 :=
      (TRB.get_eq_of_body_eq (by decide) hbody).trans s.ring.toggleCycle_link
    have hpointer : LinkTRB.pointer (s.ring.trbs N) = s.ring.entry 0 := by
      rw [Ring.entry_zero, ← Ring.pointer_link h.placed]
      unfold LinkTRB.pointer
      rw [TRB.get_eq_of_body_eq (by decide) hbody]
    simp only [consume, ptr, hlook, Consumer.step, hready.mpr hlt, if_true, htype, htoggle,
      hpointer, Option.bind_some, Option.map_some, Option.toList_none, List.append_nil]
    rw [cycle]
  · intro hge
    simp only [consume, ptr, hlook, Consumer.step, mt hready.mp hge, if_false, Option.bind_some,
      Option.map_none]

/-- Every step of the consumer keeps the invariant. -/
theorem consume_inv (h : Inv N n links followed s) (hc : s.consume = some s') :
    ∃ followed', Inv N n links followed' s' := by
  have htwo := h.two_le
  have hroom := h.room
  cases h.pos with
  | slot laps ptr cycle =>
      obtain ⟨hgo, hstay⟩ := consume_slot h ptr cycle
      by_cases hlt : s.taken.length < n
      · obtain ⟨t, hbody, hstep⟩ := hgo hlt
        obtain rfl := Option.some.inj (hc.symm.trans hstep)
        have hlen : (s.pushed.take n).length = n := by
          rw [List.length_take]; have := h.progress.le_pushed; omega
        have htaken : (s.taken ++ [t]).length = s.taken.length + 1 := List.length_append
        refine ⟨followed, { h with room := ?_, prefix_eq := ?_, data := ?_, pos := ?_ }⟩
        · show s.pushed.length < _
          rw [htaken]; omega
        · rw [htaken, List.map_append, List.take_add_one, List.getElem?_map, hbody, h.prefix_eq]
          rfl
        · rw [htaken]
          exact h.data.take (by omega)
        · rw [htaken]
          by_cases hfull : s.taken.length % N + 1 = N
          · refine .link ?_ (by rw [hfull]) (by rw [laps, lapBit_one_div])
            rw [laps]; exact full_of_mod hfull
          · refine .slot ?_ ?_ ?_
            · rw [succ_div (by omega), if_neg hfull]; exact laps
            · rw [succ_mod (by omega), if_neg hfull]
            · rw [lapBit_succ (by omega), if_neg hfull]
      · exact absurd (hc.symm.trans (hstay hlt)) (by simp)
  | link full ptr cycle =>
      obtain ⟨hgo, hstay⟩ := consume_link h ptr cycle
      by_cases hlt : followed < links
      · obtain rfl := Option.some.inj (hc.symm.trans (hgo hlt))
        have hlaps : s.taken.length / N = followed + 1 := by
          rw [full, Nat.mul_div_cancel_left _ (by omega)]
        have hbit : lapBit N s.taken.length = !lapBit 1 followed := by
          rw [← lapBit_one_div, hlaps, lapBit_add_lap (by decide)]
        refine ⟨followed + 1, { h with link := ?_, pos := .slot hlaps.symm ?_ hbit.symm }⟩
        · exact h.link.take (by rw [List.length_replicate]; exact hlt)
        · show s.ring.entry 0 = s.ring.entry (s.taken.length % N)
          rw [full, Nat.mul_mod_right]
      · exact absurd (hc.symm.trans (hstay hlt)) (by simp)

/-! ## what every run satisfies -/

/-- The entry that a store goes to: that of the TRB being written, or the link
at the end of a full lap. -/
theorem index_of_pending (h : Inv N n links followed s) (hst : st ∈ s.pending) :
    (st.index = n % N ∧ n + 1 = s.pushed.length) ∨
      (st.index = N ∧ s.pushed.length = N * (links + 1)) := by
  cases h.progress with
  | idle left _ _ =>
      rw [left] at hst
      exact (List.not_mem_nil hst).elim
  | writing j _ d last _ laps left _ =>
      rw [left] at hst
      cases List.mem_append.mp hst with
      | inl hd => exact .inl ⟨index_of_mem_copyStores (List.mem_of_mem_drop hd), last⟩
      | inr hl =>
          unfold linkStores at hl
          split at hl
          · next hfull =>
            refine .inr ⟨index_of_mem_copyStores hl, ?_⟩
            rw [← last, laps]
            exact full_of_mod hfull
          · exact (List.not_mem_nil hl).elim
  | linking j _ all full left _ =>
      rw [left] at hst
      exact .inr ⟨index_of_mem_copyStores (List.mem_of_mem_drop hst), all ▸ full⟩

/-- No step of the consumer reads an entry that has stores left. -/
theorem ptr_ne_of_pending (h : Inv N n links followed s) (hst : st ∈ s.pending)
    (hgo : s.consume.isSome) : s.consumer.ptr ≠ s.ring.entry st.index := by
  have hsize := h.size
  have htwo := h.two_le
  have hroom := h.room
  have hslot : n % N < N := Nat.mod_lt _ (by omega)
  have hindex := index_of_pending h hst
  have hle : st.index < s.ring.bufSize := by omega
  intro heq
  cases h.pos with
  | slot laps ptr cycle =>
      have htaken : s.taken.length % N < N := Nat.mod_lt _ (by omega)
      have hsame : s.taken.length % N = st.index :=
        Ring.entry_inj h.placed (by omega) hle (ptr.symm.trans heq)
      have hlt : s.taken.length < n := by
        refine Decidable.byContradiction fun hge => ?_
        rw [(consume_slot h ptr cycle).2 hge] at hgo
        contradiction
      cases hindex with
      | inl hd => exact mod_ne_mod hlt (by omega) (hsame.trans hd.1)
      | inr hl => omega
  | link full ptr cycle =>
      have hsame : N = st.index := Ring.entry_inj h.placed (by omega) hle (ptr.symm.trans heq)
      have hlt : followed < links := by
        refine Decidable.byContradiction fun hge => ?_
        rw [(consume_link h ptr cycle).2 hge] at hgo
        contradiction
      cases hindex with
      | inl hd => omega
      | inr hl =>
          rw [hl.2, full, ← Nat.mul_succ] at hroom
          have hlaps := Nat.lt_of_mul_lt_mul_left hroom
          omega

/-- When neither side has anything left to do, every TRB has been taken. -/
theorem taken_of_stuck (h : Inv N n links followed s) (idle : s.pending = [])
    (stuck : s.consume = none) : s.taken.length = s.pushed.length := by
  obtain ⟨hn, hlinks⟩ := (idle ▸ h.progress).of_nil
  have htwo := h.two_le
  have htaken := h.data.taken_le
  rw [List.length_take] at htaken
  refine Decidable.byContradiction fun hne => ?_
  cases h.pos with
  | slot laps ptr cycle =>
      obtain ⟨t, _, hstep⟩ := (consume_slot h ptr cycle).1 (by omega)
      rw [stuck] at hstep
      contradiction
  | link full ptr cycle =>
      have hlt : followed < links := by
        rw [hlinks, Nat.lt_iff_add_one_le, Nat.le_div_iff_mul_le (by omega), Nat.mul_comm, ← full]
        omega
      have hstep := (consume_link h ptr cycle).1 hlt
      rw [stuck] at hstep
      contradiction

/-- The invariant holds before the first `Push`. -/
theorem start_inv {r : Ring} (hr : r.Fresh) (hsize : 3 ≤ r.bufSize) :
    Inv (r.bufSize - 1) 0 0 0 (start r) where
  size := by show r.bufSize = _; omega
  two_le := by omega
  placed := hr.placed
  index := (hr.holds (by omega)).index
  cycle := (hr.holds (by omega)).cycle
  noLink t ht := absurd ht List.not_mem_nil
  room := by show 0 < 0 + (r.bufSize - 1); omega
  prefix_eq := rfl
  data := Segment.init 0 (by omega) hr.zero
  link := Segment.init _ (by decide) hr.zero
  progress := .idle rfl rfl (Nat.zero_div _).symm
  pos := by
    refine .slot (Nat.zero_div _).symm ?_ (lapBit_of_lt (by show 0 < _; omega)).symm
    show r.buf = r.entry (0 % _)
    rw [Nat.zero_mod, Ring.entry_zero]

/-- Every step keeps the invariant. -/
theorem step_consistent (s s' : Fifo) (h : Consistent N s) (hstep : Step s s') :
    Consistent N s' := by
  obtain ⟨n, links, followed, h⟩ := h
  cases hstep with
  | push data idle type room => exact ⟨n, links, followed, push_inv h idle type room⟩
  | store st rest next =>
      obtain ⟨n', links', h'⟩ := store_inv h next
      exact ⟨n', links', followed, h'⟩
  | consume _ hc =>
      obtain ⟨followed', h'⟩ := consume_inv h hc
      exact ⟨n, links, followed', h'⟩

/-- **Lossless FIFO**: in every interleaving of the driver's stores with the
consumer's steps, what the consumer has taken is, cycle bits aside, a prefix
of what has been pushed; it never reads an entry that still awaits a store;
and once it is stuck between pushes it has taken everything. -/
theorem lossless {r : Ring} (hr : r.Fresh) (hsize : 3 ≤ r.bufSize)
    (hrun : ReflTransGen Step (start r) s) :
    s.taken.map TRB.body <+: s.pushed.map TRB.body ∧
      (∀ st ∈ s.pending, s.consume.isSome → s.consumer.ptr ≠ s.ring.entry st.index) ∧
      (s.pending = [] → s.consume = none → s.taken.map TRB.body = s.pushed.map TRB.body) := by
  obtain ⟨n, links, followed, h⟩ :=
    Run.invariant step_consistent ⟨0, 0, 0, start_inv hr hsize⟩ hrun
  refine ⟨?_, fun st hst hgo => ptr_ne_of_pending h hst hgo, fun idle stuck => ?_⟩
  · rw [h.prefix_eq]
    exact List.take_prefix _ _
  · rw [h.prefix_eq, taken_of_stuck h idle stuck]
    exact List.take_of_length_le (Nat.le_of_eq (List.length_map _))

/-- A ring of three entries. -/
def smallRing : Ring := ⟨0x1000#64, 3, fun _ => 0#128, true, 0⟩

theorem smallRing_fresh : smallRing.Fresh :=
  ⟨⟨by decide, by decide, by decide⟩, rfl, rfl, fun _ => rfl⟩

/-- A turn of the driver, which begins a `Push` or makes the next store of it,
or of the consumer. -/
inductive Turn
  | push (data : Trb)
  | store
  | consume

/-- A step, if it is one. -/
def turn (s : Fifo) : Turn → Option Fifo
  | .push data =>
      if s.pending = [] ∧ TRB.trbType.get data ≠ LinkTRB.type ∧
          s.pushed.length + 1 ≤ s.taken.length + (s.ring.bufSize - 2) then some (s.push data)
      else none
  | .store =>
      match s.pending with
      | [] => none
      | st :: rest => some (s.store st rest)
  | .consume => s.consume

theorem step_of_turn (s : Fifo) (t : Turn) (s' : Fifo) (h : s.turn t = some s') : Step s s' := by
  cases t with
  | push data =>
      rw [turn] at h
      split at h
      · next hpush =>
        obtain rfl := Option.some.inj h
        exact .push s data hpush.1 hpush.2.1 hpush.2.2
      · contradiction
  | store =>
      rw [turn] at h
      split at h
      · contradiction
      · next st rest hnext =>
        obtain rfl := Option.some.inj h
        exact .store s st rest hnext
  | consume => exact .consume s s' h

/-- Two TRBs that are pushed and taken, the second with the Link TRB, and the
beginning of the next `Push`. -/
def intoSecondLap : List Turn :=
  .push NormalTRB.new :: List.replicate 4 .store ++ [.consume] ++
    .push NormalTRB.new :: List.replicate 8 .store ++ [.consume, .consume] ++
    [.push NormalTRB.new, .store]

/-- `smallRing` in the middle of its third `Push`: the consumer has taken two
TRBs and followed the Link TRB back to the first entry. -/
theorem lossless_secondLap : ∃ s, ReflTransGen Step (start smallRing) s ∧
    (s.pushed.length, s.taken.length, s.pending.length) = (3, 2, 3) ∧
    (s.consumer.ptr, s.consumer.cycleState) = (0x1000#64, false) ∧
    s.taken.map TRB.body <+: s.pushed.map TRB.body ∧
      (∀ st ∈ s.pending, s.consume.isSome → s.consumer.ptr ≠ s.ring.entry st.index) ∧
      (s.pending = [] → s.consume = none → s.taken.map TRB.body = s.pushed.map TRB.body) := by
  have hturns : (intoSecondLap.foldlM turn (start smallRing)).map
      (fun s => ((s.pushed.length, s.taken.length, s.pending.length),
        (s.consumer.ptr, s.consumer.cycleState))) = some ((3, 2, 3), (0x1000#64, false)) := by
    decide +kernel
  obtain ⟨s, hrun, hat⟩ := Run.exists_of_foldlM step_of_turn hturns
  obtain ⟨hcounts, hconsumer⟩ := Prod.mk.inj hat
  exact ⟨s, hrun, hcounts, hconsumer, lossless smallRing_fresh (by decide) hrun⟩

end Fifo

end MikanOs.Usb.Xhci
