/-!
# MikanOs.Lib.Traced

Computations in `Except` that leave a trace.  `Traced.note` is the only way to
add to it; what is noted before a failure stays.  `Traces p x y` says that `x`
without its trace is `y`, and that all of its trace satisfies `p`.  There is one
rule for each way such computations are put together, so that a traced version
of a function is compared with the function itself by going through the text of
both.

This module depends only on the Lean 4 core library.
-/

/-- The outcome of a computation, and what it has noted in order. -/
structure Traced (Item : Type u) (ε : Type v) (α : Type w) where
  items : List Item
  result : Except ε α

namespace Traced

variable {Item : Type u} {ε : Type v} {α β : Type w}

/-- A computation without a trace. -/
def lift (y : Except ε α) : Traced Item ε α := ⟨[], y⟩

/-- A computation that fails. -/
def fail (e : ε) : Traced Item ε α := ⟨[], .error e⟩

/-- One thing more on the trace. -/
def note (i : Item) : Traced Item ε PUnit := ⟨[i], .ok ⟨⟩⟩

/-- One after the other. -/
protected def bind (x : Traced Item ε α) (f : α → Traced Item ε β) : Traced Item ε β :=
  match x.result with
  | .error e => ⟨x.items, .error e⟩
  | .ok a => ⟨x.items ++ (f a).items, (f a).result⟩

instance : Monad (Traced Item ε) where
  pure a := lift (.ok a)
  bind := Traced.bind

/-! ## what is on the trace -/

variable {x : Traced Item ε α} {f : α → Traced Item ε β} {a : α} {i : Item}

theorem bind_ok (h : x.result = .ok a) :
    x >>= f = ⟨x.items ++ (f a).items, (f a).result⟩ := by
  show x.bind f = _
  rw [Traced.bind, h]

/-- Nothing is taken off the trace again. -/
theorem mem_bind_left (h : i ∈ x.items) : i ∈ (x >>= f).items := by
  show i ∈ (x.bind f).items
  unfold Traced.bind
  cases x.result with
  | error e => exact h
  | ok a => exact List.mem_append_left _ h

theorem mem_bind_right (hx : x.result = .ok a) (h : i ∈ (f a).items) :
    i ∈ (x >>= f).items := by
  rw [bind_ok hx]
  exact List.mem_append_right _ h

end Traced

/-- Without its trace `x` is `y`, and its trace satisfies `p`. -/
structure Traces {Item : Type u} {ε : Type v} {α : Type w} (p : Item → Prop)
    (x : Traced Item ε α) (y : Except ε α) : Prop where
  result : x.result = y
  items : ∀ i ∈ x.items, p i

namespace Traces

variable {Item : Type u} {ε : Type v} {α β : Type w} {p : Item → Prop}

/-! ## the rules -/

theorem lift (y : Except ε α) : Traces p (Traced.lift y) y := ⟨rfl, fun _ hi => nomatch hi⟩

theorem pure (a : α) : Traces p (Pure.pure a) (Pure.pure a : Except ε α) := lift _

theorem fail (e : ε) : Traces p (Traced.fail e) (throw e : Except ε α) :=
  ⟨rfl, fun _ hi => nomatch hi⟩

theorem note {i : Item} (h : p i) : Traces p (Traced.note i) (.ok ⟨⟩ : Except ε PUnit) :=
  ⟨rfl, fun _ hi => List.mem_singleton.mp hi ▸ h⟩

/-- A sequence goes on with what its first part returns. -/
theorem bind {x : Traced Item ε α} {y : Except ε α} {f : α → Traced Item ε β}
    {g : α → Except ε β} (hx : Traces p x y) (hf : ∀ a, y = .ok a → Traces p (f a) (g a)) :
    Traces p (x >>= f) (y >>= g) := by
  obtain ⟨hresult, hitems⟩ := hx
  cases y with
  | error e =>
      have hbind : x >>= f = ⟨x.items, .error e⟩ := by
        show x.bind f = _
        rw [Traced.bind, hresult]
      rw [hbind]
      exact ⟨rfl, hitems⟩
  | ok a =>
      obtain ⟨hrest, hmore⟩ := hf a rfl
      rw [Traced.bind_ok hresult]
      exact ⟨hrest, fun i hi => (List.mem_append.mp hi).elim (hitems i) (hmore i)⟩

/-- A first part that only looks something up. -/
theorem bind_ok {x : Traced Item ε α} {a : α} {f : α → Traced Item ε β} {y : Except ε β}
    (hx : Traces p x (.ok a)) (hf : Traces p (f a) y) : Traces p (x >>= f) y :=
  hx.bind (g := fun _ => y) fun _ ha => Except.ok.inj ha ▸ hf

theorem ite {c : Prop} [Decidable c] {x x' : Traced Item ε α} {y y' : Except ε α}
    (h : c → Traces p x y) (h' : ¬ c → Traces p x' y') :
    Traces p (if c then x else x') (if c then y else y') := by
  split
  · next hc => exact h hc
  · next hc => exact h' hc

end Traces
