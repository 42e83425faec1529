/-!
# MikanOs.Lib.Returns

Postconditions of computations in `Except`.  `Returns x post` says that what
`x` returns, if it returns, satisfies `post`; there is one rule for each way
such computations are put together, so that a proof about one follows its
text.  `bind_eq_ok` goes the other way and takes a computation that did
return apart.

This module depends only on the Lean 4 core library.
-/

/-- Whatever `x` returns satisfies `post`. -/
def Returns (x : Except ε α) (post : α → Prop) : Prop := ∀ a, x = .ok a → post a

namespace Returns

/-! ## peeling a computation apart -/

/-- A sequence returns when both its parts do. -/
theorem bind_eq_ok {x : Except ε α} {f : α → Except ε β} {b : β} :
    x >>= f = .ok b ↔ ∃ a, x = .ok a ∧ f a = .ok b := by
  cases x with
  | error e => simp [bind, Except.bind]
  | ok a => simp [bind, Except.bind]

/-- A sequence goes on with what its first part returns. -/
theorem bind_ok {x : Except ε α} {a : α} (h : x = .ok a) (f : α → Except ε β) :
    x >>= f = f a := by
  rw [h]
  rfl

theorem pure_eq_ok {a b : α} : (pure a : Except ε α) = .ok b ↔ a = b := by
  simp [pure, Except.pure]

theorem pure_mk_eq_ok {a c : α} {b d : β} :
    (pure (a, b) : Except ε (α × β)) = .ok (c, d) ↔ a = c ∧ b = d := by
  rw [pure_eq_ok, Prod.mk.injEq]

theorem throw_ne_ok {e : ε} {b : α} : (throw e : Except ε α) ≠ .ok b := by
  simp [throw, throwThe, MonadExceptOf.throw]

/-- A guarded computation returns when the guard holds and it returns itself. -/
theorem guard_eq_ok {c : Prop} [Decidable c] {x : Except ε α} {e : ε} {b : α} :
    (if c then x else throw e) = .ok b ↔ c ∧ x = .ok b := by
  by_cases hc : c
  · rw [if_pos hc]
    exact (and_iff_right hc).symm
  · rw [if_neg hc]
    exact ⟨fun h => absurd h throw_ne_ok, fun h => absurd h.1 hc⟩

/-! ## the rules -/

variable {post mid : α → Prop}

theorem of_pure {a : α} (h : post a) : Returns (pure a : Except ε α) post :=
  fun _ hb => pure_eq_ok.mp hb ▸ h

theorem of_throw (e : ε) : Returns (throw e : Except ε α) post :=
  fun _ hb => absurd hb throw_ne_ok

/-- A sequence, with what is known in between. -/
theorem bind {x : Except ε α} {f : α → Except ε β} {post : β → Prop} (hx : Returns x mid)
    (hf : ∀ a, mid a → Returns (f a) post) : Returns (x >>= f) post := by
  intro b hb
  obtain ⟨a, ha, hfa⟩ := bind_eq_ok.mp hb
  exact hf a (hx a ha) b hfa

/-- A sequence whose second part needs nothing of the first. -/
theorem seq {x : Except ε α} {f : α → Except ε β} {post : β → Prop}
    (hf : ∀ a, Returns (f a) post) : Returns (x >>= f) post :=
  have hany : Returns x fun _ => True := fun _ _ => trivial
  bind hany fun a _ => hf a

theorem ite {c : Prop} [Decidable c] {x y : Except ε α} (hx : c → Returns x post)
    (hy : ¬ c → Returns y post) : Returns (if c then x else y) post := by
  split
  · next h => exact hx h
  · next h => exact hy h

end Returns
