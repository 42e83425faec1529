import Mathlib.Logic.Relation

/-!
# MikanOs.Lib.Interaction

Programs that talk to an environment, and what comes of it.  An `Interaction`
asks operations one after another, each answered by the environment, and may
ask one again and again until an answer suits it.  The environment has a
state, answers as it likes within `answers`, and puts up with an operation in
just those states where it is `allowed`.

`Ensures` is total correctness: whatever the answers, every operation asked for
is allowed, the program comes to its end, and what it returns satisfies the
postcondition.  There is one rule for each way programs are put together
(`Ensures.ret`, `Ensures.perform`, `Ensures.bind`, `Ensures.await`); `ensures_iff` says what
that means for runs.  `Yields` is the same of programs that may fail, and
do not, and `Attains` of programs that may.
-/

/-- A program over operations `Op`, the answers to which are of type
`Ans op`. -/
inductive Interaction (Op : Type u) (Ans : Op → Type v) (α : Type w) : Type (max u v w)
  | ret (a : α)
  | ask (op : Op) (k : Ans op → Interaction Op Ans α)
  /-- `op` until `stop` holds of the answer -/
  | poll (op : Op) (stop : Ans op → Bool) (k : Ans op → Interaction Op Ans α)

/-- What a program talks to. -/
structure Environment (Op : Type u) (Ans : Op → Type v) where
  State : Type s
  /-- an operation that may be asked for -/
  allowed : State → Op → Prop
  /-- an answer, and the state it leaves -/
  answers : State → (op : Op) → Ans op → State → Prop
  responds : ∀ s op, allowed s op → ∃ a t, answers s op a t

namespace Interaction

variable {Op : Type u} {Ans : Op → Type v} {α β : Type w}

/-- One program after another. -/
def bind (p : Interaction Op Ans α) (f : α → Interaction Op Ans β) : Interaction Op Ans β :=
  match p with
  | ret a => f a
  | ask op k => ask op fun a => (k a).bind f
  | poll op stop k => poll op stop fun a => (k a).bind f

instance : Monad (Interaction Op Ans) where
  pure := ret
  bind := bind

/-- One operation. -/
def perform (op : Op) : Interaction Op Ans (Ans op) := ask op ret

/-- One operation until its answer suits. -/
def await (op : Op) (stop : Ans op → Bool) : Interaction Op Ans (Ans op) := poll op stop ret

/-! ## runs -/

section

variable (E : Environment.{u, v, s} Op Ans)

/-- A program and the state it finds. -/
abbrev Config (α : Type w) := Interaction Op Ans α × E.State

/-- One operation is answered. -/
inductive Step : Config E α → Config E α → Prop
  | ask {op : Op} {k : Ans op → Interaction Op Ans α} {s t : E.State} {a : Ans op}
      (answer : E.answers s op a t) : Step (.ask op k, s) (k a, t)
  | stop {op : Op} {stop : Ans op → Bool} {k : Ans op → Interaction Op Ans α} {s t : E.State}
      {a : Ans op} (answer : E.answers s op a t) (suits : stop a = true) :
      Step (.poll op stop k, s) (k a, t)
  | again {op : Op} {stop : Ans op → Bool} {k : Ans op → Interaction Op Ans α} {s t : E.State}
      {a : Ans op} (answer : E.answers s op a t) (fails : stop a = false) :
      Step (.poll op stop k, s) (.poll op stop k, t)

/-- What a program asks for next is allowed. -/
def Safe : Config E α → Prop
  | (.ret _, _) => True
  | (.ask op _, s) => E.allowed s op
  | (.poll op _ _, s) => E.allowed s op

/-- What every run from a configuration is like. -/
structure Runs (post : α → E.State → Prop) (c : Config E α) : Prop where
  /-- there is no endless one -/
  finite : Acc (fun d c => Step E c d) c
  /-- nothing is asked for that is not allowed -/
  safe : ∀ d, Relation.ReflTransGen (Step E) c d → Safe E d
  /-- where one stops, the program has returned what it should -/
  final : ∀ d, Relation.ReflTransGen (Step E) c d → (∀ e, ¬ Step E d e) →
    ∃ a t, d = (.ret a, t) ∧ post a t

/-! ## total correctness -/

/-- Whatever the answers, the program does nothing that is not allowed, and
ends with `post`. -/
inductive Ensures (post : α → E.State → Prop) : Interaction Op Ans α → E.State → Prop
  | ret {a : α} {s : E.State} (h : post a s) : Ensures post (.ret a) s
  | ask {op : Op} {k : Ans op → Interaction Op Ans α} {s : E.State} (allowed : E.allowed s op)
      (rest : ∀ a t, E.answers s op a t → Ensures post (k a) t) : Ensures post (.ask op k) s
  | poll {op : Op} {stop : Ans op → Bool} {k : Ans op → Interaction Op Ans α} {s : E.State}
      (allowed : E.allowed s op)
      (rest : ∀ a t, E.answers s op a t → stop a = true → Ensures post (k a) t)
      (again : ∀ a t, E.answers s op a t → stop a = false → Ensures post (.poll op stop k) t) :
      Ensures post (.poll op stop k) s

end

namespace Ensures

variable {E : Environment.{u, v, s} Op Ans} {post : α → E.State → Prop}

/-- What follows from the postcondition will do. -/
theorem mono {post' : α → E.State → Prop} {p : Interaction Op Ans α} {s : E.State}
    (h : Ensures E post p s) (himp : ∀ a t, post a t → post' a t) : Ensures E post' p s := by
  induction h with
  | ret hpost => exact .ret (himp _ _ hpost)
  | ask allowed _ ih => exact .ask allowed ih
  | poll allowed _ _ ih iha => exact .poll allowed ih iha

/-- A sequence, with what is known in between. -/
theorem bind {mid : β → E.State → Prop} {p : Interaction Op Ans β}
    {f : β → Interaction Op Ans α} {s : E.State} (h : Ensures E mid p s)
    (hf : ∀ b t, mid b t → Ensures E post (f b) t) : Ensures E post (p >>= f) s := by
  induction h with
  | ret hmid => exact hf _ _ hmid
  | ask allowed _ ih => exact .ask allowed ih
  | poll allowed _ _ ih iha => exact .poll allowed ih iha

/-- The same for programs that may fail: after a failure the rest is left
out. -/
theorem bindExcept {β γ : Type w} {mid : Except ε β → E.State → Prop}
    {post : Except ε γ → E.State → Prop} {p : ExceptT ε (Interaction Op Ans) β}
    {f : β → ExceptT ε (Interaction Op Ans) γ} {s : E.State} (h : Ensures E mid p.run s)
    (hok : ∀ b t, mid (.ok b) t → Ensures E post (f b).run t)
    (herror : ∀ e t, mid (.error e) t → post (.error e) t) : Ensures E post (p >>= f).run s := by
  refine bind h fun r t hmid => ?_
  cases r with
  | ok b => exact hok b t hmid
  | error e => exact .ret (herror e t hmid)

/-- One operation. -/
theorem perform (op : Op) {post : Ans op → E.State → Prop} {s : E.State}
    (allowed : E.allowed s op) (rest : ∀ a t, E.answers s op a t → post a t) :
    Ensures E post (Interaction.perform op) s :=
  .ask allowed fun a t h => .ret (rest a t h)

/-- A loop ends if what its operation leaves becomes less and less while the
answer does not suit. -/
theorem await (op : Op) {stop : Ans op → Bool} {post : Ans op → E.State → Prop}
    (inv : E.State → Prop) (measure : E.State → Nat)
    (hallowed : ∀ s, inv s → E.allowed s op)
    (hstop : ∀ s a t, inv s → E.answers s op a t → stop a = true → post a t)
    (hagain : ∀ s a t, inv s → E.answers s op a t → stop a = false →
      inv t ∧ measure t < measure s) {s : E.State} (h : inv s) :
    Ensures E post (Interaction.await op stop) s := by
  induction hn : measure s using Nat.strongRecOn generalizing s with
  | ind n ih =>
      refine .poll (hallowed s h) (fun a t ha hsuits => .ret (hstop s a t h ha hsuits)) ?_
      intro a t ha hfails
      obtain ⟨hinv, hless⟩ := hagain s a t h ha hfails
      exact ih (measure t) (hn ▸ hless) hinv rfl

end Ensures

/-! ## programs that may fail -/

section

variable (E : Environment.{u, v, s} Op Ans) {ε : Type w}

/-- The program does not fail, and ends with `post`. -/
def Yields (post : α → E.State → Prop) (p : ExceptT ε (Interaction Op Ans) α) (s : E.State) :
    Prop := Ensures E (fun r t => ∃ a, r = .ok a ∧ post a t) p.run s

end

namespace Yields

variable {E : Environment.{u, v, s} Op Ans} {ε : Type w} {post : α → E.State → Prop}

theorem pure {a : α} {s : E.State} (h : post a s) :
    Yields E post (Pure.pure a : ExceptT ε (Interaction Op Ans) α) s :=
  .ret ⟨a, rfl, h⟩

theorem mono {post' : α → E.State → Prop} {p : ExceptT ε (Interaction Op Ans) α} {s : E.State}
    (h : Yields E post p s) (himp : ∀ a t, post a t → post' a t) : Yields E post' p s :=
  Ensures.mono h fun _ _ ⟨a, ha, hpost⟩ => ⟨a, ha, himp a _ hpost⟩

/-- A program that cannot fail. -/
theorem lift {p : Interaction Op Ans α} {s : E.State} (h : Ensures E post p s) :
    Yields E post (ExceptT.lift p : ExceptT ε (Interaction Op Ans) α) s :=
  Ensures.bind h fun a _ hpost => .ret ⟨a, rfl, hpost⟩

/-- What follows a program that does not fail. -/
theorem seq {β : Type w} {mid : β → E.State → Prop} {post : Except ε α → E.State → Prop}
    {p : ExceptT ε (Interaction Op Ans) β} {f : β → ExceptT ε (Interaction Op Ans) α} {s : E.State}
    (h : Yields E mid p s) (hf : ∀ b t, mid b t → Ensures E post (f b).run t) :
    Ensures E post (p >>= f).run s := by
  refine Ensures.bindExcept h ?_ ?_
  · rintro b t ⟨_, ⟨⟩, hmid⟩
    exact hf b t hmid
  · rintro e t ⟨_, ⟨⟩, _⟩

theorem bind {β : Type w} {mid : β → E.State → Prop} {p : ExceptT ε (Interaction Op Ans) β}
    {f : β → ExceptT ε (Interaction Op Ans) α} {s : E.State} (h : Yields E mid p s)
    (hf : ∀ b t, mid b t → Yields E post (f b) t) : Yields E post (p >>= f) s :=
  h.seq hf

end Yields

section

variable (E : Environment.{u, v, s} Op Ans) {ε : Type w}

/-- Either of two ends. -/
def Attained {S : Type s} (post : α → S → Prop) (fail : ε → S → Prop) : Except ε α → S → Prop
  | .ok a => post a
  | .error e => fail e

/-- The program ends with `post`, or fails and leaves `fail`. -/
def Attains (post : α → E.State → Prop) (fail : ε → E.State → Prop)
    (p : ExceptT ε (Interaction Op Ans) α) (s : E.State) : Prop :=
  Ensures E (Attained post fail) p.run s

end

namespace Attains

variable {E : Environment.{u, v, s} Op Ans} {ε : Type w} {post : α → E.State → Prop}
  {fail : ε → E.State → Prop}

theorem pure {a : α} {s : E.State} (h : post a s) :
    Attains E post fail (Pure.pure a : ExceptT ε (Interaction Op Ans) α) s :=
  .ret h

theorem throw {e : ε} {s : E.State} (h : fail e s) :
    Attains E post fail (throw e : ExceptT ε (Interaction Op Ans) α) s :=
  .ret h

theorem mono {post' : α → E.State → Prop} {p : ExceptT ε (Interaction Op Ans) α} {s : E.State}
    (h : Attains E post fail p s) (himp : ∀ a t, post a t → post' a t) :
    Attains E post' fail p s := by
  refine Ensures.mono h fun r t hr => ?_
  cases r with
  | ok a => exact himp a t hr
  | error e => exact hr

/-- A program that cannot fail. -/
theorem lift {p : Interaction Op Ans α} {s : E.State} (h : Ensures E post p s) :
    Attains E post fail (ExceptT.lift p : ExceptT ε (Interaction Op Ans) α) s :=
  Ensures.bind h fun _ _ hpost => .ret hpost

/-- A sequence.  What the first part fails with the whole does. -/
theorem bind {β : Type w} {mid : β → E.State → Prop} {p : ExceptT ε (Interaction Op Ans) β}
    {f : β → ExceptT ε (Interaction Op Ans) α} {s : E.State} (h : Attains E mid fail p s)
    (hf : ∀ b t, mid b t → Attains E post fail (f b) t) : Attains E post fail (p >>= f) s :=
  Ensures.bindExcept h hf fun _ _ hfail => hfail

end Attains

/-! ## what it means for runs -/

namespace Ensures

variable {E : Environment.{u, v, s} Op Ans} {post : α → E.State → Prop}

theorem safe {c : Config E α} (h : Ensures E post c.1 c.2) : Safe E c := by
  obtain ⟨p, s⟩ := c
  cases h with
  | ret _ => trivial
  | ask allowed _ => exact allowed
  | poll allowed _ _ => exact allowed

/-- An answer leaves a program that still ends. -/
theorem step {c d : Config E α} (h : Ensures E post c.1 c.2) (hstep : Step E c d) :
    Ensures E post d.1 d.2 := by
  cases hstep with
  | ask answer =>
      cases h with
      | ask _ rest => exact rest _ _ answer
  | stop answer suits =>
      cases h with
      | poll _ rest _ => exact rest _ _ answer suits
  | again answer fails =>
      cases h with
      | poll _ _ again => exact again _ _ answer fails

/-- It stops only where it returns. -/
theorem final {c : Config E α} (h : Ensures E post c.1 c.2) (hstop : ∀ d, ¬ Step E c d) :
    ∃ a t, c = (.ret a, t) ∧ post a t := by
  obtain ⟨p, s⟩ := c
  cases h with
  | ret hpost => exact ⟨_, _, rfl, hpost⟩
  | ask allowed _ =>
      obtain ⟨a, t, ha⟩ := E.responds _ _ allowed
      exact absurd (.ask ha) (hstop _)
  | @poll op stop k s allowed _ _ =>
      obtain ⟨a, t, ha⟩ := E.responds _ _ allowed
      cases hsuits : stop a with
      | true => exact absurd (.stop ha hsuits) (hstop _)
      | false => exact absurd (.again ha hsuits) (hstop _)

/-- There is no endless run. -/
theorem acc {p : Interaction Op Ans α} {s : E.State} (h : Ensures E post p s) :
    Acc (fun d c => Step E c d) (p, s) := by
  induction h with
  | ret _ => exact ⟨_, fun d hd => nomatch hd⟩
  | ask _ _ ih =>
      refine ⟨_, fun d hd => ?_⟩
      cases hd with
      | ask answer => exact ih _ _ answer
  | poll _ _ _ ih iha =>
      refine ⟨_, fun d hd => ?_⟩
      cases hd with
      | stop answer suits => exact ih _ _ answer suits
      | again answer fails => exact iha _ _ answer fails

/-- And conversely. -/
theorem of_runs {c : Config E α} (h : Runs E post c) : Ensures E post c.1 c.2 := by
  obtain ⟨hfinite, hsafe, hfinal⟩ := h
  induction hfinite with
  | intro c _ ih =>
      have hnext : ∀ d, Step E c d → Ensures E post d.1 d.2 := fun d hd =>
        ih d hd (fun e he => hsafe e (.head hd he)) fun e he => hfinal e (.head hd he)
      obtain ⟨p, s⟩ := c
      have hallowed := hsafe _ .refl
      cases p with
      | ret a =>
          obtain ⟨_, _, heq, hpost⟩ := hfinal _ .refl fun _ hd => nomatch hd
          cases heq
          exact .ret hpost
      | ask op k => exact .ask hallowed fun a t ha => hnext _ (.ask ha)
      | poll op stop k =>
          exact .poll hallowed (fun a t ha hsuits => hnext _ (.stop ha hsuits))
            fun a t ha hfails => hnext _ (.again ha hfails)

end Ensures

/-- **Total correctness** is a statement about runs. -/
theorem ensures_iff {E : Environment.{u, v, s} Op Ans} {post : α → E.State → Prop}
    {p : Interaction Op Ans α} {s : E.State} : Ensures E post p s ↔ Runs E post (p, s) := by
  refine ⟨fun h => ?_, Ensures.of_runs⟩
  have hreach : ∀ d, Relation.ReflTransGen (Step E) (p, s) d → Ensures E post d.1 d.2 := by
    intro d hd
    induction hd with
    | refl => exact h
    | tail _ hlast ih => exact ih.step hlast
  exact ⟨h.acc, fun d hd => (hreach d hd).safe, fun d hd => (hreach d hd).final⟩

end Interaction
