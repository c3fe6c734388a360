import Mathlib.Data.List.Basic
import Mathlib.Tactic.Lemma

/-!
# Programs that leave a trace

A program here changes a state, makes calls that an observer sees, and either returns a value or
stops.  What it did to the state and which calls it made before it stopped is kept.

* `Traced σ κ ε α` with `pure`, `bind`, `stop`, `attempt` (which turns a stop into a value) and
  the loops `each` and `fold`.
* `Ensures Q x` relates the state before to how `x` ends, the state after and the calls made.
* `Keeps R x` is the case of a relation that need not know the value.  If `R` *composes*
  (`Composes`), it holds of a program as soon as it holds of the primitives the program is made
  of: `keeps_bind`, `keeps_fold` and the other rules are one induction on the program, done once.
* `Collects P` is the same for a relation that says what a loop has dealt with so far.
* `Alike f x y` compares two programs: nothing but what `f` forgets of a call tells them apart.
* `StopsWith p x` is about what a program stops with.
* `CutShort e x y` compares a program that may run out of something with one that has more of it:
  `x` stops with `e`, or the two do the same.
-/

/-- How a run of a program ended, the state it left and the calls it made. -/
structure Ran (σ κ ε α : Type*) where
  result : Except ε α
  state : σ
  calls : List κ

/-- A program over a state `σ` that makes calls `κ` and may stop with an `ε`. -/
def Traced (σ κ ε α : Type*) := σ → Ran σ κ ε α

namespace Traced

universe u

variable {σ κ ε : Type*} {α β : Type u}

/-! ## Programs -/

protected def pure (a : α) : Traced σ κ ε α := fun s => ⟨.ok a, s, []⟩

protected def bind (x : Traced σ κ ε α) (f : α → Traced σ κ ε β) : Traced σ κ ε β := fun s =>
  match (x s).result with
  | .error e => ⟨.error e, (x s).state, (x s).calls⟩
  | .ok a =>
      let next := f a (x s).state
      ⟨next.result, next.state, (x s).calls ++ next.calls⟩

instance {σ κ ε : Type*} : Monad (Traced σ κ ε) where
  pure := Traced.pure
  bind := Traced.bind

/-- Stop here. -/
def stop (e : ε) : Traced σ κ ε α := fun s => ⟨.error e, s, []⟩

/-- Run a program to its end; how it ended is the value. -/
def attempt (x : Traced σ κ ε α) : Traced σ κ ε (Except ε α) := fun s =>
  ⟨.ok (x s).result, (x s).state, (x s).calls⟩

/-- Return the value or stop with the error. -/
def ofExcept : Except ε α → Traced σ κ ε α
  | .ok a => Traced.pure a
  | .error e => stop e

/-- Make one call. -/
def emit (c : κ) : Traced σ κ ε Unit := fun s => ⟨.ok (), s, [c]⟩

/-- Change the state and make the calls that go with it. -/
def act (f : σ → α × σ) (calls : α → List κ) : Traced σ κ ε α := fun s =>
  ⟨.ok (f s).1, (f s).2, calls (f s).1⟩

def get : Traced σ κ ε σ := fun s => ⟨.ok s, s, []⟩

def modify (f : σ → σ) : Traced σ κ ε Unit := fun s => ⟨.ok (), f s, []⟩

/-- A loop over a list with an accumulator. -/
def fold (f : β → α → Traced σ κ ε β) : β → List α → Traced σ κ ε β
  | b, [] => Traced.pure b
  | b, a :: as => Traced.bind (f b a) fun b => fold f b as

/-- A loop over a list. -/
def each (f : α → Traced σ κ ε Unit) : List α → Traced σ κ ε Unit
  | [] => Traced.pure ()
  | a :: as => Traced.bind (f a) fun _ => each f as

lemma bind_ok {x : Traced σ κ ε α} {f : α → Traced σ κ ε β} {s : σ} {a : α}
    (h : (x s).result = .ok a) :
    (x >>= f) s = ⟨(f a (x s).state).result, (f a (x s).state).state,
      (x s).calls ++ (f a (x s).state).calls⟩ := by
  show Traced.bind x f s = _
  rw [Traced.bind, h]

lemma bind_error {x : Traced σ κ ε α} {f : α → Traced σ κ ε β} {s : σ} {e : ε}
    (h : (x s).result = .error e) : (x >>= f) s = ⟨.error e, (x s).state, (x s).calls⟩ := by
  show Traced.bind x f s = _
  rw [Traced.bind, h]

/-- A program that returns has returned from its first part. -/
lemma exists_of_bind_ok {x : Traced σ κ ε α} {f : α → Traced σ κ ε β} {s : σ} {b : β}
    (h : ((x >>= f) s).result = .ok b) :
    ∃ a, (x s).result = .ok a ∧ (f a (x s).state).result = .ok b := by
  cases hr : (x s).result with
  | error e =>
      rw [bind_error hr] at h
      exact absurd h (by simp)
  | ok a =>
      rw [bind_ok hr] at h
      exact ⟨a, rfl, h⟩

lemma ofExcept_calls (r : Except ε α) (s : σ) :
    (ofExcept r : Traced σ κ ε α) s = ⟨r, s, []⟩ := by
  cases r <;> rfl

/-- A loop that only makes calls makes them in order. -/
lemma each_emit : ∀ (cs : List κ) (s : σ),
    (each emit cs : Traced σ κ ε Unit) s = ⟨.ok (), s, cs⟩
  | [], _ => rfl
  | c :: cs, s => by
      show Traced.bind (emit c) (fun _ => each emit cs) s = _
      rw [Traced.bind, show (emit c : Traced σ κ ε Unit) s = ⟨.ok (), s, [c]⟩ from rfl]
      simp only [each_emit cs s, List.singleton_append]

/-- A loop whose rounds only make calls makes those of the rounds, in order. -/
lemma each_calls {f : α → Traced σ κ ε PUnit} {g : α → List κ}
    (h : ∀ a s, f a s = ⟨.ok ⟨⟩, s, g a⟩) :
    ∀ (as : List α) (s : σ), each f as s = ⟨.ok ⟨⟩, s, as.flatMap g⟩
  | [], _ => rfl
  | a :: as, s => by
      show Traced.bind (f a) (fun _ => each f as) s = _
      rw [Traced.bind, h a s]
      simp only [each_calls h as s, List.flatMap_cons]

/-- A loop that makes one call a round. -/
lemma each_emit_map {γ : Type u} (f : γ → κ) (cs : List γ) (s : σ) :
    (each (fun c => emit (f c)) cs : Traced σ κ ε Unit) s = ⟨.ok (), s, cs.map f⟩ := by
  rw [List.map_eq_flatMap]
  exact each_calls (fun _ _ => rfl) cs s

/-! ## Running to the end -/

lemma isOk_bind {x : Traced σ κ ε α} {f : α → Traced σ κ ε β} {s : σ} :
    ((x >>= f) s).result.isOk = true
      ↔ ∃ a, (x s).result = .ok a ∧ (f a (x s).state).result.isOk = true := by
  cases hr : (x s).result with
  | error e =>
      rw [bind_error hr]
      simp [Except.isOk, Except.toBool]
  | ok a =>
      rw [bind_ok hr]
      simp

lemma result_of_isOk {r : Except ε Unit} (h : r.isOk = true) : r = .ok () := by
  cases r with
  | error e => exact absurd h (by simp [Except.isOk, Except.toBool])
  | ok u => rfl

/-- A loop runs to the end when each of its rounds does. -/
lemma isOk_each {f : α → Traced σ κ ε Unit} {p : α → Prop}
    (h : ∀ a s, (f a s).result.isOk = true ↔ p a) :
    ∀ (as : List α) (s : σ), (each f as s).result.isOk = true ↔ ∀ a ∈ as, p a
  | [], s => by
      constructor
      · intro _ a ha
        exact absurd ha List.not_mem_nil
      · intro _
        rfl
  | a :: as, s => by
      have hrun : each f (a :: as) s = (Traced.bind (f a) fun _ => each f as) s := rfl
      rw [List.forall_mem_cons, ← h a s, ← isOk_each h as (f a s).state, hrun, Traced.bind]
      cases (f a s).result <;> simp [Except.isOk, Except.toBool]

/-! ## What a program ensures -/

/-- However `x` runs, `Q` relates the state before, the result, the state after and the calls. -/
def Ensures (Q : σ → Except ε α → σ → List κ → Prop) (x : Traced σ κ ε α) : Prop :=
  ∀ s, Q s (x s).result (x s).state (x s).calls

/-! ## Relations that compose -/

/-- A relation between the states before and after and the calls in between, that may also say
whether the program returned (`true`) or stopped. -/
abbrev Rel (σ κ : Type*) := Bool → σ → σ → List κ → Prop

structure Composes (R : Rel σ κ) : Prop where
  nil : ∀ s, R true s s []
  append : ∀ {b s t u c d}, R true s t c → R b t u d → R b s u (c ++ d)
  stop : ∀ {s t c}, R true s t c → R false s t c

/-- Every run of `x` is related by `R`. -/
def Keeps (R : Rel σ κ) (x : Traced σ κ ε α) : Prop :=
  ∀ s, R (x s).result.isOk s (x s).state (x s).calls

variable {R : Rel σ κ}

lemma keeps_pure (hR : Composes R) (a : α) : Keeps R (pure a : Traced σ κ ε α) :=
  fun s => hR.nil s

lemma keeps_get (hR : Composes R) : Keeps R (get : Traced σ κ ε σ) := fun s => hR.nil s

lemma keeps_stop (hR : Composes R) (e : ε) : Keeps R (stop e : Traced σ κ ε α) :=
  fun s => hR.stop (hR.nil s)

lemma keeps_ofExcept (hR : Composes R) : ∀ r : Except ε α, Keeps R (ofExcept r : Traced σ κ ε α)
  | .ok a => keeps_pure hR a
  | .error e => keeps_stop hR e

lemma keeps_bind (hR : Composes R) {x : Traced σ κ ε α} {f : α → Traced σ κ ε β}
    (hx : Keeps R x) (hf : ∀ a, Keeps R (f a)) : Keeps R (x >>= f) := by
  intro s
  have hxs := hx s
  show R (Traced.bind x f s).result.isOk s (Traced.bind x f s).state (Traced.bind x f s).calls
  rw [Traced.bind]
  cases hr : (x s).result with
  | error e =>
      rw [hr] at hxs
      exact hxs
  | ok a =>
      rw [hr] at hxs
      exact hR.append hxs (hf a _)

lemma keeps_fold (hR : Composes R) {f : β → α → Traced σ κ ε β} (hf : ∀ b a, Keeps R (f b a)) :
    ∀ (as : List α) (b : β), Keeps R (fold f b as)
  | [], b => keeps_pure hR b
  | a :: as, b => keeps_bind hR (hf b a) fun b => keeps_fold hR hf as b

lemma keeps_each (hR : Composes R) {f : α → Traced σ κ ε Unit} :
    ∀ as : List α, (∀ a ∈ as, Keeps R (f a)) → Keeps R (each f as)
  | [], _ => keeps_pure hR ()
  | a :: as, hf =>
      keeps_bind hR (hf a (by simp)) fun _ =>
        keeps_each hR as fun b hb => hf b (List.mem_cons_of_mem a hb)

/-- Every call made satisfies `p`. -/
def callsIn (p : κ → Prop) : Rel σ κ := fun _ _ _ c => ∀ x ∈ c, p x

lemma composes_callsIn (p : κ → Prop) : Composes (callsIn (σ := σ) p) where
  nil _ _ h := absurd h List.not_mem_nil
  append h₁ h₂ x hx := (List.mem_append.mp hx).elim (h₁ x) (h₂ x)
  stop h := h

/-- A family of relations, one for each list of things that have been dealt with, that composes
along the lists. -/
structure Collects {γ : Type*} (P : List γ → Rel σ κ) : Prop where
  nil : ∀ s, P [] true s s []
  append : ∀ {xs ys b s t u c d}, P xs true s t c → P ys b t u d → P (xs ++ ys) b s u (c ++ d)
  stop : ∀ {xs s t c} (ys : List γ), P xs false s t c → P (xs ++ ys) false s t c

/-- The rule of a loop each round of which deals with the things `g` says. -/
lemma keeps_fold_flatMap {γ : Type*} {P : List γ → Rel σ κ} (hP : Collects P)
    {f : β → α → Traced σ κ ε β} (g : α → List γ) (hf : ∀ b a, Keeps (P (g a)) (f b a)) :
    ∀ (as : List α) (b : β), Keeps (P (as.flatMap g)) (fold f b as)
  | [], _ => fun s => hP.nil s
  | a :: as, b => by
      intro s
      have hround := hf b a s
      show P (g a ++ as.flatMap g) (Traced.bind (f b a) (fun b => fold f b as) s).result.isOk s
        (Traced.bind (f b a) (fun b => fold f b as) s).state
        (Traced.bind (f b a) (fun b => fold f b as) s).calls
      rw [Traced.bind]
      cases hr : (f b a s).result with
      | error e =>
          rw [hr] at hround
          exact hP.stop _ hround
      | ok b' =>
          rw [hr] at hround
          exact hP.append hround (keeps_fold_flatMap hP g hf as b' _)

/-- A relation that does not look at how the program ended holds of its attempt. -/
lemma keeps_attempt {x : Traced σ κ ε α} (hR : ∀ {s t c}, R false s t c → R true s t c)
    (hx : Keeps R x) : Keeps R (attempt x) := by
  intro s
  have hxs := hx s
  show R true s (x s).state (x s).calls
  cases hr : (x s).result with
  | error e =>
      rw [hr] at hxs
      exact hR hxs
  | ok a =>
      rw [hr] at hxs
      exact hxs

/-! ## Programs that are alike -/

/-- Both end the same way in the same state, and `f` makes their calls the same. -/
def Alike {κ' : Type*} (f : κ → κ') (x y : Traced σ κ ε α) : Prop :=
  ∀ s, (x s).result = (y s).result ∧ (x s).state = (y s).state
    ∧ (x s).calls.map f = (y s).calls.map f

section Alike

variable {κ' : Type*} {f : κ → κ'}

lemma Alike.refl (x : Traced σ κ ε α) : Alike f x x := fun _ => ⟨rfl, rfl, rfl⟩

lemma Alike.bind {x y : Traced σ κ ε α} {g h : α → Traced σ κ ε β} (hxy : Alike f x y)
    (hgh : ∀ a, Alike f (g a) (h a)) : Alike f (x >>= g) (y >>= h) := by
  intro s
  obtain ⟨hresult, hstate, hcalls⟩ := hxy s
  cases hr : (x s).result with
  | error e =>
      rw [bind_error hr, bind_error (hresult ▸ hr)]
      exact ⟨rfl, hstate, hcalls⟩
  | ok a =>
      obtain ⟨hresult', hstate', hcalls'⟩ := hgh a (x s).state
      rw [bind_ok hr, bind_ok (hresult ▸ hr), ← hstate]
      refine ⟨hresult', hstate', ?_⟩
      rw [List.map_append, List.map_append, hcalls, hcalls']

lemma Alike.each {g h : α → Traced σ κ ε Unit} (hgh : ∀ a, Alike f (g a) (h a)) :
    ∀ as : List α, Alike f (each g as) (each h as)
  | [] => .refl _
  | a :: as => (hgh a).bind fun _ => Alike.each hgh as

lemma Alike.fold {g h : β → α → Traced σ κ ε β} (hgh : ∀ b a, Alike f (g b a) (h b a)) :
    ∀ (as : List α) (b : β), Alike f (fold g b as) (fold h b as)
  | [], _ => .refl _
  | a :: as, b => (hgh b a).bind fun b => Alike.fold hgh as b

lemma Alike.attempt {x y : Traced σ κ ε α} (hxy : Alike f x y) :
    Alike f (attempt x) (attempt y) := by
  intro s
  obtain ⟨hresult, hstate, hcalls⟩ := hxy s
  exact ⟨congrArg Except.ok hresult, hstate, hcalls⟩

end Alike

/-! ## How programs stop -/

/-- Where `x` stops, `p` holds of what it stops with. -/
def StopsWith (p : ε → Prop) (x : Traced σ κ ε α) : Prop :=
  ∀ s e, (x s).result = .error e → p e

section StopsWith

variable {p : ε → Prop}

lemma stopsWith_of_ok {x : Traced σ κ ε α} (h : ∀ s, ∃ a, (x s).result = .ok a) :
    StopsWith p x := by
  intro s e he
  obtain ⟨a, ha⟩ := h s
  exact absurd (he.symm.trans ha) (by simp)

lemma StopsWith.bind {x : Traced σ κ ε α} {f : α → Traced σ κ ε β} (hx : StopsWith p x)
    (hf : ∀ a, StopsWith p (f a)) : StopsWith p (x >>= f) := by
  intro s e he
  cases hr : (x s).result with
  | error e' =>
      rw [bind_error hr] at he
      exact Except.error.inj he ▸ hx s e' hr
  | ok a =>
      rw [bind_ok hr] at he
      exact hf a _ e he

lemma StopsWith.each {f : α → Traced σ κ ε Unit} (hf : ∀ a, StopsWith p (f a)) :
    ∀ as : List α, StopsWith p (each f as)
  | [] => stopsWith_of_ok fun _ => ⟨_, rfl⟩
  | a :: as => (hf a).bind fun _ => StopsWith.each hf as

end StopsWith

/-- A loop that stops has stopped in one of its rounds, and has made its calls. -/
lemma exists_of_each_error {f : α → Traced σ κ ε Unit} {e : ε} :
    ∀ {as : List α} {s : σ}, (each f as s).result = .error e →
      ∃ a ∈ as, ∃ t, (f a t).result = .error e ∧ ∀ c ∈ (f a t).calls, c ∈ (each f as s).calls
  | [], _, h => absurd h (by simp [each, Traced.pure])
  | a :: as, s, h => by
      have hrun : each f (a :: as) s = (f a >>= fun _ => each f as) s := rfl
      rw [hrun] at h ⊢
      cases hr : (f a s).result with
      | error e' =>
          rw [bind_error hr] at h ⊢
          exact ⟨a, List.mem_cons_self, s, hr.trans h, fun _ hc => hc⟩
      | ok u =>
          rw [bind_ok hr] at h ⊢
          obtain ⟨b, hb, t, hstop, hcalls⟩ := exists_of_each_error h
          exact ⟨b, List.mem_cons_of_mem a hb, t, hstop,
            fun c hc => List.mem_append_right _ (hcalls c hc)⟩

/-! ## Programs that are cut short -/

/-- `x` stops with `e`, or does what `y` does. -/
def CutShort (e : ε) (x y : Traced σ κ ε α) : Prop := ∀ s, (x s).result = .error e ∨ y s = x s

section CutShort

variable {e : ε}

lemma CutShort.refl (x : Traced σ κ ε α) : CutShort e x x := fun _ => Or.inr rfl

lemma cutShort_stop (y : Traced σ κ ε α) : CutShort e (stop e) y := fun _ => Or.inl rfl

lemma CutShort.bind {x y : Traced σ κ ε α} {g h : α → Traced σ κ ε β} (hxy : CutShort e x y)
    (hgh : ∀ a, CutShort e (g a) (h a)) : CutShort e (x >>= g) (y >>= h) := by
  intro s
  cases hr : (x s).result with
  | error e' =>
      rw [bind_error hr]
      rcases hxy s with hcut | hsame
      · exact Or.inl (congrArg Except.error (Except.error.inj (hr.symm.trans hcut)))
      · right
        rw [bind_error (hsame ▸ hr), hsame]
  | ok a =>
      have hsame : y s = x s := (hxy s).resolve_left (by simp [hr])
      rw [bind_ok hr, bind_ok (hsame ▸ hr), hsame]
      rcases hgh a (x s).state with hcut | hnext
      · exact Or.inl hcut
      · exact Or.inr (by rw [hnext])

lemma CutShort.fold {g h : β → α → Traced σ κ ε β} (hgh : ∀ b a, CutShort e (g b a) (h b a)) :
    ∀ (as : List α) (b : β), CutShort e (fold g b as) (fold h b as)
  | [], _ => .refl _
  | a :: as, b => (hgh b a).bind fun b => CutShort.fold hgh as b

/-- Two programs cut short of a third do the same unless one of them stops. -/
lemma CutShort.eq_of_not_cut {x x' y : Traced σ κ ε α} (hx : CutShort e x y)
    (hx' : CutShort e x' y) {s : σ} (h : (x s).result ≠ .error e) (h' : (x' s).result ≠ .error e) :
    x s = x' s := by
  rw [← (hx s).resolve_left h, (hx' s).resolve_left h']

end CutShort

end Traced
