import VerusExplorer.Lib.Traced

/-!
# Protocols

A protocol says which calls may be made in which phase of a conversation.

* `Protocol`, `Protocol.after` — the phase after some calls, if they are all allowed.
* `Speaks δ q x P` — from the phase `q` on, `x` makes only calls that are allowed, and `P` relates
  how it ends to the phase it leaves.  There is one rule for each way of making programs.
-/

namespace Traced

universe u

/-- The phase after a call, if the call may be made. -/
abbrev Protocol (φ κ : Type*) := φ → κ → Option φ

variable {φ σ κ ε : Type*} {α β : Type u}

/-- The phase after some calls, if all of them may be made. -/
def Protocol.after (δ : Protocol φ κ) : φ → List κ → Option φ
  | q, [] => some q
  | q, c :: cs => (δ q c).bind fun q' => after δ q' cs

variable {δ : Protocol φ κ}

lemma after_cons {q q' : φ} {c : κ} (h : δ q c = some q') (cs : List κ) :
    δ.after q (c :: cs) = δ.after q' cs := by
  rw [Protocol.after, h]
  rfl

lemma after_append (q : φ) (cs ds : List κ) :
    δ.after q (cs ++ ds) = (δ.after q cs).bind fun q' => δ.after q' ds := by
  induction cs generalizing q with
  | nil => rfl
  | cons c cs ih =>
      rw [List.cons_append, Protocol.after, Protocol.after, Option.bind_assoc]
      exact congrArg _ (funext fun q' => ih q')

/-- Calls that keep the phase. -/
lemma after_eq_self {q : φ} {cs : List κ} (h : ∀ c ∈ cs, δ q c = some q) :
    δ.after q cs = some q := by
  induction cs with
  | nil => rfl
  | cons c cs ih =>
      rw [after_cons (h c List.mem_cons_self)]
      exact ih fun c' hc' => h c' (List.mem_cons_of_mem c hc')

/-- What every step keeps of the phase, and what it says of the call. -/
lemma forall_of_after {I : φ → Prop} {p : κ → Prop}
    (h : ∀ {q c q'}, I q → δ q c = some q' → I q' ∧ p c) {q q' : φ} {cs : List κ} (hq : I q)
    (hafter : δ.after q cs = some q') : I q' ∧ ∀ c ∈ cs, p c := by
  induction cs generalizing q with
  | nil =>
      obtain rfl := Option.some.inj hafter
      exact ⟨hq, fun _ hc => absurd hc List.not_mem_nil⟩
  | cons c cs ih =>
      obtain ⟨q₁, hstep, hafter⟩ := Option.bind_eq_some_iff.mp hafter
      obtain ⟨hq₁, hc⟩ := h hq hstep
      obtain ⟨hq', hcs⟩ := ih hq₁ hafter
      exact ⟨hq', List.forall_mem_cons.mpr ⟨hc, hcs⟩⟩

/-- A protocol that allows more. -/
lemma after_mono {δ' : Protocol φ κ} (h : ∀ {q c q'}, δ q c = some q' → δ' q c = some q')
    {q q' : φ} {cs : List κ} (hafter : δ.after q cs = some q') : δ'.after q cs = some q' := by
  induction cs generalizing q with
  | nil => exact hafter
  | cons c cs ih =>
      obtain ⟨q₁, hstep, hafter⟩ := Option.bind_eq_some_iff.mp hafter
      exact (after_cons (h hstep) cs).trans (ih hafter)

/-! ## Programs that keep to a protocol -/

/-- From `q` on `x` makes calls that are allowed; `P` relates how it ends to the phase it leaves. -/
def Speaks (δ : Protocol φ κ) (q : φ) (x : Traced σ κ ε α) (P : Except ε α → φ → Prop) : Prop :=
  ∀ s, ∃ q', δ.after q (x s).calls = some q' ∧ P (x s).result q'

/-- A program that returns leaves a phase that `I` holds of, one that stops a phase that `E` holds
of with the stop. -/
def Leaves (I : φ → Prop) (E : ε → φ → Prop) : Except ε α → φ → Prop
  | .ok _, q => I q
  | .error e, q => E e q

variable {q q' : φ} {P P' : Except ε α → φ → Prop} {I : φ → Prop} {E : ε → φ → Prop}

lemma Speaks.mono {x : Traced σ κ ε α} (h : Speaks δ q x P) (hP : ∀ r q', P r q' → P' r q') :
    Speaks δ q x P' := by
  intro s
  obtain ⟨q', hafter, hq'⟩ := h s
  exact ⟨q', hafter, hP _ _ hq'⟩

lemma speaks_pure {a : α} (h : P (.ok a) q) : Speaks δ q (pure a : Traced σ κ ε α) P :=
  fun _ => ⟨q, rfl, h⟩

lemma speaks_stop {e : ε} (h : P (.error e) q) : Speaks δ q (stop e : Traced σ κ ε α) P :=
  fun _ => ⟨q, rfl, h⟩

lemma speaks_ofExcept {r : Except ε α} (h : P r q) :
    Speaks δ q (ofExcept r : Traced σ κ ε α) P := by
  intro s
  rw [ofExcept_calls]
  exact ⟨q, rfl, h⟩

/-- A question, whatever the answer is. -/
lemma speaks_act {f : σ → α × σ} {calls : α → List κ}
    (h : ∀ a, ∃ q', δ.after q (calls a) = some q' ∧ P (.ok a) q') :
    Speaks δ q (act f calls : Traced σ κ ε α) P := fun s => h (f s).1

lemma Speaks.bind {x : Traced σ κ ε α} {f : α → Traced σ κ ε β} {Q : Except ε β → φ → Prop}
    (hx : Speaks δ q x P) (hok : ∀ a q', P (.ok a) q' → Speaks δ q' (f a) Q)
    (hstop : ∀ e q', P (.error e) q' → Q (.error e) q') : Speaks δ q (x >>= f) Q := by
  intro s
  obtain ⟨q', hafter, hq'⟩ := hx s
  cases hr : (x s).result with
  | error e =>
      rw [bind_error hr]
      rw [hr] at hq'
      exact ⟨q', hafter, hstop e q' hq'⟩
  | ok a =>
      rw [bind_ok hr]
      rw [hr] at hq'
      obtain ⟨q'', hafter', hq''⟩ := hok a q' hq' (x s).state
      refine ⟨q'', ?_, hq''⟩
      rw [after_append, hafter]
      exact hafter'

/-- The same, for programs that stop in one way. -/
lemma Speaks.bind_leaves {x : Traced σ κ ε α} {f : α → Traced σ κ ε β} {J : φ → Prop}
    (hx : Speaks δ q x (Leaves I E)) (hf : ∀ a q', I q' → Speaks δ q' (f a) (Leaves J E)) :
    Speaks δ q (x >>= f) (Leaves J E) :=
  hx.bind hf fun _ _ h => h

/-- How `x` ends is known from the value of its attempt. -/
lemma Speaks.attempt {x : Traced σ κ ε α} (h : Speaks δ q x P) :
    Speaks δ q (attempt x) fun r q' => ∃ r', r = .ok r' ∧ P r' q' := by
  intro s
  obtain ⟨q', hafter, hq'⟩ := h s
  exact ⟨q', hafter, _, rfl, hq'⟩

/-- A loop.  `I as` holds of the phase while the rounds of `as` are still to come. -/
lemma speaks_fold {γ : Type u} {f : β → γ → Traced σ κ ε β} {I : List γ → φ → Prop}
    (hf : ∀ b c cs q, I (c :: cs) q → Speaks δ q (f b c) (Leaves (I cs) E)) :
    ∀ (cs : List γ) (b : β) {q : φ}, I cs q → Speaks δ q (fold f b cs) (Leaves (I []) E)
  | [], _, _, h => speaks_pure h
  | c :: cs, b, _, h =>
      (hf b c cs _ h).bind_leaves fun b' _ hq' => speaks_fold hf cs b' hq'

lemma speaks_each {γ : Type*} {f : γ → Traced σ κ ε Unit} {I : List γ → φ → Prop}
    (hf : ∀ c cs q, I (c :: cs) q → Speaks δ q (f c) (Leaves (I cs) E)) :
    ∀ (cs : List γ) {q : φ}, I cs q → Speaks δ q (each f cs) (Leaves (I []) E)
  | [], _, h => speaks_pure h
  | c :: cs, _, h =>
      (hf c cs _ h).bind_leaves fun _ _ hq' => speaks_each hf cs hq'

/-! ## Programs that always return -/

/-- From `q` on `x` makes calls that are allowed and returns, in the phase `q'`. -/
def Moves (δ : Protocol φ κ) (q : φ) (x : Traced σ κ ε α) (q' : φ) : Prop :=
  ∀ s, δ.after q (x s).calls = some q' ∧ ∃ a, (x s).result = .ok a

lemma Moves.speaks {x : Traced σ κ ε α} (h : Moves δ q x q') (hP : ∀ a, P (.ok a) q') :
    Speaks δ q x P := by
  intro s
  obtain ⟨hafter, a, ha⟩ := h s
  exact ⟨q', hafter, ha ▸ hP a⟩

lemma Moves.bind {x : Traced σ κ ε α} {f : α → Traced σ κ ε β} {Q : Except ε β → φ → Prop}
    (hx : Moves δ q x q') (hf : ∀ a, Speaks δ q' (f a) Q) : Speaks δ q (x >>= f) Q := by
  refine Speaks.bind (P := fun r q'' => (∃ a, r = .ok a) ∧ q'' = q') ?_ ?_ ?_
  · exact hx.speaks fun a => ⟨⟨a, rfl⟩, rfl⟩
  · rintro a _ ⟨-, rfl⟩
    exact hf a
  · rintro e _ ⟨⟨_, h⟩, -⟩
    cases h

lemma moves_pure (a : α) : Moves δ q (pure a : Traced σ κ ε α) q := fun _ => ⟨rfl, a, rfl⟩

lemma moves_get {τ : Type u} : Moves δ q (get : Traced τ κ ε τ) q := fun t => ⟨rfl, t, rfl⟩

lemma moves_modify (f : σ → σ) : Moves δ q (modify f : Traced σ κ ε Unit) q :=
  fun _ => ⟨rfl, (), rfl⟩

lemma moves_emit {c : κ} (hc : δ q c = some q') : Moves δ q (emit c : Traced σ κ ε Unit) q' :=
  fun _ => ⟨after_cons hc [], (), rfl⟩

/-- A question after which the answer does not matter. -/
lemma moves_act {f : σ → α × σ} {calls : α → List κ}
    (h : ∀ a, δ.after q (calls a) = some q') : Moves δ q (act f calls : Traced σ κ ε α) q' :=
  fun s => ⟨h _, (f s).1, rfl⟩

end Traced
