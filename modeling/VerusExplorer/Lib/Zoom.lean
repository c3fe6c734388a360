import VerusExplorer.Lib.Traced

/-!
# A program on a part of the state

A program that works on a part of a larger state, and whose calls are seen as other calls.

* `Lens` — a part of a state that can be read and written.
* `zoom` — the program on the larger state; what holds of all that the calls are seen as holds of
  its calls (`callsIn_zoom`).
* `View` — a part of a state, with the calls that matter there.
* `Follows` — a program that does to the part what another one does and, of the calls that matter,
  makes those that the other's calls are seen as; it may make any others in between.
-/

namespace Traced

universe u

/-- A part of `τ`. -/
structure Lens (τ σ : Type*) where
  get : τ → σ
  put : σ → τ → τ
  get_put : ∀ s t, get (put s t) = s
  put_put : ∀ s s' t, put s' (put s t) = put s' t
  put_get : ∀ t, put (get t) t = t

variable {τ σ κ κ' ε : Type*} {α β : Type u} (l : Lens τ σ)

lemma bind_assoc' {γ : Type u} (x : Traced σ κ ε α) (f : α → Traced σ κ ε β)
    (g : β → Traced σ κ ε γ) : (x >>= f) >>= g = x >>= fun a => f a >>= g := by
  funext s
  cases hx : (x s).result with
  | error e => rw [bind_error (by rw [bind_error hx]), bind_error hx, bind_error hx]
  | ok a =>
      rw [bind_ok hx]
      cases hf : (f a (x s).state).result with
      | error e => rw [bind_error (by rw [bind_ok hx, hf]), bind_ok hx, bind_error hf]
      | ok b =>
          rw [bind_ok (by rw [bind_ok hx, hf]), bind_ok hx, bind_ok hf]
          simp only [List.append_assoc]

/-! ## Programs on the part -/

/-- `x` on its part of the state, each of its calls seen as `render` says. -/
def zoom (render : κ → List κ') (x : Traced σ κ ε α) : Traced τ κ' ε α := fun t =>
  ⟨(x (l.get t)).result, l.put (x (l.get t)).state t, (x (l.get t)).calls.flatMap render⟩

/-- Calls that are seen as calls that satisfy `p`. -/
lemma callsIn_zoom {render : κ → List κ'} {p : κ' → Prop} (h : ∀ c, ∀ c' ∈ render c, p c')
    (x : Traced σ κ ε α) : Keeps (callsIn p) (zoom l render x) := by
  intro t c hc
  obtain ⟨d, -, hd⟩ := List.mem_flatMap.mp hc
  exact h d c hd

/-! ## Programs that do the same to the part -/

/-- A part of a state, what the calls of its programs are seen as, and which calls matter. -/
structure View (τ σ κ κ' : Type*) extends Lens τ σ where
  render : κ → List κ'
  seen : κ' → Bool
  seen_render : ∀ c, ∀ c' ∈ render c, seen c' = true

variable {v : View τ σ κ κ'}

/-- The calls that matter. -/
def View.visible (v : View τ σ κ κ') (calls : List κ') : List κ' := calls.filter v.seen

lemma View.visible_append (c d : List κ') :
    v.visible (c ++ d) = v.visible c ++ v.visible d := List.filter_append ..

lemma View.visible_render (calls : List κ) :
    v.visible (calls.flatMap v.render) = calls.flatMap v.render := by
  refine List.filter_eq_self.mpr fun c' hc' => ?_
  obtain ⟨c, -, hc⟩ := List.mem_flatMap.mp hc'
  exact v.seen_render c c' hc

/-- `ran` ended as `ran'` did, left the part in the same state and made the same calls that
matter. -/
structure View.Agree (v : View τ σ κ κ') (ran : Ran τ κ' ε α) (ran' : Ran σ κ ε α) : Prop where
  result : ran.result = ran'.result
  state : v.get ran.state = ran'.state
  calls : v.visible ran.calls = ran'.calls.flatMap v.render

variable (v) in
/-- `x` ends as `y` does on the part, leaves it in the same state and makes the same calls that
matter. -/
def Follows (x : Traced τ κ' ε α) (y : Traced σ κ ε α) : Prop :=
  ∀ t, v.Agree (x t) (y (v.get t))

lemma follows_zoom (y : Traced σ κ ε α) : Follows v (zoom v.toLens v.render y) y :=
  fun _ => ⟨rfl, v.get_put _ _, v.visible_render _⟩

lemma follows_pure (a : α) : Follows v (pure a : Traced τ κ' ε α) (pure a : Traced σ κ ε α) :=
  fun _ => ⟨rfl, rfl, rfl⟩

lemma Follows.bind {x : Traced τ κ' ε α} {y : Traced σ κ ε α} {f : α → Traced τ κ' ε β}
    {g : α → Traced σ κ ε β} (hxy : Follows v x y) (hfg : ∀ a, Follows v (f a) (g a)) :
    Follows v (x >>= f) (y >>= g) := by
  intro t
  obtain ⟨hresult, hstate, hcalls⟩ := hxy t
  cases hr : (y (v.get t)).result with
  | error e =>
      rw [bind_error (hresult.trans hr), bind_error hr]
      exact ⟨rfl, hstate, hcalls⟩
  | ok a =>
      obtain ⟨hresult', hstate', hcalls'⟩ := hfg a (x t).state
      rw [bind_ok (hresult.trans hr), bind_ok hr]
      rw [hstate] at hresult' hstate' hcalls'
      refine ⟨hresult', hstate', ?_⟩
      rw [v.visible_append, hcalls, hcalls', List.flatMap_append]

/-- What does nothing to the part, and makes no call that matters, can be left out. -/
lemma Follows.bind_left {x : Traced τ κ' ε α} {f : α → Traced τ κ' ε β} {y : Traced σ κ ε β}
    (hx : ∀ t, ∃ a, v.Agree (x t) (⟨.ok a, v.get t, []⟩ : Ran σ κ ε α))
    (hf : ∀ a, Follows v (f a) y) : Follows v (x >>= f) y := by
  intro t
  obtain ⟨a, hresult, hstate, hcalls⟩ := hx t
  obtain ⟨hresult', hstate', hcalls'⟩ := hf a (x t).state
  rw [bind_ok hresult]
  rw [hstate] at hresult' hstate' hcalls'
  refine ⟨hresult', hstate', ?_⟩
  rw [v.visible_append, hcalls, hcalls']
  rfl

lemma Follows.bind_right {x : Traced τ κ' ε α} {f : α → Traced τ κ' ε α} {y : Traced σ κ ε α}
    (hxy : Follows v x y)
    (hf : ∀ a t, v.Agree (f a t) (⟨.ok a, v.get t, []⟩ : Ran σ κ ε α)) :
    Follows v (x >>= f) y := by
  intro t
  obtain ⟨hresult, hstate, hcalls⟩ := hxy t
  cases hr : (x t).result with
  | error e =>
      rw [bind_error hr]
      exact ⟨hr.symm.trans hresult, hstate, hcalls⟩
  | ok a =>
      obtain ⟨hresult', hstate', hcalls'⟩ := hf a (x t).state
      rw [bind_ok hr]
      refine ⟨hresult'.trans (hr.symm.trans hresult), hstate'.trans hstate, ?_⟩
      rw [v.visible_append, hcalls, hcalls']
      exact List.append_nil _

lemma Follows.attempt {x : Traced τ κ' ε α} {y : Traced σ κ ε α} (hxy : Follows v x y) :
    Follows v (attempt x) (attempt y) :=
  fun t => ⟨congrArg Except.ok (hxy t).result, (hxy t).state, (hxy t).calls⟩

lemma Follows.each {γ : Type u} {f : γ → Traced τ κ' ε PUnit} {g : γ → Traced σ κ ε PUnit}
    (hfg : ∀ a, Follows v (f a) (g a)) : ∀ as : List γ, Follows v (each f as) (each g as)
  | [] => follows_pure _
  | a :: as => (hfg a).bind fun _ => Follows.each hfg as

end Traced
