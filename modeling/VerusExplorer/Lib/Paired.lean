import VerusExplorer.Lib.Zoom

/-!
# Two programs side by side

`Traced.Alike` compares two programs that start in one state.  Here they start in states that are
related, as those of a program that has cached something and one that has not.

* `Paired R f x y` — from related states both end the same way, in related states, and nothing but
  what `f` forgets of a call tells their calls apart.
* One rule for each way of composing.  In `Paired.get_bind` the two may read different states;
  `paired_zoom` is about a part on which related states agree.
-/

namespace Traced

universe u

variable {σ τ κ κ' ε : Type*} {α β : Type u}

def Paired (R : σ → τ → Prop) (f : κ → κ') (x : Traced σ κ ε α) (y : Traced τ κ ε α) : Prop :=
  ∀ s t, R s t → (x s).result = (y t).result ∧ (x s).calls.map f = (y t).calls.map f
    ∧ R (x s).state (y t).state

variable {R : σ → τ → Prop} {f : κ → κ'}

lemma paired_pure (a : α) :
    Paired R f (pure a : Traced σ κ ε α) (pure a : Traced τ κ ε α) :=
  fun _ _ h => ⟨rfl, rfl, h⟩

lemma paired_emit (c : κ) : Paired R f (emit c : Traced σ κ ε Unit) (emit c : Traced τ κ ε Unit) :=
  fun _ _ h => ⟨rfl, rfl, h⟩

lemma paired_modify {g : σ → σ} {g' : τ → τ} (hg : ∀ s t, R s t → R (g s) (g' t)) :
    Paired R f (modify g : Traced σ κ ε Unit) (modify g') :=
  fun s t h => ⟨rfl, rfl, hg s t h⟩

lemma Paired.bind {x : Traced σ κ ε α} {y : Traced τ κ ε α} {g : α → Traced σ κ ε β}
    {h : α → Traced τ κ ε β} (hxy : Paired R f x y) (hgh : ∀ a, Paired R f (g a) (h a)) :
    Paired R f (x >>= g) (y >>= h) := by
  intro s t hst
  obtain ⟨hresult, hcalls, hstate⟩ := hxy s t hst
  cases hr : (x s).result with
  | error e =>
      rw [bind_error hr, bind_error (hresult ▸ hr)]
      exact ⟨rfl, hcalls, hstate⟩
  | ok a =>
      obtain ⟨hresult', hcalls', hstate'⟩ := hgh a _ _ hstate
      rw [bind_ok hr, bind_ok (hresult ▸ hr)]
      refine ⟨hresult', ?_, hstate'⟩
      rw [List.map_append, List.map_append, hcalls, hcalls']

lemma Paired.get_bind {σ τ : Type u} {R : σ → τ → Prop} {g : σ → Traced σ κ ε α}
    {h : τ → Traced τ κ ε α} (hgh : ∀ s t, R s t → Paired R f (g s) (h t)) :
    Paired R f ((get : Traced σ κ ε σ) >>= g) ((get : Traced τ κ ε τ) >>= h) := by
  intro s t hst
  rw [bind_ok (x := get) rfl, bind_ok (x := get) rfl]
  exact hgh s t hst s t hst

lemma Paired.attempt {x : Traced σ κ ε α} {y : Traced τ κ ε α} (hxy : Paired R f x y) :
    Paired R f (attempt x) (attempt y) := by
  intro s t hst
  obtain ⟨hresult, hcalls, hstate⟩ := hxy s t hst
  exact ⟨congrArg Except.ok hresult, hcalls, hstate⟩

lemma Paired.each {g : α → Traced σ κ ε Unit} {h : α → Traced τ κ ε Unit}
    (hgh : ∀ a, Paired R f (g a) (h a)) :
    ∀ as : List α, Paired R f (Traced.each g as) (Traced.each h as)
  | [] => paired_pure ()
  | a :: as => (hgh a).bind fun _ => Paired.each hgh as

lemma Paired.fold {g : β → α → Traced σ κ ε β} {h : β → α → Traced τ κ ε β}
    (hgh : ∀ b a, Paired R f (g b a) (h b a)) :
    ∀ (as : List α) (b : β), Paired R f (Traced.fold g b as) (Traced.fold h b as)
  | [], b => paired_pure b
  | a :: as, b => (hgh b a).bind fun b => Paired.fold hgh as b

/-- A program on a part that is the same in related states. -/
lemma paired_zoom {ρ κ₀ : Type*} {l : Lens σ ρ} {l' : Lens τ ρ} {g : κ₀ → List κ}
    (hget : ∀ s t, R s t → l.get s = l'.get t)
    (hput : ∀ a s t, R s t → R (l.put a s) (l'.put a t)) (x : Traced ρ κ₀ ε α) :
    Paired R f (zoom l g x) (zoom l' g x) := by
  intro s t hst
  rw [zoom, zoom, ← hget s t hst]
  exact ⟨rfl, rfl, hput _ _ _ hst⟩

end Traced
