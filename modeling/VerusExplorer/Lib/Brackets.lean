import Mathlib.Data.Int.Notation
import Mathlib.Data.List.Basic
import Mathlib.Tactic.Lemma

/-!
# Balanced brackets

* `depth d bs` is how deep a sequence of brackets read at depth `d` ends, unless one of them closes
  nothing; `Balanced` sequences end where they start.
* `net` counts the opening brackets against the closing ones.  It is what `depth` adds
  (`depth_eq_net`), and is defined for every sequence.
-/

inductive BracketKind where
  | opn
  | cls
  | other
  deriving DecidableEq, Repr

namespace BracketKind

def delta : BracketKind → ℤ
  | opn => 1
  | cls => -1
  | other => 0

/-- Opening brackets less closing ones. -/
def net : List BracketKind → ℤ
  | [] => 0
  | b :: bs => b.delta + net bs

/-- The depth reached from depth `d`, unless a close finds nothing open. -/
def depth : ℕ → List BracketKind → Option ℕ
  | d, [] => some d
  | d, opn :: bs => depth (d + 1) bs
  | 0, cls :: _ => none
  | d + 1, cls :: bs => depth d bs
  | d, other :: bs => depth d bs

/-- Every close closes something, and nothing is left open. -/
def Balanced (bs : List BracketKind) : Prop := depth 0 bs = some 0

instance (bs : List BracketKind) : Decidable (Balanced bs) :=
  inferInstanceAs (Decidable (depth 0 bs = some 0))

@[simp] lemma delta_opn : opn.delta = 1 := rfl

@[simp] lemma delta_cls : cls.delta = -1 := rfl

@[simp] lemma delta_other : other.delta = 0 := rfl

@[simp] lemma net_nil : net [] = 0 := rfl

@[simp] lemma net_cons (b : BracketKind) (bs : List BracketKind) :
    net (b :: bs) = b.delta + net bs := rfl

@[simp] lemma depth_nil (d : ℕ) : depth d [] = some d := by
  cases d <;> rfl

@[simp] lemma depth_opn (d : ℕ) (bs : List BracketKind) :
    depth d (opn :: bs) = depth (d + 1) bs := by
  cases d <;> rfl

@[simp] lemma depth_cls_succ (d : ℕ) (bs : List BracketKind) :
    depth (d + 1) (cls :: bs) = depth d bs := rfl

@[simp] lemma depth_cls_zero (bs : List BracketKind) : depth 0 (cls :: bs) = none := rfl

@[simp] lemma depth_other (d : ℕ) (bs : List BracketKind) :
    depth d (other :: bs) = depth d bs := by
  cases d <;> rfl

lemma depth_append (xs ys : List BracketKind) :
    ∀ d : ℕ, depth d (xs ++ ys) = (depth d xs).bind fun d => depth d ys := by
  induction xs with
  | nil =>
      intro d
      simp
  | cons b xs ih =>
      intro d
      cases b with
      | opn => simp [ih]
      | other => simp [ih]
      | cls =>
          cases d with
          | zero => rfl
          | succ d => simp [ih]

/-- What is no bracket at the end changes nothing. -/
lemma balanced_concat_other (bs : List BracketKind) : Balanced (bs ++ [other]) ↔ Balanced bs := by
  rw [Balanced, depth_append, Balanced]
  cases depth 0 bs with
  | none => exact Iff.rfl
  | some d => simp

/-- The depth changes by the brackets that are open in the end. -/
lemma depth_eq_net (bs : List BracketKind) :
    ∀ {d e : ℕ}, depth d bs = some e → (e : ℤ) = d + net bs := by
  induction bs with
  | nil =>
      intro d e h
      obtain rfl : d = e := by simpa using h
      simp
  | cons b bs ih =>
      intro d e h
      rw [net_cons]
      cases b with
      | opn =>
          have := ih (by simpa using h)
          rw [delta_opn]
          omega
      | other =>
          have := ih (by simpa using h)
          rw [delta_other]
          omega
      | cls =>
          cases d with
          | zero => exact absurd h (by simp)
          | succ d =>
              have := ih (by simpa using h)
              rw [delta_cls]
              omega

lemma Balanced.net {bs : List BracketKind} (h : Balanced bs) : net bs = 0 := by
  have := depth_eq_net bs h
  omega

end BracketKind
