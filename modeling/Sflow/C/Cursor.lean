import Mathlib.Algebra.Ring.Int.Defs
import Mathlib.Data.List.Basic
import Mathlib.Tactic.Ring

/-!
# Cursors

A decoder that holds on to its whole input, the place it has come to and what it
remembers.  It looks at slices, which come out short at the end of the input, moves on
by a number of bytes whatever is there, and may raise an error at any time.

`Takes r bs s a s'` says what `r` does in front of `bs`, whatever is around them: it
returns `a`, goes behind them, and remembers `s'` where it remembered `s`.  Decoders
that meet such a specification compose along `>>=` and by repetition.
-/

namespace Sflow.C

variable {ε σ α β γ : Type}

/-- An input, a place in it, and what is remembered. -/
structure Cursor (σ : Type) where
  data : List UInt8
  pos : Nat
  mem : σ

/-- A decoder with errors `ε` that remembers a `σ`. -/
abbrev Scan (ε σ α : Type) := EStateM ε (Cursor σ) α

namespace Scan

/-- The next `n` bytes, or as many of them as there are. -/
def slice (n : Nat) : Scan ε σ (List UInt8) := fun c => .ok ((c.data.drop c.pos).take n) c

/-- Go on by `n` bytes, also over the end. -/
def move (n : Nat) : Scan ε σ Unit := fun c => .ok () { c with pos := c.pos + n }

/-- Change what is remembered. -/
def update (f : σ → σ) : Scan ε σ Unit := fun c => .ok () { c with mem := f c.mem }

/-- `n` times. -/
def times (r : Scan ε σ Unit) : Nat → Scan ε σ Unit
  | 0 => pure ()
  | n + 1 => do
      r
      times r n

/-- A decoder ends well if its first part does and the rest does from there. -/
theorem bind_ok_iff {r : Scan ε σ α} {k : α → Scan ε σ β} {c c' : Cursor σ} {b : β} :
    (r >>= k) c = .ok b c' ↔ ∃ a c₁, r c = .ok a c₁ ∧ k a c₁ = .ok b c' := by
  change EStateM.bind r k c = _ ↔ _
  rw [EStateM.bind]
  cases r c <;> simp

theorem bind_of_ok {r : Scan ε σ α} {k : α → Scan ε σ β} {c c' : Cursor σ} {a : α}
    (h : r c = .ok a c') : (r >>= k) c = k a c' := by
  change EStateM.bind r k c = _
  rw [EStateM.bind, h]

theorem bind_of_error {r : Scan ε σ α} {k : α → Scan ε σ β} {c c' : Cursor σ} {e : ε}
    (h : r c = .error e c') : (r >>= k) c = .error e c' := by
  change EStateM.bind r k c = _
  rw [EStateM.bind, h]

/-- The last time can be told apart as well as the first. -/
theorem times_succ (r : Scan ε σ Unit) (n : Nat) :
    times r (n + 1) = times r n >>= fun _ => r := by
  induction n with
  | zero =>
      funext c
      change EStateM.bind r (fun _ => pure ()) c = r c
      rw [EStateM.bind]
      cases r c <;> rfl
  | succ n ih =>
      change (r >>= fun _ => times r (n + 1)) = (r >>= fun _ => times r n) >>= fun _ => r
      rw [ih, bind_assoc]

/-- What every time adds to `φ` adds up. -/
theorem add_of_times {r : Scan ε σ Unit} {φ : Cursor σ → Int} {k : Int}
    (h : ∀ c c', r c = .ok () c' → φ c' = φ c + k) {n : Nat} {c c' : Cursor σ}
    (hr : times r n c = .ok () c') : φ c' = φ c + n * k := by
  induction n generalizing c with
  | zero =>
      cases hr
      simp
  | succ n ih =>
      obtain ⟨⟨⟩, c₁, hfirst, hrest⟩ := bind_ok_iff.mp hr
      rw [ih hrest, h c c₁ hfirst, Nat.cast_succ]
      ring

end Scan

open Scan

/-- In front of `bs` and remembering `s`, `r` takes `bs`, returns `a` and remembers `s'`. -/
def Takes (r : Scan ε σ α) (bs : List UInt8) (s : σ) (a : α) (s' : σ) : Prop :=
  ∀ pre rest, r ⟨pre ++ (bs ++ rest), pre.length, s⟩ =
    .ok a ⟨pre ++ (bs ++ rest), pre.length + bs.length, s'⟩

theorem takes_pure (a : α) (s : σ) : Takes (pure a : Scan ε σ α) [] s a s := fun _ _ ↦ rfl

theorem takes_update (f : σ → σ) (s : σ) : Takes (update f : Scan ε σ Unit) [] s () (f s) :=
  fun _ _ ↦ rfl

/-- A slice of the length of what is there. -/
theorem slice_front (pre bs rest : List UInt8) (s : σ) :
    (slice bs.length : Scan ε σ _) ⟨pre ++ (bs ++ rest), pre.length, s⟩ =
      .ok bs ⟨pre ++ (bs ++ rest), pre.length, s⟩ := by
  rw [slice, List.drop_left, List.take_left]

/-- Looking at `bs` and going on as far. -/
theorem takes_slice {bs : List UInt8} {n : Nat} (hn : bs.length = n) {k : List UInt8 → Scan ε σ α}
    {s s' : σ} {a : α} (hk : ∀ c : Cursor σ, c.mem = s →
      k bs c = .ok a ⟨c.data, c.pos + n, s'⟩) : Takes (slice n >>= k) bs s a s' := by
  subst hn
  intro pre rest
  rw [bind_of_ok (slice_front pre bs rest s), hk _ rfl]

theorem Takes.bind_run {r : Scan ε σ α} {k : α → Scan ε σ β} {u : List UInt8} {s s' : σ} {a : α}
    (hr : Takes r u s a s') (pre rest : List UInt8) :
    (r >>= k) ⟨pre ++ (u ++ rest), pre.length, s⟩ =
      k a ⟨pre ++ (u ++ rest), pre.length + u.length, s'⟩ :=
  bind_of_ok (hr pre rest)

theorem Takes.bind {r : Scan ε σ α} {k : α → Scan ε σ β} {u v : List UInt8} {s s' s'' : σ} {a : α}
    {b : β} (hr : Takes r u s a s') (hk : Takes (k a) v s' b s'') :
    Takes (r >>= k) (u ++ v) s b s'' := by
  intro pre rest
  have hrest := hk (pre ++ u) rest
  rw [List.length_append, List.append_assoc] at hrest
  rw [List.append_assoc, hr.bind_run, hrest, List.length_append, Nat.add_assoc]

/-- The last step of a decoder that moves no further. -/
theorem Takes.bind_nil {r : Scan ε σ α} {k : α → Scan ε σ β} {u : List UInt8} {s s' s'' : σ}
    {a : α} {b : β} (hr : Takes r u s a s') (hk : Takes (k a) [] s' b s'') :
    Takes (r >>= k) u s b s'' := by
  have h := hr.bind hk
  rwa [List.append_nil] at h

/-- Items that are each taken are taken one after the other. -/
theorem takes_times {r : Scan ε σ Unit} {wire : γ → List UInt8} (next : σ → γ → σ) {xs : List γ}
    (h : ∀ x ∈ xs, ∀ s, Takes r (wire x) s () (next s x)) (s : σ) :
    Takes (times r xs.length) (xs.flatMap wire) s () (xs.foldl next s) := by
  induction xs generalizing s with
  | nil => exact takes_pure () s
  | cons x xs ih =>
      have hrest := ih (fun y hy ↦ h y (List.mem_cons_of_mem _ hy)) (next s x)
      rw [List.flatMap_cons]
      exact (h x List.mem_cons_self s).bind hrest

end Sflow.C
