import Mathlib.Algebra.Group.Defs
import Mathlib.Data.List.Basic
import Mathlib.Data.List.Nodup
import Mathlib.Logic.Function.Basic
import Mathlib.Logic.Nontrivial.Defs

/-!
# Memory that was never set

A C program may read a variable before anything was stored in it.  What it
computes then is a function of whatever lay there.  Such a value is `Steady` if
it comes out the same whatever that was.

A getter that ignores its failure returns `o.getD x` for the answer `o` and the
unset `x`.  It is steady exactly if there was an answer, and so is a sum of such
values, as long as no two of them lie in the same memory.
-/

namespace Sflow.C

variable {G H ι α β : Type}

/-- Whatever lies in the memory, the value is the same. -/
def Steady (f : G → α) : Prop := ∀ g g', f g = f g'

theorem steady_const (a : α) : Steady fun _ : G => a := fun _ _ ↦ rfl

theorem Steady.map {f : G → α} (h : Steady f) (φ : α → β) : Steady fun g => φ (f g) :=
  fun g g' ↦ congrArg φ (h g g')

theorem Steady.map₂ {γ : Type} {f : G → α} {f' : G → β} (h : Steady f) (h' : Steady f')
    (φ : α → β → γ) : Steady fun g => φ (f g) (f' g) :=
  fun g g' ↦ congrArg₂ φ (h g g') (h' g g')

theorem steady_injective {f : G → α} {φ : α → β} (hφ : Function.Injective φ) :
    (Steady fun g => φ (f g)) ↔ Steady f :=
  ⟨fun h g g' ↦ hφ (h g g'), fun h ↦ h.map φ⟩

/-- Only the part of the memory that is read matters, when there may be anything in it. -/
theorem steady_surjective {f : G → α} {π : H → G} (hπ : Function.Surjective π) :
    (Steady fun h => f (π h)) ↔ Steady f := by
  constructor
  · intro hf g g'
    obtain ⟨h, rfl⟩ := hπ g
    obtain ⟨h', rfl⟩ := hπ g'
    exact hf h h'
  · intro hf h h'
    exact hf (π h) (π h')

/-! ## Lists -/

/-- A list of values is steady if each of them is. -/
theorem steady_cons {f : G → α} {fs : G → List α} :
    (Steady fun g => f g :: fs g) ↔ Steady f ∧ Steady fs := by
  constructor
  · intro h
    exact ⟨fun g g' ↦ (List.cons.inj (h g g')).1, fun g g' ↦ (List.cons.inj (h g g')).2⟩
  · rintro ⟨hf, hfs⟩
    exact hf.map₂ hfs List.cons

/-! ## Answers -/

/-- Without an answer, what lies in the memory is returned. -/
theorem steady_getD [Nontrivial α] {o : Option α} {π : G → α} (hπ : Function.Surjective π) :
    (Steady fun g => o.getD (π g)) ↔ o.isSome := by
  cases o with
  | some a =>
      rw [Option.isSome_some]
      exact ⟨fun _ ↦ rfl, fun _ ↦ steady_const a⟩
  | none =>
      rw [Option.isSome_none]
      refine ⟨fun h ↦ ?_, fun h ↦ absurd h Bool.false_ne_true⟩
      obtain ⟨x, y, hxy⟩ := exists_pair_ne α
      have hid : Steady fun x : α => x := (steady_surjective hπ).mp h
      exact absurd (hid x y) hxy

section Sum

variable [Add α] [IsCancelAdd α]

/-- Adding the same to two numbers keeps them apart. -/
theorem foldl_add_injective (xs : List α) :
    Function.Injective fun acc => xs.foldl (· + ·) acc := by
  induction xs with
  | nil => exact fun _ _ h ↦ h
  | cons x xs ih => exact fun a b h ↦ add_right_cancel (ih h)

/-- A sum of answers, each with a memory of its own, is steady only if all are there. -/
theorem steady_foldl_add [DecidableEq ι] [Nontrivial α] {xs : List (ι × Option α)}
    (hkeys : (xs.map Prod.fst).Nodup) (acc : α) :
    (Steady fun g : ι → α => (xs.map fun x => x.2.getD (g x.1)).foldl (· + ·) acc) ↔
      ∀ x ∈ xs, x.2.isSome := by
  constructor
  · intro h x hx
    obtain ⟨front, back, rfl⟩ := List.append_of_mem hx
    obtain ⟨k, o⟩ := x
    cases o with
    | some a => rfl
    | none =>
        -- two memories that differ in the place of this summand alone
        obtain ⟨a, b, hab⟩ := exists_pair_ne α
        let g : α → ι → α := fun c ↦ Function.update (fun _ ↦ a) k c
        rw [List.map_append, List.map_cons, List.nodup_middle, List.nodup_cons,
          List.mem_append, not_or] at hkeys
        have hother : ∀ l : List (ι × Option α), k ∉ l.map Prod.fst → ∀ c,
            (l.map fun x => x.2.getD (g c x.1)) = l.map fun x => x.2.getD a := by
          intro l hl c
          refine List.map_congr_left fun y hy ↦ ?_
          have hne : y.1 ≠ k := by
            rintro rfl
            exact hl (List.mem_map_of_mem hy)
          have hg : g c y.1 = a := Function.update_of_ne hne c fun _ ↦ a
          rw [hg]
        have hsum := h (g a) (g b)
        simp only [List.map_append, List.map_cons, List.foldl_append, List.foldl_cons,
          hother front hkeys.1.1, hother back hkeys.1.2, Option.getD_none, g,
          Function.update_self] at hsum
        exact absurd (add_left_cancel (foldl_add_injective _ hsum)) hab
  · intro h g g'
    have hterms : (xs.map fun x => x.2.getD (g x.1)) = xs.map fun x => x.2.getD (g' x.1) := by
      refine List.map_congr_left fun x hx ↦ ?_
      obtain ⟨a, ha⟩ := Option.isSome_iff_exists.mp (h x hx)
      rw [ha, Option.getD_some, Option.getD_some]
    exact congrArg (List.foldl (· + ·) acc) hterms

/-- The same for a walk that adds up several answers at each of its stops. -/
theorem steady_foldl_zipIdx {S : Type} [DecidableEq S] [Nontrivial α]
    (ask : β → S → Option α) {π : G → Nat → S → α} (hπ : Function.Surjective π) {stats : List S}
    (hstats : stats.Nodup) (stops : List β) (acc : α) :
    (Steady fun g => stops.zipIdx.foldl (fun n x =>
      stats.foldl (fun n stat => n + (ask x.1 stat).getD (π g x.2 stat)) n) acc) ↔
      ∀ b ∈ stops, ∀ stat ∈ stats, (ask b stat).isSome := by
  let xs : List ((Nat × S) × Option α) :=
    stops.zipIdx.flatMap fun x => stats.map fun stat => ((x.2, stat), ask x.1 stat)
  have hterms : (fun g => stops.zipIdx.foldl (fun n x =>
      stats.foldl (fun n stat => n + (ask x.1 stat).getD (π g x.2 stat)) n) acc) =
      fun g => (xs.map fun x => x.2.getD (Function.uncurry (π g) x.1)).foldl (· + ·) acc := by
    funext g
    simp only [xs, List.foldl_map, List.foldl_flatMap, Function.uncurry_apply_pair]
  have hkeys : (xs.map Prod.fst).Nodup := by
    have hfst : xs.map Prod.fst =
        (stops.zipIdx.map Prod.snd).flatMap fun i => stats.map fun stat => (i, stat) := by
      simp only [xs, List.map_flatMap, List.map_map, List.flatMap_map, Function.comp_def]
    have hsnd : (stops.zipIdx.map Prod.snd).Nodup := by
      rw [List.zipIdx_map_snd]
      exact List.nodup_range'
    rw [hfst, List.nodup_flatMap]
    refine ⟨fun i _ ↦ hstats.map fun _ _ h ↦ (Prod.mk.inj h).2, hsnd.imp ?_⟩
    intro i j hij x hi hj
    obtain ⟨_, -, rfl⟩ := List.mem_map.mp hi
    obtain ⟨_, -, heq⟩ := List.mem_map.mp hj
    exact hij (congrArg Prod.fst heq).symm
  have hsurj : Function.Surjective fun g => Function.uncurry (π g) := by
    intro f
    obtain ⟨g, hg⟩ := hπ (Function.curry f)
    exact ⟨g, by simp only [hg, Function.uncurry_curry]⟩
  rw [hterms, steady_surjective (f := fun k : Nat × S → α =>
    (xs.map fun x => x.2.getD (k x.1)).foldl (· + ·) acc) hsurj, steady_foldl_add hkeys]
  constructor
  · intro h b hb stat hstat
    obtain ⟨i, hi⟩ := List.getElem?_of_mem hb
    have hmem : (b, i) ∈ stops.zipIdx := List.mk_mem_zipIdx_iff_getElem?.mpr hi
    exact h _ (List.mem_flatMap.mpr ⟨_, hmem, List.mem_map.mpr ⟨stat, hstat, rfl⟩⟩)
  · intro h x hx
    obtain ⟨y, hy, hx⟩ := List.mem_flatMap.mp hx
    obtain ⟨stat, hstat, rfl⟩ := List.mem_map.mp hx
    exact h y.1 (List.fst_mem_of_mem_zipIdx hy) stat hstat

end Sum

end Sflow.C
