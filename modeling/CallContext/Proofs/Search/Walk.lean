import Mathlib.Data.Nat.Find
import Mathlib.Data.List.Basic
import Mathlib.Logic.Relation
import Mathlib.Order.Basic

namespace CallContext.Search

variable {α : Type} {next : α → α → Prop} {starts : List α}

inductive Walk (next : α → α → Prop) : Nat → α → α → Prop
  | refl (place : α) : Walk next 0 place place
  | step {n : Nat} {first middle last : α} :
      Walk next n first middle → next middle last → Walk next (n + 1) first last

theorem Walk.cons {n : Nat} {first middle last : α} (stepped : next first middle)
    (walk : Walk next n middle last) : Walk next (n + 1) first last := by
  induction walk with
  | refl => exact .step (.refl first) stepped
  | step _ onward ih => exact .step (ih stepped) onward

theorem Walk.reverse {n : Nat} {first last : α} (walk : Walk next n first last) :
    Walk (fun a b => next b a) n last first := by
  induction walk with
  | refl => exact .refl _
  | step _ onward ih => exact .cons onward ih

theorem walk_reverse_iff {n : Nat} {first last : α} :
    Walk (fun a b => next b a) n first last ↔ Walk next n last first :=
  ⟨Walk.reverse, Walk.reverse⟩

theorem exists_walk_iff {first last : α} :
    (∃ n, Walk next n first last) ↔ Relation.ReflTransGen next first last := by
  constructor
  · rintro ⟨n, walk⟩
    induction walk with
    | refl => exact .refl
    | step _ onward ih => exact ih.tail onward
  · intro reachable
    induction reachable with
    | refl => exact ⟨0, .refl first⟩
    | tail _ onward ih =>
        obtain ⟨n, walk⟩ := ih
        exact ⟨n + 1, .step walk onward⟩

def Within (next : α → α → Prop) (starts : List α) (limit : Nat) (place : α) : Prop :=
  ∃ start ∈ starts, ∃ n ≤ limit, Walk next n start place

def IsDistance (next : α → α → Prop) (starts : List α) (n : Nat) (place : α) : Prop :=
  Within next starts n place ∧ ∀ m < n, ¬ Within next starts m place

theorem Within.mono {m n : Nat} {place : α} (within : Within next starts m place) (le : m ≤ n) :
    Within next starts n place := by
  obtain ⟨start, member, steps, bound, walk⟩ := within
  exact ⟨start, member, steps, bound.trans le, walk⟩

theorem within_zero_iff {place : α} : Within next starts 0 place ↔ place ∈ starts := by
  constructor
  · rintro ⟨start, member, steps, bound, walk⟩
    obtain rfl : steps = 0 := Nat.le_zero.mp bound
    cases walk
    exact member
  · intro member
    exact ⟨place, member, 0, le_rfl, .refl place⟩

theorem Within.step {n : Nat} {before place : α} (within : Within next starts n before)
    (stepped : next before place) : Within next starts (n + 1) place := by
  obtain ⟨start, member, steps, bound, walk⟩ := within
  exact ⟨start, member, steps + 1, Nat.succ_le_succ bound, .step walk stepped⟩

theorem within_succ_iff {n : Nat} {place : α} :
    Within next starts (n + 1) place ↔
      Within next starts n place ∨ ∃ before, Within next starts n before ∧ next before place := by
  constructor
  · rintro ⟨start, member, steps, bound, walk⟩
    cases walk with
    | refl => exact .inl ⟨place, member, 0, Nat.zero_le n, .refl place⟩
    | @step steps _ before _ walk stepped =>
        exact .inr ⟨before, ⟨start, member, steps, Nat.le_of_succ_le_succ bound, walk⟩, stepped⟩
  · rintro (within | ⟨before, within, stepped⟩)
    · exact within.mono (Nat.le_succ n)
    · exact within.step stepped

theorem Within.exists_isDistance {n : Nat} {place : α} (within : Within next starts n place) :
    ∃ distance ≤ n, IsDistance next starts distance place := by
  classical
  have reachable : ∃ m, Within next starts m place := ⟨n, within⟩
  exact ⟨Nat.find reachable, Nat.find_min' reachable within, Nat.find_spec reachable,
    fun m less => Nat.find_min reachable less⟩

theorem isDistance_zero_iff {place : α} : IsDistance next starts 0 place ↔ place ∈ starts := by
  rw [IsDistance, within_zero_iff]
  exact and_iff_left fun m less => absurd less (Nat.not_lt_zero m)

theorem isDistance_succ_iff {n : Nat} {place : α} :
    IsDistance next starts (n + 1) place ↔
      ¬ Within next starts n place ∧ ∃ before, IsDistance next starts n before ∧ next before place := by
  constructor
  · rintro ⟨within, least⟩
    have far : ¬ Within next starts n place := least n (Nat.lt_succ_self n)
    refine ⟨far, ?_⟩
    obtain near | ⟨before, within, stepped⟩ := within_succ_iff.mp within
    · exact absurd near far
    · refine ⟨before, ⟨within, fun m less nearer => far ?_⟩, stepped⟩
      exact (nearer.step stepped).mono less
  · rintro ⟨far, before, ⟨within, -⟩, stepped⟩
    exact ⟨within.step stepped, fun m less nearer => far (nearer.mono (Nat.le_of_lt_succ less))⟩

theorem IsDistance.unique {m n : Nat} {place : α} (one : IsDistance next starts m place)
    (other : IsDistance next starts n place) : m = n := by
  obtain less | equal | greater := Nat.lt_trichotomy m n
  · exact absurd one.1 (other.2 m less)
  · exact equal
  · exact absurd other.1 (one.2 n greater)

theorem IsDistance.le_of_walk {m n : Nat} {start place : α} (distance : IsDistance next [start] n place)
    (walk : Walk next m start place) : n ≤ m := by
  by_contra nearer
  exact distance.2 m (Nat.not_le.mp nearer) ⟨start, List.mem_singleton_self start, m, le_rfl, walk⟩

theorem IsDistance.walk {n : Nat} {start place : α} (distance : IsDistance next [start] n place) :
    Walk next n start place := by
  obtain ⟨origin, given, m, le, walk⟩ := distance.1
  obtain rfl := List.mem_singleton.mp given
  rwa [le_antisymm le (distance.le_of_walk walk)] at walk

theorem within_reverse_iff {n : Nat} {first last : α} :
    Within (fun a b => next b a) [first] n last ↔ Within next [last] n first := by
  simp only [Within, List.mem_singleton, exists_eq_left, walk_reverse_iff]

theorem isDistance_reverse_iff {n : Nat} {first last : α} :
    IsDistance (fun a b => next b a) [first] n last ↔ IsDistance next [last] n first := by
  simp only [IsDistance, within_reverse_iff]

theorem IsDistance.exists_at {m n : Nat} {place : α} (distance : IsDistance next starts n place)
    (le : m ≤ n) : ∃ before, IsDistance next starts m before := by
  induction n generalizing place with
  | zero =>
      obtain rfl : m = 0 := Nat.le_zero.mp le
      exact ⟨place, distance⟩
  | succ n ih =>
      obtain rfl | less := Nat.eq_or_lt_of_le le
      · exact ⟨place, distance⟩
      · obtain ⟨-, before, nearer, -⟩ := isDistance_succ_iff.mp distance
        exact ih nearer (Nat.le_of_lt_succ less)

end CallContext.Search
