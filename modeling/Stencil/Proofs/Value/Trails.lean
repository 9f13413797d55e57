import Mathlib.Data.List.Nodup
import Stencil.Proofs.Document.Plain

/-!
# Positions in a value

A position in a value is the list of steps that lead there, a key or an index each.
They are listed from the top down: a value before what is in it, and what is in it
in order.

## Main definitions

* `Step` — a step down from a value.
* `Value.trails` — the positions in a value.

## Main results

* `Value.trails_nodup` — no position occurs twice.
-/

namespace Stencil

/-- A step down from a value, to what stands under a key or to the item at an
index. -/
inductive Step where
  | key (k : Value)
  | index (i : Nat)
  deriving Repr

namespace Value

mutual
/-- The positions in a value from the top down and in order, each by the steps that
lead there. -/
def trails : Value → List (List Step)
  | .map es => [] :: entriesTrails es
  | .list xs => [] :: itemsTrails 0 xs
  | _ => [[]]

/-- The positions that are reached through the keys of a map. -/
def entriesTrails : List (Value × Value) → List (List Step)
  | [] => []
  | (k, v) :: es => v.trails.map (.key k :: ·) ++ entriesTrails es

/-- The positions that are reached through the indexes of a list, whose first one
is `i`. -/
def itemsTrails (i : Nat) : List Value → List (List Step)
  | [] => []
  | x :: xs => x.trails.map (.index i :: ·) ++ itemsTrails (i + 1) xs
end

theorem entriesTrails_eq (es : List (Value × Value)) :
    entriesTrails es = es.flatMap fun e => e.2.trails.map (.key e.1 :: ·) := by
  induction es with
  | nil => rw [entriesTrails, List.flatMap_nil]
  | cons e es ih => rw [entriesTrails, ih, List.flatMap_cons]

theorem itemsTrails_eq (i : Nat) (xs : List Value) :
    itemsTrails i xs = (xs.zipIdx i).flatMap fun x => x.1.trails.map (.index x.2 :: ·) := by
  induction xs generalizing i with
  | nil => rw [itemsTrails, List.zipIdx_nil, List.flatMap_nil]
  | cons x xs ih => rw [itemsTrails, ih, List.zipIdx_cons, List.flatMap_cons]

/-- The value itself is the first position in it. -/
theorem exists_trails (v : Value) : ∃ below, v.trails = [] :: below := by
  cases v <;> simp [trails]

/-- Positions differ if they are reached through steps that differ. -/
theorem nodup_steps {α : Type} {xs : List α} {step : α → Step} {below : α → List (List Step)}
    (each : ∀ x ∈ xs, (below x).Nodup) (apart : xs.Pairwise fun x y => step x ≠ step y) :
    (xs.flatMap fun x => (below x).map (step x :: ·)).Nodup := by
  refine List.nodup_flatMap.mpr ⟨fun x hx => ?_, apart.imp fun {x y} ne => ?_⟩
  · exact (each x hx).map fun a b h => (List.cons.inj h).2
  · rintro trail hx hy
    obtain ⟨a, -, rfl⟩ := List.mem_map.mp hx
    obtain ⟨b, -, h⟩ := List.mem_map.mp hy
    exact ne (List.cons.inj h).1.symm

mutual
/-- **No position occurs twice** in a value whose keys differ. -/
theorem trails_nodup : (v : Value) → v.WellKeyed → v.trails.Nodup
  | .map es, h => by
      obtain ⟨distinct, entries⟩ := h
      have apart : es.Pairwise fun a b => Step.key a.1 ≠ Step.key b.1 := by
        refine distinct.imp fun {a b} differ same => ?_
        rw [Step.key.inj same, same_self] at differ
        cases differ
      rw [trails, List.nodup_cons, entriesTrails_eq]
      exact ⟨by simp, nodup_steps (entriesTrails_nodup es entries) apart⟩
  | .list xs, h => by
      have apart : xs.zipIdx.Pairwise fun a b => Step.index a.2 ≠ Step.index b.2 := by
        have indexes : (xs.zipIdx.map (·.2)).Nodup := by
          rw [List.zipIdx_map_snd]
          exact List.nodup_range'
        exact (List.pairwise_map.mp indexes).imp fun ne same => ne (Step.index.inj same)
      rw [trails, List.nodup_cons, itemsTrails_eq]
      exact ⟨by simp, nodup_steps
        (fun x hx => itemsTrails_nodup xs h x.1 (List.fst_mem_of_mem_zipIdx hx)) apart⟩
  | .null, _ | .bool _, _ | .int _, _ | .float _, _ | .str _, _ | .bytes _, _ | .date _, _
  | .tuple _, _ | .object _, _ | .node _, _ => by
      rw [trails] <;> simp

theorem entriesTrails_nodup : (es : List (Value × Value)) → EntriesWellKeyed es →
    ∀ e ∈ es, e.2.trails.Nodup
  | [], _ => nofun
  | (_, v) :: es, h =>
    List.forall_mem_cons.mpr ⟨trails_nodup v h.2.1, entriesTrails_nodup es h.2.2⟩

theorem itemsTrails_nodup : (xs : List Value) → ItemsWellKeyed xs → ∀ x ∈ xs, x.trails.Nodup
  | [], _ => nofun
  | x :: xs, h => List.forall_mem_cons.mpr ⟨trails_nodup x h.1, itemsTrails_nodup xs h.2⟩
end

end Value

end Stencil
