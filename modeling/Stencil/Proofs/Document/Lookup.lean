import Mathlib.Data.List.Find
import Mathlib.Data.List.Nodup
import Stencil.Document.Walk
import Stencil.Proofs.Schema.Faults
import Stencil.Proofs.Value.Forms

/-!
# Looking into maps

A map is looked into in two ways. Its entries are searched from the front, for
the first one under a key; and its plain value keeps, of the entries under a key,
what was written last. Which keys are found is the same both ways. What is found
under a key is the same as long as the key is not repeated: under one that is,
searching finds the value of the first entry, and the plain value has that of the
last.

## Main definitions

* `Node.Leaves` — what is left of the entries of a map in its plain value.

## Main results

* `Node.exists_toPlain` — a tree whose keys can be keys has a plain value.
* `Node.leaves_of_toPlain` — the plain value of a map.
* `lookups_compared` — both ways of looking into a map.
-/

namespace Stencil

namespace Node

/-! ## The plain value of a map -/

/-- A tree whose keys can be keys has a plain value. -/
theorem exists_toPlain {n : Node} (hashable : ∀ e, .entry e ∈ n.nodes → e.key.isHashable = true) :
    ∃ v, n.toPlain = .ok v := by
  cases hplain : n.toPlain with
  | ok v => exact ⟨v, rfl⟩
  | error x =>
      obtain ⟨f, rfl⟩ := toPlain_onlyFaults n x hplain
      obtain ⟨e, mem, kind, hkind, -⟩ := toPlain_fault n hplain
      have key := hashable e mem
      rw [Value.isHashable, hkind] at key
      cases key

/-- The first plain value under a key is that of the first entry under it, if
there is one. -/
theorem find?_forall₂ {es : List (Entry Node)} {plain : List (Value × Value)} {key : Value}
    (h : List.Forall₂ (fun e p => e.key = p.1 ∧ e.key.isHashable = true ∧ e.value.toPlain = .ok p.2)
      es plain) :
    (es.find? (fun e => e.key.same key) = none ∧ Keyed.find? key plain = none) ∨
      ∃ e v, es.find? (fun e => e.key.same key) = some e ∧ Keyed.find? key plain = some v ∧
        e.value.toPlain = .ok v := by
  induction h with
  | nil => exact .inl ⟨rfl, rfl⟩
  | @cons e p es plain one _ ih =>
      obtain ⟨hkey, -, hvalue⟩ := one
      rw [List.find?_cons, Keyed.find?, ← hkey]
      cases e.key.same key with
      | true => exact .inr ⟨e, p.2, rfl, rfl, hvalue⟩
      | false => exact ih

/-- What is left of the entries of a map in its plain value: their keys, without
the ones that are the same as an earlier one, and under each key the plain value
of the last entry under it. -/
structure Leaves (es : List (Entry Node)) (plain : List (Value × Value)) : Prop where
  keys : plain.map (·.1) = (es.map (·.key)).eraseDupsBy fun new old => old.same new
  last (key : Value) :
    (es.reverse.find? (fun e => e.key.same key) = none ∧ Keyed.find? key plain = none) ∨
      ∃ e v, es.reverse.find? (fun e => e.key.same key) = some e ∧
        Keyed.find? key plain = some v ∧ e.value.toPlain = .ok v

/-- **The plain value of a map** keeps its keys in order, of keys that are the same
the first one with the last value. -/
theorem leaves_of_toPlain {m : Mark} {es : List (Entry Node)} {v : Value}
    (h : (Node.map m es).toPlain = .ok v) : ∃ plain, v = .map plain ∧ Leaves es plain := by
  rw [toPlain] at h
  obtain ⟨pairs, hpairs, h⟩ := bind_eq_ok.mp h
  cases h
  have each := entriesPlain_eq_ok hpairs
  have hashable : ∀ p ∈ pairs, p.1.isHashable = true := by
    intro p hp
    obtain ⟨e, hkey, he, -⟩ := exists_of_forall₂ each.flip p hp
    rw [← hkey]
    exact he
  refine ⟨_, rfl, by rw [Keyed.ofList_keys, entriesPlain_keys hpairs], fun key => ?_⟩
  rw [Keyed.find?_ofList hashable]
  exact find?_forall₂ (List.forall₂_reverse_iff.mpr each)

/-! ## Both ways of looking into a map -/

/-- Some nodes are different. -/
theorem exists_ne (n : Node) : ∃ other, other ≠ n := by
  cases n with
  | plain v => exact ⟨.map ⟨.unknown, []⟩ [], nofun⟩
  | _ => exact ⟨.plain .null, nofun⟩

/-- Searching entries finds the value of the first one under a key, whatever is
asked for otherwise, or nothing. -/
theorem exists_get_iff {key : Value} {es : List (Entry Node)} :
    (∃ n, ∀ default, get key es default = n) ↔ (es.find? fun e => e.key.equal key).isSome = true := by
  unfold get
  cases es.find? fun e => e.key.equal key with
  | some e => exact ⟨fun _ => rfl, fun _ => ⟨e.value, fun _ => rfl⟩⟩
  | none =>
      refine ⟨fun ⟨n, found⟩ => ?_, nofun⟩
      obtain ⟨other, ne⟩ := n.exists_ne
      exact absurd (found other) ne

/-- Keys that can be keys have different forms exactly if none is the same as a
later one. -/
theorem forms_nodup {es : List (Entry Node)} (hashable : ∀ e ∈ es, e.key.isHashable = true) :
    (es.map fun e => e.key.keyForm).Nodup ↔ es.Pairwise fun a b => a.key.same b.key = false := by
  rw [List.Nodup, List.pairwise_map]
  refine List.Pairwise.iff_of_mem fun {a b} ha _ => ?_
  rw [ne_eq, ← Value.same_iff_keyForm _ (hashable a ha), Bool.not_eq_true]

/-- Where no key is repeated, entries are found alike from both ends. -/
theorem find?_reverse {es : List (Entry Node)} (hashable : ∀ e ∈ es, e.key.isHashable = true)
    (single : es.Pairwise fun a b => a.key.same b.key = false) (key : Value) :
    es.reverse.find? (fun e => e.key.same key) = es.find? fun e => e.key.same key := by
  have forms := (forms_nodup hashable).mpr single
  refine (List.find?_eq_find?_of_perm (List.reverse_perm es).symm ?_).symm
  rintro a ⟨ha, hsame⟩ b ⟨hb, hsame'⟩
  rw [Value.same_iff_keyForm _ (hashable a ha)] at hsame
  rw [Value.same_iff_keyForm _ (hashable b hb)] at hsame'
  exact List.inj_on_of_nodup_map forms ha hb (hsame.trans hsame'.symm)

end Node

/-- **Both ways of looking into a map.** A tree whose keys can be keys has a
plain value. A key that equals itself is found by searching the entries of a map
exactly if it is a key of the plain value. What is found there is the plain value
of the last entry under it, while searching finds the first: they agree exactly
if the first and the last entry under the key have the same plain value, as they
have if no key is repeated. -/
theorem lookups_compared (m : Mark) (es : List (Entry Node))
    (hashable : ∀ e, .entry e ∈ (Node.map m es).nodes → e.key.isHashable = true) :
    ∃ plain, (Node.map m es).toPlain = .ok (.map plain) ∧
      ∀ key : Value, key.equal key = true →
        (Keyed.hasKey key plain = true ↔ ∃ n, ∀ default, Node.get key es default = n) ∧
        ∀ w, Keyed.find? key plain = some w →
          ∃ first last v, es.find? (fun e => e.key.equal key) = some first ∧
            es.reverse.find? (fun e => e.key.equal key) = some last ∧
            (∀ default, Node.get key es default = first.value) ∧
            first.value.toPlain = .ok v ∧ last.value.toPlain = .ok w ∧
            ((es.Pairwise fun a b => a.key.same b.key = false) → v = w) := by
  obtain ⟨v, hv⟩ := Node.exists_toPlain hashable
  obtain ⟨plain, rfl, leaves⟩ := Node.leaves_of_toPlain hv
  have below : ∀ e ∈ es, ∀ n ∈ (Node.entry e).nodes, n ∈ (Node.map m es).nodes :=
    fun e he n hn => Node.mem_nodes.mpr (.inr ⟨.entry e, List.mem_map_of_mem he, hn⟩)
  have keys : ∀ e ∈ es, e.key.isHashable = true := fun e he =>
    hashable e (below e he _ (Node.mem_nodes.mpr (.inl ⟨rfl, rfl⟩)))
  have values : ∀ e ∈ es, ∃ w, (Node.entry e).toPlain = .ok w := fun e he =>
    Node.exists_toPlain fun e' he' => hashable e' (below e he _ he')
  refine ⟨plain, hv, fun key self => ?_⟩
  -- Searched for by one comparison or the other, the same entries are found.
  have forwards : es.find? (fun e => e.key.equal key) = es.find? fun e => e.key.same key :=
    List.find?_congr fun e he => Value.equal_eq_same (keys e he) self
  have backwards : es.reverse.find? (fun e => e.key.equal key) =
      es.reverse.find? fun e => e.key.same key :=
    List.find?_congr fun e he => Value.equal_eq_same (keys e (List.mem_reverse.mp he)) self
  have both : (es.find? fun e => e.key.same key).isSome =
      (es.reverse.find? fun e => e.key.same key).isSome := by
    rw [Bool.eq_iff_iff, List.find?_isSome, List.find?_isSome]
    simp
  rw [Node.exists_get_iff, forwards, backwards, both, Keyed.hasKey]
  rcases leaves.last key with ⟨hlast, hw⟩ | ⟨last, w, hlast, hw, last_plain⟩
  · rw [hlast, hw]
    exact ⟨Iff.rfl, nofun⟩
  · rw [hlast, hw]
    rw [hlast] at both
    obtain ⟨first, hfirst⟩ := Option.isSome_iff_exists.mp both
    obtain ⟨v, first_plain⟩ := values first (List.mem_of_find?_eq_some hfirst)
    rw [Node.toPlain_of_held rfl] at first_plain
    refine ⟨Iff.rfl, ?_⟩
    rintro _ ⟨⟩
    refine ⟨first, last, v, hfirst, rfl, fun default => ?_, first_plain, last_plain, fun single => ?_⟩
    · rw [Node.get, forwards, hfirst]
    · have one : last = first := by
        rw [← Option.some.injEq, ← hlast, ← hfirst]
        exact Node.find?_reverse keys single key
      rw [one, first_plain] at last_plain
      exact Except.ok.inj last_plain

/-- A map that writes one key twice, as an integer and as a truth value: searching
finds the first text under it, and the plain value has the second one. -/
theorem lookups_compared_repeated_key :
    let unknown : Mark := .ofPosition .unknown
    let es : List (Entry Node) :=
      [⟨unknown, .int 1, .plain (.str "first")⟩, ⟨unknown, .str "name", .map unknown []⟩,
        ⟨unknown, .bool true, .plain (.str "last")⟩]
    (∀ e, .entry e ∈ (Node.map unknown es).nodes → e.key.isHashable = true) ∧
      ∃ plain, (Node.map unknown es).toPlain = .ok (.map plain) ∧
        Keyed.find? (.int 1) plain = some (.str "last") ∧
        ∀ default, Node.get (.int 1) es default = .plain (.str "first") := by
  intro unknown es
  have hashable : ∀ e, .entry e ∈ (Node.map unknown es).nodes → e.key.isHashable = true := by
    have nodes : (Node.map unknown es).nodes = [.map unknown es, .entry es[0], .entry es[1],
        .map unknown [], .entry es[2]] := by
      simp [es, Node.nodes, Node.entriesNodes, Node.entryNodes]
    rw [nodes]
    simp [es, Value.isHashable, Value.unhashable?]
  obtain ⟨plain, made, compared⟩ := lookups_compared unknown es hashable
  have found : Keyed.find? (.int 1) plain = some (.str "last") := by
    cases made.symm.trans (show (Node.map unknown es).toPlain = .ok (.map _) by rfl)
    with_unfolding_all rfl
  obtain ⟨first, last, v, hfirst, -, searched, -⟩ := (compared (.int 1) (by decide +kernel)).2 _ found
  have front : es.find? (fun e => e.key.equal (.int 1)) = some es[0] := by with_unfolding_all rfl
  cases hfirst.symm.trans front
  exact ⟨hashable, plain, made, found, searched⟩

end Stencil
