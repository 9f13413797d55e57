import Stencil.Proofs.Schema.Overriding

/-!
# How building a schema can fault

Most of what can go wrong when the schema of a document is built is an error
of the library: annotations are checked, and their problems are reported. What
is not checked is the keys of maps. A key that cannot be one is a fault,
whether it is met while the types of a map are collected or while a declared
value is unwrapped; there is no other fault.

## Main definitions

* `UnhashableKey` — a fault for the key of an entry among some nodes.

## Main results

* `Node.toPlain_fault` — unwrapping faults at keys only.
* `DocumentSchema.ofDocument_fault` — and so does building a schema.
-/

namespace Stencil

/-- Whether a fault is that of a key that cannot be one, of a map entry among
some nodes. -/
def UnhashableKey (nodes : List Node) (f : Fault) : Prop :=
  ∃ e : Entry Node, .entry e ∈ nodes ∧ ∃ kind, e.key.unhashable? = some kind ∧ f = .unhashable kind

namespace UnhashableKey

theorem mono {ns ms : List Node} {f : Fault} (h : UnhashableKey ns f) (sub : ns ⊆ ms) :
    UnhashableKey ms f := by
  obtain ⟨e, mem, hkey⟩ := h
  exact ⟨e, sub mem, hkey⟩

/-- The keys of entries are checked one by one. -/
theorem of_checkedKey {e : Entry Node} {ns : List Node} {f : Fault} (mem : .entry e ∈ ns)
    (h : checkedKey e.key = .error (.fault f)) : UnhashableKey ns f := by
  unfold checkedKey at h
  cases hkind : e.key.unhashable? with
  | none =>
      rw [hkind] at h
      cases h
  | some kind =>
      rw [hkind] at h
      cases h
      exact ⟨e, mem, kind, hkind, rfl⟩

end UnhashableKey

namespace Node

/-! ## Unwrapping -/

theorem entry_mem_entriesNodes (e : Entry Node) (es : List (Entry Node)) :
    .entry e ∈ entriesNodes (e :: es) := by
  rw [entriesNodes]
  exact List.mem_cons_self ..

theorem entryNodes_subset (e : Entry Node) (es : List (Entry Node)) :
    entryNodes e ⊆ entriesNodes (e :: es) := by
  rw [entriesNodes, List.cons_append]
  exact List.Subset.trans (List.subset_append_left _ _) (List.subset_cons_self _ _)

theorem entriesNodes_subset (e : Entry Node) (es : List (Entry Node)) :
    entriesNodes es ⊆ entriesNodes (e :: es) := by
  rw [entriesNodes]
  exact List.subset_append_right _ _

theorem heldNodes_subset (i : Held Node) (is : List (Held Node)) :
    heldNodes i ⊆ itemsNodes (i :: is) := by
  rw [itemsNodes, List.cons_append]
  exact List.Subset.trans (List.subset_append_left _ _) (List.subset_cons_self _ _)

theorem itemsNodes_subset (i : Held Node) (is : List (Held Node)) :
    itemsNodes is ⊆ itemsNodes (i :: is) := by
  rw [itemsNodes]
  exact List.subset_append_right _ _

mutual
/-- **Unwrapping a tree faults at keys only.** -/
theorem toPlain_fault : (n : Node) → ∀ {f : Fault}, n.toPlain = .error (.fault f) →
    UnhashableKey n.nodes f
  | .plain _, _, h => by
      rw [toPlain] at h
      cases h
  | .bare _, _, h => by
      rw [toPlain] at h
      cases h
  | .document d, _, h => by
      rw [toPlain] at h
      rw [nodes]
      exact (heldPlain_fault d h).mono (List.subset_cons_self _ _)
  | .entry e, _, h => by
      rw [toPlain] at h
      rw [nodes]
      exact (entryPlain_fault e h).mono (List.subset_cons_self _ _)
  | .item i, _, h => by
      rw [toPlain] at h
      rw [nodes]
      exact (heldPlain_fault i h).mono (List.subset_cons_self _ _)
  | .map _ es, _, h => by
      rw [toPlain] at h
      rw [nodes]
      rcases bind_eq_error.mp h with h | ⟨_, _, h⟩
      · exact (entriesPlain_fault es h).mono (List.subset_cons_self _ _)
      · cases h
  | .array _ is, _, h => by
      rw [toPlain] at h
      rw [nodes]
      rcases bind_eq_error.mp h with h | ⟨_, _, h⟩
      · exact (itemsPlain_fault is h).mono (List.subset_cons_self _ _)
      · cases h

theorem heldPlain_fault : (i : Held Node) → ∀ {f : Fault}, heldPlain i = .error (.fault f) →
    UnhashableKey (heldNodes i) f
  | ⟨_, n⟩, _, h => toPlain_fault n h

theorem entryPlain_fault : (e : Entry Node) → ∀ {f : Fault}, entryPlain e = .error (.fault f) →
    UnhashableKey (entryNodes e) f
  | ⟨_, _, n⟩, _, h => toPlain_fault n h

theorem entriesPlain_fault : (es : List (Entry Node)) → ∀ {f : Fault},
    entriesPlain es = .error (.fault f) → UnhashableKey (entriesNodes es) f
  | [], _, h => by
      rw [entriesPlain] at h
      cases h
  | ⟨m, k, n⟩ :: es, _, h => by
      rw [entriesPlain] at h
      rcases bind_eq_error.mp h with h | ⟨_, _, h⟩
      · exact (toPlain_fault n h).mono (entryNodes_subset ⟨m, k, n⟩ es)
      · rcases bind_eq_error.mp h with h | ⟨_, _, h⟩
        · exact .of_checkedKey (entry_mem_entriesNodes ⟨m, k, n⟩ es) h
        · rcases bind_eq_error.mp h with h | ⟨_, _, h⟩
          · exact (entriesPlain_fault es h).mono (entriesNodes_subset _ es)
          · cases h

theorem itemsPlain_fault : (is : List (Held Node)) → ∀ {f : Fault},
    itemsPlain is = .error (.fault f) → UnhashableKey (itemsNodes is) f
  | [], _, h => by
      rw [itemsPlain] at h
      cases h
  | ⟨m, n⟩ :: is, _, h => by
      rw [itemsPlain] at h
      rcases bind_eq_error.mp h with h | ⟨_, _, h⟩
      · exact (toPlain_fault n h).mono (heldNodes_subset ⟨m, n⟩ is)
      · rcases bind_eq_error.mp h with h | ⟨_, _, h⟩
        · exact (itemsPlain_fault is h).mono (itemsNodes_subset _ is)
        · cases h
end

end Node

/-! ## Annotations -/

namespace Override

theorem lastAny_fault (p : Position) (b : Bool) (kwargs : List (Text × Value)) (f : Fault) :
    lastAny p b kwargs ≠ .error (.fault f) := by
  induction kwargs generalizing b with
  | nil => nofun
  | cons kwarg kwargs ih =>
      obtain ⟨name, v⟩ := kwarg
      unfold lastAny
      split
      · nofun
      · cases v with
        | bool c => exact ih c
        | _ => nofun

theorem ofType_fault (p : Position) (a : Annotation) (f : Fault) :
    ofType p a ≠ .error (.fault f) := by
  unfold ofType
  split
  · nofun
  · intro h
    rcases bind_eq_error.mp h with h | ⟨_, _, h⟩
    · exact lastAny_fault _ _ _ _ h
    · cases h

theorem ofNullable_fault {p : Position} {a : Annotation}
    {valueType : Option (Except Failure SchemaType)} {f : Fault}
    (h : ofNullable p a valueType = .error (.fault f)) : valueType = some (.error (.fault f)) := by
  unfold ofNullable at h
  split at h
  · cases h
  · cases valueType with
    | none => cases h
    | some t =>
        rcases bind_eq_error.mp h with h | ⟨_, _, h⟩
        · rw [h]
        · cases h

end Override

namespace Node

/-- No annotation is refused with a fault. -/
theorem Rejects.no_fault {n : Node} {f : Fault} : ¬ n.Rejects (.fault f) := by
  rintro (⟨-, hrefused⟩ | ⟨-, hrefused⟩)
  · exact Override.ofType_fault _ _ _ hrefused
  · obtain ⟨c, -, hfirst⟩ := Option.map_eq_some_iff.mp (Override.ofNullable_fault hrefused)
    cases hfirst

/-! ## Types -/

/-- **The type of a tree faults at keys only.** -/
theorem inferType_fault (n : Node) : ∀ {p : Position} {f : Fault},
    inferType p n = .error (.fault f) → UnhashableKey n.nodes f := by
  induction n using childInduction with
  | step n ih =>
      intro p f h
      have of_child : ∀ c ∈ n.children, inferType n.position c = .error (.fault f) →
          UnhashableKey n.nodes f := by
        intro c hc hfault
        exact (ih c hc hfault).mono fun x hx => mem_nodes.mpr (.inr ⟨c, hc, hx⟩)
      rcases inferType_eq_error h with hresolve | hdeclared | ⟨-, hvalue⟩
      · rcases resolveType_eq_error hresolve with hrejects | ⟨-, c, first, hc⟩
        · exact absurd hrejects Rejects.no_fault
        · exact of_child c (List.mem_of_head? first) hc
      · cases n with
        | bare m => cases hdeclared
        | _ => exact toPlain_fault _ hdeclared
      · rcases valueType_eq_error hvalue with ⟨c, mem, hc⟩ | ⟨e, mem, hkey⟩
        · exact of_child c (n.described_subset mem) hc
        · exact .of_checkedKey (mem_nodes.mpr (.inr ⟨_, mem, mem_nodes.mpr (.inl ⟨rfl, rfl⟩)⟩)) hkey

end Node

/-- **Building a schema faults at keys only**: a fault is that of a key in the
document that cannot be one. -/
theorem DocumentSchema.ofDocument_fault {d : Document} {f : Fault}
    (h : ofDocument d = .error (.fault f)) : UnhashableKey (Node.heldNodes d) f := by
  rcases bind_eq_error.mp h with h | ⟨_, _, h⟩
  · have htype : Node.inferType .unknown (.document d) = .error (.fault f) := by
      rw [Node.inferType, h]
    obtain ⟨e, mem, hkey⟩ := Node.inferType_fault _ htype
    rw [Node.nodes] at mem
    rcases List.mem_cons.mp mem with hroot | mem
    · cases hroot
    · exact ⟨e, mem, hkey⟩
  · cases h

end Stencil
